import ModularLexer.Proofs.Runs.Drivers

/-!
What runs keep true. A property of the pass that starting over, taking input and moving the position
restore, where what is asked for is granted, holds wherever a program stands and at the end of each
run, whatever handlers, forks and failures lie between.
-/
namespace ModularLexer

structure Pass.SamePlace (p q : Pass) : Prop where
  input : q.input = p.input
  offset : q.offset = p.offset
  rest : q.rest = p.rest
  behind : q.behind = p.behind
  position : q.position = p.position

namespace Pass.SamePlace

theorem consumed {p q : Pass} (h : p.SamePlace q) : q.consumed = p.consumed :=
  congrArg List.reverse h.behind

theorem queue (p : Pass) (queue : List Token) : p.SamePlace { p with queue := queue } :=
  ⟨rfl, rfl, rfl, rfl, rfl⟩

theorem push (p : Pass) (t : Token) : p.SamePlace (p.push t) := ⟨rfl, rfl, rfl, rfl, rfl⟩

theorem pushStack (p : Pass) (t : Token) : p.SamePlace (p.pushStack t) := ⟨rfl, rfl, rfl, rfl, rfl⟩

theorem popStack (p : Pass) : p.SamePlace p.popStack.2 := by
  unfold Pass.popStack
  split <;> exact ⟨rfl, rfl, rfl, rfl, rfl⟩

theorem append (p : Pass) (value : Text) : p.SamePlace (p.append value) := by
  unfold Pass.append
  split
  · exact ⟨rfl, rfl, rfl, rfl, rfl⟩
  · split <;> exact ⟨rfl, rfl, rfl, rfl, rfl⟩

end Pass.SamePlace

/-- A property that holds at each start and is kept where the pass moves on. Counting a text of
one's own as consumed and moving the position alone have to be granted. -/
structure Pass.Invariant (grants : Pass → Request → Prop) (I : Pass → Prop) : Prop where
  start (input : Text) : I (.start input)
  stay {p q : Pass} : p.SamePlace q → I p → I q
  consume {p q : Pass} {bytes : Nat} {taken : Text} :
    p.consume bytes = .ok (taken, q) → I p → I q
  consumeAs {p q : Pass} {bytes : Nat} {value : Text} :
    grants p (.consumeAs bytes value) → p.consumeAs bytes value = .ok q → I p → I q
  move {p : Pass} {value : Text} {bytes : Nat} :
    grants p (.move value bytes) → I p → I (p.move value bytes)

variable {grants : Pass → Request → Prop} {I : Pass → Prop}

theorem EffectRule.of_invariant (hI : Pass.Invariant grants I) :
    EffectRule fun m n => I m.lexer.pass → I n.lexer.pass where
  refl _ := id
  trans hm hn h := hn (hm h)
  consume := hI.consume
  queue m queue := hI.stay (.queue m.lexer.pass queue)
  push m t := hI.stay (.push m.lexer.pass t)
  record _ _ := id

/-- Whatever is asked for is granted where it is asked. -/
def Granted (grants : Pass → Request → Prop) (sights : List Sight) : Prop :=
  ∀ k r, .station k (some r) ∈ sights → grants k.lexer.pass r

theorem granted_nil : Granted grants [] := by
  intro k r h
  cases h

theorem granted_cons {sight : Sight} {sights : List Sight} :
    Granted grants (sight :: sights) ↔
      (∀ k r, sight = .station k (some r) → grants k.lexer.pass r) ∧ Granted grants sights := by
  constructor
  · intro h
    exact ⟨fun k r hsight => h k r (hsight ▸ List.mem_cons_self),
      fun k r hk => h k r (List.mem_cons_of_mem sight hk)⟩
  · rintro ⟨hsight, h⟩ k r hk
    rcases List.mem_cons.1 hk with hk | hk
    · exact hsight k r hk.symm
    · exact h k r hk

instance Granted.decidable [∀ p r, Decidable (grants p r)] :
    (sights : List Sight) → Decidable (Granted grants sights)
  | [] => isTrue granted_nil
  | .station k (some r) :: sights =>
    have := Granted.decidable sights
    decidable_of_iff (grants k.lexer.pass r ∧ Granted grants sights) (by simp [granted_cons])
  | .station _ none :: sights | .answer .. :: sights | .derived _ :: sights | .forked :: sights
  | .joined :: sights =>
    have := Granted.decidable sights
    decidable_of_iff (Granted grants sights) (by simp [granted_cons])

def Holds (I : Pass → Prop) (sights : List Sight) : Prop :=
  ∀ k r?, .station k r? ∈ sights → I k.lexer.pass

theorem granted_append {front back : List Sight} :
    Granted grants (front ++ back) ↔ Granted grants front ∧ Granted grants back := by
  simp only [Granted, List.mem_append, or_imp, forall_and]

theorem holds_nil : Holds I [] := by
  intro k r? h
  cases h

theorem holds_append {front back : List Sight} :
    Holds I (front ++ back) ↔ Holds I front ∧ Holds I back := by
  simp only [Holds, List.mem_append, or_imp, forall_and]

theorem holds_station {m : Machine} {r? : Option Request} {sights : List Sight} :
    Holds I (.station m r? :: sights) ↔ I m.lexer.pass ∧ Holds I sights := by
  simp [Holds, or_imp, forall_and]

namespace Watched

variable {α β : Type}

/-- From a machine on, if all that is asked for is granted, a property holds at each station and at
the end. -/
def KeepsAt (grants : Pass → Request → Prop) (I : Pass → Prop) (x : Watched α) (m : Machine) :
    Prop :=
  Granted grants (x m).1 → Holds I (x m).1 ∧ ∀ r n, (x m).2 = some (r, n) → I n.lexer.pass

def Keeps (grants : Pass → Request → Prop) (I : Pass → Prop) (x : Watched α) : Prop :=
  ∀ ⦃m⦄, I m.lexer.pass → x.KeepsAt grants I m

/-- What comes second goes on from where the first one has led. -/
theorem KeepsAt.bind {x : Watched α} {f : α → Watched β} {m : Machine}
    (hx : KeepsAt grants I x m) (hf : ∀ a, Keeps grants I (f a)) :
    KeepsAt grants I (x >>= f) m := by
  intro hgranted
  rcases bind_cases x f m with ⟨sights, a, n, h, hbind⟩ | ⟨hsights, hfailed⟩
  · rw [KeepsAt, h] at hx
    rw [hbind] at hgranted ⊢
    obtain ⟨hfront, hback⟩ := granted_append.1 hgranted
    obtain ⟨hheld, hn⟩ := hx hfront
    obtain ⟨hheld', hend⟩ := hf a (hn _ n rfl) hback
    exact ⟨holds_append.2 ⟨hheld, hheld'⟩, hend⟩
  · rw [hsights] at hgranted ⊢
    obtain ⟨hheld, hend⟩ := hx hgranted
    refine ⟨hheld, ?_⟩
    intro r n h
    obtain ⟨e, he, -⟩ := hfailed r n h
    exact hend _ n he

theorem KeepsAt.attempt {x : Watched α} {m : Machine} (hx : KeepsAt grants I x m) :
    KeepsAt grants I (attempt x) m := by
  intro hgranted
  obtain ⟨hheld, hend⟩ := hx hgranted
  refine ⟨hheld, ?_⟩
  intro r n h
  obtain ⟨outcome, hk, -⟩ := LexM.exists_of_attempt (x := x.value) h
  exact hend outcome n hk

theorem KeepsAt.modifyPass (f : Pass → Pass) {m : Machine} (hf : I (f m.lexer.pass)) :
    KeepsAt grants I (lift (LexM.modifyPass f)) m := by
  intro _
  refine ⟨holds_nil, ?_⟩
  intro r n h
  cases h
  exact hf

namespace Keeps

theorem lift {x : LexM α} (hx : LexM.Moves (fun m n => I m.lexer.pass → I n.lexer.pass) x) :
    Keeps grants I (lift x) := by
  intro m hm _
  refine ⟨holds_nil, ?_⟩
  intro r n h
  exact (hx h).1 hm

theorem timeout : Keeps grants I (Watched.lift (LexM.timeout : LexM α)) := by
  apply lift
  intro m r n h
  cases h

theorem see {sight : Machine → Sight} (hsight : ∀ m, I m.lexer.pass → Holds I [sight m]) :
    Keeps grants I (see sight) := by
  intro m hm _
  refine ⟨hsight m hm, ?_⟩
  intro r n h
  cases h
  exact hm

/-- Where no program stands there is nothing to hold. -/
theorem see_aside {sight : Sight} (hsight : ∀ k r?, sight ≠ .station k r?) :
    Keeps grants I (Watched.see fun _ => sight) := by
  apply see
  intro _ _ k r? h
  exact absurd (List.mem_singleton.1 h).symm (hsight k r?)

theorem bind {x : Watched α} {f : α → Watched β} (hx : Keeps grants I x)
    (hf : ∀ a, Keeps grants I (f a)) : Keeps grants I (x >>= f) :=
  fun _ hm => (hx hm).bind hf

theorem attempt {x : Watched α} (hx : Keeps grants I x) : Keeps grants I (attempt x) :=
  fun _ hm => (hx hm).attempt

/-- A fork starts over, and the lexer is at the end where it was. -/
theorem onFork (hI : Pass.Invariant grants I) (input : Text) {x : Watched α}
    (hx : Keeps grants I x) : Keeps grants I (onFork input x) := by
  intro m hm hgranted
  have hfork : I (m.lexer.fork input).pass := hI.start input
  refine ⟨(hx (m := { m with lexer := m.lexer.fork input }) hfork hgranted).1, ?_⟩
  intro r n h
  obtain ⟨_, _, -, -, rfl⟩ := LexM.exists_of_onFork (x := x.value) h
  exact hm

theorem register (kind : String) (handler : Handler) :
    Keeps grants I (Watched.lift (LexM.register kind handler)) := by
  intro m hm _
  refine ⟨holds_nil, ?_⟩
  intro r n h
  cases h
  exact hm

theorem init (hI : Pass.Invariant grants I) (input : Text) :
    Keeps grants I (Watched.lift (LexM.init input)) := by
  apply lift
  intro m r n h
  cases h
  exact ⟨fun _ => hI.start input, rfl⟩

/-- What drivers are made of keeps an invariant. -/
theorem closed (hI : Pass.Invariant grants I) :
    Closed (fun _ => True) fun _ x => Keeps grants I x where
  plain hx := lift (hx (.of_invariant hI))
  timeout _ := timeout
  bind := bind
  lexer_bind hf := bind (lift (.lexer (.of_invariant hI))) fun l => hf l fun _ _ => trivial
  attempt := attempt
  derived _ := see_aside fun _ _ h => nomatch h

end Keeps

end Watched

open Watched (Keeps KeepsAt)

variable {call : Handler → Watched (Option Token)}

/-- A request that is granted at a machine keeps the invariant from there on. -/
theorem Request.keepsAt_watched (hI : Pass.Invariant grants I)
    (hcall : ∀ h, Keeps grants I (call h)) (bound : Nat) {m : Machine} (hm : I m.lexer.pass)
    {r : Request} (granted : grants m.lexer.pass r) :
    KeepsAt grants I (r.watched call bound) m := by
  cases hown : r.own with
  | false => exact (Keeps.closed hI).request (fun h _ => hcall h) bound hown hm
  | true =>
    cases r with
    | consumeAs bytes value =>
      intro _
      refine ⟨holds_nil, ?_⟩
      intro r n h
      rcases LexM.consumeAs_cases h with ⟨e, -, rfl⟩ | ⟨p, hc, -, rfl⟩
      · exact hm
      · exact hI.consumeAs granted hc hm
    | move value bytes => exact KeepsAt.modifyPass (·.move value bytes) (hI.move granted hm)
    | init input => exact Keeps.init hI input hm
    | tokenize input =>
      exact (Keeps.closed hI).tokenize (fun h _ => hcall h) bound (Keeps.init hI input) hm
    | pushStack t => exact KeepsAt.modifyPass (·.pushStack t) (hI.stay (.pushStack _ t) hm)
    | popStack =>
      intro _
      refine ⟨holds_nil, ?_⟩
      intro r n h
      cases h
      exact hI.stay (.popStack _) hm
    | append value => exact KeepsAt.modifyPass (·.append value) (hI.stay (.append _ value) hm)
    | _ => cases hown

/-- A program keeps the invariant, by induction on what it does next. -/
theorem Program.keeps_watched {α : Type} (hI : Pass.Invariant grants I)
    (hcall : ∀ h, Keeps grants I (call h)) (bound : Nat) (p : Program Handler α) :
    Keeps grants I (p.watched call bound) := by
  have hstation : Keeps grants I (Watched.see fun m => .station m none) :=
    .see fun m hm => holds_station.2 ⟨hm, holds_nil⟩
  induction p with
  | done a => exact .bind hstation fun _ => (Keeps.closed hI).pure a
  | fail e => exact .bind hstation fun _ => (Keeps.closed hI).throw e
  | ask request next ih =>
    intro m hm
    have hanswer (reply) : Keeps grants I (Watched.see fun _ => .answer m request reply) :=
      .see_aside fun _ _ h => nomatch h
    rw [KeepsAt, watched_ask]
    intro hgranted
    obtain ⟨hhere, hlater⟩ := granted_cons.1 hgranted
    have granted : grants m.lexer.pass request := hhere m request rfl
    have hserve := Request.keepsAt_watched hI hcall bound hm granted
    obtain ⟨hheld, hend⟩ := hserve.attempt.bind (fun r => (hanswer r).bind fun _ => ih r) hlater
    exact ⟨holds_station.2 ⟨hm, hheld⟩, hend⟩
  | set kind handler next ih =>
    exact .bind hstation fun _ => .bind (.register kind handler) fun _ => ih
  | fork input body next ih =>
    have hforked : Keeps grants I (Watched.see fun _ => .forked) :=
      .see_aside fun _ _ h => nomatch h
    have hjoined : Keeps grants I (Watched.see fun _ => .joined) :=
      .see_aside fun _ _ h => nomatch h
    apply Keeps.bind hstation
    intro _
    apply Keeps.bind hforked
    intro _
    apply Keeps.bind (.onFork hI input (hcall body))
    intro r
    exact .bind hjoined fun _ => ih r.1 r.2

theorem Handler.keeps_watched (hI : Pass.Invariant grants I) (depth : Nat) (h : Handler) :
    Keeps grants I (Handler.watched depth h) := by
  induction depth generalizing h with
  | zero => exact .timeout
  | succ depth ih => exact Program.keeps_watched hI ih depth h.program

/-- Every run keeps the invariant, if all that it asks for is granted. -/
theorem Program.keeps_watch {α : Type} (hI : Pass.Invariant grants I) (bound : Nat)
    (p : Program Handler α) : Keeps grants I (p.watch bound) :=
  p.keeps_watched hI (Handler.keeps_watched hI bound) bound

end ModularLexer
