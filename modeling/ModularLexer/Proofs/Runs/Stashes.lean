import ModularLexer.Proofs.Runs.Drivers

/-!
What is stashed. What is seen of a run tells lexers and their forks apart, and so which texts were
appended to each of them since it started. Wherever a program stands, the stash of its lexer holds
those that are not empty, in order, however deep handlers append and whatever fails on the way.
-/
namespace ModularLexer

namespace Pass

/-- The stash that texts are appended to one after the other: those that are not empty, or one empty
text if there are none. -/
def stashOf (values : List Text) : List Text :=
  if values.filter (· ≠ []) = [] then [[]] else values.filter (· ≠ [])

/-- The stash holds the texts that were appended. An empty entry is the only one, and together the
entries are what was appended. -/
structure Stashed (p : Pass) (values : List Text) : Prop where
  stash : p.stash = stashOf values
  sole : [] ∈ p.stash → p.stash = [[]]
  flatten : p.stash.flatten = values.flatten

variable {p : Pass} {values : List Text}

theorem flatten_stashOf (values : List Text) : (stashOf values).flatten = values.flatten := by
  have hfilter : (values.filter (· ≠ [])).flatten = values.flatten := List.flatten_filter_ne_nil
  unfold stashOf
  split
  · next hnone =>
    rw [hnone] at hfilter
    exact hfilter
  · exact hfilter

theorem stashOf_of_mem_nil (h : [] ∈ stashOf values) : stashOf values = [[]] := by
  unfold stashOf at h ⊢
  split
  · rfl
  · next hsome =>
    rw [if_neg hsome] at h
    simp at h

theorem Stashed.of_eq (h : p.stash = stashOf values) : p.Stashed values where
  stash := h
  sole hempty := by
    rw [h] at hempty ⊢
    exact stashOf_of_mem_nil hempty
  flatten := by rw [h, flatten_stashOf]

theorem stashOf_concat_nil (values : List Text) : stashOf (values ++ [[]]) = stashOf values := by
  simp [stashOf]

theorem stashOf_concat {value : Text} (hvalue : value ≠ []) (values : List Text) :
    stashOf (values ++ [value]) = values.filter (· ≠ []) ++ [value] := by
  simp [stashOf, hvalue]

/-- Appending puts a text behind those that were appended before. An empty last entry is there to
give way only as long as nothing but empty texts was appended. -/
theorem stash_append (h : p.stash = stashOf values) (value : Text) :
    (p.append value).stash = stashOf (values ++ [value]) := by
  by_cases hvalue : value = []
  · subst hvalue
    rw [stashOf_concat_nil]
    exact h
  · have hsome : ¬value.isEmpty = true := by simpa using hvalue
    unfold append
    rw [if_neg hsome, stashOf_concat hvalue, h]
    by_cases hnone : values.filter (· ≠ []) = []
    · rw [stashOf, if_pos hnone, hnone]
      rfl
    · rw [stashOf, if_neg hnone]
      split
      · next hlast =>
        have hmem := List.mem_of_getLast? hlast
        simp at hmem
      · rfl

end Pass

/-- The texts appended to a lexer since it started, with what a request to it adds to them. -/
def Request.appended (values : List Text) : Request → List Text
  | append value => values ++ [value]
  | init _ => []
  | tokenize _ => []
  | _ => values

/-- The texts appended to each of the lexers at work, the latest fork first, behind what is seen. -/
def Sight.appended : List (List Text) → Sight → List (List Text)
  | values :: outer, station _ (some r) => r.appended values :: outer
  | ledger, forked => [] :: ledger
  | _ :: outer, joined => outer
  | ledger, _ => ledger

def Machine.Agrees (m : Machine) (ledger outer : List (List Text)) : Prop :=
  ∃ values, ledger = values :: outer ∧ m.lexer.pass.stash = Pass.stashOf values

def Sight.Agrees (ledger : List (List Text)) : Sight → Prop
  | station m _ => ∃ outer, m.Agrees ledger outer
  | _ => True

def Agreed : List (List Text) → List Sight → Prop
  | _, [] => True
  | ledger, sight :: sights => sight.Agrees ledger ∧ Agreed (sight.appended ledger) sights

theorem agreed_append {ledger : List (List Text)} {front back : List Sight} :
    Agreed ledger (front ++ back) ↔
      Agreed ledger front ∧ Agreed (front.foldl Sight.appended ledger) back := by
  induction front generalizing ledger with
  | nil => simp [Agreed]
  | cons sight front ih => simp only [List.cons_append, Agreed, List.foldl_cons, ih, and_assoc]

theorem EffectRule.stash :
    EffectRule fun m n => n.lexer.pass.stash = m.lexer.pass.stash where
  refl _ := rfl
  trans hmn hnk := hnk.trans hmn
  consume h := by
    obtain ⟨rest, -, -, rfl⟩ := Pass.consume_eq_ok_iff.1 h
    rfl
  queue _ _ := rfl
  push _ _ := rfl
  record _ _ := rfl

namespace Watched

variable {α β : Type} {x : Watched α} {f : α → Watched β} {m n : Machine}
  {ledger outer : List (List Text)} {values : List Text}

/-- From a machine on, with what was appended before, everything that is seen agrees; at the end the
stash holds what was appended by then, and of the outer lexers nothing has changed. -/
def StashesAt (x : Watched α) (m : Machine) (ledger outer : List (List Text)) : Prop :=
  Agreed ledger (x m).1 ∧
    ∀ r n, (x m).2 = some (r, n) → n.Agrees ((x m).1.foldl Sight.appended ledger) outer

def Stashes (x : Watched α) : Prop :=
  ∀ ⦃m ledger outer⦄, m.Agrees ledger outer → x.StashesAt m ledger outer

theorem StashesAt.bind (hx : x.StashesAt m ledger outer) (hf : ∀ a, (f a).Stashes) :
    (x >>= f).StashesAt m ledger outer := by
  obtain ⟨hfront, hmid⟩ := hx
  unfold StashesAt
  rcases bind_cases x f m with ⟨sights, a, n, h, hbind⟩ | ⟨hsights, hfailed⟩
  · rw [h] at hfront hmid
    rw [hbind]
    obtain ⟨hback, hend⟩ := hf a (hmid _ n rfl)
    refine ⟨agreed_append.2 ⟨hfront, hback⟩, ?_⟩
    intro r k hk
    rw [List.foldl_append]
    exact hend r k hk
  · rw [hsights]
    refine ⟨hfront, ?_⟩
    intro r n h
    obtain ⟨e, he, -⟩ := hfailed r n h
    exact hmid _ n he

theorem StashesAt.attempt (hx : x.StashesAt m ledger outer) :
    (attempt x).StashesAt m ledger outer := by
  refine ⟨hx.1, ?_⟩
  intro r n h
  obtain ⟨outcome, hk, -⟩ := LexM.exists_of_attempt (x := x.value) h
  exact hx.2 outcome n hk

/-- What is seen first has to agree. -/
theorem StashesAt.see_bind {sight : Machine → Sight} {f : Unit → Watched β}
    (hsight : (sight m).Agrees ledger)
    (hf : (f ()).StashesAt m ((sight m).appended ledger) outer) :
    (see sight >>= f).StashesAt m ledger outer := ⟨⟨hsight, hf.1⟩, hf.2⟩

/-- Without handlers it is enough that the stash is right in the end. -/
theorem StashesAt.lift {x : LexM α} (hx : ∀ r n, x m = some (r, n) → n.Agrees ledger outer) :
    (lift x).StashesAt m ledger outer := ⟨trivial, hx⟩

namespace Stashes

theorem of_stash {x : LexM α}
    (hx : ∀ ⦃m r n⦄, x m = some (r, n) → n.lexer.pass.stash = m.lexer.pass.stash) :
    (Watched.lift x).Stashes := by
  rintro m ledger outer ⟨values, hledger, hstash⟩
  apply StashesAt.lift
  intro r n h
  exact ⟨values, hledger, (hx h).trans hstash⟩

theorem timeout : (Watched.lift (LexM.timeout : LexM α)).Stashes := by
  apply of_stash
  intro m r n h
  cases h

theorem bind (hx : x.Stashes) (hf : ∀ a, (f a).Stashes) : (x >>= f).Stashes :=
  fun _ _ _ hm => (hx hm).bind hf

/-- What is seen beside a run leaves the ledger as it is. -/
theorem see_aside {sight : Sight} (hagrees : ∀ ledger, sight.Agrees ledger)
    (hkept : ∀ values outer, sight.appended (values :: outer) = values :: outer) :
    (see fun _ => sight).Stashes := by
  rintro m _ outer ⟨values, rfl, hstash⟩
  refine ⟨⟨hagrees _, trivial⟩, ?_⟩
  intro r n h
  cases h
  exact ⟨values, hkept values outer, hstash⟩

/-- What drivers are made of does nothing to a stash. -/
theorem closed : Closed (fun _ => True) fun _ x => Stashes x where
  plain hx := of_stash fun _ _ _ h => (hx .stash h).1
  timeout _ := timeout
  bind := bind
  lexer_bind hf := bind (of_stash fun _ _ _ h => (LexM.Moves.lexer .stash h).1) fun l =>
    hf l fun _ _ => trivial
  attempt hx _ _ _ hm := (hx hm).attempt
  derived _ := see_aside (fun _ => trivial) fun _ _ => rfl

/-- A program that is seen where it stands goes on from there. -/
theorem station_bind {f : Unit → Watched β} (hf : (f ()).Stashes) :
    (see (fun m => .station m none) >>= f).Stashes := by
  rintro m _ outer ⟨values, rfl, hstash⟩
  exact .see_bind ⟨outer, values, rfl, hstash⟩ (hf ⟨values, rfl, hstash⟩)

/-- A fork starts with nothing appended, and what comes behind it goes on with the lexer as it
was. -/
theorem fork_bind (input : Text) {f : Except LexError α × View → Watched β} (hx : x.Stashes)
    (hf : ∀ r, (f r).Stashes) :
    (do
      see fun _ => .forked
      let r ← onFork input x
      see fun _ => .joined
      f r).Stashes := by
  rintro m _ outer ⟨values, rfl, hstash⟩
  have hfork : StashesAt x { m with lexer := m.lexer.fork input } ([] :: values :: outer)
      (values :: outer) := hx ⟨[], rfl, rfl⟩
  have hforked : Sight.forked.Agrees (values :: outer) := trivial
  apply StashesAt.see_bind hforked
  rcases h : x { m with lexer := m.lexer.fork input } with ⟨sights, _ | ⟨r, n⟩⟩
  · unfold StashesAt at hfork
    rw [h] at hfork
    have hnone : onFork input x m = (sights, none) := by simp [onFork, h]
    rw [StashesAt, bind_of_timeout hnone]
    exact ⟨hfork.1, fun _ _ hnone => nomatch hnone⟩
  · unfold StashesAt at hfork
    rw [h] at hfork
    obtain ⟨hagree, hend⟩ := hfork
    obtain ⟨values', hledger, -⟩ := hend r n rfl
    have hsome : onFork input x m =
        (sights, some (.ok (r, n.lexer.view), { n with lexer := m.lexer })) := by
      simp [onFork, h]
    have hjoined : Sight.appended (sights.foldl Sight.appended ([] :: values :: outer)) .joined =
        values :: outer := congrArg (Sight.appended · .joined) hledger
    have hagrees : Machine.Agrees { n with lexer := m.lexer } (values :: outer) outer :=
      ⟨values, rfl, hstash⟩
    obtain ⟨hback, hlast⟩ := hf (r, n.lexer.view) hagrees
    rw [← hjoined] at hback hlast
    rw [StashesAt, bind_of_ok hsome]
    refine ⟨agreed_append.2 ⟨hagree, trivial, hback⟩, ?_⟩
    intro r' k hk
    rw [List.foldl_append]
    exact hlast r' k hk

end Stashes

end Watched

open Watched (Stashes StashesAt)

variable {call : Handler → Watched (Option Token)}

theorem Request.appended_of_not_own {r : Request} (hown : r.own = false) (values : List Text) :
    r.appended values = values := by
  cases r with
  | init _ | tokenize _ | append _ => cases hown
  | _ => rfl

/-- A lexer that starts over has nothing appended to it. -/
theorem Watched.StashesAt.init {m : Machine} {outer : List (List Text)} (input : Text) :
    StashesAt (Watched.lift (LexM.init input)) m ([] :: outer) outer := by
  apply StashesAt.lift
  intro r n h
  cases h
  exact ⟨[], rfl, rfl⟩

/-- Serving a request does to the stash what the request says, and what handlers do that are called
for it. -/
theorem Request.stashesAt_watched (hcall : ∀ h, Stashes (call h)) (bound : Nat) {m : Machine}
    {values : List Text} (outer : List (List Text)) (hm : m.lexer.pass.stash = Pass.stashOf values)
    (r : Request) : StashesAt (r.watched call bound) m (r.appended values :: outer) outer := by
  have hkept : m.Agrees (values :: outer) outer := ⟨values, rfl, hm⟩
  cases hown : r.own with
  | false =>
    rw [Request.appended_of_not_own hown]
    exact Stashes.closed.request (fun h _ => hcall h) bound hown hkept
  | true =>
    cases r with
    | consumeAs bytes value =>
      apply StashesAt.lift
      intro r n h
      rcases LexM.consumeAs_cases h with ⟨e, -, rfl⟩ | ⟨p, hc, -, rfl⟩
      · exact hkept
      · obtain ⟨_, _, -, -, rfl⟩ := Pass.consumeAs_eq_ok_iff.1 hc
        exact hkept
    | move value bytes | pushStack t =>
      apply StashesAt.lift
      intro r n h
      cases h
      exact hkept
    | init input => exact .init input
    | tokenize input =>
      exact (StashesAt.init input).bind fun _ => Stashes.closed.lex (fun h _ => hcall h) bound
    | popStack =>
      apply StashesAt.lift
      intro r n h
      cases h
      refine ⟨values, rfl, Eq.trans ?_ hm⟩
      show (Pass.popStack _).2.stash = _
      unfold Pass.popStack
      split <;> rfl
    | append value =>
      apply StashesAt.lift
      intro r n h
      cases h
      exact ⟨values ++ [value], rfl, Pass.stash_append hm value⟩
    | _ => cases hown

/-- A program keeps the stash as it should be, by induction on what it does next. -/
theorem Program.stashes_watched {α : Type} (hcall : ∀ h, Stashes (call h)) (bound : Nat)
    (p : Program Handler α) : Stashes (p.watched call bound) := by
  induction p with
  | done a => exact .station_bind (Stashes.closed.pure a)
  | fail e => exact .station_bind (Stashes.closed.throw e)
  | ask request next ih =>
    rintro m _ outer ⟨values, rfl, hstash⟩
    have hserve := request.stashesAt_watched hcall bound outer hstash
    have hanswer (reply) : Stashes (Watched.see fun _ => .answer m request reply) :=
      .see_aside (fun _ => trivial) fun _ _ => rfl
    have hlater := hserve.attempt.bind fun reply => (hanswer reply).bind fun _ => ih reply
    rw [StashesAt, watched_ask]
    exact ⟨⟨⟨outer, values, rfl, hstash⟩, hlater.1⟩, hlater.2⟩
  | set kind handler next ih =>
    apply Stashes.station_bind
    refine .bind (.of_stash ?_) fun _ => ih
    intro m r n h
    cases h
    rfl
  | fork input body next ih =>
    exact .station_bind (.fork_bind input (hcall body) fun r => ih r.1 r.2)

theorem Handler.stashes_watched (depth : Nat) (h : Handler) :
    Stashes (Handler.watched depth h) := by
  induction depth generalizing h with
  | zero => exact .timeout
  | succ depth ih => exact Program.stashes_watched ih depth h.program

/-- From a start on, whatever a program and its handlers do: wherever one of them stands, on the
lexer or on a fork, the stash holds the texts that are not empty of those appended to that lexer
since it was made or has last started over, in order, or one empty text if there are none; and so
does the stash at the end. -/
theorem Program.stash_holds_appended {α : Type} (bound : Nat) (p : Program Handler α) {m : Machine}
    {input : Text} (hstart : m.lexer.pass = .start input) :
    (∀ front k r? back, (p.watch bound m).1 = front ++ .station k r? :: back →
      ∃ values outer, front.foldl Sight.appended [[]] = values :: outer ∧
        k.lexer.pass.Stashed values) ∧
    ∀ r n, p.exec bound m = some (r, n) →
      ∃ values, (p.watch bound m).1.foldl Sight.appended [[]] = [values] ∧
        n.lexer.pass.Stashed values := by
  have hm : m.Agrees [[]] [] := by
    refine ⟨[], rfl, ?_⟩
    rw [hstart]
    rfl
  obtain ⟨hagree, hend⟩ := p.stashes_watched (Handler.stashes_watched bound) bound hm
  constructor
  · intro front k r? back hsights
    rw [← watch, hsights] at hagree
    obtain ⟨outer, values, hledger, hstash⟩ := (agreed_append.1 hagree).2.1
    exact ⟨values, outer, hledger, .of_eq hstash⟩
  · intro r n h
    rw [← value_watch] at h
    obtain ⟨values, hledger, hstash⟩ := hend r n h
    exact ⟨values, hledger, .of_eq hstash⟩

/-- Two letters whose handlers append a text each. The first looks ahead before it appends an empty
text too, so that the second appends while it runs. -/
def appendingLetters : Machine :=
  .fresh "ab!" [
    ("a", .ofPatternWith "a" (.letter 'a') fun t => do
      Program.request (.append ['x'])
      let _ ← (Program.request (.lookahead 1)).attempt
      Program.request (.append [])
      return some t),
    ("b", .ofPatternWith "b" (.letter 'b') fun t => do
      Program.request (.append ['y'])
      return some t)]

/-- Appends a text, starts over on the letters, fails behind them, appends on a fork, and appends
once more. -/
def appendingPastFork : Program Handler Unit := do
  Program.request (.append ['v'])
  let _ ← (Program.request (.tokenize "ab!".toList)).attempt
  .fork ['b'] (.mk do
      Program.request (.append ['z'])
      Program.request .advance)
    fun _ _ => Program.request (.append ['w'])

/-- What came before the letters and what the fork appended is not on the stash. -/
theorem stash_holds_appended_past_fork :
    appendingLetters.lexer.pass = .start "ab!".toList ∧
      (∀ front k r? back,
        (appendingPastFork.watch 6 appendingLetters).1 = front ++ .station k r? :: back →
          ∃ values outer, front.foldl Sight.appended [[]] = values :: outer ∧
            k.lexer.pass.Stashed values) ∧
      ∃ r n, appendingPastFork.exec 6 appendingLetters = some (r, n) ∧
        n.lexer.pass.Stashed [['x'], ['y'], [], ['w']] ∧
        n.lexer.pass.stash = [['x'], ['y'], ['w']] := by
  have hledger : (appendingPastFork.watch 6 appendingLetters).1.foldl Sight.appended [[]] =
      [[['x'], ['y'], [], ['w']]] := by decide +kernel
  have hexec : LexM.shown (appendingPastFork.exec 6) appendingLetters id (·.lexer.pass.stash) =
      some (some (), [['x'], ['y'], ['w']]) := by decide +kernel
  obtain ⟨_, n, hexec, -, hstash⟩ := LexM.exists_of_shown hexec
  obtain ⟨hstations, hend⟩ :=
    Program.stash_holds_appended 6 appendingPastFork (m := appendingLetters) rfl
  obtain ⟨values, hvalues, hstashed⟩ := hend _ n hexec
  obtain rfl : [['x'], ['y'], [], ['w']] = values := by
    rw [hledger] at hvalues
    exact (List.cons.inj hvalues).1
  exact ⟨rfl, hstations, _, n, hexec, hstashed, hstash⟩

end ModularLexer
