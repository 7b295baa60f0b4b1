import Mathlib.Data.List.Forall2
import ModularLexer.Proofs.Runs.Drivers
import ModularLexer.Proofs.Runs.Evaluation

/-!
Two runs side by side. Machines that go together and handlers that keep them together make every
driver keep them together: it sees the same on both sides, ends alike, and gives the second run the
tokens and errors that correspond to those of the first.
-/
namespace ModularLexer

/-- Two ends that are related are both missing, or both there. -/
theorem none_or_some_of_rel {α β : Type} {r : α → β → Prop} {x : Option α} {y : Option β}
    (h : Option.Rel r x y) : x = none ∧ y = none ∨ ∃ a b, x = some a ∧ y = some b ∧ r a b := by
  cases h with
  | none => exact .inl ⟨rfl, rfl⟩
  | some h => exact .inr ⟨_, _, rfl, rfl, h⟩

/-- How two runs go together: which machines do, which sights do, and what a token, the list of
tokens and an error of the first run are in the second. -/
structure Coupling where
  machine : Machine → Machine → Prop
  sight : Sight → Sight → Prop
  token : Token → Token
  list : List Token → List Token
  error : LexError → LexError

namespace Coupling

variable {α β : Type}

def outcome (C : Coupling) (f : α → β) : Except LexError α → Except LexError β
  | .ok a => .ok (f a)
  | .error e => .error (C.error e)

def Ends (C : Coupling) (f : α → β) :
    Option (Except LexError α × Machine) → Option (Except LexError β × Machine) → Prop :=
  Option.Rel fun x y => y.1 = C.outcome f x.1 ∧ C.machine x.2 y.2

/-- Two runs that go together in what is seen of them and in how they end. -/
structure Agree (C : Coupling) (f : α → β) (x : List Sight × Option (Except LexError α × Machine))
    (y : List Sight × Option (Except LexError β × Machine)) : Prop where
  sights : List.Forall₂ C.sight x.1 y.1
  ends : C.Ends f x.2 y.2

end Coupling

namespace Watched

variable {α β γ δ : Type} {C : Coupling}

/-- From machines that go together on, two computations do. -/
def Coupled (C : Coupling) (f : α → β) (x : Watched α) (y : Watched β) : Prop :=
  ∀ ⦃m k⦄, C.machine m k → C.Agree f (x m) (y k)

theorem agree_bind {f : α → β} {g : γ → δ} {x : Watched α} {y : Watched β} {u : α → Watched γ}
    {v : β → Watched δ} {m k : Machine} (hxy : C.Agree f (x m) (y k))
    (huv : ∀ a, Coupled C g (u a) (v (f a))) : C.Agree g ((x >>= u) m) ((y >>= v) k) := by
  obtain ⟨hsights, hends⟩ := hxy
  rcases hx : x m with ⟨sights, ended⟩
  rcases hy : y k with ⟨sights', ended'⟩
  rw [hx, hy] at hsights hends
  rcases none_or_some_of_rel hends with ⟨rfl, rfl⟩ | ⟨⟨r, n⟩, ⟨r', n'⟩, rfl, rfl, hresult, hmachine⟩
  · rw [bind_of_timeout hx, bind_of_timeout hy]
    exact ⟨hsights, .none⟩
  · obtain rfl : r' = C.outcome f r := hresult
    cases r with
    | error e =>
      rw [bind_of_error hx, bind_of_error hy]
      exact ⟨hsights, .some ⟨rfl, hmachine⟩⟩
    | ok a =>
      rw [bind_of_ok hx, bind_of_ok hy]
      obtain ⟨hlater, hend⟩ := huv a hmachine
      exact ⟨List.rel_append hsights hlater, hend⟩

namespace Coupled

theorem bind {f : α → β} {g : γ → δ} {x : Watched α} {y : Watched β} {u : α → Watched γ}
    {v : β → Watched δ} (hxy : Coupled C f x y) (huv : ∀ a, Coupled C g (u a) (v (f a))) :
    Coupled C g (x >>= u) (y >>= v) := fun _ _ h => agree_bind (hxy h) huv

theorem of_ends {f : α → β} {x : LexM α} {y : LexM β}
    (h : ∀ ⦃m k⦄, C.machine m k → C.Ends f (x m) (y k)) : Coupled C f (lift x) (lift y) :=
  fun _ _ hmk => ⟨.nil, h hmk⟩

theorem pure (f : α → β) (a : α) : Coupled C f (Pure.pure a) (Pure.pure (f a)) :=
  fun _ _ hmk => ⟨.nil, .some ⟨rfl, hmk⟩⟩

theorem throw (f : α → β) (e : LexError) :
    Coupled C f (lift (LexM.throw e)) (lift (LexM.throw (C.error e))) :=
  of_ends fun _ _ hmk => .some ⟨rfl, hmk⟩

theorem timeout (f : α → β) : Coupled C f (lift LexM.timeout) (lift LexM.timeout) :=
  of_ends fun _ _ _ => .none

theorem see {s s' : Machine → Sight} (h : ∀ ⦃m k⦄, C.machine m k → C.sight (s m) (s' k)) :
    Coupled C id (see s) (see s') :=
  fun _ _ hmk => ⟨.cons (h hmk) .nil, .some ⟨rfl, hmk⟩⟩

theorem attempt {f : α → β} {x : Watched α} {y : Watched β} (h : Coupled C f x y) :
    Coupled C (C.outcome f) (attempt x) (attempt y) := by
  intro m k hmk
  obtain ⟨hsights, hends⟩ := h hmk
  refine ⟨hsights, ?_⟩
  unfold Watched.attempt
  generalize (x m).2 = ended at hends ⊢
  generalize (y k).2 = ended' at hends ⊢
  cases hends with
  | none => exact .none
  | some h => exact .some ⟨congrArg Except.ok h.1, h.2⟩

/-- What goes on from the lexers may count on the machines going together. -/
theorem lexer_bind {g : γ → δ} {u : Lexer → Watched γ} {v : Lexer → Watched δ}
    (h : ∀ ⦃m k⦄, C.machine m k → C.Agree g (u m.lexer m) (v k.lexer k)) :
    Coupled C g (lift LexM.lexer >>= u) (lift LexM.lexer >>= v) := by
  intro m k hmk
  rw [lift_bind_of_ok (LexM.lexer_apply m), lift_bind_of_ok (LexM.lexer_apply k)]
  exact h hmk

theorem pass_bind {g : γ → δ} {u : Pass → Watched γ} {v : Pass → Watched δ}
    (h : ∀ ⦃m k⦄, C.machine m k → C.Agree g (u m.lexer.pass m) (v k.lexer.pass k)) :
    Coupled C g (lift LexM.pass >>= u) (lift LexM.pass >>= v) := by
  intro m k hmk
  rw [lift_bind_of_ok (LexM.pass_apply m), lift_bind_of_ok (LexM.pass_apply k)]
  exact h hmk

end Coupled

end Watched

open Watched (Coupled lift)

/-- What drivers need of two runs: machines that go together have the same handlers, all of them
known, are in the same mode and have the same rest; what waits, what fails and what is placed on
them corresponds; and moving the queue and the list keeps them together. -/
structure Coupling.Drives (C : Coupling) (known : Handler → Prop) : Prop where
  registry {m k : Machine} : C.machine m k → k.lexer.registry = m.lexer.registry
  known {m k : Machine} : C.machine m k → ∀ entry ∈ m.lexer.registry.entries, known entry.2
  mode {m k : Machine} : C.machine m k → k.lexer.options.mode = m.lexer.options.mode
  rest {m k : Machine} : C.machine m k → k.lexer.pass.rest = m.lexer.pass.rest
  queue {m k : Machine} : C.machine m k → k.queue = m.queue.map C.token
  list {m k : Machine} :
    C.machine m k → k.lexer.pass.tokens.toList = C.list m.lexer.pass.tokens.toList
  incomplete {m k : Machine} :
    C.machine m k → k.lexer.pass.incomplete? = m.lexer.pass.incomplete?.map C.error
  unmatched {m k : Machine} :
    C.machine m k → k.lexer.pass.unmatched = C.error m.lexer.pass.unmatched
  lookup (kind : String) : C.error (.lookup kind) = .lookup kind
  lookahead : C.error .lookahead = .lookahead
  is (t : Token) (kind : String) : (C.token t).is kind = t.is kind
  place {m k n l : Machine} (kind : String) (t : Token) : C.machine m k → C.machine n l →
    ((C.token t).withKind kind).withLocation (l.lexer.locationFrom k.lexer.pass.position) =
      C.token ((t.withKind kind).withLocation (n.lexer.locationFrom m.lexer.pass.position))
  derived (t : Token) : C.sight (.derived t) (.derived (C.token t))
  setQueue {m k : Machine} (queue : List Token) :
    C.machine m k → C.machine (m.withQueue queue) (k.withQueue (queue.map C.token))
  push {m k : Machine} (t : Token) :
    C.machine m k → C.Ends id (LexM.push t m) (LexM.push (C.token t) k)
  character {m k : Machine} {c : Char} {after : Text} : C.machine m k →
    m.lexer.options.mode = .character → m.lexer.pass.rest = c :: after →
      C.Ends C.token (LexM.characterToken c m) (LexM.characterToken c k)

namespace Coupling.Drives

variable {α β : Type} {C : Coupling} {known : Handler → Prop} (hC : C.Drives known)
  {call : Handler → Watched (Option Token)}

include hC

theorem size {m k : Machine} (hmk : C.machine m k) :
    k.lexer.registry.size = m.lexer.registry.size := by rw [hC.registry hmk]

/-- What goes on from the handler of a kind may count on its being known. -/
theorem get_bind {f : α → β} {u : Handler → Watched α} {v : Handler → Watched β} (kind : String)
    (huv : ∀ h, known h → Coupled C f (u h) (v h)) :
    Coupled C f (do u (← lift (LexM.ofExcept ((← lift LexM.lexer).registry.get kind))))
      (do v (← lift (LexM.ofExcept ((← lift LexM.lexer).registry.get kind)))) := by
  apply Coupled.lexer_bind
  intro m k hmk
  rw [hC.registry hmk]
  cases hget : m.lexer.registry.get kind with
  | ok h =>
    obtain ⟨entry, hentry, rfl⟩ := Registry.mem_of_get hget
    exact huv entry.2 (hC.known hmk entry hentry) hmk
  | error e =>
    have he : e = .lookup kind := by
      unfold Registry.get at hget
      split at hget
      · cases hget
      · exact (Except.error.inj hget).symm
    subst he
    have hthrow := Coupled.throw (C := C) f (.lookup kind) hmk
    rw [hC.lookup] at hthrow
    exact hthrow

theorem dequeue : Coupled C (Option.map C.token) (lift LexM.dequeue) (lift LexM.dequeue) := by
  apply Coupled.of_ends
  intro m k hmk
  rw [LexM.dequeue_apply, LexM.dequeue_apply, hC.queue hmk, List.head?_map, ← List.map_tail]
  exact .some ⟨rfl, hC.setQueue m.queue.tail hmk⟩

theorem setQueue_coupled (queue : List Token) :
    Coupled C id (lift (LexM.setQueue queue)) (lift (LexM.setQueue (queue.map C.token))) := by
  apply Coupled.of_ends
  intro m k hmk
  exact .some ⟨rfl, hC.setQueue queue hmk⟩

section Calls

variable (hcall : ∀ h, known h → Coupled C (Option.map C.token) (call h) (call h))

include hcall

theorem runHandler (kind : String) {handler : Handler} (hknown : known handler) :
    Coupled C (Option.map C.token) (Watched.runHandler call kind handler)
      (Watched.runHandler call kind handler) := by
  apply Coupled.pass_bind
  intro m k hmk
  apply Watched.agree_bind (hcall handler hknown hmk)
  intro t?
  cases t? with
  | none => exact Coupled.pure _ none
  | some t =>
    intro n l hnl
    have hplace := hC.place kind t hmk hnl
    have hn := LexM.locationFrom_apply m.lexer.pass.position n
    have hl := LexM.locationFrom_apply k.lexer.pass.position l
    dsimp only [Option.map_some]
    rw [Watched.lift_bind_of_ok hn, Watched.lift_bind_of_ok hl, hplace]
    exact Coupled.pure (Option.map C.token) (some _) hnl

theorem handle (kind : String) :
    Coupled C (Option.map C.token) (Watched.handle call kind) (Watched.handle call kind) :=
  hC.get_bind kind fun _ hknown => hC.runHandler hcall kind hknown

theorem callKind (kind : String) :
    Coupled C (Option.map C.token) (Watched.callKind call kind) (Watched.callKind call kind) :=
  hC.get_bind kind hcall

theorem tryHandlers (count i : Nat) :
    Coupled C (Option.map C.token) (Watched.tryHandlers call count i)
      (Watched.tryHandlers call count i) := by
  induction count generalizing i with
  | zero => exact Coupled.pure _ none
  | succ count ih =>
    apply Coupled.lexer_bind
    intro m k hmk
    rw [hC.registry hmk]
    rcases hentry : m.lexer.registry.entryAt? i with _ | ⟨kind, handler⟩
    · exact Coupled.pure _ none hmk
    · have hknown : known handler := hC.known hmk _ (List.mem_of_getElem? hentry)
      apply Watched.agree_bind (hC.runHandler hcall kind hknown hmk)
      intro t?
      cases t? with
      | none => exact ih (i + 1)
      | some t => exact Coupled.pure _ (some t)

theorem derive :
    Coupled C (Option.map C.token) (Watched.derive call) (Watched.derive call) := by
  apply Coupled.lexer_bind
  intro m k hmk
  rw [hC.rest hmk, hC.mode hmk, hC.size hmk]
  rcases hrest : m.lexer.pass.rest with _ | ⟨c, after⟩
  · exact Coupled.pure _ none hmk
  · cases hmode : m.lexer.options.mode with
    | character =>
      have hc : C.Agree C.token (lift (LexM.characterToken c) m) (lift (LexM.characterToken c) k) :=
        ⟨.nil, hC.character hmk hmode hrest⟩
      exact Watched.agree_bind hc fun t => Coupled.pure (Option.map C.token) (some t)
    | token =>
      apply Watched.agree_bind (hC.tryHandlers hcall _ 0 hmk)
      intro t?
      cases t? with
      | some t => exact Coupled.pure _ (some t)
      | none =>
        apply Coupled.pass_bind
        intro n l hnl
        rw [hC.rest hnl, hC.unmatched hnl]
        split
        · exact Coupled.pure _ none hnl
        · exact Coupled.throw _ _ hnl

section Reports

variable (hreport : ∀ e, Coupled C id (lift (LexM.report e)) (lift (LexM.report (C.error e))))

include hreport

theorem advance :
    Coupled C (Option.map C.token) (Watched.advance call) (Watched.advance call) := by
  apply Coupled.bind (hC.derive hcall).attempt
  intro r
  rcases r with e | _ | t
  · exact Coupled.bind (hreport e) fun _ => Coupled.pure _ none
  · exact Coupled.pure _ none
  · exact Coupled.bind (Coupled.see fun _ _ _ => hC.derived t) fun _ => Coupled.pure _ (some t)

theorem next : Coupled C (Option.map C.token) (Watched.next call) (Watched.next call) := by
  apply Coupled.bind hC.dequeue
  intro t?
  cases t? with
  | some t => exact Coupled.pure _ (some t)
  | none => exact hC.advance hcall hreport

theorem pushAll (bound : Nat) :
    Coupled C id (Watched.pushAll call bound) (Watched.pushAll call bound) := by
  induction bound with
  | zero => exact Coupled.timeout _
  | succ bound ih =>
    apply Coupled.bind (hC.next hcall hreport)
    intro t?
    cases t? with
    | some t => exact Coupled.bind (Coupled.of_ends fun _ _ => hC.push t) fun _ => ih
    | none => exact Coupled.pure id ()

omit hcall in
theorem finish : Coupled C id (lift LexM.finish) (lift LexM.finish) := by
  intro m k hmk
  have hincomplete := hC.incomplete hmk
  refine ⟨.nil, ?_⟩
  show C.Ends id (LexM.finish m) (LexM.finish k)
  unfold LexM.finish
  rw [LexM.bind_of_ok (LexM.pass_apply m), LexM.bind_of_ok (LexM.pass_apply k), hincomplete]
  cases m.lexer.pass.incomplete? with
  | none => exact .some ⟨rfl, hmk⟩
  | some e => exact (hreport e hmk).ends

theorem lex (bound : Nat) : Coupled C C.list (Watched.lex call bound) (Watched.lex call bound) := by
  apply Coupled.bind (hC.pushAll hcall hreport bound)
  intro _
  have hlist : Coupled C C.list (lift LexM.pass >>= fun p => Pure.pure p.tokens.toList)
      (lift LexM.pass >>= fun p => Pure.pure p.tokens.toList) := by
    apply Coupled.pass_bind
    intro m k hmk
    rw [hC.list hmk]
    exact Coupled.pure C.list _ hmk
  apply Coupled.pass_bind
  intro m k hmk
  rw [hC.rest hmk]
  split
  · exact Coupled.bind (hC.finish hreport) (fun _ => hlist) hmk
  · exact hlist hmk

theorem tokenize (bound : Nat) {input : Text}
    (hinit : Coupled C id (lift (LexM.init input)) (lift (LexM.init input))) :
    Coupled C C.list (Watched.tokenize call bound input) (Watched.tokenize call bound input) :=
  hinit.bind fun _ => hC.lex hcall hreport bound

theorem fill (n bound : Nat) :
    Coupled C id (Watched.fill call n bound) (Watched.fill call n bound) := by
  induction bound with
  | zero => exact Coupled.pure id ()
  | succ bound ih =>
    apply Coupled.pass_bind
    intro m k hmk
    have hqueued : k.lexer.pass.queue = m.lexer.pass.queue.map C.token := hC.queue hmk
    rw [hqueued]
    dsimp only
    rw [List.length_map]
    split
    · exact Coupled.pure id () hmk
    · refine Coupled.bind (hC.setQueue_coupled []) (fun _ => ?_) hmk
      apply Coupled.bind (hC.advance hcall hreport).attempt
      intro r
      apply Coupled.pass_bind
      intro n l hnl
      have hahead : l.lexer.pass.queue = n.lexer.pass.queue.map C.token := hC.queue hnl
      rw [hahead]
      rcases r with e | _ | t
      · dsimp only [Coupling.outcome]
        rw [← List.map_append]
        exact Coupled.bind (hC.setQueue_coupled _) (fun _ => Coupled.throw id e) hnl
      · dsimp only [Coupling.outcome, Option.map_none]
        rw [← List.map_append]
        exact hC.setQueue_coupled _ hnl
      · dsimp only [Coupling.outcome, Option.map_some]
        rw [← List.map_cons, ← List.map_append]
        exact Coupled.bind (hC.setQueue_coupled _) (fun _ => ih) hnl

theorem lookahead_coupled (n : Nat) :
    Coupled C (Option.map C.token) (Watched.lookahead call n) (Watched.lookahead call n) := by
  unfold Watched.lookahead Source.lookahead
  split
  · have hthrow := Coupled.throw (C := C) (Option.map C.token) .lookahead
    rw [hC.lookahead] at hthrow
    exact hthrow
  · apply Coupled.pass_bind
    intro m k hmk
    have hqueued : k.lexer.pass.queue = m.lexer.pass.queue.map C.token := hC.queue hmk
    rw [hqueued, List.length_map]
    refine Coupled.bind (hC.fill hcall hreport n _) (fun _ => ?_) hmk
    apply Coupled.pass_bind
    intro n l hnl
    have hqueue : l.lexer.pass.queue = n.lexer.pass.queue.map C.token := hC.queue hnl
    rw [hqueue, List.getElem?_map]
    exact Coupled.pure (Option.map C.token) _ hnl

theorem skipOnto (n : Nat) (taken : List Token) :
    Coupled C (List.map C.token) (Watched.skipOnto call n taken)
      (Watched.skipOnto call n (taken.map C.token)) := by
  have hall (taken : List Token) : Coupled C (List.map C.token) (Pure.pure taken.reverse)
      (Pure.pure (taken.map C.token).reverse) := by
    rw [← List.map_reverse]
    exact Coupled.pure _ _
  induction n generalizing taken with
  | zero => exact hall taken
  | succ n ih =>
    apply Coupled.bind (hC.next hcall hreport)
    intro t?
    cases t? with
    | some t => exact ih (t :: taken)
    | none => exact hall taken

theorem skipWhileOnto {accepts accepts' : List Token → Token → Bool}
    (haccepts : ∀ taken t, accepts' (taken.map C.token) (C.token t) = accepts taken t)
    (bound : Nat) (taken : List Token) :
    Coupled C (List.map C.token) (Watched.skipWhileOnto call accepts bound taken)
      (Watched.skipWhileOnto call accepts' bound (taken.map C.token)) := by
  have hall (taken : List Token) : Coupled C (List.map C.token) (Pure.pure taken.reverse)
      (Pure.pure (taken.map C.token).reverse) := by
    rw [← List.map_reverse]
    exact Coupled.pure _ _
  induction bound generalizing taken with
  | zero => exact Coupled.timeout _
  | succ bound ih =>
    apply Coupled.bind (hC.lookahead_coupled hcall hreport 1)
    intro t?
    cases t? with
    | none => exact hall taken
    | some t =>
      dsimp only [Option.map_some]
      rw [haccepts]
      apply Coupled.bind (Coupled.pure id (accepts taken t))
      intro accepted
      dsimp only [id]
      split
      · apply Coupled.bind (hC.next hcall hreport)
        intro t?
        cases t? with
        | some t => exact ih (t :: taken)
        | none => exact ih taken
      · exact hall taken

theorem skipTo (bound : Nat) (kind : String) :
    Coupled C (List.map C.token) (Watched.skipTo call bound kind)
      (Watched.skipTo call bound kind) := by
  have hother (taken : List Token) (t : Token) : (!(C.token t).is kind) = !t.is kind := by
    rw [hC.is]
  apply Coupled.bind (hC.skipWhileOnto hcall hreport hother bound [])
  intro taken
  apply Coupled.bind (hC.next hcall hreport)
  intro t?
  cases t? with
  | none => exact Coupled.pure _ taken
  | some t =>
    dsimp only [Option.map_some]
    rw [← List.map_singleton, ← List.map_append]
    exact Coupled.pure _ _

end Reports

end Calls

end Coupling.Drives

end ModularLexer
