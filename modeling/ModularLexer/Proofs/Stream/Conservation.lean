import ModularLexer.Proofs.Stream.Trace

/-!
Looking ahead loses, doubles and reorders no token. Apart from its queue a machine goes from one
advance with an empty queue to the next, and every token that is taken or waits comes, in order,
from the queue at the start or from these advances. Handlers may do anything meanwhile.
-/
namespace ModularLexer

/-- What comes of one advance while no token waits: its result, and the tokens that then wait. -/
structure Draw where
  result : Except LexError (Option Token)
  ahead : List Token

/-- The tokens of an advance: the one it made, then those that its handlers left waiting. -/
def Draw.tokens (d : Draw) : List Token :=
  match d.result with
  | .ok (some t) => t :: d.ahead
  | _ => d.ahead

namespace LexM

variable (call : Handler → LexM (Option Token))

def draw (m : Machine) : Option (Draw × Machine) :=
  (advance call m.aside).map fun (r, n) => (⟨r, n.queue⟩, n.aside)

def draws : Nat → Machine → Option (List Draw × Machine)
  | 0, m => some ([], m)
  | count + 1, m => do
    let (d, m) ← draw call m
    let (ds, m) ← draws count m
    return (d :: ds, m)

variable {call} in
theorem draws_append {j k : Nat} {m n p : Machine} {ds es : List Draw}
    (hm : draws call j m = some (ds, n)) (hn : draws call k n = some (es, p)) :
    draws call (j + k) m = some (ds ++ es, p) := by
  induction j generalizing m ds with
  | zero =>
    obtain ⟨rfl, rfl⟩ := Prod.mk.inj (Option.some.inj hm)
    rw [Nat.zero_add]
    exact hn
  | succ j ih =>
    simp only [draws, Option.bind_eq_bind, Option.bind_eq_some_iff, Prod.exists] at hm
    obtain ⟨d, m', hd, ds', n', hds, he⟩ := hm
    obtain ⟨rfl, rfl⟩ := Prod.mk.inj (Option.some.inj he)
    have hrest := ih hds
    rw [Nat.succ_add, draws, hd]
    simp only [Option.bind_eq_bind, Option.bind_some, hrest]
    rfl

end LexM

namespace Move

def taken (moves : List Move) : List Token :=
  moves.filterMap fun
    | took t => some t
    | _ => none

def draws (moves : List Move) : List Draw :=
  moves.filterMap fun
    | advanced result ahead => some ⟨result, ahead⟩
    | _ => none

@[simp] theorem taken_nil : taken [] = [] := rfl

@[simp] theorem taken_append (a b : List Move) : taken (a ++ b) = taken a ++ taken b :=
  List.filterMap_append ..

@[simp] theorem taken_took (t : Token) (moves : List Move) :
    taken (took t :: moves) = t :: taken moves := rfl

@[simp] theorem taken_tested (t : Token) (accepted : Bool) (moves : List Move) :
    taken (tested t accepted :: moves) = taken moves := rfl

@[simp] theorem taken_advanced (result : Except LexError (Option Token)) (ahead : List Token)
    (moves : List Move) : taken (advanced result ahead :: moves) = taken moves := rfl

@[simp] theorem draws_nil : draws [] = [] := rfl

@[simp] theorem draws_append (a b : List Move) : draws (a ++ b) = draws a ++ draws b :=
  List.filterMap_append ..

theorem conserved_append {a b : List Move} {first middle last : List Token}
    (ha : taken a ++ middle = first ++ (draws a).flatMap Draw.tokens)
    (hb : taken b ++ last = middle ++ (draws b).flatMap Draw.tokens) :
    taken (a ++ b) ++ last = first ++ (draws (a ++ b)).flatMap Draw.tokens := by
  rw [taken_append, List.append_assoc, hb, ← List.append_assoc, ha, draws_append,
    List.flatMap_append, List.append_assoc]

end Move

/-- Filling makes one advance after another with the queue set aside: what an advance has to do with
the machine behind it, filling has, if several in a row have it. -/
theorem Traced.fill_rec {call : Handler → LexM (Option Token)}
    {P : Machine → List Move → Machine → Prop} (hrefl : ∀ m, P m [] m)
    (htrans : ∀ {m n k a b}, P m a n → P n b k → P m (a ++ b) k)
    (hadvance : ∀ {m n r}, LexM.advance call m.aside = some (r, n) →
      P m [.advanced r n.queue] (n.withQueue (m.queue ++ Draw.tokens ⟨r, n.queue⟩)))
    {count bound : Nat} {m n : Machine} {r : Except LexError Unit} {moves : List Move}
    (h : fill call count bound m = some (r, moves, n)) : P m moves n := by
  induction bound generalizing m moves with
  | zero =>
    obtain ⟨rfl, rfl, rfl⟩ := h
    exact hrefl _
  | succ bound ih =>
    by_cases hc : count ≤ m.queue.length
    · rw [fill_of_le hc] at h
      obtain ⟨rfl, rfl, rfl⟩ := h
      exact hrefl _
    · rw [fill_of_lt (Nat.lt_of_not_le hc)] at h
      rcases ha : LexM.advance call m.aside with _ | ⟨_ | _ | t, p⟩
      · rw [ha] at h
        cases h
      · rw [ha] at h
        obtain ⟨rfl, rfl, rfl⟩ := h
        exact hadvance ha
      · rw [ha] at h
        obtain ⟨rfl, rfl, rfl⟩ := h
        exact hadvance ha
      · rw [ha] at h
        obtain ⟨⟨r', more, q⟩, hf, he⟩ := Option.map_eq_some_iff.1 h
        obtain ⟨rfl, rfl, rfl⟩ := he
        exact htrans (hadvance ha) (ih hf)

/-- So has looking ahead. -/
theorem Traced.lookahead_rec {call : Handler → LexM (Option Token)}
    {P : Machine → List Move → Machine → Prop} (hrefl : ∀ m, P m [] m)
    (htrans : ∀ {m n k a b}, P m a n → P n b k → P m (a ++ b) k)
    (hadvance : ∀ {m n r}, LexM.advance call m.aside = some (r, n) →
      P m [.advanced r n.queue] (n.withQueue (m.queue ++ Draw.tokens ⟨r, n.queue⟩)))
    {count : Nat} {m n : Machine} {r : Except LexError (Option Token)} {moves : List Move}
    (h : lookahead call count m = some (r, moves, n)) : P m moves n := by
  cases count with
  | zero =>
    cases h
    exact hrefl _
  | succ count =>
    rw [lookahead_succ, Option.map_eq_some_iff] at h
    obtain ⟨⟨r', more, k⟩, hf, he⟩ := h
    cases he
    exact fill_rec hrefl htrans hadvance hf

/-- Moves from one machine to another account for both: their advances lead from the one to the
other, queues aside, and what is taken or waits at the end is what waited or was made, in order. -/
structure Balanced (call : Handler → LexM (Option Token)) (m : Machine) (moves : List Move)
    (n : Machine) : Prop where
  reached : LexM.draws call (Move.draws moves).length m.aside = some (Move.draws moves, n.aside)
  conserved : Move.taken moves ++ n.queue = m.queue ++ (Move.draws moves).flatMap Draw.tokens

namespace Balanced

variable {call : Handler → LexM (Option Token)} {m n p : Machine}

theorem refl (call : Handler → LexM (Option Token)) (m : Machine) : Balanced call m [] m where
  reached := rfl
  conserved := by simp

theorem trans {a b : List Move} (hm : Balanced call m a n) (hn : Balanced call n b p) :
    Balanced call m (a ++ b) p where
  reached := by
    rw [Move.draws_append, List.length_append]
    exact LexM.draws_append hm.reached hn.reached
  conserved := Move.conserved_append hm.conserved hn.conserved

theorem took {t : Token} {queue : List Token} (h : m.queue = t :: queue) :
    Balanced call m [.took t] (m.withQueue queue) where
  reached := rfl
  conserved := by simp [h, Move.draws]

theorem tested (t : Token) (accepted : Bool) : Balanced call m [.tested t accepted] m where
  reached := rfl
  conserved := by simp [Move.draws, Move.taken]

/-- One advance with the queue set aside: its tokens come to wait behind those that waited. -/
theorem advanced {r : Except LexError (Option Token)}
    (h : LexM.advance call m.aside = some (r, n)) :
    Balanced call m [.advanced r n.queue]
      (n.withQueue (m.queue ++ Draw.tokens ⟨r, n.queue⟩)) where
  reached := by
    simp only [Move.draws, List.filterMap_cons, List.filterMap_nil, List.length_cons,
      List.length_nil, LexM.draws, LexM.draw, Option.bind_eq_bind]
    rw [Machine.aside_aside, h]
    rfl
  conserved := by simp [Move.draws]

end Balanced

def Traced.Balances {α : Type} (call : Handler → LexM (Option Token)) (x : Traced α) : Prop :=
  ∀ ⦃m r moves n⦄, x m = some (r, moves, n) → Balanced call m moves n

namespace Traced.Balances

variable {α β : Type} {call : Handler → LexM (Option Token)}

theorem pure (a : α) : Balances call (Pure.pure a : Traced α) := by
  intro m r moves n h
  obtain ⟨rfl, rfl, rfl⟩ := h
  exact .refl call m

theorem bind {x : Traced α} {f : α → Traced β} (hx : Balances call x)
    (hf : ∀ a, Balances call (f a)) : Balances call (x >>= f) := by
  intro m r moves n h
  rcases bind_eq_some_iff.1 h with ⟨a, first, k, more, ha, hr, rfl⟩ | ⟨e, he, -⟩
  · exact (hx ha).trans (hf a hr)
  · exact hx he

theorem lift {x : LexM α} (hx : ∀ ⦃m r n⦄, x m = some (r, n) → n = m) :
    Balances call (Traced.lift x) := by
  intro m r moves n h
  obtain ⟨hl, rfl⟩ := lift_eq_some_iff.1 h
  rw [hx hl]
  exact .refl call m

theorem timeout : Balances call (Traced.lift (LexM.timeout : LexM α)) := by
  apply lift
  intro m r n h
  cases h

theorem test (t : Token) (accepted : Bool) :
    Balances call ((Traced.source call).test t accepted) := by
  intro m r moves n h
  obtain ⟨rfl, rfl, rfl⟩ := h
  exact .tested t accepted

theorem dequeue : Balances call Traced.dequeue := by
  intro m r moves n h
  rw [dequeue_apply] at h
  obtain ⟨rfl, rfl, rfl⟩ := h
  cases hq : m.queue with
  | nil =>
    rw [List.tail_nil, ← Machine.aside, Machine.aside_of_queue_nil hq]
    exact .refl call m
  | cons t queue => exact .took hq

/-- The next token is taken from the queue, or made by an advance and taken at once. -/
theorem next : Balances call (Traced.next call) := by
  intro m r moves n h
  cases hq : m.queue with
  | cons t queue =>
    rw [next_of_queue_cons hq] at h
    obtain ⟨rfl, rfl, rfl⟩ := h
    exact .took hq
  | nil =>
    rw [next_of_queue_nil hq, Option.map_eq_some_iff] at h
    obtain ⟨⟨r', k⟩, ha, he⟩ := h
    obtain ⟨rfl, rfl, rfl⟩ := he
    have hm : m.aside = m := Machine.aside_of_queue_nil hq
    rw [← hm] at ha
    have hb := Balanced.advanced ha
    rw [hq, List.nil_append] at hb
    rcases r with e | _ | t
    · exact hb
    · exact hb
    · exact hb.trans (.took rfl)

theorem fill (n bound : Nat) : Balances call (Traced.fill call n bound) := by
  intro m r moves k h
  exact fill_rec (Balanced.refl call) Balanced.trans Balanced.advanced h

theorem lookahead (n : Nat) : Balances call (Traced.lookahead call n) := by
  intro m r moves k h
  exact lookahead_rec (Balanced.refl call) Balanced.trans Balanced.advanced h

theorem skipOnto (n : Nat) (taken : List Token) : Balances call (Traced.skipOnto call n taken) := by
  induction n generalizing taken with
  | zero => exact pure _
  | succ n ih =>
    apply next.bind
    intro t?
    cases t? with
    | none => exact pure _
    | some t => exact ih _

theorem skipWhileOnto (accepts : List Token → Token → Bool) (bound : Nat) (taken : List Token) :
    Balances call (Traced.skipWhileOnto call accepts bound taken) := by
  induction bound generalizing taken with
  | zero => exact timeout
  | succ bound ih =>
    apply (lookahead 1).bind
    intro t?
    cases t? with
    | none => exact pure _
    | some t =>
      apply (test t (accepts taken t)).bind
      intro accepted
      split
      · apply next.bind
        intro t?
        cases t? with
        | none => exact ih _
        | some t => exact ih _
      · exact pure _

theorem skipTo (bound : Nat) (kind : String) : Balances call (Traced.skipTo call bound kind) := by
  apply (skipWhileOnto _ bound []).bind
  intro taken
  apply next.bind
  intro t?
  cases t? with
  | none => exact pure _
  | some t => exact pure _

end Traced.Balances

end ModularLexer
