import ModularLexer.Proofs.Patterns.Reading
import ModularLexer.Proofs.Slices.Cutting

/-!
Consuming in pieces. Two pieces can be taken one after the other exactly where they can be taken at
once and the rest can be cut between them; either way comes to the same text and the same machine.
-/
namespace ModularLexer

open Text (byteLength IsBoundary)

/-- Of two beginnings of a text the one with no more bytes begins the other. -/
theorem Text.exists_of_byteLength_le {a b after after' : Text} (h : a ++ after = b ++ after')
    (hle : byteLength a ≤ byteLength b) :
    ∃ between, b = a ++ between ∧ after = between ++ after' := by
  rcases List.append_eq_append_iff.1 h with ⟨between, hb, hafter⟩ | ⟨between, rfl, hafter⟩
  · exact ⟨between, hb, hafter⟩
  · rw [byteLength_append] at hle
    obtain rfl : between = [] := byteLength_eq_zero_iff.1 (by omega)
    exact ⟨[], (List.append_nil _).symm.trans (List.append_nil _).symm, hafter.symm⟩

/-- Two steps are one step over both texts, also where the last lines are cut off behind the last
newlines of the texts. -/
theorem Position.sliceAdvance?_bind (p : Position) (u v : Text) (i j : Nat) :
    (p.sliceAdvance? u i).bind (·.sliceAdvance? v j) = p.sliceAdvance? (u ++ v) (i + j) := by
  rw [sliceAdvance?_eq, Option.bind_some, sliceAdvance?_eq, sliceAdvance?_eq, advance_advance]

namespace LexM

variable {m n : Machine} {a b bytes : Nat} {t u v : Text}

/-- Bytes are consumed exactly where the rest can be cut behind them, and the cursor goes there. -/
theorem consume_eq_ok_iff :
    consume bytes m = some (.ok t, n) ↔
      ∃ after, m.lexer.pass.rest = t ++ after ∧ byteLength t = bytes ∧
        n = m.withPass (m.lexer.pass.past t after) := by
  constructor
  · intro h
    rcases consume_cases h with ⟨e, hne, -⟩ | ⟨taken, p, hc, htaken, rfl⟩
    · cases hne
    · cases htaken
      obtain ⟨after, hrest, rfl, rfl⟩ := Pass.consume_eq_ok_iff.1 hc
      exact ⟨after, hrest, rfl, rfl⟩
  · rintro ⟨after, hrest, rfl, rfl⟩
    exact consume_apply hrest

def consumeTwice (a b : Nat) : LexM (Text × Text) := do
  let u ← consume a
  let v ← consume b
  return (u, v)

theorem consumeTwice_eq_ok_iff :
    consumeTwice a b m = some (.ok (u, v), n) ↔
      ∃ after, m.lexer.pass.rest = u ++ v ++ after ∧ byteLength u = a ∧ byteLength v = b ∧
        n = m.withPass (m.lexer.pass.past (u ++ v) after) := by
  unfold consumeTwice
  constructor
  · intro h
    rcases bind_eq_some_iff.1 h with ⟨taken, k, hfirst, h⟩ | ⟨e, -, hne⟩
    · rcases bind_eq_some_iff.1 h with ⟨taken', j, hsecond, h⟩ | ⟨e, -, hne⟩
      · cases h
        obtain ⟨between, hrest, hu, rfl⟩ := consume_eq_ok_iff.1 hfirst
        obtain ⟨after, hbetween, hv, rfl⟩ := consume_eq_ok_iff.1 hsecond
        have hpast := m.lexer.pass.past_past u v between after
        refine ⟨after, ?_, hu, hv, ?_⟩
        · rw [hrest, List.append_assoc]
          exact congrArg (u ++ ·) hbetween
        · exact congrArg m.withPass hpast
      · cases hne
    · cases hne
  · rintro ⟨after, hrest, rfl, rfl, rfl⟩
    rw [List.append_assoc] at hrest
    have hfirst := consume_apply hrest
    have hsecond : consume v.byteLength (m.withPass (m.lexer.pass.past u (v ++ after))) =
        some (.ok v, m.withPass (m.lexer.pass.past (u ++ v) after)) := by
      rw [← m.lexer.pass.past_past u v (v ++ after) after]
      exact consume_apply (m := m.withPass (m.lexer.pass.past u (v ++ after))) rfl
    rw [bind_of_ok hfirst, bind_of_ok hsecond]
    rfl

/-- Going over two texts one after the other comes to where going over both at once does. So two
pieces are consumed exactly where both can be consumed at once and the rest can be cut behind the
first; the texts are then the parts of the one, and the machine is the same in the end. -/
theorem consume_in_pieces (a b : Nat) (m : Machine) :
    (∀ (p : Position) (u v : Text) (i j : Nat),
      (p.advance u i).advance v j = p.advance (u ++ v) (i + j) ∧
        (p.sliceAdvance? u i).bind (·.sliceAdvance? v j) = p.sliceAdvance? (u ++ v) (i + j)) ∧
    ((∃ u v n, consumeTwice a b m = some (.ok (u, v), n)) ↔
      IsBoundary a m.lexer.pass.rest ∧ ∃ t n, consume (a + b) m = some (.ok t, n)) ∧
    ∀ u v n, consumeTwice a b m = some (.ok (u, v), n) →
      consume (a + b) m = some (.ok (u ++ v), n) := by
  have hjoined : ∀ u v n, consumeTwice a b m = some (.ok (u, v), n) →
      consume (a + b) m = some (.ok (u ++ v), n) := by
    intro u v n h
    obtain ⟨after, hrest, rfl, rfl, rfl⟩ := consumeTwice_eq_ok_iff.1 h
    exact consume_eq_ok_iff.2 ⟨after, hrest, Text.byteLength_append u v, rfl⟩
  refine ⟨?_, ⟨?_, ?_⟩, hjoined⟩
  · intro p u v i j
    exact ⟨p.advance_advance u v i j, p.sliceAdvance?_bind u v i j⟩
  · rintro ⟨u, v, n, h⟩
    obtain ⟨after, hrest, hu, -, -⟩ := consumeTwice_eq_ok_iff.1 h
    rw [List.append_assoc] at hrest
    exact ⟨⟨u, v ++ after, hrest, hu⟩, u ++ v, n, hjoined u v n h⟩
  · rintro ⟨⟨u, behind, hcut, rfl⟩, t, n, h⟩
    obtain ⟨after, hrest, hbytes, rfl⟩ := consume_eq_ok_iff.1 h
    have hle : u.byteLength ≤ t.byteLength := hbytes ▸ Nat.le_add_right _ b
    obtain ⟨v, rfl, rfl⟩ := Text.exists_of_byteLength_le (hcut.symm.trans hrest) hle
    have hv : v.byteLength = b := by
      rw [Text.byteLength_append] at hbytes
      exact Nat.add_left_cancel hbytes
    exact ⟨u, v, _, consumeTwice_eq_ok_iff.2 ⟨after, hrest, rfl, hv, rfl⟩⟩

/-- What can be taken at once cannot be taken in pieces that part a character. -/
example : (consume 3 (.fresh "é!" [])).map (·.1) = some (.ok "é!".toList) ∧
    (consumeTwice 1 2 (.fresh "é!" [])).map (·.1.toOption) = some none := by decide +kernel

end LexM

end ModularLexer
