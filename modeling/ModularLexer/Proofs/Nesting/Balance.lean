import Mathlib.Data.List.Infix
import ModularLexer.Text

/-!
Braces in a text: whether one is closed that is not open, and what comes before those that are left
open. Braces that are matched come to nothing wherever they stand.
-/
namespace ModularLexer.Nesting

/-- No front of a text has more closing braces than opening ones. -/
def Stays (t : Text) : Prop := ∀ front, front <+: t → front.count '}' ≤ front.count '{'

instance (t : Text) : Decidable (Stays t) :=
  decidable_of_iff (∀ front ∈ t.inits, front.count '}' ≤ front.count '{')
    (forall_congr' fun front => imp_congr_left (List.mem_inits front t))

structure Closed (t : Text) : Prop where
  stays : Stays t
  count : t.count '{' = t.count '}'

/-- A text with what comes before each of the braces that it leaves open, the innermost first. -/
inductive Nested : Text → List Text → Prop
  | closed {t : Text} : Closed t → Nested t []
  | inside {front back : Text} {fronts : List Text} :
      Nested front fronts → Closed back → Nested (front ++ '{' :: back) (front :: fronts)

variable {a b t : Text} {fronts : List Text}

/-- A text goes on staying where the braces of each further front are covered. -/
theorem stays_append (ha : Stays a) (hb : ∀ front, front <+: b →
    a.count '}' + front.count '}' ≤ a.count '{' + front.count '{') : Stays (a ++ b) := by
  intro front hfront
  rcases List.prefix_or_prefix_of_prefix hfront (List.prefix_append a b) with h | ⟨more, rfl⟩
  · exact ha front h
  · rw [List.count_append, List.count_append]
    exact hb more ((List.prefix_append_right_inj a).1 hfront)

theorem Closed.append (ha : Closed a) (hb : Closed b) : Closed (a ++ b) := by
  constructor
  · apply stays_append ha.stays
    intro front hfront
    have hle := hb.stays front hfront
    have heq := ha.count
    omega
  · rw [List.count_append, List.count_append, ha.count, hb.count]

/-- Braces around a text match each other if those inside do. -/
theorem Closed.braced (h : Closed t) : Closed ('{' :: (t ++ ['}'])) := by
  have hcount := h.count
  constructor
  · intro front hfront
    rcases List.prefix_cons_iff.1 hfront with rfl | ⟨more, rfl, hmore⟩
    · exact Nat.le_refl 0
    · rcases List.prefix_concat_iff.1 hmore with rfl | hmore
      · simp
        omega
      · have hle := h.stays more hmore
        simp
        omega
  · simp
    omega

namespace Nested

/-- Matched braces open nothing and close nothing. -/
theorem append_closed (h : Nested t fronts) (hb : Closed b) : Nested (t ++ b) fronts := by
  cases h with
  | closed ht => exact .closed (ht.append hb)
  | inside hfront hback =>
    rw [List.append_assoc]
    exact .inside hfront (hback.append hb)

/-- A closing brace closes the innermost open one. -/
theorem close {front : Text} (h : Nested t (front :: fronts)) : Nested (t ++ ['}']) fronts := by
  cases h with
  | inside hfront hback =>
    rw [List.append_assoc]
    exact hfront.append_closed hback.braced

theorem stays (h : Nested t fronts) : Stays t := by
  induction h with
  | closed ht => exact ht.stays
  | @inside front back fronts _ hback ih =>
    apply stays_append ih
    intro more hmore
    have hle := ih front (List.prefix_refl front)
    rcases List.prefix_cons_iff.1 hmore with rfl | ⟨inner, rfl, hinner⟩
    · exact hle
    · have hinside := hback.stays inner hinner
      simp
      omega

/-- As many braces are left open as there are opening ones in excess. -/
theorem count (h : Nested t fronts) : t.count '{' = t.count '}' + fronts.length := by
  induction h with
  | closed ht => exact ht.count
  | inside _ hback ih =>
    have hsame := hback.count
    simp
    omega

end Nested

end ModularLexer.Nesting
