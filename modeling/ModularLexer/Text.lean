/-!
Text as a list of characters, measured and cut in bytes of its UTF-8 form. A cut gives the text back
in two parts, the first of the length asked for, and there is one wherever such parts exist.
-/
namespace ModularLexer

abbrev Text := List Char

namespace Text

/-- The number of bytes of a text in UTF-8. -/
def byteLength : Text → Nat
  | [] => 0
  | c :: t => c.utf8Size + byteLength t

/-- Cuts a text after the given number of bytes; there is no cut inside a character or past the
last one. -/
def splitBytes? : Nat → Text → Option (Text × Text)
  | 0, t => some ([], t)
  | _ + 1, [] => none
  | n + 1, c :: t =>
    if c.utf8Size ≤ n + 1 then
      (splitBytes? (n + 1 - c.utf8Size) t).map fun (front, back) => (c :: front, back)
    else none

@[simp] theorem byteLength_nil : byteLength [] = 0 := rfl

@[simp] theorem byteLength_cons (c : Char) (t : Text) :
    byteLength (c :: t) = c.utf8Size + byteLength t := rfl

@[simp] theorem byteLength_append (a b : Text) :
    byteLength (a ++ b) = byteLength a + byteLength b := by
  induction a with
  | nil => simp
  | cons c a ih => simp [ih]; omega

/-- Only the empty text takes no bytes. -/
theorem byteLength_eq_zero_iff {t : Text} : byteLength t = 0 ↔ t = [] := by
  cases t with
  | nil => simp
  | cons c t => have := c.utf8Size_pos; simp; omega

theorem length_le_byteLength (t : Text) : t.length ≤ byteLength t := by
  induction t with
  | nil => exact Nat.le_refl 0
  | cons c t ih =>
    have hc := c.utf8Size_pos
    rw [List.length_cons, byteLength_cons]
    omega

/-- Whether a text is no longer than an object in memory can be. -/
def Fits (t : Text) : Prop := byteLength t < UInt64.size / 2

instance (t : Text) : Decidable t.Fits := inferInstanceAs (Decidable (_ < _))

theorem Fits.of_prefix {a b : Text} (h : b.Fits) (hab : a <+: b) : a.Fits := by
  obtain ⟨c, rfl⟩ := hab
  unfold Fits at h ⊢
  rw [byteLength_append] at h
  omega

/-- What is counted on a text that fits is a word. -/
theorem Fits.toNat_ofNat {t : Text} (h : t.Fits) {n : Nat} (hn : n ≤ byteLength t + 1) :
    (UInt64.ofNat n).toNat = n := by
  rw [Fits, UInt64.size] at h
  exact UInt64.toNat_ofNat_of_lt' (by rw [UInt64.size]; omega)

/-- A text can be cut into two parts exactly after the bytes of the first. -/
theorem splitBytes?_eq_some_iff {n : Nat} {t a b : Text} :
    splitBytes? n t = some (a, b) ↔ t = a ++ b ∧ byteLength a = n := by
  fun_induction splitBytes? n t generalizing a b with
  | case1 t =>
    rw [byteLength_eq_zero_iff, Option.some.injEq, Prod.mk.injEq]
    constructor
    · rintro ⟨rfl, rfl⟩
      simp
    · rintro ⟨rfl, rfl⟩
      simp
  | case2 n =>
    constructor
    · intro h
      cases h
    · rintro ⟨h, hn⟩
      obtain ⟨rfl, rfl⟩ := List.append_eq_nil_iff.1 h.symm
      simp at hn
  | case3 n c t h ih =>
    cases a with
    | nil => simp
    | cons d a =>
      simp only [Option.map_eq_some_iff, Prod.mk.injEq, Prod.exists, List.cons_append,
        List.cons.injEq, byteLength_cons]
      constructor
      · rintro ⟨front, back, hs, ⟨rfl, rfl⟩, rfl⟩
        obtain ⟨rfl, hl⟩ := ih.1 hs
        exact ⟨⟨rfl, rfl⟩, by omega⟩
      · rintro ⟨⟨rfl, rfl⟩, hl⟩
        exact ⟨a, b, ih.2 ⟨rfl, by omega⟩, ⟨rfl, rfl⟩, rfl⟩
  | case4 n c t h =>
    constructor
    · intro h
      cases h
    · rintro ⟨ht, hn⟩
      cases a with
      | nil => simp at hn
      | cons d a =>
        simp only [List.cons_append, List.cons.injEq] at ht
        obtain ⟨rfl, rfl⟩ := ht
        simp at hn
        omega

def excerptLength : Nat := 40

/-- The front of a text as error messages show it, with three dots where something is left out. -/
def excerpt (t : Text) : Text :=
  if t.length ≤ excerptLength then t else t.take excerptLength ++ ['.', '.', '.']

end Text

end ModularLexer
