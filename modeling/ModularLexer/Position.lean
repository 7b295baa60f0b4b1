import ModularLexer.Text

/-!
Places in a text: a byte index together with a line and a column. They are words of the machine,
which start again at zero behind the last one. Going over a text in pieces comes to the same place
as going over it at once.
-/
namespace ModularLexer

instance wordOfNat : Coe Nat UInt64 := ⟨UInt64.ofNat⟩

instance natOfWord : Coe UInt64 Nat := ⟨UInt64.toNat⟩

/-- A place in a text. Lines and columns count from one, columns in characters. -/
structure Position where
  index : UInt64
  line : UInt64
  column : UInt64
  deriving DecidableEq, Repr, Inhabited

namespace Position

def start : Position := ⟨0, 1, 1⟩

/-- The column reached from a column by going over a text: a newline starts again at one. -/
def columnAfter (column : UInt64) (value : Text) : UInt64 :=
  value.foldl (fun column c => if c = '\n' then 1 else column + 1) column

/-- The place after a text that stands for the given number of bytes. -/
def advance (p : Position) (value : Text) (bytes : Nat) : Position where
  index := p.index + .ofNat bytes
  line := p.line + .ofNat (value.count '\n')
  column := columnAfter p.column value

theorem columnAfter_append (column : UInt64) (u v : Text) :
    columnAfter column (u ++ v) = columnAfter (columnAfter column u) v := List.foldl_append ..

@[simp] theorem advance_nil (p : Position) : p.advance [] 0 = p := by
  simp [advance, columnAfter]

/-- A sum of words is the sum of the numbers where that is a word. -/
theorem toNat_add_ofNat {word : UInt64} {n : Nat} (h : word.toNat + n < UInt64.size) :
    (word + .ofNat n).toNat = word.toNat + n := by
  rw [UInt64.size] at h
  rw [UInt64.toNat_add, UInt64.toNat_ofNat']
  omega

/-- Two steps are one step over both texts. -/
theorem advance_advance (p : Position) (u v : Text) (m n : Nat) :
    (p.advance u m).advance v n = p.advance (u ++ v) (m + n) := by
  simp [advance, columnAfter_append, UInt64.ofNat_add, UInt64.add_assoc]

/-- Places compare by index, then by column, then by line. -/
def order (p q : Position) : Ordering :=
  (compare p.index q.index).then ((compare p.column q.column).then (compare p.line q.line))

def text (p : Position) : String := toString p.line ++ ":" ++ toString p.column

end Position

end ModularLexer
