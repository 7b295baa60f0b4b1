import ModularLexer.Regex.Expression
import ModularLexer.Regex.Weight
import ModularLexer.Regex.Search

/-!
Regular expressions made ready to match. A search finds the leftmost match of a text; it begins
where the text does exactly if some match begins there, so asking for that one needs no search.
-/
namespace ModularLexer

/-- A compiled expression: its code, where to enter it, and how many groups it has, the whole match
included. -/
structure Regex where
  code : Array Regex.Instr
  entry : Nat
  groups : Nat
  deriving DecidableEq, Repr

namespace Regex

def ofNode (node : Node) : Regex :=
  let (entry, code) := node.emit 0 #[.accept]
  ⟨code, entry, node.lastGroup + 1⟩

def ofSource (source : String) : Except Cause Regex := do
  let node ← Node.ofSource source.toList
  if node.fits then return ofNode node else .error .tooLarge

/-- The preferred match that begins at a place, given the text from there on. -/
def matchAt (r : Regex) (here : Place) (t : Text) : Option Match :=
  run r.code here (explore r.code here (exploreBound r.code) [⟨r.entry, []⟩] .none) none t

def matchStart (r : Regex) (t : Text) : Option Match := r.matchAt ⟨none, t.head?, 0⟩ t

/-- The first place from one on at which a match begins, with the preferred match there. -/
def searchFrom (r : Regex) (before : Option Char) (index : Nat) : Text → Option (Nat × Match)
  | [] => (r.matchAt ⟨before, none, index⟩ []).map (index, ·)
  | c :: rest =>
    match r.matchAt ⟨before, some c, index⟩ (c :: rest) with
    | some m => some (index, m)
    | none => searchFrom r (some c) (index + 1) rest

def search (r : Regex) (t : Text) : Option (Nat × Match) := r.searchFrom none 0 t

/-- A search does not go back. -/
theorem le_of_searchFrom {r : Regex} {before : Option Char} {index start : Nat} {t : Text}
    {m : Match} (h : r.searchFrom before index t = some (start, m)) : index ≤ start := by
  induction t generalizing before index with
  | nil =>
    obtain ⟨_, -, he⟩ := Option.map_eq_some_iff.1 h
    exact Nat.le_of_eq (Prod.mk.inj he).1
  | cons c rest ih =>
    unfold searchFrom at h
    split at h
    · exact Nat.le_of_eq (Prod.mk.inj (Option.some.inj h)).1
    · exact Nat.le_of_succ_le (ih h)

/-- The leftmost match begins where the text does exactly if a match begins there. -/
theorem search_eq_some_zero_iff {r : Regex} {t : Text} {m : Match} :
    r.search t = some (0, m) ↔ r.matchStart t = some m := by
  unfold search matchStart
  cases t with
  | nil =>
    rw [searchFrom, Option.map_eq_some_iff]
    simp
  | cons c rest =>
    rw [List.head?_cons, searchFrom]
    cases h : r.matchAt ⟨none, some c, 0⟩ (c :: rest) with
    | some found => simp
    | none =>
      constructor
      · intro hs
        exact absurd (le_of_searchFrom hs) (Nat.not_succ_le_zero 0)
      · intro hs
        cases hs

def slot? (m : Match) (slot : Nat) : Option Nat :=
  (m.2.find? (·.1 == slot)).map (·.2)

/-- What a group of a match of the start of a text caught, if it took part. Group zero is the
match. -/
def groupText? (m : Match) (t : Text) : Nat → Option Text
  | 0 => some (t.take m.1)
  | index + 1 =>
    match slot? m (2 * (index + 1)), slot? m (2 * (index + 1) + 1) with
    | some start, some stop => some ((t.drop start).take (stop - start))
    | _, _ => none

def groupTexts? (r : Regex) (t : Text) : Option (List (Option Text)) :=
  (r.matchStart t).map fun m => (List.range r.groups).map (groupText? m t)

end Regex

end ModularLexer
