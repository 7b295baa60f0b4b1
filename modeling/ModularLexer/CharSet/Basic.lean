import ModularLexer.CharSet.Alphabetic
import ModularLexer.CharSet.Mark
import ModularLexer.CharSet.Number
import ModularLexer.CharSet.Joining
import ModularLexer.CharSet.Blank
import ModularLexer.CharSet.Recent
import ModularLexer.CharSet.CaseFold

/-!
Sets of characters as ascending ranges of code points with a gap between any two, so that equal sets
are equal lists.
-/
namespace ModularLexer

/-- A set of code points. -/
structure CharSet where
  ranges : List (Nat × Nat)
  deriving DecidableEq, Repr

namespace CharSet

def inRanges (n : Nat) (l : List (Nat × Nat)) : Bool := l.any fun r => r.1 ≤ n && n ≤ r.2

def has (s : CharSet) (n : Nat) : Bool := inRanges n s.ranges

def contains (s : CharSet) (c : Char) : Bool := s.has c.toNat

def empty : CharSet := ⟨[]⟩

def range (first last : Nat) : CharSet := ⟨[(first, last)]⟩

def all : CharSet := range 0 0x10FFFF

def single (c : Char) : CharSet := range c.toNat c.toNat

/-- Puts a range, and the ranges of the second list below it, before what follows them. -/
def mergeFrom (r : Nat × Nat) (rest : List (Nat × Nat) → List (Nat × Nat)) :
    List (Nat × Nat) → List (Nat × Nat)
  | [] => r :: rest []
  | s :: l => if r.1 ≤ s.1 then r :: rest (s :: l) else s :: mergeFrom r rest l

def merge : List (Nat × Nat) → List (Nat × Nat) → List (Nat × Nat)
  | [] => id
  | r :: l => mergeFrom r (merge l)

/-- Makes one range of those that overlap or touch, beginning with the first. -/
def joinFrom (r : Nat × Nat) : List (Nat × Nat) → List (Nat × Nat)
  | [] => [r]
  | s :: l =>
    if s.1 ≤ r.2 + 1 ∧ r.1 ≤ s.2 + 1 then joinFrom (min r.1 s.1, max r.2 s.2) l
    else r :: joinFrom s l

def join : List (Nat × Nat) → List (Nat × Nat)
  | [] => []
  | r :: l => joinFrom r l

def union (a b : CharSet) : CharSet := ⟨join (merge a.ranges b.ranges)⟩

/-- The code point after another; none are surrogates. -/
def after (n : Nat) : Nat := if n == 0xD7FF then 0xE000 else n + 1

/-- The code point before another; none are surrogates. -/
def before (n : Nat) : Nat := if n == 0xE000 then 0xD7FF else n - 1

/-- The ranges between ascending ranges, from a code point on. -/
def gaps (lowest : Nat) : List (Nat × Nat) → List (Nat × Nat)
  | [] => if lowest ≤ 0x10FFFF then [(lowest, 0x10FFFF)] else []
  | r :: l =>
    if lowest < r.1 then (lowest, before r.1) :: gaps (after r.2) l else gaps (after r.2) l

def compl (s : CharSet) : CharSet := ⟨gaps 0 s.ranges⟩

def inter (a b : CharSet) : CharSet := (a.compl.union b.compl).compl

def diff (a b : CharSet) : CharSet := (a.compl.union b).compl

def symmDiff (a b : CharSet) : CharSet := (a.union b).diff (a.inter b)

/-- The partners of members that are no members themselves. -/
def missingPartners (s : CharSet) (pairs : List (Nat × Nat)) : List Nat :=
  pairs.flatMap fun (a, b) =>
    if s.has a then (if s.has b then [] else [b]) else if s.has b then [a] else []

def withPartners (s : CharSet) (pairs : List (Nat × Nat)) : CharSet :=
  (s.missingPartners pairs).foldl (fun t n => t.union (range n n)) s

/-- The set with all that differs from a member in case only. -/
def folded (s : CharSet) : CharSet := s.withPartners casePairs

/-- The set with all ASCII letters that differ from a member in case only. -/
def asciiFolded (s : CharSet) : CharSet := s.withPartners asciiCasePairs

def ofList (cs : List Char) : CharSet := cs.foldr (fun c s => (single c).union s) empty

/-- The characters of a table that were assigned before Unicode 17. -/
def settled (ranges : List (Nat × Nat)) : CharSet := diff ⟨ranges⟩ ⟨recentRanges⟩

def blank : CharSet := ⟨blankRanges⟩

def digit : CharSet := settled digitRanges

def number : CharSet := digit.union (settled otherNumberRanges)

/-- Letters, and marks that act as letters. -/
def alphabetic : CharSet := settled alphabeticRanges

def mark : CharSet := settled markRanges

def connector : CharSet := ⟨connectorRanges⟩

def joinControl : CharSet := ⟨joinControlRanges⟩

def word : CharSet :=
  alphabetic.union (digit.union (connector.union (mark.union joinControl)))

/-- Letters that may begin a name. -/
def nameStart : CharSet := ⟨alphabeticRanges⟩

/-- Letters and numbers that may stand in a name. -/
def nameRest : CharSet := union ⟨alphabeticRanges⟩ (union ⟨digitRanges⟩ ⟨otherNumberRanges⟩)

def asciiBlank : CharSet := ⟨[(0x9, 0xD), (0x20, 0x20)]⟩

def asciiDigit : CharSet := ⟨[(0x30, 0x39)]⟩

def asciiWord : CharSet := ⟨[(0x30, 0x39), (0x41, 0x5A), (0x5F, 0x5F), (0x61, 0x7A)]⟩

/-- The named classes of the first 128 code points. -/
def named? : String → Option CharSet
  | "alnum" => some ⟨[(0x30, 0x39), (0x41, 0x5A), (0x61, 0x7A)]⟩
  | "alpha" => some ⟨[(0x41, 0x5A), (0x61, 0x7A)]⟩
  | "ascii" => some ⟨[(0x0, 0x7F)]⟩
  | "blank" => some ⟨[(0x9, 0x9), (0x20, 0x20)]⟩
  | "cntrl" => some ⟨[(0x0, 0x1F), (0x7F, 0x7F)]⟩
  | "digit" => some asciiDigit
  | "graph" => some ⟨[(0x21, 0x7E)]⟩
  | "lower" => some ⟨[(0x61, 0x7A)]⟩
  | "print" => some ⟨[(0x20, 0x7E)]⟩
  | "punct" => some ⟨[(0x21, 0x2F), (0x3A, 0x40), (0x5B, 0x60), (0x7B, 0x7E)]⟩
  | "space" => some asciiBlank
  | "upper" => some ⟨[(0x41, 0x5A)]⟩
  | "word" => some asciiWord
  | "xdigit" => some ⟨[(0x30, 0x39), (0x41, 0x46), (0x61, 0x66)]⟩
  | _ => none

end CharSet

end ModularLexer
