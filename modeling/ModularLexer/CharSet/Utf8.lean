import ModularLexer.CharSet.Basic

/-!
Sets of characters as bytes: a set as rows of byte ranges, such that the characters of the set are
those whose UTF-8 bytes lie in the ranges of some row, one byte a range.
-/
namespace ModularLexer.CharSet

abbrev ByteRange := UInt8 × UInt8

/-- The code points whose UTF-8 has the same length, without the surrogates, with the sizes of the
blocks that their later bytes count through. -/
def zones : List (Nat × Nat × List Nat) :=
  [(0x0, 0x7F, []), (0x80, 0x7FF, [0x40]), (0x800, 0xD7FF, [0x40, 0x1000]),
    (0xE000, 0xFFFF, [0x40, 0x1000]), (0x10000, 0x10FFFF, [0x40, 0x1000, 0x40000])]

/-- Cuts a range at block ends, the smallest blocks first, until each piece lies in one block or
fills the blocks it reaches into. -/
def cut : List Nat → Nat → Nat → List (Nat × Nat)
  | [], first, last => [(first, last)]
  | size :: sizes, first, last =>
    if first / size == last / size then [(first, last)]
    else
      let start := (first + size - 1) / size * size
      let stop := (last + 1) / size * size
      (if first < start then [(first, start - 1)] else []) ++
        (if start < stop then cut sizes start (stop - 1) else []) ++
        (if stop ≤ last then [(stop, last)] else [])

/-- The row of a piece: the ranges from the bytes of its first character to those of its last. -/
def row (piece : Nat × Nat) : List ByteRange :=
  (String.utf8EncodeChar (Char.ofNat piece.1)).zip (String.utf8EncodeChar (Char.ofNat piece.2))

/-- The rows of a set, by ascending characters. -/
def rows (s : CharSet) : List (List ByteRange) :=
  s.ranges.flatMap fun r => zones.flatMap fun (lowest, highest, sizes) =>
    let first := max r.1 lowest
    let last := min r.2 highest
    if last < first then [] else (cut sizes first last).map row

def isAscii (s : CharSet) : Bool := s.ranges.all (·.2 < 0x80)

end ModularLexer.CharSet
