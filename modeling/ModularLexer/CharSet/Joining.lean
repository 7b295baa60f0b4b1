/-!
The code points that join words: connector punctuation and the join controls.
-/
namespace ModularLexer.CharSet

def connectorRanges : List (Nat × Nat) :=
  [(0x5F, 0x5F), (0x203F, 0x2040), (0x2054, 0x2054), (0xFE33, 0xFE34), (0xFE4D, 0xFE4F),
  (0xFF3F, 0xFF3F)]

def joinControlRanges : List (Nat × Nat) :=
  [(0x200C, 0x200D)]

end ModularLexer.CharSet
