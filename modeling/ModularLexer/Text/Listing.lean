import ModularLexer.CharSet.Basic
import ModularLexer.CharSet.Extending
import ModularLexer.CharSet.Unprintable

/-!
Lists of texts as one line: every text in double quotes, with escapes for what would not show.
-/
namespace ModularLexer.Listing

/-- Digits of a number to base 16, in lower case. -/
def hex (n : Nat) : String := String.ofList (Nat.toDigits 16 n)

def isHidden (c : Char) : Bool :=
  CharSet.inRanges c.toNat CharSet.extendingRanges ||
    CharSet.inRanges c.toNat CharSet.unprintableRanges ||
    CharSet.inRanges c.toNat CharSet.fillerRanges

def escape (c : Char) : String :=
  match c with
  | '"' => "\\\""
  | '\\' => "\\\\"
  | '\n' => "\\n"
  | '\r' => "\\r"
  | '\t' => "\\t"
  | '\x00' => "\\0"
  | c => if isHidden c then "\\u\x7b" ++ hex c.toNat ++ "\x7d" else c.toString

def quote (s : String) : String := "\"" ++ String.join (s.toList.map escape) ++ "\""

def ofList (l : List String) : String := "[" ++ String.intercalate ", " (l.map quote) ++ "]"

end ModularLexer.Listing
