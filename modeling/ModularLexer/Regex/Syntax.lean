import ModularLexer.CharSet.Basic
import ModularLexer.Text

/-!
Regular expressions as trees, and the reasons for which a source text is not one.
-/
namespace ModularLexer.Regex

/-- A test on the characters before and after a place in the text. Tests on words carry the set of
word characters they go by. -/
inductive Assertion where
  | textStart
  | textStop
  | lineStart
  | lineStop
  | returnLineStart
  | returnLineStop
  | wordEdge (word : CharSet)
  | noWordEdge (word : CharSet)
  | wordStart (word : CharSet)
  | wordStop (word : CharSet)
  | noWordBefore (word : CharSet)
  | noWordAfter (word : CharSet)
  deriving DecidableEq, Repr

def Assertion.holds (before after : Option Char) : Assertion → Bool
  | textStart => before.isNone
  | textStop => after.isNone
  | lineStart => before.isNone || before == some '\n'
  | lineStop => after.isNone || after == some '\n'
  | returnLineStart =>
    before.isNone || before == some '\n' || (before == some '\r' && after != some '\n')
  | returnLineStop =>
    after.isNone || after == some '\r' || (after == some '\n' && before != some '\r')
  | wordEdge word => before.any word.contains != after.any word.contains
  | noWordEdge word => before.any word.contains == after.any word.contains
  | wordStart word => !before.any word.contains && after.any word.contains
  | wordStop word => before.any word.contains && !after.any word.contains
  | noWordBefore word => !before.any word.contains
  | noWordAfter word => !after.any word.contains

/-- A regular expression. Alternatives and repetitions come in order of preference, a greedy
repetition preferring to go on. Sets are of characters or, under the restriction to ASCII, of
bytes. Sequences and alternatives go on in their second part. -/
inductive Node where
  | empty
  | text (chars : Text)
  | char (set : CharSet)
  | byte (set : CharSet)
  | check (test : Assertion)
  | group (index : Nat) (body : Node)
  | append (first rest : Node)
  | either (first rest : Node)
  | iterate (body : Node) (least : Nat) (most : Option Nat) (greedy : Bool)
  deriving DecidableEq, Repr

namespace Node

def nullable : Node → Bool
  | empty => true
  | text chars => chars.isEmpty
  | char _ => false
  | byte _ => false
  | check _ => true
  | group _ body => body.nullable
  | append first rest => first.nullable && rest.nullable
  | either first rest => first.nullable || rest.nullable
  | iterate body least _ _ => least == 0 || body.nullable

/-- Whether an expression reads no characters, whatever the text. -/
def readsNothing : Node → Bool
  | empty => true
  | text chars => chars.isEmpty
  | char _ => false
  | byte _ => false
  | check _ => true
  | group _ body => body.readsNothing
  | append first rest => first.readsNothing && rest.readsNothing
  | either first rest => first.readsNothing && rest.readsNothing
  | iterate body _ _ _ => body.readsNothing

def lastGroup : Node → Nat
  | empty => 0
  | text _ => 0
  | char _ => 0
  | byte _ => 0
  | check _ => 0
  | group index body => max index body.lastGroup
  | append first rest => max first.lastGroup rest.lastGroup
  | either first rest => max first.lastGroup rest.lastGroup
  | iterate body _ _ _ => body.lastGroup

end Node

inductive Cause where
  | unclosedGroup
  | unopenedGroup
  | lookaround
  | backreference
  | badGroupName
  | duplicateGroupName
  | badFlags
  | missingOperand
  | badCount
  | unclosedClass
  | badClassItem
  | reversedRange
  | badEscape
  | badCodePoint
  | unknownProperty
  | beyondText
  | tooDeep
  | tooLarge
  deriving DecidableEq, Repr

end ModularLexer.Regex
