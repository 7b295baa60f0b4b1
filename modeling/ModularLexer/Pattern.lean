import ModularLexer.Captures
import ModularLexer.LexError
import ModularLexer.Regex.Basic

/-!
Patterns: expressions that are applied to the start of what is left of an input.
-/
namespace ModularLexer

/-- An expression with its source text. -/
structure Pattern where
  source : String
  regex : Regex
  deriving DecidableEq, Repr

namespace Pattern

/-- Compiles a source text. Of the properties of characters only those of the tables are known, so
a source text that names another one is refused here. What a compiler of expressions would report
is left out. -/
def ofSource (source : String) : Except LexError Pattern :=
  match Regex.ofSource source with
  | .ok regex => .ok ⟨source, regex⟩
  | .error _ => .error (.regex "")

def isAnchored (p : Pattern) : Bool := p.source.toList.head? == some '^'

/-- Refuses a pattern that is not anchored. -/
def validate (p : Pattern) : Except LexError Unit :=
  if p.isAnchored then .ok () else .error (.configuration p.source)

/-- The match at the start of the rest of an input, which begins at a byte index. -/
def read? (p : Pattern) (rest : Text) (index : Nat) (input : Text) : Option Captures :=
  (p.regex.groupTexts? rest).map fun groups => ⟨groups, index, input⟩

def spaces : Pattern where
  source := "^[ \\t]+"
  regex := .ofNode
    (.append (.check .textStart)
      (.iterate (.char ⟨[(0x9, 0x9), (0x20, 0x20)]⟩) 1 none true))

/-- The pattern of spaces is what its source text compiles to. -/
theorem ofSource_spaces : ofSource spaces.source = .ok spaces := by rfl

end Pattern

end ModularLexer
