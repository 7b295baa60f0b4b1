import ModularLexer.Options
import ModularLexer.Pass

/-!
What a lexer shows of itself, and the answers that scripts note and sessions give.
-/
namespace ModularLexer

/-- What can be seen of a lexer: all but its handlers and observers. -/
structure View where
  pass : Pass
  kinds : List String
  mode : Mode
  source : Option String
  deriving DecidableEq, Repr

inductive Answer where
  | nothing
  | flag (value : Bool)
  | text (value : Text)
  | names (values : List String)
  | token (value : Token)
  | tokens (values : List Token)
  | captures (value : Captures)
  | location (value : Location)
  | registry (kinds : List String)
  | dump (value : View)
  | error (value : LexError)
  deriving DecidableEq, Repr

namespace Answer

def ofToken? : Option Token → Answer
  | some t => .token t
  | none => .nothing

def ofText? : Option Text → Answer
  | some t => .text t
  | none => .nothing

def ofCaptures? : Option Captures → Answer
  | some c => .captures c
  | none => .nothing

end Answer

end ModularLexer
