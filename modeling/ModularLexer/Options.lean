/-!
How a lexer is set up: what it makes tokens of, the name of its input, and who observes it.
-/
namespace ModularLexer

/-- What tokens are made of: whatever the handlers recognise, or single characters. -/
inductive Mode where
  | token
  | character
  deriving DecidableEq, Repr

/-- Which observers are installed. An observer of errors takes them over; the others only watch. -/
structure Hooks where
  onToken : Bool
  onScan : Bool
  onPush : Bool
  onError : Bool
  deriving DecidableEq, Repr

namespace Hooks

def none : Hooks := ⟨false, false, false, false⟩

def text (h : Hooks) : String :=
  "Hooks \x7b on_token: " ++ toString h.onToken ++ ", on_scan: " ++ toString h.onScan ++
    ", on_push: " ++ toString h.onPush ++ ", on_error: " ++ toString h.onError ++ " \x7d"

end Hooks

structure Options where
  mode : Mode
  source : Option String
  hooks : Hooks
  deriving DecidableEq, Repr

namespace Options

/-- The set-up of a fork: the same but for the observers. -/
def fork (o : Options) : Options := { o with hooks := .none }

end Options

end ModularLexer
