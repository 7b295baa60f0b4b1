import ModularLexer.Position

/-!
What can go wrong while lexing, and how it is reported.
-/
namespace ModularLexer

inductive LexError where
  /-- A pattern is not anchored at the start. -/
  | configuration (pattern : String)
  /-- A pattern caught the empty text. -/
  | emptyMatch (pattern : String)
  /-- No handler is registered as a kind. -/
  | lookup (kind : String)
  /-- No handler took what is left of the input. -/
  | unmatchedInput (remaining : Text) (position : Position)
  /-- A token that opens something is never closed. -/
  | unclosed (token : Text) (position : Position)
  /-- More was to be consumed than is left, or a part of a character. -/
  | outOfBounds (bytes : Nat) (remaining : Text)
  /-- A source text is no expression; the compiler of expressions reports why. -/
  | regex (report : String)
  /-- A look ahead by no token. -/
  | lookahead
  /-- A look behind by no token. -/
  | lookbehind
  /-- A handler failed in its own words. -/
  | handler (text : String)
  deriving DecidableEq, Repr

namespace LexError

def quoted (text : String) : String := "\"" ++ text ++ "\""

def ticked (text : String) : String := "\x60" ++ text ++ "\x60"

def place (position : Position) : String := "\n\tat " ++ position.text

/-- The report of an error. What a handler raises is reported in its own words. -/
def message : LexError → String
  | configuration pattern => "expected regex to start with \"^\": " ++ ticked pattern
  | emptyMatch pattern => "regex should not match an empty string: " ++ ticked pattern
  | lookup kind => "no handler registered for type " ++ quoted kind
  | unmatchedInput remaining position =>
    "unmatched input: " ++ quoted (String.ofList remaining) ++ place position
  | unclosed token position => "unclosed: " ++ quoted (String.ofList token) ++ place position
  | outOfBounds bytes remaining =>
    "cannot consume " ++ toString bytes ++ " bytes from " ++ quoted (String.ofList remaining)
  | regex report => "invalid regex: " ++ report
  | lookahead => "expected lookahead to be at least 1"
  | lookbehind => "expected lookbehind to be at least 1"
  | handler text => text

/-- An error as a handler passes it on. -/
def wrap (e : LexError) : LexError := .handler e.message

end LexError

end ModularLexer
