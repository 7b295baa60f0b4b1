import ModularLexer.Captures
import ModularLexer.Location

/-!
Tokens: a kind, and what of the input it stands for.
-/
namespace ModularLexer

/-- A recognised piece of input. An empty kind stands for the kind its handler is registered as. -/
structure Token where
  kind : String
  value : Option Text
  captures : Option Captures
  location : Option Location
  deriving DecidableEq, Repr

namespace Token

def plain (kind : String) (value : Option Text) : Token := ⟨kind, value, none, none⟩

def ofCaptures (kind : String) (captures : Captures) : Token :=
  ⟨kind, some captures.value, some captures, none⟩

def is (t : Token) (kind : String) : Bool := t.kind == kind

/-- The text that points at a token in messages: its match, else its value, else its kind. -/
def describe (t : Token) : Text :=
  match t.captures, t.value with
  | some captures, _ => captures.full
  | none, some value => value
  | none, none => t.kind.toList

/-- Names a token that has no kind yet. -/
def withKind (t : Token) (kind : String) : Token :=
  if t.kind.isEmpty then { t with kind := kind } else t

/-- Places a token that has no location yet. -/
def withLocation (t : Token) (location : Location) : Token :=
  if t.location.isNone then { t with location := some location } else t

end Token

end ModularLexer
