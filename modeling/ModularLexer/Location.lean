import ModularLexer.Position

/-!
Stretches of a text, from one position to another.
-/
namespace ModularLexer

/-- A stretch between two positions of an input that may have a name. -/
structure Location where
  start : Position
  stop : Position
  source : Option String
  deriving DecidableEq, Repr, Inhabited

namespace Location

def range (l : Location) : Nat × Nat := (l.start.index.toNat, l.stop.index.toNat)

/-- The number of bytes covered, zero for a stretch that stops before it starts. -/
def length (l : Location) : Nat := l.stop.index.toNat - l.start.index.toNat

def isEmpty (l : Location) : Bool := l.length == 0

/-- Reaches from a stretch to where the last of some others stops. -/
def combine (l : Location) (others : List Location) : Location :=
  match others.getLast? with
  | some other => { l with stop := other.stop }
  | none => l

def text (l : Location) : String :=
  match l.source with
  | some source => source ++ ":" ++ l.start.text
  | none => l.start.text

end Location

end ModularLexer
