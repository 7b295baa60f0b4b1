import ModularLexer.Text

/-!
What a successful match caught of an input.
-/
namespace ModularLexer

/-- The texts of all groups, the whole match first, an absent one for a group that took no part;
with the byte index of the match in the input. -/
structure Captures where
  groups : List (Option Text)
  index : Nat
  input : Text
  deriving DecidableEq, Repr

namespace Captures

/-- The text of a group that took part. -/
def get? (c : Captures) (i : Nat) : Option Text := (c.groups[i]?).join

def full (c : Captures) : Text := (c.get? 0).getD []

/-- The number of groups, the whole match included. -/
def size (c : Captures) : Nat := c.groups.length

def isEmpty (c : Captures) : Bool := c.full.isEmpty

/-- The text that was searched: the input from the match on. -/
def target (c : Captures) : Text :=
  match Text.splitBytes? c.index c.input with
  | some (_, rest) => rest
  | none => []

/-- The first group if it caught something, else the whole match. -/
def value (c : Captures) : Text :=
  match c.get? 1 with
  | some (ch :: text) => ch :: text
  | _ => c.full

end Captures

end ModularLexer
