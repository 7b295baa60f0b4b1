import ModularLexer.Regex.Syntax

/-!
Flags of a regular expression, how a source text sets them, and what spaced sources leave out.
-/
namespace ModularLexer.Regex

/-- What changes the reading of an expression. All flags are off at first. -/
structure Flags where
  ignoreCase : Bool
  multiLine : Bool
  dotAll : Bool
  swapGreed : Bool
  ascii : Bool
  spaced : Bool
  returns : Bool
  deriving DecidableEq, Repr

namespace Flags

def none : Flags := ⟨false, false, false, false, false, false, false⟩

/-- Sets the flag of a letter. The letter for Unicode turns the restriction to ASCII off. -/
def set? (f : Flags) (on : Bool) : Char → Option Flags
  | 'i' => some { f with ignoreCase := on }
  | 'm' => some { f with multiLine := on }
  | 's' => some { f with dotAll := on }
  | 'U' => some { f with swapGreed := on }
  | 'u' => some { f with ascii := !on }
  | 'x' => some { f with spaced := on }
  | 'R' => some { f with returns := on }
  | _ => .none

/-- Reads letters up to a colon or a closing parenthesis; with a colon the flags hold for the group
that opens here. Letters after a minus sign turn flags off, each letter comes once, a minus sign is
followed by a letter, and a parenthesis needs a letter before it. -/
def read (seen : List Char) (negated dangling : Bool) (f : Flags) :
    Text → Except Cause (Flags × Bool × Text)
  | [] => .error .badFlags
  | ':' :: rest => if dangling then .error .badFlags else .ok (f, true, rest)
  | ')' :: rest =>
    if dangling then .error .badFlags
    else if seen.isEmpty then .error .missingOperand
    else .ok (f, false, rest)
  | '-' :: rest => if negated then .error .badFlags else read seen true true f rest
  | c :: rest =>
    if seen.contains c then .error .badFlags
    else
      match f.set? (!negated) c with
      | some f => read (c :: seen) negated false f rest
      | .none => .error .badFlags

/-- Drops white space and, from a number sign to the line's end, comments. The first argument tells
whether the text starts inside a comment. -/
def dropBlank : Bool → Text → Text
  | _, [] => []
  | true, c :: rest => dropBlank (c != '\n') rest
  | false, c :: rest =>
    if CharSet.blank.contains c then dropBlank false rest
    else if c == '#' then dropBlank true rest
    else c :: rest

/-- What is left to read here: a spaced source leaves out white space and comments. -/
def skip (f : Flags) (t : Text) : Text := if f.spaced then dropBlank false t else t

/-- The character to read after this one, as far as ranges in a class look ahead. -/
def peekSpaced (f : Flags) (t : Text) : Option Char :=
  if f.spaced then
    match t.dropWhile CharSet.blank.contains with
    | '#' :: rest => (rest.dropWhile CharSet.blank.contains).head?
    | rest => rest.head?
  else t.head?

def fold (f : Flags) (s : CharSet) : CharSet :=
  if f.ignoreCase then (if f.ascii then .asciiFolded s else .folded s) else s

/-- The set of what is not in another; the restriction to ASCII has no such sets. -/
def negate (f : Flags) (s : CharSet) : Except Cause CharSet :=
  if f.ascii then .error .beyondText else .ok (.compl s)

def word (f : Flags) : CharSet := if f.ascii then .asciiWord else .word

def digit (f : Flags) : CharSet := if f.ascii then .asciiDigit else .digit

def blank (f : Flags) : CharSet := if f.ascii then .asciiBlank else .blank

end Flags

end ModularLexer.Regex
