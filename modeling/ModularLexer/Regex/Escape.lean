import ModularLexer.Regex.Flags

/-!
Escapes: what a backslash and the characters after it stand for.
-/
namespace ModularLexer.Regex

inductive Atom where
  | char (c : Char)
  | chars (s : CharSet)
  | check (test : Assertion)
  deriving DecidableEq, Repr

namespace Atom

def hexDigit? (c : Char) : Option Nat :=
  if c.isDigit then some (c.toNat - '0'.toNat)
  else if 'a' ≤ c && c ≤ 'f' then some (c.toNat - 'a'.toNat + 10)
  else if 'A' ≤ c && c ≤ 'F' then some (c.toNat - 'A'.toNat + 10)
  else none

def ofCodePoint (n : Nat) : Except Cause Atom :=
  if n.isValidChar then .ok (.char (Char.ofNat n)) else .error .badCodePoint

/-- Reads a code point of exactly so many digits, after what was read of it already. -/
def readHex (f : Flags) : Nat → Nat → Text → Except Cause (Nat × Text)
  | 0, value, t => .ok (value, t)
  | _ + 1, _, [] => .error .badEscape
  | digits + 1, value, c :: rest =>
    match hexDigit? c with
    | some digit => readHex f digits (16 * value + digit) (f.skip rest)
    | none => .error .badEscape

/-- Reads the characters up to a closing brace. The first argument bounds their number. -/
def readBraced (f : Flags) : Nat → Text → Except Cause (Text × Text)
  | 0, _ => .error .badEscape
  | bound + 1, t =>
    match f.skip t with
    | [] => .error .badEscape
    | '}' :: rest => .ok ([], rest)
    | c :: rest => do
      let (inside, rest) ← readBraced f bound rest
      return (c :: inside, rest)

def hexValue? (digits : Text) : Option Nat :=
  if digits.isEmpty then none
  else digits.foldlM (fun value c => (hexDigit? c).map (16 * value + ·)) 0

/-- Reads a code point, of a fixed number of digits or in braces. A fixed pair of digits beyond
ASCII is no character where the expression is restricted to ASCII. -/
def readCodePoint (f : Flags) (digits : Nat) (t : Text) : Except Cause (Atom × Text) :=
  match f.skip t with
  | [] => .error .badEscape
  | '{' :: rest => do
    let (inside, rest) ← readBraced f (rest.length + 1) rest
    match hexValue? inside with
    | some value => return (← ofCodePoint value, f.skip rest)
    | none => .error .badEscape
  | t => do
    let (value, rest) ← readHex f digits 0 t
    if f.ascii && digits == 2 && 0x7F < value then .error .beyondText
    return (← ofCodePoint value, rest)

/-- The set that a property of characters names, spelled without regard to case, spaces, hyphens and
underscores. The properties known are those of the tables of character sets. -/
def property? (name : Text) : Option CharSet :=
  let letters := name.filter fun c => c != ' ' && c != '_' && c != '-'
  match String.ofList (letters.map Char.toLower) with
  | "any" => some .all
  | "ascii" => some (.range 0 0x7F)
  | "alphabetic" | "alpha" => some .alphabetic
  | "whitespace" | "wspace" | "space" => some .blank
  | "joincontrol" | "joinc" => some .joinControl
  | "nd" | "decimalnumber" | "digit" => some .digit
  | "n" | "number" => some .number
  | "m" | "mark" | "combiningmark" => some .mark
  | "pc" | "connectorpunctuation" => some .connector
  | _ => none

def ofProperty (f : Flags) (negated : Bool) (name : Text) : Except Cause Atom :=
  if f.ascii then .error .beyondText
  else
    match property? name with
    | some s => .ok (.chars (if negated then .compl (f.fold s) else f.fold s))
    | none => .error .unknownProperty

/-- Reads the name of a property, one letter or several in braces. -/
def readProperty (f : Flags) (negated : Bool) (t : Text) : Except Cause (Atom × Text) :=
  match f.skip t with
  | [] => .error .badEscape
  | '{' :: rest => do
    let (name, rest) ← readBraced f (rest.length + 1) rest
    return (← ofProperty f negated name, rest)
  | c :: rest => do return (← ofProperty f negated [c], f.skip rest)

def namedEdge? (f : Flags) : String → Option Assertion
  | "start" => some (.wordStart f.word)
  | "end" => some (.wordStop f.word)
  | "start-half" => some (.noWordBefore f.word)
  | "end-half" => some (.noWordAfter f.word)
  | _ => none

/-- Reads what follows the escape for a word edge: a name in braces, or nothing that belongs to it.
A brace that no letter or hyphen follows begins a repetition. -/
def readEdge (f : Flags) (t : Text) : Except Cause (Atom × Text) :=
  match t with
  | '{' :: rest =>
    match f.skip rest with
    | [] => .error .badEscape
    | c :: _ =>
      if c.isAlpha || c == '-' then do
        let (name, rest) ← readBraced f (rest.length + 1) rest
        match namedEdge? f (String.ofList name) with
        | some edge => return (.check edge, rest)
        | none => .error .badEscape
      else .ok (.check (.wordEdge f.word), t)
  | t => .ok (.check (.wordEdge f.word), t)

/-- Characters that stand for themselves after a backslash: ASCII but for letters, digits and angle
brackets. -/
def isEscapable (c : Char) : Bool :=
  c.toNat < 0x80 && !c.isAlphanum && c != '<' && c != '>'

def readEscape (f : Flags) : Text → Except Cause (Atom × Text)
  | [] => .error .badEscape
  | 'x' :: rest => readCodePoint f 2 rest
  | 'u' :: rest => readCodePoint f 4 rest
  | 'U' :: rest => readCodePoint f 8 rest
  | 'p' :: rest => readProperty f false rest
  | 'P' :: rest => readProperty f true rest
  | 'd' :: rest => .ok (.chars f.digit, rest)
  | 's' :: rest => .ok (.chars f.blank, rest)
  | 'w' :: rest => .ok (.chars f.word, rest)
  | 'D' :: rest => do return (.chars (← f.negate f.digit), rest)
  | 'S' :: rest => do return (.chars (← f.negate f.blank), rest)
  | 'W' :: rest => do return (.chars (← f.negate f.word), rest)
  | 'a' :: rest => .ok (.char '\x07', rest)
  | 'f' :: rest => .ok (.char '\x0C', rest)
  | 't' :: rest => .ok (.char '\t', rest)
  | 'n' :: rest => .ok (.char '\n', rest)
  | 'r' :: rest => .ok (.char '\r', rest)
  | 'v' :: rest => .ok (.char '\x0B', rest)
  | 'A' :: rest => .ok (.check .textStart, rest)
  | 'z' :: rest => .ok (.check .textStop, rest)
  | 'b' :: rest => readEdge f rest
  | 'B' :: rest => .ok (.check (.noWordEdge f.word), rest)
  | '<' :: rest => .ok (.check (.wordStart f.word), rest)
  | '>' :: rest => .ok (.check (.wordStop f.word), rest)
  | c :: rest =>
    if c.isDigit then .error .backreference
    else if isEscapable c then .ok (.char c, rest)
    else .error .badEscape

end Atom

end ModularLexer.Regex
