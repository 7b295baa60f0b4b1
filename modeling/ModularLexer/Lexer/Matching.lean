import ModularLexer.Lexer.Machine

/-!
Taking input, matching patterns against it, and making tokens of what they match.
-/
namespace ModularLexer.LexM

def consume (bytes : Nat) : LexM Text := do
  let (taken, p) ← ofExcept ((← pass).consume bytes)
  setPass p
  return taken

/-- Takes bytes of the rest and counts a text as consumed for them. -/
def consumeAs (bytes : Nat) (value : Text) : LexM Unit := do
  let p ← ofExcept ((← pass).consumeAs bytes value)
  setPass p

/-- Consumes what a pattern matches at the start of the rest. A pattern that is not anchored and a
match of nothing are errors. -/
def matchPattern (pattern : Pattern) : LexM (Option Captures) := do
  ofExcept pattern.validate
  let p ← pass
  match pattern.read? p.rest p.offset p.input with
  | none => return none
  | some captures =>
    if captures.isEmpty then throw (.emptyMatch pattern.source)
    else
      let _ ← consume (Text.byteLength captures.full)
      return some captures

/-- Consumes spaces and tabs, if there are any. -/
def skipSpaces : LexM (Option Text) := do
  return (← matchPattern .spaces).map (·.full)

def token (kind : String) (value : Option Text) : LexM Token := do
  notify (·.onToken) (.token (.plain kind value))
  return .plain kind value

def tokenFrom (kind : String) (captures : Captures) : LexM Token := do
  notify (·.onToken) (.token (.ofCaptures kind captures))
  return .ofCaptures kind captures

def locationFrom (start : Position) : LexM Location := do
  return (← lexer).locationFrom start

/-- Makes a token of what a pattern matches, with its location. -/
def scan (pattern : Pattern) (kind : String) : LexM (Option Token) := do
  let start := (← pass).position
  match ← matchPattern pattern with
  | none => return none
  | some captures =>
    let t ← tokenFrom kind captures
    let t := { t with location := some (← locationFrom start) }
    notify (·.onScan) (.scan t)
    return some t

def push (t : Token) : LexM Unit := do
  notify (·.onPush) (.push t)
  modifyPass (·.push t)

def init (input : Text) : LexM Unit := setPass (.start input)

def register (kind : String) (handler : Handler) : LexM Unit := do
  let l ← lexer
  setLexer { l with registry := l.registry.set kind handler }

end ModularLexer.LexM
