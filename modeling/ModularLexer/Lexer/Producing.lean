import ModularLexer.Lexer.Matching

/-!
Producing tokens: running one handler, trying them in order, and lexing all that is left.
-/
namespace ModularLexer.LexM

variable (call : Handler → LexM (Option Token))

/-- Runs a handler under a kind. A token that lacks them is given the kind, and the location from
where the handler started. -/
def runHandler (kind : String) (handler : Handler) : LexM (Option Token) := do
  let start := (← pass).position
  match ← call handler with
  | none => return none
  | some t => return some ((t.withKind kind).withLocation (← locationFrom start))

def handle (kind : String) : LexM (Option Token) := do
  let handler ← ofExcept ((← lexer).registry.get kind)
  runHandler call kind handler

/-- Calls the handler of a kind, adding nothing to its token. -/
def callKind (kind : String) : LexM (Option Token) := do
  let handler ← ofExcept ((← lexer).registry.get kind)
  call handler

/-- Tries so many handlers in order from a place on, up to the first that makes a token. -/
def tryHandlers : Nat → Nat → LexM (Option Token)
  | 0, _ => return none
  | count + 1, i => do
    match (← lexer).registry.entryAt? i with
    | none => return none
    | some (kind, handler) =>
      match ← runHandler call kind handler with
      | some t => return some t
      | none => tryHandlers count (i + 1)

def characterKind : String := "char"

def characterToken (c : Char) : LexM Token := do
  let start := (← pass).position
  let taken ← consume c.utf8Size
  let t ← token characterKind (some taken)
  return { t with location := some (← locationFrom start) }

/-- Makes the next token of the rest. There is none at the end of the input, also when a handler
went there without making one; input that no handler recognises is an error. -/
def derive : LexM (Option Token) := do
  let l ← lexer
  match l.pass.rest, l.options.mode with
  | [], _ => return none
  | c :: _, .character => return some (← characterToken c)
  | _ :: _, .token =>
    match ← tryHandlers call l.registry.size 0 with
    | some t => return some t
    | none =>
      let p ← pass
      if p.rest.isEmpty then return none else throw p.unmatched

/-- Makes the next token of the rest, its errors reported. -/
def advance : LexM (Option Token) := do
  match ← attempt (derive call) with
  | .ok t => return t
  | .error e =>
    report e
    return none

def dequeue : LexM (Option Token) := do
  let (t, p) := (← pass).dequeue
  setPass p
  return t

def next : LexM (Option Token) := do
  match ← dequeue with
  | some t => return some t
  | none => advance call

/-- Moves tokens to the list until there are no more. The first argument bounds their number. -/
def pushAll : Nat → LexM Unit
  | 0 => timeout
  | bound + 1 => do
    match ← next call with
    | some t =>
      push t
      pushAll bound
    | none => return ()

/-- Reports what keeps the pass from stopping here. -/
def finish : LexM Unit := do
  match (← pass).incomplete? with
  | some e => report e
  | none => return ()

/-- Lexes all of the rest. Input that is left over has been reported already. -/
def lex (bound : Nat) : LexM (List Token) := do
  pushAll call bound
  if (← pass).rest.isEmpty then finish
  return (← pass).tokens.toList

def tokenize (bound : Nat) (input : Text) : LexM (List Token) := do
  init input
  lex call bound

end ModularLexer.LexM
