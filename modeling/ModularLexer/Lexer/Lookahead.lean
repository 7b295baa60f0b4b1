import ModularLexer.Lexer.Producing

/-!
Looking ahead in the stream of tokens, and skipping parts of it.
-/
namespace ModularLexer.LexM

variable (call : Handler → LexM (Option Token))

def setQueue (queue : List Token) : LexM Unit := modifyPass fun p => { p with queue := queue }

/-- Makes tokens wait until there are `n`, or no more to come. While one is made the queue is set
aside, so that a handler looking ahead sees what follows its own token, and what it looked at waits
behind that token. The first argument bounds the number of tokens made. -/
def fill (n : Nat) : Nat → LexM Unit
  | 0 => return ()
  | bound + 1 => do
    let queued := (← pass).queue
    if n ≤ queued.length then return ()
    else
      setQueue []
      let outcome ← attempt (advance call)
      let ahead := (← pass).queue
      match outcome with
      | .ok (some t) =>
        setQueue (queued ++ t :: ahead)
        fill n bound
      | .ok none => setQueue (queued ++ ahead)
      | .error e =>
        setQueue (queued ++ ahead)
        throw e

/-- The `n`-th token to come, counted from one. -/
def lookahead (n : Nat) : LexM (Option Token) := do
  if n = 0 then throw .lookahead
  else
    fill call n (n - (← pass).queue.length)
    return (← pass).queue[n - 1]?

def peek : LexM (Option Token) := lookahead call 1

/-- Takes so many tokens in addition to those already taken, the latest first, if they come. -/
def skipOnto : Nat → List Token → LexM (List Token)
  | 0, taken => return taken.reverse
  | n + 1, taken => do
    match ← next call with
    | some t => skipOnto n (t :: taken)
    | none => return taken.reverse

def skip (n : Nat) : LexM (List Token) := skipOnto call n []

/-- Takes tokens as long as a test accepts them, given those already taken, the latest first. The
second argument bounds the number of tests. -/
def skipWhileOnto (accepts : List Token → Token → Bool) : Nat → List Token → LexM (List Token)
  | 0, _ => timeout
  | bound + 1, taken => do
    match ← peek call with
    | none => return taken.reverse
    | some t =>
      if accepts taken t then
        match ← next call with
        | some t => skipWhileOnto accepts bound (t :: taken)
        | none => skipWhileOnto accepts bound taken
      else return taken.reverse

def skipWhile (bound : Nat) (accepts : List Token → Token → Bool) : LexM (List Token) :=
  skipWhileOnto call accepts bound []

/-- Takes tokens up to the first of a kind, that one included. -/
def skipTo (bound : Nat) (kind : String) : LexM (List Token) := do
  let taken ← skipWhile call bound fun _ t => !t.is kind
  match ← next call with
  | some t => return taken ++ [t]
  | none => return taken

end ModularLexer.LexM
