import ModularLexer.Lexer.Basic

/-!
Effects on a lexer: computations that change it, tell observers, may fail and may run out of time.
-/
namespace ModularLexer

/-- What observers are told, and what scripts note. -/
inductive Event where
  | token (token : Token)
  | scan (token : Token)
  | push (token : Token)
  | error (error : LexError)
  | note (label : String) (answer : Answer)
  deriving DecidableEq, Repr

/-- A lexer with the journal of events, the oldest first, that its forks share. -/
structure Machine where
  lexer : Lexer
  journal : Array Event

/-- A computation on a machine. Its changes stay when it fails, and it has no outcome at all when it
runs out of the steps it is given. -/
def LexM (α : Type) : Type := Machine → Option (Except LexError α × Machine)

namespace LexM

variable {α β : Type}

def pure (a : α) : LexM α := fun m => some (.ok a, m)

def bind (x : LexM α) (f : α → LexM β) : LexM β := fun m =>
  match x m with
  | some (.ok a, m) => f a m
  | some (.error e, m) => some (.error e, m)
  | none => none

instance : Monad LexM where
  pure := pure
  bind := bind

/-- A computation goes on from the result and the machine it left. -/
theorem bind_of_ok {x : LexM α} {f : α → LexM β} {m n : Machine} {a : α}
    (h : x m = some (.ok a, n)) : (x >>= f) m = f a n := by
  simp [Bind.bind, bind, h]

/-- An error leaves the machine as it was when the error arose. -/
theorem bind_of_error {x : LexM α} {f : α → LexM β} {m n : Machine} {e : LexError}
    (h : x m = some (.error e, n)) : (x >>= f) m = some (.error e, n) := by
  simp [Bind.bind, bind, h]

instance : LawfulMonad LexM := LawfulMonad.mk' _
  (fun x => by
    funext m
    show bind x pure m = x m
    unfold bind
    split <;> simp_all [pure])
  (fun _ _ => rfl)
  (fun x f g => by
    funext m
    show bind (bind x f) g m = bind x (fun a => bind (f a) g) m
    unfold bind
    cases x m with
    | none => rfl
    | some r => obtain ⟨r | a, n⟩ := r <;> rfl)

def throw (e : LexError) : LexM α := fun m => some (.error e, m)

def timeout : LexM α := fun _ => none

def ofExcept : Except LexError α → LexM α
  | .ok a => pure a
  | .error e => throw e

/-- A computation's error as part of its result. -/
def attempt (x : LexM α) : LexM (Except LexError α) := fun m =>
  (x m).map fun (outcome, m) => (.ok outcome, m)

def lexer : LexM Lexer := fun m => some (.ok m.lexer, m)

def pass : LexM Pass := fun m => some (.ok m.lexer.pass, m)

def setLexer (l : Lexer) : LexM Unit := fun m => some (.ok (), { m with lexer := l })

def setPass (p : Pass) : LexM Unit := fun m =>
  some (.ok (), { m with lexer := { m.lexer with pass := p } })

def modifyPass (f : Pass → Pass) : LexM Unit := fun m =>
  some (.ok (), { m with lexer := { m.lexer with pass := f m.lexer.pass } })

/-- Runs a computation on a fork over another input; the result is its outcome and what the fork has
become. -/
def onFork (input : Text) (x : LexM α) : LexM (Except LexError α × View) := fun m =>
  (x { m with lexer := m.lexer.fork input }).map fun (outcome, forked) =>
    (.ok (outcome, forked.lexer.view), { forked with lexer := m.lexer })

def record (e : Event) : LexM Unit := fun m =>
  some (.ok (), { m with journal := m.journal.push e })

/-- Tells an observer, if it is installed. -/
def notify (installed : Hooks → Bool) (e : Event) : LexM Unit := do
  if installed (← lexer).options.hooks then record e

/-- Hands an error to the observer of errors; without one it is an error of the computation. -/
def report (e : LexError) : LexM Unit := do
  if (← lexer).options.hooks.onError then record (.error e) else throw e

end LexM

end ModularLexer
