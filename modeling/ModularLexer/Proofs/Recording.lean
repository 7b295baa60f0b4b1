import ModularLexer.Proofs.Effects

/-!
Drivers with a record beside them. The outcome of a run does not tell which tokens it took, tested
or had derived on the way; a computation that keeps a record of this does to the lexer what the
plain one does. Whatever is recorded, the drivers that draw on the stream of tokens are the same.
They are given here once, over how a token is taken, how the lexer advances and what is kept of a
test, and without the record each of them is the plain driver.
-/
namespace ModularLexer

/-- Computations that keep a record of what they do to a lexer. -/
class Recording (M : Type → Type) [Monad M] where
  lift {α : Type} : LexM α → M α
  attempt {α : Type} : M α → M (Except LexError α)
  value {α : Type} : M α → LexM α
  value_pure {α : Type} (a : α) : value (Pure.pure a : M α) = Pure.pure a
  value_bind {α β : Type} (x : M α) (f : α → M β) :
    value (x >>= f) = value x >>= fun a => value (f a)
  value_lift {α : Type} (x : LexM α) : value (lift x : M α) = x
  value_attempt {α : Type} (x : M α) : value (attempt x) = LexM.attempt (value x)

open Recording (lift attempt value)

/-- Where recorded drivers get their tokens from: the queue, an advance, or an advance whose token
is taken at once. -/
structure Source (M : Type → Type) [Monad M] [Recording M]
    (call : Handler → LexM (Option Token)) where
  dequeue : M (Option Token)
  advance : M (Option Token)
  draw : M (Option Token)
  test (t : Token) (accepted : Bool) : M Bool
  value_dequeue : value dequeue = LexM.dequeue
  value_advance : value advance = LexM.advance call
  value_draw : value draw = LexM.advance call
  value_test (t : Token) (accepted : Bool) : value (test t accepted) = Pure.pure accepted

attribute [simp] Recording.value_pure Recording.value_bind Recording.value_lift
  Recording.value_attempt Source.value_dequeue Source.value_advance Source.value_draw
  Source.value_test

namespace Source

variable {M : Type → Type} [Monad M] [Recording M] {call : Handler → LexM (Option Token)}
  (S : Source M call)

def next : M (Option Token) := do
  match ← S.dequeue with
  | some t => return some t
  | none => S.draw

def pushAll : Nat → M Unit
  | 0 => lift LexM.timeout
  | bound + 1 => do
    match ← S.next with
    | some t =>
      lift (LexM.push t)
      pushAll bound
    | none => return ()

def lex (bound : Nat) : M (List Token) := do
  S.pushAll bound
  if (← lift LexM.pass).rest.isEmpty then lift LexM.finish
  return (← lift LexM.pass).tokens.toList

def tokenize (bound : Nat) (input : Text) : M (List Token) := do
  lift (LexM.init input)
  S.lex bound

def fill (n : Nat) : Nat → M Unit
  | 0 => return ()
  | bound + 1 => do
    let queued := (← lift LexM.pass).queue
    if n ≤ queued.length then return ()
    else
      lift (LexM.setQueue [])
      let outcome ← attempt S.advance
      let ahead := (← lift LexM.pass).queue
      match outcome with
      | .ok (some t) =>
        lift (LexM.setQueue (queued ++ t :: ahead))
        fill n bound
      | .ok none => lift (LexM.setQueue (queued ++ ahead))
      | .error e =>
        lift (LexM.setQueue (queued ++ ahead))
        lift (LexM.throw e)

def lookahead (n : Nat) : M (Option Token) := do
  if n = 0 then lift (LexM.throw .lookahead)
  else
    S.fill n (n - (← lift LexM.pass).queue.length)
    return (← lift LexM.pass).queue[n - 1]?

def skipOnto : Nat → List Token → M (List Token)
  | 0, taken => return taken.reverse
  | n + 1, taken => do
    match ← S.next with
    | some t => skipOnto n (t :: taken)
    | none => return taken.reverse

def skipWhileOnto (accepts : List Token → Token → Bool) : Nat → List Token → M (List Token)
  | 0, _ => lift LexM.timeout
  | bound + 1, taken => do
    match ← S.lookahead 1 with
    | none => return taken.reverse
    | some t =>
      if ← S.test t (accepts taken t) then
        match ← S.next with
        | some t => skipWhileOnto accepts bound (t :: taken)
        | none => skipWhileOnto accepts bound taken
      else return taken.reverse

def skipTo (bound : Nat) (kind : String) : M (List Token) := do
  let taken ← S.skipWhileOnto (fun _ t => !t.is kind) bound []
  match ← S.next with
  | some t => return taken ++ [t]
  | none => return taken

theorem value_next : value S.next = LexM.next call := by
  simp only [next, LexM.next, Recording.value_bind, value_dequeue]
  refine bind_congr fun t? => ?_
  cases t? <;> simp

theorem value_pushAll (bound : Nat) : value (S.pushAll bound) = LexM.pushAll call bound := by
  induction bound with
  | zero => exact Recording.value_lift _
  | succ bound ih =>
    simp only [pushAll, LexM.pushAll, Recording.value_bind, value_next]
    refine bind_congr fun t? => ?_
    cases t? <;> simp [ih]

theorem value_lex (bound : Nat) : value (S.lex bound) = LexM.lex call bound := by
  simp only [lex, LexM.lex, Recording.value_bind, value_pushAll, Recording.value_lift]
  refine bind_congr fun _ => bind_congr fun p => ?_
  split <;> simp

theorem value_tokenize (bound : Nat) (input : Text) :
    value (S.tokenize bound input) = LexM.tokenize call bound input := by
  simp only [tokenize, LexM.tokenize, Recording.value_bind, Recording.value_lift, value_lex]

theorem value_fill (n bound : Nat) : value (S.fill n bound) = LexM.fill call n bound := by
  induction bound with
  | zero => exact Recording.value_pure _
  | succ bound ih =>
    simp only [fill, LexM.fill, Recording.value_bind, Recording.value_lift]
    refine bind_congr fun p => ?_
    split
    · exact Recording.value_pure _
    · simp only [Recording.value_bind, Recording.value_lift, Recording.value_attempt,
        value_advance]
      refine bind_congr fun _ => bind_congr fun outcome => bind_congr fun q => ?_
      rcases outcome with e | _ | t <;> simp [ih]

theorem value_lookahead (n : Nat) : value (S.lookahead n) = LexM.lookahead call n := by
  simp only [lookahead, LexM.lookahead]
  split <;> simp [value_fill]

theorem value_skipOnto (n : Nat) (taken : List Token) :
    value (S.skipOnto n taken) = LexM.skipOnto call n taken := by
  induction n generalizing taken with
  | zero => exact Recording.value_pure _
  | succ n ih =>
    simp only [skipOnto, LexM.skipOnto, Recording.value_bind, value_next]
    refine bind_congr fun t? => ?_
    cases t? <;> simp [ih]

theorem value_skipWhileOnto (accepts : List Token → Token → Bool) (bound : Nat)
    (taken : List Token) :
    value (S.skipWhileOnto accepts bound taken) =
      LexM.skipWhileOnto call accepts bound taken := by
  induction bound generalizing taken with
  | zero => exact Recording.value_lift _
  | succ bound ih =>
    simp only [skipWhileOnto, LexM.skipWhileOnto, LexM.peek, Recording.value_bind,
      value_lookahead]
    refine bind_congr fun t? => ?_
    cases t? with
    | none => exact Recording.value_pure _
    | some t =>
      simp only [Recording.value_bind, value_test, pure_bind]
      split
      · simp only [Recording.value_bind, value_next]
        refine bind_congr fun t? => ?_
        cases t? <;> simp [ih]
      · exact Recording.value_pure _

theorem value_skipTo (bound : Nat) (kind : String) :
    value (S.skipTo bound kind) = LexM.skipTo call bound kind := by
  simp only [skipTo, LexM.skipTo, LexM.skipWhile, Recording.value_bind, value_skipWhileOnto,
    value_next]
  refine bind_congr fun taken => bind_congr fun t? => ?_
  cases t? <;> exact Recording.value_pure _

end Source

end ModularLexer
