import ModularLexer.Proofs.Recording

/-!
Runs with what is seen on the way. Programs stand at machines, ask for something and get an answer;
tokens are derived. All of this is put down in order, however deep handlers call others, and is kept
where a run fails or has no outcome. The value of a run that is watched is the run itself.
-/
namespace ModularLexer

/-- What is seen of a run: where a program stands, with what it asks for there unless it ends,
registers or forks; the answer to what it asked for at a machine; a token that was derived; where a
fork is made, and where the lexer goes on behind it. -/
inductive Sight where
  | station (machine : Machine) (request : Option Request)
  | answer (machine : Machine) (request : Request) (reply : Except LexError request.Reply)
  | derived (token : Token)
  | forked
  | joined

/-- A computation together with what is seen of it, also before an error or a timeout. -/
def Watched (α : Type) : Type := Machine → List Sight × Option (Except LexError α × Machine)

namespace Watched

variable {α β : Type}

def pure (a : α) : Watched α := fun m => ([], some (.ok a, m))

def bind (x : Watched α) (f : α → Watched β) : Watched β := fun m =>
  match x m with
  | (sights, some (.ok a, n)) => (sights ++ (f a n).1, (f a n).2)
  | (sights, some (.error e, n)) => (sights, some (.error e, n))
  | (sights, none) => (sights, none)

instance : Monad Watched where
  pure := pure
  bind := bind

def lift (x : LexM α) : Watched α := fun m => ([], x m)

def see (sight : Machine → Sight) : Watched Unit := fun m => ([sight m], some (.ok (), m))

def attempt (x : Watched α) : Watched (Except LexError α) := fun m =>
  ((x m).1, (x m).2.map fun (r, n) => (.ok r, n))

def onFork (input : Text) (x : Watched α) : Watched (Except LexError α × View) := fun m =>
  ((x { m with lexer := m.lexer.fork input }).1,
    (x { m with lexer := m.lexer.fork input }).2.map fun (r, forked) =>
      (.ok (r, forked.lexer.view), { forked with lexer := m.lexer }))

def value (x : Watched α) : LexM α := fun m => (x m).2

@[simp] theorem value_pure (a : α) : (Pure.pure a : Watched α).value = Pure.pure a := rfl

@[simp] theorem value_bind (x : Watched α) (f : α → Watched β) :
    (x >>= f).value = x.value >>= fun a => (f a).value := by
  funext m
  show (bind x f m).2 = LexM.bind x.value (fun a => (f a).value) m
  unfold bind LexM.bind value
  rcases x m with ⟨sights, _ | ⟨_ | a, n⟩⟩ <;> rfl

@[simp] theorem value_lift (x : LexM α) : (lift x).value = x := rfl

@[simp] theorem value_see (sight : Machine → Sight) : (see sight).value = Pure.pure () := rfl

@[simp] theorem value_attempt (x : Watched α) : (attempt x).value = LexM.attempt x.value := rfl

@[simp] theorem value_onFork (input : Text) (x : Watched α) :
    (onFork input x).value = LexM.onFork input x.value := rfl

instance : Recording Watched where
  lift := lift
  attempt := attempt
  value := value
  value_pure := value_pure
  value_bind := value_bind
  value_lift := value_lift
  value_attempt := value_attempt

@[simp] theorem recording_lift (x : LexM α) : (Recording.lift x : Watched α) = lift x := rfl

@[simp] theorem recording_attempt (x : Watched α) : Recording.attempt x = attempt x := rfl

section Drivers

variable (call : Handler → Watched (Option Token))

def runHandler (kind : String) (handler : Handler) : Watched (Option Token) := do
  let start := (← lift LexM.pass).position
  match ← call handler with
  | none => return none
  | some t =>
    return some ((t.withKind kind).withLocation (← lift (LexM.locationFrom start)))

def handle (kind : String) : Watched (Option Token) := do
  let handler ← lift (LexM.ofExcept ((← lift LexM.lexer).registry.get kind))
  runHandler call kind handler

def callKind (kind : String) : Watched (Option Token) := do
  let handler ← lift (LexM.ofExcept ((← lift LexM.lexer).registry.get kind))
  call handler

def tryHandlers : Nat → Nat → Watched (Option Token)
  | 0, _ => return none
  | count + 1, i => do
    match (← lift LexM.lexer).registry.entryAt? i with
    | none => return none
    | some (kind, handler) =>
      match ← runHandler call kind handler with
      | some t => return some t
      | none => tryHandlers count (i + 1)

def derive : Watched (Option Token) := do
  let l ← lift LexM.lexer
  match l.pass.rest, l.options.mode with
  | [], _ => return none
  | c :: _, .character => return some (← lift (LexM.characterToken c))
  | _ :: _, .token =>
    match ← tryHandlers call l.registry.size 0 with
    | some t => return some t
    | none =>
      let p ← lift LexM.pass
      if p.rest.isEmpty then return none else lift (LexM.throw p.unmatched)

/-- Advancing shows the token that was derived. -/
def advance : Watched (Option Token) := do
  match ← attempt (derive call) with
  | .ok (some t) =>
    see fun _ => .derived t
    return some t
  | .ok none => return none
  | .error e =>
    lift (LexM.report e)
    return none

@[simp] theorem value_runHandler (kind : String) (handler : Handler) :
    (runHandler call kind handler).value =
      LexM.runHandler (fun h => (call h).value) kind handler := by
  simp only [runHandler, LexM.runHandler, value_bind, value_lift]
  refine bind_congr fun p => bind_congr fun t? => ?_
  cases t? <;> simp

@[simp] theorem value_handle (kind : String) :
    (handle call kind).value = LexM.handle (fun h => (call h).value) kind := by
  simp [handle, LexM.handle]

@[simp] theorem value_callKind (kind : String) :
    (callKind call kind).value = LexM.callKind (fun h => (call h).value) kind := by
  simp [callKind, LexM.callKind]

@[simp] theorem value_tryHandlers (count i : Nat) :
    (tryHandlers call count i).value = LexM.tryHandlers (fun h => (call h).value) count i := by
  induction count generalizing i with
  | zero => rfl
  | succ count ih =>
    simp only [tryHandlers, LexM.tryHandlers, value_bind, value_lift]
    refine bind_congr fun l => ?_
    rcases l.registry.entryAt? i with _ | ⟨kind, handler⟩
    · rfl
    · simp only [value_bind, value_runHandler]
      refine bind_congr fun t? => ?_
      cases t? <;> simp [ih]

@[simp] theorem value_derive :
    (derive call).value = LexM.derive (fun h => (call h).value) := by
  simp only [derive, LexM.derive, value_bind, value_lift]
  refine bind_congr fun l => ?_
  rcases l.pass.rest with _ | ⟨c, rest⟩
  · rfl
  · cases l.options.mode with
    | character => simp
    | token =>
      simp only [value_bind, value_tryHandlers]
      refine bind_congr fun t? => ?_
      cases t? with
      | some t => rfl
      | none =>
        simp only [value_bind, value_lift]
        refine bind_congr fun p => ?_
        split <;> rfl

@[simp] theorem value_advance :
    (advance call).value = LexM.advance (fun h => (call h).value) := by
  simp only [advance, LexM.advance, value_bind, value_attempt, value_derive]
  refine bind_congr fun outcome => ?_
  rcases outcome with e | _ | t <;> simp

/-- The stream of tokens that is watched: an advance shows the token that was derived. -/
@[reducible] def source : Source Watched fun h => (call h).value where
  dequeue := lift LexM.dequeue
  advance := advance call
  draw := advance call
  test _ accepted := return accepted
  value_dequeue := rfl
  value_advance := value_advance call
  value_draw := value_advance call
  value_test _ _ := rfl

abbrev next : Watched (Option Token) := (source call).next

abbrev pushAll (bound : Nat) : Watched Unit := (source call).pushAll bound

abbrev lex (bound : Nat) : Watched (List Token) := (source call).lex bound

abbrev tokenize (bound : Nat) (input : Text) : Watched (List Token) :=
  (source call).tokenize bound input

abbrev fill (n bound : Nat) : Watched Unit := (source call).fill n bound

abbrev lookahead (n : Nat) : Watched (Option Token) := (source call).lookahead n

abbrev skipOnto (n : Nat) (taken : List Token) : Watched (List Token) :=
  (source call).skipOnto n taken

abbrev skipWhileOnto (accepts : List Token → Token → Bool) (bound : Nat) (taken : List Token) :
    Watched (List Token) := (source call).skipWhileOnto accepts bound taken

abbrev skipTo (bound : Nat) (kind : String) : Watched (List Token) :=
  (source call).skipTo bound kind

theorem value_next : (next call).value = LexM.next fun h => (call h).value :=
  (source call).value_next

theorem value_pushAll (bound : Nat) :
    (pushAll call bound).value = LexM.pushAll (fun h => (call h).value) bound :=
  (source call).value_pushAll bound

theorem value_lex (bound : Nat) :
    (lex call bound).value = LexM.lex (fun h => (call h).value) bound :=
  (source call).value_lex bound

theorem value_tokenize (bound : Nat) (input : Text) :
    (tokenize call bound input).value = LexM.tokenize (fun h => (call h).value) bound input :=
  (source call).value_tokenize bound input

theorem value_lookahead (n : Nat) :
    (lookahead call n).value = LexM.lookahead (fun h => (call h).value) n :=
  (source call).value_lookahead n

end Drivers

end Watched

/-- Serves a request; what is seen comes from the handlers that are called for it. -/
def Request.watched (call : Handler → Watched (Option Token)) (bound : Nat) :
    (r : Request) → Watched r.Reply
  | handle kind => Watched.handle call kind
  | Request.call kind => Watched.callKind call kind
  | advance => Watched.advance call
  | next => Watched.next call
  | lex => Watched.lex call bound
  | tokenize input => Watched.tokenize call bound input
  | lookahead n => Watched.lookahead call n
  | skip n => Watched.skipOnto call n []
  | skipWhile accepts => Watched.skipWhileOnto call accepts bound []
  | skipTo kind => Watched.skipTo call bound kind
  | r => Watched.lift (r.serve (fun _ => LexM.timeout) bound)

/-- Runs a program; it is seen wherever it stands, and so is each answer that it gets and where its
forks begin and end. -/
def Program.watched {α : Type} (call : Handler → Watched (Option Token)) (bound : Nat) :
    Program Handler α → Watched α
  | done result => do
    Watched.see fun m => .station m none
    return result
  | fail error => do
    Watched.see fun m => .station m none
    Watched.lift (LexM.throw error)
  | ask request next => do
    let m ← Watched.lift fun m => some (.ok m, m)
    Watched.see fun _ => .station m (some request)
    let reply ← Watched.attempt (request.watched call bound)
    Watched.see fun _ => .answer m request reply
    (next reply).watched call bound
  | set kind handler next => do
    Watched.see fun m => .station m none
    Watched.lift (LexM.register kind handler)
    next.watched call bound
  | fork input body next => do
    Watched.see fun m => .station m none
    Watched.see fun _ => .forked
    let (outcome, forked) ← Watched.onFork input (call body)
    Watched.see fun _ => .joined
    (next outcome forked).watched call bound

def Handler.watched : Nat → Handler → Watched (Option Token)
  | 0, _ => Watched.lift LexM.timeout
  | depth + 1, h => h.program.watched (Handler.watched depth) depth

def Program.watch {α : Type} (bound : Nat) (p : Program Handler α) : Watched α :=
  p.watched (Handler.watched bound) bound

namespace Watched

variable {α β : Type} {x : Watched α} {f : α → Watched β} {m n : Machine} {sights : List Sight}

/-- A run is what is seen of it and how it ends. -/
theorem eq_of_value {r : Except LexError α} (h : x.value m = some (r, n)) :
    x m = ((x m).1, some (r, n)) := Prod.ext rfl h

theorem bind_of_ok {a : α} (h : x m = (sights, some (.ok a, n))) :
    (x >>= f) m = (sights ++ (f a n).1, (f a n).2) := by
  simp [Bind.bind, bind, h]

theorem bind_of_error {e : LexError} (h : x m = (sights, some (.error e, n))) :
    (x >>= f) m = (sights, some (.error e, n)) := by
  simp [Bind.bind, bind, h]

theorem bind_of_timeout (h : x m = (sights, none)) : (x >>= f) m = (sights, none) := by
  simp [Bind.bind, bind, h]

/-- What comes second goes on from where the first one has led. Where that gives no result to go on
from, nothing more is seen and the end is the same. -/
theorem bind_cases (x : Watched α) (f : α → Watched β) (m : Machine) :
    (∃ sights a n, x m = (sights, some (.ok a, n)) ∧
      (x >>= f) m = (sights ++ (f a n).1, (f a n).2)) ∨
    ((x >>= f) m).1 = (x m).1 ∧ ∀ r n, ((x >>= f) m).2 = some (r, n) →
      ∃ e, (x m).2 = some (.error e, n) ∧ r = .error e := by
  rcases h : x m with ⟨sights, _ | ⟨e | a, n⟩⟩
  · rw [bind_of_timeout h]
    refine .inr ⟨rfl, ?_⟩
    intro r n hnone
    cases hnone
  · rw [bind_of_error h]
    refine .inr ⟨rfl, ?_⟩
    intro r k hk
    cases hk
    exact ⟨e, rfl, rfl⟩
  · exact .inl ⟨sights, a, n, rfl, bind_of_ok h⟩

end Watched

theorem Request.value_watched (call : Handler → Watched (Option Token)) (bound : Nat)
    (r : Request) :
    (r.watched call bound).value = r.serve (fun h => (call h).value) bound := by
  cases r with
  | handle kind => exact Watched.value_handle call kind
  | call kind => exact Watched.value_callKind call kind
  | advance => exact Watched.value_advance call
  | next => exact Watched.value_next call
  | lex => exact Watched.value_lex call bound
  | tokenize input => exact Watched.value_tokenize call bound input
  | lookahead n => exact Watched.value_lookahead call n
  | skip n => exact (Watched.source call).value_skipOnto n []
  | skipWhile accepts => exact (Watched.source call).value_skipWhileOnto accepts bound []
  | skipTo kind => exact (Watched.source call).value_skipTo bound kind
  | _ => rfl

theorem Program.value_watched {α : Type} (call : Handler → Watched (Option Token)) (bound : Nat)
    (p : Program Handler α) :
    (p.watched call bound).value = p.run (fun h => (call h).value) bound := by
  induction p with
  | done result => rfl
  | fail error => rfl
  | ask request next ih =>
    funext m
    simp only [watched, run, Watched.value_bind, Watched.value_attempt,
      Watched.value_see, Request.value_watched, ih]
    rfl
  | set kind handler next ih =>
    simp only [watched, run, Watched.value_bind, Watched.value_lift, Watched.value_see, ih]
    rfl
  | fork input body next ih =>
    simp only [watched, run, Watched.value_bind, Watched.value_onFork, Watched.value_see, ih]
    rfl

/-- A program that asks is seen at the machine where it asks, and goes on from there. -/
theorem Program.watched_ask {α : Type} (call : Handler → Watched (Option Token)) (bound : Nat)
    (request : Request) (next : Except LexError request.Reply → Program Handler α) (m : Machine) :
    (ask request next).watched call bound m =
      let rest := do
        let reply ← Watched.attempt (request.watched call bound)
        Watched.see fun _ => .answer m request reply
        (next reply).watched call bound
      (.station m (some request) :: (rest m).1, (rest m).2) := rfl

/-- A handler that is watched does what it does unwatched. -/
theorem Handler.value_watched (depth : Nat) :
    (fun h => (Handler.watched depth h).value) = Handler.call depth := by
  funext h
  induction depth generalizing h with
  | zero => rfl
  | succ depth ih =>
    have hcall : (fun h => (Handler.watched depth h).value) = Handler.call depth := funext ih
    show (h.program.watched (Handler.watched depth) depth).value = _
    rw [Program.value_watched, hcall]
    rfl

/-- A program that is watched does what it does unwatched. -/
theorem Program.value_watch {α : Type} (bound : Nat) (p : Program Handler α) :
    (p.watch bound).value = p.exec bound := by
  unfold watch
  rw [Program.value_watched, Handler.value_watched]
  rfl

end ModularLexer
