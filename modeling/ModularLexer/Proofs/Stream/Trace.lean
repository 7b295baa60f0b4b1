import ModularLexer.Proofs.Recording

/-!
Drivers that tell what they do. Whatever draws on the stream of tokens makes moves: it takes a
token, has the lexer advance, or tests a token. Each driver is given here once more with its moves
beside its outcome, and its value is the driver itself. Moves made before an error are kept.
-/
namespace ModularLexer

/-- A move of a driver. Advancing tells its outcome and the tokens that wait right after it. -/
inductive Move where
  | took (token : Token)
  | advanced (outcome : Except LexError (Option Token)) (ahead : List Token)
  | tested (token : Token) (accepted : Bool)

/-- A computation together with the moves it makes, those before an error included. -/
def Traced (α : Type) : Type := Machine → Option (Except LexError α × List Move × Machine)

namespace Traced

variable {α β : Type}

def pure (a : α) : Traced α := fun m => some (.ok a, [], m)

/-- One computation after another; an error ends both and keeps the moves made so far. -/
def bind (x : Traced α) (f : α → Traced β) : Traced β := fun m =>
  match x m with
  | some (.ok a, moves, n) => (f a n).map fun (r, more, k) => (r, moves ++ more, k)
  | some (.error e, moves, n) => some (.error e, moves, n)
  | none => none

instance : Monad Traced where
  pure := pure
  bind := bind

def lift (x : LexM α) : Traced α := fun m => (x m).map fun (r, n) => (r, [], n)

def move (a : Move) : Traced Unit := fun m => some (.ok (), [a], m)

def attempt (x : Traced α) : Traced (Except LexError α) := fun m =>
  (x m).map fun (r, moves, n) => (.ok r, moves, n)

def value (x : Traced α) : LexM α := fun m => (x m).map fun (r, _, n) => (r, n)

@[simp] theorem value_pure (a : α) : (Pure.pure a : Traced α).value = Pure.pure a := rfl

@[simp] theorem value_bind (x : Traced α) (f : α → Traced β) :
    (x >>= f).value = x.value >>= fun a => (f a).value := by
  funext m
  rcases hx : x m with _ | ⟨_ | a, moves, n⟩
  · simp [Bind.bind, bind, LexM.bind, value, hx]
  · simp [Bind.bind, bind, LexM.bind, value, hx]
  · simp [Bind.bind, bind, LexM.bind, value, hx, Function.comp_def]

@[simp] theorem value_lift (x : LexM α) : (lift x).value = x := by
  funext m
  rcases hx : x m with _ | ⟨r, n⟩ <;> simp [value, lift, hx]

@[simp] theorem value_move (a : Move) : (move a).value = Pure.pure () := rfl

@[simp] theorem value_attempt (x : Traced α) : (attempt x).value = LexM.attempt x.value := by
  funext m
  rcases hx : x m with _ | ⟨r, moves, n⟩ <;> simp [value, attempt, LexM.attempt, hx]

instance : Recording Traced where
  lift := lift
  attempt := attempt
  value := value
  value_pure := value_pure
  value_bind := value_bind
  value_lift := value_lift
  value_attempt := value_attempt

@[simp] theorem recording_lift (x : LexM α) : (Recording.lift x : Traced α) = lift x := rfl

@[simp] theorem recording_attempt (x : Traced α) : Recording.attempt x = attempt x := rfl

variable (call : Handler → LexM (Option Token))

def advance : Traced (Option Token) := do
  let outcome ← lift (LexM.attempt (LexM.advance call))
  let ahead := (← lift LexM.pass).queue
  move (.advanced outcome ahead)
  lift (LexM.ofExcept outcome)

def take : Option Token → Traced (Option Token)
  | some t => do
    move (.took t)
    return some t
  | none => return none

def dequeue : Traced (Option Token) := do
  let t? ← lift LexM.dequeue
  take t?

@[simp] theorem value_advance : (advance call).value = LexM.advance call := by
  simp only [advance, value_bind, value_lift, value_move]
  exact LexM.attempt_bind_ofExcept (LexM.advance call)

@[simp] theorem value_take (t? : Option Token) : (take t?).value = Pure.pure t? := by
  cases t? <;> rfl

@[simp] theorem value_dequeue : dequeue.value = LexM.dequeue := by
  simp [dequeue]

/-- The stream of tokens whose moves are told: what is drawn is taken, and each test is told with
its answer. -/
@[reducible] def source : Source Traced call where
  dequeue := dequeue
  advance := advance call
  draw := do
    let t? ← advance call
    take t?
  test t accepted := do
    move (.tested t accepted)
    return accepted
  value_dequeue := value_dequeue
  value_advance := value_advance call
  value_draw := by
    show value (advance call >>= take) = _
    simp
  value_test _ _ := rfl

abbrev next : Traced (Option Token) := (source call).next

abbrev pushAll (bound : Nat) : Traced Unit := (source call).pushAll bound

abbrev lex (bound : Nat) : Traced (List Token) := (source call).lex bound

abbrev fill (n bound : Nat) : Traced Unit := (source call).fill n bound

abbrev lookahead (n : Nat) : Traced (Option Token) := (source call).lookahead n

abbrev skipOnto (n : Nat) (taken : List Token) : Traced (List Token) :=
  (source call).skipOnto n taken

abbrev skipWhileOnto (accepts : List Token → Token → Bool) (bound : Nat) (taken : List Token) :
    Traced (List Token) := (source call).skipWhileOnto accepts bound taken

abbrev skipTo (bound : Nat) (kind : String) : Traced (List Token) := (source call).skipTo bound kind

theorem value_next : (next call).value = LexM.next call := (source call).value_next

theorem value_pushAll (bound : Nat) : (pushAll call bound).value = LexM.pushAll call bound :=
  (source call).value_pushAll bound

theorem value_lex (bound : Nat) : (lex call bound).value = LexM.lex call bound :=
  (source call).value_lex bound

theorem value_fill (n bound : Nat) : (fill call n bound).value = LexM.fill call n bound :=
  (source call).value_fill n bound

theorem value_lookahead (n : Nat) : (lookahead call n).value = LexM.lookahead call n :=
  (source call).value_lookahead n

theorem value_skipWhileOnto (accepts : List Token → Token → Bool) (bound : Nat)
    (taken : List Token) :
    (skipWhileOnto call accepts bound taken).value =
      LexM.skipWhileOnto call accepts bound taken :=
  (source call).value_skipWhileOnto accepts bound taken

variable {call} {m n : Machine}

/-- What comes of a computation comes with its moves. -/
theorem exists_of_value {x : Traced α} {r : Except LexError α} (h : x.value m = some (r, n)) :
    ∃ moves, x m = some (r, moves, n) := by
  obtain ⟨⟨r', moves, n'⟩, hx, he⟩ := Option.map_eq_some_iff.1 h
  obtain ⟨rfl, rfl⟩ := Prod.mk.inj he
  exact ⟨moves, hx⟩

theorem value_of_apply {x : Traced α} {r : Except LexError α} {moves : List Move}
    (h : x m = some (r, moves, n)) : x.value m = some (r, n) := by
  rw [value, h]
  rfl

theorem bind_apply (x : Traced α) (f : α → Traced β) (m : Machine) :
    (x >>= f) m = match x m with
      | some (.ok a, moves, n) => (f a n).map fun (r, more, k) => (r, moves ++ more, k)
      | some (.error e, moves, n) => some (.error e, moves, n)
      | none => none := rfl

@[simp] theorem lift_apply (x : LexM α) (m : Machine) :
    lift x m = (x m).map fun (r, n) => (r, [], n) := rfl

/-- A computation made of two that make no move makes none. -/
theorem lift_bind (x : LexM α) (f : α → LexM β) :
    lift (x >>= f) = lift x >>= fun a => lift (f a) := by
  funext m
  rw [bind_apply, lift_apply, lift_apply]
  rcases hx : x m with _ | ⟨e | a, n⟩
  · rw [LexM.bind_of_timeout hx]
    rfl
  · rw [LexM.bind_of_error hx]
    rfl
  · rw [LexM.bind_of_ok hx]
    show _ = (lift (f a) n).map _
    rw [lift_apply, Option.map_map]
    rfl

/-- A computation made of two makes the moves of the first, then those of the second if there was no
error. -/
theorem bind_eq_some_iff {x : Traced α} {f : α → Traced β} {r : Except LexError β}
    {moves : List Move} :
    (x >>= f) m = some (r, moves, n) ↔
      (∃ a first k more, x m = some (.ok a, first, k) ∧ f a k = some (r, more, n) ∧
        moves = first ++ more) ∨
      ∃ e, x m = some (.error e, moves, n) ∧ r = .error e := by
  rw [bind_apply]
  rcases hx : x m with _ | ⟨e | a, first, k⟩
  · simp
  · constructor
    · intro h
      obtain ⟨rfl, rfl, rfl⟩ := h
      exact .inr ⟨e, rfl, rfl⟩
    · rintro (⟨_, _, _, _, h, -⟩ | ⟨_, h, rfl⟩)
      · cases h
      · obtain ⟨rfl, rfl, rfl⟩ := h
        rfl
  · constructor
    · intro h
      obtain ⟨⟨r', more, n'⟩, hf, he⟩ := Option.map_eq_some_iff.1 h
      obtain ⟨rfl, rfl, rfl⟩ := he
      exact .inl ⟨a, first, k, more, rfl, hf, rfl⟩
    · rintro (⟨_, _, _, more, h, hf, rfl⟩ | ⟨_, h, -⟩)
      · obtain ⟨rfl, rfl, rfl⟩ := h
        exact Option.map_eq_some_iff.2 ⟨_, hf, rfl⟩
      · cases h

theorem bind_eq_ok_iff {x : Traced α} {f : α → Traced β} {b : β} {moves : List Move} :
    (x >>= f) m = some (.ok b, moves, n) ↔
      ∃ a first k more, x m = some (.ok a, first, k) ∧ f a k = some (.ok b, more, n) ∧
        moves = first ++ more := by
  rw [bind_eq_some_iff]
  constructor
  · rintro (h | ⟨e, -, he⟩)
    · exact h
    · cases he
  · exact .inl

theorem lift_eq_some_iff {x : LexM α} {r : Except LexError α} {moves : List Move} :
    lift x m = some (r, moves, n) ↔ x m = some (r, n) ∧ moves = [] := by
  rw [lift_apply, Option.map_eq_some_iff]
  constructor
  · rintro ⟨⟨r', n'⟩, h, he⟩
    obtain ⟨rfl, rfl, rfl⟩ := he
    exact ⟨h, rfl⟩
  · rintro ⟨h, rfl⟩
    exact ⟨(r, n), h, rfl⟩

/-- A test is told, and its answer is what comes of it. -/
theorem test_bind (call : Handler → LexM (Option Token)) (t : Token) (accepted : Bool)
    (f : Bool → Traced β) :
    ((source call).test t accepted >>= f) = move (.tested t accepted) >>= fun _ => f accepted := rfl

/-- An advance tells its outcome and the queue right after it. -/
theorem advance_apply (m : Machine) :
    advance call m = (LexM.advance call m).map fun (r, n) => (r, [.advanced r n.queue], n) := by
  rw [advance, bind_apply]
  simp only [lift_apply, LexM.attempt_apply]
  rcases LexM.advance call m with _ | ⟨_ | t?, n⟩ <;> rfl

theorem dequeue_apply (m : Machine) :
    dequeue m =
      some (.ok m.queue.head?, m.queue.head?.toList.map .took, m.withQueue m.queue.tail) := by
  rw [dequeue, bind_apply]
  simp only [lift_apply, LexM.dequeue_apply]
  cases m.queue <;> rfl

theorem next_of_queue_cons {t : Token} {queue : List Token} (h : m.queue = t :: queue) :
    next call m = some (.ok (some t), [.took t], m.withQueue queue) := by
  show (dequeue >>= _) m = _
  rw [bind_apply, dequeue_apply, h]
  rfl

theorem next_of_queue_nil (h : m.queue = []) :
    next call m = (LexM.advance call m).map fun (r, n) =>
      (r, .advanced r n.queue :: r.toOption.join.toList.map .took, n) := by
  have hm : m.withQueue [] = m := Machine.aside_of_queue_nil h
  show (dequeue >>= _) m = _
  rw [bind_apply, dequeue_apply, h]
  simp only [List.head?_nil, List.tail_nil, hm, Option.toList_none, List.map_nil, List.nil_append]
  rw [bind_apply, advance_apply]
  rcases LexM.advance call m with _ | ⟨_ | _ | t, n⟩ <;> rfl

theorem fill_of_le {count bound : Nat} (h : count ≤ m.queue.length) :
    fill call count bound m = some (.ok (), [], m) := by
  have h' : count ≤ m.lexer.pass.queue.length := h
  cases bound with
  | zero => rfl
  | succ bound =>
    simp only [fill, Source.fill, recording_lift, bind_apply, lift_apply, LexM.pass_apply,
      Option.map_some, if_pos h']
    rfl

/-- Where tokens are missing an advance is made with the queue set aside, and further ones if it
made a token. -/
theorem fill_of_lt {count bound : Nat} (h : m.queue.length < count) :
    fill call count (bound + 1) m =
      match LexM.advance call m.aside with
      | some (.ok (some t), k) =>
        (fill call count bound (k.withQueue (m.queue ++ t :: k.queue))).map fun (r, more, p) =>
          (r, .advanced (.ok (some t)) k.queue :: more, p)
      | some (.ok none, k) =>
        some (.ok (), [.advanced (.ok none) k.queue], k.withQueue (m.queue ++ k.queue))
      | some (.error e, k) =>
        some (.error e, [.advanced (.error e) k.queue], k.withQueue (m.queue ++ k.queue))
      | none => none := by
  have h' : ¬ count ≤ m.lexer.pass.queue.length := Nat.not_le.2 h
  simp only [fill, Source.fill, recording_lift, recording_attempt, bind_apply, lift_apply,
    LexM.pass_apply, LexM.setQueue_apply, Option.map_some, if_neg h', attempt, advance_apply,
    Machine.aside]
  rcases LexM.advance call (m.withQueue []) with _ | ⟨_ | _ | t, k⟩
  · rfl
  · rfl
  · rfl
  · simp only [Option.map_some, Option.map_map, bind_apply, lift_apply, LexM.setQueue_apply]
    rfl

theorem lookahead_succ (count : Nat) (m : Machine) :
    lookahead call (count + 1) m =
      (fill call (count + 1) (count + 1 - m.queue.length) m).map fun (r, moves, k) =>
        (r.map fun _ => k.queue[count]?, moves, k) := by
  simp only [lookahead, fill, Source.lookahead, recording_lift, bind_apply, lift_apply,
    LexM.pass_apply, Option.map_some, if_neg (Nat.succ_ne_zero count)]
  rw [show m.lexer.pass.queue = m.queue from rfl]
  rcases (source call).fill (count + 1) (count + 1 - m.queue.length) m with _ | ⟨_ | _, moves, k⟩
  · rfl
  · rfl
  · simp only [Option.map_some, List.nil_append]
    rw [show (Pure.pure k.lexer.pass.queue[count + 1 - 1]? : Traced (Option Token)) k =
      some (.ok k.queue[count]?, [], k) from rfl]
    simp [Except.map]

/-- Where a token is to come skipping tests it, and takes just that one if it passes. -/
theorem skipWhileOnto_succ {accepts : List Token → Token → Bool} {taken : List Token} {t : Token}
    {bound : Nat} {moves : List Move} {queue : List Token}
    (h : lookahead call 1 m = some (.ok (some t), moves, n))
    (hqueue : n.queue = t :: queue) :
    skipWhileOnto call accepts (bound + 1) taken m =
      if accepts taken t then
        (skipWhileOnto call accepts bound (t :: taken) (n.withQueue queue)).map
          fun (r, more, k) => (r, moves ++ .tested t true :: .took t :: more, k)
      else some (.ok taken.reverse, moves ++ [.tested t false], n) := by
  show (lookahead call 1 >>= _) m = _
  rw [bind_apply, h]
  dsimp only
  rw [test_bind call, bind_apply]
  dsimp only [move]
  cases accepts taken t with
  | false => rfl
  | true =>
    have hnext : (source call).next n = _ := next_of_queue_cons hqueue
    rw [if_pos rfl, if_pos rfl, bind_apply, hnext]
    simp only [Option.map_map]
    rfl

end Traced

end ModularLexer
