import ModularLexer.Proofs.Runs.Sights

/-!
What is seen where the parts of a run come to a known end, and accounts of it: the tokens that were
derived, and what handlers saw that looked ahead.
-/
namespace ModularLexer

/-- A look ahead: where it was taken from, how far it went, and what was seen. -/
structure Look where
  position : Option Position
  count : Nat
  reply : Except LexError (Option Token)

namespace Sight

def token? : Sight → Option Token
  | derived t => some t
  | _ => none

def look? : Sight → Option Look
  | answer m (.lookahead n) reply => some ⟨some m.lexer.pass.position, n, reply⟩
  | _ => none

end Sight

/-- What is seen are these tokens and these looks ahead, each as often as it is listed. -/
structure Accounts (sights : List Sight) (tokens : List Token) (looks : List Look) : Prop where
  tokens : (sights.filterMap Sight.token?).Perm tokens
  looks : (sights.filterMap Sight.look?).Perm looks

namespace Accounts

variable {sights sights' : List Sight} {tokens tokens' : List Token} {looks looks' : List Look}

theorem nil : Accounts [] [] [] := ⟨.nil, .nil⟩

theorem append (h : Accounts sights tokens looks) (h' : Accounts sights' tokens' looks') :
    Accounts (sights ++ sights') (tokens ++ tokens') (looks ++ looks') := by
  constructor
  · rw [List.filterMap_append]
    exact h.tokens.append h'.tokens
  · rw [List.filterMap_append]
    exact h.looks.append h'.looks

theorem perm (h : Accounts sights tokens looks) (htokens : tokens.Perm tokens')
    (hlooks : looks.Perm looks') : Accounts sights tokens' looks' :=
  ⟨h.tokens.trans htokens, h.looks.trans hlooks⟩

theorem station (m : Machine) (r? : Option Request) : Accounts [.station m r?] [] [] :=
  ⟨.nil, .nil⟩

theorem derived (t : Token) : Accounts [.derived t] [t] [] := ⟨.refl _, .nil⟩

theorem scan (m : Machine) (p : Pattern) (kind : String) (reply : Except LexError (Option Token)) :
    Accounts [.answer m (.scan p kind) reply] [] [] := ⟨.nil, .nil⟩

theorem lookahead (m : Machine) (n : Nat) (reply : Except LexError (Option Token)) :
    Accounts [.answer m (.lookahead n) reply] [] [⟨some m.lexer.pass.position, n, reply⟩] :=
  ⟨.nil, .refl _⟩

end Accounts

namespace Watched

variable {α β : Type} {call : Handler → Watched (Option Token)} {m n k : Machine}
  {sights : List Sight} {kind : String} {handler : Handler} {t : Token} {bound count i : Nat}

theorem lift_bind_of_ok {x : LexM α} {f : α → Watched β} {a : α} (h : x m = some (.ok a, n)) :
    (lift x >>= f) m = f a n := by
  have hlift : lift x m = ([], some (.ok a, n)) := by rw [lift, h]
  rw [bind_of_ok hlift]
  rfl

/-- A run in two parts comes to an end in the second, or in the first with an error. -/
theorem exists_of_bind {x : Watched α} {f : α → Watched β} {r : Except LexError β}
    (h : (x >>= f) m = (sights, some (r, n))) :
    (∃ a k front back, x m = (front, some (.ok a, k)) ∧ f a k = (back, some (r, n)) ∧
      sights = front ++ back) ∨
    ∃ e, x m = (sights, some (.error e, n)) ∧ r = .error e := by
  rcases hx : x m with ⟨front, _ | ⟨e | a, k⟩⟩
  · rw [bind_of_timeout hx] at h
    cases h
  · rw [bind_of_error hx] at h
    cases h
    exact .inr ⟨e, rfl, rfl⟩
  · rw [bind_of_ok hx] at h
    obtain ⟨rfl, hlast⟩ := Prod.mk.inj h
    exact .inl ⟨a, k, front, _, rfl, Prod.ext rfl hlast, rfl⟩

theorem attempt_of_some {x : Watched α} {r : Except LexError α} (h : x m = (sights, some (r, n))) :
    attempt x m = (sights, some (.ok r, n)) := by
  simp [attempt, h]

theorem attempt_of_timeout {x : Watched α} (h : x m = (sights, none)) :
    attempt x m = (sights, none) := by
  simp [attempt, h]

theorem runHandler_of_timeout (h : call handler m = (sights, none)) :
    runHandler call kind handler m = (sights, none) := by
  rw [runHandler, lift_bind_of_ok (LexM.pass_apply m), bind_of_timeout h]

theorem runHandler_of_error {e : LexError} (h : call handler m = (sights, some (.error e, n))) :
    runHandler call kind handler m = (sights, some (.error e, n)) := by
  rw [runHandler, lift_bind_of_ok (LexM.pass_apply m), bind_of_error h]

theorem runHandler_of_none (h : call handler m = (sights, some (.ok none, n))) :
    runHandler call kind handler m = (sights, some (.ok none, n)) := by
  rw [runHandler, lift_bind_of_ok (LexM.pass_apply m), bind_of_ok h]
  exact congrArg (·, _) (List.append_nil sights)

/-- A token of the kind that has a location is handed on as it is. -/
theorem runHandler_of_token (h : call handler m = (sights, some (.ok (some t), n)))
    (hlocation : t.location ≠ none) :
    runHandler call t.kind handler m = (sights, some (.ok (some t), n)) := by
  have hvalue : (call handler).value m = some (.ok (some t), n) := congrArg Prod.snd h
  have hrun : (runHandler call t.kind handler).value m = some (.ok (some t), n) := by
    rw [value_runHandler]
    exact LexM.runHandler_of_token hvalue hlocation
  have hsights : (runHandler call t.kind handler m).1 = sights := by
    rw [runHandler, lift_bind_of_ok (LexM.pass_apply m), bind_of_ok h]
    exact List.append_nil sights
  exact Prod.ext hsights hrun

theorem tryHandlers_succ (h : m.lexer.registry.entryAt? i = some (kind, handler)) (count : Nat) :
    tryHandlers call (count + 1) i m =
      (runHandler call kind handler >>= fun
        | some t => Pure.pure (some t)
        | none => tryHandlers call count (i + 1)) m := by
  rewrite [tryHandlers, lift_bind_of_ok (LexM.lexer_apply m), h]
  rfl

theorem derive_of_rest_nil (h : m.lexer.pass.rest = []) :
    derive call m = ([], some (.ok none, m)) := by
  rw [derive, lift_bind_of_ok (LexM.lexer_apply m), h]
  rfl

theorem derive_of_character {c : Char} {rest : Text} (h : m.lexer.pass.rest = c :: rest)
    (hmode : m.lexer.options.mode = .character)
    (hc : LexM.characterToken c m = some (.ok t, n)) :
    derive call m = ([], some (.ok (some t), n)) := by
  rw [derive, lift_bind_of_ok (LexM.lexer_apply m), h, hmode]
  exact lift_bind_of_ok hc

theorem derive_of_token (h : m.lexer.pass.rest ≠ []) (hmode : m.lexer.options.mode = .token) :
    derive call m =
      (tryHandlers call m.lexer.registry.size 0 >>= fun
        | some t => Pure.pure (some t)
        | none => do
          let p ← lift LexM.pass
          if p.rest.isEmpty then return none else lift (LexM.throw p.unmatched)) m := by
  obtain ⟨c, rest, h⟩ := List.exists_cons_of_ne_nil h
  rewrite [derive, lift_bind_of_ok (LexM.lexer_apply m), h, hmode]
  rfl

theorem advance_of_timeout (h : derive call m = (sights, none)) :
    advance call m = (sights, none) := by
  rw [advance, bind_of_timeout (attempt_of_timeout h)]

theorem advance_of_token (h : derive call m = (sights, some (.ok (some t), n))) :
    advance call m = (sights ++ [.derived t], some (.ok (some t), n)) := by
  rw [advance, bind_of_ok (attempt_of_some h)]
  rfl

theorem advance_of_none (h : derive call m = (sights, some (.ok none, n))) :
    advance call m = (sights, some (.ok none, n)) := by
  rw [advance, bind_of_ok (attempt_of_some h)]
  exact congrArg (·, _) (List.append_nil sights)

/-- An observer of errors takes over the error, and there is no token. -/
theorem advance_of_error {e : LexError} (h : derive call m = (sights, some (.error e, n)))
    (hobserved : n.lexer.options.hooks.onError = true) :
    advance call m =
      (sights, some (.ok none, { n with journal := n.journal.push (.error e) })) := by
  have hreport : LexM.report e n =
      some (.ok (), { n with journal := n.journal.push (.error e) }) := by
    unfold LexM.report
    rw [LexM.bind_of_ok (LexM.lexer_apply n), hobserved]
    rfl
  rw [advance, bind_of_ok (attempt_of_some h)]
  dsimp only
  rw [lift_bind_of_ok hreport]
  exact congrArg (·, _) (List.append_nil sights)

theorem advance_of_error_unobserved {e : LexError}
    (h : derive call m = (sights, some (.error e, n)))
    (hunobserved : n.lexer.options.hooks.onError = false) :
    advance call m = (sights, some (.error e, n)) := by
  have hreport : lift (LexM.report e) n = ([], some (.error e, n)) := by
    rw [lift, LexM.report_apply hunobserved]
  rw [advance, bind_of_ok (attempt_of_some h)]
  dsimp only
  rw [bind_of_error hreport]
  exact congrArg (·, _) (List.append_nil sights)

theorem next_of_queue_cons {queue : List Token} (h : m.queue = t :: queue) :
    next call m = ([], some (.ok (some t), m.withQueue queue)) := by
  rw [next, Source.next, lift_bind_of_ok (LexM.dequeue_apply m), h]
  rfl

theorem next_of_queue_nil (h : m.queue = []) : next call m = advance call m := by
  have hm : m.withQueue [] = m := Machine.aside_of_queue_nil h
  rw [next, Source.next, lift_bind_of_ok (LexM.dequeue_apply m), h, List.tail_nil, hm]
  rfl

theorem fill_of_le (h : count ≤ m.queue.length) :
    fill call count bound m = ([], some (.ok (), m)) := by
  cases bound with
  | zero => rfl
  | succ bound =>
    rw [fill, Source.fill, recording_lift, lift_bind_of_ok (LexM.pass_apply m)]
    exact congrFun (if_pos h) m

/-- Where tokens are missing an advance is made with the queue set aside, and further ones if it
made a token. -/
theorem fill_of_lt (h : m.queue.length < count) :
    fill call count (bound + 1) m =
      match advance call (m.withQueue []) with
      | (sights, some (.ok (some t), n)) =>
        (sights ++ (fill call count bound (n.withQueue (m.queue ++ t :: n.queue))).1,
          (fill call count bound (n.withQueue (m.queue ++ t :: n.queue))).2)
      | (sights, some (.ok none, n)) => (sights, some (.ok (), n.withQueue (m.queue ++ n.queue)))
      | (sights, some (.error e, n)) =>
        (sights, some (.error e, n.withQueue (m.queue ++ n.queue)))
      | (sights, none) => (sights, none) := by
  have hshort : ¬count ≤ m.lexer.pass.queue.length := Nat.not_le.2 h
  simp only [fill, Source.fill, recording_lift, recording_attempt]
  rw [lift_bind_of_ok (LexM.pass_apply m), if_neg hshort,
    lift_bind_of_ok (LexM.setQueue_apply [] m)]
  change (attempt (advance call) >>= _) (m.withQueue []) = _
  rcases hadvance : advance call (m.withQueue []) with ⟨sights, _ | ⟨outcome, n⟩⟩
  · exact bind_of_timeout (attempt_of_timeout hadvance)
  · rw [bind_of_ok (attempt_of_some hadvance)]
    rcases outcome with e | _ | t
    · exact congrArg (·, _) (List.append_nil sights)
    · exact congrArg (·, _) (List.append_nil sights)
    · rfl

theorem lookahead_of_fill (h : count ≠ 0)
    (hfill : fill call count (count - m.queue.length) m = (sights, some (.ok (), n))) :
    lookahead call count m = (sights, some (.ok n.queue[count - 1]?, n)) := by
  rw [lookahead, Source.lookahead, if_neg h, recording_lift, lift_bind_of_ok (LexM.pass_apply m)]
  change (fill call count (count - m.queue.length) >>= _) m = _
  rw [bind_of_ok hfill]
  exact congrArg (·, _) (List.append_nil sights)

theorem pushAll_of_token (h : next call m = (sights, some (.ok (some t), n)))
    (hpush : LexM.push t n = some (.ok (), k)) :
    pushAll call (bound + 1) m =
      (sights ++ (pushAll call bound k).1, (pushAll call bound k).2) := by
  rw [pushAll, Source.pushAll, bind_of_ok h]
  dsimp only
  rw [recording_lift, lift_bind_of_ok hpush]

theorem pushAll_of_none (h : next call m = (sights, some (.ok none, n))) :
    pushAll call (bound + 1) m = (sights, some (.ok (), n)) := by
  rw [pushAll, Source.pushAll, bind_of_ok h]
  exact congrArg (·, _) (List.append_nil sights)

end Watched

namespace Program

variable {α : Type} {call : Handler → Watched (Option Token)} {bound : Nat} {m n : Machine}
  {sights : List Sight} {r : Request} {f : r.Reply → Program Handler α}

/-- A request that is answered is seen, and the program goes on. -/
theorem watched_request_bind {a : r.Reply}
    (h : r.watched call bound m = (sights, some (.ok a, n))) :
    (request r >>= f).watched call bound m =
      ([.station m (some r)] ++ (sights ++ ([.answer m r (.ok a)] ++
          ((f a).watched call bound n).1)),
        ((f a).watched call bound n).2) := by
  show (ask r fun reply => (ofExcept reply).bind f).watched call bound m = _
  rw [watched_ask]
  dsimp only
  rw [Watched.bind_of_ok (Watched.attempt_of_some h)]
  rfl

/-- A request that fails is seen, and so is where the program ends with the error. -/
theorem watched_request_bind_of_error {e : LexError}
    (h : r.watched call bound m = (sights, some (.error e, n))) :
    (request r >>= f).watched call bound m =
      ([.station m (some r)] ++ (sights ++ ([.answer m r (.error e)] ++ [.station n none])),
        some (.error e, n)) := by
  show (ask r fun reply => (ofExcept reply).bind f).watched call bound m = _
  rw [watched_ask]
  dsimp only
  rw [Watched.bind_of_ok (Watched.attempt_of_some h)]
  rfl

/-- A program that asks is answered, and goes on from there. -/
theorem exists_of_watched_ask {next : Except LexError r.Reply → Program Handler α}
    {outcome : Except LexError α}
    (h : (ask r next).watched call bound m = (sights, some (outcome, n))) :
    ∃ reply k front back, r.watched call bound m = (front, some (reply, k)) ∧
      (next reply).watched call bound k = (back, some (outcome, n)) ∧
      sights = .station m (some r) :: (front ++ .answer m r reply :: back) := by
  rw [watched_ask] at h
  obtain ⟨rfl, hrest⟩ := Prod.mk.inj h
  have hbind := Watched.exists_of_bind (Prod.ext rfl hrest)
  rcases hbind with ⟨reply, k, front, back, hk, hback, hsights⟩ | ⟨e, he, -⟩
  · obtain ⟨rfl, hsome⟩ := Prod.mk.inj hk
    obtain ⟨_, hserve, hsame⟩ := LexM.exists_of_attempt (x := (r.watched call bound).value) hsome
    cases hsame
    obtain ⟨hlast, hvalue⟩ := Prod.mk.inj hback
    refine ⟨reply, k, _, _, Prod.ext rfl hserve, Prod.ext rfl hvalue, ?_⟩
    exact congrArg _ (hsights.trans (congrArg _ hlast.symm))
  · obtain ⟨-, hsome⟩ := Prod.mk.inj he
    obtain ⟨_, -, hsame⟩ := LexM.exists_of_attempt (x := (r.watched call bound).value) hsome
    cases hsame

end Program

end ModularLexer
