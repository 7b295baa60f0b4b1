import ModularLexer.Lexer.Running

/-!
What effects do to a machine, and what a computation that has ended must have done.
-/
namespace ModularLexer

namespace Pass
variable {p q : Pass} {bytes : Nat}

theorem consume_eq_ok_iff {taken : Text} :
    p.consume bytes = .ok (taken, q) ↔
      ∃ rest, p.rest = taken ++ rest ∧ Text.byteLength taken = bytes ∧
        q = { p.move taken bytes with
          offset := p.offset + bytes, rest := rest, behind := taken.reverse ++ p.behind } := by
  constructor
  · intro h
    cases ht : p.take bytes with
    | error e =>
      rw [consume, ht] at h
      cases h
    | ok r =>
      obtain ⟨t, p'⟩ := r
      obtain ⟨rest, hr, hb, rfl⟩ := take_eq_ok_iff.1 ht
      rw [consume, ht] at h
      cases h
      exact ⟨rest, hr, hb, by simp [move, List.reverseAux_eq]⟩
  · rintro ⟨rest, hr, hb, rfl⟩
    have ht := take_eq_ok_iff.2 ⟨rest, hr, hb, rfl⟩
    rw [consume, ht]
    simp [bind, Except.bind, pure, Except.pure, move, List.reverseAux_eq]

/-- Another text may be counted as consumed for the bytes. -/
theorem consumeAs_eq_ok_iff {value : Text} :
    p.consumeAs bytes value = .ok q ↔
      ∃ taken rest, p.rest = taken ++ rest ∧ Text.byteLength taken = bytes ∧
        q = { p.move value bytes with
          offset := p.offset + bytes, rest := rest, behind := value.reverse ++ p.behind } := by
  constructor
  · intro h
    cases ht : p.take bytes with
    | error e =>
      rw [consumeAs, ht] at h
      cases h
    | ok r =>
      obtain ⟨t, p'⟩ := r
      obtain ⟨rest, hr, hb, rfl⟩ := take_eq_ok_iff.1 ht
      rw [consumeAs, ht] at h
      cases h
      exact ⟨t, rest, hr, hb, by simp [move, List.reverseAux_eq]⟩
  · rintro ⟨taken, rest, hr, hb, rfl⟩
    have ht := take_eq_ok_iff.2 ⟨rest, hr, hb, rfl⟩
    rw [consumeAs, ht]
    simp [bind, Except.bind, pure, Except.pure, move, List.reverseAux_eq]

theorem incomplete?_eq_none_iff :
    p.incomplete? = none ↔ p.rest = [] ∧ p.stack = [] := by
  unfold incomplete?
  cases p.stack with
  | cons t stack => simp
  | nil =>
    cases p.rest with
    | nil => simp
    | cons c rest => simp

/-- What is wrong with ending here: something is open though no input is left. -/
def open? (p : Pass) : Option LexError := if p.rest.isEmpty then p.incomplete? else none

end Pass

namespace Machine

def withPass (m : Machine) (p : Pass) : Machine := { m with lexer := { m.lexer with pass := p } }

def withQueue (m : Machine) (queue : List Token) : Machine :=
  m.withPass { m.lexer.pass with queue := queue }

def queue (m : Machine) : List Token := m.lexer.pass.queue

@[simp] theorem queue_withQueue (m : Machine) (queue : List Token) :
    (m.withQueue queue).queue = queue := rfl

@[simp] theorem withQueue_queue (m : Machine) : m.withQueue m.queue = m := rfl

def aside (m : Machine) : Machine := m.withQueue []

@[simp] theorem aside_withQueue (m : Machine) (queue : List Token) :
    (m.withQueue queue).aside = m.aside := rfl

@[simp] theorem aside_aside (m : Machine) : m.aside.aside = m.aside := rfl

theorem aside_of_queue_nil {m : Machine} (h : m.queue = []) : m.aside = m := by
  rw [aside, ← h, withQueue_queue]

def told (m : Machine) (installed : Hooks → Bool) (e : Event) : Machine :=
  if installed m.lexer.options.hooks then { m with journal := m.journal.push e } else m

@[simp] theorem lexer_told (m : Machine) (installed : Hooks → Bool) (e : Event) :
    (m.told installed e).lexer = m.lexer := by
  unfold told
  split <;> rfl

/-- A machine at the start of an input, in the mode of tokens and unobserved. -/
def fresh (input : String) (entries : List (String × Handler)) : Machine :=
  ⟨⟨.start input.toList, ⟨entries⟩, ⟨.token, none, .none⟩⟩, #[]⟩

end Machine

def Pattern.letter (c : Char) : Pattern where
  source := String.ofList ['^', c]
  regex := .ofNode (.append (.check .textStart) (.text [c]))

example : Pattern.ofSource "^a" = .ok (.letter 'a') := by rfl

namespace LexM

variable {α β : Type}

/-- A computation made of two ends as the second does, or with the error of the first. -/
theorem bind_eq_some_iff {x : LexM α} {f : α → LexM β} {m n : Machine} {r : Except LexError β} :
    (x >>= f) m = some (r, n) ↔
      (∃ a k, x m = some (.ok a, k) ∧ f a k = some (r, n)) ∨
        ∃ e, x m = some (.error e, n) ∧ r = .error e := by
  constructor
  · intro h
    rcases hx : x m with _ | ⟨_ | a, k⟩
    · simp [Bind.bind, bind, hx] at h
    · rw [bind_of_error hx] at h
      obtain ⟨rfl, rfl⟩ := Prod.mk.inj (Option.some.inj h)
      exact .inr ⟨_, rfl, rfl⟩
    · rw [bind_of_ok hx] at h
      exact .inl ⟨a, k, rfl, h⟩
  · rintro (⟨a, k, hx, hf⟩ | ⟨e, hx, rfl⟩)
    · rw [bind_of_ok hx, hf]
    · rw [bind_of_error hx]

/-- Without an outcome there is nothing to go on from. -/
theorem bind_of_timeout {x : LexM α} {f : α → LexM β} {m : Machine} (h : x m = none) :
    (x >>= f) m = none := by
  simp [Bind.bind, bind, h]

/-- What comes of going on depends only on what there is to go on from. -/
theorem bind_eq_bind {x y : LexM α} {f : α → LexM β} {m : Machine} (h : x m = y m) :
    (x >>= f) m = (y >>= f) m := by
  simp only [Bind.bind, bind, h]

@[simp] theorem throw_apply (e : LexError) (m : Machine) :
    (throw e : LexM α) m = some (.error e, m) := rfl

@[simp] theorem lexer_apply (m : Machine) : lexer m = some (.ok m.lexer, m) := rfl

@[simp] theorem pass_apply (m : Machine) : pass m = some (.ok m.lexer.pass, m) := rfl

@[simp] theorem modifyPass_apply (f : Pass → Pass) (m : Machine) :
    modifyPass f m = some (.ok (), m.withPass (f m.lexer.pass)) := rfl

@[simp] theorem setQueue_apply (queue : List Token) (m : Machine) :
    setQueue queue m = some (.ok (), m.withQueue queue) := rfl

@[simp] theorem ofExcept_apply (r : Except LexError α) (m : Machine) :
    ofExcept r m = some (r, m) := by
  cases r <;> rfl

/-- Where nothing can be taken nothing changes. -/
theorem consume_cases {bytes : Nat} {m n : Machine} {r : Except LexError Text}
    (h : consume bytes m = some (r, n)) :
    (∃ e, r = .error e ∧ n = m) ∨
      ∃ taken p, m.lexer.pass.consume bytes = .ok (taken, p) ∧ r = .ok taken ∧
        n = m.withPass p := by
  unfold consume at h
  rw [bind_of_ok (pass_apply m)] at h
  rcases hc : m.lexer.pass.consume bytes with e | ⟨taken, p⟩
  · rw [hc] at h
    cases h
    exact .inl ⟨e, rfl, rfl⟩
  · rw [hc] at h
    cases h
    exact .inr ⟨taken, p, rfl, rfl, rfl⟩

theorem consumeAs_cases {bytes : Nat} {value : Text} {m n : Machine} {r : Except LexError Unit}
    (h : consumeAs bytes value m = some (r, n)) :
    (∃ e, r = .error e ∧ n = m) ∨
      ∃ p, m.lexer.pass.consumeAs bytes value = .ok p ∧ r = .ok () ∧ n = m.withPass p := by
  unfold consumeAs at h
  rw [bind_of_ok (pass_apply m)] at h
  rcases hc : m.lexer.pass.consumeAs bytes value with e | p
  · rw [hc] at h
    cases h
    exact .inl ⟨e, rfl, rfl⟩
  · rw [hc] at h
    cases h
    exact .inr ⟨p, rfl, rfl, rfl⟩

theorem attempt_apply (x : LexM α) (m : Machine) :
    attempt x m = (x m).map fun (r, n) => (.ok r, n) := rfl

/-- An attempt ends where what it attempts ends, with the outcome as its result. -/
theorem exists_of_attempt {x : LexM α} {m n : Machine} {r : Except LexError (Except LexError α)}
    (h : attempt x m = some (r, n)) : ∃ outcome, x m = some (outcome, n) ∧ r = .ok outcome := by
  obtain ⟨⟨outcome, k⟩, hk, he⟩ := Option.map_eq_some_iff.1 h
  obtain ⟨rfl, rfl⟩ := Prod.mk.inj he
  exact ⟨outcome, hk, rfl⟩

/-- A run on a fork ends with the lexer that it started with, and with what the fork came to as its
result. -/
theorem exists_of_onFork {input : Text} {x : LexM α} {m n : Machine}
    {r : Except LexError (Except LexError α × View)} (h : onFork input x m = some (r, n)) :
    ∃ outcome forked, x { m with lexer := m.lexer.fork input } = some (outcome, forked) ∧
      r = .ok (outcome, forked.lexer.view) ∧ n = { forked with lexer := m.lexer } := by
  obtain ⟨⟨outcome, forked⟩, hk, he⟩ := Option.map_eq_some_iff.1 h
  obtain ⟨rfl, rfl⟩ := Prod.mk.inj he
  exact ⟨outcome, forked, hk, rfl, rfl⟩

theorem attempt_bind_ofExcept (x : LexM α) : (attempt x >>= ofExcept) = x := by
  funext m
  rcases hx : x m with _ | ⟨r, n⟩
  · simp [Bind.bind, bind, attempt_apply, hx]
  · have ha : attempt x m = some (.ok r, n) := by simp [attempt_apply, hx]
    rw [bind_of_ok ha, ofExcept_apply]

theorem dequeue_apply (m : Machine) :
    dequeue m = some (.ok m.queue.head?, m.withQueue m.queue.tail) := by
  obtain ⟨⟨p, r, o⟩, j⟩ := m
  obtain ⟨i, f, s, b, t, q, st, sh, ou, ind, pos⟩ := p
  cases q <;> rfl

/-- What is shown of a run: something of its result, if it has one, and of the machine it leaves. -/
def shown {γ δ : Type} (x : LexM α) (m : Machine) (f : α → γ) (g : Machine → δ) :
    Option (Option γ × δ) :=
  (x m).map fun (r, n) => (r.toOption.map f, g n)

theorem exists_of_shown {γ δ : Type} {x : LexM α} {m : Machine} {f : α → γ} {g : Machine → δ}
    {c : γ} {d : δ} (h : shown x m f g = some (some c, d)) :
    ∃ a n, x m = some (.ok a, n) ∧ f a = c ∧ g n = d := by
  obtain ⟨⟨r, n⟩, hx, he⟩ := Option.map_eq_some_iff.1 h
  obtain ⟨hr, hn⟩ := Prod.mk.inj he
  cases r with
  | error e => cases hr
  | ok a => exact ⟨a, n, hx, Option.some.inj hr, hn⟩

theorem notify_apply (installed : Hooks → Bool) (e : Event) (m : Machine) :
    notify installed e m = some (.ok (), m.told installed e) := by
  unfold notify Machine.told
  rw [bind_of_ok (lexer_apply m)]
  split <;> rfl

theorem push_apply (t : Token) (m : Machine) :
    push t m =
      some (.ok (), (m.told (·.onPush) (.push t)).withPass (m.lexer.pass.push t)) := by
  unfold push
  rw [bind_of_ok (notify_apply _ _ m), modifyPass_apply, Machine.lexer_told]

theorem tokenFrom_apply (kind : String) (captures : Captures) (m : Machine) :
    tokenFrom kind captures m =
      some (.ok (.ofCaptures kind captures),
        m.told (·.onToken) (.token (.ofCaptures kind captures))) := by
  unfold tokenFrom
  rw [bind_of_ok (notify_apply _ _ m)]
  rfl

theorem locationFrom_apply (start : Position) (m : Machine) :
    locationFrom start m = some (.ok (m.lexer.locationFrom start), m) := rfl

variable {call : Handler → LexM (Option Token)} {m : Machine}

theorem report_apply (hm : m.lexer.options.hooks.onError = false) (e : LexError) :
    report e m = some (.error e, m) := by
  unfold report
  rw [bind_of_ok (lexer_apply m), hm]
  rfl

theorem finish_of_complete (hrest : m.lexer.pass.rest = []) (hstack : m.lexer.pass.stack = []) :
    finish m = some (.ok (), m) := by
  have hnothing := Pass.incomplete?_eq_none_iff.2 ⟨hrest, hstack⟩
  unfold finish
  rw [bind_of_ok (pass_apply m), hnothing]
  rfl

theorem runHandler_of_error {handler : Handler} {kind : String} {n : Machine} {e : LexError}
    (h : call handler m = some (.error e, n)) :
    runHandler call kind handler m = some (.error e, n) := by
  rw [runHandler, bind_of_ok (pass_apply m), bind_of_error h]

theorem runHandler_of_none {handler : Handler} {kind : String} {n : Machine}
    (h : call handler m = some (.ok none, n)) :
    runHandler call kind handler m = some (.ok none, n) := by
  rw [runHandler, bind_of_ok (pass_apply m), bind_of_ok h]
  rfl

/-- A token of the kind that has a location is handed on as it is. -/
theorem runHandler_of_token {handler : Handler} {n : Machine} {t : Token}
    (h : call handler m = some (.ok (some t), n)) (hlocation : t.location ≠ none) :
    runHandler call t.kind handler m = some (.ok (some t), n) := by
  have hkind : t.withKind t.kind = t := by
    unfold Token.withKind
    split <;> rfl
  have hplaced (l : Location) : t.withLocation l = t := by
    unfold Token.withLocation
    rw [if_neg (by simpa using hlocation)]
  rw [runHandler, bind_of_ok (pass_apply m), bind_of_ok h]
  dsimp only
  rw [bind_of_ok (locationFrom_apply _ n), hkind, hplaced]
  rfl

/-- Where a place in the order is taken its handler is run, and the next ones if it makes no
token. -/
theorem tryHandlers_succ {kind : String} {handler : Handler} {i : Nat}
    (h : m.lexer.registry.entryAt? i = some (kind, handler)) (count : Nat) :
    tryHandlers call (count + 1) i m =
      (runHandler call kind handler >>= fun
        | some t => Pure.pure (some t)
        | none => tryHandlers call count (i + 1)) m := by
  rewrite [tryHandlers, bind_of_ok (lexer_apply m), h]
  rfl

theorem tryHandlers_of_none {i : Nat} (h : m.lexer.registry.entryAt? i = none) (count : Nat) :
    tryHandlers call count i m = some (.ok none, m) := by
  cases count with
  | zero => rfl
  | succ count =>
    rw [tryHandlers, bind_of_ok (lexer_apply m), h]
    rfl

theorem derive_of_rest_nil (h : m.lexer.pass.rest = []) : derive call m = some (.ok none, m) := by
  rw [derive, bind_of_ok (lexer_apply m), h]
  rfl

theorem derive_of_character {c : Char} {rest : Text} (h : m.lexer.pass.rest = c :: rest)
    (hmode : m.lexer.options.mode = .character) :
    derive call m = (some <$> characterToken c) m := by
  rw [derive, bind_of_ok (lexer_apply m), h, hmode]
  rfl

theorem derive_of_token (h : m.lexer.pass.rest ≠ []) (hmode : m.lexer.options.mode = .token) :
    derive call m =
      (tryHandlers call m.lexer.registry.size 0 >>= fun
        | some t => Pure.pure (some t)
        | none => do
          let p ← pass
          if p.rest.isEmpty then return none else throw p.unmatched) m := by
  obtain ⟨c, rest, h⟩ := List.exists_cons_of_ne_nil h
  rewrite [derive, bind_of_ok (lexer_apply m), h, hmode]
  rfl

/-- Handlers that decline where they are tried are passed over. -/
theorem tryHandlers_of_declining {front tail : List (String × Handler)} {i : Nat}
    (hentries : m.lexer.registry.entries.drop i = front ++ tail)
    (hdecline : ∀ entry ∈ front, call entry.2 m = some (.ok none, m)) (count : Nat) :
    tryHandlers call (front.length + count) i m =
      tryHandlers call count (i + front.length) m := by
  induction front generalizing i with
  | nil => rw [List.length_nil, Nat.zero_add, Nat.add_zero]
  | cons entry front ih =>
    have hentry : m.lexer.registry.entryAt? i = some entry := by
      rw [Registry.entryAt?, ← List.head?_drop, hentries]
      rfl
    have htail : m.lexer.registry.entries.drop (i + 1) = front ++ tail := by
      rw [← List.tail_drop, hentries]
      rfl
    have hnone : runHandler call entry.1 entry.2 m = some (.ok none, m) :=
      runHandler_of_none (hdecline entry List.mem_cons_self)
    have hlength : (entry :: front).length + count = front.length + count + 1 := by
      rw [List.length_cons]
      omega
    rw [hlength, tryHandlers_succ hentry, bind_of_ok hnone]
    dsimp only
    rw [ih htail fun entry hentry => hdecline entry (List.mem_cons_of_mem _ hentry),
      List.length_cons, Nat.add_right_comm i 1, Nat.add_assoc i front.length 1]

/-- The first handler that does not decline makes the next token, or fails. -/
theorem derive_of_first {front tail : List (String × Handler)} {kind : String} {handler : Handler}
    (hentries : m.lexer.registry.entries = front ++ (kind, handler) :: tail)
    (hmode : m.lexer.options.mode = .token) (hrest : m.lexer.pass.rest ≠ [])
    (hdecline : ∀ entry ∈ front, call entry.2 m = some (.ok none, m))
    {r : Except LexError (Option Token)} {n : Machine}
    (hrun : runHandler call kind handler m = some (r, n)) (hr : r ≠ .ok none) :
    derive call m = some (r, n) := by
  have hsize : m.lexer.registry.size = front.length + (tail.length + 1) := by
    rw [Registry.size, hentries, List.length_append, List.length_cons]
  have hentry : m.lexer.registry.entryAt? (0 + front.length) = some (kind, handler) := by
    rw [Registry.entryAt?, hentries, Nat.zero_add, List.getElem?_append_right (Nat.le_refl _),
      Nat.sub_self]
    rfl
  rw [derive_of_token hrest hmode, hsize]
  have htry := tryHandlers_of_declining (i := 0) hentries hdecline (tail.length + 1)
  rw [tryHandlers_succ hentry] at htry
  rcases r with e | _ | t
  · rw [bind_of_error hrun] at htry
    exact bind_of_error htry
  · exact absurd rfl hr
  · rw [bind_of_ok hrun] at htry
    exact bind_of_ok htry

theorem advance_of_ok {t? : Option Token} {n : Machine}
    (h : derive call m = some (.ok t?, n)) : advance call m = some (.ok t?, n) := by
  have ha : attempt (derive call) m = some (.ok (.ok t?), n) := by rw [attempt_apply, h]; rfl
  rw [advance, bind_of_ok ha]
  rfl

theorem advance_of_error {e : LexError} {n : Machine}
    (h : derive call m = some (.error e, n)) :
    advance call m = (report e >>= fun _ => Pure.pure none) n := by
  have ha : attempt (derive call) m = some (.ok (.error e), n) := by rw [attempt_apply, h]; rfl
  rw [advance, bind_of_ok ha]

theorem advance_of_timeout (h : derive call m = none) : advance call m = none := by
  have ha : attempt (derive call) m = none := by rw [attempt_apply, h]; rfl
  rw [advance, bind_of_timeout ha]

/-- Without an observer of errors advancing is deriving. -/
theorem advance_apply (h : ∀ e n, derive call m = some (.error e, n) →
    n.lexer.options.hooks.onError = false) : advance call m = derive call m := by
  rcases hd : derive call m with _ | ⟨e | t?, n⟩
  · exact advance_of_timeout hd
  · rw [advance_of_error hd, bind_of_error (report_apply (h e n hd) e)]
  · exact advance_of_ok hd

/-- What comes of deriving comes of advancing, where no observer of errors is left. -/
theorem advance_of_unobserved {r : Except LexError (Option Token)} {n : Machine}
    (h : derive call m = some (r, n)) (hquiet : n.lexer.options.hooks.onError = false) :
    advance call m = some (r, n) := by
  rw [advance_apply, h]
  intro e k hk
  rw [h] at hk
  cases hk
  exact hquiet

theorem next_of_queue_cons {t : Token} {queue : List Token} (h : m.queue = t :: queue) :
    next call m = some (.ok (some t), m.withQueue queue) := by
  rw [next, bind_of_ok (dequeue_apply m), h]
  rfl

theorem next_of_queue_nil (h : m.queue = []) : next call m = advance call m := by
  have hm : m.withQueue [] = m := Machine.aside_of_queue_nil h
  rw [next, bind_of_ok (dequeue_apply m), h, List.tail_nil, hm]
  rfl

/-- Where none waits the next token is the one that can be made of the rest. -/
theorem next_of_derive {t? : Option Token} {n : Machine} (hqueue : m.queue = [])
    (h : derive call m = some (.ok t?, n)) : next call m = some (.ok t?, n) := by
  rw [next_of_queue_nil hqueue, advance_of_ok h]

/-- Where tokens have run out, lexing ends with the list if nothing is open at the end of the
input. -/
theorem lex_of_closed {bound : Nat} {n : Machine} (h : pushAll call bound m = some (.ok (), n))
    (hopen : n.lexer.pass.open? = none) :
    lex call bound m = some (.ok n.lexer.pass.tokens.toList, n) := by
  unfold lex
  rw [bind_of_ok h, bind_of_ok (pass_apply n)]
  unfold Pass.open? at hopen
  split
  · next hempty =>
    rw [if_pos hempty] at hopen
    have hfinish : finish n = some (.ok (), n) := by
      unfold finish
      rw [bind_of_ok (pass_apply n), hopen]
      rfl
    rw [bind_of_ok hfinish]
    rfl
  · rfl

/-- What is open at the end of the input is reported. -/
theorem lex_of_open {bound : Nat} {n : Machine} {e : LexError}
    (h : pushAll call bound m = some (.ok (), n)) (hopen : n.lexer.pass.open? = some e) :
    lex call bound m = (report e >>= fun _ => pass >>= fun p => Pure.pure p.tokens.toList) n := by
  unfold lex
  rw [bind_of_ok h, bind_of_ok (pass_apply n)]
  unfold Pass.open? at hopen
  split
  · next hempty =>
    rw [if_pos hempty] at hopen
    have hfinish : finish n = report e n := by
      unfold finish
      rw [bind_of_ok (pass_apply n), hopen]
    simp only [Bind.bind, bind, hfinish]
  · next hleft =>
    rw [if_neg hleft] at hopen
    cases hopen

end LexM

namespace Program

variable {α β : Type} (call : Handler → LexM (Option Token)) (bound : Nat)

theorem run_bind (p : Program Handler α) (f : α → Program Handler β) :
    (p >>= f).run call bound = p.run call bound >>= fun a => (f a).run call bound := by
  show (p.bind f).run call bound = _
  induction p with
  | done a => rfl
  | fail e => rfl
  | ask request next ih => simp only [bind, run, bind_assoc, ih]
  | set kind handler next ih => simp only [bind, run, bind_assoc, ih]
  | fork input body next ih => simp only [bind, run, bind_assoc, ih]

theorem run_request (r : Request) :
    (Program.request r : Program Handler r.Reply).run call bound = r.serve call bound := by
  have hrun : (fun reply : Except LexError r.Reply =>
      (ofExcept reply : Program Handler r.Reply).run call bound) = LexM.ofExcept := by
    funext reply
    cases reply <;> rfl
  show (LexM.attempt (r.serve call bound) >>= fun reply => (ofExcept reply).run call bound) = _
  rw [hrun, LexM.attempt_bind_ofExcept]

end Program

namespace Handler

theorem call_ofPattern (depth : Nat) (kind : String) (pattern : Pattern) :
    Handler.call (depth + 1) (.ofPattern kind pattern) = LexM.scan pattern kind :=
  Program.run_request _ _ (.scan pattern kind)

theorem call_ofPatternWith (depth : Nat) (kind : String) (pattern : Pattern)
    (transform : Token → Program Handler (Option Token)) :
    Handler.call (depth + 1) (.ofPatternWith kind pattern transform) =
      LexM.scan pattern kind >>= fun
        | some t => (transform t).run (Handler.call depth) depth
        | none => Pure.pure none := by
  show Program.run _ _ (Program.request (.scan pattern kind) >>= _) = _
  rw [Program.run_bind, Program.run_request]
  refine bind_congr fun t? => ?_
  cases t? <;> rfl

end Handler

end ModularLexer
