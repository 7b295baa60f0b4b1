import ModularLexer.Proofs.Coupling.Watching

/-!
An observer of errors is told what would have been returned. Where handlers reach the observer
neither by themselves nor through their lexer, lexing with it and without it leaves the lexer in the
same state, and the first error that it is told of is the one that ends the run without it.
-/
namespace ModularLexer

open Watched (lift)

namespace Machine

def listening (m : Machine) : Machine :=
  { m with lexer := { m.lexer with options := { m.lexer.options with
    hooks := { m.lexer.options.hooks with onError := true } } } }

/-- Errors are not observed, and so far these were reported. -/
structure Quiet (rs : List LexError) (m : Machine) : Prop where
  onError : m.lexer.options.hooks.onError = false
  reported : m.reported = rs

/-- The observer of errors does not matter to the others. -/
theorem listening_told {e : Event} {installed : Hooks → Bool} (he : e.observer = some installed)
    (m : Machine) : m.listening.told installed e = (m.told installed e).listening := by
  have hinstalled : installed m.listening.lexer.options.hooks =
      installed m.lexer.options.hooks := by
    cases e <;> cases he <;> rfl
  unfold told
  rw [hinstalled]
  split <;> rfl

theorem Quiet.told {rs : List LexError} {m : Machine} (h : m.Quiet rs) {e : Event}
    {installed : Hooks → Bool} (he : e.observer = some installed) :
    (m.told installed e).Quiet rs := by
  constructor
  · rw [lexer_told]
    exact h.onError
  · rw [reported_eq_of_kept (kept_told he m)]
    exact h.reported

theorem Quiet.note {rs : List LexError} {m : Machine} (h : m.Quiet rs) (label : String)
    (answer : Answer) : (m.record (.note label answer)).Quiet rs := by
  refine ⟨h.onError, ?_⟩
  rw [← h.reported]
  simp [Machine.reported, record]

theorem Quiet.reported_listening {rs : List LexError} {m : Machine} (h : m.Quiet rs)
    (e : LexError) : (m.listening.record (.error e)).reported = rs ++ [e] := by
  rw [record, reported_record_error]
  exact congrArg (· ++ [e]) h.reported

end Machine

structure Machine.Still (rs : List LexError) (m k : Machine) : Prop where
  quiet : m.Quiet rs
  same : k = m

/-- A quiet machine with handlers of a conduct, and the same machine listening. -/
structure Conduct.Listens (K : Conduct) (rs : List LexError) (m k : Machine) : Prop where
  follows : m.Follows K
  quiet : m.Quiet rs
  listening : k = m.listening

/-- Whatever is done on a quiet machine, it stays quiet. -/
theorem Machine.Still.twins (rs : List LexError) : Twins .all (Still rs) fun _ _ => True where
  follows {m k} _ := m.follows_all
  pass := by rintro m _ ⟨-, rfl⟩; rfl
  registry := by rintro m _ ⟨-, rfl⟩; rfl
  mode := by rintro m _ ⟨-, rfl⟩; rfl
  source := by rintro m _ ⟨-, rfl⟩; rfl
  withPass := by rintro m _ p ⟨hm, rfl⟩; exact ⟨⟨hm.onError, hm.reported⟩, rfl⟩
  register := by rintro m _ kind handler - ⟨hm, rfl⟩; exact ⟨⟨hm.onError, hm.reported⟩, rfl⟩
  told := by rintro m _ e installed he ⟨hm, rfl⟩; exact ⟨hm.told he, rfl⟩
  note := by rintro m _ label answer ⟨hm, rfl⟩; exact ⟨hm.note label answer, rfl⟩
  hooks := by rintro m _ - ⟨-, rfl⟩; rfl
  report := by
    rintro m _ r e - - ⟨hm, rfl⟩
    rw [LexM.report_apply hm.onError]
    exact .some ⟨rfl, hm, rfl⟩
  station _ _ := trivial
  answer _ _ _ := trivial
  derived _ := trivial
  forked := trivial
  joined := trivial

theorem Machine.Still.forks (rs : List LexError) : Twins.Forks (Still rs) (Still rs) where
  fork := by rintro m _ input ⟨hm, rfl⟩; exact ⟨⟨rfl, hm.reported⟩, rfl⟩
  back := by
    rintro m _ n _ ⟨hm, rfl⟩ ⟨hn, rfl⟩
    exact ⟨⟨hm.onError, hn.reported⟩, rfl⟩

namespace Conduct

variable {K : Conduct} {rs : List LexError}

/-- Handlers that cannot reach the observer of errors do the same under it. -/
theorem Listens.twins (hK : ∀ r, K.allowed r → r.reports = false ∧ r ≠ .hooks)
    (rs : List LexError) : Twins K (K.Listens rs) fun _ _ => True where
  follows h := h.follows
  pass := by rintro m _ ⟨-, -, rfl⟩; rfl
  registry := by rintro m _ ⟨-, -, rfl⟩; rfl
  mode := by rintro m _ ⟨-, -, rfl⟩; rfl
  source := by rintro m _ ⟨-, -, rfl⟩; rfl
  withPass := by rintro m _ p ⟨hfollows, hm, rfl⟩; exact ⟨hfollows, ⟨hm.onError, hm.reported⟩, rfl⟩
  register := by
    rintro m _ kind handler hknown ⟨hfollows, hm, rfl⟩
    exact ⟨hfollows.register kind hknown, ⟨hm.onError, hm.reported⟩, rfl⟩
  told := by
    rintro m _ e installed he ⟨hfollows, hm, rfl⟩
    refine ⟨?_, hm.told he, Machine.listening_told he m⟩
    intro entry hentry
    rw [Machine.lexer_told] at hentry
    exact hfollows entry hentry
  note := by
    rintro m _ label answer ⟨hfollows, hm, rfl⟩
    exact ⟨hfollows, hm.note label answer, rfl⟩
  hooks hallowed _ := absurd rfl (hK _ hallowed).2
  report _ hallowed hreports _ := by
    rw [(hK _ hallowed).1] at hreports
    cases hreports
  station _ _ := trivial
  answer _ _ _ := trivial
  derived _ := trivial
  forked := trivial
  joined := trivial

/-- Forks are not observed at all. -/
theorem Listens.forks (K : Conduct) (rs : List LexError) :
    Twins.Forks (K.Listens rs) (Machine.Still rs) where
  fork := by rintro m _ input ⟨-, hm, rfl⟩; exact ⟨⟨rfl, hm.reported⟩, rfl⟩
  back := by
    rintro m _ n _ ⟨hfollows, hm, rfl⟩ ⟨hn, rfl⟩
    exact ⟨hfollows, ⟨hm.onError, hn.reported⟩, rfl⟩

/-- How a run ends on a quiet machine, and how it ends on the same machine listening: alike, or with
an error in the one case and this error reported, going on with a default, in the other. -/
inductive Heard {α : Type} (K : Conduct) (rs : List LexError) (default : α) :
    Except LexError α × Machine → Except LexError α × Machine → Prop
  | ok (a : α) {n : Machine} :
      n.Follows K → n.Quiet rs → Heard K rs default (.ok a, n) (.ok a, n.listening)
  | error (e : LexError) {n : Machine} :
      n.Quiet rs → Heard K rs default (.error e, n) (.ok default, n.listening.record (.error e))

section Runs

variable (hK : ∀ r, K.allowed r → r.reports = false ∧ r ≠ .hooks) (depth : Nat) {m : Machine}
  (hm : m.Follows K) (hquiet : m.Quiet rs)

include hK hm hquiet

/-- What is derived does not depend on the observer of errors. -/
theorem derive_listening : Option.Rel (fun x y => y.1 = x.1 ∧ K.Listens rs x.2 y.2)
    (LexM.derive (Handler.call depth) m) (LexM.derive (Handler.call depth) m.listening) := by
  have hT := Listens.twins hK rs
  obtain ⟨hcall, -⟩ := hT.handler (Machine.Still.twins rs) (Listens.forks K rs)
    (Machine.Still.forks rs) depth
  have hsame := Twins.same_iff_coupled.1 (hT.drives.derive fun h hknown =>
    Twins.same_iff_coupled.2 (hcall h hknown))
  have hends := (hsame ⟨hm, hquiet, rfl⟩).ends
  rw [← Handler.value_watched, ← Watched.value_derive]
  unfold Coupling.Ends at hends
  rw [Twins.outcome_id] at hends
  exact hends

theorem advance_heard : Option.Rel (K.Heard rs none)
    (LexM.advance (Handler.call depth) m) (LexM.advance (Handler.call depth) m.listening) := by
  rcases none_or_some_of_rel (derive_listening hK depth hm hquiet) with
    ⟨hx, hy⟩ | ⟨⟨r, n⟩, ⟨r', k⟩, hx, hy, hresult, hfollows, hn, hlistening⟩
  · rw [LexM.advance_of_timeout hx, LexM.advance_of_timeout hy]
    exact .none
  · obtain rfl : r' = r := hresult
    obtain rfl : k = n.listening := hlistening
    cases r' with
    | ok t? =>
      rw [LexM.advance_of_ok hx, LexM.advance_of_ok hy]
      exact .some (.ok t? hfollows hn)
    | error e =>
      have hsilent := LexM.report_apply hn.onError e
      have hheard := LexM.report_of_observed (m := n.listening) rfl e
      rw [LexM.advance_of_error hx, LexM.bind_of_error hsilent, LexM.advance_of_error hy,
        LexM.bind_of_ok hheard]
      exact .some (.error e hn)

theorem next_heard : Option.Rel (K.Heard rs none)
    (LexM.next (Handler.call depth) m) (LexM.next (Handler.call depth) m.listening) := by
  cases hqueue : m.queue with
  | nil =>
    have hqueue' : m.listening.queue = [] := hqueue
    rw [LexM.next_of_queue_nil hqueue, LexM.next_of_queue_nil hqueue']
    exact advance_heard hK depth hm hquiet
  | cons t queue =>
    have hqueue' : m.listening.queue = t :: queue := hqueue
    rw [LexM.next_of_queue_cons hqueue, LexM.next_of_queue_cons hqueue']
    exact .some (.ok (some t) hm ⟨hquiet.onError, hquiet.reported⟩)

/-- By induction on the bound: as long as tokens come both runs push them, and an error ends both,
the one with it and the other for want of a token. -/
theorem pushAll_heard (bound : Nat) : Option.Rel (K.Heard rs ())
    (LexM.pushAll (Handler.call depth) bound m)
    (LexM.pushAll (Handler.call depth) bound m.listening) := by
  induction bound generalizing m with
  | zero => exact .none
  | succ bound ih =>
    unfold LexM.pushAll
    rcases none_or_some_of_rel (next_heard hK depth hm hquiet) with
      ⟨hx, hy⟩ | ⟨x, y, hx, hy, heard⟩
    · rw [LexM.bind_of_timeout hx, LexM.bind_of_timeout hy]
      exact .none
    · cases heard with
      | error e hn =>
        rw [LexM.bind_of_error hx, LexM.bind_of_ok hy]
        exact .some (.error e hn)
      | @ok t? n hfollows hn =>
        rw [LexM.bind_of_ok hx, LexM.bind_of_ok hy]
        cases t? with
        | none => exact .some (.ok () hfollows hn)
        | some t =>
          have hT := Listens.twins hK rs
          obtain ⟨hfollows, hn, hlistening⟩ :=
            hT.withPass (n.lexer.pass.push t) (hT.told (e := .push t) rfl ⟨hfollows, hn, rfl⟩)
          have hpush := LexM.push_apply t n.listening
          rw [show n.listening.lexer.pass = n.lexer.pass from rfl, hlistening] at hpush
          dsimp only
          rw [LexM.bind_of_ok (LexM.push_apply t n), LexM.bind_of_ok hpush]
          exact ih hfollows hn

end Runs

/-- How lexing ends on a quiet machine, and on the same machine listening. The lexers are the same
in the end; a success is the same, with nothing reported; and an error is the first one that is
reported. -/
structure Overheard (rs : List LexError) (x y : Except LexError (List Token) × Machine) : Prop where
  lexer : y.2.lexer = x.2.listening.lexer
  ok (ts : List Token) : x.1 = .ok ts → y.1 = .ok ts ∧ y.2.reported = rs
  error (e : LexError) : x.1 = .error e →
    y.1 = .ok x.2.lexer.pass.tokens.toList ∧ ∃ later, y.2.reported = rs ++ e :: later

theorem Overheard.of_error {n k : Machine} {e : LexError} {later : List LexError}
    (hlexer : k.lexer = n.listening.lexer) (hreported : k.reported = rs ++ e :: later) :
    Overheard rs (.error e, n) (.ok n.lexer.pass.tokens.toList, k) := by
  refine ⟨hlexer, nofun, ?_⟩
  rintro _ ⟨⟩
  exact ⟨rfl, later, hreported⟩

/-- Where handlers cannot reach the observer of errors, lexing with it on any machine goes as lexing
without it does, up to the error that ends the one and is the first to be reported by the other. -/
theorem lex_overheard (K : Conduct) (hK : ∀ r, K.allowed r → r.reports = false ∧ r ≠ .hooks)
    (depth bound : Nat) {m : Machine} (hm : m.Follows K)
    (hsilent : m.lexer.options.hooks.onError = false) :
    Option.Rel (Overheard m.reported) (LexM.lex (Handler.call depth) bound m)
      (LexM.lex (Handler.call depth) bound m.listening) := by
  have hquiet : m.Quiet m.reported := ⟨hsilent, rfl⟩
  rcases none_or_some_of_rel (pushAll_heard hK depth hm hquiet bound) with
    ⟨hx, hy⟩ | ⟨x, y, hx, hy, heard⟩
  · unfold LexM.lex
    rw [LexM.bind_of_timeout hx, LexM.bind_of_timeout hy]
    exact .none
  · cases heard with
    | @ok _ n hfollows hn =>
      cases hopen : n.lexer.pass.open? with
      | none =>
        rw [LexM.lex_of_closed hx hopen, LexM.lex_of_closed hy hopen]
        exact .some ⟨rfl, fun ts h => ⟨h, hn.reported⟩, nofun⟩
      | some e =>
        have hreturned := LexM.report_apply hn.onError e
        have hheard := LexM.report_of_observed (m := n.listening) rfl e
        rw [LexM.lex_of_open hx hopen, LexM.bind_of_error hreturned, LexM.lex_of_open hy hopen,
          LexM.bind_of_ok hheard]
        exact .some (.of_error rfl (hn.reported_listening e))
    | @error e n hn =>
      -- Without a token the listening run comes to its end, where it may report once more.
      have hlex : LexM.lex (Handler.call depth) bound m = some (.error e, n) := by
        unfold LexM.lex
        exact LexM.bind_of_error hx
      have hfirst := hn.reported_listening e
      rw [hlex]
      cases hopen : n.lexer.pass.open? with
      | none =>
        rw [LexM.lex_of_closed hy hopen]
        exact .some (.of_error rfl hfirst)
      | some e' =>
        have hheard := LexM.report_of_observed (m := n.listening.record (.error e)) rfl e'
        have hboth : ((n.listening.record (.error e)).record (.error e')).reported =
            m.reported ++ e :: [e'] := by
          rw [Machine.record, Machine.reported_record_error, hfirst, List.append_assoc]
          rfl
        rw [LexM.lex_of_open hy hopen, LexM.bind_of_ok hheard]
        exact .some (.of_error rfl hboth)

def opening : Conduct where
  allowed r := r.reports = false ∧ r ≠ .hooks
  known h := ∃ kind c,
    (h = .ofPatternWith kind (.letter c) fun t => do
      Program.request (.pushStack t)
      return some t) ∨
    h = .ofPatternWith kind (.letter c) fun _ => .fail (.handler "refused")
  asks := by
    rintro _ ⟨kind, c, rfl | rfl⟩
    · apply Program.Asks.ofPatternWith ⟨rfl, by simp⟩
      intro t
      exact .bind (.request ⟨rfl, by simp⟩) fun _ => trivial
    · exact .ofPatternWith ⟨rfl, by simp⟩ fun _ => trivial

/-- A letter that opens something before the last letter, which is refused. -/
def openedLetters : Machine :=
  .fresh "ab" [
    ("a", .ofPatternWith "a" (.letter 'a') fun t => do
      Program.request (.pushStack t)
      return some t),
    ("b", .ofPatternWith "b" (.letter 'b') fun _ => .fail (.handler "refused"))]

/-- The refusal is the error of the one run. The other reports it, and then what is open. -/
theorem lex_overheard_opened :
    (∀ r, opening.allowed r → r.reports = false ∧ r ≠ .hooks) ∧ openedLetters.Follows opening ∧
      openedLetters.lexer.options.hooks.onError = false ∧
      ∃ x ts k, LexM.lex (Handler.call 2) 3 openedLetters = some x ∧
        LexM.lex (Handler.call 2) 3 openedLetters.listening = some (.ok ts, k) ∧
        Overheard openedLetters.reported x (.ok ts, k) ∧ x.1 = .error (.handler "refused") ∧
        ts.length = 1 ∧ k.reported.length = 2 := by
  have hK : ∀ r, opening.allowed r → r.reports = false ∧ r ≠ .hooks := fun _ h => h
  have hfollows : openedLetters.Follows opening := by
    intro entry hentry
    rcases List.mem_pair.1 hentry with rfl | rfl
    · exact ⟨"a", 'a', .inl rfl⟩
    · exact ⟨"b", 'b', .inr rfl⟩
  have hshown : LexM.shown (LexM.lex (Handler.call 2) 3) openedLetters.listening (·.length)
      (·.reported) = some (some 1, [.handler "refused", .unclosed ['a'] .start]) := by
    decide +kernel
  obtain ⟨ts, k, hk, hlength, hreported⟩ := LexM.exists_of_shown hshown
  have hrel := lex_overheard opening hK 2 3 hfollows rfl
  rw [hk] at hrel
  rcases none_or_some_of_rel hrel with ⟨-, hnone⟩ | ⟨x, y, hx, hy, hover⟩
  · cases hnone
  · cases hy
    obtain ⟨r, n⟩ := x
    have hrefused : r = .error (.handler "refused") := by
      cases r with
      | ok us =>
        have hnothing : k.reported = [] := (hover.ok us rfl).2
        rw [hreported] at hnothing
        cases hnothing
      | error e =>
        obtain ⟨-, later, hfirst⟩ := hover.error e rfl
        rw [hreported] at hfirst
        cases hfirst
        rfl
    exact ⟨hK, hfollows, rfl, _, ts, k, hx, hk, hover, hrefused, hlength,
      congrArg List.length hreported⟩

end Conduct

end ModularLexer
