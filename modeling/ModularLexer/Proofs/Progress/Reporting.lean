import ModularLexer.Proofs.Patterns.Deriving
import ModularLexer.Proofs.Progress.Patterns
import ModularLexer.Proofs.Stream.Skipping

/-!
Errors under an observer. Whatever draws on the stream of tokens of a lexer of patterns stops at an
error that was handed to the observer, and so hands over one at most. Skipping up to a kind does
not: it seeks one more token where it has stopped, and the same error is handed over again.
-/
namespace ModularLexer

open Move (idle)
open Segmentation (Silent verdict firstMatch)

namespace Machine

def recorded (m : Machine) (e : LexError) : Machine :=
  { m with journal := m.journal.push (.error e) }

@[simp] theorem reported_recorded (m : Machine) (e : LexError) :
    (m.recorded e).reported = m.reported ++ [e] := m.reported_record_error e

@[simp] theorem reported_aside (m : Machine) : m.aside.reported = m.reported := rfl

theorem reported_told (m : Machine) (installed : Hooks → Bool) {e : Event}
    (he : ∀ error, e ≠ .error error) : (m.told installed e).reported = m.reported := by
  unfold told
  split
  · cases e with
    | error error => exact absurd rfl (he error)
    | _ => simp [reported]
  · rfl

end Machine

namespace LexM

variable {α β : Type}

def Reportless (x : LexM α) : Prop :=
  ∀ ⦃m r n⦄, x m = some (r, n) → n.reported = m.reported

namespace Reportless

theorem of_journal {x : LexM α} (hx : ∀ ⦃m r n⦄, x m = some (r, n) → n.journal = m.journal) :
    Reportless x := by
  intro m r n h
  rw [Machine.reported, Machine.reported, hx h]

theorem of_apply {x : LexM α} {f : Machine → α} (hx : ∀ m, x m = some (.ok (f m), m)) :
    Reportless x := by
  intro m r n h
  rw [hx m] at h
  cases h
  rfl

theorem bind {x : LexM α} {f : α → LexM β} (hx : Reportless x) (hf : ∀ a, Reportless (f a)) :
    Reportless (x >>= f) := by
  intro m r n h
  rcases bind_eq_some_iff.1 h with ⟨a, k, hk, hr⟩ | ⟨e, he, -⟩
  · rw [hf a hr, hx hk]
  · exact hx he

theorem notify (installed : Hooks → Bool) {e : Event} (he : ∀ error, e ≠ .error error) :
    Reportless (notify installed e) := by
  intro m r n h
  rw [notify_apply] at h
  cases h
  exact m.reported_told installed he

/-- What is made and told of meanwhile. -/
theorem told (installed : Hooks → Bool) {e : Event} (he : ∀ error, e ≠ .error error) (a : α) :
    Reportless (LexM.notify installed e >>= fun _ => Pure.pure a) :=
  (notify installed he).bind fun _ => of_apply fun _ => rfl

theorem push (t : Token) : Reportless (push t) := by
  apply (notify _ fun _ => Event.noConfusion).bind
  exact fun _ => of_journal fun m r n h => by cases h; rfl

theorem consume (bytes : Nat) : Reportless (consume bytes) := by
  apply of_journal
  intro m r n h
  rcases consume_cases h with ⟨e, -, rfl⟩ | ⟨taken, p, -, -, rfl⟩ <;> rfl

theorem characterToken (c : Char) : Reportless (characterToken c) := by
  apply (of_apply pass_apply).bind
  intro start
  apply (consume _).bind
  intro taken
  apply Reportless.bind (told _ (fun _ => Event.noConfusion) _)
  intro t
  exact (of_apply (locationFrom_apply _)).bind fun _ => of_apply fun _ => rfl

end Reportless

/-- What deriving a token of patterns comes to. Where it fails nothing has changed, and it fails in
the same way whenever it is tried on the same lexer. -/
inductive Derived (call : Handler → LexM (Option Token)) (m : Machine) :
    Except LexError (Option Token) → Machine → Prop
  | ended : m.lexer.pass.rest = [] → Derived call m (.ok none) m
  | made {t : Token} {n : Machine} : n.lexer = { m.lexer with pass := n.lexer.pass } →
      n.queue = m.queue → n.reported = m.reported → Derived call m (.ok (some t)) n
  | failed {e : LexError} : m.lexer.pass.rest ≠ [] →
      (∀ k : Machine, k.lexer = m.lexer → derive call k = some (.error e, k)) →
      Derived call m (.error e) m

section Patterns

variable {m k n : Machine} {depth : Nat} {patterns front tail : List (String × Pattern)}

theorem exists_derive_of_match {kind : String} {p : Pattern} {groups : List (Option Text)}
    (hentries : m.lexer.registry.entries = entriesOf (front ++ (kind, p) :: tail))
    (hmode : m.lexer.options.mode = .token) (hrest : m.lexer.pass.rest ≠ [])
    (hsilent : Silent front m.lexer.pass.rest)
    (hv : verdict p m.lexer.pass.rest = .ok (some groups)) :
    ∃ t n, derive (Handler.call (depth + 1)) m = some (.ok (some t), n) ∧
      n.lexer = { m.lexer with pass := n.lexer.pass } ∧ n.queue = m.queue ∧
      n.reported = m.reported := by
  obtain ⟨-, after, hafter⟩ := Segmentation.of_verdict_eq_some hv
  refine ⟨_, _, derive_of_matched hentries hmode hrest hsilent hv hafter.symm, ?_, ?_, ?_⟩
  · rw [Machine.lexer_scanned]
  · rw [Machine.queue, Machine.lexer_scanned]
    rfl
  · rw [Machine.scanned, Machine.reported_told _ _ fun _ => Event.noConfusion,
      Machine.reported_told _ _ fun _ => Event.noConfusion]
    rfl

theorem derived_of_patterns (hm : m.lexer.registry.CapturesOnly)
    {r : Except LexError (Option Token)}
    (h : derive (Handler.call (depth + 1)) m = some (r, n)) :
    Derived (Handler.call (depth + 1)) m r n := by
  by_cases hrest : m.lexer.pass.rest = []
  · rw [derive_of_rest_nil hrest] at h
    cases h
    exact .ended hrest
  cases hmode : m.lexer.options.mode with
  | character =>
    obtain ⟨c, after, hcons⟩ := List.exists_cons_of_ne_nil hrest
    obtain ⟨k, hk, hlexer⟩ := characterToken_apply hcons
    rw [derive_of_character hcons hmode, map_eq_pure_bind, bind_of_ok hk] at h
    cases h
    refine .made ?_ ?_ (Reportless.characterToken c hk)
    · rw [hlexer]
    · rw [Machine.queue, hlexer]
      rfl
  | token =>
    obtain ⟨patterns, hpatterns⟩ := hm.exists_patterns
    have hentries : m.lexer.registry.entries = entriesOf patterns := by
      rw [hpatterns]
      rfl
    rcases hfirst : firstMatch patterns m.lexer.pass.rest with e | _ | ⟨kind, groups⟩
    · obtain ⟨front, kind, p, tail, rfl, hsilent, hv⟩ :=
        Segmentation.exists_of_firstMatch_error hfirst
      have hfail : ∀ k : Machine, k.lexer = m.lexer →
          derive (Handler.call (depth + 1)) k = some (.error e, k) := by
        intro k hk
        rw [← hk] at hentries hmode hrest hsilent hv
        exact derive_of_refused hentries hmode hrest hsilent hv
      rw [hfail m rfl] at h
      cases h
      exact .failed hrest hfail
    · have hsilent := Segmentation.silent_of_firstMatch hfirst
      have hfail : ∀ k : Machine, k.lexer = m.lexer →
          derive (Handler.call (depth + 1)) k = some (.error m.lexer.pass.unmatched, k) := by
        intro k hk
        rw [← hk] at hentries hmode hrest hsilent ⊢
        exact derive_of_silent hentries hmode hrest hsilent
      rw [hfail m rfl] at h
      cases h
      exact .failed hrest hfail
    · obtain ⟨front, p, tail, rfl, hsilent, hv⟩ := Segmentation.exists_of_firstMatch_match hfirst
      obtain ⟨t, k, hk, hlexer, hqueue, hreported⟩ :=
        exists_derive_of_match hentries hmode hrest hsilent hv
      rw [hk] at h
      cases h
      exact .made hlexer hqueue hreported

end Patterns

/-- What seeking the next token comes to under an observer of errors. An error that is handed over
is all that changes, and it is handed over again whenever a token is sought on the same lexer. -/
inductive Sought (call : Handler → LexM (Option Token)) (m : Machine) :
    Except LexError (Option Token) → Machine → Prop
  | found {t : Token} {n : Machine} : n.lexer = { m.lexer with pass := n.lexer.pass } →
      n.queue = m.queue.tail → n.reported = m.reported → Sought call m (.ok (some t)) n
  | ended : m.queue = [] → m.lexer.pass.rest = [] → Sought call m (.ok none) m
  | reported {e : LexError} : m.queue = [] → m.lexer.pass.rest ≠ [] →
      (∀ k : Machine, k.lexer = m.lexer → next call k = some (.ok none, k.recorded e)) →
      Sought call m (.ok none) (m.recorded e)

end LexM

def Machine.ReportsAtMostOne (m n : Machine) : Prop :=
  n.reported = m.reported ∨ ∃ e, n.reported = m.reported ++ [e]

theorem Machine.ReportsAtMostOne.of_length_le {m n : Machine} {errors : List LexError}
    (h : n.reported = m.reported ++ errors) (hlength : errors.length ≤ 1) :
    m.ReportsAtMostOne n := by
  rcases errors with _ | ⟨e, _ | ⟨e', errors⟩⟩
  · exact .inl (h.trans (List.append_nil _))
  · exact .inr ⟨e, h⟩
  · exact absurd hlength (by simp)

theorem Machine.not_reportsAtMostOne {m n : Machine} {e : LexError}
    (h : n.reported = m.reported ++ [e, e]) : ¬m.ReportsAtMostOne n := by
  rintro (hsame | ⟨e', hone⟩)
  · have hlength := congrArg List.length (hsame.symm.trans h)
    simp at hlength
  · have hlength := congrArg List.length (hone.symm.trans h)
    simp at hlength

structure Machine.Observing (m : Machine) : Prop where
  captures : m.lexer.registry.CapturesOnly
  observed : m.lexer.options.hooks.onError = true

namespace Machine.Observing

open LexM (Sought)

variable {m n : Machine} {depth bound : Nat} {moves : List Move}

theorem of_lexer {p : Pass} (hm : m.Observing) (h : n.lexer = { m.lexer with pass := p }) :
    n.Observing where
  captures := by rw [h]; exact hm.captures
  observed := by rw [h]; exact hm.observed

theorem sought (hm : m.Observing) {r : Except LexError (Option Token)}
    (h : LexM.next (Handler.call (depth + 1)) m = some (r, n)) :
    n.Observing ∧ Sought (Handler.call (depth + 1)) m r n := by
  rcases hq : m.queue with _ | ⟨t, queue⟩
  · rcases hd : LexM.derive (Handler.call (depth + 1)) m with _ | ⟨r', k⟩
    · rw [LexM.next_of_queue_nil hq, LexM.advance_of_timeout hd] at h
      cases h
    · cases LexM.derived_of_patterns hm.captures hd with
      | ended hrest =>
        rw [LexM.next_of_derive hq hd] at h
        cases h
        exact ⟨hm, .ended hq hrest⟩
      | made hlexer hqueue hreported =>
        rw [LexM.next_of_derive hq hd] at h
        cases h
        refine ⟨hm.of_lexer hlexer, .found hlexer ?_ hreported⟩
        rw [hqueue, hq]
        rfl
      | @failed e hrest hfail =>
        have hagain : ∀ k : Machine, k.lexer = m.lexer →
            LexM.next (Handler.call (depth + 1)) k = some (.ok none, k.recorded e) := by
          intro k hk
          have hqueue : k.queue = [] := by rw [Machine.queue, hk]; exact hq
          have hobserved : k.lexer.options.hooks.onError = true := by rw [hk]; exact hm.observed
          rw [LexM.next_of_queue_nil hqueue, LexM.advance_of_error (hfail k hk),
            LexM.bind_of_ok (LexM.report_of_observed hobserved e)]
          rfl
        rw [hagain m rfl] at h
        cases h
        exact ⟨hm.of_lexer rfl, .reported hq hrest hagain⟩
  · rw [LexM.next_of_queue_cons hq] at h
    cases h
    refine ⟨hm.of_lexer rfl, .found rfl ?_ rfl⟩
    rw [hq]
    rfl

/-- No advance fails, and each error that is handed over is the whole outcome of an idle one. -/
theorem of_draws (hm : m.Observing) {count : Nat} {draws : List Draw}
    (h : LexM.draws (Handler.call (depth + 1)) count m = some (draws, n)) :
    n.Observing ∧ (∀ d ∈ draws, ∃ t?, d.result = .ok t?) ∧
      ∃ errors, n.reported = m.reported ++ errors ∧
        errors.length ≤ draws.countP (·.tokens.isEmpty) := by
  induction count generalizing m draws with
  | zero =>
    cases h
    exact ⟨hm, by simp, [], (List.append_nil _).symm, Nat.le_refl 0⟩
  | succ count ih =>
    simp only [LexM.draws, Option.bind_eq_bind, Option.bind_eq_some_iff, Prod.exists] at h
    obtain ⟨d, k, hd, ds, n', hds, he⟩ := h
    cases he
    obtain ⟨⟨r, p⟩, hp, he⟩ := Option.map_eq_some_iff.1 hd
    cases he
    have haside : m.aside.Observing := hm.of_lexer rfl
    rw [← LexM.next_of_queue_nil rfl] at hp
    obtain ⟨hobserving, hsought⟩ := haside.sought hp
    have hafter : p.aside.Observing := hobserving.of_lexer rfl
    obtain ⟨hn, hok, errors, herrors, hlength⟩ := ih hafter hds
    refine ⟨hn, ?_⟩
    rw [List.forall_mem_cons, List.countP_cons]
    cases hsought with
    | found hlexer hqueue hreported =>
      refine ⟨⟨⟨_, rfl⟩, hok⟩, errors, ?_, Nat.le_add_right_of_le hlength⟩
      rw [herrors, Machine.reported_aside, hreported, Machine.reported_aside]
    | ended hqueue hrest =>
      refine ⟨⟨⟨_, rfl⟩, hok⟩, errors, ?_, Nat.le_add_right_of_le hlength⟩
      rw [herrors, Machine.reported_aside, Machine.reported_aside]
    | @reported e hqueue hrest hagain =>
      refine ⟨⟨⟨_, rfl⟩, hok⟩, e :: errors, ?_, Nat.succ_le_succ hlength⟩
      rw [herrors, Machine.reported_aside, Machine.reported_recorded, Machine.reported_aside,
        List.append_assoc]
      rfl

theorem of_balanced (hm : m.Observing) (h : Balanced (Handler.call (depth + 1)) m moves n) :
    n.Observing ∧ ∃ errors, n.reported = m.reported ++ errors ∧ errors.length ≤ idle moves := by
  have haside : m.aside.Observing := hm.of_lexer rfl
  obtain ⟨hn, -, errors, herrors, hlength⟩ := haside.of_draws h.reached
  exact ⟨hn.of_lexer rfl, errors, herrors, hlength⟩

/-- Moving tokens to the list ends at an error that is handed over, and then input is left. -/
theorem of_pushAll (hm : m.Observing) {r : Except LexError Unit}
    (h : LexM.pushAll (Handler.call (depth + 1)) bound m = some (r, n)) :
    n.Observing ∧ (n.reported = m.reported ∨
      n.lexer.pass.rest ≠ [] ∧ ∃ e, n.reported = m.reported ++ [e]) := by
  induction bound generalizing m with
  | zero => cases h
  | succ bound ih =>
    rcases LexM.bind_eq_some_iff.1 h with ⟨t?, k, hk, hlater⟩ | ⟨e, he, -⟩
    · obtain ⟨hobserving, hsought⟩ := hm.sought hk
      cases hsought with
      | @found t _ hlexer hqueue hreported =>
        rcases LexM.bind_eq_some_iff.1 hlater with ⟨_, j, hpush, hrest⟩ | ⟨e, he, -⟩
        · have hsame := LexM.Reportless.push t hpush
          rw [LexM.push_apply] at hpush
          cases hpush
          have hpushed : ((k.told (·.onPush) (.push t)).withPass (k.lexer.pass.push t)).Observing :=
            hobserving.of_lexer (by rw [Machine.withPass, Machine.lexer_told])
          rw [← hreported, ← hsame]
          exact ih hpushed hrest
        · rw [LexM.push_apply] at he
          cases he
      | ended =>
        cases hlater
        exact ⟨hm, .inl rfl⟩
      | @reported e hqueue hrest =>
        cases hlater
        exact ⟨hobserving, .inr ⟨hrest, e, Machine.reported_recorded m e⟩⟩
    · cases (hm.sought he).2

theorem of_finish (hm : m.Observing) {r : Except LexError Unit}
    (h : LexM.finish m = some (r, n)) : m.ReportsAtMostOne n := by
  unfold LexM.finish at h
  rw [LexM.bind_of_ok (LexM.pass_apply m)] at h
  cases hincomplete : m.lexer.pass.incomplete? with
  | none =>
    rw [hincomplete] at h
    cases h
    exact .inl rfl
  | some e =>
    rw [hincomplete] at h
    dsimp only at h
    rw [LexM.report_of_observed hm.observed] at h
    cases h
    exact .inr ⟨e, Machine.reported_recorded m e⟩

/-- Where an error was handed over input is left, so the end is not checked. -/
theorem of_lex (hm : m.Observing) {r : Except LexError (List Token)}
    (h : LexM.lex (Handler.call (depth + 1)) bound m = some (r, n)) : m.ReportsAtMostOne n := by
  rcases LexM.bind_eq_some_iff.1 h with ⟨_, k, hpush, hlater⟩ | ⟨e, hpush, -⟩
  · obtain ⟨hk, hreported⟩ := hm.of_pushAll hpush
    rw [LexM.bind_of_ok (LexM.pass_apply k)] at hlater
    split at hlater
    · next hempty =>
      have hsame : k.reported = m.reported :=
        hreported.resolve_right fun hleft => hleft.1 (List.isEmpty_iff.1 hempty)
      rcases LexM.bind_eq_some_iff.1 hlater with ⟨_, j, hfinish, hlast⟩ | ⟨e, hfinish, -⟩
      · cases hlast
        rw [ReportsAtMostOne, ← hsame]
        exact hk.of_finish hfinish
      · rw [ReportsAtMostOne, ← hsame]
        exact hk.of_finish hfinish
    · cases hlater
      exact hreported.imp id And.right
  · exact (hm.of_pushAll hpush).2.imp id And.right

theorem of_stream (hm : m.Observing) {c : StreamCall} (hc : ∀ kind, c ≠ .skipTo kind)
    {r : Except LexError c.request.Reply}
    (h : c.request.serve (Handler.call (depth + 1)) bound m = some (r, n)) :
    n.Observing ∧ m.ReportsAtMostOne n := by
  obtain ⟨moves, hmoves⟩ := StreamCall.exists_traced h
  obtain ⟨hn, errors, herrors, hlength⟩ := hm.of_balanced (c.balances_traced _ bound hmoves)
  exact ⟨hn, .of_length_le herrors (Nat.le_trans hlength (StreamCall.idle_le_one hc hmoves))⟩

/-- The error that a token was sought and not found with is the first one since an earlier
machine, if there is one at most. -/
theorem reported_of_sought {k : Machine} {e : LexError} (hm : m.Observing)
    (h : Balanced (Handler.call (depth + 1)) m moves k)
    (hmost : m.ReportsAtMostOne (k.recorded e)) : k.reported = m.reported := by
  obtain ⟨-, errors, herrors, -⟩ := hm.of_balanced h
  have hnone : errors = [] := by
    rcases hmost with hsame | ⟨e', hone⟩
    · have hlength := congrArg List.length hsame
      rw [Machine.reported_recorded, herrors] at hlength
      simp at hlength
    · have hlength := congrArg List.length hone
      rw [Machine.reported_recorded, herrors] at hlength
      simpa using hlength
  rw [herrors, hnone, List.append_nil]

theorem ok_of_peek (hm : m.Observing) {r : Except LexError (Option Token)}
    (h : LexM.lookahead (Handler.call (depth + 1)) 1 m = some (r, n)) : ∃ t?, r = .ok t? := by
  obtain ⟨moves, hlooks⟩ := LooksAhead.of_lookahead (Nat.le_refl 1) h
  cases r with
  | ok t? => exact ⟨t?, rfl⟩
  | error e =>
    obtain ⟨d, hlast, herror⟩ := hlooks.failed e rfl
    have haside : m.aside.Observing := hm.of_lexer rfl
    obtain ⟨t?, hok⟩ := (haside.of_draws hlooks.reached).2.1 d (List.mem_of_getLast? hlast)
    rw [herror] at hok
    cases hok

/-- What could fail is handed over instead, so skipping does not fail. -/
theorem ok_of_skipWhileOnto (hm : m.Observing) {accepts : List Token → Token → Bool}
    {taken : List Token} {r : Except LexError (List Token)}
    (h : LexM.skipWhileOnto (Handler.call (depth + 1)) accepts bound taken m = some (r, n)) :
    ∃ ts, r = .ok ts := by
  induction bound generalizing taken m with
  | zero => cases h
  | succ bound ih =>
    rw [LexM.skipWhileOnto_succ] at h
    rcases LexM.bind_eq_some_iff.1 h with ⟨t?, k, hk, hlater⟩ | ⟨e, he, -⟩
    · obtain ⟨hobserving, -⟩ := @of_stream m k depth 0 hm .peek (fun _ => nofun) _ hk
      cases t? with
      | none =>
        cases hlater
        exact ⟨_, rfl⟩
      | some t =>
        obtain ⟨queue, hqueue⟩ := LexM.queue_of_lookahead_one hk
        dsimp only at hlater
        split at hlater
        · rw [LexM.bind_of_ok (LexM.next_of_queue_cons hqueue)] at hlater
          have hafter : (k.withQueue queue).Observing := hobserving.of_lexer rfl
          exact ih hafter hlater
        · cases hlater
          exact ⟨_, rfl⟩
    · obtain ⟨t?, hok⟩ := hm.ok_of_peek he
      cases hok

theorem ok_of_skipTo (hm : m.Observing) {kind : String} {r : Except LexError (List Token)}
    (h : LexM.skipTo (Handler.call (depth + 1)) bound kind m = some (r, n)) : ∃ ts, r = .ok ts := by
  rcases LexM.bind_eq_some_iff.1 h with ⟨before, k, hbefore, hlater⟩ | ⟨e, hbefore, -⟩
  · obtain ⟨hk, -⟩ := hm.of_stream (c := .skipWhile _) (fun _ => nofun) hbefore
    rcases LexM.bind_eq_some_iff.1 hlater with ⟨t?, j, -, hlast⟩ | ⟨e, hnext, -⟩
    · cases t? with
      | none => cases hlast; exact ⟨_, rfl⟩
      | some t => cases hlast; exact ⟨_, rfl⟩
    · cases (hk.sought hnext).2
  · obtain ⟨ts, hok⟩ := hm.ok_of_skipWhileOnto hbefore
    cases hok

/-- Skipping up to a kind seeks one more token where it has stopped. There is one of the kind, or
the input has ended, or the error at which it stopped is handed over again. -/
theorem of_skipTo (hm : m.Observing) {kind : String} {ts : List Token}
    (h : LexM.skipTo (Handler.call (depth + 1)) bound kind m = some (.ok ts, n)) :
    (((∃ t ∈ ts, t.is kind) ∨ n.lexer.pass.rest = []) ∧ m.ReportsAtMostOne n) ∨
      ¬((∃ t ∈ ts, t.is kind) ∨ n.lexer.pass.rest = []) ∧
        ∃ e, n.reported = m.reported ++ [e, e] := by
  obtain ⟨before, k, t?, hbefore, hnext, rfl⟩ := LexM.exists_skipWhile_of_skipTo h
  obtain ⟨-, hmost⟩ := hm.of_stream (c := .skipWhile _) (fun _ => nofun) hbefore
  obtain ⟨refused?, hpassed, hrefused, hstopped⟩ := LexM.exists_skips_ofPredicate hbefore
  cases refused? with
  | some t =>
    obtain ⟨queue, hqueue⟩ := hstopped
    rw [LexM.next_of_queue_cons hqueue] at hnext
    cases hnext
    have ht : t.is kind := by simpa using hrefused t rfl
    exact .inl ⟨.inl ⟨t, List.mem_append_right _ (List.mem_singleton.2 rfl), ht⟩, hmost⟩
  | none =>
    obtain ⟨hqueue, moves, j, hbalanced, hstop⟩ := hstopped
    obtain ⟨hj, hsought⟩ := (hm.of_balanced hbalanced).1.sought hstop
    cases hsought with
    | ended _ hrest =>
      rw [LexM.next_of_atEnd ((Machine.atEnd_iff hrest).2 hqueue)] at hnext
      cases hnext
      exact .inl ⟨.inr hrest, hmost⟩
    | @reported e _ hrest hagain =>
      rw [hagain (j.recorded e) rfl] at hnext
      cases hnext
      refine .inr ⟨?_, e, ?_⟩
      · rintro (⟨t, ht, hkind⟩ | hnone)
        · rw [Option.toList_none, List.append_nil] at ht
          have hpass := hpassed t ht
          rw [hkind] at hpass
          cases hpass
        · exact hrest hnone
      · rw [Machine.reported_recorded, Machine.reported_recorded,
          hm.reported_of_sought hbalanced hmost, List.append_assoc]
        rfl

/-- Under an observer of errors whatever draws on the stream of tokens of a lexer of patterns hands
over one error at most, and so does lexing. Skipping up to a kind, which does not fail then, does
exactly if it takes a token of the kind or ends with the input; else it hands over one error
twice. -/
theorem reports_at_most_one (hm : m.Observing) :
    (∀ (c : StreamCall) r n, (∀ kind, c ≠ .skipTo kind) →
      c.request.serve (Handler.call (depth + 1)) bound m = some (r, n) →
      m.ReportsAtMostOne n) ∧
    (∀ r n, LexM.lex (Handler.call (depth + 1)) bound m = some (r, n) → m.ReportsAtMostOne n) ∧
    ∀ kind r n, LexM.skipTo (Handler.call (depth + 1)) bound kind m = some (r, n) →
      ∃ ts, r = .ok ts ∧
        (m.ReportsAtMostOne n ↔ (∃ t ∈ ts, t.is kind) ∨ n.lexer.pass.rest = []) ∧
        (¬m.ReportsAtMostOne n → ∃ e, n.reported = m.reported ++ [e, e]) := by
  refine ⟨fun c r n hc h => (hm.of_stream hc h).2, fun r n => hm.of_lex, ?_⟩
  intro kind r n h
  obtain ⟨ts, rfl⟩ := hm.ok_of_skipTo h
  refine ⟨ts, rfl, ?_⟩
  rcases hm.of_skipTo h with ⟨hstopped, hmost⟩ | ⟨hstopped, e, htwice⟩
  · exact ⟨iff_of_true hmost hstopped, absurd hmost⟩
  · exact ⟨iff_of_false (not_reportsAtMostOne htwice) hstopped, fun _ => ⟨e, htwice⟩⟩

end Machine.Observing

def observedLetter : Machine :=
  ⟨{ (Machine.fresh "a!" [("a", .ofPattern "a" (.letter 'a'))]).lexer with
    options := ⟨.token, none, ⟨false, false, false, true⟩⟩ }, #[]⟩

theorem observing_letter : observedLetter.Observing where
  captures := by
    intro entry hentry
    obtain rfl := List.mem_singleton.1 hentry
    exact ⟨.letter 'a', rfl⟩
  observed := rfl

/-- Skipping all there is, lexing, and skipping up to the letter. -/
theorem reports_at_most_one_letter :
    observedLetter.Observing ∧
      (∃ ts n, (StreamCall.skip 3).request.serve (Handler.call 1) 3 observedLetter =
          some (.ok ts, n) ∧
        n.reported.length = 1 ∧ observedLetter.ReportsAtMostOne n) ∧
      (∃ ts n, LexM.lex (Handler.call 1) 3 observedLetter = some (.ok ts, n) ∧
        n.reported.length = 1 ∧ observedLetter.ReportsAtMostOne n) ∧
      ∃ ts n, LexM.skipTo (Handler.call 1) 3 "a" observedLetter = some (.ok ts, n) ∧
        (∃ t ∈ ts, t.is "a") ∧ observedLetter.ReportsAtMostOne n := by
  have hskip : LexM.shown ((StreamCall.skip 3).request.serve (Handler.call 1) 3) observedLetter
      (fun _ => ()) (·.reported.length) = some (some (), 1) := by decide +kernel
  have hlex : LexM.shown (LexM.lex (Handler.call 1) 3) observedLetter (fun _ => ())
      (·.reported.length) = some (some (), 1) := by decide +kernel
  have hskipTo : LexM.shown (LexM.skipTo (Handler.call 1) 3 "a") observedLetter
      (fun ts => decide (∃ t ∈ ts, t.is "a")) (fun _ => ()) = some (some true, ()) := by
    decide +kernel
  obtain ⟨ts, n, hskip, -, hone⟩ := LexM.exists_of_shown hskip
  obtain ⟨us, k, hlex, -, hsingle⟩ := LexM.exists_of_shown hlex
  obtain ⟨vs, j, hskipTo, hkind, -⟩ := LexM.exists_of_shown hskipTo
  have hthere := of_decide_eq_true hkind
  obtain ⟨hcalls, hlexing, hskipping⟩ :=
    @Machine.Observing.reports_at_most_one observedLetter 0 3 observing_letter
  obtain ⟨_, hvs, hiff, -⟩ := hskipping "a" _ j hskipTo
  cases hvs
  exact ⟨observing_letter, ⟨ts, n, hskip, hone, hcalls (.skip 3) _ n (fun _ => nofun) hskip⟩,
    ⟨us, k, hlex, hsingle, hlexing _ k hlex⟩, vs, j, hskipTo, hthere, hiff.2 (.inl hthere)⟩

/-- Skipping up to a kind that does not come hands over twice that the rest is not recognised. -/
theorem skipTo_reports_twice :
    observedLetter.Reached ∧ observedLetter.Observing ∧
      ∃ ts n, LexM.skipTo (Handler.call 1) 3 "b" observedLetter = some (.ok ts, n) ∧
        n.reported = [.unmatchedInput ['!'] ⟨1, 1, 2⟩, .unmatchedInput ['!'] ⟨1, 1, 2⟩] ∧
        ¬observedLetter.ReportsAtMostOne n := by
  have hreached : observedLetter.Reached :=
    ⟨Unit, .done (), 0, observedLetter, "a!".toList, rfl, .inr ⟨.ok (), rfl⟩⟩
  have hskipTo : LexM.shown (LexM.skipTo (Handler.call 1) 3 "b") observedLetter (fun _ => ())
      (·.reported) = some (some (),
        [.unmatchedInput ['!'] ⟨1, 1, 2⟩, .unmatchedInput ['!'] ⟨1, 1, 2⟩]) := by decide +kernel
  obtain ⟨ts, n, hskipTo, -, htwice⟩ := LexM.exists_of_shown hskipTo
  exact ⟨hreached, observing_letter, ts, n, hskipTo, htwice,
    Machine.not_reportsAtMostOne (e := .unmatchedInput ['!'] ⟨1, 1, 2⟩) htwice⟩

end ModularLexer
