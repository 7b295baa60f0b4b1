import ModularLexer.Proofs.Patterns.Reading
import ModularLexer.Proofs.Stream.Lookahead

/-!
Failures of a lexer of patterns are stable and lose nothing. What was made of the input before an
error waits or is on the list, nothing was consumed besides, and whatever failed fails in the same
way again and changes nothing then.
-/
namespace ModularLexer

open Nesting (fullMatches)
open Telling (pushes)

def Move.derived (moves : List Move) : List Token := (Move.draws moves).flatMap Draw.tokens

open Move (derived)

theorem LexM.of_closing_eq_error {m n : Machine} {e : LexError}
    (hquiet : m.lexer.options.hooks.onError = false) (h : closing m = some (.error e, n)) :
    n = m := by
  unfold closing at h
  rw [bind_of_ok (pass_apply m)] at h
  split at h
  · rcases bind_eq_some_iff.1 h with ⟨_, k, -, hlast⟩ | ⟨e', hfinish, -⟩
    · cases hlast
    · unfold finish at hfinish
      rw [bind_of_ok (pass_apply m)] at hfinish
      cases hincomplete : m.lexer.pass.incomplete? with
      | none =>
        rw [hincomplete] at hfinish
        cases hfinish
      | some e =>
        rw [hincomplete] at hfinish
        dsimp only at hfinish
        rw [report_apply hquiet] at hfinish
        cases hfinish
        rfl
  · cases h

theorem LexM.eq_of_draws_nil {call : Handler → LexM (Option Token)} {count : Nat} {m n : Machine}
    (h : draws call count m = some ([], n)) : n = m := by
  cases count with
  | zero =>
    cases h
    rfl
  | succ count =>
    simp only [draws, Option.bind_eq_bind, Option.bind_eq_some_iff, Prod.exists] at h
    obtain ⟨d, k, -, ds, p, -, he⟩ := h
    cases he

/-- Looking ahead fails where tokens are missing and the next advance fails. Nothing comes to wait
then. -/
theorem LexM.lookahead_of_failing {call : Handler → LexM (Option Token)} {m : Machine} {count : Nat}
    {e : LexError} (hone : 1 ≤ count) (hfew : m.queue.length < count)
    (h : advance call m.aside = some (.error e, m.aside)) :
    lookahead call count m = some (.error e, m) := by
  obtain ⟨count, rfl⟩ := Nat.exists_eq_add_of_le' hone
  obtain ⟨missing, hmissing⟩ : ∃ missing, count + 1 - m.queue.length = missing + 1 :=
    ⟨count - m.queue.length, by omega⟩
  have hback : m.aside.withQueue (m.queue ++ m.aside.queue) = m := by
    show m.aside.withQueue (m.queue ++ []) = m
    rw [List.append_nil]
    rfl
  rw [← Traced.value_lookahead, Traced.value, Traced.lookahead_succ, hmissing,
    Traced.fill_of_lt hfew, h]
  dsimp only
  rw [hback]
  rfl

theorem LexM.exists_of_failing {α γ : Type} {x : LexM α} {m : Machine} {g : Machine → γ}
    {e : LexError} {c : γ}
    (h : (x m).map (fun (r, n) => (r.map fun _ => (), g n)) = some (.error e, c)) :
    ∃ n, x m = some (.error e, n) ∧ g n = c := by
  obtain ⟨⟨r, n⟩, hx, he⟩ := Option.map_eq_some_iff.1 h
  obtain ⟨hr, hn⟩ := Prod.mk.inj he
  cases r with
  | ok a => cases hr
  | error e' =>
    cases hr
    exact ⟨n, hx, hn⟩

namespace Machine

/-- From one machine to another a lexer went on over the matches of tokens and left them in the
queue and on the list. Nothing else of it has changed. -/
structure Delivers (m : Machine) (made queue tokens : List Token) (n : Machine) : Prop where
  lexer : n.lexer = { m.lexer with pass :=
    { m.lexer.pass.past (fullMatches made) n.lexer.pass.rest with
      tokens := tokens.toArray, queue := queue } }
  rest : m.lexer.pass.rest = fullMatches made ++ n.lexer.pass.rest
  consumed : n.lexer.pass.consumed = m.lexer.pass.consumed ++ fullMatches made

variable {m n : Machine}

theorem Makes.delivers {made listed : List Token} (h : m.Makes made listed n) :
    m.Delivers made n.queue (m.lexer.pass.tokens.toList ++ listed) n := by
  obtain ⟨tellings, htellings, rfl, rfl⟩ := h
  have hlexer : n.lexer = ⟨n.lexer.pass, m.lexer.registry, m.lexer.options⟩ := by
    rw [← htellings.registry, ← htellings.options]
  have htokens : n.lexer.pass.tokens =
      (m.lexer.pass.tokens.toList ++ pushes tellings).toArray := by
    rw [← htellings.tokens]
  have hpass := htellings.pass
  rw [htokens] at hpass
  refine ⟨?_, htellings.rest, ?_⟩
  · exact hlexer.trans (congrArg (Lexer.mk · m.lexer.registry m.lexer.options) hpass)
  · rw [← m.lexer.pass.consumed_past _ n.lexer.pass.rest, hpass]
    rfl

namespace Matching

variable {depth bound : Nat} {moves : List Move}

theorem of_advance_eq_error (hm : m.Matching) {e : LexError}
    (h : LexM.advance (Handler.call (depth + 1)) m = some (.error e, n)) : n = m := by
  cases hm.advances h with
  | failed => rfl

/-- Where the last of some advances failed the next one fails in the same way. -/
theorem advance_of_draws (hm : m.Matching) (hqueue : m.queue = []) {count : Nat}
    {draws : List Draw} (h : LexM.draws (Handler.call (depth + 1)) count m = some (draws, n))
    {d : Draw} {e : LexError} (hlast : draws.getLast? = some d) (he : d.result = .error e) :
    LexM.advance (Handler.call (depth + 1)) n = some (.error e, n) := by
  induction count generalizing m draws with
  | zero =>
    cases h
    cases hlast
  | succ count ih =>
    simp only [LexM.draws, Option.bind_eq_bind, Option.bind_eq_some_iff, Prod.exists] at h
    obtain ⟨first, k, hfirst, ds, n', hds, hn⟩ := h
    cases hn
    rw [LexM.draw, aside_of_queue_nil hqueue] at hfirst
    obtain ⟨⟨r, p⟩, hp, hk⟩ := Option.map_eq_some_iff.1 hfirst
    obtain ⟨hmakes, hsame⟩ := hm.advance hp
    rw [hqueue] at hsame
    dsimp only at hk
    rw [aside_of_queue_nil hsame] at hk
    cases hk
    cases ds with
    | nil =>
      cases hlast
      cases he
      obtain rfl := LexM.eq_of_draws_nil hds
      obtain rfl := hm.of_advance_eq_error hp
      exact hp
    | cons second ds =>
      rw [List.getLast?_cons_cons] at hlast
      exact ih (hmakes.matching hm) hsame hds hlast

/-- What is made before looking ahead fails waits behind what waited, and is too little still. -/
theorem lookahead_failing (hm : m.Matching) {count : Nat} {e : LexError} (hone : 1 ≤ count)
    (h : LexM.lookahead (Handler.call (depth + 1)) count m = some (.error e, n)) :
    ∃ moves, Traced.lookahead (Handler.call (depth + 1)) count m = some (.error e, moves, n) ∧
      m.Delivers (derived moves) (m.queue ++ derived moves) m.lexer.pass.tokens.toList n ∧
      LexM.lookahead (Handler.call (depth + 1)) count n = some (.error e, n) := by
  obtain ⟨moves, hlooks⟩ := LooksAhead.of_lookahead hone h
  obtain ⟨d, hlast, hfails⟩ := hlooks.failed e rfl
  have hdelivers := (hm.of_reached hlooks.reached).delivers
  rw [hlooks.queue, List.append_nil] at hdelivers
  refine ⟨moves, hlooks.traced, hdelivers, ?_⟩
  have haside := (Makes.withQueue m []).matching hm
  have hagain := haside.advance_of_draws rfl hlooks.reached hlast hfails
  -- The last advance brought nothing, and before it there were too few tokens.
  obtain ⟨-, -, hahead⟩ := haside.draws rfl hlooks.reached
  obtain ⟨front, hfront⟩ := List.getLast?_eq_some_iff.1 hlast
  have hnothing : d.tokens = [] := by
    rw [Draw.tokens, hfails]
    exact hahead d (List.mem_of_getLast? hlast)
  have hfew : n.queue.length < count := by
    have hneeded := hlooks.needed front d [] hfront
    rw [hlooks.queue, hfront, List.flatMap_append, List.flatMap_singleton, hnothing]
    rwa [List.append_nil]
  exact LexM.lookahead_of_failing hone hfew hagain

variable (hquiet : m.lexer.options.hooks.onError = false)

include hquiet

/-- Seeking a token without finding one changes nothing. -/
theorem of_next_eq_nothing (hm : m.Matching) {r : Except LexError (Option Token)}
    (h : LexM.next (Handler.call (depth + 1)) m = some (r, n)) (hr : ∀ t, r ≠ .ok (some t)) :
    n = m ∧ m.queue = [] := by
  cases hqueue : m.queue with
  | cons t queue =>
    rw [LexM.next_of_queue_cons hqueue] at h
    cases h
    exact absurd rfl (hr t)
  | nil =>
    rw [LexM.next_of_queue_nil hqueue] at h
    cases hm.advances h with
    | ended => exact ⟨rfl, rfl⟩
    | made => exact absurd rfl (hr _)
    | failed => exact ⟨rfl, rfl⟩
    | reported hobserved =>
      rw [hquiet] at hobserved
      cases hobserved

/-- Tokens are moved to the list until none is found, and none is found again then. -/
theorem next_of_pushAll (hm : m.Matching) {r : Except LexError Unit}
    (h : LexM.pushAll (Handler.call (depth + 1)) bound m = some (r, n)) :
    n.queue = [] ∧
      LexM.next (Handler.call (depth + 1)) n = some (r.map fun _ => none, n) := by
  induction bound generalizing m with
  | zero => cases h
  | succ bound ih =>
    rcases LexM.bind_eq_some_iff.1 h with ⟨t?, k, hk, hlater⟩ | ⟨e, he, rfl⟩
    · cases t? with
      | none =>
        cases hlater
        obtain ⟨rfl, hqueue⟩ := of_next_eq_nothing hquiet hm hk fun _ => nofun
        exact ⟨hqueue, hk⟩
      | some t =>
        rcases LexM.bind_eq_some_iff.1 hlater with ⟨_, j, hpush, hlast⟩ | ⟨e, hpush, -⟩
        · obtain ⟨made, hnext⟩ := hm.next hk
          have hpushed := hnext.trans (.push t hpush)
          refine ih ?_ (hpushed.matching hm) hlast
          rw [hpushed.options]
          exact hquiet
        · rw [LexM.push_apply] at hpush
          cases hpush
    · obtain ⟨rfl, hqueue⟩ := of_next_eq_nothing hquiet hm he fun _ => nofun
      exact ⟨hqueue, he⟩

theorem pushAll_again (hm : m.Matching) {r : Except LexError Unit}
    (h : LexM.pushAll (Handler.call (depth + 1)) bound m = some (r, n)) :
    n.queue = [] ∧ LexM.pushAll (Handler.call (depth + 1)) bound n = some (r, n) := by
  obtain ⟨hqueue, hnext⟩ := next_of_pushAll hquiet hm h
  refine ⟨hqueue, ?_⟩
  cases bound with
  | zero => cases h
  | succ bound =>
    cases r with
    | error e => exact LexM.bind_of_error hnext
    | ok _ => exact LexM.bind_of_ok hnext

/-- Lexing that fails has put all that waited and all that it made to the list. -/
theorem lex_failing (hm : m.Matching) {e : LexError}
    (h : LexM.lex (Handler.call (depth + 1)) bound m = some (.error e, n)) :
    ∃ moves, Traced.lex (Handler.call (depth + 1)) bound m = some (.error e, moves, n) ∧
      m.Delivers (derived moves) []
        (m.lexer.pass.tokens.toList ++ (m.queue ++ derived moves)) n ∧
      LexM.lex (Handler.call (depth + 1)) bound n = some (.error e, n) := by
  rw [← Traced.value_lex] at h
  obtain ⟨moves, htraced⟩ := Traced.exists_of_value h
  obtain ⟨hmakes, hconserved⟩ := hm.lex htraced
  have hstays : ∀ s k, Traced.pushAll (Handler.call (depth + 1)) bound m = some (s, moves, k) →
      k.queue = [] ∧ LexM.pushAll (Handler.call (depth + 1)) bound k = some (s, k) := by
    intro s k hpush
    have hvalue := Traced.value_of_apply hpush
    rw [Traced.value_pushAll] at hvalue
    exact pushAll_again hquiet hm hvalue
  have hstops : n.queue = [] ∧
      LexM.lex (Handler.call (depth + 1)) bound n = some (.error e, n) := by
    rw [LexM.lex_eq]
    rcases Traced.of_lex htraced with ⟨k, hpush, hclose⟩ | ⟨e', hpush, he⟩
    · have hsame : k.lexer.options.hooks.onError = false := by
        rw [(hm.pushAll hpush).options]
        exact hquiet
      obtain rfl := LexM.of_closing_eq_error hsame hclose
      obtain ⟨hqueue, hagain⟩ := hstays _ _ hpush
      exact ⟨hqueue, (LexM.bind_of_ok hagain).trans hclose⟩
    · cases he
      obtain ⟨hqueue, hagain⟩ := hstays _ _ hpush
      exact ⟨hqueue, LexM.bind_of_error hagain⟩
  obtain ⟨hqueue, hagain⟩ := hstops
  have hdelivers := hmakes.delivers
  rw [hqueue, List.append_nil] at hconserved
  rw [hqueue, hconserved] at hdelivers
  exact ⟨moves, htraced, hdelivers, hagain⟩

/-- Failures of a lexer of patterns without an observer of errors. An advance that fails changes
nothing. Where looking ahead fails the tokens that it made wait behind those that waited, and where
lexing fails they are on the list behind them; their matches are just the text that was consumed.
Each fails again with the same error, and changes nothing then. -/
theorem failures_stable (hm : m.Matching) :
    (∀ e n, LexM.advance (Handler.call (depth + 1)) m = some (.error e, n) →
      n = m ∧ LexM.advance (Handler.call (depth + 1)) n = some (.error e, n)) ∧
    (∀ count e n, 1 ≤ count →
      LexM.lookahead (Handler.call (depth + 1)) count m = some (.error e, n) →
      ∃ moves, Traced.lookahead (Handler.call (depth + 1)) count m = some (.error e, moves, n) ∧
        m.Delivers (derived moves) (m.queue ++ derived moves) m.lexer.pass.tokens.toList n ∧
        LexM.lookahead (Handler.call (depth + 1)) count n = some (.error e, n)) ∧
    ∀ e n, LexM.lex (Handler.call (depth + 1)) bound m = some (.error e, n) →
      ∃ moves, Traced.lex (Handler.call (depth + 1)) bound m = some (.error e, moves, n) ∧
        m.Delivers (derived moves) []
          (m.lexer.pass.tokens.toList ++ (m.queue ++ derived moves)) n ∧
        LexM.lex (Handler.call (depth + 1)) bound n = some (.error e, n) := by
  refine ⟨?_, fun count e n hone h => hm.lookahead_failing hone h,
    fun e n h => lex_failing hquiet hm h⟩
  intro e n h
  obtain rfl := hm.of_advance_eq_error h
  exact ⟨rfl, h⟩

end Matching

def openedLetters : Machine :=
  (lettersOf "ab").withPass ((lettersOf "ab").lexer.pass.pushStack (.plain "open" none))

theorem matching_openedLetters : openedLetters.Matching :=
  ⟨(matching_lettersOf "ab").captures, rfl⟩

/-- Advancing fails at input that is no letter, and looking ahead fails behind two letters. Lexing
fails behind them where something is open. -/
theorem failures_stable_letters :
    (∃ n, LexM.advance (Handler.call 1) (lettersOf "!") =
        some (.error (.unmatchedInput ['!'] ⟨0, 1, 1⟩), n) ∧
      n = lettersOf "!" ∧ LexM.advance (Handler.call 1) n =
        some (.error (.unmatchedInput ['!'] ⟨0, 1, 1⟩), n)) ∧
    (∃ n, LexM.lookahead (Handler.call 1) 3 (lettersOf "ab!") =
        some (.error (.unmatchedInput ['!'] ⟨2, 1, 3⟩), n) ∧ n.queue.map (·.kind) = ["a", "b"] ∧
      ∃ moves, (lettersOf "ab!").Delivers (derived moves) (derived moves) [] n ∧
        LexM.lookahead (Handler.call 1) 3 n =
          some (.error (.unmatchedInput ['!'] ⟨2, 1, 3⟩), n)) ∧
    ∃ n, LexM.lex (Handler.call 1) 3 openedLetters =
        some (.error (.unclosed "open".toList ⟨2, 1, 3⟩), n) ∧
      n.lexer.pass.tokens.toList.map (·.kind) = ["a", "b"] ∧
      ∃ moves, openedLetters.Delivers (derived moves) [] (derived moves) n ∧
        LexM.lex (Handler.call 1) 3 n =
          some (.error (.unclosed "open".toList ⟨2, 1, 3⟩), n) := by
  obtain ⟨k, hadvance, -⟩ := LexM.exists_of_failing (x := LexM.advance (Handler.call 1))
    (m := lettersOf "!") (g := fun _ => ()) (e := .unmatchedInput ['!'] ⟨0, 1, 1⟩) (c := ())
    (by decide +kernel)
  obtain ⟨n, hlookahead, hwait⟩ := LexM.exists_of_failing (x := LexM.lookahead (Handler.call 1) 3)
    (m := lettersOf "ab!") (g := (·.queue.map (·.kind)))
    (e := .unmatchedInput ['!'] ⟨2, 1, 3⟩) (c := ["a", "b"]) (by decide +kernel)
  obtain ⟨p, hlex, hlisted⟩ := LexM.exists_of_failing (x := LexM.lex (Handler.call 1) 3)
    (m := openedLetters) (g := (·.lexer.pass.tokens.toList.map (·.kind)))
    (e := .unclosed "open".toList ⟨2, 1, 3⟩) (c := ["a", "b"]) (by decide +kernel)
  obtain ⟨hsame, hagain⟩ := (@Matching.failures_stable (lettersOf "!") 0 0 rfl
    (matching_lettersOf "!")).1 _ k hadvance
  obtain ⟨looks, -, hwaiting, hlooks⟩ := (@Matching.failures_stable (lettersOf "ab!") 0 0
    rfl (matching_lettersOf "ab!")).2.1 3 _ n (by decide) hlookahead
  obtain ⟨moves, -, hmoved, hlexes⟩ := (@Matching.failures_stable openedLetters 0 3 rfl
    matching_openedLetters).2.2 _ p hlex
  exact ⟨⟨k, hadvance, hsame, hagain⟩, ⟨n, hlookahead, hwait, looks, hwaiting, hlooks⟩,
    p, hlex, hlisted, moves, hmoved, hlexes⟩

end Machine

end ModularLexer
