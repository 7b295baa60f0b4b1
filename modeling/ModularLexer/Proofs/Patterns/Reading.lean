import ModularLexer.Proofs.Nesting.Deciding
import ModularLexer.Proofs.Patterns.Deriving
import ModularLexer.Proofs.Progress.Payment

/-!
What a lexer of patterns does to a machine, whatever is asked of it. It goes on in the input over
the matches of the tokens that it makes, tokens come to wait or to the list, and observers are told
of tokens when they are made and when they come to the list. Nothing else changes.
-/
namespace ModularLexer

open Nesting (fullMatches)
open Segmentation (Groups fullText)

/-- Whether an event is told under an installation of observers. Errors are handed over only where
they are taken, and notes are always written. -/
def Event.isHeard (hooks : Hooks) (e : Event) : Bool :=
  e.observer.all fun installed => installed hooks

inductive Telling where
  | scanned (token : Token)
  | pushed (token : Token)
  | reported (error : LexError)

namespace Telling

def scans (tellings : List Telling) : List Token :=
  tellings.filterMap fun
    | scanned t => some t
    | _ => none

def pushes (tellings : List Telling) : List Token :=
  tellings.filterMap fun
    | pushed t => some t
    | _ => none

/-- How observers are told: of a token that is made first before it is placed, then when it is. -/
def events (tellings : List Telling) : List Event :=
  tellings.flatMap fun
    | scanned t => [.token t.unplaced, .scan t]
    | pushed t => [.push t]
    | reported e => [.error e]

@[simp] theorem scans_append (a b : List Telling) : scans (a ++ b) = scans a ++ scans b :=
  List.filterMap_append ..

@[simp] theorem pushes_append (a b : List Telling) : pushes (a ++ b) = pushes a ++ pushes b :=
  List.filterMap_append ..

@[simp] theorem events_append (a b : List Telling) : events (a ++ b) = events a ++ events b :=
  List.flatMap_append

end Telling

open Telling (scans pushes events)

namespace Pass

theorem past_past (p : Pass) (a b between after : Text) :
    (p.past a between).past b after = p.past (a ++ b) after := by
  simp only [past, move, Position.advance_advance, Text.byteLength_append, List.reverse_append,
    List.append_assoc, Nat.add_assoc]

theorem consumed_past (p : Pass) (taken after : Text) :
    (p.past taken after).consumed = p.consumed ++ taken := by
  simp [past, consumed]

end Pass

theorem Nesting.fullMatches_append (a b : List Token) :
    fullMatches (a ++ b) = fullMatches a ++ fullMatches b := by
  rw [fullMatches, List.filterMap_append, List.flatMap_append]
  rfl

/-- What lexing does behind the last token: where no input is left the end is checked. -/
def LexM.closing : LexM (List Token) := do
  if (← pass).rest.isEmpty then finish
  return (← pass).tokens.toList

theorem LexM.lex_eq (call : Handler → LexM (Option Token)) (bound : Nat) :
    lex call bound = pushAll call bound >>= fun _ => closing := rfl

theorem Traced.of_lex {call : Handler → LexM (Option Token)} {bound : Nat} {m n : Machine}
    {r : Except LexError (List Token)} {moves : List Move}
    (h : lex call bound m = some (r, moves, n)) :
    (∃ k, pushAll call bound m = some (.ok (), moves, k) ∧ LexM.closing k = some (r, n)) ∨
      ∃ e, pushAll call bound m = some (.error e, moves, n) ∧ r = .error e := by
  have hlex : lex call bound = pushAll call bound >>= fun _ => lift LexM.closing := by
    simp only [lex, LexM.closing, lift_bind]
    refine bind_congr fun _ => bind_congr fun p => ?_
    split
    · rw [lift_bind, lift_bind]
      rfl
    · rfl
  rw [hlex] at h
  rcases bind_eq_some_iff.1 h with ⟨_, first, k, more, hpush, hlater, rfl⟩ | ⟨e, hpush, he⟩
  · obtain ⟨hclose, rfl⟩ := lift_eq_some_iff.1 hlater
    rw [List.append_nil]
    exact .inl ⟨k, hpush, hclose⟩
  · exact .inr ⟨e, hpush, he⟩

namespace Machine

theorem journal_told (m : Machine) {installed : Hooks → Bool} {e : Event}
    (he : e.observer = some installed) :
    (m.told installed e).journal.toList =
      m.journal.toList ++ [e].filter (·.isHeard m.lexer.options.hooks) := by
  unfold told
  split
  · next h => simp [Event.isHeard, he, h]
  · next h => simp [Event.isHeard, he, h]

theorem fullMatches_tokenOf (m : Machine) (kind : String) (groups : Groups) :
    fullMatches [m.tokenOf kind groups] = fullText groups := List.append_nil _

/-- What becomes of a machine while there was so much to tell of its lexer. It went on over the
matches of the tokens that were made; besides only the queue, the list and the journal have
changed. -/
structure Reads (m : Machine) (tellings : List Telling) (n : Machine) : Prop where
  registry : n.lexer.registry = m.lexer.registry
  options : n.lexer.options = m.lexer.options
  rest : m.lexer.pass.rest = fullMatches (scans tellings) ++ n.lexer.pass.rest
  pass : n.lexer.pass = { m.lexer.pass.past (fullMatches (scans tellings)) n.lexer.pass.rest with
    tokens := n.lexer.pass.tokens, queue := n.lexer.pass.queue }
  tokens : n.lexer.pass.tokens.toList = m.lexer.pass.tokens.toList ++ pushes tellings
  journal : n.journal.toList =
    m.journal.toList ++ (events tellings).filter (·.isHeard m.lexer.options.hooks)

namespace Reads

variable {m n k : Machine} {a b : List Telling}

theorem withQueue (m : Machine) (queue : List Token) : m.Reads [] (m.withQueue queue) where
  registry := rfl
  options := rfl
  rest := rfl
  pass := m.lexer.pass.eq_past_nil _ _
  tokens := (List.append_nil _).symm
  journal := (List.append_nil _).symm

theorem refl (m : Machine) : m.Reads [] m := withQueue m m.queue

theorem trans (hm : m.Reads a n) (hn : n.Reads b k) : m.Reads (a ++ b) k where
  registry := hn.registry.trans hm.registry
  options := hn.options.trans hm.options
  rest := by
    rw [hm.rest, hn.rest, Telling.scans_append, Nesting.fullMatches_append, List.append_assoc]
  pass := by
    have hpass := hn.pass
    rw [hm.pass] at hpass
    rw [Telling.scans_append, Nesting.fullMatches_append,
      ← m.lexer.pass.past_past _ _ n.lexer.pass.rest]
    exact hpass
  tokens := by rw [hn.tokens, hm.tokens, Telling.pushes_append, List.append_assoc]
  journal := by
    rw [hn.journal, hm.journal, hm.options, Telling.events_append, List.filter_append,
      List.append_assoc]

theorem scanned {kind : String} {groups : Groups} {after : Text}
    (hrest : m.lexer.pass.rest = fullText groups ++ after) :
    m.Reads [.scanned (m.tokenOf kind groups)]
      (m.scanned (m.tokenOf kind groups) (fullText groups) after) where
  registry := by rw [lexer_scanned]
  options := by rw [lexer_scanned]
  rest := by
    rw [lexer_scanned, hrest]
    exact congrArg (· ++ after) (fullMatches_tokenOf m kind groups).symm
  pass := by
    rw [lexer_scanned]
    exact congrArg (m.lexer.pass.past · after) (fullMatches_tokenOf m kind groups).symm
  tokens := by
    rw [lexer_scanned]
    exact (List.append_nil _).symm
  journal := by
    rw [Machine.scanned, journal_told _ rfl, journal_told _ rfl, lexer_told, List.append_assoc,
      ← List.filter_append]
    rfl

theorem pushed (m : Machine) (t : Token) :
    m.Reads [.pushed t] ((m.told (·.onPush) (.push t)).withPass (m.lexer.pass.push t)) where
  registry := by rw [withPass, lexer_told]
  options := by rw [withPass, lexer_told]
  rest := rfl
  pass := m.lexer.pass.eq_past_nil _ _
  tokens := Array.toList_push
  journal := m.journal_told rfl

theorem reported (m : Machine) (e : LexError) : m.Reads [.reported e] (m.record (.error e)) where
  registry := rfl
  options := rfl
  rest := rfl
  pass := m.lexer.pass.eq_past_nil _ _
  tokens := (List.append_nil _).symm
  journal := Array.toList_push

end Reads

/-- What becomes of a machine while its lexer makes some tokens and puts some to the list. -/
def Makes (m : Machine) (made listed : List Token) (n : Machine) : Prop :=
  ∃ tellings, m.Reads tellings n ∧ scans tellings = made ∧ pushes tellings = listed

namespace Makes

variable {m n k : Machine} {made listed made' listed' : List Token}

theorem withQueue (m : Machine) (queue : List Token) : m.Makes [] [] (m.withQueue queue) :=
  ⟨[], .withQueue m queue, rfl, rfl⟩

theorem refl (m : Machine) : m.Makes [] [] m := ⟨[], .refl m, rfl, rfl⟩

theorem trans (hm : m.Makes made listed n) (hn : n.Makes made' listed' k) :
    m.Makes (made ++ made') (listed ++ listed') k := by
  obtain ⟨a, ha, rfl, rfl⟩ := hm
  obtain ⟨b, hb, rfl, rfl⟩ := hn
  exact ⟨a ++ b, ha.trans hb, Telling.scans_append a b, Telling.pushes_append a b⟩

theorem registry (h : m.Makes made listed n) : n.lexer.registry = m.lexer.registry := by
  obtain ⟨tellings, htellings, -, -⟩ := h
  exact htellings.registry

theorem options (h : m.Makes made listed n) : n.lexer.options = m.lexer.options := by
  obtain ⟨tellings, htellings, -, -⟩ := h
  exact htellings.options

theorem matching (h : m.Makes made listed n) (hm : m.Matching) : n.Matching where
  captures := by
    rw [h.registry]
    exact hm.captures
  mode := by
    rw [h.options]
    exact hm.mode

theorem push (t : Token) {r : Except LexError Unit} (h : LexM.push t m = some (r, n)) :
    m.Makes [] [t] n := by
  rw [LexM.push_apply] at h
  cases h
  exact ⟨_, .pushed m t, rfl, rfl⟩

theorem report (e : LexError) {r : Except LexError Unit} (h : LexM.report e m = some (r, n)) :
    m.Makes [] [] n := by
  rcases LexM.report_cases e m with hr | hr
  · cases h.symm.trans hr
    exact .refl m
  · cases h.symm.trans hr
    exact ⟨_, .reported m e, rfl, rfl⟩

theorem finish {r : Except LexError Unit} (h : LexM.finish m = some (r, n)) :
    m.Makes [] [] n := by
  unfold LexM.finish at h
  rw [LexM.bind_of_ok (LexM.pass_apply m)] at h
  cases hincomplete : m.lexer.pass.incomplete? with
  | none =>
    rw [hincomplete] at h
    cases h
    exact .refl m
  | some e =>
    rw [hincomplete] at h
    exact .report e h

theorem closing {r : Except LexError (List Token)} (h : LexM.closing m = some (r, n)) :
    m.Makes [] [] n ∧ n.queue = m.queue := by
  unfold LexM.closing at h
  rw [LexM.bind_of_ok (LexM.pass_apply m)] at h
  split at h
  · have hfinish : ∃ ended, LexM.finish m = some (ended, n) := by
      rcases LexM.bind_eq_some_iff.1 h with ⟨_, k, hk, hlast⟩ | ⟨e, he, -⟩
      · cases hlast
        exact ⟨_, hk⟩
      · exact ⟨_, he⟩
    obtain ⟨ended, hfinish⟩ := hfinish
    obtain ⟨_, _, hspec, hlexer, -⟩ := LexM.finish_spec m
    cases hfinish.symm.trans hspec
    exact ⟨.finish hfinish, by rw [queue, hlexer, queue]⟩
  · cases h
    exact ⟨.refl _, rfl⟩

end Makes

namespace Matching

variable {m n : Machine} {depth bound : Nat} {moves : List Move}

theorem advance (hm : m.Matching) {r : Except LexError (Option Token)}
    (h : LexM.advance (Handler.call (depth + 1)) m = some (r, n)) :
    m.Makes (Draw.tokens ⟨r, []⟩) [] n ∧ n.queue = m.queue := by
  cases hm.advances h with
  | ended => exact ⟨.refl _, rfl⟩
  | made hrest => exact ⟨⟨_, .scanned hrest, rfl, rfl⟩, by rw [queue, lexer_scanned]; rfl⟩
  | failed => exact ⟨.refl _, rfl⟩
  | reported => exact ⟨⟨_, .reported _ _, rfl, rfl⟩, rfl⟩

/-- Each advance goes on from the one before, and leaves no token waiting. -/
theorem draws (hm : m.Matching) (hqueue : m.queue = []) {count : Nat} {draws : List Draw}
    (h : LexM.draws (Handler.call (depth + 1)) count m = some (draws, n)) :
    m.Makes (draws.flatMap Draw.tokens) [] n ∧ n.queue = [] ∧ ∀ d ∈ draws, d.ahead = [] := by
  induction count generalizing m draws with
  | zero =>
    cases h
    exact ⟨.refl _, hqueue, fun _ => nofun⟩
  | succ count ih =>
    simp only [LexM.draws, Option.bind_eq_bind, Option.bind_eq_some_iff, Prod.exists] at h
    obtain ⟨d, k, hd, ds, n', hds, he⟩ := h
    cases he
    rw [LexM.draw, aside_of_queue_nil hqueue] at hd
    obtain ⟨⟨r, p⟩, hp, he⟩ := Option.map_eq_some_iff.1 hd
    obtain ⟨hmakes, hsame⟩ := hm.advance hp
    rw [hqueue] at hsame
    dsimp only at he
    rw [hsame, aside_of_queue_nil hsame] at he
    cases he
    obtain ⟨hrest, hn, hahead⟩ := ih (hmakes.matching hm) hsame hds
    exact ⟨hmakes.trans hrest, hn, List.forall_mem_cons.2 ⟨rfl, hahead⟩⟩

theorem of_reached (hm : m.Matching)
    (h : LexM.draws (Handler.call (depth + 1)) (Move.draws moves).length m.aside =
      some (Move.draws moves, n.aside)) :
    m.Makes ((Move.draws moves).flatMap Draw.tokens) [] n := by
  have haside := Makes.withQueue m []
  obtain ⟨hmakes, -, -⟩ := (haside.matching hm).draws rfl h
  have hback := (haside.trans hmakes).trans (.withQueue n.aside n.queue)
  rwa [List.nil_append, List.append_nil] at hback

theorem next (hm : m.Matching) {r : Except LexError (Option Token)}
    (h : LexM.next (Handler.call (depth + 1)) m = some (r, n)) : ∃ made, m.Makes made [] n := by
  rw [← Traced.value_next] at h
  obtain ⟨moves, htraced⟩ := Traced.exists_of_value h
  exact ⟨_, hm.of_reached (Traced.Balances.next htraced).reached⟩

theorem pushAll (hm : m.Matching) {r : Except LexError Unit}
    (h : Traced.pushAll (Handler.call (depth + 1)) bound m = some (r, moves, n)) :
    m.Makes ((Move.draws moves).flatMap Draw.tokens) (Move.taken moves) n := by
  induction bound generalizing m moves with
  | zero => cases h
  | succ bound ih =>
    rcases Traced.bind_eq_some_iff.1 h with ⟨t?, first, k, more, hk, hlater, rfl⟩ | ⟨e, he, -⟩
    · have hnext := hm.of_reached (Traced.Balances.next hk).reached
      have htaken := Traced.taken_next hk
      cases t? with
      | none =>
        cases hlater
        rw [List.append_nil, htaken]
        exact hnext
      | some t =>
        rcases Traced.bind_eq_some_iff.1 hlater with
          ⟨_, second, j, last, hj, hlast, rfl⟩ | ⟨e, he, -⟩
        · obtain ⟨hpush, rfl⟩ := Traced.lift_eq_some_iff.1 hj
          have hpushed := hnext.trans (.push t hpush)
          have hall := hpushed.trans (ih (hpushed.matching hm) hlast)
          simpa [htaken] using hall
        · obtain ⟨hpush, -⟩ := Traced.lift_eq_some_iff.1 he
          rw [LexM.push_apply] at hpush
          cases hpush
    · have hnext := hm.of_reached (Traced.Balances.next he).reached
      rwa [← show Move.taken moves = [] from Traced.taken_of_next he] at hnext

theorem lex (hm : m.Matching) {r : Except LexError (List Token)}
    (h : Traced.lex (Handler.call (depth + 1)) bound m = some (r, moves, n)) :
    m.Makes ((Move.draws moves).flatMap Draw.tokens) (Move.taken moves) n ∧
      Move.taken moves ++ n.queue = m.queue ++ (Move.draws moves).flatMap Draw.tokens := by
  rcases Traced.of_lex h with ⟨k, hpush, hclose⟩ | ⟨e, hpush, -⟩
  · obtain ⟨hclosed, hqueue⟩ := Makes.closing hclose
    have hmakes := (hm.pushAll hpush).trans hclosed
    rw [List.append_nil, List.append_nil] at hmakes
    rw [hqueue]
    exact ⟨hmakes, Traced.Conserves.pushAll bound hpush⟩
  · exact ⟨hm.pushAll hpush, Traced.Conserves.pushAll bound hpush⟩

end Matching

end Machine

end ModularLexer
