import ModularLexer.Proofs.Patterns.Reading

/-!
What observers of a lexer of patterns see. However its stream of tokens is drawn on and its list
added to, they are told of each token once when it is made and once when it comes to the list, in
order: what was told to be made is what was taken so far and what still waits.
-/
namespace ModularLexer

open Move (taken)
open Telling (scans pushes events)

inductive LexerCall where
  | stream (call : StreamCall)
  | push (token : Token)
  | lex

namespace LexerCall

abbrev request : LexerCall → Request
  | stream c => c.request
  | push t => .push t
  | lex => .lex

def handed : (c : LexerCall) → c.request.Reply → List Token
  | stream c, reply => c.handed reply
  | push _, _ => []
  | lex, ts => ts

/-- The tokens that a call puts to the list: the one it is given, or those that lexing takes. -/
def listed : LexerCall → List Move → List Token
  | stream _, _ => []
  | push t, _ => [t]
  | lex, moves => taken moves

/-- A call that was made, with what it handed over and with its moves. -/
structure Entry where
  call : LexerCall
  result : Except LexError (List Token)
  moves : List Move

variable (call : Handler → LexM (Option Token)) (bound : Nat)

/-- Serves calls in order, each from where the one before left the machine, also by failing. -/
def serveAll : List LexerCall → Machine → Option (List (Except LexError (List Token)) × Machine)
  | [], m => some ([], m)
  | c :: cs, m => do
    let (r, m) ← c.request.serve call bound m
    let (rs, m) ← serveAll cs m
    return (r.map c.handed :: rs, m)

def traced : (c : LexerCall) → Traced c.request.Reply
  | stream c => c.traced call bound
  | push t => Traced.lift (LexM.push t)
  | lex => Traced.lex call bound

def traceAll : List LexerCall → Machine → Option (List Entry × Machine)
  | [], m => some ([], m)
  | c :: cs, m => do
    let (r, moves, m) ← c.traced call bound m
    let (log, m) ← traceAll cs m
    return (⟨c, r.map c.handed, moves⟩ :: log, m)

theorem value_traced (c : LexerCall) :
    (c.traced call bound).value = c.request.serve call bound := by
  cases c with
  | stream c => exact c.value_traced call bound
  | push t => exact Traced.value_lift (LexM.push t)
  | lex => exact Traced.value_lex call bound

variable {call bound} {m n : Machine}

/-- Calls that are served have moves. -/
theorem exists_traceAll {calls : List LexerCall} {results : List (Except LexError (List Token))}
    (h : serveAll call bound calls m = some (results, n)) :
    ∃ log, traceAll call bound calls m = some (log, n) ∧ log.map (·.call) = calls ∧
      log.map (·.result) = results ∧
      ∀ entry ∈ log, ∀ c ts, entry.call = .stream c → entry.result = .ok ts →
        taken entry.moves = ts := by
  induction calls generalizing m results with
  | nil =>
    cases h
    exact ⟨[], rfl, rfl, rfl, fun _ => nofun⟩
  | cons c cs ih =>
    simp only [serveAll, Option.bind_eq_bind, Option.bind_eq_some_iff, Prod.exists] at h
    obtain ⟨r, k, hc, rs, p, hcs, he⟩ := h
    cases he
    rw [← value_traced] at hc
    obtain ⟨moves, htraced⟩ := Traced.exists_of_value hc
    obtain ⟨log, hlog, hcalls, hresults, htaken⟩ := ih hcs
    refine ⟨⟨c, r.map c.handed, moves⟩ :: log, ?_, ?_, ?_, List.forall_mem_cons.2 ⟨?_, htaken⟩⟩
    · simp [traceAll, htraced, hlog]
    · rw [List.map_cons, hcalls]
    · rw [List.map_cons, hresults]
    · intro d ts hd hts
      dsimp only at hd hts
      subst hd
      cases r with
      | error e => cases hts
      | ok reply =>
        cases hts
        exact StreamCall.taken_traced htraced

variable {depth : Nat}

/-- What a call takes and leaves waiting is what waited and what was made meanwhile. -/
theorem makes (hm : m.Matching) {c : LexerCall} {r : Except LexError c.request.Reply}
    {moves : List Move}
    (h : c.traced (Handler.call (depth + 1)) bound m = some (r, moves, n)) :
    ∃ made, m.Makes made (c.listed moves) n ∧ taken moves ++ n.queue = m.queue ++ made := by
  cases c with
  | stream c =>
    have hbalanced := c.balances_traced _ bound h
    exact ⟨_, hm.of_reached hbalanced.reached, hbalanced.conserved⟩
  | push t =>
    obtain ⟨hpush, rfl⟩ := Traced.lift_eq_some_iff.1 h
    refine ⟨[], .push t hpush, ?_⟩
    rw [LexM.push_apply] at hpush
    cases hpush
    exact (List.append_nil _).symm
  | lex => exact ⟨_, hm.lex h⟩

theorem exists_makes (hm : m.Matching) {calls : List LexerCall} {log : List Entry}
    (h : traceAll (Handler.call (depth + 1)) bound calls m = some (log, n)) :
    ∃ made, m.Makes made (log.flatMap fun entry => entry.call.listed entry.moves) n ∧
      taken (log.flatMap (·.moves)) ++ n.queue = m.queue ++ made := by
  induction calls generalizing m log with
  | nil =>
    cases h
    exact ⟨[], .refl _, (List.append_nil _).symm⟩
  | cons c cs ih =>
    simp only [traceAll, Option.bind_eq_bind, Option.bind_eq_some_iff, Prod.exists] at h
    obtain ⟨r, moves, k, hc, entries, p, hcs, he⟩ := h
    cases he
    obtain ⟨first, hfirst, hqueue⟩ := makes hm hc
    obtain ⟨later, hlater, hend⟩ := ih (hfirst.matching hm) hcs
    refine ⟨first ++ later, hfirst.trans hlater, ?_⟩
    rw [List.flatMap_cons, Move.taken_append, List.append_assoc, hend, ← List.append_assoc, hqueue,
      List.append_assoc]

/-- Observers of tokens see them all, once and in order. Calls on a lexer of patterns where no
token waits, some of which may fail, have moves, with those of each call on the stream that
succeeds taking just what it hands over. Observers are then told in order of the tokens that were
made and of those that came to the list, and of each that was made first before it is placed, and
of errors, if they are observed. The tokens made are those taken so far and those that wait, and
those that came to the list are the ones behind the list at the start. -/
theorem observed_once (hm : m.Matching) {onError : Bool}
    (hhooks : m.lexer.options.hooks = ⟨true, true, true, onError⟩) (hqueue : m.queue = [])
    {calls : List LexerCall} {results : List (Except LexError (List Token))}
    (h : serveAll (Handler.call (depth + 1)) bound calls m = some (results, n)) :
    ∃ log tellings, traceAll (Handler.call (depth + 1)) bound calls m = some (log, n) ∧
      log.map (·.call) = calls ∧ log.map (·.result) = results ∧
      (∀ entry ∈ log, ∀ c ts, entry.call = .stream c → entry.result = .ok ts →
        taken entry.moves = ts) ∧
      n.journal.toList = m.journal.toList ++ events tellings ∧
      scans tellings = taken (log.flatMap (·.moves)) ++ n.queue ∧
      n.lexer.pass.tokens.toList = m.lexer.pass.tokens.toList ++ pushes tellings ∧
      pushes tellings = log.flatMap fun entry => entry.call.listed entry.moves := by
  obtain ⟨log, hlog, hcalls, hresults, htaken⟩ := exists_traceAll h
  obtain ⟨made, ⟨tellings, htellings, hmade, hlisted⟩, hconserved⟩ := exists_makes hm hlog
  have hheard : (events tellings).filter (·.isHeard m.lexer.options.hooks) = events tellings := by
    rw [List.filter_eq_self, hhooks]
    intro e _
    cases e <;> rfl
  refine ⟨log, tellings, hlog, hcalls, hresults, htaken, ?_, ?_, htellings.tokens, hlisted⟩
  · rw [htellings.journal, hheard]
  · rw [hmade, hconserved, hqueue, List.nil_append]

def watchedLetters : Machine :=
  ⟨{ (Machine.lettersOf "ab!").lexer with
    options := ⟨.token, none, ⟨true, true, true, false⟩⟩ }, #[]⟩

theorem matching_watchedLetters : watchedLetters.Matching :=
  ⟨(Machine.matching_lettersOf "ab!").captures, rfl⟩

/-- Looking at the first letter, taking it, adding a token of one's own, and lexing, which fails
behind the second letter. -/
theorem observed_once_letters :
    ∃ results n,
      serveAll (Handler.call 1) 3 [.stream .peek, .stream .next, .push (.plain "own" none), .lex]
        watchedLetters = some (results, n) ∧
      results.map (fun r => r.toOption.map (·.map (·.kind))) =
        [some [], some ["a"], some [], none] ∧
      ∃ (log : List Entry) (tellings : List Telling),
        n.journal.toList = events tellings ∧ n.journal.size = 6 ∧
        scans tellings = taken (log.flatMap (·.moves)) ++ n.queue ∧
        n.lexer.pass.tokens.toList = pushes tellings ∧
        n.lexer.pass.tokens.toList.map (·.kind) = ["own", "b"] ∧
        pushes tellings = log.flatMap fun entry => entry.call.listed entry.moves := by
  have hrun : (serveAll (Handler.call 1) 3
      [.stream .peek, .stream .next, .push (.plain "own" none), .lex] watchedLetters).map
        (fun (results, n) => (results.map fun r => r.toOption.map (·.map (·.kind)),
          n.journal.size, n.lexer.pass.tokens.toList.map (·.kind))) =
      some ([some [], some ["a"], some [], none], 6, ["own", "b"]) := by decide +kernel
  obtain ⟨⟨results, n⟩, hserve, hshown⟩ := Option.map_eq_some_iff.1 hrun
  obtain ⟨hkinds, hlater⟩ := Prod.mk.inj hshown
  obtain ⟨hsize, hlist⟩ := Prod.mk.inj hlater
  obtain ⟨log, tellings, -, -, -, -, hjournal, hscans, htokens, hlisted⟩ :=
    observed_once matching_watchedLetters rfl rfl hserve
  exact ⟨results, n, hserve, hkinds, log, tellings, hjournal, hsize, hscans, htokens, hlist,
    hlisted⟩

end LexerCall

end ModularLexer
