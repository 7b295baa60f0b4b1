import ModularLexer.Proofs.Registration
import ModularLexer.Proofs.Segmentation.Matching

/-!
Lexing with patterns, some of which drop what they match. The handlers are tried in rounds: a match
of a kind that is kept ends the round, and behind one that is dropped the round goes on with the
kinds that are left. What comes of all rounds is computed here from the patterns alone.
-/
namespace ModularLexer

namespace Segmentation

/-- The handler of a pattern: it makes a token, or drops it where its kind is one of those. -/
def handler (dropped : String → Bool) (kind : String) (p : Pattern) : Handler :=
  if dropped kind then .ofPatternWith kind p fun _ => return none else .ofPattern kind p

/-- Patterns with the kinds whose matches are dropped, and an input with its name. -/
structure Task where
  patterns : List (String × Pattern)
  dropped : String → Bool
  source : Option String
  input : Text

/-- What an attempt at a token comes to: its outcome, the text behind it and the text before it. -/
structure Turn where
  outcome : Except LexError (Option Token)
  before : Text
  rest : Text

def Turn.close (t : Turn) : Turn :=
  match t.outcome with
  | .ok none => if t.rest = [] then t else { t with outcome := .error (unmatched t.before t.rest) }
  | _ => t

@[simp] theorem Turn.rest_close (t : Turn) : t.close.rest = t.rest := by
  unfold close
  split
  · split <;> rfl
  · rfl

theorem Turn.rest_of_close {t : Turn} (h : t.close.outcome = .ok none) : t.rest = [] := by
  unfold close at h
  split at h
  · next hnone =>
    split at h
    · next hrest => exact hrest
    · cases h
  · next hsome => exact absurd h hsome

theorem Turn.outcome_close_eq_some_iff {t : Turn} {token : Token} :
    t.close.outcome = .ok (some token) ↔ t.outcome = .ok (some token) := by
  unfold close
  split
  · next h =>
    split <;> simp [h]
  · rfl

namespace Task

variable (T : Task)

def registry : Registry Handler := Registry.map (handler T.dropped) ⟨T.patterns⟩

def round : List (String × Pattern) → Text → Text → Turn
  | [], before, rest => ⟨.ok none, before, rest⟩
  | (kind, p) :: patterns, before, rest =>
    match verdict p rest with
    | .error e => ⟨.error e, before, rest⟩
    | .ok none => round patterns before rest
    | .ok (some groups) =>
      let passed := before ++ fullText groups
      let left := rest.drop (fullText groups).length
      if T.dropped kind then round patterns passed left
      else ⟨.ok (some (tokenAt T.source T.input before kind groups)), passed, left⟩

def turn (before rest : Text) : Turn :=
  if rest = [] then ⟨.ok none, before, rest⟩ else (T.round T.patterns before rest).close

variable {T} {kind : String} {p : Pattern} {patterns : List (String × Pattern)}
  {before rest : Text}

theorem round_of_error {e : LexError} (h : verdict p rest = .error e) :
    T.round ((kind, p) :: patterns) before rest = ⟨.error e, before, rest⟩ := by
  rw [round, h]

theorem round_of_none (h : verdict p rest = .ok none) :
    T.round ((kind, p) :: patterns) before rest = T.round patterns before rest := by
  rw [round, h]

theorem round_of_dropped {groups : Groups} (h : verdict p rest = .ok (some groups))
    (hkind : T.dropped kind = true) :
    T.round ((kind, p) :: patterns) before rest =
      T.round patterns (before ++ fullText groups) (rest.drop (fullText groups).length) := by
  rw [round, h]
  exact if_pos hkind

theorem round_of_kept {groups : Groups} (h : verdict p rest = .ok (some groups))
    (hkind : ¬T.dropped kind = true) :
    T.round ((kind, p) :: patterns) before rest =
      ⟨.ok (some (tokenAt T.source T.input before kind groups)), before ++ fullText groups,
        rest.drop (fullText groups).length⟩ := by
  rw [round, h]
  exact if_neg hkind

theorem round_append_of_silent {front : List (String × Pattern)} (h : Silent front rest) :
    T.round (front ++ patterns) before rest = T.round patterns before rest := by
  induction front with
  | nil => rfl
  | cons pattern front ih =>
    obtain ⟨kind, p⟩ := pattern
    rw [List.cons_append, round_of_none (h _ List.mem_cons_self)]
    exact ih fun pattern hmem => h pattern (List.mem_cons_of_mem _ hmem)

theorem round_of_firstMatch_error {e : LexError} (h : firstMatch patterns rest = .error e) :
    T.round patterns before rest = ⟨.error e, before, rest⟩ := by
  obtain ⟨front, kind, p, tail, rfl, hsilent, hv⟩ := exists_of_firstMatch_error h
  rw [round_append_of_silent hsilent, round_of_error hv]

theorem round_of_firstMatch_none (h : firstMatch patterns rest = .ok none) :
    T.round patterns before rest = ⟨.ok none, before, rest⟩ := by
  rw [← List.append_nil patterns, round_append_of_silent (silent_of_firstMatch h), round]

theorem round_of_firstMatch_kept {groups : Groups}
    (h : firstMatch patterns rest = .ok (some (kind, groups))) (hkind : ¬T.dropped kind = true) :
    T.round patterns before rest =
      ⟨.ok (some (tokenAt T.source T.input before kind groups)), before ++ fullText groups,
        rest.drop (fullText groups).length⟩ := by
  obtain ⟨front, p, tail, rfl, hsilent, hv⟩ := exists_of_firstMatch_match h
  rw [round_append_of_silent hsilent, round_of_kept hv hkind]

/-- A round that makes a token takes something of the rest. -/
theorem length_round_lt {t : Token} (h : (T.round patterns before rest).outcome = .ok (some t)) :
    (T.round patterns before rest).rest.length < rest.length := by
  induction patterns generalizing before rest with
  | nil => cases h
  | cons pattern patterns ih =>
    obtain ⟨kind, p⟩ := pattern
    rcases hv : verdict p rest with e | _ | groups
    · rw [round_of_error hv] at h
      cases h
    · rw [round_of_none hv] at h ⊢
      exact ih h
    · obtain ⟨hne, hstarts⟩ := of_verdict_eq_some hv
      have hlt := length_drop_lt hne hstarts
      by_cases hkind : T.dropped kind = true
      · rw [round_of_dropped hv hkind] at h ⊢
        exact Nat.lt_trans (ih h) hlt
      · rw [round_of_kept hv hkind]
        exact hlt

theorem length_turn_lt {t : Token} (h : (T.turn before rest).outcome = .ok (some t)) :
    (T.turn before rest).rest.length < rest.length := by
  unfold turn at h ⊢
  split at h
  · cases h
  · next hrest =>
    rw [if_neg hrest, Turn.rest_close]
    exact length_round_lt (Turn.outcome_close_eq_some_iff.1 h)

variable (T) in
/-- What all rounds make of the rest of the input behind a text. -/
def skim (before rest : Text) : Outcome :=
  match _ht : (T.turn before rest).outcome with
  | .error e => ⟨[], (T.turn before rest).rest, some e⟩
  | .ok none => ⟨[], (T.turn before rest).rest, none⟩
  | .ok (some t) => .cons t (skim (T.turn before rest).before (T.turn before rest).rest)
termination_by rest.length
decreasing_by exact length_turn_lt _ht

theorem skim_of_error {e : LexError} (h : (T.turn before rest).outcome = .error e) :
    T.skim before rest = ⟨[], (T.turn before rest).rest, some e⟩ := by
  rw [skim]
  split <;> simp_all

theorem skim_of_none (h : (T.turn before rest).outcome = .ok none) :
    T.skim before rest = ⟨[], (T.turn before rest).rest, none⟩ := by
  rw [skim]
  split <;> simp_all

theorem skim_of_token {t : Token} (h : (T.turn before rest).outcome = .ok (some t)) :
    T.skim before rest =
      .cons t (T.skim (T.turn before rest).before (T.turn before rest).rest) := by
  rw [skim]
  split <;> simp_all

/-- A machine on its way: behind a text of the input and before the rest, with these tokens on its
list and none waiting. -/
structure Reading (T : Task) (before rest : Text) (tokens : List Token) (m : Machine) : Prop where
  registry : m.lexer.registry = T.registry
  mode : m.lexer.options.mode = .token
  source : m.lexer.options.source = T.source
  quiet : m.lexer.options.hooks.onError = false
  input : m.lexer.pass.input = T.input
  rest : m.lexer.pass.rest = rest
  offset : m.lexer.pass.offset = before.byteLength
  position : m.lexer.pass.position = before.stop
  tokens : m.lexer.pass.tokens.toList = tokens
  queue : m.queue = []
  stack : m.lexer.pass.stack = []

variable {tokens : List Token} {m : Machine} (depth : Nat)

namespace Reading

/-- Only the lexer of a machine counts. -/
theorem of_lexer_eq {n : Machine} (hm : T.Reading before rest tokens m) (h : n.lexer = m.lexer) :
    T.Reading before rest tokens n := by
  obtain ⟨lexer, journal⟩ := n
  obtain rfl : lexer = m.lexer := h
  exact { hm with }

theorem past (taken after : Text) (hm : T.Reading before rest tokens m) :
    T.Reading (before ++ taken) after tokens (m.withPass (m.lexer.pass.past taken after)) :=
  { hm with
    rest := rfl
    offset := by
      rw [Text.byteLength_append, ← hm.offset]
      rfl
    position := by
      rw [Text.stop_append, ← hm.position]
      rfl }

theorem scan (kind : String) {groups : Groups} (hm : T.Reading before rest tokens m)
    (h : verdict p rest = .ok (some groups)) :
    ∃ n, LexM.scan p kind m =
        some (.ok (some (tokenAt T.source T.input before kind groups)), n) ∧
      T.Reading (before ++ fullText groups) (rest.drop (fullText groups).length) tokens n := by
  obtain ⟨-, after, rfl⟩ := of_verdict_eq_some h
  rw [← hm.rest] at h
  obtain ⟨n, hscan, hn⟩ := LexM.scan_of_match kind h hm.rest
  rw [List.drop_left]
  have hread := (hm.past (fullText groups) after).of_lexer_eq hn
  refine ⟨n, ?_, hread⟩
  have hstop : (m.lexer.pass.past (fullText groups) after).position =
      (before ++ fullText groups).stop := by
    rw [← hread.position, hn]
  rw [hscan, hm.input, hm.offset, hm.position, hm.source, hstop]
  rfl

theorem push (hm : T.Reading before rest tokens m) (t : Token) :
    ∃ n, LexM.push t m = some (.ok (), n) ∧ T.Reading before rest (tokens ++ [t]) n := by
  have hread : T.Reading before rest (tokens ++ [t]) (m.withPass (m.lexer.pass.push t)) :=
    { hm with
      tokens := by
        rw [← hm.tokens]
        exact Array.toList_push }
  refine ⟨_, LexM.push_apply t m, hread.of_lexer_eq ?_⟩
  rw [Machine.withPass, Machine.lexer_told]
  rfl

end Reading

/-- Calling the handler of a pattern scans it, and forgets the token of a dropped kind. -/
theorem call_handler :
    Handler.call (depth + 1) (handler T.dropped kind p) =
      if T.dropped kind then LexM.scan p kind >>= fun _ => Pure.pure none
      else LexM.scan p kind := by
  unfold handler
  split
  · rw [Handler.call_ofPatternWith]
    refine bind_congr fun t? => ?_
    cases t? <;> rfl
  · exact Handler.call_ofPattern depth kind p

theorem call_of_error (kind : String) {e : LexError} (hm : T.Reading before rest tokens m)
    (h : verdict p rest = .error e) :
    Handler.call (depth + 1) (handler T.dropped kind p) m = some (.error e, m) := by
  rw [← hm.rest] at h
  have hscan := LexM.scan_of_error kind h
  rw [call_handler]
  split
  · exact LexM.bind_of_error hscan
  · exact hscan

theorem call_of_none (kind : String) (hm : T.Reading before rest tokens m)
    (h : verdict p rest = .ok none) :
    Handler.call (depth + 1) (handler T.dropped kind p) m = some (.ok none, m) := by
  rw [← hm.rest] at h
  have hscan := LexM.scan_of_none kind h
  rw [call_handler]
  split
  · exact LexM.bind_of_ok hscan
  · exact hscan

/-- Trying the handlers from a place on is a round over the patterns from there on. -/
theorem tryHandlers_eq {i : Nat} (hm : T.Reading before rest tokens m)
    (hpatterns : T.patterns.drop i = patterns) :
    ∃ n, LexM.tryHandlers (Handler.call (depth + 1)) patterns.length i m =
        some ((T.round patterns before rest).outcome, n) ∧
      T.Reading (T.round patterns before rest).before (T.round patterns before rest).rest tokens
        n := by
  -- The patterns that are left fix the place; the machine moves on behind each match.
  induction patterns generalizing i m before rest with
  | nil => exact ⟨m, rfl, hm⟩
  | cons pattern patterns ih =>
    obtain ⟨kind, p⟩ := pattern
    have hplace : T.patterns[i]? = some (kind, p) := by
      have hhead := congrArg List.head? hpatterns
      rwa [List.head?_drop] at hhead
    have hentry : m.lexer.registry.entryAt? i = some (kind, handler T.dropped kind p) := by
      rw [hm.registry, registry, Registry.map, Registry.entryAt?, List.getElem?_map, hplace]
      rfl
    have hnext : T.patterns.drop (i + 1) = patterns := by
      have htail := congrArg List.tail hpatterns
      rwa [List.tail_drop] at htail
    rw [List.length_cons, LexM.tryHandlers_succ hentry]
    rcases hv : verdict p rest with e | _ | groups
    · have hcall := call_of_error depth kind hm hv
      rw [round_of_error hv, LexM.bind_of_error (LexM.runHandler_of_error hcall)]
      exact ⟨m, rfl, hm⟩
    · have hcall := call_of_none depth kind hm hv
      rw [round_of_none hv, LexM.bind_of_ok (LexM.runHandler_of_none hcall)]
      exact ih hm hnext
    · obtain ⟨n, hscan, hn⟩ := hm.scan kind hv
      by_cases hkind : T.dropped kind = true
      · have hcall : Handler.call (depth + 1) (handler T.dropped kind p) m =
            some (.ok none, n) := by
          rw [call_handler, if_pos hkind]
          exact LexM.bind_of_ok hscan
        rw [round_of_dropped hv hkind, LexM.bind_of_ok (LexM.runHandler_of_none hcall)]
        exact ih hn hnext
      · have hcall : Handler.call (depth + 1) (handler T.dropped kind p) m =
            some (.ok (some (tokenAt T.source T.input before kind groups)), n) := by
          rw [call_handler, if_neg hkind]
          exact hscan
        have hrun := LexM.runHandler_of_token hcall (by simp [tokenAt])
        rw [round_of_kept hv hkind]
        refine ⟨n, ?_, hn⟩
        exact LexM.bind_of_ok hrun

theorem advance_eq (hm : T.Reading before rest tokens m) :
    ∃ n, LexM.advance (Handler.call (depth + 1)) m = some ((T.turn before rest).outcome, n) ∧
      T.Reading (T.turn before rest).before (T.turn before rest).rest tokens n := by
  suffices hd : ∃ n, LexM.derive (Handler.call (depth + 1)) m =
      some ((T.turn before rest).outcome, n) ∧
        T.Reading (T.turn before rest).before (T.turn before rest).rest tokens n by
    obtain ⟨n, hd, hn⟩ := hd
    exact ⟨n, LexM.advance_of_unobserved hd hn.quiet, hn⟩
  unfold turn
  by_cases hrest : rest = []
  · rw [if_pos hrest]
    exact ⟨m, LexM.derive_of_rest_nil (hm.rest.trans hrest), hm⟩
  · rw [if_neg hrest]
    have hleft : m.lexer.pass.rest ≠ [] := by rw [hm.rest]; exact hrest
    have hsize : m.lexer.registry.size = T.patterns.length := by
      rw [hm.registry, registry, Registry.map, Registry.size, List.length_map]
    have hall : T.patterns.drop 0 = T.patterns := List.drop_zero
    obtain ⟨n, htry, hn⟩ := tryHandlers_eq depth hm hall
    rw [LexM.derive_of_token hleft hm.mode, hsize]
    unfold Turn.close
    rcases ho : (T.round T.patterns before rest).outcome with e | _ | t
    · rw [ho] at htry
      rw [LexM.bind_of_error htry]
      exact ⟨n, by rw [ho], hn⟩
    · rw [ho] at htry
      rw [LexM.bind_of_ok htry]
      dsimp only
      rw [LexM.bind_of_ok (LexM.pass_apply n)]
      by_cases hleft : (T.round T.patterns before rest).rest = []
      · rw [if_pos hleft, if_pos (List.isEmpty_iff.2 (hn.rest.trans hleft))]
        exact ⟨n, by rw [ho]; rfl, hn⟩
      · have hempty : ¬n.lexer.pass.rest.isEmpty = true := by
          rw [List.isEmpty_iff, hn.rest]
          exact hleft
        rw [if_neg hleft, if_neg hempty]
        refine ⟨n, ?_, hn⟩
        rw [LexM.throw_apply, Pass.unmatched, hn.rest, hn.position]
        rfl
    · rw [ho] at htry
      rw [LexM.bind_of_ok htry]
      exact ⟨n, by rw [ho]; rfl, hn⟩

/-- A turn without a token and without an error is at the end. -/
theorem rest_turn (h : (T.turn before rest).outcome = .ok none) :
    (T.turn before rest).rest = [] := by
  unfold turn at h ⊢
  by_cases hrest : rest = []
  · rw [if_pos hrest]
    exact hrest
  · rw [if_neg hrest] at h ⊢
    rw [Turn.rest_close]
    exact Turn.rest_of_close h

theorem rest_skim (h : (T.skim before rest).failure = none) : (T.skim before rest).rest = [] := by
  fun_induction T.skim before rest with
  | case1 before rest e ht => cases h
  | case2 before rest ht => exact rest_turn ht
  | case3 before rest t ht ih => exact ih h

/-- Moving all tokens to the list is skimming the rest. -/
theorem pushAll_eq {bound : Nat} (hm : T.Reading before rest tokens m)
    (hbound : rest.length < bound) :
    ∃ passed n, LexM.pushAll (Handler.call (depth + 1)) bound m =
        some ((T.skim before rest).result.map fun _ => (), n) ∧
      T.Reading passed (T.skim before rest).rest (tokens ++ (T.skim before rest).tokens) n := by
  induction bound generalizing before rest tokens m with
  | zero => cases hbound
  | succ bound ih =>
    obtain ⟨n, hadvance, hn⟩ := advance_eq depth hm
    rw [← LexM.next_of_queue_nil hm.queue] at hadvance
    unfold LexM.pushAll
    rcases ho : (T.turn before rest).outcome with e | _ | t
    · rw [ho] at hadvance
      rw [LexM.bind_of_error hadvance, skim_of_error ho]
      exact ⟨_, n, rfl, by simpa using hn⟩
    · rw [ho] at hadvance
      rw [LexM.bind_of_ok hadvance, skim_of_none ho]
      exact ⟨_, n, rfl, by simpa using hn⟩
    · rw [ho] at hadvance
      rw [LexM.bind_of_ok hadvance, skim_of_token ho]
      dsimp only
      obtain ⟨k, hpush, hk⟩ := hn.push t
      rw [LexM.bind_of_ok hpush]
      have hlt := length_turn_lt ho
      obtain ⟨passed, k', hall, hk'⟩ := ih hk (by omega)
      refine ⟨passed, k', ?_, ?_⟩
      · rw [hall, Outcome.result_cons]
        cases Outcome.result _ <;> rfl
      · simpa [Outcome.cons] using hk'

theorem lex_eq {bound : Nat} (hm : T.Reading before rest tokens m) (hbound : rest.length < bound) :
    ∃ passed n, LexM.lex (Handler.call (depth + 1)) bound m =
        some ((T.skim before rest).result.map (tokens ++ ·), n) ∧
      T.Reading passed (T.skim before rest).rest (tokens ++ (T.skim before rest).tokens) n := by
  obtain ⟨passed, n, hall, hn⟩ := pushAll_eq depth hm hbound
  refine ⟨passed, n, ?_, hn⟩
  unfold LexM.lex
  cases hf : (T.skim before rest).failure with
  | some e =>
    have hresult : (T.skim before rest).result = .error e := by rw [Outcome.result, hf]
    rw [hresult] at hall ⊢
    exact LexM.bind_of_error hall
  | none =>
    have hresult : (T.skim before rest).result = .ok (T.skim before rest).tokens := by
      rw [Outcome.result, hf]
    have hrest : n.lexer.pass.rest = [] := hn.rest.trans (rest_skim hf)
    have hnothing : n.lexer.pass.incomplete? = none := by
      rw [Pass.incomplete?, hn.stack, hrest]
      rfl
    have hfinish : LexM.finish n = some (.ok (), n) := by
      unfold LexM.finish
      rw [LexM.bind_of_ok (LexM.pass_apply n), hnothing]
      rfl
    rw [hresult] at hall ⊢
    rw [LexM.bind_of_ok hall, LexM.bind_of_ok (LexM.pass_apply n), hrest]
    simp only [List.isEmpty_nil, ↓reduceIte]
    rw [LexM.bind_of_ok hfinish, LexM.bind_of_ok (LexM.pass_apply n)]
    show some (Except.ok n.lexer.pass.tokens.toList, n) = _
    rw [hn.tokens]
    rfl

/-- Starting over on the input and lexing it is skimming it. -/
theorem tokenize_eq {bound : Nat} (hregistry : m.lexer.registry = T.registry)
    (hmode : m.lexer.options.mode = .token) (hsource : m.lexer.options.source = T.source)
    (hquiet : m.lexer.options.hooks.onError = false) (hbound : T.input.length < bound) :
    ∃ passed n, LexM.tokenize (Handler.call (depth + 1)) bound T.input m =
        some ((T.skim [] T.input).result, n) ∧
      T.Reading passed (T.skim [] T.input).rest (T.skim [] T.input).tokens n := by
  have hm : T.Reading [] T.input [] (m.withPass (.start T.input)) :=
    { registry := hregistry
      mode := hmode
      source := hsource
      quiet := hquiet
      input := rfl
      rest := rfl
      offset := rfl
      position := rfl
      tokens := rfl
      queue := rfl
      stack := rfl }
  obtain ⟨passed, n, hlex, hn⟩ := lex_eq depth hm hbound
  refine ⟨passed, n, ?_, hn⟩
  have hinit : LexM.init T.input m = some (.ok (), m.withPass (.start T.input)) := rfl
  unfold LexM.tokenize
  rw [LexM.bind_of_ok hinit, hlex]
  cases Outcome.result _ <;> rfl

end Task

end Segmentation

end ModularLexer
