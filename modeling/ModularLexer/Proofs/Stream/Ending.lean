import ModularLexer.Proofs.Frame
import ModularLexer.Proofs.Stream.Calls

/-!
The end of the stream. Where there is no next token all input is taken, and the tokens that still
wait are those that handlers left while they made none. Lexing to the end misses just these.
-/
namespace ModularLexer

open LexM (Within)

namespace LexM

variable {call : Handler → LexM (Option Token)} {m n : Machine}

/-- Handlers tried in order from a place on, none of which makes a token. -/
inductive Declining (call : Handler → LexM (Option Token)) : Nat → Machine → Machine → Prop
  | done (i : Nat) (m : Machine) : Declining call i m m
  | step {i : Nat} {m k n : Machine} {kind : String} {handler : Handler} :
    m.lexer.registry.entryAt? i = some (kind, handler) →
    runHandler call kind handler m = some (.ok none, k) →
    Declining call (i + 1) k n → Declining call i m n

theorem declining_of_tryHandlers {count i : Nat}
    (h : tryHandlers call count i m = some (.ok none, n)) : Declining call i m n := by
  induction count generalizing i m with
  | zero =>
    cases h
    exact .done i _
  | succ count ih =>
    rcases he : Registry.entryAt? _ i with _ | ⟨kind, handler⟩
    · rw [tryHandlers_of_none he] at h
      cases h
      exact .done i _
    · rw [tryHandlers_succ he] at h
      rcases bind_eq_some_iff.1 h with ⟨t?, k, hk, hrest⟩ | ⟨e, -, hne⟩
      · cases t? with
        | none => exact .step he hk (ih hrest)
        | some t => cases hrest
      · cases hne

/-- Where no token is derived all input is taken, and every handler that was tried made none. -/
theorem of_derive_eq_none (h : derive call m = some (.ok none, n)) :
    n.lexer.pass.rest = [] ∧ Declining call 0 m n := by
  rcases hrest : m.lexer.pass.rest with _ | ⟨c, rest⟩
  · rw [derive_of_rest_nil hrest] at h
    cases h
    exact ⟨hrest, .done 0 m⟩
  · cases hmode : m.lexer.options.mode with
    | character =>
      rw [derive_of_character hrest hmode] at h
      rcases bind_eq_some_iff.1 h with ⟨t, k, -, hk⟩ | ⟨e, -, hne⟩
      · cases hk
      · cases hne
    | token =>
      rw [derive_of_token (by simp [hrest]) hmode] at h
      rcases bind_eq_some_iff.1 h with ⟨t?, k, hk, hlast⟩ | ⟨e, -, hne⟩
      · cases t? with
        | some t => cases hlast
        | none =>
          dsimp only at hlast
          rw [bind_of_ok (pass_apply k)] at hlast
          split at hlast
          · rename_i hempty
            cases hlast
            exact ⟨List.isEmpty_iff.1 hempty, declining_of_tryHandlers hk⟩
          · cases hlast
      · cases hne

theorem options_next {depth : Nat} {r : Except LexError (Option Token)}
    (h : next (Handler.call depth) m = some (r, n)) : n.lexer.options = m.lexer.options :=
  (Within.next (D := .all) .options (fun _ => Handler.within_call .options depth)
    m.obeys_all h).1

/-- There is no next token only where none waits and, without an observer of errors, none is
derived. -/
theorem of_next_eq_none {depth : Nat} (hm : m.lexer.options.hooks.onError = false)
    (h : next (Handler.call depth) m = some (.ok none, n)) :
    m.queue = [] ∧ n.lexer.pass.rest = [] ∧ Declining (Handler.call depth) 0 m n := by
  cases hq : m.queue with
  | cons t queue =>
    rw [next_of_queue_cons hq] at h
    cases h
  | nil =>
    have hquiet : ∀ e k, derive (Handler.call depth) m = some (.error e, k) →
        k.lexer.options.hooks.onError = false := by
      intro e k hk
      rw [(Within.derive (D := .all) .options (fun _ => Handler.within_call .options depth)
        m.obeys_all hk).1]
      exact hm
    rw [next_of_queue_nil hq, advance_apply hquiet] at h
    exact ⟨rfl, of_derive_eq_none h⟩

/-- Moving all tokens to the list ends where there is no next one. -/
theorem exists_next_eq_none {depth bound : Nat} (hm : m.lexer.options.hooks.onError = false)
    (h : pushAll (Handler.call depth) bound m = some (.ok (), n)) :
    ∃ k, k.lexer.options.hooks.onError = false ∧
      next (Handler.call depth) k = some (.ok none, n) := by
  induction bound generalizing m with
  | zero => cases h
  | succ bound ih =>
    rcases bind_eq_some_iff.1 h with ⟨t?, k, hk, hrest⟩ | ⟨e, -, hne⟩
    · cases t? with
      | none =>
        cases hrest
        exact ⟨m, hm, hk⟩
      | some t =>
        rcases bind_eq_some_iff.1 hrest with ⟨_, k', hpush, hlast⟩ | ⟨e, -, hne⟩
        · have hnext := options_next hk
          have hpushed := (Within.push (D := .all) .options t k.obeys_all hpush).1
          rw [← hnext, ← hpushed] at hm
          exact ih hm hlast
        · cases hne
    · cases hne

/-- Lexing that succeeds leaves no input and nothing open, and at last there was no next token. -/
theorem of_lex_eq_ok {depth bound : Nat} {ts : List Token}
    (hm : m.lexer.options.hooks.onError = false)
    (h : lex (Handler.call depth) bound m = some (.ok ts, n)) :
    ts = n.lexer.pass.tokens.toList ∧ n.lexer.pass.stack = [] ∧
      pushAll (Handler.call depth) bound m = some (.ok (), n) ∧
      ∃ k, k.lexer.options.hooks.onError = false ∧
        next (Handler.call depth) k = some (.ok none, n) := by
  rcases bind_eq_some_iff.1 h with ⟨_, n', hp, htail⟩ | ⟨e, -, hne⟩
  · obtain ⟨k, hk, hnone⟩ := exists_next_eq_none hm hp
    obtain ⟨-, hrest, -⟩ := of_next_eq_none hk hnone
    have hquiet : n'.lexer.options.hooks.onError = false := by
      rw [options_next hnone]
      exact hk
    rw [bind_of_ok (pass_apply n'), hrest] at htail
    rcases bind_eq_some_iff.1 htail with ⟨_, n'', hfinish, hlast⟩ | ⟨e, -, hne⟩
    · cases hlast
      unfold finish at hfinish
      rw [bind_of_ok (pass_apply n')] at hfinish
      cases hstack : n'.lexer.pass.stack with
      | nil =>
        have hnothing : n'.lexer.pass.incomplete? = none := by
          simp [Pass.incomplete?, hstack, hrest]
        rw [hnothing] at hfinish
        cases hfinish
        exact ⟨rfl, hstack, hp, k, hk, hnone⟩
      | cons t stack =>
        obtain ⟨e, he⟩ : ∃ e, n'.lexer.pass.incomplete? = some e := by
          simp [Pass.incomplete?, hstack]
        rw [he] at hfinish
        dsimp only at hfinish
        rw [report_apply hquiet] at hfinish
        cases hfinish
    · cases hne
  · cases hne

end LexM

def Traced.Conserves {α : Type} (x : Traced α) : Prop :=
  ∀ ⦃m r moves n⦄, x m = some (r, moves, n) →
    Move.taken moves ++ n.queue = m.queue ++ (Move.draws moves).flatMap Draw.tokens

namespace Traced.Conserves

variable {α β : Type} {call : Handler → LexM (Option Token)}

theorem pure (a : α) : Conserves (Pure.pure a : Traced α) := by
  intro m r moves n h
  cases h
  simp

theorem bind {x : Traced α} {f : α → Traced β} (hx : Conserves x) (hf : ∀ a, Conserves (f a)) :
    Conserves (x >>= f) := by
  intro m r moves n h
  rcases bind_eq_some_iff.1 h with ⟨a, first, k, more, ha, hr, rfl⟩ | ⟨e, he, -⟩
  · exact Move.conserved_append (hx ha) (hf a hr)
  · exact hx he

theorem lift {x : LexM α} (hx : ∀ ⦃m r n⦄, x m = some (r, n) → n.queue = m.queue) :
    Conserves (Traced.lift x) := by
  intro m r moves n h
  obtain ⟨hl, rfl⟩ := lift_eq_some_iff.1 h
  simp [hx hl]

theorem next : Conserves (Traced.next call) := by
  intro m r moves n h
  exact (Balances.next h).conserved

theorem push (t : Token) : Conserves (Traced.lift (LexM.push t)) := by
  apply lift
  intro m r n h
  rw [LexM.push_apply] at h
  cases h
  rfl

theorem pushAll (bound : Nat) : Conserves (Traced.pushAll call bound) := by
  induction bound with
  | zero =>
    intro m r moves n h
    cases h
  | succ bound ih =>
    apply next.bind
    intro t?
    cases t? with
    | none => exact pure ()
    | some t => exact (push t).bind fun _ => ih

end Traced.Conserves

/-- Each token that is taken is put behind the list, whatever handlers that never start over put
there meanwhile. -/
theorem Traced.sublist_pushAll {D : Discipline} {depth bound : Nat} {m n : Machine}
    {moves : List Move}
    (hstart : ∀ input, ¬D.allowed (.init input) ∧ ¬D.allowed (.tokenize input)) (hm : m.Obeys D)
    (h : Traced.pushAll (Handler.call depth) bound m = some (.ok (), moves, n)) :
    (m.lexer.pass.tokens.toList ++ Move.taken moves).Sublist n.lexer.pass.tokens.toList := by
  induction bound generalizing m moves with
  | zero => cases h
  | succ bound ih =>
    obtain ⟨t?, first, k, more, hn, hrest, rfl⟩ := bind_eq_ok_iff.1 h
    have hvalue := value_of_apply hn
    rw [value_next] at hvalue
    have hrule := FrameRule.tokens hstart
    obtain ⟨hgrow, hk⟩ := Within.next hrule (fun _ => Handler.within_call hrule depth) hm hvalue
    have ht := taken_next hn
    cases t? with
    | none =>
      cases hrest
      rw [Move.taken_append, ht, Move.taken_nil, Option.toList_none, List.append_nil,
        List.append_nil]
      exact hgrow.sublist
    | some t =>
      obtain ⟨_, second, k', rest, htraced, hlast, rfl⟩ := bind_eq_ok_iff.1 hrest
      obtain ⟨hpush, rfl⟩ := lift_eq_some_iff.1 htraced
      rw [LexM.push_apply] at hpush
      cases hpush
      have hsub : ((k.lexer.pass.tokens.push t).toList ++ Move.taken rest).Sublist
          n.lexer.pass.tokens.toList :=
        ih (by simpa [Machine.Obeys, Machine.withPass] using hk) hlast
      rw [Array.toList_push] at hsub
      rw [Move.taken_append, Move.taken_append, ht, Move.taken_nil, List.nil_append,
        Option.toList_some, ← List.append_assoc]
      have hstep : (m.lexer.pass.tokens.toList ++ [t]).Sublist
          (k.lexer.pass.tokens.toList ++ [t]) := hgrow.sublist.append (.refl [t])
      exact (hstep.append (.refl _)).trans hsub

/-- How lexing ends: all input is taken, nothing is open, and the handlers that were tried last made
no token. The moves bring tokens to the list, all that waited or came to wait but for those that
still wait; handlers that never start over leave them there. -/
structure Ends (depth bound : Nat) (m : Machine) (tokens : List Token) (n : Machine) : Prop where
  rest : n.lexer.pass.rest = []
  stack : n.lexer.pass.stack = []
  declined : ∃ k, k.queue = [] ∧ LexM.Declining (Handler.call depth) 0 k n
  moved : ∃ moves, Traced.pushAll (Handler.call depth) bound m = some (.ok (), moves, n) ∧
    Move.taken moves ++ n.queue = m.queue ++ (Move.draws moves).flatMap Draw.tokens ∧
    (∀ D : Discipline, (∀ input, ¬D.allowed (.init input) ∧ ¬D.allowed (.tokenize input)) →
      m.Obeys D → (m.lexer.pass.tokens.toList ++ Move.taken moves).Sublist tokens) ∧
    (n.lexer.pass.atEnd ↔ Move.taken moves = m.queue ++ (Move.draws moves).flatMap Draw.tokens)

theorem Machine.atEnd_iff {m : Machine} (h : m.lexer.pass.rest = []) :
    m.lexer.pass.atEnd ↔ m.queue = [] := by
  simp [Pass.atEnd, Machine.queue, h]

theorem Ends.of_lex {depth bound : Nat} {m n : Machine} {tokens : List Token}
    (hm : m.lexer.options.hooks.onError = false)
    (h : LexM.lex (Handler.call depth) bound m = some (.ok tokens, n)) :
    Ends depth bound m tokens n := by
  obtain ⟨rfl, hstack, hpush, k, hk, hnone⟩ := LexM.of_lex_eq_ok hm h
  obtain ⟨hqueue, hrest, hdeclined⟩ := LexM.of_next_eq_none hk hnone
  rw [← Traced.value_pushAll] at hpush
  obtain ⟨moves, hmoves⟩ := Traced.exists_of_value hpush
  have hconserved := Traced.Conserves.pushAll bound hmoves
  refine ⟨hrest, hstack, ⟨k, hqueue, hdeclined⟩, moves, hmoves, hconserved, ?_, ?_⟩
  · intro D hstart hobeys
    exact Traced.sublist_pushAll hstart hobeys hmoves
  · rw [Machine.atEnd_iff hrest, ← hconserved]
    simp

/-- Without an observer of errors there is no next token only where all input is taken; the lexer is
then at its end exactly if the handlers that were tried last, none of which made a token, left none
waiting. Lexing to the end misses exactly the tokens that such handlers left. -/
theorem atEnd_iff_none_left {depth bound : Nat} {m : Machine}
    (hm : m.lexer.options.hooks.onError = false) :
    (∀ n, LexM.next (Handler.call depth) m = some (.ok none, n) →
      m.queue = [] ∧ n.lexer.pass.rest = [] ∧ LexM.Declining (Handler.call depth) 0 m n ∧
        (n.lexer.pass.atEnd ↔ n.queue = [])) ∧
    (∀ tokens n, LexM.lex (Handler.call depth) bound m = some (.ok tokens, n) →
      Ends depth bound m tokens n) ∧
    (∀ input tokens n,
      LexM.tokenize (Handler.call depth) bound input m = some (.ok tokens, n) →
        Ends depth bound (m.withPass (.start input)) tokens n) := by
  refine ⟨?_, ?_, ?_⟩
  · intro n h
    obtain ⟨hqueue, hrest, hdeclined⟩ := LexM.of_next_eq_none hm h
    exact ⟨hqueue, hrest, hdeclined, Machine.atEnd_iff hrest⟩
  · intro tokens n h
    exact Ends.of_lex hm h
  · intro input tokens n h
    exact Ends.of_lex hm h

/-- Two letters: the first looks ahead before it is made, the second is dropped. -/
def keptAndDropped : Machine :=
  .fresh "b" [
    ("a", .ofPatternWith "a" (.letter 'a') fun t => do
      let _ ← Program.request (.lookahead 1)
      return some t),
    ("b", .ofPatternWith "b" (.letter 'b') fun _ => return none)]

theorem atEnd_past_dropped :
    keptAndDropped.lexer.options.hooks.onError = false ∧
      (∃ n, LexM.next (Handler.call 3) keptAndDropped = some (.ok none, n) ∧
        keptAndDropped.queue = [] ∧ n.lexer.pass.rest = [] ∧
        LexM.Declining (Handler.call 3) 0 keptAndDropped n ∧
        (n.lexer.pass.atEnd ↔ n.queue = [])) ∧
      (∃ tokens n, LexM.lex (Handler.call 3) 3 keptAndDropped = some (.ok tokens, n) ∧
        Ends 3 3 keptAndDropped tokens n) ∧
      ∃ tokens n, LexM.tokenize (Handler.call 3) 3 "ab".toList keptAndDropped =
          some (.ok tokens, n) ∧
        tokens.map (·.kind) = ["a"] ∧ n.lexer.pass.atEnd = true ∧
        Ends 3 3 (keptAndDropped.withPass (.start "ab".toList)) tokens n := by
  have hnext : LexM.shown (LexM.next (Handler.call 3)) keptAndDropped id (fun _ => ()) =
      some (some none, ()) := by decide +kernel
  have hlex : LexM.shown (LexM.lex (Handler.call 3) 3) keptAndDropped id (fun _ => ()) =
      some (some [], ()) := by decide +kernel
  have htokenize : LexM.shown (LexM.tokenize (Handler.call 3) 3 "ab".toList) keptAndDropped
      (·.map (·.kind)) (·.lexer.pass.atEnd) = some (some ["a"], true) := by decide +kernel
  obtain ⟨_, n, hnext, rfl, -⟩ := LexM.exists_of_shown hnext
  obtain ⟨_, k, hlex, rfl, -⟩ := LexM.exists_of_shown hlex
  obtain ⟨tokens, j, htokenize, hkinds, hend⟩ := LexM.exists_of_shown htokenize
  have h := @atEnd_iff_none_left 3 3 keptAndDropped rfl
  exact ⟨rfl, ⟨n, hnext, h.1 n hnext⟩, ⟨_, k, hlex, h.2.1 _ k hlex⟩, tokens, j, htokenize, hkinds,
    hend, h.2.2 _ tokens j htokenize⟩

def peekedAndDropped : Machine :=
  .fresh "ab" [
    ("a", .ofPatternWith "a" (.letter 'a') fun _ => do
      let _ ← Program.request (.lookahead 1)
      return none),
    ("b", .ofPattern "b" (.letter 'b'))]

/-- There may be no next token while one waits, and lexing then misses it. -/
theorem next_none_before_end :
    peekedAndDropped.lexer.options.hooks.onError = false ∧
      (∃ n, LexM.next (Handler.call 3) peekedAndDropped = some (.ok none, n) ∧
        ¬n.lexer.pass.atEnd) ∧
      ∃ n, LexM.lex (Handler.call 3) 3 peekedAndDropped = some (.ok [], n) ∧
        n.queue.map (·.kind) = ["b"] := by
  have hnext : LexM.shown (LexM.next (Handler.call 3)) peekedAndDropped id (·.lexer.pass.atEnd) =
      some (some none, false) := by decide +kernel
  have hlex : LexM.shown (LexM.lex (Handler.call 3) 3) peekedAndDropped id
      (·.queue.map (·.kind)) = some (some [], ["b"]) := by decide +kernel
  obtain ⟨_, n, hnext, rfl, hend⟩ := LexM.exists_of_shown hnext
  obtain ⟨_, k, hlex, rfl, hqueue⟩ := LexM.exists_of_shown hlex
  refine ⟨rfl, ⟨n, hnext, ?_⟩, k, hlex, hqueue⟩
  simp [hend]

end ModularLexer
