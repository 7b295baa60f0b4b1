import ModularLexer.Proofs.Stream.Completion
import ModularLexer.Proofs.Stream.Lookahead

/-!
Skipping asks about each token once, takes just the tokens that pass, and stops at one that does not
or at the end of the input. The test may keep a state from one question to the next.
-/
namespace ModularLexer

def StatefulTest (σ : Type) : Type := σ → Token → Bool × σ

namespace StatefulTest

variable {σ : Type} (test : StatefulTest σ)

def ofPredicate (accepts : Token → Bool) : StatefulTest Unit := fun _ t => (accepts t, ())

/-- A test that counts the tokens it is asked about and passes so many. -/
def upTo (limit : Nat) : StatefulTest Nat := fun count _ => (decide (count < limit), count + 1)

/-- The state after questions about tokens, the latest first. -/
def after (s : σ) (asked : List Token) : σ := asked.foldr (fun t s => (test s t).2) s

def answer (s : σ) (asked : List Token) (t : Token) : Bool := (test (test.after s asked) t).1

def transcript : σ → List Token → List (Token × Bool)
  | _, [] => []
  | s, t :: ts => (t, (test s t).1) :: transcript (test s t).2 ts

theorem transcript_ofPredicate (accepts : Token → Bool) (ts : List Token) :
    (ofPredicate accepts).transcript () ts = ts.map fun t => (t, accepts t) := by
  induction ts with
  | nil => rfl
  | cons t ts ih => rw [transcript, ih, List.map_cons]; rfl

end StatefulTest

namespace Move

def tests (moves : List Move) : List (Token × Bool) :=
  moves.filterMap fun
    | tested t accepted => some (t, accepted)
    | _ => none

@[simp] theorem tests_nil : tests [] = [] := rfl

@[simp] theorem tests_append (a b : List Move) : tests (a ++ b) = tests a ++ tests b :=
  List.filterMap_append ..

@[simp] theorem tests_tested (t : Token) (accepted : Bool) (moves : List Move) :
    tests (tested t accepted :: moves) = (t, accepted) :: tests moves := rfl

@[simp] theorem tests_took (t : Token) (moves : List Move) :
    tests (took t :: moves) = tests moves := rfl

end Move

namespace Traced

variable {σ : Type} {call : Handler → LexM (Option Token)} {bound : Nat} {m n : Machine}
  {moves : List Move}

theorem tests_lookahead {count : Nat} {r : Except LexError (Option Token)}
    (h : lookahead call count m = some (r, moves, n)) : Move.tests moves = [] := by
  apply lookahead_rec (P := fun _ moves _ => Move.tests moves = []) (fun _ => rfl) ?_
    (fun _ => rfl) h
  intro m n k a b ha hb
  rw [Move.tests_append, ha, hb, List.append_nil]

/-- Skipping with a test that keeps a state, handed on from each question to the next. -/
def skipAsking (call : Handler → LexM (Option Token)) (test : StatefulTest σ) :
    Nat → σ → List Token → Traced (List Token)
  | 0, _, _ => lift LexM.timeout
  | bound + 1, s, taken => do
    match ← lookahead call 1 with
    | none => return taken.reverse
    | some t =>
      let (accepted, s) := test s t
      move (.tested t accepted)
      if accepted then
        match ← next call with
        | some t => skipAsking call test bound s (t :: taken)
        | none => skipAsking call test bound s taken
      else return taken.reverse

/-- Where a token is to come skipping asks about it, and takes just that one if it passes. -/
theorem skipAsking_succ {test : StatefulTest σ} {s : σ} {taken : List Token} {t : Token}
    {queue : List Token} (h : lookahead call 1 m = some (.ok (some t), moves, n))
    (hqueue : n.queue = t :: queue) :
    skipAsking call test (bound + 1) s taken m =
      if (test s t).1 then
        (skipAsking call test bound (test s t).2 (t :: taken) (n.withQueue queue)).map
          fun (r, more, k) => (r, moves ++ .tested t true :: .took t :: more, k)
      else some (.ok taken.reverse, moves ++ [.tested t false], n) := by
  rw [skipAsking, bind_apply, h]
  rcases htest : test s t with ⟨_ | _, s'⟩
  · simp only [htest]
    rfl
  · simp only [htest, if_true]
    rw [bind_apply]
    dsimp only [move]
    rw [bind_apply, next_of_queue_cons hqueue]
    simp only [Option.map_map]
    rfl

/-- The tokens that were taken tell the state of the test, so skipping need not hand it on. -/
theorem skipWhileOnto_answer (test : StatefulTest σ) (s : σ) (taken : List Token) :
    skipWhileOnto call (test.answer s) bound taken m =
      skipAsking call test bound (test.after s taken) taken m := by
  induction bound generalizing taken m with
  | zero => rfl
  | succ bound ih =>
    by_cases hcomes : ∃ t moves n, lookahead call 1 m = some (.ok (some t), moves, n)
    · obtain ⟨t, moves, n, hl⟩ := hcomes
      obtain ⟨queue, hqueue⟩ := queue_of_lookahead_one hl
      have hafter : test.after s (t :: taken) = (test (test.after s taken) t).2 := rfl
      rw [skipWhileOnto_succ hl hqueue, skipAsking_succ hl hqueue, ih, hafter]
      rfl
    · -- Without a token to come nothing is asked.
      show (lookahead call 1 >>= _) m = (lookahead call 1 >>= _) m
      rw [bind_apply, bind_apply]
      rcases hl : lookahead call 1 m with _ | ⟨_ | _ | t, moves, n⟩
      · rfl
      · rfl
      · rfl
      · exact absurd ⟨t, moves, n, hl⟩ hcomes

end Traced

/-- Where skipping stops: at a token that was turned down and waits, or behind a next token that was
sought and not found, which leaves none waiting. -/
def Stopped (call : Handler → LexM (Option Token)) (m n : Machine) : Option Token → Prop
  | some t => ∃ queue, n.queue = t :: queue
  | none => n.queue = [] ∧
    ∃ moves k, Balanced call m moves k ∧ LexM.next call k = some (.ok none, n)

theorem Stopped.of_balanced {call : Handler → LexM (Option Token)} {m k n : Machine}
    {moves : List Move} (hmoves : Balanced call m moves k) {refused? : Option Token}
    (h : Stopped call k n refused?) : Stopped call m n refused? := by
  cases refused? with
  | some t => exact h
  | none =>
    obtain ⟨hqueue, later, p, hlater, hnext⟩ := h
    exact ⟨hqueue, moves ++ later, p, hmoves.trans hlater, hnext⟩

/-- Skipping takes tokens that pass the test, and may have turned down the one behind them. No other
token was asked about and none of them twice. -/
structure Skips {σ : Type} (call : Handler → LexM (Option Token)) (test : StatefulTest σ) (s : σ)
    (m : Machine) (passed : List Token) (refused? : Option Token) (moves : List Move)
    (n : Machine) : Prop where
  tests : Move.tests moves = passed.map (·, true) ++ refused?.toList.map (·, false)
  transcript : test.transcript s (passed ++ refused?.toList) = Move.tests moves
  stopped : Stopped call m n refused?

namespace Skips

variable {σ : Type} {call : Handler → LexM (Option Token)} {test : StatefulTest σ} {s : σ}
  {m n k : Machine} {first moves : List Move} {t : Token} {queue : List Token}

theorem of_exhausted (h : Traced.lookahead call 1 m = some (.ok none, moves, n)) :
    Skips call test s m [] none moves n := by
  have hpeek := Traced.value_of_apply h
  rw [Traced.value_lookahead] at hpeek
  obtain ⟨hnext, hqueue⟩ := LexM.of_peek_eq_none hpeek
  have htests := Traced.tests_lookahead h
  exact ⟨htests, htests.symm, hqueue, [], m, .refl call m, hnext⟩

theorem of_refused (h : Traced.lookahead call 1 m = some (.ok (some t), moves, n))
    (hqueue : n.queue = t :: queue) (htest : (test s t).1 = false) :
    Skips call test s m [] (some t) (moves ++ [.tested t false]) n := by
  have htests : Move.tests (moves ++ [.tested t false]) = [(t, false)] := by
    rw [Move.tests_append, Traced.tests_lookahead h, Move.tests_tested, Move.tests_nil,
      List.nil_append]
  refine ⟨htests, ?_, queue, hqueue⟩
  rw [htests, ← htest]
  rfl

/-- A token that passes comes before what skipping does from then on. -/
theorem of_accepted {passed : List Token} {refused? : Option Token}
    (h : Traced.lookahead call 1 m = some (.ok (some t), first, k)) (hqueue : k.queue = t :: queue)
    (htest : (test s t).1 = true)
    (hlater : Skips call test (test s t).2 (k.withQueue queue) passed refused? moves n) :
    Skips call test s m (t :: passed) refused? (first ++ .tested t true :: .took t :: moves) n := by
  have htests : Move.tests (first ++ .tested t true :: .took t :: moves) =
      (t, true) :: Move.tests moves := by
    rw [Move.tests_append, Traced.tests_lookahead h, Move.tests_tested, Move.tests_took,
      List.nil_append]
  have hfirst : Balanced call m (first ++ [.tested t true, .took t]) (k.withQueue queue) :=
    (Traced.Balances.lookahead 1 h).trans ((Balanced.tested t true).trans (.took hqueue))
  refine ⟨?_, ?_, hlater.stopped.of_balanced hfirst⟩
  · rw [htests, hlater.tests]
    rfl
  · rw [htests, ← hlater.transcript, ← htest]
    rfl

/-- Skipping that ends with a result has skipped what it took, by induction on the rounds. -/
theorem of_skipAsking {bound : Nat} {taken skipped : List Token}
    (h : Traced.skipAsking call test bound s taken m = some (.ok skipped, moves, n)) :
    ∃ passed refused?, skipped = taken.reverse ++ passed ∧
      Skips call test s m passed refused? moves n := by
  induction bound generalizing s taken m moves with
  | zero => cases h
  | succ bound ih =>
    rcases hl : Traced.lookahead call 1 m with _ | ⟨e | _ | t, first, k⟩
    · rw [Traced.skipAsking, Traced.bind_apply, hl] at h
      cases h
    · rw [Traced.skipAsking, Traced.bind_apply, hl] at h
      cases h
    · rw [Traced.skipAsking, Traced.bind_apply, hl] at h
      cases h
      rw [List.append_nil]
      exact ⟨[], none, (List.append_nil _).symm, of_exhausted hl⟩
    · obtain ⟨queue, hqueue⟩ := Traced.queue_of_lookahead_one hl
      rw [Traced.skipAsking_succ hl hqueue] at h
      split at h
      · next htest =>
        obtain ⟨⟨r, later, p⟩, hlater, he⟩ := Option.map_eq_some_iff.1 h
        cases he
        obtain ⟨passed, refused?, rfl, hskips⟩ := ih hlater
        refine ⟨t :: passed, refused?, ?_, of_accepted hl hqueue htest hskips⟩
        rw [List.reverse_cons, List.append_assoc]
        rfl
      · next htest =>
        cases h
        exact ⟨[], some t, (List.append_nil _).symm,
          of_refused hl hqueue (Bool.eq_false_iff.2 htest)⟩

end Skips

namespace LexM

variable {σ : Type} {call : Handler → LexM (Option Token)} {bound : Nat} {m n : Machine}

theorem exists_skips {test : StatefulTest σ} {s : σ} {skipped : List Token}
    (h : skipWhile call bound (test.answer s) m = some (.ok skipped, n)) :
    ∃ moves refused?, Traced.skipAsking call test bound s [] m = some (.ok skipped, moves, n) ∧
      Skips call test s m skipped refused? moves n := by
  rw [skipWhile, ← Traced.value_skipWhileOnto] at h
  obtain ⟨moves, hmoves⟩ := Traced.exists_of_value h
  rw [Traced.skipWhileOnto_answer] at hmoves
  obtain ⟨passed, refused?, rfl, hskips⟩ := Skips.of_skipAsking hmoves
  exact ⟨moves, refused?, hmoves, hskips⟩

/-- A predicate holds of the tokens that were skipped, and not of the one turned down. -/
theorem exists_skips_ofPredicate {accepts : Token → Bool} {skipped : List Token}
    (h : skipWhile call bound (fun _ t => accepts t) m = some (.ok skipped, n)) :
    ∃ refused?, (∀ t ∈ skipped, accepts t = true) ∧ (∀ t ∈ refused?, accepts t = false) ∧
      Stopped call m n refused? := by
  obtain ⟨moves, refused?, -, hskips⟩ :=
    @exists_skips Unit call bound m n (.ofPredicate accepts) () skipped h
  have hanswers := hskips.transcript.trans hskips.tests
  rw [StatefulTest.transcript_ofPredicate, List.map_append] at hanswers
  obtain ⟨hpassed, hrefused⟩ := List.append_inj hanswers (by simp)
  refine ⟨refused?, ?_, ?_, hskips.stopped⟩
  · intro t ht
    exact (Prod.mk.inj (List.map_inj_left.1 hpassed t ht)).2
  · intro t ht
    exact (Prod.mk.inj (List.map_inj_left.1 hrefused t (Option.mem_toList.2 ht))).2

theorem next_of_atEnd (h : m.lexer.pass.atEnd) : next call m = some (.ok none, m) := by
  obtain ⟨hrest, hqueue⟩ := (Bool.and_eq_true _ _).mp h
  exact next_of_derive (List.isEmpty_iff.1 hqueue) (derive_of_rest_nil (List.isEmpty_iff.1 hrest))

/-- Skipping up to a kind takes one more token where it has stopped, if there is one. -/
theorem exists_skipWhile_of_skipTo {kind : String} {skipped : List Token}
    (h : skipTo call bound kind m = some (.ok skipped, n)) :
    ∃ before k t?, skipWhile call bound (fun _ t => !t.is kind) m = some (.ok before, k) ∧
      next call k = some (.ok t?, n) ∧ skipped = before ++ t?.toList := by
  rcases bind_eq_some_iff.1 h with ⟨before, k, hbefore, hrest⟩ | ⟨e, -, hne⟩
  · rcases bind_eq_some_iff.1 hrest with ⟨t?, p, hnext, hlast⟩ | ⟨e, -, hne⟩
    · cases t? with
      | none =>
        cases hlast
        exact ⟨_, k, none, hbefore, hnext, (List.append_nil _).symm⟩
      | some t =>
        cases hlast
        exact ⟨_, k, some t, hbefore, hnext, rfl⟩
    · cases hne
  · cases hne

variable {depth : Nat}

theorem options_skipWhile {accepts : List Token → Token → Bool} {r : Except LexError (List Token)}
    (h : skipWhile (Handler.call depth) bound accepts m = some (r, n)) :
    n.lexer.options = m.lexer.options :=
  (Request.within_serve (D := .all) (r := .skipWhile accepts) .options
    (fun _ => Handler.within_call .options depth) bound trivial m.obeys_all h).1

/-- Without an observer of errors skipping that turns down no token ends with the input. -/
theorem atEnd_of_stopped (hm : m.lexer.options.hooks.onError = false)
    {accepts : List Token → Token → Bool} {skipped : List Token}
    (h : skipWhile (Handler.call depth) bound accepts m = some (.ok skipped, n))
    (hstopped : Stopped (Handler.call depth) m n none) : n.lexer.pass.atEnd := by
  obtain ⟨hqueue, moves, k, -, hnext⟩ := hstopped
  have hk : k.lexer.options.hooks.onError = false := by
    rw [← options_next hnext, options_skipWhile h]
    exact hm
  obtain ⟨-, hrest, -⟩ := of_next_eq_none hk hnext
  exact (Machine.atEnd_iff hrest).2 hqueue

/-- Where an observer of errors is not installed, skipping whatever passes a test, which may keep a
state, has asked about the tokens that it took, in order, and about no token twice. Then either one
more was turned down and is the first that waits, or the lexer is at its end. Of the tokens skipped
up to a kind only the last may be of that kind, and unless it is the lexer is at its end. -/
theorem skipping_exact (hm : m.lexer.options.hooks.onError = false) :
    (∀ (σ : Type) (test : StatefulTest σ) (s : σ) (skipped : List Token) (n : Machine),
      skipWhile (Handler.call depth) bound (test.answer s) m = some (.ok skipped, n) →
      ∃ moves refused?, Traced.skipAsking (Handler.call depth) test bound s [] m =
          some (.ok skipped, moves, n) ∧
        Move.tests moves = skipped.map (·, true) ++ refused?.toList.map (·, false) ∧
        test.transcript s (skipped ++ refused?.toList) = Move.tests moves ∧
        match refused? with
        | some t => n.queue.head? = some t
        | none => n.lexer.pass.atEnd) ∧
    ∀ (kind : String) (skipped : List Token) (n : Machine),
      skipTo (Handler.call depth) bound kind m = some (.ok skipped, n) →
      (∀ t ∈ skipped.dropLast, ¬t.is kind) ∧
        ((∀ t, skipped.getLast? = some t → ¬t.is kind) → n.lexer.pass.atEnd) := by
  constructor
  · intro σ test s skipped n h
    obtain ⟨moves, refused?, hmoves, hskips⟩ := exists_skips h
    refine ⟨moves, refused?, hmoves, hskips.tests, hskips.transcript, ?_⟩
    cases refused? with
    | none => exact atEnd_of_stopped hm h hskips.stopped
    | some t =>
      obtain ⟨queue, hqueue⟩ := hskips.stopped
      dsimp only
      rw [hqueue]
      rfl
  · intro kind skipped n h
    obtain ⟨before, k, t?, hbefore, hnext, rfl⟩ := exists_skipWhile_of_skipTo h
    obtain ⟨refused?, hpassed, hrefused, hstopped⟩ := exists_skips_ofPredicate hbefore
    have hother : ∀ t ∈ before, ¬t.is kind := by
      intro t ht
      simpa using hpassed t ht
    cases refused? with
    | none =>
      have hend := atEnd_of_stopped hm hbefore hstopped
      rw [next_of_atEnd hend] at hnext
      cases hnext
      rw [Option.toList_none, List.append_nil]
      exact ⟨fun t ht => hother t (List.dropLast_subset _ ht), fun _ => hend⟩
    | some t =>
      obtain ⟨queue, hqueue⟩ := hstopped
      rw [next_of_queue_cons hqueue] at hnext
      cases hnext
      have ht : t.is kind := by simpa using hrefused t rfl
      rw [Option.toList_some, List.dropLast_concat]
      exact ⟨hother, fun hlast => absurd ht (hlast t List.getLast?_concat)⟩

/-- A test that passes one token turns down the second, which came to wait with the first. Skipping
up to its kind takes both. -/
theorem skipping_exact_twoLetters :
    StreamCall.twoLetters.lexer.options.hooks.onError = false ∧
      (∃ skipped n moves t,
        skipWhile (Handler.call 3) 3 ((StatefulTest.upTo 1).answer 0) StreamCall.twoLetters =
            some (.ok skipped, n) ∧
          skipped.map (·.kind) = ["a"] ∧
          Traced.skipAsking (Handler.call 3) (.upTo 1) 3 0 [] StreamCall.twoLetters =
            some (.ok skipped, moves, n) ∧
          Move.tests moves = skipped.map (·, true) ++ [(t, false)] ∧ n.queue.head? = some t) ∧
      ∃ skipped n, skipTo (Handler.call 3) 3 "b" StreamCall.twoLetters = some (.ok skipped, n) ∧
        skipped.map (·.kind) = ["a", "b"] ∧ ∀ t ∈ skipped.dropLast, ¬t.is "b" := by
  have hone : shown (skipWhile (Handler.call 3) 3 ((StatefulTest.upTo 1).answer 0))
      StreamCall.twoLetters (·.map (·.kind)) (·.lexer.pass.atEnd) =
        some (some ["a"], false) := by decide +kernel
  have hboth : shown (skipTo (Handler.call 3) 3 "b") StreamCall.twoLetters (·.map (·.kind))
      (fun _ => ()) = some (some ["a", "b"], ()) := by decide +kernel
  obtain ⟨skipped, n, hskipped, hkinds, hend⟩ := exists_of_shown hone
  obtain ⟨both, k, hskipTo, hboth, -⟩ := exists_of_shown hboth
  obtain ⟨hwhile, hto⟩ := @skipping_exact 3 StreamCall.twoLetters 3 rfl
  obtain ⟨moves, refused?, hmoves, htests, -, hstopped⟩ := hwhile Nat (.upTo 1) 0 skipped n hskipped
  refine ⟨rfl, ⟨skipped, n, moves, ?_⟩, both, k, hskipTo, hboth, (hto "b" both k hskipTo).1⟩
  cases refused? with
  | none => simp [hend] at hstopped
  | some t => exact ⟨t, hskipped, hkinds, hmoves, htests, hstopped⟩

end LexM

end ModularLexer
