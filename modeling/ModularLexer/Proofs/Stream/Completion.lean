import ModularLexer.Proofs.Stream.Ending

/-!
Lexing does not end silently on an incomplete pass: where it succeeds and the observer of errors was
handed none meanwhile, all input is taken and nothing is open.
-/
namespace ModularLexer

open LexM (Within Moves)

def Machine.reported (m : Machine) : List LexError :=
  m.journal.toList.filterMap fun
    | .error e => some e
    | _ => none

theorem Machine.reported_record_error (m : Machine) (e : LexError) :
    Machine.reported { m with journal := m.journal.push (.error e) } = m.reported ++ [e] := by
  simp [reported]

/-- Nothing takes back an error once it was reported. -/
theorem FrameRule.reported {D : Discipline} : FrameRule D fun m n => m.reported <+: n.reported where
  refl _ := List.prefix_refl _
  trans hm hn := hm.trans hn
  consume _ := List.prefix_refl _
  consumeAs _ _ := List.prefix_refl _
  move _ _ _ _ := List.prefix_refl _
  start _ _ _ := List.prefix_refl _
  queue _ _ := List.prefix_refl _
  push _ _ := List.prefix_refl _
  pushStack _ _ _ := List.prefix_refl _
  popStack _ _ := List.prefix_refl _
  append _ _ _ := List.prefix_refl _
  register _ _ _ _ := List.prefix_refl _
  record m e := by
    show m.reported <+: List.filterMap _ (m.journal.push e).toList
    rw [Array.toList_push, List.filterMap_append]
    exact List.prefix_append _ _
  fork h := h

theorem EffectRule.reported : EffectRule fun m n => m.reported <+: n.reported :=
  (FrameRule.reported (D := .all)).toEffectRule

namespace LexM

variable {depth bound : Nat} {m n : Machine}

theorem report_of_observed (hm : m.lexer.options.hooks.onError = true) (e : LexError) :
    report e m = some (.ok (), { m with journal := m.journal.push (.error e) }) := by
  unfold report
  rw [bind_of_ok (lexer_apply m), hm]
  rfl

theorem report_cases (e : LexError) (m : Machine) :
    report e m = some (.error e, m) ∨
      report e m = some (.ok (), { m with journal := m.journal.push (.error e) }) := by
  cases hm : m.lexer.options.hooks.onError with
  | false => exact .inl (report_apply hm e)
  | true => exact .inr (report_of_observed hm e)

theorem within_reported_call (depth : Nat) :
    ∀ h, Discipline.all.known h →
      Within .all (fun m n => m.reported <+: n.reported) (Handler.call depth h) :=
  fun _ => Handler.within_call .reported depth

theorem reported_next {r : Except LexError (Option Token)}
    (h : next (Handler.call depth) m = some (r, n)) : m.reported <+: n.reported :=
  (Within.next .reported (within_reported_call depth) m.obeys_all h).1

theorem reported_pushAll {r : Except LexError Unit}
    (h : pushAll (Handler.call depth) bound m = some (r, n)) : m.reported <+: n.reported :=
  (Within.pushAll .reported (within_reported_call depth) bound m.obeys_all h).1

theorem reported_lex {r : Except LexError (List Token)}
    (h : lex (Handler.call depth) bound m = some (r, n)) : m.reported <+: n.reported :=
  (Within.lex .reported (within_reported_call depth) bound m.obeys_all h).1

/-- Advancing comes to nothing at the end of the input, or where an error was reported. -/
theorem rest_of_advance_eq_none (h : advance (Handler.call depth) m = some (.ok none, n))
    (hsilent : n.reported = m.reported) : n.lexer.pass.rest = [] := by
  rcases hd : derive (Handler.call depth) m with _ | ⟨e | t?, k⟩
  · rw [advance_of_timeout hd] at h
    cases h
  · -- The error was either an error of the advance or reported; neither is the case.
    have hgrow : m.reported <+: k.reported :=
      (Within.derive .reported (within_reported_call depth) m.obeys_all hd).1
    rw [advance_of_error hd] at h
    rcases report_cases e k with hr | hr
    · rw [bind_of_error hr] at h
      cases h
    · rw [bind_of_ok hr] at h
      cases h
      rw [Machine.reported_record_error] at hsilent
      have hle := hgrow.length_le
      have hlength := congrArg List.length hsilent
      rw [List.length_append, List.length_singleton] at hlength
      omega
  · rw [advance_of_ok hd] at h
    cases h
    exact (of_derive_eq_none hd).1

theorem rest_of_pushAll (h : pushAll (Handler.call depth) bound m = some (.ok (), n))
    (hsilent : n.reported = m.reported) : n.lexer.pass.rest = [] := by
  induction bound generalizing m with
  | zero => cases h
  | succ bound ih =>
    rcases bind_eq_some_iff.1 h with ⟨t?, k, hk, hrest⟩ | ⟨e, -, hne⟩
    · cases t? with
      | none =>
        cases hrest
        have hqueue : m.queue = [] := by
          cases hq : m.queue with
          | nil => rfl
          | cons t queue =>
            rw [next_of_queue_cons hq] at hk
            cases hk
        rw [next_of_queue_nil hqueue] at hk
        exact rest_of_advance_eq_none hk hsilent
      | some t =>
        rcases bind_eq_some_iff.1 hrest with ⟨_, k', hpush, hlast⟩ | ⟨e, -, hne⟩
        · have hpushed := (Moves.push EffectRule.reported t hpush).1
          have hgrow := (reported_next hk).trans hpushed
          have hend := reported_pushAll hlast
          -- What is reported between equal lists is equal to both.
          have hsame : k'.reported = n.reported := by
            rw [hsilent] at hend ⊢
            exact hend.eq_of_length_le hgrow.length_le
          exact ih hlast hsame.symm
        · cases hne
    · cases hne

/-- Checking the end changes nothing of the lexer, and passes without a report exactly where all
input is taken and nothing is open. -/
theorem finish_spec (m : Machine) :
    ∃ r n, finish m = some (r, n) ∧ n.lexer = m.lexer ∧
      (r = .ok () ∧ n.reported = m.reported ↔
        m.lexer.pass.rest = [] ∧ m.lexer.pass.stack = []) := by
  rw [← Pass.incomplete?_eq_none_iff]
  unfold finish
  rw [bind_of_ok (pass_apply m)]
  cases hi : m.lexer.pass.incomplete? with
  | none => exact ⟨.ok (), m, rfl, rfl, by simp⟩
  | some e =>
    dsimp only
    rcases report_cases e m with hr | hr
    · exact ⟨.error e, m, hr, rfl, by simp⟩
    · refine ⟨.ok (), _, hr, rfl, ?_⟩
      rw [Machine.reported_record_error]
      simp

theorem complete_of_lex {ts : List Token}
    (h : lex (Handler.call depth) bound m = some (.ok ts, n)) (hsilent : n.reported = m.reported) :
    n.lexer.pass.rest = [] ∧ n.lexer.pass.stack = [] := by
  rcases bind_eq_some_iff.1 h with ⟨_, k, hp, htail⟩ | ⟨e, -, hne⟩
  · rw [bind_of_ok (pass_apply k)] at htail
    have hgrow := reported_pushAll hp
    split at htail
    · next hempty =>
      rcases bind_eq_some_iff.1 htail with ⟨_, k', hfinish, hlast⟩ | ⟨e, -, hne⟩
      · cases hlast
        obtain ⟨r, k'', hspec, hlexer, hiff⟩ := finish_spec k
        rw [hfinish] at hspec
        obtain ⟨rfl, rfl⟩ := Prod.mk.inj (Option.some.inj hspec)
        have hlater := (Moves.finish EffectRule.reported hfinish).1
        have hsame : n.reported = k.reported := by
          rw [hsilent] at hlater ⊢
          exact (hlater.eq_of_length_le hgrow.length_le).symm
        rw [hlexer]
        exact hiff.1 ⟨rfl, hsame⟩
      · cases hne
    · next hleft =>
      cases htail
      have hrest := rest_of_pushAll hp hsilent
      exact absurd (List.isEmpty_iff.2 hrest) hleft
  · cases hne

end LexM

/-- Lexing that succeeds, with or without an observer of errors, leaves input or something open only
where it handed an error to the observer. Checking for both changes nothing of the lexer, and passes
without a report exactly where neither is left. -/
theorem complete_of_unreported {depth bound : Nat} {m : Machine} :
    (∀ r n, LexM.lex (Handler.call depth) bound m = some (r, n) →
      m.reported <+: n.reported ∧
        ∀ ts, r = .ok ts → n.reported = m.reported →
          n.lexer.pass.rest = [] ∧ n.lexer.pass.stack = []) ∧
    (∀ input r n, LexM.tokenize (Handler.call depth) bound input m = some (r, n) →
      m.reported <+: n.reported ∧
        ∀ ts, r = .ok ts → n.reported = m.reported →
          n.lexer.pass.rest = [] ∧ n.lexer.pass.stack = []) ∧
    ∃ r n, LexM.finish m = some (r, n) ∧ n.lexer = m.lexer ∧
      (r = .ok () ∧ n.reported = m.reported ↔
        m.lexer.pass.rest = [] ∧ m.lexer.pass.stack = []) := by
  refine ⟨?_, ?_, LexM.finish_spec m⟩
  · intro r n h
    refine ⟨LexM.reported_lex h, ?_⟩
    rintro ts rfl hsilent
    exact LexM.complete_of_lex h hsilent
  · intro input r n h
    have hstart : m.reported = (m.withPass (.start input)).reported := rfl
    have hlex : LexM.lex (Handler.call depth) bound (m.withPass (.start input)) = some (r, n) := h
    rw [hstart]
    refine ⟨LexM.reported_lex hlex, ?_⟩
    rintro ts rfl hsilent
    exact LexM.complete_of_lex hlex hsilent

def observedLetters : Machine :=
  ⟨{ StreamCall.twoLetters.lexer with options := ⟨.token, none, ⟨false, false, false, true⟩⟩ }, #[]⟩

/-- Input that is left behind the second letter is reported, and nothing else is. -/
theorem complete_of_unreported_letters :
    (∃ ts n, LexM.lex (Handler.call 3) 4 observedLetters = some (.ok ts, n) ∧
      n.reported.length = 1 ∧ n.lexer.pass.rest = ['!']) ∧
    ∃ ts n, LexM.tokenize (Handler.call 3) 4 ['a', 'b'] observedLetters = some (.ok ts, n) ∧
      observedLetters.reported <+: n.reported ∧ n.reported = observedLetters.reported ∧
      n.lexer.pass.rest = [] ∧ n.lexer.pass.stack = [] := by
  have hlex : LexM.shown (LexM.lex (Handler.call 3) 4) observedLetters (fun _ => ())
      (fun n => (n.reported.length, n.lexer.pass.rest)) = some (some (), 1, ['!']) := by
    decide +kernel
  have htokenize : LexM.shown (LexM.tokenize (Handler.call 3) 4 ['a', 'b']) observedLetters
      (fun _ => ()) (·.reported) = some (some (), []) := by decide +kernel
  obtain ⟨ts, n, hlex, -, hleft⟩ := LexM.exists_of_shown hlex
  obtain ⟨us, k, htokenize, -, hreported⟩ := LexM.exists_of_shown htokenize
  obtain ⟨hlength, hrest⟩ := Prod.mk.inj hleft
  obtain ⟨-, hall, -⟩ := @complete_of_unreported 3 4 observedLetters
  obtain ⟨hgrow, hcomplete⟩ := hall _ _ _ htokenize
  obtain ⟨hend, hstack⟩ := hcomplete us rfl hreported
  exact ⟨⟨ts, n, hlex, hlength, hrest⟩, us, k, htokenize, hgrow, hreported, hend, hstack⟩

end ModularLexer
