import ModularLexer.Proofs.Segmentation.Rounds

/-!
Lexers of captured patterns. Where nothing is dropped a round is a first match, and tokenizing an
input is its segmentation: the same tokens, which tile it, or the same error behind the same tokens.
-/
namespace ModularLexer

namespace Segmentation

namespace Task

variable {T : Task}

/-- Skimming without dropping is segmenting. -/
theorem skim_eq_segment (hkept : ∀ kind, ¬T.dropped kind = true) (before rest : Text) :
    T.skim before rest = segment T.patterns T.source T.input before rest := by
  fun_induction segment T.patterns T.source T.input before rest with
  | case1 before => rw [skim_of_none rfl]; rfl
  | case2 before rest hrest e hm =>
    have hturn : T.turn before rest = ⟨.error e, before, rest⟩ := by
      rw [turn, if_neg hrest, round_of_firstMatch_error hm]
      rfl
    rw [skim_of_error (by rw [hturn]), hturn]
  | case3 before rest hrest hm =>
    have hturn : T.turn before rest = ⟨.error (unmatched before rest), before, rest⟩ := by
      rw [turn, if_neg hrest, round_of_firstMatch_none hm]
      exact if_neg hrest
    rw [skim_of_error (by rw [hturn]), hturn]
  | case4 before rest hrest kind groups hm ih =>
    have hturn : T.turn before rest =
        ⟨.ok (some (tokenAt T.source T.input before kind groups)), before ++ fullText groups,
          rest.drop (fullText groups).length⟩ := by
      rw [turn, if_neg hrest, round_of_firstMatch_kept hm (hkept kind)]
      rfl
    rw [skim_of_token (by rw [hturn]), hturn, ih]

end Task

/-- Tokenizing an input with captured patterns is segmenting it. -/
theorem tokenize_eq_segment (captures : List (String × Pattern)) (depth : Nat) {m : Machine}
    {input : Text} {bound : Nat} {segments : Outcome} (hmode : m.lexer.options.mode = .token)
    (hquiet : m.lexer.options.hooks.onError = false) (hbound : input.length < bound)
    (hsegments : segments =
      segment (Registry.ofList captures).entries m.lexer.options.source input [] input) :
    ∃ n, LexM.tokenize (Handler.call (depth + 1)) bound input
          (m.withHandlers (captures.map fun (kind, p) => (kind, .ofPattern kind p))) =
        some (segments.result, n) ∧
      n.lexer.pass.tokens.toList = segments.tokens ∧ n.lexer.pass.rest = segments.rest := by
  let T : Task :=
    ⟨(Registry.ofList captures).entries, fun _ => false, m.lexer.options.source, input⟩
  have hkept : ∀ kind, ¬T.dropped kind = true := fun _ => Bool.false_ne_true
  have hregistry : (m.withHandlers
      (captures.map fun (kind, p) => (kind, .ofPattern kind p))).lexer.registry = T.registry :=
    Registry.ofList_map Handler.ofPattern captures
  obtain ⟨passed, n, hrun, hn⟩ :=
    T.tokenize_eq depth hregistry hmode rfl hquiet hbound
  rw [Task.skim_eq_segment hkept] at hrun hn
  subst hsegments
  exact ⟨n, hrun, hn.tokens, hn.rest⟩

def gappedLetters : List (String × Pattern) :=
  [("letter", .spaces), ("gap", .spaces), ("letter", .letter 'a')]

example : LexM.shown (LexM.tokenize (Handler.call 1) 4 "a a".toList)
    ((Machine.fresh "" []).withHandlers
      (gappedLetters.map fun (kind, p) => (kind, .ofPattern kind p)))
    (·.map (·.kind)) (·.lexer.pass.rest) = some (some ["letter", "gap", "letter"], []) := by
  decide +kernel

end Segmentation

end ModularLexer
