import Mathlib.Data.List.Infix
import ModularLexer.Proofs.Segmentation.Capturing

/-!
The order of patterns that exclude each other does not matter. Where at most one pattern has a match
at any rest of an input, the patterns that are tried before it are silent in every order, so the
input is segmented in the same way.
-/
namespace ModularLexer.Segmentation

/-- At a text at most one of some anchored patterns has a match, and none has an empty one. -/
structure DisjointAt (patterns : List (String × Pattern)) (rest : Text) : Prop where
  anchored : ∀ a ∈ patterns, a.2.source.toList.head? = some '^'
  nonempty : ∀ a ∈ patterns, ∀ groups, groupsAt? a.2 rest = some groups → fullText groups ≠ []
  single : ∀ a ∈ patterns, ∀ b ∈ patterns,
    groupsAt? a.2 rest ≠ none → groupsAt? b.2 rest ≠ none → a = b

/-- At each rest of an input that is not empty. -/
def Disjoint (patterns : List (String × Pattern)) (input : Text) : Prop :=
  ∀ rest, rest <:+ input → rest ≠ [] → DisjointAt patterns rest

instance (patterns : List (String × Pattern)) (rest : Text) :
    Decidable (DisjointAt patterns rest) :=
  decidable_of_iff
    ((∀ a ∈ patterns, a.2.source.toList.head? = some '^') ∧
      (∀ a ∈ patterns, ∀ groups ∈ groupsAt? a.2 rest, fullText groups ≠ []) ∧
      ∀ a ∈ patterns, ∀ b ∈ patterns,
        groupsAt? a.2 rest ≠ none → groupsAt? b.2 rest ≠ none → a = b)
    ⟨fun ⟨hanchored, hnonempty, hsingle⟩ => ⟨hanchored, hnonempty, hsingle⟩,
      fun ⟨hanchored, hnonempty, hsingle⟩ => ⟨hanchored, hnonempty, hsingle⟩⟩

instance (patterns : List (String × Pattern)) (input : Text) :
    Decidable (Disjoint patterns input) :=
  decidable_of_iff (∀ rest ∈ input.tails, rest ≠ [] → DisjointAt patterns rest)
    (forall_congr' fun rest => by rw [List.mem_tails])

namespace DisjointAt

variable {patterns patterns' : List (String × Pattern)} {rest : Text}

theorem perm (h : DisjointAt patterns rest) (hperm : patterns.Perm patterns') :
    DisjointAt patterns' rest where
  anchored a ha := h.anchored a (hperm.mem_iff.2 ha)
  nonempty a ha := h.nonempty a (hperm.mem_iff.2 ha)
  single a ha b hb := h.single a (hperm.mem_iff.2 ha) b (hperm.mem_iff.2 hb)

/-- Each pattern says just what it catches. -/
theorem verdict_eq (h : DisjointAt patterns rest) {a : String × Pattern} (ha : a ∈ patterns) :
    verdict a.2 rest = .ok (groupsAt? a.2 rest) := by
  rw [verdict, if_pos (h.anchored a ha)]
  cases hgroups : groupsAt? a.2 rest with
  | none => rfl
  | some groups => exact if_neg (h.nonempty a ha groups hgroups)

/-- Either no pattern has a match, or one that has is the first. -/
theorem unmatched_or_matched (h : DisjointAt patterns rest) :
    (firstMatch patterns rest = .ok none ∧ ∀ a ∈ patterns, groupsAt? a.2 rest = none) ∨
      ∃ a ∈ patterns, ∃ groups, groupsAt? a.2 rest = some groups ∧
        firstMatch patterns rest = .ok (some (a.1, groups)) := by
  rcases firstMatch_cases patterns rest with
    ⟨hsilent, hnone⟩ | ⟨front, kind, p, tail, rfl, -, hdecides⟩
  · refine .inl ⟨hnone, fun a ha => ?_⟩
    have hv := hsilent a ha
    rw [h.verdict_eq ha] at hv
    exact Except.ok.inj hv
  · have hmem : (kind, p) ∈ front ++ (kind, p) :: tail :=
      List.mem_append_right front List.mem_cons_self
    rcases hdecides with ⟨e, hv, -⟩ | ⟨groups, hv, hfirst⟩
    · rw [h.verdict_eq hmem] at hv
      cases hv
    · rw [h.verdict_eq hmem] at hv
      exact .inr ⟨_, hmem, groups, Except.ok.inj hv, hfirst⟩

/-- The pattern that has a match is the first one, wherever it stands. -/
theorem firstMatch_of_mem (h : DisjointAt patterns rest) {a : String × Pattern} {groups : Groups}
    (ha : a ∈ patterns) (hgroups : groupsAt? a.2 rest = some groups) :
    firstMatch patterns rest = .ok (some (a.1, groups)) := by
  rcases h.unmatched_or_matched with ⟨-, hnone⟩ | ⟨b, hb, found, hfound, hfirst⟩
  · cases hgroups.symm.trans (hnone a ha)
  · obtain rfl := h.single a ha b hb (by simp [hgroups]) (by simp [hfound])
    cases hgroups.symm.trans hfound
    exact hfirst

/-- Patterns that exclude each other come to a first match or to none, in every order to the
same. -/
theorem firstMatch_perm (h : DisjointAt patterns rest) (hperm : patterns.Perm patterns') :
    ∃ found?, firstMatch patterns rest = .ok found? ∧ firstMatch patterns' rest = .ok found? := by
  have h' := h.perm hperm
  rcases h.unmatched_or_matched with ⟨hfirst, hnone⟩ | ⟨a, ha, groups, hgroups, hfirst⟩
  · refine ⟨none, hfirst, ?_⟩
    rcases h'.unmatched_or_matched with ⟨hfirst', -⟩ | ⟨b, hb, groups, hgroups, -⟩
    · exact hfirst'
    · cases hgroups.symm.trans (hnone b (hperm.mem_iff.2 hb))
  · exact ⟨_, hfirst, h'.firstMatch_of_mem (hperm.mem_iff.1 ha) hgroups⟩

end DisjointAt

variable {patterns patterns' : List (String × Pattern)} {source : Option String}
  {input before rest : Text}

theorem Disjoint.drop (h : Disjoint patterns rest) (count : Nat) :
    Disjoint patterns (rest.drop count) :=
  fun later hlater => h later (hlater.trans (List.drop_suffix count rest))

/-- Patterns that exclude each other segment an input in the same way in every order. -/
theorem segment_perm (hperm : patterns.Perm patterns') (hdisjoint : Disjoint patterns rest) :
    segment patterns source input before rest = segment patterns' source input before rest := by
  fun_induction segment patterns source input before rest with
  | case1 before => rw [segment_nil]
  | case2 before rest hrest e hfirst =>
    obtain ⟨found?, hfound, -⟩ := (hdisjoint rest List.suffix_rfl hrest).firstMatch_perm hperm
    cases hfirst.symm.trans hfound
  | case3 before rest hrest hfirst =>
    obtain ⟨found?, hfound, hfirst'⟩ :=
      (hdisjoint rest List.suffix_rfl hrest).firstMatch_perm hperm
    cases hfirst.symm.trans hfound
    rw [segment_of_none hrest hfirst']
  | case4 before rest hrest kind groups hfirst ih =>
    obtain ⟨found?, hfound, hfirst'⟩ :=
      (hdisjoint rest List.suffix_rfl hrest).firstMatch_perm hperm
    cases hfirst.symm.trans hfound
    rw [segment_of_match hrest hfirst', ih (hdisjoint.drop _)]

/-- Where patterns exclude each other nothing goes wrong but that none of them matches. -/
theorem failure_of_disjoint (hdisjoint : Disjoint patterns rest) {segments : Outcome}
    (hsegments : segments = segment patterns source input before rest) :
    segments.failure = none ∨ ∃ front, rest = front ++ segments.rest ∧ segments.rest ≠ [] ∧
      segments.failure = some (unmatched (before ++ front) segments.rest) := by
  subst hsegments
  fun_induction segment patterns source input before rest with
  | case1 before => exact .inl rfl
  | case2 before rest hrest e hfirst =>
    obtain ⟨found?, hfound, -⟩ :=
      (hdisjoint rest List.suffix_rfl hrest).firstMatch_perm (.refl patterns)
    cases hfirst.symm.trans hfound
  | case3 before rest hrest hfirst =>
    refine .inr ⟨[], rfl, hrest, ?_⟩
    rw [List.append_nil]
  | case4 before rest hrest kind groups hfirst ih =>
    obtain ⟨-, after, rfl⟩ := of_firstMatch_eq_some hfirst
    rw [List.drop_left] at ih ⊢
    have hafter := hdisjoint.drop (fullText groups).length
    rw [List.drop_left] at hafter
    rcases ih hafter with hnone | ⟨front, hfront, hne, hfailure⟩
    · exact .inl hnone
    · refine .inr ⟨fullText groups ++ front, ?_, hne, ?_⟩
      · rw [List.append_assoc]
        exact congrArg (fullText groups ++ ·) hfront
      · rw [← List.append_assoc]
        exact hfailure

/-- The order of captured patterns that exclude each other does not matter. Whichever of two orders
the kinds are registered in, tokenizing an input comes to the same tokens on the list, and returns
these if no input is left; else nothing recognises what is left, and that is the error. -/
theorem tokenize_rearranged {captures captures' : List (String × Pattern)} {m : Machine}
    {depth bound : Nat} (hmode : m.lexer.options.mode = .token)
    (hquiet : m.lexer.options.hooks.onError = false) (hbound : input.length < bound)
    (hkinds : (captures.map (·.1)).Nodup) (hperm : captures.Perm captures')
    (hdisjoint : Disjoint captures input) :
    ∃ r n n',
      LexM.tokenize (Handler.call (depth + 1)) bound input
          (m.withHandlers (captures.map fun (kind, p) => (kind, .ofPattern kind p))) =
        some (r, n) ∧
      LexM.tokenize (Handler.call (depth + 1)) bound input
          (m.withHandlers (captures'.map fun (kind, p) => (kind, .ofPattern kind p))) =
        some (r, n') ∧
      n'.lexer.pass.tokens = n.lexer.pass.tokens ∧ n'.lexer.pass.rest = n.lexer.pass.rest ∧
      (r = .ok n.lexer.pass.tokens.toList ∧ n.lexer.pass.rest = [] ∨
        ∃ front, input = front ++ n.lexer.pass.rest ∧ n.lexer.pass.rest ≠ [] ∧
          r = .error (unmatched front n.lexer.pass.rest)) := by
  have hkinds' : (captures'.map (·.1)).Nodup := (hperm.map (·.1)).nodup_iff.1 hkinds
  obtain ⟨n, hrun, htokens, hrest⟩ := tokenize_eq_segment captures depth hmode hquiet hbound rfl
  obtain ⟨n', hrun', htokens', hrest'⟩ :=
    tokenize_eq_segment captures' depth hmode hquiet hbound rfl
  rw [Registry.entries_ofList_of_nodup hkinds] at hrun htokens hrest
  rw [Registry.entries_ofList_of_nodup hkinds', ← segment_perm hperm hdisjoint]
    at hrun' htokens' hrest'
  refine ⟨_, n, n', hrun, hrun', ?_, hrest'.trans hrest.symm, ?_⟩
  · rw [← Array.toList_inj, htokens', htokens]
  · rw [htokens, hrest]
    rcases failure_of_disjoint hdisjoint rfl with hnone | ⟨front, hfront, hne, hfailure⟩
    · exact .inl ⟨Outcome.result_eq_ok_iff.2 ⟨rfl, hnone⟩, failure_eq_none_iff.1 hnone⟩
    · refine .inr ⟨front, hfront, hne, ?_⟩
      unfold Outcome.result
      rw [hfailure]
      rfl

def separatedLetters : List (String × Pattern) :=
  [("a", .letter 'a'), ("b", .letter 'b'), ("gap", .spaces)]

theorem disjoint_separatedLetters : Disjoint separatedLetters "b a!".toList := by decide +kernel

theorem tokenize_rearranged_letters :
    (separatedLetters.map (·.1)).Nodup ∧ Disjoint separatedLetters "b a!".toList ∧
      ∃ r n n',
        LexM.tokenize (Handler.call 1) 5 "b a!".toList ((Machine.fresh "" []).withHandlers
            (separatedLetters.map fun (kind, p) => (kind, .ofPattern kind p))) = some (r, n) ∧
        LexM.tokenize (Handler.call 1) 5 "b a!".toList ((Machine.fresh "" []).withHandlers
            (separatedLetters.reverse.map fun (kind, p) => (kind, .ofPattern kind p))) =
          some (r, n') ∧
        n'.lexer.pass.tokens = n.lexer.pass.tokens ∧ n'.lexer.pass.rest = n.lexer.pass.rest ∧
        (r = .ok n.lexer.pass.tokens.toList ∧ n.lexer.pass.rest = [] ∨
          ∃ front, "b a!".toList = front ++ n.lexer.pass.rest ∧ n.lexer.pass.rest ≠ [] ∧
            r = .error (unmatched front n.lexer.pass.rest)) := by
  have hkinds : (separatedLetters.map (·.1)).Nodup := by decide
  exact ⟨hkinds, disjoint_separatedLetters,
    @tokenize_rearranged "b a!".toList separatedLetters separatedLetters.reverse
      (Machine.fresh "" []) 0 5 rfl rfl (by decide) hkinds separatedLetters.reverse_perm.symm
      disjoint_separatedLetters⟩

example : (LexM.tokenize (Handler.call 1) 5 "b a!".toList ((Machine.fresh "" []).withHandlers
    (separatedLetters.reverse.map fun (kind, p) => (kind, .ofPattern kind p)))).map
      (fun (r, n) => (r.map fun _ => (), n.lexer.pass.tokens.toList.map (·.kind))) =
    some (.error (unmatched "b a".toList ['!']), ["b", "gap", "a"]) := by decide +kernel

end ModularLexer.Segmentation
