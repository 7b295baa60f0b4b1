import ModularLexer.Proofs.Coupling.Programs
import ModularLexer.Proofs.Coupling.Shifting
import ModularLexer.Proofs.Stream.Completion

/-!
Advancing a lexer of patterns. The first pattern with something to say of the rest decides: its
match becomes the next token and nothing else changes, and its error changes nothing at all.
Patterns that were tried before leave no trace.
-/
namespace ModularLexer

open Segmentation (Groups Silent firstMatch fullText verdict)

namespace LexM

variable {m : Machine} {depth : Nat} {patterns front tail : List (String × Pattern)}

def entriesOf (patterns : List (String × Pattern)) : List (String × Handler) :=
  patterns.map fun (kind, p) => (kind, .ofPattern kind p)

theorem declining_of_silent (h : Silent front m.lexer.pass.rest) :
    ∀ entry ∈ entriesOf front, Handler.call (depth + 1) entry.2 m = some (.ok none, m) := by
  intro entry hentry
  obtain ⟨⟨kind, p⟩, hmem, rfl⟩ := List.mem_map.1 hentry
  rw [Handler.call_ofPattern]
  exact scan_of_none kind (h _ hmem)

theorem derive_of_refused {kind : String} {p : Pattern} {e : LexError}
    (hentries : m.lexer.registry.entries = entriesOf (front ++ (kind, p) :: tail))
    (hmode : m.lexer.options.mode = .token) (hrest : m.lexer.pass.rest ≠ [])
    (hsilent : Silent front m.lexer.pass.rest) (hv : verdict p m.lexer.pass.rest = .error e) :
    derive (Handler.call (depth + 1)) m = some (.error e, m) := by
  rw [entriesOf, List.map_append] at hentries
  refine derive_of_first hentries hmode hrest (declining_of_silent hsilent) ?_ fun h => nomatch h
  apply runHandler_of_error
  rw [Handler.call_ofPattern]
  exact scan_of_error kind hv

theorem derive_of_silent (hentries : m.lexer.registry.entries = entriesOf patterns)
    (hmode : m.lexer.options.mode = .token) (hrest : m.lexer.pass.rest ≠ [])
    (hsilent : Silent patterns m.lexer.pass.rest) :
    derive (Handler.call (depth + 1)) m = some (.error m.lexer.pass.unmatched, m) := by
  have htry := tryHandlers_of_declining (i := 0)
    (hentries.trans (List.append_nil _).symm) (@declining_of_silent m depth patterns hsilent) 0
  have hnone : tryHandlers (Handler.call (depth + 1)) m.lexer.registry.size 0 m =
      some (.ok none, m) := by
    rw [Registry.size, hentries]
    exact htry
  have hempty : ¬m.lexer.pass.rest.isEmpty = true := by
    rw [List.isEmpty_iff]
    exact hrest
  rw [derive_of_token hrest hmode, bind_of_ok hnone]
  dsimp only
  rw [bind_of_ok (pass_apply m), if_neg hempty]
  rfl

theorem derive_of_matched {kind : String} {p : Pattern} {groups : Groups} {after : Text}
    (hentries : m.lexer.registry.entries = entriesOf (front ++ (kind, p) :: tail))
    (hmode : m.lexer.options.mode = .token) (hrest : m.lexer.pass.rest ≠ [])
    (hsilent : Silent front m.lexer.pass.rest)
    (hv : verdict p m.lexer.pass.rest = .ok (some groups))
    (hafter : m.lexer.pass.rest = fullText groups ++ after) :
    derive (Handler.call (depth + 1)) m = some (.ok (some (m.tokenOf kind groups)),
      m.scanned (m.tokenOf kind groups) (fullText groups) after) := by
  rw [entriesOf, List.map_append] at hentries
  have hscan := scan_eq_of_match kind hv hafter
  rw [← Handler.call_ofPattern depth] at hscan
  have hrun := runHandler_of_token hscan fun h => nomatch h
  exact derive_of_first hentries hmode hrest (declining_of_silent hsilent) hrun fun h => nomatch h

end LexM

namespace Machine

/-- A lexer that makes tokens of what patterns match. -/
structure Matching (m : Machine) : Prop where
  captures : m.lexer.registry.CapturesOnly
  mode : m.lexer.options.mode = .token

/-- What an advance of a lexer of patterns comes to. An error changes nothing, or else is all that
is told. -/
inductive Advances (m : Machine) : Except LexError (Option Token) → Machine → Prop
  | ended : m.lexer.pass.rest = [] → Advances m (.ok none) m
  | made {kind : String} {groups : Groups} {after : Text} :
    m.lexer.pass.rest = fullText groups ++ after →
    Advances m (.ok (some (m.tokenOf kind groups)))
      (m.scanned (m.tokenOf kind groups) (fullText groups) after)
  | failed {e : LexError} : m.lexer.options.hooks.onError = false → Advances m (.error e) m
  | reported {e : LexError} :
    m.lexer.options.hooks.onError = true → Advances m (.ok none) (m.record (.error e))

def lettersOf (input : String) : Machine :=
  .fresh input [("a", .ofPattern "a" (.letter 'a')), ("b", .ofPattern "b" (.letter 'b'))]

theorem matching_lettersOf (input : String) : (lettersOf input).Matching where
  captures := by
    intro entry hentry
    rcases List.mem_cons.1 hentry with rfl | hentry
    · exact ⟨.letter 'a', rfl⟩
    · obtain rfl := List.mem_singleton.1 hentry
      exact ⟨.letter 'b', rfl⟩
  mode := rfl

variable {m n : Machine} {depth : Nat}

/-- Deriving makes a token of a match at the rest, or fails where it stands. -/
theorem Matching.derive_cases (hm : m.Matching) (hrest : m.lexer.pass.rest ≠ []) (depth : Nat) :
    (∃ e, LexM.derive (Handler.call (depth + 1)) m = some (.error e, m)) ∨
      ∃ kind groups after, m.lexer.pass.rest = fullText groups ++ after ∧
        LexM.derive (Handler.call (depth + 1)) m = some (.ok (some (m.tokenOf kind groups)),
          m.scanned (m.tokenOf kind groups) (fullText groups) after) := by
  obtain ⟨patterns, hpatterns⟩ := hm.captures.exists_patterns
  have hentries : m.lexer.registry.entries = LexM.entriesOf patterns := by
    rw [hpatterns]
    rfl
  rcases hfirst : firstMatch patterns m.lexer.pass.rest with e | _ | ⟨kind, groups⟩
  · obtain ⟨front, kind, p, tail, rfl, hsilent, hv⟩ :=
      Segmentation.exists_of_firstMatch_error hfirst
    exact .inl ⟨e, LexM.derive_of_refused hentries hm.mode hrest hsilent hv⟩
  · have hsilent := Segmentation.silent_of_firstMatch hfirst
    exact .inl ⟨_, LexM.derive_of_silent hentries hm.mode hrest hsilent⟩
  · obtain ⟨front, p, tail, rfl, hsilent, hv⟩ := Segmentation.exists_of_firstMatch_match hfirst
    obtain ⟨-, after, hafter⟩ := Segmentation.of_verdict_eq_some hv
    exact .inr ⟨kind, groups, after, hafter.symm,
      LexM.derive_of_matched hentries hm.mode hrest hsilent hv hafter.symm⟩

theorem Matching.advances (hm : m.Matching) {r : Except LexError (Option Token)}
    (h : LexM.advance (Handler.call (depth + 1)) m = some (r, n)) : m.Advances r n := by
  by_cases hrest : m.lexer.pass.rest = []
  · rw [LexM.advance_of_ok (LexM.derive_of_rest_nil hrest)] at h
    cases h
    exact .ended hrest
  rcases hm.derive_cases hrest depth with ⟨e, hd⟩ | ⟨kind, groups, after, hafter, hd⟩
  · rw [LexM.advance_of_error hd] at h
    cases hobserved : m.lexer.options.hooks.onError with
    | false =>
      rw [LexM.bind_of_error (LexM.report_apply hobserved e)] at h
      cases h
      exact .failed hobserved
    | true =>
      rw [LexM.bind_of_ok (LexM.report_of_observed hobserved e)] at h
      cases h
      exact .reported hobserved
  · rw [LexM.advance_of_ok hd] at h
    cases h
    exact .made hafter

end Machine

end ModularLexer
