import Mathlib.Data.List.TakeWhile
import ModularLexer.Proofs.Runs.Cursor
import ModularLexer.Proofs.Segmentation.Matching

/-!
Skipping gaps. The spaces and tabs that the rest begins with are taken as far as they go, and
nothing but the cursor moves. Behind them no further gap begins, so skipping again does nothing.
-/
namespace ModularLexer

namespace Text

/-- A front of a text is the longest one whose characters all pass a test. -/
structure LongestFront (passes : Char → Bool) (t front : Text) : Prop where
  begins : front <+: t
  all : ∀ c ∈ front, passes c = true
  longest : ∀ other, other <+: t → (∀ c ∈ other, passes c = true) → other <+: front

theorem longestFront_takeWhile (passes : Char → Bool) (t : Text) :
    LongestFront passes t (t.takeWhile passes) where
  begins := List.takeWhile_prefix passes
  all _ hc := List.mem_takeWhile_imp hc
  longest other hother hall := by
    obtain ⟨rest, rfl⟩ := hother
    rw [List.takeWhile_append_of_pos hall]
    exact List.prefix_append _ _

def isGap (c : Char) : Bool := c == ' ' || c == '\t'

end Text

open Text (LongestFront isGap)

theorem contains_gaps : CharSet.contains ⟨[(0x9, 0x9), (0x20, 0x20)]⟩ = isGap := by
  funext c
  have hspace : c = ' ' ↔ c.toNat = 32 := Char.toNat_inj.symm
  have htab : c = '\t' ↔ c.toNat = 9 := Char.toNat_inj.symm
  rw [Bool.eq_iff_iff]
  simp [CharSet.contains, CharSet.has, CharSet.inRanges, isGap, hspace, htab]
  omega

theorem verdict_spaces (rest : Text) : Segmentation.verdict .spaces rest =
    if rest.takeWhile isGap = [] then .ok none else .ok (some [some (rest.takeWhile isGap)]) := by
  have hsource : Pattern.spaces.source.toList.head? = some '^' := by decide
  have hrun := Segmentation.verdict_run hsource ⟨[(0x9, 0x9), (0x20, 0x20)]⟩ rest
  rwa [contains_gaps] at hrun

/-- The cursor went over a gap, and all else is as it was. -/
structure Machine.Skips (m : Machine) (gap : Text) (n : Machine) : Prop where
  steps : m.lexer.pass.Steps n.lexer.pass gap gap
  tokens : n.lexer.pass.tokens = m.lexer.pass.tokens
  queue : n.lexer.pass.queue = m.lexer.pass.queue
  stack : n.lexer.pass.stack = m.lexer.pass.stack
  stash : n.lexer.pass.stash = m.lexer.pass.stash
  output : n.lexer.pass.output = m.lexer.pass.output
  indent : n.lexer.pass.indent = m.lexer.pass.indent
  registry : n.lexer.registry = m.lexer.registry
  options : n.lexer.options = m.lexer.options
  journal : n.journal = m.journal

variable {m : Machine} {gap after : Text}

theorem Machine.Skips.past (h : m.lexer.pass.rest = gap ++ after) :
    m.Skips gap (m.withPass (m.lexer.pass.past gap after)) where
  steps := ⟨rfl, h, rfl, by simp [Pass.consumed, Pass.past, withPass], rfl⟩
  tokens := rfl
  queue := rfl
  stack := rfl
  stash := rfl
  output := rfl
  indent := rfl
  registry := rfl
  options := rfl
  journal := rfl

namespace LexM

theorem skipSpaces_of_no_gap (h : m.lexer.pass.rest.takeWhile isGap = []) :
    skipSpaces m = some (.ok none, m) := by
  have hverdict := verdict_spaces m.lexer.pass.rest
  rw [if_pos h] at hverdict
  rw [skipSpaces, bind_of_ok (matchPattern_of_none hverdict)]
  rfl

theorem skipSpaces_of_gap (h : m.lexer.pass.rest.takeWhile isGap = gap) (hgap : gap ≠ [])
    (hrest : m.lexer.pass.rest = gap ++ after) :
    skipSpaces m = some (.ok (some gap), m.withPass (m.lexer.pass.past gap after)) := by
  have hverdict := verdict_spaces m.lexer.pass.rest
  rw [h, if_neg hgap] at hverdict
  rw [skipSpaces, bind_of_ok (matchPattern_of_match hverdict hrest)]
  rfl

/-- Whether there is a gap or not, the cursor is behind it in the end. -/
theorem skipSpaces_apply (m : Machine) :
    skipSpaces m =
      some (.ok (if m.lexer.pass.rest.takeWhile isGap = [] then none
          else some (m.lexer.pass.rest.takeWhile isGap)),
        m.withPass (m.lexer.pass.past (m.lexer.pass.rest.takeWhile isGap)
          (m.lexer.pass.rest.dropWhile isGap))) := by
  have hsplit : m.lexer.pass.rest = _ ++ m.lexer.pass.rest.dropWhile isGap :=
    List.takeWhile_append_dropWhile.symm
  by_cases hgap : m.lexer.pass.rest.takeWhile isGap = []
  · rw [hgap, List.nil_append] at hsplit
    rw [if_pos hgap, hgap, ← hsplit, Pass.past_nil]
    exact skipSpaces_of_no_gap hgap
  · rw [if_neg hgap]
    exact skipSpaces_of_gap rfl hgap hsplit

/-- Skipping spaces never fails. It takes the longest front of the rest that is made of spaces and
tabs and gives it back; where that is empty it gives back none and does nothing. Nothing but the
cursor moves and no observer is told. What is left does not begin with a space or a tab, so skipping
again gives back none and does nothing. -/
theorem skipSpaces_takes_gap (m : Machine) :
    ∃ gap n, LongestFront isGap m.lexer.pass.rest gap ∧
      skipSpaces m = some (.ok (if gap = [] then none else some gap), n) ∧
      m.Skips gap n ∧ (gap = [] → n = m) ∧
      (∀ c ∈ n.lexer.pass.rest.head?, c ≠ ' ' ∧ c ≠ '\t') ∧
      skipSpaces n = some (.ok none, n) := by
  have hsplit : m.lexer.pass.rest = _ ++ m.lexer.pass.rest.dropWhile isGap :=
    List.takeWhile_append_dropWhile.symm
  have hstops := Text.stops_dropWhile isGap m.lexer.pass.rest
  refine ⟨_, _, Text.longestFront_takeWhile isGap m.lexer.pass.rest, skipSpaces_apply m,
    .past hsplit, ?_, ?_, ?_⟩
  · intro hgap
    rw [hgap, List.nil_append] at hsplit
    rw [hgap, ← hsplit, Pass.past_nil]
    rfl
  · intro c hc
    simpa [isGap] using hstops c hc
  · exact skipSpaces_of_no_gap (Text.takeWhile_of_stops hstops)

/-- A newline ends a gap. -/
example : (skipSpaces (.fresh " \t \n b" [])).map (·.1) = some (.ok (some " \t ".toList)) := by
  decide +kernel

end LexM

end ModularLexer
