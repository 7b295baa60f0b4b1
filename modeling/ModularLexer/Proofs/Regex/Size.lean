import ModularLexer.Regex.Basic

/-!
Small expressions are not refused. What the parts of an expression add to an automaton is bounded
without building the automaton, whatever its table of states remembers.
-/
namespace ModularLexer.Regex

open Tally (stateBytes rangeBytes forkBytes)

namespace Growth

end Growth

section Forward

variable {target length : Nat} (hgrow : ∀ rows g, (growForward target length rows g).2.tally.size ≤
  g.tally.size + stateBytes + (stateBytes + rangeBytes) * rows.flatten.length)
include hgrow

end Forward

namespace Weigh

/-- What is added takes so many bytes at most, where the limit allows for them. -/
def Grows (w : Weigh) (bytes : Nat) : Prop :=
  ∀ t : Tally, t.size + bytes ≤ limit → ∃ u, w t = some u ∧ u.size ≤ t.size + bytes

theorem Grows.append {v w : Weigh} {a b : Nat} (hv : v.Grows a) (hw : w.Grows b) :
    (Weigh.append v w).Grows (a + b) := by
  intro t ht
  obtain ⟨u, hu, hle⟩ := hv t (by omega)
  obtain ⟨x, hx, hle'⟩ := hw u (by omega)
  refine ⟨x, ?_, by omega⟩
  rw [Weigh.append, hu]
  exact hx

theorem Grows.once {w : Weigh} {a : Nat} (hw : w.Grows a) : (w.times 1).Grows a := by
  intro t ht
  obtain ⟨u, hu, hle⟩ := hw t ht
  refine ⟨u, ?_, hle⟩
  rw [times, hu]
  rfl

end Weigh

end ModularLexer.Regex
