import ModularLexer.Proofs.Slices.Cutting

/-!
Matching takes its match or nothing. All that a pattern can be refused for is found out before
anything is taken, and taking what was matched cannot fail.
-/
namespace ModularLexer

open Segmentation (fullText groupsAt? verdict fullText_groupTexts)

namespace Pattern

variable {p : Pattern} {rest : Text} {found : Regex.Match}

end Pattern

/-- What was matched is taken, and nothing but the cursor moves: all else of the pass, the handlers,
the set-up and the journal stay as they are. What was searched is what was left before. -/
structure Taking (m : Machine) (taken : Text) (c : Captures) (n : Machine) : Prop where
  full : c.full = taken
  index : c.index = m.lexer.pass.offset
  target : m.lexer.pass.Placed → c.target = m.lexer.pass.rest
  rest : m.lexer.pass.rest = taken ++ n.lexer.pass.rest
  consumed : n.lexer.pass.consumed = m.lexer.pass.consumed ++ taken
  position : n.lexer.pass.position = m.lexer.pass.position.advance taken taken.byteLength
  kept : n = m.withPass { m.lexer.pass with
    offset := m.lexer.pass.offset + taken.byteLength
    rest := n.lexer.pass.rest
    behind := n.lexer.pass.behind
    position := n.lexer.pass.position }

theorem Taking.past {m : Machine} {groups : List (Option Text)} {after : Text}
    (h : m.lexer.pass.rest = fullText groups ++ after) :
    Taking m (fullText groups) ⟨groups, m.lexer.pass.offset, m.lexer.pass.input⟩
      (m.withPass (m.lexer.pass.past (fullText groups) after)) where
  full := rfl
  index := rfl
  target hm := hm.target groups
  rest := h
  consumed := by
    show ((fullText groups).reverse ++ m.lexer.pass.behind).reverse = _
    rw [List.reverse_append, List.reverse_reverse]
    rfl
  position := rfl
  kept := rfl

namespace LexM

variable {p : Pattern} {m : Machine}

end LexM

end ModularLexer
