import ModularLexer.Proofs.Effects

/-!
What computations without handlers do to a machine: whatever each single effect of theirs keeps to,
they keep to, and they leave the handlers alone.
-/
namespace ModularLexer

/-- A relation from the machine before to the machine after, kept to by each single effect of what
a lexer does without calling handlers. -/
structure EffectRule (R : Machine → Machine → Prop) : Prop where
  refl (m : Machine) : R m m
  trans {m n k : Machine} : R m n → R n k → R m k
  consume {m : Machine} {bytes : Nat} {taken : Text} {p : Pass} :
    m.lexer.pass.consume bytes = .ok (taken, p) → R m (m.withPass p)
  queue (m : Machine) (queue : List Token) : R m (m.withQueue queue)
  push (m : Machine) (t : Token) : R m (m.withPass (m.lexer.pass.push t))
  record (m : Machine) (e : Event) : R m { m with journal := m.journal.push e }

namespace LexM

variable {α β : Type} {R : Machine → Machine → Prop}

/-- However a computation ends, the machine it leaves is related to the one before and has the same
handlers. -/
def Moves (R : Machine → Machine → Prop) (x : LexM α) : Prop :=
  ∀ ⦃m r n⦄, x m = some (r, n) → R m n ∧ n.lexer.registry = m.lexer.registry

namespace Moves

variable (hR : EffectRule R)

include hR

theorem still {x : LexM α} (hx : ∀ ⦃m r n⦄, x m = some (r, n) → n = m) : Moves R x := by
  intro m r n h
  rw [hx h]
  exact ⟨hR.refl m, rfl⟩

theorem pure (a : α) : Moves R (Pure.pure a : LexM α) := by
  apply still hR
  intro m r n h
  cases h
  rfl

theorem throw (e : LexError) : Moves R (throw e : LexM α) := by
  apply still hR
  intro m r n h
  cases h
  rfl

theorem ofExcept (r : Except LexError α) : Moves R (ofExcept r) := by
  cases r with
  | ok a => exact pure hR a
  | error e => exact throw hR e

theorem lexer : Moves R lexer := by
  apply still hR
  intro m r n h
  cases h
  rfl

theorem pass : Moves R pass := by
  apply still hR
  intro m r n h
  cases h
  rfl

theorem bind {x : LexM α} {f : α → LexM β} (hx : Moves R x) (hf : ∀ a, Moves R (f a)) :
    Moves R (x >>= f) := by
  intro m r n h
  rcases bind_eq_some_iff.1 h with ⟨a, k, ha, hr⟩ | ⟨e, he, -⟩
  · obtain ⟨hmk, hk⟩ := hx ha
    obtain ⟨hkn, hn⟩ := hf a hr
    exact ⟨hR.trans hmk hkn, hn.trans hk⟩
  · exact hx he

theorem setQueue (queue : List Token) : Moves R (setQueue queue) := by
  intro m r n h
  cases h
  exact ⟨hR.queue m queue, rfl⟩

theorem record (e : Event) : Moves R (record e) := by
  intro m r n h
  cases h
  exact ⟨hR.record m e, rfl⟩

theorem notify (installed : Hooks → Bool) (e : Event) : Moves R (notify installed e) := by
  apply bind hR (lexer hR)
  intro l
  split
  · exact record hR e
  · exact pure hR ()

theorem report (e : LexError) : Moves R (report e) := by
  apply bind hR (lexer hR)
  intro l
  split
  · exact record hR _
  · exact throw hR e

theorem consume (bytes : Nat) : Moves R (consume bytes) := by
  intro m r n h
  rcases consume_cases h with ⟨e, -, rfl⟩ | ⟨taken, p, hc, -, rfl⟩
  · exact ⟨hR.refl n, rfl⟩
  · exact ⟨hR.consume hc, rfl⟩

theorem matchPattern (pattern : Pattern) : Moves R (matchPattern pattern) := by
  apply bind hR (ofExcept hR _)
  intro _
  apply bind hR (pass hR)
  intro p
  split
  · exact pure hR none
  · split
    · exact throw hR _
    · exact bind hR (consume hR _) fun _ => pure hR _

theorem skipSpaces : Moves R skipSpaces :=
  bind hR (matchPattern hR _) fun _ => pure hR _

theorem token (kind : String) (value : Option Text) : Moves R (token kind value) :=
  bind hR (notify hR _ _) fun _ => pure hR _

theorem tokenFrom (kind : String) (captures : Captures) : Moves R (tokenFrom kind captures) :=
  bind hR (notify hR _ _) fun _ => pure hR _

theorem locationFrom (start : Position) : Moves R (locationFrom start) :=
  bind hR (lexer hR) fun _ => pure hR _

theorem scan (pattern : Pattern) (kind : String) : Moves R (scan pattern kind) := by
  apply bind hR (pass hR)
  intro p
  apply bind hR (matchPattern hR pattern)
  intro captures?
  cases captures? with
  | none => exact pure hR none
  | some captures =>
    apply bind hR (tokenFrom hR kind captures)
    intro t
    apply bind hR (locationFrom hR p.position)
    intro l
    exact bind hR (notify hR _ _) fun _ => pure hR _

theorem characterToken (c : Char) : Moves R (characterToken c) := by
  apply bind hR (pass hR)
  intro p
  apply bind hR (consume hR _)
  intro taken
  apply bind hR (token hR _ _)
  intro t
  exact bind hR (locationFrom hR _) fun _ => pure hR _

theorem push (t : Token) : Moves R (push t) := by
  apply bind hR (notify hR _ _)
  intro _ m r n h
  cases h
  exact ⟨hR.push m t, rfl⟩

theorem enqueue (t : Token) : Moves R (modifyPass (·.enqueue t)) := by
  intro m r n h
  cases h
  exact ⟨hR.queue m (m.queue ++ [t]), rfl⟩

theorem dequeue : Moves R dequeue := by
  intro m r n h
  rw [dequeue_apply] at h
  cases h
  exact ⟨hR.queue m _, rfl⟩

theorem finish : Moves R finish := by
  apply bind hR (pass hR)
  intro p
  split
  · exact report hR _
  · exact pure hR ()

end Moves

end LexM

end ModularLexer
