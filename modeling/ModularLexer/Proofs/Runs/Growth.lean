import ModularLexer.Proofs.Registration
import ModularLexer.Proofs.Runs.Conducts

/-!
A pass only grows. As long as no one starts over, what was consumed, the tokens and the registered
kinds stay where they are and more comes behind them, whether what is done succeeds or fails. The
tokens that come are located from where the cursor was to where it is.
-/
namespace ModularLexer

def Request.GoesOn : Request → Prop
  | init _ => False
  | tokenize _ => False
  | _ => True

/-- A pass has gone on from another one: the input is the same, more may be consumed, and more
tokens may be on the list. -/
structure Pass.Grows (p q : Pass) : Prop where
  input : q.input = p.input
  consumed : p.consumed <+: q.consumed
  offset : p.offset ≤ q.offset
  tokens : p.tokens.toList <+: q.tokens.toList

/-- The pass has gone on, and new kinds were registered behind the old ones, each only once. -/
structure Machine.Grows (m n : Machine) : Prop where
  pass : m.lexer.pass.Grows n.lexer.pass
  kinds : m.lexer.registry.kinds <+: n.lexer.registry.kinds
  nodup : m.lexer.registry.kinds.Nodup → n.lexer.registry.kinds.Nodup

namespace Pass

variable {p q k : Pass}

theorem Grows.of_samePlace (h : p.SamePlace q) (htokens : p.tokens.toList <+: q.tokens.toList) :
    p.Grows q where
  input := h.input
  consumed := h.consumed ▸ List.prefix_refl _
  offset := Nat.le_of_eq h.offset.symm
  tokens := htokens

theorem Grows.refl (p : Pass) : p.Grows p :=
  .of_samePlace ⟨rfl, rfl, rfl, rfl, rfl⟩ (List.prefix_refl _)

theorem Grows.trans (h : p.Grows q) (h' : q.Grows k) : p.Grows k where
  input := h'.input.trans h.input
  consumed := h.consumed.trans h'.consumed
  offset := Nat.le_trans h.offset h'.offset
  tokens := h.tokens.trans h'.tokens

theorem grows_move (p : Pass) (value : Text) (bytes : Nat) : p.Grows (p.move value bytes) where
  input := rfl
  consumed := List.prefix_refl _
  offset := Nat.le_refl _
  tokens := List.prefix_refl _

/-- Counting a text as consumed makes it come behind what was consumed before. -/
theorem grows_taken (p : Pass) (value rest : Text) (bytes : Nat) :
    p.Grows { p.move value bytes with
      offset := p.offset + bytes, rest := rest, behind := value.reverse ++ p.behind } where
  input := rfl
  consumed := ⟨value, by simp [consumed]⟩
  offset := Nat.le_add_right _ _
  tokens := List.prefix_refl _

theorem grows_push (p : Pass) (t : Token) : p.Grows (p.push t) := by
  apply Grows.of_samePlace (.push p t)
  show p.tokens.toList <+: (p.tokens.push t).toList
  rw [Array.toList_push]
  exact List.prefix_append _ _

theorem grows_popStack (p : Pass) : p.Grows p.popStack.2 := by
  apply Grows.of_samePlace (.popStack p)
  unfold popStack
  split <;> exact List.prefix_refl _

theorem grows_append (p : Pass) (value : Text) : p.Grows (p.append value) := by
  apply Grows.of_samePlace (.append p value)
  unfold append
  split
  · exact List.prefix_refl _
  · split <;> exact List.prefix_refl _

end Pass

namespace Machine

variable {m n : Machine}

/-- Where only the pass goes on the registry is what it was. -/
theorem Grows.of_pass {p : Pass} (h : m.lexer.pass.Grows p) : m.Grows (m.withPass p) :=
  ⟨h, List.prefix_refl _, id⟩

theorem Grows.refl (m : Machine) : m.Grows m := ⟨.refl _, List.prefix_refl _, id⟩

theorem grows_register (m : Machine) (kind : String) (handler : Handler) :
    m.Grows (m.register kind handler) where
  pass := .refl _
  kinds := by
    show m.lexer.registry.kinds <+: (m.lexer.registry.set kind handler).kinds
    rw [Registry.kinds_set]
    split
    · exact List.prefix_refl _
    · exact List.prefix_append _ _
  nodup h := Registry.nodup_kinds_set h kind handler

end Machine

theorem EffectRule.grows : EffectRule Machine.Grows where
  refl := .refl
  trans h h' := ⟨h.pass.trans h'.pass, h.kinds.trans h'.kinds, h'.nodup ∘ h.nodup⟩
  consume {m bytes taken p} h := by
    obtain ⟨rest, -, -, rfl⟩ := Pass.consume_eq_ok_iff.1 h
    exact .of_pass (m.lexer.pass.grows_taken taken rest bytes)
  queue m queue := .of_pass (.of_samePlace (.queue _ queue) (List.prefix_refl _))
  push m t := .of_pass (m.lexer.pass.grows_push t)
  record _ _ := ⟨.refl _, List.prefix_refl _, id⟩

/-- Everything that goes on makes a pass grow. -/
theorem ConductRule.grows {K : Conduct} (hK : ∀ r, K.allowed r → r.GoesOn) :
    ConductRule K (fun _ _ => True) Machine.Grows where
  toEffectRule := .grows
  consumeAs {m bytes value p} _ _ h := by
    obtain ⟨_, rest, -, -, rfl⟩ := Pass.consumeAs_eq_ok_iff.1 h
    exact .of_pass (m.lexer.pass.grows_taken value rest bytes)
  move m value bytes _ _ := .of_pass (m.lexer.pass.grows_move value bytes)
  start m input h := by
    rcases h with h | h
    · exact (hK _ h).elim
    · exact (hK _ h).elim
  pushStack m t _ := .of_pass (.of_samePlace (.pushStack _ t) (List.prefix_refl _))
  popStack m _ := .of_pass m.lexer.pass.grows_popStack
  append m value _ := .of_pass (m.lexer.pass.grows_append value)
  register m kind handler _ := m.grows_register kind handler
  forked _ _ := ⟨.refl _, List.prefix_refl _, id⟩

namespace LexM

variable {m n : Machine}

/-- The token of a scan is located from where the scan starts to where it ends. -/
theorem location_of_scan {pattern : Pattern} {kind : String} {t : Token}
    (h : scan pattern kind m = some (.ok (some t), n)) :
    t.location = some (n.lexer.locationFrom m.lexer.pass.position) := by
  unfold scan at h
  rw [bind_of_ok (pass_apply m)] at h
  rcases bind_eq_some_iff.1 h with ⟨_ | captures, k, -, hk⟩ | ⟨e, -, hne⟩
  · cases hk
  · dsimp only at hk
    rw [bind_of_ok (tokenFrom_apply kind captures k), bind_of_ok (locationFrom_apply _ _),
      bind_of_ok (notify_apply _ _ _)] at hk
    cases hk
    rw [Machine.lexer_told _ (·.onScan)]
  · cases hne

/-- The token of a character is located from where the character starts to where it ends. -/
theorem location_of_characterToken {c : Char} {t : Token}
    (h : characterToken c m = some (.ok t, n)) :
    t.location = some (n.lexer.locationFrom m.lexer.pass.position) := by
  unfold characterToken at h
  rw [bind_of_ok (pass_apply m)] at h
  rcases bind_eq_some_iff.1 h with ⟨taken, k, -, hk⟩ | ⟨e, -, hne⟩
  · rcases bind_eq_some_iff.1 hk with ⟨t', j, -, hj⟩ | ⟨e, -, hne⟩
    · rw [bind_of_ok (locationFrom_apply _ j)] at hj
      cases hj
      rfl
    · cases hne
  · cases hne

/-- A token that its handler did not locate is located from where the handler starts to where it
ends. -/
theorem location_of_runHandler {call : Handler → LexM (Option Token)} {kind : String}
    {handler : Handler} {t : Token} (h : runHandler call kind handler m = some (.ok (some t), n)) :
    ∃ made, call handler m = some (.ok (some made), n) ∧
      t.location = some (made.location.getD (n.lexer.locationFrom m.lexer.pass.position)) := by
  unfold runHandler at h
  rw [bind_of_ok (pass_apply m)] at h
  rcases bind_eq_some_iff.1 h with ⟨_ | made, k, hmade, hk⟩ | ⟨e, -, hne⟩
  · cases hk
  · dsimp only at hk
    rw [bind_of_ok (locationFrom_apply _ k)] at hk
    cases hk
    refine ⟨made, hmade, ?_⟩
    unfold Token.withLocation Token.withKind
    rcases hl : made.location with _ | l
    · split <;> simp [hl]
    · split <;> simp [hl]
  · cases hne

end LexM

end ModularLexer
