import ModularLexer.Proofs.Frame
import ModularLexer.Proofs.Registration

/-!
Advancing is handling kinds by name. The handlers are tried by their places, while those that run
may register others; yet each place is that of the kind that stood there at the start, and what
stands there by then is what is found under the kind.
-/
namespace ModularLexer

/-- Kinds keep their places whatever runs, and each still stands once. -/
theorem FrameRule.kinds {D : Discipline} : FrameRule D fun m n =>
    m.lexer.registry.kinds <+: n.lexer.registry.kinds ∧
      (m.lexer.registry.kinds.Nodup → n.lexer.registry.kinds.Nodup) where
  refl _ := ⟨List.prefix_rfl, id⟩
  trans hm hn := ⟨hm.1.trans hn.1, hn.2 ∘ hm.2⟩
  consume _ := ⟨List.prefix_rfl, id⟩
  consumeAs _ _ := ⟨List.prefix_rfl, id⟩
  move _ _ _ _ := ⟨List.prefix_rfl, id⟩
  start _ _ _ := ⟨List.prefix_rfl, id⟩
  queue _ _ := ⟨List.prefix_rfl, id⟩
  push _ _ := ⟨List.prefix_rfl, id⟩
  pushStack _ _ _ := ⟨List.prefix_rfl, id⟩
  popStack _ _ := ⟨List.prefix_rfl, id⟩
  append _ _ _ := ⟨List.prefix_rfl, id⟩
  register m kind _ _ := ⟨m.lexer.registry.kinds_prefix_set kind _,
    fun h => Registry.nodup_kinds_set h kind _⟩
  record _ _ := ⟨List.prefix_rfl, id⟩
  fork _ := ⟨List.prefix_rfl, id⟩

namespace LexM

variable (call : Handler → LexM (Option Token))

def handleFirst : List String → LexM (Option Token)
  | [] => return none
  | kind :: kinds => do
    match ← handle call kind with
    | some t => return some t
    | none => handleFirst kinds

/-- Handles the kinds that are registered at the start, up to the first that makes a token. Where
none does there is no token at the end of the input, and what is left is an error. -/
def handleAll : LexM (Option Token) := do
  match ← handleFirst call (← lexer).registry.kinds with
  | some t => return some t
  | none =>
    let p ← pass
    if p.rest.isEmpty then return none else throw p.unmatched

variable {call}

theorem handle_of_entryAt? {m : Machine} (hm : m.lexer.registry.kinds.Nodup) {i : Nat}
    {kind : String} {handler : Handler}
    (h : m.lexer.registry.entryAt? i = some (kind, handler)) :
    handle call kind m = runHandler call kind handler m := by
  rw [handle, bind_of_ok (lexer_apply m), Registry.get_of_entryAt? hm h]
  rfl

variable {m n : Machine} {depth : Nat}

theorem Within.runHandler {D : Discipline} {R : Machine → Machine → Prop} (hR : FrameRule D R)
    (hcall : ∀ h, D.known h → Within D R (call h)) (kind : String) {handler : Handler}
    (hknown : D.known handler) : Within D R (runHandler call kind handler) := by
  have h := (closed hR).runHandler (lifted hcall) kind hknown
  rwa [Watched.value_runHandler] at h

theorem kinds_of_runHandler {kind : String} {handler : Handler}
    {r : Except LexError (Option Token)}
    (h : runHandler (Handler.call depth) kind handler m = some (r, n)) :
    m.lexer.registry.kinds <+: n.lexer.registry.kinds ∧
      (m.lexer.registry.kinds.Nodup → n.lexer.registry.kinds.Nodup) :=
  (Within.runHandler (D := .all) .kinds (fun _ => Handler.within_call .kinds depth) kind trivial
    m.obeys_all h).1

/-- Trying handlers at the places of kinds is handling the kinds. -/
theorem tryHandlers_eq_handleFirst {front kinds : List String}
    (hm : m.lexer.registry.kinds.Nodup)
    (hkinds : front ++ kinds <+: m.lexer.registry.kinds) :
    tryHandlers (Handler.call depth) kinds.length front.length m =
      handleFirst (Handler.call depth) kinds m := by
  induction kinds generalizing front m with
  | nil => rfl
  | cons kind kinds ih =>
    have hplace : m.lexer.registry.kinds[front.length]? = some kind := by
      obtain ⟨later, hlater⟩ := hkinds
      rw [← hlater, List.append_assoc, List.getElem?_append_right (Nat.le_refl _), Nat.sub_self]
      rfl
    obtain ⟨handler, hentry⟩ := Registry.exists_entryAt? hplace
    have hhandle := @handle_of_entryAt? (Handler.call depth) m hm _ kind handler hentry
    rw [List.length_cons, tryHandlers_succ hentry, handleFirst]
    rcases hrun : runHandler (Handler.call depth) kind handler m with _ | ⟨e | _ | t, k⟩
    · rw [bind_of_timeout hrun, bind_of_timeout (hhandle.trans hrun)]
    · rw [bind_of_error hrun, bind_of_error (hhandle.trans hrun)]
    · -- What ran may have registered kinds, but behind those that are there.
      obtain ⟨hgrow, hnodup⟩ := kinds_of_runHandler hrun
      have hlater : (front ++ [kind]) ++ kinds <+: k.lexer.registry.kinds := by
        rw [List.append_assoc]
        exact hkinds.trans hgrow
      have hrest := ih (hnodup hm) hlater
      rw [List.length_append, List.length_singleton] at hrest
      rw [bind_of_ok hrun, bind_of_ok (hhandle.trans hrun)]
      exact hrest
    · rw [bind_of_ok hrun, bind_of_ok (hhandle.trans hrun)]

/-- After so many handlers were tried in order, none of which made a token. -/
inductive Passed (call : Handler → LexM (Option Token)) (m : Machine) : Nat → Machine → Prop
  | start : Passed call m 0 m
  | step {i : Nat} {k n : Machine} {kind : String} {handler : Handler} :
    Passed call m i k → k.lexer.registry.entryAt? i = some (kind, handler) →
    runHandler call kind handler k = some (.ok none, n) → Passed call m (i + 1) n

theorem Passed.kinds {i : Nat} {k : Machine} (h : Passed (Handler.call depth) m i k)
    (hm : m.lexer.registry.kinds.Nodup) :
    m.lexer.registry.kinds <+: k.lexer.registry.kinds ∧ k.lexer.registry.kinds.Nodup := by
  induction h with
  | start => exact ⟨List.prefix_rfl, hm⟩
  | step _ _ hrun ih =>
    obtain ⟨hgrow, hnodup⟩ := kinds_of_runHandler hrun
    exact ⟨ih.1.trans hgrow, hnodup ih.2⟩

/-- Without an observer of errors advancing is handling the kinds that are registered when it
starts, in order, up to the first that makes a token, with the same outcome and leaving the same
machine, whatever the handlers do. When a place comes to its turn it is taken, by the kind that
stood there at the start, and the handler that is run is the one found under it by then. -/
theorem advance_eq_handleAll (hmode : m.lexer.options.mode = .token)
    (hquiet : m.lexer.options.hooks.onError = false) (hrest : m.lexer.pass.rest ≠ [])
    (hkinds : m.lexer.registry.kinds.Nodup) :
    advance (Handler.call depth) m = handleAll (Handler.call depth) m ∧
      ∀ i k, i < m.lexer.registry.size → Passed (Handler.call depth) m i k →
        ∃ kind handler, m.lexer.registry.kinds[i]? = some kind ∧
          k.lexer.registry.entryAt? i = some (kind, handler) ∧
          k.lexer.registry.get kind = .ok handler := by
  constructor
  · have hsilent : ∀ e k, derive (Handler.call depth) m = some (.error e, k) →
        k.lexer.options.hooks.onError = false := by
      intro e k hk
      rw [(Within.derive (D := .all) .options (fun _ => Handler.within_call .options depth)
        m.obeys_all hk).1]
      exact hquiet
    have htries := @tryHandlers_eq_handleFirst m depth [] m.lexer.registry.kinds hkinds
      List.prefix_rfl
    have hsize : m.lexer.registry.kinds.length = m.lexer.registry.size := List.length_map _
    rw [hsize, List.length_nil] at htries
    rw [advance_apply hsilent, derive_of_token hrest hmode, handleAll, bind_of_ok (lexer_apply m)]
    exact bind_eq_bind htries
  · intro i k hi hpassed
    obtain ⟨hgrow, hnodup⟩ := hpassed.kinds hkinds
    have hplace : i < m.lexer.registry.kinds.length := by
      rw [Registry.kinds, List.length_map]
      exact hi
    have hkind := List.getElem?_eq_getElem hplace
    obtain ⟨handler, hentry⟩ := Registry.exists_entryAt? (List.prefix_iff_getElem?.1 hgrow i hplace)
    exact ⟨_, handler, hkind, hentry, Registry.get_of_entryAt? hnodup hentry⟩

/-- A letter whose handler is replaced before its turn, by one that also registers another kind. -/
def replacedLetter : Machine :=
  .fresh "b" [
    ("first", .mk do
      Program.register "letter" (.ofPattern "letter" (.letter 'b'))
      Program.register "late" (.ofPattern "late" (.letter 'b'))
      return none),
    ("letter", .ofPattern "letter" (.letter 'a'))]

/-- The new handler of the letter is run at its turn, and the kind that was added is not tried. -/
theorem advance_eq_handleAll_replaced :
    replacedLetter.lexer.pass.rest ≠ [] ∧ replacedLetter.lexer.registry.kinds.Nodup ∧
      advance (Handler.call 1) replacedLetter = handleAll (Handler.call 1) replacedLetter ∧
      (∀ i k, i < replacedLetter.lexer.registry.size → Passed (Handler.call 1) replacedLetter i k →
        ∃ kind handler, replacedLetter.lexer.registry.kinds[i]? = some kind ∧
          k.lexer.registry.entryAt? i = some (kind, handler) ∧
          k.lexer.registry.get kind = .ok handler) ∧
      ∃ t? n, handleAll (Handler.call 1) replacedLetter = some (.ok t?, n) ∧
        t?.map (·.kind) = some "letter" ∧ n.lexer.registry.kinds = ["first", "letter", "late"] := by
  have hrest : replacedLetter.lexer.pass.rest ≠ [] := by decide
  have hkinds : replacedLetter.lexer.registry.kinds.Nodup := by decide
  have hrun : shown (advance (Handler.call 1)) replacedLetter (·.map (·.kind))
      (·.lexer.registry.kinds) = some (some (some "letter"), ["first", "letter", "late"]) := by
    decide +kernel
  obtain ⟨t?, n, hadvance, ht, hn⟩ := exists_of_shown hrun
  obtain ⟨hsame, hturns⟩ := @advance_eq_handleAll replacedLetter 1 rfl rfl hrest hkinds
  exact ⟨hrest, hkinds, hsame, hturns, t?, n, hsame ▸ hadvance, ht, hn⟩

end LexM

/-- Where each kind stands once it still does after programs have run. Registries that are filled by
registering begin so. -/
theorem Program.nodup_kinds {α : Type} {p : Program Handler α} {bound : Nat} {m n : Machine}
    {r : Except LexError α} (hm : m.lexer.registry.kinds.Nodup)
    (h : p.exec bound m = some (r, n)) : n.lexer.registry.kinds.Nodup :=
  (Program.within_run (D := .all) .kinds (fun _ => Handler.within_call .kinds bound) bound
    p.uses_all m.obeys_all h).1.2 hm

end ModularLexer
