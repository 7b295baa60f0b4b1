import ModularLexer.Proofs.Moves
import ModularLexer.Proofs.Runs.Sights

/-!
What holds of everything that calls handlers because it holds of the handlers. The parts that
drivers are made of are listed once; a property that is closed under them holds of each driver.
-/
namespace ModularLexer

namespace Registry

variable {α : Type} {r : Registry α} {kind : String}

theorem mem_of_get {value : α} (h : r.get kind = .ok value) :
    ∃ entry ∈ r.entries, entry.2 = value := by
  unfold get find? at h
  cases hf : r.entries.find? (·.1 == kind) with
  | none =>
    rw [hf] at h
    cases h
  | some entry =>
    rw [hf] at h
    cases h
    exact ⟨entry, List.mem_of_find?_eq_some hf, rfl⟩

end Registry

/-- Whether a request does something to a pass that no driver does. -/
def Request.own : Request → Bool
  | consumeAs .. => true
  | move .. => true
  | init _ => true
  | tokenize _ => true
  | pushStack _ => true
  | popStack => true
  | append _ => true
  | _ => false

namespace Watched

/-- A property of computations that is closed under what drivers are made of: effects without
handlers, what follows one another, errors made results. What goes on from the lexer may count on
its handlers being known. -/
structure Closed (known : Handler → Prop) (C : (α : Type) → Watched α → Prop) : Prop where
  plain {α : Type} {x : LexM α} : (∀ ⦃R⦄, EffectRule R → LexM.Moves R x) → C α (lift x)
  timeout (α : Type) : C α (lift LexM.timeout)
  bind {α β : Type} {x : Watched α} {f : α → Watched β} :
    C α x → (∀ a, C β (f a)) → C β (x >>= f)
  lexer_bind {β : Type} {f : Lexer → Watched β} :
    (∀ l : Lexer, (∀ entry ∈ l.registry.entries, known entry.2) → C β (f l)) →
      C β (lift LexM.lexer >>= f)
  attempt {α : Type} {x : Watched α} : C α x → C _ (attempt x)
  derived (t : Token) : C Unit (see fun _ => .derived t)

namespace Closed

variable {known : Handler → Prop} {C : (α : Type) → Watched α → Prop}
  {call : Handler → Watched (Option Token)} {α β : Type} (hC : Closed known C)

include hC

theorem pure (a : α) : C α (Pure.pure a) := hC.plain fun _ hR => .pure hR a

theorem throw (e : LexError) : C α (lift (LexM.throw e)) := hC.plain fun _ hR => .throw hR e

theorem pass_bind {f : Pass → Watched β} (hf : ∀ p, C β (f p)) : C β (lift LexM.pass >>= f) :=
  hC.bind (hC.plain fun _ hR => .pass hR) hf

theorem setQueue_bind {f : Unit → Watched β} (queue : List Token) (hf : C β (f ())) :
    C β (lift (LexM.setQueue queue) >>= f) :=
  hC.bind (hC.plain fun _ hR => .setQueue hR queue) fun _ => hf

/-- What goes on from a result that is already there may count on what it is. -/
theorem ofExcept_bind {r : Except LexError α} {f : α → Watched β}
    (hf : ∀ a, r = .ok a → C β (f a)) : C β (lift (LexM.ofExcept r) >>= f) := by
  cases r with
  | ok a => exact hf a rfl
  | error e => exact hC.throw e

section Drivers

variable (hcall : ∀ h, known h → C _ (call h))

include hcall

theorem runHandler (kind : String) {handler : Handler} (hknown : known handler) :
    C _ (runHandler call kind handler) := by
  apply hC.pass_bind
  intro p
  apply hC.bind (hcall handler hknown)
  intro t?
  cases t? with
  | none => exact hC.pure none
  | some t => exact hC.bind (hC.plain fun _ hR => .locationFrom hR _) fun _ => hC.pure _

theorem handle (kind : String) : C _ (handle call kind) := by
  apply hC.lexer_bind
  intro l hl
  apply hC.ofExcept_bind
  intro handler hget
  obtain ⟨entry, hentry, rfl⟩ := Registry.mem_of_get hget
  exact hC.runHandler hcall kind (hl entry hentry)

theorem callKind (kind : String) : C _ (callKind call kind) := by
  apply hC.lexer_bind
  intro l hl
  apply hC.ofExcept_bind
  intro handler hget
  obtain ⟨entry, hentry, rfl⟩ := Registry.mem_of_get hget
  exact hcall entry.2 (hl entry hentry)

theorem tryHandlers (count i : Nat) : C _ (tryHandlers call count i) := by
  induction count generalizing i with
  | zero => exact hC.pure none
  | succ count ih =>
    apply hC.lexer_bind
    intro l hl
    rcases hentry : l.registry.entryAt? i with _ | ⟨kind, handler⟩
    · exact hC.pure none
    · have hknown : known handler := hl _ (List.mem_of_getElem? hentry)
      apply hC.bind (hC.runHandler hcall kind hknown)
      intro t?
      cases t? with
      | none => exact ih (i + 1)
      | some t => exact hC.pure _

theorem derive : C _ (derive call) := by
  apply hC.lexer_bind
  intro l _
  split
  · exact hC.pure none
  · exact hC.bind (hC.plain fun _ hR => .characterToken hR _) fun _ => hC.pure _
  · apply hC.bind (hC.tryHandlers hcall _ 0)
    intro t?
    cases t? with
    | some t => exact hC.pure _
    | none =>
      apply hC.pass_bind
      intro p
      split
      · exact hC.pure none
      · exact hC.throw _

theorem advance : C _ (advance call) := by
  apply hC.bind (hC.attempt (hC.derive hcall))
  intro outcome
  rcases outcome with e | _ | t
  · exact hC.bind (hC.plain fun _ hR => .report hR e) fun _ => hC.pure none
  · exact hC.pure none
  · exact hC.bind (hC.derived t) fun _ => hC.pure _

theorem next : C _ (next call) := by
  apply hC.bind (hC.plain fun _ hR => .dequeue hR)
  intro t?
  cases t? with
  | some t => exact hC.pure _
  | none => exact hC.advance hcall

theorem pushAll (bound : Nat) : C _ (pushAll call bound) := by
  induction bound with
  | zero => exact hC.timeout _
  | succ bound ih =>
    apply hC.bind (hC.next hcall)
    intro t?
    cases t? with
    | some t => exact hC.bind (hC.plain fun _ hR => .push hR t) fun _ => ih
    | none => exact hC.pure ()

theorem lex (bound : Nat) : C _ (lex call bound) := by
  apply hC.bind (hC.pushAll hcall bound)
  intro _
  apply hC.pass_bind
  intro p
  have hlast : C _ (lift LexM.pass >>= fun p => Pure.pure p.tokens.toList) :=
    hC.pass_bind fun _ => hC.pure _
  split
  · exact hC.bind (hC.plain fun _ hR => .finish hR) fun _ => hlast
  · exact hlast

theorem tokenize (bound : Nat) {input : Text} (hinit : C _ (lift (LexM.init input))) :
    C _ (tokenize call bound input) := hC.bind hinit fun _ => hC.lex hcall bound

theorem fill (n bound : Nat) : C _ (fill call n bound) := by
  induction bound with
  | zero => exact hC.pure ()
  | succ bound ih =>
    apply hC.pass_bind
    intro p
    dsimp only
    split
    · exact hC.pure ()
    · apply hC.setQueue_bind
      apply hC.bind (hC.attempt (hC.advance hcall))
      intro outcome
      apply hC.pass_bind
      intro q
      rcases outcome with e | _ | t
      · exact hC.setQueue_bind _ (hC.throw e)
      · exact hC.plain fun _ hR => .setQueue hR _
      · exact hC.setQueue_bind _ ih

theorem lookahead (n : Nat) : C _ (lookahead call n) := by
  unfold Watched.lookahead Source.lookahead
  split
  · exact hC.throw _
  · apply hC.pass_bind
    intro p
    apply hC.bind (hC.fill hcall n _)
    intro _
    exact hC.pass_bind fun _ => hC.pure _

theorem skipOnto (n : Nat) (taken : List Token) : C _ (skipOnto call n taken) := by
  induction n generalizing taken with
  | zero => exact hC.pure _
  | succ n ih =>
    apply hC.bind (hC.next hcall)
    intro t?
    cases t? with
    | some t => exact ih _
    | none => exact hC.pure _

theorem skipWhileOnto (accepts : List Token → Token → Bool) (bound : Nat) (taken : List Token) :
    C _ (skipWhileOnto call accepts bound taken) := by
  induction bound generalizing taken with
  | zero => exact hC.timeout _
  | succ bound ih =>
    apply hC.bind (hC.lookahead hcall 1)
    intro t?
    cases t? with
    | none => exact hC.pure _
    | some t =>
      apply hC.bind (hC.pure (accepts taken t))
      intro accepted
      split
      · apply hC.bind (hC.next hcall)
        intro t?
        cases t? with
        | some t => exact ih _
        | none => exact ih _
      · exact hC.pure _

theorem skipTo (bound : Nat) (kind : String) : C _ (skipTo call bound kind) := by
  apply hC.bind (hC.skipWhileOnto hcall _ bound [])
  intro taken
  apply hC.bind (hC.next hcall)
  intro t?
  cases t? with
  | some t => exact hC.pure _
  | none => exact hC.pure _

/-- Serving a request is closed under, unless it does something of its own. -/
theorem request (bound : Nat) {r : Request} (hown : r.own = false) :
    C _ (r.watched call bound) := by
  cases r with
  | view => exact hC.plain fun _ hR => .bind hR (.lexer hR) fun _ => .pure hR _
  | hooks => exact hC.plain fun _ hR => .bind hR (.lexer hR) fun _ => .pure hR _
  | consume bytes => exact hC.plain fun _ hR => .consume hR bytes
  | matchPattern pattern => exact hC.plain fun _ hR => .matchPattern hR pattern
  | scan pattern kind => exact hC.plain fun _ hR => .scan hR pattern kind
  | skipSpaces => exact hC.plain fun _ hR => .skipSpaces hR
  | token kind value => exact hC.plain fun _ hR => .token hR kind value
  | tokenFrom kind captures => exact hC.plain fun _ hR => .tokenFrom hR kind captures
  | handle kind => exact hC.handle hcall kind
  | call kind => exact hC.callKind hcall kind
  | advance => exact hC.advance hcall
  | next => exact hC.next hcall
  | lex => exact hC.lex hcall bound
  | enqueue t => exact hC.plain fun _ hR => .enqueue hR t
  | dequeue => exact hC.plain fun _ hR => .dequeue hR
  | lookahead n => exact hC.lookahead hcall n
  | skip n => exact hC.skipOnto hcall n []
  | skipWhile accepts => exact hC.skipWhileOnto hcall accepts bound []
  | skipTo kind => exact hC.skipTo hcall bound kind
  | push t => exact hC.plain fun _ hR => .push hR t
  | finish => exact hC.plain fun _ hR => .finish hR
  | report e => exact hC.plain fun _ hR => .report hR e
  | note label answer => exact hC.plain fun _ hR => .record hR _
  | _ => cases hown

end Drivers

end Closed

end Watched

end ModularLexer
