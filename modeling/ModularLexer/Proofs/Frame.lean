import ModularLexer.Proofs.Runs.Drivers

/-!
What handlers cannot break. Handlers of a discipline ask only for what it allows, and register and
run only handlers of the discipline. A relation between machines that every single effect keeps to
is then kept to by whatever is made of these effects: requests, programs, and handlers that call
handlers.
-/
namespace ModularLexer

/-- Whether a program asks only for what is allowed, and registers and runs only known handlers. -/
def Program.Uses {α : Type} (allowed : Request → Prop) (known : Handler → Prop) :
    Program Handler α → Prop
  | done _ => True
  | fail _ => True
  | ask request next => allowed request ∧ ∀ reply, (next reply).Uses allowed known
  | set _ handler next => known handler ∧ next.Uses allowed known
  | fork _ body next => known body ∧ ∀ outcome view, (next outcome view).Uses allowed known

/-- A class of handlers whose programs ask only for what is allowed and stay inside the class. -/
structure Discipline where
  allowed : Request → Prop
  known : Handler → Prop
  uses : ∀ h, known h → h.program.Uses allowed known

theorem Program.uses_all {α : Type} (p : Program Handler α) :
    p.Uses (fun _ => True) fun _ => True := by
  induction p with
  | done a => trivial
  | fail e => trivial
  | ask request next ih => exact ⟨trivial, ih⟩
  | set kind handler next ih => exact ⟨trivial, ih⟩
  | fork input body next ih => exact ⟨trivial, ih⟩

def Discipline.all : Discipline := ⟨fun _ => True, fun _ => True, fun h _ => h.program.uses_all⟩

def Machine.Obeys (D : Discipline) (m : Machine) : Prop :=
  ∀ entry ∈ m.lexer.registry.entries, D.known entry.2

theorem Machine.obeys_all (m : Machine) : m.Obeys .all := fun _ _ => trivial

/-- A relation from the machine before to the machine after, kept to by each single effect that
handlers of a discipline can have. -/
structure FrameRule (D : Discipline) (R : Machine → Machine → Prop) : Prop
    extends EffectRule R where
  consumeAs {m : Machine} {bytes : Nat} {value : Text} {p : Pass} :
    D.allowed (.consumeAs bytes value) → m.lexer.pass.consumeAs bytes value = .ok p →
      R m (m.withPass p)
  move (m : Machine) {value : Text} {bytes : Nat} :
    D.allowed (.move value bytes) → R m (m.withPass (m.lexer.pass.move value bytes))
  start (m : Machine) {input : Text} :
    D.allowed (.init input) ∨ D.allowed (.tokenize input) → R m (m.withPass (.start input))
  pushStack (m : Machine) {t : Token} :
    D.allowed (.pushStack t) → R m (m.withPass (m.lexer.pass.pushStack t))
  popStack (m : Machine) : D.allowed .popStack → R m (m.withPass m.lexer.pass.popStack.2)
  append (m : Machine) {value : Text} :
    D.allowed (.append value) → R m (m.withPass (m.lexer.pass.append value))
  register (m : Machine) (kind : String) {handler : Handler} : D.known handler →
    R m { m with lexer := { m.lexer with registry := m.lexer.registry.set kind handler } }
  fork {m n : Machine} {input : Text} :
    R { m with lexer := m.lexer.fork input } n → R m { n with lexer := m.lexer }

namespace Registry

variable {α : Type} {r : Registry α} {kind : String}

theorem mem_of_mem_set {value : α} {entry : String × α} (h : entry ∈ (r.set kind value).entries) :
    entry = (kind, value) ∨ entry ∈ r.entries := by
  obtain ⟨entries⟩ := r
  change entry ∈ setEntry kind value entries at h
  induction entries with
  | nil => exact .inl (List.mem_singleton.1 h)
  | cons first entries ih =>
    unfold setEntry at h
    split at h
    · rcases List.mem_cons.1 h with h | h
      · exact .inl h
      · exact .inr (List.mem_cons_of_mem _ h)
    · rcases List.mem_cons.1 h with h | h
      · exact .inr (h ▸ List.mem_cons_self)
      · rcases ih h with h | h
        · exact .inl h
        · exact .inr (List.mem_cons_of_mem _ h)

end Registry

namespace LexM

variable {α β : Type} {D : Discipline} {R : Machine → Machine → Prop}

/-- However a computation ends on a machine whose handlers are of a discipline, the machine it
leaves is related to that one, and its handlers are of the discipline too. -/
def Within (D : Discipline) (R : Machine → Machine → Prop) (x : LexM α) : Prop :=
  ∀ ⦃m r n⦄, m.Obeys D → x m = some (r, n) → R m n ∧ n.Obeys D

namespace Within

theorem of_moves {x : LexM α} (hx : Moves R x) : Within D R x := by
  intro m r n hm h
  obtain ⟨hmn, hregistry⟩ := hx h
  refine ⟨hmn, ?_⟩
  unfold Machine.Obeys
  rw [hregistry]
  exact hm

theorem pure (hR : FrameRule D R) (a : α) : Within D R (Pure.pure a : LexM α) :=
  of_moves (.pure hR.toEffectRule a)

theorem throw (hR : FrameRule D R) (e : LexError) : Within D R (throw e : LexM α) :=
  of_moves (.throw hR.toEffectRule e)

theorem timeout : Within D R (timeout : LexM α) := by
  intro m r n _ h
  cases h

theorem bind (hR : FrameRule D R) {x : LexM α} {f : α → LexM β} (hx : Within D R x)
    (hf : ∀ a, Within D R (f a)) : Within D R (x >>= f) := by
  intro m r n hm h
  rcases bind_eq_some_iff.1 h with ⟨a, k, ha, hr⟩ | ⟨e, he, -⟩
  · obtain ⟨hmk, hk⟩ := hx hm ha
    obtain ⟨hkn, hn⟩ := hf a hk hr
    exact ⟨hR.trans hmk hkn, hn⟩
  · exact hx hm he

/-- What goes on from the lexer may count on its handlers. -/
theorem lexer_bind {f : Lexer → LexM β}
    (hf : ∀ l : Lexer, (∀ entry ∈ l.registry.entries, D.known entry.2) → Within D R (f l)) :
    Within D R (lexer >>= f) := by
  intro m r n hm h
  rw [bind_of_ok (lexer_apply m)] at h
  exact hf m.lexer hm hm h

theorem attempt {x : LexM α} (hx : Within D R x) : Within D R (attempt x) := by
  intro m r n hm h
  obtain ⟨_, hk, -⟩ := exists_of_attempt h
  exact hx hm hk

theorem modifyPass {f : Pass → Pass} (hf : ∀ m : Machine, R m (m.withPass (f m.lexer.pass))) :
    Within D R (modifyPass f) := by
  intro m r n hm h
  cases h
  exact ⟨hf m, hm⟩

theorem consumeAs (hR : FrameRule D R) {bytes : Nat} {value : Text}
    (allowed : D.allowed (.consumeAs bytes value)) : Within D R (consumeAs bytes value) := by
  intro m r n hm h
  rcases consumeAs_cases h with ⟨e, -, rfl⟩ | ⟨p, hc, -, rfl⟩
  · exact ⟨hR.refl n, hm⟩
  · exact ⟨hR.consumeAs allowed hc, hm⟩

theorem push (hR : FrameRule D R) (t : Token) : Within D R (push t) :=
  of_moves (.push hR.toEffectRule t)

theorem init (hR : FrameRule D R) {input : Text}
    (allowed : D.allowed (.init input) ∨ D.allowed (.tokenize input)) :
    Within D R (init input) := by
  intro m r n hm h
  cases h
  exact ⟨hR.start m allowed, hm⟩

theorem register (hR : FrameRule D R) (kind : String) {handler : Handler}
    (known : D.known handler) : Within D R (register kind handler) := by
  intro m r n hm h
  cases h
  refine ⟨hR.register m kind known, ?_⟩
  intro entry hentry
  rcases Registry.mem_of_mem_set hentry with rfl | hold
  · exact known
  · exact hm entry hold

theorem popStack (hR : FrameRule D R) (allowed : D.allowed .popStack) : Within D R (do
    let (t, p) := (← LexM.pass).popStack
    setPass p
    return t) := by
  intro m r n hm h
  cases h
  exact ⟨hR.popStack m allowed, hm⟩

/-- A fork has the same handlers, and ends with the lexer as it was. -/
theorem onFork (hR : FrameRule D R) (input : Text) {x : LexM α} (hx : Within D R x) :
    Within D R (onFork input x) := by
  intro m r n hm h
  obtain ⟨_, k, hk, -, rfl⟩ := exists_of_onFork h
  have hforked : Machine.Obeys D { m with lexer := m.lexer.fork input } := hm
  exact ⟨hR.fork (hx hforked hk).1, hm⟩

/-- What drivers are made of is within the frame. -/
theorem closed (hR : FrameRule D R) :
    Watched.Closed D.known fun _ x => Within D R x.value where
  plain hx := of_moves (hx hR.toEffectRule)
  timeout _ := timeout
  bind hx hf := by
    rw [Watched.value_bind]
    exact bind hR hx hf
  lexer_bind hf := by
    rw [Watched.value_bind]
    exact lexer_bind hf
  attempt hx := attempt hx
  derived _ := pure hR ()

section Calls

variable {call : Handler → LexM (Option Token)} (hR : FrameRule D R)
  (hcall : ∀ h, D.known h → Within D R (call h))

include hcall

/-- Handlers of which nothing is seen stay within the frame too. -/
theorem lifted : ∀ h, D.known h → Within D R (Watched.lift (call h)).value := hcall

include hR

theorem derive : Within D R (derive call) := by
  have h := (closed hR).derive (lifted hcall)
  rwa [Watched.value_derive] at h

theorem next : Within D R (next call) := by
  have h := (closed hR).next (lifted hcall)
  rwa [Watched.value_next] at h

theorem pushAll (bound : Nat) : Within D R (pushAll call bound) := by
  have h := (closed hR).pushAll (lifted hcall) bound
  rwa [Watched.value_pushAll] at h

theorem lex (bound : Nat) : Within D R (lex call bound) := by
  have h := (closed hR).lex (lifted hcall) bound
  rwa [Watched.value_lex] at h

theorem tokenize (bound : Nat) {input : Text} (allowed : D.allowed (.tokenize input)) :
    Within D R (tokenize call bound input) := by
  have h := (closed hR).tokenize (lifted hcall) bound (init hR (.inr allowed))
  rwa [Watched.value_tokenize] at h

end Calls

end Within

end LexM

variable {D : Discipline} {R : Machine → Machine → Prop} {call : Handler → LexM (Option Token)}

open LexM (Within)

/-- Each allowed request is served within the frame if handlers are called within it. -/
theorem Request.within_serve (hR : FrameRule D R) (hcall : ∀ h, D.known h → Within D R (call h))
    (bound : Nat) {r : Request} (allowed : D.allowed r) : Within D R (r.serve call bound) := by
  cases hown : r.own with
  | false =>
    have h := (Within.closed hR).request (Within.lifted hcall) bound hown
    rwa [Request.value_watched] at h
  | true =>
    cases r with
    | consumeAs bytes value => exact .consumeAs hR allowed
    | move value bytes =>
      show Within D R (LexM.modifyPass (·.move value bytes))
      exact .modifyPass fun m => hR.move m allowed
    | init input => exact .init hR (.inl allowed)
    | tokenize input => exact .tokenize hR hcall bound allowed
    | pushStack t =>
      show Within D R (LexM.modifyPass (·.pushStack t))
      exact .modifyPass fun m => hR.pushStack m allowed
    | popStack => exact .popStack hR allowed
    | append value =>
      show Within D R (LexM.modifyPass (·.append value))
      exact .modifyPass fun m => hR.append m allowed
    | _ => cases hown

/-- A program of a discipline stays within the frame, by induction on what it does next. -/
theorem Program.within_run {α : Type} (hR : FrameRule D R)
    (hcall : ∀ h, D.known h → Within D R (call h)) (bound : Nat) {p : Program Handler α}
    (hp : p.Uses D.allowed D.known) : Within D R (p.run call bound) := by
  induction p with
  | done a => exact .pure hR a
  | fail e => exact .throw hR e
  | ask request next ih =>
    obtain ⟨allowed, hnext⟩ := hp
    apply Within.bind hR (.attempt (Request.within_serve hR hcall bound allowed))
    exact fun reply => ih reply (hnext reply)
  | set kind handler next ih =>
    obtain ⟨known, hnext⟩ := hp
    exact Within.bind hR (.register hR kind known) fun _ => ih hnext
  | fork input body next ih =>
    obtain ⟨known, hnext⟩ := hp
    apply Within.bind hR (.onFork hR input (hcall body known))
    exact fun outcome => ih outcome.1 outcome.2 (hnext outcome.1 outcome.2)

/-- A handler of a discipline stays within the frame, however deep it calls others. -/
theorem Handler.within_call (hR : FrameRule D R) (depth : Nat) {h : Handler} (known : D.known h) :
    Within D R (Handler.call depth h) := by
  induction depth generalizing h with
  | zero => exact .timeout
  | succ depth ih => exact Program.within_run hR (fun _ => ih) depth (D.uses h known)

/-- Nothing that runs on a lexer changes its set-up. -/
theorem FrameRule.options : FrameRule D fun m n => n.lexer.options = m.lexer.options where
  refl _ := rfl
  trans hm hn := hn.trans hm
  consume _ := rfl
  consumeAs _ _ := rfl
  move _ _ _ _ := rfl
  start _ _ _ := rfl
  queue _ _ := rfl
  push _ _ := rfl
  pushStack _ _ _ := rfl
  popStack _ _ := rfl
  append _ _ _ := rfl
  register _ _ _ _ := rfl
  record _ _ := rfl
  fork _ := rfl

/-- Starting over aside, the list of tokens only grows. -/
theorem FrameRule.tokens
    (hstart : ∀ input, ¬D.allowed (.init input) ∧ ¬D.allowed (.tokenize input)) :
    FrameRule D fun m n => m.lexer.pass.tokens.toList <+: n.lexer.pass.tokens.toList where
  refl _ := List.prefix_refl _
  trans hm hn := hm.trans hn
  consume h := by
    obtain ⟨rest, -, -, rfl⟩ := Pass.consume_eq_ok_iff.1 h
    exact List.prefix_refl _
  consumeAs _ h := by
    obtain ⟨taken, rest, -, -, rfl⟩ := Pass.consumeAs_eq_ok_iff.1 h
    exact List.prefix_refl _
  move _ _ _ _ := List.prefix_refl _
  start _ input h := by
    rcases h with h | h
    · exact absurd h (hstart input).1
    · exact absurd h (hstart input).2
  queue _ _ := List.prefix_refl _
  push m t := by
    show m.lexer.pass.tokens.toList <+: (m.lexer.pass.tokens.push t).toList
    rw [Array.toList_push]
    exact List.prefix_append _ _
  pushStack _ _ _ := List.prefix_refl _
  popStack m _ := by
    show m.lexer.pass.tokens.toList <+: m.lexer.pass.popStack.2.tokens.toList
    unfold Pass.popStack
    split
    · exact List.prefix_refl _
    · exact List.prefix_refl _
  append m value _ := by
    show m.lexer.pass.tokens.toList <+: (m.lexer.pass.append value).tokens.toList
    unfold Pass.append
    split
    · exact List.prefix_refl _
    · split
      · exact List.prefix_refl _
      · exact List.prefix_refl _
  register _ _ _ _ := List.prefix_refl _
  record _ _ := List.prefix_refl _
  fork _ := List.prefix_refl _

end ModularLexer
