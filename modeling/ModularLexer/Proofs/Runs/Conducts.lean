import ModularLexer.Proofs.Coupling.Programs
import ModularLexer.Proofs.Runs.Invariants

/-!
What handlers of a conduct cannot break, whatever is done on forks. A relation between machines that
every single effect keeps to is kept to by all that is made of these effects, up to handlers that
call handlers; of a fork only its journal comes back.
-/
namespace ModularLexer

/-- A relation from the machine before to the machine after, kept to by each single effect that
handlers of a conduct can have on their lexer, and by all that forks can write to the journal.
Counting a text of one's own as consumed and moving the position alone have to be granted. -/
structure ConductRule (K : Conduct) (grants : Pass → Request → Prop)
    (R : Machine → Machine → Prop) : Prop extends EffectRule R where
  consumeAs {m : Machine} {bytes : Nat} {value : Text} {p : Pass} :
    K.allowed (.consumeAs bytes value) → grants m.lexer.pass (.consumeAs bytes value) →
      m.lexer.pass.consumeAs bytes value = .ok p → R m (m.withPass p)
  move (m : Machine) {value : Text} {bytes : Nat} :
    K.allowed (.move value bytes) → grants m.lexer.pass (.move value bytes) →
      R m (m.withPass (m.lexer.pass.move value bytes))
  start (m : Machine) {input : Text} :
    K.allowed (.init input) ∨ K.allowed (.tokenize input) → R m (m.withPass (.start input))
  pushStack (m : Machine) {t : Token} :
    K.allowed (.pushStack t) → R m (m.withPass (m.lexer.pass.pushStack t))
  popStack (m : Machine) : K.allowed .popStack → R m (m.withPass m.lexer.pass.popStack.2)
  append (m : Machine) {value : Text} :
    K.allowed (.append value) → R m (m.withPass (m.lexer.pass.append value))
  register (m : Machine) (kind : String) {handler : Handler} :
    K.known handler → R m (m.register kind handler)
  forked (m : Machine) (journal : Array Event) : R m { m with journal := journal }

/-- A program that asks only for what is allowed does so if more is allowed. -/
theorem Program.Asks.mono {α : Type} {allowed allowed' : Request → Prop}
    {known known' : Handler → Prop} {p : Program Handler α} (hp : p.Asks allowed known)
    (hallowed : ∀ r, allowed r → allowed' r) (hknown : ∀ h, known h → known' h) :
    p.Asks allowed' known' := by
  induction p with
  | done a => trivial
  | fail e => trivial
  | ask request next ih => exact ⟨hallowed request hp.1, fun reply => ih reply (hp.2 reply)⟩
  | set kind handler next ih => exact ⟨hknown handler hp.1, ih hp.2⟩
  | fork input body next ih => exact fun outcome view => ih outcome view (hp outcome view)

namespace Watched

variable {α β : Type} {K : Conduct} {grants : Pass → Request → Prop}
  {R : Machine → Machine → Prop}

/-- However a computation ends from a machine on, if all that is asked for on the way is granted,
the machine it leaves is related to that one, and its handlers are of the conduct. -/
def ConductedAt (K : Conduct) (grants : Pass → Request → Prop) (R : Machine → Machine → Prop)
    (x : Watched α) (m : Machine) : Prop :=
  Granted grants (x m).1 → ∀ r n, (x m).2 = some (r, n) → R m n ∧ n.Follows K

def Conducted (K : Conduct) (grants : Pass → Request → Prop) (R : Machine → Machine → Prop)
    (x : Watched α) : Prop :=
  ∀ ⦃m⦄, m.Follows K → x.ConductedAt K grants R m

theorem ConductedAt.of_eq {x : Watched α} {m n : Machine} {sights : List Sight}
    {r : Except LexError α} (hx : ConductedAt K grants R x m) (h : x m = (sights, some (r, n)))
    (hgranted : Granted grants sights) : R m n ∧ n.Follows K := by
  rw [ConductedAt, h] at hx
  exact hx hgranted r n rfl

/-- What comes second goes on from where the first one has led. -/
theorem ConductedAt.bind (hR : ConductRule K grants R) {x : Watched α} {f : α → Watched β}
    {m : Machine} (hx : ConductedAt K grants R x m) (hf : ∀ a, Conducted K grants R (f a)) :
    ConductedAt K grants R (x >>= f) m := by
  intro hgranted r n h
  rcases bind_cases x f m with ⟨sights, a, k, hk, hbind⟩ | ⟨hsights, hfailed⟩
  · rw [hbind] at hgranted h
    obtain ⟨hfront, hback⟩ := granted_append.1 hgranted
    obtain ⟨hmk, hfollows⟩ := hx.of_eq hk hfront
    obtain ⟨hkn, hn⟩ := hf a hfollows hback r n h
    exact ⟨hR.trans hmk hkn, hn⟩
  · rw [hsights] at hgranted
    obtain ⟨e, he, -⟩ := hfailed r n h
    exact hx hgranted _ n he

theorem ConductedAt.attempt {x : Watched α} {m : Machine} (hx : ConductedAt K grants R x m) :
    ConductedAt K grants R (attempt x) m := by
  intro hgranted r n h
  obtain ⟨_, hk, -⟩ := LexM.exists_of_attempt (x := x.value) h
  exact hx hgranted _ n hk

theorem ConductedAt.modifyPass {f : Pass → Pass} {m : Machine} (hm : m.Follows K)
    (hf : R m (m.withPass (f m.lexer.pass))) :
    ConductedAt K grants R (lift (LexM.modifyPass f)) m := by
  intro _ r n h
  cases h
  exact ⟨hf, hm⟩

namespace Conducted

theorem of_moves {x : LexM α} (hx : LexM.Moves R x) : Conducted K grants R (lift x) := by
  intro m hm _ r n h
  obtain ⟨hmn, hregistry⟩ := hx h
  refine ⟨hmn, ?_⟩
  unfold Machine.Follows
  rw [hregistry]
  exact hm

theorem timeout : Conducted K grants R (lift (LexM.timeout : LexM α)) := by
  intro m _ _ r n h
  cases h

theorem bind (hR : ConductRule K grants R) {x : Watched α} {f : α → Watched β}
    (hx : Conducted K grants R x) (hf : ∀ a, Conducted K grants R (f a)) :
    Conducted K grants R (x >>= f) :=
  fun _ hm => (hx hm).bind hR hf

theorem see (hR : ConductRule K grants R) (sight : Machine → Sight) :
    Conducted K grants R (see sight) := by
  intro m hm _ r n h
  cases h
  exact ⟨hR.refl m, hm⟩

theorem init (hR : ConductRule K grants R) {input : Text}
    (allowed : K.allowed (.init input) ∨ K.allowed (.tokenize input)) :
    Conducted K grants R (lift (LexM.init input)) := by
  intro m hm _ r n h
  cases h
  exact ⟨hR.start m allowed, hm⟩

/-- Of a fork only its journal comes back. -/
theorem onFork (hR : ConductRule K grants R) (input : Text) (x : Watched α) :
    Conducted K grants R (onFork input x) := by
  intro m hm _ r n h
  obtain ⟨_, k, -, -, rfl⟩ := LexM.exists_of_onFork (x := x.value) h
  exact ⟨hR.forked m k.journal, hm⟩

theorem register (hR : ConductRule K grants R) (kind : String) {handler : Handler}
    (known : K.known handler) : Conducted K grants R (lift (LexM.register kind handler)) := by
  intro m hm _ r n h
  cases h
  exact ⟨hR.register m kind known, hm.register kind known⟩

/-- What drivers are made of is within the conduct. -/
theorem closed (hR : ConductRule K grants R) :
    Closed K.known fun _ x => Conducted K grants R x where
  plain hx := of_moves (hx hR.toEffectRule)
  timeout _ := timeout
  bind := bind hR
  lexer_bind hf := by
    intro m hm hgranted
    exact hf m.lexer hm hm hgranted
  attempt hx := fun _ hm => (hx hm).attempt
  derived t := see hR _

end Conducted

end Watched

open Watched (Conducted ConductedAt)

variable {K : Conduct} {grants : Pass → Request → Prop} {R : Machine → Machine → Prop}
  {call : Handler → Watched (Option Token)}

/-- Each request that is allowed, and granted at the machine where it is asked, is served within the
conduct if handlers are called within it. -/
theorem Request.conductedAt_watched (hR : ConductRule K grants R)
    (hcall : ∀ h, K.known h → Conducted K grants R (call h)) (bound : Nat) {m : Machine}
    (hm : m.Follows K) {r : Request} (allowed : K.allowed r) (granted : grants m.lexer.pass r) :
    ConductedAt K grants R (r.watched call bound) m := by
  cases hown : r.own with
  | false => exact (Conducted.closed hR).request hcall bound hown hm
  | true =>
    cases r with
    | consumeAs bytes value =>
      intro _ r n h
      rcases LexM.consumeAs_cases h with ⟨e, -, rfl⟩ | ⟨p, hc, -, rfl⟩
      · exact ⟨hR.refl n, hm⟩
      · exact ⟨hR.consumeAs allowed granted hc, hm⟩
    | move value bytes =>
      exact ConductedAt.modifyPass (f := (·.move value bytes)) hm (hR.move m allowed granted)
    | init input => exact Conducted.init hR (.inl allowed) hm
    | tokenize input =>
      exact (Conducted.closed hR).tokenize hcall bound (.init hR (.inr allowed)) hm
    | pushStack t => exact ConductedAt.modifyPass (f := (·.pushStack t)) hm (hR.pushStack m allowed)
    | popStack =>
      intro _ r n h
      cases h
      exact ⟨hR.popStack m allowed, hm⟩
    | append value => exact ConductedAt.modifyPass (f := (·.append value)) hm (hR.append m allowed)
    | _ => cases hown

/-- A program of the conduct stays within it, by induction on what it does next. -/
theorem Program.conducted_watched {α : Type} (hR : ConductRule K grants R)
    (hcall : ∀ h, K.known h → Conducted K grants R (call h)) (bound : Nat) {p : Program Handler α}
    (hp : p.Asks K.allowed K.known) : Conducted K grants R (p.watched call bound) := by
  have hstation := Conducted.see hR fun m => .station m none
  induction p with
  | done a => exact .bind hR hstation fun _ => (Conducted.closed hR).pure a
  | fail e => exact .bind hR hstation fun _ => (Conducted.closed hR).throw e
  | ask request next ih =>
    obtain ⟨allowed, hnext⟩ := hp
    intro m hm
    rw [ConductedAt, watched_ask]
    intro hgranted
    obtain ⟨hhere, hlater⟩ := granted_cons.1 hgranted
    have hserve := Request.conductedAt_watched hR hcall bound hm allowed (hhere m request rfl)
    apply hserve.attempt.bind hR _ hlater
    exact fun reply => .bind hR (.see hR _) fun _ => ih reply (hnext reply)
  | set kind handler next ih =>
    obtain ⟨known, hnext⟩ := hp
    exact .bind hR hstation fun _ => .bind hR (.register hR kind known) fun _ => ih hnext
  | fork input body next ih =>
    apply Conducted.bind hR hstation
    intro _
    apply Conducted.bind hR (.see hR _)
    intro _
    apply Conducted.bind hR (.onFork hR input (call body))
    intro r
    exact .bind hR (.see hR _) fun _ => ih r.1 r.2 (hp r.1 r.2)

/-- A handler of the conduct stays within it, however deep it calls others. -/
theorem Handler.conducted_watched (hR : ConductRule K grants R) (depth : Nat) {h : Handler}
    (known : K.known h) : Conducted K grants R (Handler.watched depth h) := by
  induction depth generalizing h with
  | zero => exact .timeout
  | succ depth ih => exact Program.conducted_watched hR (fun _ => ih) depth (K.asks h known)

/-- Nothing has to be granted where everything is. -/
theorem granted_all (sights : List Sight) : Granted (fun _ _ => True) sights :=
  fun _ _ _ => trivial

end ModularLexer
