import ModularLexer.Proofs.Coupling.Drivers
import ModularLexer.Proofs.Frame

/-!
Programs on lexers that differ only in their observers and journals. Where machines that go together
have the same pass, handlers, mode and name of the input, every program and every handler of a
conduct does the same on both.
-/
namespace ModularLexer

open Watched (Coupled lift)

/-- Whether a request can hand an error to the observer of errors. -/
def Request.reports : Request → Bool
  | advance => true
  | next => true
  | lex => true
  | tokenize _ => true
  | lookahead _ => true
  | skip _ => true
  | skipWhile _ => true
  | skipTo _ => true
  | finish => true
  | report _ => true
  | _ => false

/-- The observer that an event is for; there is none for errors, which are taken over, and notes. -/
def Event.observer : Event → Option (Hooks → Bool)
  | token _ => some (·.onToken)
  | scan _ => some (·.onScan)
  | push _ => some (·.onPush)
  | error _ => none
  | note _ _ => none

/-- Whether a program asks its own lexer only for what is allowed, and registers only known
handlers. What is done on forks is left open. -/
def Program.Asks {α : Type} (allowed : Request → Prop) (known : Handler → Prop) :
    Program Handler α → Prop
  | done _ => True
  | fail _ => True
  | ask request next => allowed request ∧ ∀ reply, (next reply).Asks allowed known
  | set _ handler next => known handler ∧ next.Asks allowed known
  | fork _ _ next => ∀ outcome view, (next outcome view).Asks allowed known

/-- A class of handlers that ask their lexer only for what is allowed and stay inside the class. -/
structure Conduct where
  allowed : Request → Prop
  known : Handler → Prop
  asks : ∀ h, known h → h.program.Asks allowed known

theorem Program.asks_all {α : Type} (p : Program Handler α) :
    p.Asks (fun _ => True) fun _ => True := by
  induction p with
  | done a => trivial
  | fail e => trivial
  | ask request next ih => exact ⟨trivial, ih⟩
  | set kind handler next ih => exact ⟨trivial, ih⟩
  | fork input body next ih => exact ih

namespace Program.Asks

variable {α β : Type} {allowed : Request → Prop} {known : Handler → Prop}

theorem ofExcept (r : Except LexError α) :
    (Program.ofExcept r : Program Handler α).Asks allowed known := by
  cases r <;> trivial

theorem request {r : Request} (hr : allowed r) :
    (Program.request r : Program Handler r.Reply).Asks allowed known := ⟨hr, ofExcept⟩

theorem bind {p : Program Handler α} {f : α → Program Handler β} (hp : p.Asks allowed known)
    (hf : ∀ a, (f a).Asks allowed known) : (p >>= f).Asks allowed known := by
  induction p with
  | done a => exact hf a
  | fail e => trivial
  | ask request next ih => exact ⟨hp.1, fun reply => ih reply (hp.2 reply)⟩
  | set kind handler next ih => exact ⟨hp.1, ih hp.2⟩
  | fork input body next ih => exact fun outcome view => ih outcome view (hp outcome view)

theorem ofPatternWith {kind : String} {pattern : Pattern}
    {transform : Token → Program Handler (Option Token)} (hscan : allowed (.scan pattern kind))
    (htransform : ∀ t, (transform t).Asks allowed known) :
    (Handler.ofPatternWith kind pattern transform).program.Asks allowed known := by
  apply bind (request hscan)
  rintro (_ | t)
  · trivial
  · exact htransform t

end Program.Asks

def Conduct.all : Conduct := ⟨fun _ => True, fun _ => True, fun h _ => h.program.asks_all⟩

def Machine.Follows (K : Conduct) (m : Machine) : Prop :=
  ∀ entry ∈ m.lexer.registry.entries, K.known entry.2

theorem Machine.follows_all (m : Machine) : m.Follows .all := fun _ _ => trivial

def Machine.register (m : Machine) (kind : String) (handler : Handler) : Machine :=
  { m with lexer := { m.lexer with registry := m.lexer.registry.set kind handler } }

theorem Machine.Follows.register {K : Conduct} {m : Machine} (hm : m.Follows K) (kind : String)
    {handler : Handler} (hknown : K.known handler) : (m.register kind handler).Follows K := by
  intro entry hentry
  rcases Registry.mem_of_mem_set hentry with rfl | hold
  · exact hknown
  · exact hm entry hold

def Machine.record (m : Machine) (e : Event) : Machine := { m with journal := m.journal.push e }

/-- Machines that are twins have the same pass, handlers of a conduct, mode and name of the input.
They stay twins when they do the same and when their observers are told the same; reports and sights
of the observers go together as far as handlers of the conduct ask for them. -/
structure Twins (K : Conduct) (R : Machine → Machine → Prop) (S : Sight → Sight → Prop) :
    Prop where
  follows {m k : Machine} : R m k → m.Follows K
  pass {m k : Machine} : R m k → k.lexer.pass = m.lexer.pass
  registry {m k : Machine} : R m k → k.lexer.registry = m.lexer.registry
  mode {m k : Machine} : R m k → k.lexer.options.mode = m.lexer.options.mode
  source {m k : Machine} : R m k → k.lexer.options.source = m.lexer.options.source
  withPass {m k : Machine} (p : Pass) : R m k → R (m.withPass p) (k.withPass p)
  register {m k : Machine} (kind : String) {handler : Handler} :
    K.known handler → R m k → R (m.register kind handler) (k.register kind handler)
  told {m k : Machine} {e : Event} {installed : Hooks → Bool} :
    e.observer = some installed → R m k → R (m.told installed e) (k.told installed e)
  note {m k : Machine} (label : String) (answer : Answer) :
    R m k → R (m.record (.note label answer)) (k.record (.note label answer))
  hooks {m k : Machine} :
    K.allowed .hooks → R m k → k.lexer.options.hooks = m.lexer.options.hooks
  report {m k : Machine} {r : Request} (e : LexError) : K.allowed r → r.reports = true → R m k →
    Option.Rel (fun x y => y.1 = x.1 ∧ R x.2 y.2) (LexM.report e m) (LexM.report e k)
  station {m k : Machine} (r? : Option Request) : R m k → S (.station m r?) (.station k r?)
  answer {m k : Machine} (r : Request) (reply : Except LexError r.Reply) :
    R m k → S (.answer m r reply) (.answer k r reply)
  derived (t : Token) : S (.derived t) (.derived t)
  forked : S .forked .forked
  joined : S .joined .joined

/-- The forks of machines in one relation are in another, and going back from forks leads to
machines in the first. -/
structure Twins.Forks (R R' : Machine → Machine → Prop) : Prop where
  fork {m k : Machine} (input : Text) : R m k →
    R' { m with lexer := m.lexer.fork input } { k with lexer := k.lexer.fork input }
  back {m k n l : Machine} : R m k → R' n l →
    R { n with lexer := m.lexer } { l with lexer := k.lexer }

def Coupling.twin (R : Machine → Machine → Prop) (S : Sight → Sight → Prop) : Coupling :=
  ⟨R, S, id, id, id⟩

namespace Watched

variable {α β : Type}

theorem lift_bind (x : LexM α) (f : α → LexM β) :
    lift (x >>= f) = lift x >>= fun a => lift (f a) := by
  funext m
  show ([], (x >>= f) m) = (lift x >>= fun a => lift (f a)) m
  rcases hx : x m with _ | ⟨e | a, n⟩
  · have hlift : lift x m = ([], none) := by rw [lift, hx]
    rw [bind_of_timeout hlift]
    simp [Bind.bind, LexM.bind, hx]
  · have hlift : lift x m = ([], some (.error e, n)) := by rw [lift, hx]
    rw [bind_of_error hlift, LexM.bind_of_error hx]
  · rw [lift_bind_of_ok hx, LexM.bind_of_ok hx, lift]

end Watched

namespace Twins

variable {α β : Type} {K : Conduct} {R : Machine → Machine → Prop} {S : Sight → Sight → Prop}

theorem outcome_id : (Coupling.twin R S).outcome (id : α → α) = id := by
  funext r
  cases r <;> rfl

def Same (R : Machine → Machine → Prop) (S : Sight → Sight → Prop) (x : Watched α) : Prop :=
  Coupled (.twin R S) id x x

namespace Same

theorem bind {x : Watched α} {f : α → Watched β} (hx : Same R S x) (hf : ∀ a, Same R S (f a)) :
    Same R S (x >>= f) := Coupled.bind hx hf

theorem attempt {x : Watched α} (hx : Same R S x) : Same R S (Watched.attempt x) := by
  have h := Coupled.attempt hx
  rwa [outcome_id] at h

theorem pure (a : α) : Same R S (Pure.pure a) := Coupled.pure id a

theorem lift_pure (a : α) : Same R S (lift (Pure.pure a)) := Coupled.pure id a

theorem throw (e : LexError) : Same R S (lift (LexM.throw e : LexM α)) := Coupled.throw id e

theorem ofExcept (r : Except LexError α) : Same R S (lift (LexM.ofExcept r)) := by
  cases r with
  | ok a => exact lift_pure a
  | error e => exact throw e

theorem lift_bind {x : LexM α} {f : α → LexM β} (hx : Same R S (lift x))
    (hf : ∀ a, Same R S (lift (f a))) : Same R S (lift (x >>= f)) := by
  rw [Watched.lift_bind]
  exact hx.bind hf

/-- What leads from machines that are twins to such machines with the same result. -/
theorem of_apply {x : LexM α} {r : Machine → Except LexError α} {f : Machine → Machine}
    (hx : ∀ m, x m = some (r m, f m)) (hr : ∀ ⦃m k⦄, R m k → r k = r m ∧ R (f m) (f k)) :
    Same R S (lift x) := by
  apply Coupled.of_ends
  intro m k hmk
  obtain ⟨hresult, htwins⟩ := hr hmk
  rw [hx m, hx k]
  refine .some ⟨?_, htwins⟩
  rw [outcome_id]
  exact hresult

theorem see {s : Machine → Sight} (hs : ∀ ⦃m k⦄, R m k → S (s m) (s k)) :
    Same R S (Watched.see s) := Coupled.see hs

end Same

variable (hT : Twins K R S)

include hT

theorem setQueue {m k : Machine} (queue : List Token) (hmk : R m k) :
    R (m.withQueue queue) (k.withQueue queue) := by
  have h := hT.withPass { m.lexer.pass with queue := queue } hmk
  unfold Machine.withQueue
  rw [hT.pass hmk]
  exact h

theorem locationFrom {m k : Machine} (start : Position) (hmk : R m k) :
    k.lexer.locationFrom start = m.lexer.locationFrom start := by
  rw [Lexer.locationFrom, Lexer.locationFrom, hT.pass hmk, hT.source hmk]

theorem view {m k : Machine} (hmk : R m k) : k.lexer.view = m.lexer.view := by
  rw [Lexer.view, Lexer.view, hT.pass hmk, hT.registry hmk, hT.mode hmk, hT.source hmk]

namespace Same

theorem pass_bind {f : Pass → LexM α} (hf : ∀ p, Same R S (lift (f p))) :
    Same R S (lift (LexM.pass >>= f)) := by
  rw [Watched.lift_bind]
  apply Coupled.pass_bind
  intro m k hmk
  rw [hT.pass hmk]
  exact hf m.lexer.pass hmk

theorem modifyPass (f : Pass → Pass) : Same R S (lift (LexM.modifyPass f)) := by
  apply of_apply (LexM.modifyPass_apply f)
  intro m k hmk
  rw [hT.pass hmk]
  exact ⟨rfl, hT.withPass _ hmk⟩

theorem setPass (p : Pass) : Same R S (lift (LexM.setPass p)) := modifyPass hT fun _ => p

theorem notify {installed : Hooks → Bool} {e : Event} (he : e.observer = some installed) :
    Same R S (lift (LexM.notify installed e)) :=
  of_apply (LexM.notify_apply installed e) fun _ _ hmk => ⟨rfl, hT.told he hmk⟩

theorem locationFrom (start : Position) : Same R S (lift (LexM.locationFrom start)) := by
  apply of_apply (LexM.locationFrom_apply start)
  intro m k hmk
  exact ⟨congrArg Except.ok (hT.locationFrom start hmk), hmk⟩

theorem consume (bytes : Nat) : Same R S (lift (LexM.consume bytes)) := by
  apply pass_bind hT
  intro p
  apply lift_bind (ofExcept _)
  intro taken
  exact lift_bind (setPass hT taken.2) fun _ => lift_pure taken.1

theorem consumeAs (bytes : Nat) (value : Text) : Same R S (lift (LexM.consumeAs bytes value)) := by
  apply pass_bind hT
  intro p
  exact lift_bind (ofExcept _) fun q => setPass hT q

theorem matchPattern (pattern : Pattern) : Same R S (lift (LexM.matchPattern pattern)) := by
  apply lift_bind (ofExcept _)
  intro _
  apply pass_bind hT
  intro p
  cases pattern.read? p.rest p.offset p.input with
  | none => exact lift_pure none
  | some captures =>
    dsimp only
    split
    · exact throw _
    · exact lift_bind (consume hT _) fun _ => lift_pure _

theorem token (kind : String) (value : Option Text) : Same R S (lift (LexM.token kind value)) :=
  lift_bind (notify hT rfl) fun _ => lift_pure _

theorem tokenFrom (kind : String) (captures : Captures) :
    Same R S (lift (LexM.tokenFrom kind captures)) :=
  lift_bind (notify hT rfl) fun _ => lift_pure _

theorem scan (pattern : Pattern) (kind : String) : Same R S (lift (LexM.scan pattern kind)) := by
  apply pass_bind hT
  intro p
  apply lift_bind (matchPattern hT pattern)
  intro captures?
  cases captures? with
  | none => exact lift_pure none
  | some captures =>
    apply lift_bind (tokenFrom hT kind captures)
    intro t
    apply lift_bind (locationFrom hT p.position)
    intro location
    exact lift_bind (notify hT rfl) fun _ => lift_pure _

theorem characterToken (c : Char) : Same R S (lift (LexM.characterToken c)) := by
  apply pass_bind hT
  intro p
  apply lift_bind (consume hT _)
  intro taken
  apply lift_bind (token hT _ _)
  intro t
  exact lift_bind (locationFrom hT _) fun _ => lift_pure _

theorem push (t : Token) : Same R S (lift (LexM.push t)) :=
  lift_bind (notify hT rfl) fun _ => modifyPass hT (·.push t)

theorem register (kind : String) {handler : Handler} (hknown : K.known handler) :
    Same R S (lift (LexM.register kind handler)) :=
  of_apply (r := fun _ => .ok ()) (f := (Machine.register · kind handler)) (fun _ => rfl)
    fun _ _ hmk => ⟨rfl, hT.register kind hknown hmk⟩

end Same

/-- Twins drive their handlers alike. -/
theorem drives : (Coupling.twin R S).Drives K.known where
  registry := hT.registry
  known := hT.follows
  mode := hT.mode
  rest hmk := by rw [hT.pass hmk]
  queue hmk := by
    rw [Machine.queue, hT.pass hmk]
    exact (List.map_id _).symm
  list hmk := by
    rw [hT.pass hmk]
    rfl
  incomplete hmk := by
    rw [hT.pass hmk]
    exact (Option.map_id_apply).symm
  unmatched hmk := by
    rw [hT.pass hmk]
    rfl
  lookup _ := rfl
  lookahead := rfl
  is _ _ := rfl
  place kind t hmk hnl := by
    rw [hT.pass hmk, hT.locationFrom _ hnl]
    rfl
  derived := hT.derived
  setQueue {m k} queue hmk := by
    show R (m.withQueue queue) (k.withQueue (queue.map id))
    rw [List.map_id]
    exact hT.setQueue queue hmk
  push t hmk := (Same.push hT t hmk).ends
  character hmk _ _ := (Same.characterToken hT _ hmk).ends

omit hT in
/-- The tokens of twins are the same. -/
theorem same_iff_coupled {x : Watched (Option Token)} :
    Coupled (.twin R S) (Option.map (Coupling.twin R S).token) x x ↔ Same R S x := by
  show Coupled (.twin R S) (Option.map id) x x ↔ _
  rw [Option.map_id]
  rfl

omit hT in
theorem same_iff_coupled_list {x : Watched (List Token)} :
    Coupled (.twin R S) (List.map (Coupling.twin R S).token) x x ↔ Same R S x := by
  show Coupled (.twin R S) (List.map id) x x ↔ _
  rw [List.map_id_fun]
  rfl

section Calls

variable {call : Handler → Watched (Option Token)} (hcall : ∀ h, K.known h → Same R S (call h))
  (bound : Nat)

include hcall

/-- Each request that handlers of the conduct may make is served alike. -/
theorem request {r : Request} (allowed : K.allowed r) : Same R S (r.watched call bound) := by
  have hcalls := fun h hknown => same_iff_coupled.2 (hcall h hknown)
  have hreport (hr : r.reports = true) (e : LexError) : Same R S (lift (LexM.report e)) := by
    apply Coupled.of_ends
    intro m k hmk
    have h := hT.report e allowed hr hmk
    unfold Coupling.Ends
    rw [outcome_id]
    exact h
  cases r with
  | view =>
    exact Same.of_apply (r := fun m => .ok m.lexer.view) (f := id) (fun _ => rfl)
      fun _ _ hmk => ⟨congrArg Except.ok (hT.view hmk), hmk⟩
  | hooks =>
    exact Same.of_apply (r := fun m => .ok m.lexer.options.hooks) (f := id) (fun _ => rfl)
      fun _ _ hmk => ⟨congrArg Except.ok (hT.hooks allowed hmk), hmk⟩
  | consume bytes => exact Same.consume hT bytes
  | consumeAs bytes value => exact Same.consumeAs hT bytes value
  | move value bytes => exact Same.modifyPass hT (·.move value bytes)
  | init input => exact Same.setPass hT (.start input)
  | matchPattern pattern => exact Same.matchPattern hT pattern
  | scan pattern kind => exact Same.scan hT pattern kind
  | skipSpaces => exact Same.lift_bind (Same.matchPattern hT .spaces) fun _ => Same.lift_pure _
  | token kind value => exact Same.token hT kind value
  | tokenFrom kind captures => exact Same.tokenFrom hT kind captures
  | handle kind => exact same_iff_coupled.1 (hT.drives.handle hcalls kind)
  | call kind => exact same_iff_coupled.1 (hT.drives.callKind hcalls kind)
  | advance => exact same_iff_coupled.1 (hT.drives.advance hcalls (hreport rfl))
  | next => exact same_iff_coupled.1 (hT.drives.next hcalls (hreport rfl))
  | lex => exact hT.drives.lex hcalls (hreport rfl) bound
  | tokenize input =>
    exact hT.drives.tokenize hcalls (hreport rfl) bound (Same.setPass hT (.start input))
  | enqueue t => exact Same.modifyPass hT (·.enqueue t)
  | dequeue => exact same_iff_coupled.1 hT.drives.dequeue
  | lookahead n => exact same_iff_coupled.1 (hT.drives.lookahead_coupled hcalls (hreport rfl) n)
  | skip n => exact same_iff_coupled_list.1 (hT.drives.skipOnto hcalls (hreport rfl) n [])
  | skipWhile accepts =>
    have haccepts (taken : List Token) (t : Token) :
        accepts (taken.map (Coupling.twin R S).token) ((Coupling.twin R S).token t) =
          accepts taken t := by
      show accepts (taken.map id) t = _
      rw [List.map_id]
    exact same_iff_coupled_list.1
      (hT.drives.skipWhileOnto hcalls (hreport rfl) haccepts bound [])
  | skipTo kind => exact same_iff_coupled_list.1 (hT.drives.skipTo hcalls (hreport rfl) bound kind)
  | push t => exact Same.push hT t
  | pushStack t => exact Same.modifyPass hT (·.pushStack t)
  | popStack =>
    apply Same.pass_bind hT
    intro p
    exact Same.lift_bind (Same.setPass hT p.popStack.2) fun _ => Same.lift_pure p.popStack.1
  | append value => exact Same.modifyPass hT (·.append value)
  | finish => exact hT.drives.finish (hreport rfl)
  | report e => exact hreport rfl e
  | note label answer =>
    exact Same.of_apply (r := fun _ => .ok ()) (f := (Machine.record · (.note label answer)))
      (fun _ => rfl) fun _ _ hmk => ⟨rfl, hT.note label answer hmk⟩

/-- A program of the conduct does the same on twins, by induction on what it does next. -/
theorem program (hfork : ∀ input body, Same R S (Watched.onFork input (call body)))
    {p : Program Handler α} (hp : p.Asks K.allowed K.known) : Same R S (p.watched call bound) := by
  have hstation : Same R S (Watched.see fun m => .station m none) :=
    Same.see fun _ _ hmk => hT.station none hmk
  induction p with
  | done a => exact hstation.bind fun _ => Same.pure a
  | fail e => exact hstation.bind fun _ => Same.throw e
  | ask request next ih =>
    obtain ⟨allowed, hnext⟩ := hp
    intro m k hmk
    -- What comes after the answer still sees the machine at which it was asked for.
    let later (s : Machine) (reply : Except LexError request.Reply) : Watched α := do
      Watched.see fun _ => .answer s request reply
      (next reply).watched call bound
    have hlater (reply : Except LexError request.Reply) :
        Coupled (.twin R S) id (later m reply) (later k reply) := by
      have hanswer : Coupled (.twin R S) id (Watched.see fun _ => .answer m request reply)
          (Watched.see fun _ => .answer k request reply) :=
        Coupled.see fun _ _ _ => hT.answer request reply hmk
      exact hanswer.bind fun _ => ih reply (hnext reply)
    have hserve : (Coupling.twin R S).Agree id (Watched.attempt (request.watched call bound) m)
        (Watched.attempt (request.watched call bound) k) :=
      (hT.request hcall bound allowed).attempt hmk
    have hrest := Watched.agree_bind (u := later m) (v := later k) hserve hlater
    rw [Program.watched_ask, Program.watched_ask]
    exact ⟨.cons (hT.station (some request) hmk) hrest.sights, hrest.ends⟩
  | set kind handler next ih =>
    obtain ⟨hknown, hnext⟩ := hp
    exact hstation.bind fun _ => (Same.register hT kind hknown).bind fun _ => ih hnext
  | fork input body next ih =>
    have hforked : Same R S (Watched.see fun _ => .forked) := Same.see fun _ _ _ => hT.forked
    have hjoined : Same R S (Watched.see fun _ => .joined) := Same.see fun _ _ _ => hT.joined
    apply hstation.bind
    intro _
    apply hforked.bind
    intro _
    apply (hfork input body).bind
    intro r
    exact hjoined.bind fun _ => ih r.1 r.2 (hp r.1 r.2)

end Calls

omit hT in
/-- What does the same on forks that are twins does so on a fork of twins. -/
theorem onFork {K' : Conduct} {R' : Machine → Machine → Prop} (hT' : Twins K' R' S)
    (hforks : Forks R R') (input : Text) {x : Watched α} (hx : Same R' S x) :
    Same R S (Watched.onFork input x) := by
  intro m k hmk
  obtain ⟨hsights, hends⟩ := hx (hforks.fork input hmk)
  refine ⟨hsights, ?_⟩
  unfold Watched.onFork
  generalize (x { m with lexer := m.lexer.fork input }).2 = ended at hends ⊢
  generalize (x { k with lexer := k.lexer.fork input }).2 = ended' at hends ⊢
  cases hends with
  | none => exact .none
  | @some a b h =>
    obtain ⟨r, n⟩ := a
    obtain ⟨r', l⟩ := b
    obtain ⟨hresult, htwins⟩ := h
    rw [outcome_id] at hresult
    obtain rfl : r' = r := hresult
    have hview : l.lexer.view = n.lexer.view := hT'.view htwins
    refine .some ⟨?_, hforks.back hmk htwins⟩
    rw [outcome_id]
    show Except.ok (r', l.lexer.view) = .ok (r', n.lexer.view)
    rw [hview]

/-- The handlers of a conduct do the same on twins, however deep they call each other, if all
handlers do so on the forks of twins. -/
theorem handler {R' : Machine → Machine → Prop} (hT' : Twins .all R' S) (hforks : Forks R R')
    (hforks' : Forks R' R') (depth : Nat) :
    (∀ h, K.known h → Same R S (Handler.watched depth h)) ∧
      ∀ h, Same R' S (Handler.watched depth h) := by
  induction depth with
  | zero => exact ⟨fun _ _ => Coupled.timeout id, fun _ => Coupled.timeout id⟩
  | succ depth ih =>
    obtain ⟨hown, hforked⟩ := ih
    constructor
    · intro h hknown
      have hfork (input : Text) (body : Handler) :
          Same R S (Watched.onFork input (Handler.watched depth body)) :=
        hT'.onFork hforks input (hforked body)
      exact hT.program hown depth hfork (K.asks h hknown)
    · intro h
      have hfork (input : Text) (body : Handler) :
          Same R' S (Watched.onFork input (Handler.watched depth body)) :=
        hT'.onFork hforks' input (hforked body)
      exact hT'.program (fun h _ => hforked h) depth hfork h.program.asks_all

/-- So does every program of the conduct. -/
theorem watch {R' : Machine → Machine → Prop} (hT' : Twins .all R' S) (hforks : Forks R R')
    (hforks' : Forks R' R') (bound : Nat) {p : Program Handler α}
    (hp : p.Asks K.allowed K.known) : Same R S (p.watch bound) := by
  obtain ⟨hown, hforked⟩ := hT.handler hT' hforks hforks' bound
  exact hT.program hown bound (fun input body => hT'.onFork hforks input (hforked body)) hp

end Twins

end ModularLexer
