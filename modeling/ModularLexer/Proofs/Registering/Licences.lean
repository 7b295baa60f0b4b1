import ModularLexer.Proofs.Frame
import ModularLexer.Proofs.Registering.Histories

/-!
Who registers. A lexer registers nothing by itself: whatever it is asked for, all that its registry
shows afterwards and did not show before was registered by handlers that ran.
-/
namespace ModularLexer

/-- Whether a program registers only what it may. What is done on forks stays there. -/
def Program.Registers {α : Type} (may : String → Handler → Prop) : Program Handler α → Prop
  | done _ => True
  | fail _ => True
  | ask _ next => ∀ reply, (next reply).Registers may
  | set kind handler next => may kind handler ∧ next.Registers may
  | fork _ _ next => ∀ outcome view, (next outcome view).Registers may

/-- A class of handlers with what they may register, which is in the class. -/
structure Licence where
  known : Handler → Prop
  may : String → Handler → Prop
  knows : ∀ kind handler, may kind handler → known handler

def Licence.Kept (L : Licence) : Prop := ∀ h, L.known h → h.program.Registers L.may

def Licence.nothing : Licence where
  known h := h.program.Registers fun _ _ => False
  may _ _ := False
  knows _ _ h := h.elim

theorem Licence.kept_nothing : Licence.nothing.Kept := fun _ => id

/-- All handlers, with nothing that they may register. Where none is called this is kept. -/
def Licence.silent : Licence := ⟨fun _ => True, fun _ _ => False, fun _ _ _ => trivial⟩

/-- Whether serving a request calls handlers. -/
def Request.calls : Request → Bool
  | handle _ => true
  | call _ => true
  | advance => true
  | next => true
  | lex => true
  | tokenize _ => true
  | lookahead _ => true
  | skip _ => true
  | skipWhile _ => true
  | skipTo _ => true
  | _ => false

theorem Registry.mem_of_mem_setAll {α : Type} {r : Registry α} {later : List (String × α)}
    {entry : String × α} (h : entry ∈ (r.setAll later).entries) :
    entry ∈ later ∨ entry ∈ r.entries := by
  induction later generalizing r with
  | nil => exact .inr h
  | cons first later ih =>
    rcases ih h with hlater | hset
    · exact .inl (List.mem_cons_of_mem first hlater)
    · rcases mem_of_mem_set hset with rfl | hold
      · exact .inl List.mem_cons_self
      · exact .inr hold

namespace Machine

variable {L : Licence} {m n k : Machine}

def Licensed (L : Licence) (m : Machine) : Prop :=
  ∀ entry ∈ m.lexer.registry.entries, L.known entry.2

/-- The registry of one machine comes of that of another by registrations that a licence allows. -/
def Registered (L : Licence) (m n : Machine) : Prop :=
  ∃ later, n.lexer.registry = m.lexer.registry.setAll later ∧
    ∀ entry ∈ later, L.may entry.1 entry.2

theorem Registered.of_eq (h : n.lexer.registry = m.lexer.registry) : m.Registered L n :=
  ⟨[], h, fun _ hentry => nomatch hentry⟩

/-- Where nothing may be registered the registry is the same. -/
theorem Registered.registry_eq (h : m.Registered L n) (hL : ∀ kind handler, ¬L.may kind handler) :
    n.lexer.registry = m.lexer.registry := by
  obtain ⟨later, hn, hlater⟩ := h
  cases later with
  | nil => exact hn
  | cons entry later => exact (hL _ _ (hlater entry List.mem_cons_self)).elim

theorem Registered.trans (h : m.Registered L n) (h' : n.Registered L k) : m.Registered L k := by
  obtain ⟨earlier, hn, hearlier⟩ := h
  obtain ⟨later, hk, hlater⟩ := h'
  refine ⟨earlier ++ later, ?_, ?_⟩
  · rw [hk, hn, Registry.setAll_append]
  · intro entry hentry
    exact (List.mem_append.1 hentry).elim (hearlier entry) (hlater entry)

/-- What a licence allows to register is known to it. -/
theorem Registered.licensed (h : m.Registered L n) (hm : m.Licensed L) : n.Licensed L := by
  obtain ⟨later, hn, hlater⟩ := h
  intro entry hentry
  rw [hn] at hentry
  rcases Registry.mem_of_mem_setAll hentry with hnew | hold
  · exact L.knows entry.1 entry.2 (hlater entry hnew)
  · exact hm entry hold

end Machine

namespace LexM

variable {α β : Type} {L : Licence}

/-- However a computation ends on a licensed machine, it registers only what the licence allows. -/
def Abides (L : Licence) (x : LexM α) : Prop :=
  ∀ ⦃m r n⦄, m.Licensed L → x m = some (r, n) → m.Registered L n

namespace Abides

theorem of_eq {x : LexM α}
    (hx : ∀ ⦃m r n⦄, x m = some (r, n) → n.lexer.registry = m.lexer.registry) : Abides L x :=
  fun _ _ _ _ h => .of_eq (hx h)

theorem timeout : Abides L (timeout : LexM α) := by
  intro m r n _ h
  cases h

theorem bind {x : LexM α} {f : α → LexM β} (hx : Abides L x) (hf : ∀ a, Abides L (f a)) :
    Abides L (x >>= f) := by
  intro m r n hm h
  rcases bind_eq_some_iff.1 h with ⟨a, k, ha, hr⟩ | ⟨e, he, -⟩
  · have hk := hx hm ha
    exact hk.trans (hf a (hk.licensed hm) hr)
  · exact hx hm he

theorem attempt {x : LexM α} (hx : Abides L x) : Abides L (attempt x) := by
  intro m r n hm h
  obtain ⟨_, hk, -⟩ := exists_of_attempt h
  exact hx hm hk

theorem register {kind : String} {handler : Handler} (hmay : L.may kind handler) :
    Abides L (register kind handler) := by
  intro m r n _ h
  cases h
  refine ⟨[(kind, handler)], rfl, ?_⟩
  intro entry hentry
  cases List.mem_singleton.1 hentry
  exact hmay

/-- The lexer that has run a fork has the handlers that it had. -/
theorem onFork (input : Text) (x : LexM α) : Abides L (onFork input x) := by
  apply of_eq
  intro m r n h
  obtain ⟨_, _, -, -, rfl⟩ := exists_of_onFork h
  rfl

/-- What drivers are made of registers only through handlers. -/
theorem closed : Watched.Closed L.known fun _ x => Abides L x.value where
  plain {α x} hx := of_eq fun m r n h =>
    (hx ⟨fun _ => trivial, fun _ _ => trivial, fun _ => trivial, fun _ _ => trivial,
      fun _ _ => trivial, fun _ _ => trivial⟩ h).2
  timeout _ := timeout
  bind hx hf := by
    rw [Watched.value_bind]
    exact bind hx hf
  lexer_bind hf := by
    rw [Watched.value_bind]
    intro m r n hm h
    rw [Watched.value_lift, bind_of_ok (lexer_apply m)] at h
    exact hf m.lexer hm hm h
  attempt hx := attempt hx
  derived _ := by
    apply of_eq
    intro m r n h
    cases h
    rfl

end Abides

end LexM

open LexM (Abides)

variable {L : Licence} {call : Handler → LexM (Option Token)}

/-- Serving a request registers only what the handlers do that are called for it. -/
theorem Request.abides_serve (hcall : ∀ h, L.known h → Abides L (call h)) (bound : Nat)
    (r : Request) : Abides L (r.serve call bound) := by
  have hlifted : ∀ h, L.known h → Abides L (Watched.lift (call h)).value := hcall
  cases hown : r.own with
  | false =>
    have h := Abides.closed.request hlifted bound hown
    rwa [Request.value_watched] at h
  | true =>
    cases r with
    | tokenize input =>
      have hinit : Abides L (Watched.lift (LexM.init input)).value := by
        apply Abides.of_eq
        intro m r n h
        cases h
        rfl
      have h := Abides.closed.tokenize hlifted bound hinit
      rwa [Watched.value_tokenize] at h
    | consumeAs bytes value =>
      apply Abides.of_eq
      intro m r n h
      rcases LexM.consumeAs_cases h with ⟨e, -, rfl⟩ | ⟨p, -, -, rfl⟩ <;> rfl
    | move value bytes | init input | pushStack t | popStack | append value =>
      apply Abides.of_eq
      intro m r n h
      cases h
      rfl
    | _ => cases hown

/-- A request that calls no handlers leaves them alone. -/
theorem Request.registry_serve {bound : Nat} {r : Request} {m n : Machine} {reply}
    (hcalls : r.calls = false) (h : r.serve call bound m = some (reply, n)) :
    n.lexer.registry = m.lexer.registry := by
  have hsame : r.serve call bound = r.serve (fun _ => LexM.timeout) bound := by
    cases r with
    | handle _ | call _ | advance | next | lex | tokenize _ | lookahead _ | skip _ | skipWhile _
    | skipTo _ => cases hcalls
    | _ => rfl
  rw [hsame] at h
  have hregistered : m.Registered .silent n :=
    r.abides_serve (fun _ _ => .timeout) bound (fun _ _ => trivial) h
  exact hregistered.registry_eq fun _ _ => id

/-- A program registers only what it may, by induction on what it does next. -/
theorem Program.abides_run {α : Type} (hcall : ∀ h, L.known h → Abides L (call h)) (bound : Nat)
    {p : Program Handler α} (hp : p.Registers L.may) : Abides L (p.run call bound) := by
  induction p with
  | done _ | fail _ =>
    apply Abides.of_eq
    intro m r n h
    cases h
    rfl
  | ask request next ih =>
    exact .bind (.attempt (request.abides_serve hcall bound)) fun reply => ih reply (hp reply)
  | set kind handler next ih => exact .bind (.register hp.1) fun _ => ih hp.2
  | fork input body next ih =>
    exact .bind (.onFork input _) fun outcome =>
      ih outcome.1 outcome.2 (hp outcome.1 outcome.2)

/-- A handler registers only what it may, however deep it calls others. -/
theorem Handler.abides_call (hL : L.Kept) (depth : Nat) {h : Handler} (hknown : L.known h) :
    Abides L (Handler.call depth h) := by
  induction depth generalizing h with
  | zero => exact .timeout
  | succ depth ih => exact Program.abides_run (fun _ => ih) depth (hL h hknown)

/-- On a machine whose registry records some registrations, setting up comes to its end with a
registry that records those and its own, and nothing else changes, whatever compiler decides which
patterns there are. A pattern that does not compile
changes nothing, and what fails on the way, such as a plugin, keeps what it registered before and
nothing that would have come next. Afterwards whatever the lexer is asked for only adds what
handlers register, and where they register nothing the registry stays as it is. -/
theorem Machine.records_registrations {m : Machine} {entries : List (String × Handler)}
    (hm : m.lexer.registry.Records entries) (compile : String → Except LexError Pattern)
    (depth bound : Nat) :
    (∀ s : Setup,
      (s.program compile).run (Handler.call depth) bound m =
          some (s.outcome compile, m.registerAll (s.registrations compile)) ∧
        (m.registerAll (s.registrations compile)).lexer.registry.Records
          (entries ++ s.registrations compile)) ∧
    (∀ kind source e, compile source = .error e →
      (Program.capture compile kind source).run (Handler.call depth) bound m = some (.error e, m) ∧
        ∀ transform,
          (Program.captureWith compile kind source transform).run (Handler.call depth) bound m =
            some (.error e, m)) ∧
    (∀ (s : Setup) (e : LexError), s.outcome compile = .error e →
      ∀ rest : Unit → Program Handler Unit,
        (s.program compile >>= rest).run (Handler.call depth) bound m =
          some (.error e, m.registerAll (s.registrations compile))) ∧
    (∀ L : Licence, L.Kept → m.Licensed L → ∀ (r : Request) reply n,
      r.serve (Handler.call depth) bound m = some (reply, n) →
        ∃ later, (∀ entry ∈ later, L.may entry.1 entry.2) ∧
          n.lexer.registry.Records (entries ++ later)) ∧
    (∀ (r : Request) reply n, r.serve (Handler.call depth) bound m = some (reply, n) →
      r.calls = false ∨ m.Licensed .nothing → n.lexer.registry = m.lexer.registry) := by
  have hserve {L : Licence} (hL : L.Kept) (hm : m.Licensed L) {r : Request} {reply n}
      (h : r.serve (Handler.call depth) bound m = some (reply, n)) : m.Registered L n :=
    r.abides_serve (fun _ => Handler.abides_call hL depth) bound hm h
  refine ⟨?_, ?_, ?_, ?_, ?_⟩
  · exact fun s => ⟨s.run_program compile _ bound m, hm.setAll (s.registrations compile)⟩
  · intro kind source e he
    have hcompiles : Setup.compiles compile source = .error e := by
      rw [Setup.compiles, he]
      rfl
    have hcompiled (handler) : m.registerAll (Setup.compiled compile kind source handler) = m := by
      rw [Setup.compiled, he]
      rfl
    constructor
    · rw [Setup.run_capture, hcompiles, hcompiled]
    · intro transform
      rw [Setup.run_captureWith, hcompiles, hcompiled]
  · intro s e he rest
    have hrun := s.run_program compile (Handler.call depth) bound m
    rw [he] at hrun
    rw [Program.run_bind, LexM.bind_of_error hrun]
  · intro L hL hlicensed r reply n h
    obtain ⟨later, hn, hlater⟩ := hserve hL hlicensed h
    exact ⟨later, hlater, hn ▸ hm.setAll later⟩
  · rintro r reply n h (hcalls | hlicensed)
    · exact Request.registry_serve hcalls h
    · exact (hserve Licence.kept_nothing hlicensed h).registry_eq fun _ _ => id

def Handler.letter (c : Char) : Handler := .ofPattern (String.singleton c) (.letter c)

def registeringLetter : Machine :=
  .fresh "ab" [("a", .mk do
    Program.register "b" (.letter 'b')
    Program.request (.scan (.letter 'a') "a"))]

def Licence.secondLetter : Licence where
  known h := h.program.Registers fun kind handler => kind = "b" ∧ handler = .letter 'b'
  may kind handler := kind = "b" ∧ handler = .letter 'b'
  knows kind handler h := by
    obtain ⟨-, rfl⟩ := h
    rintro (e | t?) <;> trivial

/-- A text that does not compile is passed over, a plugin fails for another one, and then the letter
is registered again. -/
def setupPastFailures : Setup :=
  .captureWith "a" "^(" (fun t => return some t) fun _ =>
    .plugin
      (.set "c" (.letter 'c') (.capture "d" "^(" fun
        | .ok _ => .done
        | .error e => .fail e))
      fun _ => .set "a" (.letter 'a') .done

theorem licensed_registeringLetter : registeringLetter.Licensed .secondLetter := by
  intro entry hentry
  cases List.mem_singleton.1 hentry
  refine ⟨⟨rfl, rfl⟩, ?_⟩
  rintro (e | t?) <;> trivial

theorem records_registrations_letters :
    registeringLetter.lexer.registry.Records registeringLetter.lexer.registry.entries ∧
      (∃ n, (setupPastFailures.program Pattern.ofSource).run (Handler.call 4) 4
          registeringLetter = some (.ok (), n) ∧
        n.lexer.registry.kinds = ["a", "c"] ∧ n.lexer.registry.get "a" = .ok (.letter 'a')) ∧
      ∃ ts n, LexM.tokenize (Handler.call 4) 4 "ab".toList registeringLetter = some (.ok ts, n) ∧
        n.lexer.registry.kinds = ["a", "b"] ∧
        ∃ later, (∀ entry ∈ later, entry.1 = "b" ∧ entry.2 = .letter 'b') ∧
          n.lexer.registry.Records (registeringLetter.lexer.registry.entries ++ later) := by
  have hm : registeringLetter.lexer.registry.Records registeringLetter.lexer.registry.entries :=
    Registry.records_empty.set "a" _
  have hrun : LexM.shown (LexM.tokenize (Handler.call 4) 4 "ab".toList) registeringLetter
      (fun _ => ()) (·.lexer.registry.kinds) = some (some (), ["a", "b"]) := by decide +kernel
  obtain ⟨ts, n, hrun, -, hkinds⟩ := LexM.exists_of_shown hrun
  obtain ⟨hsetup, -, -, hserve, -⟩ := Machine.records_registrations hm Pattern.ofSource 4 4
  obtain ⟨hprogram, hrecords⟩ := hsetup setupPastFailures
  have houtcome : setupPastFailures.outcome Pattern.ofSource = .ok () := by rfl
  rw [houtcome] at hprogram
  refine ⟨hm, ⟨_, hprogram, ?_, ?_⟩, ts, n, hrun, hkinds, ?_⟩
  · rw [hrecords.kinds]
    decide +kernel
  · rw [hrecords.get]
    rfl
  · have hkept : Licence.secondLetter.Kept := fun _ => id
    exact hserve _ hkept licensed_registeringLetter (.tokenize "ab".toList) _ n hrun

end ModularLexer
