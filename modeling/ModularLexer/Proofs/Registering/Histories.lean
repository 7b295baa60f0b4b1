import ModularLexer.Proofs.Effects
import ModularLexer.Proofs.Registration

/-!
Histories of registrations. Handlers and patterns are registered one after another, some in plugins,
and some of it fails; what a registry shows afterwards are the registrations that succeeded.
-/
namespace ModularLexer

namespace Registry

variable {α : Type} {r : Registry α} {entries : List (String × α)}

def latest? (entries : List (String × α)) (kind : String) : Option α :=
  (entries.reverse.find? (·.1 == kind)).map (·.2)

/-- A registry shows what was registered in order: each kind once, where it came first, and under it
what came last, whether one asks for a kind or for a place in the order. -/
structure Records (r : Registry α) (entries : List (String × α)) : Prop where
  kinds : r.kinds = (entries.map (·.1)).eraseDups
  nodup : r.kinds.Nodup
  has (kind : String) : r.has kind = true ↔ kind ∈ entries.map (·.1)
  get (kind : String) : r.get kind = (latest? entries kind).elim (.error (.lookup kind)) .ok
  entryAt? (i : Nat) (kind : String) (value : α) :
    r.entryAt? i = some (kind, value) ↔ r.kinds[i]? = some kind ∧ r.get kind = .ok value
  size : r.size = r.kinds.length

theorem latest?_concat (entries : List (String × α)) (kind other : String) (value : α) :
    latest? (entries ++ [(kind, value)]) other =
      if other = kind then some value else latest? entries other := by
  rw [latest?, List.reverse_append, List.reverse_singleton, List.singleton_append]
  by_cases h : other = kind
  · have hsame : (kind == other) = true := beq_iff_eq.2 h.symm
    rw [List.find?_cons, hsame, if_pos h]
    rfl
  · have hother : (kind == other) = false := beq_eq_false_iff_ne.2 (Ne.symm h)
    rw [List.find?_cons, hother, if_neg h]
    rfl

theorem eraseDups_concat (kinds : List String) (kind : String) :
    (kinds ++ [kind]).eraseDups =
      if kind ∈ kinds.eraseDups then kinds.eraseDups else kinds.eraseDups ++ [kind] := by
  rw [List.eraseDups_append]
  by_cases h : kind ∈ kinds
  · simp [List.removeAll, h]
  · simp [List.removeAll, h, List.eraseDups_cons]

/-- The order of the kinds and what is found under them tell all the rest. -/
theorem Records.of_find? (hkinds : r.kinds = (entries.map (·.1)).eraseDups)
    (hnodup : r.kinds.Nodup) (hfind : ∀ kind, r.find? kind = latest? entries kind) :
    r.Records entries where
  kinds := hkinds
  nodup := hnodup
  has kind := by rw [has_iff_mem_kinds, hkinds, List.mem_eraseDups]
  get kind := by
    unfold Registry.get
    rw [hfind]
    cases latest? entries kind <;> rfl
  entryAt? i kind value := by
    constructor
    · intro h
      refine ⟨?_, get_of_entryAt? hnodup h⟩
      rw [Registry.kinds, List.getElem?_map, ← Registry.entryAt?, h]
      rfl
    · rintro ⟨hkind, hget⟩
      obtain ⟨found, hfound⟩ := exists_entryAt? hkind
      have hsame : found = value :=
        Except.ok.inj ((get_of_entryAt? hnodup hfound).symm.trans hget)
      rw [hfound, hsame]
  size := (List.length_map _).symm

theorem Records.find? (h : r.Records entries) (kind : String) :
    r.find? kind = latest? entries kind := by
  have hget := h.get kind
  unfold Registry.get at hget
  cases hfind : r.find? kind <;> cases hlatest : latest? entries kind <;>
    simp_all

theorem records_empty : (empty : Registry α).Records [] :=
  .of_find? rfl List.nodup_nil fun _ => rfl

/-- One more registration puts a new kind last, and changes only what is found under its kind. -/
theorem Records.set (h : r.Records entries) (kind : String) (value : α) :
    (r.set kind value).Records (entries ++ [(kind, value)]) := by
  apply Records.of_find?
  · rw [kinds_set, h.kinds, List.map_append, List.map_singleton, eraseDups_concat]
  · exact nodup_kinds_set h.nodup kind value
  · intro other
    rw [find?_set, latest?_concat, h.find?]

theorem Records.setAll (h : r.Records entries) (later : List (String × α)) :
    (r.setAll later).Records (entries ++ later) := by
  induction later generalizing r entries with
  | nil =>
    rw [List.append_nil]
    exact h
  | cons entry later ih =>
    have hlater := ih (h.set entry.1 entry.2)
    rw [List.append_assoc, List.singleton_append] at hlater
    exact hlater

theorem setAll_append (r : Registry α) (entries later : List (String × α)) :
    r.setAll (entries ++ later) = (r.setAll entries).setAll later := by
  induction entries generalizing r with
  | nil => rfl
  | cons entry entries ih => exact ih (r.set entry.1 entry.2)

end Registry

/-- What is done to set a lexer up: handlers and patterns are registered, and plugins do the same.
Whether a pattern was registered and how a plugin ended is known to what comes next, which may end
for it with an error or go on. -/
inductive Setup where
  | done
  | fail (error : LexError)
  | set (kind : String) (handler : Handler) (next : Setup)
  | capture (kind source : String) (next : Except LexError Unit → Setup)
  | captureWith (kind source : String) (transform : Token → Program Handler (Option Token))
    (next : Except LexError Unit → Setup)
  | plugin (body : Setup) (next : Except LexError Unit → Setup)

namespace Setup

section Meaning

variable (compile : String → Except LexError Pattern)

def program : Setup → Program Handler Unit
  | done => return ()
  | fail error => .fail error
  | set kind handler next => do
    Program.register kind handler
    next.program
  | capture kind source next => do
    let outcome ← (Program.capture compile kind source).attempt
    (next outcome).program
  | captureWith kind source transform next => do
    let outcome ← (Program.captureWith compile kind source transform).attempt
    (next outcome).program
  | plugin body next => do
    let outcome ← body.program.attempt
    (next outcome).program

def compiles (source : String) : Except LexError Unit := (compile source).map fun _ => ()

def compiled (kind source : String) (handler : Pattern → Handler) : List (String × Handler) :=
  (compile source).toOption.toList.map fun pattern => (kind, handler pattern)

def outcome : Setup → Except LexError Unit
  | done => .ok ()
  | fail error => .error error
  | set _ _ next => next.outcome
  | capture _ source next => (next (compiles compile source)).outcome
  | captureWith _ source _ next => (next (compiles compile source)).outcome
  | plugin body next => (next body.outcome).outcome

/-- What is registered, in order, up to where it ends. -/
def registrations : Setup → List (String × Handler)
  | done => []
  | fail _ => []
  | set kind handler next => (kind, handler) :: next.registrations
  | capture kind source next =>
    compiled compile kind source (.ofPattern kind) ++ (next (compiles compile source)).registrations
  | captureWith kind source transform next =>
    compiled compile kind source (.ofPatternWith kind · transform) ++
      (next (compiles compile source)).registrations
  | plugin body next => body.registrations ++ (next (body.outcome compile)).registrations

end Meaning

end Setup

def Machine.registerAll (m : Machine) (entries : List (String × Handler)) : Machine :=
  { m with lexer := { m.lexer with registry := m.lexer.registry.setAll entries } }

theorem Machine.registerAll_append (m : Machine) (entries later : List (String × Handler)) :
    m.registerAll (entries ++ later) = (m.registerAll entries).registerAll later := by
  simp only [registerAll, Registry.setAll_append]

/-- Where the first of two computations cannot fail, only errors of the second become results. -/
theorem LexM.attempt_bind {α β : Type} {x : LexM β} {f : β → LexM α}
    (hx : ∀ m e n, x m ≠ some (.error e, n)) :
    LexM.attempt (x >>= f) = x >>= fun b => LexM.attempt (f b) := by
  funext m
  rcases h : x m with _ | ⟨e | b, n⟩
  · rw [attempt_apply, bind_of_timeout h, bind_of_timeout h]
    rfl
  · exact absurd h (hx m e n)
  · rw [attempt_apply, bind_of_ok h, bind_of_ok h]
    rfl

theorem Program.run_attempt {α : Type} (call : Handler → LexM (Option Token)) (bound : Nat)
    (p : Program Handler α) : p.attempt.run call bound = LexM.attempt (p.run call bound) := by
  induction p with
  | done a => rfl
  | fail e => rfl
  | ask request next ih =>
    rw [attempt, run, run, LexM.attempt_bind]
    · exact bind_congr ih
    · intro m e n h
      obtain ⟨_, -, he⟩ := LexM.exists_of_attempt h
      cases he
  | set kind handler next ih =>
    rw [attempt, run, run, LexM.attempt_bind]
    · exact bind_congr fun _ => ih
    · intro m e n h
      cases h
  | fork input body next ih =>
    rw [attempt, run, run, LexM.attempt_bind]
    · exact bind_congr fun outcome => ih outcome.1 outcome.2
    · intro m e n h
      obtain ⟨_, _, -, he, -⟩ := LexM.exists_of_onFork h
      cases he

namespace Setup

variable (compile : String → Except LexError Pattern) (call : Handler → LexM (Option Token))
  (bound : Nat)

section Compiled

variable (kind source : String)

/-- What a source text compiles to is registered, and if it does not compile nothing changes. -/
theorem run_compiled (handler : Pattern → Handler) (m : Machine) :
    (do
      let pattern ← Program.ofExcept (compile source)
      Program.register kind (handler pattern) : Program Handler Unit).run call bound m =
      some (compiles compile source, m.registerAll (compiled compile kind source handler)) := by
  unfold compiles compiled
  cases compile source <;> rfl

theorem run_capture (m : Machine) :
    (Program.capture compile kind source).run call bound m =
      some (compiles compile source,
        m.registerAll (compiled compile kind source (.ofPattern kind))) :=
  run_compiled compile call bound kind source (.ofPattern kind) m

theorem run_captureWith (transform : Token → Program Handler (Option Token)) (m : Machine) :
    (Program.captureWith compile kind source transform).run call bound m =
      some (compiles compile source,
        m.registerAll (compiled compile kind source (.ofPatternWith kind · transform))) :=
  run_compiled compile call bound kind source (.ofPatternWith kind · transform) m

end Compiled

/-- What comes next goes on from what was registered before, however that ended. -/
theorem run_attempt_bind {p : Program Handler Unit} {next : Except LexError Unit → Setup}
    {outcome : Except LexError Unit} {entries : List (String × Handler)} {m : Machine}
    (h : p.run call bound m = some (outcome, m.registerAll entries))
    (hnext : ((next outcome).program compile).run call bound (m.registerAll entries) =
      some ((next outcome).outcome compile, (m.registerAll entries).registerAll
        ((next outcome).registrations compile))) :
    (do
      let outcome ← p.attempt
      (next outcome).program compile : Program Handler Unit).run call bound m =
      some ((next outcome).outcome compile,
        m.registerAll (entries ++ (next outcome).registrations compile)) := by
  have hattempt : p.attempt.run call bound m = some (.ok outcome, m.registerAll entries) := by
    rw [Program.run_attempt, LexM.attempt_apply, h]
    rfl
  rw [Program.run_bind, LexM.bind_of_ok hattempt, hnext, Machine.registerAll_append]

/-- Setting a lexer up comes to its end, and registers what is registered on the way. -/
theorem run_program (s : Setup) (m : Machine) :
    (s.program compile).run call bound m =
      some (s.outcome compile, m.registerAll (s.registrations compile)) := by
  induction s generalizing m with
  | done => rfl
  | fail error => rfl
  | set kind handler next ih => exact ih (m.registerAll [(kind, handler)])
  | capture kind source next ih =>
    exact run_attempt_bind compile call bound
      (run_capture compile call bound kind source m) (ih _ _)
  | captureWith kind source transform next ih =>
    exact run_attempt_bind compile call bound
      (run_captureWith compile call bound kind source transform m) (ih _ _)
  | plugin body next ihBody ih => exact run_attempt_bind compile call bound (ihBody m) (ih _ _)

end Setup

end ModularLexer
