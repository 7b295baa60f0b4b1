import ModularLexer.LexError

/-!
Registries: values under kinds, in the order in which the kinds were first registered. Setting a
kind changes what is found under it and under no other, and moves no kind.
-/
namespace ModularLexer

/-- Kinds with their values, in the order of trial. -/
structure Registry (α : Type) where
  entries : List (String × α)

namespace Registry

variable {α : Type}

def empty : Registry α := ⟨[]⟩

/-- Replaces the value of a kind where it stands, or adds the kind at the end. -/
def setEntry (kind : String) (value : α) : List (String × α) → List (String × α)
  | [] => [(kind, value)]
  | entry :: entries =>
    if entry.1 == kind then (kind, value) :: entries else entry :: setEntry kind value entries

/-- Registers a value under a kind. A kind that is known keeps its place. -/
def set (r : Registry α) (kind : String) (value : α) : Registry α := ⟨setEntry kind value r.entries⟩

def find? (r : Registry α) (kind : String) : Option α :=
  (r.entries.find? (·.1 == kind)).map (·.2)

/-- The value under a kind, or the error of there being none. -/
def get (r : Registry α) (kind : String) : Except LexError α :=
  match r.find? kind with
  | some value => .ok value
  | none => .error (.lookup kind)

def has (r : Registry α) (kind : String) : Bool := (r.find? kind).isSome

def kinds (r : Registry α) : List String := r.entries.map (·.1)

def size (r : Registry α) : Nat := r.entries.length

def entryAt? (r : Registry α) (i : Nat) : Option (String × α) := r.entries[i]?

/-- A kind keeps its place when it is set again, and a new one comes last. -/
theorem kinds_set (r : Registry α) (kind : String) (value : α) :
    (r.set kind value).kinds = if kind ∈ r.kinds then r.kinds else r.kinds ++ [kind] := by
  obtain ⟨entries⟩ := r
  simp only [kinds, set]
  induction entries with
  | nil => simp [setEntry]
  | cons entry entries ih =>
    by_cases h : entry.1 = kind
    · simp [setEntry, h]
    · by_cases hk : kind ∈ entries.map (·.1) <;> simp_all [setEntry, Ne.symm h]

/-- What was set last is found under its kind; other kinds are as before. -/
theorem find?_set (r : Registry α) (kind other : String) (value : α) :
    (r.set kind value).find? other = if other = kind then some value else r.find? other := by
  obtain ⟨entries⟩ := r
  simp only [find?, set]
  induction entries with
  | nil =>
    by_cases h : other = kind
    · simp [setEntry, h]
    · simp [setEntry, h, Ne.symm h]
  | cons entry entries ih =>
    by_cases h : entry.1 = kind
    · by_cases ho : other = kind
      · simp [setEntry, h, ho]
      · simp [setEntry, h, ho, Ne.symm ho]
    · by_cases he : entry.1 = other
      · subst he
        simp [setEntry, h]
      · simp_all [setEntry]

/-- A kind is found exactly if it is among the registered ones. -/
theorem has_iff_mem_kinds (r : Registry α) (kind : String) : r.has kind ↔ kind ∈ r.kinds := by
  simp [has, find?, kinds]

end Registry

end ModularLexer
