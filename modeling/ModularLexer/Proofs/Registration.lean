import ModularLexer.Lexer.Machine

/-!
Registries that are filled entry by entry. Each kind stands once, where it was first registered.
-/
namespace ModularLexer

namespace Registry

variable {α β : Type}

def setAll (r : Registry α) : List (String × α) → Registry α
  | [] => r
  | (kind, value) :: entries => (r.set kind value).setAll entries

def ofList (entries : List (String × α)) : Registry α := empty.setAll entries

/-- The same kinds with other values, made of the kinds and of what was there. -/
def map (f : String → α → β) (r : Registry α) : Registry β :=
  ⟨r.entries.map fun (kind, value) => (kind, f kind value)⟩

theorem set_map (f : String → α → β) (r : Registry α) (kind : String) (value : α) :
    (r.map f).set kind (f kind value) = (r.set kind value).map f := by
  obtain ⟨entries⟩ := r
  simp only [set, map, mk.injEq]
  induction entries with
  | nil => rfl
  | cons entry entries ih =>
    rw [List.map_cons, setEntry, setEntry]
    split
    · rw [List.map_cons]
    · rw [List.map_cons, ih]

theorem ofList_map (f : String → α → β) (entries : List (String × α)) :
    ofList (entries.map fun (kind, value) => (kind, f kind value)) = (ofList entries).map f := by
  suffices hs : ∀ r : Registry α,
      (r.map f).setAll (entries.map fun (kind, value) => (kind, f kind value)) =
        (r.setAll entries).map f from hs empty
  induction entries with
  | nil => exact fun _ => rfl
  | cons entry entries ih =>
    intro r
    rw [List.map_cons, setAll, setAll, set_map, ih]

theorem nodup_kinds_set {r : Registry α} (h : r.kinds.Nodup) (kind : String) (value : α) :
    (r.set kind value).kinds.Nodup := by
  rw [kinds_set]
  split
  · exact h
  · next hkind =>
    rw [List.nodup_append]
    refine ⟨h, List.pairwise_singleton _ kind, ?_⟩
    intro a ha b hb hab
    rw [List.mem_singleton.1 hb] at hab
    exact hkind (hab ▸ ha)

theorem nodup_kinds_ofList (entries : List (String × α)) : (ofList entries).kinds.Nodup := by
  suffices hs : ∀ r : Registry α, r.kinds.Nodup → (r.setAll entries).kinds.Nodup from
    hs empty List.nodup_nil
  induction entries with
  | nil => exact fun _ h => h
  | cons entry entries ih => exact fun r h => ih _ (nodup_kinds_set h entry.1 entry.2)

/-- A kind keeps its place when others are registered. -/
theorem kinds_prefix_set (r : Registry α) (kind : String) (value : α) :
    r.kinds <+: (r.set kind value).kinds := by
  rw [kinds_set]
  split
  · exact List.prefix_rfl
  · exact List.prefix_append _ _

theorem exists_entryAt? {r : Registry α} {i : Nat} {kind : String} (h : r.kinds[i]? = some kind) :
    ∃ value, r.entryAt? i = some (kind, value) := by
  rw [kinds, List.getElem?_map] at h
  obtain ⟨⟨other, value⟩, hentry, rfl⟩ := Option.map_eq_some_iff.1 h
  exact ⟨value, hentry⟩

/-- Where each kind stands once, what stands at a place is found under its kind. -/
theorem get_of_entryAt? {r : Registry α} (hr : r.kinds.Nodup) {i : Nat} {kind : String} {value : α}
    (h : r.entryAt? i = some (kind, value)) : r.get kind = .ok value := by
  have hfind : r.entries.find? (·.1 == kind) = some (kind, value) := by
    have hmem : (kind, value) ∈ r.entries := List.mem_of_getElem? h
    obtain ⟨entries⟩ := r
    dsimp only [kinds] at hr hmem ⊢
    clear h
    induction entries with
    | nil => cases hmem
    | cons entry entries ih =>
      rw [List.map_cons, List.nodup_cons] at hr
      rcases List.mem_cons.1 hmem with rfl | hmem
      · exact List.find?_cons_of_pos (beq_self_eq_true kind)
      · have hother : ¬(entry.1 == kind) = true := fun heq =>
          hr.1 (beq_iff_eq.1 heq ▸ List.mem_map_of_mem hmem)
        rw [List.find?_cons, eq_false_of_ne_true hother]
        exact ih hr.2 hmem
  rw [get, find?, hfind]
  rfl

theorem entries_set_of_not_mem {r : Registry α} {kind : String} (h : kind ∉ r.kinds) (value : α) :
    (r.set kind value).entries = r.entries ++ [(kind, value)] := by
  obtain ⟨entries⟩ := r
  simp only [set, kinds] at h ⊢
  induction entries with
  | nil => rfl
  | cons entry entries ih =>
    obtain ⟨hne, hnot⟩ := List.ne_and_not_mem_of_not_mem_cons h
    have hother : ¬(entry.1 == kind) = true := fun heq => hne (beq_iff_eq.1 heq).symm
    rw [setEntry, if_neg hother, ih hnot, List.cons_append]

/-- Kinds that are all different are registered just as they stand. -/
theorem entries_ofList_of_nodup {entries : List (String × α)}
    (h : (entries.map (·.1)).Nodup) : (ofList entries).entries = entries := by
  suffices hs : ∀ r : Registry α, (r.kinds ++ entries.map (·.1)).Nodup →
      (r.setAll entries).entries = r.entries ++ entries from hs empty h
  clear h
  induction entries with
  | nil => exact fun r _ => (List.append_nil r.entries).symm
  | cons entry entries ih =>
    intro r hr
    have hnew : entry.1 ∉ r.kinds := fun hmem =>
      (List.nodup_append.1 hr).2.2 _ hmem _ List.mem_cons_self rfl
    have hkinds : (r.set entry.1 entry.2).kinds ++ entries.map (·.1) =
        r.kinds ++ (entry :: entries).map (·.1) := by
      rw [kinds_set, if_neg hnew, List.append_assoc]
      rfl
    rw [setAll, ih _ (hkinds ▸ hr), entries_set_of_not_mem hnew, List.append_assoc]
    rfl

end Registry

def Machine.withHandlers (m : Machine) (handlers : List (String × Handler)) : Machine :=
  { m with lexer := { m.lexer with registry := .ofList handlers } }

end ModularLexer
