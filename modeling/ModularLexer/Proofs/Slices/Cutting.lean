import ModularLexer.Proofs.Coupling.Shifting
import ModularLexer.Proofs.Segmentation.Matching

/-!
Cuts by byte indexes. Where the input, what a match has searched, a text that is gone over and an
excerpt are cut, there is a character boundary, so each of these slices exists, and it is what the
functions on characters say.
-/
namespace ModularLexer

open Segmentation (fullText verdict)

namespace Text

/-- Whether a byte index of a text lies between characters or at one of its ends. -/
def IsBoundary (index : Nat) (t : Text) : Prop :=
  ∃ front rest, t = front ++ rest ∧ byteLength front = index

/-- The characters of a text with the byte indexes at which they start, the first one given. -/
def charIndices (start : Nat) : Text → List (Nat × Char)
  | [] => []
  | c :: t => (start, c) :: charIndices (start + c.utf8Size) t

theorem IsBoundary.le {index : Nat} {t : Text} (h : IsBoundary index t) : index ≤ byteLength t := by
  obtain ⟨front, rest, rfl, rfl⟩ := h
  rw [byteLength_append]
  exact Nat.le_add_right _ _

/-- A slice to the end is what lies behind its start. -/
theorem slice?_behind (front rest : Text) :
    slice? (byteLength front) (byteLength (front ++ rest)) (front ++ rest) = some rest := by
  have h := slice?_middle front rest []
  rwa [List.append_nil] at h

/-- A slice from the start is what lies before its end. -/
theorem slice?_before (front rest : Text) :
    slice? 0 (byteLength front) (front ++ rest) = some front := slice?_middle [] front rest

/-- A slice that starts behind a text is a cut of what follows. -/
theorem slice?_add (front rest : Text) (bytes : Nat) :
    slice? (byteLength front) (byteLength front + bytes) (front ++ rest) =
      (splitBytes? bytes rest).map (·.1) := by
  have hfront : splitBytes? (byteLength front) (front ++ rest) = some (front, rest) :=
    splitBytes?_eq_some_iff.2 ⟨rfl, rfl⟩
  rw [slice?, hfront, Nat.add_sub_cancel_left]
  simp only [Option.bind_eq_bind, Option.bind_some]
  cases splitBytes? bytes rest <;> rfl

theorem charIndices_append (start : Nat) (a b : Text) :
    charIndices start (a ++ b) = charIndices start a ++ charIndices (start + byteLength a) b := by
  induction a generalizing start with
  | nil => rfl
  | cons c a ih =>
    rw [List.cons_append, charIndices, ih, charIndices, byteLength_cons, ← Nat.add_assoc,
      List.cons_append]

theorem map_snd_charIndices (start : Nat) (t : Text) : (charIndices start t).map (·.2) = t := by
  induction t generalizing start with
  | nil => rfl
  | cons c t ih => rw [charIndices, List.map_cons, ih]

/-- A character behind a text starts where the text ends. -/
theorem charIndices_getElem? (start : Nat) (front rest : Text) (c : Char) :
    (charIndices start (front ++ c :: rest))[front.length]? =
      some (start + byteLength front, c) := by
  induction front generalizing start with
  | nil => rfl
  | cons d front ih =>
    rw [List.cons_append, charIndices, List.length_cons, List.getElem?_cons_succ, ih,
      byteLength_cons, Nat.add_assoc]

/-- The last newline is found where the last line begins behind it. -/
theorem find?_newline_eq_some {front line : Text} (h : '\n' ∉ line) :
    (charIndices 0 (front ++ '\n' :: line)).reverse.find? (·.2 == '\n') =
      some (byteLength front, '\n') := by
  have hline : (charIndices (byteLength front + 1) line).reverse.find? (·.2 == '\n') = none := by
    rw [List.find?_eq_none]
    intro entry hentry hnewline
    have hmem : entry.2 ∈ (charIndices (byteLength front + 1) line).map (·.2) :=
      List.mem_map_of_mem (List.mem_reverse.1 hentry)
    rw [map_snd_charIndices, beq_iff_eq.1 hnewline] at hmem
    exact h hmem
  have hsplit : charIndices 0 (front ++ '\n' :: line) = charIndices 0 front ++
      (byteLength front, '\n') :: charIndices (byteLength front + 1) line := by
    rw [charIndices_append, charIndices, Nat.zero_add]
    rfl
  rw [hsplit, List.reverse_append, List.reverse_cons, List.append_assoc, List.find?_append, hline]
  rfl

theorem find?_newline_eq_none {t : Text} (h : '\n' ∉ t) :
    (charIndices 0 t).reverse.find? (·.2 == '\n') = none := by
  rw [List.find?_eq_none]
  intro entry hentry hnewline
  have hmem : entry.2 ∈ (charIndices 0 t).map (·.2) :=
    List.mem_map_of_mem (List.mem_reverse.1 hentry)
  rw [map_snd_charIndices, beq_iff_eq.1 hnewline] at hmem
  exact h hmem

theorem exists_last_newline {t : Text} (h : '\n' ∈ t) :
    ∃ front line, t = front ++ '\n' :: line ∧ '\n' ∉ line := by
  obtain ⟨line, front, hsplit, hline⟩ := List.eq_append_cons_of_mem (List.mem_reverse.2 h)
  refine ⟨front.reverse, line.reverse, ?_, fun hmem => hline (List.mem_reverse.1 hmem)⟩
  rw [← List.reverse_reverse t, hsplit]
  simp

/-- The front of a text as error messages show it, cut before its 41st character. There is none if
the text cannot be cut there. -/
def sliceExcerpt? (t : Text) : Option Text :=
  match (charIndices 0 t)[excerptLength]? with
  | some (cut, _) => (slice? 0 cut t).map (· ++ ['.', '.', '.'])
  | none => some t

/-- An excerpt is never cut inside a character. -/
theorem sliceExcerpt?_eq (t : Text) : sliceExcerpt? t = some (excerpt t) := by
  have hlength : (charIndices 0 t).length = t.length := by
    rw [← List.length_map (·.2), map_snd_charIndices]
  unfold sliceExcerpt? excerpt
  by_cases h : t.length ≤ excerptLength
  · rw [List.getElem?_eq_none (hlength ▸ h), if_pos h]
  · obtain ⟨c, rest, hdrop⟩ : ∃ c rest, t.drop excerptLength = c :: rest :=
      List.exists_cons_of_ne_nil (by rw [ne_eq, List.drop_eq_nil_iff]; exact h)
    have htake : (t.take excerptLength).length = excerptLength :=
      List.length_take_of_le (Nat.le_of_not_le h)
    have hsplit : t = t.take excerptLength ++ c :: rest := by
      rw [← hdrop, List.take_append_drop]
    have hcut := charIndices_getElem? 0 (t.take excerptLength) rest c
    rw [← hsplit, htake, Nat.zero_add] at hcut
    have hslice := slice?_before (t.take excerptLength) (c :: rest)
    rw [← hsplit] at hslice
    rw [hcut, if_neg h]
    dsimp only
    rw [hslice, Option.map_some]

end Text

open Text (byteLength slice? IsBoundary)

namespace Position

/-- Goes over a text, the last line of which is cut off behind the last newline found from its end.
There is no place if the text cannot be cut there. -/
def sliceAdvance? (p : Position) (value : Text) (bytes : Nat) : Option Position :=
  match (Text.charIndices 0 value).reverse.find? (·.2 == '\n') with
  | some (last, _) =>
    (slice? (last + 1) (byteLength value) value).map fun line =>
      ⟨p.index + .ofNat bytes, p.line + .ofNat (value.count '\n'), .ofNat (line.length + 1)⟩
  | none =>
    some ⟨p.index + .ofNat bytes, p.line + .ofNat (value.count '\n'),
      p.column + .ofNat value.length⟩

theorem columnAfter_of_not_mem {line : Text} (h : '\n' ∉ line) (column : UInt64) :
    columnAfter column line = column + .ofNat line.length := by
  induction line generalizing column with
  | nil => exact (UInt64.add_zero column).symm
  | cons c line ih =>
    have hc : c ≠ '\n' := fun hc => h (hc ▸ List.mem_cons_self)
    have hrest : '\n' ∉ line := fun hmem => h (List.mem_cons_of_mem c hmem)
    show columnAfter (if c = '\n' then 1 else column + 1) line = _
    rw [if_neg hc, ih hrest, List.length_cons, Nat.add_comm, UInt64.ofNat_add, UInt64.add_assoc]
    rfl

/-- A text is never cut inside a character to go over it. -/
theorem sliceAdvance?_eq (p : Position) (value : Text) (bytes : Nat) :
    p.sliceAdvance? value bytes = some (p.advance value bytes) := by
  unfold sliceAdvance? advance
  by_cases h : '\n' ∈ value
  · obtain ⟨front, line, rfl, hline⟩ := Text.exists_last_newline h
    have hslice := Text.slice?_behind (front ++ ['\n']) line
    rw [Text.byteLength_append front, List.append_assoc, List.cons_append, List.nil_append]
      at hslice
    have hcolumn : columnAfter p.column (front ++ '\n' :: line) =
        .ofNat (line.length + 1) := by
      rw [columnAfter_append]
      show columnAfter 1 line = _
      rw [columnAfter_of_not_mem hline, Nat.add_comm, UInt64.ofNat_add]
      rfl
    rw [Text.find?_newline_eq_some hline, hcolumn]
    exact congrArg (Option.map _) hslice
  · rw [Text.find?_newline_eq_none h, columnAfter_of_not_mem h]

end Position

/-- The cursor of a pass stands between characters of its input. What is left is the slice from
there on, and taking bytes takes the slice of so many bytes from there, or nothing where there is
none. -/
structure Pass.InBounds (p : Pass) : Prop where
  boundary : IsBoundary p.offset p.input
  le : p.offset ≤ byteLength p.input
  rest : slice? p.offset (byteLength p.input) p.input = some p.rest
  take (bytes : Nat) :
    (p.take bytes).toOption.map (·.1) = slice? p.offset (p.offset + bytes) p.input

theorem Pass.Placed.inBounds {p : Pass} (h : p.Placed) : p.InBounds := by
  obtain ⟨front, hinput, hoffset⟩ := h
  have hboundary : IsBoundary p.offset p.input := ⟨front, p.rest, hinput, hoffset⟩
  refine ⟨hboundary, hboundary.le, ?_, ?_⟩
  · rw [hinput, ← hoffset]
    exact Text.slice?_behind front p.rest
  · intro bytes
    rw [hinput, ← hoffset, Text.slice?_add, Pass.take]
    rcases Text.splitBytes? bytes p.rest with _ | ⟨taken, rest⟩ <;> rfl

/-- What was searched where a cursor stands is what is left there. -/
theorem Pass.Placed.target {p : Pass} (h : p.Placed) (groups : List (Option Text)) :
    Captures.target ⟨groups, p.offset, p.input⟩ = p.rest := by
  obtain ⟨front, hinput, hoffset⟩ := h
  have hcut : Text.splitBytes? p.offset p.input = some (front, p.rest) :=
    Text.splitBytes?_eq_some_iff.2 ⟨hinput, hoffset⟩
  rw [Captures.target, hcut]

/-- The whole match is there and not empty, and what was searched is the slice of the input from the
match on, which begins with it. -/
structure Captures.InBounds (c : Captures) : Prop where
  first : c.groups.head? = some (some c.full)
  full : c.full ≠ []
  boundary : IsBoundary c.index c.input
  target : slice? c.index (byteLength c.input) c.input = some c.target
  starts : c.full <+: c.target

namespace LexM

variable {m n : Machine} {pattern : Pattern}

/-- What is caught is caught at the start of the rest, and consumed. -/
theorem verdict_of_matchPattern {c : Captures}
    (h : matchPattern pattern m = some (.ok (some c), n)) :
    ∃ groups, verdict pattern m.lexer.pass.rest = .ok (some groups) ∧
      c = ⟨groups, m.lexer.pass.offset, m.lexer.pass.input⟩ := by
  rcases hv : verdict pattern m.lexer.pass.rest with e | _ | groups
  · rw [matchPattern_of_error hv] at h
    cases h
  · rw [matchPattern_of_none hv] at h
    cases h
  · obtain ⟨-, after, hafter⟩ := Segmentation.of_verdict_eq_some hv
    rw [matchPattern_of_match hv hafter.symm] at h
    cases h
    exact ⟨groups, rfl, rfl⟩

/-- Consuming what was matched never fails: what can go wrong is the pattern's own fault. -/
theorem error_of_matchPattern {e : LexError} (h : matchPattern pattern m = some (.error e, n)) :
    e = .configuration pattern.source ∨ e = .emptyMatch pattern.source := by
  rcases hv : verdict pattern m.lexer.pass.rest with e' | _ | groups
  · rw [matchPattern_of_error hv] at h
    cases h
    unfold verdict at hv
    split at hv
    · split at hv
      · cases hv
      · split at hv
        · exact .inr (Except.error.inj hv).symm
        · cases hv
    · exact .inl (Except.error.inj hv).symm
  · rw [matchPattern_of_none hv] at h
    cases h
  · obtain ⟨-, after, hafter⟩ := Segmentation.of_verdict_eq_some hv
    rw [matchPattern_of_match hv hafter.symm] at h
    cases h

/-- Where the cursor stands on the input, all that is caught lies in it. -/
theorem inBounds_of_matchPattern {c : Captures} (hm : m.lexer.pass.Placed)
    (h : matchPattern pattern m = some (.ok (some c), n)) : c.InBounds := by
  obtain ⟨groups, hv, rfl⟩ := verdict_of_matchPattern h
  obtain ⟨hfull, hprefix⟩ := Segmentation.of_verdict_eq_some hv
  refine ⟨?_, hfull, hm.inBounds.boundary, ?_, ?_⟩
  · rcases groups with _ | ⟨_ | text, groups⟩
    · exact absurd rfl hfull
    · exact absurd rfl hfull
    · rfl
  · rw [hm.target]
    exact hm.inBounds.rest
  · rw [hm.target]
    exact hprefix

end LexM

end ModularLexer
