import ModularLexer.Proofs.Runs.Invariants

/-!
What was consumed, what is left of the input, and where the cursor stands, wherever a program stands
on the way of a run.
-/
namespace ModularLexer

open Text (byteLength)

def Text.lastLine (t : Text) : Text := (t.reverse.takeWhile (· ≠ '\n')).reverse

theorem Text.length_lastLine_le (t : Text) : t.lastLine.length ≤ t.length := by
  have hlength := (List.takeWhile_prefix (l := t.reverse) (· ≠ '\n')).length_le
  simpa only [lastLine, List.length_reverse] using hlength

theorem Text.Fits.toNat_line {t : Text} (h : t.Fits) :
    (UInt64.ofNat (1 + t.count '\n')).toNat = 1 + t.count '\n' := by
  have hcount : t.count '\n' ≤ t.length := List.count_le_length
  have hlength := t.length_le_byteLength
  exact h.toNat_ofNat (by omega)

theorem Text.Fits.toNat_column {t : Text} (h : t.Fits) :
    (UInt64.ofNat (1 + t.lastLine.length)).toNat = 1 + t.lastLine.length := by
  have hline := t.length_lastLine_le
  have hlength := t.length_le_byteLength
  exact h.toNat_ofNat (by omega)

/-- From the first column on, the column counts the characters of the last line. -/
theorem Position.columnAfter_one (t : Text) :
    columnAfter 1 t = .ofNat (1 + t.lastLine.length) := by
  suffices hs : ∀ s : Text,
      columnAfter 1 s.reverse = .ofNat (1 + (s.takeWhile (· ≠ '\n')).length) by
    have h := hs t.reverse
    rw [List.reverse_reverse] at h
    rw [h, Text.lastLine, List.length_reverse]
  intro s
  induction s with
  | nil => rfl
  | cons c s ih =>
    rw [List.reverse_cons, columnAfter_append, ih]
    by_cases hc : c = '\n'
    · simp [columnAfter, hc]
    · simp [columnAfter, hc, UInt64.ofNat_add, UInt64.add_assoc]

/-- What holds of a result can be decided where there is one. -/
instance {α : Type} (r : Except LexError α) (P : α → Prop) [DecidablePred P] :
    Decidable (∀ a, r = .ok a → P a) :=
  match r with
  | .error _ => isTrue fun _ h => nomatch h
  | .ok a => decidable_of_iff (P a) ⟨fun ha _ h => Except.ok.inj h ▸ ha, fun h => h a rfl⟩

namespace Pass

/-- The cursor goes over a text of the rest, for which a text is counted as consumed. -/
structure Steps (p q : Pass) (taken value : Text) : Prop where
  input : q.input = p.input
  rest : p.rest = taken ++ q.rest
  offset : q.offset = p.offset + byteLength taken
  consumed : q.consumed = p.consumed ++ value
  position : q.position = p.position.advance value (byteLength taken)

/-- What was consumed and what is left spell out the input. -/
def Spelled (p : Pass) : Prop := p.consumed ++ p.rest = p.input

def Measured (p : Pass) : Prop := byteLength p.consumed + byteLength p.rest = byteLength p.input

/-- The offset is where the rest starts in the input, and the position is the one reached from the
start by going over what was consumed. -/
structure Followed (p : Pass) : Prop where
  front : ∃ front, p.input = front ++ p.rest ∧ byteLength front = p.offset
  position : p.position = Position.start.advance p.consumed p.offset

/-- The index is where the rest starts in the input; line and column count what was consumed. As
words they always do, and as numbers where the texts fit into memory. -/
structure Located (p : Pass) : Prop where
  suffix : p.rest <:+ p.input
  position : p.position = ⟨.ofNat (byteLength p.input - byteLength p.rest),
    .ofNat (1 + p.consumed.count '\n'), .ofNat (1 + (Text.lastLine p.consumed).length)⟩
  index : p.input.Fits → p.position.index.toNat = byteLength p.input - byteLength p.rest
  line : p.consumed.Fits → p.position.line.toNat = 1 + p.consumed.count '\n'
  column : p.consumed.Fits → p.position.column.toNat = 1 + (Text.lastLine p.consumed).length

/-- A text is counted as consumed only for itself. -/
def TakesText (p : Pass) : Request → Prop
  | .consumeAs bytes value => ∀ q, p.consumeAs bytes value = .ok q → p.rest = value ++ q.rest
  | _ => True

def TakesBytes (p : Pass) : Request → Prop
  | .consumeAs bytes value => ∀ q, p.consumeAs bytes value = .ok q → byteLength value = bytes
  | _ => True

/-- The position moves only together with the input. -/
def TakesInput (_ : Pass) : Request → Prop
  | .move _ _ => False
  | _ => True

instance (p : Pass) (r : Request) : Decidable (p.TakesText r) := by
  cases r <;> unfold TakesText <;> infer_instance

instance (p : Pass) (r : Request) : Decidable (p.TakesBytes r) := by
  cases r <;> unfold TakesBytes <;> infer_instance

instance (p : Pass) (r : Request) : Decidable (p.TakesInput r) := by
  cases r <;> unfold TakesInput <;> infer_instance

variable {p q : Pass} {taken value : Text} {bytes : Nat}

theorem Steps.of_consume (h : p.consume bytes = .ok (taken, q)) : p.Steps q taken taken := by
  obtain ⟨rest, hrest, rfl, rfl⟩ := consume_eq_ok_iff.1 h
  exact ⟨rfl, hrest, rfl, by simp [Pass.consumed], rfl⟩

theorem Steps.of_consumeAs (h : p.consumeAs bytes value = .ok q) :
    ∃ taken, byteLength taken = bytes ∧ p.Steps q taken value := by
  obtain ⟨taken, rest, hrest, rfl, rfl⟩ := consumeAs_eq_ok_iff.1 h
  exact ⟨taken, rfl, rfl, hrest, rfl, by simp [Pass.consumed], rfl⟩

theorem Steps.spelled (h : p.Steps q taken taken) (hp : p.Spelled) : q.Spelled := by
  unfold Spelled at *
  rw [h.consumed, h.input, List.append_assoc, ← h.rest]
  exact hp

theorem Steps.measured (h : p.Steps q taken value) (hbytes : byteLength value = byteLength taken)
    (hp : p.Measured) : q.Measured := by
  unfold Measured at *
  rw [h.rest, Text.byteLength_append] at hp
  rw [h.consumed, h.input, Text.byteLength_append]
  omega

theorem Steps.followed (h : p.Steps q taken value) (hp : p.Followed) : q.Followed := by
  obtain ⟨⟨front, hinput, hoffset⟩, hposition⟩ := hp
  constructor
  · refine ⟨front ++ taken, ?_, ?_⟩
    · rw [h.input, hinput, h.rest, List.append_assoc]
    · rw [Text.byteLength_append, hoffset, h.offset]
  · rw [h.position, hposition, Position.advance_advance, h.consumed, h.offset]

theorem invariant_spelled : Invariant TakesText Spelled where
  start _ := rfl
  stay h hp := by
    unfold Spelled at *
    rw [h.consumed, h.rest, h.input]
    exact hp
  consume h := (Steps.of_consume h).spelled
  consumeAs {p q bytes value} htakes h := by
    obtain ⟨taken, -, hsteps⟩ := Steps.of_consumeAs h
    have hvalue : taken = value := List.append_cancel_right (hsteps.rest.symm.trans (htakes q h))
    rw [hvalue] at hsteps
    exact hsteps.spelled
  move _ hp := hp

theorem invariant_measured : Invariant TakesBytes Measured where
  start input := Nat.zero_add (byteLength input)
  stay h hp := by
    unfold Measured at *
    rw [h.consumed, h.rest, h.input]
    exact hp
  consume h := (Steps.of_consume h).measured rfl
  consumeAs {p q bytes value} htakes h := by
    obtain ⟨taken, hbytes, hsteps⟩ := Steps.of_consumeAs h
    exact hsteps.measured ((htakes q h).trans hbytes.symm)
  move _ hp := hp

theorem invariant_followed : Invariant TakesInput Followed where
  start _ := ⟨⟨[], rfl, rfl⟩, rfl⟩
  stay h hp := by
    obtain ⟨⟨front, hinput, hoffset⟩, hposition⟩ := hp
    refine ⟨⟨front, ?_, ?_⟩, ?_⟩
    · rw [h.input, h.rest, hinput]
    · rw [h.offset, hoffset]
    · rw [h.position, h.consumed, h.offset, hposition]
  consume h := (Steps.of_consume h).followed
  consumeAs _ h := by
    obtain ⟨taken, -, hsteps⟩ := Steps.of_consumeAs h
    exact hsteps.followed
  move h := h.elim

/-- Going over what was consumed from the start tells the place. -/
theorem Followed.located (h : p.Followed) : p.Located := by
  obtain ⟨⟨front, hinput, hoffset⟩, hposition⟩ := h
  have hfront : byteLength p.input - byteLength p.rest = p.offset := by
    rw [hinput, Text.byteLength_append, hoffset, Nat.add_sub_cancel]
  have hplace : p.position = ⟨.ofNat (byteLength p.input - byteLength p.rest),
      .ofNat (1 + p.consumed.count '\n'), .ofNat (1 + (Text.lastLine p.consumed).length)⟩ := by
    rw [hposition, hfront, Position.advance, Position.start, Position.columnAfter_one]
    simp [UInt64.ofNat_add]
  refine ⟨⟨front, hinput.symm⟩, hplace, ?_, ?_, ?_⟩
  · intro hfits
    rw [hplace]
    exact hfits.toNat_ofNat (by omega)
  · intro hfits
    rw [hplace]
    exact hfits.toNat_line
  · intro hfits
    rw [hplace]
    exact hfits.toNat_column

end Pass

/-- From a start on, whatever a program and its handlers do: where texts are counted as consumed
only for themselves, what was consumed and what is left spell out the input wherever one of them
stands and at the end; where they are counted for texts of their length, the lengths add up. -/
theorem Program.consumed_spells_input {α : Type} (bound : Nat) (p : Program Handler α) {m : Machine}
    {input : Text} (hstart : m.lexer.pass = .start input) :
    (Granted Pass.TakesText (p.watch bound m).1 →
      Holds Pass.Spelled (p.watch bound m).1 ∧
        ∀ r n, p.exec bound m = some (r, n) → n.lexer.pass.Spelled) ∧
    (Granted Pass.TakesBytes (p.watch bound m).1 →
      Holds Pass.Measured (p.watch bound m).1 ∧
        ∀ r n, p.exec bound m = some (r, n) → n.lexer.pass.Measured) := by
  rw [← value_watch]
  have hspelled : m.lexer.pass.Spelled := hstart ▸ Pass.invariant_spelled.start input
  have hmeasured : m.lexer.pass.Measured := hstart ▸ Pass.invariant_measured.start input
  exact ⟨p.keeps_watch Pass.invariant_spelled bound hspelled,
    p.keeps_watch Pass.invariant_measured bound hmeasured⟩

def oneLetter : Machine :=
  .fresh "a€b" [
    ("a", .ofPatternWith "a" (.letter 'a') fun t => do
      let _ ← (Program.request (.lookahead 1)).attempt
      return some t)]

/-- Takes the letter, fails inside the next character, counts a text as consumed for it, and goes
over a text on a fork. -/
def replacing (value : Text) : Program Handler Unit := do
  let _ ← Program.request .next
  let _ ← (Program.request (.consume 2)).attempt
  let _ ← Program.request (.consumeAs 3 value)
  .fork ['b'] (.ofPattern "b" (.letter 'b')) fun _ _ => return ()

theorem consumed_spells_input_replaced :
    oneLetter.lexer.pass = .start "a€b".toList ∧
      (Granted Pass.TakesText ((replacing ['€']).watch 4 oneLetter).1 ∧
        Holds Pass.Spelled ((replacing ['€']).watch 4 oneLetter).1) ∧
      Granted Pass.TakesBytes ((replacing ['x', 'y', 'z']).watch 4 oneLetter).1 ∧
      Holds Pass.Measured ((replacing ['x', 'y', 'z']).watch 4 oneLetter).1 ∧
      ∃ r n, (replacing ['x', 'y', 'z']).exec 4 oneLetter = some (r, n) ∧
        n.lexer.pass.Measured ∧ n.lexer.pass.consumed = "axyz".toList := by
  have hsame : Granted Pass.TakesText ((replacing ['€']).watch 4 oneLetter).1 := by decide +kernel
  have hlong : Granted Pass.TakesBytes ((replacing ['x', 'y', 'z']).watch 4 oneLetter).1 := by
    decide +kernel
  have hexec : LexM.shown ((replacing ['x', 'y', 'z']).exec 4) oneLetter id
      (·.lexer.pass.consumed) = some (some (), "axyz".toList) := by decide +kernel
  obtain ⟨_, n, hexec, -, hconsumed⟩ := LexM.exists_of_shown hexec
  obtain ⟨hspelled, -⟩ := (Program.consumed_spells_input 4 (replacing ['€']) rfl).1 hsame
  obtain ⟨hmeasured, hend⟩ :=
    (Program.consumed_spells_input 4 (replacing ['x', 'y', 'z']) rfl).2 hlong
  exact ⟨rfl, ⟨hsame, hspelled⟩, hlong, hmeasured, _, n, hexec, hend _ n hexec, hconsumed⟩

/-- From a start on, whatever a program and its handlers do: unless one of them moves the position
by itself, what was consumed tells it wherever one of them stands and at the end. -/
theorem Program.position_of_consumed {α : Type} (bound : Nat) (p : Program Handler α) {m : Machine}
    {input : Text} (hstart : m.lexer.pass = .start input)
    (hmoves : Granted Pass.TakesInput (p.watch bound m).1) :
    Holds Pass.Located (p.watch bound m).1 ∧
      ∀ r n, p.exec bound m = some (r, n) → n.lexer.pass.Located := by
  rw [← value_watch]
  have hfollowed : m.lexer.pass.Followed := hstart ▸ Pass.invariant_followed.start input
  obtain ⟨hholds, hend⟩ := p.keeps_watch Pass.invariant_followed bound hfollowed hmoves
  exact ⟨fun k r? hk => (hholds k r? hk).located, fun r n h => (hend r n h).located⟩

/-- A longer text with a newline is counted as consumed for a character. -/
theorem position_of_consumed_replaced :
    oneLetter.lexer.pass = .start "a€b".toList ∧
      Granted Pass.TakesInput ((replacing "xy\nz".toList).watch 4 oneLetter).1 ∧
      Holds Pass.Located ((replacing "xy\nz".toList).watch 4 oneLetter).1 ∧
      ∃ r n, (replacing "xy\nz".toList).exec 4 oneLetter = some (r, n) ∧ n.lexer.pass.Located ∧
        n.lexer.pass.position = ⟨4, 2, 2⟩ := by
  have hmoves : Granted Pass.TakesInput ((replacing "xy\nz".toList).watch 4 oneLetter).1 := by
    decide +kernel
  have hexec : LexM.shown ((replacing "xy\nz".toList).exec 4) oneLetter id
      (·.lexer.pass.position) = some (some (), ⟨4, 2, 2⟩) := by decide +kernel
  obtain ⟨_, n, hexec, -, hposition⟩ := LexM.exists_of_shown hexec
  obtain ⟨hholds, hend⟩ :=
    Program.position_of_consumed 4 (replacing "xy\nz".toList) (m := oneLetter) rfl hmoves
  exact ⟨rfl, hmoves, hholds, _, n, hexec, hend _ n hexec, hposition⟩

end ModularLexer
