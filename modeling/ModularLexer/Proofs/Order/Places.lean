import ModularLexer.Proofs.Segmentation.Characters
import ModularLexer.Proofs.Slices.Bounds

/-!
Places in the order of the input. Going on over a text makes the index greater and, whatever
newlines there are, comes to a later line or to a later column of the same line. So lines and
columns order the places that lexers come to over an input just as indexes do, and pin them down.
-/
namespace ModularLexer

open Text (byteLength)

namespace Position

variable {p q : Position}

/-- A place comes before another one, by their indexes and by line and column alike. -/
structure Precedes (p q : Position) : Prop where
  index : p.index < q.index
  place : p.line < q.line ∨ p.line = q.line ∧ p.column < q.column

/-- Where indexes differ they order the places. -/
theorem order_of_index_lt (h : p.index < q.index) : p.order q = .lt ∧ q.order p = .gt := by
  constructor
  · rw [order, Std.compare_eq_lt.2 h]
    rfl
  · rw [order, Std.compare_eq_gt.2 h]
    rfl

theorem order_self (p : Position) : p.order p = .eq := by
  simp [order]

theorem not_colon_mem_toString (n : Nat) : ':' ∉ (toString n).toList := by
  intro h
  rw [Nat.toString_eq_repr, Nat.toList_repr] at h
  have hdigit := Nat.isDigit_of_mem_toDigits (by decide) (by decide) h
  cases hdigit

/-- A number is read back from its digits. -/
theorem toString_injective {m n : Nat} (h : toString m = toString n) : m = n := by
  have hdigits : Nat.toDigits 10 m = Nat.toDigits 10 n := by
    simpa only [Nat.toString_eq_repr, Nat.toList_repr] using congrArg String.toList h
  simpa using congrArg (Nat.ofDigitChars 10 · 0) hdigits

/-- The colon parts the line from the column. -/
theorem text_eq_text_iff : p.text = q.text ↔ p.line = q.line ∧ p.column = q.column := by
  have hparts (r : Position) : r.text.toList = (toString r.line.toNat).toList ++
      ':' :: (toString r.column.toNat).toList := by
    show (toString r.line.toNat ++ ":" ++ toString r.column.toNat).toList = _
    simp
  rw [← String.toList_inj, hparts, hparts,
    List.append_cons_inj_of_notMem (not_colon_mem_toString _) (not_colon_mem_toString _),
    String.toList_inj, String.toList_inj]
  constructor
  · rintro ⟨hline, -, hcolumn⟩
    exact ⟨UInt64.toNat_inj.1 (toString_injective hline),
      UInt64.toNat_inj.1 (toString_injective hcolumn)⟩
  · rintro ⟨hline, hcolumn⟩
    rw [hline, hcolumn]
    exact ⟨rfl, rfl, rfl⟩

/-- Messages tell places apart that come one before the other. -/
theorem Precedes.text_ne (h : p.Precedes q) : p.text ≠ q.text := by
  intro htext
  obtain ⟨hline, hcolumn⟩ := text_eq_text_iff.1 htext
  rcases h.place with hlt | ⟨-, hlt⟩
  · exact UInt64.lt_irrefl _ (hline ▸ hlt)
  · exact UInt64.lt_irrefl _ (hcolumn ▸ hlt)

theorem Precedes.not_place (h : p.Precedes q) :
    ¬(q.line < p.line ∨ q.line = p.line ∧ q.column < p.column) := by
  rcases h.place with hlt | ⟨heq, hlt⟩
  · rintro (hlt' | ⟨heq', -⟩)
    · exact UInt64.lt_asymm hlt hlt'
    · exact UInt64.lt_irrefl _ (heq' ▸ hlt)
  · rintro (hlt' | ⟨-, hlt'⟩)
    · exact UInt64.lt_irrefl _ (heq ▸ hlt')
    · exact UInt64.lt_asymm hlt hlt'

end Position

/-- A text without newlines makes the last line longer. -/
theorem Text.lastLine_append {between : Text} (h : '\n' ∉ between) (front : Text) :
    (front ++ between).lastLine = front.lastLine ++ between := by
  have hline : ∀ c ∈ between.reverse, decide (c ≠ '\n') = true := by
    intro c hc
    exact decide_eq_true fun hnewline => h (hnewline ▸ List.mem_reverse.1 hc)
  rw [lastLine, lastLine, List.reverse_append, List.takeWhile_append_of_pos hline,
    List.reverse_append, List.reverse_reverse]

/-- Going on over a text that is not empty comes to a later place. -/
theorem Text.stop_precedes {front between : Text} (hfits : (front ++ between).Fits)
    (h : between ≠ []) : front.stop.Precedes (front ++ between).stop := by
  have hplaced := (hfits.of_prefix (List.prefix_append front between)).placed
  have hplaced' := hfits.placed
  rw [stop_eq_place, stop_eq_place]
  constructor
  · have hbytes : byteLength between ≠ 0 := fun hzero => h (byteLength_eq_zero_iff.1 hzero)
    rw [UInt64.lt_iff_toNat_lt, hplaced.index, hplaced'.index, byteLength_append]
    omega
  · rw [UInt64.lt_iff_toNat_lt, UInt64.lt_iff_toNat_lt, ← UInt64.toNat_inj, hplaced.line,
      hplaced'.line, hplaced.column, hplaced'.column, List.count_append]
    by_cases hnewline : '\n' ∈ between
    · have hlines : 0 < between.count '\n' := List.count_pos_iff.2 hnewline
      exact .inl (by omega)
    · have hlength : 0 < between.length := List.length_pos_iff.2 h
      rw [List.count_eq_zero.2 hnewline, lastLine_append hnewline, List.length_append]
      exact .inr ⟨rfl, by omega⟩

theorem Text.eq_or_stop_precedes {front between : Text} (hfits : (front ++ between).Fits) :
    front ++ between = front ∨ front.stop.Precedes (front ++ between).stop := by
  by_cases h : between = []
  · left
    rw [h, List.append_nil]
  · exact .inr (stop_precedes hfits h)

/-- Of two cuts of a text the earlier one stops before the later one. -/
theorem Text.stops_comparable {front front' rest rest' : Text} (hfits : (front ++ rest).Fits)
    (h : front ++ rest = front' ++ rest') :
    front = front' ∨ front.stop.Precedes front'.stop ∨ front'.stop.Precedes front.stop := by
  have hfront := hfits.of_prefix (List.prefix_append front rest)
  have hfront' := hfits.of_prefix (h ▸ List.prefix_append front' rest')
  rcases List.append_eq_append_iff.1 h with ⟨between, rfl, -⟩ | ⟨between, rfl, -⟩
  · rcases eq_or_stop_precedes hfront' with hsame | hbefore
    · exact .inl hsame.symm
    · exact .inr (.inl hbefore)
  · rcases eq_or_stop_precedes hfront with hsame | hafter
    · exact .inl hsame
    · exact .inr (.inr hafter)

/-- Where what was consumed and what is left spell out the input, the position is a stop in it. -/
theorem Pass.Followed.exists_stop {p : Pass} (h : p.Followed) (hspelled : p.Spelled) :
    ∃ front, p.input = front ++ p.rest ∧ p.position = front.stop := by
  obtain ⟨⟨front, hinput, hoffset⟩, hposition⟩ := h
  have hconsumed : p.consumed = front := List.append_cancel_right (hspelled.trans hinput)
  refine ⟨front, hinput, ?_⟩
  rw [hposition, hconsumed, ← hoffset]
  rfl

/-- What a run keeps true holds wherever it stands or ends. -/
theorem Program.Reaches.keeps {α : Type} {p : Program Handler α} {bound : Nat} {m s : Machine}
    {grants : Pass → Request → Prop} {I : Pass → Prop} (hs : p.Reaches bound m s)
    (hI : Pass.Invariant grants I) (hm : I m.lexer.pass)
    (hgranted : Granted grants (p.watch bound m).1) : I s.lexer.pass := by
  obtain ⟨hholds, hend⟩ := p.keeps_watch hI bound hm hgranted
  rcases hs with ⟨r?, hstation⟩ | ⟨r, hexec⟩
  · exact hholds s r? hstation
  · rw [← Program.value_watch] at hexec
    exact hend r s hexec

/-- A cursor comes to a place over an input: a program that was begun at a start, or one of its
handlers, or what they run on forks, stands there or ends there. Meanwhile texts are counted as
consumed only for themselves, and the position moves only together with the input. -/
def Position.ReachedOver (q : Position) (input : Text) : Prop :=
  ∃ (α : Type) (p : Program Handler α) (bound : Nat) (m s : Machine) (first : Text),
    m.lexer.pass = .start first ∧
      Granted Pass.TakesText (p.watch bound m).1 ∧ Granted Pass.TakesInput (p.watch bound m).1 ∧
      p.Reaches bound m s ∧ s.lexer.pass.input = input ∧ s.lexer.pass.position = q

namespace Position.ReachedOver

variable {p q : Position} {input : Text}

theorem of_exec {α : Type} {program : Program Handler α} {bound : Nat} {m s : Machine}
    {first : Text} {r : Except LexError α} (hstart : m.lexer.pass = .start first)
    (htext : Granted Pass.TakesText (program.watch bound m).1)
    (hinput : Granted Pass.TakesInput (program.watch bound m).1)
    (hexec : program.exec bound m = some (r, s)) :
    s.lexer.pass.position.ReachedOver s.lexer.pass.input :=
  ⟨α, program, bound, m, s, first, hstart, htext, hinput, .inr ⟨r, hexec⟩, rfl, rfl⟩

theorem exists_stop (h : q.ReachedOver input) :
    ∃ front rest, input = front ++ rest ∧ q = front.stop := by
  obtain ⟨α, p, bound, m, s, first, hstart, htext, hinput, hreaches, rfl, rfl⟩ := h
  have hspelled : s.lexer.pass.Spelled := hreaches.keeps Pass.invariant_spelled
    (hstart ▸ Pass.invariant_spelled.start first) htext
  have hfollowed : s.lexer.pass.Followed := hreaches.keeps Pass.invariant_followed
    (hstart ▸ Pass.invariant_followed.start first) hinput
  obtain ⟨front, hfront, hposition⟩ := hfollowed.exists_stop hspelled
  exact ⟨front, _, hfront, hposition⟩

/-- The places that cursors come to over an input are linearly ordered in one way. -/
theorem comparable (hfits : input.Fits) (hp : p.ReachedOver input) (hq : q.ReachedOver input) :
    p = q ∨ p.Precedes q ∨ q.Precedes p := by
  obtain ⟨front, rest, hinput, rfl⟩ := hp.exists_stop
  obtain ⟨front', rest', hinput', rfl⟩ := hq.exists_stop
  rcases Text.stops_comparable (hinput ▸ hfits) (hinput.symm.trans hinput') with
    rfl | hbefore | hafter
  · exact .inl rfl
  · exact .inr (.inl hbefore)
  · exact .inr (.inr hafter)

/-- Indexes, lines with columns, and the comparison of places order the places that cursors come to
over an input alike, and the line and the column that messages show tell such a place. -/
theorem orders_agree (hfits : input.Fits) (hp : p.ReachedOver input) (hq : q.ReachedOver input) :
    (p.index < q.index ↔ p.line < q.line ∨ p.line = q.line ∧ p.column < q.column) ∧
      (p.index < q.index ↔ p.order q = .lt) ∧
      (p.text = q.text → p = q) := by
  rcases comparable hfits hp hq with rfl | hbefore | hafter
  · simp [order_self]
  · refine ⟨iff_of_true hbefore.index hbefore.place,
      iff_of_true hbefore.index (order_of_index_lt hbefore.index).1, ?_⟩
    intro htext
    exact (hbefore.text_ne htext).elim
  · have hindex : ¬p.index < q.index := UInt64.lt_asymm hafter.index
    have horder := (order_of_index_lt hafter.index).2
    refine ⟨iff_of_false hindex hafter.not_place, iff_of_false hindex (by simp [horder]), ?_⟩
    intro htext
    exact (hafter.text_ne htext.symm).elim

end Position.ReachedOver

def letterAbove : Machine :=
  .fresh "é\nb" [
    ("é", .ofPatternWith "é" (.letter 'é') fun t => do
      let _ ← (Program.request (.lookahead 1)).attempt
      return some t)]

/-- Takes the letter, fails to take more than is left, and takes the newline. -/
def goingDown : Program Handler Text := do
  let _ ← Program.request .next
  let _ ← (Program.request (.consume 5)).attempt
  Program.request (.consume 1)

/-- The place that comes first has the greater column. -/
theorem orders_agree_lines :
    Text.Fits "é\nb".toList ∧ (Position.mk 2 1 2).ReachedOver "é\nb".toList ∧
      (Position.mk 3 2 1).ReachedOver "é\nb".toList ∧
      (Position.mk 2 1 2).order ⟨3, 2, 1⟩ = .lt := by
  have hfits : Text.Fits "é\nb".toList := by decide
  have habove : LexM.shown ((Program.request (.consume 2)).exec 4) (.fresh "é\nb" []) id
      (fun s => (s.lexer.pass.input, s.lexer.pass.position)) =
        some (some ['é'], "é\nb".toList, ⟨2, 1, 2⟩) := by decide +kernel
  have hbelow : LexM.shown (goingDown.exec 4) letterAbove id
      (fun s => (s.lexer.pass.input, s.lexer.pass.position)) =
        some (some ['\n'], "é\nb".toList, ⟨3, 2, 1⟩) := by decide +kernel
  obtain ⟨_, _, habove, -, hshown⟩ := LexM.exists_of_shown habove
  obtain ⟨hinput, hposition⟩ := Prod.mk.inj hshown
  obtain ⟨_, _, hbelow, -, hshown'⟩ := LexM.exists_of_shown hbelow
  obtain ⟨hinput', hposition'⟩ := Prod.mk.inj hshown'
  have hfirst : (Position.mk 2 1 2).ReachedOver "é\nb".toList := hposition ▸ hinput ▸
    .of_exec rfl (by decide +kernel) (by decide +kernel) habove
  have hsecond : (Position.mk 3 2 1).ReachedOver "é\nb".toList := hposition' ▸ hinput' ▸
    .of_exec rfl (by decide +kernel) (by decide +kernel) hbelow
  obtain ⟨-, horder, -⟩ := Position.ReachedOver.orders_agree hfits hfirst hsecond
  exact ⟨hfits, hfirst, hsecond, horder.1 (by decide)⟩

end ModularLexer
