import ModularLexer.Regex.Basic

/-!
What the simplest expressions match at the start of a text: one character, and as many characters of
a set as there are, if there is any. The code is followed from one place to the next.
-/
namespace ModularLexer.Regex

/-- Where no thread is left the last match stands. -/
theorem run_of_no_thread (code : Array Instr) (here : Place) (found : Option Match) (t : Text) :
    run code here .none found t = found := by
  cases t <;> rfl

/-- A thread that accepts, and is alone, makes a match. -/
theorem run_of_accept {code : Array Instr} {pc : Nat} (haccept : code[pc]? = some .accept)
    (here : Place) (marks : List (Nat × Nat)) (seen : Nat) (found : Option Match) (t : Text) :
    run code here ⟨[⟨pc, marks⟩], seen⟩ found t = some (here.index, marks) := by
  cases t with
  | nil => simp [run, stepAll, haccept]
  | cons c rest =>
    simp only [run, List.isEmpty_cons, Bool.false_eq_true, ↓reduceIte, List.reverse_singleton,
      stepAll, haccept]
    exact run_of_no_thread code _ _ rest

theorem contains_single (c d : Char) : (CharSet.single c).contains d = (d == c) := by
  have hrange : (CharSet.single c).contains d =
      (decide (c.toNat ≤ d.toNat) && decide (d.toNat ≤ c.toNat)) := Bool.or_false _
  rw [hrange, ← Bool.decide_and, Bool.eq_iff_iff, decide_eq_true_iff, beq_iff_eq]
  constructor
  · intro h
    exact Char.toNat_inj.1 (Nat.le_antisymm h.2 h.1)
  · rintro rfl
    exact ⟨Nat.le_refl _, Nat.le_refl _⟩

/-- A match without groups catches the text that it goes over. -/
theorem groupTexts?_of_matchStart {r : Regex} (hgroups : r.groups = 1) {t taken : Text}
    (h : r.matchStart t = some (taken.length, [])) (htaken : taken <+: t) :
    r.groupTexts? t = some [some taken] := by
  have htake : t.take taken.length = taken := List.prefix_iff_eq_take.1 htaken |>.symm
  rw [groupTexts?, h, hgroups, Option.map_some, List.range_one, List.map_singleton, groupText?,
    htake]

section Letter

variable (c : Char)

/-- A character is matched where the text begins with it. -/
theorem matchStart_letter (t : Text) :
    (ofNode (.append (.check .textStart) (.text [c]))).matchStart t =
      if t.head? = some c then some (1, []) else none := by
  let code : Array Instr := #[.accept, .read (.single c) 0, .check .textStart 1]
  have hstart (after : Option Char) :
      explore code ⟨none, after, 0⟩ 8 [⟨2, []⟩] .none = ⟨[⟨1, []⟩], 6⟩ := rfl
  show run code _ (explore code _ 8 [⟨2, []⟩] .none) none t = _
  rw [hstart]
  cases t with
  | nil => rfl
  | cons d rest =>
    have hread (here : Place) :
        explore code here 8 [⟨0, []⟩] .none = ⟨[⟨0, []⟩], 1⟩ := rfl
    show run code ⟨some d, rest.head?, 1⟩
      (if (CharSet.single c).contains d then explore code _ 8 [⟨0, []⟩] .none else .none)
      none rest = _
    rw [hread, contains_single, List.head?_cons]
    by_cases hd : d = c
    · rw [if_pos (beq_iff_eq.2 hd), if_pos (congrArg some hd), run_of_accept rfl]
    · rw [if_neg (fun h => hd (beq_iff_eq.1 h)), if_neg (fun h => hd (Option.some.inj h)),
        run_of_no_thread]

theorem groupTexts?_letter (t : Text) :
    (ofNode (.append (.check .textStart) (.text [c]))).groupTexts? t =
      if t.head? = some c then some [some [c]] else none := by
  have hmatch := matchStart_letter c t
  split
  · next hhead =>
    rw [if_pos hhead] at hmatch
    obtain ⟨rest, rfl⟩ := List.head?_eq_some_iff.1 hhead
    exact groupTexts?_of_matchStart rfl hmatch ⟨rest, rfl⟩
  · next hhead =>
    rw [if_neg hhead] at hmatch
    rw [groupTexts?, hmatch]
    rfl

end Letter

section Run

variable (set : CharSet)

def runCode : Array Instr := #[.accept, .fork 2 0, .read set 1, .check .textStart 2]

/-- Behind a character of the set the run may end or go on. -/
theorem explore_round (here : Place) :
    explore (runCode set) here 10 [⟨1, []⟩] .none = ⟨[⟨0, []⟩, ⟨2, []⟩], 7⟩ := rfl

/-- Once a character was read the threads go round: from each place on they read all further
characters of the set, and accept where there is no more. -/
theorem run_loop (t : Text) (here : Place) (found : Option Match) :
    run (runCode set) here ⟨[⟨0, []⟩, ⟨2, []⟩], 7⟩ found t =
      some (here.index + (t.takeWhile set.contains).length, []) := by
  induction t generalizing here found with
  | nil => rfl
  | cons d rest ih =>
    show run (runCode set) ⟨some d, rest.head?, here.index + 1⟩
      (if set.contains d then explore (runCode set) _ 10 [⟨1, []⟩] .none else .none)
      (some (here.index, [])) rest = _
    rw [explore_round]
    by_cases hd : set.contains d = true
    · rw [if_pos hd, List.takeWhile_cons_of_pos hd, ih, List.length_cons]
      simp only [Option.some.injEq, Prod.mk.injEq, and_true]
      omega
    · rw [if_neg hd, List.takeWhile_cons_of_neg hd, run_of_no_thread]
      rfl

/-- As many characters of a set are matched as the text begins with, if it begins with one. -/
theorem matchStart_run (t : Text) :
    (ofNode (.append (.check .textStart) (.iterate (.char set) 1 none true))).matchStart t =
      if t.takeWhile set.contains = [] then none
      else some ((t.takeWhile set.contains).length, []) := by
  have hstart (after : Option Char) :
      explore (runCode set) ⟨none, after, 0⟩ 10 [⟨3, []⟩] .none = ⟨[⟨2, []⟩], 12⟩ := rfl
  show run (runCode set) _ (explore (runCode set) _ 10 [⟨3, []⟩] .none) none t = _
  rw [hstart]
  cases t with
  | nil => rfl
  | cons d rest =>
    show run (runCode set) ⟨some d, rest.head?, 1⟩
      (if set.contains d then explore (runCode set) _ 10 [⟨1, []⟩] .none else .none) none rest = _
    rw [explore_round]
    by_cases hd : set.contains d = true
    · rw [if_pos hd, List.takeWhile_cons_of_pos hd, if_neg (List.cons_ne_nil _ _), run_loop,
        List.length_cons, Nat.add_comm]
    · rw [if_neg hd, List.takeWhile_cons_of_neg hd, if_pos rfl, run_of_no_thread]

theorem groupTexts?_run (t : Text) :
    (ofNode (.append (.check .textStart) (.iterate (.char set) 1 none true))).groupTexts? t =
      if t.takeWhile set.contains = [] then none
      else some [some (t.takeWhile set.contains)] := by
  have hmatch := matchStart_run set t
  split
  · next hnone =>
    rw [if_pos hnone] at hmatch
    rw [groupTexts?, hmatch]
    rfl
  · next hsome =>
    rw [if_neg hsome] at hmatch
    exact groupTexts?_of_matchStart rfl hmatch (List.takeWhile_prefix set.contains)

end Run

end ModularLexer.Regex
