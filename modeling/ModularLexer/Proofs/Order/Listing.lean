import ModularLexer.Proofs.Order.Rounds
import ModularLexer.Proofs.Stream.Completion

/-!
The order of the list of tokens. Lexing with handlers that look ahead and then keep their tokens or
drop them lists the tokens in the order of the input, just if none that is listed was matched while
others waited.
-/
namespace ModularLexer

namespace Watched

variable {tidy : Prop} {call : Handler → Watched (Option Token)} {m n : Machine}
  {sights : List Sight} {made : List Match} {low bound : Nat}

/-- The next token comes between those that are listed and those that wait then. If there is none,
whatever its handlers left waiting counts no more. -/
theorem spans_next (hadvances : Advances tidy call) {t? : Option Token} (hm : m.Choosing tidy)
    (hspans : Spans tidy made low m.place (m.lexer.pass.tokens.toList ++ m.queue))
    (h : next call m = (sights, some (.ok t?, n))) :
    m.Steady n ∧ Spans tidy (made ++ matchesOf sights) low n.place
      (n.lexer.pass.tokens.toList ++ t?.elim [] (· :: n.queue)) := by
  rcases hqueue : m.queue with _ | ⟨t, queue⟩
  · rw [hqueue, List.append_nil] at hspans
    rw [next_of_queue_nil hqueue] at h
    obtain ⟨hsteady, hcome⟩ := hadvances hm hqueue h
    refine ⟨hsteady, ?_⟩
    rw [hsteady.tokens]
    cases t? with
    | some t => exact hspans.append hcome
    | none => exact hspans.append hcome.forget
  · cases (next_of_queue_cons hqueue).symm.trans h
    refine ⟨⟨rfl, rfl, id⟩, ?_⟩
    rw [hqueue] at hspans
    rw [matchesOf_nil, List.append_nil]
    exact hspans

/-- Each token that is pushed stands between those listed before and those that wait. -/
theorem spans_pushAll (hadvances : Advances tidy call) (hm : m.Choosing tidy)
    (hspans : Spans tidy made low m.place (m.lexer.pass.tokens.toList ++ m.queue))
    (h : pushAll call bound m = (sights, some (.ok (), n))) :
    Spans tidy (made ++ matchesOf sights) low n.place n.lexer.pass.tokens.toList := by
  induction bound generalizing m sights made with
  | zero => cases h
  | succ bound ih =>
    rcases exists_of_bind h with ⟨t?, k, front, back, hk, hlast, rfl⟩ | ⟨e, -, hne⟩
    · obtain ⟨hsteady, hcome⟩ := spans_next hadvances hm hspans hk
      cases t? with
      | none =>
        cases hlast
        rw [List.append_nil]
        rwa [Option.elim_none, List.append_nil] at hcome
      | some t =>
        dsimp only at hlast
        rw [recording_lift, lift_bind_of_ok (LexM.push_apply t k)] at hlast
        rw [matchesOf_append, ← List.append_assoc]
        apply ih ?_ ?_ hlast
        · have hk := hsteady.choosing hm
          have hlexer : (k.told (·.onPush) (.push t)).lexer = k.lexer := k.lexer_told _ _
          refine ⟨?_, hk.ample⟩
          rw [Machine.withPass, hlexer]
          exact hk.handlers
        · show Spans tidy _ low k.place ((k.lexer.pass.tokens.push t).toList ++ k.queue)
          rw [Array.toList_push, List.append_assoc]
          exact hcome
    · cases hne

/-- Lexing from where nothing is listed and none wait makes the tokens of a stretch of the input. -/
theorem spans_lex (hadvances : Advances tidy call) {ts : List Token} (hm : m.Choosing tidy)
    (hqueue : m.queue = []) (htokens : m.lexer.pass.tokens = #[])
    (h : lex call bound m = (sights, some (.ok ts, n))) :
    Spans tidy (matchesOf sights) m.place n.place ts := by
  have hstart : Spans tidy [] m.place m.place (m.lexer.pass.tokens.toList ++ m.queue) := by
    rw [htokens, hqueue]
    exact .nil m.place
  rcases exists_of_bind h with ⟨_, k, front, back, hpush, hlast, rfl⟩ | ⟨e, -, hne⟩
  · have hlisted := spans_pushAll hadvances hm hstart hpush
    -- Checking for the end shows nothing and changes no list.
    suffices hend : back = [] ∧ n.lexer = k.lexer ∧ ts = n.lexer.pass.tokens.toList by
      obtain ⟨rfl, hlexer, rfl⟩ := hend
      have hplace : n.place = k.place := congrArg (·.pass.position.index.toNat) hlexer
      rw [List.append_nil, hplace, hlexer]
      exact hlisted
    simp only [recording_lift] at hlast
    rw [lift_bind_of_ok (LexM.pass_apply k)] at hlast
    by_cases hempty : k.lexer.pass.rest.isEmpty
    · obtain ⟨r, k', hfinish, hlexer, -⟩ := LexM.finish_spec k
      rw [if_pos hempty] at hlast
      rcases r with e | _
      · have hlift : lift LexM.finish k = ([], some (.error e, k')) := by rw [lift, hfinish]
        rw [bind_of_error hlift] at hlast
        cases hlast
      · rw [lift_bind_of_ok hfinish] at hlast
        cases hlast
        exact ⟨rfl, hlexer, rfl⟩
    · rw [if_neg hempty] at hlast
      cases hlast
      exact ⟨rfl, rfl, rfl⟩
  · cases hne

end Watched

/-- Where handlers only look ahead and then keep their tokens or drop them, lexing from a fresh
state lists the tokens in the order of the input, just if each of them was matched while none
waited. They are in order, whatever the input, if no handler that has looked ahead drops its token.
-/
theorem LexM.lex_inOrder_iff {depth bound : Nat} {m n : Machine} {ts : List Token}
    (hchooses : ∀ entry ∈ m.lexer.registry.entries, entry.2.Chooses entry.1)
    (hqueue : m.queue = []) (htokens : m.lexer.pass.tokens = #[]) (hample : m.Ample)
    (h : LexM.lex (Handler.call depth) bound m = some (.ok ts, n)) :
    (InOrder ts ↔
        NoneWaiting (matchesOf (Watched.lex (Handler.watched depth) bound m).1) ts) ∧
      ((∀ entry ∈ m.lexer.registry.entries, entry.2.program.Faithful) → InOrder ts) := by
  have hwatched : Watched.lex (Handler.watched depth) bound m =
      ((Watched.lex (Handler.watched depth) bound m).1, some (.ok ts, n)) := by
    rw [← Handler.value_watched, ← Watched.value_lex] at h
    exact Prod.ext rfl h
  constructor
  · have hm : m.Choosing False := ⟨fun entry hentry => ⟨hchooses entry hentry, False.elim⟩, hample⟩
    have hspans :=
      Watched.spans_lex (Handler.advances_watched False depth) hm hqueue htokens hwatched
    exact hspans.ordered
  · intro hfaithful
    have hm : m.Choosing True :=
      ⟨fun entry hentry => ⟨hchooses entry hentry, fun _ => hfaithful entry hentry⟩, hample⟩
    have hspans :=
      Watched.spans_lex (Handler.advances_watched True depth) hm hqueue htokens hwatched
    exact hspans.inOrder trivial

def Program.peekThen (t? : Option Token) : Program Handler (Option Token) := do
  let _ ← request (.lookahead 1)
  return t?

def threeLetters (fromA fromB : Token → Program Handler (Option Token)) : Machine :=
  .fresh "abc" [("a", .ofPatternWith "a" (.letter 'a') fromA),
    ("b", .ofPatternWith "b" (.letter 'b') fromB), ("c", .ofPattern "c" (.letter 'c'))]

theorem Program.chooses_peekThen {t : Token} {t? : Option Token} (h : t? = some t ∨ t? = none) :
    (peekThen t?).Chooses t := by
  refine ⟨⟨1, rfl⟩, ?_⟩
  rintro (e | _)
  · trivial
  · exact h

theorem Program.faithful_peekThen (t : Token) : (peekThen (some t)).Faithful := by
  rintro (e | t?)
  · exact ⟨trivial, fun _ => trivial⟩
  · exact ⟨trivial, fun _ => Option.some_ne_none t⟩

variable {fromA fromB : Token → Program Handler (Option Token)}

theorem faithful_threeLetters (hA : ∀ t, (fromA t).Faithful) (hB : ∀ t, (fromB t).Faithful) :
    ∀ entry ∈ (threeLetters fromA fromB).lexer.registry.entries, entry.2.program.Faithful := by
  intro entry hentry
  rcases List.mem_cons.1 hentry with rfl | hentry
  · exact Handler.faithful_ofPatternWith hA
  · rcases List.mem_pair.1 hentry with rfl | rfl
    · exact Handler.faithful_ofPatternWith hB
    · exact Handler.faithful_ofPattern _ _

theorem chooses_threeLetters (hA : ∀ t, (fromA t).Chooses t) (hB : ∀ t, (fromB t).Chooses t) :
    ∀ entry ∈ (threeLetters fromA fromB).lexer.registry.entries, entry.2.Chooses entry.1 := by
  intro entry hentry
  rcases List.mem_cons.1 hentry with rfl | hentry
  · exact .inr ⟨_, fromA, rfl, hA⟩
  · rcases List.mem_pair.1 hentry with rfl | rfl
    · exact .inr ⟨_, fromB, rfl, hB⟩
    · exact .inl ⟨_, rfl⟩

/-- The first letter is kept after it has looked ahead, and the second one is dropped. -/
def keptAhead : Machine := threeLetters (fun t => .peekThen (some t)) fun _ => .done none

/-- Lexing such letters keeps the order. -/
theorem lex_inOrder_keptAhead :
    (∀ entry ∈ keptAhead.lexer.registry.entries, entry.2.Chooses entry.1) ∧
      keptAhead.queue = [] ∧ keptAhead.lexer.pass.tokens = #[] ∧ keptAhead.Ample ∧
      (∀ entry ∈ keptAhead.lexer.registry.entries, entry.2.program.Faithful) ∧
      ∃ ts n, LexM.lex (Handler.call 3) 4 keptAhead = some (.ok ts, n) ∧
        (ts.filterMap fun t => t.location.map (·.range)) = [(0, 1), (2, 3)] ∧ InOrder ts ∧
        NoneWaiting (matchesOf (Watched.lex (Handler.watched 3) 4 keptAhead).1) ts := by
  have hchooses : ∀ entry ∈ keptAhead.lexer.registry.entries, entry.2.Chooses entry.1 :=
    chooses_threeLetters (fun _ => Program.chooses_peekThen (Or.inl rfl)) fun _ => Or.inr rfl
  have hfaithful : ∀ entry ∈ keptAhead.lexer.registry.entries, entry.2.program.Faithful :=
    faithful_threeLetters Program.faithful_peekThen fun _ => trivial
  have hfits : Text.Fits "abc".toList := by decide
  have hample : keptAhead.Ample := .of_fits hfits rfl
  have hshown : LexM.shown (LexM.lex (Handler.call 3) 4) keptAhead
      (fun ts => ts.filterMap fun t => t.location.map (·.range)) (fun _ => ()) =
        some (some [(0, 1), (2, 3)], ()) := by decide +kernel
  obtain ⟨ts, n, hlex, hranges, -⟩ := LexM.exists_of_shown hshown
  obtain ⟨hiff, hordered⟩ := LexM.lex_inOrder_iff hchooses rfl rfl hample hlex
  exact ⟨hchooses, rfl, rfl, hample, hfaithful, ts, n, hlex, hranges, hordered hfaithful,
    hiff.1 (hordered hfaithful)⟩

/-- The first letter is dropped after it has looked ahead, and the second one is kept. -/
def droppedAhead : Machine := threeLetters (fun _ => .peekThen none) fun t => .done (some t)

/-- The third letter then comes before the second one, which waited when it was matched. -/
theorem lex_out_of_order :
    (∀ entry ∈ droppedAhead.lexer.registry.entries, entry.2.Chooses entry.1) ∧
      droppedAhead.lexer.pass = .start "abc".toList ∧
      ∃ ts n, LexM.lex (Handler.call 3) 4 droppedAhead = some (.ok ts, n) ∧
        (ts.filterMap fun t => t.location.map (·.range)) = [(2, 3), (1, 2)] ∧ ¬InOrder ts := by
  have hchooses : ∀ entry ∈ droppedAhead.lexer.registry.entries, entry.2.Chooses entry.1 :=
    chooses_threeLetters (fun _ => Program.chooses_peekThen (Or.inr rfl)) fun _ => Or.inl rfl
  have hshown : LexM.shown (LexM.lex (Handler.call 3) 4) droppedAhead
      (fun ts => (ts.filterMap fun t => t.location.map (·.range), decide (InOrder ts)))
      (fun _ => ()) = some (some ([(2, 3), (1, 2)], false), ()) := by decide +kernel
  obtain ⟨ts, n, hlex, hvalue, -⟩ := LexM.exists_of_shown hshown
  obtain ⟨hranges, hordered⟩ := Prod.mk.inj hvalue
  exact ⟨hchooses, rfl, ts, n, hlex, hranges, of_decide_eq_false hordered⟩

end ModularLexer
