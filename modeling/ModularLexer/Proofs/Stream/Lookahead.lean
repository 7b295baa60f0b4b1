import ModularLexer.Proofs.Stream.Calls

/-!
Looking ahead is exact, minimal and idempotent. It advances only while fewer tokens wait than it
looks past, and never behind an advance that made none; what waited before stays in front. What was
looked at once is there to be looked at again, and to be taken, without running any handler.
-/
namespace ModularLexer

/-- How a queue is filled up to a count by advances, one after another: there are enough tokens, or
one more advance is made, which ends the filling unless it makes a token. -/
inductive Filling (count : Nat) : List Token → List Draw → Except LexError Unit → Prop
  | enough {queue : List Token} : count ≤ queue.length → Filling count queue [] (.ok ())
  | exhausted {queue ahead : List Token} :
      queue.length < count → Filling count queue [⟨.ok none, ahead⟩] (.ok ())
  | failed {queue ahead : List Token} {e : LexError} :
      queue.length < count → Filling count queue [⟨.error e, ahead⟩] (.error e)
  | advanced {queue ahead : List Token} {t : Token} {draws : List Draw} {r : Except LexError Unit} :
      queue.length < count → Filling count (queue ++ t :: ahead) draws r →
        Filling count queue (⟨.ok (some t), ahead⟩ :: draws) r

namespace Filling

variable {count : Nat} {queue : List Token} {draws : List Draw} {r : Except LexError Unit}

/-- Each advance but the last made a token. -/
theorem made (h : Filling count queue draws r) :
    ∀ d ∈ draws.dropLast, ∃ t, d.result = .ok (some t) := by
  induction h with
  | enough | exhausted | failed => simp
  | @advanced queue ahead t draws r _ _ ih =>
    cases draws with
    | nil => simp
    | cons d draws =>
      intro first hfirst
      rw [List.dropLast_cons_cons] at hfirst
      rcases List.mem_cons.1 hfirst with rfl | hfirst
      · exact ⟨t, rfl⟩
      · exact ih first hfirst

/-- Before each advance too few tokens were there. -/
theorem needed (h : Filling count queue draws r) {front back : List Draw} {d : Draw}
    (hdraws : draws = front ++ d :: back) :
    (queue ++ front.flatMap Draw.tokens).length < count := by
  induction h generalizing front with
  | enough => simp at hdraws
  | exhausted hfew | failed hfew =>
    obtain ⟨rfl, -⟩ := List.append_eq_singleton_iff.1 hdraws.symm |>.resolve_right (by simp)
    simpa using hfew
  | @advanced queue ahead t draws r hfew _ ih =>
    cases front with
    | nil => simpa using hfew
    | cons first front =>
      obtain ⟨rfl, htail⟩ := List.cons.inj hdraws
      rw [List.flatMap_cons, ← List.append_assoc]
      exact ih htail

/-- Each advance brings a token nearer to the count, the last one aside. -/
theorem length_le (h : Filling count queue draws r) : draws.length ≤ count - queue.length := by
  induction h with
  | enough => exact Nat.zero_le _
  | exhausted hfew | failed hfew =>
    rw [List.length_singleton]
    omega
  | advanced hfew _ ih =>
    rw [List.length_append, List.length_cons] at ih
    rw [List.length_cons]
    omega

/-- Where there are too few tokens in the end the last advance made none. -/
theorem getLast?_of_short (h : Filling count queue draws (.ok ()))
    (hshort : (queue ++ draws.flatMap Draw.tokens).length < count) :
    ∃ d, draws.getLast? = some d ∧ d.result = .ok none := by
  generalize hr : (Except.ok () : Except LexError Unit) = r at h
  induction h with
  | enough hcount =>
    rw [List.flatMap_nil, List.append_nil] at hshort
    exact absurd hshort (Nat.not_lt.2 hcount)
  | exhausted => exact ⟨_, rfl, rfl⟩
  | failed => cases hr
  | advanced _ _ ih =>
    rw [List.flatMap_cons, ← List.append_assoc] at hshort
    obtain ⟨d, hlast, hnone⟩ := ih hshort hr
    exact ⟨d, by rw [List.getLast?_cons, hlast]; rfl, hnone⟩

/-- A failure is that of the last advance. -/
theorem getLast?_of_error {e : LexError} (h : Filling count queue draws (.error e)) :
    ∃ d, draws.getLast? = some d ∧ d.result = .error e := by
  generalize hr : (Except.error e : Except LexError Unit) = r at h
  induction h with
  | enough => cases hr
  | exhausted => cases hr
  | failed =>
    cases hr
    exact ⟨_, rfl, rfl⟩
  | advanced _ _ ih =>
    obtain ⟨d, hlast, herror⟩ := ih hr
    exact ⟨d, by rw [List.getLast?_cons, hlast]; rfl, herror⟩

end Filling

namespace Traced

variable {call : Handler → LexM (Option Token)} {m n : Machine} {moves : List Move}
  {count bound : Nat}

/-- Filling goes on until there are enough tokens, if it may make as many advances as tokens are
missing. -/
theorem filling_of_fill {r : Except LexError Unit} (hbound : count ≤ m.queue.length + bound)
    (h : fill call count bound m = some (r, moves, n)) :
    Filling count m.queue (Move.draws moves) r := by
  induction bound generalizing m moves with
  | zero =>
    cases h
    exact .enough hbound
  | succ bound ih =>
    by_cases hcount : count ≤ m.queue.length
    · rw [fill_of_le hcount] at h
      cases h
      exact .enough hcount
    · have hfew := Nat.lt_of_not_le hcount
      rw [fill_of_lt hfew] at h
      rcases ha : LexM.advance call m.aside with _ | ⟨_ | _ | t, k⟩
      · rw [ha] at h
        cases h
      · rw [ha] at h
        cases h
        exact .failed hfew
      · rw [ha] at h
        cases h
        exact .exhausted hfew
      · rw [ha] at h
        obtain ⟨⟨r', more, p⟩, hf, he⟩ := Option.map_eq_some_iff.1 h
        cases he
        refine .advanced hfew (ih ?_ hf)
        rw [Machine.queue_withQueue, List.length_append, List.length_cons]
        omega

/-- Filling has an outcome unless an advance that it comes to has none. -/
theorem exists_draw_of_fill (h : fill call count bound m = none) :
    ∃ draws k, draws.length < bound ∧
      LexM.draws call draws.length m.aside = some (draws, k) ∧ LexM.draw call k = none := by
  induction bound generalizing m with
  | zero => cases h
  | succ bound ih =>
    by_cases hcount : count ≤ m.queue.length
    · rw [fill_of_le hcount] at h
      cases h
    · rw [fill_of_lt (Nat.lt_of_not_le hcount)] at h
      rcases ha : LexM.advance call m.aside with _ | ⟨_ | _ | t, k⟩
      · refine ⟨[], m.aside, Nat.succ_pos bound, rfl, ?_⟩
        rw [LexM.draw, Machine.aside_aside, ha]
        rfl
      · rw [ha] at h
        cases h
      · rw [ha] at h
        cases h
      · rw [ha] at h
        obtain ⟨draws, p, hlength, hdraws, hnone⟩ := ih (Option.map_eq_none_iff.1 h)
        have hfirst : LexM.draw call m.aside = some (⟨.ok (some t), k.queue⟩, k.aside) := by
          rw [LexM.draw, Machine.aside_aside, ha]
          rfl
        refine ⟨⟨.ok (some t), k.queue⟩ :: draws, p, Nat.succ_lt_succ hlength, ?_, hnone⟩
        rw [Machine.aside_withQueue] at hdraws
        simp only [List.length_cons, LexM.draws, hfirst, Option.bind_eq_bind, Option.bind_some,
          hdraws]
        rfl

theorem filling_of_lookahead {r : Except LexError (Option Token)} (hone : 1 ≤ count)
    (h : lookahead call count m = some (r, moves, n)) :
    ∃ filled, Filling count m.queue (Move.draws moves) filled ∧
      r = filled.map fun _ => n.queue[count - 1]? := by
  obtain ⟨count, rfl⟩ := Nat.exists_eq_add_of_le' hone
  rw [lookahead_succ, Option.map_eq_some_iff] at h
  obtain ⟨⟨filled, more, k⟩, hfill, he⟩ := h
  cases he
  exact ⟨filled, filling_of_fill (by omega) hfill, rfl⟩

/-- Where enough tokens wait looking ahead runs no handler and changes nothing. -/
theorem lookahead_of_le (hone : 1 ≤ count) (hcount : count ≤ m.queue.length) :
    lookahead call count m = some (.ok m.queue[count - 1]?, [], m) := by
  obtain ⟨count, rfl⟩ := Nat.exists_eq_add_of_le' hone
  rw [lookahead_succ, fill_of_le hcount]
  rfl

end Traced

namespace LexM

variable {call : Handler → LexM (Option Token)} {m n : Machine} {count : Nat}

theorem lookahead_of_le (hone : 1 ≤ count) (hcount : count ≤ m.queue.length) :
    lookahead call count m = some (.ok m.queue[count - 1]?, m) := by
  have hvalue := Traced.value_of_apply (@Traced.lookahead_of_le call m count hone hcount)
  rwa [Traced.value_lookahead] at hvalue

/-- The reply is what waits at the place looked at. -/
theorem reply_of_lookahead {t? : Option Token} (hone : 1 ≤ count)
    (h : lookahead call count m = some (.ok t?, n)) : t? = n.queue[count - 1]? := by
  unfold lookahead at h
  rw [if_neg (Nat.pos_iff_ne_zero.1 hone), bind_of_ok (pass_apply m)] at h
  rcases bind_eq_some_iff.1 h with ⟨_, k, -, hk⟩ | ⟨e, -, hne⟩
  · rw [bind_of_ok (pass_apply k)] at hk
    cases hk
    rfl
  · cases hne

/-- A token that was looked at waits. -/
theorem queue_of_lookahead_one {t : Token}
    (h : lookahead call 1 m = some (.ok (some t), n)) : ∃ queue, n.queue = t :: queue := by
  have hfirst := reply_of_lookahead (Nat.le_refl 1) h
  cases hqueue : n.queue with
  | nil =>
    rw [hqueue] at hfirst
    cases hfirst
  | cons first queue =>
    rw [hqueue] at hfirst
    cases hfirst
    exact ⟨queue, rfl⟩

/-- Looking ahead by one finds no token only where taking the next one finds none, and none is left
waiting. -/
theorem of_peek_eq_none (h : peek call m = some (.ok none, n)) :
    next call m = some (.ok none, n) ∧ n.queue = [] := by
  have hreply := reply_of_lookahead (Nat.le_refl 1) h
  have hlength := Nat.le_zero.1 (List.getElem?_eq_none_iff.1 hreply.symm)
  refine ⟨?_, List.eq_nil_of_length_eq_zero hlength⟩
  cases hq : m.queue with
  | cons t queue =>
    have hone : 1 ≤ m.queue.length := by simp [hq]
    rw [peek, lookahead_of_le (Nat.le_refl 1) hone, hq] at h
    cases h
  | nil =>
    have hnone : 1 - m.queue.length = 1 := by simp [hq]
    have hfew : m.queue.length < 1 := by simp [hq]
    rw [next_of_queue_nil hq]
    rw [peek, ← Traced.value_lookahead, Traced.value, Traced.lookahead_succ, hnone,
      Traced.fill_of_lt hfew, Machine.aside_of_queue_nil hq, hq] at h
    rcases ha : advance call m with _ | ⟨_ | _ | t, k⟩
    · rw [ha] at h
      cases h
    · rw [ha] at h
      cases h
    · rw [ha] at h
      obtain ⟨-, rfl⟩ := Prod.mk.inj (Option.some.inj h)
      rfl
    · rw [ha] at h
      cases h

/-- Taking tokens that wait runs no handler. -/
theorem serveAll_next (bound : Nat) (hcount : count ≤ m.queue.length) :
    StreamCall.serveAll call bound (List.replicate count .next) m =
      some ((m.queue.take count).map (.ok [·]), m.withQueue (m.queue.drop count)) := by
  induction count generalizing m with
  | zero => rfl
  | succ count ih =>
    obtain ⟨t, queue, hqueue⟩ := List.exists_cons_of_length_pos (Nat.zero_lt_of_lt hcount)
    have hnext : StreamCall.next.request.serve call bound m =
        some (.ok (some t), m.withQueue queue) := next_of_queue_cons hqueue
    have hrest : count ≤ (m.withQueue queue).queue.length := by
      rw [hqueue, List.length_cons] at hcount
      exact Nat.le_of_succ_le_succ hcount
    rw [List.replicate_succ, StreamCall.serveAll, hnext, hqueue]
    simp only [Option.bind_eq_bind, Option.bind_some, ih hrest]
    rfl

end LexM

theorem Traced.queue_of_lookahead_one {call : Handler → LexM (Option Token)} {m n : Machine}
    {moves : List Move} {t : Token} (h : lookahead call 1 m = some (.ok (some t), moves, n)) :
    ∃ queue, n.queue = t :: queue := by
  have hvalue := value_of_apply h
  rw [value_lookahead] at hvalue
  exact LexM.queue_of_lookahead_one hvalue

/-- How looking ahead ends where too few tokens wait. Its advances are few and none is made behind
one that made no token or with enough tokens there; what they bring comes to wait behind what waited
before. The reply is what then waits at the place looked at, if the last advance did not fail. -/
structure LooksAhead (call : Handler → LexM (Option Token)) (count : Nat) (m : Machine)
    (moves : List Move) (r : Except LexError (Option Token)) (n : Machine) : Prop where
  traced : Traced.lookahead call count m = some (r, moves, n)
  reached : LexM.draws call (Move.draws moves).length m.aside = some (Move.draws moves, n.aside)
  few : (Move.draws moves).length ≤ count - m.queue.length
  made : ∀ d ∈ (Move.draws moves).dropLast, ∃ t, d.result = .ok (some t)
  needed : ∀ front d back, Move.draws moves = front ++ d :: back →
    (m.queue ++ front.flatMap Draw.tokens).length < count
  queue : n.queue = m.queue ++ (Move.draws moves).flatMap Draw.tokens
  reply : ∀ t?, r = .ok t? → t? = n.queue[count - 1]?
  exhausted : r = .ok none → n.queue.length < count ∧
    ∃ d, (Move.draws moves).getLast? = some d ∧ d.result = .ok none
  failed : ∀ e, r = .error e →
    ∃ d, (Move.draws moves).getLast? = some d ∧ d.result = .error e

theorem LooksAhead.of_lookahead {call : Handler → LexM (Option Token)} {count : Nat}
    {m n : Machine} {r : Except LexError (Option Token)} (hone : 1 ≤ count)
    (h : LexM.lookahead call count m = some (r, n)) :
    ∃ moves, LooksAhead call count m moves r n := by
  obtain ⟨moves, htraced⟩ := @StreamCall.exists_traced call 0 m n (.lookahead count) r h
  change Traced.lookahead call count m = some (r, moves, n) at htraced
  have hbalanced := Traced.Balances.lookahead count htraced
  have hqueue : n.queue = m.queue ++ (Move.draws moves).flatMap Draw.tokens := by
    rw [← hbalanced.conserved, Traced.taken_lookahead htraced, List.nil_append]
  obtain ⟨filled, hfilling, hr⟩ := Traced.filling_of_lookahead hone htraced
  refine ⟨moves, htraced, hbalanced.reached, hfilling.length_le, hfilling.made,
    fun _ _ _ => hfilling.needed, hqueue, ?_, ?_, ?_⟩
  · intro t? ht
    rw [ht] at h
    exact LexM.reply_of_lookahead hone h
  · intro hnone
    rw [hnone] at h hr
    have hreply := LexM.reply_of_lookahead hone h
    have hshort : n.queue.length < count := by
      have hle := List.getElem?_eq_none_iff.1 hreply.symm
      omega
    cases filled with
    | error e => cases hr
    | ok _ =>
      refine ⟨hshort, hfilling.getLast?_of_short ?_⟩
      rw [← hqueue]
      exact hshort
  · intro e he
    rw [he] at hr
    cases filled with
    | error e' =>
      cases hr
      exact hfilling.getLast?_of_error
    | ok _ => cases hr

/-- Looking ahead by one or more, whatever handlers do. If enough tokens wait it runs no handler,
changes nothing and gives the one that it looks at. Else it makes only the advances that are needed,
and has an outcome unless one of them has none. Once it has given a token, looking ahead as far or
less far changes nothing, and so many tokens can be taken, without running any handler. -/
theorem LexM.lookahead_exact (call : Handler → LexM (Option Token)) (m : Machine) {count : Nat}
    (hone : 1 ≤ count) :
    (count ≤ m.queue.length → ∃ t, m.queue[count - 1]? = some t ∧
      ∀ call', lookahead call' count m = some (.ok (some t), m)) ∧
    (m.queue.length < count →
      (∀ r n, lookahead call count m = some (r, n) → ∃ moves, LooksAhead call count m moves r n) ∧
      (lookahead call count m = none → ∃ draws k, draws.length < count - m.queue.length ∧
        LexM.draws call draws.length m.aside = some (draws, k) ∧ LexM.draw call k = none)) ∧
    ∀ t n, lookahead call count m = some (.ok (some t), n) → ∀ fewer, 1 ≤ fewer → fewer ≤ count →
      ∃ u, n.queue[fewer - 1]? = some u ∧ ∀ call',
        lookahead call' fewer n = some (.ok (some u), n) ∧
        ∀ bound, StreamCall.serveAll call' bound (List.replicate fewer .next) n =
          some ((n.queue.take fewer).map (.ok [·]), n.withQueue (n.queue.drop fewer)) := by
  refine ⟨?_, ?_, ?_⟩
  · intro hcount
    have hlt : count - 1 < m.queue.length := by omega
    refine ⟨m.queue[count - 1], List.getElem?_eq_getElem hlt, ?_⟩
    intro call'
    rw [lookahead_of_le hone hcount, List.getElem?_eq_getElem hlt]
  · intro _
    refine ⟨fun r n => LooksAhead.of_lookahead hone, ?_⟩
    intro hnone
    obtain ⟨count, rfl⟩ := Nat.exists_eq_add_of_le' hone
    rw [← Traced.value_lookahead, Traced.value, Option.map_eq_none_iff, Traced.lookahead_succ,
      Option.map_eq_none_iff] at hnone
    exact Traced.exists_draw_of_fill hnone
  · intro t n h fewer hfewer hle
    obtain ⟨moves, hlooks⟩ := LooksAhead.of_lookahead hone h
    have hthere : n.queue[count - 1]? = some t := (hlooks.reply _ rfl).symm
    obtain ⟨hlength, -⟩ := List.getElem?_eq_some_iff.1 hthere
    have hwaits : fewer ≤ n.queue.length := by omega
    have hlt : fewer - 1 < n.queue.length := by omega
    refine ⟨n.queue[fewer - 1], List.getElem?_eq_getElem hlt, ?_⟩
    intro call'
    refine ⟨?_, fun bound => serveAll_next bound hwaits⟩
    rw [lookahead_of_le hfewer hwaits, List.getElem?_eq_getElem hlt]

/-- The letter that looks ahead brings the next one with it, so one advance is enough. -/
theorem LexM.lookahead_exact_twoLetters :
    1 ≤ 2 ∧ StreamCall.twoLetters.queue.length < 2 ∧
      ∃ t n moves, lookahead (Handler.call 3) 2 StreamCall.twoLetters = some (.ok (some t), n) ∧
        t.kind = "b" ∧ LooksAhead (Handler.call 3) 2 StreamCall.twoLetters moves (.ok (some t)) n ∧
        (Move.draws moves).length = 1 ∧
        ∃ u, n.queue[0]? = some u ∧ lookahead (Handler.call 0) 1 n = some (.ok (some u), n) := by
  have hshown : shown (lookahead (Handler.call 3) 2) StreamCall.twoLetters (·.map (·.kind))
      (fun _ => ()) = some (some (some "b"), ()) := by decide +kernel
  have hmoves : (Traced.lookahead (Handler.call 3) 2 StreamCall.twoLetters).map
      (fun (_, moves, _) => (Move.draws moves).length) = some 1 := by decide +kernel
  obtain ⟨t?, n, hlook, hkind, -⟩ := exists_of_shown hshown
  obtain ⟨t, rfl, ht⟩ := Option.map_eq_some_iff.1 hkind
  have hfew : StreamCall.twoLetters.queue.length < 2 := by decide
  have htwo : 1 ≤ 2 := by decide
  obtain ⟨-, hmissing, hlater⟩ := lookahead_exact (Handler.call 3) StreamCall.twoLetters htwo
  obtain ⟨moves, hlooks⟩ := (hmissing hfew).1 _ n hlook
  rw [hlooks.traced] at hmoves
  obtain ⟨u, hu, hagain⟩ := hlater t n hlook 1 (by decide) (by decide)
  exact ⟨htwo, hfew, t, n, moves, hlook, ht, hlooks, Option.some.inj hmoves, u, hu,
    (hagain (Handler.call 0)).1⟩

end ModularLexer
