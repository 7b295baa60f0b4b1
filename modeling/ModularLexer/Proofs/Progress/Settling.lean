import ModularLexer.Proofs.Progress.Payment
import ModularLexer.Proofs.Stream.Lookahead

/-!
Computations that end. How deep handlers may call handlers and how long loops may be is bounded by
a number; what ends has the same outcome for all large ones. Loops over tokens end because each
round takes a token, for which a token less is due.
-/
namespace ModularLexer

open LexM (Immediate Pays)

namespace LexM

variable {α β : Type} {m : Machine}

/-- Computations, one for each bound, end at a machine: from some bound on they have one and the
same outcome. -/
def Settles (x : Nat → LexM α) (m : Machine) : Prop :=
  ∃ bound r n, ∀ b, bound ≤ b → x b m = some (r, n)

namespace Settles

theorem of_immediate {x : LexM α} (hx : Immediate x) (m : Machine) : Settles (fun _ => x) m := by
  obtain ⟨r, n, h, -⟩ := hx m
  exact ⟨0, r, n, fun _ _ => h⟩

/-- Only large bounds matter. -/
theorem congr {x y : Nat → LexM α} {bound : Nat} (h : ∀ b, bound ≤ b → x b m = y b m)
    (hy : Settles y m) : Settles x m := by
  obtain ⟨bound', r, n, hy⟩ := hy
  refine ⟨max bound bound', r, n, ?_⟩
  intro b hb
  rw [h b (Nat.le_trans (Nat.le_max_left _ _) hb)]
  exact hy b (Nat.le_trans (Nat.le_max_right _ _) hb)

theorem of_succ {x : Nat → LexM α} (hx : Settles (fun b => x (b + 1)) m) : Settles x m := by
  obtain ⟨bound, r, n, hx⟩ := hx
  refine ⟨bound + 1, r, n, ?_⟩
  intro b hb
  obtain ⟨c, rfl⟩ := Nat.exists_eq_add_of_le' hb
  exact hx (c + bound) (Nat.le_add_left bound c)

/-- For large bounds a loop with so many rounds less has one more round to go. -/
theorem of_round {x : Nat → Nat → LexM α} {rounds : Nat}
    (hx : Settles (fun b => x b (b - (rounds + 1) + 1)) m) :
    Settles (fun b => x b (b - rounds)) m := by
  have hround (b : Nat) (hb : rounds + 1 ≤ b) :
      x b (b - rounds) m = x b (b - (rounds + 1) + 1) m := by
    rw [show b - rounds = b - (rounds + 1) + 1 by omega]
  exact .congr hround hx

theorem bind {x : Nat → LexM α} {f : Nat → α → LexM β} (hx : Settles x m)
    (hf : ∀ a n b, x b m = some (.ok a, n) → Settles (fun b => f b a) n) :
    Settles (fun b => x b >>= f b) m := by
  obtain ⟨bound, e | a, n, hx⟩ := hx
  · exact ⟨bound, .error e, n, fun b hb => bind_of_error (hx b hb)⟩
  · obtain ⟨bound', r, k, hf⟩ := hf a n bound (hx bound (Nat.le_refl bound))
    refine ⟨max bound bound', r, k, ?_⟩
    intro b hb
    have hfirst := hx b (Nat.le_trans (Nat.le_max_left _ _) hb)
    exact (bind_of_ok hfirst).trans (hf b (Nat.le_trans (Nat.le_max_right _ _) hb))

theorem attempt {x : Nat → LexM α} (hx : Settles x m) : Settles (fun b => attempt (x b)) m := by
  obtain ⟨bound, r, n, hx⟩ := hx
  refine ⟨bound, .ok r, n, ?_⟩
  intro b hb
  show (x b m).map _ = _
  rw [hx b hb]
  rfl

end Settles

section Rounds

variable (call : Handler → LexM (Option Token)) (bound : Nat)

/-- A round of skipping takes the token that it has looked at. -/
theorem skipWhileOnto_succ (accepts : List Token → Token → Bool) (taken : List Token) :
    skipWhileOnto call accepts (bound + 1) taken = LexM.lookahead call 1 >>= fun
      | none => return taken.reverse
      | some t =>
        if accepts taken t then do
          match ← next call with
          | some t => skipWhileOnto call accepts bound (t :: taken)
          | none => skipWhileOnto call accepts bound taken
        else return taken.reverse := rfl

theorem pushAll_succ :
    pushAll call (bound + 1) = next call >>= fun
      | some t => do
        push t
        pushAll call bound
      | none => return () := rfl

end Rounds

variable {K : Conduct} {limit : Nat}

def Shrinks (K : Conduct) (x : LexM α) : Prop :=
  ∀ ⦃m r n⦄, m.Follows K → x m = some (r, n) →
    n.Follows K ∧ n.lexer.pass.rest.length ≤ m.lexer.pass.rest.length

theorem Pays.shrinks {made : α → Nat} {credit : Nat} {x : LexM α} (hx : Pays K credit made x) :
    Shrinks K x := by
  intro m r n hm h
  obtain ⟨hn, -, taken, hrest, -⟩ := hx hm h
  refine ⟨hn, ?_⟩
  rw [hrest, List.length_append]
  exact Nat.le_add_left _ _

theorem Immediate.shrinks {x : LexM α} (hx : Immediate x) : Shrinks K x :=
  (Pays.of_immediate hx 0).shrinks

theorem Shrinks.setQueue (queue : List Token) : Shrinks K (setQueue queue) := by
  intro m r n hm h
  cases h
  exact ⟨hm, Nat.le_refl _⟩

theorem Shrinks.attempt {x : LexM α} (hx : Shrinks K x) : Shrinks K (attempt x) := by
  intro m r n hm h
  obtain ⟨_, hk, -⟩ := exists_of_attempt h
  exact hx hm hk

/-- Computations, one for each bound, end on all lexers of the conduct with so much input left at
most. -/
def Ends (K : Conduct) (limit : Nat) (x : Nat → LexM α) : Prop :=
  ∀ ⦃m : Machine⦄, m.Follows K → m.lexer.pass.rest.length ≤ limit → Settles x m

namespace Ends

theorem of_immediate {x : LexM α} (hx : Immediate x) : Ends K limit fun _ => x :=
  fun m _ _ => .of_immediate hx m

theorem pure (a : α) : Ends K limit fun _ => Pure.pure a := of_immediate (.pure a)

theorem throw (e : LexError) : Ends K limit fun _ => (throw e : LexM α) := of_immediate (.throw e)

theorem bind {x : Nat → LexM α} {f : Nat → α → LexM β} (hx : Ends K limit x)
    (hshrinks : ∀ b, Shrinks K (x b)) (hf : ∀ a, Ends K limit fun b => f b a) :
    Ends K limit fun b => x b >>= f b := by
  intro m hm hrest
  apply (hx hm hrest).bind
  intro a n b ha
  obtain ⟨hn, hshorter⟩ := hshrinks b hm ha
  exact hf a hn (Nat.le_trans hshorter hrest)

/-- What is done at once needs no bound. -/
theorem immediate_bind {x : LexM α} {f : Nat → α → LexM β} (hx : Immediate x)
    (hf : ∀ a, Ends K limit fun b => f b a) : Ends K limit fun b => x >>= f b :=
  (of_immediate hx).bind (fun _ => hx.shrinks) hf

theorem setQueue_bind {queue : List Token} {f : Nat → Unit → LexM β}
    (hf : Ends K limit fun b => f b ()) : Ends K limit fun b => setQueue queue >>= f b := by
  apply Ends.bind (x := fun _ => setQueue queue) ?_ (fun _ => .setQueue queue) fun _ => hf
  exact fun _ _ _ => ⟨0, _, _, fun _ _ => rfl⟩

/-- What goes on from the lexer may count on its handlers. -/
theorem lexer_bind {f : Nat → Lexer → LexM β}
    (hf : ∀ l : Lexer, (∀ entry ∈ l.registry.entries, K.known entry.2) →
      Ends K limit fun b => f b l) :
    Ends K limit fun b => LexM.lexer >>= f b := by
  intro m hm hrest
  exact hf m.lexer hm hm hrest

theorem attempt {x : Nat → LexM α} (hx : Ends K limit x) :
    Ends K limit fun b => LexM.attempt (x b) := fun _ hm hrest => (hx hm hrest).attempt

section Drivers

variable {call : Nat → Handler → LexM (Option Token)}
  (hcall : ∀ h, K.known h → Ends K limit fun b => call b h)

include hcall

theorem callKind (kind : String) : Ends K limit fun b => callKind (call b) kind := by
  apply lexer_bind
  intro l hl
  rcases hget : l.registry.get kind with e | handler
  · exact throw e
  · obtain ⟨entry, hentry, rfl⟩ := Registry.mem_of_get hget
    exact hcall entry.2 (hl entry hentry)

variable (hpays : ∀ b h, K.known h → Pays K 0 made? (call b h))

include hpays

theorem runHandler (kind : String) {handler : Handler} (hknown : K.known handler) :
    Ends K limit fun b => runHandler (call b) kind handler := by
  apply immediate_bind .pass
  intro p
  apply (hcall handler hknown).bind fun b => (hpays b handler hknown).shrinks
  intro t?
  cases t? with
  | none => exact pure none
  | some t => exact immediate_bind (.locationFrom p.position) fun _ => pure _

theorem handle (kind : String) : Ends K limit fun b => handle (call b) kind := by
  apply lexer_bind
  intro l hl
  rcases hget : l.registry.get kind with e | handler
  · exact throw e
  · obtain ⟨entry, hentry, rfl⟩ := Registry.mem_of_get hget
    exact runHandler hcall hpays kind (hl entry hentry)

theorem tryHandlers (count i : Nat) : Ends K limit fun b => tryHandlers (call b) count i := by
  induction count generalizing i with
  | zero => exact pure none
  | succ count ih =>
    apply lexer_bind
    intro l hl
    rcases hentry : l.registry.entryAt? i with _ | ⟨kind, handler⟩
    · exact pure none
    · have hknown : K.known handler := hl _ (List.mem_of_getElem? hentry)
      apply (runHandler hcall hpays kind hknown).bind
        fun b => (Pays.runHandler (hpays b) kind hknown).shrinks
      intro t?
      cases t? with
      | none => exact ih (i + 1)
      | some t => exact pure _

theorem derive : Ends K limit fun b => derive (call b) := by
  apply lexer_bind
  intro l _
  rcases l.pass.rest with _ | ⟨c, rest⟩
  · exact pure none
  · cases l.options.mode with
    | character => exact immediate_bind (.characterToken c) fun _ => pure _
    | token =>
      apply (tryHandlers hcall hpays _ 0).bind fun b => (Pays.tryHandlers (hpays b) _ 0).shrinks
      intro t?
      cases t? with
      | some t => exact pure _
      | none =>
        apply immediate_bind .pass
        intro p
        by_cases h : p.rest.isEmpty
        · simp only [h]
          exact pure none
        · simp only [h]
          exact throw _

theorem advance : Ends K limit fun b => advance (call b) := by
  apply (derive hcall hpays).attempt.bind fun b => (Pays.derive (hpays b)).shrinks.attempt
  intro outcome
  rcases outcome with e | t?
  · exact immediate_bind (.report e) fun _ => pure none
  · exact pure t?

theorem next : Ends K limit fun b => next (call b) := by
  have hdequeue : Ends K limit fun _ => dequeue :=
    fun m _ _ => ⟨0, _, _, fun _ _ => dequeue_apply m⟩
  apply hdequeue.bind fun _ => Pays.dequeue.shrinks
  intro t?
  cases t? with
  | some t => exact pure _
  | none => exact advance hcall hpays

theorem fill (n bound : Nat) : Ends K limit fun b => fill (call b) n bound := by
  induction bound with
  | zero => exact pure ()
  | succ bound ih =>
    apply immediate_bind .pass
    intro p
    by_cases h : n ≤ p.queue.length
    · simp only [h]
      exact pure ()
    · simp only [h]
      apply setQueue_bind
      apply (advance hcall hpays).attempt.bind fun b => (Pays.advance (hpays b)).shrinks.attempt
      intro outcome
      apply immediate_bind .pass
      intro q
      rcases outcome with e | _ | t
      · exact setQueue_bind (throw e)
      · exact fun _ _ _ => ⟨0, _, _, fun _ _ => rfl⟩
      · exact setQueue_bind ih

theorem lookahead (n : Nat) : Ends K limit fun b => lookahead (call b) n := by
  unfold LexM.lookahead
  by_cases h : n = 0
  · simp only [h]
    exact throw _
  · simp only [h]
    apply immediate_bind .pass
    intro p
    have hshrinks (b : Nat) : Shrinks K (LexM.fill (call b) n (n - p.queue.length)) := by
      have hfill : Traced.Balances (call b) (Traced.fill (call b) n (n - p.queue.length)) :=
        .fill n _
      rw [← Traced.value_fill]
      exact (Pays.of_covered (.of_balances (Pays.advance (hpays b)) hfill)).shrinks
    apply (fill hcall hpays n _).bind hshrinks
    intro _
    exact immediate_bind .pass fun _ => pure _

theorem skipOnto (n : Nat) (taken : List Token) :
    Ends K limit fun b => skipOnto (call b) n taken := by
  induction n generalizing taken with
  | zero => exact pure _
  | succ n ih =>
    apply (next hcall hpays).bind fun b => (Pays.next (hpays b)).shrinks
    intro t?
    cases t? with
    | some t => exact ih _
    | none => exact pure _

/-- Each round takes a token that waits, so one less is due. The bound of a round is one less than
that of the round before. -/
theorem skipWhileOnto (accepts : List Token → Token → Bool) (rounds : Nat) (taken : List Token) :
    Ends K limit fun b => skipWhileOnto (call b) accepts (b - rounds) taken := by
  intro m hm hrest
  induction hdue : m.due using Nat.strongRecOn generalizing m rounds taken with
  | ind due ih =>
    apply Settles.of_round (x := fun b bound => LexM.skipWhileOnto (call b) accepts bound taken)
    simp only [skipWhileOnto_succ]
    apply (lookahead hcall hpays 1 hm hrest).bind
    intro t? k b hk
    have hpaid := Pays.lookahead (hpays b) 1 hm hk
    have hshorter := (Pays.lookahead (hpays b) 1).shrinks hm hk
    cases t? with
    | none => exact .of_immediate (.pure _) k
    | some t =>
      by_cases h : accepts taken t
      · simp only [h]
        obtain ⟨queue, hqueue⟩ := queue_of_lookahead_one hk
        have hnext (b : Nat) : LexM.next (call b) k = some (.ok (some t), k.withQueue queue) :=
          next_of_queue_cons hqueue
        have hless : (k.withQueue queue).due < m.due :=
          Nat.lt_of_lt_of_le (Pays.due_next (hpays b) hpaid.follows (hnext b)) hpaid.due
        have hfollows : (k.withQueue queue).Follows K := hpaid.follows
        have hrounds := ih _ (hdue ▸ hless) (rounds + 1) (t :: taken) hfollows
          (Nat.le_trans hshorter.2 hrest) rfl
        apply Settles.bind (x := fun b => LexM.next (call b)) ⟨0, _, _, fun b _ => hnext b⟩
        intro t? n b hn
        cases (hnext b).symm.trans hn
        exact hrounds
      · simp only [h]
        exact .of_immediate (.pure _) k

theorem skipTo (kind : String) : Ends K limit fun b => skipTo (call b) b kind := by
  apply Ends.bind (skipWhileOnto hcall hpays (fun _ t => !t.is kind) 0 [])
    fun b => (Pays.stream (hpays b) b (.skipWhile fun _ t => !t.is kind)).shrinks
  intro taken
  apply (next hcall hpays).bind fun b => (Pays.next (hpays b)).shrinks
  intro t?
  cases t? with
  | some t => exact pure _
  | none => exact pure _

/-- Each round moves a token to the list, so one less is due. -/
theorem pushAll (rounds : Nat) : Ends K limit fun b => pushAll (call b) (b - rounds) := by
  intro m hm hrest
  induction hdue : m.due using Nat.strongRecOn generalizing m rounds with
  | ind due ih =>
    apply Settles.of_round (x := fun b bound => LexM.pushAll (call b) bound)
    simp only [pushAll_succ]
    apply (next hcall hpays hm hrest).bind
    intro t? k b hk
    have hshorter := (Pays.next (hpays b)).shrinks hm hk
    cases t? with
    | none => exact .of_immediate (.pure ()) k
    | some t =>
      apply Settles.bind (.of_immediate (.push t) k)
      intro _ n b' hpush
      have hpushed := Pays.of_immediate (.push t) 0 hshorter.1 hpush
      have hfewer := (Immediate.push t).shrinks hshorter.1 hpush
      have hless : n.due < m.due :=
        Nat.lt_of_le_of_lt hpushed.due (Pays.due_next (hpays b) hm hk)
      exact ih _ (hdue ▸ hless) (rounds + 1) hpushed.follows
        (Nat.le_trans hfewer.2 (Nat.le_trans hshorter.2 hrest)) rfl

theorem lex : Ends K limit fun b => lex (call b) b := by
  apply Ends.bind (pushAll hcall hpays 0) fun b => (Pays.pushAll (hpays b) b).shrinks
  intro _
  apply immediate_bind .pass
  intro p
  apply of_immediate
  have hlast : Immediate (LexM.pass >>= fun p => Pure.pure p.tokens.toList) :=
    .bind .pass fun _ => .pure _
  split
  · exact .bind .finish fun _ => hlast
  · exact hlast

/-- Whatever is asked for, but to start over and to bring a token, ends. -/
theorem serve {r : Request} (frugal : r.Frugal) : Ends K limit fun b => r.serve (call b) b := by
  cases r with
  | view => exact of_immediate .view
  | hooks => exact of_immediate .hooks
  | consume bytes => exact of_immediate (.consume bytes)
  | consumeAs bytes value => exact of_immediate (.consumeAs bytes value)
  | move value bytes => exact of_immediate (.move value bytes)
  | matchPattern pattern => exact of_immediate (.matchPattern pattern)
  | scan pattern kind => exact of_immediate (.scan pattern kind)
  | skipSpaces => exact of_immediate .skipSpaces
  | token kind value => exact of_immediate (.token kind value)
  | tokenFrom kind captures => exact of_immediate (.tokenFrom kind captures)
  | handle kind => exact handle hcall hpays kind
  | call kind => exact callKind hcall kind
  | advance => exact advance hcall hpays
  | next => exact next hcall hpays
  | lex => exact lex hcall hpays
  | dequeue => exact fun m _ _ => ⟨0, _, _, fun _ _ => dequeue_apply m⟩
  | lookahead n => exact lookahead hcall hpays n
  | skip n => exact skipOnto hcall hpays n []
  | skipWhile accepts => exact skipWhileOnto hcall hpays accepts 0 []
  | skipTo kind => exact skipTo hcall hpays kind
  | push t => exact of_immediate (.push t)
  | pushStack t => exact of_immediate (.pushStack t)
  | popStack => exact of_immediate .popStack
  | append value => exact of_immediate (.append value)
  | finish => exact of_immediate .finish
  | report e => exact of_immediate (.report e)
  | note label answer => exact of_immediate (.record _)
  | _ => exact frugal.elim

end Drivers

end Ends

end LexM

end ModularLexer
