import ModularLexer.Proofs.Progress.Settling
import ModularLexer.Proofs.Runs.Conducts

/-!
Lexers of patterns make progress and end. An advance that makes a token takes a character at least,
and one that brings none ends the loop that made it. So whatever draws on the stream of tokens makes
few advances of its own and takes no more tokens than were due.
-/
namespace ModularLexer

open LexM (Immediate Pays Settles)
open Move (taken)

namespace Move

/-- The advances among moves that brought no token at all. -/
def idle (moves : List Move) : Nat := (draws moves).countP (·.tokens.isEmpty)

@[simp] theorem idle_append (a b : List Move) : idle (a ++ b) = idle a + idle b := by
  rw [idle, draws_append, List.countP_append, idle, idle]

theorem idle_advanced_le (r : Except LexError (Option Token)) (ahead : List Token) :
    idle [.advanced r ahead] ≤ 1 := List.countP_le_length

theorem idle_advanced_some (t : Token) (ahead : List Token) :
    idle [.advanced (.ok (some t)) ahead] = 0 := rfl

/-- There are no more advances than tokens that they brought and idle ones. -/
theorem length_draws_le (moves : List Move) :
    (draws moves).length ≤ ((draws moves).flatMap Draw.tokens).length + idle moves := by
  unfold idle
  induction draws moves with
  | nil => exact Nat.le_refl 0
  | cons d ds ih =>
    rw [List.length_cons, List.flatMap_cons, List.length_append, List.countP_cons]
    rcases htokens : d.tokens with _ | ⟨t, ts⟩
    · simp only [List.isEmpty_nil, List.length_nil, if_true]
      omega
    · simp only [List.length_cons]
      omega

end Move

open Move (idle)

namespace Traced

variable {call : Handler → LexM (Option Token)} {m n : Machine} {moves : List Move} {bound : Nat}

def Quiet {α : Type} (x : Traced α) : Prop :=
  ∀ ⦃m r moves n⦄, x m = some (r, moves, n) → idle moves = 0

theorem Quiet.lift {α : Type} (x : LexM α) : Quiet (lift x) := by
  intro m r moves n h
  obtain ⟨-, rfl⟩ := lift_eq_some_iff.1 h
  rfl

theorem Quiet.bind {α β : Type} {x : Traced α} {f : α → Traced β} (hx : Quiet x)
    (hf : ∀ a, Quiet (f a)) : Quiet (x >>= f) := by
  intro m r moves n h
  rcases bind_eq_some_iff.1 h with ⟨a, first, k, more, ha, hr, rfl⟩ | ⟨e, he, -⟩
  · rw [Move.idle_append, hx ha, hf a hr]
  · exact hx he

theorem quiet_dequeue : Quiet dequeue := by
  intro m r moves n h
  rw [dequeue_apply] at h
  cases h
  cases m.queue <;> rfl

/-- Where there is a next token no advance was idle. -/
theorem idle_next {r : Except LexError (Option Token)} (h : next call m = some (r, moves, n)) :
    idle moves ≤ 1 ∧ ∀ t, r = .ok (some t) → idle moves = 0 := by
  cases hq : m.queue with
  | cons t queue =>
    rw [next_of_queue_cons hq] at h
    cases h
    exact ⟨Nat.zero_le 1, fun _ _ => rfl⟩
  | nil =>
    rw [next_of_queue_nil hq, Option.map_eq_some_iff] at h
    obtain ⟨⟨r', k⟩, -, he⟩ := h
    cases he
    rcases r with e | _ | t
    · refine ⟨Move.idle_advanced_le _ _, ?_⟩
      intro t ht
      cases ht
    · refine ⟨Move.idle_advanced_le _ _, ?_⟩
      intro t ht
      cases ht
    · exact ⟨Nat.zero_le 1, fun _ _ => rfl⟩

/-- Filling stops at the first advance that makes no token. -/
theorem idle_fill {count : Nat} {r : Except LexError Unit}
    (h : fill call count bound m = some (r, moves, n)) : idle moves ≤ 1 := by
  induction bound generalizing m moves with
  | zero =>
    cases h
    exact Nat.zero_le 1
  | succ bound ih =>
    by_cases hc : count ≤ m.queue.length
    · rw [fill_of_le hc] at h
      cases h
      exact Nat.zero_le 1
    · rw [fill_of_lt (Nat.lt_of_not_le hc)] at h
      rcases ha : LexM.advance call m.aside with _ | ⟨_ | _ | t, p⟩
      · rw [ha] at h
        cases h
      · rw [ha] at h
        cases h
        exact Move.idle_advanced_le _ _
      · rw [ha] at h
        cases h
        exact Move.idle_advanced_le _ _
      · rw [ha] at h
        obtain ⟨⟨r', more, q⟩, hf, he⟩ := Option.map_eq_some_iff.1 h
        cases he
        have hmore := ih hf
        rw [← List.singleton_append, Move.idle_append, Move.idle_advanced_some]
        omega

theorem idle_lookahead {count : Nat} {r : Except LexError (Option Token)}
    (h : lookahead call count m = some (r, moves, n)) : idle moves ≤ 1 := by
  cases count with
  | zero =>
    cases h
    exact Nat.zero_le 1
  | succ count =>
    rw [lookahead_succ, Option.map_eq_some_iff] at h
    obtain ⟨⟨r', more, k⟩, hf, he⟩ := h
    cases he
    exact idle_fill hf

/-- If a token waits after looking ahead by one, it waited before or an advance brought it. -/
theorem idle_lookahead_one {t : Token} (h : lookahead call 1 m = some (.ok (some t), moves, n)) :
    idle moves = 0 ∧ ∃ queue, n.queue = t :: queue := by
  obtain ⟨queue, hqueue⟩ := queue_of_lookahead_one h
  refine ⟨?_, queue, hqueue⟩
  have hconserved := (Balances.lookahead 1 h).conserved
  rw [taken_lookahead h, hqueue, List.nil_append] at hconserved
  obtain ⟨filled, hfilling, -⟩ := filling_of_lookahead (Nat.le_refl 1) h
  have hlength := hfilling.length_le
  unfold Move.idle
  rcases hdraws : Move.draws moves with _ | ⟨d, ds⟩
  · rfl
  · rw [hdraws, List.length_cons] at hlength
    have hempty : m.queue = [] := List.eq_nil_of_length_eq_zero (by omega)
    have hds : ds = [] := List.eq_nil_of_length_eq_zero (by omega)
    subst hds
    rw [hempty, hdraws, List.nil_append, List.flatMap_singleton] at hconserved
    rw [List.countP_singleton, ← hconserved]
    rfl

theorem idle_skipOnto {count : Nat} {before : List Token} {r : Except LexError (List Token)}
    (h : skipOnto call count before m = some (r, moves, n)) : idle moves ≤ 1 := by
  induction count generalizing before m moves with
  | zero =>
    cases h
    exact Nat.zero_le 1
  | succ count ih =>
    rcases bind_eq_some_iff.1 h with ⟨t?, first, k, more, hk, hrest, rfl⟩ | ⟨e, he, -⟩
    · obtain ⟨hone, hnone⟩ := idle_next hk
      rw [Move.idle_append]
      cases t? with
      | none =>
        cases hrest
        exact hone
      | some t =>
        rw [hnone t rfl, Nat.zero_add]
        exact ih hrest
    · exact (idle_next he).1

theorem idle_skipWhileOnto {accepts : List Token → Token → Bool} {before : List Token}
    {r : Except LexError (List Token)}
    (h : skipWhileOnto call accepts bound before m = some (r, moves, n)) : idle moves ≤ 1 := by
  induction bound generalizing before m moves with
  | zero => cases h
  | succ bound ih =>
    rcases bind_eq_some_iff.1 h with ⟨t?, first, k, more, hk, hrest, rfl⟩ | ⟨e, he, -⟩
    · cases t? with
      | none =>
        cases hrest
        rw [List.append_nil]
        exact idle_lookahead hk
      | some t =>
        obtain ⟨hpeeked, queue, hqueue⟩ := idle_lookahead_one hk
        rw [skipWhileOnto_succ hk hqueue] at h
        generalize first ++ more = moves at h ⊢
        split at h
        · obtain ⟨⟨r', later, j⟩, hagain, he⟩ := Option.map_eq_some_iff.1 h
          obtain ⟨rfl, rfl, rfl⟩ := he
          have htook : idle (.tested t true :: .took t :: later) = idle later := rfl
          rw [Move.idle_append, hpeeked, htook, Nat.zero_add]
          exact ih hagain
        · cases h
          have htested : idle [.tested t false] = 0 := rfl
          rw [Move.idle_append, hpeeked, htested]
          exact Nat.zero_le 1
    · exact idle_lookahead he

theorem idle_skipTo {kind : String} {r : Except LexError (List Token)}
    (h : skipTo call bound kind m = some (r, moves, n)) : idle moves ≤ 2 := by
  rcases bind_eq_some_iff.1 h with ⟨ts, first, k, more, hk, hrest, rfl⟩ | ⟨e, he, -⟩
  · have hfirst := idle_skipWhileOnto hk
    rw [Move.idle_append]
    rcases bind_eq_some_iff.1 hrest with ⟨t?, second, j, later, hj, hlast, rfl⟩ | ⟨e, he, -⟩
    · have hsecond := (idle_next hj).1
      have hlater : later = [] := by
        cases t? with
        | none => cases hlast; rfl
        | some t => cases hlast; rfl
      rw [hlater, List.append_nil]
      omega
    · have hsecond := (idle_next he).1
      omega
  · exact Nat.le_succ_of_le (idle_skipWhileOnto he)

theorem idle_pushAll {r : Except LexError Unit}
    (h : pushAll call bound m = some (r, moves, n)) : idle moves ≤ 1 := by
  induction bound generalizing m moves with
  | zero => cases h
  | succ bound ih =>
    rcases bind_eq_some_iff.1 h with ⟨t?, first, k, more, hk, hrest, rfl⟩ | ⟨e, he, -⟩
    · obtain ⟨hone, hnone⟩ := idle_next hk
      rw [Move.idle_append]
      cases t? with
      | none =>
        cases hrest
        exact hone
      | some t =>
        rw [hnone t rfl, Nat.zero_add]
        obtain ⟨_, pushed, j, later, hpush, hlast, rfl⟩ | ⟨e, he, -⟩ := bind_eq_some_iff.1 hrest
        · rw [Move.idle_append, Quiet.lift _ hpush, Nat.zero_add]
          exact ih hlast
        · rw [Quiet.lift _ he]
          exact Nat.zero_le 1
    · exact (idle_next he).1

theorem idle_lex {r : Except LexError (List Token)} (h : lex call bound m = some (r, moves, n)) :
    idle moves ≤ 1 := by
  rcases bind_eq_some_iff.1 h with ⟨_, first, k, more, hk, hrest, rfl⟩ | ⟨e, he, -⟩
  · have hlast : Quiet (lift LexM.pass >>= fun p => Pure.pure p.tokens.toList) :=
      (Quiet.lift _).bind fun p => Quiet.lift (Pure.pure p.tokens.toList)
    have hquiet : idle more = 0 := by
      refine (Quiet.lift LexM.pass).bind (fun p => ?_) hrest
      split
      · exact (Quiet.lift LexM.finish).bind fun _ => hlast
      · exact hlast
    rw [Move.idle_append, hquiet, Nat.add_zero]
    exact idle_pushAll hk
  · exact idle_pushAll he

end Traced

namespace StreamCall

variable {call : Handler → LexM (Option Token)} {bound : Nat} {c : StreamCall} {m n : Machine}
  {r : Except LexError c.request.Reply} {moves : List Move}

/-- Whatever draws on the stream of tokens stops at an idle advance, skipping up to a kind aside. -/
theorem idle_le_one (hc : ∀ kind, c ≠ .skipTo kind)
    (h : c.traced call bound m = some (r, moves, n)) : idle moves ≤ 1 := by
  cases c with
  | next => exact (Traced.idle_next h).1
  | dequeue =>
    rw [Traced.quiet_dequeue h]
    exact Nat.zero_le 1
  | peek => exact Traced.idle_lookahead h
  | lookahead n => exact Traced.idle_lookahead h
  | skip n => exact Traced.idle_skipOnto h
  | skipWhile accepts => exact Traced.idle_skipWhileOnto h
  | skipKinds kinds => exact Traced.idle_skipWhileOnto h
  | skipTo kind => exact absurd rfl (hc kind)

/-- At most two advances of whatever draws on the stream of tokens are idle. -/
theorem idle_traced (c : StreamCall) {r : Except LexError c.request.Reply}
    (h : c.traced call bound m = some (r, moves, n)) : idle moves ≤ 2 := by
  by_cases hc : ∃ kind, c = .skipTo kind
  · obtain ⟨kind, rfl⟩ := hc
    exact Traced.idle_skipTo h
  · exact Nat.le_succ_of_le (idle_le_one (fun kind he => hc ⟨kind, he⟩) h)

end StreamCall

variable {K : Conduct} {m : Machine}

/-- Few advances were made for the input there is, and no more tokens taken than were due. -/
structure Move.Modest (m : Machine) (moves : List Move) : Prop where
  advances : (draws moves).length ≤ m.lexer.pass.rest.length + 2
  taken : (taken moves).length ≤ m.queue.length + m.lexer.pass.rest.length

theorem Machine.Covers.modest {n : Machine} {moves : List Move} (h : m.Covers K moves n)
    (hidle : idle moves ≤ 2) : Move.Modest m moves := by
  have hlength := Move.length_draws_le moves
  have hdrawn := h.drawn
  have hdue := h.due
  unfold Machine.due at hdue
  exact ⟨by omega, by omega⟩

section Handlers

variable {kind : String} {p : Pattern} {transform : Token → Program Handler (Option Token)}

theorem Handler.settles_ofPattern (kind : String) (p : Pattern) (m : Machine) :
    Settles (fun b => Handler.call b (.ofPattern kind p)) m := by
  apply Settles.of_succ
  simp only [Handler.call_ofPattern]
  exact .of_immediate (.scan p kind) m

/-- A pattern with a transform ends where the transform of its match ends. -/
theorem Handler.settles_ofPatternWith
    (h : ∀ t n, LexM.scan p kind m = some (.ok (some t), n) →
      Settles (fun b => (transform t).run (Handler.call b) b) n) :
    Settles (fun b => Handler.call b (.ofPatternWith kind p transform)) m := by
  apply Settles.of_succ
  simp only [Handler.call_ofPatternWith]
  apply Settles.bind (.of_immediate (.scan p kind) m)
  intro t? n _ hscan
  cases t? with
  | none => exact .of_immediate (.pure none) n
  | some t => exact h t n hscan

end Handlers

/-- A program that neither registers a handler nor runs one on a fork ends, if handlers do. -/
theorem Program.ends_run {α : Type} {call : Nat → Handler → LexM (Option Token)} {limit : Nat}
    (hcall : ∀ h, K.known h → LexM.Ends K limit fun b => call b h)
    (hpays : ∀ b h, K.known h → Pays K 0 made? (call b h)) {p : Program Handler α}
    (hp : p.Uses Request.Frugal fun _ => False) : LexM.Ends K limit fun b => p.run (call b) b := by
  induction p with
  | done a => exact .pure a
  | fail e => exact .throw e
  | ask request next ih =>
    obtain ⟨frugal, hnext⟩ := hp
    apply (LexM.Ends.serve hcall hpays frugal).attempt.bind
      fun b => (Pays.serve (hpays b) b frugal).shrinks.attempt
    exact fun reply => ih reply (hnext reply)
  | set kind handler next ih => exact hp.1.elim
  | fork input body next ih => exact hp.1.elim

/-- Transforms that neither register handlers nor run any on forks end: each handler that they come
to call has less input left than they had. -/
theorem Conduct.Capturing.settles_call (hK : K.Capturing)
    (htransforms : ∀ kind p transform, K.known (.ofPatternWith kind p transform) →
      ∀ t, (transform t).Uses Request.Frugal fun _ => False)
    (limit : Nat) {h : Handler} (hknown : K.known h) :
    LexM.Ends K limit fun b => Handler.call b h := by
  induction limit using Nat.strongRecOn generalizing h with
  | ind limit ih =>
    intro m hm hrest
    rcases hK.captures hknown with ⟨kind, p, rfl⟩ | ⟨kind, p, transform, rfl⟩
    · exact Handler.settles_ofPattern kind p m
    · apply Handler.settles_ofPatternWith
      intro t n hscan
      obtain ⟨hn, -, taken, htaken, hmade⟩ := Pays.scan p kind hm hscan
      have hone : 1 ≤ taken.length := hmade
      rw [htaken, List.length_append] at hrest
      have hless : n.lexer.pass.rest.length < limit := by omega
      exact Program.ends_run (fun _ => ih _ hless) (fun b _ => Handler.pays_call hK b)
        (htransforms kind p transform hknown t) hn (Nat.le_refl _)

theorem Conduct.Capturing.settles_transform (hK : K.Capturing)
    (htransforms : ∀ kind p transform, K.known (.ofPatternWith kind p transform) →
      ∀ t, (transform t).Uses Request.Frugal fun _ => False)
    {p : Program Handler (Option Token)} (hp : p.Uses Request.Frugal fun _ => False)
    (hm : m.Follows K) : Settles (fun b => p.run (Handler.call b) b) m :=
  Program.ends_run (fun _ => hK.settles_call htransforms _) (fun b _ => Handler.pays_call hK b) hp
    hm (Nat.le_refl _)

/-- A program that uses only known handlers asks for the same. -/
theorem Program.Uses.asks {α : Type} {allowed : Request → Prop} {known : Handler → Prop}
    {p : Program Handler α} (hp : p.Uses allowed known) : p.Asks allowed known := by
  induction p with
  | done a => trivial
  | fail e => trivial
  | ask request next ih => exact ⟨hp.1, fun reply => ih reply (hp.2 reply)⟩
  | set kind handler next ih => exact ⟨hp.1, ih hp.2⟩
  | fork input body next ih => exact fun outcome view => ih outcome view (hp.2 outcome view)

namespace Conduct

/-- Captured patterns whose transforms neither start over, bring tokens of their own, register
handlers nor run any on forks. -/
def frugal : Conduct where
  allowed := Request.Frugal
  known h := ((∃ kind p, h = .ofPattern kind p) ∨ ∃ kind p transform,
    h = .ofPatternWith kind p transform) ∧ h.program.Uses Request.Frugal fun _ => False
  asks _ hknown := hknown.2.asks.mono (fun _ => id) fun _ => False.elim

theorem frugal_capturing : frugal.Capturing := ⟨id, And.left⟩

theorem frugal_ofPattern (kind : String) (p : Pattern) : frugal.known (.ofPattern kind p) :=
  ⟨.inl ⟨kind, p, rfl⟩, trivial, fun reply => by cases reply <;> trivial⟩

theorem frugal_ofPatternWith {kind : String} {p : Pattern}
    {transform : Token → Program Handler (Option Token)}
    (h : ∀ t, (transform t).Uses Request.Frugal fun _ => False) :
    frugal.known (.ofPatternWith kind p transform) := by
  refine ⟨.inr ⟨kind, p, transform, rfl⟩, trivial, ?_⟩
  rintro (e | _ | t)
  · trivial
  · trivial
  · exact h t

theorem frugal_transform {kind : String} {p : Pattern}
    {transform : Token → Program Handler (Option Token)}
    (h : frugal.known (.ofPatternWith kind p transform)) (t : Token) :
    (transform t).Uses Request.Frugal fun _ => False := h.2.2 (.ok (some t))

end Conduct

/-- On a lexer of captured patterns whose transforms neither start over nor bring tokens of their
own, and end, an advance that makes a token takes a character at least. Lexing and whatever else
draws on the stream of tokens ends, after at most two advances more than there are characters left,
and takes at most as many tokens as wait and as there are characters left. -/
theorem Conduct.Capturing.progress (hK : K.Capturing)
    (hends : ∀ kind p transform, K.known (.ofPatternWith kind p transform) →
      ∀ t n, n.Follows K → Settles (fun b => (transform t).run (Handler.call b) b) n)
    (hm : m.Follows K) :
    (∀ depth t n, LexM.advance (Handler.call depth) m = some (.ok (some t), n) →
      ∃ taken, taken ≠ [] ∧ m.lexer.pass.rest = taken ++ n.lexer.pass.rest) ∧
    (∀ c : StreamCall, Settles (fun b => c.request.serve (Handler.call b) b) m ∧
      ∀ depth bound r n, c.request.serve (Handler.call depth) bound m = some (r, n) →
        ∃ moves, c.traced (Handler.call depth) bound m = some (r, moves, n) ∧ Move.Modest m moves) ∧
    Settles (fun b => LexM.lex (Handler.call b) b) m ∧
      ∀ depth bound r n, LexM.lex (Handler.call depth) bound m = some (r, n) →
        ∃ moves, Traced.lex (Handler.call depth) bound m = some (r, moves, n) ∧
          Move.Modest m moves := by
  have hpays (b : Nat) : ∀ h, K.known h → Pays K 0 made? (Handler.call b h) :=
    fun _ => Handler.pays_call hK b
  have hcall : ∀ h, K.known h →
      LexM.Ends K m.lexer.pass.rest.length fun b => Handler.call b h := by
    intro h hknown n hn _
    rcases hK.captures hknown with ⟨kind, p, rfl⟩ | ⟨kind, p, transform, rfl⟩
    · exact Handler.settles_ofPattern kind p n
    · apply Handler.settles_ofPatternWith
      intro t k hscan
      exact hends kind p transform hknown t k (Pays.scan p kind hn hscan).follows
  refine ⟨?_, ?_, LexM.Ends.lex hcall hpays hm (Nat.le_refl _), ?_⟩
  · intro depth t n h
    obtain ⟨-, -, taken, hrest, hmade⟩ := Pays.advance (hpays depth) hm h
    have hone : 1 ≤ taken.length := hmade
    exact ⟨taken, List.ne_nil_of_length_pos hone, hrest⟩
  · intro c
    have hfrugal : c.request.Frugal := by cases c <;> trivial
    refine ⟨LexM.Ends.serve hcall hpays hfrugal hm (Nat.le_refl _), ?_⟩
    intro depth bound r n h
    obtain ⟨moves, hmoves⟩ := StreamCall.exists_traced h
    have hcovers := Traced.Covered.of_balances (Pays.advance (hpays depth))
      (c.balances_traced _ bound) hm hmoves
    exact ⟨moves, hmoves, hcovers.modest (c.idle_traced hmoves)⟩
  · intro depth bound r n h
    rw [← Traced.value_lex] at h
    obtain ⟨moves, hmoves⟩ := Traced.exists_of_value h
    have hcovers := Traced.Covered.lex (Pays.advance (hpays depth)) bound hm hmoves
    exact ⟨moves, hmoves, hcovers.modest (Nat.le_succ_of_le (Traced.idle_lex hmoves))⟩

/-- The first letter looks ahead before it is made, and then nothing recognises the rest. Skipping
takes both letters and fails. -/
theorem progress_twoLetters :
    Conduct.frugal.Capturing ∧ StreamCall.twoLetters.Follows .frugal ∧
      (∃ t n, LexM.advance (Handler.call 3) StreamCall.twoLetters = some (.ok (some t), n) ∧
        ∃ taken, taken ≠ [] ∧
          StreamCall.twoLetters.lexer.pass.rest = taken ++ n.lexer.pass.rest) ∧
      ∃ r n, (StreamCall.skipWhile fun _ _ => true).request.serve (Handler.call 4) 4
          StreamCall.twoLetters = some (r, n) ∧ n.lexer.pass.rest = ['!'] ∧
        ∃ moves, (StreamCall.skipWhile fun _ _ => true).traced (Handler.call 4) 4
            StreamCall.twoLetters = some (r, moves, n) ∧
          (Move.taken moves).map (·.kind) = ["a", "b"] ∧
          Move.Modest StreamCall.twoLetters moves := by
  have hfollows : StreamCall.twoLetters.Follows .frugal := by
    intro entry hentry
    rcases List.mem_pair.1 hentry with rfl | rfl
    · apply Conduct.frugal_ofPatternWith
      exact fun t => ⟨trivial, fun reply => by cases reply <;> trivial⟩
    · exact Conduct.frugal_ofPattern _ _
  obtain ⟨hadvance, hcalls, -⟩ := Conduct.frugal_capturing.progress
    (fun _ _ _ hknown t _ hn => Conduct.frugal_capturing.settles_transform
      (fun _ _ _ => Conduct.frugal_transform) (Conduct.frugal_transform hknown t) hn) hfollows
  have hfirst : LexM.shown (LexM.advance (Handler.call 3)) StreamCall.twoLetters (·.isSome)
      (fun _ => ()) = some (some true, ()) := by decide +kernel
  obtain ⟨t?, n, hn, ht, -⟩ := LexM.exists_of_shown hfirst
  obtain ⟨t, rfl⟩ := Option.isSome_iff_exists.1 ht
  have hskipped : ((StreamCall.skipWhile fun _ _ => true).traced (Handler.call 4) 4
      StreamCall.twoLetters).map (fun (_, moves, n) =>
        ((Move.taken moves).map (·.kind), n.lexer.pass.rest)) = some (["a", "b"], ['!']) := by
    decide +kernel
  obtain ⟨⟨r, moves, k⟩, hk, hshown⟩ := Option.map_eq_some_iff.1 hskipped
  obtain ⟨hkinds, hrest⟩ := Prod.mk.inj hshown
  have hserved : (StreamCall.skipWhile fun _ _ => true).request.serve (Handler.call 4) 4
      StreamCall.twoLetters = some (r, k) := by
    rw [← StreamCall.value_traced, Traced.value, hk]
    rfl
  obtain ⟨moves', hmoves, hmodest⟩ := (hcalls (.skipWhile fun _ _ => true)).2 4 4 r k hserved
  obtain ⟨-, hsame⟩ := Prod.mk.inj (Option.some.inj (hmoves.symm.trans hk))
  obtain ⟨rfl, -⟩ := Prod.mk.inj hsame
  exact ⟨Conduct.frugal_capturing, hfollows, ⟨t, n, hn, hadvance 3 t n hn⟩, r, k, hserved, hrest,
    moves', hmoves, hkinds, hmodest⟩

end ModularLexer
