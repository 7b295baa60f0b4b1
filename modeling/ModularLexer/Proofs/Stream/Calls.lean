import ModularLexer.Proofs.Stream.Conservation

/-!
Runs of calls that draw on the stream of tokens, in any order, some of which may fail. All that was
taken so far and all that waits is, in order, what waited at first and what advances made since.
-/
namespace ModularLexer

open Move (taken)

inductive StreamCall where
  | next
  | dequeue
  | peek
  | lookahead (n : Nat)
  | skip (n : Nat)
  | skipWhile (accepts : List Token → Token → Bool)
  | skipKinds (kinds : List String)
  | skipTo (kind : String)

namespace StreamCall

abbrev request : StreamCall → Request
  | next => .next
  | dequeue => .dequeue
  | peek => .lookahead 1
  | lookahead n => .lookahead n
  | skip n => .skip n
  | skipWhile accepts => .skipWhile accepts
  | skipKinds kinds => .skipWhile fun _ t => kinds.contains t.kind
  | skipTo kind => .skipTo kind

/-- The tokens that a reply hands over; one that was only looked at is not handed over. -/
def handed : (c : StreamCall) → c.request.Reply → List Token
  | next, t? => t?.toList
  | dequeue, t? => t?.toList
  | peek, _ => []
  | lookahead _, _ => []
  | skip _, ts => ts
  | skipWhile _, ts => ts
  | skipKinds _, ts => ts
  | skipTo _, ts => ts

variable (call : Handler → LexM (Option Token)) (bound : Nat)

/-- Serves calls in order, each from where the one before left the machine, also by failing. -/
def serveAll : List StreamCall → Machine → Option (List (Except LexError (List Token)) × Machine)
  | [], m => some ([], m)
  | c :: cs, m => do
    let (r, m) ← c.request.serve call bound m
    let (rs, m) ← serveAll cs m
    return (r.map c.handed :: rs, m)

def traced : (c : StreamCall) → Traced c.request.Reply
  | next => Traced.next call
  | dequeue => Traced.dequeue
  | peek => Traced.lookahead call 1
  | lookahead n => Traced.lookahead call n
  | skip n => Traced.skipOnto call n []
  | skipWhile accepts => Traced.skipWhileOnto call accepts bound []
  | skipKinds kinds => Traced.skipWhileOnto call (fun _ t => kinds.contains t.kind) bound []
  | skipTo kind => Traced.skipTo call bound kind

def traceAll : List StreamCall → Machine →
    Option (List (Except LexError (List Token) × List Move) × Machine)
  | [], m => some ([], m)
  | c :: cs, m => do
    let (r, moves, m) ← c.traced call bound m
    let (log, m) ← traceAll cs m
    return ((r.map c.handed, moves) :: log, m)

theorem value_traced (c : StreamCall) :
    (c.traced call bound).value = c.request.serve call bound := by
  cases c with
  | next => exact Traced.value_next call
  | dequeue => exact Traced.value_dequeue
  | peek => exact Traced.value_lookahead call 1
  | lookahead n => exact Traced.value_lookahead call n
  | skip n => exact (Traced.source call).value_skipOnto n []
  | skipWhile accepts => exact Traced.value_skipWhileOnto call accepts bound []
  | skipKinds kinds => exact Traced.value_skipWhileOnto call _ bound []
  | skipTo kind => exact (Traced.source call).value_skipTo bound kind

theorem balances_traced (c : StreamCall) : (c.traced call bound).Balances call := by
  cases c with
  | next => exact .next
  | dequeue => exact .dequeue
  | peek => exact .lookahead 1
  | lookahead n => exact .lookahead n
  | skip n => exact .skipOnto n []
  | skipWhile accepts => exact .skipWhileOnto accepts bound []
  | skipKinds kinds => exact .skipWhileOnto _ bound []
  | skipTo kind => exact .skipTo bound kind

end StreamCall

namespace Traced

variable {call : Handler → LexM (Option Token)} {m n : Machine} {moves : List Move}

theorem taken_of_next {r : Except LexError (Option Token)}
    (h : next call m = some (r, moves, n)) : taken moves = r.toOption.join.toList := by
  cases hq : m.queue with
  | cons t queue =>
    rw [next_of_queue_cons hq] at h
    obtain ⟨rfl, rfl, rfl⟩ := h
    rfl
  | nil =>
    rw [next_of_queue_nil hq, Option.map_eq_some_iff] at h
    obtain ⟨⟨r, k⟩, -, he⟩ := h
    obtain ⟨rfl, rfl, rfl⟩ := he
    rcases r with e | _ | t <;> rfl

theorem taken_next {t? : Option Token} (h : next call m = some (.ok t?, moves, n)) :
    taken moves = t?.toList := taken_of_next h

theorem taken_dequeue {t? : Option Token} (h : dequeue m = some (.ok t?, moves, n)) :
    taken moves = t?.toList := by
  rw [dequeue_apply] at h
  obtain ⟨rfl, rfl, rfl⟩ := h
  cases m.queue <;> rfl

theorem taken_lookahead {count : Nat} {r : Except LexError (Option Token)}
    (h : lookahead call count m = some (r, moves, n)) : taken moves = [] := by
  apply lookahead_rec (P := fun _ moves _ => taken moves = []) (fun _ => rfl) ?_ (fun _ => rfl) h
  intro m n k a b ha hb
  rw [Move.taken_append, ha, hb, List.append_nil]

theorem taken_skipOnto {count : Nat} {before ts : List Token}
    (h : skipOnto call count before m = some (.ok ts, moves, n)) :
    ts = before.reverse ++ taken moves := by
  induction count generalizing before m moves with
  | zero =>
    obtain ⟨rfl, rfl, rfl⟩ := h
    simp
  | succ count ih =>
    obtain ⟨t?, first, k, more, hn, h, rfl⟩ := bind_eq_ok_iff.1 h
    have ht := taken_next hn
    cases t? with
    | none =>
      obtain ⟨rfl, rfl, rfl⟩ := h
      simp [ht]
    | some t => simp [ih h, ht]

theorem taken_skipWhileOnto {accepts : List Token → Token → Bool} {bound : Nat}
    {before ts : List Token}
    (h : skipWhileOnto call accepts bound before m = some (.ok ts, moves, n)) :
    ts = before.reverse ++ taken moves := by
  induction bound generalizing before m moves with
  | zero => cases h
  | succ bound ih =>
    obtain ⟨t?, first, k, more, hl, h, rfl⟩ := bind_eq_ok_iff.1 h
    have hpeek := taken_lookahead hl
    cases t? with
    | none =>
      obtain ⟨rfl, rfl, rfl⟩ := h
      simp [hpeek]
    | some t =>
      obtain ⟨_, second, k', rest, hm, h, rfl⟩ := bind_eq_ok_iff.1 h
      obtain ⟨-, rfl, rfl⟩ := hm
      split at h
      · obtain ⟨t?, third, k'', rest, hn, h, rfl⟩ := bind_eq_ok_iff.1 h
        have ht := taken_next hn
        cases t? with
        | none => simp [ih h, hpeek, ht]
        | some t => simp [ih h, hpeek, ht]
      · obtain ⟨rfl, rfl, rfl⟩ := h
        simp [hpeek]

theorem taken_skipTo {bound : Nat} {kind : String} {ts : List Token}
    (h : skipTo call bound kind m = some (.ok ts, moves, n)) : ts = taken moves := by
  obtain ⟨before, first, k, more, hs, hrest, rfl⟩ := bind_eq_ok_iff.1 h
  obtain ⟨t?, second, k', rest, hn, hlast, rfl⟩ := bind_eq_ok_iff.1 hrest
  have hbefore := taken_skipWhileOnto hs
  have ht := taken_next hn
  cases t? with
  | none =>
    obtain ⟨rfl, rfl, rfl⟩ := hlast
    simp [hbefore, ht]
  | some t =>
    obtain ⟨rfl, rfl, rfl⟩ := hlast
    simp [hbefore, ht]

end Traced

namespace StreamCall

variable {call : Handler → LexM (Option Token)} {bound : Nat} {m n : Machine}

/-- A call that succeeds takes just what it hands over. -/
theorem taken_traced {c : StreamCall} {reply : c.request.Reply} {moves : List Move}
    (h : c.traced call bound m = some (.ok reply, moves, n)) : taken moves = c.handed reply := by
  cases c with
  | next => exact Traced.taken_next h
  | dequeue => exact Traced.taken_dequeue h
  | peek => exact Traced.taken_lookahead h
  | lookahead n => exact Traced.taken_lookahead h
  | skip n => exact (Traced.taken_skipOnto h).symm
  | skipWhile accepts => exact (Traced.taken_skipWhileOnto h).symm
  | skipKinds kinds => exact (Traced.taken_skipWhileOnto h).symm
  | skipTo kind => exact (Traced.taken_skipTo h).symm

theorem exists_traced {c : StreamCall} {r : Except LexError c.request.Reply}
    (h : c.request.serve call bound m = some (r, n)) :
    ∃ moves, c.traced call bound m = some (r, moves, n) := by
  rw [← value_traced] at h
  exact Traced.exists_of_value h

/-- Looking ahead conserves tokens. A run of calls has moves, with those of each call that succeeds
taking just what the call hands over, such that the machine apart from its queue is reached by as
many advances as are among them, and the tokens they take, followed by those that wait at the end,
are those that waited at first followed by those of the advances. -/
theorem tokens_conserved {calls : List StreamCall} {results : List (Except LexError (List Token))}
    (h : serveAll call bound calls m = some (results, n)) :
    ∃ log, traceAll call bound calls m = some (log, n) ∧ log.map Prod.fst = results ∧
      (∀ entry ∈ log, ∀ ts, entry.1 = .ok ts → taken entry.2 = ts) ∧
      ∃ draws, draws = Move.draws (log.flatMap Prod.snd) ∧
        LexM.draws call draws.length m.aside = some (draws, n.aside) ∧
        taken (log.flatMap Prod.snd) ++ n.queue = m.queue ++ draws.flatMap Draw.tokens := by
  suffices hs : ∃ log, traceAll call bound calls m = some (log, n) ∧ log.map Prod.fst = results ∧
      (∀ entry ∈ log, ∀ ts, entry.1 = .ok ts → taken entry.2 = ts) ∧
      Balanced call m (log.flatMap Prod.snd) n by
    obtain ⟨log, ht, hr, hok, hb⟩ := hs
    exact ⟨log, ht, hr, hok, _, rfl, hb.reached, hb.conserved⟩
  -- Balanced moves compose, so each call only adds its own.
  induction calls generalizing m results with
  | nil =>
    obtain ⟨rfl, rfl⟩ := Prod.mk.inj (Option.some.inj h)
    exact ⟨[], rfl, rfl, by simp, .refl call m⟩
  | cons c cs ih =>
    simp only [serveAll, Option.bind_eq_bind, Option.bind_eq_some_iff, Prod.exists] at h
    obtain ⟨r, k, hc, rs, n', hcs, he⟩ := h
    obtain ⟨rfl, rfl⟩ := Prod.mk.inj (Option.some.inj he)
    obtain ⟨moves, ht⟩ := exists_traced hc
    obtain ⟨log, hlog, hr, hok, hb⟩ := ih hcs
    refine ⟨(r.map c.handed, moves) :: log, ?_, ?_, ?_, ?_⟩
    · simp [traceAll, ht, hlog]
    · simp [hr]
    · intro entry hmem ts hts
      rcases List.mem_cons.1 hmem with rfl | hmem
      · cases r with
        | error e => cases hts
        | ok reply =>
          obtain rfl := Except.ok.inj hts
          exact taken_traced ht
      · exact hok entry hmem ts hts
    · rw [List.flatMap_cons]
      exact (balances_traced call bound c ht).trans hb

/-- Two letters, the first of which looks ahead before it is made. -/
def twoLetters : Machine :=
  .fresh "ab!" [
    ("a", .ofPatternWith "a" (.letter 'a') fun t => do
      let _ ← Program.request (.lookahead 1)
      return some t),
    ("b", .ofPattern "b" (.letter 'b'))]

/-- The skip fails behind a token that it has taken. -/
theorem tokens_conserved_past_failure :
    ∃ results n,
      serveAll (Handler.call 3) 3 [.peek, .next, .skip 2] twoLetters = some (results, n) ∧
      results.map (fun r => r.toOption.map (·.map (·.kind))) = [some [], some ["a"], none] ∧
      ∃ log, traceAll (Handler.call 3) 3 [.peek, .next, .skip 2] twoLetters = some (log, n) ∧
        log.map Prod.fst = results ∧
        (∀ entry ∈ log, ∀ ts, entry.1 = .ok ts → taken entry.2 = ts) ∧
        ∃ draws, draws = Move.draws (log.flatMap Prod.snd) ∧
          LexM.draws (Handler.call 3) draws.length twoLetters.aside = some (draws, n.aside) ∧
          taken (log.flatMap Prod.snd) ++ n.queue =
            twoLetters.queue ++ draws.flatMap Draw.tokens := by
  have hr : (serveAll (Handler.call 3) 3 [.peek, .next, .skip 2] twoLetters).map
      (fun (results, _) => results.map fun r => r.toOption.map (·.map (·.kind))) =
        some [some [], some ["a"], none] := by decide +kernel
  obtain ⟨⟨results, n⟩, hs, hkinds⟩ := Option.map_eq_some_iff.1 hr
  exact ⟨results, n, hs, hkinds, tokens_conserved hs⟩

end StreamCall

end ModularLexer
