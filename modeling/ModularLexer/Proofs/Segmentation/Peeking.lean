import ModularLexer.Proofs.Segmentation.Drawing

/-!
Looking ahead in handlers does not change what is lexed. A lexer of captured patterns that tokenizes
an input to some tokens still does when handlers look ahead before they hand their tokens on, and so
does one whose tokens are pulled one by one with looks ahead in between. Each token is derived once,
and its handler sees the token that stands as far behind it as it looks.
-/
namespace ModularLexer

inductive Pull where
  | next
  | lookahead (n : Nat)

namespace Pull

/-- What a call gives when these tokens are to come. -/
def reply (coming : List Token) : Pull → Except LexError (Option Token)
  | next => .ok coming.head?
  | lookahead 0 => .error .lookahead
  | lookahead (n + 1) => .ok coming[n]?

def after (coming : List Token) : Pull → List Token
  | next => coming.tail
  | lookahead _ => coming

def replies : List Token → List Pull → List (Except LexError (Option Token))
  | _, [] => []
  | coming, c :: cs => c.reply coming :: replies (c.after coming) cs

def serve (call : Handler → LexM (Option Token)) : Pull → LexM (Option Token)
  | next => LexM.next call
  | lookahead n => LexM.lookahead call n

/-- Serves calls in order, each from where the one before left the machine. -/
def serveAll (call : Handler → LexM (Option Token)) :
    List Pull → LexM (List (Except LexError (Option Token)))
  | [] => return []
  | c :: cs => do
    let r ← LexM.attempt (c.serve call)
    let rs ← serveAll call cs
    return r :: rs

def watched (call : Handler → Watched (Option Token)) : Pull → Watched (Option Token)
  | next => Watched.next call
  | lookahead n => Watched.lookahead call n

def watchAll (call : Handler → Watched (Option Token)) :
    List Pull → Watched (List (Except LexError (Option Token)))
  | [] => return []
  | c :: cs => do
    let r ← Watched.attempt (c.watched call)
    let rs ← watchAll call cs
    return r :: rs

variable (call : Handler → Watched (Option Token))

theorem value_watched (c : Pull) : (c.watched call).value = c.serve fun h => (call h).value := by
  cases c with
  | next => exact Watched.value_next call
  | lookahead n => exact Watched.value_lookahead call n

theorem value_watchAll (cs : List Pull) :
    (watchAll call cs).value = serveAll (fun h => (call h).value) cs := by
  induction cs with
  | nil => rfl
  | cons c cs ih =>
    simp only [watchAll, serveAll, Watched.value_bind, Watched.value_attempt, value_watched, ih,
      Watched.value_pure]

end Pull

namespace Segmentation

namespace Plan

variable {P : Plan} {drawn coming waiting listed : List Token} {m : Machine} {depth bound : Nat}

/-- Moving all tokens to the list draws the stream to its end. -/
theorem pushAll_draws (h : P.Advances depth) (hm : P.At drawn coming waiting listed m)
    (hdepth : coming.length < depth) (hbound : (waiting ++ coming).length < bound) :
    ∃ sights n, Watched.pushAll (Handler.watched depth) bound m = (sights, some (.ok (), n)) ∧
      P.Draws drawn coming [] [] (listed ++ (waiting ++ coming)) sights n := by
  induction bound generalizing drawn coming waiting listed m with
  | zero => cases hbound
  | succ bound ih =>
    obtain ⟨ts, later, sights, n, rfl, hnext, hdraws, hend⟩ := next_draws h hm hdepth
    cases hqueue : waiting ++ ts with
    | nil =>
      obtain rfl := hend hqueue
      obtain ⟨rfl, rfl⟩ := List.append_eq_nil_iff.1 hqueue
      refine ⟨sights, n, Watched.pushAll_of_none hnext, ?_⟩
      simpa using hdraws
    | cons t others =>
      have hall : waiting ++ (ts ++ later) = t :: (others ++ later) := by
        rw [← List.append_assoc, hqueue, List.cons_append]
      rw [hall] at hnext hbound ⊢
      rw [hqueue] at hdraws
      obtain ⟨k, hpush, hk⟩ := hdraws.place.push t
      have hlater : later.length < depth := by
        rw [List.length_append] at hdepth
        omega
      obtain ⟨more, j, hmore, hlast⟩ := ih hk hlater (Nat.lt_of_succ_lt_succ hbound)
      refine ⟨sights ++ more, j, ?_, ?_⟩
      · rw [Watched.pushAll_of_token hnext hpush, hmore]
      · have hjoined := Draws.trans ⟨hk, hdraws.accounts⟩ hlast
        rwa [List.append_assoc, List.singleton_append] at hjoined

/-- Lexing all that is left gives the tokens that wait and the stream. -/
theorem lex_draws (h : P.Advances depth) (hm : P.At drawn coming waiting [] m)
    (hdepth : coming.length < depth) (hbound : (waiting ++ coming).length < bound) :
    ∃ sights n, Watched.lex (Handler.watched depth) bound m =
        (sights, some (.ok (waiting ++ coming), n)) ∧
      P.Draws drawn coming [] [] (waiting ++ coming) sights n := by
  obtain ⟨sights, n, hpush, hdraws⟩ := pushAll_draws h hm hdepth hbound
  rw [List.nil_append] at hdraws
  have htokens : n.lexer.pass.tokens.toList = waiting ++ coming := hdraws.place.tokens
  have hlast : (Watched.lift LexM.pass >>= fun p => Pure.pure p.tokens.toList) n =
      ([], some (.ok (waiting ++ coming), n)) := by
    rw [← htokens]
    rfl
  refine ⟨sights, n, ?_, hdraws⟩
  simp only [Watched.lex, Source.lex, Watched.recording_lift]
  rw [Watched.bind_of_ok hpush, Watched.lift_bind_of_ok (LexM.pass_apply n)]
  by_cases hrest : n.lexer.pass.rest = []
  · have hfinish := LexM.finish_of_complete hrest hdraws.place.stack
    rw [if_pos (List.isEmpty_iff.2 hrest), Watched.lift_bind_of_ok hfinish, hlast, List.append_nil]
  · have hleft : ¬n.lexer.pass.rest.isEmpty = true := fun h => hrest (List.isEmpty_iff.1 h)
    rw [if_neg hleft, hlast, List.append_nil]

/-- A machine at the start of the input, where all of the stream is to come. -/
theorem at_start (hregistry : m.lexer.registry = P.registry)
    (hoptions : m.lexer.options = P.options) :
    P.At [] P.whole.tokens [] [] (m.withPass (.start P.input)) where
  place := ⟨[], ⟨hregistry, hoptions, rfl, rfl, rfl⟩, rfl⟩
  stream := rfl
  queue := rfl
  tokens := rfl
  stack := rfl

/-- There are at most as many tokens as characters. -/
theorem length_outcome_le (before rest : Text) :
    (P.outcome before rest).tokens.length ≤ rest.length := by
  unfold outcome
  cases P.options.mode with
  | token =>
    dsimp only
    fun_induction segment P.patterns P.options.source P.input before rest with
    | case1 before => exact Nat.le_refl 0
    | case2 before rest hrest e hm => exact Nat.zero_le _
    | case3 before rest hrest hm => exact Nat.zero_le _
    | case4 before rest hrest kind groups hm ih =>
      obtain ⟨hne, hstarts⟩ := of_firstMatch_eq_some hm
      have hlt := length_drop_lt hne hstarts
      exact Nat.lt_of_le_of_lt ih hlt
  | character =>
    induction rest generalizing before with
    | nil => exact Nat.le_refl 0
    | cons c rest ih => exact Nat.succ_le_succ (ih (before ++ [c]))

theorem tokenize_draws (hopen : P.Open) (hregistry : m.lexer.registry = P.registry)
    (hoptions : m.lexer.options = P.options) (hdepth : P.input.length < depth)
    (hbound : P.input.length < bound) :
    ∃ sights n, Watched.tokenize (Handler.watched depth) bound P.input m =
        (sights, some (.ok P.whole.tokens, n)) ∧
      Accounts sights P.whole.tokens (P.looked 0 P.whole.tokens) := by
  have hlength : P.whole.tokens.length ≤ P.input.length := length_outcome_le [] P.input
  have hinit : LexM.init P.input m = some (.ok (), m.withPass (.start P.input)) := rfl
  obtain ⟨sights, n, hlex, hdraws⟩ := lex_draws (P.advances hopen depth)
    (at_start hregistry hoptions) (Nat.lt_of_le_of_lt hlength hdepth)
    (Nat.lt_of_le_of_lt hlength hbound)
  refine ⟨sights, n, ?_, hdraws.accounts⟩
  rw [Watched.tokenize, Source.tokenize, Watched.recording_lift, Watched.lift_bind_of_ok hinit]
  exact hlex

/-- A call gives what is to come, and draws some of it. -/
theorem watched_draws (h : P.Advances depth) (hm : P.At drawn coming waiting listed m)
    (hdepth : coming.length < depth) (c : Pull) :
    ∃ ts later waiting' sights n, coming = ts ++ later ∧
      c.after (waiting ++ coming) = waiting' ++ later ∧
      Watched.attempt (c.watched (Handler.watched depth)) m =
        (sights, some (.ok (c.reply (waiting ++ coming)), n)) ∧
      P.Draws drawn ts later waiting' listed sights n := by
  cases c with
  | next =>
    obtain ⟨ts, later, sights, n, rfl, hnext, hdraws, hend⟩ := next_draws h hm hdepth
    refine ⟨ts, later, _, sights, n, rfl, ?_, Watched.attempt_of_some hnext, hdraws⟩
    show (waiting ++ (ts ++ later)).tail = _
    rw [← List.append_assoc]
    cases hqueue : waiting ++ ts with
    | nil =>
      rw [hend hqueue]
      rfl
    | cons t others => rfl
  | lookahead n =>
    by_cases hn : n = 0
    · subst hn
      exact ⟨[], coming, waiting, [], m, rfl, rfl, rfl, .refl hm⟩
    · obtain ⟨count, rfl⟩ := Nat.exists_eq_succ_of_ne_zero hn
      obtain ⟨ts, later, sights, k, rfl, hlook, hdraws⟩ := lookahead_draws h hn hm hdepth
      exact ⟨ts, later, _, sights, k, rfl, (List.append_assoc ..).symm,
        Watched.attempt_of_some hlook, hdraws⟩

theorem watchAll_draws (h : P.Advances depth) (hm : P.At drawn coming waiting listed m)
    (hdepth : coming.length < depth) (cs : List Pull) :
    ∃ ts later waiting' sights n, coming = ts ++ later ∧
      Pull.watchAll (Handler.watched depth) cs m =
        (sights, some (.ok (Pull.replies (waiting ++ coming) cs), n)) ∧
      P.Draws drawn ts later waiting' listed sights n := by
  induction cs generalizing drawn coming waiting m with
  | nil => exact ⟨[], coming, waiting, [], m, rfl, rfl, .refl hm⟩
  | cons c cs ih =>
    obtain ⟨ts, later, waiting', sights, n, rfl, hafter, hfirst, hdraws⟩ :=
      watched_draws h hm hdepth c
    have hlater : later.length < depth := by
      rw [List.length_append] at hdepth
      omega
    obtain ⟨us, last, waiting'', more, k, rfl, hothers, hmore⟩ := ih hdraws.place hlater
    refine ⟨ts ++ us, last, waiting'', sights ++ more, k, (List.append_assoc ..).symm, ?_,
      hdraws.trans hmore⟩
    rw [Pull.watchAll, Watched.bind_of_ok hfirst, Pull.replies, hafter, Watched.bind_of_ok hothers]
    exact congrArg (fun all => (sights ++ all, _)) (List.append_nil more)

end Plan

theorem failure_characters (source : Option String) (before rest : Text) :
    (characters source before rest).failure = none := by
  induction rest generalizing before with
  | nil => rfl
  | cons c rest ih => exact ih (before ++ [c])

variable {captures : List (String × Pattern)} {m k : Machine} {input : Text} {ts : List Token}
  {depth bound : Nat}

theorem tokenize_of_watched {sights : List Sight} {r : Except LexError (List Token)}
    (h : Watched.tokenize (Handler.watched depth) bound input m = (sights, some (r, k))) :
    LexM.tokenize (Handler.call depth) bound input m = some (r, k) := by
  have hvalue : (Watched.tokenize (Handler.watched depth) bound input).value m = some (r, k) :=
    congrArg Prod.snd h
  rwa [Watched.value_tokenize, Handler.value_watched] at hvalue

theorem serveAll_of_watched {cs : List Pull} {sights : List Sight}
    {r : Except LexError (List (Except LexError (Option Token)))}
    (h : Pull.watchAll (Handler.watched depth) cs m = (sights, some (r, k))) :
    Pull.serveAll (Handler.call depth) cs m = some (r, k) := by
  have hvalue : (Pull.watchAll (Handler.watched depth) cs).value m = some (r, k) :=
    congrArg Prod.snd h
  rwa [Pull.value_watchAll, Handler.value_watched] at hvalue

abbrev peekingMachine (m : Machine) (captures : List (String × Pattern)) (ahead : String → Nat) :
    Machine :=
  m.withHandlers (captures.map fun (kind, p) => (kind, .peeking (ahead kind) kind p))

def planOf (m : Machine) (captures : List (String × Pattern)) (ahead : String → Nat)
    (input : Text) : Plan :=
  ⟨(Registry.ofList captures).entries, ahead, m.lexer.options, input⟩

theorem registry_peekingMachine (ahead : String → Nat) :
    (peekingMachine m captures ahead).lexer.registry = (planOf m captures ahead input).registry :=
  Registry.ofList_map (fun kind p => Handler.peeking (ahead kind) kind p) captures

/-- Where patterns without looks ahead tokenize an input, nothing is in the way. -/
theorem open_of_tokenize (hdepth : input.length < depth) (hbound : input.length < bound)
    (h : LexM.tokenize (Handler.call depth) bound input
      (m.withHandlers (captures.map fun (kind, p) => (kind, .ofPattern kind p))) =
        some (.ok ts, k)) (ahead : String → Nat) : (planOf m captures ahead input).Open := by
  cases hquiet : m.lexer.options.hooks.onError with
  | true => exact .inl hquiet
  | false =>
    right
    cases hmode : m.lexer.options.mode with
    | character =>
      simp only [Plan.whole, Plan.outcome, planOf, hmode]
      exact failure_characters _ _ _
    | token =>
      obtain ⟨depth, rfl⟩ := Nat.exists_eq_succ_of_ne_zero (Nat.ne_of_gt (Nat.zero_lt_of_lt hdepth))
      obtain ⟨n, hrun, -⟩ := tokenize_eq_segment captures depth hmode hquiet hbound rfl
      have hresult := (Prod.mk.inj (Option.some.inj (hrun.symm.trans h))).1
      simp only [Plan.whole, Plan.outcome, planOf, hmode]
      exact (Outcome.result_eq_ok_iff.1 hresult).2

/-- Without looks ahead the tokens are those of the stream. -/
theorem whole_of_tokenize (hdepth : input.length < depth) (hbound : input.length < bound)
    (h : LexM.tokenize (Handler.call depth) bound input
      (m.withHandlers (captures.map fun (kind, p) => (kind, .ofPattern kind p))) =
        some (.ok ts, k)) (ahead : String → Nat) :
    (planOf m captures ahead input).whole.tokens = ts := by
  have hopen := open_of_tokenize hdepth hbound h fun _ => 0
  obtain ⟨sights, n, hrun, -⟩ :=
    Plan.tokenize_draws hopen (registry_peekingMachine fun _ => 0) rfl hdepth hbound
  have hsame := (tokenize_of_watched hrun).symm.trans h
  cases hsame
  rfl

/-- Where captured patterns tokenize an input, so do they when their handlers look ahead before they
hand their tokens on: to the same tokens, each of which is derived once, with one look ahead that
shows the token so many places behind it. The same holds of all tokens that are drawn when they are
pulled one by one, in any order of taking them and looking ahead. -/
theorem tokenize_peeking (hdepth : input.length < depth) (hbound : input.length < bound)
    (hplain : LexM.tokenize (Handler.call depth) bound input
      (m.withHandlers (captures.map fun (kind, p) => (kind, .ofPattern kind p))) =
        some (.ok ts, k)) (ahead : String → Nat) :
    (∃ n, LexM.tokenize (Handler.call depth) bound input (peekingMachine m captures ahead) =
        some (.ok ts, n)) ∧
      Accounts
        (Watched.tokenize (Handler.watched depth) bound input (peekingMachine m captures ahead)).1
        ts (looks (reach m.lexer.options.mode ahead) ts 0 ts) ∧
      ∀ cs : List Pull, ∃ drawn later n, ts = drawn ++ later ∧
        Pull.serveAll (Handler.call depth) cs
            ((peekingMachine m captures ahead).withPass (.start input)) =
          some (.ok (Pull.replies ts cs), n) ∧
        Accounts
          (Pull.watchAll (Handler.watched depth) cs
            ((peekingMachine m captures ahead).withPass (.start input))).1
          drawn (looks (reach m.lexer.options.mode ahead) ts 0 drawn) := by
  have hopen := open_of_tokenize hdepth hbound hplain ahead
  have hregistry : (peekingMachine m captures ahead).lexer.registry =
      (planOf m captures ahead input).registry := registry_peekingMachine ahead
  obtain rfl := whole_of_tokenize hdepth hbound hplain ahead
  obtain ⟨sights, n, hrun, haccounts⟩ :=
    Plan.tokenize_draws hopen hregistry rfl hdepth hbound
  refine ⟨⟨n, tokenize_of_watched hrun⟩, ?_, ?_⟩
  · have hsights : (Watched.tokenize (Handler.watched depth) bound input
        (peekingMachine m captures ahead)).1 = sights := congrArg Prod.fst hrun
    rw [hsights]
    exact haccounts
  · intro cs
    have hcoming := Nat.lt_of_le_of_lt
      ((planOf m captures ahead input).length_outcome_le [] input) hdepth
    obtain ⟨drawn, later, waiting, sights, n, hstream, hserve, hdraws⟩ :=
      Plan.watchAll_draws (Plan.advances hopen depth) (Plan.at_start hregistry rfl) hcoming cs
    refine ⟨drawn, later, n, hstream, serveAll_of_watched hserve, ?_⟩
    have hsights : (Pull.watchAll (Handler.watched depth) cs
        ((peekingMachine m captures ahead).withPass (.start input))).1 = sights :=
      congrArg Prod.fst hserve
    rw [hsights]
    exact hdraws.accounts

def letterKinds : List (String × Pattern) := [("a", .letter 'a'), ("b", .letter 'b')]

/-- Behind each a two tokens are looked ahead, behind each b one. -/
def letterReach (kind : String) : Nat := if kind = "a" then 2 else 1

theorem tokenize_peeking_letters :
    "aba".toList.length < 4 ∧
      ∃ ts k, LexM.tokenize (Handler.call 4) 4 "aba".toList
          ((Machine.fresh "" []).withHandlers
            (letterKinds.map fun (kind, p) => (kind, .ofPattern kind p))) = some (.ok ts, k) ∧
        ts.map (·.kind) = ["a", "b", "a"] ∧
        (∃ n, LexM.tokenize (Handler.call 4) 4 "aba".toList
          (peekingMachine (.fresh "" []) letterKinds letterReach) = some (.ok ts, n)) ∧
        Accounts
          (Watched.tokenize (Handler.watched 4) 4 "aba".toList
            (peekingMachine (.fresh "" []) letterKinds letterReach)).1
          ts (looks letterReach ts 0 ts) ∧
        ∃ drawn later n, ts = drawn ++ later ∧
          Pull.serveAll (Handler.call 4) [.lookahead 1, .next, .lookahead 3]
              ((peekingMachine (.fresh "" []) letterKinds letterReach).withPass
                (.start "aba".toList)) =
            some (.ok [.ok ts[0]?, .ok ts[0]?, .ok none], n) ∧
          Accounts
            (Pull.watchAll (Handler.watched 4) [.lookahead 1, .next, .lookahead 3]
              ((peekingMachine (.fresh "" []) letterKinds letterReach).withPass
                (.start "aba".toList))).1
            drawn (looks letterReach ts 0 drawn) := by
  have hlength : "aba".toList.length < 4 := by decide
  have hshown : LexM.shown (LexM.tokenize (Handler.call 4) 4 "aba".toList)
      ((Machine.fresh "" []).withHandlers
        (letterKinds.map fun (kind, p) => (kind, .ofPattern kind p)))
      (·.map (·.kind)) (fun _ => ()) = some (some ["a", "b", "a"], ()) := by decide +kernel
  obtain ⟨ts, k, hplain, hkinds, -⟩ := LexM.exists_of_shown hshown
  obtain ⟨hsame, haccounts, hpulls⟩ := tokenize_peeking hlength hlength hplain letterReach
  obtain ⟨drawn, later, n, hdrawn, hserve, hseen⟩ := hpulls [.lookahead 1, .next, .lookahead 3]
  have hreplies : Pull.replies ts [.lookahead 1, .next, .lookahead 3] =
      [.ok ts[0]?, .ok ts[0]?, .ok none] := by
    have hthree : ts.length = 3 := by
      rw [← List.length_map (·.kind), hkinds]
      rfl
    match ts, hthree with
    | [_, _, _], _ => rfl
  rw [hreplies] at hserve
  exact ⟨hlength, ts, k, hplain, hkinds, hsame, haccounts, drawn, later, n, hdrawn, hserve, hseen⟩

end Segmentation

end ModularLexer
