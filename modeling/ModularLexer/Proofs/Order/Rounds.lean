import ModularLexer.Proofs.Order.Spans
import ModularLexer.Proofs.Runs.Evaluation
import ModularLexer.Proofs.Segmentation.Matching
import ModularLexer.Proofs.Stream.Conservation

/-!
Rounds of handlers that match a pattern, look ahead and then keep their token or drop it. What
waits when a handler is tried was left there by one that was tried before it and dropped its token.
A token that is made then comes out before what waits, although it lies behind it.
-/
namespace ModularLexer

namespace Program

/-- Whether a program does nothing but look ahead, and then ends with a token or without, or with an
error. -/
def Chooses (t : Token) : Program Handler (Option Token) → Prop
  | done t? => t? = some t ∨ t? = none
  | fail _ => True
  | ask request next => (∃ n, request = .lookahead n) ∧ ∀ reply, (next reply).Chooses t
  | set _ _ _ => False
  | fork _ _ _ => False

def Keeps : Program Handler (Option Token) → Prop
  | done t? => t? ≠ none
  | fail _ => True
  | ask _ next => ∀ reply, (next reply).Keeps
  | set _ _ next => next.Keeps
  | fork _ _ next => ∀ outcome view, (next outcome view).Keeps

/-- Whether a program never ends without a token once it has looked ahead. -/
def Faithful : Program Handler (Option Token) → Prop
  | done _ => True
  | fail _ => True
  | ask request next => ∀ reply, (next reply).Faithful ∧
    ((∃ n, request = .lookahead n) → (next reply).Keeps)
  | set _ _ next => next.Faithful
  | fork _ _ next => ∀ outcome view, (next outcome view).Faithful

end Program

/-- Whether a handler is a captured pattern of a kind, perhaps with a transform that only looks
ahead and then keeps its token or drops it. -/
def Handler.Chooses (kind : String) (h : Handler) : Prop :=
  (∃ p, h = .ofPattern kind p) ∨
    ∃ p transform, h = .ofPatternWith kind p transform ∧ ∀ t, (transform t).Chooses t

namespace Handler

variable {kind : String} {p : Pattern} {transform : Token → Program Handler (Option Token)}

theorem faithful_ofPattern (kind : String) (p : Pattern) : (ofPattern kind p).program.Faithful := by
  intro reply
  refine ⟨?_, fun ⟨_, hne⟩ => nomatch hne⟩
  cases reply <;> trivial

/-- A handler is faithful if its transform is, since scanning is not looking ahead. -/
theorem faithful_ofPatternWith (h : ∀ t, (transform t).Faithful) :
    (ofPatternWith kind p transform).program.Faithful := by
  intro reply
  refine ⟨?_, fun ⟨_, hne⟩ => nomatch hne⟩
  rcases reply with e | _ | t
  · trivial
  · trivial
  · exact h t

end Handler

namespace Machine

def place (m : Machine) : Nat := m.lexer.pass.position.index.toNat

/-- Whether every place from a machine to the end of the input is a word. -/
def Ample (m : Machine) : Prop := m.place + m.lexer.pass.rest.byteLength < UInt64.size

/-- They are at the start of an input that fits into memory. -/
theorem Ample.of_fits {m : Machine} {input : Text} (h : input.Fits)
    (hstart : m.lexer.pass = .start input) : m.Ample := by
  have hfits : input.byteLength < UInt64.size / 2 := h
  rw [Ample, place, hstart]
  show 0 + input.byteLength < UInt64.size
  omega

/-- All handlers only look ahead and choose; if all is tidy none drops its token after that. The
places ahead are words. -/
structure Choosing (tidy : Prop) (m : Machine) : Prop where
  handlers : ∀ entry ∈ m.lexer.registry.entries,
    entry.2.Chooses entry.1 ∧ (tidy → entry.2.program.Faithful)
  ample : m.Ample

structure Steady (m n : Machine) : Prop where
  registry : n.lexer.registry = m.lexer.registry
  tokens : n.lexer.pass.tokens = m.lexer.pass.tokens
  ample : m.Ample → n.Ample

/-- More tokens wait, those of the stretch of the input that was gone over. -/
structure Extends (tidy : Prop) (sights : List Sight) (more : List Token) (m n : Machine) :
    Prop where
  steady : m.Steady n
  queue : n.queue = m.queue ++ more
  spans : Spans tidy (matchesOf sights) m.place n.place more

variable {tidy : Prop} {m n k : Machine} {sights sights' : List Sight} {more more' : List Token}

namespace Steady

theorem refl (m : Machine) : m.Steady m := ⟨rfl, rfl, id⟩

theorem trans (h : m.Steady n) (h' : n.Steady k) : m.Steady k :=
  ⟨h'.registry.trans h.registry, h'.tokens.trans h.tokens, h'.ample ∘ h.ample⟩

theorem choosing (h : m.Steady n) (hm : m.Choosing tidy) : n.Choosing tidy := by
  refine ⟨?_, h.ample hm.ample⟩
  rw [h.registry]
  exact hm.handlers

end Steady

namespace Extends

theorem refl (m : Machine) : m.Extends tidy [] [] m :=
  ⟨.refl m, (List.append_nil _).symm, .nil _⟩

theorem trans (h : m.Extends tidy sights more n) (h' : n.Extends tidy sights' more' k) :
    m.Extends tidy (sights ++ sights') (more ++ more') k := by
  refine ⟨h.steady.trans h'.steady, ?_, ?_⟩
  · rw [h'.queue, h.queue, List.append_assoc]
  · rw [matchesOf_append]
    exact h.spans.append h'.spans

/-- What is seen besides matches makes no difference. -/
theorem of_matchesOf_eq (h : m.Extends tidy sights more n)
    (he : matchesOf sights' = matchesOf sights) : m.Extends tidy sights' more n :=
  ⟨h.steady, h.queue, he ▸ h.spans⟩

end Extends

end Machine

namespace LexM

variable {p : Pattern} {kind : String} {m n : Machine} {taken after : Text}

/-- A text that is consumed is a stretch of the input, and tokens located there lie in it. -/
theorem within_past (hm : m.Ample) (hrest : m.lexer.pass.rest = taken ++ after)
    (hlexer : n.lexer = { m.lexer with pass := m.lexer.pass.past taken after })
    (htaken : taken ≠ []) :
    m.Steady n ∧ n.queue = m.queue ∧ ∀ (t : Token) (source : Option String),
      t.location =
        some ⟨m.lexer.pass.position, (m.lexer.pass.past taken after).position, source⟩ →
      t.Within m.place n.place := by
  have hbytes : taken.byteLength ≠ 0 := fun hzero => htaken (Text.byteLength_eq_zero_iff.1 hzero)
  rw [Machine.Ample, hrest, Text.byteLength_append] at hm
  have hplace : n.place = m.place + taken.byteLength := by
    rw [Machine.place, hlexer]
    show (m.lexer.pass.position.index + .ofNat taken.byteLength).toNat = _
    have hroom : m.lexer.pass.position.index.toNat + taken.byteLength < UInt64.size := by
      rw [← Machine.place]
      omega
    exact Position.toNat_add_ofNat hroom
  have hafter : n.lexer.pass.rest = after := by rw [hlexer]; rfl
  have hqueue : n.queue = m.queue := by rw [Machine.queue, hlexer]; rfl
  refine ⟨⟨by rw [hlexer], by rw [hlexer]; rfl, fun _ => ?_⟩, hqueue, ?_⟩
  · rw [Machine.Ample, hplace, hafter]
    omega
  · intro t source ht
    have hstop : (m.lexer.pass.past taken after).position = n.lexer.pass.position := by rw [hlexer]
    refine ⟨_, ht, Nat.le_refl _, ?_, ?_⟩
    · rw [UInt64.lt_iff_toNat_lt, hstop]
      show m.place < n.place
      omega
    · rw [hstop]
      exact Nat.le_refl _

/-- A scan leaves the machine alone or makes a token of the stretch that it goes over. -/
theorem within_of_scan {r : Except LexError (Option Token)} (hm : m.Ample)
    (h : scan p kind m = some (r, n)) :
    (n = m ∧ (r = .ok none ∨ ∃ e, r = .error e)) ∨
      ∃ t, r = .ok (some t) ∧ t.kind = kind ∧ m.Steady n ∧ n.queue = m.queue ∧
        t.Within m.place n.place := by
  rcases hv : Segmentation.verdict p m.lexer.pass.rest with e | _ | groups
  · rw [scan_of_error kind hv] at h
    cases h
    exact .inl ⟨rfl, .inr ⟨e, rfl⟩⟩
  · rw [scan_of_none kind hv] at h
    cases h
    exact .inl ⟨rfl, .inl rfl⟩
  · obtain ⟨hfull, after, hafter⟩ := Segmentation.of_verdict_eq_some hv
    obtain ⟨k, hscan, hlexer⟩ := scan_of_match kind hv hafter.symm
    cases hscan.symm.trans h
    obtain ⟨hsteady, hqueue, hwithin⟩ := within_past hm hafter.symm hlexer hfull
    exact .inr ⟨_, rfl, rfl, hsteady, hqueue, hwithin _ _ rfl⟩

end LexM

namespace Watched

variable {tidy : Prop} {call : Handler → Watched (Option Token)} {m n : Machine}
  {sights : List Sight} {bound count : Nat}

def Peers (tidy : Prop) (call : Handler → Watched (Option Token)) : Prop :=
  ∀ ⦃count m sights r n⦄, m.Choosing tidy → lookahead call count m = (sights, some (r, n)) →
    ∃ more, m.Extends tidy sights more n

def Advances (tidy : Prop) (call : Handler → Watched (Option Token)) : Prop :=
  ∀ ⦃m sights r n⦄, m.Choosing tidy → m.queue = [] → advance call m = (sights, some (r, n)) →
    m.Steady n ∧ Spans tidy (matchesOf sights) m.place n.place (Draw.tokens ⟨r, n.queue⟩)

theorem extends_fill (hadvances : Advances tidy call) {r : Except LexError Unit}
    (hm : m.Choosing tidy) (h : fill call count bound m = (sights, some (r, n))) :
    ∃ more, m.Extends tidy sights more n := by
  induction bound generalizing m sights with
  | zero =>
    cases h
    exact ⟨[], .refl _⟩
  | succ bound ih =>
    rcases Nat.lt_or_ge m.queue.length count with hlt | hle
    · rw [fill_of_lt hlt] at h
      rcases ha : advance call (m.withQueue []) with ⟨front, _ | ⟨r', k⟩⟩
      · rw [ha] at h
        cases h
      · obtain ⟨hsteady, hspans⟩ :=
          hadvances (m := m.withQueue []) ⟨hm.handlers, hm.ample⟩ rfl ha
        have hextends (queue : List Token) (hqueue : queue = Draw.tokens ⟨r', k.queue⟩) :
            m.Extends tidy front queue (k.withQueue (m.queue ++ queue)) :=
          ⟨⟨hsteady.registry, hsteady.tokens, hsteady.ample⟩, rfl, hqueue ▸ hspans⟩
        rcases r' with e | _ | t
        · rw [ha] at h
          cases h
          exact ⟨_, hextends _ rfl⟩
        · rw [ha] at h
          cases h
          exact ⟨_, hextends _ rfl⟩
        · rw [ha] at h
          obtain ⟨rfl, hvalue⟩ := Prod.mk.inj h
          have hfirst := hextends _ rfl
          obtain ⟨more, hmore⟩ := ih (hfirst.steady.choosing hm) (Prod.ext rfl hvalue)
          exact ⟨_, hfirst.trans hmore⟩
    · rw [fill_of_le hle] at h
      cases h
      exact ⟨[], .refl _⟩

theorem Advances.peers (hadvances : Advances tidy call) : Peers tidy call := by
  intro count m sights r n hm h
  by_cases hcount : count = 0
  · rw [lookahead, Source.lookahead, if_pos hcount] at h
    cases h
    exact ⟨[], .refl _⟩
  · rw [lookahead, Source.lookahead, if_neg hcount, recording_lift,
      lift_bind_of_ok (LexM.pass_apply m)] at h
    rcases exists_of_bind h with ⟨_, k, front, back, hfill, hlast, rfl⟩ | ⟨e, hfill, -⟩
    · obtain ⟨hback, hend⟩ := Prod.mk.inj hlast
      obtain rfl : [] = back := hback
      cases hend
      rw [List.append_nil]
      exact extends_fill hadvances hm hfill
    · exact extends_fill hadvances hm hfill

/-- A computation that is tried in a round, behind what waits by then. It makes a token or leaves
what waits, and whatever comes of the round so far is a stretch of the input. -/
def Tries (tidy : Prop) (x : Watched (Option Token)) : Prop :=
  ∀ ⦃m sights r n made low⦄, m.Choosing tidy → Spans tidy made low m.place m.queue →
    (tidy → m.queue = []) → x m = (sights, some (r, n)) →
      m.Steady n ∧
        Spans tidy (made ++ matchesOf sights) low n.place (Draw.tokens ⟨r, n.queue⟩) ∧
        (tidy → r = .ok none → n.queue = [])

namespace Tries

/-- What does nothing may be tried. -/
theorem of_still {x : Watched (Option Token)}
    (hx : ∀ m, ∃ r, x m = ([], some (r, m)) ∧ (r = .ok none ∨ ∃ e, r = .error e)) :
    Tries tidy x := by
  intro m sights r n made low _ hspans hprompt h
  obtain ⟨r', hr', hnone⟩ := hx m
  cases hr'.symm.trans h
  refine ⟨.refl _, ?_, fun htidy _ => hprompt htidy⟩
  rw [matchesOf_nil, List.append_nil]
  rcases hnone with rfl | ⟨e, rfl⟩ <;> exact hspans

/-- Where no token was made another computation is tried. -/
theorem orElse {x y : Watched (Option Token)} (hx : Tries tidy x) (hy : Tries tidy y) :
    Tries tidy (x >>= fun
      | some t => Pure.pure (some t)
      | none => y) := by
  intro m sights r n made low hm hspans hprompt h
  rcases exists_of_bind h with ⟨t?, k, front, back, hk, hlast, rfl⟩ | ⟨e, he, rfl⟩
  · obtain ⟨hsteady, hround, hqueue⟩ := hx hm hspans hprompt hk
    cases t? with
    | some t =>
      cases hlast
      rw [List.append_nil]
      exact ⟨hsteady, hround, hqueue⟩
    | none =>
      obtain ⟨hsteady', hround', hqueue'⟩ :=
        hy (hsteady.choosing hm) hround (fun htidy => hqueue htidy rfl) hlast
      rw [matchesOf_append, ← List.append_assoc]
      exact ⟨hsteady.trans hsteady', hround', hqueue'⟩
  · obtain ⟨hsteady, hround, -⟩ := hx hm hspans hprompt he
    refine ⟨hsteady, hround, ?_⟩
    intro _ hne
    cases hne

end Tries

/-- The handlers of a round are tried in turn. -/
theorem tries_tryHandlers
    (hrun : ∀ kind h, h.Chooses kind → (tidy → h.program.Faithful) →
      Tries tidy (runHandler call kind h)) (count i : Nat) :
    Tries tidy (tryHandlers call count i) := by
  induction count generalizing i with
  | zero => exact .of_still fun m => ⟨_, rfl, .inl rfl⟩
  | succ count ih =>
    intro m sights r n made low hm hspans hprompt h
    rcases hentry : m.lexer.registry.entryAt? i with _ | ⟨kind, handler⟩
    · have hnone : tryHandlers call (count + 1) i m = ([], some (.ok none, m)) := by
        rewrite [tryHandlers, lift_bind_of_ok (LexM.lexer_apply m), hentry]
        rfl
      exact Tries.of_still (x := fun m => ([], some (.ok none, m)))
        (fun m => ⟨_, rfl, .inl rfl⟩) hm hspans hprompt (hnone.symm.trans h)
    · rw [tryHandlers_succ hentry] at h
      obtain ⟨hchooses, hfaithful⟩ := hm.handlers _ (List.mem_of_getElem? hentry)
      exact Tries.orElse (hrun kind handler hchooses hfaithful) (ih (i + 1)) hm hspans hprompt h

theorem advances_derive
    (hrun : ∀ kind h, h.Chooses kind → (tidy → h.program.Faithful) →
      Tries tidy (runHandler call kind h)) {r : Except LexError (Option Token)}
    (hm : m.Choosing tidy) (hqueue : m.queue = []) (h : derive call m = (sights, some (r, n))) :
    m.Steady n ∧ Spans tidy (matchesOf sights) m.place n.place (Draw.tokens ⟨r, n.queue⟩) := by
  have hstart : Spans tidy [] m.place m.place m.queue := hqueue ▸ .nil m.place
  rcases hrest : m.lexer.pass.rest with _ | ⟨c, after⟩
  · cases (derive_of_rest_nil hrest).symm.trans h
    exact ⟨.refl _, hstart⟩
  · cases hmode : m.lexer.options.mode with
    | character =>
      obtain ⟨k, htoken, hlexer⟩ := LexM.characterToken_apply hrest
      cases (derive_of_character hrest hmode htoken).symm.trans h
      obtain ⟨hsteady, hwaits, hwithin⟩ :=
        LexM.within_past hm.ample hrest hlexer (List.cons_ne_nil c [])
      refine ⟨hsteady, ?_⟩
      rw [hwaits, hqueue]
      exact .derived (hwithin _ _ rfl)
    | token =>
      have hstill : Tries tidy (do
          let p ← lift LexM.pass
          if p.rest.isEmpty then return none else lift (LexM.throw p.unmatched)) := by
        apply Tries.of_still
        intro k
        rw [lift_bind_of_ok (LexM.pass_apply k)]
        by_cases hempty : k.lexer.pass.rest.isEmpty
        · rw [if_pos hempty]
          exact ⟨_, rfl, .inl rfl⟩
        · rw [if_neg hempty]
          exact ⟨_, rfl, .inr ⟨_, rfl⟩⟩
      have hne : m.lexer.pass.rest ≠ [] := by
        rw [hrest]
        exact List.cons_ne_nil c after
      rw [derive_of_token hne hmode] at h
      obtain ⟨hsteady, hround, -⟩ := ((tries_tryHandlers hrun _ 0).orElse hstill) hm hstart
        (fun _ => hqueue) h
      exact ⟨hsteady, hround⟩

/-- Advancing tries the handlers in rounds, each from where none wait. -/
theorem advances_of_tries
    (hrun : ∀ kind h, h.Chooses kind → (tidy → h.program.Faithful) →
      Tries tidy (runHandler call kind h)) : Advances tidy call := by
  intro m sights r n hm hqueue h
  rcases hderive : derive call m with ⟨front, _ | ⟨e | _ | t, k⟩⟩
  · cases (advance_of_timeout hderive).symm.trans h
  · obtain ⟨hsteady, hspans⟩ := advances_derive hrun hm hqueue hderive
    cases hobserved : k.lexer.options.hooks.onError with
    | true =>
      cases (advance_of_error hderive hobserved).symm.trans h
      exact ⟨⟨hsteady.registry, hsteady.tokens, hsteady.ample⟩, hspans⟩
    | false =>
      cases (advance_of_error_unobserved hderive hobserved).symm.trans h
      exact ⟨hsteady, hspans⟩
  · rw [advance_of_none hderive] at h
    cases h
    exact advances_derive hrun hm hqueue hderive
  · rw [advance_of_token hderive] at h
    cases h
    rw [matchesOf_append]
    exact (List.append_nil (matchesOf front)).symm ▸ advances_derive hrun hm hqueue hderive

end Watched

/-- The program of such a handler scans, and goes on from the token of its match. -/
theorem Handler.Chooses.program {kind : String} {h : Handler} (hh : h.Chooses kind) :
    ∃ p next, h.program = .ask (.scan p kind) next ∧ next (.ok none) = .done none ∧
      (∀ e, next (.error e) = .fail e) ∧ ∀ t, (next (.ok (some t))).Chooses t := by
  rcases hh with ⟨p, rfl⟩ | ⟨p, transform, rfl, htransform⟩
  · exact ⟨p, _, rfl, rfl, fun _ => rfl, fun _ => .inl rfl⟩
  · exact ⟨p, _, rfl, rfl, fun _ => rfl, htransform⟩

/-- A program that only looks ahead and chooses makes more tokens wait, and ends with its token,
without one or with an error. -/
theorem Program.extends_watched {tidy : Prop} {call : Handler → Watched (Option Token)}
    (hpeers : Watched.Peers tidy call) {bound : Nat} {q : Program Handler (Option Token)}
    {t : Token} {m n : Machine} {sights : List Sight} {r : Except LexError (Option Token)}
    (hq : q.Chooses t) (hm : m.Choosing tidy) (h : q.watched call bound m = (sights, some (r, n))) :
    ∃ more, m.Extends tidy sights more n ∧ (∀ u, r = .ok (some u) → u = t) ∧
      (r = .ok none → ¬q.Keeps ∧ (q.Faithful → more = [])) := by
  induction q generalizing m sights with
  | done t? =>
    cases h
    refine ⟨[], (Machine.Extends.refl _).of_matchesOf_eq rfl, ?_, ?_⟩
    · intro u hu
      cases hu
      exact Option.some.inj (hq.resolve_right (Option.some_ne_none u))
    · intro hnone
      cases hnone
      exact ⟨fun hkeeps => hkeeps rfl, fun _ => rfl⟩
  | fail e =>
    cases h
    refine ⟨[], (Machine.Extends.refl _).of_matchesOf_eq rfl, ?_, ?_⟩
    · intro u hu
      cases hu
    · intro hnone
      cases hnone
  | ask request next ih =>
    obtain ⟨⟨count, rfl⟩, hnext⟩ := hq
    obtain ⟨reply, k, front, back, hfront, hback, rfl⟩ := exists_of_watched_ask h
    obtain ⟨more, hmore⟩ := hpeers hm hfront
    obtain ⟨others, hothers, htoken, hnone⟩ :=
      ih reply (hnext reply) (hmore.steady.choosing hm) hback
    refine ⟨more ++ others, (hmore.trans hothers).of_matchesOf_eq ?_, htoken, ?_⟩
    · rw [matchesOf_append]
      show matchesOf (front ++ _) = _
      rw [matchesOf_append]
      rfl
    · intro hr
      obtain ⟨hloses, -⟩ := hnone hr
      refine ⟨fun hkeeps => hloses (hkeeps reply), ?_⟩
      intro hfaithful
      exact (hloses ((hfaithful reply).2 ⟨count, rfl⟩)).elim
  | set kind handler next ih => exact hq.elim
  | fork input body next ih => exact hq.elim

section Handlers

variable {tidy : Prop} {kind : String} {h : Handler} {depth : Nat}

/-- A handler that matches its pattern in a round makes the token of its match, unless it drops it.
-/
theorem Handler.tries_watched (hpeers : Watched.Peers tidy (Handler.watched depth))
    (hchooses : h.Chooses kind) (hfaithful : tidy → h.program.Faithful) :
    Watched.Tries tidy (Watched.runHandler (Handler.watched (depth + 1)) kind h) := by
  intro m sights r n made low hm hspans hprompt hrun
  obtain ⟨p, next, hprogram, hsilent, hfails, htransform⟩ := hchooses.program
  rcases hcall : Handler.watched (depth + 1) h m with ⟨s, _ | ⟨r', k⟩⟩
  · cases (Watched.runHandler_of_timeout hcall).symm.trans hrun
  have hasked : (Program.ask (.scan p kind) next).watched (Handler.watched depth) depth m =
      (s, some (r', k)) := by
    rw [← hprogram]
    exact hcall
  obtain ⟨reply, j, front, back, hscan, hnext, rfl⟩ := Program.exists_of_watched_ask hasked
  obtain ⟨hfront, hvalue⟩ := Prod.mk.inj hscan
  obtain rfl : [] = front := hfront
  rcases LexM.within_of_scan hm.ample hvalue with
    ⟨rfl, rfl | ⟨e, rfl⟩⟩ | ⟨t, rfl, rfl, hsteady, hwaits, hwithin⟩
  · -- The pattern does not match.
    rw [hsilent] at hnext
    cases hnext
    cases (Watched.runHandler_of_none hcall).symm.trans hrun
    exact ⟨.refl _, (List.append_nil made).symm ▸ hspans, fun htidy _ => hprompt htidy⟩
  · rw [hfails] at hnext
    cases hnext
    cases (Watched.runHandler_of_error hcall).symm.trans hrun
    exact ⟨.refl _, (List.append_nil made).symm ▸ hspans, fun htidy _ => hprompt htidy⟩
  · obtain ⟨more, hmore, htoken, hnone⟩ :=
      Program.extends_watched hpeers (htransform t) (hsteady.choosing hm) hnext
    have hqueue : k.queue = m.queue ++ more := by rw [hmore.queue, hwaits]
    have hdropped : Spans tidy (made ++ ⟨m.queue, t⟩ :: matchesOf back) low k.place k.queue := by
      have hlost := (Spans.dropped hwithin hprompt).append hmore.spans
      rw [hqueue]
      exact hspans.append hlost
    rcases r' with e | _ | u
    · cases (Watched.runHandler_of_error hcall).symm.trans hrun
      refine ⟨hsteady.trans hmore.steady, hdropped, ?_⟩
      intro _ hne
      cases hne
    · cases (Watched.runHandler_of_none hcall).symm.trans hrun
      refine ⟨hsteady.trans hmore.steady, hdropped, ?_⟩
      intro htidy _
      have hprogram' : (Program.ask (.scan p t.kind) next).Faithful := hprogram ▸ hfaithful htidy
      rw [hqueue, hprompt htidy, (hnone rfl).2 (hprogram' (.ok (some t))).1]
      rfl
    · obtain rfl := htoken u rfl
      have hlocated : u.location ≠ none := by
        obtain ⟨l, hl, -⟩ := hwithin
        rw [hl]
        exact Option.some_ne_none l
      cases (Watched.runHandler_of_token hcall hlocated).symm.trans hrun
      refine ⟨hsteady.trans hmore.steady, ?_, ?_⟩
      · show Spans tidy (made ++ ⟨m.queue, u⟩ :: matchesOf back) low n.place (u :: n.queue)
        rw [hqueue]
        by_cases hempty : m.queue = []
        · rw [hempty] at hspans ⊢
          exact hspans.append ((Spans.kept hwithin).append hmore.spans)
        · exact hspans.crossed hempty hwithin (fun htidy => hempty (hprompt htidy)) hmore.spans
      · intro _ hne
        cases hne

/-- Advancing makes the tokens of a stretch of the input, however deep handlers look ahead. -/
theorem Handler.advances_watched (tidy : Prop) (depth : Nat) :
    Watched.Advances tidy (Handler.watched depth) := by
  apply Watched.advances_of_tries
  induction depth with
  | zero =>
    intro kind h _ _ m sights r n made low _ _ _ hrun
    cases (Watched.runHandler_of_timeout rfl).symm.trans hrun
  | succ depth ih =>
    intro kind h hchooses hfaithful
    exact Handler.tries_watched (Watched.advances_of_tries ih).peers hchooses hfaithful

end Handlers

end ModularLexer
