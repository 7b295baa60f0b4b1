import ModularLexer.Proofs.Segmentation.Streaming

/-!
Drawing on the stream with handlers that look ahead in it. Advancing takes the next token off the
stream, and the tokens its handler looked at wait behind it, however deep handlers look ahead while
others do.
-/
namespace ModularLexer

namespace Segmentation

namespace Plan

variable {P : Plan} {before rest : Text} {drawn coming waiting listed : List Token} {m n : Machine}

section Deriving

variable {patterns tail : List (String × Pattern)} {kind : String} {p : Pattern} {depth i : Nat}

theorem entryAt?_of_drop (hm : P.Place before m) (h : P.patterns.drop i = (kind, p) :: tail) :
    m.lexer.registry.entryAt? i = some (kind, .peeking (P.ahead kind) kind p) ∧
      P.patterns.drop (i + 1) = tail := by
  have hplace : P.patterns[i]? = some (kind, p) := by
    have hhead := congrArg List.head? h
    rwa [List.head?_drop] at hhead
  constructor
  · rw [hm.registry, registry, Registry.map, Registry.entryAt?, List.getElem?_map, hplace]
    rfl
  · have htail := congrArg List.tail h
    rwa [List.tail_drop] at htail

/-- Handlers of patterns with nothing to say are passed over. -/
theorem tryHandlers_of_silent (depth : Nat) (hm : P.Place before m)
    {front : List (String × Pattern)}
    (h : P.patterns.drop i = front ++ tail) (hsilent : Silent front m.lexer.pass.rest) :
    P.patterns.drop (i + front.length) = tail ∧
      ∃ sights, Accounts sights [] [] ∧ ∀ count,
        Watched.tryHandlers (Handler.watched (depth + 1)) (front.length + count) i m =
          (sights ++ (Watched.tryHandlers (Handler.watched (depth + 1)) count
              (i + front.length) m).1,
            (Watched.tryHandlers (Handler.watched (depth + 1)) count (i + front.length) m).2) := by
  induction front generalizing i with
  | nil =>
    refine ⟨h, [], .nil, ?_⟩
    intro count
    rw [List.length_nil, Nat.zero_add]
    rfl
  | cons pattern front ih =>
    obtain ⟨kind, p⟩ := pattern
    obtain ⟨hentry, hnext⟩ := entryAt?_of_drop hm h
    have hplace : i + 1 + front.length = i + ((kind, p) :: front).length := by
      rw [List.length_cons]
      omega
    obtain ⟨hdrop, sights, haccounts, hothers⟩ :=
      ih hnext fun pattern hmem => hsilent pattern (List.mem_cons_of_mem _ hmem)
    rw [hplace] at hdrop hothers
    have hscan := LexM.scan_of_none kind (hsilent (kind, p) List.mem_cons_self)
    obtain ⟨first, hcall, hfirst⟩ :=
      Handler.watched_peeking_of_none depth (P.ahead kind) hscan
    refine ⟨hdrop, first ++ sights, hfirst.append haccounts, ?_⟩
    intro count
    have hcount : ((kind, p) :: front).length + count = (front.length + count) + 1 := by
      rw [List.length_cons]
      omega
    rw [hcount, Watched.tryHandlers_succ hentry,
      Watched.bind_of_ok (Watched.runHandler_of_none hcall)]
    dsimp only
    rw [hothers, List.append_assoc]

theorem size_registry (hm : P.Place before m) :
    m.lexer.registry.size = P.patterns.length := by
  rw [hm.registry, registry, Registry.map, Registry.size, List.length_map]

/-- The handlers are tried up to the first whose pattern has something to say. -/
theorem tryHandlers_of_first (hm : P.Place before m) {front : List (String × Pattern)}
    (h : P.patterns = front ++ (kind, p) :: tail) (hsilent : Silent front m.lexer.pass.rest)
    {sights : List Sight} {r : Except LexError (Option Token)}
    (hrun : Watched.runHandler (Handler.watched (depth + 1)) kind
      (.peeking (P.ahead kind) kind p) m = (sights, some (r, n)))
    (hr : r ≠ .ok none) {tokens : List Token} {seen : List Look}
    (haccounts : Accounts sights tokens seen) :
    ∃ sights', Watched.tryHandlers (Handler.watched (depth + 1)) m.lexer.registry.size 0 m =
        (sights', some (r, n)) ∧ Accounts sights' tokens seen := by
  have hsize : m.lexer.registry.size = front.length + (tail.length + 1) := by
    rw [size_registry hm, h, List.length_append, List.length_cons]
  obtain ⟨hfirst, before, hbefore, htry⟩ :=
    tryHandlers_of_silent depth hm (List.drop_zero.trans h) hsilent
  obtain ⟨hentry, -⟩ := entryAt?_of_drop hm hfirst
  refine ⟨before ++ sights, ?_, hbefore.append haccounts⟩
  rw [hsize, htry, Watched.tryHandlers_succ hentry]
  rcases r with e | _ | t
  · rw [Watched.bind_of_error hrun]
  · exact absurd rfl hr
  · rw [Watched.bind_of_ok hrun]
    exact congrArg (fun all => (before ++ all, _)) (List.append_nil sights)

/-- Where nothing more comes there is no token, or an error that ends the stream. -/
theorem derive_of_stuck (depth : Nat) (hm : P.Place before m)
    (hnothing : (P.outcome before m.lexer.pass.rest).tokens = []) :
    ∃ sights, Accounts sights [] [] ∧
      (Watched.derive (Handler.watched (depth + 1)) m = (sights, some (.ok none, m)) ∨
        ∃ e, Watched.derive (Handler.watched (depth + 1)) m = (sights, some (.error e, m)) ∧
          (P.outcome before m.lexer.pass.rest).failure ≠ none) := by
  by_cases hrest : m.lexer.pass.rest = []
  · exact ⟨[], .nil, .inl (Watched.derive_of_rest_nil hrest)⟩
  cases hmode : P.options.mode with
  | character =>
    obtain ⟨c, after, hcons⟩ := List.exists_cons_of_ne_nil hrest
    rw [outcome, hmode, hcons] at hnothing
    cases hnothing
  | token =>
    have hmode' : m.lexer.options.mode = .token := by rw [hm.options, hmode]
    simp only [outcome, hmode] at hnothing ⊢
    rw [Watched.derive_of_token hrest hmode']
    rcases hfirst : firstMatch P.patterns m.lexer.pass.rest with e | _ | ⟨kind, groups⟩
    · obtain ⟨front, kind, p, tail, hpatterns, hsilent, hv⟩ := exists_of_firstMatch_error hfirst
      obtain ⟨first, hcall, hseen⟩ := Handler.watched_peeking_of_error depth (P.ahead kind)
        (LexM.scan_of_error kind hv)
      obtain ⟨sights, htry, haccounts⟩ := tryHandlers_of_first hm hpatterns hsilent
        (Watched.runHandler_of_error hcall) (fun h => nomatch h) hseen
      refine ⟨sights, haccounts, .inr ⟨e, Watched.bind_of_error htry, ?_⟩⟩
      rw [segment_of_error hrest hfirst]
      exact Option.some_ne_none e
    · have hsilent := silent_of_firstMatch hfirst
      obtain ⟨-, sights, haccounts, htry⟩ := tryHandlers_of_silent depth hm
        (List.drop_zero.trans (List.append_nil P.patterns).symm) hsilent
      have hall : Watched.tryHandlers (Handler.watched (depth + 1)) m.lexer.registry.size 0 m =
          (sights, some (.ok none, m)) := by
        rw [size_registry hm, ← Nat.add_zero P.patterns.length, htry]
        exact congrArg (·, _) (List.append_nil sights)
      have hempty : ¬m.lexer.pass.rest.isEmpty = true := by
        rw [List.isEmpty_iff]
        exact hrest
      refine ⟨sights, haccounts, .inr ⟨m.lexer.pass.unmatched, ?_, ?_⟩⟩
      · rw [Watched.bind_of_ok hall]
        dsimp only
        rw [Watched.lift_bind_of_ok (LexM.pass_apply m), if_neg hempty]
        exact congrArg (·, _) (List.append_nil sights)
      · rw [segment_of_none hrest hfirst]
        exact Option.some_ne_none _
    · rw [segment_of_match hrest hfirst] at hnothing
      cases hnothing

end Deriving

/-- Advancing takes the next token off the stream, if there is one, and what was looked at meanwhile
waits. -/
def Advances (P : Plan) (depth : Nat) : Prop :=
  ∀ ⦃drawn coming listed m⦄, P.At drawn coming [] listed m → coming.length < depth →
    ∃ ts later sights n, coming = ts ++ later ∧ (ts = [] → later = []) ∧
      Watched.advance (Handler.watched depth) m = (sights, some (.ok ts.head?, n)) ∧
      P.Draws drawn ts later ts.tail listed sights n

section Drawing

variable {depth : Nat}

/-- Filling the queue draws tokens until there are enough or none are to come. -/
theorem fill_draws (h : P.Advances depth) (count bound : Nat)
    (hm : P.At drawn coming waiting listed m) (hdepth : coming.length < depth)
    (hbound : count ≤ waiting.length + bound) :
    ∃ ts later sights n, coming = ts ++ later ∧
      Watched.fill (Handler.watched depth) count bound m = (sights, some (.ok (), n)) ∧
      P.Draws drawn ts later (waiting ++ ts) listed sights n ∧
      (later = [] ∨ count ≤ (waiting ++ ts).length) := by
  induction bound generalizing drawn coming waiting m with
  | zero =>
    have hle : count ≤ m.queue.length := by rw [hm.queue]; exact hbound
    refine ⟨[], coming, [], m, rfl, Watched.fill_of_le hle, ?_, .inr ?_⟩
    · rw [List.append_nil]
      exact .refl hm
    · rw [List.append_nil]
      exact hbound
  | succ bound ih =>
    rcases Nat.lt_or_ge waiting.length count with hlt | hle
    · have hshort : m.queue.length < count := by rw [hm.queue]; exact hlt
      obtain ⟨ts, later, sights, n, rfl, hend, hadvance, hdraws⟩ := h (hm.withQueue []) hdepth
      cases ts with
      | nil =>
        obtain rfl := hend rfl
        have hqueue : m.queue ++ n.queue = waiting ++ [] := by
          rw [hm.queue, hdraws.place.queue]
          rfl
        refine ⟨[], [], sights, n.withQueue (waiting ++ []), rfl, ?_, ?_, .inl rfl⟩
        · simp only [Watched.fill_of_lt hshort, hadvance, List.head?_nil, hqueue]
        · exact ⟨hdraws.place.withQueue _, hdraws.accounts⟩
      | cons t ts =>
        have hqueue : m.queue ++ t :: n.queue = waiting ++ t :: ts := by
          rw [hm.queue, hdraws.place.queue]
          rfl
        have hplace := hdraws.place.withQueue (waiting ++ t :: ts)
        have hlater : later.length < depth := by
          rw [List.length_append] at hdepth
          omega
        have henough : count ≤ (waiting ++ t :: ts).length + bound := by
          rw [List.length_append, List.length_cons]
          omega
        obtain ⟨us, last, others, k, rfl, hfill, hmore, hdone⟩ := ih hplace hlater henough
        refine ⟨t :: ts ++ us, last, sights ++ others, k, (List.append_assoc ..).symm, ?_, ?_, ?_⟩
        · simp only [Watched.fill_of_lt hshort, hadvance, List.head?_cons, hqueue, hfill]
        · have hall := Draws.trans ⟨hplace, hdraws.accounts⟩ hmore
          rwa [List.append_assoc] at hall
        · rwa [List.append_assoc] at hdone
    · have hle' : count ≤ m.queue.length := by rw [hm.queue]; exact hle
      refine ⟨[], coming, [], m, rfl, Watched.fill_of_le hle', ?_, .inr ?_⟩
      · rw [List.append_nil]
        exact .refl hm
      · rw [List.append_nil]
        exact hle

/-- Looking ahead sees the tokens that wait and behind them the stream. -/
theorem lookahead_draws (h : P.Advances depth) {count : Nat} (hcount : count ≠ 0)
    (hm : P.At drawn coming waiting listed m) (hdepth : coming.length < depth) :
    ∃ ts later sights n, coming = ts ++ later ∧
      Watched.lookahead (Handler.watched depth) count m =
        (sights, some (.ok (waiting ++ coming)[count - 1]?, n)) ∧
      P.Draws drawn ts later (waiting ++ ts) listed sights n := by
  have hbound : count ≤ waiting.length + (count - m.queue.length) := by
    rw [hm.queue]
    omega
  obtain ⟨ts, later, sights, n, rfl, hfill, hdraws, hdone⟩ :=
    fill_draws h count _ hm hdepth hbound
  refine ⟨ts, later, sights, n, rfl, ?_, hdraws⟩
  rw [Watched.lookahead_of_fill hcount hfill, hdraws.place.queue, ← List.append_assoc]
  rcases hdone with rfl | hle
  · rw [List.append_nil]
  · have hlt : count - 1 < (waiting ++ ts).length := by omega
    rw [List.getElem?_append_left hlt]

/-- The next token is the first one that waits, else the first of the stream. -/
theorem next_draws (h : P.Advances depth) (hm : P.At drawn coming waiting listed m)
    (hdepth : coming.length < depth) :
    ∃ ts later sights n, coming = ts ++ later ∧
      Watched.next (Handler.watched depth) m =
        (sights, some (.ok (waiting ++ coming).head?, n)) ∧
      P.Draws drawn ts later (waiting ++ ts).tail listed sights n ∧
      (waiting ++ ts = [] → later = []) := by
  cases waiting with
  | nil =>
    obtain ⟨ts, later, sights, n, rfl, hend, hadvance, hdraws⟩ := h hm hdepth
    refine ⟨ts, later, sights, n, rfl, ?_, hdraws, hend⟩
    have hhead : ([] ++ (ts ++ later)).head? = ts.head? := by
      cases ts with
      | nil =>
        rw [hend rfl]
        rfl
      | cons t ts => rfl
    rw [Watched.next_of_queue_nil hm.queue, hadvance, hhead]
  | cons t waiting =>
    refine ⟨[], coming, [], m.withQueue waiting, rfl, Watched.next_of_queue_cons hm.queue, ?_,
      fun h => nomatch h⟩
    rw [List.append_nil]
    exact .refl (hm.withQueue waiting)

end Drawing

section Deriving

variable {depth : Nat} {c : Char} {after : Text}

theorem characterToken_apply (hm : P.Place before m) (hrest : m.lexer.pass.rest = c :: after) :
    ∃ n, LexM.characterToken c m =
        some (.ok (characterAt P.options.source before c), n) ∧
      n.lexer = (m.withPass (m.lexer.pass.past [c] after)).lexer := by
  have hstop : (m.lexer.pass.past [c] after).position = (before ++ [c]).stop :=
    (hm.past [c] after).position
  obtain ⟨n, htoken, hlexer⟩ := LexM.characterToken_apply hrest
  rw [hm.position, hstop, hm.options] at htoken
  exact ⟨n, htoken, hlexer⟩

/-- In the mode of characters the next one is drawn, and no handler is asked. -/
theorem derive_of_character (depth : Nat) (hm : P.At drawn coming [] listed m)
    (hmode : P.options.mode = .character) (hrest : m.lexer.pass.rest = c :: after) :
    ∃ t later n, coming = t :: later ∧
      Watched.derive (Handler.watched depth) m = ([], some (.ok (some t), n)) ∧
      P.At (drawn ++ [t]) later [] listed n := by
  obtain ⟨before, hplace, houtcome⟩ := hm.place
  have hnext : P.outcome before m.lexer.pass.rest =
      .cons (characterAt P.options.source before c) (P.outcome (before ++ [c]) after) := by
    rw [hrest]
    simp only [outcome, hmode, characters]
  obtain ⟨later, hcoming, hpast⟩ := hm.past hplace houtcome hnext
  obtain ⟨n, htoken, hn⟩ := characterToken_apply hplace hrest
  have hmode' : m.lexer.options.mode = .character := by rw [hplace.options, hmode]
  exact ⟨_, later, n, hcoming, Watched.derive_of_character hrest hmode' htoken,
    hpast.of_lexer_eq hn⟩

/-- Matching the first pattern that has something to say draws its token. -/
theorem scan_draws (hm : P.At drawn coming [] listed m) (hmode : P.options.mode = .token)
    {kind : String} {p : Pattern} {groups : Groups} (hrest : m.lexer.pass.rest ≠ [])
    (hfirst : firstMatch P.patterns m.lexer.pass.rest = .ok (some (kind, groups)))
    (hv : verdict p m.lexer.pass.rest = .ok (some groups)) :
    ∃ t later n, coming = t :: later ∧ t.kind = kind ∧
      LexM.scan p kind m = some (.ok (some t), n) ∧ P.At (drawn ++ [t]) later [] listed n ∧
      t.location.map (·.stop) = some n.lexer.pass.position := by
  obtain ⟨before, hplace, houtcome⟩ := hm.place
  obtain ⟨-, after, hsplit⟩ := of_verdict_eq_some hv
  have hnext : P.outcome before m.lexer.pass.rest =
      .cons (tokenAt P.options.source P.input before kind groups)
        (P.outcome (before ++ fullText groups) after) := by
    simp only [outcome, hmode]
    rw [segment_of_match hrest hfirst, ← hsplit, List.drop_left]
  obtain ⟨later, hcoming, hpast⟩ := hm.past hplace houtcome hnext
  obtain ⟨n, hscan, hn⟩ := LexM.scan_of_match kind hv hsplit.symm
  have hstop : (m.lexer.pass.past (fullText groups) after).position =
      (before ++ fullText groups).stop := (hplace.past (fullText groups) after).position
  rw [hplace.input, hplace.offset, hplace.position, hplace.options, hstop] at hscan
  refine ⟨_, later, n, hcoming, rfl, hscan, hpast.of_lexer_eq hn, ?_⟩
  rw [hn]
  exact congrArg some hstop.symm

/-- The handler of the next token draws what it looks at. -/
theorem watched_peeking_draws (h : P.Advances depth) (hmode : P.options.mode = .token)
    {p : Pattern} {t : Token} {later : List Token}
    (hscan : LexM.scan p t.kind m = some (.ok (some t), n))
    (hn : P.At (drawn ++ [t]) later [] listed n) (hdepth : later.length < depth)
    (hstop : t.location.map (·.stop) = some n.lexer.pass.position) :
    ∃ ts last sights k, later = ts ++ last ∧
      Handler.watched (depth + 1) (.peeking (P.ahead t.kind) t.kind p) m =
        (sights, some (.ok (some t), k)) ∧
      P.At (drawn ++ t :: ts) last ts listed k ∧
      Accounts sights ts (P.looked drawn.length (t :: ts)) := by
  have hreach : reach P.options.mode P.ahead t.kind = P.ahead t.kind := by rw [hmode]; rfl
  by_cases hahead : P.ahead t.kind = 0
  · obtain ⟨sights, hcall, haccounts⟩ := Handler.watched_peeking_zero depth hscan
    refine ⟨[], later, sights, n, rfl, ?_, hn, ?_⟩
    · rw [hahead, hcall]
    · rw [looked, looks, if_pos (hreach.trans hahead), looks]
      exact haccounts
  · obtain ⟨ts, last, sights, k, rfl, hlook, hdraws⟩ := lookahead_draws h hahead hn hdepth
    obtain ⟨sights', hcall, haccounts⟩ :=
      Handler.watched_peeking_of_look hahead hscan hlook hdraws.accounts
    have hplace : drawn ++ [t] ++ ts = drawn ++ t :: ts := by
      rw [List.append_assoc, List.singleton_append]
    refine ⟨ts, last, sights', k, rfl, hcall, hplace ▸ hdraws.place, ?_⟩
    -- The stream goes on behind the token with what its handler sees.
    have hseen : P.whole.tokens[drawn.length + P.ahead t.kind]? =
        ([] ++ (ts ++ last))[P.ahead t.kind - 1]? := by
      rw [hn.stream, List.append_assoc, List.getElem?_append_right (Nat.le_add_right ..),
        Nat.add_sub_cancel_left, List.singleton_append, List.getElem?_cons, if_neg hahead]
      rfl
    have hlength : (drawn ++ [t]).length = drawn.length + 1 := List.length_append
    rw [looked, looks, hreach, if_neg hahead, hstop, hseen, ← hlength]
    exact haccounts

/-- In the mode of tokens the first match is drawn, and behind it what its handler looks at. -/
theorem derive_of_match (h : P.Advances depth) (hm : P.At drawn coming [] listed m)
    (hdepth : coming.length < depth + 1) (hmode : P.options.mode = .token) {kind : String}
    {groups : Groups} (hrest : m.lexer.pass.rest ≠ [])
    (hfirst : firstMatch P.patterns m.lexer.pass.rest = .ok (some (kind, groups))) :
    ∃ t ts later sights n, coming = t :: ts ++ later ∧
      Watched.derive (Handler.watched (depth + 1)) m = (sights, some (.ok (some t), n)) ∧
      P.At (drawn ++ t :: ts) later ts listed n ∧
      Accounts sights ts (P.looked drawn.length (t :: ts)) := by
  obtain ⟨before, hplace, -⟩ := hm.place
  obtain ⟨front, p, tail, hpatterns, hsilent, hv⟩ := exists_of_firstMatch_match hfirst
  obtain ⟨t, later, n, rfl, rfl, hscan, hn, hstop⟩ := scan_draws hm hmode hrest hfirst hv
  have hlater : later.length < depth := Nat.lt_of_succ_lt_succ hdepth
  obtain ⟨ts, last, sights, k, rfl, hcall, hk, haccounts⟩ :=
    watched_peeking_draws h hmode hscan hn hlater hstop
  have hlocation : t.location ≠ none := by
    intro hnone
    rw [hnone] at hstop
    cases hstop
  obtain ⟨sights', htry, haccounts'⟩ := tryHandlers_of_first hplace hpatterns hsilent
    (Watched.runHandler_of_token hcall hlocation) (fun h => nomatch h) haccounts
  have hmode' : m.lexer.options.mode = .token := by rw [hplace.options, hmode]
  refine ⟨t, ts, last, sights', k, rfl, ?_, hk, haccounts'⟩
  rw [Watched.derive_of_token hrest hmode', Watched.bind_of_ok htry]
  exact congrArg (·, _) (List.append_nil sights')

/-- A token that is derived is seen once, after what its handler saw. -/
theorem advance_of_derive {t : Token} {ts later : List Token} {sights : List Sight}
    (h : Watched.derive (Handler.watched depth) m = (sights, some (.ok (some t), n)))
    (hn : P.At (drawn ++ t :: ts) later ts listed n)
    (haccounts : Accounts sights ts (P.looked drawn.length (t :: ts))) :
    ∃ sights', Watched.advance (Handler.watched depth) m = (sights', some (.ok (some t), n)) ∧
      P.Draws drawn (t :: ts) later ts listed sights' n := by
  refine ⟨_, Watched.advance_of_token h, hn, ?_⟩
  refine (haccounts.append (.derived t)).perm (List.perm_append_singleton t ts) ?_
  rw [List.append_nil]

/-- Where tokens come, there is text left, and in the mode of tokens a first match. -/
theorem exists_of_coming (hm : P.At drawn coming waiting listed m) (hcoming : coming ≠ []) :
    m.lexer.pass.rest ≠ [] ∧ (P.options.mode = .token →
      ∃ kind groups, firstMatch P.patterns m.lexer.pass.rest = .ok (some (kind, groups))) := by
  obtain ⟨before, hplace, houtcome⟩ := hm.place
  have htokens : (P.outcome before m.lexer.pass.rest).tokens = coming := by rw [houtcome]
  have hrest : m.lexer.pass.rest ≠ [] := by
    intro hrest
    rw [hrest, outcome_nil] at htokens
    exact hcoming htokens.symm
  refine ⟨hrest, ?_⟩
  intro hmode
  simp only [outcome, hmode] at htokens
  rcases hfirst : firstMatch P.patterns m.lexer.pass.rest with e | _ | ⟨kind, groups⟩
  · rw [segment_of_error hrest hfirst] at htokens
    exact absurd htokens.symm hcoming
  · rw [segment_of_none hrest hfirst] at htokens
    exact absurd htokens.symm hcoming
  · exact ⟨kind, groups, rfl⟩

/-- Where no more tokens come advancing leaves everything as it is, but for a report. -/
theorem advance_of_nothing (depth : Nat) (hopen : P.Open) (hm : P.At drawn [] [] listed m) :
    ∃ sights n, Watched.advance (Handler.watched (depth + 1)) m = (sights, some (.ok none, n)) ∧
      P.Draws drawn [] [] [] listed sights n := by
  obtain ⟨before, hplace, houtcome⟩ := hm.place
  have hnothing : (P.outcome before m.lexer.pass.rest).tokens = [] := by rw [houtcome]
  obtain ⟨sights, haccounts, hnone | ⟨e, herror, hfailure⟩⟩ :=
    derive_of_stuck depth hplace hnothing
  · exact ⟨sights, m, Watched.advance_of_none hnone, (Draws.refl hm).place, haccounts⟩
  · have hobserved : m.lexer.options.hooks.onError = true := by
      rw [hplace.options]
      rw [houtcome] at hfailure
      exact hopen.resolve_right hfailure
    have hreported := hm.of_lexer_eq (n := { m with journal := m.journal.push (.error e) }) rfl
    exact ⟨sights, _, Watched.advance_of_error herror hobserved, (Draws.refl hreported).place,
      haccounts⟩

/-- A level of handlers more advances as the level below does: the first token leaves fewer behind
for what its handler looks at. -/
theorem advances_succ (hopen : P.Open) (h : P.Advances depth) : P.Advances (depth + 1) := by
  intro drawn coming listed m hm hdepth
  cases coming with
  | nil =>
    obtain ⟨sights, n, hadvance, hdraws⟩ := advance_of_nothing depth hopen hm
    exact ⟨[], [], sights, n, rfl, id, hadvance, hdraws⟩
  | cons first others =>
    obtain ⟨hrest, hmatch⟩ := exists_of_coming hm (List.cons_ne_nil first others)
    cases hmode : P.options.mode with
    | character =>
      obtain ⟨c, after, hcons⟩ := List.exists_cons_of_ne_nil hrest
      obtain ⟨t, later, n, hcoming, hderive, hn⟩ :=
        derive_of_character (depth + 1) hm hmode hcons
      have hreach : reach P.options.mode P.ahead t.kind = 0 := by rw [hmode]; rfl
      have hnone : P.looked drawn.length [t] = [] := by
        rw [looked, looks, if_pos hreach, looks]
      obtain ⟨sights, hadvance, hdraws⟩ := advance_of_derive hderive hn (hnone ▸ .nil)
      exact ⟨[t], later, sights, n, hcoming, fun h => absurd h (List.cons_ne_nil t []), hadvance,
        hdraws⟩
    | token =>
      obtain ⟨kind, groups, hfirst⟩ := hmatch hmode
      obtain ⟨t, ts, later, _, n, hcoming, hderive, hn, haccounts⟩ :=
        derive_of_match h hm hdepth hmode hrest hfirst
      obtain ⟨sights, hadvance, hdraws⟩ := advance_of_derive hderive hn haccounts
      exact ⟨t :: ts, later, sights, n, hcoming, fun h => absurd h (List.cons_ne_nil t ts),
        hadvance, hdraws⟩

theorem advances (hopen : P.Open) (depth : Nat) : P.Advances depth := by
  induction depth with
  | zero =>
    intro drawn coming listed m _ hdepth
    cases hdepth
  | succ depth ih => exact advances_succ hopen ih

end Deriving

end Plan

end Segmentation

end ModularLexer
