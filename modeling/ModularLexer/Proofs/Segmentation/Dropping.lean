import ModularLexer.Proofs.Segmentation.Capturing

/-!
Dropping tokens against filtering them out. Behind a match that is dropped a round goes on with the
kinds that are left, so what is dropped is only filtered out where the next token is of one of
these. Where a single kind is dropped there is no other way.
-/
namespace ModularLexer

namespace Segmentation

def behind (kind : String) : List (String × Pattern) → List (String × Pattern)
  | [] => []
  | (other, _) :: patterns => if other = kind then patterns else behind kind patterns

/-- Whether a round with these patterns left goes on as first matches do: to a token of the next
kind, where it is among theirs, or to the end without objection. -/
def Ready (left : List (String × Pattern)) : List String → Prop
  | [] => firstMatch left [] = .ok none
  | kind :: _ => kind ∈ left.map (·.1)

/-- Whether rounds go on behind each token that is dropped, of tokens of these kinds. -/
def Resumes (patterns : List (String × Pattern)) (dropped : String → Bool) : List String → Prop
  | [] => True
  | kind :: kinds => (dropped kind = true → Ready (behind kind patterns) kinds) ∧
      Resumes patterns dropped kinds

theorem toOption_firstMatch_eq_iff {left : List (String × Pattern)} :
    (firstMatch left []).toOption = some none ↔ firstMatch left [] = .ok none := by
  cases firstMatch left [] <;> simp [Except.toOption]

instance Ready.decidable (left : List (String × Pattern)) :
    (kinds : List String) → Decidable (Ready left kinds)
  | [] => decidable_of_iff _ toOption_firstMatch_eq_iff
  | kind :: _ => inferInstanceAs (Decidable (kind ∈ left.map (·.1)))

instance Resumes.decidable (patterns : List (String × Pattern)) (dropped : String → Bool) :
    (kinds : List String) → Decidable (Resumes patterns dropped kinds)
  | [] => inferInstanceAs (Decidable True)
  | kind :: kinds =>
    have : Decidable (Resumes patterns dropped kinds) := Resumes.decidable patterns dropped kinds
    inferInstanceAs (Decidable (
      (dropped kind = true → Ready (behind kind patterns) kinds) ∧ Resumes patterns dropped kinds))

section Order

variable {kind : String} {patterns left : List (String × Pattern)} {rest : Text}

theorem firstMatch_append_of_not_mem {before : List (String × Pattern)} {groups : Groups}
    (hkind : kind ∉ before.map (·.1))
    (h : firstMatch (before ++ left) rest = .ok (some (kind, groups))) :
    firstMatch left rest = .ok (some (kind, groups)) := by
  induction before with
  | nil => exact h
  | cons pattern before ih =>
    rw [List.map_cons, List.mem_cons, not_or] at hkind
    rw [List.cons_append, firstMatch] at h
    split at h
    · cases h
    · cases h
      exact absurd rfl hkind.1
    · exact ih hkind.2 h

theorem behind_append {before : List (String × Pattern)} (hkind : kind ∉ before.map (·.1)) :
    behind kind (before ++ left) = behind kind left := by
  induction before with
  | nil => rfl
  | cons pattern before ih =>
    rw [List.map_cons, List.mem_cons, not_or] at hkind
    rw [List.cons_append, behind, if_neg (Ne.symm hkind.1), ih hkind.2]

theorem behind_suffix (kind : String) (patterns : List (String × Pattern)) :
    behind kind patterns <:+ patterns := by
  induction patterns with
  | nil => exact List.suffix_refl _
  | cons pattern patterns ih =>
    unfold behind
    split
    · exact List.suffix_cons _ _
    · exact ih.trans (List.suffix_cons _ _)

theorem not_mem_kinds_behind (hnodup : (patterns.map (·.1)).Nodup) :
    kind ∉ (behind kind patterns).map (·.1) := by
  induction patterns with
  | nil => exact List.not_mem_nil
  | cons pattern patterns ih =>
    rw [List.map_cons, List.nodup_cons] at hnodup
    unfold behind
    split
    · next heq =>
      rw [← heq]
      exact hnodup.1
    · exact ih hnodup.2

/-- The kinds in front of a suffix are others than those in it. -/
theorem not_mem_front {front : List (String × Pattern)} (h : front ++ left = patterns)
    (hnodup : (patterns.map (·.1)).Nodup) (hkind : kind ∈ left.map (·.1)) :
    kind ∉ front.map (·.1) := by
  rw [← h, List.map_append, List.nodup_append] at hnodup
  intro hfront
  exact hnodup.2.2 kind hfront kind hkind rfl

theorem nodup_of_suffix (h : left <:+ patterns) (hnodup : (patterns.map (·.1)).Nodup) :
    (left.map (·.1)).Nodup := hnodup.sublist (h.map _).sublist

/-- Where segmentation goes on to the end all patterns together are ready for it. -/
theorem ready_segment {source : Option String} {input before : Text} {ts : List Token}
    (hrest : rest ≠ []) (hok : (segment patterns source input before rest).result = .ok ts) :
    Ready patterns (ts.map (·.kind)) := by
  rcases hm : firstMatch patterns rest with e | _ | ⟨kind, groups⟩
  · rw [segment_of_error hrest hm] at hok
    cases hok
  · rw [segment_of_none hrest hm] at hok
    cases hok
  · rw [segment_of_match hrest hm] at hok
    obtain ⟨l, -, rfl⟩ := Outcome.result_cons_eq_ok_iff.1 hok
    exact mem_kinds_of_firstMatch hm

theorem resumes_of_each {kinds : List String} (h : ∀ kind, Resumes patterns (· == kind) kinds)
    (dropped : String → Bool) : Resumes patterns dropped kinds := by
  induction kinds with
  | nil => trivial
  | cons first kinds ih =>
    refine ⟨fun _ => ?_, ih fun kind => (h kind).2⟩
    exact (h first).1 (beq_self_eq_true first)

/-- The tokens behind a text are caught behind it. -/
theorem index_of_mem_segment {source : Option String} {input before : Text} {t : Token}
    (h : t ∈ (segment patterns source input before rest).tokens) :
    ∃ captures, t.captures = some captures ∧ before.byteLength ≤ captures.index := by
  fun_induction segment patterns source input before rest with
  | case1 before => cases h
  | case2 before rest hrest e hm => cases h
  | case3 before rest hrest hm => cases h
  | case4 before rest hrest kind groups hm ih =>
    rcases List.mem_cons.1 h with rfl | hmem
    · exact ⟨_, rfl, Nat.le_refl _⟩
    · obtain ⟨captures, hcaptures, hle⟩ := ih hmem
      rw [Text.byteLength_append] at hle
      exact ⟨captures, hcaptures, by omega⟩

/-- No match behind a text is found again behind a longer one. -/
theorem tokenAt_not_mem_segment {source : Option String} {input before full : Text}
    {groups : Groups} (hfull : full ≠ []) :
    tokenAt source input before kind groups ∉
      (segment patterns source input (before ++ full) rest).tokens := by
  intro h
  obtain ⟨captures, hcaptures, hle⟩ := index_of_mem_segment h
  obtain rfl := Option.some.inj hcaptures
  have hpos : Text.byteLength full ≠ 0 := fun h => hfull (Text.byteLength_eq_zero_iff.1 h)
  rw [Text.byteLength_append] at hle
  change before.byteLength + full.byteLength ≤ before.byteLength at hle
  omega

end Order

namespace Task

variable {T : Task} {kind : String} {left : List (String × Pattern)} {before rest : Text}
  {ts : List Token}

/-- Behind a match that is dropped the round goes on with the patterns behind its kind. -/
theorem round_of_firstMatch_dropped {groups : Groups} (hnodup : (left.map (·.1)).Nodup)
    (h : firstMatch left rest = .ok (some (kind, groups))) (hkind : T.dropped kind = true) :
    T.round left before rest =
      T.round (behind kind left) (before ++ fullText groups)
        (rest.drop (fullText groups).length) := by
  obtain ⟨front, p, tail, rfl, hsilent, hv⟩ := exists_of_firstMatch_match h
  have hfront := not_mem_front rfl hnodup List.mem_cons_self
  rw [round_append_of_silent hsilent, round_of_dropped hv hkind, behind_append hfront, behind,
    if_pos rfl]

variable (T) in
/-- What the rest of a round and all rounds after it make of the rest of the input. -/
def resume (left : List (String × Pattern)) (before rest : Text) : Outcome :=
  let t := (T.round left before rest).close
  match t.outcome with
  | .error e => ⟨[], t.rest, some e⟩
  | .ok none => ⟨[], t.rest, none⟩
  | .ok (some token) => .cons token (T.skim t.before t.rest)

theorem skim_nil : T.skim before [] = ⟨[], [], none⟩ := skim_of_none rfl

theorem skim_eq_resume (hrest : rest ≠ []) :
    T.skim before rest = T.resume T.patterns before rest := by
  have hturn : T.turn before rest = (T.round T.patterns before rest).close := if_neg hrest
  unfold resume
  rw [← hturn]
  dsimp only
  split
  · next h => exact skim_of_error h
  · next h => exact skim_of_none h
  · next h => exact skim_of_token h

theorem resume_of_error {e : LexError} (h : firstMatch left rest = .error e) :
    T.resume left before rest = ⟨[], rest, some e⟩ := by
  rw [resume, round_of_firstMatch_error h]
  rfl

theorem resume_nil_of_none (h : firstMatch left [] = .ok none) :
    T.resume left before [] = ⟨[], [], none⟩ := by
  rw [resume, round_of_firstMatch_none h]
  rfl

theorem resume_of_none (hrest : rest ≠ []) (h : firstMatch left rest = .ok none) :
    T.resume left before rest = ⟨[], rest, some (unmatched before rest)⟩ := by
  have hclose : (⟨.ok none, before, rest⟩ : Turn).close =
      ⟨.error (unmatched before rest), before, rest⟩ := if_neg hrest
  rw [resume, round_of_firstMatch_none h, hclose]

theorem resume_of_kept {groups : Groups} (h : firstMatch left rest = .ok (some (kind, groups)))
    (hkind : ¬T.dropped kind = true) :
    T.resume left before rest =
      .cons (tokenAt T.source T.input before kind groups)
        (T.skim (before ++ fullText groups) (rest.drop (fullText groups).length)) := by
  rw [resume, round_of_firstMatch_kept h hkind]
  rfl

theorem resume_of_dropped {groups : Groups} (hnodup : (left.map (·.1)).Nodup)
    (h : firstMatch left rest = .ok (some (kind, groups))) (hkind : T.dropped kind = true) :
    T.resume left before rest =
      T.resume (behind kind left) (before ++ fullText groups)
        (rest.drop (fullText groups).length) := by
  rw [resume, round_of_firstMatch_dropped hnodup h hkind, resume]

variable (T) in
def kept (ts : List Token) : List Token := ts.filter fun t => !T.dropped t.kind

theorem kept_cons_of_dropped {t : Token} (h : T.dropped t.kind = true) :
    T.kept (t :: ts) = T.kept ts :=
  List.filter_cons_of_neg (by simpa using h)

theorem kept_cons_of_kept {t : Token} (h : ¬T.dropped t.kind = true) :
    T.kept (t :: ts) = t :: T.kept ts :=
  List.filter_cons_of_pos (by simpa using h)

/-- Where rounds go on behind each token that is dropped, dropping is filtering. -/
theorem result_resume (hnodup : (T.patterns.map (·.1)).Nodup) (hleft : left <:+ T.patterns)
    (hok : (segment T.patterns T.source T.input before rest).result = .ok ts)
    (hready : Ready left (ts.map (·.kind)))
    (hresumes : Resumes T.patterns T.dropped (ts.map (·.kind))) :
    (T.resume left before rest).result = .ok (T.kept ts) := by
  fun_induction segment T.patterns T.source T.input before rest generalizing left ts with
  | case1 before =>
    cases hok
    rw [resume_nil_of_none hready]
    rfl
  | case2 before rest hrest e hm => cases hok
  | case3 before rest hrest hm => cases hok
  | case4 before rest hrest kind groups hm ih =>
    obtain ⟨ts, htail, rfl⟩ := Outcome.result_cons_eq_ok_iff.1 hok
    obtain ⟨hgo, hresumes⟩ := hresumes
    change kind ∈ left.map (·.1) at hready
    have hnext := nodup_of_suffix hleft hnodup
    obtain ⟨front, hfront⟩ := hleft
    have hkind := not_mem_front hfront hnodup hready
    rw [← hfront] at hm
    have hmatch := firstMatch_append_of_not_mem hkind hm
    by_cases hdrop : T.dropped kind = true
    · have hbehind : behind kind T.patterns = behind kind left := by
        rw [← hfront, behind_append hkind]
      have hsuffix : behind kind left <:+ T.patterns := hbehind ▸ behind_suffix kind T.patterns
      have hready' := hgo hdrop
      change Ready (behind kind T.patterns) (ts.map (·.kind)) at hready'
      rw [hbehind] at hready'
      rw [resume_of_dropped hnext hmatch hdrop, kept_cons_of_dropped hdrop]
      exact ih hsuffix htail hready' hresumes
    · rw [resume_of_kept hmatch hdrop, kept_cons_of_kept hdrop]
      refine Outcome.result_cons_eq_ok_iff.2 ⟨T.kept ts, ?_, rfl⟩
      -- Behind a token that is kept a new round begins, with all patterns.
      by_cases hend : rest.drop (fullText groups).length = []
      · rw [hend, segment_nil] at htail
        cases htail
        rw [hend, skim_nil]
        rfl
      · rw [skim_eq_resume hend]
        exact ih (List.suffix_refl _) htail (ready_segment hend htail) hresumes

/-- Where a round goes on to the tokens that are kept, and does not drop once more, it goes on as
first matches do: it has no other way to reach them. -/
theorem mem_of_result_resume {groups : Groups}
    (hfree : ∀ kind ∈ left.map (·.1), ¬T.dropped kind = true) (hrest : rest ≠ [])
    (hts : ∀ other found, tokenAt T.source T.input before other found ∉ ts)
    (h : (T.resume left before rest).result =
      .ok (T.kept (tokenAt T.source T.input before kind groups :: ts))) :
    kind ∈ left.map (·.1) := by
  rcases hm : firstMatch left rest with e | _ | ⟨other, found⟩
  · rw [resume_of_error hm] at h
    cases h
  · rw [resume_of_none hrest hm] at h
    cases h
  · have hother := mem_kinds_of_firstMatch hm
    rw [resume_of_kept hm (hfree other hother)] at h
    obtain ⟨l, -, hl⟩ := Outcome.result_cons_eq_ok_iff.1 h
    have hmem : tokenAt T.source T.input before other found ∈
        T.kept (tokenAt T.source T.input before kind groups :: ts) := by
      rw [hl]
      exact List.mem_cons_self
    rcases List.mem_cons.1 (List.mem_filter.1 hmem).1 with heq | hmem
    · have hsame : other = kind := congrArg Token.kind heq
      rw [← hsame]
      exact hother
    · exact absurd hmem (hts other found)

/-- Where a single kind is dropped, dropping is filtering only if rounds go on behind its tokens. -/
theorem resumes_of_result_resume {single : String}
    (hsingle : ∀ kind, T.dropped kind = true ↔ kind = single)
    (hnodup : (T.patterns.map (·.1)).Nodup)
    (hleft : left = T.patterns ∨ left = behind single T.patterns)
    (hok : (segment T.patterns T.source T.input before rest).result = .ok ts)
    (h : (T.resume left before rest).result = .ok (T.kept ts)) :
    Ready left (ts.map (·.kind)) ∧ Resumes T.patterns T.dropped (ts.map (·.kind)) := by
  have hfree : ∀ kind ∈ (behind single T.patterns).map (·.1), ¬T.dropped kind = true := by
    intro kind hmem hdrop
    rw [(hsingle kind).1 hdrop] at hmem
    exact not_mem_kinds_behind hnodup hmem
  -- Along the segmentation a round has all patterns left, or those behind the single kind; in these
  -- nothing is dropped, so a first match among them is the next token that is kept.
  fun_induction segment T.patterns T.source T.input before rest generalizing left ts with
  | case1 before =>
    cases hok
    refine ⟨?_, trivial⟩
    rcases hm : firstMatch left [] with e | _ | ⟨kind, groups⟩
    · rw [resume_of_error hm] at h
      cases h
    · exact hm
    · obtain ⟨hne, hstarts⟩ := of_firstMatch_eq_some hm
      exact absurd (List.prefix_nil.1 hstarts) hne
  | case2 before rest hrest e hm => cases hok
  | case3 before rest hrest hm => cases hok
  | case4 before rest hrest kind groups hm ih =>
    obtain ⟨ts, htail, rfl⟩ := Outcome.result_cons_eq_ok_iff.1 hok
    obtain ⟨hfull, hstarts⟩ := of_firstMatch_eq_some hm
    have hmem : kind ∈ left.map (·.1) := by
      rcases hleft with rfl | rfl
      · exact mem_kinds_of_firstMatch hm
      · refine mem_of_result_resume hfree hrest ?_ h
        intro other found hmem
        have htokens := (Outcome.result_eq_ok_iff.1 htail).1
        rw [← htokens] at hmem
        exact tokenAt_not_mem_segment hfull hmem
    refine ⟨hmem, ?_⟩
    by_cases hdrop : T.dropped kind = true
    · have hall : left = T.patterns := by
        rcases hleft with hall | rfl
        · exact hall
        · exact absurd hdrop (hfree kind hmem)
      obtain rfl := (hsingle kind).1 hdrop
      subst hall
      rw [resume_of_dropped hnodup hm hdrop, kept_cons_of_dropped hdrop] at h
      obtain ⟨hready, hresumes⟩ := ih (.inr rfl) htail h
      exact ⟨fun _ => hready, hresumes⟩
    · have hmatch : firstMatch left rest = .ok (some (kind, groups)) := by
        rcases hleft with rfl | rfl
        · exact hm
        · obtain ⟨front, hfront⟩ := behind_suffix single T.patterns
          rw [← hfront] at hm
          exact firstMatch_append_of_not_mem (not_mem_front hfront hnodup hmem) hm
      rw [resume_of_kept hmatch hdrop, kept_cons_of_kept hdrop] at h
      obtain ⟨tail, hskim, heq⟩ := Outcome.result_cons_eq_ok_iff.1 h
      obtain ⟨-, rfl⟩ := List.cons.inj heq
      refine ⟨fun hdropped => absurd hdropped hdrop, ?_⟩
      by_cases hend : rest.drop (fullText groups).length = []
      · rw [hend, segment_nil] at htail
        cases htail
        trivial
      · rw [skim_eq_resume hend] at hskim
        exact (ih (.inl rfl) htail hskim).2

theorem result_skim (hnodup : (T.patterns.map (·.1)).Nodup)
    (hok : (segment T.patterns T.source T.input before rest).result = .ok ts)
    (hresumes : Resumes T.patterns T.dropped (ts.map (·.kind))) :
    (T.skim before rest).result = .ok (T.kept ts) := by
  by_cases hrest : rest = []
  · rw [hrest, segment_nil] at hok
    cases hok
    rw [hrest, skim_nil]
    rfl
  · rw [skim_eq_resume hrest]
    exact result_resume hnodup (List.suffix_refl _) hok (ready_segment hrest hok) hresumes

theorem resumes_of_result_skim {single : String}
    (hsingle : ∀ kind, T.dropped kind = true ↔ kind = single)
    (hnodup : (T.patterns.map (·.1)).Nodup)
    (hok : (segment T.patterns T.source T.input before rest).result = .ok ts)
    (h : (T.skim before rest).result = .ok (T.kept ts)) :
    Resumes T.patterns T.dropped (ts.map (·.kind)) := by
  by_cases hrest : rest = []
  · rw [hrest, segment_nil] at hok
    cases hok
    trivial
  · rw [skim_eq_resume hrest] at h
    exact (resumes_of_result_resume hsingle hnodup (.inl rfl) hok h).2

end Task

end Segmentation

open Segmentation

def Machine.dropping (m : Machine) (dropped : String → Bool) (captures : List (String × Pattern)) :
    Machine :=
  m.withHandlers (captures.map fun (kind, p) => (kind, handler dropped kind p))

/-- What a lexer that drops makes of an input all of which segmentation goes over. -/
theorem tokenize_dropping_of_segment (depth : Nat) {captures : List (String × Pattern)}
    {m : Machine} {input : Text} {bound : Nat} {ts : List Token}
    (hmode : m.lexer.options.mode = .token) (hquiet : m.lexer.options.hooks.onError = false)
    (hbound : input.length < bound)
    (hok : (segment (Registry.ofList captures).entries m.lexer.options.source input []
      input).result = .ok ts) (dropped : String → Bool) :
    ∃ r n, LexM.tokenize (Handler.call (depth + 1)) bound input (m.dropping dropped captures) =
        some (r, n) ∧
      (Resumes (Registry.ofList captures).entries dropped (ts.map (·.kind)) →
        r = .ok (ts.filter fun t => !dropped t.kind)) ∧
      ∀ single, dropped = (· == single) → r = .ok (ts.filter fun t => !dropped t.kind) →
        Resumes (Registry.ofList captures).entries dropped (ts.map (·.kind)) := by
  let T : Task := ⟨(Registry.ofList captures).entries, dropped, m.lexer.options.source, input⟩
  have hregistry : (m.dropping dropped captures).lexer.registry = T.registry :=
    Registry.ofList_map (handler dropped) captures
  have hnodup : (T.patterns.map (·.1)).Nodup := Registry.nodup_kinds_ofList captures
  obtain ⟨passed, n, hrun, -⟩ := T.tokenize_eq depth hregistry hmode rfl hquiet hbound
  refine ⟨_, n, hrun, ?_, ?_⟩
  · exact T.result_skim hnodup hok
  · rintro single rfl hresult
    exact T.resumes_of_result_skim (fun kind => beq_iff_eq) hnodup hok hresult

/-- Let a lexer of captured patterns make tokens of an input. If it drops those of some kinds, it
makes the same without them as far as rounds go on behind the dropped: for any kinds that is enough,
for a single kind there is no other way, nor is there one for all choices of kinds together. -/
theorem tokenize_dropping {captures : List (String × Pattern)} {m k : Machine} {input : Text}
    {depth bound : Nat} {ts : List Token} (hmode : m.lexer.options.mode = .token)
    (hquiet : m.lexer.options.hooks.onError = false) (hbound : input.length < bound)
    (hall : LexM.tokenize (Handler.call (depth + 1)) bound input
      (m.withHandlers (captures.map fun (kind, p) => (kind, .ofPattern kind p))) =
        some (.ok ts, k)) :
    (∀ dropped : String → Bool, ∃ r n,
      LexM.tokenize (Handler.call (depth + 1)) bound input (m.dropping dropped captures) =
        some (r, n) ∧
      (Resumes (Registry.ofList captures).entries dropped (ts.map (·.kind)) →
        r = .ok (ts.filter fun t => !dropped t.kind)) ∧
      ∀ single, dropped = (· == single) → r = .ok (ts.filter fun t => !dropped t.kind) →
        Resumes (Registry.ofList captures).entries dropped (ts.map (·.kind))) ∧
    ((∀ dropped : String → Bool, ∃ n,
      LexM.tokenize (Handler.call (depth + 1)) bound input (m.dropping dropped captures) =
        some (.ok (ts.filter fun t => !dropped t.kind), n)) ↔
      ∀ dropped, Resumes (Registry.ofList captures).entries dropped (ts.map (·.kind))) := by
  have hok : (segment (Registry.ofList captures).entries m.lexer.options.source input []
      input).result = .ok ts := by
    obtain ⟨n, hrun, -⟩ := tokenize_eq_segment captures depth hmode hquiet hbound rfl
    rw [hrun] at hall
    exact congrArg Prod.fst (Option.some.inj hall)
  have heach := tokenize_dropping_of_segment depth hmode hquiet hbound hok
  refine ⟨heach, fun h dropped => ?_, fun h dropped => ?_⟩
  · refine resumes_of_each (fun single => ?_) dropped
    obtain ⟨r, n, hrun, -, honly⟩ := heach (· == single)
    obtain ⟨n', hrun'⟩ := h (· == single)
    rw [hrun] at hrun'
    obtain ⟨rfl, -⟩ := Prod.mk.inj (Option.some.inj hrun')
    exact honly single rfl rfl
  · obtain ⟨r, n, hrun, hsuffices, -⟩ := heach dropped
    obtain rfl := hsuffices (h dropped)
    exact ⟨n, hrun⟩

theorem tokenize_dropping_letters :
    (Machine.fresh "" []).lexer.options.mode = .token ∧
      (Machine.fresh "" []).lexer.options.hooks.onError = false ∧ "a a".toList.length < 4 ∧
      ∃ ts k, LexM.tokenize (Handler.call 1) 4 "a a".toList
          ((Machine.fresh "" []).withHandlers
            (gappedLetters.map fun (kind, p) => (kind, .ofPattern kind p))) = some (.ok ts, k) ∧
        Resumes (Registry.ofList gappedLetters).entries (· == "letter") (ts.map (·.kind)) ∧
        ¬Resumes (Registry.ofList gappedLetters).entries (· == "gap") (ts.map (·.kind)) ∧
        (∀ dropped : String → Bool, ∃ r n,
          LexM.tokenize (Handler.call 1) 4 "a a".toList
              ((Machine.fresh "" []).dropping dropped gappedLetters) = some (r, n) ∧
          (Resumes (Registry.ofList gappedLetters).entries dropped (ts.map (·.kind)) →
            r = .ok (ts.filter fun t => !dropped t.kind)) ∧
          ∀ single, dropped = (· == single) → r = .ok (ts.filter fun t => !dropped t.kind) →
            Resumes (Registry.ofList gappedLetters).entries dropped (ts.map (·.kind))) ∧
        ((∀ dropped : String → Bool, ∃ n,
          LexM.tokenize (Handler.call 1) 4 "a a".toList
              ((Machine.fresh "" []).dropping dropped gappedLetters) =
            some (.ok (ts.filter fun t => !dropped t.kind), n)) ↔
          ∀ dropped,
            Resumes (Registry.ofList gappedLetters).entries dropped (ts.map (·.kind))) := by
  have hbound : "a a".toList.length < 4 := by decide
  have hshown : LexM.shown (LexM.tokenize (Handler.call 1) 4 "a a".toList)
      ((Machine.fresh "" []).withHandlers
        (gappedLetters.map fun (kind, p) => (kind, .ofPattern kind p)))
      (·.map (·.kind)) (fun _ => ()) = some (some ["letter", "gap", "letter"], ()) := by
    decide +kernel
  obtain ⟨ts, k, hall, hkinds, -⟩ := LexM.exists_of_shown hshown
  refine ⟨rfl, rfl, hbound, ts, k, hall, ?_, ?_, tokenize_dropping rfl rfl hbound hall⟩
  · rw [hkinds]
    decide +kernel
  · rw [hkinds]
    decide +kernel

/-- Behind a gap that is dropped no pattern is left for the letter. -/
theorem tokenize_stops_behind_gap :
    (∃ ts k, LexM.tokenize (Handler.call 1) 4 "a a".toList
        ((Machine.fresh "" []).withHandlers
          (gappedLetters.map fun (kind, p) => (kind, .ofPattern kind p))) = some (.ok ts, k) ∧
      ts.map (·.kind) = ["letter", "gap", "letter"]) ∧
    ∃ n, LexM.tokenize (Handler.call 1) 4 "a a".toList
        ((Machine.fresh "" []).dropping (· == "gap") gappedLetters) =
      some (.error (.unmatchedInput ['a'] ⟨2, 1, 3⟩), n) := by
  have hshown : LexM.shown (LexM.tokenize (Handler.call 1) 4 "a a".toList)
      ((Machine.fresh "" []).withHandlers
        (gappedLetters.map fun (kind, p) => (kind, .ofPattern kind p)))
      (·.map (·.kind)) (fun _ => ()) = some (some ["letter", "gap", "letter"], ()) := by
    decide +kernel
  have hfail : (LexM.tokenize (Handler.call 1) 4 "a a".toList
      ((Machine.fresh "" []).dropping (· == "gap") gappedLetters)).map
        (fun (r, _) => match r with | .ok _ => none | .error e => some e) =
      some (some (.unmatchedInput ['a'] ⟨2, 1, 3⟩)) := by
    decide +kernel
  obtain ⟨ts, k, hall, hkinds, -⟩ := LexM.exists_of_shown hshown
  obtain ⟨⟨r, n⟩, hrun, hr⟩ := Option.map_eq_some_iff.1 hfail
  refine ⟨⟨ts, k, hall, hkinds⟩, n, ?_⟩
  cases r with
  | ok _ => cases hr
  | error e => rw [hrun, Option.some.inj hr]

end ModularLexer
