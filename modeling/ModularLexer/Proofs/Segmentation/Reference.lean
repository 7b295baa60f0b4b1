import ModularLexer.Token
import ModularLexer.Pattern
import ModularLexer.Proofs.Regex.Characters

/-!
Segmentation by first match. What a list of patterns makes of a text, said without the lexer: at
each suffix that is not empty the first pattern with something to say decides. Where the end is
reached the tokens tile the text.
-/
namespace ModularLexer

def Text.slice? (start stop : Nat) (t : Text) : Option Text := do
  let (_, t) ← splitBytes? start t
  let (t, _) ← splitBytes? (stop - start) t
  return t

theorem Text.slice?_middle (a b c : Text) :
    slice? (byteLength a) (byteLength (a ++ b)) (a ++ (b ++ c)) = some b := by
  have ha : splitBytes? (byteLength a) (a ++ (b ++ c)) = some (a, b ++ c) :=
    splitBytes?_eq_some_iff.2 ⟨rfl, rfl⟩
  have hb : splitBytes? (byteLength b) (b ++ c) = some (b, c) :=
    splitBytes?_eq_some_iff.2 ⟨rfl, rfl⟩
  rw [slice?, ha, byteLength_append, Nat.add_sub_cancel_left]
  simp only [Option.bind_eq_bind, Option.bind_some, hb]
  rfl

def Text.stop (t : Text) : Position := Position.start.advance t (byteLength t)

theorem Text.stop_append (a b : Text) : (a ++ b).stop = a.stop.advance b b.byteLength := by
  rw [stop, stop, Position.advance_advance, byteLength_append]

theorem Text.index_stop (t : Text) : t.stop.index = .ofNat t.byteLength := UInt64.zero_add _

theorem Text.Fits.index_stop {t : Text} (h : t.Fits) : t.stop.index.toNat = t.byteLength := by
  rw [Text.index_stop]
  exact h.toNat_ofNat (Nat.le_succ _)

/-- Behind the characters that pass a test comes one that does not, or nothing. -/
theorem Text.stops_dropWhile (passes : Char → Bool) (t : Text) :
    ∀ c ∈ (t.dropWhile passes).head?, passes c = false := by
  intro c hc
  have hstop := List.head?_dropWhile_not passes t
  rw [Option.mem_def.1 hc] at hstop
  exact hstop

theorem Text.takeWhile_of_stops {passes : Char → Bool} {t : Text}
    (h : ∀ c ∈ t.head?, passes c = false) : t.takeWhile passes = [] := by
  cases t with
  | nil => rfl
  | cons c t => simp [h c rfl]

namespace Segmentation

/-- The texts of the groups of a match, the whole match first. -/
abbrev Groups := List (Option Text)

def fullText (groups : Groups) : Text := groups[0]?.join.getD []

/-- The first group if it took part and is not empty, else the whole match. -/
def valueText (groups : Groups) : Text :=
  match groups[1]?.join with
  | some (c :: text) => c :: text
  | _ => fullText groups

/-- What a pattern catches at the start of a text, if its leftmost match begins there. -/
def groupsAt? (p : Pattern) (rest : Text) : Option Groups :=
  match p.regex.search rest with
  | some (0, m) => some ((List.range p.regex.groups).map (Regex.groupText? m rest))
  | _ => none

/-- What a pattern says of a text: an error, nothing, or the groups of a match at its start. -/
def verdict (p : Pattern) (rest : Text) : Except LexError (Option Groups) :=
  if p.source.toList.head? = some '^' then
    match groupsAt? p rest with
    | none => .ok none
    | some groups =>
      if fullText groups = [] then .error (.emptyMatch p.source) else .ok (some groups)
  else .error (.configuration p.source)

/-- What the first pattern says that has something to say. -/
def firstMatch : List (String × Pattern) → Text → Except LexError (Option (String × Groups))
  | [], _ => .ok none
  | (kind, p) :: patterns, rest =>
    match verdict p rest with
    | .error e => .error e
    | .ok (some groups) => .ok (some (kind, groups))
    | .ok none => firstMatch patterns rest

def tokenAt (source : Option String) (input before : Text) (kind : String) (groups : Groups) :
    Token where
  kind := kind
  value := some (valueText groups)
  captures := some ⟨groups, before.byteLength, input⟩
  location := some ⟨before.stop, (before ++ fullText groups).stop, source⟩

def unmatched (before rest : Text) : LexError := .unmatchedInput (Text.excerpt rest) before.stop

theorem groupsAt?_eq (p : Pattern) (rest : Text) : groupsAt? p rest = p.regex.groupTexts? rest := by
  unfold groupsAt? Regex.groupTexts?
  cases hs : p.regex.matchStart rest with
  | some m =>
    rw [Regex.search_eq_some_zero_iff.2 hs]
    rfl
  | none =>
    split
    · next m h =>
      rw [Regex.search_eq_some_zero_iff.1 h] at hs
      cases hs
    · rfl

/-- The whole match is the text from the start on, as far as the match goes. -/
theorem fullText_groupTexts {groups : Nat} (hgroups : 0 < groups) (m : Regex.Match) (rest : Text) :
    fullText ((List.range groups).map (Regex.groupText? m rest)) = rest.take m.1 := by
  have hzero : ((List.range groups).map (Regex.groupText? m rest))[0]? =
      some (some (rest.take m.1)) := by
    rw [List.getElem?_map, List.getElem?_range hgroups]
    rfl
  rw [fullText, hzero]
  rfl

theorem prefix_of_groupsAt? {p : Pattern} {rest : Text} {groups : Groups}
    (h : groupsAt? p rest = some groups) : fullText groups <+: rest := by
  rw [groupsAt?_eq] at h
  obtain ⟨m, -, rfl⟩ := Option.map_eq_some_iff.1 h
  rcases Nat.eq_zero_or_pos p.regex.groups with hnone | hgroups
  · rw [hnone]
    exact List.nil_prefix
  · rw [fullText_groupTexts hgroups]
    exact List.take_prefix _ _

theorem of_verdict_eq_some {p : Pattern} {rest : Text} {groups : Groups}
    (h : verdict p rest = .ok (some groups)) : fullText groups ≠ [] ∧ fullText groups <+: rest := by
  unfold verdict at h
  split at h
  · split at h
    · cases h
    · next found hg =>
      split at h
      · cases h
      · next hne =>
        cases h
        exact ⟨hne, prefix_of_groupsAt? hg⟩
  · cases h

/-- What a run of characters says of a text: nothing where the text begins with none of them, and
else as many as it begins with. -/
theorem verdict_run {source : String} (hsource : source.toList.head? = some '^') (set : CharSet)
    (rest : Text) :
    verdict
        ⟨source, .ofNode (.append (.check .textStart) (.iterate (.char set) 1 none true))⟩ rest =
      if rest.takeWhile set.contains = [] then .ok none
      else .ok (some [some (rest.takeWhile set.contains)]) := by
  unfold verdict
  rw [if_pos hsource, groupsAt?_eq, Regex.groupTexts?_run]
  by_cases hnone : rest.takeWhile set.contains = []
  · rw [if_pos hnone, if_pos hnone]
  · rw [if_neg hnone, if_neg hnone]
    exact if_neg hnone

def Silent (patterns : List (String × Pattern)) (rest : Text) : Prop :=
  ∀ pattern ∈ patterns, verdict pattern.2 rest = .ok none

section First

variable {patterns : List (String × Pattern)} {rest : Text} {kind : String}

theorem silent_nil : Silent [] rest := by
  intro pattern hmem
  cases hmem

theorem silent_cons {p : Pattern} (hv : verdict p rest = .ok none) (h : Silent patterns rest) :
    Silent ((kind, p) :: patterns) rest := by
  intro pattern hmem
  rcases List.mem_cons.1 hmem with rfl | hmem
  · exact hv
  · exact h pattern hmem

/-- Either no pattern has anything to say, or one has behind those that have not. -/
theorem firstMatch_cases (patterns : List (String × Pattern)) (rest : Text) :
    (Silent patterns rest ∧ firstMatch patterns rest = .ok none) ∨
      ∃ front kind p tail, patterns = front ++ (kind, p) :: tail ∧ Silent front rest ∧
        ((∃ e, verdict p rest = .error e ∧ firstMatch patterns rest = .error e) ∨
          ∃ groups, verdict p rest = .ok (some groups) ∧
            firstMatch patterns rest = .ok (some (kind, groups))) := by
  induction patterns with
  | nil => exact .inl ⟨silent_nil, rfl⟩
  | cons pattern patterns ih =>
    obtain ⟨kind, p⟩ := pattern
    rcases hv : verdict p rest with e | _ | groups
    · have hfirst : firstMatch ((kind, p) :: patterns) rest = .error e := by rw [firstMatch, hv]
      exact .inr ⟨[], kind, p, patterns, rfl, silent_nil, .inl ⟨e, hv, hfirst⟩⟩
    · have hskip : firstMatch ((kind, p) :: patterns) rest = firstMatch patterns rest := by
        rw [firstMatch, hv]
      rw [hskip]
      rcases ih with ⟨hsilent, hnone⟩ | ⟨front, other, q, tail, rfl, hsilent, hfirst⟩
      · exact .inl ⟨silent_cons hv hsilent, hnone⟩
      · exact .inr ⟨(kind, p) :: front, other, q, tail, rfl, silent_cons hv hsilent, hfirst⟩
    · have hfirst : firstMatch ((kind, p) :: patterns) rest = .ok (some (kind, groups)) := by
        rw [firstMatch, hv]
      exact .inr ⟨[], kind, p, patterns, rfl, silent_nil, .inr ⟨groups, hv, hfirst⟩⟩

theorem silent_of_firstMatch (h : firstMatch patterns rest = .ok none) : Silent patterns rest := by
  rcases firstMatch_cases patterns rest with
    ⟨hsilent, -⟩ | ⟨front, other, p, tail, -, -, ⟨e, -, hfirst⟩ | ⟨groups, -, hfirst⟩⟩
  · exact hsilent
  · rw [h] at hfirst
    cases hfirst
  · rw [h] at hfirst
    cases hfirst

theorem exists_of_firstMatch_error {e : LexError} (h : firstMatch patterns rest = .error e) :
    ∃ front kind p tail, patterns = front ++ (kind, p) :: tail ∧ Silent front rest ∧
      verdict p rest = .error e := by
  rcases firstMatch_cases patterns rest with
    ⟨-, hnone⟩ | ⟨front, kind, p, tail, heq, hsilent, ⟨e', hv, hfirst⟩ | ⟨groups, -, hfirst⟩⟩
  · rw [h] at hnone
    cases hnone
  · rw [h] at hfirst
    cases hfirst
    exact ⟨front, kind, p, tail, heq, hsilent, hv⟩
  · rw [h] at hfirst
    cases hfirst

theorem exists_of_firstMatch_match {groups : Groups}
    (h : firstMatch patterns rest = .ok (some (kind, groups))) :
    ∃ front p tail, patterns = front ++ (kind, p) :: tail ∧ Silent front rest ∧
      verdict p rest = .ok (some groups) := by
  rcases firstMatch_cases patterns rest with
    ⟨-, hnone⟩ | ⟨front, other, p, tail, heq, hsilent, ⟨e, -, hfirst⟩ | ⟨found, hv, hfirst⟩⟩
  · rw [h] at hnone
    cases hnone
  · rw [h] at hfirst
    cases hfirst
  · rw [h] at hfirst
    cases hfirst
    exact ⟨front, p, tail, heq, hsilent, hv⟩

theorem of_firstMatch_eq_some {groups : Groups}
    (h : firstMatch patterns rest = .ok (some (kind, groups))) :
    fullText groups ≠ [] ∧ fullText groups <+: rest := by
  obtain ⟨front, p, tail, -, -, hv⟩ := exists_of_firstMatch_match h
  exact of_verdict_eq_some hv

theorem mem_kinds_of_firstMatch {groups : Groups}
    (h : firstMatch patterns rest = .ok (some (kind, groups))) : kind ∈ patterns.map (·.1) := by
  obtain ⟨front, p, tail, rfl, -, -⟩ := exists_of_firstMatch_match h
  rw [List.map_append, List.map_cons]
  exact List.mem_append_right _ List.mem_cons_self

end First

/-- What segmentation gives: tokens, the text it is left with, and what went wrong there. -/
structure Outcome where
  tokens : List Token
  rest : Text
  failure : Option LexError

def Outcome.cons (t : Token) (o : Outcome) : Outcome := { o with tokens := t :: o.tokens }

def Outcome.result (o : Outcome) : Except LexError (List Token) :=
  match o.failure with
  | none => .ok o.tokens
  | some e => .error e

theorem Outcome.result_cons (t : Token) (o : Outcome) :
    (o.cons t).result = o.result.map (t :: ·) := by
  unfold result cons
  cases o.failure <;> rfl

theorem Outcome.result_cons_eq_ok_iff {t : Token} {o : Outcome} {ts : List Token} :
    (o.cons t).result = .ok ts ↔ ∃ tail, o.result = .ok tail ∧ ts = t :: tail := by
  rw [result_cons]
  cases o.result with
  | error e => simp [Except.map]
  | ok tail => simp [Except.map, eq_comm]

theorem Outcome.result_eq_ok_iff {o : Outcome} {ts : List Token} :
    o.result = .ok ts ↔ o.tokens = ts ∧ o.failure = none := by
  unfold result
  cases o.failure <;> simp

theorem length_drop_lt {groups : Groups} {rest : Text} (hne : fullText groups ≠ [])
    (hstarts : fullText groups <+: rest) :
    (rest.drop (fullText groups).length).length < rest.length := by
  have hpos : 0 < (fullText groups).length := List.length_pos_iff.2 hne
  have hle := hstarts.length_le
  rw [List.length_drop]
  omega

/-- The segmentation of the rest of an input behind a text. -/
def segment (patterns : List (String × Pattern)) (source : Option String)
    (input before rest : Text) : Outcome :=
  if rest = [] then ⟨[], [], none⟩
  else
    match _hm : firstMatch patterns rest with
    | .error e => ⟨[], rest, some e⟩
    | .ok none => ⟨[], rest, some (unmatched before rest)⟩
    | .ok (some (kind, groups)) =>
      .cons (tokenAt source input before kind groups)
        (segment patterns source input (before ++ fullText groups)
          (rest.drop (fullText groups).length))
termination_by rest.length
decreasing_by
  obtain ⟨hne, hstarts⟩ := of_firstMatch_eq_some _hm
  exact length_drop_lt hne hstarts

section Segment

variable {patterns : List (String × Pattern)} {source : Option String} {input before rest : Text}

@[simp] theorem segment_nil : segment patterns source input before [] = ⟨[], [], none⟩ := by
  rw [segment]
  rfl

theorem segment_of_error {e : LexError} (hrest : rest ≠ [])
    (h : firstMatch patterns rest = .error e) :
    segment patterns source input before rest = ⟨[], rest, some e⟩ := by
  rw [segment, if_neg hrest]
  split <;> simp_all

theorem segment_of_none (hrest : rest ≠ []) (h : firstMatch patterns rest = .ok none) :
    segment patterns source input before rest = ⟨[], rest, some (unmatched before rest)⟩ := by
  rw [segment, if_neg hrest]
  split <;> simp_all

theorem segment_of_match {kind : String} {groups : Groups} (hrest : rest ≠ [])
    (h : firstMatch patterns rest = .ok (some (kind, groups))) :
    segment patterns source input before rest =
      .cons (tokenAt source input before kind groups)
        (segment patterns source input (before ++ fullText groups)
          (rest.drop (fullText groups).length)) := by
  rw [segment, if_neg hrest]
  split <;> simp_all

/-- Segmentation fails exactly where it does not come to the end. -/
theorem failure_eq_none_iff : (segment patterns source input before rest).failure = none ↔
    (segment patterns source input before rest).rest = [] := by
  fun_induction segment patterns source input before rest with
  | case1 before => simp
  | case2 before rest hrest e h => simp [hrest]
  | case3 before rest hrest h => simp [hrest]
  | case4 before rest hrest kind groups h ih => exact ih

end Segment

end Segmentation

end ModularLexer
