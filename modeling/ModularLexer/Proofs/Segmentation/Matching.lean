import ModularLexer.Proofs.Effects
import ModularLexer.Proofs.Segmentation.Reference

/-!
Matching a pattern does what the pattern says of the rest: an error and a silence leave the machine
alone, and a match is consumed and nothing else.
-/
namespace ModularLexer

def Pass.past (p : Pass) (taken after : Text) : Pass :=
  { p.move taken taken.byteLength with
    offset := p.offset + taken.byteLength, rest := after, behind := taken.reverse ++ p.behind }

theorem Pass.past_nil (p : Pass) : p.past [] p.rest = p := by
  simp [past, move]

/-- Where only the list and the queue change, nothing is gone over. -/
theorem Pass.eq_past_nil (p : Pass) (tokens : Array Token) (queue : List Token) :
    { p with tokens := tokens, queue := queue } =
      { p.past [] p.rest with tokens := tokens, queue := queue } := by
  rw [past_nil]

def Token.unplaced (t : Token) : Token := { t with location := none }

namespace Machine

open Segmentation

def tokenOf (m : Machine) (kind : String) (groups : Groups) : Token where
  kind := kind
  value := some (valueText groups)
  captures := some ⟨groups, m.lexer.pass.offset, m.lexer.pass.input⟩
  location := some ⟨m.lexer.pass.position,
    m.lexer.pass.position.advance (fullText groups) (fullText groups).byteLength,
    m.lexer.options.source⟩

/-- A machine behind the text that a token was made of, its observers told. -/
def scanned (m : Machine) (t : Token) (taken after : Text) : Machine :=
  ((m.withPass (m.lexer.pass.past taken after)).told (·.onToken) (.token t.unplaced)).told
    (·.onScan) (.scan t)

@[simp] theorem lexer_scanned (m : Machine) (t : Token) (taken after : Text) :
    (m.scanned t taken after).lexer =
      { m.lexer with pass := m.lexer.pass.past taken after } := by
  rw [scanned, lexer_told, lexer_told]
  rfl

end Machine

namespace LexM

open Segmentation

theorem consume_apply {m : Machine} {taken after : Text} (h : m.lexer.pass.rest = taken ++ after) :
    consume taken.byteLength m = some (.ok taken, m.withPass (m.lexer.pass.past taken after)) := by
  have hc : m.lexer.pass.consume taken.byteLength =
      .ok (taken, m.lexer.pass.past taken after) :=
    Pass.consume_eq_ok_iff.2 ⟨after, h, rfl, rfl⟩
  unfold consume
  rw [bind_of_ok (pass_apply m), hc]
  rfl

variable {p : Pattern} {m : Machine}

theorem matchPattern_of_not_anchored (h : p.source.toList.head? ≠ some '^') :
    matchPattern p m = some (.error (.configuration p.source), m) := by
  have hvalid : p.validate = .error (.configuration p.source) := by
    unfold Pattern.validate Pattern.isAnchored
    rw [if_neg (by simpa using h)]
  unfold matchPattern
  rw [hvalid]
  rfl

theorem matchPattern_of_anchored (h : p.source.toList.head? = some '^') :
    matchPattern p m =
      match groupsAt? p m.lexer.pass.rest with
      | none => some (.ok none, m)
      | some groups =>
        if fullText groups = [] then some (.error (.emptyMatch p.source), m)
        else (consume (Text.byteLength (fullText groups)) >>= fun _ =>
          Pure.pure (some ⟨groups, m.lexer.pass.offset, m.lexer.pass.input⟩)) m := by
  have hvalid : p.validate = .ok () := by
    unfold Pattern.validate Pattern.isAnchored
    rw [if_pos (beq_iff_eq.2 h)]
  unfold matchPattern Pattern.read?
  rw [hvalid, bind_of_ok (ofExcept_apply (.ok ()) m), bind_of_ok (pass_apply m), groupsAt?_eq]
  rcases p.regex.groupTexts? m.lexer.pass.rest with _ | groups
  · rfl
  · by_cases hempty : fullText groups = []
    · have hc : Captures.isEmpty ⟨groups, m.lexer.pass.offset, m.lexer.pass.input⟩ = true :=
        List.isEmpty_iff.2 hempty
      simp only [Option.map_some, if_pos hempty, hc, ↓reduceIte]
      rfl
    · have hc : ¬Captures.isEmpty ⟨groups, m.lexer.pass.offset, m.lexer.pass.input⟩ = true := by
        rw [Captures.isEmpty, List.isEmpty_iff]
        exact hempty
      simp only [Option.map_some, if_neg hempty, if_neg hc]
      rfl

theorem matchPattern_of_error {e : LexError} (h : verdict p m.lexer.pass.rest = .error e) :
    matchPattern p m = some (.error e, m) := by
  unfold verdict at h
  by_cases ha : p.source.toList.head? = some '^'
  · rw [if_pos ha] at h
    rw [matchPattern_of_anchored ha]
    rcases hg : groupsAt? p m.lexer.pass.rest with _ | groups
    · rw [hg] at h
      cases h
    · rw [hg] at h
      dsimp only at h ⊢
      by_cases hempty : fullText groups = []
      · rw [if_pos hempty] at h ⊢
        cases h
        rfl
      · rw [if_neg hempty] at h
        cases h
  · rw [if_neg ha] at h
    cases h
    exact matchPattern_of_not_anchored ha

theorem matchPattern_of_none (h : verdict p m.lexer.pass.rest = .ok none) :
    matchPattern p m = some (.ok none, m) := by
  unfold verdict at h
  by_cases ha : p.source.toList.head? = some '^'
  · rw [if_pos ha] at h
    rw [matchPattern_of_anchored ha]
    rcases hg : groupsAt? p m.lexer.pass.rest with _ | groups
    · rfl
    · rw [hg] at h
      dsimp only at h
      split at h <;> cases h
  · rw [if_neg ha] at h
    cases h

theorem matchPattern_of_match {groups : Groups} {after : Text}
    (h : verdict p m.lexer.pass.rest = .ok (some groups))
    (hrest : m.lexer.pass.rest = fullText groups ++ after) :
    matchPattern p m =
      some (.ok (some ⟨groups, m.lexer.pass.offset, m.lexer.pass.input⟩),
        m.withPass (m.lexer.pass.past (fullText groups) after)) := by
  unfold verdict at h
  by_cases ha : p.source.toList.head? = some '^'
  · rw [if_pos ha] at h
    rw [matchPattern_of_anchored ha]
    rcases hg : groupsAt? p m.lexer.pass.rest with _ | found
    · rw [hg] at h
      cases h
    · rw [hg] at h
      dsimp only at h ⊢
      by_cases hempty : fullText found = []
      · rw [if_pos hempty] at h
        cases h
      · rw [if_neg hempty] at h ⊢
        cases h
        rw [bind_of_ok (consume_apply hrest)]
        rfl
  · rw [if_neg ha] at h
    cases h

variable (kind : String)

theorem scan_of_error {e : LexError} (h : verdict p m.lexer.pass.rest = .error e) :
    scan p kind m = some (.error e, m) := by
  unfold scan
  rw [bind_of_ok (pass_apply m), bind_of_error (matchPattern_of_error h)]

theorem scan_of_none (h : verdict p m.lexer.pass.rest = .ok none) :
    scan p kind m = some (.ok none, m) := by
  unfold scan
  rw [bind_of_ok (pass_apply m), bind_of_ok (matchPattern_of_none h)]
  rfl

/-- A match becomes a token with its location. Observers are told of the token before it is placed,
then of the one that is. -/
theorem scan_eq_of_match {groups : Groups} {after : Text}
    (h : verdict p m.lexer.pass.rest = .ok (some groups))
    (hrest : m.lexer.pass.rest = fullText groups ++ after) :
    scan p kind m = some (.ok (some (m.tokenOf kind groups)),
      m.scanned (m.tokenOf kind groups) (fullText groups) after) := by
  unfold scan
  rw [bind_of_ok (pass_apply m), bind_of_ok (matchPattern_of_match h hrest)]
  dsimp only
  rw [bind_of_ok (tokenFrom_apply kind _ _), bind_of_ok (locationFrom_apply _ _),
    bind_of_ok (notify_apply _ _ _), Machine.lexer_told]
  rfl

/-- Observers aside the machine is where the match was consumed. -/
theorem scan_of_match {groups : Groups} {after : Text}
    (h : verdict p m.lexer.pass.rest = .ok (some groups))
    (hrest : m.lexer.pass.rest = fullText groups ++ after) :
    ∃ n, scan p kind m =
        some (.ok (some
          { kind := kind
            value := some (valueText groups)
            captures := some ⟨groups, m.lexer.pass.offset, m.lexer.pass.input⟩
            location := some ⟨m.lexer.pass.position,
              (m.lexer.pass.past (fullText groups) after).position, m.lexer.options.source⟩ }), n) ∧
      n.lexer = { m.lexer with pass := m.lexer.pass.past (fullText groups) after } :=
  ⟨_, scan_eq_of_match kind h hrest, m.lexer_scanned _ _ _⟩

/-- A character becomes a token with its location; observers aside the machine is where the
character was consumed. -/
theorem characterToken_apply {c : Char} {after : Text} (hrest : m.lexer.pass.rest = c :: after) :
    ∃ n, characterToken c m =
        some (.ok
          { kind := characterKind
            value := some [c]
            captures := none
            location := some ⟨m.lexer.pass.position, (m.lexer.pass.past [c] after).position,
              m.lexer.options.source⟩ }, n) ∧
      n.lexer = { m.lexer with pass := m.lexer.pass.past [c] after } := by
  have hconsume : consume c.utf8Size m =
      some (.ok [c], m.withPass (m.lexer.pass.past [c] after)) :=
    consume_apply (show m.lexer.pass.rest = [c] ++ after from hrest)
  unfold characterToken token
  rw [bind_of_ok (pass_apply m), bind_of_ok hconsume, bind_assoc,
    bind_of_ok (notify_apply _ _ _), pure_bind, bind_of_ok (locationFrom_apply _ _),
    Machine.lexer_told]
  exact ⟨_, rfl, Machine.lexer_told _ _ _⟩

end LexM

end ModularLexer
