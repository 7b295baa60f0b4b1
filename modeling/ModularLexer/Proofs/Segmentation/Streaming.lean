import ModularLexer.Proofs.Runs.Evaluation
import ModularLexer.Proofs.Segmentation.Capturing

/-!
Lexers whose handlers look ahead in the stream of tokens that their patterns make of an input: what
the handlers do, and where in the stream a machine is.
-/
namespace ModularLexer

/-- The handler of a pattern that looks so far ahead, unless by zero, before it hands its token
on. -/
def Handler.peeking (ahead : Nat) (kind : String) (pattern : Pattern) : Handler :=
  if ahead = 0 then .ofPattern kind pattern
  else .ofPatternWith kind pattern fun t => do
    let _ ← Program.request (.lookahead ahead)
    return some t

namespace Handler

variable {depth ahead : Nat} {kind : String} {p : Pattern} {m n k : Machine} {t : Token}

def peek (ahead : Nat) : Option Token → Program Handler (Option Token)
  | some t =>
    if ahead = 0 then return some t
    else do
      let _ ← Program.request (.lookahead ahead)
      return some t
  | none => return none

theorem program_peeking (ahead : Nat) (kind : String) (p : Pattern) :
    (peeking ahead kind p).program = Program.request (.scan p kind) >>= peek ahead := by
  unfold peeking
  split
  · next h =>
    have hpeek : peek ahead = Pure.pure := by
      funext t?
      cases t? with
      | none => rfl
      | some t => exact if_pos h
    rw [hpeek, bind_pure]
    rfl
  · next h =>
    refine bind_congr fun t? => ?_
    cases t? with
    | none => rfl
    | some t => exact (if_neg h).symm

theorem watched_peeking (depth ahead : Nat) (kind : String) (p : Pattern) :
    Handler.watched (depth + 1) (peeking ahead kind p) =
      (Program.request (.scan p kind) >>= peek ahead).watched (Handler.watched depth) depth := by
  rw [← program_peeking]
  rfl

theorem watched_peeking_of_error (depth ahead : Nat) {e : LexError}
    (h : LexM.scan p kind m = some (.error e, n)) :
    ∃ sights, Handler.watched (depth + 1) (peeking ahead kind p) m =
        (sights, some (.error e, n)) ∧ Accounts sights [] [] := by
  have hscan : (Request.scan p kind).watched (Handler.watched depth) depth m =
      ([], some (.error e, n)) := congrArg (Prod.mk []) h
  rw [watched_peeking, Program.watched_request_bind_of_error hscan]
  exact ⟨_, rfl, (Accounts.station _ _).append
    (Accounts.nil.append ((Accounts.scan _ _ _ _).append (.station _ _)))⟩

theorem watched_peeking_of_none (depth ahead : Nat) (h : LexM.scan p kind m = some (.ok none, n)) :
    ∃ sights, Handler.watched (depth + 1) (peeking ahead kind p) m =
        (sights, some (.ok none, n)) ∧ Accounts sights [] [] := by
  have hscan : (Request.scan p kind).watched (Handler.watched depth) depth m =
      ([], some (.ok none, n)) := congrArg (Prod.mk []) h
  rw [watched_peeking, Program.watched_request_bind hscan]
  exact ⟨_, rfl, (Accounts.station _ _).append
    (Accounts.nil.append ((Accounts.scan _ _ _ _).append (.station _ _)))⟩

theorem watched_peeking_zero (depth : Nat) (h : LexM.scan p kind m = some (.ok (some t), n)) :
    ∃ sights, Handler.watched (depth + 1) (peeking 0 kind p) m =
        (sights, some (.ok (some t), n)) ∧ Accounts sights [] [] := by
  have hscan : (Request.scan p kind).watched (Handler.watched depth) depth m =
      ([], some (.ok (some t), n)) := congrArg (Prod.mk []) h
  rw [watched_peeking, Program.watched_request_bind hscan]
  exact ⟨_, rfl, (Accounts.station _ _).append
    (Accounts.nil.append ((Accounts.scan _ _ _ _).append (.station _ _)))⟩

/-- The look ahead is taken from where the token stops. -/
theorem watched_peeking_of_look {sights : List Sight} {tokens : List Token} {looks : List Look}
    {seen : Option Token} (hahead : ahead ≠ 0) (h : LexM.scan p kind m = some (.ok (some t), n))
    (hlook : Watched.lookahead (Handler.watched depth) ahead n = (sights, some (.ok seen, k)))
    (haccounts : Accounts sights tokens looks) :
    ∃ sights', Handler.watched (depth + 1) (peeking ahead kind p) m =
        (sights', some (.ok (some t), k)) ∧
      Accounts sights' tokens (⟨some n.lexer.pass.position, ahead, .ok seen⟩ :: looks) := by
  have hscan : (Request.scan p kind).watched (Handler.watched depth) depth m =
      ([], some (.ok (some t), n)) := congrArg (Prod.mk []) h
  have hrequest : (Request.lookahead ahead).watched (Handler.watched depth) depth n =
      (sights, some (.ok seen, k)) := hlook
  have hpeek : peek ahead (some t) = do
      let _ ← Program.request (.lookahead ahead)
      return some t := if_neg hahead
  rw [watched_peeking, Program.watched_request_bind hscan, hpeek,
    Program.watched_request_bind hrequest]
  have hall := (Accounts.station m (some (.scan p kind))).append
    (Accounts.nil.append ((Accounts.scan m p kind (.ok (some t))).append
      ((Accounts.station n (some (.lookahead ahead))).append
        (haccounts.append ((Accounts.lookahead n ahead (.ok seen)).append (.station k none))))))
  refine ⟨_, rfl, hall.perm ?_ ?_⟩
  · simp
  · simp

end Handler

namespace Segmentation

def characterAt (source : Option String) (before : Text) (c : Char) : Token where
  kind := LexM.characterKind
  value := some [c]
  captures := none
  location := some ⟨before.stop, (before ++ [c]).stop, source⟩

def characters (source : Option String) : Text → Text → Outcome
  | _, [] => ⟨[], [], none⟩
  | before, c :: rest =>
    .cons (characterAt source before c) (characters source (before ++ [c]) rest)

/-- A lexer of patterns, how far the handlers of their kinds look ahead, and an input. -/
structure Plan where
  patterns : List (String × Pattern)
  ahead : String → Nat
  options : Options
  input : Text

namespace Plan

variable (P : Plan)

def registry : Registry Handler :=
  Registry.map (fun kind p => .peeking (P.ahead kind) kind p) ⟨P.patterns⟩

def outcome (before rest : Text) : Outcome :=
  match P.options.mode with
  | .token => segment P.patterns P.options.source P.input before rest
  | .character => characters P.options.source before rest

@[simp] theorem outcome_nil (before : Text) : P.outcome before [] = ⟨[], [], none⟩ := by
  unfold outcome
  cases P.options.mode with
  | token => exact segment_nil
  | character => rfl

def whole : Outcome := P.outcome [] P.input

end Plan

/-- How far ahead is looked for a token of a kind. Single characters are made without handlers. -/
def reach (mode : Mode) (ahead : String → Nat) (kind : String) : Nat :=
  match mode with
  | .token => ahead kind
  | .character => 0

/-- The looks ahead for the tokens of a stream from a place on. For a token that one is taken for it
is taken from where the token stops, and shows the token that stands so many places behind it. -/
def looks (reach : String → Nat) (stream : List Token) : Nat → List Token → List Look
  | _, [] => []
  | i, t :: ts =>
    if reach t.kind = 0 then looks reach stream (i + 1) ts
    else ⟨t.location.map (·.stop), reach t.kind, .ok stream[i + reach t.kind]?⟩ ::
      looks reach stream (i + 1) ts

theorem looks_append (reach : String → Nat) (stream ts us : List Token) (i : Nat) :
    looks reach stream i (ts ++ us) =
      looks reach stream i ts ++ looks reach stream (i + ts.length) us := by
  induction ts generalizing i with
  | nil => rfl
  | cons t ts ih =>
    have hplace : i + 1 + ts.length = i + (t :: ts).length := by
      rw [List.length_cons]
      omega
    rw [List.cons_append, looks, looks, ih, hplace]
    split <;> rfl

namespace Plan

def looked (P : Plan) (i : Nat) (ts : List Token) : List Look :=
  looks (reach P.options.mode P.ahead) P.whole.tokens i ts

structure Place (P : Plan) (before : Text) (m : Machine) : Prop where
  registry : m.lexer.registry = P.registry
  options : m.lexer.options = P.options
  input : m.lexer.pass.input = P.input
  offset : m.lexer.pass.offset = before.byteLength
  position : m.lexer.pass.position = before.stop

/-- A machine of a plan that has drawn some tokens of the stream, some of which wait, and to which
others are still to come. -/
structure At (P : Plan) (drawn coming waiting listed : List Token) (m : Machine) : Prop where
  place : ∃ before, P.Place before m ∧
    P.outcome before m.lexer.pass.rest = ⟨coming, P.whole.rest, P.whole.failure⟩
  stream : P.whole.tokens = drawn ++ coming
  queue : m.queue = waiting
  tokens : m.lexer.pass.tokens.toList = listed
  stack : m.lexer.pass.stack = []

variable {P : Plan} {before rest : Text} {drawn coming waiting listed : List Token} {m n : Machine}

theorem Place.of_lexer_eq (hm : P.Place before m) (h : n.lexer = m.lexer) : P.Place before n := by
  obtain ⟨lexer, journal⟩ := n
  obtain rfl : lexer = m.lexer := h
  exact { hm with }

theorem Place.past (taken after : Text) (hm : P.Place before m) :
    P.Place (before ++ taken) (m.withPass (m.lexer.pass.past taken after)) :=
  { hm with
    offset := by
      rw [Text.byteLength_append, ← hm.offset]
      rfl
    position := by
      rw [Text.stop_append, ← hm.position]
      rfl }

namespace At

/-- Only the lexer of a machine counts. -/
theorem of_lexer_eq (hm : P.At drawn coming waiting listed m) (h : n.lexer = m.lexer) :
    P.At drawn coming waiting listed n := by
  obtain ⟨lexer, journal⟩ := n
  obtain rfl : lexer = m.lexer := h
  obtain ⟨before, hplace, houtcome⟩ := hm.place
  exact { hm with place := ⟨before, hplace.of_lexer_eq rfl, houtcome⟩ }

theorem withQueue (hm : P.At drawn coming waiting listed m) (queue : List Token) :
    P.At drawn coming queue listed (m.withQueue queue) := by
  obtain ⟨before, hplace, houtcome⟩ := hm.place
  exact { hm with place := ⟨before, { hplace with }, houtcome⟩, queue := rfl }

theorem push (hm : P.At drawn coming waiting listed m) (t : Token) :
    ∃ n, LexM.push t m = some (.ok (), n) ∧
      P.At drawn coming waiting (listed ++ [t]) n := by
  obtain ⟨before, hplace, houtcome⟩ := hm.place
  have hpushed : P.At drawn coming waiting (listed ++ [t]) (m.withPass (m.lexer.pass.push t)) :=
    { hm with
      place := ⟨before, { hplace with }, houtcome⟩
      tokens := by
        rw [← hm.tokens]
        exact Array.toList_push }
  refine ⟨_, LexM.push_apply t m, hpushed.of_lexer_eq ?_⟩
  rw [Machine.withPass, Machine.lexer_told]
  rfl

/-- Going over the text of the next token draws it. -/
theorem past {t : Token} {taken after : Text} (hm : P.At drawn coming waiting listed m)
    (hplace : P.Place before m)
    (houtcome : P.outcome before m.lexer.pass.rest = ⟨coming, P.whole.rest, P.whole.failure⟩)
    (hnext : P.outcome before m.lexer.pass.rest = .cons t (P.outcome (before ++ taken) after)) :
    ∃ later, coming = t :: later ∧
      P.At (drawn ++ [t]) later waiting listed (m.withPass (m.lexer.pass.past taken after)) := by
  obtain ⟨tokens, left, failure, hafter⟩ :
      ∃ tokens left failure, P.outcome (before ++ taken) after = ⟨tokens, left, failure⟩ :=
    ⟨_, _, _, rfl⟩
  rw [houtcome, hafter] at hnext
  obtain ⟨hcoming, hrest, hfailure⟩ := Outcome.mk.inj hnext
  refine ⟨tokens, hcoming, ?_⟩
  exact
    { place := by
        refine ⟨before ++ taken, hplace.past taken after, ?_⟩
        rw [hrest, hfailure]
        exact hafter
      stream := by rw [hm.stream, hcoming, List.append_assoc, List.singleton_append]
      queue := hm.queue
      tokens := hm.tokens
      stack := hm.stack }

end At

/-- What lies between two machines of a plan: some tokens were drawn, and all that was seen of
drawing them is that each was derived once, with the look ahead for it. -/
structure Draws (P : Plan) (drawn ts later waiting listed : List Token) (sights : List Sight)
    (n : Machine) : Prop where
  place : P.At (drawn ++ ts) later waiting listed n
  accounts : Accounts sights ts (P.looked drawn.length ts)

namespace Draws

variable {ts us later later' waiting' listed' : List Token} {sights sights' : List Sight}

theorem refl (hm : P.At drawn coming waiting listed m) :
    P.Draws drawn [] coming waiting listed [] m where
  place := by
    rw [List.append_nil]
    exact hm
  accounts := .nil

theorem trans (h : P.Draws drawn ts later waiting listed sights m)
    (h' : P.Draws (drawn ++ ts) us later' waiting' listed' sights' n) :
    P.Draws drawn (ts ++ us) later' waiting' listed' (sights ++ sights') n where
  place := by
    rw [← List.append_assoc]
    exact h'.place
  accounts := by
    rw [looked, looks_append, ← List.length_append]
    exact h.accounts.append h'.accounts

end Draws

/-- Nothing keeps the lexer from making tokens up to the end: errors are taken over, or there are
none. -/
def Open (P : Plan) : Prop := P.options.hooks.onError = true ∨ P.whole.failure = none

end Plan

end Segmentation

end ModularLexer
