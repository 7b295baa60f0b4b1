import ModularLexer.Proofs.Coupling.Drivers
import ModularLexer.Proofs.Runs.Cursor
import ModularLexer.Proofs.Segmentation.Rounds
import ModularLexer.Proofs.Stream.Ending

/-!
Lexing with captured patterns depends only on what is left of the input. Wherever a lexer has come
to, it goes on as its fork does over the rest, with the places of tokens and errors counted from
there.
-/
namespace ModularLexer

open Watched (Coupled lift)

theorem Text.splitBytes?_append (front t : Text) (n : Nat) :
    splitBytes? (n + byteLength front) (front ++ t) =
      (splitBytes? n t).map fun (taken, after) => (front ++ taken, after) := by
  cases h : splitBytes? n t with
  | some r =>
    obtain ⟨taken, after⟩ := r
    obtain ⟨rfl, rfl⟩ := splitBytes?_eq_some_iff.1 h
    apply splitBytes?_eq_some_iff.2
    refine ⟨(List.append_assoc front taken after).symm, ?_⟩
    rw [byteLength_append, Nat.add_comm]
  | none =>
    -- A cut behind the front would cut the text, also if it is right at the end of the front.
    cases hall : splitBytes? (n + byteLength front) (front ++ t) with
    | none => rfl
    | some r =>
      obtain ⟨taken, after⟩ := r
      obtain ⟨heq, hlength⟩ := splitBytes?_eq_some_iff.1 hall
      rcases List.append_eq_append_iff.1 heq with ⟨more, rfl, rfl⟩ | ⟨more, rfl, rfl⟩
      · rw [byteLength_append] at hlength
        have hcut : splitBytes? n (more ++ after) = some (more, after) :=
          splitBytes?_eq_some_iff.2 ⟨rfl, by omega⟩
        rw [h] at hcut
        cases hcut
      · rw [byteLength_append] at hlength
        have hcut : splitBytes? n t = some ([], t) :=
          splitBytes?_eq_some_iff.2 ⟨rfl, by rw [byteLength_nil]; omega⟩
        rw [h] at hcut
        cases hcut

/-- A place of a text, where the text begins at an origin. Columns move on the first line only. -/
def Position.shift (origin p : Position) : Position where
  index := p.index + origin.index
  line := p.line + origin.line - 1
  column := if p.line = 1 then p.column + origin.column - 1 else p.column

/-- Lines count from one, and so many more can be counted. -/
structure Position.Counted (p : Position) (lines : Nat) : Prop where
  line : 1 ≤ p.line.toNat
  room : p.line.toNat + lines < UInt64.size

namespace Position

variable {p : Position} {lines : Nat}

@[simp] theorem shift_start (origin : Position) : origin.shift start = origin := by
  have hone (a : UInt64) : 1 + a - 1 = a := by grind
  simp [shift, start, hone]

theorem counted_start {t : Text} (h : t.Fits) : start.Counted (t.count '\n') := by
  have hcount : t.count '\n' ≤ t.length := List.count_le_length
  have hlength := t.length_le_byteLength
  have hfits : t.byteLength < UInt64.size / 2 := h
  refine ⟨Nat.le_refl 1, ?_⟩
  show 1 + t.count '\n' < UInt64.size
  omega

/-- A text is gone over character by character. -/
theorem advance_cons (p : Position) (c : Char) (value : Text) (bytes : Nat) :
    p.advance (c :: value) bytes = (p.advance [c] 0).advance value bytes := by
  rw [advance_advance, Nat.zero_add]
  rfl

theorem advance_newline (p : Position) (bytes : Nat) :
    p.advance ['\n'] bytes = ⟨p.index + .ofNat bytes, p.line + 1, 1⟩ := rfl

theorem advance_other {c : Char} (hc : c ≠ '\n') (p : Position) (bytes : Nat) :
    p.advance [c] bytes = ⟨p.index + .ofNat bytes, p.line, p.column + 1⟩ := by
  simp [advance, columnAfter, hc]

theorem Counted.advance {value : Text} (hp : p.Counted (value.count '\n' + lines)) (bytes : Nat) :
    (p.advance value bytes).Counted lines := by
  obtain ⟨hline, hroom⟩ := hp
  have hafter : (p.advance value bytes).line.toNat = p.line.toNat + value.count '\n' :=
    toNat_add_ofNat (by omega)
  exact ⟨by omega, by omega⟩

theorem Counted.front {n : Nat} (hp : p.Counted (n + lines)) : p.Counted n :=
  ⟨hp.line, by have := hp.room; omega⟩

/-- Going over a text from a place that is shifted leads to the shifted place. -/
theorem shift_advance (origin : Position) (value : Text) (hp : p.Counted (value.count '\n'))
    (bytes : Nat) :
    origin.shift (p.advance value bytes) = (origin.shift p).advance value bytes := by
  induction value generalizing p with
  | nil =>
    have hlines : p.line + .ofNat 0 = p.line := UInt64.add_zero p.line
    simp only [shift, Position.advance, List.count_nil, hlines, mk.injEq]
    exact ⟨by grind, by grind, rfl⟩
  | cons c value ih =>
    rw [← List.singleton_append, List.count_append] at hp
    have hstep : origin.shift (p.advance [c] 0) = (origin.shift p).advance [c] 0 := by
      by_cases hc : c = '\n'
      · subst hc
        -- A line that is begun behind another one is not the first.
        have hnext : p.line + 1 ≠ 1 := by
          intro h
          have hline := hp.line
          have hroom := hp.room
          rw [List.count_singleton_self] at hroom
          have hnumber : (p.line + .ofNat 1).toNat = p.line.toNat + 1 :=
            toNat_add_ofNat (by omega)
          have hone : (p.line + .ofNat 1).toNat = 1 := congrArg UInt64.toNat h
          omega
        rw [advance_newline, advance_newline]
        simp only [shift, mk.injEq]
        exact ⟨by grind, by grind, if_neg hnext⟩
      · rw [advance_other hc, advance_other hc]
        simp only [shift, mk.injEq]
        refine ⟨by grind, trivial, ?_⟩
        split <;> grind
    rw [advance_cons p, advance_cons (origin.shift p), ih (hp.advance 0), hstep]

end Position

def Captures.behind (front : Text) (c : Captures) : Captures :=
  ⟨c.groups, c.index + front.byteLength, front ++ c.input⟩

/-- What was searched does not depend on the text before it. -/
theorem Captures.target_behind (front : Text) (c : Captures) :
    (c.behind front).target = c.target := by
  unfold target behind
  rw [Text.splitBytes?_append]
  cases Text.splitBytes? c.index c.input <;> rfl

/-- A token of a text, where a text comes before it that leads to an origin. -/
def Token.behind (front : Text) (origin : Position) (t : Token) : Token where
  kind := t.kind
  value := t.value
  captures := t.captures.map (·.behind front)
  location := t.location.map fun l => ⟨origin.shift l.start, origin.shift l.stop, l.source⟩

/-- Tokens of the same kind and value, made of the same match searched in the same text, that lies
further on by so many bytes and counts its places from an origin. -/
structure Token.Shifted (bytes : Nat) (origin : Position) (t u : Token) : Prop where
  kind : u.kind = t.kind
  value : u.value = t.value
  captures : Option.Rel (fun c d => d.groups = c.groups ∧ d.target = c.target ∧
    d.index = c.index + bytes) t.captures u.captures
  location : Option.Rel (fun l k => k.start = origin.shift l.start ∧
    k.stop = origin.shift l.stop ∧ k.source = l.source) t.location u.location

theorem Token.shifted_behind (front : Text) (origin : Position) (t : Token) :
    t.Shifted front.byteLength origin (t.behind front origin) := by
  obtain ⟨kind, value, captures?, location?⟩ := t
  refine ⟨rfl, rfl, ?_, ?_⟩
  · cases captures? with
    | none => exact .none
    | some c => exact .some ⟨rfl, c.target_behind front, rfl⟩
  · cases location? with
    | none => exact .none
    | some l => exact .some ⟨rfl, rfl, rfl⟩

def LexError.shift (origin : Position) : LexError → LexError
  | unmatchedInput remaining position => unmatchedInput remaining (origin.shift position)
  | e => e

/-- What a pattern says of a text depends on no place. -/
theorem LexError.shift_of_verdict {p : Pattern} {rest : Text} {e : LexError}
    (h : Segmentation.verdict p rest = .error e) (origin : Position) : e.shift origin = e := by
  unfold Segmentation.verdict at h
  split at h
  · split at h
    · cases h
    · split at h <;> cases h
      rfl
  · cases h
    rfl

def Registry.CapturesOnly (r : Registry Handler) : Prop :=
  ∀ entry ∈ r.entries, ∃ p, entry.2 = .ofPattern entry.1 p

/-- A lexer of patterns over the rest of an input, and one that has come to this rest from the start
of the input: a front comes before it, its places are counted from an origin, and its list began
with some tokens. -/
structure Lexer.Shifted (front : Text) (origin : Position) (listed : List Token) (l l' : Lexer) :
    Prop where
  registry : l'.registry = l.registry
  captures : l.registry.CapturesOnly
  mode : l.options.mode = .token
  mode' : l'.options.mode = .token
  silent : l.options.hooks.onError = false
  silent' : l'.options.hooks.onError = false
  source : l'.options.source = l.options.source
  input : l'.pass.input = front ++ l.pass.input
  rest : l'.pass.rest = l.pass.rest
  offset : l'.pass.offset = l.pass.offset + front.byteLength
  counted : l.pass.position.Counted (l.pass.rest.count '\n')
  position : l'.pass.position = origin.shift l.pass.position
  queue : l'.pass.queue = l.pass.queue.map (Token.behind front origin)
  tokens : l'.pass.tokens.toList = listed ++ l.pass.tokens.toList.map (Token.behind front origin)
  stack : l.pass.stack = []
  stack' : l'.pass.stack = []

namespace Lexer.Shifted

variable {front : Text} {origin : Position} {listed : List Token}

/-- A lexer with nothing waiting and nothing open goes with its fork over the rest. -/
theorem of_fork {l : Lexer} (hfits : l.pass.rest.Fits)
    (hinput : l.pass.input = front ++ l.pass.rest)
    (hoffset : Text.byteLength front = l.pass.offset) (hcaptures : l.registry.CapturesOnly)
    (hmode : l.options.mode = .token) (hsilent : l.options.hooks.onError = false)
    (hqueue : l.pass.queue = []) (hstack : l.pass.stack = []) :
    Shifted front l.pass.position l.pass.tokens.toList (l.fork l.pass.rest) l where
  registry := rfl
  captures := hcaptures
  mode := hmode
  mode' := hmode
  silent := rfl
  silent' := hsilent
  source := rfl
  input := hinput
  rest := rfl
  offset := hoffset.symm.trans (Nat.zero_add _).symm
  counted := Position.counted_start hfits
  position := (Position.shift_start _).symm
  queue := hqueue
  tokens := (List.append_nil _).symm
  stack := rfl
  stack' := hstack

/-- Both lexers move on over the same text. -/
theorem past {l l' : Lexer} (h : Shifted front origin listed l l') {taken after : Text}
    (hrest : l.pass.rest = taken ++ after) :
    Shifted front origin listed { l with pass := l.pass.past taken after }
      { l' with pass := l'.pass.past taken after } := by
  have hcounted := h.counted
  rw [hrest, List.count_append] at hcounted
  exact { h with
    rest := rfl
    offset := by
      show l'.pass.offset + taken.byteLength = l.pass.offset + taken.byteLength + front.byteLength
      rw [h.offset]
      omega
    counted := hcounted.advance taken.byteLength
    position := by
      show l'.pass.position.advance taken taken.byteLength = _
      rw [h.position, ← Position.shift_advance origin taken hcounted.front]
      rfl }

theorem locationFrom {l l' : Lexer} (h : Shifted front origin listed l l') (start : Position) :
    l'.locationFrom (origin.shift start) =
      ⟨origin.shift (l.locationFrom start).start, origin.shift (l.locationFrom start).stop,
        (l.locationFrom start).source⟩ := by
  rw [Lexer.locationFrom, h.position, h.source]
  rfl

def coupling (front : Text) (origin : Position) (listed : List Token) : Coupling where
  machine m k := Shifted front origin listed m.lexer k.lexer
  sight _ _ := True
  token := Token.behind front origin
  list ts := listed ++ ts.map (Token.behind front origin)
  error := LexError.shift origin

theorem withKind (t : Token) (kind : String) :
    (t.behind front origin).withKind kind = (t.withKind kind).behind front origin := by
  unfold Token.withKind
  have hkind : (t.behind front origin).kind = t.kind := rfl
  rw [hkind]
  split <;> rfl

theorem withLocation (t : Token) {l k : Location}
    (h : k = ⟨origin.shift l.start, origin.shift l.stop, l.source⟩) :
    (t.behind front origin).withLocation k = (t.withLocation l).behind front origin := by
  subst h
  obtain ⟨kind, value, captures?, location?⟩ := t
  cases location? <;> rfl

theorem drives : (coupling front origin listed).Drives
    fun h => ∃ kind p, h = .ofPattern kind p where
  registry h := h.registry
  known h entry hentry := ⟨entry.1, h.captures entry hentry⟩
  mode h := h.mode'.trans h.mode.symm
  rest h := h.rest
  queue h := h.queue
  list h := h.tokens
  incomplete {m k} h := by
    unfold Pass.incomplete? Pass.unmatched
    rw [h.stack, h.stack', h.rest, h.position]
    dsimp only
    split <;> rfl
  unmatched h := by
    rw [Pass.unmatched, Pass.unmatched, h.rest, h.position]
    rfl
  lookup _ := rfl
  lookahead := rfl
  is _ _ := rfl
  place {m k n l} kind t hmk hnl := by
    show ((t.behind front origin).withKind kind).withLocation _ = Token.behind front origin _
    have hlocation := locationFrom hnl m.lexer.pass.position
    rw [← hmk.position] at hlocation
    rw [withKind, withLocation _ hlocation]
  derived _ := trivial
  setQueue queue h := { h with queue := rfl }
  push {m k} t h := by
    rw [LexM.push_apply, LexM.push_apply]
    refine .some ⟨rfl, ?_⟩
    have htokens : (k.lexer.pass.push (t.behind front origin)).tokens.toList =
        listed ++ (m.lexer.pass.push t).tokens.toList.map (Token.behind front origin) := by
      show (k.lexer.pass.tokens.push _).toList = listed ++ (m.lexer.pass.tokens.push t).toList.map _
      rw [Array.toList_push, Array.toList_push, h.tokens, List.map_append, List.append_assoc]
      rfl
    have hpushed : Shifted front origin listed (m.withPass (m.lexer.pass.push t)).lexer
        (k.withPass (k.lexer.pass.push (t.behind front origin))).lexer :=
      { h with tokens := htokens }
    show Shifted front origin listed (Machine.withPass _ _).lexer (Machine.withPass _ _).lexer
    unfold Machine.withPass
    rw [Machine.lexer_told, Machine.lexer_told]
    exact hpushed
  character h hmode := by
    rw [h.mode] at hmode
    cases hmode

/-- Both lexers scan alike: a pattern is tried on the same text. -/
theorem scan (p : Pattern) (kind : String) :
    Coupled (coupling front origin listed) (Option.map (Token.behind front origin))
      (lift (LexM.scan p kind)) (lift (LexM.scan p kind)) := by
  apply Coupled.of_ends
  intro m k h
  rcases hv : Segmentation.verdict p m.lexer.pass.rest with e | _ | groups
  · have hv' : Segmentation.verdict p k.lexer.pass.rest = .error e := by rw [h.rest, hv]
    rw [LexM.scan_of_error kind hv, LexM.scan_of_error kind hv']
    refine .some ⟨?_, h⟩
    show Except.error e = Except.error (e.shift origin)
    rw [LexError.shift_of_verdict hv]
  · have hv' : Segmentation.verdict p k.lexer.pass.rest = .ok none := by rw [h.rest, hv]
    rw [LexM.scan_of_none kind hv, LexM.scan_of_none kind hv']
    exact .some ⟨rfl, h⟩
  · have hv' : Segmentation.verdict p k.lexer.pass.rest = .ok (some groups) := by rw [h.rest, hv]
    obtain ⟨-, after, hrest⟩ := Segmentation.of_verdict_eq_some hv
    have hrest' : k.lexer.pass.rest = Segmentation.fullText groups ++ after := by rw [h.rest, hrest]
    obtain ⟨n, hn, hlexer⟩ := LexM.scan_of_match kind hv hrest.symm
    obtain ⟨l, hl, hlexer'⟩ := LexM.scan_of_match kind hv' hrest'
    have hpast := h.past hrest.symm
    have hposition := hpast.position
    rw [hn, hl]
    refine .some ⟨?_, ?_⟩
    · dsimp only at hposition ⊢
      rw [hposition, h.input, h.offset, h.position, h.source]
      rfl
    · show Shifted front origin listed n.lexer l.lexer
      rw [hlexer, hlexer']
      exact hpast

/-- Lexing goes alike on both lexers. -/
theorem lex (depth bound : Nat) {m k : Machine}
    (h : Shifted front origin listed m.lexer k.lexer) :
    (coupling front origin listed).Ends (fun ts => listed ++ ts.map (Token.behind front origin))
      (LexM.lex (Handler.call (depth + 1)) bound m)
      (LexM.lex (Handler.call (depth + 1)) bound k) := by
  have hcall : ∀ handler, (∃ kind p, handler = .ofPattern kind p) →
      Coupled (coupling front origin listed) (Option.map (Token.behind front origin))
        (lift (Handler.call (depth + 1) handler)) (lift (Handler.call (depth + 1) handler)) := by
    rintro _ ⟨kind, p, rfl⟩
    rw [Handler.call_ofPattern]
    exact scan p kind
  have hreport (e : LexError) : Coupled (coupling front origin listed) id (lift (LexM.report e))
      (lift (LexM.report (e.shift origin))) := by
    apply Coupled.of_ends
    intro m k h
    rw [LexM.report_apply h.silent, LexM.report_apply h.silent']
    exact .some ⟨rfl, h⟩
  have hlex := (drives.lex hcall hreport bound h).ends
  have hvalue := Watched.value_lex (fun handler => lift (Handler.call (depth + 1) handler)) bound
  simp only [Watched.value_lift] at hvalue
  rw [← hvalue]
  exact hlex

end Lexer.Shifted

/-- What comes before the rest of the input takes the bytes up to the offset. -/
def Pass.Placed (p : Pass) : Prop :=
  ∃ front, p.input = front ++ p.rest ∧ Text.byteLength front = p.offset

theorem Pass.Steps.placed {p q : Pass} {taken value : Text} (h : p.Steps q taken value)
    (hp : p.Placed) : q.Placed := by
  obtain ⟨front, hinput, hoffset⟩ := hp
  refine ⟨front ++ taken, ?_, ?_⟩
  · rw [h.input, hinput, h.rest, List.append_assoc]
  · rw [Text.byteLength_append, hoffset, h.offset]

/-- The cursor stays on the input whatever is counted as consumed, and wherever the position is
moved. -/
theorem Pass.invariant_placed : Invariant (fun _ _ => True) Placed where
  start _ := ⟨[], rfl, rfl⟩
  stay h hp := by
    obtain ⟨front, hinput, hoffset⟩ := hp
    exact ⟨front, by rw [h.input, h.rest, hinput], by rw [h.offset, hoffset]⟩
  consume h := (Steps.of_consume h).placed
  consumeAs _ h := by
    obtain ⟨taken, -, hsteps⟩ := Steps.of_consumeAs h
    exact hsteps.placed
  move _ hp := hp

/-- Where a program comes to from the start of an input: a place where it or one of its handlers
stands, or its end. -/
def Machine.Reached (s : Machine) : Prop :=
  ∃ (α : Type) (p : Program Handler α) (bound : Nat) (m : Machine) (input : Text),
    m.lexer.pass = .start input ∧
      ((∃ r?, .station s r? ∈ (p.watch bound m).1) ∨ ∃ r, p.exec bound m = some (r, s))

theorem Machine.Reached.placed {s : Machine} (hs : s.Reached) : s.lexer.pass.Placed := by
  obtain ⟨α, p, bound, m, input, hstart, hs⟩ := hs
  have hm : m.lexer.pass.Placed := hstart ▸ Pass.invariant_placed.start input
  have hgranted : Granted (fun _ _ => True) (p.watch bound m).1 := fun _ _ _ => trivial
  obtain ⟨hholds, hend⟩ := p.keeps_watch Pass.invariant_placed bound hm hgranted
  rcases hs with ⟨r?, hstation⟩ | ⟨r, hexec⟩
  · exact hholds s r? hstation
  · rw [← Program.value_watch] at hexec
    exact hend r s hexec

theorem Registry.CapturesOnly.exists_patterns {r : Registry Handler} (h : r.CapturesOnly) :
    ∃ patterns, r = Registry.map Handler.ofPattern ⟨patterns⟩ := by
  obtain ⟨entries⟩ := r
  induction entries with
  | nil => exact ⟨[], rfl⟩
  | cons entry entries ih =>
    obtain ⟨p, hp⟩ := h entry List.mem_cons_self
    obtain ⟨patterns, hpatterns⟩ := ih fun entry hentry => h entry (List.mem_cons_of_mem _ hentry)
    obtain ⟨kind, handler⟩ := entry
    obtain rfl : handler = .ofPattern kind p := hp
    refine ⟨(kind, p) :: patterns, ?_⟩
    rw [Registry.map] at hpatterns ⊢
    rw [Registry.mk.inj hpatterns]
    rfl

/-- A fork of a lexer of patterns comes to an end of the rest, and if it succeeds it gives back what
it has listed. -/
theorem lex_fork {s : Machine} (hcaptures : s.lexer.registry.CapturesOnly)
    (hmode : s.lexer.options.mode = .token) (depth : Nat) {bound : Nat}
    (hbound : s.lexer.pass.rest.length < bound) :
    ∃ r forked,
      LexM.lex (Handler.call (depth + 1)) bound
          { s with lexer := s.lexer.fork s.lexer.pass.rest } = some (r, forked) ∧
        ∀ ts, r = .ok ts → ts = forked.lexer.pass.tokens.toList := by
  obtain ⟨patterns, hpatterns⟩ := hcaptures.exists_patterns
  let T : Segmentation.Task :=
    ⟨patterns, fun _ => false, s.lexer.options.source, s.lexer.pass.rest⟩
  have hfork :
      T.Reading [] s.lexer.pass.rest [] { s with lexer := s.lexer.fork s.lexer.pass.rest } :=
    { registry := hpatterns
      mode := hmode
      source := rfl
      quiet := rfl
      input := rfl
      rest := rfl
      offset := rfl
      position := rfl
      tokens := rfl
      queue := rfl
      stack := rfl }
  obtain ⟨-, forked, hforked, -⟩ := Segmentation.Task.lex_eq depth hfork hbound
  refine ⟨_, forked, hforked, ?_⟩
  intro ts hts
  rw [hts] at hforked
  exact (LexM.of_lex_eq_ok rfl hforked).1

/-- Lexing on from wherever a lexer of patterns has come to, with nothing waiting and nothing open,
goes as lexing on its fork over the rest does. Both come to an end, with the tokens or with an error
that is the same but for its place; and the tokens that are added are those of the fork, with their
places counted from there. -/
theorem Machine.Reached.lex_shifted {s : Machine} (hs : s.Reached)
    (hcaptures : s.lexer.registry.CapturesOnly) (hmode : s.lexer.options.mode = .token)
    (hsilent : s.lexer.options.hooks.onError = false) (hqueue : s.lexer.pass.queue = [])
    (hstack : s.lexer.pass.stack = []) (hfits : s.lexer.pass.rest.Fits) (depth : Nat) {bound : Nat}
    (hbound : s.lexer.pass.rest.length < bound) :
    ∃ r forked later n,
      LexM.lex (Handler.call (depth + 1)) bound
          { s with lexer := s.lexer.fork s.lexer.pass.rest } = some (r, forked) ∧
        (∀ ts, r = .ok ts → ts = forked.lexer.pass.tokens.toList) ∧
        LexM.lex (Handler.call (depth + 1)) bound s =
          some ((r.map fun _ => s.lexer.pass.tokens.toList ++ later).mapError
            (·.shift s.lexer.pass.position), n) ∧
        n.lexer.pass.tokens.toList = s.lexer.pass.tokens.toList ++ later ∧
        List.Forall₂ (Token.Shifted s.lexer.pass.offset s.lexer.pass.position)
          forked.lexer.pass.tokens.toList later := by
  obtain ⟨front, hinput, hoffset⟩ := hs.placed
  obtain ⟨r, forked, hforked, hlisted⟩ := lex_fork hcaptures hmode depth hbound
  have hstart := Lexer.Shifted.of_fork hfits hinput hoffset hcaptures hmode hsilent hqueue hstack
  have hends := Lexer.Shifted.lex depth bound
    (m := { s with lexer := s.lexer.fork s.lexer.pass.rest }) (k := s) hstart
  rw [hforked] at hends
  rcases none_or_some_of_rel hends with ⟨hnone, -⟩ | ⟨_, ⟨r', n⟩, ⟨⟩, hlex, hresult, hshifted⟩
  · cases hnone
  · refine ⟨r, forked,
      forked.lexer.pass.tokens.toList.map (Token.behind front s.lexer.pass.position),
      n, hforked, hlisted, ?_, hshifted.tokens, ?_⟩
    · rw [hlex]
      obtain rfl : r' = _ := hresult
      cases r with
      | error e => rfl
      | ok ts =>
        rw [hlisted ts rfl]
        rfl
    · rw [← hoffset, List.forall₂_map_right_iff]
      exact List.forall₂_same.2 fun t _ => t.shifted_behind front s.lexer.pass.position

def lines : Machine :=
  .fresh "ab\na!" [("a", .ofPattern "a" (.letter 'a')), ("b", .ofPattern "b" (.letter 'b')),
    ("newline", .ofPattern "newline" (.letter '\n'))]

/-- The same behind the first letter, with the position moved over some lines of its own. -/
def insideLines : Machine :=
  lines.withPass { lines.lexer.pass with
    offset := 1, rest := "b\na!".toList, behind := ['a'], position := ⟨8, 3, 3⟩ }

/-- The letter behind the newline is at the same column on the fork, and what is left over is
reported further on. -/
theorem lex_shifted_lines :
    insideLines.Reached ∧ insideLines.lexer.registry.CapturesOnly ∧
      insideLines.lexer.options.mode = .token ∧
      insideLines.lexer.options.hooks.onError = false ∧ insideLines.lexer.pass.queue = [] ∧
      insideLines.lexer.pass.stack = [] ∧ insideLines.lexer.pass.rest.Fits ∧
      insideLines.lexer.pass.rest.length < 5 ∧
      ∃ forked later n,
        LexM.lex (Handler.call 1) 5
            { insideLines with lexer := insideLines.lexer.fork "b\na!".toList } =
          some (.error (.unmatchedInput ['!'] ⟨3, 2, 2⟩), forked) ∧
        LexM.lex (Handler.call 1) 5 insideLines =
          some (.error (.unmatchedInput ['!'] ⟨11, 4, 2⟩), n) ∧
        n.lexer.pass.tokens.toList = later ∧ later.length = 3 ∧
        List.Forall₂ (Token.Shifted 1 ⟨8, 3, 3⟩) forked.lexer.pass.tokens.toList later := by
  have hreached : insideLines.Reached := by
    refine ⟨Unit, ?_, 1, lines, "ab\na!".toList, rfl, .inr ⟨.ok (), ?_⟩⟩
    · exact do
        let _ ← Program.request (.consume 1)
        Program.request (.move "\n\nxy".toList 7)
    · rfl
  have hcaptures : insideLines.lexer.registry.CapturesOnly := by
    intro entry hentry
    rcases List.mem_cons.1 hentry with rfl | hentry
    · exact ⟨.letter 'a', rfl⟩
    · rcases List.mem_pair.1 hentry with rfl | rfl
      · exact ⟨.letter 'b', rfl⟩
      · exact ⟨.letter '\n', rfl⟩
  have hfits : insideLines.lexer.pass.rest.Fits := by decide
  have hbound : insideLines.lexer.pass.rest.length < 5 := by decide
  obtain ⟨r, forked, later, n, hforked, -, hlex, htokens, hshifted⟩ :=
    hreached.lex_shifted hcaptures rfl rfl rfl rfl hfits 0 hbound
  have hfail : (LexM.lex (Handler.call 1) 5
      { insideLines with lexer := insideLines.lexer.fork "b\na!".toList }).map
        (fun (r, n) => (match r with | .ok _ => none | .error e => some e,
          n.lexer.pass.tokens.toList.length)) =
      some (some (.unmatchedInput ['!'] ⟨3, 2, 2⟩), 3) := by
    decide +kernel
  obtain ⟨⟨r', forked'⟩, hrun, hr⟩ := Option.map_eq_some_iff.1 hfail
  obtain ⟨rfl, rfl⟩ : r' = r ∧ forked' = forked :=
    Prod.mk.inj (Option.some.inj (hrun.symm.trans hforked))
  obtain ⟨hr, hthree⟩ := Prod.mk.inj hr
  cases r' with
  | ok ts => cases hr
  | error e =>
    obtain rfl : e = .unmatchedInput ['!'] ⟨3, 2, 2⟩ := Option.some.inj hr
    have hlater : later.length = 3 := by rw [← hshifted.length_eq, hthree]
    exact ⟨hreached, hcaptures, rfl, rfl, rfl, rfl, hfits, hbound, forked', later, n, hforked, hlex,
      htokens, hlater, hshifted⟩

end ModularLexer
