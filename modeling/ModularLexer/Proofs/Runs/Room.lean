import ModularLexer.Proofs.Runs.Cursor
import ModularLexer.Proofs.Runs.Evaluation
import ModularLexer.Proofs.Runs.Growth

/-!
Positions go on with a pass as long as they have room. The place of a cursor is kept in words, and
nothing stops an index that is moved on its own from running past the last word and starting again
below. Where the words have room for all that is left of the input, and each text that is counted on
top of it is asked for where there is room for it too, index and line never go back; so a location
that is put on a token does not stop before it starts.
-/
namespace ModularLexer

open Text (byteLength)

namespace Position

/-- Whether so many bytes and lines can still come behind a place. -/
def Room (p : Position) (bytes lines : Nat) : Prop :=
  p.index.toNat + bytes < UInt64.size ∧ p.line.toNat + lines < UInt64.size

instance (p : Position) (bytes lines : Nat) : Decidable (p.Room bytes lines) :=
  inferInstanceAs (Decidable (_ ∧ _))

variable {p : Position} {value : Text} {bytes rest lines : Nat}

/-- An index goes back exactly where it runs past the last word. -/
theorem index_le_advance_iff (p : Position) (value : Text) (hbytes : bytes < UInt64.size) :
    p.index ≤ (p.advance value bytes).index ↔ p.index.toNat + bytes < UInt64.size := by
  have hword := p.index.toNat_lt
  rw [UInt64.size] at hbytes ⊢
  rw [UInt64.le_iff_toNat_le, Position.advance, UInt64.toNat_add, UInt64.toNat_ofNat']
  omega

/-- Going on takes from the room what is gone over. -/
theorem Room.advance (h : p.Room (bytes + rest) (value.count '\n' + lines)) :
    p.index ≤ (p.advance value bytes).index ∧ p.line ≤ (p.advance value bytes).line ∧
      (p.advance value bytes).Room rest lines := by
  obtain ⟨hbytes, hlines⟩ := h
  have hindex : (p.advance value bytes).index.toNat = p.index.toNat + bytes :=
    toNat_add_ofNat (by omega)
  have hline : (p.advance value bytes).line.toNat = p.line.toNat + value.count '\n' :=
    toNat_add_ofNat (by omega)
  refine ⟨?_, ?_, ?_, ?_⟩
  · rw [UInt64.le_iff_toNat_le, hindex]
    exact Nat.le_add_right _ _
  · rw [UInt64.le_iff_toNat_le, hline]
    exact Nat.le_add_right _ _
  · rw [hindex]
    omega
  · rw [hline]
    omega

end Position

namespace Pass

def Roomy (p : Pass) : Prop := p.position.Room (byteLength p.rest) (p.rest.count '\n')

instance (p : Pass) : Decidable p.Roomy := inferInstanceAs (Decidable (p.position.Room _ _))

/-- There is room too for a text that is counted on top of what is left. -/
def Admits (p : Pass) : Request → Prop
  | .consumeAs _ value =>
    p.position.Room (byteLength p.rest) (value.count '\n' + p.rest.count '\n')
  | .move value bytes =>
    p.position.Room (bytes + byteLength p.rest) (value.count '\n' + p.rest.count '\n')
  | _ => True

instance (p : Pass) : (r : Request) → Decidable (p.Admits r)
  | .consumeAs .. | .move .. => inferInstanceAs (Decidable (p.position.Room _ _))
  | .view | .hooks | .consume _ | .init _ | .matchPattern _ | .scan .. | .skipSpaces | .token ..
  | .tokenFrom .. | .handle _ | .call _ | .advance | .next | .lex | .tokenize _ | .enqueue _
  | .dequeue | .lookahead _ | .skip _ | .skipWhile _ | .skipTo _ | .push _ | .pushStack _
  | .popStack | .append _ | .finish | .report _ | .note .. => isTrue trivial

/-- The cursor has not gone back, and there is still room behind it. -/
structure Onward (p q : Pass) : Prop where
  index : p.position.index ≤ q.position.index
  line : p.position.line ≤ q.position.line
  roomy : q.Roomy

variable {p q k : Pass} {value taken : Text} {bytes : Nat}

/-- At the start of a text that fits into memory there is room for it. -/
theorem Roomy.start {input : Text} (h : input.Fits) : (Pass.start input).Roomy := by
  have hlines : input.count '\n' ≤ byteLength input :=
    Nat.le_trans List.count_le_length input.length_le_byteLength
  have hfits : byteLength input < UInt64.size / 2 := h
  constructor
  · show 0 + byteLength input < UInt64.size
    omega
  · show 1 + input.count '\n' < UInt64.size
    omega

theorem Onward.of_samePlace (hp : p.Roomy) (h : p.SamePlace q) : p.Onward q := by
  have hroomy : q.Roomy := by
    rw [Roomy, h.position, h.rest]
    exact hp
  exact ⟨h.position ▸ UInt64.le_refl _, h.position ▸ UInt64.le_refl _, hroomy⟩

theorem Onward.trans (h : p.Onward q) (h' : q.Onward k) : p.Onward k :=
  ⟨UInt64.le_trans h.index h'.index, UInt64.le_trans h.line h'.line, h'.roomy⟩

/-- Where a text is counted for what is taken, there has to be room for its lines. -/
theorem Onward.of_steps (h : p.Steps q taken value)
    (hroom : p.position.Room (byteLength p.rest) (value.count '\n' + q.rest.count '\n')) :
    p.Onward q := by
  rw [h.rest, Text.byteLength_append] at hroom
  obtain ⟨hindex, hline, hroomy⟩ := hroom.advance
  rw [← h.position] at hindex hline hroomy
  exact ⟨hindex, hline, hroomy⟩

theorem Onward.of_consume (hp : p.Roomy) (h : p.consume bytes = .ok (taken, q)) : p.Onward q := by
  have hsteps := Steps.of_consume h
  apply Onward.of_steps hsteps
  rw [← List.count_append, ← hsteps.rest]
  exact hp

theorem Onward.of_consumeAs (hp : p.Admits (.consumeAs bytes value))
    (h : p.consumeAs bytes value = .ok q) : p.Onward q := by
  obtain ⟨taken, -, hsteps⟩ := Steps.of_consumeAs h
  obtain ⟨hindex, hline⟩ := hp
  rw [hsteps.rest, List.count_append] at hline
  exact .of_steps hsteps ⟨hindex, by omega⟩

theorem onward_move (hp : p.Admits (.move value bytes)) : p.Onward (p.move value bytes) := by
  obtain ⟨hindex, hline, hroomy⟩ := Position.Room.advance hp
  exact ⟨hindex, hline, hroomy⟩

end Pass

def Machine.Goes (m n : Machine) : Prop := m.lexer.pass.Roomy → m.lexer.pass.Onward n.lexer.pass

theorem Machine.Goes.of_samePlace {m n : Machine} (h : m.lexer.pass.SamePlace n.lexer.pass) :
    m.Goes n := fun hm => .of_samePlace hm h

theorem EffectRule.goes : EffectRule Machine.Goes where
  refl _ := .of_samePlace ⟨rfl, rfl, rfl, rfl, rfl⟩
  trans h h' hm := (h hm).trans (h' (h hm).roomy)
  consume h hm := .of_consume hm h
  queue _ queue := .of_samePlace (.queue _ queue)
  push _ t := .of_samePlace (.push _ t)
  record _ _ := .of_samePlace ⟨rfl, rfl, rfl, rfl, rfl⟩

/-- Everything that goes on takes the cursor on, if there is room for it. -/
theorem ConductRule.goes {K : Conduct} (hK : ∀ r, K.allowed r → r.GoesOn) :
    ConductRule K Pass.Admits Machine.Goes where
  toEffectRule := .goes
  consumeAs _ admitted h _ := .of_consumeAs admitted h
  move _ _ _ _ admitted _ := Pass.onward_move admitted
  start _ _ h := by
    rcases h with h | h
    · exact (hK _ h).elim
    · exact (hK _ h).elim
  pushStack _ t _ := .of_samePlace (.pushStack _ t)
  popStack _ _ := .of_samePlace (.popStack _)
  append _ value _ := .of_samePlace (.append _ value)
  register _ _ _ _ := .of_samePlace ⟨rfl, rfl, rfl, rfl, rfl⟩
  forked _ _ := .of_samePlace ⟨rfl, rfl, rfl, rfl, rfl⟩

namespace Watched

variable {K : Conduct} {grants : Pass → Request → Prop} {R : Machine → Machine → Prop}
  {m n : Machine} {depth count i : Nat} {sights : List Sight} {kind : String} {handler : Handler}
  {t : Token}

theorem conducted_runHandler (hR : ConductRule K grants R) (hm : m.Follows K) (depth : Nat)
    (kind : String) (hknown : K.known handler) :
    ConductedAt K grants R (runHandler (Handler.watched depth) kind handler) m :=
  (Conducted.closed hR).runHandler (fun _ => Handler.conducted_watched hR depth) kind hknown hm

variable (hK : ∀ r, K.allowed r → r.GoesOn)

include hK

/-- A token that some handler made was made where the handlers tried before it have led. -/
theorem exists_of_tryHandlers (hm : m.Follows K)
    (h : tryHandlers (Handler.watched depth) count i m = (sights, some (.ok (some t), n))) :
    ∃ k kind handler back, k.Follows K ∧ K.known handler ∧
      runHandler (Handler.watched depth) kind handler k = (back, some (.ok (some t), n)) ∧
      (Granted Pass.Admits sights → m.Goes k ∧ Granted Pass.Admits back) := by
  induction count generalizing i m sights with
  | zero => cases h
  | succ count ih =>
    rcases hentry : m.lexer.registry.entryAt? i with _ | ⟨kind, handler⟩
    · rw [tryHandlers, lift_bind_of_ok (LexM.lexer_apply m), hentry] at h
      cases h
    · have hknown : K.known handler := hm _ (List.mem_of_getElem? hentry)
      rw [tryHandlers_succ hentry] at h
      rcases exists_of_bind h with ⟨t?, k, front, back, hk, hrest, rfl⟩ | ⟨e, -, hne⟩
      · cases t? with
        | some t' =>
          cases hrest
          refine ⟨m, kind, handler, front, hm, hknown, hk, ?_⟩
          intro hgranted
          exact ⟨EffectRule.goes.refl m, (granted_append.1 hgranted).1⟩
        | none =>
          have hgrown := conducted_runHandler (.grows hK) hm depth kind hknown
          have hfollows := (hgrown.of_eq hk (granted_all front)).2
          obtain ⟨j, kind', handler', last, hj, hknown', hmade, hon⟩ := ih hfollows hrest
          refine ⟨j, kind', handler', last, hj, hknown', hmade, ?_⟩
          intro hgranted
          obtain ⟨hfront, hback⟩ := granted_append.1 hgranted
          have hgone := conducted_runHandler (.goes hK) hm depth kind hknown
          obtain ⟨hkj, hlast⟩ := hon hback
          exact ⟨EffectRule.goes.trans (hgone.of_eq hk hfront).1 hkj, hlast⟩
      · cases hne

/-- The next token of the rest is that of a character, or some handler made it. -/
theorem exists_of_derive (hm : m.Follows K)
    (h : derive (Handler.watched depth) m = (sights, some (.ok (some t), n))) :
    (∃ c, LexM.characterToken c m = some (.ok t, n)) ∨
      ∃ k kind handler back, k.Follows K ∧ K.known handler ∧
        runHandler (Handler.watched depth) kind handler k = (back, some (.ok (some t), n)) ∧
        (Granted Pass.Admits sights → m.Goes k ∧ Granted Pass.Admits back) := by
  rcases hrest : m.lexer.pass.rest with _ | ⟨c, rest⟩
  · rw [derive_of_rest_nil hrest] at h
    cases h
  · cases hmode : m.lexer.options.mode with
    | character =>
      have hvalue : (derive (Handler.watched depth)).value m = some (.ok (some t), n) :=
        congrArg Prod.snd h
      rw [value_derive, LexM.derive_of_character hrest hmode] at hvalue
      rcases LexM.bind_eq_some_iff.1 hvalue with ⟨t', k, hk, he⟩ | ⟨e, -, hne⟩
      · cases he
        exact .inl ⟨c, hk⟩
      · cases hne
    | token =>
      rw [derive_of_token (by simp [hrest]) hmode] at h
      rcases exists_of_bind h with ⟨t?, k, front, back, hk, hlast, rfl⟩ | ⟨e, -, hne⟩
      · cases t? with
        | some t' =>
          cases hlast
          rw [List.append_nil]
          exact .inr (exists_of_tryHandlers hK hm hk)
        | none =>
          dsimp only at hlast
          rw [lift_bind_of_ok (LexM.pass_apply k)] at hlast
          split at hlast <;> cases hlast
      · cases hne

end Watched

structure Location.Forward (l : Location) : Prop where
  index : l.start.index ≤ l.stop.index
  line : l.start.line ≤ l.stop.line

theorem Machine.Goes.forward {m n : Machine} (h : m.Goes n) (hm : m.lexer.pass.Roomy) :
    (n.lexer.locationFrom m.lexer.pass.position).Forward := ⟨(h hm).index, (h hm).line⟩

namespace Watched

variable {K : Conduct} (hK : ∀ r, K.allowed r → r.GoesOn) {m n : Machine} (hm : m.Follows K)
  {depth : Nat} {sights : List Sight} {t : Token}

include hK hm

/-- A token that its handler has not located gets a forward location where there is room. -/
theorem forward_of_runHandler {kind : String} {handler : Handler} (hknown : K.known handler)
    (h : runHandler (Handler.watched depth) kind handler m = (sights, some (.ok (some t), n))) :
    ∃ made l, Handler.call depth handler m = some (.ok (some made), n) ∧ t.location = some l ∧
      (made.location = some l ∨ made.location = none ∧
        (m.lexer.pass.Roomy → Granted Pass.Admits sights → l.Forward)) := by
  have hvalue : (runHandler (Handler.watched depth) kind handler).value m =
      some (.ok (some t), n) := congrArg Prod.snd h
  rw [value_runHandler, Handler.value_watched] at hvalue
  obtain ⟨made, hmade, hlocation⟩ := LexM.location_of_runHandler hvalue
  rcases hl : made.location with _ | l
  · refine ⟨made, _, hmade, by rw [hlocation, hl, Option.getD_none], .inr ⟨hl, ?_⟩⟩
    intro hroomy hgranted
    have hrun := conducted_runHandler (.goes hK) hm depth kind hknown
    exact (hrun.of_eq h hgranted).1.forward hroomy
  · exact ⟨made, l, hmade, by rw [hlocation, hl, Option.getD_some], .inl hl⟩

/-- The next token of the rest has a location: one that its handler has given it, or one that is
forward where there is room. -/
theorem forward_of_derive
    (h : derive (Handler.watched depth) m = (sights, some (.ok (some t), n))) :
    ∃ l, t.location = some l ∧
      ((m.lexer.pass.Roomy → Granted Pass.Admits sights → l.Forward) ∨
        ∃ k handler made, k.Follows K ∧ K.known handler ∧
          Handler.call depth handler k = some (.ok (some made), n) ∧ made.location = some l) := by
  rcases exists_of_derive hK hm h with ⟨c, hc⟩ | ⟨k, kind, handler, back, hk, hknown, hrun, hon⟩
  · have hgoes := (LexM.Moves.characterToken .goes c hc).1
    exact ⟨_, LexM.location_of_characterToken hc, .inl fun hroomy _ => hgoes.forward hroomy⟩
  · obtain ⟨made, l, hmade, hl, hown | ⟨-, hforward⟩⟩ := forward_of_runHandler hK hk hknown hrun
    · exact ⟨l, hl, .inr ⟨k, handler, made, hk, hknown, hmade, hown⟩⟩
    · refine ⟨l, hl, .inl ?_⟩
      intro hroomy hgranted
      obtain ⟨hmk, hback⟩ := hon hgranted
      exact hforward (hmk hroomy).roomy hback

end Watched

/-- On a lexer whose handlers never start over, whatever is asked but to start over, whatever
program is run that never asks for that, and whatever is registered makes the pass grow, however it
ends. Where there is room the cursor goes on too; moving it alone takes the index back exactly where
it runs past the last word. So the location of a scan and of a character is a forward one where
there is room, and so is the one that a token gets whose handler has not located it. -/
theorem Conduct.pass_grows {K : Conduct} (hK : ∀ r, K.allowed r → r.GoesOn) {m : Machine}
    (hm : m.Follows K) (hkinds : m.lexer.registry.kinds.Nodup) (depth bound : Nat) :
    (∀ r : Request, r.GoesOn → ∀ sights reply n,
      r.watched (Handler.watched depth) bound m = (sights, some (reply, n)) →
        m.Grows n ∧ n.lexer.registry.kinds.Nodup ∧
        (m.lexer.pass.Admits r → Granted Pass.Admits sights → m.Goes n)) ∧
    (∀ {α : Type} (p : Program Handler α), p.Asks Request.GoesOn K.known → ∀ sights r n,
      p.watched (Handler.watched depth) bound m = (sights, some (r, n)) →
        m.Grows n ∧ n.lexer.registry.kinds.Nodup ∧ (Granted Pass.Admits sights → m.Goes n)) ∧
    (∀ kind handler r n, LexM.register kind handler m = some (r, n) →
      m.Grows n ∧ n.lexer.registry.kinds.Nodup ∧ m.Goes n) ∧
    (∀ value bytes, bytes < UInt64.size →
      (m.lexer.pass.position.index ≤ (m.lexer.pass.move value bytes).position.index ↔
        m.lexer.pass.position.index.toNat + bytes < UInt64.size)) ∧
    (∀ pattern kind t n, LexM.scan pattern kind m = some (.ok (some t), n) →
      ∃ l, t.location = some l ∧ (m.lexer.pass.Roomy → l.Forward)) ∧
    (∀ c t n, LexM.characterToken c m = some (.ok t, n) →
      ∃ l, t.location = some l ∧ (m.lexer.pass.Roomy → l.Forward)) ∧
    (∀ kind handler sights t n, K.known handler →
      Watched.runHandler (Handler.watched depth) kind handler m =
        (sights, some (.ok (some t), n)) →
        ∃ made l, Handler.call depth handler m = some (.ok (some made), n) ∧
          t.location = some l ∧
          (made.location = some l ∨ made.location = none ∧
            (m.lexer.pass.Roomy → Granted Pass.Admits sights → l.Forward))) ∧
    (∀ sights t n,
      Watched.derive (Handler.watched depth) m = (sights, some (.ok (some t), n)) →
        ∃ l, t.location = some l ∧
          ((m.lexer.pass.Roomy → Granted Pass.Admits sights → l.Forward) ∨
            ∃ k handler made, k.Follows K ∧ K.known handler ∧
              Handler.call depth handler k = some (.ok (some made), n) ∧
              made.location = some l)) := by
  -- The same handlers, free to ask for all that goes on.
  let L : Conduct := ⟨Request.GoesOn, K.known, fun h hh => (K.asks h hh).mono hK fun _ => id⟩
  have hgrows : ConductRule L (fun _ _ => True) Machine.Grows := .grows fun _ => id
  have hgoes : ConductRule L Pass.Admits Machine.Goes := .goes fun _ => id
  have hgrowing := fun h => Handler.conducted_watched hgrows depth (h := h)
  have hgoing := fun h => Handler.conducted_watched hgoes depth (h := h)
  refine ⟨?_, ?_, ?_, ?_, ?_, ?_, ?_, ?_⟩
  · intro r hr sights reply n h
    have hgrown := Request.conductedAt_watched hgrows hgrowing bound hm (r := r) hr trivial
    obtain ⟨hmn, -⟩ := hgrown.of_eq h (granted_all sights)
    refine ⟨hmn, hmn.nodup hkinds, ?_⟩
    intro hadmits hgranted
    have hgone := Request.conductedAt_watched hgoes hgoing bound hm (r := r) hr hadmits
    exact (hgone.of_eq h hgranted).1
  · intro α p hp sights r n h
    have hgrown := Program.conducted_watched hgrows hgrowing bound hp hm
    obtain ⟨hmn, -⟩ := hgrown.of_eq h (granted_all sights)
    refine ⟨hmn, hmn.nodup hkinds, ?_⟩
    intro hgranted
    have hgone := Program.conducted_watched hgoes hgoing bound hp hm
    exact (hgone.of_eq h hgranted).1
  · intro kind handler r n h
    cases h
    have hmn := m.grows_register kind handler
    exact ⟨hmn, hmn.nodup hkinds, .of_samePlace ⟨rfl, rfl, rfl, rfl, rfl⟩⟩
  · intro value bytes hbytes
    exact m.lexer.pass.position.index_le_advance_iff value hbytes
  · intro pattern kind t n h
    exact ⟨_, LexM.location_of_scan h, (LexM.Moves.scan .goes pattern kind h).1.forward⟩
  · intro c t n h
    exact ⟨_, LexM.location_of_characterToken h, (LexM.Moves.characterToken .goes c h).1.forward⟩
  · intro kind handler sights t n hknown h
    exact Watched.forward_of_runHandler hK hm hknown h
  · intro sights t n h
    exact Watched.forward_of_derive hK hm h

/-- The handlers that never start over and register nothing. -/
def Conduct.steady : Conduct where
  allowed := Request.GoesOn
  known h := h.program.Asks Request.GoesOn fun _ => False
  asks _ hh := hh.mono (fun _ => id) fun _ => False.elim

theorem oneLetter_follows : oneLetter.Follows .steady := by
  intro entry hentry
  cases List.mem_singleton.1 hentry
  apply Program.Asks.ofPatternWith trivial
  intro t
  refine ⟨trivial, ?_⟩
  rintro (_ | _) <;> trivial

theorem asks_replacing (value : Text) :
    (replacing value).Asks Request.GoesOn Conduct.steady.known := by
  refine .bind (.request trivial) fun _ => .bind ⟨trivial, ?_⟩ fun _ => ?_
  · rintro (_ | _) <;> trivial
  · exact .bind (.request trivial) fun _ => fun _ _ => trivial

/-- A pass grows past an attempt that fails, and the token of a letter is located over it. -/
theorem pass_grows_past_attempt :
    (oneLetter.Follows .steady ∧ oneLetter.lexer.registry.kinds.Nodup ∧
      oneLetter.lexer.pass.Roomy) ∧
      (∃ sights r n, (replacing ['x', '\n']).watch 4 oneLetter = (sights, some (r, n)) ∧
        Granted Pass.Admits sights ∧ oneLetter.Grows n ∧
        oneLetter.lexer.pass.Onward n.lexer.pass ∧ n.lexer.pass.consumed = "ax\n".toList) ∧
      ∃ sights t n l,
        Watched.derive (Handler.watched 4) oneLetter = (sights, some (.ok (some t), n)) ∧
        t.location = some l ∧ l = ⟨⟨0, 1, 1⟩, ⟨1, 1, 2⟩, none⟩ := by
  have hkinds : oneLetter.lexer.registry.kinds.Nodup := by decide
  have hroomy : oneLetter.lexer.pass.Roomy := by decide
  have hgranted : Granted Pass.Admits ((replacing ['x', '\n']).watch 4 oneLetter).1 := by
    decide +kernel
  have hrun : LexM.shown ((replacing ['x', '\n']).watch 4).value oneLetter id
      (·.lexer.pass.consumed) = some (some (), "ax\n".toList) := by decide +kernel
  have hderive : LexM.shown (Watched.derive (Handler.watched 4)).value oneLetter
      (·.bind (·.location)) (fun _ => ()) =
        some (some (some ⟨⟨0, 1, 1⟩, ⟨1, 1, 2⟩, none⟩), ()) := by decide +kernel
  obtain ⟨_, n, hrun, -, hconsumed⟩ := LexM.exists_of_shown hrun
  obtain ⟨t?, k, hderive, hlocation, -⟩ := LexM.exists_of_shown hderive
  obtain ⟨t, rfl, hlocation⟩ := Option.bind_eq_some_iff.1 hlocation
  obtain ⟨-, hprograms, -, -, -, -, -, hderived⟩ :=
    Conduct.pass_grows (K := .steady) (fun _ => id) oneLetter_follows hkinds 4 4
  have hwatch := Watched.eq_of_value hrun
  have hsights := Watched.eq_of_value hderive
  obtain ⟨hgrows, -, hgoes⟩ := hprograms (replacing ['x', '\n']) (asks_replacing _) _ _ n hwatch
  obtain ⟨l, hl, -⟩ := hderived _ t k hsights
  exact ⟨⟨oneLetter_follows, hkinds, hroomy⟩,
    ⟨_, _, n, hwatch, hgranted, hgrows, hgoes hgranted hroomy, hconsumed⟩,
    _, t, k, l, hsights, hl, Option.some.inj (hl.symm.trans hlocation)⟩

def goingRound : Handler :=
  .mk do
    let _ ← Program.request (.move [] (UInt64.size - 1))
    return some (.plain "k" none)

/-- A lexer with that handler behind the first of two letters. -/
def aroundWords : Machine :=
  (Machine.fresh "ab" [("k", goingRound)]).withPass { Pass.start "ab".toList with
    offset := 1, rest := ['b'], behind := ['a'], position := ⟨1, 1, 2⟩ }

/-- The handler takes the index back, and its token stops before it starts. -/
theorem pass_goes_back_around_words :
    LexM.consume 1 (.fresh "ab" [("k", goingRound)]) = some (.ok ['a'], aroundWords) ∧
      aroundWords.Follows .steady ∧
      ∃ t n l, LexM.handle (Handler.call 1) "k" aroundWords = some (.ok (some t), n) ∧
        t.location = some l ∧ l = ⟨⟨1, 1, 2⟩, ⟨0, 1, 2⟩, none⟩ ∧
        ¬ aroundWords.lexer.pass.position.index ≤ n.lexer.pass.position.index ∧ ¬ l.Forward := by
  have hfollows : aroundWords.Follows .steady := by
    intro entry hentry
    cases List.mem_singleton.1 hentry
    exact .bind (.request trivial) fun _ => trivial
  have hhandle : LexM.shown (LexM.handle (Handler.call 1) "k") aroundWords
      (·.bind (·.location)) (·.lexer.pass.position) =
        some (some (some ⟨⟨1, 1, 2⟩, ⟨0, 1, 2⟩, none⟩), ⟨0, 1, 2⟩) := by decide +kernel
  obtain ⟨t?, n, hhandle, hlocation, hposition⟩ := LexM.exists_of_shown hhandle
  obtain ⟨t, rfl, hlocation⟩ := Option.bind_eq_some_iff.1 hlocation
  refine ⟨rfl, hfollows, t, n, _, hhandle, hlocation, rfl, ?_, fun h => ?_⟩
  · rw [hposition]
    decide
  · exact absurd h.index (by decide)

end ModularLexer
