import ModularLexer.Proofs.Coupling.Programs
import ModularLexer.Proofs.Slices.Cutting

/-!
Where captures come from. Handlers get captures from patterns and from tokens, and can hand them
on, but cannot make any. So wherever tokens are kept, and whatever is given back, all captures were
caught by patterns on lexers that some run had led to, and lie in their inputs.
-/
namespace ModularLexer

open Watched (lift)

/-- What a pattern caught on a lexer that some run had led to. -/
def Captures.Caught (c : Captures) : Prop :=
  ∃ s pattern n, s.Reached ∧ LexM.matchPattern pattern s = some (.ok (some c), n)

theorem Captures.Caught.inBounds {c : Captures} (h : c.Caught) : c.InBounds := by
  obtain ⟨s, pattern, n, hs, hmatch⟩ := h
  exact LexM.inBounds_of_matchPattern hs.placed hmatch

/-- A pattern catches the same on the lexer that has only consumed what lies before the rest. -/
theorem LexM.caught_of_matchPattern {m n : Machine} {pattern : Pattern} {c : Captures}
    (hm : m.lexer.pass.Placed) (h : matchPattern pattern m = some (.ok (some c), n)) :
    c.Caught := by
  obtain ⟨groups, hverdict, rfl⟩ := verdict_of_matchPattern h
  obtain ⟨-, after, hafter⟩ := Segmentation.of_verdict_eq_some hverdict
  obtain ⟨front, hinput, hoffset⟩ := hm
  let m₀ := m.withPass (.start m.lexer.pass.input)
  let s := m₀.withPass (m₀.lexer.pass.past front m.lexer.pass.rest)
  have hconsume : (Program.request (.consume front.byteLength) : Program Handler Text).exec 0 m₀ =
      some (.ok front, s) := by
    rw [Program.exec, Program.run_request]
    exact consume_apply hinput
  have hs : s.Reached :=
    ⟨Text, .request (.consume front.byteLength), 0, m₀, m.lexer.pass.input, rfl,
      .inr ⟨.ok front, hconsume⟩⟩
  have hsame := matchPattern_of_match (m := s) hverdict hafter.symm
  have hat : s.lexer.pass.offset = m.lexer.pass.offset := (Nat.zero_add _).trans hoffset
  rw [hat] at hsame
  exact ⟨s, pattern, _, hs, hsame⟩

def Token.Genuine (t : Token) : Prop := ∀ c ∈ t.captures, c.Caught

namespace Token

def Genuine? (t? : Option Token) : Prop := ∀ t ∈ t?, t.Genuine

def AllGenuine (ts : List Token) : Prop := ∀ t ∈ ts, t.Genuine

variable {t : Token} {ts us : List Token}

theorem genuine?_none : Genuine? none := by
  intro t h
  cases h

theorem genuine?_some (ht : t.Genuine) : Genuine? (some t) := by
  intro u h
  cases h
  exact ht

theorem genuine_plain (kind : String) (value : Option Text) : (plain kind value).Genuine := by
  intro c h
  cases h

theorem genuine_ofCaptures (kind : String) {c : Captures} (hc : c.Caught) :
    (ofCaptures kind c).Genuine := by
  intro c' h
  cases h
  exact hc

theorem Genuine.of_captures {u : Token} (ht : t.Genuine) (h : u.captures = t.captures) :
    u.Genuine := by
  unfold Genuine
  rw [h]
  exact ht

theorem captures_withKind (t : Token) (kind : String) :
    (t.withKind kind).captures = t.captures := by
  unfold withKind
  split <;> rfl

theorem captures_withLocation (t : Token) (location : Location) :
    (t.withLocation location).captures = t.captures := by
  unfold withLocation
  split <;> rfl

theorem allGenuine_nil : AllGenuine [] := by
  intro t h
  cases h

theorem allGenuine_cons : AllGenuine (t :: ts) ↔ t.Genuine ∧ AllGenuine ts := List.forall_mem_cons

theorem allGenuine_append : AllGenuine (ts ++ us) ↔ AllGenuine ts ∧ AllGenuine us :=
  List.forall_mem_append

theorem AllGenuine.reverse (h : AllGenuine ts) : AllGenuine ts.reverse :=
  fun t ht => h t (List.mem_reverse.1 ht)

theorem AllGenuine.getElem? (h : AllGenuine ts) (i : Nat) : Genuine? ts[i]? :=
  fun t ht => h t (List.mem_of_getElem? ht)

end Token

open Token (Genuine? AllGenuine)

/-- The cursor stands on the input, and all captures of kept tokens were caught. -/
structure Pass.Genuine (p : Pass) : Prop where
  placed : p.Placed
  tokens : AllGenuine p.tokens.toList
  queue : AllGenuine p.queue
  stack : AllGenuine p.stack

namespace Pass

variable {p q : Pass}

theorem genuine_start (input : Text) : (start input).Genuine :=
  ⟨⟨[], rfl, rfl⟩, Token.allGenuine_nil, Token.allGenuine_nil, Token.allGenuine_nil⟩

/-- Taking input leaves the tokens alone. -/
theorem Genuine.consume (hp : p.Genuine) {bytes : Nat} {taken : Text}
    (h : p.consume bytes = .ok (taken, q)) : q.Genuine := by
  have hplaced := invariant_placed.consume h hp.placed
  obtain ⟨rest, -, -, rfl⟩ := consume_eq_ok_iff.1 h
  exact ⟨hplaced, hp.tokens, hp.queue, hp.stack⟩

theorem Genuine.consumeAs (hp : p.Genuine) {bytes : Nat} {value : Text}
    (h : p.consumeAs bytes value = .ok q) : q.Genuine := by
  have hplaced := invariant_placed.consumeAs trivial h hp.placed
  obtain ⟨taken, rest, -, -, rfl⟩ := consumeAs_eq_ok_iff.1 h
  exact ⟨hplaced, hp.tokens, hp.queue, hp.stack⟩

theorem Genuine.move (hp : p.Genuine) (value : Text) (bytes : Nat) : (p.move value bytes).Genuine :=
  ⟨hp.placed, hp.tokens, hp.queue, hp.stack⟩

theorem Genuine.withQueue (hp : p.Genuine) {queue : List Token} (h : AllGenuine queue) :
    Pass.Genuine { p with queue := queue } := ⟨hp.placed, hp.tokens, h, hp.stack⟩

theorem Genuine.push (hp : p.Genuine) {t : Token} (ht : t.Genuine) : (p.push t).Genuine where
  placed := hp.placed
  tokens := by
    show AllGenuine (p.tokens.push t).toList
    rw [Array.toList_push]
    exact Token.allGenuine_append.2 ⟨hp.tokens, List.forall_mem_singleton.2 ht⟩
  queue := hp.queue
  stack := hp.stack

theorem Genuine.pushStack (hp : p.Genuine) {t : Token} (ht : t.Genuine) :
    (p.pushStack t).Genuine :=
  ⟨hp.placed, hp.tokens, hp.queue, Token.allGenuine_cons.2 ⟨ht, hp.stack⟩⟩

theorem Genuine.popStack (hp : p.Genuine) : Genuine? p.popStack.1 ∧ p.popStack.2.Genuine := by
  unfold Pass.popStack
  have hstack := hp.stack
  split
  · next t stack h =>
    rw [h] at hstack
    obtain ⟨ht, hrest⟩ := Token.allGenuine_cons.1 hstack
    exact ⟨Token.genuine?_some ht, hp.placed, hp.tokens, hp.queue, hrest⟩
  · exact ⟨Token.genuine?_none, hp⟩

theorem Genuine.dequeue (hp : p.Genuine) : Genuine? p.dequeue.1 ∧ p.dequeue.2.Genuine := by
  unfold Pass.dequeue
  have hqueue := hp.queue
  split
  · next t queue h =>
    rw [h] at hqueue
    obtain ⟨ht, hrest⟩ := Token.allGenuine_cons.1 hqueue
    exact ⟨Token.genuine?_some ht, hp.withQueue hrest⟩
  · exact ⟨Token.genuine?_none, hp⟩

theorem Genuine.append (hp : p.Genuine) (value : Text) : (p.append value).Genuine := by
  unfold Pass.append
  split
  · exact hp
  · split <;> exact ⟨hp.placed, hp.tokens, hp.queue, hp.stack⟩

end Pass

namespace Request

/-- Whether the captures that a request hands in were caught. -/
def Hands : Request → Prop
  | tokenFrom _ captures => captures.Caught
  | enqueue t => t.Genuine
  | push t => t.Genuine
  | pushStack t => t.Genuine
  | _ => True

def Gives : (r : Request) → r.Reply → Prop
  | view, v => v.pass.Genuine
  | matchPattern _, captures? => ∀ c ∈ captures?, c.Caught
  | scan _ _, t? => Genuine? t?
  | token _ _, t => t.Genuine
  | tokenFrom _ _, t => t.Genuine
  | handle _, t? => Genuine? t?
  | call _, t? => Genuine? t?
  | advance, t? => Genuine? t?
  | next, t? => Genuine? t?
  | lex, ts => AllGenuine ts
  | tokenize _, ts => AllGenuine ts
  | dequeue, t? => Genuine? t?
  | lookahead _, t? => Genuine? t?
  | skip _, ts => AllGenuine ts
  | skipWhile _, ts => AllGenuine ts
  | skipTo _, ts => AllGenuine ts
  | popStack, t? => Genuine? t?
  | _, _ => True

end Request

/-- Whether a program hands on captures that were caught only, as long as it is given such ones, and
registers and runs known handlers. Its result is what it is meant to be. -/
def Program.Honest {α : Type} (known : Handler → Prop) (Q : α → Prop) : Program Handler α → Prop
  | done a => Q a
  | fail _ => True
  | ask request next =>
    request.Hands ∧
      ∀ reply, (∀ a, reply = .ok a → request.Gives a) → (next reply).Honest known Q
  | set _ handler next => known handler ∧ next.Honest known Q
  | fork _ body next =>
    known body ∧ ∀ outcome view, (∀ t?, outcome = .ok t? → Genuine? t?) → view.pass.Genuine →
      (next outcome view).Honest known Q

/-- A class of handlers that make no captures: they hand on those that patterns caught. -/
structure Honesty where
  known : Handler → Prop
  honest : ∀ h, known h → h.program.Honest known Genuine?

variable {H : Honesty}

structure Machine.Honest (H : Honesty) (m : Machine) : Prop where
  pass : m.lexer.pass.Genuine
  known : ∀ entry ∈ m.lexer.registry.entries, H.known entry.2

theorem Machine.Honest.withPass {m : Machine} (hm : m.Honest H) {p : Pass} (hp : p.Genuine) :
    (m.withPass p).Honest H := ⟨hp, hm.known⟩

def Sight.Genuine : Sight → Prop
  | station m _ => m.lexer.pass.Genuine
  | answer _ request reply => ∀ a, reply = .ok a → request.Gives a
  | derived t => t.Genuine
  | forked => True
  | joined => True

namespace Watched

variable {α β : Type}

/-- On an honest lexer all that is seen is genuine, the lexer stays honest, and the result is what
it is meant to be. -/
def Yields (H : Honesty) (Q : α → Prop) (x : Watched α) : Prop :=
  ∀ ⦃m : Machine⦄, m.Honest H → (∀ sight ∈ (x m).1, sight.Genuine) ∧
    ∀ r n, (x m).2 = some (r, n) → n.Honest H ∧ ∀ a, r = .ok a → Q a

namespace Yields

theorem of_lift {Q : α → Prop} {x : LexM α}
    (hx : ∀ ⦃m r n⦄, m.Honest H → x m = some (r, n) → n.Honest H ∧ ∀ a, r = .ok a → Q a) :
    Yields H Q (lift x) := by
  intro m hm
  refine ⟨?_, fun r n h => hx hm h⟩
  intro sight h
  cases h

theorem bind {P : α → Prop} {Q : β → Prop} {x : Watched α} {f : α → Watched β}
    (hx : Yields H P x) (hf : ∀ a, P a → Yields H Q (f a)) : Yields H Q (x >>= f) := by
  intro m hm
  obtain ⟨hsights, hend⟩ := hx hm
  rcases bind_cases x f m with ⟨sights, a, n, h, hbind⟩ | ⟨hsame, hfailed⟩
  · rw [h] at hsights hend
    obtain ⟨hn, ha⟩ := hend _ n rfl
    obtain ⟨hmore, hlast⟩ := hf a (ha a rfl) hn
    rw [hbind]
    refine ⟨?_, hlast⟩
    intro sight hsight
    rcases List.mem_append.1 hsight with hsight | hsight
    · exact hsights sight hsight
    · exact hmore sight hsight
  · rw [hsame]
    refine ⟨hsights, ?_⟩
    intro r n h
    obtain ⟨e, he, rfl⟩ := hfailed r n h
    refine ⟨(hend _ n he).1, ?_⟩
    intro b hb
    cases hb

theorem lift_bind {P : α → Prop} {Q : β → Prop} {x : LexM α} {f : α → LexM β}
    (hx : Yields H P (lift x)) (hf : ∀ a, P a → Yields H Q (lift (f a))) :
    Yields H Q (lift (x >>= f)) := by
  rw [Watched.lift_bind]
  exact hx.bind hf

theorem attempt {Q : α → Prop} {x : Watched α} (hx : Yields H Q x) :
    Yields H (fun r => ∀ a, r = .ok a → Q a) (attempt x) := by
  intro m hm
  obtain ⟨hsights, hend⟩ := hx hm
  refine ⟨hsights, ?_⟩
  intro r n h
  obtain ⟨outcome, hk, rfl⟩ := LexM.exists_of_attempt (x := x.value) h
  obtain ⟨hn, hr⟩ := hend outcome n hk
  refine ⟨hn, ?_⟩
  intro a ha
  cases ha
  exact hr

theorem pure {Q : α → Prop} {a : α} (ha : Q a) : Yields H Q (Pure.pure a) := by
  apply of_lift (x := LexM.pure a)
  intro m r n hm h
  cases h
  refine ⟨hm, ?_⟩
  intro b hb
  cases hb
  exact ha

theorem throw {Q : α → Prop} (e : LexError) : Yields H Q (lift (LexM.throw e)) := by
  apply of_lift
  intro m r n hm h
  cases h
  refine ⟨hm, ?_⟩
  intro a ha
  cases ha

theorem timeout {Q : α → Prop} : Yields H Q (lift LexM.timeout) := by
  apply of_lift
  intro m r n _ h
  cases h

theorem see (sight : Machine → Sight) (hsight : ∀ m : Machine, m.Honest H → (sight m).Genuine) :
    Yields H (fun _ => True) (see sight) := by
  intro m hm
  refine ⟨?_, ?_⟩
  · intro s hs
    cases List.mem_singleton.1 hs
    exact hsight m hm
  · intro r n h
    cases h
    exact ⟨hm, fun _ _ => trivial⟩

theorem ofExcept {Q : α → Prop} {r : Except LexError α} (h : ∀ a, r = .ok a → Q a) :
    Yields H Q (lift (LexM.ofExcept r)) := by
  cases r with
  | ok a => exact pure (h a rfl)
  | error e => exact throw e

theorem lexer :
    Yields H (fun l => l.pass.Genuine ∧ ∀ entry ∈ l.registry.entries, H.known entry.2)
      (lift LexM.lexer) := by
  apply of_lift
  intro m r n hm h
  cases h
  refine ⟨hm, ?_⟩
  intro l hl
  cases hl
  exact ⟨hm.pass, hm.known⟩

theorem pass : Yields H Pass.Genuine (lift LexM.pass) := by
  apply of_lift
  intro m r n hm h
  cases h
  refine ⟨hm, ?_⟩
  intro p hp
  cases hp
  exact hm.pass

theorem modifyPass {f : Pass → Pass} (hf : ∀ p, p.Genuine → (f p).Genuine) :
    Yields H (fun _ => True) (lift (LexM.modifyPass f)) := by
  apply of_lift
  intro m r n hm h
  cases h
  exact ⟨hm.withPass (hf _ hm.pass), fun _ _ => trivial⟩

theorem setPass {p : Pass} (hp : p.Genuine) : Yields H (fun _ => True) (lift (LexM.setPass p)) :=
  modifyPass fun _ _ => hp

theorem setQueue {queue : List Token} (h : AllGenuine queue) :
    Yields H (fun _ => True) (lift (LexM.setQueue queue)) :=
  modifyPass fun _ hp => hp.withQueue h

theorem record (e : Event) : Yields H (fun _ => True) (lift (LexM.record e)) := by
  apply of_lift
  intro m r n hm h
  cases h
  exact ⟨⟨hm.pass, hm.known⟩, fun _ _ => trivial⟩

theorem notify (installed : Hooks → Bool) (e : Event) :
    Yields H (fun _ => True) (lift (LexM.notify installed e)) := by
  apply lift_bind lexer
  intro l _
  split
  · exact record e
  · exact pure trivial

theorem report (e : LexError) : Yields H (fun _ => True) (lift (LexM.report e)) := by
  apply lift_bind lexer
  intro l _
  split
  · exact record _
  · exact throw e

theorem register (kind : String) {handler : Handler} (hknown : H.known handler) :
    Yields H (fun _ => True) (lift (LexM.register kind handler)) := by
  apply of_lift
  intro m r n hm h
  cases h
  refine ⟨⟨hm.pass, ?_⟩, fun _ _ => trivial⟩
  intro entry hentry
  rcases Registry.mem_of_mem_set hentry with rfl | hold
  · exact hknown
  · exact hm.known entry hold

theorem consume (bytes : Nat) : Yields H (fun _ => True) (lift (LexM.consume bytes)) := by
  apply lift_bind pass
  intro p hp
  apply lift_bind (ofExcept (Q := fun taken => taken.2.Genuine) fun taken h => hp.consume h)
  intro taken htaken
  exact lift_bind (setPass htaken) fun _ _ => pure trivial

theorem consumeAs (bytes : Nat) (value : Text) :
    Yields H (fun _ => True) (lift (LexM.consumeAs bytes value)) := by
  apply lift_bind pass
  intro p hp
  exact lift_bind (ofExcept fun q h => hp.consumeAs h) fun q hq => setPass hq

/-- What is caught here was caught where a run can lead to. -/
theorem matchPattern (pattern : Pattern) :
    Yields H (fun captures? => ∀ c ∈ captures?, c.Caught) (lift (LexM.matchPattern pattern)) := by
  have hmachine : Yields H (fun _ => True) (lift (LexM.matchPattern pattern)) := by
    apply lift_bind (ofExcept (Q := fun _ => True) fun _ _ => trivial)
    intro _ _
    apply lift_bind pass
    intro p _
    cases pattern.read? p.rest p.offset p.input with
    | none => exact pure trivial
    | some captures =>
      dsimp only
      split
      · exact throw _
      · exact lift_bind (consume _) fun _ _ => pure trivial
  apply of_lift
  intro m r n hm h
  refine ⟨((hmachine hm).2 r n h).1, ?_⟩
  rintro captures? rfl c rfl
  exact LexM.caught_of_matchPattern hm.pass.placed h

theorem token (kind : String) (value : Option Text) :
    Yields H Token.Genuine (lift (LexM.token kind value)) :=
  lift_bind (notify _ _) fun _ _ => pure (Token.genuine_plain kind value)

theorem tokenFrom (kind : String) {captures : Captures} (hcaptures : captures.Caught) :
    Yields H Token.Genuine (lift (LexM.tokenFrom kind captures)) :=
  lift_bind (notify _ _) fun _ _ => pure (Token.genuine_ofCaptures kind hcaptures)

theorem locationFrom (start : Position) :
    Yields H (fun _ => True) (lift (LexM.locationFrom start)) :=
  lift_bind lexer fun _ _ => pure trivial

theorem scan (pattern : Pattern) (kind : String) :
    Yields H Genuine? (lift (LexM.scan pattern kind)) := by
  apply lift_bind pass
  intro p _
  apply lift_bind (matchPattern pattern)
  intro captures? hcaptures
  cases captures? with
  | none => exact pure Token.genuine?_none
  | some captures =>
    apply lift_bind (tokenFrom kind (hcaptures captures rfl))
    intro t ht
    apply lift_bind (locationFrom p.position)
    intro location _
    apply lift_bind (notify _ _)
    intro _ _
    exact pure (Token.genuine?_some (ht.of_captures rfl))

theorem skipSpaces : Yields H (fun _ => True) (lift LexM.skipSpaces) :=
  lift_bind (matchPattern .spaces) fun _ _ => pure trivial

theorem characterToken (c : Char) : Yields H Token.Genuine (lift (LexM.characterToken c)) := by
  apply lift_bind pass
  intro p _
  apply lift_bind (consume _)
  intro taken _
  apply lift_bind (token _ _)
  intro t ht
  exact lift_bind (locationFrom _) fun _ _ => pure (ht.of_captures rfl)

theorem push {t : Token} (ht : t.Genuine) : Yields H (fun _ => True) (lift (LexM.push t)) :=
  lift_bind (notify _ _) fun _ _ => modifyPass fun _ hp => hp.push ht

theorem dequeue : Yields H Genuine? (lift LexM.dequeue) := by
  apply lift_bind pass
  intro p hp
  exact lift_bind (setPass hp.dequeue.2) fun _ _ => pure hp.dequeue.1

theorem popStack : Yields H Genuine? (lift do
    let (t, p) := (← LexM.pass).popStack
    LexM.setPass p
    return t) := by
  apply lift_bind pass
  intro p hp
  exact lift_bind (setPass hp.popStack.2) fun _ _ => pure hp.popStack.1

theorem finish : Yields H (fun _ => True) (lift LexM.finish) := by
  apply lift_bind pass
  intro p _
  split
  · exact report _
  · exact pure trivial

/-- A fork starts without tokens, and ends with the lexer as it was. -/
theorem onFork {Q : α → Prop} (input : Text) {x : Watched α} (hx : Yields H Q x) :
    Yields H (fun r => (∀ a, r.1 = .ok a → Q a) ∧ r.2.pass.Genuine) (onFork input x) := by
  intro m hm
  obtain ⟨hsights, hend⟩ := hx (m := { m with lexer := m.lexer.fork input })
    ⟨Pass.genuine_start input, hm.known⟩
  refine ⟨hsights, ?_⟩
  intro r n h
  obtain ⟨outcome, forked, hforked, rfl, rfl⟩ := LexM.exists_of_onFork (x := x.value) h
  obtain ⟨hlexer, hresult⟩ := hend outcome forked hforked
  refine ⟨⟨hm.pass, hm.known⟩, ?_⟩
  intro a ha
  cases ha
  exact ⟨hresult, hlexer.pass⟩

section Drivers

variable {call : Handler → Watched (Option Token)}
  (hcall : ∀ h, H.known h → Yields H Genuine? (call h))

include hcall

theorem runHandler (kind : String) {handler : Handler} (hknown : H.known handler) :
    Yields H Genuine? (runHandler call kind handler) := by
  apply pass.bind
  intro p _
  apply (hcall handler hknown).bind
  intro t? ht
  cases t? with
  | none => exact pure Token.genuine?_none
  | some t =>
    apply (locationFrom _).bind
    intro location _
    have hcaptures : ((t.withKind kind).withLocation location).captures = t.captures := by
      rw [Token.captures_withLocation, Token.captures_withKind]
    exact pure (Token.genuine?_some ((ht t rfl).of_captures hcaptures))

theorem handle (kind : String) : Yields H Genuine? (handle call kind) := by
  apply lexer.bind
  rintro l ⟨-, hknown⟩
  apply (ofExcept (Q := H.known) ?_).bind fun handler => runHandler hcall kind
  intro handler hget
  obtain ⟨entry, hentry, rfl⟩ := Registry.mem_of_get hget
  exact hknown entry hentry

theorem callKind (kind : String) : Yields H Genuine? (callKind call kind) := by
  apply lexer.bind
  rintro l ⟨-, hknown⟩
  apply (ofExcept (Q := H.known) ?_).bind hcall
  intro handler hget
  obtain ⟨entry, hentry, rfl⟩ := Registry.mem_of_get hget
  exact hknown entry hentry

theorem tryHandlers (count i : Nat) : Yields H Genuine? (tryHandlers call count i) := by
  induction count generalizing i with
  | zero => exact pure Token.genuine?_none
  | succ count ih =>
    apply lexer.bind
    rintro l ⟨-, hknown⟩
    rcases hentry : l.registry.entryAt? i with _ | ⟨kind, handler⟩
    · exact pure Token.genuine?_none
    · apply (runHandler hcall kind (hknown _ (List.mem_of_getElem? hentry))).bind
      intro t? ht
      cases t? with
      | none => exact ih (i + 1)
      | some t => exact pure ht

theorem derive : Yields H Genuine? (derive call) := by
  apply lexer.bind
  intro l _
  split
  · exact pure Token.genuine?_none
  · exact (characterToken _).bind fun t ht => pure (Token.genuine?_some ht)
  · apply (tryHandlers hcall _ 0).bind
    intro t? ht
    cases t? with
    | some t => exact pure ht
    | none =>
      apply pass.bind
      intro p _
      split
      · exact pure Token.genuine?_none
      · exact throw _

theorem advance : Yields H Genuine? (advance call) := by
  apply (derive hcall).attempt.bind
  intro outcome ht
  rcases outcome with e | _ | t
  · exact (report e).bind fun _ _ => pure Token.genuine?_none
  · exact pure Token.genuine?_none
  · have ht := ht _ rfl
    exact (see (fun _ => .derived t) fun _ _ => ht t rfl).bind fun _ _ => pure ht

theorem next : Yields H Genuine? (next call) := by
  apply dequeue.bind
  intro t? ht
  cases t? with
  | some t => exact pure ht
  | none => exact advance hcall

theorem pushAll (bound : Nat) : Yields H (fun _ => True) (pushAll call bound) := by
  induction bound with
  | zero => exact timeout
  | succ bound ih =>
    apply (next hcall).bind
    intro t? ht
    cases t? with
    | some t => exact (push (ht t rfl)).bind fun _ _ => ih
    | none => exact pure trivial

theorem lex (bound : Nat) : Yields H AllGenuine (lex call bound) := by
  apply (pushAll hcall bound).bind
  intro _ _
  apply pass.bind
  intro p _
  have hlast : Yields H AllGenuine (lift LexM.pass >>= fun p => Pure.pure p.tokens.toList) :=
    pass.bind fun p hp => pure hp.tokens
  split
  · exact finish.bind fun _ _ => hlast
  · exact hlast

theorem fill (n bound : Nat) : Yields H (fun _ => True) (fill call n bound) := by
  induction bound with
  | zero => exact pure trivial
  | succ bound ih =>
    apply pass.bind
    intro p hp
    dsimp only
    split
    · exact pure trivial
    · apply (setQueue Token.allGenuine_nil).bind
      intro _ _
      apply (advance hcall).attempt.bind
      intro outcome ht
      apply pass.bind
      intro q hq
      have hqueue := Token.allGenuine_append.2 ⟨hp.queue, hq.queue⟩
      rcases outcome with e | _ | t
      · exact (setQueue hqueue).bind fun _ _ => throw e
      · exact setQueue hqueue
      · have hmade := Token.allGenuine_cons.2 ⟨ht _ rfl t rfl, hq.queue⟩
        exact (setQueue (Token.allGenuine_append.2 ⟨hp.queue, hmade⟩)).bind fun _ _ => ih

theorem lookahead (n : Nat) : Yields H Genuine? (lookahead call n) := by
  unfold Watched.lookahead Source.lookahead
  split
  · exact throw _
  · apply pass.bind
    intro p _
    apply (fill hcall n _).bind
    intro _ _
    exact pass.bind fun q hq => pure (hq.queue.getElem? (n - 1))

theorem skipOnto (n : Nat) {taken : List Token} (htaken : AllGenuine taken) :
    Yields H AllGenuine (skipOnto call n taken) := by
  induction n generalizing taken with
  | zero => exact pure htaken.reverse
  | succ n ih =>
    apply (next hcall).bind
    intro t? ht
    cases t? with
    | some t => exact ih (Token.allGenuine_cons.2 ⟨ht t rfl, htaken⟩)
    | none => exact pure htaken.reverse

theorem skipWhileOnto (accepts : List Token → Token → Bool) (bound : Nat) {taken : List Token}
    (htaken : AllGenuine taken) :
    Yields H AllGenuine (skipWhileOnto call accepts bound taken) := by
  induction bound generalizing taken with
  | zero => exact timeout
  | succ bound ih =>
    apply (lookahead hcall 1).bind
    intro t? _
    cases t? with
    | none => exact pure htaken.reverse
    | some t =>
      have htest : Yields H (fun _ => True) (Pure.pure (accepts taken t)) := pure trivial
      apply htest.bind
      intro accepted _
      split
      · apply (next hcall).bind
        intro t? ht
        cases t? with
        | some t => exact ih (Token.allGenuine_cons.2 ⟨ht t rfl, htaken⟩)
        | none => exact ih htaken
      · exact pure htaken.reverse

theorem skipTo (bound : Nat) (kind : String) : Yields H AllGenuine (skipTo call bound kind) := by
  apply (skipWhileOnto hcall _ bound Token.allGenuine_nil).bind
  intro taken htaken
  apply (next hcall).bind
  intro t? ht
  cases t? with
  | some t =>
    exact pure (Token.allGenuine_append.2 ⟨htaken, List.forall_mem_singleton.2 (ht t rfl)⟩)
  | none => exact pure htaken

/-- Whatever is asked for with captures that were caught gives back such ones. -/
theorem request (bound : Nat) {r : Request} (hands : r.Hands) :
    Yields H r.Gives (r.watched call bound) := by
  cases r with
  | view => exact lift_bind lexer fun l hl => pure hl.1
  | hooks => exact lift_bind lexer fun _ _ => pure trivial
  | consume bytes => exact consume bytes
  | consumeAs bytes value => exact consumeAs bytes value
  | move value bytes => exact modifyPass fun _ hp => hp.move value bytes
  | init input => exact setPass (Pass.genuine_start input)
  | matchPattern pattern => exact matchPattern pattern
  | scan pattern kind => exact scan pattern kind
  | skipSpaces => exact skipSpaces
  | token kind value => exact token kind value
  | tokenFrom kind captures => exact tokenFrom kind hands
  | handle kind => exact handle hcall kind
  | call kind => exact callKind hcall kind
  | advance => exact advance hcall
  | next => exact next hcall
  | lex => exact lex hcall bound
  | tokenize input => exact (setPass (Pass.genuine_start input)).bind fun _ _ => lex hcall bound
  | enqueue t =>
    exact modifyPass fun _ hp =>
      hp.withQueue (Token.allGenuine_append.2 ⟨hp.queue, List.forall_mem_singleton.2 hands⟩)
  | dequeue => exact dequeue
  | lookahead n => exact lookahead hcall n
  | skip n => exact skipOnto hcall n Token.allGenuine_nil
  | skipWhile accepts => exact skipWhileOnto hcall accepts bound Token.allGenuine_nil
  | skipTo kind => exact skipTo hcall bound kind
  | push t => exact push hands
  | pushStack t => exact modifyPass fun _ hp => hp.pushStack hands
  | popStack => exact popStack
  | append value => exact modifyPass fun _ hp => hp.append value
  | finish => exact finish
  | report e => exact report e
  | note label answer => exact record _

end Drivers

end Yields

end Watched

open Watched (Yields)

/-- An honest program yields what it is meant to, by induction on what it does next. -/
theorem Program.yields_watched {α : Type} {Q : α → Prop} {call : Handler → Watched (Option Token)}
    (hcall : ∀ h, H.known h → Yields H Genuine? (call h)) (bound : Nat) {p : Program Handler α}
    (hp : p.Honest H.known Q) : Yields H Q (p.watched call bound) := by
  have hstation : Yields H (fun _ => True) (Watched.see fun m => .station m none) :=
    .see _ fun m hm => hm.pass
  induction p with
  | done a => exact hstation.bind fun _ _ => .pure hp
  | fail e => exact hstation.bind fun _ _ => .throw e
  | ask request next ih =>
    obtain ⟨hands, hnext⟩ := hp
    have hhere : Yields H (Machine.Honest H) (lift fun m => some (.ok m, m)) := by
      apply Yields.of_lift
      intro m r n hm h
      cases h
      refine ⟨hm, ?_⟩
      intro k hk
      cases hk
      exact hm
    apply hhere.bind
    intro m hm
    apply (Yields.see (fun _ => .station m (some request)) fun _ _ => hm.pass).bind
    intro _ _
    apply (Yields.request hcall bound hands).attempt.bind
    intro reply hreply
    apply (Yields.see (fun _ => .answer m request reply) fun _ _ => hreply).bind
    intro _ _
    exact ih reply (hnext reply hreply)
  | set kind handler next ih =>
    obtain ⟨hknown, hnext⟩ := hp
    exact hstation.bind fun _ _ => (Yields.register kind hknown).bind fun _ _ => ih hnext
  | fork input body next ih =>
    obtain ⟨hknown, hnext⟩ := hp
    apply hstation.bind
    intro _ _
    apply (Yields.see (fun _ => .forked) fun _ _ => trivial).bind
    intro _ _
    apply (Yields.onFork input (hcall body hknown)).bind
    rintro ⟨outcome, view⟩ ⟨houtcome, hview⟩
    apply (Yields.see (fun _ => .joined) fun _ _ => trivial).bind
    intro _ _
    exact ih outcome view (hnext outcome view houtcome hview)

/-- An honest handler makes genuine tokens, however deep it calls others. -/
theorem Handler.yields_watched (depth : Nat) {h : Handler} (hknown : H.known h) :
    Yields H Genuine? (Handler.watched depth h) := by
  induction depth generalizing h with
  | zero => exact .timeout
  | succ depth ih => exact Program.yields_watched (fun _ => ih) depth (H.honest h hknown)

end ModularLexer
