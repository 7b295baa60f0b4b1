import ModularLexer.Proofs.Slices.Provenance

/-!
No slice is out of bounds and none cuts a character. Wherever a run comes to, the cursor stands
between characters of the input, and all captures that can be reached lie in their inputs.
-/
namespace ModularLexer

open Watched (Yields)
open Token (Genuine? AllGenuine)

def Token.captured (ts : List Token) : List Captures := ts.filterMap (·.captures)

/-- The captures that can be reached from a pass: those of its list, its queue and its stack. -/
def Pass.captures (p : Pass) : List Captures :=
  Token.captured (p.tokens.toList ++ p.queue ++ p.stack)

def Request.captures : (r : Request) → r.Reply → List Captures
  | view, v => v.pass.captures
  | matchPattern _, captures? => captures?.toList
  | scan _ _, t? => Token.captured t?.toList
  | token _ _, t => Token.captured [t]
  | tokenFrom _ _, t => Token.captured [t]
  | handle _, t? => Token.captured t?.toList
  | call _, t? => Token.captured t?.toList
  | advance, t? => Token.captured t?.toList
  | next, t? => Token.captured t?.toList
  | lex, ts => Token.captured ts
  | tokenize _, ts => Token.captured ts
  | dequeue, t? => Token.captured t?.toList
  | lookahead _, t? => Token.captured t?.toList
  | skip _, ts => Token.captured ts
  | skipWhile _, ts => Token.captured ts
  | skipTo _, ts => Token.captured ts
  | popStack, t? => Token.captured t?.toList
  | _, _ => []

namespace Token

variable {t : Token} {t? : Option Token} {ts : List Token} {c : Captures}

theorem AllGenuine.caught (h : AllGenuine ts) (hc : c ∈ captured ts) : c.Caught := by
  obtain ⟨t, ht, hcaptures⟩ := List.mem_filterMap.1 hc
  exact h t ht c hcaptures

theorem Genuine.caught (h : t.Genuine) (hc : c ∈ captured [t]) : c.Caught :=
  AllGenuine.caught (List.forall_mem_singleton.2 h) hc

theorem caught_of_genuine? (h : Genuine? t?) (hc : c ∈ captured t?.toList) : c.Caught := by
  cases t? with
  | none => cases hc
  | some t => exact (h t rfl).caught hc

end Token

theorem Pass.Genuine.caught {p : Pass} (hp : p.Genuine) {c : Captures} (hc : c ∈ p.captures) :
    c.Caught := by
  have hcoming := Token.allGenuine_append.2 ⟨hp.tokens, hp.queue⟩
  exact (Token.allGenuine_append.2 ⟨hcoming, hp.stack⟩).caught hc

theorem Request.Gives.caught {r : Request} {reply : r.Reply} (h : r.Gives reply) {c : Captures}
    (hc : c ∈ r.captures reply) : c.Caught := by
  cases r with
  | view => exact Pass.Genuine.caught h hc
  | matchPattern _ => exact h c (Option.mem_toList.1 hc)
  | scan _ _ => exact Token.caught_of_genuine? h hc
  | token _ _ => exact Token.Genuine.caught h hc
  | tokenFrom _ _ => exact Token.Genuine.caught h hc
  | handle _ => exact Token.caught_of_genuine? h hc
  | call _ => exact Token.caught_of_genuine? h hc
  | advance => exact Token.caught_of_genuine? h hc
  | next => exact Token.caught_of_genuine? h hc
  | lex => exact Token.AllGenuine.caught h hc
  | tokenize _ => exact Token.AllGenuine.caught h hc
  | dequeue => exact Token.caught_of_genuine? h hc
  | lookahead _ => exact Token.caught_of_genuine? h hc
  | skip _ => exact Token.AllGenuine.caught h hc
  | skipWhile _ => exact Token.AllGenuine.caught h hc
  | skipTo _ => exact Token.AllGenuine.caught h hc
  | popStack => exact Token.caught_of_genuine? h hc
  | _ => cases hc

/-- Where a run stands on its way or ends. -/
def Program.Reaches {α : Type} (p : Program Handler α) (bound : Nat) (m s : Machine) : Prop :=
  (∃ r?, .station s r? ∈ (p.watch bound m).1) ∨ ∃ r, p.exec bound m = some (r, s)

/-- All captures that can be reached from a run lie in their inputs: those kept by a lexer where a
program or one of its handlers stands, those that an answer gives back, and those of tokens that
were made. -/
structure Program.CapturesInBounds {α : Type} (p : Program Handler α) (bound : Nat) (m : Machine) :
    Prop where
  kept {s : Machine} : p.Reaches bound m s → ∀ c ∈ s.lexer.pass.captures, c.InBounds
  given {k : Machine} {r : Request} {reply : r.Reply} :
    .answer k r (.ok reply) ∈ (p.watch bound m).1 → ∀ c ∈ r.captures reply, c.InBounds
  derived {t : Token} : .derived t ∈ (p.watch bound m).1 → ∀ c ∈ t.captures, c.InBounds

theorem Program.Honest.capturesInBounds {α : Type} {H : Honesty} {p : Program Handler α}
    (hp : p.Honest H.known fun _ => True) {m : Machine} (hm : m.Honest H) (bound : Nat) :
    p.CapturesInBounds bound m := by
  obtain ⟨hsights, hend⟩ :=
    Program.yields_watched (fun _ => Handler.yields_watched bound) bound hp hm
  constructor
  · rintro s (⟨r?, hstation⟩ | ⟨r, hexec⟩) c hc
    · have hs : s.lexer.pass.Genuine := hsights _ hstation
      exact (hs.caught hc).inBounds
    · rw [← value_watch] at hexec
      exact ((hend r s hexec).1.pass.caught hc).inBounds
  · intro k r reply hanswer c hc
    have hgives := hsights _ hanswer reply rfl
    exact (hgives.caught hc).inBounds
  · intro t hderived c hc
    have ht : t.Genuine := hsights _ hderived
    exact (ht c hc).inBounds

/-- Whatever a program and its handlers do from the start of an input: wherever one of them stands
and at the end, the cursor is between characters of the input, the slices made there exist, and
what a pattern matches can be consumed. If captures are only handed on, all that can be reached lie
in their inputs. Going over a text and shortening one never cut a character either. -/
theorem Program.slices_in_bounds {α : Type} (p : Program Handler α) (bound : Nat) {m : Machine}
    {input : Text} (hstart : m.lexer.pass = .start input) :
    (∀ s, p.Reaches bound m s →
      s.lexer.pass.InBounds ∧
        ∀ pattern e n, LexM.matchPattern pattern s = some (.error e, n) →
          e = .configuration pattern.source ∨ e = .emptyMatch pattern.source) ∧
    (∀ H : Honesty, p.Honest H.known (fun _ => True) →
      (∀ entry ∈ m.lexer.registry.entries, H.known entry.2) → p.CapturesInBounds bound m) ∧
    (∀ (position : Position) (value : Text) (bytes : Nat),
      position.sliceAdvance? value bytes = some (position.advance value bytes)) ∧
    ∀ t : Text, Text.sliceExcerpt? t = some (Text.excerpt t) := by
  refine ⟨?_, ?_, Position.sliceAdvance?_eq, Text.sliceExcerpt?_eq⟩
  · intro s hs
    have hreached : s.Reached := ⟨α, p, bound, m, input, hstart, hs⟩
    exact ⟨hreached.placed.inBounds, fun _ _ _ => LexM.error_of_matchPattern⟩
  · intro H hp hknown
    have hpass : m.lexer.pass.Genuine := hstart ▸ Pass.genuine_start input
    exact hp.capturesInBounds ⟨hpass, hknown⟩ bound

/-- The handlers that hand on what they are given, register nothing and run nothing on forks. -/
def Honesty.plain : Honesty where
  known h := h.program.Honest (fun _ => False) Genuine?
  honest h hh := by
    generalize h.program = p at hh
    induction p with
    | done t? => exact hh
    | fail e => trivial
    | ask request next ih => exact ⟨hh.1, fun reply hreply => ih reply (hh.2 reply hreply)⟩
    | set kind handler next ih => exact hh.1.elim
    | fork input body next ih => exact hh.1.elim

/-- Takes a token, tries to take more than there is, starts over in the middle, and keeps the token
of before. -/
def keeping : Program Handler Unit := do
  let t? ← Program.request .next
  let _ ← (Program.request (.consume (UInt64.size - 1))).attempt
  Program.request (.init ['b'])
  t?.elim (return ()) fun t => Program.request (.pushStack t)

theorem oneLetter_honest :
    ∀ entry ∈ oneLetter.lexer.registry.entries, Honesty.plain.known entry.2 := by
  intro entry hentry
  cases List.mem_singleton.1 hentry
  refine ⟨trivial, ?_⟩
  rintro (e | _ | t) hreply
  · trivial
  · exact Token.genuine?_none
  · refine ⟨trivial, ?_⟩
    rintro (e | t?) -
    · exact hreply _ rfl
    · exact hreply _ rfl

theorem keeping_honest : keeping.Honest Honesty.plain.known fun _ => True := by
  refine ⟨trivial, ?_⟩
  rintro (e | t?) ht
  · trivial
  · refine ⟨trivial, ?_⟩
    rintro (_ | _) -
    all_goals
      refine ⟨trivial, ?_⟩
      rintro (_ | _) -
      · trivial
      · cases t? with
        | none => trivial
        | some t =>
          refine ⟨ht _ rfl t rfl, ?_⟩
          rintro (_ | _) - <;> trivial

theorem slices_in_bounds_kept :
    (oneLetter.lexer.pass = .start "a€b".toList ∧
      keeping.Honest Honesty.plain.known (fun _ => True) ∧
      ∀ entry ∈ oneLetter.lexer.registry.entries, Honesty.plain.known entry.2) ∧
    ∃ r s, keeping.exec 4 oneLetter = some (r, s) ∧ s.lexer.pass.InBounds ∧
      s.lexer.pass.input = ['b'] ∧ s.lexer.pass.captures.map (·.target) = ["a€b".toList] ∧
      ∀ c ∈ s.lexer.pass.captures, c.InBounds := by
  have hexec : LexM.shown (keeping.exec 4) oneLetter id
      (fun s => (s.lexer.pass.input, s.lexer.pass.captures.map (·.target))) =
        some (some (), ['b'], ["a€b".toList]) := by decide +kernel
  obtain ⟨_, s, hexec, -, hshown⟩ := LexM.exists_of_shown hexec
  obtain ⟨hinput, htarget⟩ := Prod.mk.inj hshown
  obtain ⟨hplaces, hcaptures, -⟩ := keeping.slices_in_bounds 4 (m := oneLetter) rfl
  have hs : keeping.Reaches 4 oneLetter s := .inr ⟨_, hexec⟩
  exact ⟨⟨rfl, keeping_honest, oneLetter_honest⟩, _, s, hexec, (hplaces s hs).1, hinput, htarget,
    (hcaptures .plain keeping_honest oneLetter_honest).kept hs⟩

end ModularLexer
