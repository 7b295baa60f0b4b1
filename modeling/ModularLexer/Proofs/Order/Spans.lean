import ModularLexer.Proofs.Runs.Sights
import Mathlib.Data.List.Chain

/-!
Tokens in the order of the input. Each stretch of the input comes with what was matched on it and
with the tokens that came of that. Where stretches follow one another, all of it is in order just if
each of them is; only a match that is handed on before tokens that waited when it was made is not.
-/
namespace ModularLexer

namespace Token

/-- A token is not empty and lies between two places of the input. -/
def Within (t : Token) (low high : Nat) : Prop :=
  ∃ l, t.location = some l ∧ low ≤ l.start.index.toNat ∧ l.start.index < l.stop.index ∧
    l.stop.index.toNat ≤ high

def Precedes (t u : Token) : Prop :=
  match t.location, u.location with
  | some l, some k => l.stop.index ≤ k.start.index
  | _, _ => False

instance : DecidableRel Precedes := fun t u => by
  unfold Precedes
  split <;> infer_instance

variable {t u : Token} {low mid high : Nat}

theorem Within.mono {low' high' : Nat} (h : t.Within low high) (hlow : low' ≤ low)
    (hhigh : high ≤ high') : t.Within low' high' := by
  obtain ⟨l, hl, hstart, hlength, hstop⟩ := h
  exact ⟨l, hl, Nat.le_trans hlow hstart, hlength, Nat.le_trans hstop hhigh⟩

theorem Within.precedes (h : t.Within low mid) (h' : u.Within mid high) : t.Precedes u := by
  obtain ⟨l, hl, -, -, hstop⟩ := h
  obtain ⟨k, hk, hstart, -, -⟩ := h'
  unfold Precedes
  rw [hl, hk]
  exact UInt64.le_iff_toNat_le.2 (Nat.le_trans hstop hstart)

theorem Within.not_precedes (h : t.Within low mid) (h' : u.Within mid high) : ¬u.Precedes t := by
  obtain ⟨l, hl, hlow, hlength, hstop⟩ := h
  obtain ⟨k, hk, hstart, hlength', hhigh⟩ := h'
  unfold Precedes
  rw [hl, hk]
  show ¬k.stop.index ≤ l.start.index
  rw [UInt64.le_iff_toNat_le]
  rw [UInt64.lt_iff_toNat_lt] at hlength hlength'
  omega

/-- No token lies on both sides of a place. -/
theorem Within.ne (h : t.Within low mid) (h' : u.Within mid high) : t ≠ u := by
  rintro rfl
  obtain ⟨l, hl, hlow, hlength, hstop⟩ := h
  obtain ⟨k, hk, hstart, hlength', hhigh⟩ := h'
  cases hl.symm.trans hk
  rw [UInt64.lt_iff_toNat_lt] at hlength
  omega

end Token

abbrev InOrder (ts : List Token) : Prop := ts.IsChain Token.Precedes

structure Match where
  waiting : List Token
  token : Token

/-- The match that is seen where a scan is answered with a token. -/
def Sight.match? : Sight → Option Match
  | answer m (.scan _ _) (.ok (some t)) => some ⟨m.queue, t⟩
  | _ => none

def matchesOf (sights : List Sight) : List Match := sights.filterMap Sight.match?

@[simp] theorem matchesOf_nil : matchesOf [] = [] := rfl

@[simp] theorem matchesOf_append (front back : List Sight) :
    matchesOf (front ++ back) = matchesOf front ++ matchesOf back := List.filterMap_append

def NoneWaiting (made : List Match) (ts : List Token) : Prop :=
  ∀ e ∈ made, e.token ∈ ts → e.waiting = []

/-- What was matched on a stretch of the input and the tokens that came of it. They are in order
just if none waited when they were matched; and if all is tidy none waited at any match. -/
structure Spans (tidy : Prop) (made : List Match) (low high : Nat) (ts : List Token) : Prop where
  le : low ≤ high
  matched : ∀ e ∈ made, e.token.Within low high
  within : ∀ t ∈ ts, t.Within low high
  ordered : InOrder ts ↔ NoneWaiting made ts
  prompt : tidy → ∀ e ∈ made, e.waiting = []

namespace Spans

variable {tidy : Prop} {made made' : List Match} {low mid high : Nat} {ts us : List Token}
  {t : Token}

theorem inOrder (h : Spans tidy made low high ts) (htidy : tidy) : InOrder ts :=
  h.ordered.2 fun e he _ => h.prompt htidy e he

theorem nil (place : Nat) : Spans tidy [] place place [] where
  le := Nat.le_refl place
  matched _ he := absurd he List.not_mem_nil
  within _ ht := absurd ht List.not_mem_nil
  ordered := ⟨fun _ _ he => absurd he List.not_mem_nil, fun _ => .nil⟩
  prompt _ _ he := absurd he List.not_mem_nil

/-- One stretch follows another. -/
theorem append (h : Spans tidy made low mid ts) (h' : Spans tidy made' mid high us) :
    Spans tidy (made ++ made') low high (ts ++ us) where
  le := Nat.le_trans h.le h'.le
  matched e he := by
    rcases List.mem_append.1 he with he | he
    · exact (h.matched e he).mono (Nat.le_refl low) h'.le
    · exact (h'.matched e he).mono h.le (Nat.le_refl high)
  within t ht := by
    rcases List.mem_append.1 ht with ht | ht
    · exact (h.within t ht).mono (Nat.le_refl low) h'.le
    · exact (h'.within t ht).mono h.le (Nat.le_refl high)
  ordered := by
    constructor
    · intro hall
      have hfront := h.ordered.1 hall.left_of_append
      have hback := h'.ordered.1 hall.right_of_append
      intro e he ht
      -- A token of one stretch was not matched on the other.
      rcases List.mem_append.1 he with he | he <;> rcases List.mem_append.1 ht with ht | ht
      · exact hfront e he ht
      · exact absurd rfl ((h.matched e he).ne (h'.within _ ht))
      · exact absurd rfl ((h.within _ ht).ne (h'.matched e he))
      · exact hback e he ht
    · intro hall
      have hfront : InOrder ts := h.ordered.2 fun e he ht =>
        hall e (List.mem_append_left made' he) (List.mem_append_left us ht)
      have hback : InOrder us := h'.ordered.2 fun e he ht =>
        hall e (List.mem_append_right made he) (List.mem_append_right ts ht)
      apply List.isChain_append.2 ⟨hfront, hback, ?_⟩
      intro t ht u hu
      exact (h.within t (List.mem_of_getLast? ht)).precedes (h'.within u (List.mem_of_head? hu))
  prompt htidy e he := by
    rcases List.mem_append.1 he with he | he
    · exact h.prompt htidy e he
    · exact h'.prompt htidy e he

/-- Nothing has to come of a stretch. -/
theorem forget (h : Spans tidy made low high ts) : Spans tidy made low high [] where
  le := h.le
  matched := h.matched
  within _ ht := absurd ht List.not_mem_nil
  ordered := ⟨fun _ _ _ ht => absurd ht List.not_mem_nil, fun _ => .nil⟩
  prompt := h.prompt

theorem le_of_within (h : t.Within low high) : low ≤ high := by
  obtain ⟨l, -, hstart, hlength, hstop⟩ := h
  rw [UInt64.lt_iff_toNat_lt] at hlength
  omega

/-- A token that is not a match is in order by itself. -/
theorem derived (h : t.Within low high) : Spans tidy [] low high [t] where
  le := le_of_within h
  matched _ he := absurd he List.not_mem_nil
  within _ hu := List.mem_singleton.1 hu ▸ h
  ordered := ⟨fun _ _ he => absurd he List.not_mem_nil, fun _ => .singleton t⟩
  prompt _ _ he := absurd he List.not_mem_nil

/-- So is one that is matched while none wait. -/
theorem kept (h : t.Within low high) : Spans tidy [⟨[], t⟩] low high [t] where
  le := le_of_within h
  matched _ he := List.mem_singleton.1 he ▸ h
  within _ hu := List.mem_singleton.1 hu ▸ h
  ordered := ⟨fun _ _ he _ => List.mem_singleton.1 he ▸ rfl, fun _ => .singleton t⟩
  prompt _ _ he := List.mem_singleton.1 he ▸ rfl

/-- Of a match that is dropped nothing comes. -/
theorem dropped {waiting : List Token} (h : t.Within low high) (hprompt : tidy → waiting = []) :
    Spans tidy [⟨waiting, t⟩] low high [] where
  le := le_of_within h
  matched _ he := List.mem_singleton.1 he ▸ h
  within _ hu := absurd hu List.not_mem_nil
  ordered := ⟨fun _ _ _ hu => absurd hu List.not_mem_nil, fun _ => .nil⟩
  prompt htidy _ he := List.mem_singleton.1 he ▸ hprompt htidy

/-- A match that is handed on before those that waited for longer is out of order. -/
theorem crossed {top : Nat} {waiting : List Token} (hbefore : Spans tidy made low mid waiting)
    (hwaiting : waiting ≠ []) (h : t.Within mid top) (htidy : ¬tidy)
    (hbehind : Spans tidy made' top high us) :
    Spans tidy (made ++ (⟨waiting, t⟩ :: made')) low high (t :: (waiting ++ us)) := by
  have hmade : Spans tidy (made ++ (⟨waiting, t⟩ :: made')) low high (waiting ++ ([] ++ us)) :=
    hbefore.append ((dropped h fun h => (htidy h).elim).append hbehind)
  have hother (u : Token) (hu : u ∈ t :: (waiting ++ us)) : u.Within low high := by
    rcases List.mem_cons.1 hu with rfl | hu
    · exact h.mono hbefore.le hbehind.le
    · exact hmade.within u hu
  refine ⟨hmade.le, hmade.matched, hother, ?_, fun h => (htidy h).elim⟩
  obtain ⟨first, others, rfl⟩ := List.exists_cons_of_ne_nil hwaiting
  constructor
  · intro hall
    have hcrossed : t.Precedes first := (List.isChain_cons_cons.1 hall).1
    exact absurd hcrossed ((hbefore.within first List.mem_cons_self).not_precedes h)
  · intro hall
    have hnone := hall ⟨first :: others, t⟩ (List.mem_append_right made List.mem_cons_self)
      List.mem_cons_self
    cases hnone

end Spans

end ModularLexer
