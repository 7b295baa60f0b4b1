import Mathlib.Data.List.SplitBy
import Mathlib.Data.List.TakeWhile
import ModularLexer.Proofs.Nesting.Balance
import ModularLexer.Proofs.Regex.Characters
import ModularLexer.Proofs.Regex.Size
import ModularLexer.Proofs.Registration
import ModularLexer.Proofs.Segmentation.Matching

/-!
A grammar of braces. Opening braces are kept on the stack, and closing ones take them off again or
are refused; so lexing tells whether the braces of a text are balanced, and where they are not.
-/
namespace ModularLexer.Nesting

open Segmentation (verdict tokenAt fullText)

/-- Whether a character is part of a text between braces and commas. -/
def plain (c : Char) : Bool := c != '{' && c != '}' && c != ','

def plainSet : CharSet := ⟨[(0, 43), (45, 122), (124, 124), (126, 0x10FFFF)]⟩

def sign (source : String) (c : Char) : Pattern :=
  ⟨source, .ofNode (.append (.check .textStart) (.text [c]))⟩

def openSign : Pattern := sign "^\\\x7b" '{'

def closeSign : Pattern := sign "^\\\x7d" '}'

def comma : Pattern := sign "^," ','

def text : Pattern :=
  ⟨"^[^\x7b\x7d,]+", .ofNode (.append (.check .textStart) (.iterate (.char plainSet) 1 none true))⟩

def openBrace (t : Token) : Program Handler (Option Token) := do
  Program.request (.pushStack t)
  return some t

def unexpected (position : Position) : LexError :=
  .handler ("unexpected \"\x7d\" at " ++ position.text)

/-- Takes the opening brace off the stack, if the innermost open construct is one. -/
def closeBrace (t : Token) : Program Handler (Option Token) := do
  let view ← Program.request .view
  if view.pass.isInside "brace.open" then
    let _ ← Program.request .popStack
    return some t
  else .fail (unexpected view.pass.position)

def handlers : List (String × Handler) := [
  ("brace.open", .ofPatternWith "brace.open" openSign openBrace),
  ("brace.close", .ofPatternWith "brace.close" closeSign closeBrace),
  ("comma", .ofPattern "comma" comma),
  ("text", .ofPattern "text" text)]

/-- A text in pieces: single braces and commas, and what lies between them as a whole. -/
def pieces (t : Text) : List Text := t.splitBy fun a b => plain a && plain b

def kindOf : Text → String
  | ['{'] => "brace.open"
  | ['}'] => "brace.close"
  | [','] => "comma"
  | _ => "text"

def tokensFrom (source : Option String) (input : Text) : Text → List Text → List Token
  | _, [] => []
  | before, piece :: rest =>
    tokenAt source input before (kindOf piece) [some piece] ::
      tokensFrom source input (before ++ piece) rest

def tokens (source : Option String) (input front : Text) : List Token :=
  tokensFrom source input [] (pieces front)

/-- A piece that a text leads with, and what comes behind it. -/
inductive Leads : Text → Text → Prop
  | sign {c : Char} (after : Text) : plain c = false → Leads [c] after
  | run {piece after : Text} : piece ≠ [] → (∀ c ∈ piece, plain c = true) →
      (∀ c ∈ after.head?, plain c = false) → Leads piece after

theorem Leads.ne_nil {piece after : Text} (h : Leads piece after) : piece ≠ [] := by
  cases h with
  | sign => exact List.cons_ne_nil _ _
  | run hne => exact hne

/-- A piece is cut off whatever of the text behind it there is. -/
theorem Leads.pieces {piece after front : Text} (h : Leads piece after) (hfront : front <+: after) :
    pieces (piece ++ front) = piece :: pieces front := by
  have hhead : ∀ c ∈ front.head?, c ∈ after.head? := by
    intro c hc
    obtain ⟨more, rfl⟩ := hfront
    obtain ⟨rest, rfl⟩ := List.head?_eq_some_iff.1 (Option.mem_def.1 hc)
    rfl
  have hchain : piece.IsChain fun a b => (plain a && plain b) = true := by
    cases h with
    | sign => exact .singleton _
    | run _ hplain =>
      apply List.Pairwise.isChain
      apply List.pairwise_of_forall_mem_list
      intro a ha b hb
      rw [hplain a ha, hplain b hb]
      rfl
  have hcut : ∀ a ∈ piece.getLast?, ∀ b ∈ front.head?, (plain a && plain b) = false := by
    intro a ha b hb
    cases h with
    | @sign c _ hc =>
      obtain rfl : c = a := Option.some.inj ha
      rw [hc]
      rfl
    | run _ _ hstop =>
      rw [hstop b (hhead b hb), Bool.and_false]
  unfold Nesting.pieces
  rw [List.splitBy_append hcut, List.splitBy_of_isChain h.ne_nil hchain, List.singleton_append]

section Verdicts

theorem verdict_sign {source : String} (hsource : source.toList.head? = some '^') (c : Char)
    (rest : Text) : verdict (sign source c) rest =
      if rest.head? = some c then .ok (some [some [c]]) else .ok none := by
  have hanchor : (sign source c).source.toList.head? = some '^' := hsource
  unfold verdict
  rw [if_pos hanchor, Segmentation.groupsAt?_eq, sign, Regex.groupTexts?_letter]
  by_cases hhead : rest.head? = some c
  · rw [if_pos hhead, if_pos hhead]
    rfl
  · rw [if_neg hhead, if_neg hhead]

end Verdicts

end ModularLexer.Nesting
