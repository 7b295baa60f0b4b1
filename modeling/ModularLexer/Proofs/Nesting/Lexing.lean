import ModularLexer.Proofs.Nesting.Grammar
import ModularLexer.Proofs.Registration

/-!
Lexing under the grammar of braces. At every step the stack holds the opening braces that are not
closed, the innermost first; so the end of lexing tells whether the braces of the input are
balanced, and where they are not.
-/
namespace ModularLexer.Nesting

open Segmentation (verdict tokenAt fullText)

def openToken (source : Option String) (input front : Text) : Token :=
  tokenAt source input front "brace.open" [some ['{']]

/-- A lexer of the grammar on its way: behind a text of the input and before the rest, with these
tokens on its list, and on its stack the opening braces behind some fronts of the text. -/
structure At (source : Option String) (input before rest : Text) (fronts : List Text)
    (listed : List Token) (l : Lexer) : Prop where
  stack : l.pass.stack = fronts.map (openToken source input)
  registry : l.registry = .ofList handlers
  mode : l.options.mode = .token
  quiet : l.options.hooks.onError = false
  source : l.options.source = source
  input : l.pass.input = input
  rest : l.pass.rest = rest
  offset : l.pass.offset = before.byteLength
  position : l.pass.position = before.stop
  queue : l.pass.queue = []
  tokens : l.pass.tokens.toList = listed

section Steps

variable {source : Option String} {input before piece after : Text} {fronts : List Text}
  {listed : List Token} {m : Machine} (depth : Nat)

theorem At.past {l : Lexer} {taken rest : Text} (after : Text)
    (h : At source input before rest fronts listed l) :
    At source input (before ++ taken) after fronts listed
      { l with pass := l.pass.past taken after } :=
  { h with
    rest := rfl
    offset := by
      rw [Text.byteLength_append, ← h.offset]
      rfl
    position := by
      rw [Text.stop_append, ← h.position]
      rfl }

theorem At.push {rest : Text} (t : Token)
    (h : At source input before rest fronts listed m.lexer) :
    At source input before rest fronts (listed ++ [t])
      ((m.told (·.onPush) (.push t)).withPass (m.lexer.pass.push t)).lexer := by
  have hoptions : (m.told (·.onPush) (.push t)).lexer = m.lexer := m.lexer_told _ _
  exact
    { h with
      registry := (congrArg Lexer.registry hoptions).trans h.registry
      mode := (congrArg (·.options.mode) hoptions).trans h.mode
      quiet := (congrArg (·.options.hooks.onError) hoptions).trans h.quiet
      source := (congrArg (·.options.source) hoptions).trans h.source
      tokens := by
        show (m.lexer.pass.tokens.push t).toList = listed ++ [t]
        rw [Array.toList_push, h.tokens] }

/-- A piece that a pattern matches is scanned as its token. -/
theorem At.scan (hm : At source input before (piece ++ after) fronts listed m.lexer)
    {p : Pattern} (kind : String) (h : verdict p (piece ++ after) = .ok (some [some piece])) :
    ∃ n, LexM.scan p kind m = some (.ok (some (tokenAt source input before kind [some piece])), n) ∧
      At source input (before ++ piece) after fronts listed n.lexer := by
  rw [← hm.rest] at h
  obtain ⟨n, hscan, hn⟩ := LexM.scan_of_match kind h hm.rest
  have hpast : At source input (before ++ piece) after fronts listed _ := hm.past after
  refine ⟨n, ?_, hn ▸ hpast⟩
  have hstop : (m.lexer.pass.past (fullText [some piece]) after).position =
      (before ++ fullText [some piece]).stop := hpast.position
  rw [hscan, hm.input, hm.offset, hm.position, hm.source, hstop]
  rfl

section Declining

variable {rest : Text} (hm : At source input before rest fronts listed m.lexer)
include hm

theorem At.silent {sought : String} (hsought : sought.toList.head? = some '^') {c : Char}
    (hc : rest.head? ≠ some c) : verdict (sign sought c) m.lexer.pass.rest = .ok none := by
  rw [hm.rest, verdict_sign hsought, if_neg hc]

end Declining

section First

variable {front tail : List (String × Handler)} {kind : String} {r : Except LexError Token}
  {n : Machine} (hm : At source input before (piece ++ after) fronts listed m.lexer)
  (hpiece : piece ≠ [])
  (hdecline : ∀ entry ∈ front, Handler.call (depth + 1) entry.2 m = some (.ok none, m))
include hm hpiece hdecline

end First

section Close

variable (hm : At source input before (['}'] ++ after) fronts listed m.lexer)
include hm

end Close

end Steps

section Run

variable {source : Option String} {input : Text}

/-- What comes of moving the tokens of a rest behind a text to the list: all of it is listed, and
what is left open is on the stack; or a brace that closes nothing is refused, and what comes before
it is listed. -/
inductive Ends (source : Option String) (input before : Text) (listed : List Token) :
    Text → Except LexError Unit → Lexer → Prop
  | through {rest : Text} {fronts : List Text} {l : Lexer} :
      Nested (before ++ rest) fronts →
      At source input (before ++ rest) [] fronts
        (listed ++ tokensFrom source input before (pieces rest)) l →
      Ends source input before listed rest (.ok ()) l
  | stray {front back : Text} {l : Lexer} :
      Nested (before ++ front) [] →
      l.pass.tokens.toList = listed ++ tokensFrom source input before (pieces front) →
      Ends source input before listed (front ++ '}' :: back)
        (.error (unexpected (before ++ front ++ ['}']).stop)) l

theorem Ends.cons {before piece after : Text} {listed : List Token} {r : Except LexError Unit}
    {l : Lexer} (hlead : Leads piece after)
    (h : Ends source input (before ++ piece)
      (listed ++ [tokenAt source input before (kindOf piece) [some piece]]) after r l) :
    Ends source input before listed (piece ++ after) r l := by
  have htokens (front : Text) (hfront : front <+: after) :
      listed ++ [tokenAt source input before (kindOf piece) [some piece]] ++
          tokensFrom source input (before ++ piece) (pieces front) =
        listed ++ tokensFrom source input before (pieces (piece ++ front)) := by
    rw [hlead.pieces hfront, List.append_assoc]
    rfl
  cases h with
  | through hnested hl =>
    rw [htokens after (List.prefix_refl after)] at hl
    rw [List.append_assoc] at hnested hl
    exact .through hnested hl
  | @stray front back _ hnested hl =>
    rw [htokens front (List.prefix_append front _)] at hl
    rw [List.append_assoc] at hnested
    rw [List.append_assoc before piece front, ← List.append_assoc piece front]
    exact .stray hnested hl

theorem At.ends {before : Text} {fronts : List Text} {listed : List Token} {l : Lexer}
    (h : At source input before [] fronts listed l) (hnested : Nested before fronts) :
    Ends source input before listed [] (.ok ()) l := by
  have hnothing : tokensFrom source input before (pieces []) = [] := rfl
  apply Ends.through
  · rw [List.append_nil]
    exact hnested
  · rw [List.append_nil, hnothing, List.append_nil]
    exact h

end Run

end ModularLexer.Nesting
