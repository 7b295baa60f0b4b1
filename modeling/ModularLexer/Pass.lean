import ModularLexer.LexError
import ModularLexer.Token

/-!
One pass over an input: how far it came, the tokens it made, and what handlers keep meanwhile.
-/
namespace ModularLexer

/-- The state of a pass. The rest is the input from the byte offset on, and what lies behind is the
text counted as consumed, its last character first. The stack too has its latest entry first. -/
structure Pass where
  input : Text
  offset : Nat
  rest : Text
  behind : Text
  tokens : Array Token
  queue : List Token
  stack : List Token
  stash : List Text
  output : List Text
  indent : List Text
  position : Position
  deriving DecidableEq, Repr

namespace Pass

def start (input : Text) : Pass where
  input := input
  offset := 0
  rest := input
  behind := []
  tokens := #[]
  queue := []
  stack := []
  stash := [[]]
  output := [[]]
  indent := [[]]
  position := .start

def consumed (p : Pass) : Text := p.behind.reverse

def move (p : Pass) (value : Text) (bytes : Nat) : Pass :=
  { p with position := p.position.advance value bytes }

/-- Takes bytes from the rest. Past its end, or inside a character, nothing is taken. -/
def take (p : Pass) (bytes : Nat) : Except LexError (Text × Pass) :=
  match Text.splitBytes? bytes p.rest with
  | some (taken, rest) => .ok (taken, { p with offset := p.offset + bytes, rest := rest })
  | none => .error (.outOfBounds bytes (Text.excerpt p.rest))

/-- Takes bytes and counts a text as consumed for them. -/
def consumeAs (p : Pass) (bytes : Nat) (value : Text) : Except LexError Pass := do
  let (_, p) ← p.take bytes
  return { p.move value bytes with behind := value.reverseAux p.behind }

def consume (p : Pass) (bytes : Nat) : Except LexError (Text × Pass) := do
  let (taken, p) ← p.take bytes
  return (taken, { p.move taken bytes with behind := taken.reverseAux p.behind })

/-- Bytes can be taken exactly where the rest can be cut after them. -/
theorem take_eq_ok_iff {p q : Pass} {bytes : Nat} {taken : Text} :
    p.take bytes = .ok (taken, q) ↔
      ∃ rest, p.rest = taken ++ rest ∧ Text.byteLength taken = bytes ∧
        q = { p with offset := p.offset + bytes, rest := rest } := by
  unfold take
  split
  · next t r h =>
    obtain ⟨hr, hb⟩ := Text.splitBytes?_eq_some_iff.1 h
    simp only [Except.ok.injEq, Prod.mk.injEq]
    constructor
    · rintro ⟨rfl, rfl⟩
      exact ⟨r, hr, hb, rfl⟩
    · rintro ⟨rest, hr', hb', rfl⟩
      have hs := Text.splitBytes?_eq_some_iff.2 ⟨hr', hb'⟩
      rw [h] at hs
      obtain ⟨rfl, rfl⟩ := Prod.mk.inj (Option.some.inj hs)
      exact ⟨rfl, rfl⟩
  · next h =>
    constructor
    · intro h
      cases h
    · rintro ⟨rest, hr, hb, -⟩
      rw [Text.splitBytes?_eq_some_iff.2 ⟨hr, hb⟩] at h
      cases h

def unmatched (p : Pass) : LexError := .unmatchedInput (Text.excerpt p.rest) p.position

def push (p : Pass) (t : Token) : Pass := { p with tokens := p.tokens.push t }

def enqueue (p : Pass) (t : Token) : Pass := { p with queue := p.queue ++ [t] }

def dequeue (p : Pass) : Option Token × Pass :=
  match p.queue with
  | t :: queue => (some t, { p with queue := queue })
  | [] => (none, p)

def pushStack (p : Pass) (t : Token) : Pass := { p with stack := t :: p.stack }

def popStack (p : Pass) : Option Token × Pass :=
  match p.stack with
  | t :: stack => (some t, { p with stack := stack })
  | [] => (none, p)

/-- Whether the innermost open construct is of a kind. -/
def isInside (p : Pass) (kind : String) : Bool := p.stack.head?.any (·.is kind)

/-- The token so many places from the end of the list, the last one being the first. -/
def lookbehind (p : Pass) (n : Nat) : Except LexError (Option Token) :=
  if n = 0 then .error .lookbehind
  else .ok (if n ≤ p.tokens.size then p.tokens[p.tokens.size - n]? else none)

def last? (p : Pass) : Option Token := p.tokens.back?

def previous? (p : Pass) : Option Token := (p.lookbehind 2).toOption.join

/-- Stashes a text; an empty last entry gives way, and an empty text is left out. -/
def append (p : Pass) (value : Text) : Pass :=
  if value.isEmpty then p
  else
    match p.stash.getLast? with
    | some [] => { p with stash := p.stash.dropLast ++ [value] }
    | _ => { p with stash := p.stash ++ [value] }

/-- Whether neither input nor waiting tokens are left. -/
def atEnd (p : Pass) : Bool := p.rest.isEmpty && p.queue.isEmpty

def atStart (p : Pass) : Bool := p.offset == 0

/-- What keeps a pass from stopping here: an open construct, or else input that is left. -/
def incomplete? (p : Pass) : Option LexError :=
  match p.stack with
  | innermost :: _ =>
    some (.unclosed innermost.describe ((innermost.location.map (·.start)).getD p.position))
  | [] => if p.rest.isEmpty then none else some p.unmatched

end Pass

end ModularLexer
