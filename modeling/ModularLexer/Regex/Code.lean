import ModularLexer.Regex.Syntax

/-!
Expressions as code: numbered instructions that read characters, test their surroundings, mark
where groups begin and stop, and fork in order of preference.
-/
namespace ModularLexer.Regex

/-- One instruction. All but `accept` name where to go on. -/
inductive Instr where
  | accept
  | read (chars : CharSet) (next : Nat)
  | check (test : Assertion) (next : Nat)
  | mark (slot : Nat) (next : Nat)
  | fork (preferred other : Nat)
  deriving DecidableEq, Repr

/-- Adds the code of something to other code, given where to go on after it; the result is where to
enter. -/
abbrev Emit := Nat → Array Instr → Nat × Array Instr

namespace Emit

def nothing : Emit := fun next code => (next, code)

def instr (i : Nat → Instr) : Emit := fun next code => (code.size, code.push (i next))

def append (first second : Emit) : Emit := fun next code =>
  let (entry, code) := second next code
  first entry code

def text : Text → Emit
  | [] => nothing
  | c :: cs => append (instr (.read (.single c))) (text cs)

/-- A fork between two ways on, the first preferred if the repetition is greedy. -/
def choice (greedy : Bool) (on past : Nat) : Instr :=
  if greedy then .fork on past else .fork past on

def either (first second : Emit) : Emit := fun next code =>
  let (left, code) := first next code
  let (right, code) := second next code
  (code.size, code.push (.fork left right))

def times (body : Emit) : Nat → Emit
  | 0 => nothing
  | n + 1 => fun next code =>
    let (entry, code) := body next code
    times body n entry code

/-- The same code at most so many times, each time with the choice to go to `past` instead. -/
def upTo (greedy : Bool) (body : Emit) (past : Nat) : Nat → Emit
  | 0 => nothing
  | n + 1 => fun next code =>
    let (entry, code) := body next code
    upTo greedy body past n code.size (code.push (choice greedy entry past))

def atMost (greedy : Bool) (body : Emit) (n : Nat) : Emit := fun next code =>
  upTo greedy body next n next code

def plus (greedy : Bool) (body : Emit) : Emit := fun next code =>
  let fork := code.size
  let (entry, code) := body fork (code.push (choice greedy fork next))
  (entry, code.setIfInBounds fork (choice greedy entry next))

/-- Code that goes round any number of times, for a body that reads at least one character. -/
def star (greedy : Bool) (body : Emit) : Emit := fun next code =>
  let fork := code.size
  let (_, code) := plus greedy body next code
  (fork, code)

/-- Code that goes round any number of times, for a body that may read nothing: once or more, or
not at all. A round that read nothing does not change which way is preferred. -/
def optionalPlus (greedy : Bool) (body : Emit) : Emit := fun next code =>
  let (entry, code) := plus greedy body next code
  (code.size, code.push (choice greedy entry next))

end Emit

def Node.emit : Node → Emit
  | empty => .nothing
  | text chars => .text chars
  | char set => .instr (.read set)
  | byte set => .instr (.read set)
  | check test => .instr (.check test)
  | group index body =>
    .append (.instr (.mark (2 * index))) (.append body.emit (.instr (.mark (2 * index + 1))))
  | append first rest => .append first.emit rest.emit
  | either first rest => .either first.emit rest.emit
  | iterate body least (some most) greedy =>
    .append (.times body.emit least) (.atMost greedy body.emit (most - least))
  | iterate body 0 none greedy =>
    if body.nullable then .optionalPlus greedy body.emit else .star greedy body.emit
  | iterate body (least + 1) none greedy =>
    .append (.times body.emit least) (.plus greedy body.emit)

end ModularLexer.Regex
