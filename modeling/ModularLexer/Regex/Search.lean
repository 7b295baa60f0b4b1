import ModularLexer.Regex.Code
import ModularLexer.Text

/-!
Running code over a text with all its threads in step, one character at a time, so that the time
grows with the text and not with the number of ways to match it.
-/
namespace ModularLexer.Regex

/-- A place between two characters of a text, each absent at an edge. -/
structure Place where
  before : Option Char
  after : Option Char
  index : Nat
  deriving DecidableEq, Repr

/-- A way to match: the next instruction, and the slots marked so far, the latest first. -/
structure Thread where
  pc : Nat
  marks : List (Nat × Nat)
  deriving DecidableEq, Repr

/-- Threads waiting at a place, the least preferred first, and the instructions reached there, as
the bits of a number. -/
structure Front where
  threads : List Thread
  seen : Nat
  deriving Repr

def Front.none : Front := ⟨[], 0⟩

/-- Follows the instructions that read nothing, in order of preference; one reached before is not
followed again. The first argument bounds the number of steps. -/
def explore (code : Array Instr) (here : Place) : Nat → List Thread → Front → Front
  | 0, _, front => front
  | _, [], front => front
  | bound + 1, thread :: work, front =>
    if front.seen.testBit thread.pc then explore code here bound work front
    else
      let front := { front with seen := front.seen ||| (1 <<< thread.pc) }
      match code[thread.pc]? with
      | some (.fork preferred other) =>
        explore code here bound
          ({ thread with pc := preferred } :: { thread with pc := other } :: work) front
      | some (.mark slot next) =>
        explore code here bound (⟨next, (slot, here.index) :: thread.marks⟩ :: work) front
      | some (.check test next) =>
        if test.holds here.before here.after then
          explore code here bound ({ thread with pc := next } :: work) front
        else explore code here bound work front
      | some _ =>
        explore code here bound work { front with threads := thread :: front.threads }
      | .none => explore code here bound work front

/-- Steps enough to follow every instruction once from one thread. -/
def exploreBound (code : Array Instr) : Nat := 2 * code.size + 2

/-- A match: where it stops and the slots marked on the way, the latest first. -/
abbrev Match := Nat × List (Nat × Nat)

/-- Lets the threads of a place read a character, the preferred ones first, and collects where they
arrive. A thread that accepts makes a match and ends all less preferred ones. -/
def stepAll (code : Array Instr) (c : Option Char) (here next : Place) :
    List Thread → Front → Option Match → Front × Option Match
  | [], front, found => (front, found)
  | thread :: threads, front, found =>
    match code[thread.pc]? with
    | some .accept => (front, some (here.index, thread.marks))
    | some (.read chars target) =>
      let front :=
        if c.any chars.contains then
          explore code next (exploreBound code) [{ thread with pc := target }] front
        else front
      stepAll code c here next threads front found
    | _ => stepAll code c here next threads front found

/-- Runs threads from a place on over the text after it. A later match comes from a thread that is
preferred to the earlier one's. -/
def run (code : Array Instr) (here : Place) (front : Front) (found : Option Match) :
    Text → Option Match
  | [] => (stepAll code .none here here front.threads.reverse .none found).2
  | c :: rest =>
    if front.threads.isEmpty then found
    else
      let next : Place := ⟨some c, rest.head?, here.index + 1⟩
      let (front, found) := stepAll code (some c) here next front.threads.reverse .none found
      run code next front found rest

end ModularLexer.Regex
