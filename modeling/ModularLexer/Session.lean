import ModularLexer.Lexer.Running
import ModularLexer.Script.Run

/-!
Sessions: named lexers, each with a frame, driven step by step.
-/
namespace ModularLexer

inductive Step where
  | act (on : String) (action : Action)
  | run (on : String) (script : Script)
  | split (on : String) (name : String) (input : Option Text)

/-- What a step shows: its answer, the events since the step before, and the pass of its lexer. -/
structure StepReport where
  answer : Answer
  events : List Event
  pass : Pass
  deriving DecidableEq, Repr

/-- The lexers of a session with their frames, by name. -/
structure Session where
  lexers : Registry (Lexer × Frame)

namespace Session

def mainName : String := "main"

def start (input : Text) (options : Options) : Session :=
  ⟨Registry.empty.set mainName (.start input options, .start)⟩

/-- A bound on the depth of calls, and on loops over tokens, that no session comes near. -/
def bound : Nat := 1000000000000

/-- Runs a program for a step and takes its frame and answer from the result, or from an error. -/
def perform {α : Type} (s : Session) (on : String) (l : Lexer) (p : Program Handler α)
    (conclude : Except LexError α → Frame × Answer) : Option (Session × StepReport) := do
  let (outcome, m) ← p.exec bound ⟨l, #[]⟩
  let (f, answer) := conclude outcome
  return (⟨s.lexers.set on (m.lexer, f)⟩, ⟨answer, m.journal.toList, m.lexer.pass⟩)

/-- Takes a step. There is no outcome for a lexer that is not there. -/
def step (s : Session) : Step → Option (Session × StepReport)
  | .act on action => do
    let (l, f) ← s.lexers.find? on
    s.perform on l (action.run f) fun
      | .ok result => result
      | .error e => (f, .error e)
  | .run on script => do
    let (l, f) ← s.lexers.find? on
    s.perform on l (script.run f) fun
      | .ok (f, .failed e) => (f, .error e)
      | .ok (f, _) => (f, .ofToken? f.register)
      | .error e => (f, .error e)
  | .split on name input => do
    let (l, _) ← s.lexers.find? on
    let forked := l.fork (input.getD [])
    return (⟨s.lexers.set name (forked, .start)⟩, ⟨.nothing, [], l.pass⟩)

def run (s : Session) : List Step → Option (List StepReport)
  | [] => some []
  | first :: steps => do
    let (s, report) ← s.step first
    let reports ← s.run steps
    return report :: reports

end Session

end ModularLexer
