import ModularLexer.Script.Command

/-!
Scripts as programs.
-/
namespace ModularLexer

open Program (request)

inductive Ending where
  | finished
  | stopped
  | failed (error : LexError)
  deriving DecidableEq, Repr

namespace Ending

/-- What a handler written as a script makes: the token in its register. -/
def outcome (f : Frame) : Ending → Program Handler (Option Token)
  | failed error => .fail error
  | _ => return f.register

end Ending

def Frame.fresh (register : Option Token) : Program Handler Frame := do
  return ⟨register, none, (← request .view).pass.position⟩

def ForkInput.resolve (f : Frame) : ForkInput → Text
  | absent => []
  | register => (f.register.bind (·.value)).getD []
  | text input => input

/-- Writes the number of a fork's tokens of a kind into the token in the register. -/
def Frame.count (f : Frame) (kind : Option String) (fork : View) : Frame :=
  match kind with
  | none => f
  | some kind =>
    let number := (fork.pass.tokens.filter (·.is kind)).size
    { f with register := f.register.map fun t => { t with value := some (toString number).toList } }

def noteUnder (label : Option String) (answer : Answer) : Program Handler Unit :=
  label.forM fun label => request (.note label answer)

mutual

/-- Runs an action. It changes the frame only if it does not fail. -/
def Action.run (f : Frame) : Action → Program Handler (Frame × Answer)
  | .command command => command.run f
  | .captureWith kind source transform => do
    Program.captureWith Pattern.ofSource kind source fun token => do
      let (f, ending) ← transform.run (← Frame.fresh (some token))
      ending.outcome f
    return (f, .nothing)
  | .set kind handler => do
    Program.register kind (.mk do
      let (f, ending) ← handler.run (← Frame.fresh none)
      ending.outcome f)
    return (f, .nothing)
  | .plugin script => do
    let (inner, ending) ← script.run (← Frame.fresh none)
    let _ ← ending.outcome inner
    return (f, .nothing)
  | .fork input script count =>
    .fork (input.resolve f)
      (.mk do
        let (f, ending) ← script.run (← Frame.fresh none)
        ending.outcome f)
      fun outcome fork => do
        let _ ← Program.ofExcept outcome
        return (f.count count fork, .dump fork)

/-- Runs a script in a frame, up to its end or to an error that no action tolerates. -/
def Script.run (f : Frame) : Script → Program Handler (Frame × Ending)
  | .done => return (f, .finished)
  | .stop => return (f, .stopped)
  | .act action tolerant label rest => do
    match ← (action.run f).attempt with
    | .ok (f, answer) =>
      noteUnder label answer
      rest.run f
    | .error e =>
      if tolerant then
        noteUnder label (.error e)
        rest.run f
      else return (f, .failed e)
  | .branch condition holds fails rest => do
    match ← (condition.holds f).attempt with
    | .error e => return (f, .failed e)
    | .ok chosen =>
      let (f, ending) ← if chosen then holds.run f else fails.run f
      match ending with
      | .finished => rest.run f
      | ending => return (f, ending)

end

end ModularLexer
