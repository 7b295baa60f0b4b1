import ModularLexer.Script.Basic

/-!
What commands and conditions ask of a lexer.
-/
namespace ModularLexer

open Program (request ofExcept)

def Condition.holds (f : Frame) : Condition → Program Handler Bool
  | filled => return f.register.isSome
  | ofKind kind => return f.register.any (·.is kind)
  | ofValue value => return f.register.any fun t => t.value == some value
  | inside kind => do return (← request .view).pass.isInside kind
  | starts text => do return text.isPrefixOf (← request .view).pass.rest
  | peek kind => do return (← request (.lookahead 1)).any (·.is kind)
  | atEnd => do return (← request .view).pass.atEnd
  | atStart => do return (← request .view).pass.atStart
  | has kind => do return (← request .view).kinds.contains kind
  | tokens least => do return least ≤ (← request .view).pass.tokens.size
  | not condition => do return !(← condition.holds f)

namespace Frame

/-- Puts a token, or none, into the register; it is the answer. -/
def keep (f : Frame) (t : Option Token) : Frame × Answer :=
  ({ f with register := t }, .ofToken? t)

/-- The location from the mark to a position, which the token in the register takes on. -/
def locate (f : Frame) (v : View) : Frame × Answer :=
  let location : Location := ⟨f.mark, v.pass.position, v.source⟩
  ({ f with register := f.register.map fun t => { t with location := some location } },
    .location location)

end Frame

/-- Runs a command. It changes the frame only if it does not fail. -/
def Command.run (f : Frame) : Command → Program Handler (Frame × Answer)
  | capture kind source => do
    Program.capture Pattern.ofSource kind source
    return (f, .nothing)
  | has kind => do return (f, .flag ((← request .view).kinds.contains kind))
  | kinds => do return (f, .names (← request .view).kinds)
  | registry => do return (f, .registry (← request .view).kinds)
  | hooks => do return (f, .text (← request .hooks).text.toList)
  | Command.call kind => do return f.keep (← request (.call kind))
  | matchSource source => do
    let pattern ← ofExcept (Pattern.ofSource source)
    let found ← request (.matchPattern pattern)
    return ({ f with captures := found }, .ofCaptures? found)
  | scan source kind => do
    let pattern ← ofExcept (Pattern.ofSource source)
    return f.keep (← request (.scan pattern kind))
  | token kind value => do return f.keep (some (← request (.token kind value)))
  | tokenFrom kind =>
    match f.captures with
    | some found => do return f.keep (some (← request (.tokenFrom kind found)))
    | none => return f.keep none
  | consume bytes => do return (f, .text (← request (.consume bytes)))
  | consumeAs bytes value => do
    request (.consumeAs bytes value)
    return (f, .nothing)
  | move value bytes => do
    request (.move value bytes)
    return (f, .nothing)
  | skipSpaces => do return (f, .ofText? (← request .skipSpaces))
  | handle kind => do return f.keep (← request (.handle kind))
  | advance => do return f.keep (← request .advance)
  | next => do return f.keep (← request .next)
  | lex => do return (f, .tokens (← request .lex))
  | tokenize input => do return (f, .tokens (← request (.tokenize input)))
  | init input => do
    request (.init input)
    return (f, .nothing)
  | enqueue given => do
    (given <|> f.register).forM fun t => request (.enqueue t)
    return (f, .nothing)
  | dequeue => do return f.keep (← request .dequeue)
  | peek => do return (f, .ofToken? (← request (.lookahead 1)))
  | lookahead n => do return (f, .ofToken? (← request (.lookahead n)))
  | skip n => do return (f, .tokens (← request (.skip n)))
  | skipWhile predicate => do
    return (f, .tokens (← request (.skipWhile fun taken t => predicate.accepts taken t)))
  | skipKinds among => do
    return (f, .tokens (← request (.skipWhile fun _ t => among.contains t.kind)))
  | skipTo kind => do return (f, .tokens (← request (.skipTo kind)))
  | push given => do
    (given <|> f.register).forM fun t => request (.push t)
    return (f, .nothing)
  | lookbehind n => do
    return (f, .ofToken? (← ofExcept ((← request .view).pass.lookbehind n)))
  | last => do return (f, .ofToken? (← request .view).pass.last?)
  | previous => do return (f, .ofToken? (← request .view).pass.previous?)
  | isInside kind => do return (f, .flag ((← request .view).pass.isInside kind))
  | pushStack given => do
    (given <|> f.register).forM fun t => request (.pushStack t)
    return (f, .nothing)
  | popStack => do return f.keep (← request .popStack)
  | stack => do return (f, .tokens (← request .view).pass.stack.reverse)
  | append value => do
    request (.append value)
    return (f, .nothing)
  | atEnd => do return (f, .flag (← request .view).pass.atEnd)
  | atStart => do return (f, .flag (← request .view).pass.atStart)
  | finish => do
    request .finish
    return (f, .nothing)
  | report error => do
    request (.report error)
    return (f, .nothing)
  | raise error => .fail error
  | register => return (f, .ofToken? f.register)
  | captures => return (f, .ofCaptures? (f.register.bind (·.captures)))
  | describe => return (f, .ofText? (f.register.map (·.describe)))
  | make given => return f.keep (some given)
  | drop => return f.keep none
  | edit changes => return ({ f with register := f.register.map changes.apply }, .nothing)
  | mark => do return ({ f with mark := (← request .view).pass.position }, .nothing)
  | locate => do return f.locate (← request .view)
  | dump => do return (f, .dump (← request .view))

end ModularLexer
