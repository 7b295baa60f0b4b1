import ModularLexer.Lexer.Lookahead

/-!
Running programs: what each request does, and how handlers run handlers.
-/
namespace ModularLexer

/-- Serves a request, given how to call handlers and a bound for each loop over tokens. -/
def Request.serve (call : Handler → LexM (Option Token)) (bound : Nat) :
    (r : Request) → LexM r.Reply
  | view => do return (← LexM.lexer).view
  | hooks => do return (← LexM.lexer).options.hooks
  | consume bytes => LexM.consume bytes
  | consumeAs bytes value => LexM.consumeAs bytes value
  | move value bytes => LexM.modifyPass (·.move value bytes)
  | init input => LexM.init input
  | matchPattern pattern => LexM.matchPattern pattern
  | scan pattern kind => LexM.scan pattern kind
  | skipSpaces => LexM.skipSpaces
  | token kind value => LexM.token kind value
  | tokenFrom kind captures => LexM.tokenFrom kind captures
  | handle kind => LexM.handle call kind
  | Request.call kind => LexM.callKind call kind
  | advance => LexM.advance call
  | next => LexM.next call
  | lex => LexM.lex call bound
  | tokenize input => LexM.tokenize call bound input
  | enqueue t => LexM.modifyPass (·.enqueue t)
  | dequeue => LexM.dequeue
  | lookahead n => LexM.lookahead call n
  | skip n => LexM.skip call n
  | skipWhile accepts => LexM.skipWhile call bound accepts
  | skipTo kind => LexM.skipTo call bound kind
  | push t => LexM.push t
  | pushStack t => LexM.modifyPass (·.pushStack t)
  | popStack => do
    let (t, p) := (← LexM.pass).popStack
    LexM.setPass p
    return t
  | append value => LexM.modifyPass (·.append value)
  | finish => LexM.finish
  | report error => LexM.report error
  | note label answer => LexM.record (.note label answer)

/-- Runs a program, given how to call handlers and a bound for each loop over tokens. -/
def Program.run {α : Type} (call : Handler → LexM (Option Token)) (bound : Nat) :
    Program Handler α → LexM α
  | done result => LexM.pure result
  | fail error => LexM.throw error
  | ask request next => do
    let reply ← LexM.attempt (request.serve call bound)
    (next reply).run call bound
  | set kind handler next => do
    LexM.register kind handler
    next.run call bound
  | fork input body next => do
    let (outcome, forked) ← LexM.onFork input (call body)
    (next outcome forked).run call bound

/-- Calls a handler that may call handlers in turn; the first argument bounds how deep, and the
loops over tokens on the way. -/
def Handler.call : Nat → Handler → LexM (Option Token)
  | 0, _ => LexM.timeout
  | depth + 1, h => h.program.run (Handler.call depth) depth

def Program.exec {α : Type} (bound : Nat) (p : Program Handler α) : LexM α :=
  p.run (Handler.call bound) bound

end ModularLexer
