import ModularLexer.Answer
import ModularLexer.Pattern

/-!
Handlers as programs: requests to the lexer that runs them, each with what to do next.
-/
namespace ModularLexer

/-- What a program can ask of its lexer. -/
inductive Request where
  | view
  | hooks
  | consume (bytes : Nat)
  | consumeAs (bytes : Nat) (value : Text)
  | move (value : Text) (bytes : Nat)
  | init (input : Text)
  | matchPattern (pattern : Pattern)
  | scan (pattern : Pattern) (kind : String)
  | skipSpaces
  | token (kind : String) (value : Option Text)
  | tokenFrom (kind : String) (captures : Captures)
  | handle (kind : String)
  | call (kind : String)
  | advance
  | next
  | lex
  | tokenize (input : Text)
  | enqueue (token : Token)
  | dequeue
  | lookahead (n : Nat)
  | skip (n : Nat)
  | skipWhile (accepts : List Token → Token → Bool)
  | skipTo (kind : String)
  | push (token : Token)
  | pushStack (token : Token)
  | popStack
  | append (value : Text)
  | finish
  | report (error : LexError)
  | note (label : String) (answer : Answer)

abbrev Request.Reply : Request → Type
  | view => View
  | hooks => Hooks
  | consume _ => Text
  | consumeAs _ _ => Unit
  | move _ _ => Unit
  | init _ => Unit
  | matchPattern _ => Option Captures
  | scan _ _ => Option Token
  | skipSpaces => Option Text
  | token _ _ => Token
  | tokenFrom _ _ => Token
  | handle _ => Option Token
  | call _ => Option Token
  | advance => Option Token
  | next => Option Token
  | lex => List Token
  | tokenize _ => List Token
  | enqueue _ => Unit
  | dequeue => Option Token
  | lookahead _ => Option Token
  | skip _ => List Token
  | skipWhile _ => List Token
  | skipTo _ => List Token
  | push _ => Unit
  | pushStack _ => Unit
  | popStack => Option Token
  | append _ => Unit
  | finish => Unit
  | report _ => Unit
  | note _ _ => Unit

/-- A computation on a lexer whose handlers are of a type. It ends with a result or an error, asks
the lexer something, registers a handler, or runs a handler on a fork over another input and goes on
with its outcome and with what the fork has become. -/
inductive Program (H : Type) (α : Type) where
  | done (result : α)
  | fail (error : LexError)
  | ask (request : Request) (next : Except LexError request.Reply → Program H α)
  | set (kind : String) (handler : H) (next : Program H α)
  | fork (input : Text) (body : H) (next : Except LexError (Option Token) → View → Program H α)

inductive Handler where
  | mk (program : Program Handler (Option Token))

namespace Program

variable {H α β : Type}

def bind (p : Program H α) (f : α → Program H β) : Program H β :=
  match p with
  | done result => f result
  | fail error => fail error
  | ask request next => ask request fun reply => (next reply).bind f
  | set kind handler next => set kind handler (next.bind f)
  | fork input body next => fork input body fun outcome view => (next outcome view).bind f

instance : Monad (Program H) where
  pure := done
  bind := bind

instance : LawfulMonad (Program H) := LawfulMonad.mk' _
  (fun p => by
    show bind p done = p
    induction p with
    | done => rfl
    | fail => rfl
    | ask request next ih => simp [bind, ih]
    | set kind handler next ih => simp [bind, ih]
    | fork input body next ih => simp [bind, ih])
  (fun _ _ => rfl)
  (fun p f g => by
    show bind (bind p f) g = bind p fun a => bind (f a) g
    induction p with
    | done => rfl
    | fail => rfl
    | ask request next ih => simp [bind, ih]
    | set kind handler next ih => simp [bind, ih]
    | fork input body next ih => simp [bind, ih])

def attempt (p : Program H α) : Program H (Except LexError α) :=
  match p with
  | done result => done (.ok result)
  | fail error => done (.error error)
  | ask request next => ask request fun reply => (next reply).attempt
  | set kind handler next => set kind handler next.attempt
  | fork input body next => fork input body fun outcome view => (next outcome view).attempt

def ofExcept : Except LexError α → Program H α
  | .ok result => done result
  | .error error => fail error

/-- Asks for something, failing where the lexer does. -/
def request (r : Request) : Program H r.Reply := ask r ofExcept

def register (kind : String) (handler : H) : Program H Unit := set kind handler (done ())

end Program

namespace Handler

def program : Handler → Program Handler (Option Token)
  | mk program => program

/-- The handler that makes a token of what a pattern matches. -/
def ofPattern (kind : String) (pattern : Pattern) : Handler :=
  .mk (Program.request (.scan pattern kind))

/-- The handler that passes what a pattern matches through a transform, which may drop it. -/
def ofPatternWith (kind : String) (pattern : Pattern)
    (transform : Token → Program Handler (Option Token)) : Handler :=
  .mk do
    match ← Program.request (.scan pattern kind) with
    | some token => transform token
    | none => return none

end Handler

namespace Program

section Capture

variable (compile : String → Except LexError Pattern) (kind source : String)

/-- Registers a pattern. A source text that does not compile registers nothing. -/
def capture : Program Handler Unit := do
  let pattern ← ofExcept (compile source)
  register kind (.ofPattern kind pattern)

def captureWith (transform : Token → Program Handler (Option Token)) : Program Handler Unit := do
  let pattern ← ofExcept (compile source)
  register kind (.ofPatternWith kind pattern transform)

end Capture

end Program

end ModularLexer
