import ModularLexer.Lexer.Basic

/-!
Scripts: a small language to drive lexers with, in which handlers can be written down as data.
-/
namespace ModularLexer

/-- What a script keeps between its actions: a register for a token, the captures of its last match,
and a marked position. -/
structure Frame where
  register : Option Token
  captures : Option Captures
  mark : Position
  deriving DecidableEq, Repr

namespace Frame

def start : Frame := ⟨none, none, .start⟩

end Frame

inductive Condition where
  | filled
  | ofKind (kind : String)
  | ofValue (value : Text)
  | inside (kind : String)
  | starts (text : Text)
  | peek (kind : String)
  | atEnd
  | atStart
  | has (kind : String)
  | tokens (least : Nat)
  | not (condition : Condition)
  deriving DecidableEq, Repr

inductive Predicate where
  | always
  | never
  | ofKind (kind : String)
  | ofValue (value : Text)
  | first (most : Nat)
  | not (predicate : Predicate)
  deriving DecidableEq, Repr

def Predicate.accepts (taken : List Token) (t : Token) : Predicate → Bool
  | always => true
  | never => false
  | ofKind kind => t.is kind
  | ofValue value => t.value == some value
  | first most => taken.length < most
  | not predicate => !predicate.accepts taken t

/-- Changes to a token: a new kind, a new value or its removal, and what else is removed. -/
structure Edit where
  kind : Option String
  value : Option (Option Text)
  dropLocation : Bool
  dropCaptures : Bool
  deriving DecidableEq, Repr

def Edit.apply (e : Edit) (t : Token) : Token where
  kind := e.kind.getD t.kind
  value := e.value.getD t.value
  captures := if e.dropCaptures then none else t.captures
  location := if e.dropLocation then none else t.location

/-- The input of a fork: none, the value of the token in the register, or a text. -/
inductive ForkInput where
  | absent
  | register
  | text (input : Text)
  deriving DecidableEq, Repr

/-- An action without scripts of its own. Where an action takes a token, the one in the register is
meant if none is given. -/
inductive Command where
  | capture (kind source : String)
  | has (kind : String)
  | kinds
  | registry
  | hooks
  | call (kind : String)
  | matchSource (source : String)
  | scan (source kind : String)
  | token (kind : String) (value : Option Text)
  | tokenFrom (kind : String)
  | consume (bytes : Nat)
  | consumeAs (bytes : Nat) (value : Text)
  | move (value : Text) (bytes : Nat)
  | skipSpaces
  | handle (kind : String)
  | advance
  | next
  | lex
  | tokenize (input : Text)
  | init (input : Text)
  | enqueue (token : Option Token)
  | dequeue
  | peek
  | lookahead (n : Nat)
  | skip (n : Nat)
  | skipWhile (predicate : Predicate)
  | skipKinds (kinds : List String)
  | skipTo (kind : String)
  | push (token : Option Token)
  | lookbehind (n : Nat)
  | last
  | previous
  | isInside (kind : String)
  | pushStack (token : Option Token)
  | popStack
  | stack
  | append (value : Text)
  | atEnd
  | atStart
  | finish
  | report (error : LexError)
  | raise (error : LexError)
  | register
  | captures
  | describe
  | make (token : Token)
  | drop
  | edit (changes : Edit)
  | mark
  | locate
  | dump
  deriving DecidableEq, Repr

mutual

/-- An action: a command, the registration of a script as a transform or a handler, a script run at
once to register things, or one run on a fork. -/
inductive Action where
  | command (command : Command)
  | captureWith (kind source : String) (transform : Script)
  | set (kind : String) (handler : Script)
  | plugin (script : Script)
  | fork (input : ForkInput) (script : Script) (count : Option String)

/-- A script: actions in order, some of them under a condition. An action whose error is tolerated
has the error for its answer, and a labelled one has its answer noted. -/
inductive Script where
  | done
  | stop
  | act (action : Action) (tolerant : Bool) (label : Option String) (rest : Script)
  | branch (condition : Condition) (holds fails rest : Script)

end

end ModularLexer
