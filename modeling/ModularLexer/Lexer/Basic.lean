import ModularLexer.Program
import ModularLexer.Registry

/-!
Lexers: a pass over an input with the handlers that recognise its tokens.
-/
namespace ModularLexer

/-- A lexer: the pass it is on, the handlers it tries, and how it is set up. -/
structure Lexer where
  pass : Pass
  registry : Registry Handler
  options : Options

namespace Lexer

def start (input : Text) (options : Options) : Lexer := ⟨.start input, .empty, options⟩

/-- A lexer of the same handlers, mode and source at the start of another input, unobserved. -/
def fork (l : Lexer) (input : Text) : Lexer := ⟨.start input, l.registry, l.options.fork⟩

def view (l : Lexer) : View := ⟨l.pass, l.registry.kinds, l.options.mode, l.options.source⟩

def locationFrom (l : Lexer) (start : Position) : Location :=
  ⟨start, l.pass.position, l.options.source⟩

end Lexer

end ModularLexer
