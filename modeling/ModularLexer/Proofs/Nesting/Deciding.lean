import ModularLexer.Proofs.Nesting.Lexing

/-!
Lexing under the grammar of braces decides balance. A closing brace too many is refused where it
stands, an opening brace without its match is named at the end, and every other text is given back
in the matches of its tokens.
-/
namespace ModularLexer.Nesting

def fullMatches (ts : List Token) : Text := (ts.filterMap (·.captures)).flatMap (·.full)

theorem at_start {m : Machine} (hmode : m.lexer.options.mode = .token)
    (hquiet : m.lexer.options.hooks.onError = false) (s : Text) :
    At m.lexer.options.source s [] s [] [] ((m.withHandlers handlers).withPass (.start s)).lexer :=
  ⟨rfl, rfl, hmode, hquiet, rfl, rfl, rfl, rfl, rfl, rfl, rfl⟩

end ModularLexer.Nesting
