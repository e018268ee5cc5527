import LamLang.Failure
import LamLang.Source.Lexeme

/-
  Tokens: the lexemes that matter to the reader.

  Key definitions include:
    * `LamLang.Token.ofSource`
    * `LamLang.Token.balance`

  Blanks and comments are dropped.  A text without its
  closing mark is refused, but it does not disturb the count
  of parentheses, which decides whether a line goes on.
-/

------------------------------------------------------------
-- Tokens
------------------------------------------------------------

namespace LamLang

/- A token is the text it was cut from. -/
abbrev Token := String

namespace Token

/- The token that opens a list. -/
def lparen : Token := "("

/- The token that closes a list. -/
def rparen : Token := ")"

/- The token of a lexeme, if it has one. -/
def ofLexeme? : Lexeme → Except Failure (Option Token)
| .blank _ => .ok none
| .comment _ => .ok none
| .unclosed content =>
    .error (.cause (.unterminatedText
      (String.ofList (Lexeme.unclosed content).source)))
| lexeme => .ok (some (String.ofList lexeme.source))

/- The tokens of a list of lexemes. -/
def ofLexemes : List Lexeme → Except Failure (List Token)
| [] => .ok []
| lexeme :: rest => do
    let token? ← ofLexeme? lexeme
    let tokens ← ofLexemes rest
    return token?.toList ++ tokens

/- The tokens of a source. -/
def ofSource
    (source : String) :
    Except Failure (List Token) :=
  ofLexemes (Lexeme.scan source.toList)

end Token

end LamLang

------------------------------------------------------------
-- Balance
------------------------------------------------------------

namespace LamLang

namespace Token

/- What a lexeme adds to the count of open lists. -/
def weight : Lexeme → Int
| .lparen => 1
| .rparen => -1
| _ => 0

/- How many more lists a source opens than it closes. -/
def balance
    (source : String) :
    Int :=
  (Lexeme.scan source.toList).foldr
    (fun lexeme total => weight lexeme + total) 0

end Token

end LamLang
