import LamLang.Text.Blank

/-
  Lexemes: the pieces that source text is cut into.

  Key definitions include:
    * `LamLang.Lexeme`
    * `LamLang.Lexeme.scan`
    * `LamLang.Lexeme.source`

  The scanner takes one character at a time.  It gives out a
  lexeme when it is complete and keeps the unfinished one as
  its state, so that texts can be scanned piece by piece.
-/

------------------------------------------------------------
-- Lexemes
------------------------------------------------------------

namespace LamLang

/-
  A piece of source text.  Texts in marks may span lines and
  know no escapes; a comment starts with two semicolons and
  ends before the line break.
-/
inductive Lexeme where
| blank (c : Char)
| lparen
| rparen
| text (content : List Char)
| unclosed (content : List Char)
| comment (content : List Char)
| atom (content : List Char)
deriving DecidableEq, Repr

namespace Lexeme

/- The mark around a text. -/
def mark : Char := '\x22'

/- The characters that a lexeme was cut from. -/
def source : Lexeme → List Char
| .blank c => [c]
| .lparen => ['(']
| .rparen => [')']
| .text content => mark :: content ++ [mark]
| .unclosed content => mark :: content
| .comment content => ';' :: ';' :: content
| .atom content => content

end Lexeme

end LamLang

------------------------------------------------------------
-- Scanner
------------------------------------------------------------

namespace LamLang

namespace Lexeme

/- An unfinished lexeme, its latest character first. -/
inductive Partial where
| ground
| text (seen : List Char)
| comment (seen : List Char)
| atom (seen : List Char)
deriving DecidableEq, Repr

/- What a character starts when no lexeme is unfinished. -/
def start
    (c : Char) :
    List Lexeme × Partial :=
  if c = mark then
    ([], .text [])
  else if c = '(' then
    ([.lparen], .ground)
  else if c = ')' then
    ([.rparen], .ground)
  else if Text.isBlank c then
    ([.blank c], .ground)
  else
    ([], .atom [c])

/- Whether a character cannot stand within an atom. -/
def endsAtom
    (c : Char) :
    Bool :=
  c == mark || c == '(' || c == ')' || Text.isBlank c

/- The lexemes that a character completes. -/
def step :
    Partial → Char → List Lexeme × Partial
| .ground, c => start c
| .text seen, c =>
    if c = mark then
      ([.text seen.reverse], .ground)
    else
      ([], .text (c :: seen))
| .comment seen, c =>
    if c = '\n' then
      ([.comment seen.reverse, .blank c], .ground)
    else
      ([], .comment (c :: seen))
| .atom seen, c =>
    if endsAtom c then
      (.atom seen.reverse :: (start c).1, (start c).2)
    else if c = ';' ∧ seen = [';'] then
      ([], .comment [])
    else
      ([], .atom (c :: seen))

/- The lexeme that the end of the source completes. -/
def finish : Partial → List Lexeme
| .ground => []
| .text seen => [.unclosed seen.reverse]
| .comment seen => [.comment seen.reverse]
| .atom seen => [.atom seen.reverse]

/- Scan the rest of a source after an unfinished lexeme. -/
def scanFrom :
    Partial → List Char → List Lexeme
| state, [] => finish state
| state, c :: cs =>
    (step state c).1 ++ scanFrom (step state c).2 cs

/- Cut a source into lexemes. -/
def scan
    (cs : List Char) :
    List Lexeme :=
  scanFrom .ground cs

end Lexeme

end LamLang
