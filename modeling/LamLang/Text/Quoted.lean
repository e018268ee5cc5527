import LamLang.Text.Printable

/-
  Texts in quotation marks, as objects are described.

  Key definitions include:
    * `LamLang.Text.quoteMark`
    * `LamLang.Text.quote`

  Single marks are used unless the text has a single mark
  and no double one.  Control characters and others without
  a shape of their own are written as escapes.
-/

------------------------------------------------------------
-- Escapes
------------------------------------------------------------

namespace LamLang

namespace Text

/- Exactly `width` hexadecimal digits of a number. -/
def hexDigits :
    Nat → Nat → List Char
| 0, _ => []
| width + 1, n =>
    hexDigits width (n / 16) ++ [Nat.digitChar (n % 16)]

/- An escape with two, four or eight digits, as needed. -/
def codeEscape
    (n : Nat) :
    List Char :=
  if n < 0x100 then
    '\\' :: 'x' :: hexDigits 2 n
  else if n < 0x10000 then
    '\\' :: 'u' :: hexDigits 4 n
  else
    '\\' :: 'U' :: hexDigits 8 n

/- One character of a quotation within `mark`. -/
def quoteChar
    (mark : Char)
    (c : Char) :
    List Char :=
  if c = mark ∨ c = '\\' then
    ['\\', c]
  else if c = '\t' then
    ['\\', 't']
  else if c = '\n' then
    ['\\', 'n']
  else if c = '\r' then
    ['\\', 'r']
  else if isPrintable c then
    [c]
  else
    codeEscape c.toNat

end Text

end LamLang

------------------------------------------------------------
-- Quotations
------------------------------------------------------------

namespace LamLang

namespace Text

/- The single quotation mark. -/
def singleMark : Char := '\x27'

/- The double quotation mark. -/
def doubleMark : Char := '\x22'

/- The mark that encloses a quotation of `cs`. -/
def quoteMark
    (cs : List Char) :
    Char :=
  if cs.contains singleMark && !cs.contains doubleMark then
    doubleMark
  else
    singleMark

/- A text in quotation marks. -/
def quote
    (s : String) :
    String :=
  let mark := quoteMark s.toList
  String.ofList
    (mark :: s.toList.flatMap (quoteChar mark) ++ [mark])

end Text

end LamLang
