import LamLang.Text.Digit
import LamLang.Text.Quoted

/-
  Message templates with holes.

  Key definitions include:
    * `LamLang.Template`
    * `LamLang.Template.read`
    * `LamLang.Template.source`
    * `LamLang.Template.Misfit`
    * `LamLang.Template.Plain`

  A hole stands in braces.  It names its argument and what
  is taken of it, then a conversion after an exclamation
  mark and a specification after a colon, as in `{0[1]!r:>8}`.
  The specification may have holes of its own.

  Every text can be read as a template: what cannot be read
  to its end is kept as it is written, with the reason, and
  is refused only when the filling of the holes gets there.
-/

------------------------------------------------------------
-- Misfits
------------------------------------------------------------

namespace LamLang

namespace Template

/- Why a template cannot be filled. -/
inductive Misfit where
| singleOpen
| singleClose
| openInName
| unclosedHole
| noConversion
| noColon
| unclosedSpec
| unknownName (name : List Char)
| missing (index : Nat)
| numberTooLarge
| orderedThenNumbered
| numberedThenOrdered
| emptyStep
| strayStep
| unclosedStep
| noAttribute (name : List Char)
| noItem
| itemNotNumber
| unknownConversion (letter : Char)
| nestedTooDeep
| bothSeparators
| noPrecision
| invalidSpec (spec : List Char)
| separatorWith (separator code : Char)
| unknownCode (code : Char)
| signNotAllowed
| spaceNotAllowed
| zeroNotAllowed
| alternateNotAllowed
| numericNotAllowed
deriving DecidableEq, Repr

namespace Misfit

/- The name that a report gives to a misfit. -/
def name : Misfit → String
| .unknownName _ => "KeyError"
| .missing _ => "IndexError"
| .noAttribute _ => "AttributeError"
| .noItem => "IndexError"
| .itemNotNumber => "TypeError"
| _ => "ValueError"

/- The hexadecimal digits of a number, without zeros. -/
def hexText
    (n : Nat) :
    String :=
  String.ofList (Nat.toDigits 16 n)

/-
  A character that was not understood, by its code unless
  it lies between the space and `limit`.
-/
def letterText
    (limit : Nat)
    (letter : Char) :
    String :=
  if 32 < letter.toNat ∧ letter.toNat < limit then
    letter.toString
  else
    "\\x" ++ hexText letter.toNat

/- The wording of an option that texts do not take. -/
def notAllowed
    (option : String) :
    String :=
  option ++ " not allowed in string format specifier"

/- The wording of a misfit. -/
def message : Misfit → String
| .singleOpen =>
    "Single '\x7b' encountered in format string"
| .singleClose =>
    "Single '\x7d' encountered in format string"
| .openInName => "unexpected '\x7b' in field name"
| .unclosedHole => "expected '\x7d' before end of string"
| .noConversion =>
    "end of string while looking for conversion specifier"
| .noColon => "expected ':' after conversion specifier"
| .unclosedSpec => "unmatched '\x7b' in format spec"
| .unknownName name => Text.quote (String.ofList name)
| .missing index =>
    "Replacement index " ++ index.repr ++
      " out of range for positional args tuple"
| .numberTooLarge =>
    "Too many decimal digits in format string"
| .orderedThenNumbered =>
    "cannot switch from automatic field numbering to " ++
      "manual field specification"
| .numberedThenOrdered =>
    "cannot switch from manual field specification to " ++
      "automatic field numbering"
| .emptyStep => "Empty attribute in format string"
| .strayStep =>
    "Only '.' or '[' may follow ']' in format field specifier"
| .unclosedStep => "Missing ']' in format string"
| .noAttribute name =>
    "'str' object has no attribute '" ++
      String.ofList name ++ "'"
| .noItem => "string index out of range"
| .itemNotNumber =>
    "string indices must be integers, not 'str'"
| .unknownConversion letter =>
    "Unknown conversion specifier " ++ letterText 127 letter
| .nestedTooDeep => "Max string recursion exceeded"
| .bothSeparators => "Cannot specify both ',' and '_'."
| .noPrecision => "Format specifier missing precision"
| .invalidSpec spec =>
    "Invalid format specifier '" ++ String.ofList spec ++
      "' for object of type 'str'"
| .separatorWith separator code =>
    "Cannot specify '" ++ separator.toString ++ "' with '" ++
      letterText 128 code ++ "'."
| .unknownCode code =>
    "Unknown format code '" ++ letterText 128 code ++
      "' for object of type 'str'"
| .signNotAllowed => notAllowed "Sign"
| .spaceNotAllowed => notAllowed "Space"
| .zeroNotAllowed => notAllowed "Negative zero coercion (z)"
| .alternateNotAllowed => notAllowed "Alternate form (#)"
| .numericNotAllowed => notAllowed "'=' alignment"

end Misfit

end Template

end LamLang

------------------------------------------------------------
-- Templates
------------------------------------------------------------

namespace LamLang

/-
  A hole: the name of what is put in, how it is converted,
  and how it is laid out.
-/
structure Hole where
  name : List Char
  conversion? : Option Char
  spec? : Option (List Char)
deriving DecidableEq, Repr

/-
  A part of a template.  A broken one is its end, which
  cannot be read.
-/
inductive Piece where
| text (s : String)
| hole (hole : Hole)
| broken (rest : List Char) (reason : Template.Misfit)
deriving DecidableEq, Repr

namespace Piece

/- A hole for the next argument in order. -/
def next : Piece := .hole ⟨[], none, none⟩

/- A hole for the argument with a number. -/
def nth
    (digits : List Char) :
    Piece :=
  .hole ⟨digits, none, none⟩

end Piece

/- A message with holes for its arguments. -/
abbrev Template := List Piece

/- A hole that names an argument at most, and no more. -/
def Hole.Plain
    (hole : Hole) : Prop :=
  hole.name.all Text.isDigit ∧
    hole.conversion? = none ∧ hole.spec? = none

instance
    (hole : Hole) :
    Decidable hole.Plain :=
  inferInstanceAs (Decidable (_ ∧ _))

/- A text or a plain hole. -/
def Piece.Plain : Piece → Prop
| .text _ => True
| .hole inner => inner.Plain
| .broken _ _ => False

instance
    (piece : Piece) :
    Decidable piece.Plain :=
  match piece with
  | .text _ => inferInstanceAs (Decidable True)
  | .hole inner => inferInstanceAs (Decidable inner.Plain)
  | .broken _ _ => inferInstanceAs (Decidable False)

/- A template of texts and plain holes only. -/
def Template.Plain
    (template : Template) : Prop :=
  ∀ piece ∈ template, piece.Plain

instance
    (template : Template) :
    Decidable template.Plain :=
  inferInstanceAs (Decidable (∀ piece ∈ template, _))

end LamLang

------------------------------------------------------------
-- Written Form
------------------------------------------------------------

namespace LamLang

namespace Template

/- The brace that opens a hole. -/
def openBrace : Char := '\x7b'

/- The brace that closes a hole. -/
def closeBrace : Char := '\x7d'

/- A character of a template's text, braces doubled. -/
def sourceChar
    (c : Char) :
    List Char :=
  if c = openBrace ∨ c = closeBrace then [c, c] else [c]

/- The conversion and the specification of a hole. -/
def optionSource
    (mark : Char) :
    Option (List Char) → List Char
| some cs => mark :: cs
| none => []

/- The written form of a hole. -/
def holeSource
    (hole : Hole) :
    List Char :=
  openBrace :: hole.name ++
    optionSource '!' (hole.conversion?.map fun c => [c]) ++
    optionSource ':' hole.spec? ++ [closeBrace]

/- The written form of one piece. -/
def pieceSource : Piece → String
| .text s => String.ofList (s.toList.flatMap sourceChar)
| .hole hole => String.ofList (holeSource hole)
| .broken rest _ => String.ofList rest

/- The written form of a template. -/
def source
    (template : Template) :
    String :=
  String.join (template.map pieceSource)

end Template

end LamLang

------------------------------------------------------------
-- Reading
------------------------------------------------------------

namespace LamLang

namespace Template

/-
  Where the reading of a template stands.  What was read of
  a hole is kept with the latest character first.  In its
  name, brackets hold everything up to the one that closes
  them; in a specification the braces opened are counted.
-/
inductive Mode where
| ground
| opened
| closing
| naming (seen : List Char)
| bracket (seen : List Char)
| converting (name : List Char)
| converted (name : List Char) (letter : Char)
| laying (name : List Char) (letter? : Option Char)
    (seen : List Char) (nested : Nat)
deriving DecidableEq, Repr

namespace Mode

/- What was read since the last piece was finished. -/
def written : Mode → List Char
| .ground => []
| .opened => [openBrace]
| .closing => [closeBrace]
| .naming seen => openBrace :: seen.reverse
| .bracket seen => openBrace :: seen.reverse
| .converting name => openBrace :: name ++ ['!']
| .converted name letter =>
    openBrace :: name ++ ['!', letter]
| .laying name letter? seen _ =>
    openBrace :: name ++
      optionSource '!' (letter?.map fun c => [c]) ++
      ':' :: seen.reverse

/- Why a template cannot end here, unless it can. -/
def unfinished? : Mode → Option Misfit
| .ground => none
| .opened => some .singleOpen
| .closing => some .singleClose
| .naming _ => some .unclosedHole
| .bracket _ => some .unclosedHole
| .converting _ => some .noConversion
| .converted _ _ => some .unclosedSpec
| .laying _ _ _ _ => some .unclosedSpec

/- How reading goes on after a character. -/
inductive Next where
| goOn (mode : Mode)
| done (piece : Piece)
| refused (reason : Misfit)
deriving DecidableEq, Repr

/- Go on in the name of a hole. -/
def stepName
    (seen : List Char)
    (c : Char) :
    Next :=
  if c = openBrace then
    .refused .openInName
  else if c = closeBrace then
    .done (.hole ⟨seen.reverse, none, none⟩)
  else if c = '!' then
    .goOn (.converting seen.reverse)
  else if c = ':' then
    .goOn (.laying seen.reverse none [] 0)
  else if c = '[' then
    .goOn (.bracket (c :: seen))
  else
    .goOn (.naming (c :: seen))

/- Go on in the specification of a hole. -/
def stepSpec
    (name : List Char)
    (letter? : Option Char)
    (seen : List Char)
    (nested : Nat)
    (c : Char) :
    Next :=
  if c = openBrace then
    .goOn (.laying name letter? (c :: seen) (nested + 1))
  else if c = closeBrace then
    match nested with
    | 0 => .done (.hole ⟨name, letter?, some seen.reverse⟩)
    | inner + 1 =>
        .goOn (.laying name letter? (c :: seen) inner)
  else
    .goOn (.laying name letter? (c :: seen) nested)

/-
  Go on by one character.  A doubled brace stands for
  itself; a single one that belongs to no hole is refused.
-/
def step
    (mode : Mode)
    (c : Char) :
    Next :=
  match mode with
  | .ground =>
      if c = openBrace then
        .goOn .opened
      else if c = closeBrace then
        .goOn .closing
      else
        .done (.text c.toString)
  | .opened =>
      if c = openBrace then
        .done (.text c.toString)
      else
        stepName [] c
  | .closing =>
      if c = closeBrace then
        .done (.text c.toString)
      else
        .refused .singleClose
  | .naming seen => stepName seen c
  | .bracket seen =>
      if c = ']' then
        .goOn (.naming (c :: seen))
      else
        .goOn (.bracket (c :: seen))
  | .converting name => .goOn (.converted name c)
  | .converted name letter =>
      if c = closeBrace then
        .done (.hole ⟨name, some letter, none⟩)
      else if c = ':' then
        .goOn (.laying name (some letter) [] 0)
      else
        .refused .noColon
  | .laying name letter? seen nested =>
      stepSpec name letter? seen nested c

end Mode

/- Read the rest of a template. -/
def readFrom :
    Mode → List Char → Template
| mode, [] =>
    match mode.unfinished? with
    | none => []
    | some reason => [.broken mode.written reason]
| mode, c :: cs =>
    match mode.step c with
    | .goOn next => readFrom next cs
    | .done piece => piece :: readFrom .ground cs
    | .refused reason =>
        [.broken (mode.written ++ c :: cs) reason]

/- Read a template from its written form. -/
def read
    (s : String) :
    Template :=
  readFrom .ground s.toList

end Template

end LamLang
