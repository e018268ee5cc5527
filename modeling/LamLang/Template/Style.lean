import LamLang.Template.Basic

/-
  How a text is laid out in a hole.

  Key definitions include:
    * `LamLang.Template.Style`
    * `LamLang.Template.Style.read`
    * `LamLang.Template.Style.apply`

  A specification gives a filling character and the side of
  the text, then a width, and the most characters that are
  kept after a point, as in `*>8.3`.  What else may stand in
  it belongs to numbers, and is refused for a text.
-/

------------------------------------------------------------
-- Parts of Specifications
------------------------------------------------------------

namespace LamLang

namespace Template

/- The largest number in a template. -/
def largestNumber : Nat := 9223372036854775807

/-
  The number at the start of a text, if digits stand there,
  and the rest.
-/
def splitNumber
    (cs : List Char) :
    Except Misfit (Option Nat × List Char) :=
  let digits := cs.takeWhile Text.isDigit
  let n := Text.ofDigits (Text.digitValues digits)
  if largestNumber < n then
    .error .numberTooLarge
  else
    .ok
      (if digits.isEmpty then none else some n,
        cs.dropWhile Text.isDigit)

/- The first character, if it is one of those allowed. -/
def splitMark
    (allowed : List Char) :
    List Char → Option Char × List Char
| [] => (none, [])
| c :: cs =>
    if c ∈ allowed then (some c, cs) else (none, c :: cs)

/- The side on which a text stands in its width. -/
inductive Align where
| left
| right
| centre
| numeric
deriving DecidableEq, Repr

namespace Align

/- The side that a character asks for. -/
def ofMark? : Char → Option Align
| '<' => some .left
| '>' => some .right
| '^' => some .centre
| '=' => some .numeric
| _ => none

end Align

/-
  The filling character and the side, and the rest.  The
  second character is looked at first, for any character can
  be a filling.
-/
def splitAlign
    (spec : List Char) :
    Option Char × Align × List Char :=
  match spec[1]?.bind Align.ofMark?,
      spec[0]?.bind Align.ofMark? with
  | some align, _ => (spec[0]?, align, spec.drop 2)
  | none, some align => (none, align, spec.drop 1)
  | none, none => (none, .left, spec)

end Template

end LamLang

------------------------------------------------------------
-- Styles
------------------------------------------------------------

namespace LamLang

namespace Template

/- The layout of a text. -/
structure Style where
  fill : Char
  align : Align
  width : Nat
  precision? : Option Nat
deriving DecidableEq, Repr

namespace Style

/- Codes of numbers whose digits may be grouped. -/
def groupedCodes : List Char :=
  ['d', 'e', 'f', 'g', 'E', 'G', '%', 'F', '\x00']

/- Codes of numbers whose digits only a bar may group. -/
def barredCodes : List Char := ['b', 'o', 'x', 'X']

/-
  The mark that groups the digits of a number, and the rest.
  Only one of the two may be given.
-/
def splitSeparator
    (cs : List Char) :
    Except Misfit (Option Char × List Char) :=
  match splitMark [','] cs with
  | (some comma, rest) =>
      match splitMark ['_'] rest with
      | (some _, _) => .error .bothSeparators
      | (none, _) => .ok (some comma, rest)
  | (none, _) =>
      match splitMark ['_'] cs with
      | (some bar, rest) =>
          if rest.head? = some ',' then
            .error .bothSeparators
          else
            .ok (some bar, rest)
      | (none, _) => .ok (none, cs)

/- The most characters that are kept, and the rest. -/
def splitPrecision
    (cs : List Char) :
    Except Misfit (Option Nat × List Char) :=
  match splitMark ['.'] cs with
  | (none, _) => .ok (none, cs)
  | (some _, digits) => do
      match ← splitNumber digits with
      | (none, _) => .error .noPrecision
      | (some n, rest) => .ok (some n, rest)

/- Texts take one code only, and no grouping of digits. -/
def checkCode
    (separator? : Option Char)
    (code : Char) :
    Except Misfit Unit :=
  match separator? with
  | some separator =>
      if code ∈ groupedCodes ∨
          separator = '_' ∧ code ∈ barredCodes then
        .error (.unknownCode code)
      else
        .error (.separatorWith separator code)
  | none =>
      if code = 's' then .ok () else .error (.unknownCode code)

/- Texts take none of the options of numbers. -/
def checkOptions
    (sign? zero? hash? : Option Char)
    (align : Align) :
    Except Misfit Unit :=
  if sign? = some ' ' then
    .error .spaceNotAllowed
  else if sign?.isSome then
    .error .signNotAllowed
  else if zero?.isSome then
    .error .zeroNotAllowed
  else if hash?.isSome then
    .error .alternateNotAllowed
  else if align = .numeric then
    .error .numericNotAllowed
  else
    .ok ()

/- The code that ends a specification. -/
def codeOf
    (spec : List Char) :
    List Char → Except Misfit Char
| [] => .ok 's'
| [code] => .ok code
| _ => .error (.invalidSpec spec)

/- Read a specification. -/
def read
    (spec : List Char) :
    Except Misfit Style := do
  let (fill?, align, cs) := splitAlign spec
  let (sign?, cs) := splitMark [' ', '+', '-'] cs
  let (zero?, cs) := splitMark ['z'] cs
  let (hash?, cs) := splitMark ['#'] cs
  -- A zero before the width is a filling, unless one is given.
  let (padding?, cs) :=
    if fill?.isSome then (none, cs) else splitMark ['0'] cs
  let (width?, cs) ← splitNumber cs
  let (separator?, cs) ← splitSeparator cs
  let (precision?, cs) ← splitPrecision cs
  -- Options are refused only after the whole has been read.
  let code ← codeOf spec cs
  checkCode separator? code
  checkOptions sign? zero? hash? align
  let fill := (fill?.or padding?).getD ' '
  return ⟨fill, align, width?.getD 0, precision?⟩

/- How many of the missing characters stand on the left. -/
def leftGap
    (style : Style)
    (gap : Nat) :
    Nat :=
  match style.align with
  | .left => 0
  | .right => gap
  | .centre => gap / 2
  | .numeric => 0

/- Lay out a text. -/
def apply
    (style : Style)
    (s : String) :
    String :=
  let kept :=
    match style.precision? with
    | some most => s.toList.take most
    | none => s.toList
  let gap := style.width - kept.length
  let before := style.leftGap gap
  String.ofList
    (List.replicate before style.fill ++ kept ++
      List.replicate (gap - before) style.fill)

/- Without a specification a text stays as it is. -/
theorem read_nil :
    read [] = .ok ⟨' ', .left, 0, none⟩ := rfl

theorem apply_plain
    (s : String) :
    apply ⟨' ', .left, 0, none⟩ s = s := by
  simp [apply, leftGap]

end Style

end Template

end LamLang
