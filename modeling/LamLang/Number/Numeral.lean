import LamLang.Text.Digit
import LamLang.Number.Basic

/-
  Numerals: the texts that are read as numbers.

  Key definitions include:
    * `LamLang.Numeral`
    * `LamLang.Numeral.parse?`
    * `LamLang.Numeral.toNumber`

  A numeral has an optional sign, digits with an optional
  point among or before them, and an optional exponent.  It
  is an integer when it has neither point nor exponent.
-/

------------------------------------------------------------
-- Numerals
------------------------------------------------------------

namespace LamLang

/- The parts of a numeral, its digits by their values. -/
structure Numeral where
  negative : Bool
  whole : List Nat
  fraction : Option (List Nat)
  exponent : Option (Bool × List Nat)
deriving DecidableEq, Repr

namespace Numeral

/- Split off a sign; `true` stands for a minus sign. -/
def splitSign : List Char → Bool × List Char
| [] => (false, [])
| c :: cs =>
    if c = '-' then
      (true, cs)
    else if c = '+' then
      (false, cs)
    else
      (false, c :: cs)

/- Split off the digits at the start of a text. -/
def splitDigits
    (cs : List Char) :
    List Nat × List Char :=
  (Text.digitValues (cs.takeWhile Text.isDigit),
    cs.dropWhile Text.isDigit)

/- Split off a point and the digits after it. -/
def splitFraction : List Char → Option (List Nat) × List Char
| [] => (none, [])
| c :: cs =>
    if c = '.' then
      let (digits, rest) := splitDigits cs
      (some digits, rest)
    else
      (none, c :: cs)

/- The exponent part, which must be all that is left. -/
def parseExponent? :
    List Char → Option (Option (Bool × List Nat))
| [] => some none
| c :: cs =>
    if c = 'e' ∨ c = 'E' then
      let (negative, rest) := splitSign cs
      let (digits, rest) := splitDigits rest
      if digits.isEmpty || !rest.isEmpty then
        none
      else
        some (some (negative, digits))
    else
      none

/- The parts of a text that is a numeral. -/
def parse?
    (cs : List Char) :
    Option Numeral := do
  let (negative, rest) := splitSign cs
  let (whole, rest) := splitDigits rest
  let (fraction, rest) := splitFraction rest
  if whole.isEmpty && (fraction.getD []).isEmpty then
    none
  else
    let exponent ← parseExponent? rest
    some { negative, whole, fraction, exponent }

end Numeral

end LamLang

------------------------------------------------------------
-- Values
------------------------------------------------------------

namespace LamLang

namespace Numeral

/- Whether a numeral stands for an integer. -/
def isInteger
    (numeral : Numeral) :
    Bool :=
  numeral.fraction.isNone && numeral.exponent.isNone

/- The exponent that a numeral writes, zero if none. -/
def power
    (numeral : Numeral) :
    Int :=
  match numeral.exponent with
  | none => 0
  | some (negative, digits) =>
      if negative then
        -(Text.ofDigits digits : Int)
      else
        Text.ofDigits digits

/- The magnitude that a numeral writes. -/
def magnitude
    (numeral : Numeral) :
    Decimal :=
  let fraction := numeral.fraction.getD []
  { digits := Text.ofDigits (numeral.whole ++ fraction)
    exponent := numeral.power - fraction.length }

/-
  The number that a numeral stands for.  Integers have a
  limit on the length of their text.
-/
def toNumber
    (numeral : Numeral) :
    Except Failure Number :=
  if numeral.isInteger then
    if numeral.whole.length ≤ Mishap.digitLimit then
      let n : Int := Text.ofDigits numeral.whole
      .ok (.int (if numeral.negative then -n else n))
    else
      .error
        (.mishap (.numeralTooLong numeral.whole.length))
  else
    .ok (.real
      (numeral.magnitude.nearest numeral.negative))

end Numeral

end LamLang
