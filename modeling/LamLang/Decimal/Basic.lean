import LamLang.Binary64.Basic

/-
  Decimal numbers and their nearest floating-point numbers.

  Key definitions include:
    * `LamLang.Decimal`
    * `LamLang.Decimal.value`
    * `LamLang.Decimal.nearest`

  A magnitude far outside the range of the format is settled
  by its exponent alone, so that a short numeral with a huge
  exponent never gives a huge integer.
-/

------------------------------------------------------------
-- Decimals
------------------------------------------------------------

namespace LamLang

/- The magnitude `digits * 10 ^ exponent`. -/
structure Decimal where
  digits : Nat
  exponent : Int
deriving DecidableEq, Repr

namespace Decimal

/- The exact value. -/
def value
    (d : Decimal) :
    Rat :=
  if 0 ≤ d.exponent then
    (d.digits * Nat.pow 10 d.exponent.toNat : Nat)
  else
    mkRat d.digits (Nat.pow 10 (-d.exponent).toNat)

/-
  Whether the exponent alone puts a nonzero magnitude beyond
  the largest finite one.
-/
def isHuge
    (d : Decimal) :
    Bool :=
  decide (310 ≤ d.exponent)

/-
  Whether the exponent and the length of the digits put the
  magnitude below half of the least nonzero one.
-/
def isTiny
    (d : Decimal) :
    Bool :=
  decide (d.exponent + (d.digits.log2 + 1) ≤ -324)

/- The nearest floating-point number, with a sign. -/
def nearest
    (negative : Bool)
    (d : Decimal) :
    Binary64 :=
  if d.digits = 0 then
    .zero negative
  else if d.isHuge then
    .infinite negative
  else if d.isTiny then
    .zero negative
  else
    .ofMagnitude negative d.value

end Decimal

end LamLang
