import LamLang.Decimal.Basic

/-
  The written form of decimals.

  Key definitions include:
    * `LamLang.Decimal.Layout`
    * `LamLang.Decimal.Layout.write`

  A layout says which exponents are written out positionally
  and how wide the others are.  A written decimal always has
  a point or an exponent, so it is never read as an integer.
-/

------------------------------------------------------------
-- Layouts
------------------------------------------------------------

namespace LamLang

namespace Decimal

/-
  Exponents from `least` up to, but not including, `bound`
  are written positionally; the others get an exponent part
  of at least `width` digits.
-/
structure Layout where
  least : Int
  bound : Int
  width : Nat
deriving DecidableEq, Repr

namespace Layout

/- Digits without the zeros at the end. -/
def significant
    (digits : List Char) :
    List Char :=
  (digits.reverse.dropWhile (· == '0')).reverse

/- A digit list widened by zeros in front. -/
def widen
    (width : Nat)
    (digits : List Char) :
    List Char :=
  List.replicate (width - digits.length) '0' ++ digits

/-
  Digits written positionally, where `point` digits stand
  before the point.
-/
def positional
    (digits : List Char)
    (point : Int) :
    List Char :=
  if point ≤ 0 then
    '0' :: '.' ::
      (List.replicate (-point).toNat '0' ++ digits)
  else
    let before := digits.take point.toNat
    let after := digits.drop point.toNat
    before ++
      List.replicate (point.toNat - digits.length) '0' ++
      '.' :: (if after.isEmpty then ['0'] else after)

/- Digits written with an exponent part. -/
def scientific
    (layout : Layout)
    (digits : List Char)
    (exponent : Int) :
    List Char :=
  let after := digits.drop 1
  let mark := if exponent < 0 then '-' else '+'
  digits.take 1 ++
    (if after.isEmpty then [] else '.' :: after) ++
    'e' :: mark ::
      widen layout.width (Nat.toDigits 10 exponent.natAbs)

/- The written form of a decimal magnitude. -/
def write
    (layout : Layout)
    (d : Decimal) :
    List Char :=
  let all := Nat.toDigits 10 d.digits
  let digits := significant all
  let exponent := d.exponent + all.length - 1
  if d.digits = 0 then
    ['0', '.', '0']
  else if layout.least ≤ exponent ∧ exponent < layout.bound
    then positional digits (exponent + 1)
  else
    layout.scientific digits exponent

end Layout

end Decimal

end LamLang
