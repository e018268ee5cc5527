import LamLang.Decimal.Basic

/-
  The shortest decimal that reads back as a given number.

  Key definitions include:
    * `LamLang.Decimal.onGrid?`
    * `LamLang.Decimal.shortest`

  For one digit, two digits and so on, the two decimals next
  to the number are tried; the first that is read as the
  number is taken, of two the nearer, and on a tie the even
  one.  Seventeen digits always suffice, and the exact value
  stands behind them.
-/

------------------------------------------------------------
-- Size in Decimal Digits
------------------------------------------------------------

namespace LamLang

namespace Decimal

/- The number of decimal digits of a positive number. -/
def digitCount
    (n : Nat) :
    Nat :=
  (Nat.toDigits 10 n).length

/-
  The least `k` with `q < 10 ^ k`, for a positive magnitude
  of the format: below one, the count is taken after a shift
  by more places than the least magnitude has.
-/
def scale
    (q : Rat) :
    Int :=
  digitCount (q.num.natAbs * Nat.pow 10 400 / q.den) - 400

end Decimal

end LamLang

------------------------------------------------------------
-- Search
------------------------------------------------------------

namespace LamLang

namespace Decimal

/-
  Of the multiples of `10 ^ exponent` next to `q`, the one
  that is read as the finite number with the given rank.
-/
def onGrid?
    (rank : Fin Binary64.rankCount)
    (q : Rat)
    (exponent : Int) :
    Option Decimal :=
  let unit := Decimal.value ⟨1, exponent⟩
  let below := (q / unit).floor.toNat
  let lower : Decimal := ⟨below, exponent⟩
  let upper : Decimal := ⟨below + 1, exponent⟩
  let lowerHits :=
    decide (lower.nearest false = .finite false rank)
  let upperHits :=
    decide (upper.nearest false = .finite false rank)
  let left := q - lower.value
  let right := upper.value - q
  if lowerHits &&
      (!upperHits || decide (left < right) ||
        (decide (left = right) && below % 2 == 0)) then
    some lower
  else if upperHits then
    some upper
  else
    none

/- The exact value of a rank as a decimal. -/
def exact
    (rank : Nat) :
    Decimal :=
  ⟨Binary64.units rank * Nat.pow 5 1074, -1074⟩

/- The shortest decimal that is read as the given rank. -/
def shortest
    (rank : Fin Binary64.rankCount) :
    Decimal :=
  let q := Binary64.magnitude rank.val
  let top := scale q
  let found := (List.range 17).findSome? fun count =>
    onGrid? rank q (top - (count + 1 : Nat))
  found.getD (exact rank.val)

end Decimal

end LamLang
