/-
  Binary floating-point numbers of 64 bits.

  Key definitions include:
    * `LamLang.Binary64`
    * `LamLang.Binary64.units`
    * `LamLang.Binary64.magnitude`
    * `LamLang.Binary64.nearestRank`
    * `LamLang.Binary64.ofMagnitude`

  The finite magnitudes, in ascending order, are numbered by
  their rank, which is also their bit pattern.  Each is a
  whole number of units of 2^-1074, the least of them.  An
  operation computes its exact result and rounds it once, to
  the nearest number and from a tie to the even rank.
-/

------------------------------------------------------------
-- Numbers
------------------------------------------------------------

namespace LamLang

namespace Binary64

/- How many magnitudes lie between two powers of two. -/
def binade : Nat := Nat.pow 2 52

/- The number of finite magnitudes. -/
def rankCount : Nat := 2047 * binade

/- How many of the least magnitude make up one. -/
def unitsPerOne : Nat := Nat.pow 2 1074

end Binary64

/-
  A number of the format: not a number, an infinity, or a
  finite magnitude with a sign.  Zero has both signs.
-/
inductive Binary64 where
| nan
| infinite (negative : Bool)
| finite (negative : Bool) (rank : Fin Binary64.rankCount)
deriving DecidableEq, Repr

namespace Binary64

/-
  The magnitude of a rank in units.  The ranks of the first
  binade count units one by one; after it, the step doubles
  with every binade.
-/
def units
    (rank : Nat) :
    Nat :=
  if rank < binade then
    rank
  else
    (binade + rank % binade) * Nat.pow 2 (rank / binade - 1)

/- The magnitude of a rank. -/
def magnitude
    (rank : Nat) :
    Rat :=
  mkRat (units rank) unitsPerOne

/- A magnitude with its sign. -/
def signed
    (negative : Bool)
    (q : Rat) :
    Rat :=
  if negative then -q else q

/- Zero with a sign. -/
def zero
    (negative : Bool) :
    Binary64 :=
  .finite negative ⟨0, by decide⟩

/- Whether a number is zero, with either sign. -/
def isZero : Binary64 → Bool
| .finite _ rank => rank.val == 0
| _ => false

/- Change the sign. -/
def neg : Binary64 → Binary64
| .nan => .nan
| .infinite negative => .infinite (!negative)
| .finite negative rank => .finite (!negative) rank

/- Changing the sign twice changes nothing. -/
theorem neg_neg
    (x : Binary64) :
    x.neg.neg = x := by
  cases x <;> simp [neg]

end Binary64

end LamLang

------------------------------------------------------------
-- Rounding
------------------------------------------------------------

namespace LamLang

namespace Binary64

/- The quotient nearest to `a / b`, an even one on a tie. -/
def roundDiv
    (a b : Nat) :
    Nat :=
  if 2 * (a % b) < b then
    a / b
  else if b < 2 * (a % b) then
    a / b + 1
  else
    a / b + a / b % 2

/-
  The rank nearest to the magnitude `n / d`, where the ranks
  go on beyond the finite ones.  The magnitude is scaled
  down by the step between its neighbours.
-/
def nearestRank
    (n d : Nat) :
    Nat :=
  let step := (n * unitsPerOne / d).log2 - 52
  step * binade +
    roundDiv (n * unitsPerOne) (d * Nat.pow 2 step)

/- The number nearest to a magnitude, with the given sign. -/
def ofMagnitude
    (negative : Bool)
    (q : Rat) :
    Binary64 :=
  let rank := nearestRank q.num.natAbs q.den
  if h : rank < rankCount then
    .finite negative ⟨rank, h⟩
  else
    .infinite negative

/- Whether a number is an infinity. -/
def isInfinite : Binary64 → Bool
| .infinite _ => true
| _ => false

/- The number nearest to an integer, unless it overflows. -/
def ofInt?
    (n : Int) :
    Option Binary64 :=
  let x := ofMagnitude (decide (n < 0)) n
  if x.isInfinite then none else some x

/-
  The number nearest to a quotient of integers, unless it
  overflows.  The sign of a zero follows the rule of signs.
-/
def ofQuotient?
    (a b : Int) :
    Option Binary64 :=
  let x := ofMagnitude (decide (a < 0) != decide (b < 0))
    (a / b : Rat)
  if x.isInfinite then none else some x

end Binary64

end LamLang
