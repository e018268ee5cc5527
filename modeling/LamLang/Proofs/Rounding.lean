import LamLang.Proofs.Failures
import Mathlib.Algebra.Order.Field.Rat
import Mathlib.Data.Rat.Lemmas
import Mathlib.Tactic.FieldSimp
import Mathlib.Tactic.Positivity
import Mathlib.Tactic.Ring

/-
  Decimals that are read as a given number.

  The nearest number to a decimal depends on its value only,
  since the shortcuts for values far out of range agree with
  the rounding that they avoid.  Rounding leaves a magnitude
  of the format as it is, so the decimal that is chosen for
  a number is read as that number.

  Main statements:
    * `LamLang.Binary64.nearestRank_eq_of_eq_div`
    * `LamLang.Binary64.nearestRank_units`
    * `LamLang.Decimal.value_eq`
    * `LamLang.Decimal.nearest_eq_ofMagnitude`
    * `LamLang.Decimal.nearest_shortest`
-/

------------------------------------------------------------
-- Nearest Ranks
------------------------------------------------------------

namespace LamLang

namespace Binary64

theorem unitsPerOne_pos : 0 < unitsPerOne := by
  decide +kernel

/- A quotient does not change when both sides are scaled. -/
theorem roundDiv_mul_right
    (a b : Nat)
    {k : Nat}
    (hPos : 0 < k) :
    roundDiv (a * k) (b * k) = roundDiv a b := by
  have hBelow :
      2 * (a % b * k) < b * k ↔ 2 * (a % b) < b := by
    rw [← Nat.mul_assoc, Nat.mul_lt_mul_right hPos]
  have hAbove :
      b * k < 2 * (a % b * k) ↔ b < 2 * (a % b) := by
    rw [← Nat.mul_assoc, Nat.mul_lt_mul_right hPos]
  unfold roundDiv
  rw [Nat.mul_div_mul_right _ _ hPos, Nat.mul_mod_mul_right]
  simp only [hBelow, hAbove]

/- A multiple of the divisor needs no rounding. -/
theorem roundDiv_mul_self
    (a : Nat)
    {b : Nat}
    (hPos : 0 < b) :
    roundDiv (a * b) b = a := by
  have hMod : 2 * (a * b % b) < b := by
    rw [Nat.mul_mod_left]
    omega
  unfold roundDiv
  rw [if_pos hMod, Nat.mul_div_cancel _ hPos]

/- The nearest rank, once the step is known. -/
theorem nearestRank_of_step
    {n d step : Nat}
    (hStep : (n * unitsPerOne / d).log2 - 52 = step) :
    nearestRank n d =
      step * binade +
        roundDiv (n * unitsPerOne) (d * 2 ^ step) := by
  subst hStep
  rfl

theorem nearestRank_mul_right
    (n d : Nat)
    {k : Nat}
    (hPos : 0 < k) :
    nearestRank (n * k) (d * k) = nearestRank n d := by
  have hQuotient :
      n * k * unitsPerOne / (d * k) =
        n * unitsPerOne / d := by
    rw [Nat.mul_right_comm, Nat.mul_div_mul_right _ _ hPos]
  rw [nearestRank_of_step rfl, hQuotient,
    nearestRank_of_step rfl, Nat.mul_right_comm n k,
    Nat.mul_right_comm d k, roundDiv_mul_right _ _ hPos]

/- Every fraction for a magnitude gives its nearest rank. -/
theorem nearestRank_eq_of_eq_div
    {q : Rat}
    {n d : Nat}
    (hPos : 0 < d)
    (hValue : q = n / d) :
    nearestRank q.num.natAbs q.den = nearestRank n d := by
  have hInt : (d : Int) ≠ 0 := by omega
  have hDiv : q = Rat.divInt n d := by
    rw [hValue, Rat.divInt_eq_div]
    simp
  rcases Rat.num_den_mk hInt hDiv with ⟨c, hNum, hDen⟩
  -- The common factor is positive, as both denominators are.
  have hFactor : 0 < c := by
    by_contra hNot
    have hLe : c * q.den ≤ 0 :=
      mul_nonpos_of_nonpos_of_nonneg (by omega) (by omega)
    omega
  have hn : n = q.num.natAbs * c.natAbs := by
    rw [← Int.natAbs_mul, Int.mul_comm, ← hNum]
    rfl
  have hd : d = q.den * c.natAbs := by
    have hAbs := congrArg Int.natAbs hDen
    rw [Int.natAbs_mul] at hAbs
    rw [Nat.mul_comm]
    exact hAbs
  rw [hn, hd, nearestRank_mul_right _ _ (by omega)]

/- Less than half of the least magnitude rounds to zero. -/
theorem nearestRank_eq_zero
    {n d : Nat}
    (hTiny : 2 * (n * unitsPerOne) < d) :
    nearestRank n d = 0 := by
  have hLess : n * unitsPerOne < d := by omega
  have hZero : n * unitsPerOne / d = 0 :=
    Nat.div_eq_of_lt hLess
  have hStep : (n * unitsPerOne / d).log2 - 52 = 0 := by
    rw [hZero, Nat.log2_zero]
  rw [nearestRank_of_step hStep, Nat.pow_zero, Nat.mul_one,
    roundDiv, Nat.mod_eq_of_lt hLess, if_pos hTiny, hZero,
    Nat.zero_mul]

/- A magnitude in a binade has no rank below it. -/
theorem mul_binade_le_nearestRank
    {n d : Nat}
    (hPos : 0 < d)
    {k : Nat}
    (hLarge : 2 ^ (52 + k) * d ≤ n * unitsPerOne) :
    k * binade ≤ nearestRank n d := by
  have hQuotient : 2 ^ (52 + k) ≤ n * unitsPerOne / d :=
    (Nat.le_div_iff_mul_le hPos).mpr hLarge
  have hNonzero : n * unitsPerOne / d ≠ 0 := by
    have hPower := Nat.two_pow_pos (52 + k)
    omega
  have hLog := (Nat.le_log2 hNonzero).mpr hQuotient
  have hStep : k ≤ (n * unitsPerOne / d).log2 - 52 := by
    omega
  have hRank := Nat.mul_le_mul_right binade hStep
  rw [nearestRank_of_step rfl]
  omega

/- The units of a rank in a binade lie in that binade. -/
theorem log2_units
    {rank : Nat}
    (hRank : binade ≤ rank) :
    (units rank).log2 - 52 = rank / binade - 1 := by
  have hPos : 0 < binade := by decide
  have hBinade : binade = 2 ^ 52 := rfl
  have hMod := Nat.mod_lt rank hPos
  have hPower := Nat.two_pow_pos (rank / binade - 1)
  unfold units
  rw [if_neg (by omega), Nat.pow_eq]
  -- With the offset, the units stay below the next binade.
  generalize rank / binade - 1 = step at hPower ⊢
  generalize rank % binade = offset at hMod ⊢
  have hLog :
      ((binade + offset) * 2 ^ step).log2 = 52 + step := by
    rw [Nat.log2_eq_iff (by positivity)]
    constructor
    · rw [Nat.pow_add]
      apply Nat.mul_le_mul_right
      omega
    · rw [Nat.add_right_comm, Nat.pow_add]
      apply Nat.mul_lt_mul_of_pos_right _ hPower
      omega
  omega

/- A rank is nearest to its own magnitude. -/
theorem nearestRank_units
    (rank : Nat) :
    nearestRank (units rank) unitsPerOne = rank := by
  have hUnits := unitsPerOne_pos
  by_cases hRank : rank < binade
  · have hLog : rank.log2 - 52 = 0 := by
      by_cases hZero : rank = 0
      · rw [hZero, Nat.log2_zero]
      · have hLt := (Nat.log2_lt hZero).mpr hRank
        omega
    have hSame : units rank = rank := if_pos hRank
    rw [hSame, nearestRank_of_step
      (by rw [Nat.mul_div_cancel _ hUnits, hLog]),
      Nat.pow_zero, Nat.mul_one,
      roundDiv_mul_self _ hUnits, Nat.zero_mul,
      Nat.zero_add]
  · have hAbove : binade ≤ rank := by omega
    have hDivMod := Nat.div_add_mod rank binade
    have hBinade : 1 ≤ rank / binade :=
      (Nat.one_le_div_iff (by decide)).mpr hAbove
    have hPower := Nat.two_pow_pos (rank / binade - 1)
    have hScaled :
        units rank * unitsPerOne =
          (binade + rank % binade) *
            (unitsPerOne * 2 ^ (rank / binade - 1)) := by
      unfold units
      rw [if_neg hRank, Nat.pow_eq, Nat.mul_assoc,
        Nat.mul_comm (2 ^ _) unitsPerOne]
    rw [nearestRank_of_step
      (by rw [Nat.mul_div_cancel _ hUnits,
        log2_units hAbove]), hScaled,
      roundDiv_mul_self _ (Nat.mul_pos hUnits hPower),
      Nat.sub_mul, Nat.one_mul, Nat.mul_comm]
    have hFirst :=
      Nat.mul_le_mul_left binade hBinade
    omega

/- A magnitude whose nearest rank is finite. -/
theorem ofMagnitude_eq_finite
    {q : Rat}
    {rank : Fin rankCount}
    (hRank : nearestRank q.num.natAbs q.den = rank.val)
    (negative : Bool) :
    ofMagnitude negative q = .finite negative rank := by
  unfold ofMagnitude
  dsimp only
  rw [dif_pos (hRank ▸ rank.isLt)]
  congr 1
  exact Fin.ext hRank

/- A magnitude whose nearest rank is beyond all others. -/
theorem ofMagnitude_eq_infinite
    {q : Rat}
    (hRank : rankCount ≤ nearestRank q.num.natAbs q.den)
    (negative : Bool) :
    ofMagnitude negative q = .infinite negative := by
  unfold ofMagnitude
  dsimp only
  rw [dif_neg (by omega)]

/- The sign has no part in rounding. -/
theorem ofMagnitude_sign
    {q : Rat}
    {rank : Fin rankCount}
    (hFinite : ofMagnitude false q = .finite false rank)
    (negative : Bool) :
    ofMagnitude negative q = .finite negative rank := by
  apply ofMagnitude_eq_finite
  unfold ofMagnitude at hFinite
  dsimp only at hFinite
  split at hFinite
  · cases hFinite
    rfl
  · cases hFinite

/- Rounding leaves the magnitudes of the format alone. -/
theorem ofMagnitude_magnitude
    (rank : Fin rankCount)
    (negative : Bool) :
    ofMagnitude negative (magnitude rank.val) =
      .finite negative rank := by
  apply ofMagnitude_eq_finite
  have hValue :
      magnitude rank.val =
        (units rank.val : Rat) / unitsPerOne := by
    rw [magnitude, Rat.mkRat_eq_div]
    rfl
  rw [nearestRank_eq_of_eq_div unitsPerOne_pos hValue,
    nearestRank_units]

end Binary64

end LamLang

------------------------------------------------------------
-- Nearest Numbers To Decimals
------------------------------------------------------------

namespace LamLang

namespace Decimal

/- The value by powers of ten of both signs. -/
theorem value_eq
    (d : Decimal) :
    d.value = d.digits * (10 : Rat) ^ d.exponent := by
  unfold value
  by_cases hSign : 0 ≤ d.exponent
  · obtain ⟨k, hExponent⟩ := Int.eq_ofNat_of_zero_le hSign
    rw [if_pos hSign, hExponent, zpow_natCast,
      Int.toNat_natCast, Nat.pow_eq]
    push_cast
    rfl
  · obtain ⟨k, hExponent⟩ :=
      Int.eq_ofNat_of_zero_le
        (show 0 ≤ -d.exponent by omega)
    have hNeg : d.exponent = -(k : Int) := by omega
    rw [if_neg hSign, hNeg, neg_neg, Int.toNat_natCast,
      zpow_neg, zpow_natCast, Rat.mkRat_eq_div, Nat.pow_eq]
    push_cast
    rfl

/- A fraction below half of the least magnitude. -/
theorem ofMagnitude_of_tiny
    {q : Rat}
    {n d : Nat}
    (hTiny : 2 * (n * Binary64.unitsPerOne) < d)
    (hValue : q = n / d)
    (negative : Bool) :
    Binary64.ofMagnitude negative q = .zero negative := by
  apply Binary64.ofMagnitude_eq_finite
  rw [Binary64.nearestRank_eq_of_eq_div (by omega) hValue,
    Binary64.nearestRank_eq_zero hTiny]

/- The least decimal exponent that is out of range. -/
theorem binades_le_ten_pow :
    2 ^ (52 + 2047) ≤ 10 ^ 310 * Binary64.unitsPerOne := by
  decide +kernel

/- The greatest one below half of the least magnitude. -/
theorem units_le_ten_pow :
    2 * Binary64.unitsPerOne ≤ 10 ^ 324 := by
  decide +kernel

theorem ofMagnitude_of_isHuge
    {d : Decimal}
    (hDigits : d.digits ≠ 0)
    (hHuge : d.isHuge = true)
    (negative : Bool) :
    Binary64.ofMagnitude negative d.value =
      .infinite negative := by
  have hExponent : 310 ≤ d.exponent :=
    of_decide_eq_true hHuge
  obtain ⟨k, hk⟩ :=
    Int.eq_ofNat_of_zero_le
      (show 0 ≤ d.exponent by omega)
  have hValue :
      d.value = (d.digits * 10 ^ k : Nat) / (1 : Nat) := by
    rw [value_eq, hk, zpow_natCast]
    push_cast
    rw [div_one]
  have hLarge : 10 ^ 310 ≤ d.digits * 10 ^ k :=
    calc
      10 ^ 310 ≤ 10 ^ k :=
        pow_le_pow_right₀ (by decide) (by omega)
      _ ≤ d.digits * 10 ^ k :=
        Nat.le_mul_of_pos_left _ (by omega)
  apply Binary64.ofMagnitude_eq_infinite
  rw [Binary64.nearestRank_eq_of_eq_div (by decide) hValue]
  apply Binary64.mul_binade_le_nearestRank (by decide)
  rw [Nat.mul_one]
  exact
    binades_le_ten_pow.trans
      (Nat.mul_le_mul_right _ hLarge)

theorem ofMagnitude_of_isTiny
    {d : Decimal}
    (hTiny : d.isTiny = true)
    (negative : Bool) :
    Binary64.ofMagnitude negative d.value =
      .zero negative := by
  have hExponent :
      d.exponent + (d.digits.log2 + 1) ≤ -324 :=
    of_decide_eq_true hTiny
  obtain ⟨k, hk⟩ :=
    Int.eq_ofNat_of_zero_le
      (show 0 ≤ -d.exponent by omega)
  have hNeg : d.exponent = -(k : Int) := by omega
  have hValue : d.value = d.digits / (10 ^ k : Nat) := by
    rw [value_eq, hNeg, zpow_neg, zpow_natCast]
    push_cast
    rfl
  have hDigits : d.digits < 10 ^ (d.digits.log2 + 1) :=
    calc
      d.digits < 2 ^ (d.digits.log2 + 1) :=
        Nat.lt_log2_self
      _ ≤ 10 ^ (d.digits.log2 + 1) :=
        Nat.pow_le_pow_left (by decide) _
  apply ofMagnitude_of_tiny _ hValue
  -- Some places outweigh the digits, the rest the units.
  obtain ⟨rest, hRest⟩ :=
    Nat.exists_eq_add_of_le
      (show d.digits.log2 + 1 ≤ k by omega)
  have hUnits : 2 * Binary64.unitsPerOne ≤ 10 ^ rest :=
    units_le_ten_pow.trans
      (pow_le_pow_right₀ (by decide) (by omega))
  calc
    2 * (d.digits * Binary64.unitsPerOne) =
        d.digits * (2 * Binary64.unitsPerOne) :=
      Nat.mul_left_comm _ _ _
    _ ≤ d.digits * 10 ^ rest :=
      Nat.mul_le_mul_left _ hUnits
    _ < 10 ^ (d.digits.log2 + 1) * 10 ^ rest :=
      Nat.mul_lt_mul_of_pos_right hDigits
        (Nat.pow_pos (by decide))
    _ = 10 ^ k := by
      rw [hRest]
      exact (Nat.pow_add _ _ _).symm

/- The nearest number is found by rounding the value. -/
theorem nearest_eq_ofMagnitude
    (d : Decimal)
    (negative : Bool) :
    d.nearest negative =
      Binary64.ofMagnitude negative d.value := by
  unfold nearest
  by_cases hDigits : d.digits = 0
  · have hValue : d.value = (0 : Nat) / (1 : Nat) := by
      rw [value_eq, hDigits]
      simp
    rw [if_pos hDigits,
      ofMagnitude_of_tiny (by simp) hValue]
  · rw [if_neg hDigits]
    by_cases hHuge : d.isHuge = true
    · rw [if_pos hHuge, ofMagnitude_of_isHuge hDigits hHuge]
    · rw [if_neg hHuge]
      by_cases hTiny : d.isTiny = true
      · rw [if_pos hTiny, ofMagnitude_of_isTiny hTiny]
      · rw [if_neg hTiny]

/- Decimals of one value are read as one number. -/
theorem nearest_congr
    {d e : Decimal}
    (hValue : d.value = e.value)
    (negative : Bool) :
    d.nearest negative = e.nearest negative := by
  rw [nearest_eq_ofMagnitude, nearest_eq_ofMagnitude, hValue]

/- No decimal is read as a NaN. -/
theorem nearest_ne_nan
    (d : Decimal)
    (negative : Bool) :
    d.nearest negative ≠ .nan := by
  rw [nearest_eq_ofMagnitude, Binary64.ofMagnitude]
  split <;> nofun

end Decimal

end LamLang

------------------------------------------------------------
-- Chosen Decimals
------------------------------------------------------------

namespace LamLang

namespace Decimal

theorem nearest_of_onGrid?
    {rank : Fin Binary64.rankCount}
    {q : Rat}
    {exponent : Int}
    {d : Decimal}
    (hGrid : onGrid? rank q exponent = some d) :
    d.nearest false = .finite false rank := by
  unfold onGrid? at hGrid
  dsimp only at hGrid
  split at hGrid
  · rename_i hLower
    cases hGrid
    rw [Bool.and_eq_true] at hLower
    exact of_decide_eq_true hLower.1
  · split at hGrid
    · rename_i hUpper
      cases hGrid
      exact of_decide_eq_true hUpper
    · cases hGrid

/- A power of five over a power of ten leaves twos. -/
theorem value_five_ten
    (n k : Nat)
    {twos : Nat}
    {exponent : Int}
    (hTwos : twos = Nat.pow 2 k)
    (hExponent : exponent = -k) :
    value ⟨n * Nat.pow 5 k, exponent⟩ = n / twos := by
  have hTen : (10 : Rat) ^ k = 5 ^ k * 2 ^ k := by
    rw [← mul_pow]
    norm_num
  rw [value_eq, hExponent, zpow_neg, zpow_natCast, hTen,
    hTwos, Nat.pow_eq, Nat.pow_eq]
  push_cast
  field_simp

theorem value_exact
    (rank : Nat) :
    (exact rank).value = Binary64.magnitude rank := by
  rw [exact, Binary64.magnitude, Rat.mkRat_eq_div,
    Int.cast_natCast]
  unfold Binary64.unitsPerOne
  generalize hPlaces : (1074 : Nat) = k
  have hExponent : (-1074 : Int) = -k := by omega
  exact value_five_ten (Binary64.units rank) k rfl hExponent

/- The decimal chosen for a number is read as the number. -/
theorem nearest_shortest
    (rank : Fin Binary64.rankCount)
    (negative : Bool) :
    (shortest rank).nearest negative =
      .finite negative rank := by
  rw [nearest_eq_ofMagnitude]
  apply Binary64.ofMagnitude_sign
  unfold shortest
  dsimp only
  generalize hFound :
    (List.findSome? _ (List.range 17)) = found
  -- The exact value stands in where the search finds none.
  cases found with
  | none =>
      rw [Option.getD_none, value_exact]
      exact Binary64.ofMagnitude_magnitude rank false
  | some d =>
      rcases List.exists_of_findSome?_eq_some hFound with
        ⟨count, -, hGrid⟩
      rw [Option.getD_some, ← nearest_eq_ofMagnitude]
      exact nearest_of_onGrid? hGrid

end Decimal

end LamLang
