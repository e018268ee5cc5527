import LamLang.Proofs.Calls
import LamLang.Proofs.Rounding

/-
  Integers of moderate size.

  Below a power of two that is just within the range of
  floating point, an integer can be rounded and written, and
  so can the quotient of two of them.  As long as the
  integers that an evaluation comes to are all of that size,
  it meets no mishap.

  Key definitions include:
    * `LamLang.Number.Moderate`
    * `LamLang.Failure.Contained`
    * `LamLang.Call.Moderate`

  Main statements:
    * `LamLang.Binary64.nearestRank_lt`
    * `LamLang.Primitive.apply_contained`
    * `LamLang.Call.Moderate.gives_contained`
    * `LamLang.eval_contained`
-/

------------------------------------------------------------
-- Rounding Within The Range
------------------------------------------------------------

namespace LamLang

/- The least power of two that is not moderate. -/
def Number.moderateBound : Nat := Nat.pow 2 1023

namespace Binary64

/- The bound, counted in the least unit. -/
theorem moderateBound_mul_unitsPerOne :
    Number.moderateBound * unitsPerOne = 2 ^ 2097 := by
  decide +kernel

theorem roundDiv_le
    (a b : Nat) :
    roundDiv a b ≤ a / b + 1 := by
  unfold roundDiv
  split_ifs <;> omega

/- A magnitude below the bound has a finite rank. -/
theorem nearestRank_lt
    {n d : Nat}
    (hPos : 0 < d)
    (hBelow : n < Number.moderateBound * d) :
    nearestRank n d < rankCount := by
  have hUnits : n * unitsPerOne / d < 2 ^ 2097 := by
    apply (Nat.div_lt_iff_lt_mul hPos).mpr
    calc
      n * unitsPerOne
        < Number.moderateBound * d * unitsPerOne :=
          Nat.mul_lt_mul_of_pos_right hBelow unitsPerOne_pos
      _ = Number.moderateBound * unitsPerOne * d :=
          Nat.mul_right_comm _ _ _
      _ = 2 ^ 2097 * d := by
          rw [moderateBound_mul_unitsPerOne]
  -- The step is one of the binades below the last.
  generalize hStep :
    (n * unitsPerOne / d).log2 - 52 = step
  have hLast : step ≤ 2044 := by
    by_cases hZero : n * unitsPerOne / d = 0
    · rw [hZero, Nat.log2_zero] at hStep
      omega
    · have hLog := (Nat.log2_lt hZero).mpr hUnits
      omega
  have hOffset :
      n * unitsPerOne / (d * 2 ^ step) < 2 ^ 53 := by
    have hSelf :=
      Nat.lt_log2_self (n := n * unitsPerOne / d)
    rw [← Nat.div_div_eq_div_mul,
      Nat.div_lt_iff_lt_mul (Nat.two_pow_pos step),
      ← Nat.pow_add]
    exact
      hSelf.trans_le
        (Nat.pow_le_pow_right (by decide) (by omega))
  have hRound :=
    roundDiv_le (n * unitsPerOne) (d * 2 ^ step)
  have hSteps : step * binade ≤ 2044 * binade :=
    Nat.mul_le_mul_right binade hLast
  have hBinade : binade = 2 ^ 52 := rfl
  rw [nearestRank_of_step hStep, rankCount]
  omega

theorem isInfinite_ofMagnitude
    {q : Rat}
    (hBelow : q.num.natAbs < Number.moderateBound * q.den)
    (negative : Bool) :
    (ofMagnitude negative q).isInfinite = false := by
  have hRank := nearestRank_lt q.den_pos hBelow
  unfold ofMagnitude
  dsimp only
  rw [dif_pos hRank]
  rfl

theorem exists_ofInt?
    {n : Int}
    (hModerate : n.natAbs < Number.moderateBound) :
    ∃ x, ofInt? n = some x := by
  have hFinite :
      (ofMagnitude (decide (n < 0)) n).isInfinite = false := by
    apply isInfinite_ofMagnitude
    simpa using hModerate
  simp [ofInt?, hFinite]

/- A quotient is no larger than its dividend. -/
theorem exists_ofQuotient?
    {m n : Int}
    (hModerate : m.natAbs < Number.moderateBound)
    (hNonzero : n ≠ 0) :
    ∃ x, ofQuotient? m n = some x := by
  have hDivides : ((m : Rat) / n).num ∣ m := by
    rw [← Rat.divInt_eq_div]
    exact Rat.num_dvd m hNonzero
  have hNum : ((m : Rat) / n).num.natAbs ≤ m.natAbs := by
    by_cases hZero : m = 0
    · simp [hZero]
    · exact
        Nat.le_of_dvd (Int.natAbs_pos.mpr hZero)
          (Int.natAbs_dvd_natAbs.mpr hDivides)
  have hFinite (negative : Bool) :
      (ofMagnitude negative (m / n)).isInfinite = false := by
    apply isInfinite_ofMagnitude
    exact
      (hNum.trans_lt hModerate).trans_le
        (Nat.le_mul_of_pos_right _ (Rat.den_pos _))
  simp [ofQuotient?, hFinite]

end Binary64

end LamLang

------------------------------------------------------------
-- Moderate Operands
------------------------------------------------------------

namespace LamLang

/- The failures that are no mishaps. -/
def Failure.Contained
    (failure : Failure) : Prop :=
  ∀ event, failure ≠ .mishap event

theorem Failure.contained_cause
    (cause : Cause) :
    (Failure.cause cause).Contained := by
  intro event hEq
  cases hEq

theorem Failure.contained_depthExceeded :
    Failure.depthExceeded.Contained := by
  intro event hEq
  cases hEq

namespace Number

theorem moderateBound_le_textBound :
    moderateBound ≤ textBound := by
  decide +kernel

/- The integers below the bound, and all other numbers. -/
def Moderate : Number → Prop
| .int n => n.natAbs < moderateBound
| .real _ => True

namespace Moderate

variable {a b : Number}

theorem exists_toReal
    (hModerate : a.Moderate) :
    ∃ x, a.toReal = .ok x := by
  cases a with
  | real x => exact ⟨x, rfl⟩
  | int n =>
      rcases Binary64.exists_ofInt? hModerate with ⟨x, hx⟩
      exact ⟨x, by rw [toReal, hx, rounded]⟩

theorem exists_text
    (hModerate : a.Moderate) :
    ∃ s, a.text = .ok s := by
  cases a with
  | real x => exact ⟨_, rfl⟩
  | int n =>
      have hShort : n.natAbs < textBound :=
        hModerate.trans_le moderateBound_le_textBound
      exact ⟨intText n, by rw [text, if_pos hShort]⟩

/- An operation has a result if both of its parts do. -/
theorem exists_arith
    {onInts : Int → Int → Except Failure Number}
    {onReals :
      Binary64 → Binary64 → Except Failure Binary64}
    (hLeft : a.Moderate)
    (hRight : b.Moderate)
    (hInts :
      ∀ m n, a = .int m → b = .int n →
        ∃ c, onInts m n = .ok c)
    (hReals :
      ∀ x y, b.toReal = .ok y → ∃ z, onReals x y = .ok z) :
    ∃ c, arith onInts onReals a b = .ok c := by
  rcases hLeft.exists_toReal with ⟨x, hx⟩
  rcases hRight.exists_toReal with ⟨y, hy⟩
  rcases hReals x y hy with ⟨z, hz⟩
  have hCombined : combine onReals a b = .ok (.real z) := by
    rw [combine, hx, hy]
    simp only [ok_bind, hz]
    rfl
  unfold arith
  split
  · rename_i m n
    exact hInts m n rfl rfl
  · exact ⟨_, hCombined⟩

theorem exists_div
    (hLeft : a.Moderate)
    (hRight : b.Moderate)
    (hNonzero : b.isZero = false) :
    ∃ c, a.div b = .ok c := by
  apply exists_arith hLeft hRight
  · rintro m n rfl rfl
    have hInt := ne_zero_of_isZero hNonzero
    rcases Binary64.exists_ofQuotient? hLeft hInt with
      ⟨x, hx⟩
    exact ⟨.real x, by rw [if_neg hInt, hx]; rfl⟩
  · intro x y hy
    rw [toReal_isZero hNonzero hy]
    exact ⟨_, rfl⟩

end Moderate

end Number

/- The values other than integers beyond the bound. -/
def Value.Moderate
    (value : Value Empty) : Prop :=
  ∀ n, value = .num n → n.Moderate

theorem Value.Moderate.written_contained
    {value : Value Empty}
    (hModerate : value.Moderate) :
    FailsOnly Failure.Contained value.written := by
  cases value with
  | num n => exact .of_exists (hModerate n rfl).exists_text
  | bool b => cases b <;> exact .ok _
  | foreign object => exact nomatch object
  | _ => exact .ok _

namespace Primitive

/- An operator gives no mishap on moderate arguments. -/
theorem apply_contained
    (name : String)
    {args : List (Value Empty)}
    (hArgs : ∀ arg ∈ args, arg.Moderate) :
    FailsOnly Failure.Contained (apply name args) := by
  have hCause
      (cause : Cause)
      (_ : Blamed name cause) :=
    Failure.contained_cause cause
  apply apply_failsOnly_of_args hCause
  · intro hUnknown
    exact Failure.contained_cause _
  · intro arg hArg
    exact (hArgs arg hArg).written_contained
  · rintro op a b rfl ha hb
    have hLeft : a.Moderate := hArgs _ ha a rfl
    have hRight : b.Moderate := hArgs _ hb b rfl
    apply compute_failsOnly hCause
    · exact .of_exists hLeft.exists_text
    · intro onInts onReals
      apply FailsOnly.of_exists
      exact
        hLeft.exists_arith hRight (fun _ _ _ _ => ⟨_, rfl⟩)
          (fun _ _ _ => ⟨_, rfl⟩)
    · intro hNonzero
      exact .of_exists (hLeft.exists_div hRight hNonzero)

end Primitive

end LamLang

------------------------------------------------------------
-- Moderate Evaluations
------------------------------------------------------------

namespace LamLang

namespace Call

/- All values that an evaluation comes to are moderate. -/
def Moderate
    (call : Call Empty) : Prop :=
  ∀ next value,
    Relation.ReflTransGen Makes call next →
      next.outcome = .ok value → value.Moderate

/- It is enough to look at the value and the calls made. -/
theorem moderate_of_makes
    {call : Call Empty}
    (hValue :
      ∀ value, call.outcome = .ok value → value.Moderate)
    (hMakes : ∀ next, call.Makes next → next.Moderate) :
    call.Moderate := by
  intro last value hReach hOutcome
  rcases hReach.cases_head with rfl | ⟨next, hNext, hRest⟩
  · exact hValue value hOutcome
  · exact hMakes next hNext last value hRest hOutcome

namespace Moderate

variable {call : Call Empty}

theorem value
    (hCall : call.Moderate)
    {value : Value Empty}
    (hValue : call.outcome = .ok value) :
    value.Moderate :=
  hCall call value .refl hValue

theorem makes
    (hCall : call.Moderate)
    {next : Call Empty}
    (hMakes : call.Makes next) :
    next.Moderate := by
  intro last value hReach
  exact hCall last value (.head hMakes hReach)

theorem reaches
    (hCall : call.Moderate)
    {last : Call Empty}
    (hReach : Relation.ReflTransGen Makes call last) :
    last.Moderate := by
  intro next value hNext
  exact hCall next value (hReach.trans hNext)

theorem arguments
    {depth : Nat}
    {fn : Expr Empty}
    {args : List (Expr Empty)}
    {env : Env Empty}
    {callee : Value Empty}
    {values : List (Value Empty)}
    (hCall : Moderate ⟨depth + 1, .app fn args, env⟩)
    (hFn : eval depth fn env = .ok callee)
    (hArgs :
      args.mapM (fun arg => eval depth arg env) =
        .ok values) :
    ∀ value ∈ values, value.Moderate := by
  intro value hMem
  rcases mapM_ok_mem hArgs hMem with
    ⟨arg, ⟨before, after, earlier, rfl, hBefore⟩, hArg⟩
  exact (hCall.makes (.inl ⟨_, .arg hFn hBefore⟩)).value hArg

/- What a call gives by itself is no mishap then. -/
theorem gives_contained
    (hCall : call.Moderate)
    {outcome : Except Failure (Value Empty)}
    (hGives : call.Gives outcome) :
    FailsOnly Failure.Contained outcome := by
  cases hGives with
  | exceeded =>
      apply FailsOnly.error
      intro event hEq
      cases hEq
  | num => exact .ok _
  | text => exact .ok _
  | lam => exact .ok _
  | foreign =>
      rename_i object _
      exact nomatch object
  | ident =>
      unfold Env.lookup
      split
      · exact .ok _
      · exact .error (Failure.contained_cause _)
  | unchosen hTest hChoice =>
      have hValue :=
        (hCall.makes (.inl ⟨0, .test⟩)).value hTest
      have hWritten := hValue.written_contained
      apply FailsOnly.error
      refine choose_failsOnly ?_ hWritten _ _ _ hChoice
      intro text
      exact Failure.contained_cause _
  | operator hFn hArgs =>
      apply Primitive.apply_contained
      exact hCall.arguments hFn hArgs
  | unextended hFn hArgs hExtend =>
      apply FailsOnly.error
      rcases Env.extend_eq_error_iff.mp hExtend with ⟨-, rfl⟩
      exact Failure.contained_cause _
  | uncallable hFn hArgs hPrim hClosure =>
      have hCallee :=
        (hCall.makes (.inl ⟨0, .fn⟩)).value hFn
      refine
        Value.refused_failsOnly ?_ hCallee.written_contained
      intro text
      exact Failure.contained_cause _

end Moderate

end Call

/- An evaluation among moderate values meets no mishap. -/
theorem eval_contained
    {depth : Nat}
    {node : Expr Empty}
    {env : Env Empty}
    (hCall : Call.Moderate ⟨depth, node, env⟩) :
    FailsOnly Failure.Contained (eval depth node env) := by
  rcases Call.reaches_gives ⟨depth, node, env⟩ with
    ⟨last, hReach, hGives⟩
  exact (hCall.reaches hReach).gives_contained hGives

end LamLang
