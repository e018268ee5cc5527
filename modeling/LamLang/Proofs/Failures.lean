import LamLang.Eval
import Mathlib.Algebra.Group.Nat.Defs
import Mathlib.Logic.IsEmpty.Basic

/-
  Failures of the single steps of evaluation.

  A statement about all failures of a computation is built
  up from its parts.  The kind of failure in question is a
  parameter, so that one set of lemmas says both which
  failures operators have and which they cannot have.

  Key definitions include:
    * `LamLang.FailsOnly`
    * `LamLang.Number.mishaps`
    * `LamLang.Value.Native`
    * `LamLang.Primitive.faultKinds`
    * `LamLang.Primitive.Blamed`

  Main statements:
    * `LamLang.Number.div_failsOnly`
    * `LamLang.choose_failsOnly`
    * `LamLang.Primitive.apply_failsOnly_of_args`
    * `LamLang.Primitive.apply_failsOnly`
-/

------------------------------------------------------------
-- Possible Failures
------------------------------------------------------------

namespace LamLang

variable {β γ : Type}

/- Whenever a computation fails, it is with such a failure. -/
def FailsOnly
    (P : Failure → Prop)
    (x : Except Failure β) : Prop :=
  ∀ failure, x = .error failure → P failure

namespace FailsOnly

variable {P : Failure → Prop} {x : Except Failure β}

theorem ok
    (b : β) :
    FailsOnly P (.ok b) := by
  intro failure h
  cases h

theorem error
    {failure : Failure}
    (h : P failure) :
    FailsOnly P (.error failure : Except Failure β) := by
  rintro _ ⟨⟩
  exact h

theorem of_exists
    (hResult : ∃ b, x = .ok b) :
    FailsOnly P x := by
  rcases hResult with ⟨b, rfl⟩
  exact ok b

/- The second part is only run on what the first gives. -/
theorem bind_of_ok
    {f : β → Except Failure γ}
    (h : FailsOnly P x)
    (hNext : ∀ b, x = .ok b → FailsOnly P (f b)) :
    FailsOnly P (x >>= f) := by
  cases x with
  | error failure => exact error (h failure rfl)
  | ok b => exact hNext b rfl

theorem bind
    {f : β → Except Failure γ}
    (h : FailsOnly P x)
    (hNext : ∀ b, FailsOnly P (f b)) :
    FailsOnly P (x >>= f) :=
  h.bind_of_ok fun b _ => hNext b

theorem map
    {f : β → γ}
    (h : FailsOnly P x) :
    FailsOnly P (x.map f) := by
  cases x with
  | error failure => exact error (h failure rfl)
  | ok b => exact ok (f b)

end FailsOnly

theorem bind_eq_ok
    {ε : Type}
    {x : Except ε β}
    {f : β → Except ε γ}
    {c : γ}
    (h : (x >>= f) = .ok c) :
    ∃ b, x = .ok b ∧ f b = .ok c := by
  cases x with
  | error failure => cases h
  | ok b => exact ⟨b, rfl, h⟩

end LamLang

------------------------------------------------------------
-- Zero Divisors
------------------------------------------------------------

namespace LamLang

namespace Binary64

theorem unitsPerOne_eq : unitsPerOne = 2 ^ 1074 := by
  decide +kernel

/- The rank of an integer is far above the least ranks. -/
theorem nearestRank_pos
    {n : Nat}
    (hPos : 0 < n) :
    0 < nearestRank n 1 := by
  have hUnits : 2 ^ 1074 ≤ n * unitsPerOne := by
    rw [unitsPerOne_eq]
    exact Nat.le_mul_of_pos_left _ hPos
  have hNonzero : n * unitsPerOne ≠ 0 := by
    have hOne := Nat.two_pow_pos 1074
    omega
  have hLog := (Nat.le_log2 hNonzero).mpr hUnits
  have hStep : 0 < (n * unitsPerOne).log2 - 52 := by omega
  have hBinade : 0 < binade := by decide
  rw [nearestRank, Nat.div_one]
  exact Nat.add_pos_left (Nat.mul_pos hStep hBinade) _

theorem isZero_ofMagnitude
    (negative : Bool)
    {q : Rat}
    (hRank : 0 < nearestRank q.num.natAbs q.den) :
    (ofMagnitude negative q).isZero = false := by
  unfold ofMagnitude
  by_cases hFinite :
      nearestRank q.num.natAbs q.den < rankCount
  · rw [dif_pos hFinite]
    simpa [isZero] using Nat.ne_of_gt hRank
  · rw [dif_neg hFinite]
    rfl

/- Only zero is rounded to zero, among the integers. -/
theorem isZero_of_ofInt?
    {n : Int}
    {x : Binary64}
    (hRounded : ofInt? n = some x)
    (hInt : n ≠ 0) :
    x.isZero = false := by
  simp only [ofInt?] at hRounded
  split at hRounded
  · cases hRounded
  · cases hRounded
    apply isZero_ofMagnitude
    exact nearestRank_pos (Int.natAbs_pos.mpr hInt)

end Binary64

namespace Number

/- The zero test of the language sees floating-point zeros. -/
theorem isZero_real
    {x : Binary64}
    (hZero : x.isZero = true) :
    isZero (.real x) = true := by
  cases x with
  | nan => cases hZero
  | infinite negative => cases hZero
  | finite negative rank =>
      have hRank : rank.val = 0 := by
        simpa [Binary64.isZero] using hZero
      have hUnits : Binary64.units 0 = 0 := by decide
      cases negative <;>
        simp [isZero, equal, extent?, hRank,
          Binary64.magnitude, hUnits, Binary64.signed]

theorem ne_zero_of_isZero
    {n : Int}
    (hNonzero : isZero (.int n) = false) :
    n ≠ 0 := by
  rintro rfl
  simp [isZero, equal, extent?] at hNonzero

/- What is not zero is not zero in floating point either. -/
theorem toReal_isZero
    {b : Number}
    {y : Binary64}
    (hNonzero : b.isZero = false)
    (hReal : b.toReal = .ok y) :
    y.isZero = false := by
  cases b with
  | real x =>
      cases hReal
      by_contra hZero
      rw [isZero_real (by simpa using hZero)] at hNonzero
      cases hNonzero
  | int n =>
      have hInt := ne_zero_of_isZero hNonzero
      simp only [toReal] at hReal
      cases hRounded : Binary64.ofInt? n with
      | none =>
          rw [hRounded] at hReal
          cases hReal
      | some x =>
          rw [hRounded] at hReal
          cases hReal
          exact Binary64.isZero_of_ofInt? hRounded hInt

end Number

end LamLang

------------------------------------------------------------
-- Single Steps
------------------------------------------------------------

namespace LamLang

theorem Number.textBound_eq :
    textBound = 10 ^ Mishap.digitLimit := by
  decide +kernel

theorem Number.one_lt_textBound : 1 < textBound := by
  have hLimit : Mishap.digitLimit ≠ 0 := by decide
  rw [textBound_eq]
  exact Nat.one_lt_pow hLimit (by decide)

/- What can go wrong with the size of a number. -/
def Number.mishaps : List Mishap :=
  [.integerTooLarge, .quotientTooLarge, .integerTextTooLong]

variable {β : Type} {P : Failure → Prop}
variable (hMishap : ∀ event ∈ Number.mishaps, P (.mishap event))

include hMishap

namespace Number

/- Arithmetic fails for the size of a number only. -/
theorem rounded_failsOnly
    {event : Mishap}
    (hEvent : event ∈ mishaps)
    (result : Option Binary64) :
    FailsOnly P (rounded event result) := by
  cases result with
  | none => exact .error (hMishap event hEvent)
  | some x => exact .ok x

theorem toReal_failsOnly
    (a : Number) :
    FailsOnly P a.toReal := by
  cases a with
  | real x => exact .ok x
  | int n => exact rounded_failsOnly hMishap (by decide) _

/-
  An operation fails as it does on two integers, or on the
  floating-point numbers that its operands are rounded to.
-/
theorem arith_failsOnly
    {onInts : Int → Int → Except Failure Number}
    {onReals :
      Binary64 → Binary64 → Except Failure Binary64}
    (a b : Number)
    (hInts :
      ∀ m n, b = .int n → FailsOnly P (onInts m n))
    (hReals :
      ∀ x y, b.toReal = .ok y →
        FailsOnly P (onReals x y)) :
    FailsOnly P (arith onInts onReals a b) := by
  unfold arith
  split
  · rename_i m n
    exact hInts m n rfl
  · unfold combine
    apply (toReal_failsOnly hMishap a).bind
    intro x
    cases hReal : b.toReal with
    | error failure =>
        exact .error (toReal_failsOnly hMishap b _ hReal)
    | ok y => exact (hReals x y hReal).map

/- An operation that is total on each kind of number. -/
theorem arith_total_failsOnly
    (onInts : Int → Int → Int)
    (onReals : Binary64 → Binary64 → Binary64)
    (a b : Number) :
    FailsOnly P
      (arith (fun m n => .ok (.int (onInts m n)))
        (fun x y => .ok (onReals x y)) a b) :=
  arith_failsOnly hMishap a b (fun _ _ _ => .ok _)
    (fun _ _ _ => .ok _)

/- A divisor other than zero leaves only size to go wrong. -/
theorem div_failsOnly
    (a : Number)
    {b : Number}
    (hNonzero : b.isZero = false) :
    FailsOnly P (a.div b) := by
  apply arith_failsOnly hMishap a b
  · rintro m n rfl
    have hInt := ne_zero_of_isZero hNonzero
    rw [if_neg hInt]
    exact (rounded_failsOnly hMishap (by decide) _).map
  · intro x y hReal
    rw [toReal_isZero hNonzero hReal]
    exact .ok _

theorem text_failsOnly
    (a : Number) :
    FailsOnly P a.text := by
  cases a with
  | real x => exact .ok _
  | int n =>
      rw [text]
      by_cases hShort : n.natAbs < textBound
      · rw [if_pos hShort]
        exact .ok _
      · rw [if_neg hShort]
        exact .error (hMishap _ (by decide))

end Number

variable {α : Type} [Describe α]

/- A value of the language, and no foreign object. -/
def Value.Native
    (value : Value α) : Prop :=
  ∀ object, value ≠ .foreign object

omit hMishap [Describe α] in
theorem Value.native_of_isEmpty
    [IsEmpty α]
    (value : Value α) :
    value.Native := by
  intro object
  exact isEmptyElim object

/- Without foreign objects only a number is hard to write. -/
theorem Value.written_failsOnly
    {value : Value α}
    (hNative : value.Native) :
    FailsOnly P value.written := by
  cases value with
  | num n => exact Number.text_failsOnly hMishap n
  | bool b => cases b <;> exact .ok _
  | text s => exact .ok _
  | prim op => exact .ok _
  | closure params body env => exact .ok _
  | foreign object => exact absurd rfl (hNative object)

end LamLang

------------------------------------------------------------
-- Refused Values
------------------------------------------------------------

namespace LamLang

variable {α β : Type} [Describe α] {P : Failure → Prop}

/- A fault that names a value fails as writing it does. -/
theorem Value.refused_failsOnly
    {cause : String → Cause}
    (hCause : ∀ text, P (.cause (cause text)))
    {value : Value α}
    (hWritten : FailsOnly P value.written) :
    FailsOnly P
      (value.written >>= fun text =>
        (.error (.cause (cause text)) :
          Except Failure β)) := by
  apply hWritten.bind
  intro text
  exact .error (hCause text)

/- A test fails by not being a truth value. -/
theorem choose_failsOnly
    (hCause :
      ∀ text, P (.cause (.testNotBoolean text)))
    {test : Value α}
    (hWritten : FailsOnly P test.written)
    (yes no : Expr α) :
    FailsOnly P (choose test yes no) := by
  have hRefused :=
    Value.refused_failsOnly (β := Expr α) hCause hWritten
  cases test with
  | bool b => cases b <;> exact .ok _
  | _ => exact hRefused

namespace Primitive

/- The kinds of fault that a known operator can give. -/
def faultKinds : List Fault.Kind :=
  [.arity, .typeMismatch, .divideByZero]

/- The faults of an operator, which name it first. -/
structure Blamed
    (name : String)
    (cause : Cause) :
    Prop where
  kind : cause.kind ∈ faultKinds
  subject : cause.fault.subject = name

theorem apply_name
    (op : Primitive)
    (left right : Value α) :
    apply op.name [left, right] = op.run left right := by
  rw [apply, ofName?_name]

theorem name_of_ofName?
    {name : String}
    {op : Primitive}
    (hName : ofName? name = some op) :
    op.name = name := by
  simpa using List.find?_some hName

theorem eq_num_of_operand
    {op : Primitive}
    {value : Value α}
    {n : Number}
    (hOperand : op.operand value = .ok n) :
    value = .num n := by
  cases value with
  | num m =>
      cases hOperand
      rfl
  | _ =>
      rcases bind_eq_ok hOperand with ⟨text, -, hFailed⟩
      cases hFailed

theorem operand_failsOnly
    {op : Primitive}
    (hCause :
      ∀ cause, Blamed op.name cause → P (.cause cause))
    {value : Value α}
    (hWritten : FailsOnly P value.written) :
    FailsOnly P (op.operand value) := by
  have hBlamed
      (text : String) :
      Blamed op.name (.operandNotNumber op.name text) :=
    ⟨by simp [Cause.kind, faultKinds], rfl⟩
  have hRefused :=
    Value.refused_failsOnly (β := Number)
      (fun text => hCause _ (hBlamed text)) hWritten
  cases value with
  | num n => exact .ok n
  | _ => exact hRefused

/- An operator fails as its arithmetic and its text do. -/
omit [Describe α] in
theorem compute_failsOnly
    {op : Primitive}
    (hCause :
      ∀ cause, Blamed op.name cause → P (.cause cause))
    {a b : Number}
    (hText : FailsOnly P a.text)
    (hTotal :
      ∀ (onInts : Int → Int → Int)
        (onReals : Binary64 → Binary64 → Binary64),
        FailsOnly P
          (Number.arith
            (fun m n => .ok (.int (onInts m n)))
            (fun x y => .ok (onReals x y)) a b))
    (hQuotient :
      b.isZero = false → FailsOnly P (a.div b)) :
    FailsOnly P
      (op.compute a b : Except Failure (Value α)) := by
  cases op with
  | add => exact (hTotal (· + ·) Binary64.add).map
  | sub => exact (hTotal (· - ·) Binary64.sub).map
  | mul => exact (hTotal (· * ·) Binary64.mul).map
  | div =>
      simp only [compute]
      split
      · apply hText.bind
        intro dividend
        apply FailsOnly.error
        apply hCause
        exact ⟨by simp [Cause.kind, faultKinds], rfl⟩
      · rename_i hNonzero
        exact (hQuotient (by simpa using hNonzero)).map
  | le => exact .ok _
  | equal => exact .ok _

variable {name : String}
variable
  (hCause :
    ∀ cause, Blamed name cause → P (.cause cause))

include hCause

/-
  A named operator fails as writing its arguments does, or
  as it does on numbers among them.  What an unknown name
  gives is left to the caller.
-/
theorem apply_failsOnly_of_args
    (hUnknown :
      ofName? name = none →
        P (.cause (.unknownOperator name)))
    {args : List (Value α)}
    (hWritten : ∀ arg ∈ args, FailsOnly P arg.written)
    (hComputed :
      ∀ (op : Primitive) (a b : Number),
        op.name = name →
          .num a ∈ args → .num b ∈ args →
          FailsOnly P
            (op.compute a b :
              Except Failure (Value α))) :
    FailsOnly P (apply name args) := by
  unfold apply
  split
  · rename_i hName
    exact .error (hUnknown hName)
  · rename_i op hName
    have hOp := name_of_ofName? hName
    subst hOp
    split
    · rename_i left right
      have hLeft : left ∈ [left, right] := by simp
      have hRight : right ∈ [left, right] := by simp
      unfold run
      split
      · exact .ok _
      · apply
          (operand_failsOnly hCause
            (hWritten _ hLeft)).bind_of_ok
        intro a ha
        apply
          (operand_failsOnly hCause
            (hWritten _ hRight)).bind_of_ok
        intro b hb
        cases eq_num_of_operand ha
        cases eq_num_of_operand hb
        exact hComputed op a b rfl hLeft hRight
    · apply FailsOnly.error
      apply hCause
      exact ⟨by simp [Cause.kind, faultKinds], rfl⟩

/- Without foreign objects only size is left to go wrong. -/
theorem apply_failsOnly
    (hMishap :
      ∀ event ∈ Number.mishaps, P (.mishap event))
    (hUnknown :
      ofName? name = none →
        P (.cause (.unknownOperator name)))
    {args : List (Value α)}
    (hNative : ∀ arg ∈ args, arg.Native) :
    FailsOnly P (apply name args) := by
  apply apply_failsOnly_of_args hCause hUnknown
  · intro arg hArg
    exact Value.written_failsOnly hMishap (hNative arg hArg)
  · rintro op a b rfl - -
    apply compute_failsOnly hCause
    · exact Number.text_failsOnly hMishap a
    · intro onInts onReals
      exact
        Number.arith_total_failsOnly hMishap onInts onReals
          a b
    · exact Number.div_failsOnly hMishap a

end Primitive

end LamLang
