import LamLang.Proofs.Failures
import Mathlib.Algebra.Order.Ring.Unbundled.Rat
import Mathlib.Order.WithBot

/-
  The two comparisons of the language.

  Numbers are compared by their exact values, whether they
  are integers or floating point, on the rational line with
  its two ends.  That line is a linear order, and all laws
  of the comparisons are laws of it.  A NaN stands nowhere
  on the line, so no comparison with it comes out true.

  Key definitions include:
    * `LamLang.Extent.toLine`
    * `LamLang.Number.value?`
    * `LamLang.Value.Same`
    * `LamLang.Value.Comparable`
    * `LamLang.Value.Variant`

  Main statements:
    * `LamLang.Number.le_iff_value?`
    * `LamLang.Number.equal_iff_le_le`
    * `LamLang.Value.equal_iff_same`
    * `LamLang.comparisons_coherent`
-/

------------------------------------------------------------
-- The Extended Line
------------------------------------------------------------

namespace LamLang

namespace Extent

/- The rationals with a least and a greatest element. -/
def toLine : Extent → WithBot (WithTop ℚ)
| .bottom => ⊥
| .finite q => ((q : WithTop ℚ) : WithBot (WithTop ℚ))
| .top => ((⊤ : WithTop ℚ) : WithBot (WithTop ℚ))

theorem toLine_injective : Function.Injective toLine := by
  intro p q hSame
  cases p <;> cases q <;> simp_all [toLine]

/- The comparison of extents is the order of the line. -/
theorem le_iff_toLine
    (p q : Extent) :
    p.le q = true ↔ p.toLine ≤ q.toLine := by
  cases p <;> cases q <;> simp [le, toLine]

end Extent

end LamLang

------------------------------------------------------------
-- Numbers
------------------------------------------------------------

namespace LamLang

namespace Number

/- The exact value of a number, unless it is a NaN. -/
def value?
    (a : Number) :
    Option (WithBot (WithTop ℚ)) :=
  a.extent?.map Extent.toLine

theorem value?_eq_none_iff
    (a : Number) :
    a.value? = none ↔ a = .real .nan := by
  rcases a with n | x
  · simp [value?, extent?]
  · rcases x with _ | negative | ⟨negative, rank⟩
    · simp [value?, extent?]
    · cases negative <;> simp [value?, extent?]
    · simp [value?, extent?]

theorem exists_value?
    {a : Number}
    (hNumber : a ≠ .real .nan) :
    ∃ p, a.value? = some p := by
  rw [← Option.ne_none_iff_exists']
  exact fun hNone => hNumber (a.value?_eq_none_iff.mp hNone)

/- Numbers are ordered by their exact values. -/
theorem le_iff_value?
    (a b : Number) :
    a.le b = true ↔
      ∃ p q, a.value? = some p ∧ b.value? = some q ∧
        p ≤ q := by
  unfold le value?
  cases a.extent? <;> cases b.extent? <;>
    simp [Extent.le_iff_toLine]

/- Numbers are equal if they have the same exact value. -/
theorem equal_iff_value?
    (a b : Number) :
    a.equal b = true ↔
      ∃ p, a.value? = some p ∧ b.value? = some p := by
  unfold equal value?
  cases a.extent? <;> cases b.extent? <;>
    simp [Extent.toLine_injective.eq_iff, eq_comm]

variable {a b c : Number}

theorem le_trans
    (hFirst : a.le b = true)
    (hSecond : b.le c = true) :
    a.le c = true := by
  rw [le_iff_value?] at hFirst hSecond ⊢
  rcases hFirst with ⟨p, q, ha, hb, hpq⟩
  rcases hSecond with ⟨q', r, hb', hc, hqr⟩
  cases hb.symm.trans hb'
  exact ⟨p, r, ha, hc, hpq.trans hqr⟩

theorem le_total
    (ha : a ≠ .real .nan)
    (hb : b ≠ .real .nan) :
    a.le b = true ∨ b.le a = true := by
  rcases exists_value? ha with ⟨p, hp⟩
  rcases exists_value? hb with ⟨q, hq⟩
  rw [le_iff_value?, le_iff_value?]
  rcases LinearOrder.le_total p q with hpq | hqp
  · exact .inl ⟨p, q, hp, hq, hpq⟩
  · exact .inr ⟨q, p, hq, hp, hqp⟩

/- Equality is what the order leaves undecided. -/
theorem equal_iff_le_le :
    a.equal b = true ↔ a.le b = true ∧ b.le a = true := by
  rw [equal_iff_value?, le_iff_value?, le_iff_value?]
  constructor
  · rintro ⟨p, ha, hb⟩
    exact ⟨⟨p, p, ha, hb, le_rfl⟩, p, p, hb, ha, le_rfl⟩
  · rintro ⟨⟨p, q, ha, hb, hpq⟩, q', p', hb', ha', hqp⟩
    cases ha.symm.trans ha'
    cases hb.symm.trans hb'
    cases hpq.antisymm hqp
    exact ⟨p, ha, hb⟩

theorem le_eq_false_of_nan
    (hNan : a = .real .nan ∨ b = .real .nan) :
    a.le b = false := by
  rw [← Bool.not_eq_true, le_iff_value?]
  rintro ⟨p, q, ha, hb, -⟩
  rcases hNan with rfl | rfl
  · cases ha
  · cases hb

end Number

end LamLang

------------------------------------------------------------
-- Values
------------------------------------------------------------

namespace LamLang

namespace Value

variable {α : Type}

/-
  Two values are the same if they are numbers of one exact
  value, one text, or one truth value.
-/
inductive Same : Value α → Value α → Prop
| num
    {a b : Number}
    {p : WithBot (WithTop ℚ)}
    (hLeft : a.value? = some p)
    (hRight : b.value? = some p) :
    Same (.num a) (.num b)
| text (s : String) : Same (.text s) (.text s)
| bool (b : Bool) : Same (.bool b) (.bool b)

namespace Same

variable {a b c : Value α}

theorem symm
    (hSame : Same a b) :
    Same b a := by
  cases hSame with
  | num hLeft hRight => exact .num hRight hLeft
  | text s => exact .text s
  | bool b => exact .bool b

theorem trans
    (hFirst : Same a b)
    (hSecond : Same b c) :
    Same a c := by
  cases hFirst with
  | num hLeft hMiddle =>
      cases hSecond with
      | num hMiddle' hRight =>
          cases hMiddle.symm.trans hMiddle'
          exact .num hLeft hRight
  | text s => exact hSecond
  | bool b => exact hSecond

end Same

/- The test for equality decides sameness. -/
theorem equal_iff_same
    (a b : Value α) :
    a.equal b = true ↔ Same a b := by
  constructor
  · intro hEqual
    unfold equal at hEqual
    split at hEqual
    · rcases (Number.equal_iff_value? _ _).mp hEqual with
        ⟨p, ha, hb⟩
      exact .num ha hb
    · cases beq_iff_eq.mp hEqual
      exact .text _
    · cases beq_iff_eq.mp hEqual
      exact .bool _
    · cases hEqual
  · intro hSame
    cases hSame with
    | num hLeft hRight =>
        exact
          (Number.equal_iff_value? _ _).mpr
            ⟨_, hLeft, hRight⟩
    | text s => simp [equal]
    | bool b => simp [equal]

/- Numbers but NaN, texts and truth values. -/
def Comparable : Value α → Prop
| .num n => n ≠ .real .nan
| .bool _ => True
| .text _ => True
| .prim _ => False
| .closure _ _ _ => False
| .foreign _ => False

theorem same_self_iff
    (a : Value α) :
    Same a a ↔ a.Comparable := by
  constructor
  · intro hSame
    cases hSame with
    | num hLeft hRight =>
        rintro rfl
        cases hLeft
    | text s => trivial
    | bool b => trivial
  · intro hComparable
    cases a with
    | num n =>
        rcases Number.exists_value? hComparable with ⟨p, hp⟩
        exact .num hp hp
    | bool b => exact .bool b
    | text s => exact .text s
    | prim op => exact hComparable.elim
    | closure params body env => exact hComparable.elim
    | foreign object => exact hComparable.elim

/- The variants of values. -/
inductive Variant where
| num
| bool
| text
| prim
| closure
| foreign
deriving DecidableEq, Repr

/- The variant of a value. -/
def variant : Value α → Variant
| .num _ => .num
| .bool _ => .bool
| .text _ => .text
| .prim _ => .prim
| .closure _ _ _ => .closure
| .foreign _ => .foreign

/- Whether the values of a variant can be called. -/
def Variant.isFunction : Variant → Bool
| .prim => true
| .closure => true
| _ => false

theorem Same.variant_eq
    {a b : Value α}
    (hSame : Same a b) :
    a.variant = b.variant ∧
      a.variant.isFunction = false := by
  cases hSame <;> exact ⟨rfl, rfl⟩

end Value

end LamLang

------------------------------------------------------------
-- Comparisons
------------------------------------------------------------

namespace LamLang

variable {α : Type} [Describe α]

namespace Primitive

theorem apply_equal
    (left right : Value α) :
    apply "equal?" [left, right] =
      .ok (.bool (left.equal right)) :=
  apply_name .equal left right

theorem apply_le
    (a b : Number) :
    apply "<=" [.num a, .num b] =
      .ok (.bool (a.le b) : Value α) :=
  apply_name .le (.num a) (.num b)

/- A comparison of two values comes out true. -/
def Affirms
    (name : String)
    (left right : Value α) : Prop :=
  apply name [left, right] = .ok (.bool true)

theorem affirms_equal_iff
    (left right : Value α) :
    Affirms "equal?" left right ↔ left.Same right := by
  rw [Affirms, apply_equal, ← Value.equal_iff_same]
  simp

theorem affirms_le_iff
    (a b : Number) :
    Affirms "<=" (.num a : Value α) (.num b) ↔
      a.le b = true := by
  rw [Affirms, apply_le]
  simp

end Primitive

open Primitive (Affirms)

/-
  Equality never fails, and is a partial equivalence on the
  comparable values.  On numbers the other comparison is the
  order of their exact values, which is linear but for NaN,
  and equality is its symmetric part.
-/
theorem comparisons_coherent
    (a b c : Value α)
    (x y z : Number) :
    ((∃ answer,
        Primitive.apply "equal?" [a, b] =
          .ok (.bool answer)) ∧
      (Affirms "equal?" a b ↔ a.Same b) ∧
      (Affirms "equal?" a b → Affirms "equal?" b a) ∧
      (Affirms "equal?" a b → Affirms "equal?" b c →
        Affirms "equal?" a c) ∧
      (Affirms "equal?" a a ↔ a.Comparable) ∧
      (a.variant ≠ b.variant ∨
          a.variant.isFunction = true ∨
          b.variant.isFunction = true →
        Primitive.apply "equal?" [a, b] =
          .ok (.bool false))) ∧
    (∃ answer,
        Primitive.apply "<=" [.num x, .num y] =
          .ok (.bool answer : Value α)) ∧
      (Affirms "<=" (.num x : Value α) (.num y) →
        Affirms "<=" (.num y : Value α) (.num z) →
        Affirms "<=" (.num x : Value α) (.num z)) ∧
      (x ≠ .real .nan → y ≠ .real .nan →
        Affirms "<=" (.num x : Value α) (.num y) ∨
          Affirms "<=" (.num y : Value α) (.num x)) ∧
      (x = .real .nan ∨ y = .real .nan →
        Primitive.apply "<=" [.num x, .num y] =
          .ok (.bool false : Value α)) ∧
      (Affirms "equal?" (.num x : Value α) (.num y) ↔
        Affirms "<=" (.num x : Value α) (.num y) ∧
          Affirms "<=" (.num y : Value α) (.num x)) ∧
      (Affirms "<=" (.num x : Value α) (.num y) ↔
        ∃ p q, x.value? = some p ∧ y.value? = some q ∧
          p ≤ q) := by
  simp only [Primitive.affirms_equal_iff,
    Primitive.affirms_le_iff]
  refine
    ⟨⟨⟨_, Primitive.apply_equal a b⟩, trivial,
      Value.Same.symm, Value.Same.trans, a.same_self_iff, ?_⟩,
      ⟨_, Primitive.apply_le x y⟩, Number.le_trans,
      Number.le_total, ?_, ?_, x.le_iff_value? y⟩
  · intro hApart
    have hDiffer : a.equal b = false := by
      rw [← Bool.not_eq_true, Value.equal_iff_same]
      intro hSame
      rcases hSame.variant_eq with ⟨hVariant, hLeft⟩
      have hRight := hSame.symm.variant_eq.2
      simp [hVariant, hRight] at hApart
    rw [Primitive.apply_equal, hDiffer]
  · intro hNan
    rw [Primitive.apply_le, Number.le_eq_false_of_nan hNan]
  · rw [← Value.equal_iff_same]
    exact Number.equal_iff_le_le

/- The least integer that floating point leaves out. -/
def Number.leftOut : Number := .int (2 ^ 53 + 1)

/- The number just below it, in floating point. -/
def Number.belowLeftOut : Number :=
  .real (.finite false ⟨1076 * Binary64.binade, by decide⟩)

/- Positive infinity. -/
def Number.infinity : Number := .real (.infinite false)

theorem comparisons_coherent_mixed :
    (Affirms "equal?" (.num (.real (.zero true)) : Value Empty)
        (.num (.int 0)) ∧
      Affirms "equal?" (.num (.int 0) : Value Empty)
        (.num (.real (.zero false))) ∧
      Affirms "equal?" (.num (.real (.zero true)) : Value Empty)
        (.num (.real (.zero false)))) ∧
    (Affirms "<=" (.num .belowLeftOut : Value Empty)
        (.num .leftOut) ∧
      ¬ Affirms "<=" (.num .leftOut : Value Empty)
        (.num .belowLeftOut) ∧
      Affirms "<=" (.num .leftOut : Value Empty)
        (.num .infinity) ∧
      Affirms "<=" (.num .belowLeftOut : Value Empty)
        (.num .infinity)) ∧
    Primitive.apply "equal?" [.num (.int 0), .text "0"] =
      .ok (.bool false : Value Empty) ∧
    Primitive.apply "<=" [.num .leftOut, .num (.real .nan)] =
      .ok (.bool false : Value Empty) := by
  have hNegative :
      Affirms "equal?" (.num (.real (.zero true)) : Value Empty)
        (.num (.int 0)) := by
    rw [Primitive.affirms_equal_iff, ← Value.equal_iff_same]
    decide +kernel
  have hPositive :
      Affirms "equal?" (.num (.int 0) : Value Empty)
        (.num (.real (.zero false))) := by
    rw [Primitive.affirms_equal_iff, ← Value.equal_iff_same]
    decide +kernel
  have hBelow :
      Affirms "<=" (.num .belowLeftOut : Value Empty)
        (.num .leftOut) := by
    rw [Primitive.affirms_le_iff]
    decide +kernel
  have hNotAbove :
      ¬ Affirms "<=" (.num .leftOut : Value Empty)
        (.num .belowLeftOut) := by
    rw [Primitive.affirms_le_iff]
    decide +kernel
  have hFinite :
      Affirms "<=" (.num .leftOut : Value Empty)
        (.num .infinity) := by
    rw [Primitive.affirms_le_iff]
    decide +kernel
  rcases
    comparisons_coherent (.num (.real (.zero true)))
      (.num (.int 0))
      (.num (.real (.zero false)) : Value Empty)
      .belowLeftOut .leftOut .infinity with
    ⟨⟨-, -, -, hTrans, -, -⟩, -, hThrough, -⟩
  rcases
    comparisons_coherent (.num (.int 0)) (.text "0")
      (.num (.int 0) : Value Empty) .leftOut
      (.real .nan) .infinity with
    ⟨⟨-, -, -, -, -, hApart⟩, -, -, -, hNan, -⟩
  exact
    ⟨⟨hNegative, hPositive, hTrans hNegative hPositive⟩,
      ⟨hBelow, hNotAbove, hFinite,
        hThrough hBelow hFinite⟩,
      hApart (.inl (by decide)), hNan (.inr rfl)⟩

end LamLang
