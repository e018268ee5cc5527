import LamLang.Failure
import LamLang.Binary64.Arith
import LamLang.Decimal.Shortest
import LamLang.Decimal.Layout

/-
  Numbers of the language: integers and floating point.

  Key definitions include:
    * `LamLang.Number`
    * `LamLang.Number.extent?`
    * `LamLang.Number.le`
    * `LamLang.Number.equal`
    * `LamLang.Number.add`
    * `LamLang.Number.text`

  Integers are exact and unbounded.  A mixed operation turns
  its integer into floating point first; a mixed comparison
  compares the exact values.
-/

------------------------------------------------------------
-- Numbers
------------------------------------------------------------

namespace LamLang

/- An integer or a floating-point number. -/
inductive Number where
| int (n : Int)
| real (x : Binary64)
deriving DecidableEq, Repr

end LamLang

------------------------------------------------------------
-- Comparison
------------------------------------------------------------

namespace LamLang

/- The rational line with its two ends. -/
inductive Extent where
| bottom
| finite (q : Rat)
| top
deriving DecidableEq, Repr

namespace Extent

/- The order of the extended line. -/
def le : Extent → Extent → Bool
| .bottom, _ => true
| .finite _, .bottom => false
| .finite p, .finite q => decide (p ≤ q)
| .finite _, .top => true
| .top, .bottom => false
| .top, .finite _ => false
| .top, .top => true

end Extent

namespace Number

/- Where a number stands on the line, unless it is a NaN. -/
def extent? : Number → Option Extent
| .int n => some (.finite n)
| .real .nan => none
| .real (.infinite true) => some .bottom
| .real (.infinite false) => some .top
| .real (.finite negative rank) =>
    some (.finite
      (Binary64.signed negative
        (Binary64.magnitude rank.val)))

/- Whether one number is at most another, by exact value. -/
def le
    (a b : Number) :
    Bool :=
  match a.extent?, b.extent? with
  | some p, some q => p.le q
  | _, _ => false

/- Whether two numbers have the same exact value. -/
def equal
    (a b : Number) :
    Bool :=
  match a.extent?, b.extent? with
  | some p, some q => decide (p = q)
  | _, _ => false

/- Whether a number is zero, with either sign. -/
def isZero
    (a : Number) :
    Bool :=
  a.equal (.int 0)

end Number

end LamLang

------------------------------------------------------------
-- Arithmetic
------------------------------------------------------------

namespace LamLang

namespace Number

/- A rounded result, or the mishap that there is none. -/
def rounded
    (event : Mishap)
    (result : Option Binary64) :
    Except Failure Binary64 :=
  match result with
  | some x => .ok x
  | none => .error (.mishap event)

/- The number in floating point. -/
def toReal : Number → Except Failure Binary64
| .real x => .ok x
| .int n => rounded .integerTooLarge (Binary64.ofInt? n)

/- Combine two numbers in floating point. -/
def combine
    (op : Binary64 → Binary64 → Except Failure Binary64)
    (a b : Number) :
    Except Failure Number := do
  let x ← a.toReal
  let y ← b.toReal
  (op x y).map .real

/-
  An operation given by what it does with two integers and
  in floating point, where it takes all other numbers.
-/
def arith
    (onInts : Int → Int → Except Failure Number)
    (onReals :
      Binary64 → Binary64 → Except Failure Binary64) :
    Number → Number → Except Failure Number
| .int m, .int n => onInts m n
| a, b => combine onReals a b

/- Addition, exact on integers. -/
def add : Number → Number → Except Failure Number :=
  arith (fun m n => .ok (.int (m + n)))
    fun x y => .ok (x.add y)

/- Subtraction, exact on integers. -/
def sub : Number → Number → Except Failure Number :=
  arith (fun m n => .ok (.int (m - n)))
    fun x y => .ok (x.sub y)

/- Multiplication, exact on integers. -/
def mul : Number → Number → Except Failure Number :=
  arith (fun m n => .ok (.int (m * n)))
    fun x y => .ok (x.mul y)

/-
  Division.  A quotient of integers is rounded once, from
  its exact value.  There is no quotient by zero.
-/
def div : Number → Number → Except Failure Number :=
  arith
    (fun m n =>
      if n = 0 then
        .error (.mishap .integerByZero)
      else
        (rounded .quotientTooLarge
          (Binary64.ofQuotient? m n)).map .real)
    fun x y =>
      if y.isZero then
        .error (.mishap .realByZero)
      else
        .ok (x.div y)

end Number

end LamLang

------------------------------------------------------------
-- Written Form
------------------------------------------------------------

namespace LamLang

namespace Number

/-
  Floating point is written positionally from 0.0001 up to
  10^16, and otherwise with an exponent of two digits or
  more.
-/
def layout : Decimal.Layout where
  least := -4
  bound := 16
  width := 2

/- The sign in front of a negative number. -/
def signText
    (negative : Bool) :
    List Char :=
  if negative then ['-'] else []

/- The written form of a floating-point number. -/
def realText : Binary64 → String
| .nan => "nan"
| .infinite negative =>
    String.ofList (signText negative) ++ "inf"
| .finite negative rank =>
    String.ofList
      (signText negative ++
        (if rank.val = 0 then
          layout.write ⟨0, 0⟩
        else
          layout.write (Decimal.shortest rank)))

/- The written form of an integer, however long. -/
def intText
    (n : Int) :
    String :=
  String.ofList
    (signText (decide (n < 0)) ++ Nat.toDigits 10 n.natAbs)

/- The least number with more digits than may be written. -/
def textBound : Nat := Nat.pow 10 Mishap.digitLimit

/- The written form of a number. -/
def text : Number → Except Failure String
| .real x => .ok (realText x)
| .int n =>
    if n.natAbs < textBound then
      .ok (intText n)
    else
      .error (.mishap .integerTextTooLong)

end Number

end LamLang
