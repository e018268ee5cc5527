import LamLang.Value.Written

/-
  Primitive operators.

  Key definitions include:
    * `LamLang.Primitive`
    * `LamLang.Primitive.apply`
    * `LamLang.Value.equal`

  Each operator takes exactly two arguments.  All but the
  test for equality want numbers, and look at the left one
  first.
-/

------------------------------------------------------------
-- Operators
------------------------------------------------------------

namespace LamLang

/- The operators of the language. -/
inductive Primitive where
| add
| sub
| mul
| div
| le
| equal
deriving DecidableEq, Repr

namespace Primitive

/- The name that an operator has in programs. -/
def name : Primitive → String
| .add => "+"
| .sub => "-"
| .mul => "*"
| .div => "/"
| .le => "<="
| .equal => "equal?"

/- Every operator. -/
def all : List Primitive :=
  [.add, .sub, .mul, .div, .le, .equal]

/- The operator with a name. -/
def ofName?
    (name : String) :
    Option Primitive :=
  all.find? fun op => op.name == name

/- Every operator is found by its name. -/
theorem ofName?_name
    (op : Primitive) :
    ofName? op.name = some op := by
  cases op <;> decide

end Primitive

end LamLang

------------------------------------------------------------
-- Application
------------------------------------------------------------

namespace LamLang

namespace Value

variable {α : Type}

/- Whether two values of one kind of constant are the same. -/
def equal : Value α → Value α → Bool
| .num a, .num b => a.equal b
| .text a, .text b => a == b
| .bool a, .bool b => a == b
| _, _ => false

end Value

namespace Primitive

variable {α : Type} [Describe α]

/- The number that an operand must be. -/
def operand
    (op : Primitive) :
    Value α → Except Failure Number
| .num n => .ok n
| value => do
    let text ← value.written
    .error (.cause (.operandNotNumber op.name text))

/- The result of an operator on numbers. -/
def compute
    (op : Primitive)
    (a b : Number) :
    Except Failure (Value α) :=
  match op with
  | .add => (a.add b).map .num
  | .sub => (a.sub b).map .num
  | .mul => (a.mul b).map .num
  | .div =>
      if b.isZero then do
        let dividend ← a.text
        .error (.cause (.divideByZero op.name dividend))
      else
        (a.div b).map .num
  | .le => .ok (.bool (a.le b))
  | .equal => .ok (.bool (a.equal b))

/- The result of an operator on two values. -/
def run
    (op : Primitive)
    (left right : Value α) :
    Except Failure (Value α) :=
  if op = .equal then
    .ok (.bool (left.equal right))
  else do
    let a ← op.operand left
    let b ← op.operand right
    op.compute a b

/- Apply the operator with a name to a list of values. -/
def apply
    (name : String)
    (args : List (Value α)) :
    Except Failure (Value α) :=
  match ofName? name with
  | none => .error (.cause (.unknownOperator name))
  | some op =>
      match args with
      | [left, right] => op.run left right
      | _ => .error (.cause (.primitiveArity name args.length))

end Primitive

end LamLang
