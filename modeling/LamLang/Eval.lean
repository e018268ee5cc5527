import LamLang.Primitive

/-
  Evaluation of expressions.

  Key definitions include:
    * `LamLang.eval`
    * `LamLang.Value.apply`

  Evaluation is by value and from left to right, and names
  are looked up where a function was made.  A bound on the
  depth of nested evaluations makes it total; running into
  the bound is a failure of its own.
-/

------------------------------------------------------------
-- Application
------------------------------------------------------------

namespace LamLang

namespace Value

variable {α : Type} [Describe α]

/-
  Apply a value to arguments, where `run` evaluates the body
  of a closure.
-/
def applyWith
    (run : Expr α → Env α → Except Failure (Value α))
    (fn : Value α)
    (args : List (Value α)) :
    Except Failure (Value α) :=
  match fn with
  | .prim op => Primitive.apply op args
  | .closure params body env => do
      let inner ← Env.extend env params args
      run body inner
  | value => do
      let text ← value.written
      .error (.cause (.notCallable text))

end Value

end LamLang

------------------------------------------------------------
-- Evaluation
------------------------------------------------------------

namespace LamLang

variable {α : Type} [Describe α]

/- The branch that the value of a test chooses. -/
def choose
    (test : Value α)
    (yes no : Expr α) :
    Except Failure (Expr α) :=
  match test with
  | .bool true => .ok yes
  | .bool false => .ok no
  | value => do
      let text ← value.written
      .error (.cause (.testNotBoolean text))

/-
  The value of an expression in an environment, found with
  at most `depth` nested evaluations.
-/
def eval :
    Nat → Expr α → Env α → Except Failure (Value α)
| 0, _, _ => .error .depthExceeded
| _ + 1, .num n, _ => .ok (.num n)
| _ + 1, .text s, _ => .ok (.text s)
| _ + 1, .ident name, env => env.lookup name
| depth + 1, .cond test yes no, env => do
    let value ← eval depth test env
    let branch ← choose value yes no
    eval depth branch env
| _ + 1, .lam params body, env =>
    .ok (.closure params body env)
| depth + 1, .app fn args, env => do
    let callee ← eval depth fn env
    let values ← args.mapM fun arg => eval depth arg env
    callee.applyWith (eval depth) values
| _ + 1, .foreign object, _ => do
    let description ← Describe.describe object
    .error (.cause (.unknownTerm description))

/- Apply a value to arguments within a bound on depth. -/
def Value.apply
    (depth : Nat)
    (fn : Value α)
    (args : List (Value α)) :
    Except Failure (Value α) :=
  fn.applyWith (eval depth) args

end LamLang
