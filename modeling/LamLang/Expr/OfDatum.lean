import LamLang.Datum.Written

/-
  The expression that a term stands for.

  Key definitions include:
    * `LamLang.Expr.ofDatum`
    * `LamLang.Expr.ofDatumWithin`

  A list is an application unless it starts with one of the
  two keywords.  The keywords are ordinary names elsewhere.

  A bound on depth holds for calls within each other.  A
  term that is refused is written by such a call, too.
-/

------------------------------------------------------------
-- Shapes
------------------------------------------------------------

namespace LamLang

namespace Datum

/- The symbol that starts a conditional. -/
def condKeyword : String := "if"

/- The symbol that starts a function. -/
def lamKeyword : String := "lam"

/- The names of a parameter list. -/
def params?
    (datum : Datum) :
    Option (List String) :=
  match datum.items? with
  | some items => items.mapM symbol?
  | none => none

/- Refuse a term, naming it as it is written. -/
def refuse
    {β : Type}
    (cause : String → Cause)
    (datum : Datum) :
    Except Failure β := do
  let term ← datum.write
  .error (.cause (cause term))

end Datum

end LamLang

------------------------------------------------------------
-- Expressions of Terms
------------------------------------------------------------

namespace LamLang

namespace Expr

variable {α : Type}

mutual

/- The expression that a term stands for. -/
def ofDatum : Datum → Except Failure (Expr α)
| .num n => .ok (.num n)
| .symbol name => .ok (.ident name)
| .text s => .ok (.text s)
| .list items => ofItems items
| .tuple items => ofItems items
| .nothing => Datum.nothing.refuse .unrecognized
| .bool b => (Datum.bool b).refuse .unrecognized
| .expr e => (Datum.expr e).refuse .unrecognized
| .value v => (Datum.value v).refuse .unrecognized
| .scope env => (Datum.scope env).refuse .unrecognized
| .binding name v =>
    (Datum.binding name v).refuse .unrecognized
| .other description numbers =>
    (Datum.other description numbers).refuse .unrecognized

/- The expression of a list with the given items. -/
def ofItems : List Datum → Except Failure (Expr α)
| [] => .error (.cause .emptyApplication)
| head :: rest =>
    if head.symbol? = some Datum.condKeyword then
      match rest with
      | [test, yes, no] => do
          let test ← ofDatum test
          let yes ← ofDatum yes
          let no ← ofDatum no
          return .cond test yes no
      | _ =>
          (Datum.list (head :: rest)).refuse
            .malformedConditional
    else if head.symbol? = some Datum.lamKeyword then
      match rest with
      | [params, body] =>
          match params.params? with
          | some names => do
              let body ← ofDatum body
              return .lam names body
          | none =>
              (Datum.list (head :: rest)).refuse
                .malformedLambda
      | _ =>
          (Datum.list (head :: rest)).refuse
            .malformedLambda
    else do
      let fn ← ofDatum head
      let args ← ofData rest
      return .app fn args

/- The expressions of a list of terms. -/
def ofData : List Datum → Except Failure (List (Expr α))
| [] => .ok []
| item :: items => do
    let first ← ofDatum item
    let rest ← ofData items
    return first :: rest

end

end Expr

end LamLang

------------------------------------------------------------
-- Expressions Within a Bound
------------------------------------------------------------

namespace LamLang

namespace Expr

variable {α : Type}

/-
  The expression of a list that starts with `head`, if its
  parts are turned into expressions by `parse` and `refuse`
  names it in an error.
-/
def ofItemsWith
    (parse : Datum → Except Failure (Expr α))
    (refuse : (String → Cause) → Except Failure (Expr α))
    (head : Datum)
    (rest : List Datum) :
    Except Failure (Expr α) :=
  if head.symbol? = some Datum.condKeyword then
    match rest with
    | [test, yes, no] => do
        let test ← parse test
        let yes ← parse yes
        let no ← parse no
        return .cond test yes no
    | _ => refuse .malformedConditional
  else if head.symbol? = some Datum.lamKeyword then
    match rest with
    | [params, body] =>
        match params.params? with
        | some names => do
            let body ← parse body
            return .lam names body
        | none => refuse .malformedLambda
    | _ => refuse .malformedLambda
  else do
    let fn ← parse head
    let args ← rest.mapM parse
    return .app fn args

/-
  The expression of a term, if its parts are turned into
  expressions by `parse` and `write` writes what is refused.
-/
def ofDatumWith
    (parse : Datum → Except Failure (Expr α))
    (write : Datum → Except Failure String)
    (term : Datum) :
    Except Failure (Expr α) :=
  let refuse (cause : String → Cause) := do
    let text ← write term
    .error (.cause (cause text))
  match term with
  | .num n => .ok (.num n)
  | .symbol name => .ok (.ident name)
  | .text s => .ok (.text s)
  | _ =>
      match term.items? with
      | some (head :: rest) =>
          ofItemsWith parse refuse head rest
      | some [] => refuse fun _ => .emptyApplication
      | none => refuse .unrecognized

/-
  The expression that a term stands for, where no more than
  `depth` calls may be nested.
-/
def ofDatumWithin :
    Nat → Datum → Except Failure (Expr α)
| 0, _ => .error .depthExceeded
| depth + 1, term =>
    ofDatumWith (fun part => ofDatumWithin depth part)
      (Datum.writeWithin depth) term

end Expr

end LamLang
