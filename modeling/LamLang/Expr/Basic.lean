import LamLang.Number.Basic

/-
  Expressions of the language.

  Key definitions include:
    * `LamLang.Expr`

  A type of foreign leaves stands beside the six forms, for
  objects that a caller puts where an expression belongs.
  Programs have none: their foreign type is `Empty`.
-/

------------------------------------------------------------
-- Expressions
------------------------------------------------------------

namespace LamLang

/- An expression whose foreign leaves have type `α`. -/
inductive Expr (α : Type) where
| num (n : Number)
| text (s : String)
| ident (name : String)
| cond (test yes no : Expr α)
| lam (params : List String) (body : Expr α)
| app (fn : Expr α) (args : List (Expr α))
| foreign (object : α)

/- An expression without foreign leaves. -/
abbrev Program := Expr Empty

end LamLang
