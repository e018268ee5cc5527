import LamLang.Expr.Basic

/-
  Values and environments.

  Key definitions include:
    * `LamLang.Value`
    * `LamLang.Env`
    * `LamLang.Env.lookup`
    * `LamLang.Env.extend`
    * `LamLang.Env.ahead`
    * `LamLang.Env.ofBindings`
    * `LamLang.Env.top`

  An environment is a list of bindings, innermost first.  A
  closure keeps the environment in which it was made.
-/

------------------------------------------------------------
-- Values
------------------------------------------------------------

namespace LamLang

/- What an expression evaluates to. -/
inductive Value (α : Type) where
| num (n : Number)
| bool (b : Bool)
| text (s : String)
| prim (op : String)
| closure
    (params : List String)
    (body : Expr α)
    (env : List (String × Value α))
| foreign (object : α)

/- Bindings of names to values, innermost first. -/
abbrev Env (α : Type) := List (String × Value α)

end LamLang

------------------------------------------------------------
-- Environments
------------------------------------------------------------

namespace LamLang

namespace Env

variable {α : Type}

/- The names bound, innermost first. -/
def names
    (env : Env α) :
    List String :=
  env.map Prod.fst

/- The value of the innermost binding of a name. -/
def find?
    (name : String) :
    Env α → Option (Value α)
| [] => none
| (bound, value) :: rest =>
    if bound = name then some value else find? name rest

/- The value of a name that must be bound. -/
def lookup
    (env : Env α)
    (name : String) :
    Except Failure (Value α) :=
  match env.find? name with
  | some value => .ok value
  | none => .error (.cause (.unbound name))

/- Put bindings in front of an environment, one by one. -/
def bindAll
    (env : Env α)
    (bindings : List (String × Value α)) :
    Env α :=
  bindings.foldl (fun inner binding => binding :: inner) env

/-
  Bind names to values in front of an environment, from the
  last on, so that of a repeated name the first binding is
  the innermost.
-/
def extend
    (env : Env α)
    (names : List String)
    (values : List (Value α)) :
    Except Failure (Env α) :=
  if names.length = values.length then
    .ok (env.bindAll (names.reverse.zip values.reverse))
  else
    .error
      (.cause (.wrongArity names.length values.length))

/-
  How many bindings stand in front of an environment that
  was extended.  The rest of the bindings is shared.
-/
def ahead
    (inner env : Env α) :
    Nat :=
  inner.length - env.length

/-
  The environment that is searched in the order of these
  bindings.  The last of them is put there first.
-/
def ofBindings
    (bindings : List (String × Value α)) :
    Env α :=
  bindAll [] bindings.reverse

/- The bindings that every program starts with. -/
def top : Env α :=
  [("true", .bool true),
   ("false", .bool false),
   ("+", .prim "+"),
   ("-", .prim "-"),
   ("*", .prim "*"),
   ("/", .prim "/"),
   ("<=", .prim "<="),
   ("equal?", .prim "equal?")]

/- The binding that is put in front last stands first. -/
theorem bindAll_eq
    (env : Env α)
    (bindings : List (String × Value α)) :
    env.bindAll bindings = bindings.reverse ++ env := by
  simp [bindAll]

/- The bindings of an extension stand in order. -/
theorem extend_eq
    (env : Env α)
    (names : List String)
    (values : List (Value α)) :
    env.extend names values =
      if names.length = values.length then
        .ok (names.zip values ++ env)
      else
        .error
          (.cause
            (.wrongArity names.length values.length)) := by
  unfold extend
  split
  · rename_i hLength
    have hTurned :
        names.reverse.zip values.reverse =
          (names.zip values).reverse :=
      (List.reverse_zipWith hLength).symm
    rw [bindAll_eq, hTurned, List.reverse_reverse]
  · rfl

/- What an extension binds, and when there is one. -/
theorem extend_eq_ok_iff
    {env inner : Env α}
    {names : List String}
    {values : List (Value α)} :
    env.extend names values = .ok inner ↔
      names.length = values.length ∧
        inner = names.zip values ++ env := by
  rw [extend_eq]
  split <;> simp_all [eq_comm]

/- Why there is no extension. -/
theorem extend_eq_error_iff
    {env : Env α}
    {names : List String}
    {values : List (Value α)}
    {failure : Failure} :
    env.extend names values = .error failure ↔
      names.length ≠ values.length ∧
        failure =
          .cause
            (.wrongArity names.length values.length) := by
  rw [extend_eq]
  split <;> simp_all [eq_comm]

/-
  Behind its own bindings an extension is the environment
  that it extends.
-/
theorem drop_ahead_of_extend
    {env inner : Env α}
    {names : List String}
    {values : List (Value α)}
    (hInner : env.extend names values = .ok inner) :
    inner.ahead env = names.length ∧
      inner.drop (inner.ahead env) = env := by
  rcases extend_eq_ok_iff.mp hInner with ⟨hLength, rfl⟩
  have hAhead :
      ahead (names.zip values ++ env) env =
        (names.zip values).length := by
    simp [ahead]
  rw [hAhead, List.drop_left]
  simp [hLength]

/- A name bound in front hides every later binding. -/
theorem find?_cons_self
    (name : String)
    (value : Value α)
    (env : Env α) :
    find? name ((name, value) :: env) = some value := by
  simp [find?]

end Env

end LamLang
