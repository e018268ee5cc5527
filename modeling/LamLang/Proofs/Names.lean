import LamLang.Eval
import Mathlib.Data.List.Forall2
import Mathlib.Data.Option.Basic

/-
  Names: where an environment binds them, and where they are
  free in an expression.

  An environment is read through the first position of a
  name among the names it binds.  Free names are computed,
  so that they can be evaluated on given expressions.

  Key definitions include:
    * `LamLang.Expr.free`
    * `LamLang.Expr.freeOfAll`

  Main statements:
    * `LamLang.Env.find?_eq_bind_idxOf?`
    * `LamLang.Env.find?_top_eq_some`
    * `LamLang.Env.find?_zip_append`
    * `LamLang.Env.find?_zip_append_rel`
    * `LamLang.Expr.mem_free_lam`
-/

------------------------------------------------------------
-- Bound Names
------------------------------------------------------------

namespace LamLang

namespace Env

variable {α : Type}

@[simp] theorem names_nil :
    names ([] : Env α) = [] := rfl

@[simp] theorem names_cons
    (name : String)
    (value : Value α)
    (env : Env α) :
    names ((name, value) :: env) = name :: env.names := rfl

/- A frame of bindings puts its names in front. -/
theorem names_zip_append
    (params : List String)
    (values : List (Value α))
    (env : Env α)
    (hLength : params.length = values.length) :
    names (params.zip values ++ env) =
      params ++ env.names := by
  unfold names
  rw [List.map_append,
    List.map_fst_zip (Nat.le_of_eq hLength)]

theorem names_of_extend
    {env inner : Env α}
    {params : List String}
    {values : List (Value α)}
    (hInner : env.extend params values = .ok inner) :
    inner.names = params ++ env.names := by
  rcases extend_eq_ok_iff.mp hInner with ⟨hLength, rfl⟩
  exact names_zip_append params values env hLength

/- What holds of captured values and arguments holds inside. -/
theorem forall_mem_of_extend
    {Q : String × Value α → Prop}
    {env inner : Env α}
    {params : List String}
    {values : List (Value α)}
    (hEnv : ∀ binding ∈ env, Q binding)
    (hValues : ∀ value ∈ values, ∀ name, Q (name, value))
    (hInner : env.extend params values = .ok inner) :
    ∀ binding ∈ inner, Q binding := by
  rcases extend_eq_ok_iff.mp hInner with ⟨-, rfl⟩
  intro binding hMem
  rcases List.mem_append.mp hMem with hFront | hBehind
  · exact hValues _ (List.of_mem_zip hFront).2 binding.1
  · exact hEnv _ hBehind

/-
  A name has the value that stands at its first position
  among the names bound.
-/
theorem find?_eq_bind_idxOf?
    (name : String)
    (env : Env α) :
    env.find? name =
      (env.names.idxOf? name).bind fun index =>
        (env.map Prod.snd)[index]? := by
  induction env with
  | nil => rfl
  | cons binding rest ih =>
      rcases binding with ⟨bound, value⟩
      by_cases hBound : bound = name
      · simp [find?, List.idxOf?_cons, hBound]
      · simp [find?, List.idxOf?_cons, hBound, ih,
          Option.bind_map]

/- What is found for a name is bound to it. -/
theorem mem_of_find?_eq_some
    {name : String}
    {value : Value α}
    {env : Env α}
    (h : env.find? name = some value) :
    (name, value) ∈ env := by
  induction env with
  | nil => cases h
  | cons binding rest ih =>
      rcases binding with ⟨bound, first⟩
      unfold find? at h
      split at h
      · rename_i hBound
        cases h
        rw [hBound]
        exact List.mem_cons_self
      · exact List.mem_cons_of_mem _ (ih h)

/- Initial bindings are truth values and operators. -/
theorem find?_top_eq_some
    {name : String}
    {value : Value α}
    (h : top.find? name = some value) :
    (∃ b, value = .bool b) ∨ ∃ op, value = .prim op := by
  have hMem := mem_of_find?_eq_some h
  simp only [top, List.mem_cons, Prod.mk.injEq,
    List.not_mem_nil, or_false] at hMem
  rcases hMem with
    h | h | h | h | h | h | h | h
  · exact .inl ⟨_, h.2⟩
  · exact .inl ⟨_, h.2⟩
  all_goals exact .inr ⟨_, h.2⟩

/- Exactly the names bound have a value. -/
theorem find?_eq_none_iff
    (name : String)
    (env : Env α) :
    env.find? name = none ↔ name ∉ env.names := by
  induction env with
  | nil => simp [find?]
  | cons binding rest ih =>
      rcases binding with ⟨bound, value⟩
      by_cases hBound : bound = name
      · simp [find?, hBound]
      · simp [find?, hBound, ih, Ne.symm hBound]

/-
  A name is looked up by its first position in a frame, and
  behind the frame if it does not stand there.
-/
theorem find?_zip_append
    (name : String)
    (params : List String)
    (values : List (Value α))
    (env : Env α)
    (hLength : params.length = values.length) :
    find? name (params.zip values ++ env) =
      match params.idxOf? name with
      | some index => values[index]?
      | none => env.find? name := by
  induction params generalizing values with
  | nil => rfl
  | cons param params ih =>
      cases values with
      | nil => simp at hLength
      | cons value values =>
          by_cases hParam : param = name
          · simp [find?, List.idxOf?_cons, hParam]
          · have hRest :=
              ih values (by simpa using hLength)
            simp only [List.zip_cons_cons,
              List.cons_append, find?, hParam, if_false,
              hRest, List.idxOf?_cons, beq_iff_eq]
            cases params.idxOf? name <;> rfl

/- A frame that lacks a name leaves it to the bindings behind. -/
theorem find?_zip_append_of_not_mem
    {name : String}
    {params : List String}
    {values : List (Value α)}
    (env : Env α)
    (hLength : params.length = values.length)
    (hName : name ∉ params) :
    find? name (params.zip values ++ env) =
      env.find? name := by
  rw [find?_zip_append name params values env hLength,
    List.idxOf?_eq_none_iff.mpr hName]

/-
  Two frames of related values give related values to names
  that first stand at the same position of each.
-/
theorem find?_zip_append_rel
    {R : Value α → Value α → Prop}
    {name name' : String}
    {params params' : List String}
    {values values' : List (Value α)}
    {index : Nat}
    (env env' : Env α)
    (hLength : params.length = values.length)
    (hLength' : params'.length = values'.length)
    (hValues : List.Forall₂ R values values')
    (hIndex : params.idxOf? name = some index)
    (hIndex' : params'.idxOf? name' = some index) :
    ∃ value value',
      find? name (params.zip values ++ env) = some value ∧
        find? name' (params'.zip values' ++ env') =
          some value' ∧
        R value value' := by
  rcases List.idxOf?_eq_some_iff.mp hIndex with ⟨hBound, -⟩
  have hFirst : index < values.length := hLength ▸ hBound
  have hSecond : index < values'.length :=
    hValues.length_eq ▸ hFirst
  refine
    ⟨values[index], values'[index], ?_, ?_,
      hValues.get hFirst hSecond⟩
  · rw [find?_zip_append _ _ _ _ hLength, hIndex]
    exact List.getElem?_eq_getElem hFirst
  · rw [find?_zip_append _ _ _ _ hLength', hIndex']
    exact List.getElem?_eq_getElem hSecond

end Env

end LamLang

------------------------------------------------------------
-- Free Names
------------------------------------------------------------

namespace LamLang

namespace Expr

variable {α : Type}

mutual

/- The names that an expression takes from outside. -/
def free : Expr α → List String
| .num _ => []
| .text _ => []
| .ident name => [name]
| .cond test yes no => test.free ++ yes.free ++ no.free
| .lam params body =>
    body.free.filter fun name => name ∉ params
| .app fn args => fn.free ++ freeOfAll args
| .foreign _ => []

/- The names that some expression takes from outside. -/
def freeOfAll : List (Expr α) → List String
| [] => []
| first :: rest => first.free ++ freeOfAll rest

end

@[simp] theorem mem_free_ident
    (name bound : String) :
    name ∈ (ident bound : Expr α).free ↔ name = bound := by
  simp [free]

@[simp] theorem mem_free_cond
    (name : String)
    (test yes no : Expr α) :
    name ∈ (cond test yes no).free ↔
      name ∈ test.free ∨ name ∈ yes.free ∨
        name ∈ no.free := by
  simp [free]

@[simp] theorem mem_free_lam
    (name : String)
    (params : List String)
    (body : Expr α) :
    name ∈ (lam params body).free ↔
      name ∈ body.free ∧ name ∉ params := by
  simp [free]

theorem mem_freeOfAll
    (name : String)
    (exprs : List (Expr α)) :
    name ∈ freeOfAll exprs ↔
      ∃ e ∈ exprs, name ∈ e.free := by
  induction exprs with
  | nil => simp [freeOfAll]
  | cons first rest ih => simp [freeOfAll, ih]

@[simp] theorem mem_free_app
    (name : String)
    (fn : Expr α)
    (args : List (Expr α)) :
    name ∈ (app fn args).free ↔
      name ∈ fn.free ∨ ∃ arg ∈ args, name ∈ arg.free := by
  simp [free, mem_freeOfAll]

end Expr

end LamLang
