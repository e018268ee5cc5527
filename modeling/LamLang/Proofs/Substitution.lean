import LamLang.Proofs.Outcome

/-
  Evaluation by substitution, and environments as deferred
  substitutions.

  Here a call puts the values of its arguments into the body
  of the function in place of the parameters, so that there
  are no environments.  Values stand in expressions as
  constants, which no later substitution enters.  Evaluation
  in an environment ends exactly as this evaluation does,
  after the environment has been substituted.

  Key definitions include:
    * `LamLang.Constant`
    * `LamLang.Expr.subst`
    * `LamLang.substEval`
    * `LamLang.Value.resolve`
    * `LamLang.EndsWith`

  Main statements:
    * `LamLang.Expr.subst_subst`
    * `LamLang.eval_corresponds_substEval`
    * `LamLang.eval_ends_iff_substEval_ends`
-/

------------------------------------------------------------
-- Expressions With Constants
------------------------------------------------------------

namespace LamLang

/- A value that stands in an expression. -/
inductive Constant where
| ofValue (value : Value Constant)

/- Evaluation takes constants as values and describes none. -/
instance : Describe Constant where
  describe _ := .ok "#<constant>"

/- Constants to be put in place of names. -/
abbrev Substitution := List (String × Constant)

namespace Expr

mutual

/- A program as an expression with no constants in it. -/
def withConstants : Expr Empty → Expr Constant
| .num n => .num n
| .text s => .text s
| .ident name => .ident name
| .cond test yes no =>
    .cond test.withConstants yes.withConstants
      no.withConstants
| .lam params body => .lam params body.withConstants
| .app fn args =>
    .app fn.withConstants (withConstantsAll args)

/- Programs as expressions with no constants in them. -/
def withConstantsAll :
    List (Expr Empty) → List (Expr Constant)
| [] => []
| first :: rest =>
    first.withConstants :: withConstantsAll rest

end

mutual

/-
  Put constants in place of names.  Of two constants for one
  name the first is taken.  Inside a function the names of
  its parameters are left alone, and what is a constant
  already stays as it is.
-/
def subst : Expr Constant → Substitution → Expr Constant
| .num n, _ => .num n
| .text s, _ => .text s
| .ident name, σ =>
    match σ.lookup name with
    | some constant => .foreign constant
    | none => .ident name
| .cond test yes no, σ =>
    .cond (test.subst σ) (yes.subst σ) (no.subst σ)
| .lam params body, σ =>
    .lam params
      (body.subst
        (σ.filter fun binding => binding.1 ∉ params))
| .app fn args, σ => .app (fn.subst σ) (substAll args σ)
| .foreign constant, _ => .foreign constant

/- Put constants in place of names in every expression. -/
def substAll :
    List (Expr Constant) → Substitution →
      List (Expr Constant)
| [], _ => []
| first :: rest, σ => first.subst σ :: substAll rest σ

end

theorem withConstantsAll_eq_map
    (args : List (Expr Empty)) :
    withConstantsAll args = args.map withConstants := by
  induction args with
  | nil => rfl
  | cons arg args ih => simp [withConstantsAll, ih]

theorem substAll_eq_map
    (args : List (Expr Constant))
    (σ : Substitution) :
    substAll args σ = args.map fun arg => arg.subst σ := by
  induction args with
  | nil => rfl
  | cons arg args ih => simp [substAll, ih]

end Expr

end LamLang

------------------------------------------------------------
-- Evaluation By Substitution
------------------------------------------------------------

namespace LamLang

/-
  Apply a value to arguments, where `run` evaluates the body
  of a function.  A function is a closure that has captured
  nothing.
-/
def substApply
    (run : Expr Constant → Except Failure (Value Constant))
    (fn : Value Constant)
    (args : List (Value Constant)) :
    Except Failure (Value Constant) :=
  match fn with
  | .prim op => Primitive.apply op args
  | .closure params body _ =>
      if params.length = args.length then
        run (body.subst (params.zip (args.map .ofValue)))
      else
        .error
          (.cause (.wrongArity params.length args.length))
  | value => do
      let text ← value.written
      .error (.cause (.notCallable text))

/-
  The value of an expression without an environment, found
  with at most `depth` nested evaluations.  A name that no
  constant has replaced is unbound, and a function is its
  own value.
-/
def substEval :
    Nat → Expr Constant → Except Failure (Value Constant)
| 0, _ => .error .depthExceeded
| _ + 1, .num n => .ok (.num n)
| _ + 1, .text s => .ok (.text s)
| _ + 1, .ident name => .error (.cause (.unbound name))
| depth + 1, .cond test yes no => do
    let value ← substEval depth test
    let branch ← choose value yes no
    substEval depth branch
| _ + 1, .lam params body => .ok (.closure params body [])
| depth + 1, .app fn args => do
    let callee ← substEval depth fn
    let values ← args.mapM fun arg => substEval depth arg
    substApply (substEval depth) callee values
| _ + 1, .foreign (.ofValue value) => .ok value

end LamLang

------------------------------------------------------------
-- Deferred Substitutions
------------------------------------------------------------

namespace LamLang

mutual

/-
  A value with every environment in it substituted into the
  function that captured it.
-/
def Value.resolve : Value Empty → Value Constant
| .num n => .num n
| .bool b => .bool b
| .text s => .text s
| .prim op => .prim op
| .closure params body env =>
    .closure params
      (body.withConstants.subst
        ((Env.resolve env).filter fun binding =>
          binding.1 ∉ params))
      []

/- The substitution that an environment defers. -/
def Env.resolve :
    List (String × Value Empty) → Substitution
| [] => []
| (name, value) :: rest =>
    (name, .ofValue value.resolve) :: Env.resolve rest

end

namespace Env

@[simp] theorem resolve_append
    (env env' : Env Empty) :
    resolve (env ++ env') = resolve env ++ resolve env' := by
  induction env with
  | nil => rfl
  | cons binding rest ih =>
      rcases binding with ⟨name, value⟩
      simp [resolve, ih]

theorem resolve_zip
    (params : List String)
    (values : List (Value Empty)) :
    resolve (params.zip values) =
      params.zip
        ((values.map Value.resolve).map .ofValue) := by
  induction params generalizing values with
  | nil => rfl
  | cons param params ih =>
      cases values with
      | nil => rfl
      | cons value values =>
          simp only [List.zip_cons_cons, resolve, ih values,
            List.map_cons]

/- Looking up and resolving commute. -/
theorem lookup_resolve
    (name : String)
    (env : Env Empty) :
    (resolve env).lookup name =
      (env.find? name).map fun value =>
        .ofValue value.resolve := by
  induction env with
  | nil => rfl
  | cons binding rest ih =>
      rcases binding with ⟨bound, value⟩
      by_cases hBound : bound = name
      · simp [resolve, find?, hBound]
      · have hOther : (name == bound) = false :=
          beq_false_of_ne (Ne.symm hBound)
        simp [resolve, find?, hBound, List.lookup_cons,
          hOther, ih]

end Env

namespace Substitution

/- Leaving names out leaves all the other names alone. -/
theorem lookup_filter
    (params : List String)
    (name : String)
    (σ : Substitution) :
    (σ.filter fun binding => binding.1 ∉ params).lookup
        name =
      if name ∈ params then none else σ.lookup name := by
  induction σ with
  | nil => simp
  | cons binding rest ih =>
      rcases binding with ⟨bound, constant⟩
      by_cases hParam : bound ∈ params
      · rw [List.filter_cons_of_neg (by simpa using hParam),
          ih]
        by_cases hBound : name = bound
        · simp [hBound, hParam]
        · simp [List.lookup_cons, beq_false_of_ne hBound]
      · rw [List.filter_cons_of_pos (by simpa using hParam)]
        by_cases hBound : name = bound
        · simp [hBound, hParam]
        · simp only [List.lookup_cons,
            beq_false_of_ne hBound, ih]

/- A full list of constants has one for every parameter. -/
theorem lookup_zip_eq_none_iff
    (params : List String)
    (constants : List Constant)
    (hLength : params.length = constants.length)
    (name : String) :
    (params.zip constants).lookup name = none ↔
      name ∉ params := by
  induction params generalizing constants with
  | nil => simp
  | cons param params ih =>
      cases constants with
      | nil => simp at hLength
      | cons constant constants =>
          by_cases hParam : name = param
          · simp [hParam]
          · have hOther : (name == param) = false :=
              beq_false_of_ne hParam
            have hRest :=
              ih constants (by simpa using hLength)
            simp only [List.zip_cons_cons,
              List.lookup_cons, hOther, hRest,
              List.mem_cons, hParam, false_or]

end Substitution

namespace Expr

mutual

/-
  Substituting twice is substituting once, for whatever
  finds the constants of the first substitution and behind
  them those of the second.
-/
theorem subst_subst :
    ∀ (e : Expr Constant) (σ τ ρ : Substitution),
      (∀ name,
        ρ.lookup name =
          (σ.lookup name).or (τ.lookup name)) →
      (e.subst σ).subst τ = e.subst ρ
| .num _, _, _, _, _ => rfl
| .text _, _, _, _, _ => rfl
| .ident name, σ, τ, ρ, h => by
    simp only [subst, h name]
    cases hConstant : σ.lookup name with
    | some constant => rfl
    | none => simp only [subst, Option.none_or]
| .cond test yes no, σ, τ, ρ, h => by
    simp only [subst, subst_subst test σ τ ρ h,
      subst_subst yes σ τ ρ h, subst_subst no σ τ ρ h]
| .lam params body, σ, τ, ρ, h => by
    simp only [subst]
    rw [subst_subst body _ _
      (ρ.filter fun binding => binding.1 ∉ params)]
    intro name
    simp only [Substitution.lookup_filter, h name]
    split <;> rfl
| .app fn args, σ, τ, ρ, h => by
    simp only [subst, subst_subst fn σ τ ρ h,
      substAll_substAll args σ τ ρ h]
| .foreign _, _, _, _, _ => rfl

theorem substAll_substAll :
    ∀ (args : List (Expr Constant)) (σ τ ρ : Substitution),
      (∀ name,
        ρ.lookup name =
          (σ.lookup name).or (τ.lookup name)) →
      substAll (substAll args σ) τ = substAll args ρ
| [], _, _, _, _ => rfl
| arg :: args, σ, τ, ρ, h => by
    simp only [substAll, subst_subst arg σ τ ρ h,
      substAll_substAll args σ τ ρ h]

end

/-
  Entering a closure by substitution is entering it by
  extending what it captured: the captured constants of the
  parameters have been left out, the others stand behind the
  arguments.
-/
theorem subst_captured_subst_args
    (body : Expr Empty)
    (env : Env Empty)
    (params : List String)
    (values : List (Value Empty))
    (hLength : params.length = values.length) :
    (body.withConstants.subst
        ((Env.resolve env).filter fun binding =>
          binding.1 ∉ params)).subst
      (params.zip
        ((values.map Value.resolve).map .ofValue)) =
    body.withConstants.subst
      (Env.resolve (params.zip values ++ env)) := by
  apply subst_subst
  intro name
  have hArgs :=
    Substitution.lookup_zip_eq_none_iff params
      ((values.map Value.resolve).map .ofValue)
      (by simpa using hLength) name
  rw [Env.resolve_append, Env.resolve_zip,
    List.lookup_append, Substitution.lookup_filter]
  by_cases hParam : name ∈ params
  · rw [if_pos hParam, Option.none_or]
    cases hArg :
        (params.zip
          ((values.map Value.resolve).map
            Constant.ofValue)).lookup name with
    | none => exact absurd hParam (hArgs.mp hArg)
    | some constant => rfl
  · rw [if_neg hParam, hArgs.mpr hParam, Option.none_or,
      Option.or_none]

end Expr

end LamLang

------------------------------------------------------------
-- Agreement Of The Two Evaluations
------------------------------------------------------------

namespace LamLang

/- Resolving changes nothing about how values look. -/
theorem Value.resolve_faithful :
    Value.Faithful fun value value' =>
      Value.resolve value = value' where
  num n := by rfl
  bool b := by rfl
  text s := by rfl
  alike := by
    rintro value _ rfl
    cases value with
    | num n => exact .num n
    | bool b => exact .bool b
    | text s => exact .text s
    | prim op => exact .prim op
    | closure params body env =>
        exact .closure _ _ _ _ _ _
    | foreign object => exact object.elim

/- A call in an environment is a call by substitution. -/
theorem applyWith_corresponds_substApply
    {run : Expr Empty → Env Empty →
      Except Failure (Value Empty)}
    {run' : Expr Constant → Except Failure (Value Constant)}
    (hRun :
      ∀ body env,
        Corresponds (fun value value' =>
            Value.resolve value = value')
          (run body env)
          (run'
            (body.withConstants.subst (Env.resolve env))))
    (fn : Value Empty)
    (args : List (Value Empty)) :
    Corresponds (fun value value' =>
        Value.resolve value = value')
      (fn.applyWith run args)
      (substApply run' fn.resolve
        (args.map Value.resolve)) := by
  have hArgs :
      List.Forall₂
        (fun value value' => Value.resolve value = value')
        args (args.map Value.resolve) := by
    simp [List.forall₂_map_right_iff, List.forall₂_same]
  cases fn with
  | num n => exact .failing n.text _
  | bool b => cases b <;> exact .error _
  | text s => exact .error _
  | prim op =>
      exact Primitive.apply_corresponds
        Value.resolve_faithful op hArgs
  | closure params body env =>
      simp only [Value.applyWith, Env.extend_eq,
        Value.resolve, substApply, List.length_map]
      split
      · rename_i hLength
        rw [Expr.subst_captured_subst_args body env params
          args hLength]
        exact hRun body (params.zip args ++ env)
      · exact .error _
  | foreign object => exact object.elim

/-
  Within every bound on depth, evaluation in an environment
  corresponds to evaluation after substituting it.
-/
theorem eval_corresponds_substEval
    (depth : Nat)
    (e : Program)
    (env : Env Empty) :
    Corresponds
      (fun value value' => Value.resolve value = value')
      (eval depth e env)
      (substEval depth
        (e.withConstants.subst (Env.resolve env))) := by
  induction depth generalizing e env with
  | zero => exact .error _
  | succ depth ih =>
      cases e with
      | num n => exact .ok rfl
      | text s => exact .ok rfl
      | ident name =>
          simp only [eval, Env.lookup, Expr.withConstants,
            Expr.subst, Env.lookup_resolve]
          cases env.find? name with
          | none => exact .error _
          | some value => exact .ok rfl
      | cond test yes no =>
          simp only [eval, Expr.withConstants, Expr.subst,
            substEval]
          apply (ih test env).bind
          intro value value' hValue
          have hBranch :
              Corresponds
                (fun e e' =>
                  e.withConstants.subst (Env.resolve env) =
                    e')
                (choose value yes no)
                (choose value' _ _) :=
            choose_corresponds Value.resolve_faithful
              hValue rfl rfl
          apply hBranch.bind
          rintro branch _ rfl
          exact ih branch env
      | lam params body => exact .ok rfl
      | app fn args =>
          simp only [eval, Expr.withConstants, Expr.subst,
            substEval]
          apply (ih fn env).bind
          rintro callee _ rfl
          rw [Expr.withConstantsAll_eq_map,
            Expr.substAll_eq_map, List.map_map]
          have hValues :
              Corresponds
                (List.Forall₂ fun value value' =>
                  Value.resolve value = value')
                (args.mapM fun arg => eval depth arg env)
                ((args.map fun arg =>
                  arg.withConstants.subst
                    (Env.resolve env)).mapM
                      (substEval depth)) := by
            apply Corresponds.mapM
            rw [List.forall₂_map_right_iff,
              List.forall₂_same]
            intro arg _
            exact ih arg env
          apply hValues.bind
          intro values values' hResolved
          have hMap : values.map Value.resolve = values' := by
            rw [← List.forall₂_map_left_iff,
              List.forall₂_eq_eq_eq] at hResolved
            exact hResolved
          rw [← hMap]
          exact
            applyWith_corresponds_substApply ih callee
              values
      | foreign object => exact object.elim

/-
  A run, given as its outcome within each bound on depth,
  ends with an outcome if some bound suffices for it.
-/
def EndsWith
    {β : Type}
    (run : Nat → Except Failure β)
    (outcome : Except Failure β) : Prop :=
  outcome ≠ .error .depthExceeded ∧
    ∃ depth, run depth = outcome

/-
  Two runs whose outcomes correspond within every bound end
  with corresponding outcomes.
-/
theorem endsWith_map_iff
    {β γ : Type}
    {run : Nat → Except Failure β}
    {run' : Nat → Except Failure γ}
    {f : β → γ}
    (hMap : ∀ depth, (run depth).map f = run' depth)
    (outcome : Except Failure γ) :
    (∃ found, EndsWith run found ∧ found.map f = outcome) ↔
      EndsWith run' outcome := by
  constructor
  · rintro ⟨found, ⟨hEnds, depth, rfl⟩, rfl⟩
    refine ⟨?_, depth, (hMap depth).symm⟩
    intro hExceeded
    apply hEnds
    cases hRun : run depth with
    | ok b => rw [hRun] at hExceeded; cases hExceeded
    | error failure =>
        rw [hRun] at hExceeded
        cases hExceeded
        rfl
  · rintro ⟨hEnds, depth, rfl⟩
    refine ⟨run depth, ⟨?_, depth, rfl⟩, hMap depth⟩
    intro hExceeded
    apply hEnds
    rw [← hMap depth, hExceeded]
    rfl

/-
  Evaluation of a program among the initial bindings ends
  with an outcome exactly if evaluation by substitution ends
  with the corresponding one, after the initial bindings
  have been substituted.
-/
theorem eval_ends_iff_substEval_ends
    (program : Program)
    (outcome : Except Failure (Value Constant)) :
    (∃ found,
      EndsWith (fun depth => eval depth program Env.top)
          found ∧
        found.map Value.resolve = outcome) ↔
    EndsWith
      (fun depth =>
        substEval depth
          (program.withConstants.subst
            (Env.resolve Env.top)))
      outcome := by
  apply endsWith_map_iff
  intro depth
  exact
    (eval_corresponds_substEval depth program
      Env.top).map_eq

end LamLang
