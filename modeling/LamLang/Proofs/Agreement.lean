import LamLang.Proofs.Names
import LamLang.Proofs.Simulation

/-
  An evaluation sees its environment only through the free
  names of the expression.

  Two values agree when they are the same constant, or
  closures of one function whose environments agree on its
  free names.  Environments that agree on the free names of
  an expression cannot be told apart by evaluating it.

  Key definitions include:
    * `LamLang.Value.Agree`
    * `LamLang.Env.AgreeOn`

  Main statements:
    * `LamLang.agree_simulation`
    * `LamLang.eval_agrees_on_free`
-/

------------------------------------------------------------
-- Agreement
------------------------------------------------------------

namespace LamLang

variable {α : Type}

/-
  The same constant, or closures of the same function whose
  environments give agreeing values to its free names.
-/
inductive Value.Agree : Value α → Value α → Prop
| num (n : Number) : Agree (.num n) (.num n)
| bool (b : Bool) : Agree (.bool b) (.bool b)
| text (s : String) : Agree (.text s) (.text s)
| prim (op : String) : Agree (.prim op) (.prim op)
| closure
    {params : List String}
    {body : Expr α}
    {env env' : Env α}
    (hFree :
      ∀ name ∈ (Expr.lam params body).free,
        Option.Rel Agree (Env.find? name env)
          (Env.find? name env')) :
    Agree (.closure params body env)
      (.closure params body env')
| foreign (object : α) :
    Agree (.foreign object) (.foreign object)

/- Every one of the names has agreeing values, or none. -/
def Env.AgreeOn
    (names : List String)
    (env env' : Env α) : Prop :=
  ∀ name ∈ names,
    Option.Rel Value.Agree (env.find? name)
      (env'.find? name)

mutual

/- Every value agrees with itself. -/
theorem Value.Agree.refl :
    ∀ value : Value α, value.Agree value
| .num n => .num n
| .bool b => .bool b
| .text s => .text s
| .prim op => .prim op
| .closure _ _ env =>
    .closure fun name _ => Env.find?_agree_refl name env
| .foreign object => .foreign object

/- What an environment gives to a name agrees with itself. -/
theorem Env.find?_agree_refl
    (name : String) :
    ∀ env : List (String × Value α),
      Option.Rel Value.Agree (Env.find? name env)
        (Env.find? name env)
| [] => .none
| (bound, value) :: rest => by
    unfold Env.find?
    split
    · exact .some (Value.Agree.refl value)
    · exact Env.find?_agree_refl name rest

end

namespace Env

variable {names : List String} {env env' : Env α}

/- Agreement on some of the names. -/
theorem AgreeOn.subset
    {fewer : List String}
    (h : AgreeOn names env env')
    (hSubset : ∀ name ∈ fewer, name ∈ names) :
    AgreeOn fewer env env' := by
  intro name hName
  exact h name (hSubset name hName)

/-
  Frames of agreeing values keep environments in agreement:
  the names of the frame agree through it, the other names
  through what lies behind.
-/
theorem AgreeOn.zip_append
    {params : List String}
    {values values' : List (Value α)}
    (hLength : params.length = values.length)
    (hValues : List.Forall₂ Value.Agree values values')
    (h :
      ∀ name ∈ names, name ∉ params →
        Option.Rel Value.Agree (env.find? name)
          (env'.find? name)) :
    AgreeOn names (params.zip values ++ env)
      (params.zip values' ++ env') := by
  have hLength' : params.length = values'.length :=
    hLength.trans hValues.length_eq
  intro name hName
  cases hIndex : params.idxOf? name with
  | some index =>
      rcases find?_zip_append_rel env env' hLength hLength'
          hValues hIndex hIndex with
        ⟨value, value', hFound, hFound', hAgree⟩
      rw [hFound, hFound']
      exact .some hAgree
  | none =>
      have hOther : name ∉ params :=
        List.idxOf?_eq_none_iff.mp hIndex
      rw [find?_zip_append_of_not_mem env hLength hOther,
        find?_zip_append_of_not_mem env' hLength' hOther]
      exact h name hName hOther

/- Looking up a name passes over every other binding. -/
theorem find?_filter
    (keep : String → Bool)
    {name : String}
    (hKeep : keep name = true)
    (env : Env α) :
    find? name (env.filter fun binding => keep binding.1) =
      env.find? name := by
  induction env with
  | nil => rfl
  | cons binding rest ih =>
      rcases binding with ⟨bound, value⟩
      by_cases hBound : bound = name
      · subst hBound
        simp [find?, hKeep]
      · by_cases hKept : keep bound = true
        · simp [find?, hBound, hKept, ih]
        · simp [find?, hBound, hKept, ih]

/-
  Environments with the same bindings of the names, in the
  same order, agree on them, whatever else they bind.
-/
theorem agreeOn_of_filter_eq
    (h :
      env.filter (fun binding => binding.1 ∈ names) =
        env'.filter (fun binding => binding.1 ∈ names)) :
    AgreeOn names env env' := by
  intro name hName
  have hKeep : decide (name ∈ names) = true :=
    decide_eq_true hName
  rw [← find?_filter (· ∈ names) hKeep env, h,
    find?_filter (· ∈ names) hKeep env']
  exact find?_agree_refl name env'

end Env

end LamLang

------------------------------------------------------------
-- Evaluation And Free Names
------------------------------------------------------------

namespace LamLang

variable {α : Type} [Describe α]

/- Agreeing values look alike. -/
theorem Value.agree_faithful :
    Value.Faithful (Value.Agree (α := α)) where
  num := .num
  bool := .bool
  text := .text
  alike := by
    intro value value' hAgree
    cases hAgree with
    | num n => exact .num n
    | bool b => exact .bool b
    | text s => exact .text s
    | prim op => exact .prim op
    | closure _ => exact .closure _ _ _ _ _ _
    | foreign object => exact .foreign rfl

/-
  One expression in two environments that agree on its free
  names is evaluated in lockstep.
-/
theorem agree_simulation :
    Simulation (Value.Agree (α := α)) fun e env e' env' =>
      e = e' ∧ Env.AgreeOn e.free env env' where
  faithful := Value.agree_faithful
  step := by
    rintro e env _ env' ⟨rfl, hAgree⟩
    cases e with
    | num n => exact .num n
    | text s => exact .text s
    | ident name =>
        exact .ident (hAgree name (by simp)) fun _ => rfl
    | cond test yes no =>
        refine .cond ⟨rfl, ?_⟩ ⟨rfl, ?_⟩ ⟨rfl, ?_⟩
        all_goals
          apply hAgree.subset
          intro name hName
          simp [hName]
    | lam params body => exact .lam (.closure hAgree)
    | app fn args =>
        have hFn : Env.AgreeOn fn.free env env' := by
          apply hAgree.subset
          intro name hName
          simp [hName]
        refine .app ⟨rfl, hFn⟩ ?_
        apply List.forall₂_same.mpr
        intro arg hArg
        refine ⟨rfl, hAgree.subset ?_⟩
        intro name hName
        simp only [Expr.mem_free_app]
        exact Or.inr ⟨arg, hArg, hName⟩
    | foreign object => exact .foreign object
  enter := by
    intro params body env params' body' env' hClosure
    cases hClosure with
    | closure hFree =>
        refine ⟨rfl, ?_⟩
        intro values values' hValues hLength
        refine ⟨rfl, .zip_append hLength hValues ?_⟩
        intro name hName hOther
        apply hFree
        simp [hName, hOther]

/-
  Environments that agree on the free names of an expression
  give agreeing values, written alike, or the same failure.
  So do environments that differ only in bindings of names
  which are not free in it.
-/
theorem eval_agrees_on_free
    (depth : Nat)
    (e : Expr α)
    (env env' : Env α)
    (h :
      Env.AgreeOn e.free env env' ∨
        env.filter (fun binding => binding.1 ∈ e.free) =
          env'.filter
            (fun binding => binding.1 ∈ e.free)) :
    Corresponds
      (fun value value' =>
        value.Agree value' ∧
          value.written = value'.written)
      (eval depth e env) (eval depth e env') := by
  have hAgree : Env.AgreeOn e.free env env' := by
    rcases h with hAgree | hSame
    · exact hAgree
    · exact Env.agreeOn_of_filter_eq hSame
  have hRelated :=
    agree_simulation.eval_corresponds depth
      ⟨rfl, hAgree⟩
  apply hRelated.mono
  intro value value' hValue
  exact
    ⟨hValue,
      (Value.agree_faithful.alike _ _ hValue).written⟩

/-
  Closures of one function that differ in what they captured
  besides its free names, called among other bindings.
-/
theorem eval_agrees_on_free_capture :
    Env.AgreeOn ["f"]
        ([("f",
            .closure ["x"] (.ident "x")
              [("y", .num (.int 1))])] : Env Empty)
        [("g", .bool true),
          ("f", .closure ["x"] (.ident "x") [])] ∧
      Corresponds
        (fun value value' =>
          value.Agree value' ∧
            value.written = value'.written)
        (eval 2 (.app (.ident "f") [.num (.int 2)])
          ([("f",
              .closure ["x"] (.ident "x")
                [("y", .num (.int 1))])] : Env Empty))
        (eval 2 (.app (.ident "f") [.num (.int 2)])
          [("g", .bool true),
            ("f", .closure ["x"] (.ident "x") [])]) := by
  have hClosures :
      Value.Agree
        (.closure ["x"] (.ident "x")
          [("y", .num (.int 1))] : Value Empty)
        (.closure ["x"] (.ident "x") []) := by
    apply Value.Agree.closure
    simp
  have hAgree :
      Env.AgreeOn ["f"]
        ([("f",
            .closure ["x"] (.ident "x")
              [("y", .num (.int 1))])] : Env Empty)
        [("g", .bool true),
          ("f", .closure ["x"] (.ident "x") [])] := by
    intro name hName
    rw [List.mem_singleton.mp hName]
    exact .some hClosures
  exact
    ⟨hAgree, eval_agrees_on_free 2 _ _ _ (Or.inl hAgree)⟩

end LamLang
