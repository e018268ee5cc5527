import LamLang.Proofs.Names
import LamLang.Proofs.Simulation

/-
  Renaming parameters does not change what a program does.

  A name refers to a parameter by the number of functions
  between them and the parameter's position.  Expressions
  are alpha-equivalent when they differ in names only and
  every name refers to the same parameter, or is free and
  the same name.

  Key definitions include:
    * `LamLang.address`
    * `LamLang.SameReference`
    * `LamLang.Expr.Alpha`
    * `LamLang.Value.Renamed`

  Main statements:
    * `LamLang.renamed_simulation`
    * `LamLang.eval_alpha_equivalent`
-/

------------------------------------------------------------
-- References
------------------------------------------------------------

namespace LamLang

/-
  Which parameter a name refers to, where the parameter
  lists around it are given innermost first: the number of
  lists passed over and the first position in the next.
-/
def address :
    List (List String) → String → Option (Nat × Nat)
| [], _ => none
| params :: scopes, name =>
    match params.idxOf? name with
    | some position => some (0, position)
    | none =>
        (address scopes name).map fun outer =>
          (outer.1 + 1, outer.2)

/-
  Two names refer to the same parameter, or both to none and
  are the same name.
-/
def SameReference
    (scopes scopes' : List (List String))
    (name name' : String) : Prop :=
  address scopes name = address scopes' name' ∧
    (address scopes name = none → name = name')

/-
  Names with the same reference under one more pair of lists
  stand at the same position of these, or in neither and
  have the same reference outside.
-/
theorem SameReference.cons_cases
    {params params' : List String}
    {scopes scopes' : List (List String)}
    {name name' : String}
    (h :
      SameReference (params :: scopes)
        (params' :: scopes') name name') :
    (∃ position,
      params.idxOf? name = some position ∧
        params'.idxOf? name' = some position) ∨
    (name ∉ params ∧ name' ∉ params' ∧
      SameReference scopes scopes' name name') := by
  rcases h with ⟨hAddress, hFree⟩
  unfold address at hAddress hFree
  cases hIndex : params.idxOf? name with
  | some position =>
      cases hIndex' : params'.idxOf? name' with
      | some position' =>
          simp only [hIndex, hIndex', Option.some.injEq,
            Prod.mk.injEq, true_and] at hAddress
          exact Or.inl ⟨position, rfl, by rw [hAddress]⟩
      | none => simp [hIndex, hIndex'] at hAddress
  | none =>
      cases hIndex' : params'.idxOf? name' with
      | some position' =>
          simp [hIndex, hIndex'] at hAddress
      | none =>
          refine
            Or.inr
              ⟨List.idxOf?_eq_none_iff.mp hIndex,
                List.idxOf?_eq_none_iff.mp hIndex', ?_, ?_⟩
          · simp only [hIndex, hIndex'] at hAddress
            apply Option.map_injective _ hAddress
            rintro ⟨level, position⟩ ⟨level', position'⟩
            simp
          · intro hNone
            apply hFree
            simp [hIndex, hNone]

end LamLang

------------------------------------------------------------
-- Alpha-Equivalence
------------------------------------------------------------

namespace LamLang

variable {α : Type}

mutual

/-
  Expressions of one shape whose names have the same
  references, within the parameter lists around each.
-/
inductive Expr.Alpha :
    List (List String) → List (List String) →
      Expr α → Expr α → Prop
| num
    {scopes scopes' : List (List String)}
    (n : Number) :
    Alpha scopes scopes' (.num n) (.num n)
| text
    {scopes scopes' : List (List String)}
    (s : String) :
    Alpha scopes scopes' (.text s) (.text s)
| ident
    {scopes scopes' : List (List String)}
    {name name' : String}
    (hSame : SameReference scopes scopes' name name') :
    Alpha scopes scopes' (.ident name) (.ident name')
| cond
    {scopes scopes' : List (List String)}
    {test yes no test' yes' no' : Expr α}
    (hTest : Alpha scopes scopes' test test')
    (hYes : Alpha scopes scopes' yes yes')
    (hNo : Alpha scopes scopes' no no') :
    Alpha scopes scopes' (.cond test yes no)
      (.cond test' yes' no')
| lam
    {scopes scopes' : List (List String)}
    {params params' : List String}
    {body body' : Expr α}
    (hLength : params.length = params'.length)
    (hBody :
      Alpha (params :: scopes) (params' :: scopes')
        body body') :
    Alpha scopes scopes' (.lam params body)
      (.lam params' body')
| app
    {scopes scopes' : List (List String)}
    {fn fn' : Expr α}
    {args args' : List (Expr α)}
    (hFn : Alpha scopes scopes' fn fn')
    (hArgs : AlphaAll scopes scopes' args args') :
    Alpha scopes scopes' (.app fn args) (.app fn' args')
| foreign
    {scopes scopes' : List (List String)}
    (object : α) :
    Alpha scopes scopes' (.foreign object)
      (.foreign object)

/- Lists of expressions that are equivalent one by one. -/
inductive Expr.AlphaAll :
    List (List String) → List (List String) →
      List (Expr α) → List (Expr α) → Prop
| nil
    {scopes scopes' : List (List String)} :
    AlphaAll scopes scopes' [] []
| cons
    {scopes scopes' : List (List String)}
    {first first' : Expr α}
    {rest rest' : List (Expr α)}
    (hFirst : Alpha scopes scopes' first first')
    (hRest : AlphaAll scopes scopes' rest rest') :
    AlphaAll scopes scopes' (first :: rest)
      (first' :: rest')

end

theorem Expr.AlphaAll.forall₂
    {scopes scopes' : List (List String)}
    {args args' : List (Expr α)}
    (h : AlphaAll scopes scopes' args args') :
    List.Forall₂ (Alpha scopes scopes') args args' := by
  induction args generalizing args' with
  | nil =>
      cases h with
      | nil => exact .nil
  | cons arg args ih =>
      cases h with
      | cons hFirst hRest => exact .cons hFirst (ih hRest)

end LamLang

------------------------------------------------------------
-- Renamed Values
------------------------------------------------------------

namespace LamLang

variable {α : Type}

/-
  The same constant, or closures of equivalent functions
  whose environments give renamed values to names with the
  same reference.
-/
inductive Value.Renamed : Value α → Value α → Prop
| num (n : Number) : Renamed (.num n) (.num n)
| bool (b : Bool) : Renamed (.bool b) (.bool b)
| text (s : String) : Renamed (.text s) (.text s)
| prim (op : String) : Renamed (.prim op) (.prim op)
| closure
    {scopes scopes' : List (List String)}
    {params params' : List String}
    {body body' : Expr α}
    {env env' : Env α}
    (hCode :
      Expr.Alpha scopes scopes' (.lam params body)
        (.lam params' body'))
    (hFound :
      ∀ name name',
        SameReference scopes scopes' name name' →
          Option.Rel Renamed (Env.find? name env)
            (Env.find? name' env'))
    (hUnbound :
      ∀ name name',
        SameReference scopes scopes' name name' →
          Env.find? name env = none → name = name') :
    Renamed (.closure params body env)
      (.closure params' body' env')
| foreign (object : α) :
    Renamed (.foreign object) (.foreign object)

/-
  Environments for two renamed pieces of code, which stand
  within the given parameter lists.
-/
structure Env.Renamed
    (scopes scopes' : List (List String))
    (env env' : Env α) : Prop where
  found :
    ∀ name name',
      SameReference scopes scopes' name name' →
        Option.Rel Value.Renamed (env.find? name)
          (env'.find? name')
  unbound :
    ∀ name name',
      SameReference scopes scopes' name name' →
        env.find? name = none → name = name'

namespace Env

/- Frames of renamed values go with their parameter lists. -/
theorem Renamed.zip_append
    {scopes scopes' : List (List String)}
    {env env' : Env α}
    {params params' : List String}
    {values values' : List (Value α)}
    (h : Renamed scopes scopes' env env')
    (hParams : params.length = params'.length)
    (hLength : params.length = values.length)
    (hValues : List.Forall₂ Value.Renamed values values') :
    Renamed (params :: scopes) (params' :: scopes')
      (params.zip values ++ env)
      (params'.zip values' ++ env') := by
  have hLength' : params'.length = values'.length := by
    rw [← hParams, hLength, hValues.length_eq]
  constructor
  · intro name name' hSame
    rcases hSame.cons_cases with
      ⟨position, hIndex, hIndex'⟩ | ⟨hOut, hOut', hOuter⟩
    · rcases find?_zip_append_rel env env' hLength hLength'
          hValues hIndex hIndex' with
        ⟨value, value', hFound, hFound', hRenamed⟩
      rw [hFound, hFound']
      exact .some hRenamed
    · rw [find?_zip_append_of_not_mem env hLength hOut,
        find?_zip_append_of_not_mem env' hLength' hOut']
      exact h.found name name' hOuter
  · intro name name' hSame hNone
    rcases hSame.cons_cases with
      ⟨position, hIndex, hIndex'⟩ | ⟨hOut, hOut', hOuter⟩
    · rcases find?_zip_append_rel env env' hLength hLength'
          hValues hIndex hIndex' with
        ⟨value, value', hFound, -, -⟩
      rw [hFound] at hNone
      cases hNone
    · rw [find?_zip_append_of_not_mem env hLength hOut]
        at hNone
      exact h.unbound name name' hOuter hNone

/- The initial bindings serve code outside every function. -/
theorem renamed_top :
    Renamed [] [] (top : Env α) top := by
  constructor
  · rintro name name' ⟨-, hFree⟩
    rw [← hFree rfl]
    cases hFind : (top : Env α).find? name with
    | none => exact .none
    | some value =>
        rcases find?_top_eq_some hFind with
          ⟨b, rfl⟩ | ⟨op, rfl⟩
        · exact .some (.bool b)
        · exact .some (.prim op)
  · rintro name name' ⟨-, hFree⟩ -
    exact hFree rfl

end Env

end LamLang

------------------------------------------------------------
-- Evaluation And Renaming
------------------------------------------------------------

namespace LamLang

variable {α : Type} [Describe α]

/- Renamed values look alike. -/
theorem Value.renamed_faithful :
    Value.Faithful (Value.Renamed (α := α)) where
  num := .num
  bool := .bool
  text := .text
  alike := by
    intro value value' hRenamed
    cases hRenamed with
    | num n => exact .num n
    | bool b => exact .bool b
    | text s => exact .text s
    | prim op => exact .prim op
    | closure _ _ _ => exact .closure _ _ _ _ _ _
    | foreign object => exact .foreign rfl

/-
  Equivalent expressions, in environments renamed like the
  parameter lists around them, are evaluated in lockstep.
-/
theorem renamed_simulation :
    Simulation (Value.Renamed (α := α))
      fun e env e' env' =>
        ∃ scopes scopes',
          Expr.Alpha scopes scopes' e e' ∧
            Env.Renamed scopes scopes' env env' where
  faithful := Value.renamed_faithful
  step := by
    rintro e env e' env' ⟨scopes, scopes', hAlpha, hEnv⟩
    cases hAlpha with
    | num n => exact .num n
    | text s => exact .text s
    | ident hSame =>
        exact
          .ident (hEnv.found _ _ hSame)
            (hEnv.unbound _ _ hSame)
    | cond hTest hYes hNo =>
        exact
          .cond ⟨scopes, scopes', hTest, hEnv⟩
            ⟨scopes, scopes', hYes, hEnv⟩
            ⟨scopes, scopes', hNo, hEnv⟩
    | lam hLength hBody =>
        exact
          .lam
            (.closure (.lam hLength hBody) hEnv.found
              hEnv.unbound)
    | app hFn hArgs =>
        refine .app ⟨scopes, scopes', hFn, hEnv⟩ ?_
        apply hArgs.forall₂.imp
        intro arg arg' hArg
        exact ⟨scopes, scopes', hArg, hEnv⟩
    | foreign object => exact .foreign object
  enter := by
    intro params body env params' body' env' hClosure
    cases hClosure with
    | closure hCode hFound hUnbound =>
        cases hCode with
        | lam hParams hBody =>
            refine ⟨hParams, ?_⟩
            intro values values' hValues hLength
            have hEnv : Env.Renamed _ _ env env' :=
              ⟨hFound, hUnbound⟩
            exact
              ⟨_, _, hBody,
                hEnv.zip_append hParams hLength hValues⟩

/-
  Programs that differ in the names of parameters only give
  values that are written alike, or the same failure, within
  every bound on depth.
-/
theorem eval_alpha_equivalent
    (depth : Nat)
    {e e' : Expr α}
    (hAlpha : Expr.Alpha [] [] e e') :
    Corresponds
      (fun value value' => value.written = value'.written)
      (eval depth e Env.top) (eval depth e' Env.top) := by
  have hRelated :=
    renamed_simulation.eval_corresponds depth
      ⟨[], [], hAlpha, Env.renamed_top⟩
  apply hRelated.mono
  intro value value' hValue
  exact (Value.renamed_faithful.alike _ _ hValue).written

/-
  A sum of a constant and the first of two parameters, with
  the names of all parameters left open.
-/
def Program.nestedSum
    (first second inner : String) : Program :=
  .app
    (.lam [first, second]
      (.app
        (.lam [inner]
          (.app (.ident "+")
            [.ident first, .ident inner]))
        [.num (.int 3)]))
    [.num (.int 1), .num (.int 2)]

/-
  A parameter given twice, the name of a constant for a
  parameter and a name bound again inside change nothing.
-/
theorem eval_alpha_equivalent_nestedSum :
    Expr.Alpha [] [] (Program.nestedSum "x" "x" "y")
        (Program.nestedSum "true" "z" "z") ∧
      Corresponds
        (fun value value' =>
          value.written = value'.written)
        (eval 5 (Program.nestedSum "x" "x" "y") Env.top)
        (eval 5 (Program.nestedSum "true" "z" "z")
          Env.top) := by
  have hAlpha :
      Expr.Alpha [] [] (Program.nestedSum "x" "x" "y")
        (Program.nestedSum "true" "z" "z") := by
    refine
      .app
        (.lam rfl
          (.app
            (.lam rfl
              (.app (.ident ⟨?_, ?_⟩)
                (.cons (.ident ⟨?_, ?_⟩)
                  (.cons (.ident ⟨?_, ?_⟩) .nil))))
            (.cons (.num _) .nil)))
        (.cons (.num _) (.cons (.num _) .nil))
    all_goals decide
  exact ⟨hAlpha, eval_alpha_equivalent 5 hAlpha⟩

end LamLang
