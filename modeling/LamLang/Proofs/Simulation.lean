import LamLang.Proofs.Outcome

/-
  Simulations between two evaluations.

  A simulation relates values with values and evaluations
  with evaluations.  It says what one step of related
  evaluations has in common; by induction on depth, related
  evaluations have corresponding outcomes at every bound.

  Key definitions include:
    * `LamLang.Lockstep`
    * `LamLang.Simulation`

  Main statements:
    * `LamLang.Simulation.eval_corresponds`
-/

------------------------------------------------------------
-- One Step
------------------------------------------------------------

namespace LamLang

variable {α : Type}

/-
  Two evaluations of the same form, whose parts are related
  by `S` and whose values are related by `R`.
-/
inductive Lockstep
    (R : Value α → Value α → Prop)
    (S : Expr α → Env α → Expr α → Env α → Prop)
    (env env' : Env α) :
    Expr α → Expr α → Prop
| num (n : Number) :
    Lockstep R S env env' (.num n) (.num n)
| text (s : String) :
    Lockstep R S env env' (.text s) (.text s)
| ident
    {name name' : String}
    (hFound :
      Option.Rel R (env.find? name) (env'.find? name'))
    (hUnbound : env.find? name = none → name = name') :
    Lockstep R S env env' (.ident name) (.ident name')
| cond
    {test yes no test' yes' no' : Expr α}
    (hTest : S test env test' env')
    (hYes : S yes env yes' env')
    (hNo : S no env no' env') :
    Lockstep R S env env' (.cond test yes no)
      (.cond test' yes' no')
| lam
    {params params' : List String}
    {body body' : Expr α}
    (hClosure :
      R (.closure params body env)
        (.closure params' body' env')) :
    Lockstep R S env env' (.lam params body)
      (.lam params' body')
| app
    {fn fn' : Expr α}
    {args args' : List (Expr α)}
    (hFn : S fn env fn' env')
    (hArgs :
      List.Forall₂ (fun arg arg' => S arg env arg' env')
        args args') :
    Lockstep R S env env' (.app fn args) (.app fn' args')
| foreign (object : α) :
    Lockstep R S env env' (.foreign object)
      (.foreign object)

/-
  Related evaluations go in lockstep, and related closures
  take as many arguments and run related bodies.
-/
structure Simulation
    [Describe α]
    (R : Value α → Value α → Prop)
    (S : Expr α → Env α → Expr α → Env α → Prop) :
    Prop where
  faithful : Value.Faithful R
  step :
    ∀ e env e' env',
      S e env e' env' → Lockstep R S env env' e e'
  enter :
    ∀ params body env params' body' env',
      R (.closure params body env)
          (.closure params' body' env') →
        params.length = params'.length ∧
          ∀ values values',
            List.Forall₂ R values values' →
            params.length = values.length →
              S body (params.zip values ++ env)
                body' (params'.zip values' ++ env')

end LamLang

------------------------------------------------------------
-- Whole Runs
------------------------------------------------------------

namespace LamLang

namespace Simulation

variable {α : Type} [Describe α]
variable {R : Value α → Value α → Prop}
variable {S : Expr α → Env α → Expr α → Env α → Prop}

/- Related evaluations have corresponding outcomes. -/
theorem eval_corresponds
    (hSim : Simulation R S)
    (depth : Nat)
    {e e' : Expr α}
    {env env' : Env α}
    (h : S e env e' env') :
    Corresponds R (eval depth e env) (eval depth e' env') := by
  -- A call evaluates a body that is no part of the caller,
  -- so the induction is on depth and not on expressions.
  induction depth generalizing e e' env env' with
  | zero => exact .error _
  | succ depth ih =>
      cases hSim.step _ _ _ _ h with
      | num n => exact .ok (hSim.faithful.num n)
      | text s => exact .ok (hSim.faithful.text s)
      | ident hFound hUnbound =>
          exact Env.lookup_corresponds hFound hUnbound
      | cond hTest hYes hNo =>
          simp only [eval]
          apply (ih hTest).bind
          intro value value' hValue
          have hBranch :=
            choose_corresponds hSim.faithful
              (S := fun e e' => S e env e' env')
              hValue hYes hNo
          apply hBranch.bind
          intro branch branch' hRelated
          exact ih hRelated
      | lam hClosure => exact .ok hClosure
      | app hFn hArgs =>
          simp only [eval]
          apply (ih hFn).bind
          intro callee callee' hCallee
          have hValues :=
            Corresponds.mapM
              (hArgs.imp fun _ _ hArg => ih hArg)
          apply hValues.bind
          intro values values' hRelated
          apply Value.applyWith_corresponds hSim.faithful
            hCallee hRelated
          intro params body inner params' body' inner' hFn
          rcases hSim.enter _ _ _ _ _ _ hFn with
            ⟨hLength, hBody⟩
          exact
            ⟨hLength, fun hArity =>
              ih (hBody _ _ hRelated hArity)⟩
      | foreign object => exact .failing _ _

end Simulation

end LamLang
