import LamLang.Eval
import Mathlib.Data.List.Forall2
import Mathlib.Data.Option.Basic

/-
  Outcomes of two computations, compared.

  Two computations correspond when both succeed with related
  results, or both fail with the very same failure.  The
  relation on results is a parameter, so that one set of
  lemmas serves every comparison of two evaluations.

  Key definitions include:
    * `LamLang.Corresponds`
    * `LamLang.Value.Alike`
    * `LamLang.Value.Faithful`

  Main statements:
    * `LamLang.Corresponds.bind`
    * `LamLang.Corresponds.mapM`
    * `LamLang.Primitive.apply_corresponds`
    * `LamLang.Value.applyWith_corresponds`
-/

------------------------------------------------------------
-- Corresponding Outcomes
------------------------------------------------------------

namespace LamLang

/-
  Related results on both sides, or one failure on both.
-/
inductive Corresponds
    {β γ : Type}
    (R : β → γ → Prop) :
    Except Failure β → Except Failure γ → Prop
| ok {b : β} {c : γ} (hRelated : R b c) :
    Corresponds R (.ok b) (.ok c)
| error (failure : Failure) :
    Corresponds R (.error failure) (.error failure)

namespace Corresponds

variable {β γ δ ε : Type}
variable {R : β → γ → Prop} {S : δ → ε → Prop}
variable {x : Except Failure β} {y : Except Failure γ}

/- A wider relation on results keeps the correspondence. -/
theorem mono
    {R' : β → γ → Prop}
    (hWider : ∀ b c, R b c → R' b c)
    (h : Corresponds R x y) :
    Corresponds R' x y := by
  cases h with
  | ok hRelated => exact .ok (hWider _ _ hRelated)
  | error failure => exact .error failure

/- Corresponding computations go on to corresponding ones. -/
theorem bind
    {f : β → Except Failure δ}
    {g : γ → Except Failure ε}
    (h : Corresponds R x y)
    (hNext : ∀ b c, R b c → Corresponds S (f b) (g c)) :
    Corresponds S (x >>= f) (y >>= g) := by
  cases h with
  | ok hRelated => exact hNext _ _ hRelated
  | error failure => exact .error failure

/- One computation with two readings of its result. -/
theorem map_same
    (z : Except Failure ε)
    {f : ε → β}
    {g : ε → γ}
    (hRelated : ∀ e, R (f e) (g e)) :
    Corresponds R (z.map f) (z.map g) := by
  cases z with
  | error failure => exact .error failure
  | ok e => exact .ok (hRelated e)

/- A failure that names what one computation gives. -/
theorem failing
    (z : Except Failure ε)
    (cause : ε → Failure) :
    Corresponds R (z >>= fun e => .error (cause e))
      (z >>= fun e => .error (cause e)) := by
  cases z with
  | error failure => exact .error failure
  | ok e => exact .error (cause e)

/-
  Computations that correspond one by one, run from left to
  right, give related lists or stop at the same failure.
-/
theorem mapM
    {ι κ : Type}
    {f : ι → Except Failure β}
    {g : κ → Except Failure γ}
    {xs : List ι}
    {ys : List κ}
    (h :
      List.Forall₂ (fun i k => Corresponds R (f i) (g k))
        xs ys) :
    Corresponds (List.Forall₂ R) (xs.mapM f)
      (ys.mapM g) := by
  induction h with
  | nil => exact .ok .nil
  | cons hHead _ ih =>
      rw [List.mapM_cons, List.mapM_cons]
      apply hHead.bind
      intro b c hFirst
      apply ih.bind
      intro bs cs hRest
      exact .ok (.cons hFirst hRest)

/- Results related by a function are results mapped by it. -/
theorem map_eq
    {f : β → γ}
    (h : Corresponds (fun b c => f b = c) x y) :
    x.map f = y := by
  cases h with
  | ok hRelated => exact congrArg Except.ok hRelated
  | error failure => rfl

end Corresponds

end LamLang

------------------------------------------------------------
-- Values That Look Alike
------------------------------------------------------------

namespace LamLang

namespace Value

variable {α β : Type} [Describe α] [Describe β]

/-
  Values that nothing but a call can tell apart: the same
  constant or operator, or any two closures.
-/
inductive Alike : Value α → Value β → Prop
| num (n : Number) : Alike (.num n) (.num n)
| bool (b : Bool) : Alike (.bool b) (.bool b)
| text (s : String) : Alike (.text s) (.text s)
| prim (op : String) : Alike (.prim op) (.prim op)
| closure
    (params : List String)
    (body : Expr α)
    (env : Env α)
    (params' : List String)
    (body' : Expr β)
    (env' : Env β) :
    Alike (.closure params body env)
      (.closure params' body' env')
| foreign
    {object : α}
    {object' : β}
    (hDescribed :
      Describe.describe object =
        Describe.describe object') :
    Alike (.foreign object) (.foreign object')

namespace Alike

variable {v v' : Value α} {w w' : Value β}

/- Values that look alike are written alike. -/
theorem written
    (h : Alike v w) :
    v.written = w.written := by
  cases h with
  | bool b => cases b <;> rfl
  | foreign hDescribed =>
      simp only [Value.written, hDescribed]
  | _ => rfl

/- The test for equality sees only how values look. -/
theorem equal
    (h : Alike v w)
    (h' : Alike v' w') :
    v.equal v' = w.equal w' := by
  cases h <;> cases h' <;> rfl

/- So does the check that an operand is a number. -/
theorem operand
    (op : Primitive)
    (h : Alike v w) :
    op.operand v = op.operand w := by
  cases h with
  | num n => rfl
  | bool b =>
      simp only [Primitive.operand,
        (Alike.bool (α := α) (β := β) b).written]
  | foreign hDescribed =>
      simp only [Primitive.operand,
        (Alike.foreign hDescribed).written]
  | _ => rfl

end Alike

/-
  A relation that holds between equal constants and never
  between values that look different.
-/
structure Faithful
    (R : Value α → Value β → Prop) : Prop where
  num : ∀ n, R (.num n) (.num n)
  bool : ∀ b, R (.bool b) (.bool b)
  text : ∀ s, R (.text s) (.text s)
  alike : ∀ v w, R v w → Alike v w

end Value

end LamLang

------------------------------------------------------------
-- Corresponding Steps
------------------------------------------------------------

namespace LamLang

/-
  Names are looked up alike when related values, or the same
  name unbound, are found for them.
-/
theorem Env.lookup_corresponds
    {α β : Type}
    {R : Value α → Value β → Prop}
    {env : Env α}
    {env' : Env β}
    {name name' : String}
    (hFound :
      Option.Rel R (env.find? name) (env'.find? name'))
    (hUnbound : env.find? name = none → name = name') :
    Corresponds R (env.lookup name) (env'.lookup name') := by
  unfold Env.lookup
  generalize hValue : env.find? name = found at hFound
  generalize env'.find? name' = found' at hFound
  cases hFound with
  | some hRelated => exact .ok hRelated
  | none =>
      rw [hUnbound hValue]
      exact .error _

variable {α β : Type} [Describe α] [Describe β]
variable {R : Value α → Value β → Prop}

namespace Primitive

/- Operators on numbers do not depend on foreign types. -/
theorem compute_corresponds
    (hFaithful : Value.Faithful R)
    (op : Primitive)
    (a b : Number) :
    Corresponds R (op.compute a b) (op.compute a b) := by
  cases op with
  | add => exact .map_same _ hFaithful.num
  | sub => exact .map_same _ hFaithful.num
  | mul => exact .map_same _ hFaithful.num
  | div =>
      simp only [compute]
      split
      · exact .failing _ _
      · exact .map_same _ hFaithful.num
  | le => exact .ok (hFaithful.bool _)
  | equal => exact .ok (hFaithful.bool _)

/- An operator treats related operands alike. -/
theorem run_corresponds
    (hFaithful : Value.Faithful R)
    (op : Primitive)
    {v v' : Value α}
    {w w' : Value β}
    (hLeft : R v w)
    (hRight : R v' w') :
    Corresponds R (op.run v v') (op.run w w') := by
  have hAlike := hFaithful.alike _ _ hLeft
  have hAlike' := hFaithful.alike _ _ hRight
  unfold run
  split
  · rw [hAlike.equal hAlike']
    exact .ok (hFaithful.bool _)
  · rw [hAlike.operand op, hAlike'.operand op]
    cases op.operand w with
    | error failure => exact .error failure
    | ok a =>
        cases op.operand w' with
        | error failure => exact .error failure
        | ok b => exact compute_corresponds hFaithful op a b

/- A named operator treats related arguments alike. -/
theorem apply_corresponds
    (hFaithful : Value.Faithful R)
    (name : String)
    {args : List (Value α)}
    {args' : List (Value β)}
    (hArgs : List.Forall₂ R args args') :
    Corresponds R (apply name args) (apply name args') := by
  unfold apply
  cases ofName? name with
  | none => exact .error _
  | some op =>
      cases hArgs with
      | nil => exact .error _
      | cons hLeft hRest =>
          cases hRest with
          | nil => exact .error _
          | cons hRight hMore =>
              cases hMore with
              | nil =>
                  exact run_corresponds hFaithful op hLeft
                    hRight
              | cons _ hLast =>
                  simp only [List.length_cons,
                    hLast.length_eq]
                  exact .error _

end Primitive

/- Tests that look alike choose the same branch. -/
theorem choose_corresponds
    (hFaithful : Value.Faithful R)
    {S : Expr α → Expr β → Prop}
    {test : Value α}
    {test' : Value β}
    {yes no : Expr α}
    {yes' no' : Expr β}
    (hTest : R test test')
    (hYes : S yes yes')
    (hNo : S no no') :
    Corresponds S (choose test yes no)
      (choose test' yes' no') := by
  have hAlike := hFaithful.alike _ _ hTest
  have hWritten := hAlike.written
  cases hAlike with
  | bool b =>
      cases b with
      | true => exact .ok hYes
      | false => exact .ok hNo
  | foreign hDescribed =>
      simp only [choose, hWritten]
      exact .failing _ _
  | num n => exact .failing n.text _
  | _ => exact .error _

/-
  Related callees treat related arguments alike, if related
  closures take as many arguments and run related bodies.
-/
theorem Value.applyWith_corresponds
    (hFaithful : Value.Faithful R)
    {run : Expr α → Env α → Except Failure (Value α)}
    {run' : Expr β → Env β → Except Failure (Value β)}
    {fn : Value α}
    {fn' : Value β}
    {args : List (Value α)}
    {args' : List (Value β)}
    (hFn : R fn fn')
    (hArgs : List.Forall₂ R args args')
    (hCall :
      ∀ params body env params' body' env',
        R (.closure params body env)
            (.closure params' body' env') →
          params.length = params'.length ∧
            (params.length = args.length →
              Corresponds R
                (run body (params.zip args ++ env))
                (run' body'
                  (params'.zip args' ++ env')))) :
    Corresponds R (fn.applyWith run args)
      (fn'.applyWith run' args') := by
  have hAlike := hFaithful.alike _ _ hFn
  have hWritten := hAlike.written
  cases hAlike with
  | prim op =>
      exact Primitive.apply_corresponds hFaithful op hArgs
  | closure params body env params' body' env' =>
      rcases hCall _ _ _ _ _ _ hFn with ⟨hParams, hBody⟩
      have hCount := hArgs.length_eq
      simp only [applyWith, Env.extend_eq, ← hParams,
        ← hCount]
      split
      · rename_i hArity
        exact hBody hArity
      · exact .error _
  | foreign hDescribed =>
      simp only [applyWith, hWritten]
      exact .failing _ _
  | num n => exact .failing n.text _
  | bool b => cases b <;> exact .error _
  | text s => exact .error _

end LamLang
