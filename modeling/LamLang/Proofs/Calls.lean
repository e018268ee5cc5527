import LamLang.Proofs.Failures
import Mathlib.Logic.Relation

/-
  The calls that an evaluation makes.

  A call is an evaluation to be made.  It asks for the parts
  of its expression in its own environment, or enters the
  body of a closure.  The outcome of a call is the outcome
  of a call that it makes, or one that it gives by itself;
  whatever holds of all outcomes is proved from these two.

  Key definitions include:
    * `LamLang.Call`
    * `LamLang.Call.Asks`
    * `LamLang.Call.Enters`
    * `LamLang.Call.Makes`
    * `LamLang.Call.Gives`
    * `LamLang.Call.Invariant`

  Main statements:
    * `LamLang.Call.gives_or_makes`
    * `LamLang.Call.reaches_gives`
    * `LamLang.Call.reaches_unbound`
    * `LamLang.Call.Invariant.value`
    * `LamLang.Call.Invariant.reaches`
-/

------------------------------------------------------------
-- Outcomes Taken Apart
------------------------------------------------------------

namespace LamLang

variable {β γ ι : Type}

theorem ok_bind
    (b : β)
    (f : β → Except Failure γ) :
    (.ok b >>= f) = f b := rfl

theorem map_eq_ok
    {x : Except Failure β}
    {f : β → γ}
    {c : γ}
    (h : x.map f = .ok c) :
    ∃ b, x = .ok b ∧ f b = c := by
  cases x with
  | error failure => cases h
  | ok b =>
      cases h
      exact ⟨b, rfl, rfl⟩

theorem bind_eq_error
    {x : Except Failure β}
    {f : β → Except Failure γ}
    {failure : Failure}
    (h : (x >>= f) = .error failure) :
    x = .error failure ∨
      ∃ b, x = .ok b ∧ f b = .error failure := by
  cases x with
  | error failure' =>
      cases h
      exact .inl rfl
  | ok b => exact .inr ⟨b, rfl, h⟩

/-
  Of a list of computations run from left to right, one that
  is run, since those before it succeed.
-/
def Runs
    (f : ι → Except Failure β)
    (items : List ι)
    (item : ι) : Prop :=
  ∃ before after earlier,
    items = before ++ item :: after ∧
      before.mapM f = .ok earlier

theorem Runs.head
    {f : ι → Except Failure β}
    {item : ι}
    {items : List ι} :
    Runs f (item :: items) item :=
  ⟨[], items, [], rfl, rfl⟩

theorem Runs.cons
    {f : ι → Except Failure β}
    {first item : ι}
    {items : List ι}
    {b : β}
    (hFirst : f first = .ok b)
    (h : Runs f items item) :
    Runs f (first :: items) item := by
  rcases h with ⟨before, after, earlier, rfl, hBefore⟩
  refine
    ⟨first :: before, after, b :: earlier, rfl, ?_⟩
  rw [List.mapM_cons, hFirst, hBefore]
  rfl

theorem Runs.mem
    {f : ι → Except Failure β}
    {items : List ι}
    {item : ι}
    (hRuns : Runs f items item) :
    item ∈ items := by
  rcases hRuns with ⟨before, after, -, rfl, -⟩
  simp

/- A result in the list is the result of one that is run. -/
theorem mapM_ok_mem
    {f : ι → Except Failure β}
    {items : List ι}
    {results : List β}
    (h : items.mapM f = .ok results)
    {result : β}
    (hResult : result ∈ results) :
    ∃ item, Runs f items item ∧ f item = .ok result := by
  induction items generalizing results with
  | nil =>
      cases h
      cases hResult
  | cons first items ih =>
      rw [List.mapM_cons] at h
      rcases bind_eq_ok h with ⟨b, hFirst, hRest⟩
      rcases bind_eq_ok hRest with ⟨rest, hItems, hPure⟩
      cases hPure
      rcases List.mem_cons.mp hResult with rfl | hLater
      · exact ⟨first, .head, hFirst⟩
      · rcases ih hItems hLater with ⟨item, hRuns, hItem⟩
        exact ⟨item, hRuns.cons hFirst, hItem⟩

/- Every item of a list that succeeds has a result in it. -/
theorem exists_mem_of_mapM_ok
    {f : ι → Except Failure β}
    {items : List ι}
    {results : List β}
    (h : items.mapM f = .ok results)
    {item : ι}
    (hItem : item ∈ items) :
    ∃ result ∈ results, f item = .ok result := by
  induction items generalizing results with
  | nil => cases hItem
  | cons first items ih =>
      rw [List.mapM_cons] at h
      rcases bind_eq_ok h with ⟨b, hFirst, hRest⟩
      rcases bind_eq_ok hRest with ⟨rest, hItems, hPure⟩
      cases hPure
      rcases List.mem_cons.mp hItem with rfl | hLater
      · exact ⟨b, by simp, hFirst⟩
      · rcases ih hItems hLater with ⟨result, hMem, hResult⟩
        exact ⟨result, by simp [hMem], hResult⟩

/- A failure of the list is the failure of one that is run. -/
theorem mapM_error
    {f : ι → Except Failure β}
    {items : List ι}
    {failure : Failure}
    (h : items.mapM f = .error failure) :
    ∃ item,
      Runs f items item ∧ f item = .error failure := by
  induction items with
  | nil => cases h
  | cons first items ih =>
      rw [List.mapM_cons] at h
      rcases bind_eq_error h with
        hFirst | ⟨b, hFirst, hRest⟩
      · exact ⟨first, .head, hFirst⟩
      · rcases bind_eq_error hRest with
          hItems | ⟨rest, -, hPure⟩
        · rcases ih hItems with ⟨item, hRuns, hItem⟩
          exact ⟨item, hRuns.cons hFirst, hItem⟩
        · cases hPure

end LamLang

------------------------------------------------------------
-- Calls
------------------------------------------------------------

namespace LamLang

variable {α : Type} [Describe α]

/- An evaluation to be made. -/
structure Call (α : Type) where
  depth : Nat
  node : Expr α
  env : Env α

namespace Call

/- What the evaluation comes to. -/
def outcome
    (call : Call α) :
    Except Failure (Value α) :=
  eval call.depth call.node call.env

/-
  A call asks for a part of its expression, in its own
  environment.  The parts are numbered from the left.  An
  argument is asked for once the function and the arguments
  before it have given values.
-/
inductive Asks : Call α → Nat → Call α → Prop
| test
    {depth : Nat}
    {test yes no : Expr α}
    {env : Env α} :
    Asks ⟨depth + 1, .cond test yes no, env⟩ 0
      ⟨depth, test, env⟩
| yes
    {depth : Nat}
    {test yes no : Expr α}
    {env : Env α}
    (hTest : eval depth test env = .ok (.bool true)) :
    Asks ⟨depth + 1, .cond test yes no, env⟩ 1
      ⟨depth, yes, env⟩
| no
    {depth : Nat}
    {test yes no : Expr α}
    {env : Env α}
    (hTest : eval depth test env = .ok (.bool false)) :
    Asks ⟨depth + 1, .cond test yes no, env⟩ 2
      ⟨depth, no, env⟩
| fn
    {depth : Nat}
    {fn : Expr α}
    {args : List (Expr α)}
    {env : Env α} :
    Asks ⟨depth + 1, .app fn args, env⟩ 0 ⟨depth, fn, env⟩
| arg
    {depth : Nat}
    {fn arg : Expr α}
    {before after : List (Expr α)}
    {env : Env α}
    {callee : Value α}
    {earlier : List (Value α)}
    (hFn : eval depth fn env = .ok callee)
    (hBefore :
      before.mapM (fun arg => eval depth arg env) =
        .ok earlier) :
    Asks ⟨depth + 1, .app fn (before ++ arg :: after), env⟩
      (before.length + 1) ⟨depth, arg, env⟩

/-
  A call enters the body of a closure, in the environment of
  the closure with the parameters bound in front.
-/
inductive Enters :
    Call α → List String → Expr α → Env α → Call α → Prop
| intro
    {depth : Nat}
    {fn body : Expr α}
    {args : List (Expr α)}
    {env captured inner : Env α}
    {params : List String}
    {values : List (Value α)}
    (hFn :
      eval depth fn env =
        .ok (.closure params body captured))
    (hArgs :
      args.mapM (fun arg => eval depth arg env) =
        .ok values)
    (hInner : captured.extend params values = .ok inner) :
    Enters ⟨depth + 1, .app fn args, env⟩ params body
      captured ⟨depth, body, inner⟩

/- The calls that a call makes at once. -/
def Makes
    (call next : Call α) : Prop :=
  (∃ index, call.Asks index next) ∨
    ∃ params body captured,
      call.Enters params body captured next

/- The outcomes that a call does not take from another. -/
inductive Gives :
    Call α → Except Failure (Value α) → Prop
| exceeded
    {node : Expr α}
    {env : Env α} :
    Gives ⟨0, node, env⟩ (.error .depthExceeded)
| num
    {depth : Nat}
    {n : Number}
    {env : Env α} :
    Gives ⟨depth + 1, .num n, env⟩ (.ok (.num n))
| text
    {depth : Nat}
    {s : String}
    {env : Env α} :
    Gives ⟨depth + 1, .text s, env⟩ (.ok (.text s))
| ident
    {depth : Nat}
    {name : String}
    {env : Env α} :
    Gives ⟨depth + 1, .ident name, env⟩ (env.lookup name)
| lam
    {depth : Nat}
    {params : List String}
    {body : Expr α}
    {env : Env α} :
    Gives ⟨depth + 1, .lam params body, env⟩
      (.ok (.closure params body env))
| foreign
    {depth : Nat}
    {object : α}
    {env : Env α} :
    Gives ⟨depth + 1, .foreign object, env⟩
      (Describe.describe object >>= fun description =>
        .error (.cause (.unknownTerm description)))
| unchosen
    {depth : Nat}
    {test yes no : Expr α}
    {env : Env α}
    {value : Value α}
    {failure : Failure}
    (hTest : eval depth test env = .ok value)
    (hChoice : choose value yes no = .error failure) :
    Gives ⟨depth + 1, .cond test yes no, env⟩
      (.error failure)
| operator
    {depth : Nat}
    {fn : Expr α}
    {args : List (Expr α)}
    {env : Env α}
    {op : String}
    {values : List (Value α)}
    (hFn : eval depth fn env = .ok (.prim op))
    (hArgs :
      args.mapM (fun arg => eval depth arg env) =
        .ok values) :
    Gives ⟨depth + 1, .app fn args, env⟩
      (Primitive.apply op values)
| unextended
    {depth : Nat}
    {fn body : Expr α}
    {args : List (Expr α)}
    {env captured : Env α}
    {params : List String}
    {values : List (Value α)}
    {failure : Failure}
    (hFn :
      eval depth fn env =
        .ok (.closure params body captured))
    (hArgs :
      args.mapM (fun arg => eval depth arg env) =
        .ok values)
    (hExtend :
      captured.extend params values = .error failure) :
    Gives ⟨depth + 1, .app fn args, env⟩ (.error failure)
| uncallable
    {depth : Nat}
    {fn : Expr α}
    {args : List (Expr α)}
    {env : Env α}
    {callee : Value α}
    {values : List (Value α)}
    (hFn : eval depth fn env = .ok callee)
    (hArgs :
      args.mapM (fun arg => eval depth arg env) =
        .ok values)
    (hPrim : ∀ op, callee ≠ .prim op)
    (hClosure :
      ∀ params body captured,
        callee ≠ .closure params body captured) :
    Gives ⟨depth + 1, .app fn args, env⟩
      (callee.written >>= fun text =>
        .error (.cause (.notCallable text)))

end Call

end LamLang

------------------------------------------------------------
-- Where Outcomes Come From
------------------------------------------------------------

namespace LamLang

variable {α : Type} [Describe α]

/- Only a truth value chooses a branch. -/
theorem choose_eq_ok
    {test : Value α}
    {yes no branch : Expr α}
    (h : choose test yes no = .ok branch) :
    (test = .bool true ∧ branch = yes) ∨
      (test = .bool false ∧ branch = no) := by
  cases test with
  | bool b =>
      cases b with
      | true =>
          cases h
          exact .inl ⟨rfl, rfl⟩
      | false =>
          cases h
          exact .inr ⟨rfl, rfl⟩
  | _ =>
      rcases bind_eq_ok h with ⟨text, -, hFailed⟩
      cases hFailed

namespace Primitive

/- An operator gives a number or a truth value. -/
omit [Describe α] in
theorem compute_eq_ok
    {op : Primitive}
    {a b : Number}
    {value : Value α}
    (h : op.compute a b = .ok value) :
    (∃ n, value = .num n) ∨ ∃ b, value = .bool b := by
  cases op with
  | le =>
      cases h
      exact .inr ⟨_, rfl⟩
  | equal =>
      cases h
      exact .inr ⟨_, rfl⟩
  | div =>
      simp only [compute] at h
      split at h
      · rcases bind_eq_ok h with ⟨dividend, -, hFailed⟩
        cases hFailed
      · rcases map_eq_ok h with ⟨n, -, rfl⟩
        exact .inl ⟨n, rfl⟩
  | _ =>
      rcases map_eq_ok h with ⟨n, -, rfl⟩
      exact .inl ⟨n, rfl⟩

theorem apply_eq_ok
    {name : String}
    {args : List (Value α)}
    {value : Value α}
    (h : apply name args = .ok value) :
    (∃ n, value = .num n) ∨ ∃ b, value = .bool b := by
  unfold apply at h
  split at h
  · cases h
  · rename_i op hName
    split at h
    · rename_i left right
      unfold run at h
      split at h
      · cases h
        exact .inr ⟨_, rfl⟩
      · rcases bind_eq_ok h with ⟨a, -, hRight⟩
        rcases bind_eq_ok hRight with ⟨b, -, hComputed⟩
        exact compute_eq_ok hComputed
    · cases h

end Primitive

namespace Call

/- A call made has one level of depth less. -/
theorem Makes.depth_eq
    {call next : Call α}
    (h : call.Makes next) :
    call.depth = next.depth + 1 := by
  rcases h with
    ⟨index, hAsks⟩ | ⟨params, body, captured, hEnters⟩
  · cases hAsks <;> rfl
  · cases hEnters
    rfl

/- The application of a value already found. -/
theorem applied_gives_or_makes
    {depth : Nat}
    {fn : Expr α}
    {args : List (Expr α)}
    {env : Env α}
    {callee : Value α}
    {values : List (Value α)}
    (hFn : eval depth fn env = .ok callee)
    (hArgs :
      args.mapM (fun arg => eval depth arg env) =
        .ok values) :
    Gives ⟨depth + 1, .app fn args, env⟩
        (callee.applyWith (eval depth) values) ∨
      ∃ next,
        Makes ⟨depth + 1, .app fn args, env⟩ next ∧
          next.outcome =
            callee.applyWith (eval depth) values := by
  cases callee with
  | prim op => exact .inl (.operator hFn hArgs)
  | closure params body captured =>
      cases hExtend : Env.extend captured params values with
      | error failure =>
          have hGives := Gives.unextended hFn hArgs hExtend
          simp only [Value.applyWith, hExtend]
          exact .inl hGives
      | ok inner =>
          have hEnters := Enters.intro hFn hArgs hExtend
          simp only [Value.applyWith, hExtend]
          exact
            .inr ⟨_, .inr ⟨_, _, _, hEnters⟩, rfl⟩
  | num n =>
      exact .inl (.uncallable hFn hArgs (by simp) (by simp))
  | bool b =>
      exact .inl (.uncallable hFn hArgs (by simp) (by simp))
  | text s =>
      exact .inl (.uncallable hFn hArgs (by simp) (by simp))
  | foreign object =>
      exact .inl (.uncallable hFn hArgs (by simp) (by simp))

/-
  The outcome of a call is given by the call itself, or it
  is the outcome of a call that it makes.
-/
theorem gives_or_makes
    (call : Call α) :
    call.Gives call.outcome ∨
      ∃ next,
        call.Makes next ∧
          next.outcome = call.outcome := by
  rcases call with ⟨depth, node, env⟩
  cases depth with
  | zero => exact .inl .exceeded
  | succ depth =>
      cases node with
      | num n => exact .inl .num
      | text s => exact .inl .text
      | ident name => exact .inl .ident
      | lam params body => exact .inl .lam
      | foreign object => exact .inl .foreign
      | cond test yes no =>
          simp only [outcome, eval]
          cases hTest : eval depth test env with
          | error failure =>
              exact .inr ⟨_, .inl ⟨0, .test⟩, hTest⟩
          | ok value =>
              cases hChoice : choose value yes no with
              | error failure =>
                  have hGives :=
                    Gives.unchosen hTest hChoice
                  simp only [ok_bind, hChoice]
                  exact .inl hGives
              | ok branch =>
                  simp only [ok_bind, hChoice]
                  rcases choose_eq_ok hChoice with
                    ⟨rfl, rfl⟩ | ⟨rfl, rfl⟩
                  · exact .inr ⟨_, .inl ⟨1, .yes hTest⟩, rfl⟩
                  · exact .inr ⟨_, .inl ⟨2, .no hTest⟩, rfl⟩
      | app fn args =>
          simp only [outcome, eval]
          cases hFn : eval depth fn env with
          | error failure =>
              exact .inr ⟨_, .inl ⟨0, .fn⟩, hFn⟩
          | ok callee =>
              cases hArgs :
                  args.mapM fun arg =>
                    eval depth arg env with
              | error failure =>
                  rcases mapM_error hArgs with
                    ⟨arg, ⟨before, after, earlier, rfl,
                      hBefore⟩, hArg⟩
                  simp only [ok_bind]
                  exact
                    .inr
                      ⟨_, .inl ⟨_, .arg hFn hBefore⟩, hArg⟩
              | ok values =>
                  simp only [ok_bind]
                  exact applied_gives_or_makes hFn hArgs

/- Some call that is reached gives the outcome itself. -/
theorem reaches_gives
    (call : Call α) :
    ∃ last,
      Relation.ReflTransGen Makes call last ∧
        last.Gives call.outcome := by
  induction hDepth : call.depth generalizing call with
  | zero =>
      rcases call with ⟨depth, node, env⟩
      cases hDepth
      exact ⟨_, .refl, .exceeded⟩
  | succ depth ih =>
      rcases call.gives_or_makes with
        hGives | ⟨next, hMakes, hOutcome⟩
      · exact ⟨call, .refl, hGives⟩
      · have hNext : next.depth = depth := by
          have hSucc := hMakes.depth_eq
          omega
        rcases ih next hNext with ⟨last, hReach, hLast⟩
        rw [hOutcome] at hLast
        exact ⟨last, .head hMakes hReach, hLast⟩

/-
  A failure that a call accounts for: if it says that a name
  is unbound, then the call looks up that name in vain.
-/
def Accounts
    (call : Call α)
    (failure : Failure) : Prop :=
  ∀ name, failure = .cause (.unbound name) →
    call.node = .ident name ∧ call.env.find? name = none

omit [Describe α] in
theorem accounts_mishap
    (call : Call α)
    (event : Mishap) :
    call.Accounts (.mishap event) := by
  intro name hFailure
  cases hFailure

omit [Describe α] in
theorem accounts_cause
    (call : Call α)
    {cause : Cause}
    (hKind : cause.kind ≠ .unboundIdentifier) :
    call.Accounts (.cause cause) := by
  rintro name ⟨⟩
  exact absurd rfl hKind

/- A call accounts for the failures that it gives itself. -/
theorem Gives.failsOnly_accounts
    {call : Call Empty}
    {outcome : Except Failure (Value Empty)}
    (h : call.Gives outcome) :
    FailsOnly call.Accounts outcome := by
  have hMishap :
      ∀ event ∈ Number.mishaps,
        call.Accounts (.mishap event) :=
    fun event _ => accounts_mishap call event
  have hWritten {value : Value Empty} :
      FailsOnly call.Accounts value.written :=
    Value.written_failsOnly hMishap
      (Value.native_of_isEmpty value)
  cases h with
  | exceeded =>
      apply FailsOnly.error
      intro name hFailure
      cases hFailure
  | num => exact .ok _
  | text => exact .ok _
  | lam => exact .ok _
  | foreign =>
      rename_i object _
      exact nomatch object
  | ident =>
      unfold Env.lookup
      split
      · exact .ok _
      · rename_i hNone
        apply FailsOnly.error
        rintro name ⟨⟩
        exact ⟨rfl, hNone⟩
  | unchosen hTest hChoice =>
      apply FailsOnly.error
      refine choose_failsOnly ?_ hWritten _ _ _ hChoice
      intro text
      exact accounts_cause _ (by simp [Cause.kind])
  | operator hFn hArgs =>
      apply Primitive.apply_failsOnly
      · intro cause hBlamed
        apply accounts_cause
        intro hUnbound
        have hKind := hBlamed.kind
        simp [hUnbound, Primitive.faultKinds] at hKind
      · exact hMishap
      · intro hName
        exact accounts_cause _ (by simp [Cause.kind])
      · intro arg hArg
        exact Value.native_of_isEmpty arg
  | unextended hFn hArgs hExtend =>
      apply FailsOnly.error
      rcases Env.extend_eq_error_iff.mp hExtend with ⟨-, rfl⟩
      exact accounts_cause _ (by simp [Cause.kind])
  | uncallable hFn hArgs hPrim hClosure =>
      refine Value.refused_failsOnly ?_ hWritten
      intro text
      exact accounts_cause _ (by simp [Cause.kind])

/-
  A name is found unbound by a call that is reached, which
  looks it up where it is not bound.
-/
theorem reaches_unbound
    {call : Call Empty}
    {name : String}
    (h :
      call.outcome = .error (.cause (.unbound name))) :
    ∃ last,
      Relation.ReflTransGen Makes call last ∧
        last.node = .ident name ∧
        last.env.find? name = none := by
  rcases call.reaches_gives with ⟨last, hReach, hGives⟩
  have hLast := hGives.failsOnly_accounts _ h name rfl
  exact ⟨last, hReach, hLast⟩

end Call

end LamLang

------------------------------------------------------------
-- Invariants
------------------------------------------------------------

namespace LamLang

variable {α : Type} [Describe α]

namespace Call

/-
  A property of calls and a property of values that hold
  along an evaluation.  A call hands the first on to what it
  asks for and gives values with the second; a closure with
  the second is entered by calls with the first.
-/
structure Invariant
    (I : Call α → Prop)
    (Q : Value α → Prop) :
    Prop where
  asks :
    ∀ call index next,
      I call → call.Asks index next → I next
  enters :
    ∀ params body captured values inner depth,
      Q (.closure params body captured) →
        (∀ value ∈ values, Q value) →
        Env.extend captured params values = .ok inner →
        I ⟨depth, body, inner⟩
  gives :
    ∀ call outcome value,
      I call → call.Gives outcome → outcome = .ok value →
        Q value

namespace Invariant

variable {I : Call α → Prop} {Q : Value α → Prop}

/- The function and the arguments of an application. -/
theorem operands
    (hInv : Invariant I Q)
    {depth : Nat}
    (hValues :
      ∀ node env value,
        I ⟨depth, node, env⟩ →
          eval depth node env = .ok value → Q value)
    {fn : Expr α}
    {args : List (Expr α)}
    {env : Env α}
    {callee : Value α}
    {values : List (Value α)}
    (hCall : I ⟨depth + 1, .app fn args, env⟩)
    (hFn : eval depth fn env = .ok callee)
    (hArgs :
      args.mapM (fun arg => eval depth arg env) =
        .ok values) :
    Q callee ∧ ∀ value ∈ values, Q value := by
  constructor
  · exact hValues _ _ _ (hInv.asks _ _ _ hCall .fn) hFn
  · intro value hMem
    rcases mapM_ok_mem hArgs hMem with
      ⟨arg, ⟨before, after, earlier, rfl, hBefore⟩, hArg⟩
    have hAsked := hInv.asks _ _ _ hCall (.arg hFn hBefore)
    exact hValues _ _ _ hAsked hArg

theorem makes
    (hInv : Invariant I Q)
    {depth : Nat}
    (hValues :
      ∀ node env value,
        I ⟨depth, node, env⟩ →
          eval depth node env = .ok value → Q value)
    {node : Expr α}
    {env : Env α}
    {next : Call α}
    (hCall : I ⟨depth + 1, node, env⟩)
    (hMakes : Makes ⟨depth + 1, node, env⟩ next) :
    I next := by
  rcases hMakes with
    ⟨index, hAsks⟩ | ⟨params, body, captured, hEnters⟩
  · exact hInv.asks _ _ _ hCall hAsks
  · cases hEnters with
    | intro hFn hArgs hInner =>
        rcases hInv.operands hValues hCall hFn hArgs with
          ⟨hCallee, hArguments⟩
        exact
          hInv.enters _ _ _ _ _ _ hCallee hArguments hInner

/- The value of a call with the property. -/
theorem value
    (hInv : Invariant I Q)
    {depth : Nat}
    {node : Expr α}
    {env : Env α}
    {value : Value α}
    (hCall : I ⟨depth, node, env⟩)
    (hValue : eval depth node env = .ok value) :
    Q value := by
  induction depth generalizing node env value with
  | zero => cases hValue
  | succ depth ih =>
      rcases Call.gives_or_makes ⟨depth + 1, node, env⟩ with
        hGives | ⟨next, hMakes, hOutcome⟩
      · exact hInv.gives _ _ _ hCall hGives hValue
      · have hNext : I next :=
          hInv.makes (fun _ _ _ => ih) hCall hMakes
        have hDepth : depth = next.depth := by
          have hSucc := hMakes.depth_eq
          simpa using hSucc
        rcases next with ⟨nextDepth, nextNode, nextEnv⟩
        cases hDepth
        exact ih hNext (hOutcome.trans hValue)

theorem application
    (hInv : Invariant I Q)
    {depth : Nat}
    {fn : Expr α}
    {args : List (Expr α)}
    {env : Env α}
    {callee : Value α}
    {values : List (Value α)}
    (hCall : I ⟨depth + 1, .app fn args, env⟩)
    (hFn : eval depth fn env = .ok callee)
    (hArgs :
      args.mapM (fun arg => eval depth arg env) =
        .ok values) :
    Q callee ∧ ∀ value ∈ values, Q value :=
  hInv.operands (fun _ _ _ => hInv.value) hCall hFn hArgs

/- Every call that is reached has the property. -/
theorem reaches
    (hInv : Invariant I Q)
    {call last : Call α}
    (hCall : I call)
    (hReach : Relation.ReflTransGen Makes call last) :
    I last := by
  induction hReach with
  | refl => exact hCall
  | tail hReach hMakes ih =>
      rename_i middle next
      rcases middle with ⟨depth, node, env⟩
      have hDepth : depth = next.depth + 1 :=
        hMakes.depth_eq
      cases hDepth
      exact hInv.makes (fun _ _ _ => hInv.value) ih hMakes

end Invariant

end Call

end LamLang
