import LamLang.Datum.Result
import LamLang.Proofs.Bounds
import LamLang.Proofs.Names

/-
  Safety of evaluation.

  Parsing makes expressions without foreign objects.  From
  those, evaluation makes only well-formed values: operators
  that exist, and closures whose bodies and environments are
  of the same sort.  So the failures that guard against
  anything else never happen, whatever is handed in.

  Key definitions include:
    * `LamLang.Expr.Native`
    * `LamLang.Value.WellFormed`
    * `LamLang.Failure.Ordinary`

  Main statements:
    * `LamLang.wellFormed_invariant`
    * `LamLang.eval_failsOnly_ordinary`
    * `LamLang.results_fail_ordinarily`
-/

------------------------------------------------------------
-- Well-Formed Values
------------------------------------------------------------

namespace LamLang

variable {α : Type}

/- Expressions of the six forms, without foreign objects. -/
inductive Expr.Native : Expr α → Prop
| num (n : Number) : Native (.num n)
| text (s : String) : Native (.text s)
| ident (name : String) : Native (.ident name)
| cond
    {test yes no : Expr α}
    (hTest : Native test)
    (hYes : Native yes)
    (hNo : Native no) :
    Native (.cond test yes no)
| lam
    (params : List String)
    {body : Expr α}
    (hBody : Native body) :
    Native (.lam params body)
| app
    {fn : Expr α}
    {args : List (Expr α)}
    (hFn : Native fn)
    (hArgs : ∀ arg ∈ args, Native arg) :
    Native (.app fn args)

theorem Expr.KeywordFree.native
    {e : Expr α}
    (h : e.KeywordFree) :
    e.Native := by
  induction h with
  | num n => exact .num n
  | text s => exact .text s
  | ident name => exact .ident name
  | cond _ _ _ ihTest ihYes ihNo =>
      exact .cond ihTest ihYes ihNo
  | lam params _ ihBody => exact .lam params ihBody
  | app _ _ _ _ ihFn ihArgs => exact .app ihFn ihArgs

/-
  Values that a program can come to.  An operator is one of
  the language's, the body of a closure is an expression,
  and every value it has captured is well-formed.
-/
inductive Value.WellFormed : Value α → Prop
| num (n : Number) : WellFormed (.num n)
| bool (b : Bool) : WellFormed (.bool b)
| text (s : String) : WellFormed (.text s)
| prim (op : Primitive) : WellFormed (.prim op.name)
| closure
    (params : List String)
    {body : Expr α}
    {env : Env α}
    (hBody : body.Native)
    (hEnv : ∀ binding ∈ env, WellFormed binding.2) :
    WellFormed (.closure params body env)

/- Environments of well-formed values. -/
def Env.WellFormed
    (env : Env α) : Prop :=
  ∀ binding ∈ env, binding.2.WellFormed

/- Evaluations of an expression among such values. -/
def Call.WellFormed
    (call : Call α) : Prop :=
  call.node.Native ∧ call.env.WellFormed

theorem Value.WellFormed.native
    {value : Value α}
    (h : value.WellFormed) :
    value.Native := by
  rintro object rfl
  cases h

theorem Env.wellFormed_top :
    (Env.top : Env α).WellFormed := by
  intro binding hMem
  simp only [Env.top, List.mem_cons, List.not_mem_nil,
    or_false] at hMem
  rcases hMem with
    rfl | rfl | rfl | rfl | rfl | rfl | rfl | rfl
  · exact .bool true
  · exact .bool false
  · exact .prim .add
  · exact .prim .sub
  · exact .prim .mul
  · exact .prim .div
  · exact .prim .le
  · exact .prim .equal

theorem Env.WellFormed.extend
    {env inner : Env α}
    {params : List String}
    {values : List (Value α)}
    (hEnv : env.WellFormed)
    (hValues : ∀ value ∈ values, value.WellFormed)
    (hInner : env.extend params values = .ok inner) :
    inner.WellFormed := by
  refine Env.forall_mem_of_extend hEnv ?_ hInner
  intro value hMem name
  exact hValues value hMem

end LamLang

------------------------------------------------------------
-- Well-Formed Runs
------------------------------------------------------------

namespace LamLang

variable {α : Type} [Describe α]

/- What a well-formed call asks for is well-formed. -/
theorem Call.WellFormed.asks
    {call next : Call α}
    {index : Nat}
    (hCall : call.WellFormed)
    (hAsks : call.Asks index next) :
    next.WellFormed := by
  rcases hCall with ⟨hNode, hEnv⟩
  cases hAsks with
  | test =>
      cases hNode with
      | cond hTest hYes hNo => exact ⟨hTest, hEnv⟩
  | yes _ =>
      cases hNode with
      | cond hTest hYes hNo => exact ⟨hYes, hEnv⟩
  | no _ =>
      cases hNode with
      | cond hTest hYes hNo => exact ⟨hNo, hEnv⟩
  | fn =>
      cases hNode with
      | app hFn hArgs => exact ⟨hFn, hEnv⟩
  | arg _ _ =>
      cases hNode with
      | app hFn hArgs => exact ⟨hArgs _ (by simp), hEnv⟩

/- What a well-formed call gives by itself is well-formed. -/
theorem Call.WellFormed.gives
    {call : Call α}
    {outcome : Except Failure (Value α)}
    {value : Value α}
    (hCall : call.WellFormed)
    (hGives : call.Gives outcome)
    (hOutcome : outcome = .ok value) :
    value.WellFormed := by
  rcases hCall with ⟨hNode, hEnv⟩
  cases hGives with
  | exceeded => cases hOutcome
  | num =>
      cases hOutcome
      exact .num _
  | text =>
      cases hOutcome
      exact .text _
  | ident =>
      unfold Env.lookup at hOutcome
      split at hOutcome
      · rename_i hFind
        cases hOutcome
        exact hEnv _ (Env.mem_of_find?_eq_some hFind)
      · cases hOutcome
  | lam =>
      cases hOutcome
      cases hNode with
      | lam params hBody => exact .closure _ hBody hEnv
  | foreign => cases hNode
  | unchosen hTest hChoice => cases hOutcome
  | operator hFn hArgs =>
      rcases Primitive.apply_eq_ok hOutcome with
        ⟨n, rfl⟩ | ⟨b, rfl⟩
      · exact .num n
      · exact .bool b
  | unextended hFn hArgs hExtend => cases hOutcome
  | uncallable hFn hArgs hPrim hClosure =>
      rcases bind_eq_ok hOutcome with ⟨text, -, hFailed⟩
      cases hFailed

theorem wellFormed_invariant :
    Call.Invariant (α := α) Call.WellFormed
      Value.WellFormed where
  asks := fun _ _ _ => Call.WellFormed.asks
  gives := fun _ _ _ => Call.WellFormed.gives
  enters := by
    intro params body captured values inner depth hClosure
      hValues hInner
    cases hClosure with
    | closure _ hBody hEnv =>
        exact ⟨hBody, Env.WellFormed.extend hEnv hValues hInner⟩

end LamLang

------------------------------------------------------------
-- Ordinary Failures
------------------------------------------------------------

namespace LamLang

/- The kinds of fault that a program can be blamed for. -/
def Fault.Kind.ordinary : List Fault.Kind :=
  [.parse, .unboundIdentifier, .arity, .typeMismatch,
   .divideByZero, .notCallable]

/-
  The failures of a run: a fault of the program, running out
  of depth, or a number that is too large to be rounded or
  too long to be written.
-/
inductive Failure.Ordinary : Failure → Prop
| cause
    {cause : Cause}
    (hKind : cause.kind ∈ Fault.Kind.ordinary) :
    Ordinary (.cause cause)
| depthExceeded : Ordinary .depthExceeded
| mishap
    {event : Mishap}
    (hEvent : event ∈ Number.mishaps) :
    Ordinary (.mishap event)

variable {α : Type} [Describe α]

/- A well-formed call has ordinary failures of its own. -/
theorem Call.Gives.failsOnly_ordinary
    {call : Call α}
    {outcome : Except Failure (Value α)}
    (hCall : call.WellFormed)
    (hGives : call.Gives outcome) :
    FailsOnly Failure.Ordinary outcome := by
  have hMishap :
      ∀ event ∈ Number.mishaps,
        Failure.Ordinary (.mishap event) :=
    fun _ => .mishap
  cases hGives with
  | exceeded => exact .error .depthExceeded
  | num => exact .ok _
  | text => exact .ok _
  | lam => exact .ok _
  | foreign =>
      rcases hCall with ⟨hNode, -⟩
      cases hNode
  | ident =>
      unfold Env.lookup
      split
      · exact .ok _
      · apply FailsOnly.error
        apply Failure.Ordinary.cause
        simp [Cause.kind, Fault.Kind.ordinary]
  | unchosen hTest hChoice =>
      have hValue :=
        wellFormed_invariant.value (hCall.asks .test) hTest
      apply FailsOnly.error
      have hWritten :=
        Value.written_failsOnly hMishap hValue.native
      refine choose_failsOnly ?_ hWritten _ _ _ hChoice
      intro text
      apply Failure.Ordinary.cause
      simp [Cause.kind, Fault.Kind.ordinary]
  | operator hFn hArgs =>
      rcases wellFormed_invariant.application hCall hFn
          hArgs with
        ⟨hCallee, hValues⟩
      cases hCallee with
      | prim op =>
          apply Primitive.apply_failsOnly
          · rintro cause ⟨hKind, -⟩
            apply Failure.Ordinary.cause
            simp only [Primitive.faultKinds, List.mem_cons,
              List.not_mem_nil, or_false] at hKind
            rcases hKind with hKind | hKind | hKind
            · simp [hKind, Fault.Kind.ordinary]
            · simp [hKind, Fault.Kind.ordinary]
            · simp [hKind, Fault.Kind.ordinary]
          · exact hMishap
          · intro hUnknown
            rw [Primitive.ofName?_name] at hUnknown
            cases hUnknown
          · intro value hMem
            exact (hValues value hMem).native
  | unextended hFn hArgs hExtend =>
      apply FailsOnly.error
      rcases Env.extend_eq_error_iff.mp hExtend with ⟨-, rfl⟩
      apply Failure.Ordinary.cause
      simp [Cause.kind, Fault.Kind.ordinary]
  | uncallable hFn hArgs hPrim hClosure =>
      rcases wellFormed_invariant.application hCall hFn
          hArgs with
        ⟨hCallee, -⟩
      have hWritten :=
        Value.written_failsOnly hMishap hCallee.native
      refine Value.refused_failsOnly ?_ hWritten
      intro text
      apply Failure.Ordinary.cause
      simp [Cause.kind, Fault.Kind.ordinary]

/- Well-formed evaluations have ordinary failures only. -/
theorem eval_failsOnly_ordinary
    (depth : Nat)
    {node : Expr α}
    {env : Env α}
    (hNode : node.Native)
    (hEnv : env.WellFormed) :
    FailsOnly Failure.Ordinary (eval depth node env) := by
  rcases Call.reaches_gives ⟨depth, node, env⟩ with
    ⟨last, hReach, hGives⟩
  have hLast : last.WellFormed :=
    wellFormed_invariant.reaches ⟨hNode, hEnv⟩ hReach
  exact hGives.failsOnly_ordinary hLast

omit [Describe α] in
/- Parsing has ordinary failures only. -/
theorem ofDatum_failsOnly_ordinary
    (term : Datum) :
    FailsOnly Failure.Ordinary
      (Expr.ofDatum term : Except Failure (Expr α)) := by
  apply Expr.ofDatum_failsOnly
  · intro cause hKind
    apply Failure.Ordinary.cause
    simp [hKind, Fault.Kind.ordinary]
  · intro n hNumber
    exact Number.text_failsOnly (fun _ => .mishap) n

/-
  A term is parsed, evaluated and written with ordinary
  failures only, also where foreign objects could stand in
  expressions and values.
-/
theorem evaluated_failsOnly_ordinary
    (depth : Nat)
    (term : Datum) :
    FailsOnly Failure.Ordinary
      (do
        let e : Expr α ← Expr.ofDatumWithin depth term
        let value ← eval depth e Env.top
        value.written) := by
  have hParses :
      Approximates
        (Expr.ofDatumWithin depth term :
          Except Failure (Expr α))
        (Expr.ofDatum term) :=
    Expr.ofDatumWithin_approximates_ofDatum depth term
  cases hParsed :
      (Expr.ofDatumWithin depth term :
        Except Failure (Expr α)) with
  | error failure =>
      have hFails :=
        hParses.failsOnly .depthExceeded
          (ofDatum_failsOnly_ordinary term)
      exact .error (hFails _ hParsed)
  | ok e =>
      have hNative : e.Native :=
        (Expr.ofDatum_keywordFree
          (hParses.eq_ok hParsed)).native
      cases hValue : eval depth e Env.top with
      | error failure =>
          have hFailure :=
            eval_failsOnly_ordinary depth hNative
              Env.wellFormed_top _ hValue
          simp only [ok_bind, hValue]
          exact .error hFailure
      | ok value =>
          have hWellFormed : value.WellFormed :=
            wellFormed_invariant.value
              ⟨hNative, Env.wellFormed_top⟩ hValue
          simp only [ok_bind, hValue]
          exact
            Value.written_failsOnly (fun _ => .mishap)
              hWellFormed.native

end LamLang

------------------------------------------------------------
-- Results
------------------------------------------------------------

namespace LamLang

/-
  The names of mishaps that the checks before an operation
  rule out.
-/
def Mishap.guardedNames : List String :=
  ["ZeroDivisionError", "IndexError", "KeyError",
   "TypeError"]

/-
  Any object at all, of whatever kind and however nested,
  run as a program within any bound on depth, gives a text
  or an ordinary failure.  No internal
  fault is raised, no fault misses a text for its wording,
  and no operation is tried on what it cannot take.  This is
  so even if foreign objects are allowed in expressions.
-/
theorem results_fail_ordinarily
    (term : Datum)
    (depth : Nat) :
    ((∃ text, term.result depth = .ok text) ∨
      ∃ failure,
        term.result depth = .error failure ∧
          failure.Ordinary) ∧
    (∀ cause,
      term.result depth = .error (.cause cause) →
        cause.kind.isInternal = false ∧
          ∃ message,
            cause.template.format cause.exprs =
              .ok message) ∧
    (∀ event,
      term.result depth = .error (.mishap event) →
        event.name ∉ Mishap.guardedNames) ∧
    ∀ (α : Type) [Describe α],
      FailsOnly Failure.Ordinary
        (do
          let e : Expr α ← Expr.ofDatumWithin depth term
          let value ← eval depth e Env.top
          value.written) := by
  have hOrdinary :
      FailsOnly Failure.Ordinary (term.result depth) := by
    have hEvaluated :=
      evaluated_failsOnly_ordinary (α := Empty) depth term
    simpa only [Datum.result, Datum.meaning,
      bind_assoc] using hEvaluated
  refine ⟨?_, ?_, ?_, ?_⟩
  · cases hResult : term.result depth with
    | ok text => exact .inl ⟨text, rfl⟩
    | error failure =>
        exact .inr ⟨failure, rfl, hOrdinary _ hResult⟩
  · intro cause hResult
    refine ⟨?_, cause.formed⟩
    cases hOrdinary _ hResult with
    | cause hKind =>
        simp only [Fault.Kind.ordinary, List.mem_cons,
          List.not_mem_nil, or_false] at hKind
        rcases hKind with h | h | h | h | h | h
        all_goals
          rw [h]
          rfl
  · intro event hResult
    cases hOrdinary _ hResult with
    | mishap hEvent =>
        simp only [Number.mishaps, List.mem_cons,
          List.not_mem_nil, or_false] at hEvent
        rcases hEvent with rfl | rfl | rfl
        all_goals decide
  · intro α _
    exact evaluated_failsOnly_ordinary depth term

/- The term `((lam (f) (f f)) "g")`. -/
def Datum.calledText : Datum :=
  .list
    [.list
      [.symbol "lam", .list [.symbol "f"],
        .list [.symbol "f", .symbol "f"]],
     .text "g"]

/- A term with an object in it that stands for no term. -/
def Datum.strangeOperand : Datum :=
  .list
    [.symbol "+", .num (.int 2),
     .other "\x7b'a': 1\x7d" [.int 1]]

theorem results_fail_ordinarily_calledText :
    Datum.calledText.result 500 =
      .error (.cause (.notCallable "\"g\"")) ∧
    (Cause.notCallable "\"g\"").kind.isInternal = false ∧
    Failure.Ordinary (.cause (.notCallable "\"g\"")) ∧
    Datum.strangeOperand.result 500 =
      .error (.cause (.unrecognized "\x7b'a': 1\x7d")) ∧
    (Cause.unrecognized
      "\x7b'a': 1\x7d").kind.isInternal = false := by
  have hResult :
      Datum.calledText.result 500 =
        .error (.cause (.notCallable "\"g\"")) := by rfl
  have hStrange :
      Datum.strangeOperand.result 500 =
        .error (.cause (.unrecognized "\x7b'a': 1\x7d")) := by
    decide +kernel
  rcases results_fail_ordinarily Datum.calledText 500 with
    ⟨hEnds, hCauses, -, -⟩
  rcases results_fail_ordinarily Datum.strangeOperand 500 with
    ⟨-, hRefused, -, -⟩
  refine
    ⟨hResult, (hCauses _ hResult).1, ?_, hStrange,
      (hRefused _ hStrange).1⟩
  rcases hEnds with
    ⟨text, hText⟩ | ⟨failure, hFailure, hOrdinary⟩
  · rw [hResult] at hText
    cases hText
  · rw [hResult] at hFailure
    cases hFailure
    exact hOrdinary

end LamLang
