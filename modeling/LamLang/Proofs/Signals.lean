import LamLang.Proofs.Calls
import LamLang.Proofs.Numerals

/-
  How a failure is signalled that names a value.

  The value is written before the fault is made.  So the
  fault is of its kind for every value that can be written,
  and the digit limit takes its place for an integer that
  has too many digits.  No other value is hard to write, and
  the wording of the fault can always be filled.

  Key definitions include:
    * `LamLang.Value.TooLong`
    * `LamLang.Value.Named`
    * `LamLang.Value.Signals`
    * `LamLang.Number.zeros`

  Main statements:
    * `LamLang.Value.exists_written`
    * `LamLang.Value.signals_refused`
    * `LamLang.kinds_signalled_within_digit_limit`
-/

------------------------------------------------------------
-- Values Too Long To Write
------------------------------------------------------------

namespace LamLang

variable {α β γ : Type}

namespace Value

/- An integer with more digits than may be written. -/
def TooLong : Value α → Prop
| .num (.int n) =>
    Mishap.digitLimit < Decimal.digitCount n.natAbs
| _ => False

theorem not_tooLong_of_ne_num
    {value : Value α}
    (hOther : ∀ n, value ≠ .num n) :
    ¬ value.TooLong := by
  cases value with
  | num n => exact absurd rfl (hOther n)
  | _ => exact id

variable [Describe α]

theorem written_of_tooLong
    {value : Value α}
    (hLong : value.TooLong) :
    value.written =
      .error (.mishap .integerTextTooLong) := by
  match value with
  | .num (.int n) =>
      rw [TooLong, ← Nat.not_le, Number.digitCount_le_iff]
        at hLong
      rw [written, Number.text, if_neg hLong]
  | .num (.real x) => exact hLong.elim

/- Every other value of the language has a text. -/
theorem exists_written
    {value : Value α}
    (hNative : value.Native)
    (hShort : ¬ value.TooLong) :
    ∃ text, value.written = .ok text := by
  match value with
  | .num (.int n) =>
      rw [TooLong, Nat.not_lt, Number.digitCount_le_iff]
        at hShort
      exact ⟨_, by rw [written, Number.text, if_pos hShort]⟩
  | .num (.real x) => exact ⟨_, rfl⟩
  | .bool true => exact ⟨_, rfl⟩
  | .bool false => exact ⟨_, rfl⟩
  | .text s => exact ⟨_, rfl⟩
  | .prim op => exact ⟨_, rfl⟩
  | .closure params body env => exact ⟨_, rfl⟩
  | .foreign object => exact absurd rfl (hNative object)

end Value

end LamLang

------------------------------------------------------------
-- Signalled Failures
------------------------------------------------------------

namespace LamLang

variable {α β γ : Type} [Describe α]

namespace Value

/-
  A fault of a kind that quotes the text of a value, and
  whose wording can be filled.
-/
structure Named
    (kind : Fault.Kind)
    (value : Value α)
    (cause : Cause) :
    Prop where
  kind_eq : cause.kind = kind
  quotes :
    ∃ text, value.written = .ok text ∧ text ∈ cause.exprs
  fills : cause.fault.Formed

/-
  A computation signals a kind of fault for a value, or the
  digit limit if the value is too long to write.
-/
structure Signals
    (kind : Fault.Kind)
    (value : Value α)
    (x : Except Failure β) :
    Prop where
  named :
    ¬ value.TooLong →
      ∃ cause, x = .error (.cause cause) ∧
        Named kind value cause
  tooLong :
    value.TooLong →
      x = .error (.mishap .integerTextTooLong)

variable {kind : Fault.Kind} {value : Value α}

/- Nothing is run after a signal. -/
theorem Signals.bind
    {x : Except Failure β}
    (hSignals : Signals kind value x)
    (f : β → Except Failure γ) :
    Signals kind value (x >>= f) where
  named := by
    intro hShort
    rcases hSignals.named hShort with ⟨cause, hx, hNamed⟩
    exact ⟨cause, by rw [hx]; rfl, hNamed⟩
  tooLong := by
    intro hLong
    rw [hSignals.tooLong hLong]
    rfl

/- A refused value is written, and then named. -/
theorem signals_refused
    (cause : String → Cause)
    (hKind : ∀ text, (cause text).kind = kind)
    (hQuotes : ∀ text, text ∈ (cause text).exprs)
    (hNative : value.Native) :
    Signals kind value
      (value.written >>= fun text =>
        (.error (.cause (cause text)) :
          Except Failure β)) where
  named := by
    intro hShort
    rcases exists_written hNative hShort with ⟨text, hText⟩
    refine ⟨cause text, by rw [hText]; rfl, hKind text, ?_, ?_⟩
    · exact ⟨text, hText, hQuotes text⟩
    · exact (cause text).formed
  tooLong := by
    intro hLong
    rw [written_of_tooLong hLong]
    rfl

/- A test that is no truth value. -/
theorem signals_choose
    (hNative : value.Native)
    (hTest : ∀ b, value ≠ .bool b)
    (yes no : Expr α) :
    Signals .typeMismatch value (choose value yes no) := by
  have hRefused :=
    signals_refused (β := Expr α) .testNotBoolean
      (fun _ => rfl) (fun _ => List.mem_cons_self) hNative
  cases value with
  | bool b => exact absurd rfl (hTest b)
  | _ => exact hRefused

/- A call of what is no function. -/
theorem signals_apply
    (hNative : value.Native)
    (hPrimitive : ∀ op, value ≠ .prim op)
    (hClosure :
      ∀ params body env, value ≠ .closure params body env)
    (depth : Nat)
    (args : List (Value α)) :
    Signals .notCallable value (value.apply depth args) := by
  have hRefused :=
    signals_refused (β := Value α) .notCallable
      (fun _ => rfl) (fun _ => List.mem_cons_self) hNative
  cases value with
  | prim op => exact absurd rfl (hPrimitive op)
  | closure params body env =>
      exact absurd rfl (hClosure params body env)
  | _ => exact hRefused

/- An operand that is no number. -/
theorem signals_operand
    (hNative : value.Native)
    (hOperand : ∀ n, value ≠ .num n)
    (op : Primitive) :
    Signals .typeMismatch value (op.operand value) := by
  have hRefused :=
    signals_refused (β := Number) (.operandNotNumber op.name)
      (fun _ => rfl) (fun _ => by simp [Cause.exprs]) hNative
  cases value with
  | num n => exact absurd rfl (hOperand n)
  | _ => exact hRefused

end Value

/- The number zero in all its forms. -/
def Number.zeros : List Number :=
  [.int 0, .real (.zero false), .real (.zero true)]

theorem Number.isZero_of_mem_zeros
    {b : Number}
    (hZero : b ∈ zeros) :
    b.isZero = true := by
  revert b
  decide +kernel

/- A quotient by zero. -/
theorem Value.signals_quotient
    (a : Number)
    {b : Number}
    (hZero : b ∈ Number.zeros) :
    Signals .divideByZero (.num a : Value α)
      (Primitive.apply "/" [.num a, .num b] :
        Except Failure (Value α)) := by
  have hApply :
      (Primitive.apply "/" [.num a, .num b] :
          Except Failure (Value α)) =
        Primitive.div.compute a b :=
    Primitive.apply_name .div (.num a) (.num b)
  have hNative : (Value.num a : Value α).Native := nofun
  rw [hApply, Primitive.compute,
    if_pos (Number.isZero_of_mem_zeros hZero)]
  exact
    signals_refused (.divideByZero "/") (fun _ => rfl)
      (fun _ => by simp [Cause.exprs]) hNative

/-
  A test that is no truth value, a call of what is no
  function, and a quotient by zero are signalled as such for
  every value but an integer beyond the digit limit, where
  the limit is signalled instead.  An operand that is no
  number is signalled without exception.
-/
theorem kinds_signalled_within_digit_limit
    {value : Value α}
    (hNative : value.Native) :
    (∀ (depth : Nat) (test yes no : Expr α) (env : Env α),
      eval depth test env = .ok value →
        (∀ b, value ≠ .bool b) →
        value.Signals .typeMismatch
          (eval (depth + 1) (.cond test yes no) env)) ∧
    (∀ (depth : Nat) (args : List (Value α)),
      (∀ op, value ≠ .prim op) →
        (∀ params body env,
          value ≠ .closure params body env) →
        value.Signals .notCallable
          (value.apply depth args)) ∧
    (∀ dividend divisor,
      value = .num dividend → divisor ∈ Number.zeros →
        value.Signals .divideByZero
          (Primitive.apply "/" [value, .num divisor])) ∧
    (∀ (op : Primitive) (other : Value α) (n : Number),
      op ≠ .equal → (∀ m, value ≠ .num m) →
        ¬ value.TooLong ∧
          value.Signals .typeMismatch
            (Primitive.apply op.name [value, other]) ∧
          value.Signals .typeMismatch
            (Primitive.apply op.name [.num n, value])) := by
  refine ⟨?_, ?_, ?_, ?_⟩
  · intro depth test yes no env hValue hTest
    rw [eval, hValue, ok_bind]
    exact (value.signals_choose hNative hTest yes no).bind _
  · intro depth args hPrimitive hClosure
    exact
      Value.signals_apply hNative hPrimitive hClosure depth
        args
  · rintro dividend divisor rfl hZero
    exact Value.signals_quotient dividend hZero
  · intro op other n hOp hOperand
    have hSignals := Value.signals_operand hNative hOperand op
    refine ⟨Value.not_tooLong_of_ne_num hOperand, ?_, ?_⟩
    · rw [Primitive.apply_name, Primitive.run, if_neg hOp]
      exact hSignals.bind _
    · rw [Primitive.apply_name, Primitive.run, if_neg hOp,
        Primitive.operand, ok_bind]
      exact hSignals.bind _

/- The least integer that is too long to write. -/
def Value.longInteger : Value Empty :=
  .num (.int Number.textBound)

theorem Value.tooLong_longInteger :
    longInteger.TooLong := by
  rw [longInteger, TooLong, Int.natAbs_natCast,
    ← Nat.not_le, Number.digitCount_le_iff]
  exact Nat.lt_irrefl _

theorem kinds_signalled_within_digit_limit_atLimit :
    (∃ cause,
      eval 2 (.cond (.text "") (.num (.int 1)) (.text ""))
          (Env.top : Env Empty) = .error (.cause cause) ∧
        (Value.text "" : Value Empty).Named .typeMismatch
          cause) ∧
    (∃ cause,
      (Value.num (.int (-7))).apply 0 [Value.longInteger] =
          .error (.cause cause) ∧
        (Value.num (.int (-7)) : Value Empty).Named
          .notCallable cause) ∧
    (∃ cause,
      Primitive.apply "/"
          [.num (.int (-7)), .num (.real (.zero true))] =
            (.error (.cause cause) :
              Except Failure (Value Empty)) ∧
        (Value.num (.int (-7)) : Value Empty).Named
          .divideByZero cause) ∧
    Value.longInteger.apply 0 [] =
      .error (.mishap .integerTextTooLong) := by
  have hShort :
      ¬ (Value.num (.int (-7)) : Value Empty).TooLong :=
    show ¬ Mishap.digitLimit < Decimal.digitCount 7 by decide
  rcases
    kinds_signalled_within_digit_limit
      (Value.text "" : Value Empty).native_of_isEmpty with
    ⟨hTest, -⟩
  rcases
    kinds_signalled_within_digit_limit
      (Value.num (.int (-7)) : Value Empty).native_of_isEmpty
      with
    ⟨-, hCall, hQuotient, -⟩
  rcases
    kinds_signalled_within_digit_limit
      Value.longInteger.native_of_isEmpty with
    ⟨-, hLong, -⟩
  refine
    ⟨(hTest 1 _ _ _ _ rfl nofun).named id,
      (hCall 0 _ nofun nofun).named hShort,
      (hQuotient _ _ rfl (by decide)).named hShort, ?_⟩
  exact
    (hLong 0 [] nofun nofun).tooLong
      Value.tooLong_longInteger

/- A sum of shorter integers that comes to it. -/
def Expr.longSum : Expr Empty :=
  .app (.ident "+")
    [.num (.int (Number.textBound - 1)), .num (.int 1)]

theorem Expr.eval_longSum :
    eval 2 longSum Env.top = .ok Value.longInteger := by
  have hSum :
      eval 2 longSum Env.top =
        .ok (.num (.int (Number.textBound - 1 + 1))) := by
    rfl
  rw [hSum, Int.sub_add_cancel]
  rfl

/- Each of the three signals can be lost to the limit. -/
theorem kinds_lost_to_digit_limit :
    (¬ ∀ (test yes no : Expr Empty) (value : Value Empty),
      eval 2 test Env.top = .ok value →
        (∀ b, value ≠ .bool b) →
        ∃ cause,
          eval 3 (.cond test yes no) Env.top =
              .error (.cause cause) ∧
            cause.kind = .typeMismatch) ∧
    (¬ ∀ value : Value Empty,
      (∀ op, value ≠ .prim op) →
        (∀ params body env,
          value ≠ .closure params body env) →
        ∃ cause,
          value.apply 3 [] = .error (.cause cause) ∧
            cause.kind = .notCallable) ∧
    ¬ ∀ a : Number,
      ∃ cause,
        Primitive.apply "/" [.num a, .num (.int 0)] =
            (.error (.cause cause) :
              Except Failure (Value Empty)) ∧
          cause.kind = .divideByZero := by
  have hNative := Value.longInteger.native_of_isEmpty
  have hLong := Value.tooLong_longInteger
  have hTruth : ∀ b, Value.longInteger ≠ .bool b := by
    rintro b ⟨⟩
  have hPrimitive : ∀ op, Value.longInteger ≠ .prim op := by
    rintro op ⟨⟩
  have hClosure :
      ∀ params body env,
        Value.longInteger ≠ .closure params body env := by
    rintro params body env ⟨⟩
  refine ⟨?_, ?_, ?_⟩
  · intro hTest
    rcases
      hTest Expr.longSum Expr.longSum Expr.longSum _
        Expr.eval_longSum hTruth with
      ⟨cause, hCause, -⟩
    have hChoice :=
      ((Value.signals_choose hNative hTruth Expr.longSum
        Expr.longSum).bind fun branch =>
          eval 2 branch Env.top).tooLong hLong
    rw [eval, Expr.eval_longSum, ok_bind, hChoice] at hCause
    cases hCause
  · intro hCall
    rcases hCall Value.longInteger hPrimitive hClosure with
      ⟨cause, hCause, -⟩
    rw [(Value.signals_apply hNative hPrimitive hClosure 3
      []).tooLong hLong] at hCause
    cases hCause
  · intro hQuotient
    rcases hQuotient (.int Number.textBound) with
      ⟨cause, hCause, -⟩
    rw [(Value.signals_quotient _ (by decide)).tooLong hLong]
      at hCause
    cases hCause

end LamLang
