import LamLang.Template.Format

/-
  Reportable errors of the language.

  Key definitions include:
    * `LamLang.Fault`
    * `LamLang.Fault.create`
    * `LamLang.Fault.message`
    * `LamLang.Fault.Formed`
    * `LamLang.Cause`
    * `LamLang.Cause.fault`

  A fault is what a report shows: a kind, a template and the
  offending texts.  A cause says which rule of the language
  was broken; `Cause.fault` holds the wording of them all.
-/

------------------------------------------------------------
-- Faults
------------------------------------------------------------

namespace LamLang

namespace Fault

/- The kinds of faults. -/
inductive Kind where
| general
| parse
| unboundIdentifier
| arity
| typeMismatch
| divideByZero
| notCallable
| internal
| unknownOperator
| unknownTerm
| unknownValue
deriving DecidableEq, Repr

/- Kinds that well-formed input never reaches. -/
def Kind.isInternal : Kind → Bool
| .internal => true
| .unknownOperator => true
| .unknownTerm => true
| .unknownValue => true
| _ => false

end Fault

/-
  A reportable error.  The first of `exprs` is the text that
  caused it; `pointed` says whether a report points at it,
  and `internal` whether the report is marked as such.
-/
structure Fault where
  kind : Fault.Kind
  template : Template
  exprs : List String
  pointed : Bool
  internal : Bool
deriving DecidableEq, Repr

namespace Fault

/- The text that caused the fault. -/
def subject
    (fault : Fault) :
    String :=
  fault.exprs.headD ""

/- The message of a fault, without highlighting. -/
def message
    (fault : Fault) :
    String :=
  fault.template.fill fault.exprs

/-
  A fault with wording of the caller's own.  Internal kinds
  are always marked so and never point at a text.
-/
def create
    (kind : Kind)
    (template : Template)
    (exprs : List String)
    (pointed internal : Bool) :
    Except Template.Misfit Fault :=
  (template.format exprs).map fun _ =>
    { kind
      template
      exprs
      pointed := pointed && !kind.isInternal
      internal := internal || kind.isInternal }

/- A fault whose template was filled when it was made. -/
def Formed
    (fault : Fault) : Prop :=
  ∃ message, fault.template.format fault.exprs = .ok message

/- A fault can only be made if its template is filled. -/
theorem formed_of_create
    {kind : Kind}
    {template : Template}
    {exprs : List String}
    {pointed internal : Bool}
    {fault : Fault}
    (hCreated :
      create kind template exprs pointed internal =
        .ok fault) :
    fault.Formed := by
  unfold create at hCreated
  cases hMessage : template.format exprs with
  | error reason =>
      rw [hMessage] at hCreated
      cases hCreated
  | ok message =>
      rw [hMessage] at hCreated
      cases hCreated
      exact ⟨message, hMessage⟩

/- A fault that quotes no text. -/
def plain
    (text : String) :
    Fault where
  kind := .general
  template := [.text text]
  exprs := [""]
  pointed := true
  internal := false

end Fault

end LamLang

------------------------------------------------------------
-- Causes
------------------------------------------------------------

namespace LamLang

/- The ways in which input breaks the language's rules. -/
inductive Cause where
| unterminatedText (token : String)
| noTerm
| unexpectedEnd
| unexpectedEndOfList
| unexpectedClose
| leftover (token : String)
| emptyApplication
| malformedConditional (term : String)
| malformedLambda (term : String)
| unrecognized (term : String)
| unbound (name : String)
| wrongArity (expected got : Nat)
| primitiveArity (op : String) (got : Nat)
| testNotBoolean (value : String)
| operandNotNumber (op value : String)
| divideByZero (op dividend : String)
| notCallable (value : String)
| unknownOperator (op : String)
| unknownTerm (description : String)
| unknownValue (description : String)
deriving DecidableEq, Repr

namespace Cause

/- The kind of fault that a cause gives. -/
def kind : Cause → Fault.Kind
| .unterminatedText _ => .parse
| .noTerm => .parse
| .unexpectedEnd => .parse
| .unexpectedEndOfList => .parse
| .unexpectedClose => .parse
| .leftover _ => .parse
| .emptyApplication => .parse
| .malformedConditional _ => .parse
| .malformedLambda _ => .parse
| .unrecognized _ => .parse
| .unbound _ => .unboundIdentifier
| .wrongArity _ _ => .arity
| .primitiveArity _ _ => .arity
| .testNotBoolean _ => .typeMismatch
| .operandNotNumber _ _ => .typeMismatch
| .divideByZero _ _ => .divideByZero
| .notCallable _ => .notCallable
| .unknownOperator _ => .unknownOperator
| .unknownTerm _ => .unknownTerm
| .unknownValue _ => .unknownValue

/- The wording of each cause. -/
def template : Cause → Template
| .unterminatedText _ =>
    [.text "'", .next,
     .text "' has an unterminated string literal"]
| .noTerm => [.text "expected a term, got empty input"]
| .unexpectedEnd => [.text "unexpected EOF while reading"]
| .unexpectedEndOfList =>
    [.text "unexpected EOF while reading list"]
| .unexpectedClose => [.text "unexpected '", .next, .text "'"]
| .leftover _ =>
    [.text "unexpected '", .next, .text "' after term"]
| .emptyApplication =>
    [.text "'", .next, .text "' is an empty application"]
| .malformedConditional _ =>
    [.text "'", .next, .text "' is a malformed conditional"]
| .malformedLambda _ =>
    [.text "'", .next, .text "' is a malformed lambda"]
| .unrecognized _ =>
    [.text "'", .next, .text "' is unrecognized input"]
| .unbound _ =>
    [.text "reference to unbound identifier '", .next,
     .text "'"]
| .wrongArity _ _ =>
    [.text "expected ", .next, .text " argument(s), got ",
     .next]
| .primitiveArity _ _ =>
    [.text "'", .next,
     .text "' expects exactly 2 arguments, got ", .next]
| .testNotBoolean _ =>
    [.text "conditional test evaluated to '", .next,
     .text "', expected a boolean"]
| .operandNotNumber _ _ =>
    [.text "'", .next, .text "' expects numbers, got '",
     .next, .text "'"]
| .divideByZero _ _ =>
    [.text "'", .next, .text "' divides ", .next,
     .text " by zero"]
| .notCallable _ =>
    [.text "'", .next, .text "' is not a function or primop"]
| .unknownOperator _ =>
    [.text "unknown primop '", .next, .text "'"]
| .unknownTerm _ =>
    [.text "cannot evaluate '", .next, .text "'"]
| .unknownValue _ =>
    [.text "encountered unknown value '", .next, .text "'"]

/- The texts that a cause names, the offending one first. -/
def exprs : Cause → List String
| .unterminatedText token => [token]
| .noTerm => [""]
| .unexpectedEnd => [""]
| .unexpectedEndOfList => [""]
| .unexpectedClose => [")"]
| .leftover token => [token]
| .emptyApplication => ["()"]
| .malformedConditional term => [term]
| .malformedLambda term => [term]
| .unrecognized term => [term]
| .unbound name => [name]
| .wrongArity expected got => [expected.repr, got.repr]
| .primitiveArity op got => [op, got.repr]
| .testNotBoolean value => [value]
| .operandNotNumber op value => [op, value]
| .divideByZero op dividend => [op, dividend]
| .notCallable value => [value]
| .unknownOperator op => [op]
| .unknownTerm description => [description]
| .unknownValue description => [description]

/-
  Whether a report points at the offending text.  A count of
  arguments and the value of a test stand nowhere in the
  source.
-/
def isPointed : Cause → Bool
| .wrongArity _ _ => false
| .testNotBoolean _ => false
| cause => !cause.kind.isInternal

/- The fault that a cause gives. -/
def fault
    (cause : Cause) :
    Fault where
  kind := cause.kind
  template := cause.template
  exprs := cause.exprs
  pointed := cause.isPointed
  internal := cause.kind.isInternal

/- Every cause fills the holes of its own wording. -/
theorem formed
    (cause : Cause) :
    cause.fault.Formed := by
  cases cause <;> exact ⟨_, rfl⟩

/- Every hole of a cause names an argument at most. -/
theorem plain_template
    (cause : Cause) :
    cause.template.Plain := by
  cases cause <;> exact of_decide_eq_true rfl

end Cause

end LamLang
