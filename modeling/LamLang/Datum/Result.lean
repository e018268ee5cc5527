import LamLang.Datum.OfTokens
import LamLang.Eval
import LamLang.Expr.OfDatum

/-
  Terms as programs.

  Key definitions include:
    * `LamLang.Datum.meaning`
    * `LamLang.Datum.result`
    * `LamLang.Datum.resultOfSource`

  A term is turned into an expression, evaluated among the
  initial bindings, and its value is written.

  One bound on depth holds for every stage: reading, turning
  into an expression, evaluating and, where a term is named
  in a report, writing it.  In each stage it bounds how many
  calls are nested within each other that work on terms or
  expressions.  Calls of other functions in between are not
  counted, nor those around the whole, so a bound lets more
  happen here than it does where every call counts.  Writing
  a value never needs a nested call.
-/

------------------------------------------------------------
-- Programs
------------------------------------------------------------

namespace LamLang

/- The bound on depth unless another one is asked for. -/
def defaultDepth : Nat := 10000

namespace Datum

/- The value of a term among the initial bindings. -/
def meaning
    (depth : Nat)
    (term : Datum) :
    Except Failure (Value Empty) := do
  let program ← Expr.ofDatumWithin depth term
  eval depth program Env.top

/- The written value of a term. -/
def result
    (depth : Nat)
    (term : Datum) :
    Except Failure String := do
  let value ← term.meaning depth
  value.written

end Datum

end LamLang
