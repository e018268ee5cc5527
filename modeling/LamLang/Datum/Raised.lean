import LamLang.Datum.Written

/-
  Failures that are raised from outside with arguments.

  Key definitions include:
    * `LamLang.Mishap.wording`
    * `LamLang.ExitStatus.ofArguments`
    * `LamLang.Failure.raise`

  A mishap is named and words itself by its arguments.  One
  whose arguments cannot be written has no wording, and then
  this failure takes its place.
-/

------------------------------------------------------------
-- Raised Failures
------------------------------------------------------------

namespace LamLang

/-
  The wording of a mishap by its arguments.  One argument is
  shown as it stands in messages, but a missing key is
  described, and so are several together.
-/
def Mishap.wording
    (name : String)
    (args : List Datum) :
    Except Failure String :=
  match args with
  | [] => .ok ""
  | [arg] =>
      if name = "KeyError" then arg.describe
      else arg.display
  | _ => (Datum.tuple args).describe

/- What a request to exit with arguments hands on. -/
def ExitStatus.ofArguments : List Datum → ExitStatus
| [.num (.int n)] => .code n
| [.num (.real x)] => .real x
| [.bool b] => .code (if b then 1 else 0)
| [.text s] => .text s
| _ => .unspecified

/- The failure that is raised by a name with arguments. -/
def Failure.raise
    (name : String)
    (args : List Datum) :
    Except Failure Failure :=
  match name with
  | "RecursionError" => .ok .depthExceeded
  | "KeyboardInterrupt" => .ok .interrupted
  | "SystemExit" => .ok (.exit (.ofArguments args))
  | _ => do
      let message ← Mishap.wording name args
      return .mishap (.raised name message)

end LamLang
