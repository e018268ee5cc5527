import LamLang.Binary64.Basic
import LamLang.Fault

/-
  Everything that can end a computation early.

  Key definitions include:
    * `LamLang.Failure`
    * `LamLang.Mishap`
    * `LamLang.ExitStatus`

  A broken rule of the language is one constructor, and each
  other way to stop has its own, so that a limit of depth is
  never taken for an error of the program.
-/

------------------------------------------------------------
-- Mishaps
------------------------------------------------------------

namespace LamLang

/-
  Failures that are no fault of the language's rules: limits
  of numbers and texts, and requests that cannot be met.
-/
inductive Mishap where
| integerTooLarge
| quotientTooLarge
| integerByZero
| realByZero
| numeralTooLong (digits : Nat)
| integerTextTooLong
| noResult
| misfit (reason : Template.Misfit)
| limitMissing
| limitTooSmall
| limitTooLarge
| raised (name message : String)
deriving DecidableEq, Repr

namespace Mishap

/- The most digits an integer may have as a text. -/
def digitLimit : Nat := 4300

/- The name that a report gives to a mishap. -/
def name : Mishap → String
| .integerTooLarge => "OverflowError"
| .quotientTooLarge => "OverflowError"
| .integerByZero => "ZeroDivisionError"
| .realByZero => "ZeroDivisionError"
| .numeralTooLong _ => "ValueError"
| .integerTextTooLong => "ValueError"
| .noResult => "IndexError"
| .misfit reason => reason.name
| .limitMissing => "TypeError"
| .limitTooSmall => "ValueError"
| .limitTooLarge => "OverflowError"
| .raised name _ => name

/- The wording of a mishap. -/
def message : Mishap → String
| .integerTooLarge => "int too large to convert to float"
| .quotientTooLarge =>
    "integer division result too large for a float"
| .integerByZero => "division by zero"
| .realByZero => "float division by zero"
| .numeralTooLong digits =>
    "Exceeds the limit (" ++ digitLimit.repr ++
      " digits) for integer string conversion: value has " ++
      digits.repr ++ " digits; " ++
      "use sys.set_int_max_str_digits() to increase the limit"
| .integerTextTooLong =>
    "Exceeds the limit (" ++ digitLimit.repr ++
      " digits) for integer string conversion; " ++
      "use sys.set_int_max_str_digits() to increase the limit"
| .noResult => "pop from empty list"
| .misfit reason => reason.message
| .limitMissing =>
    "'list' object cannot be interpreted as an integer"
| .limitTooSmall =>
    "recursion limit must be greater or equal than 1"
| .limitTooLarge => "Python int too large to convert to C int"
| .raised _ message => message

end Mishap

end LamLang

------------------------------------------------------------
-- Failures
------------------------------------------------------------

namespace LamLang

/- What a program that stops hands to its caller. -/
inductive ExitStatus where
| unspecified
| code (n : Int)
| real (x : Binary64)
| text (s : String)
deriving DecidableEq, Repr

/- The ways in which a computation ends without a result. -/
inductive Failure where
| cause (broken : Cause)
| custom (fault : Fault)
| depthExceeded
| interrupted
| exit (status : ExitStatus)
| mishap (event : Mishap)
deriving DecidableEq, Repr

namespace Failure

/- The fault of a failure that reports one. -/
def fault? : Failure → Option Fault
| .cause broken => some broken.fault
| .custom fault => some fault
| _ => none

end Failure

/-
  Objects from outside the language, which can only be
  described in a report.
-/
class Describe (α : Type) where
  describe : α → Except Failure String

/- There is nothing to describe where there is no object. -/
instance : Describe Empty where
  describe := nofun

end LamLang
