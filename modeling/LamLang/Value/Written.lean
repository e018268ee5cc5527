import LamLang.Value.Basic

/-
  The written form of values.

  Key definitions include:
    * `LamLang.Value.written`
    * `LamLang.Value.holdsMark`

  Functions are written without their contents.  A text is
  written between double marks with nothing escaped, so one
  that holds a double mark does not read back.
-/

------------------------------------------------------------
-- Written Values
------------------------------------------------------------

namespace LamLang

namespace Value

variable {α : Type}

/- A text between double marks. -/
def quoted
    (s : String) :
    String :=
  "\"" ++ s ++ "\""

/- The written form of a value. -/
def written
    [Describe α] :
    Value α → Except Failure String
| .num n => n.text
| .bool true => .ok "true"
| .bool false => .ok "false"
| .text s => .ok (quoted s)
| .prim _ => .ok "#<primop>"
| .closure _ _ _ => .ok "#<procedure>"
| .foreign object => do
    let description ← Describe.describe object
    .error (.cause (.unknownValue description))

/- The text of a value, if it holds a double mark. -/
def markedText? : Value α → Option String
| .text s => if s.toList.contains '\x22' then some s else none
| _ => none

/- Whether a value is a text with a double mark in it. -/
def holdsMark
    (value : Value α) :
    Bool :=
  value.markedText?.isSome

end Value

end LamLang
