/-
  Decimal digits of every script.

  Key definitions include:
    * `LamLang.Text.digitValue?`
    * `LamLang.Text.isDigit`
    * `LamLang.Text.ofDigits`

  Each script has its ten digits in one run of code points,
  in ascending order, so a list of the zeros is the whole
  table.
-/

------------------------------------------------------------
-- Digit Characters
------------------------------------------------------------

namespace LamLang

namespace Text

/- The code points of the digits zero. -/
def digitZeros : List Nat :=
  [0x30, 0x660, 0x6F0, 0x7C0, 0x966, 0x9E6, 0xA66, 0xAE6,
   0xB66, 0xBE6, 0xC66, 0xCE6, 0xD66, 0xDE6, 0xE50, 0xED0,
   0xF20, 0x1040, 0x1090, 0x17E0, 0x1810, 0x1946, 0x19D0,
   0x1A80, 0x1A90, 0x1B50, 0x1BB0, 0x1C40, 0x1C50, 0xA620,
   0xA8D0, 0xA900, 0xA9D0, 0xA9F0, 0xAA50, 0xABF0, 0xFF10,
   0x104A0, 0x10D30, 0x11066, 0x110F0, 0x11136, 0x111D0,
   0x112F0, 0x11450, 0x114D0, 0x11650, 0x116C0, 0x11730,
   0x118E0, 0x11950, 0x11C50, 0x11D50, 0x11DA0, 0x16A60,
   0x16AC0, 0x16B50, 0x1D7CE, 0x1D7D8, 0x1D7E2, 0x1D7EC,
   0x1D7F6, 0x1E140, 0x1E2F0, 0x1E950, 0x1FBF0]

/- The value of a decimal digit. -/
def digitValue?
    (c : Char) :
    Option Nat :=
  digitZeros.findSome? fun start =>
    if start ≤ c.toNat ∧ c.toNat < start + 10 then
      some (c.toNat - start)
    else
      none

/- Whether a character is a decimal digit. -/
def isDigit
    (c : Char) :
    Bool :=
  (digitValue? c).isSome

/- A digit stands for a number below ten. -/
theorem digitValue?_lt
    {c : Char}
    {d : Nat}
    (hDigit : digitValue? c = some d) :
    d < 10 := by
  rcases List.exists_of_findSome?_eq_some hDigit with
    ⟨_, _, hValue⟩
  split at hValue
  · cases hValue
    omega
  · cases hValue

end Text

end LamLang

------------------------------------------------------------
-- Digit Lists
------------------------------------------------------------

namespace LamLang

namespace Text

/- The number written by a list of digits, highest first. -/
def ofDigits
    (digits : List Nat) :
    Nat :=
  digits.foldl (fun n d => 10 * n + d) 0

/- The values of the digit characters in a text. -/
def digitValues
    (cs : List Char) :
    List Nat :=
  cs.filterMap digitValue?

end Text

end LamLang
