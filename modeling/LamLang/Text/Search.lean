/-
  The first place of one text inside another.

  Key definitions include:
    * `LamLang.Text.find?`

  A report points at the first place where the offending
  text stands in its line.
-/

------------------------------------------------------------
-- First Occurrence
------------------------------------------------------------

namespace LamLang

namespace Text

/-
  How many characters of the text come before the first
  occurrence of `needle`, if there is one.
-/
def find?
    (needle : List Char) :
    List Char → Option Nat
| [] => if needle.isEmpty then some 0 else none
| c :: cs =>
    if needle.isPrefixOf (c :: cs) then
      some 0
    else
      (find? needle cs).map (· + 1)

/- The empty text occurs at the start of every text. -/
theorem find?_nil
    (cs : List Char) :
    find? [] cs = some 0 := by
  cases cs <;> simp [find?]

/- What is found stands in the text at the place found. -/
theorem isPrefixOf_drop_of_find?
    {needle cs : List Char}
    {start : Nat}
    (hFind : find? needle cs = some start) :
    needle.isPrefixOf (cs.drop start) = true := by
  induction cs generalizing start with
  | nil =>
      cases needle <;> simp_all [find?]
  | cons c cs ih =>
      rw [find?] at hFind
      split at hFind
      · rename_i hHere
        cases hFind
        simpa using hHere
      · cases hRest : find? needle cs with
        | none => simp [hRest] at hFind
        | some place =>
            have hStart : place + 1 = start := by
              simpa [hRest] using hFind
            subst hStart
            simpa using ih hRest

end Text

end LamLang
