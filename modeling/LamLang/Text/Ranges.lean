/-
  Character classes given by ranges of code points.

  Key definitions include:
    * `LamLang.Text.CodeRange`
    * `LamLang.Text.inRanges`

  The tables of blank, decimal and unprintable characters
  are lists of such ranges.
-/

------------------------------------------------------------
-- Ranges of Code Points
------------------------------------------------------------

namespace LamLang

namespace Text

/- The code points from `first` to `last`, both included. -/
structure CodeRange where
  first : Nat
  last : Nat
deriving DecidableEq, Repr

namespace CodeRange

/- Whether a character lies in the range. -/
def contains
    (range : CodeRange)
    (c : Char) :
    Bool :=
  decide (range.first ≤ c.toNat) &&
    decide (c.toNat ≤ range.last)

/- Containment compares the code point with both ends. -/
theorem contains_iff
    (range : CodeRange)
    (c : Char) :
    range.contains c = true ↔
      range.first ≤ c.toNat ∧ c.toNat ≤ range.last := by
  simp [contains]

end CodeRange

/- Whether a character lies in one of the ranges. -/
def inRanges
    (ranges : List CodeRange)
    (c : Char) :
    Bool :=
  ranges.any fun range => range.contains c

end Text

end LamLang
