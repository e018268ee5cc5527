import Mathlib.Data.List.Forall2
import Mathlib.Data.Nat.Digits.Defs
import LamLang.Number.Numeral
import LamLang.Proofs.Cutting

/-
  The shapes of numerals.

  A numeral is taken apart from left to right: a sign, the
  digits before the point, the point with the digits behind
  it, and an exponent up to the end.  A text that has these
  parts can be taken apart in no other way, so it is read as
  the numeral that its parts make up, and nothing else is
  read as a numeral.

  Key definitions include:
    * `LamLang.Text.Digits`
    * `LamLang.Numeral.IsSign`
    * `LamLang.Numeral.ExponentPart`
    * `LamLang.Numeral.Shape`

  Main statements:
    * `LamLang.Numeral.parse?_eq_some_iff`
    * `LamLang.Numeral.Shape.parse?_chars`
    * `LamLang.Numeral.exists_shape`
-/

------------------------------------------------------------
-- Digits
------------------------------------------------------------

namespace LamLang

namespace Text

/- The texts that have digits only. -/
def Digits
    (cs : List Char) : Prop :=
  ∀ c ∈ cs, isDigit c = true

/- A text that does not go on with a digit. -/
def NoDigit
    (rest : List Char) : Prop :=
  ∀ c ∈ rest.head?, isDigit c = false

/- Every digit has its value, in order. -/
theorem Digits.forall₂
    {cs : List Char}
    (hDigits : Digits cs) :
    List.Forall₂ (fun c d => digitValue? c = some d) cs
      (digitValues cs) := by
  induction cs with
  | nil => exact .nil
  | cons c cs ih =>
      rcases List.forall_mem_cons.mp hDigits with
        ⟨hFirst, hRest⟩
      rcases Option.isSome_iff_exists.mp hFirst with
        ⟨d, hValue⟩
      rw [digitValues, List.filterMap_cons_some hValue]
      exact .cons hValue (ih hRest)

theorem Digits.length_digitValues
    {cs : List Char}
    (hDigits : Digits cs) :
    (digitValues cs).length = cs.length :=
  hDigits.forall₂.length_eq.symm

theorem Digits.digitValues_eq_nil_iff
    {cs : List Char}
    (hDigits : Digits cs) :
    digitValues cs = [] ↔ cs = [] := by
  rw [← List.length_eq_zero_iff,
    hDigits.length_digitValues, List.length_eq_zero_iff]

/- Values that fit the digits are theirs. -/
theorem digitValues_of_forall₂
    {cs : List Char}
    {values : List Nat}
    (hValues :
      List.Forall₂ (fun c d => digitValue? c = some d) cs
        values) :
    Digits cs ∧ digitValues cs = values := by
  induction hValues with
  | nil => exact ⟨by simp [Digits], rfl⟩
  | cons hValue _ ih =>
      rcases ih with ⟨hDigits, hRest⟩
      constructor
      · refine List.forall_mem_cons.mpr ⟨?_, hDigits⟩
        rw [isDigit, hValue]
        rfl
      · rw [digitValues, List.filterMap_cons_some hValue,
          ← hRest]
        rfl

/- Digits have their value to the base ten. -/
theorem ofDigits_eq
    (values : List Nat) :
    ofDigits values = Nat.ofDigits 10 values.reverse := by
  rw [Nat.ofDigits_eq_foldr, List.foldr_reverse, ofDigits]
  congr 1
  funext n d
  exact Nat.add_comm _ _

end Text

namespace Numeral

open Text (Digits NoDigit digitValues)

/- Digits are split off as far as they go. -/
theorem splitDigits_append
    {digits rest : List Char}
    (hDigits : Digits digits)
    (hRest : NoDigit rest) :
    splitDigits (digits ++ rest) =
      (digitValues digits, rest) := by
  have hTake : rest.takeWhile Text.isDigit = [] := by
    cases rest with
    | nil => rfl
    | cons c cs => simp [hRest c (by simp)]
  have hDrop : rest.dropWhile Text.isDigit = rest := by
    cases rest with
    | nil => rfl
    | cons c cs => simp [hRest c (by simp)]
  rw [splitDigits, List.takeWhile_append_of_pos hDigits,
    List.dropWhile_append_of_pos hDigits, hTake, hDrop,
    List.append_nil]

theorem exists_digits
    {cs rest : List Char}
    {values : List Nat}
    (hSplit : splitDigits cs = (values, rest)) :
    ∃ digits,
      Digits digits ∧
        cs = digits ++ rest ∧
        values = digitValues digits := by
  rcases Lexeme.exists_longest_front Text.isDigit cs with
    ⟨digits, after, rfl, hDigits, hAfter⟩
  rw [splitDigits_append hDigits hAfter] at hSplit
  rcases Prod.mk.inj hSplit with ⟨rfl, rfl⟩
  exact ⟨digits, hDigits, rfl, rfl⟩

end Numeral

end LamLang

------------------------------------------------------------
-- Signs
------------------------------------------------------------

namespace LamLang

namespace Numeral

/- A sign, or none. -/
def IsSign
    (cs : List Char) : Prop :=
  cs = [] ∨ cs = ['+'] ∨ cs = ['-']

/- A text that does not start with a sign. -/
def NoSign
    (rest : List Char) : Prop :=
  ∀ c ∈ rest.head?, c ≠ '+' ∧ c ≠ '-'

theorem splitSign_append
    {sign rest : List Char}
    (hSign : IsSign sign)
    (hRest : NoSign rest) :
    splitSign (sign ++ rest) =
      (decide (sign = ['-']), rest) := by
  rcases hSign with rfl | rfl | rfl
  · cases rest with
    | nil => rfl
    | cons c rest =>
        rcases hRest c (by simp) with ⟨hPlus, hMinus⟩
        simp [splitSign, hPlus, hMinus]
  · rfl
  · rfl

theorem exists_sign
    {cs rest : List Char}
    {negative : Bool}
    (hSplit : splitSign cs = (negative, rest)) :
    ∃ sign,
      IsSign sign ∧
        cs = sign ++ rest ∧
        negative = decide (sign = ['-']) := by
  unfold splitSign at hSplit
  split at hSplit
  · cases hSplit
    exact ⟨[], .inl rfl, rfl, rfl⟩
  · split_ifs at hSplit with hMinus hPlus
    · cases hSplit
      exact ⟨['-'], .inr (.inr rfl), by rw [hMinus]; rfl, rfl⟩
    · cases hSplit
      exact ⟨['+'], .inr (.inl rfl), by rw [hPlus]; rfl, rfl⟩
    · cases hSplit
      exact ⟨[], .inl rfl, rfl, rfl⟩

/- No digit is a sign. -/
theorem noSign_of_isDigit
    {c : Char}
    (hDigit : Text.isDigit c = true)
    (rest : List Char) :
    NoSign (c :: rest) := by
  rintro _ ⟨⟩
  constructor
  · rintro rfl
    exact absurd hDigit (by decide)
  · rintro rfl
    exact absurd hDigit (by decide)

end Numeral

end LamLang

------------------------------------------------------------
-- Parts
------------------------------------------------------------

namespace LamLang

namespace Numeral

open Text (Digits NoDigit digitValues)

/- An exponent as it is written. -/
structure ExponentPart where
  letter : Char
  sign : List Char
  digits : List Char
  isLetter : letter = 'e' ∨ letter = 'E'
  isSign : IsSign sign
  digits_ne_nil : digits ≠ []
  isDigits : Digits digits

namespace ExponentPart

/- The text of an exponent, empty if there is none. -/
def chars : Option ExponentPart → List Char
| none => []
| some part => part.letter :: (part.sign ++ part.digits)

/- The exponent that is written. -/
def value
    (part : ExponentPart) :
    Bool × List Nat :=
  (decide (part.sign = ['-']), digitValues part.digits)

theorem noDigit_chars
    (exponent : Option ExponentPart) :
    NoDigit (chars exponent) := by
  cases exponent with
  | none =>
      intro c hHead
      cases hHead
  | some part =>
      rintro _ ⟨⟩
      rcases part.isLetter with hLetter | hLetter
      · rw [hLetter]
        decide
      · rw [hLetter]
        decide

theorem parseExponent?_chars
    (exponent : Option ExponentPart) :
    parseExponent? (chars exponent) =
      some (exponent.map value) := by
  cases exponent with
  | none => rfl
  | some part =>
      rcases List.exists_cons_of_ne_nil
        part.digits_ne_nil with ⟨c, cs, hDigits⟩
      have hFirst : Text.isDigit c = true :=
        part.isDigits c (by simp [hDigits])
      have hSign :
          splitSign (part.sign ++ part.digits) =
            (decide (part.sign = ['-']), part.digits) := by
        apply splitSign_append part.isSign
        rw [hDigits]
        exact noSign_of_isDigit hFirst cs
      have hSplit :
          splitDigits part.digits =
            (digitValues part.digits, []) := by
        have hAll :=
          splitDigits_append part.isDigits (noDigit_chars none)
        rwa [chars, List.append_nil] at hAll
      have hValues : digitValues part.digits ≠ [] := by
        rw [Ne, part.isDigits.digitValues_eq_nil_iff]
        exact part.digits_ne_nil
      simp [chars, parseExponent?, part.isLetter, hSign,
        hSplit, hValues, value]

end ExponentPart

theorem exists_exponent
    {cs : List Char}
    {exponent : Option (Bool × List Nat)}
    (hParse : parseExponent? cs = some exponent) :
    ∃ part,
      cs = ExponentPart.chars part ∧
        exponent = part.map ExponentPart.value := by
  cases cs with
  | nil =>
      cases hParse
      exact ⟨none, rfl, rfl⟩
  | cons letter cs =>
      rcases hSign : splitSign cs with ⟨negative, afterSign⟩
      rcases hDigits : splitDigits afterSign with
        ⟨values, rest⟩
      rcases exists_sign hSign with ⟨sign, hIsSign, rfl, rfl⟩
      rcases exists_digits hDigits with
        ⟨digits, hIsDigits, rfl, rfl⟩
      simp only [parseExponent?, hSign, hDigits] at hParse
      split_ifs at hParse with hLetter hMore
      cases hParse
      simp only [Bool.or_eq_true, List.isEmpty_iff,
        Bool.not_eq_true', List.isEmpty_eq_false_iff, not_or,
        not_not, hIsDigits.digitValues_eq_nil_iff] at hMore
      rcases hMore with ⟨hNonempty, rfl⟩
      refine
        ⟨some ⟨letter, sign, digits, hLetter, hIsSign,
          hNonempty, hIsDigits⟩, ?_, rfl⟩
      rw [List.append_nil]
      rfl

/- The text of a point and digits, empty if there is none. -/
def fractionChars : Option (List Char) → List Char
| none => []
| some digits => '.' :: digits

theorem noDigit_fractionChars
    (fraction : Option (List Char))
    (exponent : Option ExponentPart) :
    NoDigit
      (fractionChars fraction ++
        ExponentPart.chars exponent) := by
  cases fraction with
  | none => exact ExponentPart.noDigit_chars exponent
  | some digits =>
      rintro _ ⟨⟩
      decide

theorem splitFraction_append
    {fraction : Option (List Char)}
    (hDigits : ∀ digits ∈ fraction, Digits digits)
    (exponent : Option ExponentPart) :
    splitFraction
        (fractionChars fraction ++
          ExponentPart.chars exponent) =
      (fraction.map digitValues,
        ExponentPart.chars exponent) := by
  cases fraction with
  | none =>
      cases exponent with
      | none => rfl
      | some part =>
          have hPoint : part.letter ≠ '.' := by
            intro hLetter
            have hOther := part.isLetter
            rw [hLetter] at hOther
            exact absurd hOther (by decide)
          simp [fractionChars, splitFraction,
            ExponentPart.chars, hPoint]
  | some digits =>
      have hSplit :=
        splitDigits_append (hDigits digits rfl)
          (ExponentPart.noDigit_chars exponent)
      simp [fractionChars, splitFraction, hSplit]

theorem exists_fraction
    {cs rest : List Char}
    {values : Option (List Nat)}
    (hSplit : splitFraction cs = (values, rest)) :
    ∃ fraction,
      (∀ digits ∈ fraction, Digits digits) ∧
        cs = fractionChars fraction ++ rest ∧
        values = fraction.map digitValues := by
  cases cs with
  | nil =>
      cases hSplit
      exact ⟨none, by simp, rfl, rfl⟩
  | cons c cs =>
      by_cases hPoint : c = '.'
      · rcases hDigits : splitDigits cs with ⟨after, left⟩
        rcases exists_digits hDigits with
          ⟨digits, hIsDigits, rfl, rfl⟩
        simp only [splitFraction, if_pos hPoint, hDigits]
          at hSplit
        cases hSplit
        refine ⟨some digits, ?_, ?_, rfl⟩
        · rintro _ ⟨⟩
          exact hIsDigits
        · rw [hPoint]
          rfl
      · simp only [splitFraction, if_neg hPoint] at hSplit
        cases hSplit
        exact ⟨none, by simp, rfl, rfl⟩

end Numeral

end LamLang

------------------------------------------------------------
-- Shapes
------------------------------------------------------------

namespace LamLang

namespace Numeral

open Text (Digits NoDigit digitValues)

/- The parts of a numeral as they are written. -/
structure Shape where
  sign : List Char
  whole : List Char
  fraction : Option (List Char)
  exponent : Option ExponentPart
  isSign : IsSign sign
  whole_digits : Digits whole
  fraction_digits : ∀ digits ∈ fraction, Digits digits
  digits_ne_nil : whole ≠ [] ∨ fraction.getD [] ≠ []

namespace Shape

/- The text of a numeral. -/
def chars
    (shape : Shape) :
    List Char :=
  shape.sign ++
    (shape.whole ++
      (fractionChars shape.fraction ++
        ExponentPart.chars shape.exponent))

/- The numeral that is written. -/
def numeral
    (shape : Shape) :
    Numeral where
  negative := decide (shape.sign = ['-'])
  whole := digitValues shape.whole
  fraction := shape.fraction.map digitValues
  exponent := shape.exponent.map ExponentPart.value

/- What stands behind the sign starts with no sign. -/
theorem noSign
    (shape : Shape) :
    NoSign
      (shape.whole ++
        (fractionChars shape.fraction ++
          ExponentPart.chars shape.exponent)) := by
  cases hWhole : shape.whole with
  | cons c cs =>
      have hFirst : Text.isDigit c = true :=
        shape.whole_digits c (by simp [hWhole])
      exact noSign_of_isDigit hFirst _
  | nil =>
      -- There is a point then, since there is a digit.
      have hDigits := shape.digits_ne_nil
      cases hFraction : shape.fraction with
      | none => simp [hWhole, hFraction] at hDigits
      | some digits =>
          rintro _ ⟨⟩
          decide

end Shape

/- What reading a numeral comes to, part by part. -/
theorem parse?_eq_some_iff
    {cs : List Char}
    {numeral : Numeral} :
    parse? cs = some numeral ↔
      ∃ afterSign afterWhole afterFraction,
        splitSign cs = (numeral.negative, afterSign) ∧
          splitDigits afterSign =
            (numeral.whole, afterWhole) ∧
          splitFraction afterWhole =
            (numeral.fraction, afterFraction) ∧
          (numeral.whole ≠ [] ∨
            numeral.fraction.getD [] ≠ []) ∧
          parseExponent? afterFraction =
            some numeral.exponent := by
  rcases hSign : splitSign cs with ⟨negative, afterSign⟩
  rcases hWhole : splitDigits afterSign with
    ⟨whole, afterWhole⟩
  rcases hFraction : splitFraction afterWhole with
    ⟨fraction, afterFraction⟩
  simp only [parse?, hSign, hWhole, hFraction]
  constructor
  · intro hParse
    split_ifs at hParse with hNone
    rcases Option.bind_eq_some_iff.mp hParse with
      ⟨exponent, hExponent, hParts⟩
    cases hParts
    refine
      ⟨_, _, _, rfl, hWhole, hFraction, ?_, hExponent⟩
    simpa [-not_and, not_and_or] using hNone
  · rintro ⟨_, _, _, hFirst, hSecond, hThird, hSome,
      hExponent⟩
    cases hFirst
    rw [hWhole] at hSecond
    cases hSecond
    rw [hFraction] at hThird
    cases hThird
    rw [if_neg (by simpa [-not_and, not_and_or] using hSome),
      hExponent]
    rfl

/- A text with the parts of a numeral is read as it. -/
theorem Shape.parse?_chars
    (shape : Shape) :
    parse? shape.chars = some shape.numeral := by
  have hSign := splitSign_append shape.isSign shape.noSign
  have hWhole :=
    splitDigits_append shape.whole_digits
      (noDigit_fractionChars shape.fraction shape.exponent)
  have hFraction :=
    splitFraction_append shape.fraction_digits
      shape.exponent
  refine
    parse?_eq_some_iff.mpr
      ⟨_, _, _, hSign, hWhole, hFraction, ?_,
        ExponentPart.parseExponent?_chars shape.exponent⟩
  refine shape.digits_ne_nil.imp ?_ ?_
  · exact mt shape.whole_digits.digitValues_eq_nil_iff.mp
  · intro hNonempty
    cases hPart : shape.fraction with
    | none => simp [hPart] at hNonempty
    | some digits =>
        have hDigits := shape.fraction_digits digits hPart
        rw [hPart] at hNonempty
        simpa [numeral, hPart,
          hDigits.digitValues_eq_nil_iff] using hNonempty

/- Whatever is read as a numeral has its parts. -/
theorem exists_shape
    {cs : List Char}
    {numeral : Numeral}
    (hParse : parse? cs = some numeral) :
    ∃ shape : Shape,
      shape.chars = cs ∧ shape.numeral = numeral := by
  rcases numeral with ⟨negative, values, after, power⟩
  rcases parse?_eq_some_iff.mp hParse with
    ⟨_, _, _, hSign, hWhole, hFraction, hSome, hExponent⟩
  rcases exists_sign hSign with ⟨sign, hIsSign, rfl, rfl⟩
  rcases exists_digits hWhole with
    ⟨whole, hIsWhole, rfl, rfl⟩
  rcases exists_fraction hFraction with
    ⟨fraction, hIsFraction, rfl, rfl⟩
  rcases exists_exponent hExponent with
    ⟨exponent, rfl, rfl⟩
  refine
    ⟨⟨sign, whole, fraction, exponent, hIsSign, hIsWhole,
      hIsFraction, ?_⟩, rfl, rfl⟩
  refine hSome.imp ?_ ?_
  · exact mt hIsWhole.digitValues_eq_nil_iff.mpr
  · intro hNonempty
    cases fraction with
    | none => simp at hNonempty
    | some digits =>
        simpa [(hIsFraction digits rfl).digitValues_eq_nil_iff]
          using hNonempty

end Numeral

end LamLang
