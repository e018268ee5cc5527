import Mathlib.Computability.Language
import LamLang.Proofs.RoundTrip

/-
  The classes of tokens.

  The texts of numbers are a regular language: a sign or
  none, digits with or without a point, and an exponent or
  none.  They fall into those with neither point nor
  exponent, which are integers, and the others, which are
  reals.  A token without a mark in front is a number of its
  class, and a symbol if it has none; only an integer with
  too many digits is refused.

  Key definitions include:
    * `LamLang.Numeral.Form.pattern`
    * `LamLang.Numeral.Form.integers`
    * `LamLang.Numeral.Form.reals`
    * `LamLang.Numeral.Form.Denotes`

  Main statements:
    * `LamLang.Numeral.Form.mem_pattern_iff`
    * `LamLang.Numeral.Form.mem_integers_iff`
    * `LamLang.Numeral.Form.mem_reals_iff`
    * `LamLang.tokens_classed_by_text`
-/

------------------------------------------------------------
-- Languages
------------------------------------------------------------

namespace LamLang

namespace Numeral

namespace Form

open scoped Computability

/- The texts of one character of a kind. -/
def oneOf
    (kind : Char → Prop) :
    Language Char :=
  {cs | ∃ c, kind c ∧ cs = [c]}

def digit : Language Char :=
  oneOf fun c => Text.isDigit c = true

def digits : Language Char :=
  digit * digit∗

def point : Language Char :=
  oneOf fun c => c = '.'

/- A sign, or none. -/
def sign : Language Char :=
  1 + oneOf fun c => c = '+' ∨ c = '-'

def exponent : Language Char :=
  oneOf (fun c => c = 'e' ∨ c = 'E') * (sign * digits)

/- Digits with or without a point among or before them. -/
def significand : Language Char :=
  digits * ((1 + point) * digit∗) + point * digits

/- The texts of all numbers. -/
def pattern : Language Char :=
  sign * (significand * (1 + exponent))

/- The texts with neither point nor exponent. -/
def integers : Language Char :=
  sign * digits

/- The texts with a point or an exponent. -/
def reals : Language Char :=
  {cs | cs ∈ pattern ∧ ('.' ∈ cs ∨ 'e' ∈ cs ∨ 'E' ∈ cs)}

/-
  A text of an integer, with the values of its digits in
  order, has this value.
-/
def Denotes
    (cs : List Char)
    (values : List Nat)
    (n : Int) : Prop :=
  ∃ front ∈ sign, ∃ back ∈ digits,
    front ++ back = cs ∧
      List.Forall₂ (fun c d => Text.digitValue? c = some d)
        back values ∧
      n =
        (if front = ['-'] then -1 else 1) *
          (Nat.ofDigits 10 values.reverse : Nat)

end Form

end Numeral

end LamLang

------------------------------------------------------------
-- Texts And Shapes
------------------------------------------------------------

namespace LamLang

namespace Numeral

namespace Form

open scoped Computability

variable {cs : List Char}

theorem mem_kstar_digit_iff :
    cs ∈ digit∗ ↔ Text.Digits cs := by
  rw [Language.mem_kstar]
  constructor
  · rintro ⟨parts, rfl, hParts⟩ c hMem
    rcases List.mem_flatten.mp hMem with ⟨part, hPart, hIn⟩
    rcases hParts part hPart with ⟨d, hDigit, rfl⟩
    rw [List.mem_singleton.mp hIn]
    exact hDigit
  · intro hDigits
    refine ⟨cs.map fun c => [c], ?_, ?_⟩
    · rw [← List.flatMap_def, List.flatMap_singleton']
    · intro part hPart
      rcases List.mem_map.mp hPart with ⟨c, hMem, rfl⟩
      exact ⟨c, hDigits c hMem, rfl⟩

theorem mem_digits_iff :
    cs ∈ digits ↔ cs ≠ [] ∧ Text.Digits cs := by
  rw [digits, Language.mem_mul]
  constructor
  · rintro ⟨_, ⟨c, hFirst, rfl⟩, rest, hRest, rfl⟩
    refine ⟨List.cons_ne_nil c rest, ?_⟩
    exact
      List.forall_mem_cons.mpr
        ⟨hFirst, mem_kstar_digit_iff.mp hRest⟩
  · rintro ⟨hNonempty, hDigits⟩
    rcases List.exists_cons_of_ne_nil hNonempty with
      ⟨c, rest, rfl⟩
    rcases List.forall_mem_cons.mp hDigits with
      ⟨hFirst, hRest⟩
    exact
      ⟨[c], ⟨c, hFirst, rfl⟩, rest,
        mem_kstar_digit_iff.mpr hRest, rfl⟩

theorem mem_sign_iff :
    cs ∈ sign ↔ IsSign cs := by
  constructor
  · rintro (hNone | ⟨_, rfl | rfl, rfl⟩)
    · exact .inl hNone
    · exact .inr (.inl rfl)
    · exact .inr (.inr rfl)
  · rintro (rfl | rfl | rfl)
    · exact .inl rfl
    · exact .inr ⟨'+', .inl rfl, rfl⟩
    · exact .inr ⟨'-', .inr rfl, rfl⟩

theorem mem_exponent_iff :
    cs ∈ 1 + exponent ↔
      ∃ part, ExponentPart.chars part = cs := by
  rw [Language.mem_add, Language.mem_one, exponent,
    Language.mem_mul]
  constructor
  · rintro (rfl | ⟨_, ⟨letter, hLetter, rfl⟩, _, hRest, rfl⟩)
    · exact ⟨none, rfl⟩
    · rcases Language.mem_mul.mp hRest with
        ⟨front, hFront, back, hBack, rfl⟩
      rcases mem_digits_iff.mp hBack with
        ⟨hNonempty, hDigits⟩
      exact
        ⟨some ⟨letter, front, back, hLetter,
          mem_sign_iff.mp hFront, hNonempty, hDigits⟩, rfl⟩
  · rintro ⟨_ | part, rfl⟩
    · exact .inl rfl
    · refine
        .inr ⟨_, ⟨part.letter, part.isLetter, rfl⟩, _,
          ?_, rfl⟩
      exact
        Language.append_mem_mul
          (mem_sign_iff.mpr part.isSign)
          (mem_digits_iff.mpr
            ⟨part.digits_ne_nil, part.isDigits⟩)

theorem mem_significand_iff :
    cs ∈ significand ↔
      ∃ whole fraction,
        Text.Digits whole ∧
          (∀ after ∈ fraction, Text.Digits after) ∧
          (whole ≠ [] ∨ fraction.getD [] ≠ []) ∧
          whole ++ fractionChars fraction = cs := by
  constructor
  · rintro (hFirst | hPoint)
    · rcases Language.mem_mul.mp hFirst with
        ⟨whole, hWhole, _, hRest, rfl⟩
      rcases mem_digits_iff.mp hWhole with
        ⟨hNonempty, hWhole⟩
      rcases Language.mem_mul.mp hRest with
        ⟨_, hPoint, after, hAfter, rfl⟩
      rw [mem_kstar_digit_iff] at hAfter
      rcases hPoint with rfl | ⟨_, rfl, rfl⟩
      · -- Without a point the digits just go on.
        refine
          ⟨whole ++ after, none, ?_, by simp,
            .inl (by simp [hNonempty]), by
              simp [fractionChars]⟩
        exact
          List.forall_mem_append.mpr ⟨hWhole, hAfter⟩
      · exact
          ⟨whole, some after, hWhole, by simpa using hAfter,
            .inl hNonempty, rfl⟩
    · rcases Language.mem_mul.mp hPoint with
        ⟨_, ⟨_, rfl, rfl⟩, after, hAfter, rfl⟩
      rcases mem_digits_iff.mp hAfter with
        ⟨hNonempty, hAfter⟩
      exact
        ⟨[], some after, by simp [Text.Digits], by
          simpa using hAfter, .inr hNonempty, rfl⟩
  · rintro ⟨whole, fraction, hWhole, hFraction, hSome, rfl⟩
    by_cases hNone : whole = []
    · -- Then the digits stand behind a point.
      subst hNone
      cases fraction with
      | none => simp at hSome
      | some after =>
          right
          have hAfter : after ≠ [] := by simpa using hSome
          exact
            ⟨['.'], ⟨'.', rfl, rfl⟩, after,
              mem_digits_iff.mpr
                ⟨hAfter, hFraction after rfl⟩, rfl⟩
    · left
      apply Language.append_mem_mul
        (mem_digits_iff.mpr ⟨hNone, hWhole⟩)
      cases fraction with
      | none =>
          exact
            ⟨[], .inl rfl, [], Language.nil_mem_kstar digit,
              rfl⟩
      | some after =>
          exact
            ⟨['.'], .inr ⟨'.', rfl, rfl⟩, after,
              mem_kstar_digit_iff.mpr (hFraction after rfl),
              rfl⟩

/- The texts of numbers are those with a shape. -/
theorem mem_pattern_iff_shape :
    cs ∈ pattern ↔ ∃ shape : Shape, shape.chars = cs := by
  constructor
  · intro hMem
    rcases Language.mem_mul.mp hMem with
      ⟨front, hFront, _, hRest, rfl⟩
    rcases Language.mem_mul.mp hRest with
      ⟨_, hDigits, _, hExponent, rfl⟩
    rcases mem_significand_iff.mp hDigits with
      ⟨whole, fraction, hWhole, hFraction, hSome, rfl⟩
    rcases mem_exponent_iff.mp hExponent with ⟨part, rfl⟩
    refine
      ⟨⟨front, whole, fraction, part,
        mem_sign_iff.mp hFront, hWhole, hFraction,
        hSome⟩, ?_⟩
    simp [Shape.chars]
  · rintro ⟨shape, rfl⟩
    apply Language.append_mem_mul
      (mem_sign_iff.mpr shape.isSign)
    rw [← List.append_assoc]
    refine
      Language.append_mem_mul
        (mem_significand_iff.mpr ?_)
        (mem_exponent_iff.mpr ⟨_, rfl⟩)
    exact
      ⟨_, _, shape.whole_digits, shape.fraction_digits,
        shape.digits_ne_nil, rfl⟩

end Form

end Numeral

end LamLang

------------------------------------------------------------
-- Texts And Numerals
------------------------------------------------------------

namespace LamLang

namespace Numeral

/- Neither a point nor a letter is a sign or a digit. -/
theorem IsSign.not_mem_append
    {front back : List Char}
    (hFront : IsSign front)
    (hBack : Text.Digits back)
    {c : Char}
    (hOther : c = '.' ∨ c = 'e' ∨ c = 'E') :
    c ∉ front ++ back := by
  intro hMem
  rcases List.mem_append.mp hMem with hSign | hDigit
  · rcases hFront with rfl | rfl | rfl
    · cases hSign
    · rw [List.mem_singleton.mp hSign] at hOther
      exact absurd hOther (by decide)
    · rw [List.mem_singleton.mp hSign] at hOther
      exact absurd hOther (by decide)
  · have hValue := hBack c hDigit
    rcases hOther with rfl | rfl | rfl
    · exact absurd hValue (by decide)
    · exact absurd hValue (by decide)
    · exact absurd hValue (by decide)

namespace Shape

theorem isInteger_iff
    (shape : Shape) :
    shape.numeral.isInteger = true ↔
      shape.fraction = none ∧ shape.exponent = none := by
  simp [numeral, isInteger]

/- A point or a letter tells a real from an integer. -/
theorem isInteger_eq_false_iff
    (shape : Shape) :
    shape.numeral.isInteger = false ↔
      '.' ∈ shape.chars ∨ 'e' ∈ shape.chars ∨
        'E' ∈ shape.chars := by
  rw [← Bool.not_eq_true, isInteger_iff, not_and_or]
  constructor
  · rintro (hFraction | hExponent)
    · rcases Option.ne_none_iff_exists'.mp hFraction with
        ⟨after, hAfter⟩
      left
      simp [chars, hAfter, fractionChars]
    · rcases Option.ne_none_iff_exists'.mp hExponent with
        ⟨part, hPart⟩
      right
      have hMem : part.letter ∈ shape.chars := by
        simp [chars, hPart, ExponentPart.chars]
      rcases part.isLetter with hLetter | hLetter
      · exact .inl (hLetter ▸ hMem)
      · exact .inr (hLetter ▸ hMem)
  · intro hMarked
    rw [← not_and_or]
    rintro ⟨hFraction, hExponent⟩
    have hChars : shape.chars = shape.sign ++ shape.whole := by
      simp [chars, hFraction, hExponent, fractionChars,
        ExponentPart.chars]
    rcases hMarked with hMem | hMem | hMem <;>
      exact
        shape.isSign.not_mem_append shape.whole_digits
          (by decide) (hChars ▸ hMem)

end Shape

/- The value of an integer numeral. -/
def worth
    (numeral : Numeral) :
    Int :=
  if numeral.negative then
    -(Text.ofDigits numeral.whole : Int)
  else
    Text.ofDigits numeral.whole

namespace Form

variable {cs : List Char}

theorem mem_pattern_iff :
    cs ∈ pattern ↔
      ∃ numeral, parse? cs = some numeral := by
  rw [mem_pattern_iff_shape]
  constructor
  · rintro ⟨shape, rfl⟩
    exact ⟨_, shape.parse?_chars⟩
  · rintro ⟨numeral, hNumeral⟩
    rcases exists_shape hNumeral with ⟨shape, hChars, -⟩
    exact ⟨shape, hChars⟩

theorem mem_reals_iff :
    cs ∈ reals ↔
      ∃ numeral, parse? cs = some numeral ∧
        numeral.isInteger = false := by
  constructor
  · rintro ⟨hPattern, hMarked⟩
    rcases mem_pattern_iff_shape.mp hPattern with
      ⟨shape, rfl⟩
    exact
      ⟨_, shape.parse?_chars,
        shape.isInteger_eq_false_iff.mpr hMarked⟩
  · rintro ⟨_, hNumeral, hReal⟩
    rcases exists_shape hNumeral with ⟨shape, rfl, rfl⟩
    exact
      ⟨mem_pattern_iff_shape.mpr ⟨shape, rfl⟩,
        shape.isInteger_eq_false_iff.mp hReal⟩

/- What a text denotes is what its numeral is worth. -/
theorem denotes_iff
    {values : List Nat}
    {n : Int} :
    Denotes cs values n ↔
      ∃ numeral, parse? cs = some numeral ∧
        numeral.isInteger = true ∧
        numeral.whole = values ∧ numeral.worth = n := by
  constructor
  · rintro ⟨front, hFront, back, hBack, rfl, hValues, rfl⟩
    rcases mem_digits_iff.mp hBack with ⟨hNonempty, -⟩
    rcases Text.digitValues_of_forall₂ hValues with
      ⟨hDigits, rfl⟩
    let shape : Shape :=
      ⟨front, back, none, none, mem_sign_iff.mp hFront,
        hDigits, by simp, .inl hNonempty⟩
    have hParse := shape.parse?_chars
    have hChars : shape.chars = front ++ back := by
      simp [shape, Shape.chars, fractionChars,
        ExponentPart.chars]
    rw [hChars] at hParse
    refine
      ⟨_, hParse, shape.isInteger_iff.mpr ⟨rfl, rfl⟩, rfl,
        ?_⟩
    by_cases hMinus : front = ['-'] <;>
      simp [worth, shape, Shape.numeral, hMinus,
        Text.ofDigits_eq]
  · rintro ⟨_, hNumeral, hInteger, rfl, rfl⟩
    rcases exists_shape hNumeral with ⟨shape, rfl, rfl⟩
    rcases shape.isInteger_iff.mp hInteger with
      ⟨hFraction, hExponent⟩
    have hWhole : shape.whole ≠ [] := by
      simpa [hFraction] using shape.digits_ne_nil
    refine
      ⟨shape.sign, mem_sign_iff.mpr shape.isSign,
        shape.whole,
        mem_digits_iff.mpr ⟨hWhole, shape.whole_digits⟩,
        ?_, shape.whole_digits.forall₂, ?_⟩
    · simp [Shape.chars, hFraction, hExponent,
        fractionChars, ExponentPart.chars]
    · by_cases hMinus : shape.sign = ['-'] <;>
        simp [worth, Shape.numeral, hMinus,
          Text.ofDigits_eq]

theorem mem_integers_iff_denotes :
    cs ∈ integers ↔ ∃ values n, Denotes cs values n := by
  rw [integers, Language.mem_mul]
  constructor
  · rintro ⟨front, hFront, back, hBack, hChars⟩
    have hDigits := (mem_digits_iff.mp hBack).2
    exact
      ⟨_, _, front, hFront, back, hBack, hChars,
        hDigits.forall₂, rfl⟩
  · rintro ⟨_, _, front, hFront, back, hBack, hChars, -⟩
    exact ⟨front, hFront, back, hBack, hChars⟩

theorem mem_integers_iff :
    cs ∈ integers ↔
      ∃ numeral, parse? cs = some numeral ∧
        numeral.isInteger = true := by
  rw [mem_integers_iff_denotes]
  constructor
  · rintro ⟨values, n, hDenotes⟩
    rcases denotes_iff.mp hDenotes with
      ⟨numeral, hNumeral, hInteger, -⟩
    exact ⟨numeral, hNumeral, hInteger⟩
  · rintro ⟨numeral, hNumeral, hInteger⟩
    exact
      ⟨_, _, denotes_iff.mpr
        ⟨numeral, hNumeral, hInteger, rfl, rfl⟩⟩

/- Every text of a number is in one class. -/
theorem mem_pattern_iff_class :
    cs ∈ pattern ↔ cs ∈ integers ∨ cs ∈ reals := by
  rw [mem_pattern_iff, mem_integers_iff, mem_reals_iff,
    ← exists_or]
  refine exists_congr fun numeral => ?_
  cases numeral.isInteger <;> simp

/- No text of a number is in both classes. -/
theorem not_mem_reals_of_mem_integers
    (hInteger : cs ∈ integers) :
    cs ∉ reals := by
  intro hReal
  rcases mem_integers_iff.mp hInteger with
    ⟨first, hFirst, hIsInteger⟩
  rcases mem_reals_iff.mp hReal with
    ⟨second, hSecond, hIsReal⟩
  cases hFirst.symm.trans hSecond
  rw [hIsInteger] at hIsReal
  cases hIsReal

end Form

end Numeral

end LamLang

------------------------------------------------------------
-- What Tokens Stand For
------------------------------------------------------------

namespace LamLang

namespace Numeral

variable {numeral : Numeral}

theorem toNumber_eq_int_iff
    {n : Int} :
    numeral.toNumber = .ok (.int n) ↔
      numeral.isInteger = true ∧
        numeral.whole.length ≤ Mishap.digitLimit ∧
        numeral.worth = n := by
  unfold toNumber
  by_cases hInteger : numeral.isInteger = true
  · by_cases hLength :
        numeral.whole.length ≤ Mishap.digitLimit
    · simp [hInteger, hLength, worth]
    · simp [hInteger, hLength]
  · simp [hInteger]

theorem toNumber_eq_real_iff :
    (∃ x, numeral.toNumber = .ok (.real x)) ↔
      numeral.isInteger = false := by
  unfold toNumber
  by_cases hInteger : numeral.isInteger = true
  · by_cases hLength :
        numeral.whole.length ≤ Mishap.digitLimit
    · simp [hInteger, hLength]
    · simp [hInteger, hLength]
  · simp [hInteger]

theorem toNumber_eq_error_iff
    {failure : Failure} :
    numeral.toNumber = .error failure ↔
      numeral.isInteger = true ∧
        Mishap.digitLimit < numeral.whole.length ∧
        failure =
          .mishap
            (.numeralTooLong numeral.whole.length) := by
  unfold toNumber
  by_cases hInteger : numeral.isInteger = true
  · by_cases hLength :
        numeral.whole.length ≤ Mishap.digitLimit
    · simp [hInteger, hLength]
    · simp [hInteger, hLength, Nat.lt_of_not_le, eq_comm]
  · simp [hInteger]

end Numeral

namespace Datum

open Numeral Form

variable {token : Token}

/- A token is read as its numeral is, or refused as it is. -/
theorem ofToken_eq_map_num_iff
    (hMark : token.toList.head? ≠ some Lexeme.mark)
    (result : Except Failure Number) :
    ofToken token = result.map .num ↔
      ∃ numeral,
        parse? token.toList = some numeral ∧
          numeral.toNumber = result := by
  cases hParse : parse? token.toList with
  | none =>
      rw [ofToken_symbol hMark hParse]
      cases result <;> simp [Except.map]
  | some numeral =>
      rw [ofToken_numeral hMark hParse]
      cases hNumber : numeral.toNumber <;>
        cases result <;> simp [Except.map, hNumber]

theorem ofToken_eq_int_iff
    (hMark : token.toList.head? ≠ some Lexeme.mark)
    {n : Int} :
    ofToken token = .ok (.num (.int n)) ↔
      ∃ values,
        Denotes token.toList values n ∧
          values.length ≤ Mishap.digitLimit := by
  refine
    (ofToken_eq_map_num_iff hMark (.ok (.int n))).trans ?_
  simp only [toNumber_eq_int_iff, denotes_iff]
  constructor
  · rintro ⟨numeral, hParse, hInteger, hLength, hWorth⟩
    exact
      ⟨_, ⟨numeral, hParse, hInteger, rfl, hWorth⟩, hLength⟩
  · rintro ⟨_, ⟨numeral, hParse, hInteger, rfl, hWorth⟩,
      hLength⟩
    exact ⟨numeral, hParse, hInteger, hLength, hWorth⟩

theorem ofToken_eq_error_iff
    (hMark : token.toList.head? ≠ some Lexeme.mark)
    {failure : Failure} :
    ofToken token = .error failure ↔
      ∃ values n,
        Denotes token.toList values n ∧
          Mishap.digitLimit < values.length ∧
          failure =
            .mishap (.numeralTooLong values.length) := by
  refine
    (ofToken_eq_map_num_iff hMark (.error failure)).trans ?_
  simp only [toNumber_eq_error_iff, denotes_iff]
  constructor
  · rintro ⟨numeral, hParse, hInteger, hLong, hTooLong⟩
    exact
      ⟨_, _, ⟨numeral, hParse, hInteger, rfl, rfl⟩, hLong,
        hTooLong⟩
  · rintro ⟨_, _, ⟨numeral, hParse, hInteger, rfl, rfl⟩,
      hLong, hTooLong⟩
    exact ⟨numeral, hParse, hInteger, hLong, hTooLong⟩

theorem ofToken_eq_real_iff
    (hMark : token.toList.head? ≠ some Lexeme.mark) :
    (∃ x, ofToken token = .ok (.num (.real x))) ↔
      token.toList ∈ reals := by
  have hRead := fun x =>
    ofToken_eq_map_num_iff hMark (.ok (.real x))
  refine (exists_congr hRead).trans ?_
  rw [mem_reals_iff, exists_comm]
  simp only [exists_and_left, toNumber_eq_real_iff]

theorem ofToken_eq_symbol_iff
    (hMark : token.toList.head? ≠ some Lexeme.mark) :
    ofToken token = .ok (.symbol token) ↔
      token.toList ∉ integers ∧ token.toList ∉ reals := by
  rw [← not_or, ← mem_pattern_iff_class, mem_pattern_iff]
  cases hParse : parse? token.toList with
  | none => simp [ofToken_symbol hMark hParse]
  | some numeral =>
      rw [ofToken_numeral hMark hParse]
      cases numeral.toNumber <;> simp [Except.map]

end Datum

end LamLang

------------------------------------------------------------
-- Classes Of Tokens
------------------------------------------------------------

namespace LamLang

open Numeral Form

/-
  A token without a mark in front is read by its text alone.
  It is an integer exactly if it is a sign or none and some
  digits, not more than the limit; its value is theirs to the
  base ten, under the sign.  It is refused exactly if these
  digits are more than the limit.  It is a real exactly if it
  has a point or an exponent besides, and the symbol of its
  own text exactly if it is neither.  The two classes are
  apart and make up the pattern of numbers, so no text of
  the pattern is refused for its form.
-/
theorem tokens_classed_by_text
    (token : Token)
    (hMark : token.toList.head? ≠ some Lexeme.mark) :
    (∀ n,
      Datum.ofToken token = .ok (.num (.int n)) ↔
        ∃ values,
          Denotes token.toList values n ∧
            values.length ≤ Mishap.digitLimit) ∧
    (∀ failure,
      Datum.ofToken token = .error failure ↔
        ∃ values n,
          Denotes token.toList values n ∧
            Mishap.digitLimit < values.length ∧
            failure =
              .mishap (.numeralTooLong values.length)) ∧
    (∀ event,
      Datum.ofToken token = .error (.mishap event) →
        event.name = "ValueError") ∧
    ((∃ x, Datum.ofToken token = .ok (.num (.real x))) ↔
      token.toList ∈ reals) ∧
    (Datum.ofToken token = .ok (.symbol token) ↔
      token.toList ∉ integers ∧ token.toList ∉ reals) ∧
    (token.toList ∈ integers ↔
      ∃ values n, Denotes token.toList values n) ∧
    (token.toList ∈ integers → token.toList ∉ reals) ∧
    (token.toList ∈ pattern ↔
      token.toList ∈ integers ∨ token.toList ∈ reals) := by
  refine
    ⟨?integer, ?refused, ?kind, ?real, ?symbol, ?denotes,
      ?apart, ?covered⟩
  case integer =>
    intro n
    exact Datum.ofToken_eq_int_iff hMark
  case refused =>
    intro failure
    exact Datum.ofToken_eq_error_iff hMark
  case kind =>
    intro event hEvent
    rcases (Datum.ofToken_eq_error_iff hMark).mp hEvent with
      ⟨_, _, -, -, hTooLong⟩
    cases hTooLong
    rfl
  case real => exact Datum.ofToken_eq_real_iff hMark
  case symbol => exact Datum.ofToken_eq_symbol_iff hMark
  case denotes => exact mem_integers_iff_denotes
  case apart => exact not_mem_reals_of_mem_integers
  case covered => exact mem_pattern_iff_class

/-
  Digits of two scripts under a sign, one digit more than
  the limit, a point before the only digit of a real, and an
  exponent without digits.
-/
theorem tokens_classed_by_text_mixed :
    Datum.ofToken "-٣4" = .ok (.num (.int (-34))) ∧
      Datum.ofToken
          (String.ofList (List.replicate 4301 '7')) =
        .error (.mishap (.numeralTooLong 4301)) ∧
      (∃ x,
        Datum.ofToken "+.5E-07" = .ok (.num (.real x))) ∧
      Datum.ofToken "1e+" = .ok (.symbol "1e+") := by
  refine ⟨?integer, ?refused, ?real, ?symbol⟩
  case integer =>
    have hValues :
        List.Forall₂ (fun c d => Text.digitValue? c = some d)
          ['٣', '4'] [3, 4] :=
      .cons (by decide) (.cons (by decide) .nil)
    have hDigits := (Text.digitValues_of_forall₂ hValues).1
    refine
      ((tokens_classed_by_text "-٣4" (by decide)).1 _).mpr
        ⟨[3, 4], ?_, by decide⟩
    exact
      ⟨['-'], mem_sign_iff.mpr (.inr (.inr rfl)), ['٣', '4'],
        mem_digits_iff.mpr ⟨by decide, hDigits⟩, rfl,
        hValues, by decide⟩
  case refused =>
    have hDigits :
        Text.Digits (List.replicate 4301 '7') := by
      intro c hMem
      rw [List.eq_of_mem_replicate hMem]
      decide
    have hLength := hDigits.length_digitValues
    rw [List.length_replicate] at hLength
    refine
      ((tokens_classed_by_text _ ?_).2.1 _).mpr
        ⟨_, _,
          ⟨[], mem_sign_iff.mpr (.inl rfl), _,
            mem_digits_iff.mpr ⟨?_, hDigits⟩, ?_,
            hDigits.forall₂, rfl⟩, ?_, ?_⟩
    · rw [String.toList_ofList, List.head?_replicate]
      decide
    · rw [Ne, List.replicate_eq_nil_iff]
      decide
    · rw [String.toList_ofList, List.nil_append]
    · rw [hLength]
      decide
    · rw [hLength]
  case real =>
    refine
      (tokens_classed_by_text "+.5E-07"
        (by decide)).2.2.2.1.mpr ?_
    exact mem_reals_iff.mpr ⟨_, rfl, rfl⟩
  case symbol =>
    have hNone : parse? "1e+".toList = none := rfl
    refine
      (tokens_classed_by_text "1e+"
        (by decide)).2.2.2.2.1.mpr ?_
    rw [← not_or, ← mem_pattern_iff_class, mem_pattern_iff,
      hNone]
    simp

end LamLang
