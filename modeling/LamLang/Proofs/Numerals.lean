import LamLang.Proofs.Rounding
import LamLang.Proofs.Scanning
import LamLang.Proofs.Shapes

/-
  Numbers are read from the texts they are written as.

  A written number is a numeral of plain digits, with a
  point or an exponent unless it is an integer.  Its parts
  are read back digit by digit, and neither the zeros that
  fill up a text nor the place of the point change what the
  digits are worth.

  Key definitions include:
    * `LamLang.Numeral.Spelling`
    * `LamLang.Numeral.Spelling.chars`
    * `LamLang.Numeral.Spelling.numeral`
    * `LamLang.Number.Legible`

  Main statements:
    * `LamLang.Numeral.Spelling.parse?_chars`
    * `LamLang.Numeral.Spelling.isAtom_chars`
    * `LamLang.Decimal.Layout.exists_spelling`
    * `LamLang.Number.exists_spelling`
-/

------------------------------------------------------------
-- Plain Digits
------------------------------------------------------------

namespace LamLang

namespace Text

/- The digits that numbers are written with. -/
def plainDigits : List Char :=
  ['0', '1', '2', '3', '4', '5', '6', '7', '8', '9']

/- The texts of plain digits. -/
def Plain
    (cs : List Char) : Prop :=
  ∀ c ∈ cs, c ∈ plainDigits

theorem mem_plainDigits
    {c : Char}
    (hDigit : c.isDigit = true) :
    c ∈ plainDigits := by
  rcases Char.isDigit_iff_toNat.mp hDigit with
    ⟨hLeast, hGreatest⟩
  have hChar : c = Char.ofNat c.toNat :=
    (Char.ofNat_toNat c).symm
  have hAll :
      ∀ n, n < 58 → 48 ≤ n →
        Char.ofNat n ∈ plainDigits := by
    decide
  have hZero : '0'.toNat = 48 := rfl
  have hNine : '9'.toNat = 57 := rfl
  rw [hChar]
  exact hAll c.toNat (by omega) (by omega)

/- What a plain digit is worth. -/
theorem digitValue?_plain
    {c : Char}
    (hPlain : c ∈ plainDigits) :
    digitValue? c = some (c.toNat - '0'.toNat) := by
  have hAll :
      (plainDigits.all fun c =>
        digitValue? c == some (c.toNat - '0'.toNat)) =
        true := by
    decide
  exact eq_of_beq (List.all_eq_true.mp hAll c hPlain)

theorem isDigit_plain
    {c : Char}
    (hPlain : c ∈ plainDigits) :
    isDigit c = true := by
  rw [isDigit, digitValue?_plain hPlain]
  rfl

namespace Plain

theorem digits
    {cs : List Char}
    (hPlain : Plain cs) :
    Digits cs :=
  fun c hMem => isDigit_plain (hPlain c hMem)

theorem nil : Plain [] := by
  intro c hMem
  cases hMem

theorem cons
    {c : Char}
    {cs : List Char}
    (hFirst : c ∈ plainDigits)
    (hRest : Plain cs) :
    Plain (c :: cs) := by
  intro d hMem
  rcases List.mem_cons.mp hMem with rfl | hLater
  · exact hFirst
  · exact hRest d hLater

theorem append
    {front back : List Char}
    (hFront : Plain front)
    (hBack : Plain back) :
    Plain (front ++ back) := by
  intro c hMem
  rcases List.mem_append.mp hMem with hLeft | hRight
  · exact hFront c hLeft
  · exact hBack c hRight

theorem subset
    {cs ds : List Char}
    (hPlain : Plain ds)
    (hSubset : cs ⊆ ds) :
    Plain cs :=
  fun c hMem => hPlain c (hSubset hMem)

theorem zeros
    (n : Nat) :
    Plain (List.replicate n '0') := by
  intro c hMem
  rw [List.eq_of_mem_replicate hMem]
  decide

theorem toDigits
    (n : Nat) :
    Plain (Nat.toDigits 10 n) := by
  intro c hMem
  apply mem_plainDigits
  exact
    Nat.isDigit_of_mem_toDigits (by decide) (by decide) hMem

/- Plain digits are worth what they are elsewhere. -/
theorem digitValues
    {cs : List Char}
    (hPlain : Plain cs) :
    Text.digitValues cs =
      cs.map fun c => c.toNat - '0'.toNat := by
  induction cs with
  | nil => rfl
  | cons c cs ih =>
      have hFirst :=
        digitValue?_plain (hPlain c (by simp))
      have hRest := ih (hPlain.subset (by simp))
      rw [Text.digitValues,
        List.filterMap_cons_some hFirst, List.map_cons,
        ← hRest]
      rfl

theorem ofDigits
    {cs : List Char}
    (hPlain : Plain cs) :
    Text.ofDigits (Text.digitValues cs) =
      Nat.ofDigitChars 10 cs 0 := by
  rw [hPlain.digitValues, Text.ofDigits, List.foldl_map,
    Nat.ofDigitChars_eq_foldl]

end Plain

end Text

end LamLang

------------------------------------------------------------
-- Spelled Numerals
------------------------------------------------------------

namespace LamLang

namespace Numeral

/- The parts of a numeral as they are written. -/
structure Spelling where
  negative : Bool
  whole : List Char
  fraction : Option (List Char)
  exponent : Option (Bool × List Char)
  whole_ne_nil : whole ≠ []
  plain_whole : Text.Plain whole
  plain_fraction : ∀ digits ∈ fraction, Text.Plain digits
  plain_exponent :
    ∀ part ∈ exponent, part.2 ≠ [] ∧ Text.Plain part.2

namespace Spelling

/- An exponent with its sign. -/
def exponentChars : Option (Bool × List Char) → List Char
| none => []
| some (negative, digits) =>
    'e' :: (if negative then '-' else '+') :: digits

/- The text of a numeral. -/
def chars
    (spelling : Spelling) :
    List Char :=
  Number.signText spelling.negative ++
    (spelling.whole ++
      (fractionChars spelling.fraction ++
        exponentChars spelling.exponent))

/- The numeral that is spelled. -/
def numeral
    (spelling : Spelling) :
    Numeral where
  negative := spelling.negative
  whole := Text.digitValues spelling.whole
  fraction := spelling.fraction.map Text.digitValues
  exponent :=
    spelling.exponent.map fun part =>
      (part.1, Text.digitValues part.2)

/- An exponent that is spelled, as the part of a shape. -/
def exponentPart
    (part : Bool × List Char)
    (hPlain : part.2 ≠ [] ∧ Text.Plain part.2) :
    ExponentPart where
  letter := 'e'
  sign := [if part.1 then '-' else '+']
  digits := part.2
  isLetter := .inl rfl
  isSign := by cases part.1 <;> simp [IsSign]
  digits_ne_nil := hPlain.1
  isDigits := hPlain.2.digits

/- The shape of a spelled numeral. -/
def shape
    (spelling : Spelling) :
    Shape where
  sign := Number.signText spelling.negative
  whole := spelling.whole
  fraction := spelling.fraction
  exponent :=
    spelling.exponent.pmap exponentPart
      spelling.plain_exponent
  isSign := by
    cases spelling.negative <;>
      simp [IsSign, Number.signText]
  whole_digits := spelling.plain_whole.digits
  fraction_digits := fun digits hMem =>
    (spelling.plain_fraction digits hMem).digits
  digits_ne_nil := .inl spelling.whole_ne_nil

theorem chars_shape
    (spelling : Spelling) :
    spelling.shape.chars = spelling.chars := by
  rcases spelling with ⟨_, _, _, exponent, _, _, _, _⟩
  cases exponent <;> rfl

theorem numeral_shape
    (spelling : Spelling) :
    spelling.shape.numeral = spelling.numeral := by
  rcases spelling with ⟨negative, _, _, exponent, _, _, _, _⟩
  have hSign :
      decide (Number.signText negative = ['-']) =
        negative := by
    cases negative <;> rfl
  cases exponent with
  | none => simp [shape, Shape.numeral, numeral, hSign]
  | some part =>
      rcases part with ⟨minus, digits⟩
      cases minus <;>
        simp [shape, Shape.numeral, numeral, hSign,
          exponentPart, ExponentPart.value]

/- A spelled numeral is read part by part. -/
theorem parse?_chars
    (spelling : Spelling) :
    parse? spelling.chars = some spelling.numeral := by
  rw [← spelling.chars_shape, ← spelling.numeral_shape]
  exact spelling.shape.parse?_chars

end Spelling

end Numeral

end LamLang

------------------------------------------------------------
-- Spelled Numerals As Atoms
------------------------------------------------------------

namespace LamLang

namespace Numeral

/- The characters of numbers that are written. -/
def writtenChars : List Char :=
  ['-', '+', '.', 'e'] ++ Text.plainDigits

namespace Spelling

theorem mem_writtenChars_of_plain
    {digits : List Char}
    (hPlain : Text.Plain digits)
    {c : Char}
    (hMem : c ∈ digits) :
    c ∈ writtenChars :=
  List.mem_append_right _ (hPlain c hMem)

theorem mem_writtenChars
    (spelling : Spelling) :
    ∀ c ∈ spelling.chars, c ∈ writtenChars := by
  intro c hMem
  simp only [chars, List.mem_append] at hMem
  rcases hMem with hSign | hWhole | hFraction | hExponent
  · cases hNegative : spelling.negative with
    | true =>
        rw [hNegative] at hSign
        cases List.mem_singleton.mp hSign
        decide
    | false =>
        rw [hNegative] at hSign
        cases hSign
  · exact
      mem_writtenChars_of_plain spelling.plain_whole hWhole
  · cases hPart : spelling.fraction with
    | none =>
        rw [hPart] at hFraction
        cases hFraction
    | some digits =>
        rw [hPart, fractionChars] at hFraction
        rcases List.mem_cons.mp hFraction with rfl | hLater
        · decide
        · exact
            mem_writtenChars_of_plain
              (spelling.plain_fraction digits hPart) hLater
  · cases hPart : spelling.exponent with
    | none =>
        rw [hPart] at hExponent
        cases hExponent
    | some part =>
        rcases part with ⟨negative, digits⟩
        rw [hPart, exponentChars] at hExponent
        simp only [List.mem_cons] at hExponent
        rcases hExponent with rfl | rfl | hLater
        · decide
        · cases negative <;> decide
        · exact
            mem_writtenChars_of_plain
              (spelling.plain_exponent _ hPart).2 hLater

/- A spelled numeral is cut as one atom. -/
theorem isAtom_chars
    (spelling : Spelling) :
    Lexeme.IsAtom spelling.chars where
  nonempty := by
    simp [chars, spelling.whole_ne_nil]
  inner := by
    have hAll :
        (writtenChars.all fun c => !Lexeme.endsAtom c) =
          true := by
      decide
    intro c hMem
    have hInner :=
      List.all_eq_true.mp hAll c
        (spelling.mem_writtenChars c hMem)
    simpa using hInner
  notComment := by
    intro hComment
    have hMem : ';' ∈ spelling.chars :=
      hComment.subset (by simp)
    exact
      absurd (spelling.mem_writtenChars _ hMem) (by decide)

end Spelling

end Numeral

end LamLang

------------------------------------------------------------
-- Values Of Spelled Numerals
------------------------------------------------------------

namespace LamLang

namespace Numeral

namespace Spelling

/- All digits before the exponent. -/
def digits
    (spelling : Spelling) :
    List Char :=
  spelling.whole ++ spelling.fraction.getD []

/- The exponent with its sign, zero if there is none. -/
def power : Option (Bool × List Char) → Int
| none => 0
| some (negative, digits) =>
    if negative then
      -(Nat.ofDigitChars 10 digits 0 : Int)
    else
      Nat.ofDigitChars 10 digits 0

theorem power_numeral
    (spelling : Spelling) :
    spelling.numeral.power = power spelling.exponent := by
  cases hPart : spelling.exponent with
  | none => simp [Numeral.power, numeral, power, hPart]
  | some part =>
      have hPlain := (spelling.plain_exponent part hPart).2
      simp [Numeral.power, numeral, power, hPart,
        hPlain.ofDigits]

/- What the digits of a spelled numeral are worth. -/
theorem magnitude_numeral
    (spelling : Spelling) :
    spelling.numeral.magnitude =
      ⟨Nat.ofDigitChars 10 spelling.digits 0,
        power spelling.exponent -
          (spelling.fraction.getD []).length⟩ := by
  have hPlain : Text.Plain (spelling.fraction.getD []) := by
    cases hPart : spelling.fraction with
    | none => exact Text.Plain.nil
    | some digits =>
        exact spelling.plain_fraction digits hPart
  have hFraction :
      (spelling.fraction.map Text.digitValues).getD [] =
        Text.digitValues (spelling.fraction.getD []) := by
    cases spelling.fraction <;> rfl
  have hDigits :
      Text.digitValues spelling.digits =
        Text.digitValues spelling.whole ++
          Text.digitValues (spelling.fraction.getD []) :=
    List.filterMap_append
  have hAll : Text.Plain spelling.digits :=
    spelling.plain_whole.append hPlain
  rw [← power_numeral, ← hAll.ofDigits, hDigits,
    ← hPlain.digits.length_digitValues, ← hFraction]
  rfl

end Spelling

end Numeral

end LamLang

------------------------------------------------------------
-- Written Decimals
------------------------------------------------------------

namespace LamLang

namespace Decimal

/-
  A text that, after a sign, is read as a number with a
  point or an exponent and of the given magnitude.
-/
def Spelled
    (negative : Bool)
    (cs : List Char)
    (q : Rat) : Prop :=
  ∃ spelling : Numeral.Spelling,
    spelling.negative = negative ∧
      spelling.chars = Number.signText negative ++ cs ∧
      spelling.numeral.isInteger = false ∧
      spelling.numeral.magnitude.value = q

namespace Layout

variable {digits : List Char}

/- Zeros in front of digits are worth nothing. -/
theorem ofDigitChars_zeros
    (n : Nat)
    (digits : List Char) :
    Nat.ofDigitChars 10
        (List.replicate n '0' ++ digits) 0 =
      Nat.ofDigitChars 10 digits 0 := by
  rw [Nat.ofDigitChars_append,
    Nat.ofDigitChars_replicate_zero, Nat.mul_zero]

/- Digits behind the point, after zeros. -/
theorem spelled_small
    (hPlain : Text.Plain digits)
    {point : Int}
    (hPoint : point ≤ 0)
    (negative : Bool) :
    Spelled negative (positional digits point)
      (Nat.ofDigitChars 10 digits 0 *
        10 ^ (point - digits.length)) := by
  let after :=
    List.replicate (-point).toNat '0' ++ digits
  refine
    ⟨{ negative := negative
       whole := ['0']
       fraction := some after
       exponent := none
       whole_ne_nil := by simp
       plain_whole := Text.Plain.zeros 1
       plain_fraction := ?_
       plain_exponent := nofun }, rfl, ?_, rfl, ?_⟩
  · rintro _ ⟨⟩
    exact (Text.Plain.zeros _).append hPlain
  · rw [positional, if_pos hPoint]
    simp [Numeral.Spelling.chars, after,
      Numeral.fractionChars,
      Numeral.Spelling.exponentChars]
  · have hLength :
        after.length = (-point).toNat + digits.length := by
      simp [after]
    have hDigits :
        Nat.ofDigitChars 10 ('0' :: after) 0 =
          Nat.ofDigitChars 10 digits 0 :=
      (ofDigitChars_zeros 1 after).trans
        (ofDigitChars_zeros _ digits)
    rw [Numeral.Spelling.magnitude_numeral, value_eq]
    simp only [Numeral.Spelling.digits,
      Numeral.Spelling.power, Option.getD_some,
      List.singleton_append, hDigits, hLength]
    congr 2
    push_cast
    omega

/- Digits with the point among them. -/
theorem spelled_within
    (hPlain : Text.Plain digits)
    {m : Nat}
    (hPos : 0 < m)
    (hWithin : m < digits.length)
    (negative : Bool) :
    Spelled negative (positional digits m)
      (Nat.ofDigitChars 10 digits 0 *
        10 ^ ((m : Int) - digits.length)) := by
  refine
    ⟨{ negative := negative
       whole := digits.take m
       fraction := some (digits.drop m)
       exponent := none
       whole_ne_nil := ?_
       plain_whole :=
         hPlain.subset (List.take_subset m digits)
       plain_fraction := ?_
       plain_exponent := nofun }, rfl, ?_, rfl, ?_⟩
  · intro hNil
    have hLength := congrArg List.length hNil
    rw [List.length_take, List.length_nil] at hLength
    omega
  · rintro _ ⟨⟩
    exact hPlain.subset (List.drop_subset m digits)
  · have hDrop : (digits.drop m).isEmpty = false := by
      rw [List.isEmpty_eq_false_iff, Ne,
        List.drop_eq_nil_iff]
      omega
    have hZeros : m - digits.length = 0 := by omega
    rw [positional, if_neg (by omega)]
    simp [Numeral.Spelling.chars, hZeros, hDrop,
      Numeral.fractionChars,
      Numeral.Spelling.exponentChars]
  · rw [Numeral.Spelling.magnitude_numeral, value_eq]
    simp only [Numeral.Spelling.digits,
      Numeral.Spelling.power, Option.getD_some,
      List.take_append_drop, List.length_drop]
    congr 2
    omega

/- Digits with zeros up to the point. -/
theorem spelled_large
    (hPlain : Text.Plain digits)
    (hNonempty : digits ≠ [])
    {m : Nat}
    (hLarge : digits.length ≤ m)
    (negative : Bool) :
    Spelled negative (positional digits m)
      (Nat.ofDigitChars 10 digits 0 *
        10 ^ ((m : Int) - digits.length)) := by
  have hLength := List.length_pos_of_ne_nil hNonempty
  obtain ⟨n, hn⟩ := Nat.exists_eq_add_of_le hLarge
  refine
    ⟨{ negative := negative
       whole := digits ++ List.replicate n '0'
       fraction := some ['0']
       exponent := none
       whole_ne_nil := by simp [hNonempty]
       plain_whole := hPlain.append (Text.Plain.zeros n)
       plain_fraction := ?_
       plain_exponent := nofun }, rfl, ?_, rfl, ?_⟩
  · rintro _ ⟨⟩
    exact Text.Plain.zeros 1
  · have hTake : digits.take m = digits :=
      List.take_of_length_le hLarge
    have hDrop : digits.drop m = [] :=
      List.drop_of_length_le hLarge
    have hZeros : m - digits.length = n := by omega
    rw [positional, if_neg (by omega)]
    simp [Numeral.Spelling.chars, hTake, hDrop, hZeros,
      Numeral.fractionChars,
      Numeral.Spelling.exponentChars]
  · have hDigits :
        Nat.ofDigitChars 10
            (digits ++ List.replicate n '0' ++ ['0']) 0 =
          10 * (10 ^ n * Nat.ofDigitChars 10 digits 0) := by
      rw [Nat.ofDigitChars_append, Nat.ofDigitChars_append,
        Nat.ofDigitChars_replicate_zero]
      rfl
    have hExponent : (m : Int) - digits.length = n := by
      omega
    rw [Numeral.Spelling.magnitude_numeral, value_eq,
      hExponent]
    simp only [Numeral.Spelling.digits,
      Numeral.Spelling.power, Option.getD_some, hDigits,
      List.length_singleton]
    push_cast
    rw [zpow_neg_one, zpow_natCast]
    field_simp

theorem spelled_positional
    (hPlain : Text.Plain digits)
    (hNonempty : digits ≠ [])
    (point : Int)
    (negative : Bool) :
    Spelled negative (positional digits point)
      (Nat.ofDigitChars 10 digits 0 *
        10 ^ (point - digits.length)) := by
  by_cases hPoint : point ≤ 0
  · exact spelled_small hPlain hPoint negative
  · obtain ⟨m, rfl⟩ :=
      Int.eq_ofNat_of_zero_le
        (show 0 ≤ point by omega)
    by_cases hWithin : m < digits.length
    · exact
        spelled_within hPlain (by omega) hWithin negative
    · exact
        spelled_large hPlain hNonempty (by omega) negative

/- Digits with the point after the first of them. -/
theorem spelled_scientific
    (layout : Layout)
    (hPlain : Text.Plain digits)
    (hNonempty : digits ≠ [])
    (exponent : Int)
    (negative : Bool) :
    Spelled negative (layout.scientific digits exponent)
      (Nat.ofDigitChars 10 digits 0 *
        10 ^ (exponent + 1 - digits.length)) := by
  have hLength := List.length_pos_of_ne_nil hNonempty
  let places :=
    widen layout.width (Nat.toDigits 10 exponent.natAbs)
  let after :=
    if (digits.drop 1).isEmpty then none
    else some (digits.drop 1)
  have hAfter : after.getD [] = digits.drop 1 := by
    simp only [after]
    split
    · rename_i hEmpty
      rw [List.isEmpty_iff.mp hEmpty]
      rfl
    · rfl
  refine
    ⟨{ negative := negative
       whole := digits.take 1
       fraction := after
       exponent := some (decide (exponent < 0), places)
       whole_ne_nil := by simp [hNonempty]
       plain_whole :=
         hPlain.subset (List.take_subset 1 digits)
       plain_fraction := ?_
       plain_exponent := ?_ }, rfl, ?_, ?_, ?_⟩
  · intro part hPart
    have hDrop : part = digits.drop 1 := by
      rw [← hAfter, Option.mem_def.mp hPart]
      rfl
    rw [hDrop]
    exact hPlain.subset (List.drop_subset 1 digits)
  · rintro _ ⟨⟩
    refine ⟨?_, ?_⟩
    · simp [places, widen, Nat.toDigits_ne_nil]
    · exact
        (Text.Plain.zeros _).append
          (Text.Plain.toDigits exponent.natAbs)
  · have hChars :
        Numeral.fractionChars after =
          if (digits.drop 1).isEmpty then []
          else '.' :: digits.drop 1 := by
      simp only [after]
      split <;> rfl
    simp [Numeral.Spelling.chars, hChars, scientific,
      Numeral.Spelling.exponentChars, places]
  · simp [Numeral.isInteger, Numeral.Spelling.numeral]
  · have hPlaces :
        Nat.ofDigitChars 10 places 0 = exponent.natAbs := by
      rw [show places = _ ++ _ from rfl, ofDigitChars_zeros,
        Nat.ofDigitChars_ten_toDigits]
    have hPower :
        Numeral.Spelling.power
            (some (decide (exponent < 0), places)) =
          exponent := by
      simp only [Numeral.Spelling.power, hPlaces,
        decide_eq_true_eq]
      split <;> omega
    rw [Numeral.Spelling.magnitude_numeral, value_eq]
    simp only [Numeral.Spelling.digits, hAfter, hPower,
      List.take_append_drop, List.length_drop]
    congr 2
    omega

/- Only zeros are dropped at the end. -/
theorem exists_significant_append
    (digits : List Char) :
    ∃ k,
      digits =
        significant digits ++ List.replicate k '0' := by
  let zeros := digits.reverse.takeWhile (· == '0')
  have hZeros :
      zeros.reverse = List.replicate zeros.length '0' := by
    rw [List.eq_replicate_iff]
    refine ⟨List.length_reverse, ?_⟩
    intro c hMem
    have hZero :=
      List.mem_takeWhile_imp (List.mem_reverse.mp hMem)
    simpa using hZero
  refine ⟨zeros.length, ?_⟩
  rw [← hZeros, significant, ← List.reverse_append,
    List.takeWhile_append_dropWhile, List.reverse_reverse]

/- A written decimal has the value of the decimal. -/
theorem exists_spelling
    (layout : Layout)
    (d : Decimal)
    (negative : Bool) :
    Spelled negative (layout.write d) d.value := by
  by_cases hDigits : d.digits = 0
  · have hZero :=
      spelled_positional (Text.Plain.zeros 1)
        (by simp) 1 negative
    have hValue : d.value = 0 := by
      rw [value_eq, hDigits]
      simp
    have hNothing : Nat.ofDigitChars 10 ['0'] 0 = 0 := rfl
    rw [write, if_pos hDigits, hValue]
    simpa [positional, hNothing] using hZero
  · -- The zeros that are dropped move into the exponent.
    let all := Nat.toDigits 10 d.digits
    rcases exists_significant_append all with ⟨k, hAll⟩
    have hPlain : Text.Plain (significant all) := by
      have hWhole : Text.Plain all :=
        Text.Plain.toDigits d.digits
      apply hWhole.subset
      intro c hMem
      rw [hAll]
      exact List.mem_append_left _ hMem
    have hWorth :
        d.digits =
          10 ^ k *
            Nat.ofDigitChars 10 (significant all) 0 := by
      calc
        d.digits = Nat.ofDigitChars 10 all 0 :=
          Nat.ofDigitChars_ten_toDigits.symm
        _ = _ := by
          rw [hAll, Nat.ofDigitChars_append,
            Nat.ofDigitChars_replicate_zero, ← hAll]
    have hNonempty : significant all ≠ [] := by
      intro hNil
      rw [hNil] at hWorth
      exact hDigits (by simpa using hWorth)
    have hLength :
        all.length = (significant all).length + k := by
      have hBoth := congrArg List.length hAll
      rwa [List.length_append, List.length_replicate]
        at hBoth
    have hValue :
        d.value =
          Nat.ofDigitChars 10 (significant all) 0 *
            10 ^ (d.exponent + all.length - 1 + 1 -
              (significant all).length) := by
      have hExponent :
          d.exponent + all.length - 1 + 1 -
              (significant all).length =
            d.exponent + k := by
        omega
      rw [value_eq, hWorth, hExponent,
        zpow_add₀ (by norm_num), zpow_natCast]
      push_cast
      ring
    rw [write, if_neg hDigits, hValue]
    split
    · exact
        spelled_positional hPlain hNonempty _ negative
    · exact
        spelled_scientific layout hPlain hNonempty _
          negative

end Layout

end Decimal

end LamLang

------------------------------------------------------------
-- Written Numbers
------------------------------------------------------------

namespace LamLang

namespace Numeral

theorem toNumber_of_integer
    {numeral : Numeral}
    (hInteger : numeral.isInteger = true)
    (hLength : numeral.whole.length ≤ Mishap.digitLimit) :
    numeral.toNumber =
      .ok (.int
        (if numeral.negative then
          -(Text.ofDigits numeral.whole : Int)
        else
          Text.ofDigits numeral.whole)) := by
  rw [toNumber, if_pos hInteger, if_pos hLength]

theorem toNumber_of_real
    {numeral : Numeral}
    (hReal : numeral.isInteger = false) :
    numeral.toNumber =
      .ok (.real
        (numeral.magnitude.nearest numeral.negative)) := by
  rw [toNumber, if_neg (by simp [hReal])]

end Numeral

namespace Number

/- The numbers with a text that can be read. -/
def Legible : Number → Prop
| .int n =>
    Decimal.digitCount n.natAbs ≤ Mishap.digitLimit
| .real (.finite _ _) => True
| .real _ => False

theorem digitCount_le_iff
    (n : Nat) :
    Decimal.digitCount n ≤ Mishap.digitLimit ↔
      n < textBound := by
  rw [textBound_eq, Decimal.digitCount]
  exact Nat.length_toDigits_le_iff (by decide) (by decide)

theorem exists_spelling_int
    {n : Int}
    (hLimit :
      Decimal.digitCount n.natAbs ≤ Mishap.digitLimit) :
    ∃ spelling : Numeral.Spelling,
      (Number.int n).text =
          .ok (String.ofList spelling.chars) ∧
        spelling.numeral.toNumber = .ok (.int n) := by
  have hPlain := Text.Plain.toDigits n.natAbs
  refine
    ⟨{ negative := decide (n < 0)
       whole := Nat.toDigits 10 n.natAbs
       fraction := none
       exponent := none
       whole_ne_nil := Nat.toDigits_ne_nil
       plain_whole := hPlain
       plain_fraction := nofun
       plain_exponent := nofun }, ?_, ?_⟩
  · have hBound := (digitCount_le_iff n.natAbs).mp hLimit
    rw [text, if_pos hBound, intText]
    simp [Numeral.Spelling.chars,
      Numeral.fractionChars,
      Numeral.Spelling.exponentChars]
  · have hLength :
        (Text.digitValues
          (Nat.toDigits 10 n.natAbs)).length ≤
          Mishap.digitLimit := by
      rw [hPlain.digits.length_digitValues]
      exact hLimit
    have hWorth :
        Text.ofDigits
            (Text.digitValues (Nat.toDigits 10 n.natAbs)) =
          n.natAbs := by
      rw [hPlain.ofDigits, Nat.ofDigitChars_ten_toDigits]
    rw [Numeral.toNumber_of_integer rfl hLength]
    congr 2
    simp only [Numeral.Spelling.numeral, hWorth,
      decide_eq_true_eq]
    split <;> omega

theorem exists_spelling_finite
    (negative : Bool)
    (rank : Fin Binary64.rankCount) :
    ∃ spelling : Numeral.Spelling,
      (Number.real (.finite negative rank)).text =
          .ok (String.ofList spelling.chars) ∧
        spelling.numeral.toNumber =
          .ok (.real (.finite negative rank)) := by
  -- The decimal that is written for the number.
  let chosen : Decimal :=
    if rank.val = 0 then ⟨0, 0⟩ else Decimal.shortest rank
  have hNearest :
      chosen.nearest negative = .finite negative rank := by
    simp only [chosen]
    split
    · rename_i hZero
      rw [Decimal.nearest, if_pos rfl, Binary64.zero]
      congr 1
      exact Fin.ext hZero.symm
    · exact Decimal.nearest_shortest rank negative
  have hWritten :
      (Number.real (.finite negative rank)).text =
        .ok
          (String.ofList
            (signText negative ++ layout.write chosen)) := by
    simp only [text, realText, chosen]
    split <;> rfl
  rcases Decimal.Layout.exists_spelling layout chosen
    negative with
    ⟨spelling, hNegative, hChars, hReal, hValue⟩
  refine ⟨spelling, ?_, ?_⟩
  · rw [hWritten, hChars]
  · have hSign : spelling.numeral.negative = negative :=
      hNegative
    rw [Numeral.toNumber_of_real hReal, hSign,
      Decimal.nearest_congr hValue, hNearest]

/- A number that is legible is read from its text. -/
theorem exists_spelling
    {n : Number}
    (hLegible : n.Legible) :
    ∃ spelling : Numeral.Spelling,
      n.text = .ok (String.ofList spelling.chars) ∧
        spelling.numeral.toNumber = .ok n := by
  match n, hLegible with
  | .int n, hLimit => exact exists_spelling_int hLimit
  | .real (.finite negative rank), _ =>
      exact exists_spelling_finite negative rank

end Number

end LamLang
