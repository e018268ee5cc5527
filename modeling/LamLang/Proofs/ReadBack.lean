import LamLang.Proofs.Texts

/-
  Written values that are read again.

  A truth value, a text or a number is written as a source,
  and this source means the value itself, unless it is a
  text with a mark in it.  Such a text ends for the reader
  at its first mark, and what stands behind is a fault or,
  if it is only blanks and a comment, is lost.

  Key definitions include:
    * `LamLang.Value.Spellable`

  Main statements:
    * `LamLang.Datum.ofSource_text_append`
    * `LamLang.Value.Spellable.exists_term`
    * `LamLang.written_reads_back_iff`
-/

------------------------------------------------------------
-- Sources That Start With A Text
------------------------------------------------------------

namespace LamLang

open Lexeme (mark)

/- A text in marks is one token, whatever follows. -/
theorem Token.ofSource_text_append
    {front : List Char}
    (hFront : mark ∉ front)
    (rest : List Char) :
    Token.ofSource
        (String.ofList (mark :: front ++ mark :: rest)) =
      (Token.ofSource (String.ofList rest)).map
        (String.ofList (Lexeme.text front).source :: ·) := by
  rw [ofSource, ofSource, String.toList_ofList,
    String.toList_ofList, Lexeme.scan_text hFront,
    ofLexemes_cons rfl]
  rfl

/- The reader is done with it, and wants nothing behind. -/
theorem Datum.ofSource_text_append
    {front : List Char}
    (hFront : mark ∉ front)
    (rest : List Char) :
    ofSource
        (String.ofList (mark :: front ++ mark :: rest)) =
      match Token.ofSource (String.ofList rest) with
      | .error failure => .error failure
      | .ok [] => .ok (.text (String.ofList front))
      | .ok (token :: _) =>
          .error (.cause (.leftover token)) := by
  rcases Token.text_ne_paren front with ⟨hOpen, hClose⟩
  have hShift :
      shift [[]]
          (String.ofList (Lexeme.text front).source) =
        .ok [[.text (String.ofList front)]] := by
    unfold shift
    rw [if_neg hOpen, if_neg hClose, ofToken_text]
    rfl
  rw [ofSource, Token.ofSource_text_append hFront]
  cases Token.ofSource (String.ofList rest) with
  | error failure => rfl
  | ok tokens =>
      cases tokens <;>
        simp [Except.map, ok_bind, ofTokens, ofTokensFrom,
          hShift]

end LamLang

------------------------------------------------------------
-- Spellable Values
------------------------------------------------------------

namespace LamLang

open Lexeme (mark)

namespace Value

/- Truth values, texts, and numbers that can be read. -/
def Spellable : Value Empty → Prop
| .num n => n.Legible
| .bool _ => True
| .text _ => True
| _ => False

theorem holdsMark_text_iff
    (s : String) :
    holdsMark (.text s : Value Empty) = true ↔
      mark ∈ s.toList := by
  by_cases hMark : mark ∈ s.toList
  · have hMem : '\x22' ∈ s.toList := hMark
    simp [holdsMark, markedText?, hMem, hMark]
  · have hMem : '\x22' ∉ s.toList := hMark
    simp [holdsMark, markedText?, hMem, hMark]

/- Only a text can hold a mark, and there is a first one. -/
theorem exists_mark
    {value : Value Empty}
    (hMark : value.holdsMark = true) :
    ∃ front back,
      mark ∉ front ∧
        value =
          .text (String.ofList (front ++ mark :: back)) := by
  cases value with
  | text s =>
      have hMem := (holdsMark_text_iff s).mp hMark
      rcases List.eq_append_cons_of_mem hMem with
        ⟨front, back, hChars, hFront⟩
      exact
        ⟨front, back, hFront,
          by rw [← hChars, String.ofList_toList]⟩
  | _ => cases hMark

theorem readable_true :
    (Datum.symbol "true").Readable := by
  have hAtom : Lexeme.IsAtom "true".toList :=
    Lexeme.isAtom_of_all (by decide) (by decide) (by decide)
  exact .symbol hAtom (by decide)

theorem readable_false :
    (Datum.symbol "false").Readable := by
  have hAtom : Lexeme.IsAtom "false".toList :=
    Lexeme.isAtom_of_all (by decide) (by decide) (by decide)
  exact .symbol hAtom (by decide)

/-
  Without a mark, a value is written as a term that can be
  read and that means the value.
-/
theorem Spellable.exists_term
    {value : Value Empty}
    (hSpellable : value.Spellable)
    (hMark : value.holdsMark = false) :
    ∃ term : Datum,
      term.Readable ∧
        term.items? = none ∧
        term.write = value.written ∧
        ∀ depth, term.meaning (depth + 1) = .ok value := by
  cases value with
  | num n =>
      exact ⟨.num n, .num hSpellable, rfl, rfl, fun _ => rfl⟩
  | text s =>
      have hText : mark ∉ s.toList := by
        rw [← holdsMark_text_iff, hMark]
        decide
      exact ⟨.text s, .text hText, rfl, rfl, fun _ => rfl⟩
  | bool b =>
      cases b with
      | true =>
          exact
            ⟨.symbol "true", readable_true, rfl, rfl,
              fun _ => rfl⟩
      | false =>
          exact
            ⟨.symbol "false", readable_false, rfl, rfl,
              fun _ => rfl⟩
  | _ => exact hSpellable.elim

end Value

end LamLang

------------------------------------------------------------
-- Reading Back
------------------------------------------------------------

namespace LamLang

open Lexeme (mark)

/- What a value without a mark is written as means it. -/
theorem Value.Spellable.reads_back
    {value : Value Empty}
    (hSpellable : value.Spellable)
    (hMark : value.holdsMark = false) :
    ∃ text term,
      value.written = .ok text ∧
        Datum.ofSource text = .ok term ∧
        ∀ depth, term.meaning (depth + 1) = .ok value := by
  rcases hSpellable.exists_term hMark with
    ⟨term, hReadable, hLeaf, hWrite, hMeaning⟩
  rcases Datum.ofSource_write hReadable with
    ⟨text, hText, hBack⟩
  rw [Datum.listed_of_items?_none hLeaf] at hBack
  exact
    ⟨text, term, hWrite.symm.trans hText, hBack, hMeaning⟩

/-
  A text with a mark is read up to there, if only blanks and
  a comment follow, and is refused otherwise.
-/
theorem Datum.ofSource_quoted_of_mark
    {front : List Char}
    (hFront : mark ∉ front)
    (back : List Char) :
    let rest := String.ofList (back ++ [mark])
    let text :=
      Value.quoted (String.ofList (front ++ mark :: back))
    (Token.ofSource rest = .ok [] ∧
      ofSource text = .ok (.text (String.ofList front))) ∨
    (Token.ofSource rest ≠ .ok [] ∧
      ∃ cause,
        ofSource text = .error (.cause cause) ∧
          cause.kind = .parse) := by
  intro rest text
  have hText :
      text =
        String.ofList
          (mark :: front ++ mark :: (back ++ [mark])) := by
    apply String.toList_injective
    simp [text, Value.quoted, mark]
  have hRead := ofSource_text_append hFront (back ++ [mark])
  rw [← hText] at hRead
  rw [hRead]
  cases hTokens : Token.ofSource rest with
  | error failure =>
      right
      have hParse :
          ∃ cause,
            failure = .cause cause ∧ cause.kind = .parse :=
        Token.ofLexemes_failsOnly
          (P := fun failure =>
            ∃ cause,
              failure = .cause cause ∧ cause.kind = .parse)
          (fun token => ⟨_, rfl, rfl⟩) _ failure hTokens
      rcases hParse with ⟨cause, rfl, hKind⟩
      exact ⟨by simp, cause, rfl, hKind⟩
  | ok tokens =>
      cases tokens with
      | nil => exact .inl ⟨rfl, rfl⟩
      | cons token tokens =>
          exact .inr ⟨by simp, .leftover token, rfl, rfl⟩

/-
  A truth value, a text, or a number that is short enough
  and finite is always written, and the source means the
  value again exactly if it holds no mark.  If it does, it
  is a text, of which the part before the first mark is read
  or nothing at all, and never the whole.  Which of the two
  depends on the tokens behind the first mark.
-/
theorem written_reads_back_iff
    (value : Value Empty)
    (depth : Nat)
    (hSpellable : value.Spellable) :
    ∃ text,
      value.written = .ok text ∧
      ((Datum.ofSource text >>=
          Datum.meaning (depth + 1)) = .ok value ↔
        value.holdsMark = false) ∧
      (value.holdsMark = true →
        ∃ front back,
          mark ∉ front ∧
          value =
            .text (String.ofList (front ++ mark :: back)) ∧
          Datum.ofSource text ≠
            .ok (.text
              (String.ofList (front ++ mark :: back))) ∧
          ((Token.ofSource
                (String.ofList (back ++ [mark])) = .ok [] ∧
              Datum.ofSource text =
                .ok (.text (String.ofList front))) ∨
            (Token.ofSource
                (String.ofList (back ++ [mark])) ≠ .ok [] ∧
              ∃ cause,
                Datum.ofSource text =
                    .error (.cause cause) ∧
                  cause.kind = .parse))) := by
  cases hMark : value.holdsMark with
  | false =>
      rcases hSpellable.reads_back hMark with
        ⟨text, term, hText, hTerm, hMeaning⟩
      refine ⟨text, hText, ?_, by simp⟩
      rw [hTerm, ok_bind]
      simp [hMeaning depth]
  | true =>
      rcases Value.exists_mark hMark with
        ⟨front, back, hFront, rfl⟩
      have hShorter :
          String.ofList front ≠
            String.ofList (front ++ mark :: back) := by
        intro hSame
        have hChars := congrArg String.toList hSame
        simp at hChars
      have hCases := Datum.ofSource_quoted_of_mark hFront back
      refine ⟨_, rfl, ?_, ?_⟩
      · rcases hCases with
          ⟨-, hTerm⟩ | ⟨-, cause, hError, -⟩
        · have hMeaning :
              Datum.meaning (depth + 1)
                  (.text (String.ofList front)) =
                .ok (.text (String.ofList front)) :=
            rfl
          rw [hTerm, ok_bind, hMeaning]
          simpa using hShorter
        · rw [hError]
          simp [bind, Except.bind]
      · intro _
        refine ⟨front, back, hFront, rfl, ?_, hCases⟩
        rcases hCases with
          ⟨-, hTerm⟩ | ⟨-, cause, hError, -⟩
        · rw [hTerm]
          simpa using hShorter
        · rw [hError]
          simp

/- A text with a mark and a comment behind it. -/
def Value.commentedText : Value Empty := .text "a\" ;; b"

/- A negative integer. -/
def Value.negativeNumber : Value Empty := .num (.int (-12))

theorem written_reads_back_iff_commentedText :
    Value.commentedText.Spellable ∧
    Value.negativeNumber.Spellable ∧
    (∃ text,
      Value.commentedText.written = .ok text ∧
        (Datum.ofSource text >>= Datum.meaning 1) ≠
          .ok Value.commentedText) ∧
    ∃ text,
      Value.negativeNumber.written = .ok text ∧
        (Datum.ofSource text >>= Datum.meaning 1) =
          .ok Value.negativeNumber := by
  have hNumber : Value.negativeNumber.Spellable :=
    show Decimal.digitCount 12 ≤ _ by decide
  rcases
    written_reads_back_iff Value.commentedText 0
      trivial with
    ⟨text, hText, hMarked, -⟩
  rcases
    written_reads_back_iff Value.negativeNumber 0
      hNumber with
    ⟨digits, hDigits, hPlain, -⟩
  refine
    ⟨trivial, hNumber, ⟨text, hText, ?_⟩,
      digits, hDigits, hPlain.mpr rfl⟩
  intro hBack
  have hMark := hMarked.mp hBack
  revert hMark
  decide

end LamLang
