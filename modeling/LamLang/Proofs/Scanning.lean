import LamLang.Source.Token
import Mathlib.Data.List.TakeWhile

/-
  What the scanner cuts.

  Every lexeme that is cut has the characters of its kind,
  since one step keeps this of the unfinished lexeme.  The
  other way round, a lexeme that stands in front of a text
  is cut off as it is, if the text does not go on with it.

  Key definitions include:
    * `LamLang.Lexeme.IsAtom`
    * `LamLang.Lexeme.Valid`
    * `LamLang.Lexeme.Delimits`
    * `LamLang.Lexeme.EndsComment`
    * `LamLang.Token.total`

  Main statements:
    * `LamLang.Lexeme.scan_valid`
    * `LamLang.Lexeme.scan_text`
    * `LamLang.Lexeme.scan_comment`
    * `LamLang.Lexeme.scan_atom`
    * `LamLang.Token.balance_eq_count`
    * `LamLang.Token.balance_strip`
-/

------------------------------------------------------------
-- Lexemes That Are Cut
------------------------------------------------------------

namespace LamLang

namespace Lexeme

/- The texts that are cut as one atom. -/
structure IsAtom
    (cs : List Char) :
    Prop where
  nonempty : cs ≠ []
  inner : ∀ c ∈ cs, endsAtom c = false
  notComment : ¬ [';', ';'] <+: cs

/- The lexemes with the characters of their kind. -/
def Valid : Lexeme → Prop
| .blank c => Text.isBlank c = true
| .lparen => True
| .rparen => True
| .text content => mark ∉ content
| .unclosed content => mark ∉ content
| .comment content => '\n' ∉ content
| .atom content => IsAtom content

/- The unfinished lexemes that can become valid ones. -/
def Partial.Valid : Partial → Prop
| .ground => True
| .text seen => mark ∉ seen
| .comment seen => '\n' ∉ seen
| .atom seen => IsAtom seen.reverse

theorem endsAtom_eq_false_iff
    {c : Char} :
    endsAtom c = false ↔
      c ≠ mark ∧ c ≠ '(' ∧ c ≠ ')' ∧
        Text.isBlank c = false := by
  simp [endsAtom, and_assoc]

theorem isAtom_singleton
    {c : Char}
    (hInner : endsAtom c = false) :
    IsAtom [c] where
  nonempty := by simp
  inner := by simpa using hInner
  notComment := by simp [List.cons_prefix_cons]

/- What an atom is can be tested. -/
theorem isAtom_of_all
    {cs : List Char}
    (hNonempty : cs ≠ [])
    (hInner : (cs.all fun c => !endsAtom c) = true)
    (hComment : ¬ [';', ';'] <+: cs) :
    IsAtom cs where
  nonempty := hNonempty
  inner := by
    intro c hMem
    simpa using List.all_eq_true.mp hInner c hMem
  notComment := hComment

/- An atom goes on unless a comment starts with it. -/
theorem IsAtom.snoc
    {cs : List Char}
    {c : Char}
    (hAtom : IsAtom cs)
    (hInner : endsAtom c = false)
    (hComment : ¬ (c = ';' ∧ cs = [';'])) :
    IsAtom (cs ++ [c]) where
  nonempty := by simp
  inner := by
    intro d hMem
    rcases List.mem_append.mp hMem with hOld | hNew
    · exact hAtom.inner d hOld
    · rw [List.mem_singleton.mp hNew]
      exact hInner
  notComment := by
    -- Two characters decide whether a comment starts.
    intro hPrefix
    match cs, hAtom, hComment, hPrefix with
    | [], hAtom, _, _ => exact hAtom.nonempty rfl
    | [a], _, hComment, hPrefix =>
        simp only [List.cons_append, List.nil_append,
          List.cons_prefix_cons] at hPrefix
        rcases hPrefix with ⟨hFirst, hSecond, -⟩
        exact hComment ⟨hSecond.symm, by rw [← hFirst]⟩
    | a :: b :: rest, hAtom, _, hPrefix =>
        apply hAtom.notComment
        simpa [List.cons_prefix_cons] using hPrefix

/- What a character starts is valid. -/
theorem start_valid
    (c : Char) :
    (∀ lexeme ∈ (start c).1, lexeme.Valid) ∧
      (start c).2.Valid := by
  unfold start
  by_cases hMark : c = mark
  · simp [hMark, Partial.Valid]
  · by_cases hOpen : c = '('
    · simp [hOpen, Valid, Partial.Valid, mark]
    · by_cases hClose : c = ')'
      · simp [hClose, Valid, Partial.Valid, mark]
      · cases hBlank : Text.isBlank c with
        | true =>
            simp [hMark, hOpen, hClose, hBlank, Valid,
              Partial.Valid]
        | false =>
            have hInner : endsAtom c = false :=
              endsAtom_eq_false_iff.mpr
                ⟨hMark, hOpen, hClose, hBlank⟩
            simp [hMark, hOpen, hClose, Partial.Valid,
              isAtom_singleton hInner]

/- One step of the scanner keeps lexemes valid. -/
theorem step_valid
    {state : Partial}
    (hState : state.Valid)
    (c : Char) :
    (∀ lexeme ∈ (step state c).1, lexeme.Valid) ∧
      (step state c).2.Valid := by
  cases state with
  | ground => exact start_valid c
  | text seen =>
      simp only [step]
      split
      · simpa [Valid, Partial.Valid] using hState
      · rename_i hMark
        have hSeen : mark ∉ c :: seen := by
          simpa using ⟨Ne.symm hMark, hState⟩
        simpa [Partial.Valid] using hSeen
  | comment seen =>
      simp only [step]
      split
      · rename_i hBreak
        subst hBreak
        simpa [Valid, Partial.Valid,
          Text.isBlank_newline] using hState
      · rename_i hBreak
        have hSeen : '\n' ∉ c :: seen := by
          simpa using ⟨Ne.symm hBreak, hState⟩
        simpa [Partial.Valid] using hSeen
  | atom seen =>
      simp only [step]
      split
      · rcases start_valid c with ⟨hLexemes, hNext⟩
        refine ⟨?_, hNext⟩
        intro lexeme hMem
        rcases List.mem_cons.mp hMem with rfl | hLater
        · exact hState
        · exact hLexemes lexeme hLater
      · rename_i hInner
        split
        · simp [Partial.Valid]
        · rename_i hComment
          have hGrown : IsAtom (seen.reverse ++ [c]) := by
            apply IsAtom.snoc hState (by simpa using hInner)
            rintro ⟨hSemicolon, hSeen⟩
            exact
              hComment
                ⟨hSemicolon, by simpa using hSeen⟩
          simpa [Partial.Valid] using hGrown

theorem finish_valid
    {state : Partial}
    (hState : state.Valid) :
    ∀ lexeme ∈ finish state, lexeme.Valid := by
  cases state with
  | ground => simp [finish]
  | text seen =>
      simpa [finish, Valid, Partial.Valid] using hState
  | comment seen =>
      simpa [finish, Valid, Partial.Valid] using hState
  | atom seen =>
      simpa [finish, Valid, Partial.Valid] using hState

theorem scanFrom_valid
    {state : Partial}
    (hState : state.Valid)
    (cs : List Char) :
    ∀ lexeme ∈ scanFrom state cs, lexeme.Valid := by
  induction cs generalizing state with
  | nil => exact finish_valid hState
  | cons c cs ih =>
      rcases step_valid hState c with ⟨hLexemes, hNext⟩
      intro lexeme hMem
      rcases List.mem_append.mp hMem with hHere | hLater
      · exact hLexemes lexeme hHere
      · exact ih hNext lexeme hLater

/- Every lexeme of a source is valid. -/
theorem scan_valid
    (cs : List Char) :
    ∀ lexeme ∈ scan cs, lexeme.Valid := by
  have hGround : Partial.Valid .ground := trivial
  exact scanFrom_valid hGround cs

end Lexeme

end LamLang

------------------------------------------------------------
-- Lexemes That Stand In Front
------------------------------------------------------------

namespace LamLang

namespace Lexeme

/- A text that does not go on with an atom before it. -/
def Delimits
    (rest : List Char) : Prop :=
  ∀ c ∈ rest.head?, endsAtom c = true

theorem scan_lparen
    (rest : List Char) :
    scan ('(' :: rest) = .lparen :: scan rest := rfl

theorem scan_rparen
    (rest : List Char) :
    scan (')' :: rest) = .rparen :: scan rest := rfl

theorem start_of_isBlank
    {c : Char}
    (hBlank : Text.isBlank c = true) :
    start c = ([.blank c], .ground) := by
  have hMark : c ≠ mark := by
    rintro rfl
    exact absurd hBlank (by decide)
  have hOpen : c ≠ '(' := by
    rintro rfl
    exact absurd hBlank (by decide)
  have hClose : c ≠ ')' := by
    rintro rfl
    exact absurd hBlank (by decide)
  simp [start, hMark, hOpen, hClose, hBlank]

theorem scan_blank
    {c : Char}
    (hBlank : Text.isBlank c = true)
    (rest : List Char) :
    scan (c :: rest) = .blank c :: scan rest := by
  simp [scan, scanFrom, step, start_of_isBlank hBlank]

/- A text goes on to the next mark. -/
theorem scanFrom_text
    (seen content rest : List Char)
    (hContent : mark ∉ content) :
    scanFrom (.text seen) (content ++ mark :: rest) =
      .text (seen.reverse ++ content) :: scan rest := by
  induction content generalizing seen with
  | nil => simp [scanFrom, step, scan]
  | cons c content ih =>
      simp only [List.mem_cons, not_or] at hContent
      rcases hContent with ⟨hMark, hLater⟩
      simp [scanFrom, step, Ne.symm hMark, ih _ hLater]

theorem scan_text
    {content : List Char}
    (hContent : mark ∉ content)
    (rest : List Char) :
    scan (mark :: content ++ mark :: rest) =
      .text content :: scan rest := by
  have hFrom := scanFrom_text [] content rest hContent
  simpa [scan, scanFrom, step, start] using hFrom

/- A text without another mark goes on to the end. -/
theorem scanFrom_unclosed
    (seen : List Char)
    {content : List Char}
    (hContent : mark ∉ content) :
    scanFrom (.text seen) content =
      [.unclosed (seen.reverse ++ content)] := by
  induction content generalizing seen with
  | nil => simp [scanFrom, finish]
  | cons c content ih =>
      simp only [List.mem_cons, not_or] at hContent
      rcases hContent with ⟨hMark, hLater⟩
      simp [scanFrom, step, Ne.symm hMark, ih _ hLater]

theorem scan_unclosed
    {content : List Char}
    (hContent : mark ∉ content) :
    scan (mark :: content) = [.unclosed content] := by
  have hFrom := scanFrom_unclosed [] hContent
  simpa [scan, scanFrom, step, start] using hFrom

/- A text that does not go on with a comment before it. -/
def EndsComment
    (rest : List Char) : Prop :=
  ∀ c ∈ rest.head?, c = '\n'

/- A comment goes on to the next line break. -/
theorem scanFrom_comment
    (seen : List Char)
    {content : List Char}
    (hContent : '\n' ∉ content)
    {rest : List Char}
    (hRest : EndsComment rest) :
    scanFrom (.comment seen) (content ++ rest) =
      .comment (seen.reverse ++ content) :: scan rest := by
  induction content generalizing seen with
  | nil =>
      cases rest with
      | nil => simp [scanFrom, finish, scan]
      | cons c rest =>
          have hBreak : c = '\n' := hRest c (by simp)
          subst hBreak
          rw [scan_blank Text.isBlank_newline]
          simp [scanFrom, step, scan]
  | cons c content ih =>
      simp only [List.mem_cons, not_or] at hContent
      rcases hContent with ⟨hBreak, hLater⟩
      simp [scanFrom, step, Ne.symm hBreak, ih _ hLater]

/- Two semicolons start a comment, if no atom is open. -/
theorem scan_comment
    {content : List Char}
    (hContent : '\n' ∉ content)
    {rest : List Char}
    (hRest : EndsComment rest) :
    scan (';' :: ';' :: content ++ rest) =
      .comment content :: scan rest := by
  have hFrom := scanFrom_comment [] hContent hRest
  have hStart : start ';' = ([], .atom [';']) := by decide
  have hInner : endsAtom ';' = false := by decide
  simpa [scan, scanFrom, step, hStart, hInner] using hFrom

/- An atom goes on to the next character that ends it. -/
theorem scanFrom_atom
    (seen word rest : List Char)
    (hAtom : IsAtom (seen.reverse ++ word))
    (hSeen : seen ≠ [])
    (hRest : Delimits rest) :
    scanFrom (.atom seen) (word ++ rest) =
      .atom (seen.reverse ++ word) :: scan rest := by
  induction word generalizing seen with
  | nil =>
      cases rest with
      | nil => simp [scanFrom, finish, scan]
      | cons c rest =>
          have hEnds : endsAtom c = true :=
            hRest c (by simp)
          simp [scanFrom, step, hEnds, scan]
  | cons c word ih =>
      have hInner : endsAtom c = false :=
        hAtom.inner c (by simp)
      have hComment : ¬ (c = ';' ∧ seen = [';']) := by
        rintro ⟨rfl, rfl⟩
        apply hAtom.notComment
        simp [List.cons_prefix_cons]
      have hNext :
          scanFrom (.atom (c :: seen)) (word ++ rest) =
            .atom ((c :: seen).reverse ++ word) ::
              scan rest := by
        apply ih
        · simpa using hAtom
        · simp
      simpa [scanFrom, step, hInner, hComment] using hNext

theorem scan_atom
    {word : List Char}
    (hAtom : IsAtom word)
    {rest : List Char}
    (hRest : Delimits rest) :
    scan (word ++ rest) = .atom word :: scan rest := by
  cases word with
  | nil => exact absurd rfl hAtom.nonempty
  | cons c word =>
      have hInner : endsAtom c = false :=
        hAtom.inner c (by simp)
      rcases endsAtom_eq_false_iff.mp hInner with
        ⟨hMark, hOpen, hClose, hBlank⟩
      have hFrom :=
        scanFrom_atom [c] word rest (by simpa using hAtom)
          (by simp) hRest
      simpa [scan, scanFrom, step, start, hMark, hOpen,
        hClose, hBlank] using hFrom

end Lexeme

end LamLang

------------------------------------------------------------
-- Tokens
------------------------------------------------------------

namespace LamLang

namespace Token

/- Scanned texts are taken apart lexeme by lexeme. -/
theorem ofLexemes_cons_eq_ok
    {lexeme : Lexeme}
    {rest : List Lexeme}
    {tokens : List Token} :
    ofLexemes (lexeme :: rest) = .ok tokens ↔
      ∃ first later,
        ofLexeme? lexeme = .ok first ∧
          ofLexemes rest = .ok later ∧
          tokens = first.toList ++ later := by
  rw [ofLexemes]
  cases hFirst : ofLexeme? lexeme with
  | error failure => simp [bind, Except.bind]
  | ok first =>
      cases hLater : ofLexemes rest with
      | error failure => simp [bind, Except.bind]
      | ok later =>
          simp [bind, Except.bind, pure, Except.pure,
            eq_comm]

/- A lexeme puts its token in front of the others. -/
theorem ofLexemes_cons
    {lexeme : Lexeme}
    {first : Option Token}
    (hFirst : ofLexeme? lexeme = .ok first)
    (rest : List Lexeme) :
    ofLexemes (lexeme :: rest) =
      (ofLexemes rest).map (first.toList ++ ·) := by
  rw [ofLexemes, hFirst]
  cases ofLexemes rest <;> rfl

/- Every token was cut from a lexeme. -/
theorem exists_lexeme_of_mem
    {lexemes : List Lexeme}
    {tokens : List Token}
    (hTokens : ofLexemes lexemes = .ok tokens)
    {token : Token}
    (hMem : token ∈ tokens) :
    ∃ lexeme ∈ lexemes,
      ofLexeme? lexeme = .ok (some token) := by
  induction lexemes generalizing tokens with
  | nil =>
      cases hTokens
      cases hMem
  | cons lexeme lexemes ih =>
      rcases ofLexemes_cons_eq_ok.mp hTokens with
        ⟨first, later, hFirst, hLater, rfl⟩
      rcases List.mem_append.mp hMem with hHere | hThere
      · rw [Option.mem_toList] at hHere
        exact ⟨lexeme, by simp, hHere ▸ hFirst⟩
      · rcases ih hLater hThere with ⟨other, hOther, hToken⟩
        exact ⟨other, by simp [hOther], hToken⟩

/- A token that is no parenthesis has no parenthesis first. -/
theorem ofList_ne_paren
    (cs : List Char)
    (hOpen : cs.head? ≠ some '(')
    (hClose : cs.head? ≠ some ')') :
    String.ofList cs ≠ lparen ∧
      String.ofList cs ≠ rparen := by
  constructor
  · intro hEq
    apply hOpen
    have hChars := congrArg String.toList hEq
    rw [String.toList_ofList] at hChars
    rw [hChars]
    rfl
  · intro hEq
    apply hClose
    have hChars := congrArg String.toList hEq
    rw [String.toList_ofList] at hChars
    rw [hChars]
    rfl

theorem text_ne_paren
    (content : List Char) :
    String.ofList (Lexeme.text content).source ≠ lparen ∧
      String.ofList (Lexeme.text content).source ≠
        rparen := by
  apply ofList_ne_paren
  · simp [Lexeme.source, Lexeme.mark]
  · simp [Lexeme.source, Lexeme.mark]

theorem isAtom_ne_paren
    {content : List Char}
    (hAtom : Lexeme.IsAtom content) :
    String.ofList content ≠ lparen ∧
      String.ofList content ≠ rparen := by
  have hHead :
      ∀ c, content.head? = some c →
        Lexeme.endsAtom c = false :=
    fun c hHead =>
      hAtom.inner c (List.mem_of_head? hHead)
  apply ofList_ne_paren
  · exact fun hOpen => absurd (hHead _ hOpen) (by decide)
  · exact fun hClose => absurd (hHead _ hClose) (by decide)

/- A lexeme weighs what its token adds to the count. -/
theorem weight_eq_count
    {lexeme : Lexeme}
    {token? : Option Token}
    (hValid : lexeme.Valid)
    (hToken : ofLexeme? lexeme = .ok token?) :
    weight lexeme =
      (token?.toList.count lparen : Int) -
        token?.toList.count rparen := by
  cases lexeme with
  | blank c =>
      cases hToken
      rfl
  | lparen =>
      cases hToken
      decide
  | rparen =>
      cases hToken
      decide
  | text content =>
      cases hToken
      rcases text_ne_paren content with ⟨hOpen, hClose⟩
      simp [weight, hOpen, hClose]
  | unclosed content => cases hToken
  | comment content =>
      cases hToken
      rfl
  | atom content =>
      cases hToken
      rcases isAtom_ne_paren hValid with ⟨hOpen, hClose⟩
      simp [weight, Lexeme.source, hOpen, hClose]

/- What lexemes add to the count of open lists. -/
def total
    (lexemes : List Lexeme) :
    Int :=
  lexemes.foldr (fun lexeme sum => weight lexeme + sum) 0

@[simp] theorem total_nil : total [] = 0 := rfl

@[simp] theorem total_cons
    (lexeme : Lexeme)
    (lexemes : List Lexeme) :
    total (lexeme :: lexemes) =
      weight lexeme + total lexemes := rfl

@[simp] theorem total_append
    (front back : List Lexeme) :
    total (front ++ back) = total front + total back := by
  induction front with
  | nil => simp
  | cons lexeme front ih =>
      rw [List.cons_append, total_cons, total_cons, ih]
      omega

theorem balance_eq_total
    (source : String) :
    balance source = total (Lexeme.scan source.toList) := rfl

theorem total_eq_count
    {lexemes : List Lexeme}
    {tokens : List Token}
    (hValid : ∀ lexeme ∈ lexemes, lexeme.Valid)
    (hTokens : ofLexemes lexemes = .ok tokens) :
    total lexemes =
      (tokens.count lparen : Int) -
        tokens.count rparen := by
  induction lexemes generalizing tokens with
  | nil =>
      cases hTokens
      rfl
  | cons lexeme lexemes ih =>
      rcases ofLexemes_cons_eq_ok.mp hTokens with
        ⟨first, later, hFirst, hLater, rfl⟩
      have hHere :=
        weight_eq_count (hValid lexeme (by simp)) hFirst
      have hRest :=
        ih (fun other hMem => hValid other (by simp [hMem]))
          hLater
      rw [total_cons, List.count_append,
        List.count_append]
      omega

/- The balance counts the parentheses among the tokens. -/
theorem balance_eq_count
    {source : String}
    {tokens : List Token}
    (hTokens : ofSource source = .ok tokens) :
    balance source =
      (tokens.count lparen : Int) -
        tokens.count rparen := by
  rw [balance_eq_total]
  exact
    total_eq_count (Lexeme.scan_valid source.toList)
      hTokens

end Token

end LamLang

------------------------------------------------------------
-- Blanks At Both Ends
------------------------------------------------------------

namespace LamLang

namespace Token

open Lexeme (step finish scanFrom scan)

/- A blank completes no parenthesis. -/
theorem total_step_blank
    {c : Char}
    (hBlank : Text.isBlank c = true)
    (state : Lexeme.Partial) :
    total (step state c).1 = 0 := by
  have hStart := Lexeme.start_of_isBlank hBlank
  cases state with
  | ground => simp [step, hStart, weight]
  | text seen =>
      simp only [step]
      split <;> simp [weight]
  | comment seen =>
      simp only [step]
      split <;> simp [weight]
  | atom seen =>
      have hEnds : Lexeme.endsAtom c = true := by
        simp [Lexeme.endsAtom, hBlank]
      simp [step, hEnds, hStart, weight]

theorem total_finish
    (state : Lexeme.Partial) :
    total (finish state) = 0 := by
  cases state <;> simp [finish, weight]

theorem total_scanFrom_blanks
    {blanks : List Char}
    (hBlanks : ∀ c ∈ blanks, Text.isBlank c = true)
    (state : Lexeme.Partial) :
    total (scanFrom state blanks) = 0 := by
  induction blanks generalizing state with
  | nil => exact total_finish state
  | cons c blanks ih =>
      have hHere :=
        total_step_blank (hBlanks c (by simp)) state
      have hLater :=
        ih (fun d hMem => hBlanks d (by simp [hMem]))
          (step state c).2
      rw [scanFrom, total_append]
      omega

/- Blanks after a source do not change its weight. -/
theorem total_scanFrom_append
    {blanks : List Char}
    (hBlanks : ∀ c ∈ blanks, Text.isBlank c = true)
    (state : Lexeme.Partial)
    (cs : List Char) :
    total (scanFrom state (cs ++ blanks)) =
      total (scanFrom state cs) := by
  induction cs generalizing state with
  | nil =>
      rw [List.nil_append,
        total_scanFrom_blanks hBlanks]
      exact (total_finish state).symm
  | cons c cs ih =>
      rw [List.cons_append, scanFrom, scanFrom,
        total_append, total_append, ih]

/- Blanks before a source do not change its weight. -/
theorem total_scan_dropWhile
    (cs : List Char) :
    total (scan (cs.dropWhile Text.isBlank)) =
      total (scan cs) := by
  induction cs with
  | nil => rfl
  | cons c cs ih =>
      cases hBlank : Text.isBlank c with
      | true =>
          rw [List.dropWhile_cons_of_pos hBlank, ih,
            Lexeme.scan_blank hBlank]
          simp [weight]
      | false =>
          rw [List.dropWhile_cons_of_neg (by simp [hBlank])]

theorem exists_stripRight_append
    (cs : List Char) :
    ∃ blanks : List Char,
      (∀ c ∈ blanks, Text.isBlank c = true) ∧
        Text.stripRight cs ++ blanks = cs := by
  refine
    ⟨(cs.reverse.takeWhile Text.isBlank).reverse, ?_, ?_⟩
  · intro c hMem
    exact List.mem_takeWhile_imp (List.mem_reverse.mp hMem)
  · rw [Text.stripRight, ← List.reverse_append,
      List.takeWhile_append_dropWhile, List.reverse_reverse]

/- Stripping a source does not change its balance. -/
theorem balance_strip
    (source : String) :
    balance (Text.strip source) = balance source := by
  rcases exists_stripRight_append
    (source.toList.dropWhile Text.isBlank) with
    ⟨blanks, hBlanks, hSource⟩
  have hRight :=
    total_scanFrom_append hBlanks .ground
      (Text.stripRight
        (source.toList.dropWhile Text.isBlank))
  rw [hSource] at hRight
  rw [balance_eq_total, balance_eq_total, Text.strip,
    String.toList_ofList,
    ← total_scan_dropWhile source.toList]
  exact hRight.symm

end Token

end LamLang
