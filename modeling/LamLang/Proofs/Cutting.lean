import LamLang.Proofs.Scanning

/-
  How a source is cut.

  Every character of a source belongs to one lexeme, and the
  lexemes follow each other without a gap.  Each of them
  stands where it may: a text ends with the next mark, a
  comment before the next line break, and an atom goes as
  far as it can to both sides.  There is no other way to cut
  a source by these rules, so they say all that the scanner
  does.

  Key definitions include:
    * `LamLang.Lexeme.Stands`
    * `LamLang.Lexeme.Cuts`
    * `LamLang.Lexeme.Meets`
    * `LamLang.Token.words`

  Main statements:
    * `LamLang.Lexeme.Stands.scan_append`
    * `LamLang.Lexeme.exists_front`
    * `LamLang.Lexeme.scan_eq_iff`
    * `LamLang.Token.ofLexemes_eq_ok_iff`
    * `LamLang.scanning_loses_nothing`
-/

------------------------------------------------------------
-- Lexemes In Their Places
------------------------------------------------------------

namespace LamLang

namespace Lexeme

/- A text behind which no atom is left open. -/
def Borders
    (before : List Char) : Prop :=
  ∀ c ∈ before.getLast?, endsAtom c = true

/-
  A lexeme as it may stand between two texts.  A text in
  marks has none inside, and one that is unclosed is the end
  of the source.  A comment starts where no atom is open and
  goes on to a line break or the end.  An atom does not
  start as a comment does, and it goes on to neither side.
-/
def Stands
    (before after : List Char) :
    Lexeme → Prop
| .blank c => Text.isBlank c = true
| .lparen => True
| .rparen => True
| .text content => mark ∉ content
| .unclosed content => mark ∉ content ∧ after = []
| .comment content =>
    Borders before ∧ '\n' ∉ content ∧ EndsComment after
| .atom content =>
    Borders before ∧ IsAtom content ∧ Delimits after

/-
  Lexemes that a source is cut into, behind an earlier text.
  None of its characters is lost, and every lexeme stands
  where it may.
-/
structure Cuts
    (before : List Char)
    (lexemes : List Lexeme)
    (cs : List Char) :
    Prop where
  whole : lexemes.flatMap source = cs
  stands :
    ∀ front lexeme back,
      lexemes = front ++ lexeme :: back →
        lexeme.Stands (before ++ front.flatMap source)
          (back.flatMap source)

theorem cuts_nil
    (before : List Char) :
    Cuts before [] [] where
  whole := rfl
  stands := by
    intro front lexeme back hSplit
    simp at hSplit

/- The first lexeme is cut off, and then the others. -/
theorem cuts_cons_iff
    {before cs : List Char}
    {lexeme : Lexeme}
    {lexemes : List Lexeme} :
    Cuts before (lexeme :: lexemes) cs ↔
      ∃ after,
        cs = lexeme.source ++ after ∧
          lexeme.Stands before after ∧
          Cuts (before ++ lexeme.source) lexemes after := by
  constructor
  · rintro ⟨hWhole, hStands⟩
    have hFirst := hStands [] lexeme lexemes rfl
    rw [List.flatMap_nil, List.append_nil] at hFirst
    refine
      ⟨lexemes.flatMap source, hWhole.symm, hFirst, rfl, ?_⟩
    intro front other back hSplit
    have hOther :=
      hStands (lexeme :: front) other back (by rw [hSplit]; rfl)
    rwa [List.flatMap_cons, ← List.append_assoc] at hOther
  · rintro ⟨after, rfl, hFirst, hWhole, hStands⟩
    refine ⟨by rw [List.flatMap_cons, hWhole], ?_⟩
    intro front other back hSplit
    cases front with
    | nil =>
        rcases List.cons_eq_cons.mp hSplit with ⟨rfl, rfl⟩
        rw [List.flatMap_nil, List.append_nil, hWhole]
        exact hFirst
    | cons first front =>
        rcases List.cons_eq_cons.mp hSplit with ⟨rfl, hRest⟩
        rw [List.flatMap_cons, ← List.append_assoc]
        exact hStands front other back hRest

theorem Stands.source_ne_nil
    {before after : List Char}
    {lexeme : Lexeme}
    (hStands : lexeme.Stands before after) :
    lexeme.source ≠ [] := by
  cases lexeme with
  | atom content => exact hStands.2.1.nonempty
  | _ => simp [source]

/- A lexeme in its place is the first that is cut. -/
theorem Stands.scan_append
    {before after : List Char}
    {lexeme : Lexeme}
    (hStands : lexeme.Stands before after) :
    scan (lexeme.source ++ after) =
      lexeme :: scan after := by
  cases lexeme with
  | blank c => exact scan_blank hStands after
  | lparen => exact scan_lparen after
  | rparen => exact scan_rparen after
  | text content =>
      rw [source, List.append_assoc]
      exact scan_text hStands after
  | unclosed content =>
      rcases hStands with ⟨hContent, rfl⟩
      rw [source, List.append_nil]
      exact scan_unclosed hContent
  | comment content =>
      rcases hStands with ⟨-, hContent, hAfter⟩
      exact scan_comment hContent hAfter
  | atom content =>
      rcases hStands with ⟨-, hAtom, hAfter⟩
      exact scan_atom hAtom hAfter

/- So there is one way only to cut a source. -/
theorem Cuts.scan_eq
    {before cs : List Char}
    {lexemes : List Lexeme}
    (hCuts : Cuts before lexemes cs) :
    scan cs = lexemes := by
  induction lexemes generalizing before cs with
  | nil =>
      rw [← hCuts.whole]
      rfl
  | cons lexeme lexemes ih =>
      rcases cuts_cons_iff.mp hCuts with
        ⟨after, rfl, hStands, hRest⟩
      rw [hStands.scan_append, ih hRest]

end Lexeme

end LamLang

------------------------------------------------------------
-- Every Source Is Cut
------------------------------------------------------------

namespace LamLang

namespace Lexeme

/- Two texts such that no atom goes on across their border. -/
def Meets
    (before after : List Char) : Prop :=
  Borders before ∨ Delimits after

theorem borders_append_iff
    {front back : List Char}
    (hBack : back ≠ []) :
    Borders (front ++ back) ↔ Borders back := by
  unfold Borders
  rw [List.getLast?_append, List.getLast?_eq_some_getLast hBack,
    Option.some_or]

/- No atom goes on from a lexeme to what stands behind it. -/
theorem Stands.meets
    {before after : List Char}
    {lexeme : Lexeme}
    (hStands : lexeme.Stands before after) :
    Meets lexeme.source after := by
  have hMark : endsAtom mark = true := by decide
  have hOpen : endsAtom '(' = true := by decide
  have hClose : endsAtom ')' = true := by decide
  have hBreak : endsAtom '\n' = true := by decide
  cases lexeme with
  | blank c =>
      have hBlank : Text.isBlank c = true := hStands
      left
      simp [Borders, source, endsAtom, hBlank]
  | lparen =>
      left
      simp [Borders, source, hOpen]
  | rparen =>
      left
      simp [Borders, source, hClose]
  | text content =>
      left
      unfold Borders
      rw [source, List.getLast?_concat]
      simp [hMark]
  | unclosed content =>
      right
      simp [Delimits, hStands.2]
  | comment content =>
      right
      intro c hHead
      rw [hStands.2.2 c hHead]
      exact hBreak
  | atom content => exact .inr hStands.2.2

/- A text is its longest front of one sort, and a rest. -/
theorem exists_longest_front
    (p : Char → Bool)
    (cs : List Char) :
    ∃ front after,
      cs = front ++ after ∧
        (∀ c ∈ front, p c = true) ∧
        ∀ c ∈ after.head?, p c = false := by
  refine
    ⟨cs.takeWhile p, cs.dropWhile p,
      List.takeWhile_append_dropWhile.symm, ?_, ?_⟩
  · intro c hMem
    exact List.mem_takeWhile_imp hMem
  · intro c hHead
    have hFirst := List.head?_dropWhile_not p cs
    rw [Option.mem_def.mp hHead] at hFirst
    exact hFirst

theorem exists_comment
    (cs : List Char) :
    ∃ content after,
      cs = content ++ after ∧
        '\n' ∉ content ∧ EndsComment after := by
  rcases exists_longest_front (fun c => c != '\n') cs with
    ⟨content, after, hCs, hContent, hAfter⟩
  refine ⟨content, after, hCs, ?_, ?_⟩
  · intro hMem
    have hOther := hContent '\n' hMem
    simp at hOther
  · intro c hHead
    have hBreak := hAfter c hHead
    simpa using hBreak

theorem exists_atom
    {c : Char}
    {cs : List Char}
    (hInner : endsAtom c = false)
    (hComment : ¬ [';', ';'] <+: c :: cs) :
    ∃ content after,
      c :: cs = content ++ after ∧
        IsAtom content ∧ Delimits after := by
  rcases exists_longest_front (fun c => !endsAtom c) cs with
    ⟨content, after, rfl, hContent, hAfter⟩
  refine ⟨c :: content, after, rfl, ⟨by simp, ?_, ?_⟩, ?_⟩
  · intro d hMem
    rcases List.mem_cons.mp hMem with rfl | hLater
    · exact hInner
    · simpa using hContent d hLater
  · intro hPrefix
    exact hComment (hPrefix.trans ⟨after, rfl⟩)
  · intro d hHead
    simpa using hAfter d hHead

/-
  Some lexeme stands at the start of every text, unless an
  atom goes on there.
-/
theorem exists_front
    {before cs : List Char}
    (hMeets : Meets before cs)
    (hNonempty : cs ≠ []) :
    ∃ (lexeme : Lexeme) (after : List Char),
      cs = lexeme.source ++ after ∧
        lexeme.Stands before after := by
  rcases List.exists_cons_of_ne_nil hNonempty with
    ⟨c, rest, rfl⟩
  by_cases hMark : c = mark
  · subst hMark
    by_cases hAgain : mark ∈ rest
    · rcases List.eq_append_cons_of_mem hAgain with
        ⟨content, after, rfl, hContent⟩
      refine ⟨.text content, after, ?_, hContent⟩
      simp [source]
    · refine ⟨.unclosed rest, [], ?_, hAgain, rfl⟩
      simp [source]
  · by_cases hOpen : c = '('
    · subst hOpen
      exact ⟨.lparen, rest, rfl, trivial⟩
    · by_cases hClose : c = ')'
      · subst hClose
        exact ⟨.rparen, rest, rfl, trivial⟩
      · cases hBlank : Text.isBlank c with
        | true => exact ⟨.blank c, rest, rfl, hBlank⟩
        | false =>
            have hInner : endsAtom c = false :=
              endsAtom_eq_false_iff.mpr
                ⟨hMark, hOpen, hClose, hBlank⟩
            have hBefore : Borders before := by
              refine hMeets.resolve_right fun hDelimits => ?_
              have hEnds := hDelimits c (by simp)
              rw [hInner] at hEnds
              cases hEnds
            by_cases hComment : [';', ';'] <+: c :: rest
            · rcases hComment with ⟨more, hMore⟩
              rcases exists_comment more with
                ⟨content, after, rfl, hContent, hAfter⟩
              refine
                ⟨.comment content, after, hMore.symm,
                  hBefore, hContent, hAfter⟩
            · rcases exists_atom hInner hComment with
                ⟨content, after, hCs, hAtom, hAfter⟩
              exact
                ⟨.atom content, after, hCs, hBefore, hAtom,
                  hAfter⟩

/- What the scanner cuts stands where it may. -/
theorem cuts_scan
    {before cs : List Char}
    (hMeets : Meets before cs) :
    Cuts before (scan cs) cs := by
  induction hLength : cs.length using
    Nat.strong_induction_on generalizing before cs with
  | h length ih =>
      by_cases hNonempty : cs = []
      · subst hNonempty
        exact cuts_nil before
      · rcases exists_front hMeets hNonempty with
          ⟨lexeme, after, rfl, hStands⟩
        have hSource := hStands.source_ne_nil
        have hShorter : after.length < length := by
          have hPos := List.length_pos_iff.mpr hSource
          rw [List.length_append] at hLength
          omega
        have hNext : Meets (before ++ lexeme.source) after := by
          unfold Meets
          rw [borders_append_iff hSource]
          exact hStands.meets
        rw [hStands.scan_append]
        exact
          cuts_cons_iff.mpr
            ⟨after, rfl, hStands,
              ih after.length hShorter hNext rfl⟩

/- The scanner cuts a source in the one way there is. -/
theorem scan_eq_iff
    {cs : List Char}
    {lexemes : List Lexeme} :
    scan cs = lexemes ↔ Cuts [] lexemes cs := by
  constructor
  · rintro rfl
    have hStart : Meets [] cs := by
      left
      simp [Borders]
    exact cuts_scan hStart
  · exact Cuts.scan_eq

theorem Cuts.source_ne_nil
    {before cs : List Char}
    {lexemes : List Lexeme}
    (hCuts : Cuts before lexemes cs)
    {lexeme : Lexeme}
    (hMem : lexeme ∈ lexemes) :
    lexeme.source ≠ [] := by
  rcases List.append_of_mem hMem with ⟨front, back, hSplit⟩
  exact (hCuts.stands front lexeme back hSplit).source_ne_nil

/- An unclosed text is the last lexeme of a source. -/
theorem Cuts.eq_nil_of_unclosed
    {before cs content : List Char}
    {front back : List Lexeme}
    (hCuts :
      Cuts before (front ++ .unclosed content :: back) cs) :
    back = [] := by
  have hLast := hCuts.stands front _ back rfl
  cases back with
  | nil => rfl
  | cons lexeme rest =>
      rw [Stands, List.flatMap_cons,
        List.append_eq_nil_iff] at hLast
      exact absurd hLast.2.1 (hCuts.source_ne_nil (by simp))

end Lexeme

end LamLang

------------------------------------------------------------
-- Tokens
------------------------------------------------------------

namespace LamLang

/- Whether a lexeme gives no token. -/
def Lexeme.isSkipped : Lexeme → Bool
| .blank _ => true
| .comment _ => true
| _ => false

namespace Token

open Lexeme (scan)

/- The characters of the lexemes that are not skipped. -/
def words
    (lexemes : List Lexeme) :
    List Token :=
  (lexemes.filter fun lexeme => !lexeme.isSkipped).map
    fun lexeme => String.ofList lexeme.source

/- The token of a lexeme is its word. -/
theorem words_cons
    {lexeme : Lexeme}
    {first : Option Token}
    (hFirst : ofLexeme? lexeme = .ok first)
    (lexemes : List Lexeme) :
    words (lexeme :: lexemes) =
      first.toList ++ words lexemes := by
  cases lexeme <;> cases hFirst <;> rfl

/- Tokens are all lexemes that count, if none is unclosed. -/
theorem ofLexemes_eq_ok_iff
    {lexemes : List Lexeme}
    {tokens : List Token} :
    ofLexemes lexemes = .ok tokens ↔
      (∀ content, .unclosed content ∉ lexemes) ∧
        tokens = words lexemes := by
  induction lexemes generalizing tokens with
  | nil => simp [ofLexemes, words, eq_comm]
  | cons lexeme lexemes ih =>
      rw [ofLexemes_cons_eq_ok]
      constructor
      · rintro ⟨first, later, hFirst, hLater, rfl⟩
        rcases ih.mp hLater with ⟨hNone, rfl⟩
        refine ⟨?_, (words_cons hFirst lexemes).symm⟩
        intro content hMem
        rcases List.mem_cons.mp hMem with rfl | hThere
        · cases hFirst
        · exact hNone content hThere
      · rintro ⟨hNone, rfl⟩
        simp only [List.mem_cons, not_or] at hNone
        have hLater :=
          ih.mpr ⟨fun content => (hNone content).2, rfl⟩
        cases lexeme with
        | unclosed content => exact absurd rfl (hNone content).1
        | _ =>
            exact ⟨_, _, rfl, hLater, words_cons rfl lexemes⟩

theorem ofLexemes_snoc_unclosed
    {front : List Lexeme}
    (hFront : ∀ content, .unclosed content ∉ front)
    (content : List Char) :
    ofLexemes (front ++ [.unclosed content]) =
      .error (.cause (.unterminatedText
        (String.ofList (Lexeme.unclosed content).source))) := by
  induction front with
  | nil => rfl
  | cons lexeme front ih =>
      simp only [List.mem_cons, not_or] at hFront
      have hLater := ih fun other => (hFront other).2
      cases lexeme with
      | unclosed other => exact absurd rfl (hFront other).1
      | _ =>
          rw [List.cons_append, ofLexemes_cons rfl, hLater]
          rfl

/- A source with an unclosed text ends with its only one. -/
theorem exists_unclosed_last
    {cs content : List Char}
    (hMem : .unclosed content ∈ scan cs) :
    ∃ front,
      scan cs = front ++ [.unclosed content] ∧
        ∀ other, .unclosed other ∉ front := by
  have hCuts := Lexeme.scan_eq_iff.mp (Eq.refl (scan cs))
  rcases List.append_of_mem hMem with ⟨front, back, hSplit⟩
  rw [hSplit] at hCuts
  have hBack := hCuts.eq_nil_of_unclosed
  subst hBack
  refine ⟨front, hSplit, ?_⟩
  intro other hOther
  rcases List.append_of_mem hOther with ⟨start, rest, rfl⟩
  rw [List.append_assoc, List.cons_append] at hCuts
  have hRest := hCuts.eq_nil_of_unclosed
  simp at hRest

/- A source is refused for an unclosed text at its end. -/
theorem ofSource_eq_error_iff
    {source : String}
    {failure : Failure} :
    ofSource source = .error failure ↔
      ∃ front content,
        scan source.toList = front ++ [.unclosed content] ∧
          failure =
            .cause (.unterminatedText
              (String.ofList
                (Lexeme.unclosed content).source)) := by
  unfold ofSource
  constructor
  · intro hError
    have hUnclosed :
        ∃ content, .unclosed content ∈ scan source.toList := by
      by_contra hNone
      rw [not_exists] at hNone
      rw [ofLexemes_eq_ok_iff.mpr ⟨hNone, rfl⟩] at hError
      cases hError
    rcases hUnclosed with ⟨content, hMem⟩
    rcases exists_unclosed_last hMem with
      ⟨front, hSplit, hFront⟩
    rw [hSplit, ofLexemes_snoc_unclosed hFront] at hError
    cases hError
    exact ⟨front, content, hSplit, rfl⟩
  · rintro ⟨front, content, hSplit, rfl⟩
    have hMem : .unclosed content ∈ scan source.toList := by
      rw [hSplit]
      simp
    rcases exists_unclosed_last hMem with
      ⟨others, hOthers, hNone⟩
    rw [hOthers, ofLexemes_snoc_unclosed hNone]

end Token

end LamLang

------------------------------------------------------------
-- Nothing Is Lost
------------------------------------------------------------

namespace LamLang

open Lexeme (scan)

/-
  A source is cut into lexemes without loss, each of them
  standing where it may, and it is cut so in no other way.
  Its tokens are the lexemes that are not skipped, in order,
  unless the last lexeme is an unclosed text.  Then, and
  only then, the source is refused, and the fault names all
  of it from the last mark on.
-/
theorem scanning_loses_nothing
    (source : String) :
    (∀ lexemes,
      scan source.toList = lexemes ↔
        Lexeme.Cuts [] lexemes source.toList) ∧
    (∀ tokens,
      Token.ofSource source = .ok tokens ↔
        (∀ content,
          .unclosed content ∉ scan source.toList) ∧
          tokens = Token.words (scan source.toList)) ∧
    (∀ failure,
      Token.ofSource source = .error failure ↔
        ∃ front content,
          scan source.toList = front ++ [.unclosed content] ∧
            failure =
              .cause (.unterminatedText
                (String.ofList
                  (Lexeme.unclosed content).source))) ∧
    ∀ failure,
      Token.ofSource source = .error failure →
        ∃ (fault : Fault) (front : List Lexeme),
          failure.fault? = some fault ∧
            fault.kind = .parse ∧
            fault.exprs = [fault.subject] ∧
            source.toList =
              front.flatMap Lexeme.source ++
                fault.subject.toList := by
  refine ⟨?cut, ?tokens, ?refused, ?named⟩
  case cut =>
    intro lexemes
    exact Lexeme.scan_eq_iff
  case tokens =>
    intro tokens
    exact Token.ofLexemes_eq_ok_iff
  case refused =>
    intro failure
    exact Token.ofSource_eq_error_iff
  case named =>
    intro failure hError
    rcases Token.ofSource_eq_error_iff.mp hError with
      ⟨front, content, hSplit, rfl⟩
    refine ⟨_, front, rfl, rfl, rfl, ?_⟩
    have hWhole := (Lexeme.scan_eq_iff.mp hSplit).whole
    rw [← hWhole, List.flatMap_append]
    simp [Cause.fault, Cause.exprs, Fault.subject]

/-
  An atom with semicolons inside, a text and a comment that
  each hold what could start another lexeme, and a text that
  is left open.
-/
def Lexeme.tangledSource : String :=
  "x;;y\"(;;\";; \"z\n)\t\"w "

/- The lexemes of this source. -/
def Lexeme.tangled : List Lexeme :=
  [.atom ['x', ';', ';', 'y'], .text ['(', ';', ';'],
   .comment [' ', '\x22', 'z'], .blank '\n', .rparen,
   .blank '\t', .unclosed ['w', ' ']]

theorem scanning_loses_nothing_tangled :
    scan Lexeme.tangledSource.toList = Lexeme.tangled ∧
      Lexeme.Cuts [] Lexeme.tangled
        Lexeme.tangledSource.toList ∧
      Token.ofSource Lexeme.tangledSource =
        .error (.cause (.unterminatedText "\"w ")) ∧
      ∃ front : List Lexeme,
        Lexeme.tangledSource.toList =
          front.flatMap Lexeme.source ++ "\"w ".toList := by
  have hScan :
      scan Lexeme.tangledSource.toList = Lexeme.tangled := by
    decide +kernel
  rcases scanning_loses_nothing Lexeme.tangledSource with
    ⟨hCut, -, hRefused, hNamed⟩
  have hError :
      Token.ofSource Lexeme.tangledSource =
        .error (.cause (.unterminatedText "\"w ")) :=
    (hRefused _).mpr
      ⟨Lexeme.tangled.dropLast, ['w', ' '], hScan, rfl⟩
  refine ⟨hScan, (hCut _).mp hScan, hError, ?_⟩
  rcases hNamed _ hError with
    ⟨_, front, hFault, -, -, hWhole⟩
  cases hFault
  exact ⟨front, hWhole⟩

end LamLang
