import LamLang.Proofs.Reading
import Mathlib.Algebra.Ring.Int.Defs

/-
  Lines joined one after another.

  The console keeps the text of unfinished lines and joins
  the next line to it after a space.  Up to blanks and the
  content of comments, the lexemes of the joined text are
  those of the lines in turn, as if they had been read with
  line breaks between them.  This ends with a line whose
  last lexeme is a comment: without its line break, the
  comment takes up the lines that follow.

  Key definitions include:
    * `LamLang.Lexeme.stateAfter`
    * `LamLang.Lexeme.outline`
    * `LamLang.Lexeme.endsInComment`
    * `LamLang.Console.joinLines`
    * `LamLang.Console.heard`

  Main statements:
    * `LamLang.Lexeme.outline_strip`
    * `LamLang.Lexeme.scan_append_blank`
    * `LamLang.Lexeme.outline_append_blank`
    * `LamLang.Console.outline_joinLine`
    * `LamLang.Console.outline_joinFrom`
    * `LamLang.Console.outline_joinFrom_heard`
    * `LamLang.joined_lines_read_whole`
-/

------------------------------------------------------------
-- Texts Scanned In Two Parts
------------------------------------------------------------

namespace LamLang

namespace Lexeme

/- The lexemes that characters complete, from a state on. -/
def emitted : Partial → List Char → List Lexeme
| _, [] => []
| state, c :: cs =>
    (step state c).1 ++ emitted (step state c).2 cs

/- The unfinished lexeme that characters leave behind. -/
def stateAfter : Partial → List Char → Partial
| state, [] => state
| state, c :: cs => stateAfter (step state c).2 cs

/- The second part is scanned from where the first ends. -/
theorem scanFrom_append
    (state : Partial)
    (front back : List Char) :
    scanFrom state (front ++ back) =
      emitted state front ++
        scanFrom (stateAfter state front) back := by
  induction front generalizing state with
  | nil => rfl
  | cons c front ih =>
      rw [List.cons_append, scanFrom, ih, emitted,
        stateAfter, List.append_assoc]

theorem scan_eq_emitted_append
    (cs : List Char) :
    scan cs =
      emitted .ground cs ++
        finish (stateAfter .ground cs) := by
  have hParts := scanFrom_append .ground cs []
  rwa [List.append_nil] at hParts

/-
  A blank ends the lexeme before it, unless that is a text
  that goes on.  A comment is ended by a line break only.
-/
theorem scanFrom_blank
    {state : Partial}
    {c : Char}
    (hBlank : Text.isBlank c = true)
    (hText : ∀ seen, state ≠ .text seen)
    (hComment : ∀ seen, state = .comment seen → c = '\n')
    (rest : List Char) :
    scanFrom state (c :: rest) =
      finish state ++ .blank c :: scan rest := by
  have hStart := start_of_isBlank hBlank
  have hEnds : endsAtom c = true := by
    simp [endsAtom, hBlank]
  cases state with
  | ground => simp [scanFrom, step, hStart, finish, scan]
  | text seen => exact absurd rfl (hText seen)
  | comment seen =>
      simp [scanFrom, step, hComment seen rfl, finish, scan]
  | atom seen =>
      simp [scanFrom, step, hEnds, hStart, finish, scan]

/- A comment is completed by a line break only. -/
theorem comment_not_mem_emitted
    {cs : List Char}
    (hBreak : '\n' ∉ cs)
    (state : Partial)
    (content : List Char) :
    .comment content ∉ emitted state cs := by
  induction cs generalizing state with
  | nil => simp [emitted]
  | cons c cs ih =>
      simp only [List.mem_cons, not_or] at hBreak
      rcases hBreak with ⟨hHere, hLater⟩
      have hStart : .comment content ∉ (start c).1 := by
        unfold start
        split_ifs <;> simp
      have hStep : .comment content ∉ (step state c).1 := by
        cases state with
        | ground => exact hStart
        | text seen =>
            simp only [step]
            split <;> simp
        | comment seen =>
            simp [step, Ne.symm hHere]
        | atom seen =>
            simp only [step]
            split_ifs
            · simpa using hStart
            · simp
            · simp
      rw [emitted, List.mem_append, not_or]
      exact ⟨hStep, ih hLater _⟩

end Lexeme

end LamLang

------------------------------------------------------------
-- Outlines
------------------------------------------------------------

namespace LamLang

namespace Lexeme

/-
  What a lexeme counts for.  A blank counts for nothing, and
  the content of a comment or an unclosed text for no more
  than that it is there.
-/
def gist : Lexeme → Option Lexeme
| .blank _ => none
| .comment _ => some (.comment [])
| .unclosed _ => some (.unclosed [])
| lexeme => some lexeme

@[simp] theorem gist_blank
    (c : Char) :
    gist (.blank c) = none := rfl

/- The lexemes of a source by what they count for. -/
def outline
    (source : String) :
    List Lexeme :=
  (scan source.toList).filterMap gist

/- Whether the last lexeme of a line is a comment. -/
def endsInComment
    (line : String) :
    Bool :=
  (outline line).getLast? == some (.comment [])

/- Blanks at the end add nothing but to an open lexeme. -/
theorem gist_scanFrom_blanks
    {blanks : List Char}
    (hBlanks : ∀ c ∈ blanks, Text.isBlank c = true)
    (state : Partial) :
    (scanFrom state blanks).filterMap gist =
      (finish state).filterMap gist := by
  induction blanks generalizing state with
  | nil => rfl
  | cons c blanks ih =>
      have hBlank := hBlanks c (by simp)
      have hLater :=
        ih fun d hMem => hBlanks d (by simp [hMem])
      have hMark : c ≠ mark := by
        rintro rfl
        exact absurd hBlank (by decide)
      have hEnd :
          (finish state ++
              .blank c :: scan blanks).filterMap gist =
            (finish state).filterMap gist := by
        have hGround :
            (scan blanks).filterMap gist = [] :=
          hLater .ground
        rw [List.filterMap_append,
          List.filterMap_cons_none (gist_blank c), hGround,
          List.append_nil]
      cases state with
      | text seen =>
          simp only [scanFrom, step, if_neg hMark,
            List.nil_append, hLater]
          rfl
      | comment seen =>
          by_cases hBreak : c = '\n'
          · rw [scanFrom_blank hBlank (by simp)
              (fun _ _ => hBreak), hEnd]
          · simp only [scanFrom, step, if_neg hBreak,
              List.nil_append, hLater]
            rfl
      | ground =>
          rw [scanFrom_blank hBlank (by simp) (by simp), hEnd]
      | atom seen =>
          rw [scanFrom_blank hBlank (by simp) (by simp), hEnd]

theorem gist_scan_dropWhile
    (cs : List Char) :
    (scan (cs.dropWhile Text.isBlank)).filterMap gist =
      (scan cs).filterMap gist := by
  induction cs with
  | nil => rfl
  | cons c cs ih =>
      cases hBlank : Text.isBlank c with
      | true =>
          rw [List.dropWhile_cons_of_pos hBlank, ih,
            scan_blank hBlank,
            List.filterMap_cons_none (gist_blank c)]
      | false =>
          rw [List.dropWhile_cons_of_neg (by simp [hBlank])]

/- Stripping a source does not change its outline. -/
theorem outline_strip
    (source : String) :
    outline (Text.strip source) = outline source := by
  rcases Token.exists_stripRight_append
    (source.toList.dropWhile Text.isBlank) with
    ⟨blanks, hBlanks, hSource⟩
  rw [outline, outline, Text.strip, String.toList_ofList,
    ← gist_scan_dropWhile source.toList]
  generalize source.toList.dropWhile Text.isBlank = cs at *
  generalize Text.stripRight cs = core at *
  rw [← hSource, scan_eq_emitted_append core, scan,
    scanFrom_append, List.filterMap_append,
    List.filterMap_append, gist_scanFrom_blanks hBlanks]

/- A source that the scanner leaves within a comment. -/
theorem endsInComment_of_stateAfter
    {source : String}
    {seen : List Char}
    (hState :
      stateAfter .ground source.toList = .comment seen) :
    endsInComment source = true := by
  rw [endsInComment, outline, scan_eq_emitted_append,
    hState, List.filterMap_append]
  simp [finish, gist]

/- A line without breaks ends in a comment in no other way. -/
theorem stateAfter_of_endsInComment
    {line : String}
    (hBreak : '\n' ∉ line.toList)
    (hEnd : endsInComment line = true) :
    ∃ seen,
      stateAfter .ground line.toList = .comment seen := by
  have hLast :
      (.comment [] : Lexeme) ∈
        ((emitted .ground line.toList ++
          finish (stateAfter .ground
            line.toList)).filterMap gist).getLast? := by
    rw [← scan_eq_emitted_append]
    simpa [endsInComment, outline] using hEnd
  have hFinish :
      (.comment [] : Lexeme) ∈
        (finish (stateAfter .ground
          line.toList)).filterMap gist := by
    have hMem := List.mem_of_mem_getLast? hLast
    rw [List.filterMap_append, List.mem_append] at hMem
    refine hMem.resolve_left fun hEmitted => ?_
    rcases List.mem_filterMap.mp hEmitted with
      ⟨lexeme, hLexeme, hGist⟩
    cases lexeme with
    | comment content =>
        exact
          comment_not_mem_emitted hBreak _ content hLexeme
    | _ => simp [gist] at hGist
  cases hState : stateAfter .ground line.toList with
  | comment seen => exact ⟨seen, rfl⟩
  | _ => simp [hState, finish, gist] at hFinish

end Lexeme

end LamLang

------------------------------------------------------------
-- Tokens Of Outlines
------------------------------------------------------------

namespace LamLang

namespace Token

open Lexeme (gist outline scan stateAfter finish)

theorem ofLexemes_append_eq_ok
    {front back : List Lexeme}
    {tokens : List Token} :
    ofLexemes (front ++ back) = .ok tokens ↔
      ∃ first later,
        ofLexemes front = .ok first ∧
          ofLexemes back = .ok later ∧
          tokens = first ++ later := by
  induction front generalizing tokens with
  | nil =>
      simp [ofLexemes, eq_comm]
  | cons lexeme front ih =>
      simp only [List.cons_append, ofLexemes_cons_eq_ok, ih]
      constructor
      · rintro ⟨token?, rest, hToken, ⟨first, later, hFirst,
          hLater, rfl⟩, rfl⟩
        exact
          ⟨_, later, ⟨token?, first, hToken, hFirst, rfl⟩,
            hLater, by simp⟩
      · rintro ⟨_, later, ⟨token?, first, hToken, hFirst,
          rfl⟩, hLater, rfl⟩
        exact
          ⟨token?, _, hToken, ⟨first, later, hFirst, hLater,
            rfl⟩, by simp⟩

/- The tokens of lexemes depend on what they count for. -/
theorem ofLexemes_gist
    {lexemes : List Lexeme}
    {tokens : List Token} :
    ofLexemes (lexemes.filterMap gist) = .ok tokens ↔
      ofLexemes lexemes = .ok tokens := by
  induction lexemes generalizing tokens with
  | nil => rfl
  | cons lexeme lexemes ih =>
      rw [ofLexemes_cons_eq_ok]
      cases lexeme <;>
        simp [gist, List.filterMap_cons,
          ofLexemes_cons_eq_ok, ih, ofLexeme?]

theorem ofSource_eq_ok_iff_outline
    {source : String}
    {tokens : List Token} :
    ofSource source = .ok tokens ↔
      ofLexemes (outline source) = .ok tokens :=
  ofLexemes_gist.symm

/- So does the balance. -/
theorem balance_eq_total_outline
    (source : String) :
    balance source = total (outline source) := by
  rw [balance_eq_total, outline]
  induction scan source.toList with
  | nil => rfl
  | cons lexeme lexemes ih =>
      cases lexeme <;>
        simp [gist, List.filterMap_cons, weight, ih]

/- The outlines of lines give all their tokens in turn. -/
theorem ofLexemes_outlines
    {lines : List String}
    {tokens : List (List Token)}
    (hTokens : lines.mapM ofSource = .ok tokens) :
    ofLexemes (lines.map outline).flatten =
      .ok tokens.flatten := by
  induction lines generalizing tokens with
  | nil =>
      cases hTokens
      rfl
  | cons line lines ih =>
      rw [List.mapM_cons] at hTokens
      rcases bind_eq_ok hTokens with ⟨first, hFirst, hNext⟩
      rcases bind_eq_ok hNext with ⟨later, hLater, hPure⟩
      cases hPure
      rw [List.map_cons, List.flatten_cons,
        ofLexemes_append_eq_ok]
      exact
        ⟨first, later.flatten,
          ofSource_eq_ok_iff_outline.mp hFirst, ih hLater,
          rfl⟩

/- Lines that all have tokens have them one by one. -/
theorem exists_ofSource_of_mapM
    {lines : List String}
    {tokens : List (List Token)}
    (hTokens : lines.mapM ofSource = .ok tokens) :
    ∀ line ∈ lines, ∃ tokens, ofSource line = .ok tokens := by
  induction lines generalizing tokens with
  | nil => simp
  | cons line lines ih =>
      rw [List.mapM_cons] at hTokens
      rcases bind_eq_ok hTokens with ⟨first, hFirst, hNext⟩
      rcases bind_eq_ok hNext with ⟨later, hLater, -⟩
      intro other hMem
      rcases List.mem_cons.mp hMem with rfl | hRest
      · exact ⟨first, hFirst⟩
      · exact ih hLater other hRest

theorem total_outlines
    (lines : List String) :
    total (lines.map outline).flatten =
      (lines.map balance).sum := by
  induction lines with
  | nil => rfl
  | cons line lines ih =>
      rw [List.map_cons, List.flatten_cons, total_append, ih,
        List.map_cons, List.sum_cons,
        balance_eq_total_outline]

/- A source with tokens leaves no text open. -/
theorem stateAfter_ne_text
    {source : String}
    {tokens : List Token}
    (hTokens : ofSource source = .ok tokens)
    (seen : List Char) :
    stateAfter .ground source.toList ≠ .text seen := by
  intro hState
  rw [ofSource, Lexeme.scan_eq_emitted_append, hState,
    ofLexemes_append_eq_ok] at hTokens
  rcases hTokens with ⟨first, later, -, hLater, -⟩
  cases hLater

end Token

namespace Lexeme

/-
  A blank between two texts separates their lexemes, unless
  the first ends in a comment and the blank is no break.
-/
theorem scan_append_blank
    {front : String}
    {tokens : List Token}
    {c : Char}
    (hTokens : Token.ofSource front = .ok tokens)
    (hBlank : Text.isBlank c = true)
    (hComment : endsInComment front = true → c = '\n')
    (back : List Char) :
    scan (front.toList ++ c :: back) =
      scan front.toList ++ .blank c :: scan back := by
  rw [scan, scanFrom_append, scan_eq_emitted_append,
    scanFrom_blank hBlank
      (Token.stateAfter_ne_text hTokens)
      (fun _ hState =>
        hComment (endsInComment_of_stateAfter hState)),
    List.append_assoc]

theorem outline_append_blank
    {front separator : String}
    {tokens : List Token}
    {c : Char}
    (hTokens : Token.ofSource front = .ok tokens)
    (hSeparator : separator.toList = [c])
    (hBlank : Text.isBlank c = true)
    (hComment : endsInComment front = true → c = '\n')
    (back : String) :
    outline (front ++ separator ++ back) =
      outline front ++ outline back := by
  rw [outline, String.toList_append, String.toList_append,
    hSeparator, List.append_assoc, List.singleton_append,
    scan_append_blank hTokens hBlank hComment,
    List.filterMap_append,
    List.filterMap_cons_none (gist_blank c)]
  rfl

/-
  Texts with a blank between each other are read in turn,
  unless a comment takes up the blank.
-/
theorem outline_intercalate_blank
    {separator : String}
    {c : Char}
    (hSeparator : separator.toList = [c])
    (hBlank : Text.isBlank c = true)
    {lines : List String}
    (hTokens :
      ∀ line ∈ lines, ∃ tokens,
        Token.ofSource line = .ok tokens)
    (hComment :
      ∀ line ∈ lines,
        endsInComment line = true → c = '\n') :
    outline (separator.intercalate lines) =
      (lines.map outline).flatten := by
  induction lines with
  | nil => rfl
  | cons line lines ih =>
      cases lines with
      | nil => simp
      | cons next lines =>
          rcases hTokens line (by simp) with
            ⟨tokens, hLine⟩
          have hLater :=
            ih (fun other hMem => hTokens other (by simp [hMem]))
              fun other hMem => hComment other (by simp [hMem])
          rw [List.map_cons, List.flatten_cons, ← hLater,
            String.intercalate_cons_cons,
            outline_append_blank hLine hSeparator hBlank
              (hComment line (by simp))]

/- No comment takes up a line break. -/
theorem outline_intercalate
    {lines : List String}
    (hTokens :
      ∀ line ∈ lines, ∃ tokens,
        Token.ofSource line = .ok tokens) :
    outline ("\n".intercalate lines) =
      (lines.map outline).flatten :=
  outline_intercalate_blank rfl Text.isBlank_newline hTokens
    fun _ _ _ => rfl

end Lexeme

end LamLang

------------------------------------------------------------
-- One More Line
------------------------------------------------------------

namespace LamLang

namespace Console

open Lexeme (outline endsInComment)

variable {line pending : String}

/- A text and a line with a space between them. -/
theorem joinLine_of_ne
    (hPending : pending ≠ "") :
    (joinLine line pending).1 =
      Text.strip (pending ++ " " ++ line) := by
  simp [joinLine, hPending]

/-
  A line is put behind the text before it, if that does not
  end in a comment.
-/
theorem outline_joinLine
    {tokens : List Token}
    (hTokens : Token.ofSource pending = .ok tokens)
    (hEnd : endsInComment pending = false)
    (line : String) :
    outline (joinLine line pending).1 =
      outline pending ++ outline line := by
  by_cases hPending : pending = ""
  · subst hPending
    rw [joinLine_alone, Lexeme.outline_strip]
    rfl
  · rw [joinLine_of_ne hPending, Lexeme.outline_strip,
      Lexeme.outline_append_blank hTokens rfl
        Text.isBlank_space (by simp [hEnd])]

theorem ofSource_joinLine
    {tokens others : List Token}
    (hTokens : Token.ofSource pending = .ok tokens)
    (hEnd : endsInComment pending = false)
    (hOthers : Token.ofSource line = .ok others) :
    Token.ofSource (joinLine line pending).1 =
      .ok (tokens ++ others) := by
  rw [Token.ofSource_eq_ok_iff_outline] at hTokens hOthers ⊢
  rw [outline_joinLine
      (Token.ofSource_eq_ok_iff_outline.mpr hTokens) hEnd,
    Token.ofLexemes_append_eq_ok]
  exact ⟨tokens, others, hTokens, hOthers, rfl⟩

/- A line behind a comment adds nothing. -/
theorem outline_joinLine_of_comment
    (hPending : '\n' ∉ pending.toList)
    (hLine : '\n' ∉ line.toList)
    (hEnd : endsInComment pending = true) :
    outline (joinLine line pending).1 = outline pending := by
  rcases Lexeme.stateAfter_of_endsInComment hPending hEnd
    with ⟨seen, hState⟩
  have hNonempty : pending ≠ "" := by
    rintro rfl
    cases hEnd
  have hRest : '\n' ∉ " ".toList ++ line.toList := by
    simpa using hLine
  -- Within the comment the rest of the line is more of it.
  have hMore :
      Lexeme.scanFrom (.comment seen)
          (" ".toList ++ line.toList) =
        [.comment
          (seen.reverse ++ (" ".toList ++ line.toList))] := by
    have hEnd : Lexeme.EndsComment [] := nofun
    have hFrom := Lexeme.scanFrom_comment seen hRest hEnd
    rwa [List.append_nil] at hFrom
  rw [joinLine_of_ne hNonempty, Lexeme.outline_strip,
    outline, outline, String.toList_append,
    String.toList_append, List.append_assoc, Lexeme.scan,
    Lexeme.scanFrom_append, hState, hMore,
    Lexeme.scan_eq_emitted_append, hState]
  simp only [List.filterMap_append]
  rfl

/- Joining makes no line breaks. -/
theorem break_not_mem_joinLine
    (hPending : '\n' ∉ pending.toList)
    (hLine : '\n' ∉ line.toList) :
    '\n' ∉ (joinLine line pending).1.toList := by
  have hStrip (s : String) (hBreak : '\n' ∉ s.toList) :
      '\n' ∉ (Text.strip s).toList := by
    intro hMem
    rcases Token.exists_stripRight_append
      (s.toList.dropWhile Text.isBlank) with
      ⟨blanks, -, hSource⟩
    rw [Text.strip, String.toList_ofList] at hMem
    apply hBreak
    apply (List.dropWhile_sublist Text.isBlank).subset
    rw [← hSource]
    exact List.mem_append_left _ hMem
  by_cases hEmpty : pending = ""
  · subst hEmpty
    rw [joinLine_alone]
    exact hStrip line hLine
  · rw [joinLine_of_ne hEmpty]
    apply hStrip
    simp [hPending, hLine]

/- A joined text ends as its line, if the line has lexemes. -/
theorem endsInComment_joinLine
    {tokens : List Token}
    (hTokens : Token.ofSource pending = .ok tokens)
    (hEnd : endsInComment pending = false)
    (line : String) :
    endsInComment (joinLine line pending).1 =
      endsInComment line := by
  have hOutline := outline_joinLine hTokens hEnd line
  unfold endsInComment at hEnd ⊢
  rw [hOutline, List.getLast?_append]
  cases hLast : (outline line).getLast? with
  | none => simpa using hEnd
  | some lexeme => rfl

end Console

end LamLang

------------------------------------------------------------
-- All Lines
------------------------------------------------------------

namespace LamLang

namespace Console

open Lexeme (outline endsInComment)

/- Join lines to a text, one after another. -/
def joinFrom
    (joined : String × Bool)
    (lines : List String) :
    String × Bool :=
  lines.foldl (fun joined line => joinLine line joined.1)
    joined

/- The text of lines, and whether it leaves lists open. -/
def joinLines
    (lines : List String) :
    String × Bool :=
  joinFrom ("", false) lines

/- The lines up to the first that ends in a comment. -/
def heard : List String → List String
| [] => []
| line :: lines =>
    if endsInComment line then [line]
    else line :: heard lines

theorem heard_prefix
    (lines : List String) :
    heard lines <+: lines := by
  induction lines with
  | nil => exact List.prefix_rfl
  | cons line lines ih =>
      unfold heard
      split
      · exact ⟨lines, rfl⟩
      · exact List.cons_prefix_cons.mpr ⟨rfl, ih⟩

theorem joinFrom_cons
    (joined : String × Bool)
    (line : String)
    (lines : List String) :
    joinFrom joined (line :: lines) =
      joinFrom (joinLine line joined.1) lines := rfl

/- The answer tells whether the text leaves lists open. -/
theorem joinFrom_open_iff
    {joined : String × Bool}
    (hJoined :
      joined.2 = true ↔ 0 < Token.balance joined.1)
    (lines : List String) :
    (joinFrom joined lines).2 = true ↔
      0 < Token.balance (joinFrom joined lines).1 := by
  induction lines generalizing joined with
  | nil => exact hJoined
  | cons line lines ih =>
      rw [joinFrom_cons]
      apply ih
      simp [joinLine]

theorem joinLines_open_iff
    (lines : List String) :
    (joinLines lines).2 = true ↔
      0 < Token.total (outline (joinLines lines).1) := by
  have hEmpty : false = true ↔ 0 < Token.balance "" := by
    decide
  rw [joinLines, joinFrom_open_iff hEmpty,
    Token.balance_eq_total_outline]

/- Lines are joined with all their lexemes, in turn. -/
theorem outline_joinFrom
    {joined : String × Bool}
    {lines : List String}
    {tokens : List Token}
    (hJoined : Token.ofSource joined.1 = .ok tokens)
    (hLines :
      ∀ line ∈ lines, ∃ tokens,
        Token.ofSource line = .ok tokens)
    (hEnds :
      ∀ line ∈ (joined.1 :: lines).dropLast,
        endsInComment line = false) :
    outline (joinFrom joined lines).1 =
      outline joined.1 ++ (lines.map outline).flatten := by
  induction lines generalizing joined tokens with
  | nil => simp [joinFrom]
  | cons line lines ih =>
      have hEnd : endsInComment joined.1 = false :=
        hEnds _ (by simp)
      rcases hLines line (by simp) with ⟨others, hLine⟩
      have hOutline := outline_joinLine hJoined hEnd line
      have hRest :=
        ih (ofSource_joinLine hJoined hEnd hLine)
          (fun other hMem => hLines other (by simp [hMem]))
          ?_
      · rw [joinFrom_cons, hRest, hOutline]
        simp
      · -- The new text ends as the line that was joined.
        cases lines with
        | nil => simp
        | cons next lines =>
            intro other hMem
            rw [List.dropLast_cons_cons, List.mem_cons] at hMem
            rcases hMem with rfl | hLater
            · rw [endsInComment_joinLine hJoined hEnd]
              exact hEnds line (by simp)
            · exact hEnds other (by simp [hLater])

/- Behind a comment no line adds anything. -/
theorem outline_joinFrom_of_comment
    {joined : String × Bool}
    {lines : List String}
    (hJoined : '\n' ∉ joined.1.toList)
    (hBreaks : ∀ line ∈ lines, '\n' ∉ line.toList)
    (hEnd : endsInComment joined.1 = true) :
    outline (joinFrom joined lines).1 =
      outline joined.1 := by
  induction lines generalizing joined with
  | nil => rfl
  | cons line lines ih =>
      have hLine := hBreaks line (by simp)
      have hOutline :=
        outline_joinLine_of_comment hJoined hLine hEnd
      have hNext :
          endsInComment (joinLine line joined.1).1 =
            true := by
        rw [endsInComment, hOutline]
        exact hEnd
      rw [joinFrom_cons,
        ih (break_not_mem_joinLine hJoined hLine)
          (fun other hMem => hBreaks other (by simp [hMem]))
          hNext,
        hOutline]

/- Of lines without breaks, those that are heard count. -/
theorem outline_joinFrom_heard
    {joined : String × Bool}
    {lines : List String}
    {tokens : List Token}
    (hTokens : Token.ofSource joined.1 = .ok tokens)
    (hLines :
      ∀ line ∈ lines, ∃ tokens,
        Token.ofSource line = .ok tokens)
    (hJoined : '\n' ∉ joined.1.toList)
    (hBreaks : ∀ line ∈ lines, '\n' ∉ line.toList)
    (hEnd : endsInComment joined.1 = false) :
    outline (joinFrom joined lines).1 =
      outline joined.1 ++
        ((heard lines).map outline).flatten := by
  induction lines generalizing joined tokens with
  | nil => simp [joinFrom, heard]
  | cons line lines ih =>
      have hLine := hBreaks line (by simp)
      have hOutline := outline_joinLine hTokens hEnd line
      have hNext := break_not_mem_joinLine hJoined hLine
      have hLater :
          ∀ other ∈ lines, '\n' ∉ other.toList :=
        fun other hMem => hBreaks other (by simp [hMem])
      have hLast := endsInComment_joinLine hTokens hEnd line
      rw [joinFrom_cons, heard]
      split
      · rename_i hComment
        rw [hComment] at hLast
        rw [outline_joinFrom_of_comment hNext hLater hLast,
          hOutline]
        simp
      · rename_i hComment
        rw [Bool.not_eq_true] at hComment
        rw [hComment] at hLast
        rcases hLines line (by simp) with ⟨others, hOthers⟩
        rw [ih (ofSource_joinLine hTokens hEnd hOthers)
          (fun other hMem => hLines other (by simp [hMem]))
          hNext hLater hLast, hOutline]
        simp

end Console

end LamLang

------------------------------------------------------------
-- Lines Read Whole
------------------------------------------------------------

namespace LamLang

open Lexeme (endsInComment)
open Console (joinLines heard)

/-
  Lines that each have their tokens have all of them, in
  order, when they are read with line breaks in between.
  The text that the console joins has the same tokens, and
  leaves lists open just if the lines do together, provided
  that no line but the last ends in a comment.  Otherwise,
  where no line holds a line break itself, the lines up to
  the first that ends in a comment are all that is read, so
  nothing is lost just if the others have no tokens.
-/
theorem joined_lines_read_whole
    (lines : List String)
    (tokens : List (List Token))
    (hTokens : lines.mapM Token.ofSource = .ok tokens) :
    Token.ofSource ("\n".intercalate lines) =
      .ok tokens.flatten ∧
    ((∀ line ∈ lines.dropLast, endsInComment line = false) →
      Token.ofSource (joinLines lines).1 =
          .ok tokens.flatten ∧
        ((joinLines lines).2 = true ↔
          0 < (lines.map Token.balance).sum)) ∧
    ((∀ line ∈ lines, '\n' ∉ line.toList) →
      ∃ front back,
        tokens = front ++ back ∧
          (heard lines).mapM Token.ofSource = .ok front ∧
          Token.ofSource (joinLines lines).1 =
            .ok front.flatten ∧
          ((joinLines lines).2 = true ↔
            0 < ((heard lines).map Token.balance).sum) ∧
          (Token.ofSource (joinLines lines).1 =
              .ok tokens.flatten ↔
            back.flatten = [])) := by
  have hLines := Token.exists_ofSource_of_mapM hTokens
  have hEmpty : Token.ofSource "" = .ok [] := rfl
  refine ⟨?whole, ?uncommented, ?unbroken⟩
  case whole =>
    rw [Token.ofSource_eq_ok_iff_outline,
      Lexeme.outline_intercalate hLines]
    exact Token.ofLexemes_outlines hTokens
  case uncommented =>
    intro hEnds
    have hOutline :
        Lexeme.outline (joinLines lines).1 =
          (lines.map Lexeme.outline).flatten := by
      apply Console.outline_joinFrom hEmpty hLines
      cases lines with
      | nil => simp
      | cons line lines =>
          rw [List.dropLast_cons_cons]
          exact List.forall_mem_cons.mpr ⟨rfl, hEnds⟩
    rw [Token.ofSource_eq_ok_iff_outline,
      Console.joinLines_open_iff, hOutline,
      Token.total_outlines]
    exact ⟨Token.ofLexemes_outlines hTokens, .rfl⟩
  case unbroken =>
    intro hBreaks
    have hOutline :
        Lexeme.outline (joinLines lines).1 =
          ((heard lines).map Lexeme.outline).flatten :=
      Console.outline_joinFrom_heard hEmpty hLines
        (by simp) hBreaks rfl
    rcases Console.heard_prefix lines with ⟨unheard, hSplit⟩
    rw [← hSplit, List.mapM_append] at hTokens
    rcases bind_eq_ok hTokens with ⟨front, hFront, hNext⟩
    rcases bind_eq_ok hNext with ⟨back, -, hPure⟩
    cases hPure
    have hJoined :
        Token.ofSource (joinLines lines).1 =
          .ok front.flatten := by
      rw [Token.ofSource_eq_ok_iff_outline, hOutline]
      exact Token.ofLexemes_outlines hFront
    refine ⟨front, back, rfl, hFront, hJoined, ?_, ?_⟩
    · rw [Console.joinLines_open_iff, hOutline,
        Token.total_outlines]
    · rw [hJoined, List.flatten_append]
      simp

/- Semicolons that start no comment, and one at the end. -/
def Console.semicolonLines : List String :=
  ["((lam (s) ;x", "s) ; ;", "\"a;; (\" ) ;; end"]

/- The tokens of these lines. -/
def Token.ofSemicolonLines : List (List Token) :=
  [["(", "(", "lam", "(", "s", ")", ";x"],
   ["s", ")", ";", ";"], ["\"a;; (\"", ")"]]

theorem joined_lines_read_whole_semicolons :
    Console.semicolonLines.mapM Token.ofSource =
        .ok Token.ofSemicolonLines ∧
      (∀ line ∈ Console.semicolonLines.dropLast,
        endsInComment line = false) ∧
      Token.ofSource
          (joinLines Console.semicolonLines).1 =
        .ok Token.ofSemicolonLines.flatten ∧
      (joinLines Console.semicolonLines).2 = false := by
  have hTokens :
      Console.semicolonLines.mapM Token.ofSource =
        .ok Token.ofSemicolonLines := by
    decide +kernel
  have hEnds :
      ∀ line ∈ Console.semicolonLines.dropLast,
        endsInComment line = false := by
    decide +kernel
  have hClosed :
      (Console.semicolonLines.map Token.balance).sum = 0 := by
    decide +kernel
  rcases joined_lines_read_whole _ _ hTokens with
    ⟨-, hWhole, -⟩
  rcases hWhole hEnds with ⟨hJoined, hOpen⟩
  refine ⟨hTokens, hEnds, hJoined, ?_⟩
  rw [hClosed] at hOpen
  simpa using hOpen

/- A list whose first line ends in a comment. -/
def Console.commentedLines : List String :=
  ["(+ 1 ;; one", "2)"]

/- The comment takes up the end of the list. -/
theorem joined_lines_lost_in_comment :
    ¬ ∀ (lines : List String) (tokens : List (List Token)),
      lines.mapM Token.ofSource = .ok tokens →
      Token.ofSource (joinLines lines).1 =
          .ok tokens.flatten ∧
        ((joinLines lines).2 = true ↔
          0 < (lines.map Token.balance).sum) := by
  intro hAll
  have hTokens :
      Console.commentedLines.mapM Token.ofSource =
        .ok [["(", "+", "1"], ["2", ")"]] := by
    decide +kernel
  have hOpen :
      (joinLines Console.commentedLines).2 = true := by
    decide +kernel
  have hClosed :
      (Console.commentedLines.map Token.balance).sum = 0 := by
    decide +kernel
  have hPositive := (hAll _ _ hTokens).2.mp hOpen
  rw [hClosed] at hPositive
  exact absurd hPositive (by decide)

end LamLang
