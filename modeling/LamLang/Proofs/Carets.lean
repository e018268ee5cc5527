import LamLang.Proofs.Cutting
import LamLang.Proofs.Pointing

/-
  Where a caret stands.

  A pointer marks the first place where the subject of its
  fault stands in the line.  A name never goes on from one
  lexeme to the next, so the first place lies inside the
  first lexeme that holds the name.  This need not be the
  identifier: a text may hold the name, or a longer atom.

  Key definitions include:
    * `LamLang.Lexeme.FirstAt`
    * `LamLang.Lexeme.startingAt?`
    * `LamLang.Lexeme.Leads`
    * `LamLang.Lexeme.CutsAs`
    * `LamLang.Datum.WrittenAs`

  Main statements:
    * `LamLang.Text.find?_append`
    * `LamLang.Lexeme.find?_eq_some_iff`
    * `LamLang.Lexeme.FirstAt.startingAt?_iff`
    * `LamLang.Datum.IsRead.exists_writtenAs`
    * `LamLang.carets_mark_first_holder`
    * `LamLang.caret_inside_text`
-/

------------------------------------------------------------
-- Words Do Not Cross Borders
------------------------------------------------------------

namespace LamLang

namespace Text

open Lexeme (IsAtom Borders Delimits Meets)

variable {word front back : List Char}

/- A word that starts in a lexeme ends in it. -/
theorem prefix_of_prefix_append
    (hWord : IsAtom word)
    (hFront : front ≠ [])
    (hMeets : Meets front back)
    (hPrefix : word <+: front ++ back) :
    word <+: front := by
  have hBoth : front <+: front ++ back :=
    List.prefix_append front back
  rcases List.prefix_or_prefix_of_prefix hPrefix hBoth with
    hShort | ⟨rest, rfl⟩
  · exact hShort
  · rcases hMeets with hBorders | hDelimits
    · -- The last character before the border is in the word.
      have hLast := List.getLast_mem hFront
      have hEnds :=
        hBorders (front.getLast hFront)
          (List.getLast?_eq_some_getLast hFront)
      have hInner :=
        hWord.inner _ (List.mem_append_left rest hLast)
      rw [hEnds] at hInner
      cases hInner
    · cases rest with
      | nil => simp
      | cons c rest =>
          -- So is the first character behind the border.
          have hRest : c :: rest <+: back :=
            (List.prefix_append_right_inj front).mp hPrefix
          have hHead : c ∈ back.head? := by
            rcases hRest with ⟨more, rfl⟩
            rfl
          have hEnds := hDelimits c hHead
          have hInner := hWord.inner c (by simp)
          rw [hEnds] at hInner
          cases hInner

/- A word is found on one side of a border or the other. -/
theorem find?_append
    (hWord : IsAtom word)
    (hMeets : Meets front back) :
    find? word (front ++ back) =
      (find? word front).or
        ((find? word back).map (front.length + ·)) := by
  induction front with
  | nil => simp [find?, hWord.nonempty]
  | cons c front ih =>
      have hRest : Meets front back := by
        rcases hMeets with hBorders | hDelimits
        · by_cases hEmpty : front = []
          · subst hEmpty
            left
            simp [Borders]
          · have hWhole : Borders ([c] ++ front) := hBorders
            left
            exact (Lexeme.borders_append_iff hEmpty).mp hWhole
        · exact .inr hDelimits
      rw [List.cons_append, find?, find?, ih hRest]
      by_cases hHere : word <+: c :: front
      · have hThere : word <+: c :: (front ++ back) :=
          hHere.trans (List.prefix_append (c :: front) back)
        rw [if_pos (List.isPrefixOf_iff_prefix.mpr hHere),
          if_pos (List.isPrefixOf_iff_prefix.mpr hThere)]
        rfl
      · have hThere : ¬ word <+: c :: (front ++ back) :=
          fun hPrefix =>
            hHere
              (prefix_of_prefix_append hWord (by simp) hMeets
                hPrefix)
        rw [← List.isPrefixOf_iff_prefix] at hHere hThere
        rw [if_neg hHere, if_neg hThere]
        cases find? word front with
        | some place => simp
        | none =>
            cases find? word back with
            | none => simp
            | some place =>
                simp
                omega

theorem find?_self
    (hWord : IsAtom word) :
    find? word word = some 0 := by
  cases word with
  | nil => exact absurd rfl hWord.nonempty
  | cons c word => simp [find?]

/- There is room for a text where it is found. -/
theorem add_length_le_of_find?
    {needle cs : List Char}
    {start : Nat}
    (hFind : find? needle cs = some start)
    (hNonempty : needle ≠ []) :
    start + needle.length ≤ cs.length := by
  have hPrefix :=
    List.isPrefixOf_iff_prefix.mp
      (isPrefixOf_drop_of_find? hFind)
  have hLength := hPrefix.length_le
  have hPos := List.length_pos_iff.mpr hNonempty
  rw [List.length_drop] at hLength
  omega

end Text

end LamLang

------------------------------------------------------------
-- The First Lexeme With A Word
------------------------------------------------------------

namespace LamLang

namespace Lexeme

variable {word cs before : List Char}
variable {lexemes : List Lexeme} {start : Nat}

/-
  A place in the first lexeme that holds a word: the first
  place where the word stands in it.
-/
def FirstAt
    (word : List Char)
    (lexemes : List Lexeme)
    (start : Nat) : Prop :=
  ∃ front lexeme back inner,
    lexemes = front ++ lexeme :: back ∧
      (∀ other ∈ front, ¬ word <:+: other.source) ∧
      Text.find? word lexeme.source = some inner ∧
      start = (front.flatMap source).length + inner

theorem firstAt_of_some
    {lexeme : Lexeme}
    {inner : Nat}
    (hInner : Text.find? word lexeme.source = some inner) :
    FirstAt word (lexeme :: lexemes) start ↔
      start = inner := by
  constructor
  · rintro ⟨front, other, back, place, hSplit, hNone, hFind,
      rfl⟩
    cases front with
    | nil =>
        cases hSplit
        rw [hInner] at hFind
        cases hFind
        simp
    | cons first front =>
        cases hSplit
        have hHolds : word <:+: lexeme.source :=
          Text.find?_isSome_iff.mp (by simp [hInner])
        exact absurd hHolds (hNone lexeme (by simp))
  · rintro rfl
    exact
      ⟨[], lexeme, lexemes, start, rfl, by simp, hInner,
        by simp⟩

theorem firstAt_of_none
    {lexeme : Lexeme}
    (hNone : Text.find? word lexeme.source = none) :
    FirstAt word (lexeme :: lexemes) start ↔
      ∃ later,
        FirstAt word lexemes later ∧
          start = lexeme.source.length + later := by
  have hFree : ¬ word <:+: lexeme.source := by
    rw [← Text.find?_isSome_iff, hNone]
    simp
  constructor
  · rintro ⟨front, other, back, inner, hSplit, hFront, hFind,
      rfl⟩
    cases front with
    | nil =>
        cases hSplit
        rw [hNone] at hFind
        cases hFind
    | cons first front =>
        cases hSplit
        refine
          ⟨(front.flatMap source).length + inner,
            ⟨front, other, back, inner, rfl, ?_, hFind, rfl⟩,
            ?_⟩
        · intro next hMem
          exact hFront next (by simp [hMem])
        · rw [List.flatMap_cons, List.length_append]
          omega
  · rintro ⟨_, ⟨front, other, back, inner, rfl, hFront,
      hFind, rfl⟩, rfl⟩
    refine
      ⟨lexeme :: front, other, back, inner, rfl, ?_, hFind,
        ?_⟩
    · intro next hMem
      rcases List.mem_cons.mp hMem with rfl | hLater
      · exact hFree
      · exact hFront next hLater
    · rw [List.flatMap_cons, List.length_append]
      omega

/- A word is found in the first lexeme that holds it. -/
theorem find?_eq_some_iff
    (hWord : IsAtom word)
    (hCuts : Cuts before lexemes cs) :
    Text.find? word cs = some start ↔
      FirstAt word lexemes start := by
  induction lexemes generalizing before cs start with
  | nil =>
      rw [← hCuts.whole]
      constructor
      · intro hFind
        simp [Text.find?, hWord.nonempty] at hFind
      · rintro ⟨front, lexeme, back, inner, hSplit, -⟩
        simp at hSplit
  | cons lexeme lexemes ih =>
      rcases cuts_cons_iff.mp hCuts with
        ⟨after, rfl, hStands, hRest⟩
      rw [Text.find?_append hWord hStands.meets]
      cases hInner : Text.find? word lexeme.source with
      | some inner =>
          rw [firstAt_of_some hInner, Option.some_or]
          simp [eq_comm]
      | none =>
          simp only [firstAt_of_none hInner, ← ih hRest]
          simp [eq_comm]

/- The lexeme that starts at a column. -/
def startingAt? : List Lexeme → Nat → Option Lexeme
| [], _ => none
| lexeme :: rest, column =>
    if column = 0 then
      some lexeme
    else if lexeme.source.length ≤ column then
      startingAt? rest (column - lexeme.source.length)
    else
      none

theorem startingAt?_eq_some_iff
    {lexeme : Lexeme}
    (hSources : ∀ other ∈ lexemes, other.source ≠ []) :
    startingAt? lexemes start = some lexeme ↔
      ∃ front back,
        lexemes = front ++ lexeme :: back ∧
          start = (front.flatMap source).length := by
  induction lexemes generalizing start with
  | nil => simp [startingAt?]
  | cons first lexemes ih =>
      have hPos : 0 < first.source.length :=
        List.length_pos_iff.mpr (hSources first (by simp))
      have hLater :
          ∀ other ∈ lexemes, other.source ≠ [] :=
        fun other hMem => hSources other (by simp [hMem])
      rw [startingAt?]
      constructor
      · intro hFound
        split at hFound
        · cases hFound
          exact ⟨[], lexemes, rfl, by simpa⟩
        · split at hFound
          · rcases (ih hLater).mp hFound with
              ⟨front, back, rfl, hStart⟩
            refine ⟨first :: front, back, rfl, ?_⟩
            rw [List.flatMap_cons, List.length_append]
            omega
          · cases hFound
      · rintro ⟨front, back, hSplit, hStart⟩
        cases front with
        | nil =>
            cases hSplit
            rw [if_pos (by simpa using hStart)]
        | cons other front =>
            cases hSplit
            rw [List.flatMap_cons, List.length_append]
              at hStart
            rw [if_neg (by omega), if_pos (by omega),
              ih hLater]
            exact ⟨front, back, rfl, by omega⟩

/- A word is an atom, and no lexeme before the atom has it. -/
def Leads
    (word : List Char)
    (lexemes : List Lexeme) : Prop :=
  ∃ front back,
    lexemes = front ++ .atom word :: back ∧
      ∀ other ∈ front, ¬ word <:+: other.source

/- A word stands first in an atom of its own if it leads. -/
theorem FirstAt.startingAt?_iff
    (hWord : IsAtom word)
    (hCuts : Cuts before lexemes cs)
    (hFirst : FirstAt word lexemes start) :
    startingAt? lexemes start = some (.atom word) ↔
      Leads word lexemes := by
  have hFind := (find?_eq_some_iff hWord hCuts).mpr hFirst
  rw [startingAt?_eq_some_iff fun _ => hCuts.source_ne_nil]
  constructor
  · rintro ⟨front, back, hSplit, hStart⟩
    refine ⟨front, back, hSplit, ?_⟩
    rcases hFirst with
      ⟨others, lexeme, rest, inner, hAgain, hOthers, hInner,
        rfl⟩
    -- The first lexeme with the word is not behind the word.
    rcases List.append_eq_append_iff.mp
        (hSplit.symm.trans hAgain) with
      ⟨more, rfl, -⟩ | ⟨more, rfl, hRest⟩
    · intro other hMem
      exact hOthers other (by simp [hMem])
    · cases more with
      | nil => simpa using hOthers
      | cons first more =>
          -- It is not before the word, since it has room.
          cases hRest
          have hRoom :=
            Text.add_length_le_of_find? hInner hWord.nonempty
          have hPos :=
            List.length_pos_iff.mpr hWord.nonempty
          simp only [List.flatMap_append, List.flatMap_cons,
            List.length_append] at hStart
          omega
  · rintro ⟨front, back, hSplit, hFront⟩
    have hHere : FirstAt word lexemes _ :=
      ⟨front, .atom word, back, 0, hSplit, hFront,
        Text.find?_self hWord, rfl⟩
    have hSame :=
      (find?_eq_some_iff hWord hCuts).mpr hHere
    rw [hFind] at hSame
    cases hSame
    exact ⟨front, back, hSplit, rfl⟩

end Lexeme

end LamLang

------------------------------------------------------------
-- Lines Of Terms
------------------------------------------------------------

namespace LamLang

namespace Lexeme

/-
  A text that is cut into these lexemes, whatever follows it
  without going on with the last of them.
-/
def CutsAs
    (cs : List Char)
    (lexemes : List Lexeme) : Prop :=
  ∀ rest, Delimits rest →
    scan (cs ++ rest) = lexemes ++ scan rest

theorem cutsAs_nil : CutsAs [] [] := by
  intro rest _
  rfl

theorem cutsAs_atom
    {word : List Char}
    (hAtom : IsAtom word) :
    CutsAs word [.atom word] := by
  intro rest hRest
  exact scan_atom hAtom hRest

theorem cutsAs_text
    {content : List Char}
    (hContent : mark ∉ content) :
    CutsAs (mark :: content ++ [mark]) [.text content] := by
  intro rest _
  rw [List.append_assoc, List.singleton_append]
  exact scan_text hContent rest

theorem CutsAs.append
    {front back : List Char}
    {lexemes others : List Lexeme}
    (hFront : CutsAs front lexemes)
    (hBack : CutsAs back others) :
    CutsAs (front ++ ' ' :: back)
      (lexemes ++ .blank ' ' :: others) := by
  intro rest hRest
  have hSpace : Delimits (' ' :: (back ++ rest)) :=
    Datum.delimits_of_endsAtom (by decide) _
  rw [List.append_assoc, List.cons_append, hFront _ hSpace,
    scan_blank Text.isBlank_space, hBack rest hRest]
  simp

theorem CutsAs.enclose
    {cs : List Char}
    {lexemes : List Lexeme}
    (hInner : CutsAs cs lexemes) :
    CutsAs ('(' :: cs ++ [')'])
      (.lparen :: lexemes ++ [.rparen]) := by
  intro rest _
  have hClose : Delimits (')' :: rest) :=
    Datum.delimits_of_endsAtom (by decide) rest
  rw [List.cons_append, List.cons_append, scan_lparen,
    List.append_assoc, List.singleton_append,
    hInner _ hClose, scan_rparen]
  simp

theorem CutsAs.scan_eq
    {cs : List Char}
    {lexemes : List Lexeme}
    (hCuts : CutsAs cs lexemes) :
    scan cs = lexemes := by
  have hAll := hCuts [] nofun
  rw [List.append_nil] at hAll
  rw [hAll]
  exact List.append_nil lexemes

/- The lexemes that are complete before the line ends. -/
def Closed : Lexeme → Prop
| .comment _ => False
| .unclosed _ => False
| _ => True

end Lexeme

namespace Datum

open Lexeme (CutsAs)

/-
  The line of a term and its lexemes, among which there is
  every symbol of the term.
-/
structure WrittenAs
    (term : Datum)
    (line : String)
    (lexemes : List Lexeme) :
    Prop where
  written : term.write = .ok line
  cuts : CutsAs line.toList lexemes
  closed : ∀ lexeme ∈ lexemes, lexeme.Closed
  symbols :
    ∀ name, (Datum.symbol name).Within term →
      .atom name.toList ∈ lexemes

/- A leaf is written as one lexeme. -/
theorem writtenAs_leaf
    {leaf : Datum}
    (hLeaf : leaf.items? = none)
    {line : String}
    (hLine : leaf.write = .ok line)
    {lexeme : Lexeme}
    (hCuts : CutsAs line.toList [lexeme])
    (hClosed : lexeme.Closed)
    (hSymbol :
      ∀ name, leaf = .symbol name →
        lexeme = .atom name.toList) :
    leaf.WrittenAs line [lexeme] where
  written := hLine
  cuts := hCuts
  closed := by simpa using hClosed
  symbols := by
    intro name hName
    rw [hSymbol name (hName.eq_of_leaf hLeaf).symm]
    exact List.mem_singleton.mpr rfl

theorem writtenAs_atom
    {leaf : Datum}
    (hLeaf : leaf.items? = none)
    {line : String}
    (hLine : leaf.write = .ok line)
    (hAtom : Lexeme.IsAtom line.toList)
    (hSymbol : ∀ name, leaf = .symbol name → line = name) :
    leaf.WrittenAs line [.atom line.toList] := by
  refine
    writtenAs_leaf hLeaf hLine (Lexeme.cutsAs_atom hAtom)
      trivial ?_
  intro name hName
  rw [hSymbol name hName]

theorem Readable.exists_writtenAs
    {leaf : Datum}
    (hLeaf : leaf.items? = none)
    (hReadable : leaf.Readable) :
    ∃ line lexemes, leaf.WrittenAs line lexemes := by
  cases hReadable with
  | @num n hLegible =>
      rcases Number.exists_spelling hLegible with
        ⟨spelling, hText, -⟩
      have hAtom := spelling.isAtom_chars
      rw [← String.toList_ofList (l := spelling.chars)]
        at hAtom
      refine
        ⟨_, _, writtenAs_atom rfl (by rw [write, hText])
          hAtom ?_⟩
      rintro _ ⟨⟩
  | @text s hText =>
      have hCuts := Lexeme.cutsAs_text hText
      rw [← toList_quoted] at hCuts
      refine
        ⟨_, _, writtenAs_leaf rfl (by rw [write]) hCuts
          trivial ?_⟩
      rintro _ ⟨⟩
  | @symbol name hAtom hName =>
      refine
        ⟨name, _, writtenAs_atom rfl (by rw [write]) hAtom
          ?_⟩
      rintro _ ⟨⟩
      rfl
  | items hItems _ =>
      rw [hLeaf] at hItems
      cases hItems

/- Items are written in turn, with spaces between them. -/
theorem exists_writtenAs_items
    {items : List Datum}
    (hItems :
      ∀ item ∈ items,
        ∃ line lexemes, item.WrittenAs line lexemes) :
    ∃ texts lexemes,
      items.mapM write = .ok texts ∧
        CutsAs (" ".intercalate texts).toList lexemes ∧
        (∀ lexeme ∈ lexemes, lexeme.Closed) ∧
        ∀ item ∈ items, ∀ name,
          (Datum.symbol name).Within item →
            .atom name.toList ∈ lexemes := by
  induction items with
  | nil =>
      exact
        ⟨[], [], rfl, Lexeme.cutsAs_nil, by simp, by simp⟩
  | cons item items ih =>
      rcases hItems item (by simp) with
        ⟨text, first, hText, hCuts, hClosed, hSymbols⟩
      rcases ih fun other hMem =>
          hItems other (by simp [hMem]) with
        ⟨texts, others, hTexts, hRest, hOthers, hLater⟩
      have hWritten :
          (item :: items).mapM write =
            .ok (text :: texts) := by
        rw [List.mapM_cons, hText, hTexts]
        rfl
      cases texts with
      | nil =>
          have hNone : items = [] := by
            apply List.eq_nil_iff_forall_not_mem.mpr
            intro other hMem
            rcases exists_mem_of_mapM_ok hTexts hMem with
              ⟨result, hResult, -⟩
            cases hResult
          subst hNone
          refine ⟨[text], first, hWritten, ?_, hClosed, ?_⟩
          · simpa using hCuts
          · simpa using hSymbols
      | cons next texts =>
          refine
            ⟨_, first ++ .blank ' ' :: others, hWritten, ?_,
              ?_, ?_⟩
          · rw [String.intercalate_cons_cons,
              String.toList_append, String.toList_append,
              List.append_assoc]
            exact hCuts.append hRest
          · intro lexeme hMem
            rw [List.mem_append, List.mem_cons] at hMem
            rcases hMem with hFirst | rfl | hOther
            · exact hClosed lexeme hFirst
            · trivial
            · exact hOthers lexeme hOther
          · intro other hMem name hName
            rw [List.mem_append, List.mem_cons]
            rcases List.mem_cons.mp hMem with rfl | hThere
            · exact .inl (hSymbols name hName)
            · exact
                .inr (.inr (hLater other hThere name hName))

theorem exists_writtenAs_list
    {items : List Datum}
    (hItems :
      ∀ item ∈ items,
        ∃ line lexemes, item.WrittenAs line lexemes) :
    ∃ line lexemes,
      (Datum.list items).WrittenAs line lexemes := by
  rcases exists_writtenAs_items hItems with
    ⟨texts, lexemes, hTexts, hCuts, hClosed, hSymbols⟩
  refine
    ⟨_, .lparen :: lexemes ++ [.rparen],
      write_of_items? rfl hTexts, ?_, ?_, ?_⟩
  · rw [String.toList_append, String.toList_append]
    exact hCuts.enclose
  · intro lexeme hMem
    rw [List.cons_append, List.mem_cons, List.mem_append,
      List.mem_singleton] at hMem
    rcases hMem with rfl | hInner | rfl
    · trivial
    · exact hClosed lexeme hInner
    · trivial
  · intro name hName
    cases hName with
    | item hInner hMem hPart =>
        cases hInner
        have hAtom := hSymbols _ hMem name hPart
        simp [hAtom]

/- A term that was read has a line with all its symbols. -/
theorem IsRead.exists_writtenAs
    {term : Datum}
    (hRead : term.IsRead) :
    ∃ line lexemes, term.WrittenAs line lexemes := by
  apply hRead.of_leaves
  · intro items hItems
    exact exists_writtenAs_list hItems
  · intro leaf hLeaf hReadable
    exact hReadable.exists_writtenAs hLeaf
  · intro negative
    cases negative
    · have hAtom : Lexeme.IsAtom "inf".toList :=
        Lexeme.isAtom_of_all (by decide) (by decide)
          (by decide)
      exact ⟨"inf", _, writtenAs_atom rfl rfl hAtom nofun⟩
    · have hAtom : Lexeme.IsAtom "-inf".toList :=
        Lexeme.isAtom_of_all (by decide) (by decide)
          (by decide)
      exact ⟨"-inf", _, writtenAs_atom rfl rfl hAtom nofun⟩

/- A name that is found unbound is a symbol of the term. -/
theorem symbol_within_of_unbound
    {term : Datum}
    {depth : Nat}
    {name : String}
    (hUnbound :
      term.meaning depth =
        .error (.cause (.unbound name))) :
    (Datum.symbol name).Within term := by
  rcases meaning_eq_error hUnbound nofun with
    hRefused | ⟨program, hParsed, hFails⟩
  · have hOther :
        FailsOnly (· ≠ .cause (.unbound name))
          (Expr.ofDatum term :
            Except Failure (Expr Empty)) := by
      apply Expr.ofDatum_failsOnly
      · rintro cause hKind ⟨⟩
        cases hKind
      · intro n _
        apply Number.text_failsOnly
        intro event _
        exact nofun
    exact absurd rfl (hOther _ hRefused)
  · have hOutcome :
        Call.outcome ⟨depth, program, Env.top⟩ =
          .error (.cause (.unbound name)) := hFails
    rcases Call.reaches_unbound hOutcome with
      ⟨last, hReach, hNode, -⟩
    have hLast :=
      opsIn_invariant.reaches (opsIn_program hParsed depth)
        hReach
    apply hLast.node name
    rw [hNode]
    exact Expr.mentions_ident name

end Datum

/- No word stands in a character that ends atoms. -/
theorem Lexeme.IsAtom.not_infix_singleton
    {word : List Char}
    (hWord : IsAtom word)
    {c : Char}
    (hEnds : endsAtom c = true) :
    ¬ word <:+: [c] := by
  intro hInfix
  rcases List.exists_mem_of_ne_nil word hWord.nonempty with
    ⟨d, hMem⟩
  have hSame := List.mem_singleton.mp (hInfix.subset hMem)
  have hInner := hWord.inner d hMem
  rw [hSame, hEnds] at hInner
  cases hInner

/- Only an atom or a text can hold a word. -/
theorem Lexeme.Closed.holder
    {lexeme : Lexeme}
    (hClosed : lexeme.Closed)
    (hValid : lexeme.Valid)
    {word : List Char}
    (hWord : IsAtom word)
    (hHolds : word <:+: lexeme.source) :
    ∃ content,
      lexeme = .atom content ∨ lexeme = .text content := by
  cases lexeme with
  | blank c =>
      have hBlank : Text.isBlank c = true := hValid
      have hEnds : endsAtom c = true := by
        simp [endsAtom, hBlank]
      exact absurd hHolds (hWord.not_infix_singleton hEnds)
  | lparen =>
      have hEnds : endsAtom '(' = true := by decide
      exact absurd hHolds (hWord.not_infix_singleton hEnds)
  | rparen =>
      have hEnds : endsAtom ')' = true := by decide
      exact absurd hHolds (hWord.not_infix_singleton hEnds)
  | text content => exact ⟨content, .inr rfl⟩
  | atom content => exact ⟨content, .inl rfl⟩
  | unclosed content => exact hClosed.elim
  | comment content => exact hClosed.elim

end LamLang

------------------------------------------------------------
-- Carets Under Names
------------------------------------------------------------

namespace LamLang

open Lexeme (scan startingAt? FirstAt Leads)

/-
  If a term that was read looks up an unbound name, the name
  is an atom of its line, and the pointer marks the name's
  letters in the first lexeme that holds them, which is an
  atom or a text.  The pointer marks the identifier itself,
  as a whole lexeme, if and only if no lexeme before it
  holds the name, and so it does whenever the name stands
  nowhere in other atoms and in texts.  The pointer is the
  line with the letters painted, and below them a caret with
  a tail, the whole as long as the name.
-/
theorem carets_mark_first_holder
    (source : String)
    (term : Datum)
    (depth : Nat)
    (name : String)
    (hSource : Datum.ofSource source = .ok term)
    (hUnbound :
      term.meaning depth =
        .error (.cause (.unbound name))) :
    ∃ line start,
      term.write = .ok line ∧
        .atom name.toList ∈ scan line.toList ∧
        (∀ colour hue,
          (Cause.unbound name).fault.pointer? colour hue
              line =
            some
              ((Cause.unbound name).fault.pointerAt colour
                hue line start)) ∧
        (line.toList.drop start).take name.toList.length =
          name.toList ∧
        (∀ colour,
          let marked := fun (s : String) =>
            if colour then "\x1b[1m\x1b[31m" ++ s ++ "\x1b[0m"
            else s
          (Cause.unbound name).fault.pointer? colour .red
              line =
            some
              ("  " ++
                String.ofList (line.toList.take start) ++
                marked name ++
                String.ofList
                  (line.toList.drop
                    (start + name.toList.length)) ++
                "\n" ++ "  " ++
                String.ofList (List.replicate start ' ') ++
                marked
                  (String.ofList
                    ('^' ::
                      List.replicate
                        (name.toList.length - 1) '~')))) ∧
        FirstAt name.toList (scan line.toList) start ∧
        (∀ lexeme ∈ scan line.toList,
          name.toList <:+: lexeme.source →
            ∃ content,
              lexeme = .atom content ∨
                lexeme = .text content) ∧
        (startingAt? (scan line.toList) start =
            some (.atom name.toList) ↔
          Leads name.toList (scan line.toList)) ∧
        ((∀ lexeme ∈ scan line.toList,
          name.toList <:+: lexeme.source →
            lexeme = .atom name.toList) →
          startingAt? (scan line.toList) start =
            some (.atom name.toList)) := by
  have hRead : term.IsRead :=
    ⟨source, [term], Datum.ofSource_eq_ok_iff.mp hSource,
      by simp⟩
  have hSymbol := Datum.symbol_within_of_unbound hUnbound
  rcases hRead.exists_writtenAs with
    ⟨line, lexemes, hLine, hAs, hClosed, hSymbols⟩
  have hScan := hAs.scan_eq
  subst hScan
  have hAtom := hSymbols name hSymbol
  have hWord : Lexeme.IsAtom name.toList :=
    Lexeme.scan_valid line.toList _ hAtom
  have hCuts :=
    Lexeme.scan_eq_iff.mp (Eq.refl (scan line.toList))
  rcases hRead.infix_of_shows hLine
      (Datum.shows_symbol hSymbol) with
    ⟨hNonempty, hInfix⟩
  rcases Option.isSome_iff_exists.mp
      (Text.find?_isSome_iff.mpr hInfix) with
    ⟨start, hFind⟩
  have hFirst :=
    (Lexeme.find?_eq_some_iff hWord hCuts).mp hFind
  have hMarks := hFirst.startingAt?_iff hWord hCuts
  have hSpan :
      (line.toList.drop start).take name.toList.length =
        name.toList := by
    have hPrefix :=
      List.isPrefixOf_iff_prefix.mp
        (Text.isPrefixOf_drop_of_find? hFind)
    exact (List.prefix_iff_eq_take.mp hPrefix).symm
  have hPointer (colour : Bool) (hue : Hue) :
      (Cause.unbound name).fault.pointer? colour hue line =
        some
          ((Cause.unbound name).fault.pointerAt colour hue
            line start) := by
    apply Fault.pointer?_of_find?
    · exact hNonempty
    · exact hFind
  refine
    ⟨line, start, hLine, hAtom, hPointer, hSpan, ?text,
      hFirst, ?holders, hMarks, ?alone⟩
  case text =>
    intro colour
    rw [hPointer, Fault.pointerAt_eq _ colour]
    · rfl
    · exact hSpan
  case holders =>
    intro lexeme hMem
    have hValid :=
      Lexeme.scan_valid line.toList lexeme hMem
    exact (hClosed lexeme hMem).holder hValid hWord
  case alone =>
    intro hOnly
    rcases List.eq_append_cons_of_mem hAtom with
      ⟨front, back, hSplit, hBefore⟩
    apply hMarks.mpr
    refine ⟨front, back, hSplit, ?_⟩
    intro other hMem hHolds
    have hOther : other ∈ scan line.toList := by
      rw [hSplit]
      simp [hMem]
    rw [hOnly other hOther hHolds] at hMem
    exact hBefore hMem

/- A name that stands in a text behind it. -/
def Datum.leadingSource : String :=
  "((lam (y) (y x)) \"xy\")"

def Datum.leading : Datum :=
  .list
    [.list
      [.symbol "lam", .list [.symbol "y"],
        .list [.symbol "y", .symbol "x"]],
     .text "xy"]

theorem carets_mark_first_holder_leading :
    Datum.ofSource Datum.leadingSource =
        .ok Datum.leading ∧
      Datum.leading.meaning 4 =
        .error (.cause (.unbound "x")) ∧
      ∃ start,
        FirstAt ['x'] (scan Datum.leadingSource.toList)
            start ∧
          startingAt? (scan Datum.leadingSource.toList)
              start =
            some (.atom ['x']) ∧
          (Cause.unbound "x").fault.pointer? false .red
              Datum.leadingSource =
            some
              ("  " ++
                String.ofList
                  (Datum.leadingSource.toList.take start) ++
                "x" ++
                String.ofList
                  (Datum.leadingSource.toList.drop
                    (start + 1)) ++
                "\n" ++ "  " ++
                String.ofList (List.replicate start ' ') ++
                "^") := by
  have hSource :
      Datum.ofSource Datum.leadingSource =
        .ok Datum.leading :=
    rfl
  have hUnbound :
      Datum.leading.meaning 4 =
        .error (.cause (.unbound "x")) :=
    rfl
  have hWritten :
      Datum.leading.write = .ok Datum.leadingSource :=
    rfl
  have hLeads :
      Leads ['x'] (scan Datum.leadingSource.toList) := by
    refine
      ⟨(scan Datum.leadingSource.toList).take 11,
        (scan Datum.leadingSource.toList).drop 12, ?_, ?_⟩
    · decide +kernel
    · decide +kernel
  refine ⟨hSource, hUnbound, ?_⟩
  rcases
    carets_mark_first_holder _ _ 4 "x" hSource hUnbound with
    ⟨line, start, hLine, -, -, -, hText, hFirst, -, hMarks,
      -⟩
  cases hWritten.symm.trans hLine
  exact ⟨start, hFirst, hMarks.mpr hLeads, hText false⟩

/- A text that holds the name, before the identifier. -/
def Datum.shadedSource : String := "(+ \"x\" x)"

def Datum.shaded : Datum :=
  .list [.symbol "+", .text "x", .symbol "x"]

theorem caret_inside_text :
    ¬ ∀ (source : String) (term : Datum) (depth : Nat)
        (name : String),
      Datum.ofSource source = .ok term →
      term.meaning depth =
          .error (.cause (.unbound name)) →
        ∃ line start,
          term.write = .ok line ∧
            (Cause.unbound name).fault.place? line =
              some start ∧
            startingAt? (scan line.toList) start =
              some (.atom name.toList) := by
  intro hAll
  have hSource :
      Datum.ofSource Datum.shadedSource =
        .ok Datum.shaded :=
    rfl
  have hUnbound :
      Datum.shaded.meaning 3 =
        .error (.cause (.unbound "x")) :=
    rfl
  have hWritten :
      Datum.shaded.write = .ok Datum.shadedSource :=
    rfl
  have hPlace :
      (Cause.unbound "x").fault.place? Datum.shadedSource =
        some 4 := by
    decide +kernel
  have hOther :
      startingAt? (scan Datum.shadedSource.toList) 4 ≠
        some (.atom "x".toList) := by
    decide +kernel
  rcases hAll _ _ 3 "x" hSource hUnbound with
    ⟨line, start, hLine, hStart, hMarks⟩
  cases hWritten.symm.trans hLine
  rw [hPlace] at hStart
  cases hStart
  exact hOther hMarks

end LamLang
