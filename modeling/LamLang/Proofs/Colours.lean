import LamLang.Proofs.Wording
import LamLang.Report.Reporter
import Mathlib.Data.List.TakeWhile

/-
  Colours of reports are decoration only.

  A terminal sequence is an escape character, a bracket,
  digits and the letter m.  If all sequences are erased from
  a painted report, the report without colours is left.  The
  proof relates a painted text to the plain one in front of
  any other text, so that the relation is kept by everything
  that reports are put together with.

  Key definitions include:
    * `LamLang.Text.eraseSequences`
    * `LamLang.Text.Clean`
    * `LamLang.Text.Decorates`

  Main statements:
    * `LamLang.Text.eraseFrom_sequence`
    * `LamLang.decorates_paint`
    * `LamLang.Fault.decorates_paintedMessage`
    * `LamLang.Reporter.decorates_report`
    * `LamLang.colours_only_decorate`
-/

------------------------------------------------------------
-- Terminal Sequences
------------------------------------------------------------

namespace LamLang

namespace Text

/- The character that every terminal sequence starts with. -/
def escape : Char := '\x1b'

/-
  The length of the terminal sequence at the front of a
  text, and zero if there is none.
-/
def sequenceLength : List Char → Nat
| first :: second :: rest =>
    let digits := rest.takeWhile Char.isDigit
    if first = escape ∧ second = '[' ∧ digits ≠ [] ∧
        (rest.drop digits.length).head? = some 'm' then
      digits.length + 3
    else
      0
| _ => 0

/-
  Erase all terminal sequences, where some characters still
  belong to the last one.
-/
def eraseFrom :
    Nat → List Char → List Char
| _, [] => []
| skip + 1, _ :: rest => eraseFrom skip rest
| 0, c :: rest =>
    match sequenceLength (c :: rest) with
    | 0 => c :: eraseFrom 0 rest
    | skip + 1 => eraseFrom skip rest

/- A text without its terminal sequences. -/
def eraseSequences
    (s : String) :
    String :=
  String.ofList (eraseFrom 0 s.toList)

/- Sequences need a digit and an end. -/
example :
    eraseSequences "\x1b[31ma[1m\x1b[0m\x1b[m\x1b[2" =
      "a[1m\x1b[m\x1b[2" := by
  decide

/- A text in which no terminal sequence starts. -/
def Clean
    (s : String) : Prop :=
  escape ∉ s.toList

instance
    (s : String) :
    Decidable (Clean s) :=
  inferInstanceAs (Decidable (escape ∉ s.toList))

theorem eraseFrom_cons
    {c : Char}
    (hPlain : c ≠ escape)
    (rest : List Char) :
    eraseFrom 0 (c :: rest) = c :: eraseFrom 0 rest := by
  have hNone : sequenceLength (c :: rest) = 0 := by
    cases rest <;> simp [sequenceLength, hPlain]
  rw [eraseFrom, hNone]

/- Nothing is erased before the first escape. -/
theorem eraseFrom_clean
    {cs : List Char}
    (hClean : escape ∉ cs)
    (rest : List Char) :
    eraseFrom 0 (cs ++ rest) = cs ++ eraseFrom 0 rest := by
  induction cs with
  | nil => rfl
  | cons c cs ih =>
      rw [List.mem_cons, not_or] at hClean
      rw [List.cons_append,
        eraseFrom_cons (Ne.symm hClean.1), ih hClean.2]
      rfl

/- As many characters as are skipped leave no trace. -/
theorem eraseFrom_append
    (skipped rest : List Char) :
    eraseFrom skipped.length (skipped ++ rest) =
      eraseFrom 0 rest := by
  induction skipped with
  | nil => rfl
  | cons c skipped ih => exact ih

theorem sequenceLength_eq
    {digits : List Char}
    (hDigits : ∀ c ∈ digits, c.isDigit = true)
    (hSome : digits ≠ [])
    (rest : List Char) :
    sequenceLength
        (escape :: '[' :: (digits ++ 'm' :: rest)) =
      digits.length + 3 := by
  have hTaken :
      (digits ++ 'm' :: rest).takeWhile Char.isDigit =
        digits := by
    rw [List.takeWhile_append_of_pos hDigits]
    simp
  simp [sequenceLength, hTaken, hSome]

/- A sequence is erased, whatever stands behind it. -/
theorem eraseFrom_sequence
    {digits : List Char}
    (hDigits : ∀ c ∈ digits, c.isDigit = true)
    (hSome : digits ≠ [])
    (rest : List Char) :
    eraseFrom 0
        (escape :: '[' :: (digits ++ 'm' :: rest)) =
      eraseFrom 0 rest := by
  have hSkipped :=
    eraseFrom_append ('[' :: (digits ++ ['m'])) rest
  rw [eraseFrom, sequenceLength_eq hDigits hSome]
  simpa using hSkipped

end Text

end LamLang

------------------------------------------------------------
-- Decorated Texts
------------------------------------------------------------

namespace LamLang

namespace Text

/-
  Erasing the sequences of the first text leaves the second,
  also in front of any other text.
-/
def Decorates
    (painted plain : String) : Prop :=
  ∀ rest,
    eraseFrom 0 (painted.toList ++ rest) =
      plain.toList ++ eraseFrom 0 rest

theorem Clean.decorates
    {s : String}
    (hClean : Clean s) :
    Decorates s s :=
  eraseFrom_clean hClean

theorem decorates_empty : Decorates "" "" := by
  intro rest
  rfl

theorem decorates_sequence
    {s : String}
    (digits : List Char)
    (hSequence :
      s.toList = escape :: '[' :: (digits ++ ['m']))
    (hDigits : digits.all Char.isDigit = true)
    (hSome : digits ≠ []) :
    Decorates s "" := by
  intro rest
  have hErased :=
    eraseFrom_sequence (List.all_eq_true.mp hDigits) hSome
      rest
  simpa [hSequence] using hErased

namespace Decorates

theorem eraseSequences_eq
    {painted plain : String}
    (hDecorates : Decorates painted plain) :
    eraseSequences painted = plain := by
  have hAlone := hDecorates []
  rw [List.append_nil] at hAlone
  rw [eraseSequences, hAlone]
  simp [eraseFrom]

theorem append
    {painted plain painted' plain' : String}
    (hFront : Decorates painted plain)
    (hBack : Decorates painted' plain') :
    Decorates (painted ++ painted') (plain ++ plain') := by
  intro rest
  rw [String.toList_append, List.append_assoc, hFront,
    hBack, String.toList_append, List.append_assoc]

theorem join
    {β : Type}
    {painted plain : β → String}
    {items : List β}
    (hItems :
      ∀ item ∈ items,
        Decorates (painted item) (plain item)) :
    Decorates (String.join (items.map painted))
      (String.join (items.map plain)) := by
  induction items with
  | nil => exact decorates_empty
  | cons item items ih =>
      rw [List.forall_mem_cons] at hItems
      simp only [List.map_cons, String.join_cons]
      exact hItems.1.append (ih hItems.2)

end Decorates

theorem clean_newline : Clean "\n" := by
  decide

namespace Clean

theorem append
    {s t : String}
    (hFront : Clean s)
    (hBack : Clean t) :
    Clean (s ++ t) := by
  rw [Clean, String.toList_append, List.mem_append, not_or]
  exact ⟨hFront, hBack⟩

/- What is cut out of a clean text is clean. -/
theorem of_subset
    {s : String}
    {cs : List Char}
    (hClean : Clean s)
    (hSubset : cs ⊆ s.toList) :
    Clean (String.ofList cs) := by
  rw [Clean, String.toList_ofList]
  exact fun hMem => hClean (hSubset hMem)

end Clean

end Text

open Text (Clean Decorates)

/- A painted text stands between sequences. -/
theorem decorates_paint
    {s : String}
    (hClean : Clean s)
    (hue : Option Hue) :
    Decorates (paint true hue s) (paint false hue s) := by
  have hBold : Decorates boldStart "" :=
    Text.decorates_sequence ['1'] rfl (by decide) (by decide)
  have hEnd : Decorates paintEnd "" :=
    Text.decorates_sequence ['0'] rfl (by decide) (by decide)
  have hHue :
      Decorates ((hue.map Hue.start).getD "") "" := by
    match hue with
    | none => exact Text.decorates_empty
    | some .red =>
        exact
          Text.decorates_sequence ['3', '1'] rfl (by decide)
            (by decide)
    | some .magenta =>
        exact
          Text.decorates_sequence ['3', '5'] rfl (by decide)
            (by decide)
  have hPainted :=
    ((hBold.append hHue).append hClean.decorates).append hEnd
  simpa [paint] using hPainted

end LamLang

------------------------------------------------------------
-- Decorated Messages
------------------------------------------------------------

namespace LamLang

open Text (Clean Decorates)

namespace Template

/- The texts of a template stand in its written form. -/
theorem clean_of_mem
    {template : Template}
    (hClean : Clean template.source)
    {s : String}
    (hPiece : .text s ∈ template) :
    Clean s := by
  intro hEscape
  apply hClean
  rw [source, String.toList_join, List.mem_flatMap]
  refine ⟨_, List.mem_map_of_mem hPiece, ?_⟩
  rw [pieceSource, String.toList_ofList, List.mem_flatMap]
  refine ⟨_, hEscape, ?_⟩
  unfold sourceChar
  split <;> simp

/- Painted arguments are filled in as the plain ones are. -/
theorem format_decorated
    {args : List String}
    (hArgs : ∀ arg ∈ args, Clean arg)
    {template : Template}
    (hPlain : template.Plain)
    (hTexts : ∀ s, .text s ∈ template → Clean s) :
    (∃ painted plain,
      template.format (args.map (paint true none)) =
          .ok painted ∧
        template.format (args.map (paint false none)) =
          .ok plain ∧ Decorates painted plain) ∨
      ∃ reason,
        template.format (args.map (paint true none)) =
            .error reason ∧
          template.format (args.map (paint false none)) =
            .error reason := by
  have hRelated :
      List.Forall₂ Decorates (args.map (paint true none))
        (args.map (paint false none)) := by
    rw [List.forall₂_map_left_iff, List.forall₂_map_right_iff,
      List.forall₂_same]
    exact fun arg hArg => decorates_paint (hArgs arg hArg) none
  have hAlike :=
    formatFrom_alike Text.decorates_empty
      (fun hFront hBack => hFront.append hBack) hRelated
      template hPlain (fun s hMem => (hTexts s hMem).decorates)
      .undecided
  rw [format, format]
  generalize
    formatFrom (args.map (paint true none)) _ .undecided
      template = painted at hAlike ⊢
  generalize
    formatFrom (args.map (paint false none)) _ .undecided
      template = plain at hAlike ⊢
  cases hAlike with
  | ok hTexts => exact .inl ⟨_, _, rfl, rfl, hTexts⟩
  | error reason => exact .inr ⟨reason, rfl, rfl⟩

end Template

namespace Fault

/-
  A fault with plain holes only, none of whose texts starts
  a sequence.
-/
structure Clean
    (fault : Fault) :
    Prop where
  plain : fault.template.Plain
  template : Text.Clean fault.template.source
  exprs : ∀ expr ∈ fault.exprs, Text.Clean expr

variable {fault : Fault} {line : String}

/- A message is highlighted if it is worded, and so else. -/
theorem highlighted_decorated
    (hFault : fault.Clean) :
    (∃ painted plain,
      fault.highlighted true = .ok painted ∧
        fault.highlighted false = .ok plain ∧
          Decorates painted plain) ∨
      ∃ reason,
        fault.highlighted true = .error reason ∧
          fault.highlighted false = .error reason :=
  Template.format_decorated hFault.exprs hFault.plain
    fun _ => Template.clean_of_mem hFault.template

theorem decorates_paintedMessage
    (hFault : fault.Clean) :
    Decorates (fault.paintedMessage true)
      (fault.paintedMessage false) := by
  rcases highlighted_decorated hFault with
    ⟨painted, plain, hPainted, hPlain, hMessage⟩ |
      ⟨reason, hPainted, hPlain⟩
  · rw [paintedMessage_of_highlighted hPainted,
      paintedMessage_of_highlighted hPlain]
    exact hMessage
  · rw [highlighted] at hPainted hPlain
    rw [paintedMessage, paintedMessage, Template.fill,
      Template.fill, hPainted, hPlain]
    exact Text.decorates_empty

theorem clean_caret
    (length : Nat) :
    Text.Clean (caret length) := by
  rw [Text.Clean, caret, String.toList_ofList,
    List.mem_cons, List.mem_replicate]
  rintro (hCaret | ⟨-, hTail⟩)
  · exact absurd hCaret (by decide)
  · exact absurd hTail (by decide)

theorem clean_spaces
    (count : Nat) :
    Text.Clean (String.ofList (List.replicate count ' ')) := by
  rw [Text.Clean, String.toList_ofList, List.mem_replicate]
  rintro ⟨-, hSpace⟩
  exact absurd hSpace (by decide)

/- The line around the painted text stays as it is. -/
theorem decorates_pointerAt
    (fault : Fault)
    (hue : Hue)
    (hLine : Text.Clean line)
    (start : Nat) :
    Decorates (fault.pointerAt true hue line start)
      (fault.pointerAt false hue line start) := by
  have hMargin : Text.Clean margin := by decide
  have hBefore := hLine.of_subset (List.take_subset start _)
  have hAfter :=
    hLine.of_subset
      (List.drop_subset (start + fault.subject.toList.length)
        _)
  have hSpan :=
    hLine.of_subset
      (List.Subset.trans
        (List.take_subset fault.subject.toList.length _)
        (List.drop_subset start _))
  have hShown :=
    (((hMargin.append hBefore).decorates.append
      (decorates_paint hSpan (some hue))).append
        hAfter.decorates).append
          Text.clean_newline.decorates
  have hIndented :=
    (hShown.append hMargin.decorates).append
      (clean_spaces start).decorates
  exact
    hIndented.append (decorates_paint (clean_caret _) _)

theorem eraseSequences_pointer?
    (fault : Fault)
    (hue : Hue)
    (hLine : Text.Clean line) :
    (fault.pointer? true hue line).map Text.eraseSequences =
      fault.pointer? false hue line := by
  cases hPlace : fault.place? line with
  | none => simp [pointer?, hPlace]
  | some start =>
      have hErased :=
        (fault.decorates_pointerAt hue hLine
          start).eraseSequences_eq
      simp [pointer?, hPlace, hErased]

end Fault

end LamLang

------------------------------------------------------------
-- Decorated Reports
------------------------------------------------------------

namespace LamLang

open Text (Clean Decorates)

namespace Place

theorem line?_of_shown?
    {place : Place}
    {line : String}
    (hShown : place.shown? = some line) :
    place.line? = some line := by
  unfold shown? at hShown
  split at hShown
  · rename_i other hLine
    split at hShown
    · cases hShown
    · rw [hLine, hShown]
  · cases hShown

theorem clean_numberText
    (place : Place) :
    Clean place.numberText := by
  unfold numberText
  split
  · rename_i n hNumber
    rw [Clean, Number.intText, String.toList_ofList,
      List.mem_append, not_or]
    constructor
    · unfold Number.signText
      split <;> decide
    · intro hMem
      have hDigit :=
        Nat.isDigit_of_mem_toDigits (by decide) (by decide)
          hMem
      exact absurd hDigit (by decide)
  · decide

end Place

namespace Places

/- Places none of whose texts starts a sequence. -/
def Clean
    (places : Places) : Prop :=
  ∀ entry ∈ places,
    Text.Clean entry.1 ∧
      ∀ line, entry.2.line? = some line → Text.Clean line

theorem mem_of_current?
    {places : Places}
    {path line : String}
    {place : Place}
    (hCurrent : places.current? = some (path, place, line)) :
    (path, place) ∈ places ∧ place.line? = some line := by
  induction places with
  | nil => cases hCurrent
  | cons entry places ih =>
      rcases entry with ⟨file, first⟩
      rw [current?] at hCurrent
      split at hCurrent
      · rename_i shown hShown
        cases hCurrent
        exact
          ⟨List.mem_cons_self, Place.line?_of_shown? hShown⟩
      · rcases ih hCurrent with ⟨hMem, hLine⟩
        exact ⟨List.mem_cons_of_mem _ hMem, hLine⟩

end Places

namespace Reporter

/- A reporter with colours switched on or off. -/
def painting
    (reporter : Reporter)
    (colour : Bool) :
    Reporter :=
  { reporter with colour }

variable {reporter : Reporter} {fault : Fault}

theorem clean_frameText
    (hPlaces : reporter.places.Clean)
    {entry : String × Place}
    (hEntry : entry ∈ reporter.places) :
    Clean (frameText entry) := by
  rcases hPlaces entry hEntry with ⟨hPath, hLine⟩
  unfold frameText
  split
  · rename_i line hShown
    have hShownLine :=
      hLine line (Place.line?_of_shown? hShown)
    have hNumber := entry.2.clean_numberText
    have hFile : Clean "  File '" := by decide
    have hComma : Clean "', line " := by decide
    have hColon : Clean ":\n    " := by decide
    exact
      ((((((hFile.append hPath).append hComma).append
        hNumber).append hColon).append hShownLine).append
          Text.clean_newline)
  · decide

/-
  Which line is pointed into and where does not depend on
  colours.
-/
theorem decorates_pointerText
    (hPlaces : reporter.places.Clean)
    (hue : Hue)
    (fault : Fault) :
    Decorates
      ((reporter.painting true).pointerText hue fault)
      ((reporter.painting false).pointerText hue fault) := by
  unfold pointerText currentLine? painting
  rcases hCurrent : reporter.places.current? with
    _ | ⟨path, place, line⟩
  · exact Text.decorates_empty
  · rcases Places.mem_of_current? hCurrent with
      ⟨hEntry, hFound⟩
    have hLine := (hPlaces _ hEntry).2 line hFound
    cases hPointed : fault.pointed with
    | false => exact Text.decorates_empty
    | true =>
        simp only [Fault.pointer?]
        cases hPlace : fault.place? line with
        | none => simpa [hPlace] using Text.decorates_empty
        | some start =>
            have hPointer :=
              (fault.decorates_pointerAt hue hLine
                start).append Text.clean_newline.decorates
            simpa [hPlace] using hPointer

theorem decorates_report
    (hPlaces : reporter.places.Clean)
    (hFault : fault.Clean) :
    Decorates
      ((reporter.painting true).report fault)
      ((reporter.painting false).report fault) := by
  have hFrames :
      Decorates (String.join (reporter.places.map frameText))
        (String.join (reporter.places.map frameText)) :=
    .join fun _ hEntry =>
      (clean_frameText hPlaces hEntry).decorates
  have hInternal :
      Decorates
        (if fault.internal then
          paint true (some .red) "[internal] "
        else
          "")
        (if fault.internal then
          paint false (some .red) "[internal] "
        else
          "") := by
    split
    · exact decorates_paint (by decide) _
    · exact Text.decorates_empty
  have hError :
      Decorates (paint true (some .red) "error: ")
        (paint false (some .red) "error: ") :=
    decorates_paint (by decide) _
  have hMessage := Fault.decorates_paintedMessage hFault
  exact
    ((((hFrames.append hInternal).append hError).append
      hMessage).append Text.clean_newline.decorates).append
        (decorates_pointerText hPlaces .red fault)

theorem decorates_warning
    (hPlaces : reporter.places.Clean)
    (hFault : fault.Clean) :
    Decorates
      ((reporter.painting true).warning fault)
      ((reporter.painting false).warning fault) := by
  have hWarning :
      Decorates (paint true (some .magenta) "warning: ")
        (paint false (some .magenta) "warning: ") :=
    decorates_paint (by decide) _
  have hMessage := Fault.decorates_paintedMessage hFault
  refine
    (((Decorates.append ?_ hWarning).append hMessage).append
      Text.clean_newline.decorates).append
        (decorates_pointerText hPlaces .magenta fault)
  simp only [painting]
  rcases hCurrent : reporter.places.current? with
    _ | ⟨path, place, line⟩
  · exact Text.decorates_empty
  · rcases Places.mem_of_current? hCurrent with ⟨hEntry, -⟩
    have hPath := (hPlaces _ hEntry).1
    have hColon : Clean ":" := by decide
    have hSpace : Clean ": " := by decide
    exact
      decorates_paint
        (((hPath.append hColon).append
          place.clean_numberText).append hSpace) none

/- Only what an error prints depends on colours. -/
theorem announce_painting
    (reporter : Reporter)
    {colour : Bool}
    {message : String}
    (hMessage : fault.highlighted colour = .ok message) :
    (reporter.painting colour).announce fault =
      ⟨{ reporter.painting colour with
          places :=
            if reporter.fatal then reporter.places
            else reporter.places.clear },
        (reporter.painting colour).report fault,
        if reporter.fatal then some (.exit (.code 1))
        else none⟩ := by
  cases hFatal : reporter.fatal <;>
    simp [announce, painting, hMessage, hFatal]

theorem announce_painting_of_misfit
    (reporter : Reporter)
    {colour : Bool}
    {reason : Template.Misfit}
    (hReason : fault.highlighted colour = .error reason) :
    (reporter.painting colour).announce fault =
      ⟨reporter.painting colour, "",
        some (.mishap (.misfit reason))⟩ := by
  simp [announce, painting, hReason]

end Reporter

/-
  If no text of a report starts a terminal sequence, then
  erasing all sequences from what is printed in colours
  leaves what is printed without, and nothing else depends
  on colours.  Without them a message is highlighted
  nowhere.
-/
theorem colours_only_decorate
    (reporter : Reporter)
    {fault : Fault}
    {line : String}
    (hPlaces : reporter.places.Clean)
    (hFault : fault.Clean)
    (hLine : Clean line)
    (hue : Hue) :
    (Text.eraseSequences
          ((reporter.painting true).announce fault).printed =
        ((reporter.painting false).announce fault).printed ∧
      ((reporter.painting true).announce fault).escaping =
        ((reporter.painting false).announce fault).escaping ∧
      ((reporter.painting true).announce
          fault).reporter.places =
        ((reporter.painting false).announce
          fault).reporter.places) ∧
    Text.eraseSequences
        ((reporter.painting true).warning fault) =
      (reporter.painting false).warning fault ∧
    (fault.pointer? true hue line).map Text.eraseSequences =
      fault.pointer? false hue line ∧
    Text.eraseSequences (fault.paintedMessage true) =
      fault.paintedMessage false ∧
    fault.paintedMessage false = fault.message ∧
    ((reporter.painting true).warn fault).map
        Text.eraseSequences =
      (reporter.painting false).warn fault ∧
    (fault.highlighted true).map Text.eraseSequences =
      fault.highlighted false ∧
    fault.highlighted false =
      fault.template.format fault.exprs := by
  have hReport :=
    Reporter.decorates_report hPlaces hFault
  have hWarning :=
    Reporter.decorates_warning hPlaces hFault
  have hMessage := Fault.decorates_paintedMessage hFault
  refine
    ⟨?announced, hWarning.eraseSequences_eq,
      fault.eraseSequences_pointer? hue hLine,
      hMessage.eraseSequences_eq, fault.paintedMessage_false,
      ?warned, ?highlighted, fault.highlighted_false⟩
  all_goals
    rcases Fault.highlighted_decorated hFault with
      ⟨painted, plain, hPainted, hPlain, hWorded⟩ |
        ⟨reason, hPainted, hPlain⟩
  case announced.inl =>
    rw [reporter.announce_painting hPainted,
      reporter.announce_painting hPlain]
    exact ⟨hReport.eraseSequences_eq, rfl, rfl⟩
  case announced.inr =>
    rw [reporter.announce_painting_of_misfit hPainted,
      reporter.announce_painting_of_misfit hPlain]
    exact
      ⟨Text.decorates_empty.eraseSequences_eq, rfl, rfl⟩
  case warned.inl =>
    simp only [Reporter.warn, Reporter.painting, hPainted,
      hPlain]
    exact congrArg Except.ok hWarning.eraseSequences_eq
  case warned.inr =>
    simp only [Reporter.warn, Reporter.painting, hPainted,
      hPlain]
    rfl
  case highlighted.inl =>
    rw [hPainted, hPlain]
    exact congrArg Except.ok hWorded.eraseSequences_eq
  case highlighted.inr =>
    rw [hPainted, hPlain]
    rfl

/- A fault whose message has braces around its text. -/
def Fault.braced : Fault where
  kind := .unboundIdentifier
  template :=
    [.text (String.singleton Template.openBrace),
     .nth ['0'],
     .text (String.singleton Template.closeBrace)]
  exprs := ["x"]
  pointed := true
  internal := true

/- A reporter with a line that the fault points into. -/
def Reporter.pointing : Reporter where
  colour := false
  fatal := false
  places :=
    [("a", .idle), ("<in>", ⟨some "(+ x 1)", some 3⟩)]

theorem colours_only_decorate_braced :
    Reporter.pointing.places.Clean ∧
    Fault.braced.Clean ∧
    Clean "(f x)" ∧
    (Reporter.pointing.painting true).report Fault.braced ≠
      (Reporter.pointing.painting false).report
        Fault.braced ∧
    Text.eraseSequences
        ((Reporter.pointing.painting true).announce
          Fault.braced).printed =
      ((Reporter.pointing.painting false).announce
        Fault.braced).printed ∧
    (Fault.braced.pointer? true .red "(f x)").map
        Text.eraseSequences =
      Fault.braced.pointer? false .red "(f x)" := by
  have hPlaces : Reporter.pointing.places.Clean := by
    intro entry hEntry
    rcases List.mem_cons.mp hEntry with rfl | hSecond
    · exact ⟨by decide, nofun⟩
    · cases List.mem_singleton.mp hSecond
      refine ⟨by decide, ?_⟩
      rintro line ⟨⟩
      decide
  have hFault : Fault.braced.Clean :=
    ⟨by decide, by decide, by decide⟩
  have hLine : Clean "(f x)" := by decide
  rcases
    colours_only_decorate Reporter.pointing hPlaces hFault
      hLine .red with
    ⟨⟨hPrinted, -⟩, -, hPointer, -⟩
  exact
    ⟨hPlaces, hFault, hLine, by decide +kernel, hPrinted,
      hPointer⟩

end LamLang
