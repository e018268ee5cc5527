import LamLang.Proofs.Endurance
import Mathlib.Data.List.Induction

/-
  What a reporter does with a failure that reaches it.

  The lines of a report are those registered last in their
  files, and the files stand in the order in which they were
  first registered.  A fault is worded twice, once when it
  is made and once with its texts painted.  The second
  wording can fail in colours, where a painted text is part
  of a specification, and then the failure is lost: nothing
  is printed and another failure takes its place.

  Key definitions include:
    * `LamLang.Failure.Formed`
    * `LamLang.Registration`
    * `LamLang.Registration.frames`
    * `LamLang.Places.frames`

  Main statements:
    * `LamLang.Reporter.places_registered`
    * `LamLang.Reporter.report_eq`
    * `LamLang.failures_leave_settled`
    * `LamLang.report_lost_in_colours`
-/

------------------------------------------------------------
-- Faults That Were Made
------------------------------------------------------------

namespace LamLang

/- A failure that carries no other fault than formed ones. -/
def Failure.Formed
    (failure : Failure) : Prop :=
  ∀ fault, failure.fault? = some fault → fault.Formed

namespace Failure

variable {failure : Failure} {fault : Fault}

/- All failures but a request to exit are reported. -/
theorem exists_reported
    (hExit : ∀ status, failure ≠ .exit status) :
    ∃ fault, failure.reported? = some fault := by
  cases failure with
  | exit status => exact absurd rfl (hExit status)
  | _ => exact ⟨_, rfl⟩

/- The fault that is reported for a failure was made too. -/
theorem Formed.reported
    (hFormed : failure.Formed)
    (hFault : failure.reported? = some fault) :
    fault.Formed := by
  cases failure with
  | cause broken => exact hFormed fault hFault
  | custom own => exact hFormed fault hFault
  | exit status => cases hFault
  | _ =>
      cases hFault
      exact ⟨_, rfl⟩

/- Only the faults that callers make have other holes. -/
theorem plain_of_reported
    (hFault : failure.reported? = some fault)
    (hOwn : ∀ own, failure ≠ .custom own) :
    fault.template.Plain := by
  cases failure with
  | custom own => exact absurd rfl (hOwn own)
  | exit status => cases hFault
  | cause broken =>
      cases hFault
      exact broken.plain_template
  | _ =>
      cases hFault
      exact of_decide_eq_true rfl

theorem internal_of_mishap
    {event : Mishap}
    (hFault : (mishap event).reported? = some fault) :
    fault.internal = true := by
  cases hFault
  rfl

end Failure

end LamLang

------------------------------------------------------------
-- Registered Lines
------------------------------------------------------------

namespace LamLang

/-
  What a reporter is told about a file: that it is there,
  the line being worked on in it, or that there is none any
  more.
-/
inductive Registration where
| file (path : String)
| line (path : String) (line? : Option String)
    (number? : Option Int)
| removal (path : String)
deriving DecidableEq, Repr

namespace Registration

/- The file that a registration is about. -/
def path : Registration → String
| .file path => path
| .line path _ _ => path
| .removal path => path

/- The place in the file after a registration. -/
def place : Registration → Place
| .file _ => .idle
| .line _ line? number? => ⟨line?, number?⟩
| .removal _ => .idle

/- The files of a history, as they first come up in it. -/
def paths
    (history : List Registration) :
    List String :=
  (history.map path).eraseDups

/- The place that the last registration of a file gives. -/
def latest
    (history : List Registration)
    (file : String) :
    Place :=
  match history.reverse.find? (·.path == file) with
  | some registration => registration.place
  | none => .idle

theorem paths_snoc
    (history : List Registration)
    (registration : Registration) :
    paths (history ++ [registration]) =
      if registration.path ∈ paths history then
        paths history
      else
        paths history ++ [registration.path] := by
  by_cases hKnown :
      ∃ other ∈ history, other.path = registration.path <;>
    simp [paths, List.eraseDups_append, List.removeAll,
      List.eraseDups_cons, hKnown]

theorem nodup_paths
    (history : List Registration) :
    (paths history).Nodup := by
  induction history using List.reverseRecOn with
  | nil => exact List.nodup_nil
  | append_singleton history registration ih =>
      rw [paths_snoc]
      split
      · exact ih
      · rename_i hNew
        rw [← List.concat_eq_append]
        exact ih.concat hNew

theorem latest_snoc
    (history : List Registration)
    (registration : Registration)
    (file : String) :
    latest (history ++ [registration]) file =
      if registration.path = file then
        registration.place
      else
        latest history file := by
  by_cases hFile : registration.path = file <;>
    simp [latest, hFile]

end Registration

namespace Places

/-
  Setting the place of a file, where the places are given by
  a list of files without repetition.
-/
theorem set_map
    {files : List String}
    (hNodup : files.Nodup)
    (placeOf : String → Place)
    (path : String)
    (place : Place) :
    set path place
        (files.map fun file => (file, placeOf file)) =
      (if path ∈ files then files else files ++ [path]).map
        fun file =>
          (file,
            if path = file then place
            else placeOf file) := by
  induction files with
  | nil => simp [set]
  | cons first rest ih =>
      rw [List.nodup_cons] at hNodup
      by_cases hFirst : first = path
      · subst hFirst
        have hRest :
            (rest.map fun file => (file, placeOf file)) =
              rest.map fun file =>
                (file,
                  if first = file then place
                  else placeOf file) := by
          apply List.map_congr_left
          intro file hFile
          have hOther : first ≠ file := by
            rintro rfl
            exact hNodup.1 hFile
          rw [if_neg hOther]
        simp [set, hRest]
      · by_cases hMem : path ∈ rest <;>
          simp [set, hFirst, Ne.symm hFirst, hMem,
            ih hNodup.2]

end Places

namespace Reporter

/- Tell a reporter about a file. -/
def register
    (reporter : Reporter) :
    Registration → Reporter
| .file path => reporter.unmark path
| .line path line? number? =>
    reporter.mark path ⟨line?, number?⟩
| .removal path => reporter.unmark path

/- Tell a reporter about files, one after another. -/
def registered
    (reporter : Reporter)
    (history : List Registration) :
    Reporter :=
  history.foldl register reporter

theorem places_register
    (reporter : Reporter)
    (registration : Registration) :
    (reporter.register registration).places =
      reporter.places.set registration.path
        registration.place := by
  cases registration <;> rfl

/-
  After any history a reporter knows each file of it once,
  in the order of first registration, and in each the place
  that was registered last.
-/
theorem places_registered
    (colour fatal : Bool)
    (history : List Registration) :
    ((fresh colour fatal).registered history).places =
      (Registration.paths history).map fun file =>
        (file, Registration.latest history file) := by
  induction history using List.reverseRecOn with
  | nil => rfl
  | append_singleton history registration ih =>
      rw [registered, List.foldl_append, List.foldl_cons,
        List.foldl_nil, places_register, ← registered, ih,
        Places.set_map (Registration.nodup_paths history),
        Registration.paths_snoc]
      simp only [Registration.latest_snoc]

end Reporter

end LamLang

------------------------------------------------------------
-- Listed Lines
------------------------------------------------------------

namespace LamLang

/- A line that a report lists, with its file and number. -/
structure Frame where
  path : String
  number : String
  line : String
deriving DecidableEq, Repr

/- A listed line as it is printed. -/
def Frame.text
    (frame : Frame) :
    String :=
  "  File '" ++ frame.path ++ "', line " ++ frame.number ++
    ":\n    " ++ frame.line ++ "\n"

/- The line that is listed for a file, unless it is empty. -/
def Place.frame?
    (path : String)
    (place : Place) :
    Option Frame :=
  place.shown?.map fun line => ⟨path, place.numberText, line⟩

/- All lines that are listed for the places in files. -/
def Places.frames
    (places : Places) :
    List Frame :=
  places.filterMap fun entry => entry.2.frame? entry.1

/- All lines that are listed after a history. -/
def Registration.frames
    (history : List Registration) :
    List Frame :=
  (paths history).filterMap fun file =>
    (latest history file).frame? file

namespace Reporter

theorem frames_registered
    (colour fatal : Bool)
    (history : List Registration) :
    ((fresh colour fatal).registered history).places.frames =
      Registration.frames history := by
  rw [places_registered, Places.frames, List.filterMap_map]
  rfl

theorem join_frameText
    (places : Places) :
    String.join (places.map frameText) =
      String.join (places.frames.map Frame.text) := by
  induction places with
  | nil => rfl
  | cons entry places ih =>
      cases hShown : entry.2.shown? <;>
        simp_all [Places.frames, Place.frame?, frameText,
          Frame.text]

/- A report lists its lines, and then says the error. -/
theorem report_eq
    (reporter : Reporter)
    {fault : Fault}
    {message : String}
    (hMessage :
      fault.highlighted reporter.colour = .ok message) :
    reporter.report fault =
      String.join (reporter.places.frames.map Frame.text) ++
        (errorMark reporter.colour fault.internal ++
          message ++ "\n" ++
            reporter.pointerText .red fault) := by
  rw [report, join_frameText, ← errorMark_eq,
    Fault.paintedMessage_of_highlighted hMessage]
  simp only [String.append_assoc]

end Reporter

end LamLang

------------------------------------------------------------
-- Failures That Leave
------------------------------------------------------------

namespace LamLang

variable
  {failure : Failure} {fault : Fault} {message : String}

namespace Reporter

/- The same is printed, whatever happens afterwards. -/
theorem printed_handle
    (reporter : Reporter)
    (hFault : failure.reported? = some fault)
    (hMessage :
      fault.highlighted reporter.colour = .ok message) :
    (reporter.handle failure).printed =
      reporter.report fault := by
  cases hFatal : reporter.fatal with
  | true => rw [handle_of_fatal hFatal hFault hMessage]
  | false =>
      exact (handle_of_not_fatal hFatal hFault hMessage).2

/- A failure is lost if its message cannot be painted. -/
theorem handle_of_misfit
    (reporter : Reporter)
    (hFault : failure.reported? = some fault)
    {reason : Template.Misfit}
    (hReason :
      fault.highlighted reporter.colour = .error reason) :
    reporter.handle failure =
      ⟨reporter, "", some (.mishap (.misfit reason))⟩ := by
  cases failure with
  | exit status => cases hFault
  | _ =>
      cases hFault
      simp [handle, announce, hReason]

end Reporter

/-
  A request to exit passes a reporter unseen.  Any other
  failure is printed below the lines registered last, if its
  message can be worded with painted texts.  A fatal
  reporter then ends the program as it is; any other one
  forgets its lines, and lets only mishaps go on, which it
  marks as internal.

  The message can be worded without colours, and in colours
  if no specification of a hole has holes; only the fault of
  a caller's own can have such.  Otherwise the reporter is
  left as it was and nothing is printed, but the reason goes
  on as a mishap.
-/
theorem failures_leave_settled
    (reporter : Reporter)
    {failure : Failure}
    (hFormed : failure.Formed) :
    (∀ status, failure = .exit status →
      reporter.handle failure =
        ⟨reporter, "", some failure⟩) ∧
    ((∀ status, failure ≠ .exit status) →
      ∃ fault,
        failure.reported? = some fault ∧
        ((∀ own, failure ≠ .custom own) →
          fault.template.Flat) ∧
        let texts :=
          fault.exprs.map fun expr =>
            if reporter.colour then
              "\x1b[1m" ++ expr ++ "\x1b[0m"
            else
              expr
        ((reporter.colour = true → fault.template.Flat) →
          ∃ message,
            fault.template.format texts = .ok message) ∧
        (∀ reason,
          fault.template.format texts = .error reason →
            reporter.handle failure =
              ⟨reporter, "",
                some (.mishap (.misfit reason))⟩) ∧
        ∀ message,
          fault.template.format texts = .ok message →
          (∀ fatal,
            ({ reporter with
                fatal }.handle failure).printed =
              String.join
                  (reporter.places.frames.map Frame.text) ++
                ((if reporter.colour then
                    (if fault.internal then
                      "\x1b[1m\x1b[31m[internal] \x1b[0m"
                    else
                      "") ++ "\x1b[1m\x1b[31merror: \x1b[0m"
                  else
                    (if fault.internal then "[internal] "
                    else "") ++ "error: ") ++
                  message ++ "\n" ++
                    reporter.pointerText .red fault)) ∧
          (∀ event, failure = .mishap event →
            fault.internal = true) ∧
          (reporter.fatal = true →
            (reporter.handle failure).reporter = reporter ∧
              (reporter.handle failure).escaping =
                some (.exit (.code 1))) ∧
          (reporter.fatal = false →
            (reporter.handle failure).reporter =
                { reporter with
                  places := reporter.places.map fun entry =>
                    (entry.1, ⟨none, none⟩) } ∧
              (∀ event, failure = .mishap event →
                (reporter.handle failure).escaping =
                  some failure) ∧
              ((∀ event, failure ≠ .mishap event) →
                (reporter.handle failure).escaping =
                  none))) ∧
    ∀ colour fatal history,
      ((Reporter.fresh colour fatal).registered
          history).places.frames =
        Registration.frames history := by
  refine ⟨?_, ?_, Reporter.frames_registered⟩
  · rintro status rfl
    rfl
  · intro hExit
    rcases Failure.exists_reported hExit with ⟨fault, hFault⟩
    refine
      ⟨fault, hFault,
        fun hOwn =>
          (Failure.plain_of_reported hFault hOwn).flat,
        ?_⟩
    rw [← Fault.shownTexts, Fault.shownTexts_eq]
    refine ⟨?worded, ?lost, ?reported⟩
    case worded =>
      -- Without colours this is the wording it was made with.
      intro hFlat
      have hMade := hFormed.reported hFault
      cases hColour : reporter.colour with
      | true =>
          exact hMade.exists_highlighted (hFlat hColour) true
      | false =>
          rw [Fault.map_paint_false]
          exact hMade
    case lost =>
      intro reason hReason
      exact reporter.handle_of_misfit hFault hReason
    case reported =>
      intro message hMessage
      refine ⟨?_, ?_, ?_, ?_⟩
      · intro fatal
        have hHighlighted :
            fault.highlighted
                { reporter with fatal }.colour =
              .ok message :=
          hMessage
        rw [Reporter.printed_handle _ hFault hHighlighted,
          Reporter.report_eq _ hHighlighted]
        rfl
      · rintro event rfl
        exact Failure.internal_of_mishap hFault
      · intro hFatal
        rw [Reporter.handle_of_fatal hFatal hFault hMessage]
        exact ⟨rfl, rfl⟩
      · intro hFatal
        have hEscapes
            (other : Failure) :=
          Reporter.escaping_eq_some_iff other hFatal hFault
            hMessage
        refine
          ⟨(Reporter.handle_of_not_fatal hFatal hFault
            hMessage).1, ?_, ?_⟩
        · intro event hMishap
          exact (hEscapes failure).mpr ⟨rfl, event, hMishap⟩
        · intro hOrdinary
          rw [Option.eq_none_iff_forall_ne_some]
          intro other hOther
          rcases (hEscapes other).mp hOther with
            ⟨-, event, hMishap⟩
          exact hOrdinary event hMishap

/- Three files, two of which have a line in the end. -/
def Registration.threeFiles : List Registration :=
  [.file "a",
   .line "b" (some "(g)") (some 1),
   .line "a" (some "(f x)") (some 3),
   .line "c" (some "") (some 9),
   .line "b" (some "x") none,
   .removal "c"]

/- A fault that quotes its texts in another order. -/
def Fault.swapped : Fault where
  kind := .arity
  template := [.nth ['1'], .text " before ", .nth ['0']]
  exprs := ["x", "y"]
  pointed := true
  internal := false

/- A reporter that is told about the files. -/
def Reporter.informed : Reporter :=
  (Reporter.fresh true false).registered
    Registration.threeFiles

theorem failures_leave_settled_swapped :
    (Failure.custom Fault.swapped).Formed ∧
    Fault.swapped.template.Flat ∧
    Registration.frames Registration.threeFiles =
      [⟨"a", "3", "(f x)"⟩, ⟨"b", "None", "x"⟩] ∧
    ∃ message,
      message = "\x1b[1my\x1b[0m before \x1b[1mx\x1b[0m" ∧
      (Reporter.informed.handle
          (.custom Fault.swapped)).printed =
        String.join
            ((Registration.frames
              Registration.threeFiles).map Frame.text) ++
          ("\x1b[1m\x1b[31merror: \x1b[0m" ++ message ++
            "\n" ++
              Reporter.informed.pointerText .red
                Fault.swapped) ∧
      (Reporter.informed.handle
          (.custom Fault.swapped)).escaping = none ∧
      (Reporter.informed.handle
          (.custom Fault.swapped)).reporter.places =
        [("a", .idle), ("b", .idle), ("c", .idle)] := by
  have hFormed : (Failure.custom Fault.swapped).Formed := by
    rintro fault ⟨⟩
    exact ⟨"y before x", by decide +kernel⟩
  have hFlat : Fault.swapped.template.Flat := by
    simp [Template.Flat, Fault.swapped, Piece.nth, Hole.spec]
  rcases
    failures_leave_settled Reporter.informed hFormed with
    ⟨-, hReported, hFrames⟩
  have hNoExit :
      ∀ status,
        Failure.custom Fault.swapped ≠ .exit status := by
    rintro status ⟨⟩
  have hNoMishap :
      ∀ event,
        Failure.custom Fault.swapped ≠ .mishap event := by
    rintro event ⟨⟩
  rcases hReported hNoExit with
    ⟨fault, ⟨⟩, -, hWorded, -, hSettled⟩
  rcases hWorded (fun _ => hFlat) with ⟨message, hMessage⟩
  rcases hSettled message hMessage with
    ⟨hPrinted, -, -, hGoesOn⟩
  rcases hGoesOn rfl with ⟨hCleared, -, hEnds⟩
  have hText :
      message =
        "\x1b[1my\x1b[0m before \x1b[1mx\x1b[0m" := by
    refine Except.ok.inj (hMessage.symm.trans ?_)
    decide +kernel
  rw [Reporter.informed, hFrames, ← Reporter.informed]
    at hPrinted
  refine
    ⟨hFormed, hFlat, by decide +kernel, message, hText,
      hPrinted false, hEnds hNoMishap, ?_⟩
  rw [hCleared]
  decide +kernel

/- A fault that takes the width of a hole from a text. -/
def Fault.widened : Fault where
  kind := .general
  template := Template.read "\x7b0:\x7b1\x7d\x7d"
  exprs := ["abc", "10"]
  pointed := true
  internal := false

/- A report can be lost, and its failure with it. -/
theorem report_lost_in_colours :
    Fault.create .general
        (Template.read "\x7b0:\x7b1\x7d\x7d") ["abc", "10"]
        true false = .ok Fault.widened ∧
    Fault.widened.message = "abc       " ∧
    (Reporter.fresh true false).handle
        (.custom Fault.widened) =
      ⟨.fresh true false, "",
        some (.mishap (.misfit
          (.invalidSpec "\x1b[1m10\x1b[0m".toList)))⟩ ∧
    ¬ ∀ (reporter : Reporter) (fault : Fault),
      reporter.fatal = false → fault.Formed →
        (reporter.handle (.custom fault)).printed ≠ "" ∧
          (reporter.handle (.custom fault)).escaping =
            none := by
  have hCreated :
      Fault.create .general
          (Template.read "\x7b0:\x7b1\x7d\x7d")
          ["abc", "10"] true false = .ok Fault.widened := by
    decide +kernel
  have hLost :
      (Reporter.fresh true false).handle
          (.custom Fault.widened) =
        ⟨.fresh true false, "",
          some (.mishap (.misfit
            (.invalidSpec "\x1b[1m10\x1b[0m".toList)))⟩ := by
    decide +kernel
  refine ⟨hCreated, by decide +kernel, hLost, ?_⟩
  intro hReports
  have hPrinted :=
    (hReports (.fresh true false) Fault.widened rfl
      (Fault.formed_of_create hCreated)).1
  rw [hLost] at hPrinted
  exact hPrinted rfl

end LamLang
