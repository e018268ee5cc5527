import LamLang.CommandLine.Invocation
import LamLang.Proofs.Batches
import LamLang.Proofs.Wording

/-
  Texts executed whole.

  A text comes to the results of all its terms, or it fails:
  it cannot be read, or one of its terms fails first.  From
  that alone it is known what a batch prints for the text
  and in which state it is left, and what the whole program
  does with a text that it is given as an argument.

  Key definitions include:
    * `LamLang.Datum.allResults`
    * `LamLang.Datum.Fails`
    * `LamLang.Failure.reported?`
    * `LamLang.Failure.Worded`
    * `LamLang.Reporter.lineReport`
    * `LamLang.Reporter.afterPlace`

  Main statements:
    * `LamLang.Datum.results_or_fails`
    * `LamLang.Reporter.lineReport_eq_located`
    * `LamLang.Batch.execute_of_results`
    * `LamLang.Batch.execute_of_fails`
    * `LamLang.CommandLine.evaluate_of_results`
    * `LamLang.CommandLine.evaluate_of_fails`
-/

------------------------------------------------------------
-- What Texts Come To
------------------------------------------------------------

namespace LamLang

namespace Datum

/- The results of all terms of a text, in order. -/
def allResults
    (depth : Nat)
    (text : String) :
    Except Failure (List String) := do
  let terms ← allOfSourceWithin depth text
  terms.mapM (result depth)

/-
  How a text fails, and the line that the failure belongs
  to: the text itself where it cannot be read, and else the
  first term that fails.
-/
inductive Fails
    (depth : Nat)
    (text : String) :
    Failure → String → Prop
| reading
    {failure : Failure}
    (hError :
      allOfSourceWithin depth text = .error failure) :
    Fails depth text failure text
| running
    {terms : List Datum}
    {term : Datum}
    {failure : Failure}
    {line : String}
    (hTerms : allOfSourceWithin depth text = .ok terms)
    (hRuns : Runs (result depth) terms term)
    (hFails : term.result depth = .error failure)
    (hLine : term.write = .ok line) :
    Fails depth text failure line

/- A text has all its results, or it fails somewhere. -/
theorem results_or_fails
    (depth : Nat)
    (text : String) :
    (∃ texts, allResults depth text = .ok texts) ∨
      ∃ failure line, Fails depth text failure line := by
  cases hTerms : allOfSourceWithin depth text with
  | error failure =>
      exact .inr ⟨failure, text, .reading hTerms⟩
  | ok terms =>
      cases hTexts : terms.mapM (result depth) with
      | ok texts =>
          left
          refine ⟨texts, ?_⟩
          rw [allResults, hTerms, ok_bind, hTexts]
      | error failure =>
          right
          rcases mapM_error hTexts with
            ⟨term, hRuns, hFails⟩
          have hRead : term.ReadWithin depth :=
            readWithin_of_mem hTerms hRuns.mem
          rcases hRead.exists_write with ⟨line, hLine, -⟩
          exact
            ⟨failure, line, .running hTerms hRuns hFails
              hLine⟩

namespace Fails

variable {depth : Nat} {text line : String}
variable {failure : Failure}

theorem allResults_eq
    (hFails : Fails depth text failure line) :
    allResults depth text = .error failure := by
  cases hFails with
  | reading hError =>
      rw [allResults, hError]
      rfl
  | running hTerms hRuns hFails hLine =>
      rw [allResults, hTerms, ok_bind,
        hRuns.mapM_eq_error hFails]

/- The line of a failure has something to show. -/
theorem line_ne_empty
    (hFails : Fails depth text failure line) :
    line ≠ "" := by
  cases hFails with
  | reading hError =>
      rintro rfl
      cases hError
  | running hTerms hRuns hFails hLine =>
      have hRead := readWithin_of_mem hTerms hRuns.mem
      rcases hRead.exists_write with
        ⟨line', hLine', -, hShown⟩
      rw [hLine] at hLine'
      cases hLine'
      exact hShown

end Fails

end Datum

end LamLang

------------------------------------------------------------
-- Reported Failures
------------------------------------------------------------

namespace LamLang

namespace Failure

/-
  The fault that is reported for a failure.  A request to
  exit is not reported.
-/
def reported? : Failure → Option Fault
| .cause broken => some broken.fault
| .custom fault => some fault
| .depthExceeded => some Reporter.depthFault
| .interrupted => some Reporter.interruptFault
| .exit _ => none
| .mishap event => some (Reporter.mishapFault event)

/-
  A failure whose report can be worded, in colours too.  The
  faults that callers make may have other templates.
-/
def Worded
    (failure : Failure) : Prop :=
  ∃ fault,
    failure.reported? = some fault ∧
      ∀ colour, ∃ message,
        fault.highlighted colour = .ok message

theorem worded_cause
    (broken : Cause) :
    (cause broken).Worded :=
  ⟨broken.fault, rfl,
    broken.formed.exists_highlighted
      broken.plain_template.flat⟩

theorem worded_depthExceeded : depthExceeded.Worded :=
  ⟨_, rfl, fun _ => ⟨_, rfl⟩⟩

theorem worded_mishap
    (event : Mishap) :
    (mishap event).Worded :=
  ⟨_, rfl, fun _ => ⟨_, rfl⟩⟩

theorem Worded.exists_highlighted
    {failure : Failure}
    {fault : Fault}
    (hWorded : failure.Worded)
    (hFault : failure.reported? = some fault)
    (colour : Bool) :
    ∃ message, fault.highlighted colour = .ok message := by
  rcases hWorded with ⟨reported, hReported, hHighlights⟩
  rw [hFault] at hReported
  cases hReported
  exact hHighlights colour

end Failure

namespace Fault

/- The texts of a fault as a report shows them. -/
def shownTexts
    (fault : Fault)
    (colour : Bool) :
    List String :=
  fault.exprs.map fun expr =>
    if colour then "\x1b[1m" ++ expr ++ "\x1b[0m" else expr

theorem shownTexts_eq
    (fault : Fault)
    (colour : Bool) :
    fault.shownTexts colour =
      fault.exprs.map (paint colour none) := by
  apply List.map_congr_left
  intro expr _
  cases colour <;> simp [paint, boldStart, paintEnd]

end Fault

namespace Reporter

variable
  {failure : Failure} {fault : Fault} {message : String}

/- What is reported while one line is being worked on. -/
def lineReport
    (colour : Bool)
    (path line : String)
    (number : Int)
    (fault : Fault) :
    String :=
  ((Reporter.fresh colour false).mark path
    ⟨some line, some number⟩).report fault

/- How the error line of a report starts. -/
def errorMark
    (colour internal : Bool) :
    String :=
  if colour then
    (if internal then
      "\x1b[1m\x1b[31m[internal] \x1b[0m"
    else
      "") ++ "\x1b[1m\x1b[31merror: \x1b[0m"
  else
    (if internal then "[internal] " else "") ++ "error: "

theorem errorMark_eq
    (colour internal : Bool) :
    (if internal then
        paint colour (some .red) "[internal] "
      else
        "") ++ paint colour (some .red) "error: " =
      errorMark colour internal := by
  cases colour <;> cases internal <;> decide

/- A text that starts with a place in a file. -/
def located
    (path : String)
    (number : Int)
    (rest : String) :
    String :=
  "  File '" ++ path ++ "', line " ++
    Number.intText number ++ rest

/-
  What a report on a line says after the place: the line,
  the error, and the pointer if there is one.
-/
def afterPlace
    (colour : Bool)
    (line : String)
    (fault : Fault) :
    String :=
  ":\n    " ++ line ++ "\n" ++
    errorMark colour fault.internal ++
    fault.template.fill (fault.shownTexts colour) ++ "\n" ++
    match fault.pointer? colour .red line with
    | some pointer =>
        if fault.pointed then pointer ++ "\n" else ""
    | none => ""

/- A report on a line depends on the place in its start. -/
theorem lineReport_eq_located
    {colour : Bool}
    {line : String}
    (hLine : line ≠ "")
    (path : String)
    (number : Int)
    (fault : Fault) :
    lineReport colour path line number fault =
      located path number (afterPlace colour line fault) := by
  have hShown :
      Place.shown? ⟨some line, some number⟩ = some line := by
    simp [Place.shown?, hLine]
  have hFrame :
      frameText (path, ⟨some line, some number⟩) =
        located path number (":\n    " ++ line ++ "\n") := by
    simp only [frameText, hShown, Place.numberText, located,
      String.append_assoc]
  have hPointed :
      currentLine? ⟨colour, false,
        [(path, ⟨some line, some number⟩)]⟩ =
          some line := by
    simp only [currentLine?, Places.current?, hShown,
      Option.map_some]
  have hPointer :
      pointerText ⟨colour, false,
          [(path, ⟨some line, some number⟩)]⟩ .red fault =
        match fault.pointer? colour .red line with
        | some pointer =>
            if fault.pointed then pointer ++ "\n" else ""
        | none => "" := by
    cases hOwn : fault.pointed <;>
      cases hFound : fault.pointer? colour .red line <;>
      simp [pointerText, hPointed, hOwn, hFound]
  rw [lineReport, report, afterPlace, ← hPointer,
    ← errorMark_eq, Fault.shownTexts_eq]
  simp only [mark, fresh, Places.set, hFrame, located,
    Fault.paintedMessage, List.map_cons, List.map_nil,
    String.join_cons, String.join_nil, String.append_empty,
    String.append_assoc]

/- A fatal reporter reports a failure and ends the program. -/
theorem handle_of_fatal
    {reporter : Reporter}
    (hFatal : reporter.fatal = true)
    (hFault : failure.reported? = some fault)
    (hMessage :
      fault.highlighted reporter.colour = .ok message) :
    reporter.handle failure =
      ⟨reporter, reporter.report fault,
        some (.exit (.code 1))⟩ := by
  cases failure with
  | exit status => cases hFault
  | _ =>
      cases hFault
      simp [handle, announce, hMessage, hFatal]

/- Any other one reports it and forgets all lines. -/
theorem handle_of_not_fatal
    {reporter : Reporter}
    (hFatal : reporter.fatal = false)
    (hFault : failure.reported? = some fault)
    (hMessage :
      fault.highlighted reporter.colour = .ok message) :
    (reporter.handle failure).reporter =
        { reporter with
          places := reporter.places.clear } ∧
      (reporter.handle failure).printed =
        reporter.report fault := by
  cases failure with
  | exit status => cases hFault
  | _ =>
      cases hFault
      simp [handle, announce, hMessage, hFatal]

/- A fault of the language goes no further then. -/
theorem escaping_of_cause
    {reporter : Reporter}
    (hFatal : reporter.fatal = false)
    (cause : Cause) :
    (reporter.handle (.cause cause)).escaping = none := by
  rcases
    (Failure.worded_cause cause).exists_highlighted rfl
      reporter.colour with
    ⟨message, hMessage⟩
  simp [handle, announce, hMessage, hFatal]

end Reporter

namespace Datum

/- Running a term has ordinary failures only. -/
theorem result_failsOnly_ordinary
    (depth : Nat)
    (term : Datum) :
    FailsOnly Failure.Ordinary (term.result depth) := by
  have hEvaluated :=
    evaluated_failsOnly_ordinary (α := Empty) depth term
  simpa only [result, meaning, bind_assoc] using hEvaluated

/- The failure of a text can always be reported. -/
theorem Fails.worded
    {depth : Nat}
    {text line : String}
    {failure : Failure}
    (hFails : Fails depth text failure line) :
    failure.Worded := by
  cases hFails with
  | reading hError =>
      have hReads :=
        allOfSourceWithin_approximates_allOfSource depth text
      by_cases hSettled : failure = .depthExceeded
      · subst hSettled
        exact Failure.worded_depthExceeded
      · rcases
          allOfSource_eq_error
            (hReads.eq_error hError hSettled) with
          hMisread | ⟨rfl, -⟩
        · cases hMisread with
          | unterminated token => exact Failure.worded_cause _
          | closed => exact Failure.worded_cause _
          | tooLong digits => exact Failure.worded_mishap _
        · exact Failure.worded_cause _
  | running hTerms hRuns hFails hLine =>
      cases result_failsOnly_ordinary depth _ _ hFails with
      | cause hKind => exact Failure.worded_cause _
      | depthExceeded => exact Failure.worded_depthExceeded
      | mishap hEvent => exact Failure.worded_mishap _

theorem Fails.exists_reported
    {depth : Nat}
    {text line : String}
    {failure : Failure}
    (hFails : Fails depth text failure line) :
    ∃ fault, failure.reported? = some fault := by
  rcases hFails.worded with ⟨fault, hFault, -⟩
  exact ⟨fault, hFault⟩

end Datum

end LamLang

------------------------------------------------------------
-- Executed Texts
------------------------------------------------------------

namespace LamLang

namespace Batch

/- Entries that share a line number are run as their terms. -/
theorem mapM_resultOf
    (depth : Nat)
    (number : Int)
    (terms : List Datum) :
    (terms.map fun term => (number, term)).mapM
        (resultOf depth) =
      terms.mapM (Datum.result depth) := by
  induction terms with
  | nil => rfl
  | cons term terms ih =>
      rw [List.map_cons, List.mapM_cons, List.mapM_cons, ih,
        resultOf]

theorem Breaks.of_runs
    {depth : Nat}
    {terms : List Datum}
    {term : Datum}
    {failure : Failure}
    {line : String}
    (number : Int)
    (hRuns : Runs (Datum.result depth) terms term)
    (hFails : term.result depth = .error failure)
    (hLine : term.write = .ok line) :
    Breaks depth
      (terms.map fun term => (number, term))
      (number, term) failure line := by
  rcases hRuns with ⟨before, later, texts, rfl, hBefore⟩
  refine ⟨⟨_, _, texts, List.map_append, ?_⟩, hFails, hLine⟩
  rw [mapM_resultOf, hBefore]

/- A batch with nothing to run and nothing to print. -/
structure Cleared
    (batch : Batch) :
    Prop where
  queue_eq : batch.queue = []
  results_eq : batch.results = []

theorem cleared_start
    (reporter : Reporter)
    (path : String)
    (depth : Nat)
    (typed : Bool) :
    (start reporter path depth typed).Cleared :=
  ⟨rfl, rfl⟩

theorem Step.andThen_ok
    {β γ : Type}
    (batch : Batch)
    (result : β)
    (next : Batch → β → Step γ) :
    (⟨batch, "", .ok result⟩ : Step β).andThen next =
      next batch result := by
  simp only [andThen, String.empty_append]

theorem Step.andThen_error
    {β γ : Type}
    (batch : Batch)
    (failure : Failure)
    (next : Batch → β → Step γ) :
    (⟨batch, "", .error failure⟩ : Step β).andThen next =
      ⟨batch, "", .error failure⟩ :=
  rfl

variable {batch : Batch} {text : String}

/- An empty batch with the terms of one line put into it. -/
def filled
    (batch : Batch)
    (terms : List Datum)
    (number : Int) :
    Batch :=
  { batch.unmark with
    queue := terms.map fun term => (number, term) }

/- A text that is read is queued, run and printed. -/
theorem execute_of_terms
    (hCleared : batch.Cleared)
    {terms : List Datum}
    (hTerms :
      Datum.allOfSourceWithin batch.depth text = .ok terms)
    (number : Int) :
    batch.execute text number =
      (batch.filled terms number).run.andThen
        fun batch _ => batch.flush := by
  rw [execute, add_of_ok batch hTerms, Step.andThen_ok,
    hCleared.queue_eq, List.nil_append, filled]

/- What is queued then was read. -/
theorem readWithin_of_mem_filled
    {terms : List Datum}
    (hTerms :
      Datum.allOfSourceWithin batch.depth text = .ok terms)
    (number : Int) :
    ∀ entry ∈ (batch.filled terms number).queue,
      entry.2.ReadWithin batch.depth := by
  intro entry hMem
  rcases List.mem_map.mp hMem with ⟨term, hTerm, rfl⟩
  exact Datum.readWithin_of_mem hTerms hTerm

/- A text with results prints one line for each. -/
theorem execute_of_results
    (hCleared : batch.Cleared)
    {texts : List String}
    (hResults :
      Datum.allResults batch.depth text = .ok texts)
    (number : Int) :
    batch.execute text number =
      ⟨batch.unmark, resultLines texts, .ok ()⟩ := by
  rcases bind_eq_ok hResults with ⟨terms, hTerms, hTexts⟩
  have hRun :=
    run_of_results (batch.filled terms number)
      (readWithin_of_mem_filled hTerms number)
      ((mapM_resultOf _ _ _).trans hTexts)
  have hUnmark :
      (batch.filled terms number).unmark =
        batch.filled terms number := by
    simp [filled, unmark, Reporter.unmark, Reporter.mark]
  have hNone : (batch.filled terms number).results = [] :=
    hCleared.results_eq
  rw [execute_of_terms hCleared hTerms, hRun,
    Step.andThen_ok, hUnmark, ite_self, hNone,
    List.nil_append, flush]
  simp [filled, unmark, hCleared.queue_eq,
    hCleared.results_eq]

/- A text that fails prints nothing and leaves its line. -/
theorem execute_of_fails
    (hCleared : batch.Cleared)
    {failure : Failure}
    {line : String}
    (hFails :
      Datum.Fails batch.depth text failure line)
    (number : Int) :
    batch.execute text number =
      ⟨batch.mark line number, "", .error failure⟩ := by
  cases hFails with
  | reading hError =>
      rw [execute, add_of_error batch hError,
        Step.andThen_error]
  | running hTerms hRuns hFails hLine =>
      have hRun :=
        run_of_breaks (batch.filled _ number)
          (readWithin_of_mem_filled hTerms number)
          (.of_runs number hRuns hFails hLine)
      rw [execute_of_terms hCleared hTerms, hRun,
        Step.andThen_error]
      simp [filled, mark, unmark, Reporter.unmark,
        Reporter.mark, hCleared.queue_eq]

end Batch

end LamLang

------------------------------------------------------------
-- Texts as Arguments
------------------------------------------------------------

namespace LamLang

namespace CommandLine

variable {colour : Bool} {depth : Nat} {text : String}

/- An expression among the arguments is evaluated. -/
theorem run_of_request
    {argv : List String}
    {limit? : Option Int}
    (hRequest : request argv = .run ⟨some text, limit?⟩)
    (hDepth : depthOf limit? = .ok depth)
    (input : String) :
    run colour argv input =
      evaluate (.fresh colour true) depth text := by
  simp only [run, launch, hRequest, hDepth]

theorem evaluate_of_results
    {texts : List String}
    (hResults : Datum.allResults depth text = .ok texts) :
    evaluate (.fresh colour true) depth text =
      ⟨Batch.resultLines texts, "", none⟩ := by
  have hExecute :=
    Batch.execute_of_results
      (Batch.cleared_start (.fresh colour true)
        Batch.argumentPath depth false) hResults 1
  simp only [evaluate, hExecute, Batch.guarded]

theorem evaluate_of_fails
    {failure : Failure}
    {line : String}
    {fault : Fault}
    (hFails : Datum.Fails depth text failure line)
    (hFault : failure.reported? = some fault) :
    evaluate (.fresh colour true) depth text =
      ⟨Reporter.lineReport colour Batch.argumentPath line 1
          fault,
        "", some (.exit (.code 1))⟩ := by
  have hExecute :=
    Batch.execute_of_fails
      (Batch.cleared_start (.fresh colour true)
        Batch.argumentPath depth false) hFails 1
  have hFatal :
      ((Batch.start (.fresh colour true)
        Batch.argumentPath depth false).mark line
          1).reporter.fatal = true :=
    rfl
  rcases hFails.worded.exists_highlighted hFault colour with
    ⟨message, hMessage⟩
  simp only [evaluate, hExecute, Batch.guarded,
    Reporter.handle_of_fatal hFatal hFault hMessage,
    String.empty_append]
  rfl

end CommandLine

end LamLang
