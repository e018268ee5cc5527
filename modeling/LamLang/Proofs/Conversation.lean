import LamLang.Proofs.Execution
import LamLang.Proofs.Reading
import Mathlib.Data.List.DropRight
import Mathlib.Data.List.TakeWhile

/-
  The console between two lines.

  Whatever the lines were and however they ended, the batch
  of a console is the one it was started with.  All that a
  console remembers is the number of lines and the text that
  leaves lists open.

  Key definitions include:
    * `LamLang.Batch.resting`
    * `LamLang.Console.Ready`
    * `LamLang.Console.after`
    * `LamLang.Console.Waiting`

  Main statements:
    * `LamLang.Batch.guarded_execute_resting`
    * `LamLang.Console.Ready.feed`
    * `LamLang.Console.Ready.after`
    * `LamLang.console_waits_between_lines`
-/

------------------------------------------------------------
-- Resting Batches
------------------------------------------------------------

namespace LamLang

namespace Batch

variable {colour : Bool} {depth : Nat} {text : String}

/- The batch of a console that works on no line. -/
def resting
    (colour : Bool)
    (depth : Nat) :
    Batch :=
  .start (.fresh colour false) typedPath depth true

/- A console goes on after errors, whatever it was told. -/
theorem start_typed
    (colour fatal : Bool)
    (depth : Nat) :
    start (.fresh colour fatal) typedPath depth true =
      resting colour depth := by
  cases fatal <;> rfl

theorem resting_cleared
    (colour : Bool)
    (depth : Nat) :
    (resting colour depth).Cleared :=
  cleared_start _ _ _ _

theorem guarded_resting_of_results
    {texts : List String}
    (hResults : Datum.allResults depth text = .ok texts)
    (number : Int) :
    guarded ((resting colour depth).execute text number) =
      ⟨resting colour depth, resultLines texts,
        .ok (some ())⟩ := by
  rw [execute_of_results (resting_cleared colour depth)
    hResults]
  rfl

theorem guarded_resting_of_fails
    {failure : Failure}
    {line : String}
    {fault : Fault}
    (hFails : Datum.Fails depth text failure line)
    (hFault : failure.reported? = some fault)
    (number : Int) :
    (guarded
        ((resting colour depth).execute text
          number)).batch = resting colour depth ∧
      (guarded
        ((resting colour depth).execute text
          number)).printed =
        Reporter.lineReport colour typedPath line number
          fault := by
  have hMarked :
      ((resting colour depth).mark line number).reporter =
        (Reporter.fresh colour false).mark typedPath
          ⟨some line, some number⟩ :=
    rfl
  have hFatal :
      ((Reporter.fresh colour false).mark typedPath
        ⟨some line, some number⟩).fatal = false :=
    rfl
  rcases hFails.worded.exists_highlighted hFault colour with
    ⟨message, hMessage⟩
  rcases
    Reporter.handle_of_not_fatal hFatal hFault hMessage with
    ⟨hReporter, hPrinted⟩
  rw [execute_of_fails (resting_cleared colour depth) hFails]
  simp only [guarded, hMarked, hReporter, hPrinted,
    String.empty_append, Reporter.lineReport, and_true]
  rfl

/- A fault of the language does not leave the console. -/
theorem guarded_resting_of_cause
    {cause : Cause}
    {line : String}
    (hFails : Datum.Fails depth text (.cause cause) line)
    (number : Int) :
    (guarded
      ((resting colour depth).execute text
        number)).result = .ok none := by
  have hFatal :
      ((resting colour depth).mark line
        number).reporter.fatal = false :=
    rfl
  rw [execute_of_fails (resting_cleared colour depth) hFails]
  simp only [guarded,
    Reporter.escaping_of_cause hFatal cause]

/- A line leaves nothing behind, however it ended. -/
theorem guarded_execute_resting
    (text : String)
    (number : Int) :
    (guarded
      ((resting colour depth).execute text
        number)).batch = resting colour depth := by
  rcases Datum.results_or_fails depth text with
    ⟨texts, hResults⟩ | ⟨failure, line, hFails⟩
  · rw [guarded_resting_of_results hResults]
  · rcases hFails.exists_reported with ⟨fault, hFault⟩
    exact (guarded_resting_of_fails hFails hFault number).1

end Batch

end LamLang

------------------------------------------------------------
-- Stripped Texts
------------------------------------------------------------

namespace LamLang

namespace Text

theorem strip_empty :
    strip "" = "" :=
  rfl

theorem stripRight_eq_rdropWhile
    (cs : List Char) :
    stripRight cs = cs.rdropWhile isBlank :=
  rfl

/- What starts with no blank does so without its end, too. -/
theorem dropWhile_stripRight
    (cs : List Char) :
    (stripRight (cs.dropWhile isBlank)).dropWhile isBlank =
      stripRight (cs.dropWhile isBlank) := by
  rw [stripRight_eq_rdropWhile, List.dropWhile_eq_self_iff]
  intro hLength
  have hPrefix :=
    List.rdropWhile_prefix isBlank (cs.dropWhile isBlank)
  rw [hPrefix.getElem hLength]
  exact List.dropWhile_get_zero_not isBlank cs _

/- A text that was stripped has no blank at its ends. -/
theorem strip_strip
    (s : String) :
    strip (strip s) = strip s := by
  rw [strip, strip, String.toList_ofList,
    dropWhile_stripRight]
  simp only [stripRight_eq_rdropWhile,
    List.rdropWhile_idempotent]

end Text

namespace Token

theorem balance_empty :
    balance "" = 0 :=
  rfl

theorem ne_empty_of_balance_pos
    {source : String}
    (hOpen : 0 < balance source) :
    source ≠ "" := by
  rintro rfl
  rw [balance_empty] at hOpen
  omega

end Token

end LamLang

------------------------------------------------------------
-- Lines
------------------------------------------------------------

namespace LamLang

namespace Console

variable {colour : Bool} {depth : Nat} {console : Console}

/- Whether a line is source text and no command. -/
def isSource
    (line : String) :
    Bool :=
  match command line with
  | .source _ => true
  | _ => false

/- The console after lines, whatever came of each. -/
def after
    (console : Console) :
    List String → Console
| [] => console
| line :: lines => (console.feed line).console.after lines

/-
  A console that waits for a line: its batch is at rest, and
  it keeps a text if and only if lists are open in it.
-/
structure Ready
    (colour : Bool)
    (depth : Nat)
    (console : Console) :
    Prop where
  batch_eq : console.batch = .resting colour depth
  stripped : Text.strip console.pending = console.pending
  continued_iff :
    console.continued = true ↔ console.pending ≠ ""
  open_iff :
    console.pending ≠ "" ↔
      0 < Token.balance console.pending

theorem ready_start
    (colour fatal : Bool)
    (depth : Nat) :
    Ready colour depth
      (start (.fresh colour fatal) depth) where
  batch_eq := Batch.start_typed colour fatal depth
  stripped := Text.strip_empty
  continued_iff := by simp [start]
  open_iff := by simp [start, Token.balance_empty]

theorem strip_joinLine
    (line pending : String) :
    Text.strip (joinLine line pending).1 =
      (joinLine line pending).1 := by
  simp only [joinLine, Text.strip_strip]

/- The turn of a text that is kept. -/
def Turn.kept
    (console : Console)
    (text : String) :
    Turn where
  console :=
    { console with
      pending := text
      lineNumber := console.lineNumber + 1
      continued := true }
  printed := ""
  result := .ok false

/- The turn of a text that was executed. -/
def Turn.done
    (number : Nat)
    (step : Batch.Step (Option Unit)) :
    Turn where
  console :=
    { batch := step.batch
      pending := ""
      lineNumber := number
      continued := false }
  printed := step.printed
  result := step.result.map fun _ => false

/- A text that leaves lists open is kept. -/
theorem readSource_of_open
    {line : String}
    (hOpen :
      0 < Token.balance (joinLine line console.pending).1) :
    console.readSource line =
      .kept console (joinLine line console.pending).1 := by
  have hMore : (joinLine line console.pending).2 = true := by
    simpa [joinLine] using hOpen
  simp only [readSource, hMore, Turn.kept, if_true]

/- Any other text is executed. -/
theorem readSource_of_closed
    {line : String}
    (hClosed :
      Token.balance (joinLine line console.pending).1 ≤ 0) :
    console.readSource line =
      .done (console.lineNumber + 1)
        (Batch.guarded
          (console.batch.execute
            (joinLine line console.pending).1
            (console.lineNumber + 1 : Nat))) := by
  have hDone :=
    (joinLine_complete_iff line console.pending).mpr hClosed
  simp only [readSource, hDone, Turn.done,
    Bool.false_eq_true, if_false]

namespace Ready

theorem kept
    (hReady : Ready colour depth console)
    {text : String}
    (hStripped : Text.strip text = text)
    (hOpen : 0 < Token.balance text) :
    Ready colour depth (Turn.kept console text).console where
  batch_eq := hReady.batch_eq
  stripped := hStripped
  continued_iff := by
    simpa [Turn.kept] using
      Token.ne_empty_of_balance_pos hOpen
  open_iff :=
    ⟨fun _ => hOpen, Token.ne_empty_of_balance_pos⟩

theorem done
    {step : Batch.Step (Option Unit)}
    (hBatch : step.batch = .resting colour depth)
    (number : Nat) :
    Ready colour depth (Turn.done number step).console where
  batch_eq := hBatch
  stripped := Text.strip_empty
  continued_iff := by simp [Turn.done]
  open_iff := by simp [Turn.done, Token.balance_empty]

theorem readSource
    (hReady : Ready colour depth console)
    (line : String) :
    Ready colour depth
      (console.readSource line).console := by
  by_cases hOpen :
    0 < Token.balance (joinLine line console.pending).1
  · rw [readSource_of_open hOpen]
    exact hReady.kept (strip_joinLine _ _) hOpen
  · rw [readSource_of_closed (Int.not_lt.mp hOpen),
      hReady.batch_eq]
    apply Ready.done
    exact Batch.guarded_execute_resting _ _

theorem feed
    (hReady : Ready colour depth console)
    (line : String) :
    Ready colour depth (console.feed line).console := by
  unfold Console.feed
  cases command line with
  | source text => exact hReady.readSource text
  | _ => exact hReady

theorem after
    (hReady : Ready colour depth console)
    (lines : List String) :
    Ready colour depth (console.after lines) := by
  induction lines generalizing console with
  | nil => exact hReady
  | cons line lines ih =>
      rw [Console.after]
      exact ih (hReady.feed line)

end Ready

/- The number of a console counts lines of source text. -/
theorem lineNumber_feed
    (console : Console)
    (line : String) :
    (console.feed line).console.lineNumber =
      console.lineNumber +
        if isSource line then 1 else 0 := by
  unfold feed isSource
  cases command line with
  | source text =>
      simp only [readSource]
      split <;> rfl
  | _ => rfl

theorem lineNumber_after
    (console : Console)
    (lines : List String) :
    (console.after lines).lineNumber =
      console.lineNumber + lines.countP isSource := by
  induction lines generalizing console with
  | nil => rfl
  | cons line lines ih =>
      rw [after, ih, lineNumber_feed, List.countP_cons]
      omega

theorem prompt_eq_iff
    (console : Console) :
    console.prompt = ". " ↔ console.continued = true := by
  cases hContinued : console.continued <;>
    simp [prompt, hContinued]

/-
  A console between two lines, of which so many were source
  text: no term waits and no result is kept, no line is
  being worked on, and errors do not end the console.  The
  kept text is stripped, and it is there just when lists are
  open in it and when the prompt says so.
-/
structure Waiting
    (console : Console)
    (number : Nat) :
    Prop where
  queue_eq : console.batch.queue = []
  results_eq : console.batch.results = []
  places_eq :
    console.batch.reporter.places =
      [(Batch.typedPath, Place.idle)]
  fatal_eq : console.batch.reporter.fatal = false
  stripped : Text.strip console.pending = console.pending
  prompt_iff :
    console.prompt = ". " ↔ console.pending ≠ ""
  open_iff :
    console.pending ≠ "" ↔
      0 < Token.balance console.pending
  lineNumber_eq : console.lineNumber = number

theorem Ready.waiting
    (hReady : Ready colour depth console) :
    console.Waiting console.lineNumber := by
  have hReporter :
      console.batch.reporter =
        ⟨colour, false, [(Batch.typedPath, .idle)]⟩ := by
    rw [hReady.batch_eq]
    rfl
  have hCleared : console.batch.Cleared := by
    rw [hReady.batch_eq]
    exact Batch.resting_cleared colour depth
  exact
    { queue_eq := hCleared.queue_eq
      results_eq := hCleared.results_eq
      places_eq := by rw [hReporter]
      fatal_eq := by rw [hReporter]
      stripped := hReady.stripped
      prompt_iff := by
        rw [console.prompt_eq_iff, hReady.continued_iff]
      open_iff := hReady.open_iff
      lineNumber_eq := rfl }

end Console

/-
  A new console waits for its next line, whatever lines it
  was fed and whichever of them failed, and its line number
  counts the lines of source text among them.
-/
theorem console_waits_between_lines
    (colour fatal : Bool)
    (depth : Nat)
    (lines : List String) :
    Console.Waiting
      ((Console.start (.fresh colour fatal) depth).after
        lines)
      (lines.countP Console.isSource) := by
  have hReady :=
    (Console.ready_start colour fatal depth).after lines
  have hNumber :=
    Console.lineNumber_after
      (.start (.fresh colour fatal) depth) lines
  have hZero :
      (Console.start (.fresh colour fatal)
        depth).lineNumber = 0 :=
    rfl
  rw [hZero, Nat.zero_add] at hNumber
  rw [← hNumber]
  exact hReady.waiting

-- A fault and a command on the way leave no trace.
example :
    let console :=
      (Console.start (.fresh false true) 5).after
        ["y", "(+ 1", "help", "(f"]
    console.pending = "(+ 1 (f" ∧
      console.lineNumber = 3 := by
  decide +kernel

end LamLang
