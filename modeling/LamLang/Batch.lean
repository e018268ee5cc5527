import LamLang.Datum.Result
import LamLang.Report.Reporter

/-
  Batches: terms that wait, and the results of running
  them.

  Key definitions include:
    * `LamLang.Batch`
    * `LamLang.Batch.add`
    * `LamLang.Batch.run`
    * `LamLang.Batch.takeResult`
    * `LamLang.Batch.guarded`

  A run takes the whole queue.  Its results are kept only if
  every term of the queue had one.
-/

------------------------------------------------------------
-- Batches
------------------------------------------------------------

namespace LamLang

/-
  A batch reads and runs the terms of one file.  The queue
  holds each term with its line number.
-/
structure Batch where
  reporter : Reporter
  path : String
  depth : Nat
  queue : List (Int × Datum)
  results : List String

namespace Batch

/- The file name of lines that are typed in. -/
def typedPath : String := "<in>"

/- The file name of an expression given as an argument. -/
def argumentPath : String := "<expr>"

/-
  Open a batch on a file.  One that is typed in goes on
  after errors.
-/
def start
    (reporter : Reporter)
    (path : String)
    (depth : Nat)
    (typed : Bool) :
    Batch where
  reporter :=
    { reporter.unmark path with
      fatal := reporter.fatal && !typed }
  path := path
  depth := depth
  queue := []
  results := []

/- Note the line being worked on. -/
def mark
    (batch : Batch)
    (line : String)
    (number : Int) :
    Batch :=
  { batch with
    reporter :=
      batch.reporter.mark batch.path
        ⟨some line, some number⟩ }

/- Note that no line is being worked on. -/
def unmark
    (batch : Batch) :
    Batch :=
  { batch with
    reporter := batch.reporter.unmark batch.path }

end Batch

end LamLang

------------------------------------------------------------
-- Steps
------------------------------------------------------------

namespace LamLang

namespace Batch

/- A batch after a step, what was printed, and the result. -/
structure Step (β : Type) where
  batch : Batch
  printed : String
  result : Except Failure β

/- Read the terms of a text and put them into the queue. -/
def add
    (batch : Batch)
    (text : String)
    (number : Int) :
    Step Unit :=
  let marked := batch.mark text number
  match Datum.allOfSourceWithin batch.depth text with
  | .error failure => ⟨marked, "", .error failure⟩
  | .ok terms =>
      let queued :=
        { marked with
          queue := marked.queue ++
            terms.map fun term => (number, term) }
      ⟨queued.unmark, "", .ok ()⟩

/- The fault that warns of a text which does not read back. -/
def ambiguityFault
    (text : String) :
    Fault where
  kind := .general
  template :=
    [.text "'", .next,
     .text "' contains '\"' and will not read back as written"]
  exprs := [text]
  pointed := true
  internal := false

/- The warning can always be highlighted. -/
theorem warn_ambiguityFault
    (reporter : Reporter)
    (text : String) :
    reporter.warn (ambiguityFault text) =
      .ok (reporter.warning (ambiguityFault text)) :=
  rfl

/- The warning that a value gives rise to, if any. -/
def warningText
    (batch : Batch)
    (value : Value Empty) :
    String :=
  match value.markedText? with
  | some text =>
      batch.reporter.warning (ambiguityFault text)
  | none => ""

/- Run terms in order, up to the first that fails. -/
def runTerms
    (batch : Batch) :
    List (Int × Datum) → Step (List String)
| [] => ⟨batch, "", .ok []⟩
| (number, term) :: rest =>
    match term.writeWithin batch.depth with
    | .error failure => ⟨batch, "", .error failure⟩
    | .ok line =>
        let marked := batch.mark line number
        match term.meaning batch.depth with
        | .error failure => ⟨marked, "", .error failure⟩
        | .ok value =>
            let notice := marked.warningText value
            match value.written with
            | .error failure =>
                ⟨marked, notice, .error failure⟩
            | .ok text =>
                let step := runTerms marked.unmark rest
                ⟨step.batch, notice ++ step.printed,
                  step.result.map (text :: ·)⟩

/-
  Run the whole queue.  The queue is empty afterwards, also
  when a term failed and the results are lost.
-/
def run
    (batch : Batch) :
    Step Unit :=
  let step :=
    runTerms { batch with queue := [] } batch.queue
  match step.result with
  | .error failure =>
      ⟨step.batch, step.printed, .error failure⟩
  | .ok texts =>
      ⟨{ step.batch with
          results := step.batch.results ++ texts },
        step.printed, .ok ()⟩

/- Take the oldest result. -/
def takeResult
    (batch : Batch) :
    Step String :=
  match batch.results with
  | [] => ⟨batch, "", .error (.mishap .noResult)⟩
  | text :: rest =>
      ⟨{ batch with results := rest }, "", .ok text⟩

/-
  Finish a step under the care of the reporter.  There is no
  result where a failure was printed and ends here.
-/
def guarded
    {β : Type}
    (step : Step β) :
    Step (Option β) :=
  match step.result with
  | .ok result =>
      ⟨step.batch, step.printed, .ok (some result)⟩
  | .error failure =>
      let handled := step.batch.reporter.handle failure
      ⟨{ step.batch with reporter := handled.reporter },
        step.printed ++ handled.printed,
        match handled.escaping with
        | some failure => .error failure
        | none => .ok none⟩

/- Carry on after a step that gave a result. -/
def Step.andThen
    {β γ : Type}
    (step : Step β)
    (next : Batch → β → Step γ) :
    Step γ :=
  match step.result with
  | .error failure =>
      ⟨step.batch, step.printed, .error failure⟩
  | .ok result =>
      let last := next step.batch result
      ⟨last.batch, step.printed ++ last.printed,
        last.result⟩

/- Lines of printed text, one for each result. -/
def resultLines
    (texts : List String) :
    String :=
  String.join (texts.map fun text => text ++ "\n")

/- Print every result and forget it. -/
def flush
    (batch : Batch) :
    Step Unit :=
  ⟨{ batch with results := [] },
    resultLines batch.results, .ok ()⟩

/- Read a text, run it, and print its results. -/
def execute
    (batch : Batch)
    (text : String)
    (number : Int) :
    Step Unit :=
  (batch.add text number).andThen fun batch _ =>
    batch.run.andThen fun batch _ => batch.flush

end Batch

end LamLang
