import LamLang.Batch
import LamLang.Proofs.Texts

/-
  Batches run whole or not at all.

  A run stops at the first term that fails and keeps none of
  the results before it; otherwise it keeps all of them, in
  order.  Either way the queue is empty afterwards.  So what
  was taken from a batch, followed by what waits in it, is
  what its successful runs gave, whatever was asked of it
  and whatever failed.

  Key definitions include:
    * `LamLang.Places.at?`
    * `LamLang.Batch.Breaks`
    * `LamLang.Batch.Action`
    * `LamLang.Batch.after`

  Main statements:
    * `LamLang.Batch.runTerms_of_results`
    * `LamLang.Batch.runTerms_of_breaks`
    * `LamLang.Batch.Kept.taken_append_results`
    * `LamLang.batches_kept_whole`
-/

------------------------------------------------------------
-- Places
------------------------------------------------------------

namespace LamLang

namespace Places

/- The place in a file, if the file is known. -/
def at?
    (path : String) :
    Places → Option Place
| [] => none
| (known, place) :: rest =>
    if known = path then some place else at? path rest

@[simp] theorem at?_set_self
    (path : String)
    (place : Place)
    (places : Places) :
    (places.set path place).at? path = some place := by
  induction places with
  | nil => simp [set, at?]
  | cons entry places ih =>
      rcases entry with ⟨known, old⟩
      by_cases hKnown : known = path
      · simp [set, at?, hKnown]
      · simp [set, at?, hKnown, ih]

@[simp] theorem at?_set_of_ne
    {path other : String}
    (hOther : other ≠ path)
    (place : Place)
    (places : Places) :
    (places.set path place).at? other =
      places.at? other := by
  induction places with
  | nil => simp [set, at?, hOther.symm]
  | cons entry places ih =>
      rcases entry with ⟨known, old⟩
      by_cases hKnown : known = path
      · simp [set, at?, hKnown, hOther.symm]
      · simp [set, at?, hKnown, ih]

/- Only the last place set in a file counts. -/
@[simp] theorem set_set
    (path : String)
    (first second : Place)
    (places : Places) :
    (places.set path first).set path second =
      places.set path second := by
  induction places with
  | nil => simp [set]
  | cons entry places ih =>
      rcases entry with ⟨known, old⟩
      by_cases hKnown : known = path
      · simp [set, hKnown]
      · simp [set, hKnown, ih]

end Places

namespace Batch

@[simp] theorem unmark_mark
    (batch : Batch)
    (line : String)
    (number : Int) :
    (batch.mark line number).unmark = batch.unmark := by
  simp [mark, unmark, Reporter.unmark, Reporter.mark]

@[simp] theorem mark_unmark
    (batch : Batch)
    (line : String)
    (number : Int) :
    batch.unmark.mark line number =
      batch.mark line number := by
  simp [mark, unmark, Reporter.unmark, Reporter.mark]

@[simp] theorem unmark_unmark
    (batch : Batch) :
    batch.unmark.unmark = batch.unmark := by
  simp [unmark, Reporter.unmark, Reporter.mark]

end Batch

end LamLang

------------------------------------------------------------
-- Terms Run In Order
------------------------------------------------------------

namespace LamLang

/- The first failure of a list is the failure of the list. -/
theorem Runs.mapM_eq_error
    {ι β : Type}
    {f : ι → Except Failure β}
    {items : List ι}
    {item : ι}
    {failure : Failure}
    (hRuns : Runs f items item)
    (hFails : f item = .error failure) :
    items.mapM f = .error failure := by
  rcases hRuns with ⟨before, later, earlier, rfl, hBefore⟩
  rw [List.mapM_append, hBefore, List.mapM_cons, hFails]
  rfl

namespace Batch

variable {entries : List (Int × Datum)}

/- The result of an entry of the queue, run alone. -/
def resultOf
    (depth : Nat)
    (entry : Int × Datum) :
    Except Failure String :=
  entry.2.result depth

/-
  An entry of the queue fails after all before it have given
  results, and this is its failure and its line.
-/
structure Breaks
    (depth : Nat)
    (entries : List (Int × Datum))
    (entry : Int × Datum)
    (failure : Failure)
    (line : String) :
    Prop where
  runs : Runs (resultOf depth) entries entry
  fails : resultOf depth entry = .error failure
  line : entry.2.write = .ok line

/- Nothing is printed for the value of a term that was read. -/
theorem warningText_eq_empty
    (batch : Batch)
    {depth : Nat}
    {term : Datum}
    {value : Value Empty}
    (hRead : term.IsRead)
    (hMeaning : term.meaning depth = .ok value) :
    batch.warningText value = "" := by
  rw [warningText, hRead.markedText?_eq_none hMeaning]

/- A term that fails ends the run on its own line. -/
theorem runTerms_cons_error
    (batch : Batch)
    {entry : Int × Datum}
    {failure : Failure}
    {line : String}
    (hRead : entry.2.ReadWithin batch.depth)
    (hLine : entry.2.write = .ok line)
    (hFails :
      resultOf batch.depth entry = .error failure)
    (rest : List (Int × Datum)) :
    runTerms batch (entry :: rest) =
      ⟨batch.mark line entry.1, "", .error failure⟩ := by
  rcases entry with ⟨number, term⟩
  rw [← Datum.writeWithin_eq hRead.nests] at hLine
  rw [runTerms, hLine]
  rcases bind_eq_error hFails with
    hMeaning | ⟨value, hMeaning, hWritten⟩
  · simp only [hMeaning]
  · have hNotice :=
      (batch.mark line number).warningText_eq_empty
        hRead.isRead hMeaning
    simp only [hMeaning, hWritten, hNotice]

/- A term with a result leaves its line and goes on. -/
theorem runTerms_cons_ok
    (batch : Batch)
    {entry : Int × Datum}
    {text : String}
    (hRead : entry.2.ReadWithin batch.depth)
    (hResult : resultOf batch.depth entry = .ok text)
    (rest : List (Int × Datum)) :
    runTerms batch (entry :: rest) =
      ⟨(runTerms batch.unmark rest).batch,
        (runTerms batch.unmark rest).printed,
        (runTerms batch.unmark rest).result.map
          (text :: ·)⟩ := by
  rcases entry with ⟨number, term⟩
  rcases hRead.exists_write with ⟨line, -, hLine, -⟩
  rcases bind_eq_ok hResult with
    ⟨value, hMeaning, hWritten⟩
  have hNotice :=
    (batch.mark line number).warningText_eq_empty
      hRead.isRead hMeaning
  rw [runTerms, hLine]
  simp only [hMeaning, hWritten, hNotice, unmark_mark,
    String.empty_append]

/- Terms that all have results are run to the end. -/
theorem runTerms_of_results
    (batch : Batch)
    (hRead :
      ∀ entry ∈ entries, entry.2.ReadWithin batch.depth)
    {texts : List String}
    (hTexts :
      entries.mapM (resultOf batch.depth) = .ok texts) :
    runTerms batch entries =
      ⟨if entries.isEmpty then batch else batch.unmark, "",
        .ok texts⟩ := by
  induction entries generalizing batch texts with
  | nil =>
      cases hTexts
      rfl
  | cons entry rest ih =>
      rw [List.mapM_cons] at hTexts
      rcases bind_eq_ok hTexts with ⟨text, hText, hNext⟩
      rcases bind_eq_ok hNext with ⟨later, hLater, hPure⟩
      cases hPure
      have hRest :=
        ih batch.unmark
          (fun other hMem => hRead other (by simp [hMem]))
          hLater
      rw [runTerms_cons_ok batch (hRead entry (by simp))
        hText, hRest]
      simp [Except.map]

/- A run that breaks stops there, and nothing is printed. -/
theorem runTerms_of_breaks
    (batch : Batch)
    (hRead :
      ∀ entry ∈ entries, entry.2.ReadWithin batch.depth)
    {entry : Int × Datum}
    {failure : Failure}
    {line : String}
    (hBreaks :
      Breaks batch.depth entries entry failure line) :
    runTerms batch entries =
      ⟨batch.mark line entry.1, "", .error failure⟩ := by
  rcases hBreaks with
    ⟨⟨before, later, texts, rfl, hBefore⟩, hFails, hLine⟩
  -- The terms before the failing one are left one by one.
  induction before generalizing batch texts with
  | nil =>
      exact
        runTerms_cons_error batch
          (hRead entry (by simp)) hLine hFails later
  | cons first before ih =>
      rw [List.mapM_cons] at hBefore
      rcases bind_eq_ok hBefore with ⟨text, hText, hNext⟩
      rcases bind_eq_ok hNext with ⟨texts, hTexts, hPure⟩
      have hRest :=
        ih batch.unmark hFails texts hTexts
          (fun other hMem => hRead other (by simp [hMem]))
      rw [List.cons_append,
        runTerms_cons_ok batch (hRead first (by simp)) hText,
        hRest]
      simp [Except.map]

/- A queue has all its results, or it breaks somewhere. -/
theorem results_or_breaks
    (depth : Nat)
    (hRead :
      ∀ entry ∈ entries, entry.2.ReadWithin depth) :
    (∃ texts, entries.mapM (resultOf depth) = .ok texts) ∨
      ∃ entry failure line,
        Breaks depth entries entry failure line := by
  cases hTexts : entries.mapM (resultOf depth) with
  | ok texts => exact .inl ⟨texts, rfl⟩
  | error failure =>
      right
      rcases mapM_error hTexts with ⟨entry, hRuns, hFails⟩
      rcases (hRead entry hRuns.mem).exists_write with
        ⟨line, hLine, -⟩
      exact
        ⟨entry, failure, line, ⟨hRuns, hFails, hLine⟩⟩

end Batch

end LamLang

------------------------------------------------------------
-- Adding And Running
------------------------------------------------------------

namespace LamLang

namespace Batch

variable (batch : Batch)

/- The terms of a text are put into the queue together. -/
theorem add_of_ok
    {text : String}
    {terms : List Datum}
    (hTerms :
      Datum.allOfSourceWithin batch.depth text = .ok terms)
    (number : Int) :
    batch.add text number =
      ⟨{ batch.unmark with
          queue := batch.queue ++
            terms.map fun term => (number, term) },
        "", .ok ()⟩ := by
  have hAdd :
      batch.add text number =
        ⟨{ (batch.mark text number).unmark with
            queue := batch.queue ++
              terms.map fun term => (number, term) },
          "", .ok ()⟩ := by
    rw [add, hTerms]
    rfl
  rw [hAdd, unmark_mark]

/- A text that is not read leaves a line behind only. -/
theorem add_of_error
    {text : String}
    {failure : Failure}
    (hError :
      Datum.allOfSourceWithin batch.depth text =
        .error failure)
    (number : Int) :
    batch.add text number =
      ⟨batch.mark text number, "", .error failure⟩ := by
  simp only [add, hError]

variable
  (hRead :
    ∀ entry ∈ batch.queue, entry.2.ReadWithin batch.depth)

include hRead

/- A run whose terms all have results keeps them all. -/
theorem run_of_results
    {texts : List String}
    (hTexts :
      batch.queue.mapM (resultOf batch.depth) =
        .ok texts) :
    batch.run =
      ⟨{ (if batch.queue.isEmpty then batch
            else batch.unmark) with
          queue := []
          results := batch.results ++ texts },
        "", .ok ()⟩ := by
  have hTerms :=
    runTerms_of_results { batch with queue := [] } hRead
      hTexts
  rw [run, hTerms]
  cases batch.queue <;> rfl

/- A run that breaks keeps no result. -/
theorem run_of_breaks
    {entry : Int × Datum}
    {failure : Failure}
    {line : String}
    (hBreaks :
      Breaks batch.depth batch.queue entry failure line) :
    batch.run =
      ⟨{ batch.mark line entry.1 with queue := [] },
        "", .error failure⟩ := by
  have hTerms :=
    runTerms_of_breaks { batch with queue := [] } hRead
      hBreaks
  rw [run, hTerms]
  rfl

end Batch

end LamLang

------------------------------------------------------------
-- Histories
------------------------------------------------------------

namespace LamLang

namespace Batch

/- What can be asked of a batch. -/
inductive Action where
| add (text : String) (number : Int)
| run
| take
deriving DecidableEq, Repr

/- A step with another reading of its result. -/
def Step.map
    {β γ : Type}
    (f : β → γ)
    (step : Step β) :
    Step γ :=
  ⟨step.batch, step.printed, step.result.map f⟩

theorem Step.map_of_ok
    {β γ : Type}
    {step : Step β}
    {b : β}
    (hResult : step.result = .ok b)
    (f : β → γ) :
    (step.map f).result = .ok (f b) := by
  simp [map, hResult, Except.map]

theorem Step.map_of_error
    {β γ : Type}
    {step : Step β}
    {failure : Failure}
    (hResult : step.result = .error failure)
    (f : β → γ) :
    (step.map f).result = .error failure := by
  simp [map, hResult, Except.map]

/- Do what is asked.  Only taking gives a text. -/
def perform
    (batch : Batch) :
    Action → Step (Option String)
| .add text number =>
    (batch.add text number).map fun _ => none
| .run => batch.run.map fun _ => none
| .take => batch.takeResult.map some

/-
  Do what is asked, under the care of the reporter or not.
-/
def act
    (batch : Batch)
    (guard : Bool)
    (action : Action) :
    Step (Option String) :=
  if guard then
    (guarded (batch.perform action)).map Option.join
  else
    batch.perform action

/- The batch after a history of actions. -/
def after
    (batch : Batch) :
    List (Bool × Action) → Batch
| [] => batch
| (guard, action) :: rest =>
    (batch.act guard action).batch.after rest

/- The text that a step has given out, if any. -/
def Step.released
    (step : Step (Option String)) :
    List String :=
  match step.result with
  | .ok (some text) => [text]
  | _ => []

/- All texts taken in a history, in order. -/
def taken
    (batch : Batch) :
    List (Bool × Action) → List String
| [] => []
| (guard, action) :: rest =>
    (batch.act guard action).released ++
      (batch.act guard action).batch.taken rest

/-
  What an action adds to the results: those of all terms in
  the queue if it is a run and each of them has one.
-/
def gained
    (batch : Batch) :
    Action → List String
| .run =>
    match batch.queue.mapM (resultOf batch.depth) with
    | .ok texts => texts
    | .error _ => []
| _ => []

/- The results of all successful runs of a history. -/
def produced
    (batch : Batch) :
    List (Bool × Action) → List String
| [] => []
| (guard, action) :: rest =>
    batch.gained action ++
      (batch.act guard action).batch.produced rest

/- A batch as it was opened, with a queue of terms read. -/
structure Kept
    (path : String)
    (depth : Nat)
    (batch : Batch) :
    Prop where
  path_eq : batch.path = path
  depth_eq : batch.depth = depth
  read : ∀ entry ∈ batch.queue, entry.2.ReadWithin depth

/- Care changes nothing but the reporter. -/
theorem guarded_batch
    {β : Type}
    (step : Step β) :
    ∃ reporter,
      (guarded step).batch =
        { step.batch with reporter := reporter } := by
  unfold guarded
  split
  · exact ⟨step.batch.reporter, rfl⟩
  · exact ⟨_, rfl⟩

theorem act_batch
    (batch : Batch)
    (guard : Bool)
    (action : Action) :
    ∃ reporter,
      (batch.act guard action).batch =
        { (batch.perform action).batch with
          reporter := reporter } := by
  cases guard with
  | false => exact ⟨_, rfl⟩
  | true => exact guarded_batch (batch.perform action)

/- A step that succeeds does so under care, too. -/
theorem act_result_of_ok
    {batch : Batch}
    {action : Action}
    {text? : Option String}
    (hResult : (batch.perform action).result = .ok text?)
    (guard : Bool) :
    (batch.act guard action).result = .ok text? := by
  cases guard with
  | false => exact hResult
  | true => simp [act, guarded, hResult, Step.map, Except.map]

/- Nothing is given out by a step that fails. -/
theorem released_of_error
    {batch : Batch}
    {action : Action}
    {failure : Failure}
    (hResult :
      (batch.perform action).result = .error failure)
    (guard : Bool) :
    (batch.act guard action).released = [] := by
  cases guard with
  | false => simp [act, Step.released, hResult]
  | true =>
      simp only [act, guarded, hResult, Step.map,
        Step.released, if_true]
      cases
        ((batch.perform action).batch.reporter.handle
          failure).escaping <;> rfl

/- A new batch has nothing to keep yet. -/
theorem kept_start
    (reporter : Reporter)
    (path : String)
    (depth : Nat)
    (typed : Bool) :
    Kept path depth (start reporter path depth typed) :=
  ⟨rfl, rfl, by simp [start]⟩

namespace Kept

variable {path : String} {depth : Nat} {batch : Batch}

/- The terms that an action queues were read. -/
theorem perform
    (hKept : Kept path depth batch)
    (action : Action) :
    Kept path depth (batch.perform action).batch := by
  rcases hKept with ⟨hPath, hDepth, hRead⟩
  cases action with
  | add text number =>
      cases hTerms :
          Datum.allOfSourceWithin batch.depth text with
      | error failure =>
          simp only [Batch.perform,
            batch.add_of_error hTerms]
          exact ⟨hPath, hDepth, hRead⟩
      | ok terms =>
          simp only [Batch.perform, batch.add_of_ok hTerms]
          refine ⟨hPath, hDepth, ?_⟩
          intro entry hMem
          rcases List.mem_append.mp hMem with hOld | hNew
          · exact hRead entry hOld
          · rcases List.mem_map.mp hNew with
              ⟨term, hTerm, rfl⟩
            rw [hDepth] at hTerms
            exact Datum.readWithin_of_mem hTerms hTerm
  | run =>
      rw [← hDepth] at hRead
      rcases results_or_breaks batch.depth hRead with
        ⟨texts, hTexts⟩ | ⟨entry, failure, line, hBreaks⟩
      · simp only [Batch.perform,
          batch.run_of_results hRead hTexts]
        refine ⟨?_, ?_, nofun⟩
        · cases batch.queue <;> exact hPath
        · cases batch.queue <;> exact hDepth
      · simp only [Batch.perform,
          batch.run_of_breaks hRead hBreaks]
        exact ⟨hPath, hDepth, nofun⟩
  | take =>
      simp only [Batch.perform, takeResult]
      cases batch.results <;> exact ⟨hPath, hDepth, hRead⟩

theorem act
    (hKept : Kept path depth batch)
    (guard : Bool)
    (action : Action) :
    Kept path depth (batch.act guard action).batch := by
  rcases hKept.perform action with ⟨hPath, hDepth, hRead⟩
  rcases batch.act_batch guard action with
    ⟨reporter, hBatch⟩
  rw [hBatch]
  exact ⟨hPath, hDepth, hRead⟩

theorem after
    (hKept : Kept path depth batch)
    (history : List (Bool × Action)) :
    Kept path depth (batch.after history) := by
  induction history generalizing batch with
  | nil => exact hKept
  | cons entry history ih =>
      exact ih (hKept.act entry.1 entry.2)

/-
  A run empties the queue.  It keeps the results of all its
  terms, or else it ends as the first term that fails, keeps
  no result and stays on the line of that term.
-/
theorem run_outcome
    (hKept : Kept path depth batch)
    (guard : Bool) :
    (batch.act guard .run).batch.queue = [] ∧
      ((∃ texts,
        batch.queue.mapM (resultOf depth) = .ok texts ∧
          (batch.act guard .run).result = .ok none ∧
          (batch.act guard .run).batch.results =
            batch.results ++ texts) ∨
      ∃ entry failure line,
        Breaks depth batch.queue entry failure line ∧
          batch.run.result = .error failure ∧
          (batch.act guard .run).batch.results =
            batch.results ∧
          batch.run.batch.reporter.places.at? path =
            some ⟨some line, some entry.1⟩ ∧
          ∀ other, other ≠ path →
            batch.run.batch.reporter.places.at? other =
              batch.reporter.places.at? other) := by
  rcases hKept with ⟨rfl, rfl, hRead⟩
  rcases batch.act_batch guard .run with ⟨reporter, hBatch⟩
  rw [hBatch]
  rcases results_or_breaks batch.depth hRead with
    ⟨texts, hTexts⟩ | ⟨entry, failure, line, hBreaks⟩
  · have hRun := batch.run_of_results hRead hTexts
    have hResult :
        (batch.perform .run).result = .ok none :=
      Step.map_of_ok (by rw [hRun]) _
    refine ⟨?_, .inl ⟨texts, hTexts, ?_, ?_⟩⟩
    · simp [Batch.perform, hRun, Step.map]
    · exact act_result_of_ok hResult guard
    · simp [Batch.perform, hRun, Step.map]
  · have hRun := batch.run_of_breaks hRead hBreaks
    refine
      ⟨?_, .inr ⟨entry, failure, line, hBreaks, ?_, ?_, ?_,
        ?_⟩⟩
    · simp [Batch.perform, hRun, Step.map]
    · rw [hRun]
    · simp [Batch.perform, hRun, Step.map, mark]
    · simp [hRun, mark, Reporter.mark]
    · intro other hOther
      simp [hRun, mark, Reporter.mark, hOther]

end Kept

/-
  A text is queued whole, or nothing changes.  It is refused
  as it would be without a bound, unless the bound is
  exceeded.
-/
theorem add_outcome
    {batch : Batch}
    {depth : Nat}
    (hDepth : batch.depth = depth)
    (guard : Bool)
    (text : String)
    (number : Int) :
    (batch.act guard (.add text number)).batch.results =
        batch.results ∧
      ((∃ terms,
        Datum.allOfSourceWithin depth text = .ok terms ∧
          Datum.allOfSource text = .ok terms ∧
          (batch.act guard (.add text number)).result =
            .ok none ∧
          (batch.act guard (.add text number)).batch.queue =
            batch.queue ++
              terms.map fun term => (number, term)) ∨
      ∃ failure,
        Datum.allOfSourceWithin depth text =
            .error failure ∧
          (failure ≠ .depthExceeded →
            Datum.allOfSource text = .error failure) ∧
          (batch.add text number).result = .error failure ∧
          (batch.act guard (.add text number)).batch.queue =
            batch.queue) := by
  rcases batch.act_batch guard (.add text number) with
    ⟨reporter, hBatch⟩
  subst hDepth
  rw [hBatch]
  have hReads :=
    Datum.allOfSourceWithin_approximates_allOfSource
      batch.depth text
  cases hTerms :
      Datum.allOfSourceWithin batch.depth text with
  | ok terms =>
      have hAdd := batch.add_of_ok hTerms number
      have hResult :
          (batch.perform (.add text number)).result =
            .ok none :=
        Step.map_of_ok (by rw [hAdd]) _
      refine
        ⟨?_, .inl ⟨terms, rfl, hReads.eq_ok hTerms, ?_, ?_⟩⟩
      · simp [perform, hAdd, Step.map, unmark]
      · exact act_result_of_ok hResult guard
      · simp [perform, hAdd, Step.map]
  | error failure =>
      have hAdd := batch.add_of_error hTerms number
      refine
        ⟨?_, .inr ⟨failure, rfl, hReads.eq_error hTerms, ?_,
          ?_⟩⟩
      · simp [perform, hAdd, Step.map, mark]
      · rw [hAdd]
      · simp [perform, hAdd, Step.map, mark]

/- The oldest result is taken, if there is one. -/
theorem take_outcome
    (batch : Batch)
    (guard : Bool) :
    (batch.act guard .take).batch.queue = batch.queue ∧
      ((∃ text,
        (batch.act guard .take).result = .ok (some text) ∧
          batch.results =
            text :: (batch.act guard .take).batch.results) ∨
      (batch.takeResult.result =
          .error (.mishap .noResult) ∧
        batch.results = [] ∧
        (batch.act guard .take).batch.results = [])) := by
  rcases batch.act_batch guard .take with
    ⟨reporter, hBatch⟩
  rw [hBatch]
  cases hResults : batch.results with
  | nil =>
      simp [perform, takeResult, hResults, Step.map]
  | cons text rest =>
      have hResult :
          (batch.perform .take).result =
            .ok (some text) :=
        Step.map_of_ok (by rw [takeResult, hResults]) _
      refine ⟨?_, .inl ⟨text, ?_, ?_⟩⟩
      · simp [perform, takeResult, hResults, Step.map]
      · exact act_result_of_ok hResult guard
      · simp [perform, takeResult, hResults, Step.map]

end Batch

end LamLang

------------------------------------------------------------
-- Nothing Lost
------------------------------------------------------------

namespace LamLang

namespace Batch

variable {path : String} {depth : Nat}

/- What an action gains is taken at once or waits at the end. -/
theorem Kept.released_append_results
    {batch : Batch}
    (hKept : Kept path depth batch)
    (guard : Bool)
    (action : Action) :
    (batch.act guard action).released ++
        (batch.act guard action).batch.results =
      batch.results ++ batch.gained action := by
  cases action with
  | add text number =>
      rcases add_outcome hKept.depth_eq guard text number with
        ⟨hResults,
          ⟨terms, -, -, hResult, -⟩ |
          ⟨failure, -, -, hError, -⟩⟩
      · simp [hResults, Step.released, hResult, gained]
      · have hFailed :
            (batch.perform (.add text number)).result =
              .error failure :=
          Step.map_of_error hError _
        simp [hResults, released_of_error hFailed, gained]
  | run =>
      rcases hKept.run_outcome guard with
        ⟨-, ⟨texts, hTexts, hResult, hResults⟩ |
          ⟨entry, failure, line, hBreaks, hError, hResults,
            -⟩⟩
      · rw [← hKept.depth_eq] at hTexts
        simp [hResults, Step.released, hResult, gained,
          hTexts]
      · have hFailed :
            (batch.perform .run).result =
              .error failure :=
          Step.map_of_error hError _
        have hNone :=
          hBreaks.runs.mapM_eq_error hBreaks.fails
        rw [← hKept.depth_eq] at hNone
        simp [hResults, released_of_error hFailed, gained,
          hNone]
  | take =>
      rcases batch.take_outcome guard with
        ⟨-, ⟨text, hResult, hResults⟩ |
          ⟨hError, hNone, hResults⟩⟩
      · simp [Step.released, hResult, hResults, gained]
      · have hFailed :
            (batch.perform .take).result =
              .error (.mishap .noResult) :=
          Step.map_of_error hError _
        simp [hResults, hNone, released_of_error hFailed,
          gained]

/- What was taken and what waits is what runs have given. -/
theorem Kept.taken_append_results
    {batch : Batch}
    (hKept : Kept path depth batch)
    (history : List (Bool × Action)) :
    batch.taken history ++ (batch.after history).results =
      batch.results ++ batch.produced history := by
  induction history generalizing batch with
  | nil => simp [taken, Batch.after, produced]
  | cons entry history ih =>
      rcases entry with ⟨guard, action⟩
      have hHere :=
        hKept.released_append_results guard action
      have hLater := ih (hKept.act guard action)
      rw [taken, Batch.after, produced, List.append_assoc,
        hLater, ← List.append_assoc, hHere,
        List.append_assoc]

end Batch

/-
  Whatever was asked of a batch before, under care or not:
  a text is queued with all its terms, in order, or nothing
  is queued, since the text cannot be read or exceeds the
  bound on depth.  A run empties the queue, and either it keeps
  the results of all its terms, as each has it alone, or it
  fails as the first that fails does, keeps none, and stands
  on the line of that term.  So the texts taken, followed by
  the results that wait, are those of the successful runs.
-/
theorem batches_kept_whole
    (reporter : Reporter)
    (path : String)
    (depth : Nat)
    (typed : Bool)
    (history : List (Bool × Batch.Action)) :
    let first := Batch.start reporter path depth typed
    let batch := first.after history
    (∀ guard text number,
      let step := batch.act guard (.add text number)
      step.batch.results = batch.results ∧
        ((∃ terms,
          Datum.allOfSourceWithin depth text = .ok terms ∧
            Datum.allOfSource text = .ok terms ∧
            step.result = .ok none ∧
            step.batch.queue =
              batch.queue ++
                terms.map fun term => (number, term)) ∨
        ∃ failure,
          Datum.allOfSourceWithin depth text =
              .error failure ∧
            (failure ≠ .depthExceeded →
              Datum.allOfSource text = .error failure) ∧
            (batch.add text number).result =
              .error failure ∧
            step.batch.queue = batch.queue)) ∧
    (∀ guard,
      let step := batch.act guard .run
      step.batch.queue = [] ∧
        ((∃ texts,
          batch.queue.mapM (Batch.resultOf depth) =
              .ok texts ∧
            step.result = .ok none ∧
            step.batch.results = batch.results ++ texts) ∨
        ∃ entry failure line,
          Batch.Breaks depth batch.queue entry failure
              line ∧
            batch.run.result = .error failure ∧
            step.batch.results = batch.results ∧
            batch.run.batch.reporter.places.at? path =
              some ⟨some line, some entry.1⟩ ∧
            ∀ other, other ≠ path →
              batch.run.batch.reporter.places.at? other =
                batch.reporter.places.at? other)) ∧
    (∀ guard,
      let step := batch.act guard .take
      step.batch.queue = batch.queue ∧
        ((∃ text,
          step.result = .ok (some text) ∧
            batch.results = text :: step.batch.results) ∨
        (batch.takeResult.result =
            .error (.mishap .noResult) ∧
          batch.results = [] ∧
          step.batch.results = []))) ∧
    first.taken history ++ batch.results =
      first.produced history := by
  intro first batch
  have hFirst : first.Kept path depth :=
    Batch.kept_start reporter path depth typed
  refine ⟨?adds, ?runs, ?takes, ?keeps⟩
  case adds =>
    intro guard text number
    exact
      Batch.add_outcome (hFirst.after history).depth_eq guard
        text number
  case runs =>
    intro guard
    exact (hFirst.after history).run_outcome guard
  case takes =>
    intro guard
    exact batch.take_outcome guard
  case keeps =>
    have hNone : first.results = [] := rfl
    have hAll := hFirst.taken_append_results history
    rw [hNone, List.nil_append] at hAll
    exact hAll

/-
  One batch is run and one of its results taken, a text is
  not read, and the terms that wait then break in the
  middle.
-/
def Batch.mixedHistory : List (Bool × Batch.Action) :=
  [(false, .add "1 2" 1), (false, .run), (true, .take),
    (false, .add "(3" 2), (false, .add "4 y 5" 3)]

/- A reporter that is at work on another file. -/
def Reporter.busy : Reporter :=
  (Reporter.fresh false false).mark Batch.argumentPath
    ⟨some "z", some 9⟩

def Batch.mixed : Batch :=
  .start Reporter.busy Batch.typedPath 5 true

theorem batches_kept_whole_mixed :
    Batch.argumentPath ≠ Batch.typedPath ∧
      ((Batch.mixed.after Batch.mixedHistory).act true
        .run).batch.queue = [] ∧
      ((Batch.mixed.after Batch.mixedHistory).act true
        .run).batch.results = ["2"] ∧
      (Batch.mixed.after Batch.mixedHistory
        ).run.batch.reporter.places.at? Batch.argumentPath =
          some ⟨some "z", some 9⟩ ∧
      Batch.mixed.taken Batch.mixedHistory = ["1"] ∧
      Batch.mixed.produced Batch.mixedHistory =
        ["1", "2"] := by
  have hOther : Batch.argumentPath ≠ Batch.typedPath := by
    decide
  have hResults :
      (Batch.mixed.after Batch.mixedHistory).results =
        ["2"] := by
    decide +kernel
  have hFails :
      ((Batch.mixed.after Batch.mixedHistory).queue.mapM
        (Batch.resultOf 5)).isOk = false := by
    decide +kernel
  have hTaken :
      Batch.mixed.taken Batch.mixedHistory = ["1"] := by
    decide +kernel
  have hPlace :
      (Batch.mixed.after Batch.mixedHistory
        ).reporter.places.at? Batch.argumentPath =
          some ⟨some "z", some 9⟩ := by
    decide +kernel
  unfold Batch.mixed at *
  rcases
    batches_kept_whole Reporter.busy Batch.typedPath 5 true
      Batch.mixedHistory with
    ⟨-, hRuns, -, hKeeps⟩
  rw [hTaken, hResults] at hKeeps
  rcases hRuns true with
    ⟨hEmpty, ⟨texts, hTexts, -⟩ |
      ⟨entry, failure, line, -, -, hSame, -, hOthers⟩⟩
  · rw [hTexts] at hFails
    cases hFails
  · exact
      ⟨hOther, hEmpty, hSame.trans hResults,
        (hOthers Batch.argumentPath hOther).trans hPlace,
        hTaken, hKeeps.symm⟩

end LamLang
