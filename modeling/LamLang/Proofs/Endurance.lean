import LamLang.Proofs.Conversation
import LamLang.Proofs.Moderate

/-
  What ends a console.

  A console stops at the commands that ask for it.  Every
  failure of a text is reported, and only a mishap, which
  has to do with the size of a number, goes on outwards.  A
  text whose integers stay moderate has no mishap.

  Key definitions include:
    * `LamLang.Mishap.OfSize`
    * `LamLang.Datum.Temperate`
    * `LamLang.Console.executed?`

  Main statements:
    * `LamLang.Datum.Temperate.allResults_contained`
    * `LamLang.Batch.guarded_resting_eq_error_iff`
    * `LamLang.console_ends_by_mishap_only`
-/

------------------------------------------------------------
-- Mishaps Of Texts
------------------------------------------------------------

namespace LamLang

/- The mishaps that have to do with the size of a number. -/
def Mishap.OfSize
    (event : Mishap) : Prop :=
  event ∈ Number.mishaps ∨
    ∃ digits, event = .numeralTooLong digits

namespace Datum

/- The mishaps of a text are all of that sort. -/
theorem ofSize_of_allResults
    {depth : Nat}
    {text : String}
    {event : Mishap}
    (hMishap :
      allResults depth text = .error (.mishap event)) :
    event.OfSize := by
  rcases bind_eq_error hMishap with
    hReading | ⟨terms, hTerms, hRunning⟩
  · have hReads :=
      allOfSourceWithin_approximates_allOfSource depth text
    rcases
      allOfSource_eq_error
        (hReads.eq_error hReading nofun) with
      hMisread | ⟨hEnd, -⟩
    · cases hMisread with
      | tooLong digits => exact .inr ⟨digits, rfl⟩
    · cases hEnd
  · rcases mapM_error hRunning with ⟨term, -, hFails⟩
    cases result_failsOnly_ordinary depth term _ hFails with
    | mishap hEvent => exact .inl hEvent

/- Short tokens are read without a mishap. -/
theorem allOfSource_contained
    {text : String}
    (hBrief :
      ∀ tokens, Token.ofSource text = .ok tokens →
        ∀ token ∈ tokens, token.Brief) :
    FailsOnly Failure.Contained (allOfSource text) := by
  apply FailsOnly.bind_of_ok
  · apply Token.ofLexemes_failsOnly
    intro token
    exact Failure.contained_cause _
  · intro tokens hTokens
    rcases allOfTokens_cases (hBrief tokens hTokens) with
      ⟨-, hClose⟩ | ⟨-, -, hEnd⟩ | ⟨-, -, hTerms⟩
    · rw [hClose]
      exact .error (Failure.contained_cause _)
    · rw [hEnd]
      exact .error (Failure.contained_cause _)
    · exact .of_exists hTerms

/- The integers of a term that was read can be written. -/
theorem IsRead.brief
    {term : Datum}
    (hRead : term.IsRead) :
    term.Brief := by
  apply hRead.of_leaves
  · intro items hItems n hNumber
    rw [numbers] at hNumber
    rcases mem_numbersOfAll.mp hNumber with
      ⟨item, hMem, hInItem⟩
    exact hItems item hMem n hInItem
  · intro leaf hLeaf hReadable n hNumber
    cases hReadable with
    | num hLegible =>
        rw [numbers, List.mem_singleton] at hNumber
        rw [← hNumber, Number.Legible,
          Number.digitCount_le_iff] at hLegible
        exact hLegible
    | symbol hAtom hName => simp [numbers] at hNumber
    | text hMark => simp [numbers] at hNumber
    | items hItems _ =>
        rw [hLeaf] at hItems
        cases hItems
  · intro negative n hNumber
    simp [numbers] at hNumber

variable {depth : Nat} {text : String}

theorem result_contained
    {term : Datum}
    (hRead : term.IsRead)
    (hModerate :
      ∀ program, Expr.ofDatum term = .ok program →
        Call.Moderate ⟨depth, program, Env.top⟩) :
    FailsOnly Failure.Contained (term.result depth) := by
  apply FailsOnly.bind_of_ok
  · apply meaning_failsOnly
    · exact Failure.contained_depthExceeded
    · exact
        Expr.ofDatum_failsOnly
          (fun cause _ => Failure.contained_cause cause) term
          hRead.brief.text_failsOnly
    · intro program hParsed
      exact eval_contained (hModerate program hParsed)
  · intro value hMeaning
    rcases meaning_eq_ok hMeaning with
      ⟨program, hParsed, hValue⟩
    have hCall := hModerate program hParsed
    exact (hCall.value hValue).written_contained

/-
  A text without numerals beyond the limit, each of whose
  terms comes to moderate values on the way.
-/
structure Temperate
    (depth : Nat)
    (text : String) :
    Prop where
  brief :
    ∀ tokens, Token.ofSource text = .ok tokens →
      ∀ token ∈ tokens, token.Brief
  moderate :
    ∀ terms, allOfSource text = .ok terms →
      ∀ term ∈ terms, ∀ program,
        Expr.ofDatum term = .ok program →
          Call.Moderate ⟨depth, program, Env.top⟩

theorem Temperate.allResults_contained
    (hTemperate : Temperate depth text) :
    FailsOnly Failure.Contained (allResults depth text) := by
  have hReads :=
    allOfSourceWithin_approximates_allOfSource depth text
  apply FailsOnly.bind_of_ok
  · exact
      hReads.failsOnly Failure.contained_depthExceeded
        (allOfSource_contained hTemperate.brief)
  · intro terms hTerms failure hError
    rcases mapM_error hError with ⟨term, hRuns, hFails⟩
    have hMem := hRuns.mem
    have hModerate :=
      hTemperate.moderate terms (hReads.eq_ok hTerms) term
        hMem
    exact
      result_contained (readWithin_of_mem hTerms hMem).isRead
        hModerate failure hFails

end Datum

end LamLang

------------------------------------------------------------
-- Failures That Escape
------------------------------------------------------------

namespace LamLang

/- A reporter that goes on lets out mishaps only. -/
theorem Reporter.escaping_eq_some_iff
    {reporter : Reporter}
    {failure : Failure}
    {fault : Fault}
    (other : Failure)
    (hFatal : reporter.fatal = false)
    (hFault : failure.reported? = some fault)
    {message : String}
    (hMessage :
      fault.highlighted reporter.colour = .ok message) :
    (reporter.handle failure).escaping = some other ↔
      other = failure ∧ ∃ event, failure = .mishap event := by
  cases failure with
  | exit status => cases hFault
  | mishap event =>
      cases hFault
      simp [handle, announce, hMessage, hFatal, eq_comm]
  | _ =>
      cases hFault
      simp [handle, announce, hMessage, hFatal]

namespace Batch

variable {colour : Bool} {depth : Nat}

/- What leaves the batch of a console. -/
theorem guarded_resting_eq_error_iff
    (text : String)
    (number : Int)
    (failure : Failure) :
    (guarded
      ((resting colour depth).execute text
        number)).result = .error failure ↔
      ∃ event,
        failure = .mishap event ∧
          Datum.allResults depth text =
            .error (.mishap event) := by
  rcases Datum.results_or_fails depth text with
    ⟨texts, hResults⟩ | ⟨actual, line, hFails⟩
  · rw [guarded_resting_of_results hResults, hResults]
    simp
  · rcases hFails.exists_reported with ⟨fault, hFault⟩
    have hFatal :
        ((resting colour depth).mark line
          number).reporter.fatal = false :=
      rfl
    rcases
      hFails.worded.exists_highlighted hFault colour with
      ⟨message, hMessage⟩
    have hEscapes (other : Failure) :=
      Reporter.escaping_eq_some_iff other hFatal hFault
        hMessage
    rw [hFails.allResults_eq,
      execute_of_fails (resting_cleared colour depth) hFails]
    simp only [guarded]
    split
    · rename_i escaped hEscaped
      rcases (hEscapes escaped).mp hEscaped with
        ⟨rfl, event, rfl⟩
      simp [eq_comm]
    · rename_i hNone
      simp only [reduceCtorEq, false_iff, not_exists,
        not_and, Except.error.injEq]
      rintro event - rfl
      rw [(hEscapes _).mpr ⟨rfl, event, rfl⟩] at hNone
      cases hNone

end Batch

end LamLang

------------------------------------------------------------
-- Turns
------------------------------------------------------------

namespace LamLang

namespace Console

/- The text that a line completes and has executed. -/
def executed?
    (console : Console)
    (line : String) :
    Option String :=
  match command line with
  | .source source =>
      let (text, more) := joinLine source console.pending
      if more then none else some text
  | _ => none

/- The commands at which a console stops. -/
def isStop
    (line : String) :
    Bool :=
  command line = .quit ∨ command line = .endOfInput

variable {colour : Bool} {depth : Nat} {console : Console}
variable {line text : String}

theorem isStop_of_executed
    (hExecuted : console.executed? line = some text) :
    isStop line = false := by
  unfold executed? at hExecuted
  unfold isStop
  cases hCommand : command line with
  | source source => simp
  | _ =>
      rw [hCommand] at hExecuted
      cases hExecuted

theorem Ready.feed_of_executed
    (hReady : Ready colour depth console)
    (hExecuted : console.executed? line = some text) :
    console.feed line =
      .done (console.lineNumber + 1)
        (Batch.guarded
          ((Batch.resting colour depth).execute text
            (console.lineNumber + 1 : Nat))) := by
  unfold executed? at hExecuted
  cases hCommand : command line with
  | source source =>
      simp only [hCommand] at hExecuted
      split at hExecuted
      · cases hExecuted
      · rename_i hMore
        have hDone :
            (joinLine source console.pending).2 = false := by
          simpa using hMore
        have hClosed :=
          (joinLine_complete_iff source console.pending).mp
            hDone
        cases hExecuted
        rw [← hReady.batch_eq, Console.feed, hCommand]
        exact readSource_of_closed hClosed
  | _ =>
      rw [hCommand] at hExecuted
      cases hExecuted

/- A line that has nothing executed cannot fail. -/
theorem result_of_not_executed
    (hExecuted : console.executed? line = none) :
    (console.feed line).result = .ok (isStop line) := by
  unfold executed? at hExecuted
  unfold feed isStop
  cases hCommand : command line with
  | source source =>
      simp only [hCommand] at hExecuted
      split at hExecuted
      · rename_i hMore
        simp [readSource, hMore]
      · cases hExecuted
  | _ => simp

theorem Turn.result_done_ne_stop
    (number : Nat)
    (step : Batch.Step (Option Unit)) :
    (Turn.done number step).result ≠ .ok true := by
  cases hResult : step.result <;>
    simp [Turn.done, hResult, Except.map]

theorem Turn.result_done_eq_error_iff
    (number : Nat)
    (step : Batch.Step (Option Unit))
    (failure : Failure) :
    (Turn.done number step).result = .error failure ↔
      step.result = .error failure := by
  cases hResult : step.result <;>
    simp [Turn.done, hResult, Except.map]

namespace Ready

theorem result_eq_stop_iff
    (hReady : Ready colour depth console) :
    (console.feed line).result = .ok true ↔
      isStop line = true := by
  cases hExecuted : console.executed? line with
  | none => simp [result_of_not_executed hExecuted]
  | some text =>
      rw [hReady.feed_of_executed hExecuted,
        isStop_of_executed hExecuted]
      simp [Turn.result_done_ne_stop]

/- A failure that leaves the console is a mishap. -/
theorem result_eq_error_iff
    (hReady : Ready colour depth console)
    (failure : Failure) :
    (console.feed line).result = .error failure ↔
      ∃ text event,
        console.executed? line = some text ∧
          failure = .mishap event ∧
          Datum.allResults depth text =
            .error (.mishap event) := by
  cases hExecuted : console.executed? line with
  | none => simp [result_of_not_executed hExecuted]
  | some text =>
      rw [hReady.feed_of_executed hExecuted,
        Turn.result_done_eq_error_iff,
        Batch.guarded_resting_eq_error_iff]
      simp

theorem printed_of_error
    (hReady : Ready colour depth console)
    (hExecuted : console.executed? line = some text)
    {failure : Failure}
    (hError :
      Datum.allResults depth text = .error failure) :
    ∃ shown fault,
      Datum.Fails depth text failure shown ∧
        failure.reported? = some fault ∧
        (console.feed line).printed =
          Reporter.located Batch.typedPath
            (console.feed line).console.lineNumber
            (Reporter.afterPlace colour shown fault) := by
  rw [hReady.feed_of_executed hExecuted]
  rcases Datum.results_or_fails depth text with
    ⟨texts, hResults⟩ | ⟨actual, shown, hFails⟩
  · rw [hResults] at hError
    cases hError
  · have hSame := hFails.allResults_eq.symm.trans hError
    cases hSame
    rcases hFails.exists_reported with ⟨fault, hFault⟩
    rcases
      Batch.guarded_resting_of_fails hFails hFault
        (console.lineNumber + 1 : Nat) with
      ⟨-, hPrinted⟩
    rw [Reporter.lineReport_eq_located hFails.line_ne_empty]
      at hPrinted
    exact ⟨shown, fault, hFails, hFault, hPrinted⟩

end Ready

end Console

end LamLang

------------------------------------------------------------
-- Endings
------------------------------------------------------------

namespace LamLang

/-
  The mishaps of a text have to do with the size of a
  number.  A new console is fed any lines, whatever came of
  each, and then one more.  It stops if and only if the line
  is a command to do so.  A failure leaves it if and only if
  the text that the line completes has a mishap.  Every
  failure of such a text is reported on the line that it
  belongs to, and if all integers on the way are moderate,
  the console goes on.
-/
theorem console_ends_by_mishap_only
    (colour fatal : Bool)
    (depth : Nat)
    (lines : List String)
    (line : String) :
    (∀ text event,
      Datum.allResults depth text =
        .error (.mishap event) → event.OfSize) ∧
    let console :=
      (Console.start (.fresh colour fatal) depth).after
        lines
    let turn := console.feed line
    (turn.result = .ok true ↔
      Console.command line = .quit ∨
        Console.command line = .endOfInput) ∧
    (∀ failure,
      turn.result = .error failure ↔
        ∃ text event,
          console.executed? line = some text ∧
            failure = .mishap event ∧
            Datum.allResults depth text =
              .error (.mishap event)) ∧
    ∀ text, console.executed? line = some text →
      (∀ failure,
        Datum.allResults depth text = .error failure →
          ∃ shown fault,
            Datum.Fails depth text failure shown ∧
              failure.reported? = some fault ∧
              turn.printed =
                "  File '<in>', line " ++
                  Number.intText turn.console.lineNumber ++
                  ":\n    " ++ shown ++ "\n" ++
                  (if colour then
                    (if fault.internal then
                      "\x1b[1m\x1b[31m[internal] \x1b[0m"
                    else
                      "") ++ "\x1b[1m\x1b[31merror: \x1b[0m"
                  else
                    (if fault.internal then "[internal] "
                    else "") ++ "error: ") ++
                  fault.template.fill
                    (fault.exprs.map fun expr =>
                      if colour then
                        "\x1b[1m" ++ expr ++ "\x1b[0m"
                      else
                        expr) ++
                  "\n" ++
                  (match fault.pointer? colour .red shown with
                  | some pointer =>
                      if fault.pointed then pointer ++ "\n"
                      else ""
                  | none => "")) ∧
      (Datum.Temperate depth text →
        turn.result = .ok false) := by
  refine
    ⟨fun text event => Datum.ofSize_of_allResults, ?_⟩
  intro console turn
  have hReady : console.Ready colour depth :=
    (Console.ready_start colour fatal depth).after lines
  have hTurn : console.feed line = turn := rfl
  clear_value turn
  subst hTurn
  have hStops :
      (console.feed line).result = .ok true ↔ _ :=
    hReady.result_eq_stop_iff
  have hFails (failure : Failure) :
      (console.feed line).result = .error failure ↔ _ :=
    hReady.result_eq_error_iff failure
  refine ⟨?_, hFails, ?_⟩
  · rw [hStops]
    simp [Console.isStop]
  · intro text hExecuted
    refine ⟨?_, ?_⟩
    · intro failure hError
      rcases hReady.printed_of_error hExecuted hError with
        ⟨shown, fault, hShown, hFault, hPrinted⟩
      refine ⟨shown, fault, hShown, hFault, ?_⟩
      rw [hPrinted]
      simp only [Reporter.located, Reporter.afterPlace,
        Reporter.errorMark, Fault.shownTexts,
        String.append_assoc]
      rfl
    intro hTemperate
    cases hResult : (console.feed line).result with
    | error failure =>
        rcases (hFails failure).mp hResult with
          ⟨same, event, hSame, rfl, hMishap⟩
        rw [hExecuted] at hSame
        cases hSame
        exact
          absurd rfl
            (hTemperate.allResults_contained _ hMishap event)
    | ok stop =>
        cases stop with
        | false => rfl
        | true =>
            have hStop := hStops.mp hResult
            rw [Console.isStop_of_executed hExecuted]
              at hStop
            cases hStop

/- A sum with an integer that floating point cannot hold. -/
def Console.overflowLine : String :=
  "((lam (s) (+ 0.5 (s (s (s (s (s 99999999999))))))) " ++
    "(lam (x) (* x x)))"

/- A line that fails so, and a list that it leaves open. -/
def Console.survivedLines : List String :=
  [Console.overflowLine, "(+ 1"]

/- The sum of one and two. -/
def Expr.smallSum : Expr Empty :=
  .app (.ident "+") [.num (.int 1), .num (.int 2)]

theorem Call.moderate_smallSum :
    Call.Moderate ⟨9, Expr.smallSum, Env.top⟩ := by
  have hNumber
      {n : Nat}
      (hSmall : n ≤ 3) :
      Value.Moderate (.num (.int n)) := by
    have hBound : 3 < Number.moderateBound := by
      decide +kernel
    rintro _ ⟨⟩
    exact hSmall.trans_lt hBound
  have hOperator :
      Call.Moderate ⟨8, .ident "+", Env.top⟩ := by
    apply moderate_of_makes
    · rintro _ ⟨⟩ n hValue
      cases hValue
    · rintro next
        (⟨index, hAsks⟩ | ⟨params, body, captured, hEnters⟩)
      · cases hAsks
      · cases hEnters
  have hOperand
      {n : Nat}
      (hSmall : n ≤ 3) :
      Call.Moderate ⟨8, .num (.int n), Env.top⟩ := by
    apply moderate_of_makes
    · rintro _ ⟨⟩
      exact hNumber hSmall
    · rintro next
        (⟨index, hAsks⟩ | ⟨params, body, captured, hEnters⟩)
      · cases hAsks
      · cases hEnters
  apply moderate_of_makes
  · rintro _ ⟨⟩
    exact hNumber (by decide)
  · rintro ⟨depth, node, env⟩ hMakes
    cases hMakes.depth_eq
    rcases hMakes with
      ⟨index, hAsks⟩ | ⟨params, body, captured, hEnters⟩
    · rcases hAsks.part with ⟨hPart, -, hEnv⟩
      cases hEnv
      match index with
      | 0 =>
          cases hPart
          exact hOperator
      | 1 =>
          cases hPart
          exact hOperand (by decide)
      | 2 =>
          cases hPart
          exact hOperand (by decide)
      | index + 3 => cases hPart
    · cases hEnters with
      | intro hFn hArgs hInner => cases hFn

theorem console_ends_by_mishap_only_smallSum :
    ((Console.start (.fresh false false) 9).after
        Console.survivedLines).executed? "2)" =
      some "(+ 1 2)" ∧
    Datum.Temperate 9 "(+ 1 2)" ∧
    (((Console.start (.fresh false false) 9).after
      Console.survivedLines).feed "2)").result =
        .ok false := by
  have hExecuted :
      ((Console.start (.fresh false false) 9).after
          Console.survivedLines).executed? "2)" =
        some "(+ 1 2)" := by
    decide +kernel
  have hTokens :
      Token.ofSource "(+ 1 2)" =
        .ok ["(", "+", "1", "2", ")"] := by
    decide +kernel
  have hTerms :
      Datum.allOfSource "(+ 1 2)" =
        .ok [Expr.smallSum.toDatum] := by
    rw [Datum.allOfSource_eq_allOfTokens hTokens]
    rfl
  have hTemperate : Datum.Temperate 9 "(+ 1 2)" := by
    constructor
    · intro tokens hOther
      cases hTokens.symm.trans hOther
      unfold Token.Brief
      decide
    · intro terms hOther term hTerm program hProgram
      cases hTerms.symm.trans hOther
      cases List.mem_singleton.mp hTerm
      cases hProgram
      exact Call.moderate_smallSum
  rcases
    console_ends_by_mishap_only false false 9
      Console.survivedLines "2)" with
    ⟨-, -, -, hTexts⟩
  exact
    ⟨hExecuted, hTemperate,
      (hTexts _ hExecuted).2 hTemperate⟩

/- A typed program can end the console. -/
theorem console_ended_by_large_integer :
    ¬ ∀ (lines : List String) (line : String),
      ∃ stop,
        (((Console.start (.fresh false false)
          defaultDepth).after lines).feed line).result =
            .ok stop := by
  intro hSurvives
  have hEnded :
      ((Console.start (.fresh false false)
        defaultDepth).feed Console.overflowLine).result =
          .error (.mishap .integerTooLarge) := by
    decide +kernel
  rcases hSurvives [] Console.overflowLine with
    ⟨stop, hResult⟩
  rw [Console.after, hEnded] at hResult
  cases hResult

end LamLang
