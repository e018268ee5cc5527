import LamLang.Proofs.Conversation
import LamLang.Proofs.Depth

/-
  The console and the argument of the program.

  A text that is typed in is treated as one that is given as
  an argument, whatever was typed in before.  Only the place
  that a report names is different.

  Main statements:
    * `LamLang.CommandLine.run_single`
    * `LamLang.Console.feed_of_source`
    * `LamLang.front_ends_agree`
-/

------------------------------------------------------------
-- One Argument
------------------------------------------------------------

namespace LamLang

namespace CommandLine

variable {text : String}

theorem depthOf_default :
    depthOf (some defaultDepth) = .ok defaultDepth :=
  rfl

/- An argument alone leaves the limit as it is. -/
theorem limit?_of_single
    {limit? : Option Int}
    (hRequest :
      request [text] = .run ⟨some text, limit?⟩) :
    limit? = some (defaultDepth : Int) := by
  by_cases hSeparator : text = separator
  · subst hSeparator
    cases hRequest
  · have hWord : (text != separator) = true := by
      simpa using hSeparator
    simp only [request, List.takeWhile, List.dropWhile,
      hWord, List.map_cons, List.map_nil] at hRequest
    cases hArgument : classify text with
    | word other =>
        have hOptions :
            (⟨some other, some (defaultDepth : Int)⟩ :
              Options) = ⟨some text, limit?⟩ := by
          simpa [hArgument, firstAmbiguous?, requestFrom,
            Seen.takeWord, Seen.finish] using hRequest
        cases hOptions
        rfl
    | limitValue value =>
        cases hLimit : attachedLimit? value <;>
          simp [hArgument, firstAmbiguous?, requestFrom,
            hLimit, Seen.takeLimit, Seen.finish] at hRequest
    | helpGroup letters =>
        simp only [hArgument, firstAmbiguous?, requestFrom]
          at hRequest
        split at hRequest <;> cases hRequest
    | _ =>
        simp [hArgument, firstAmbiguous?, requestFrom,
          Seen.finish, Seen.takeExtra] at hRequest

theorem run_single
    {colour : Bool}
    {limit? : Option Int}
    (hRequest :
      request [text] = .run ⟨some text, limit?⟩)
    (input : String) :
    run colour [text] input =
      evaluate (.fresh colour true) defaultDepth text := by
  rw [limit?_of_single hRequest] at hRequest
  exact run_of_request hRequest depthOf_default input

end CommandLine

end LamLang

------------------------------------------------------------
-- One Line
------------------------------------------------------------

namespace LamLang

namespace Console

/- A text is executed at once if nothing waits for it. -/
theorem feed_of_source
    {console : Console}
    {text : String}
    (hPending : console.pending = "")
    (hCommand : command text = .source text)
    (hStripped : Text.strip text = text)
    (hClosed : Token.balance text ≤ 0) :
    console.feed text =
      .done (console.lineNumber + 1)
        (Batch.guarded
          (console.batch.execute text
            (console.lineNumber + 1 : Nat))) := by
  have hJoined :
      (joinLine text console.pending).1 = text := by
    rw [hPending, joinLine_alone, hStripped]
  have hFeed :
      console.feed text = console.readSource text := by
    rw [feed, hCommand]
  rw [← hJoined] at hClosed
  rw [hFeed, readSource_of_closed hClosed, hJoined]

end Console

end LamLang

------------------------------------------------------------
-- Agreement
------------------------------------------------------------

namespace LamLang

/-
  A text is typed in after any lines, none of which it has
  to complete, or it is given as the only argument.  If it
  exceeds neither bound on depth, both come to the same.
  Either every term has a result, and one line is printed
  for each, in order; or nothing is printed but one report,
  which differs in the place it names.  Then the program
  ends with status one, and the console goes on after a
  fault of the language.
-/
theorem front_ends_agree
    (colour fatal : Bool)
    (depth : Nat)
    (lines : List String)
    (text input : String)
    (limit? : Option Int)
    (hStripped : Text.strip text = text)
    (hClosed : Token.balance text ≤ 0)
    (hCommand : Console.command text = .source text)
    (hRequest :
      CommandLine.request [text] =
        .run ⟨some text, limit?⟩)
    (hPending :
      ((Console.start (.fresh colour fatal) depth).after
        lines).pending = "")
    (hTyped :
      Datum.allResults depth text ≠
        .error .depthExceeded)
    (hGiven :
      Datum.allResults defaultDepth text ≠
        .error .depthExceeded) :
    let console :=
      (Console.start (.fresh colour fatal) depth).after
        lines
    let turn := console.feed text
    let transcript := CommandLine.run colour [text] input
    turn.console.lineNumber = console.lineNumber + 1 ∧
    transcript.err = "" ∧
    Datum.allResults depth text =
      Datum.allResults defaultDepth text ∧
    ((∃ texts,
      Datum.allResults depth text = .ok texts ∧
        turn.printed =
          String.join (texts.map fun text => text ++ "\n") ∧
        transcript.out =
          String.join (texts.map fun text => text ++ "\n") ∧
        turn.result = .ok false ∧
        transcript.failure? = none) ∨
    ∃ failure fault line,
      Datum.Fails depth text failure line ∧
        failure.reported? = some fault ∧
        turn.printed =
          "  File '<in>', line " ++
            Number.intText turn.console.lineNumber ++
            Reporter.afterPlace colour line fault ∧
        transcript.out =
          "  File '<expr>', line 1" ++
            Reporter.afterPlace colour line fault ∧
        transcript.failure? = some (.exit (.code 1)) ∧
        ((∃ cause, failure = .cause cause) →
          turn.result = .ok false)) := by
  intro console turn transcript
  have hReady : console.Ready colour depth :=
    (Console.ready_start colour fatal depth).after lines
  have hTurn : turn = _ :=
    Console.feed_of_source hPending hCommand hStripped
      hClosed
  rw [hReady.batch_eq] at hTurn
  have hTranscript : transcript = _ :=
    CommandLine.run_single hRequest input
  rw [hTurn, hTranscript]
  rcases Datum.settled_agree hTyped hGiven with
    ⟨texts, hHere, hThere⟩ | ⟨failure, line, hHere, hThere⟩
  · rw [Batch.guarded_resting_of_results hHere,
      CommandLine.evaluate_of_results hThere]
    exact
      ⟨rfl, rfl, hHere.trans hThere.symm,
        .inl ⟨texts, hHere, rfl, rfl, rfl, rfl⟩⟩
  · rcases hHere.exists_reported with ⟨fault, hFault⟩
    have hShown := hHere.line_ne_empty
    rcases
      Batch.guarded_resting_of_fails hHere hFault
        (console.lineNumber + 1 : Nat) with
      ⟨-, hPrinted⟩
    rw [Reporter.lineReport_eq_located hShown] at hPrinted
    rw [CommandLine.evaluate_of_fails hThere hFault,
      Reporter.lineReport_eq_located hShown]
    refine
      ⟨rfl, rfl,
        hHere.allResults_eq.trans hThere.allResults_eq.symm,
        .inr ⟨failure, fault, line, hHere, hFault, hPrinted,
          rfl, rfl, ?_⟩⟩
    rintro ⟨cause, rfl⟩
    simp only [Console.Turn.done,
      Batch.guarded_resting_of_cause hHere]
    rfl

/- Lines with faults, and a text in two of them. -/
def Console.troubledLines : List String :=
  ["y", "(+ 1 \"x\")", "(+ 1", "2)"]

/- A text whose second term fails. -/
def Console.failingText : String := "(+ 1 2) (+ 1 z) 3"

theorem front_ends_agree_failingText :
    Console.command Console.failingText =
        .source Console.failingText ∧
      CommandLine.request [Console.failingText] =
        .run ⟨some Console.failingText,
          some (defaultDepth : Int)⟩ ∧
      ((Console.start (.fresh false true) 500).after
        Console.troubledLines).pending = "" ∧
      (CommandLine.run false [Console.failingText]
        "").failure? = some (.exit (.code 1)) ∧
      ∃ rest,
        (((Console.start (.fresh false true) 500).after
          Console.troubledLines).feed
            Console.failingText).printed =
          "  File '<in>', line 5" ++ rest ∧
        (CommandLine.run false [Console.failingText]
          "").out =
          "  File '<expr>', line 1" ++ rest := by
  have hCommand :
      Console.command Console.failingText =
        .source Console.failingText := by
    decide +kernel
  have hRequest :
      CommandLine.request [Console.failingText] =
        .run ⟨some Console.failingText,
          some (defaultDepth : Int)⟩ := by
    decide +kernel
  have hPending :
      ((Console.start (.fresh false true) 500).after
        Console.troubledLines).pending = "" := by
    decide +kernel
  have hNumber :
      ((Console.start (.fresh false true) 500).after
        Console.troubledLines).lineNumber = 4 := by
    decide +kernel
  have hFails :
      (Datum.allResults 500 Console.failingText).isOk =
        false := by
    decide +kernel
  rcases
    front_ends_agree false true 500 Console.troubledLines
      Console.failingText "" _ (by decide +kernel)
      (by decide +kernel) hCommand
      hRequest hPending (by decide +kernel)
      (by decide +kernel) with
    ⟨hNext, -, -, ⟨texts, hTexts, -⟩ |
      ⟨failure, fault, line, -, -, hTyped, hGiven, hExit,
        -⟩⟩
  · rw [hTexts] at hFails
    cases hFails
  · rw [hNumber] at hNext
    rw [hNext] at hTyped
    exact
      ⟨hCommand, hRequest, hPending, hExit, _, hTyped,
        hGiven⟩

end LamLang
