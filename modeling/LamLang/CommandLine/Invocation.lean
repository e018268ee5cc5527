import LamLang.CommandLine.Arguments
import LamLang.Console

/-
  The whole program, from its arguments to its output.

  Key definitions include:
    * `LamLang.CommandLine.Transcript`
    * `LamLang.CommandLine.Launch`
    * `LamLang.CommandLine.launch`
    * `LamLang.CommandLine.run`

  With an expression the program evaluates it and prints the
  results.  Without one it starts the console.

  A limit on depth is the bound of every stage, which counts
  the nested calls that work on terms or expressions and no
  others.  So a low limit is exceeded later here than where
  each call of any function counts.  Printing never fails.
-/

------------------------------------------------------------
-- Usage
------------------------------------------------------------

namespace LamLang

namespace CommandLine

/- The first line of every text on usage. -/
def usageLine : String :=
  "usage: dunq [-h] [--recursion-limit RECURSION_LIMIT] " ++
  "[expr]\n"

/- The text that the help option prints. -/
def helpText : String :=
  usageLine ++
  "\n" ++
  "DUNQ interpreter\n" ++
  "\n" ++
  "positional arguments:\n" ++
  "  expr                  expression(s) to evaluate " ++
  "(if empty, goes to command-\n" ++
  "                        line mode)\n" ++
  "\n" ++
  "options:\n" ++
  "  -h, --help            show this help message and exit\n" ++
  "  --recursion-limit RECURSION_LIMIT\n" ++
  "                        maximum Python recursion depth, " ++
  "which bounds DUNQ call\n" ++
  "                        depth (default: 10000)\n"

/- The text that refuses a list of arguments. -/
def refusal
    (message : String) :
    String :=
  usageLine ++ "dunq: error: " ++ message ++ "\n"

end CommandLine

end LamLang

------------------------------------------------------------
-- Invocation
------------------------------------------------------------

namespace LamLang

namespace CommandLine

/- What the program prints, and what it ends with. -/
structure Transcript where
  out : String
  err : String
  failure? : Option Failure
deriving DecidableEq, Repr

/- The largest bound on depth that can be set. -/
def largestLimit : Int := 2147483647

/- The least number that is read as a bound at all. -/
def smallestLimit : Int := -2147483648

/-
  The calls that are in progress when a limit is set: that
  of the program itself.
-/
def callsBefore : Int := 1

/-
  The bound on depth that a limit sets.  A limit that leaves
  no room for the calls in progress is exceeded at once; any
  other one is the bound of every stage of the program.
-/
def depthOf : Option Int → Except Failure Nat
| none => .error (.mishap .limitMissing)
| some limit =>
    if largestLimit < limit ∨ limit < smallestLimit then
      .error (.mishap .limitTooLarge)
    else if limit < 1 then
      .error (.mishap .limitTooSmall)
    else if limit ≤ callsBefore then
      .error .depthExceeded
    else
      .ok limit.toNat

/- How the program starts. -/
inductive Launch where
| finished (transcript : Transcript)
| console (console : Console)

/- End under the care of the reporter. -/
def failed
    (reporter : Reporter)
    (printed : String)
    (failure : Failure) :
    Transcript :=
  let handled := reporter.handle failure
  ⟨printed ++ handled.printed, "", handled.escaping⟩

/- Evaluate the expression given as an argument. -/
def evaluate
    (reporter : Reporter)
    (depth : Nat)
    (expression : String) :
    Transcript :=
  let batch :=
    Batch.start reporter Batch.argumentPath depth false
  let step := Batch.guarded (batch.execute expression 1)
  match step.result with
  | .ok _ => ⟨step.printed, "", none⟩
  | .error failure => ⟨step.printed, "", some failure⟩

/- Start the program with its arguments. -/
def launch
    (colour : Bool)
    (argv : List String) :
    Launch :=
  let reporter := Reporter.fresh colour true
  match request argv with
  | .help =>
      .finished ⟨helpText, "", some (.exit (.code 0))⟩
  | .refuse message =>
      .finished ⟨"", refusal message, some (.exit (.code 2))⟩
  | .run options =>
      match depthOf options.limit? with
      | .error failure =>
          .finished (failed reporter "" failure)
      | .ok depth =>
          match options.expression? with
          | some expression =>
              .finished (evaluate reporter depth expression)
          | none => .console (.start reporter depth)

/-
  Close a conversation.  A failure that escapes the console
  meets its reporter once more.
-/
def close
    (turn : Console.Turn) :
    Transcript :=
  match turn.result with
  | .ok _ => ⟨turn.printed, "", none⟩
  | .error failure =>
      failed turn.console.batch.reporter turn.printed failure

/- The whole program on its arguments and its input. -/
def run
    (colour : Bool)
    (argv : List String)
    (input : String) :
    Transcript :=
  match launch colour argv with
  | .finished transcript => transcript
  | .console console =>
      let last :=
        close (console.converse (Console.inputLines input))
      { last with out := Console.intro ++ last.out }

end CommandLine

end LamLang
