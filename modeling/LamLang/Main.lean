import LamLang.CommandLine.Invocation

/-
  The command-line program.

  Key definitions include:
    * `main`

  Here the pure program meets the terminal: lines are read
  one at a time, and what is printed appears at once.
-/

------------------------------------------------------------
-- Terminal
------------------------------------------------------------

namespace LamLang

namespace CommandLine

/- The exit code of a program that ended this way. -/
def exitCode : Option Failure → UInt32
| none => 0
| some (.exit .unspecified) => 0
| some (.exit (.code n)) => (n % 256).toNat.toUInt32
| some _ => 1

/- Print a transcript and give its exit code. -/
def printTranscript
    (transcript : Transcript) :
    IO UInt32 := do
  IO.print transcript.out
  IO.eprint transcript.err
  (← IO.getStdout).flush
  return exitCode transcript.failure?

/- A line without the line break at its end. -/
def withoutBreak
    (line : String) :
    String :=
  match (Console.inputLines line).head? with
  | some text => text
  | none => ""

/- Read and feed lines until the console stops. -/
partial def talk
    (console : Console) :
    IO UInt32 := do
  IO.print console.prompt
  (← IO.getStdout).flush
  let line ← (← IO.getStdin).getLine
  let turn :=
    console.feed
      (if line.isEmpty then Console.endLine
        else withoutBreak line)
  match turn.result with
  | .ok false =>
      IO.print turn.printed
      talk turn.console
  | _ => printTranscript (close turn)

end CommandLine

end LamLang

/- Run the program. -/
def main
    (argv : List String) :
    IO UInt32 := do
  let colour ← (← IO.getStdout).isTty
  match LamLang.CommandLine.launch colour argv with
  | .finished transcript =>
      LamLang.CommandLine.printTranscript transcript
  | .console console =>
      IO.print LamLang.Console.intro
      LamLang.CommandLine.talk console
