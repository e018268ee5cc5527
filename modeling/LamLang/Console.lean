import LamLang.Batch

/-
  The interactive console.

  Key definitions include:
    * `LamLang.Console`
    * `LamLang.Console.joinLine`
    * `LamLang.Console.feed`
    * `LamLang.Console.converse`

  A line is a command or source text.  Text that leaves
  lists open is kept, and the next line is joined to it.
-/

------------------------------------------------------------
-- Commands
------------------------------------------------------------

namespace LamLang

namespace Console

/- What a line asks for. -/
inductive Command where
| skip
| help
| endOfInput
| quit
| source (text : String)
deriving DecidableEq, Repr

/- Whether a character may stand in the name of a command. -/
def isCommandChar
    (c : Char) :
    Bool :=
  c.isAlphanum || c == '_'

/-
  What a line asks for.  A command is known by the name it
  starts with, whatever follows, and a question mark asks
  for help.
-/
def command
    (line : String) :
    Command :=
  let text := Text.strip line
  match text.toList with
  | [] => .skip
  | c :: cs =>
      let name :=
        String.ofList ((c :: cs).takeWhile isCommandChar)
      if c = '?' ∨ name = "help" then
        .help
      else if name = "EOF" then
        .endOfInput
      else if name = "exit" then
        .quit
      else
        .source text

end Console

end LamLang

------------------------------------------------------------
-- Console
------------------------------------------------------------

namespace LamLang

/- A batch with the text that waits for its other lines. -/
structure Console where
  batch : Batch
  pending : String
  lineNumber : Nat
  continued : Bool

namespace Console

/- The greeting. -/
def intro : String :=
  "DUNQ interpreter :: Python backend\n" ++
  "Type '?' or 'help' for more information.\n"

/- The introduction to the language. -/
def helpText : String :=
  "Welcome to the DUNQ interpreter!\n\n" ++
  "DUNQ is a small functional language written as " ++
  "S-expressions. It has numbers, \n" ++
  "\"strings\", true/false, (if test then else), " ++
  "(lam (x y) body) and function \n" ++
  "application. The primitive operators are + - * / <= " ++
  "and equal?, each taking \n" ++
  "exactly two arguments.\n\n" ++
  "Try it out by typing '((lam (x) (+ 1 x)) 2)'. " ++
  "This will apply a function \n" ++
  "adding one to 2, giving 3 as the result.\n"

/- What is printed before a line is read. -/
def prompt
    (console : Console) :
    String :=
  if console.continued then ". " else "> "

/- A console on a new batch. -/
def start
    (reporter : Reporter)
    (depth : Nat) :
    Console where
  batch := .start reporter Batch.typedPath depth true
  pending := ""
  lineNumber := 0
  continued := false

/-
  A console after a line, what was printed, and whether the
  console is to stop.
-/
structure Turn where
  console : Console
  printed : String
  result : Except Failure Bool

/-
  A line joined to the unfinished text before it, and
  whether it leaves lists open.
-/
def joinLine
    (line pending : String) :
    String × Bool :=
  let joined :=
    if pending.isEmpty then line else pending ++ " " ++ line
  let text := Text.strip joined
  (text, decide (0 < Token.balance text))

/- Work on a line of source text. -/
def readSource
    (console : Console)
    (line : String) :
    Turn :=
  let number := console.lineNumber + 1
  let (text, more) := joinLine line console.pending
  if more then
    ⟨{ console with
        pending := text
        lineNumber := number
        continued := true },
      "", .ok false⟩
  else
    let step :=
      Batch.guarded (console.batch.execute text number)
    ⟨{ batch := step.batch
       pending := ""
       lineNumber := number
       continued := false },
      step.printed, step.result.map fun _ => false⟩

/- Work on one line. -/
def feed
    (console : Console)
    (line : String) :
    Turn :=
  match command line with
  | .skip => ⟨console, "", .ok false⟩
  | .help => ⟨console, helpText, .ok false⟩
  | .endOfInput => ⟨console, "\n", .ok true⟩
  | .quit => ⟨console, "", .ok true⟩
  | .source text => console.readSource text

end Console

end LamLang

------------------------------------------------------------
-- Conversations
------------------------------------------------------------

namespace LamLang

namespace Console

/- The line that stands for the end of the input. -/
def endLine : String := "EOF"

/-
  Feed lines until the console stops, printing the prompt
  before each.  The end of the input is a line of its own.
-/
def converse
    (console : Console) :
    List String → Turn
| [] =>
    let turn := console.feed endLine
    { turn with printed := console.prompt ++ turn.printed }
| line :: lines =>
    let turn := console.feed line
    let printed := console.prompt ++ turn.printed
    match turn.result with
    | .ok false =>
        let last := turn.console.converse lines
        { last with printed := printed ++ last.printed }
    | _ => { turn with printed := printed }

/-
  The lines of an input, after the characters seen of the
  first one.  A line break ends a line, and so does the end
  of the input if anything stands before it.
-/
def linesFrom
    (seen : List Char) :
    List Char → List String
| [] =>
    if seen.isEmpty then [] else [String.ofList seen.reverse]
| c :: cs =>
    if c = '\n' then
      String.ofList seen.reverse :: linesFrom [] cs
    else
      linesFrom (c :: seen) cs

/- The lines of an input, without their line breaks. -/
def inputLines
    (input : String) :
    List String :=
  linesFrom [] input.toList

end Console

end LamLang
