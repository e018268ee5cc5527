import LamLang.Failure
import LamLang.Number.Basic
import LamLang.Report.Pointer

/-
  Reporting of errors and warnings.

  Key definitions include:
    * `LamLang.Reporter`
    * `LamLang.Reporter.report`
    * `LamLang.Reporter.warning`
    * `LamLang.Reporter.announce`
    * `LamLang.Reporter.handle`

  A reporter knows which line of which file is being worked
  on.  A failure that reaches it is printed; a fatal
  reporter then ends the program, and any other one forgets
  its lines and goes on.  If the message cannot be
  highlighted, then nothing is printed and this is a mishap
  of its own.

  Two things are left out: printing itself never fails, and
  the number of a line is written however long it is.
-/

------------------------------------------------------------
-- Places
------------------------------------------------------------

namespace LamLang

/- The line being worked on in a file, and its number. -/
structure Place where
  line? : Option String
  number? : Option Int
deriving DecidableEq, Repr

namespace Place

/- No line is being worked on. -/
def idle : Place := ⟨none, none⟩

/- The line, unless there is none or it is empty. -/
def shown?
    (place : Place) :
    Option String :=
  match place.line? with
  | some line => if line.isEmpty then none else some line
  | none => none

/- The number of the line as it is printed. -/
def numberText
    (place : Place) :
    String :=
  match place.number? with
  | some n => Number.intText n
  | none => "None"

end Place

/- The place in each file, in the order of registration. -/
abbrev Places := List (String × Place)

namespace Places

/- Set the place of a file, which keeps its position. -/
def set
    (path : String)
    (place : Place) :
    Places → Places
| [] => [(path, place)]
| (known, old) :: rest =>
    if known = path then
      (known, place) :: rest
    else
      (known, old) :: set path place rest

/- The first line that can be shown, with its file. -/
def current? :
    Places → Option (String × Place × String)
| [] => none
| (path, place) :: rest =>
    match place.shown? with
    | some line => some (path, place, line)
    | none => current? rest

/- Forget every line. -/
def clear
    (places : Places) :
    Places :=
  places.map fun entry => (entry.1, Place.idle)

end Places

end LamLang

------------------------------------------------------------
-- Reports
------------------------------------------------------------

namespace LamLang

/- What is needed to print reports. -/
structure Reporter where
  colour : Bool
  fatal : Bool
  places : Places
deriving DecidableEq, Repr

namespace Reporter

/- A reporter that knows no file yet. -/
def fresh
    (colour fatal : Bool) :
    Reporter :=
  ⟨colour, fatal, []⟩

/- Set the line being worked on in a file. -/
def mark
    (reporter : Reporter)
    (path : String)
    (place : Place) :
    Reporter :=
  { reporter with
    places := reporter.places.set path place }

/- Forget the line being worked on in a file. -/
def unmark
    (reporter : Reporter)
    (path : String) :
    Reporter :=
  reporter.mark path Place.idle

/- The line that a report points into. -/
def currentLine?
    (reporter : Reporter) :
    Option String :=
  reporter.places.current?.map fun entry => entry.2.2

/- The pointer below a report, if there is one to print. -/
def pointerText
    (reporter : Reporter)
    (hue : Hue)
    (fault : Fault) :
    String :=
  let pointer? := do
    let line ← reporter.currentLine?
    if fault.pointed then
      fault.pointer? reporter.colour hue line
    else
      none
  match pointer? with
  | some pointer => pointer ++ "\n"
  | none => ""

/- One file of the places as a report shows it. -/
def frameText
    (entry : String × Place) :
    String :=
  match entry.2.shown? with
  | some line =>
      "  File '" ++ entry.1 ++ "', line " ++
        entry.2.numberText ++ ":\n    " ++ line ++ "\n"
  | none => ""

/- What is printed for an error that can be highlighted. -/
def report
    (reporter : Reporter)
    (fault : Fault) :
    String :=
  let red := paint reporter.colour (some .red)
  String.join (reporter.places.map frameText) ++
    (if fault.internal then red "[internal] " else "") ++
    red "error: " ++ fault.paintedMessage reporter.colour ++
    "\n" ++ reporter.pointerText .red fault

/- What is printed for a warning that can be highlighted. -/
def warning
    (reporter : Reporter)
    (fault : Fault) :
    String :=
  let location :=
    match reporter.places.current? with
    | some (path, place, _) =>
        paint reporter.colour none
          (path ++ ":" ++ place.numberText ++ ": ")
    | none => ""
  location ++
    paint reporter.colour (some .magenta) "warning: " ++
    fault.paintedMessage reporter.colour ++ "\n" ++
    reporter.pointerText .magenta fault

/- Print a warning, if it can be highlighted. -/
def warn
    (reporter : Reporter)
    (fault : Fault) :
    Except Failure String :=
  match fault.highlighted reporter.colour with
  | .ok _ => .ok (reporter.warning fault)
  | .error reason => .error (.mishap (.misfit reason))

end Reporter

end LamLang

------------------------------------------------------------
-- Handling
------------------------------------------------------------

namespace LamLang

namespace Reporter

/- A reporter after a failure reached it. -/
structure Handled where
  reporter : Reporter
  printed : String
  escaping : Option Failure
deriving DecidableEq, Repr

/- Print an error, then end the program or go on. -/
def announce
    (reporter : Reporter)
    (fault : Fault) :
    Handled :=
  match fault.highlighted reporter.colour with
  | .error reason =>
      { reporter
        printed := ""
        escaping := some (.mishap (.misfit reason)) }
  | .ok _ =>
      if reporter.fatal then
        { reporter
          printed := reporter.report fault
          escaping := some (.exit (.code 1)) }
      else
        { reporter :=
            { reporter with
              places := reporter.places.clear }
          printed := reporter.report fault
          escaping := none }

/- The fault that reports a mishap. -/
def mishapFault
    (mishap : Mishap) :
    Fault where
  kind := .general
  template := [.text "unknown error: '", .next, .text "'"]
  exprs := [mishap.name ++ ": " ++ mishap.message]
  pointed := true
  internal := true

/- The fault that reports an exceeded depth. -/
def depthFault : Fault :=
  .plain ("maximum recursion depth exceeded " ++
    "(see --recursion-limit)")

/- The fault that reports an interruption. -/
def interruptFault : Fault :=
  .plain "keyboard interrupt"

/-
  Deal with the failure that ended a guarded computation.
  A request to exit passes unseen.  A mishap is printed and
  goes on outwards; every other failure ends here.
-/
def handle
    (reporter : Reporter) :
    Failure → Handled
| .cause broken => reporter.announce broken.fault
| .custom fault => reporter.announce fault
| .depthExceeded => reporter.announce depthFault
| .interrupted => reporter.announce interruptFault
| .exit status => ⟨reporter, "", some (.exit status)⟩
| .mishap event =>
    let handled := reporter.announce (mishapFault event)
    { handled with
      escaping := some
        (handled.escaping.getD (.mishap event)) }

end Reporter

end LamLang
