import LamLang.Report.Colour
import LamLang.Text.Search

/-
  Pointing at the offending text of a line.

  Key definitions include:
    * `LamLang.Fault.pointer?`

  The line is shown with the text painted, and a caret with
  a tail of the same length stands below it.
-/

------------------------------------------------------------
-- Pointers
------------------------------------------------------------

namespace LamLang

namespace Fault

/- Where the offending text first stands in a line. -/
def place?
    (fault : Fault)
    (line : String) :
    Option Nat :=
  if fault.subject.isEmpty then
    none
  else
    Text.find? fault.subject.toList line.toList

/- A caret with a tail, as long as the text above it. -/
def caret
    (length : Nat) :
    String :=
  String.ofList ('^' :: List.replicate (length - 1) '~')

/- The indentation of lines that are shown. -/
def margin : String := "  "

/- The line and the caret below it, for a known place. -/
def pointerAt
    (fault : Fault)
    (colour : Bool)
    (hue : Hue)
    (line : String)
    (start : Nat) :
    String :=
  let length := fault.subject.toList.length
  let before := line.toList.take start
  let span := (line.toList.drop start).take length
  let after := line.toList.drop (start + length)
  margin ++ String.ofList before ++
    paint colour (some hue) (String.ofList span) ++
    String.ofList after ++ "\n" ++
    margin ++ String.ofList (List.replicate start ' ') ++
    paint colour (some hue) (caret length)

/-
  The line with the offending text marked, unless the text
  is empty or stands nowhere in the line.
-/
def pointer?
    (fault : Fault)
    (colour : Bool)
    (hue : Hue)
    (line : String) :
    Option String :=
  (fault.place? line).map
    (fault.pointerAt colour hue line)

end Fault

end LamLang
