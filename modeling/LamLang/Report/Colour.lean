import LamLang.Fault

/-
  Colours of reports.

  Key definitions include:
    * `LamLang.Hue`
    * `LamLang.paint`
    * `LamLang.Fault.highlighted`
    * `LamLang.Fault.paintedMessage`

  A painted text is bold and may have a hue.  With colours
  switched off it is the text alone.

  A message is filled a second time to highlight it, now
  with painted texts.  A template whose holes have holes in
  their specifications may refuse these, though it took the
  plain ones.
-/

------------------------------------------------------------
-- Painted Texts
------------------------------------------------------------

namespace LamLang

/- The hues of reports: one of errors, one of warnings. -/
inductive Hue where
| red
| magenta
deriving DecidableEq, Repr

namespace Hue

/- The terminal sequence that starts a hue. -/
def start : Hue → String
| .red => "\x1b[31m"
| .magenta => "\x1b[35m"

end Hue

/- The terminal sequence that starts bold text. -/
def boldStart : String := "\x1b[1m"

/- The terminal sequence that ends all painting. -/
def paintEnd : String := "\x1b[0m"

/- A text in bold, and in a hue if one is given. -/
def paint
    (colour : Bool)
    (hue : Option Hue)
    (s : String) :
    String :=
  if colour then
    boldStart ++ (hue.map Hue.start).getD "" ++ s ++ paintEnd
  else
    s

/- Without colours a painted text is the text. -/
theorem paint_false
    (hue : Option Hue)
    (s : String) :
    paint false hue s = s := by
  simp [paint]

end LamLang

------------------------------------------------------------
-- Highlighted Messages
------------------------------------------------------------

namespace LamLang

namespace Fault

/-
  The message of a fault with the quoted texts in bold,
  unless its template refuses them.
-/
def highlighted
    (fault : Fault)
    (colour : Bool) :
    Except Template.Misfit String :=
  fault.template.format
    (fault.exprs.map (paint colour none))

/- The highlighted message, empty if there is none. -/
def paintedMessage
    (fault : Fault)
    (colour : Bool) :
    String :=
  fault.template.fill (fault.exprs.map (paint colour none))

theorem paintedMessage_of_highlighted
    {fault : Fault}
    {colour : Bool}
    {message : String}
    (hMessage : fault.highlighted colour = .ok message) :
    fault.paintedMessage colour = message := by
  rw [highlighted] at hMessage
  rw [paintedMessage, Template.fill, hMessage]
  rfl

/- Without colours the texts are filled in as they are. -/
theorem map_paint_false
    (exprs : List String) :
    exprs.map (paint false none) = exprs := by
  have hPlain : paint false none = id := by
    funext s
    exact paint_false none s
  rw [hPlain, List.map_id]

/- Without colours nothing is highlighted. -/
theorem highlighted_false
    (fault : Fault) :
    fault.highlighted false =
      fault.template.format fault.exprs := by
  rw [highlighted, map_paint_false]

theorem paintedMessage_false
    (fault : Fault) :
    fault.paintedMessage false = fault.message := by
  rw [paintedMessage, map_paint_false, message]

end Fault

end LamLang
