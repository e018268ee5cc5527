import LamLang.Text.Ranges

/-
  White space and its removal.

  Key definitions include:
    * `LamLang.Text.isBlank`
    * `LamLang.Text.strip`

  Blank characters separate tokens, and they are stripped
  from both ends of a line that is typed in.
-/

------------------------------------------------------------
-- Blank Characters
------------------------------------------------------------

namespace LamLang

namespace Text

/- The characters with the white space property. -/
def blankRanges : List CodeRange :=
  [⟨0x09, 0x0D⟩, ⟨0x1C, 0x20⟩, ⟨0x85, 0x85⟩, ⟨0xA0, 0xA0⟩,
   ⟨0x1680, 0x1680⟩, ⟨0x2000, 0x200A⟩, ⟨0x2028, 0x2029⟩,
   ⟨0x202F, 0x202F⟩, ⟨0x205F, 0x205F⟩, ⟨0x3000, 0x3000⟩]

/- Whether a character is white space. -/
def isBlank
    (c : Char) :
    Bool :=
  inRanges blankRanges c

/- A line break is blank, so it ends every atom. -/
theorem isBlank_newline : isBlank '\n' = true := by
  decide

/- The space between written terms is blank. -/
theorem isBlank_space : isBlank ' ' = true := by
  decide

end Text

end LamLang

------------------------------------------------------------
-- Stripping
------------------------------------------------------------

namespace LamLang

namespace Text

/- Remove the blank characters at the end of a text. -/
def stripRight
    (cs : List Char) :
    List Char :=
  (cs.reverse.dropWhile isBlank).reverse

/- Remove the blank characters at both ends of a text. -/
def strip
    (s : String) :
    String :=
  String.ofList (stripRight (s.toList.dropWhile isBlank))

end Text

end LamLang
