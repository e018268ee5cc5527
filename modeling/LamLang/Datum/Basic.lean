import LamLang.Value.Basic

/-
  Data: everything that can be handed to the interpreter.

  Key definitions include:
    * `LamLang.Datum`

  The reader makes numbers, texts, symbols and lists.  A
  caller may hand in other objects in their place, also
  expressions and values, and those are told apart here so
  that a report can describe them.  Of an object of any
  other kind nothing is known but its description.  That
  one cannot be given if a number in it is too long to be
  written, so these numbers are kept.

  A text is made of characters, so that half of a surrogate
  pair can stand in none.
-/

------------------------------------------------------------
-- Data
------------------------------------------------------------

namespace LamLang

/- An object that may stand for a term. -/
inductive Datum where
| nothing
| bool (b : Bool)
| num (n : Number)
| text (s : String)
| symbol (name : String)
| list (items : List Datum)
| tuple (items : List Datum)
| expr (e : Expr Datum)
| value (v : Value Datum)
| scope (bindings : List (String × Value Datum))
| binding (name : String) (v : Value Datum)
| other (description : String) (numbers : List Number)

namespace Datum

/- The items of a list or tuple. -/
def items? : Datum → Option (List Datum)
| .list items => some items
| .tuple items => some items
| _ => none

/- The name of a symbol. -/
def symbol? : Datum → Option String
| .symbol name => some name
| _ => none

end Datum

end LamLang
