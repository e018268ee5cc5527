import LamLang.Datum.Basic
import LamLang.Text.Quoted
import LamLang.Value.Written

/-
  Descriptions and written forms of data.

  Key definitions include:
    * `LamLang.Datum.describe`
    * `LamLang.Datum.write`
    * `LamLang.Datum.writeWithin`
    * `LamLang.Datum.display`

  `write` gives the source text of a term.  `describe` names
  every part of an object, for reports on objects that are
  no terms; `write` falls back to it.

  A bound on depth holds for calls of `write` within each
  other.  It does not hold for descriptions: a term that was
  read has none with parts in it.
-/

------------------------------------------------------------
-- Descriptions
------------------------------------------------------------

namespace LamLang

namespace Datum

/- A truth value as it is described. -/
def describeBool : Bool → String
| true => "True"
| false => "False"

/- A symbol as it is described. -/
def describeSymbol
    (name : String) :
    String :=
  "Symbol(" ++ Text.quote name ++ ")"

/- Descriptions in parentheses, a lone one with a comma. -/
def enclose : List String → String
| [] => "()"
| [item] => "(" ++ item ++ ",)"
| items => "(" ++ ", ".intercalate items ++ ")"

/- The parameters of a function as they are described. -/
def describeParams
    (params : List String) :
    String :=
  enclose (params.map describeSymbol)

/- An environment is described by its names. -/
def describeEnv
    (env : Env Datum) :
    String :=
  "Environment(" ++ ", ".intercalate env.names ++ ")"

mutual

/- The description of an object. -/
def describe : Datum → Except Failure String
| .nothing => .ok "None"
| .bool b => .ok (describeBool b)
| .num n => n.text
| .text s => .ok (Text.quote s)
| .symbol name => .ok (describeSymbol name)
| .list items => do
    let inner ← describeAll items
    return "[" ++ ", ".intercalate inner ++ "]"
| .tuple items => do
    let inner ← describeAll items
    return enclose inner
| .expr e => describeExpr e
| .value v => describeValue v
| .scope env => .ok (describeEnv env)
| .binding name v => do
    let inner ← describeValue v
    return "Binding(name=" ++ describeSymbol name ++
      ", val=" ++ inner ++ ")"
| .other description numbers => do
    let _ ← numbers.mapM Number.text
    return description

/- The descriptions of a list of objects. -/
def describeAll : List Datum → Except Failure (List String)
| [] => .ok []
| item :: items => do
    let first ← describe item
    let rest ← describeAll items
    return first :: rest

/- The description of an expression. -/
def describeExpr : Expr Datum → Except Failure String
| .num n => do
    let inner ← n.text
    return "NumC(n=" ++ inner ++ ")"
| .text s => .ok ("StringC(s=" ++ Text.quote s ++ ")")
| .ident name =>
    .ok ("IdC(id=" ++ describeSymbol name ++ ")")
| .cond test yes no => do
    let first ← describeExpr test
    let second ← describeExpr yes
    let third ← describeExpr no
    return "IfC(test=" ++ first ++ ", then=" ++ second ++
      ", orelse=" ++ third ++ ")"
| .lam params body => do
    let inner ← describeExpr body
    return "LamC(params=" ++ describeParams params ++
      ", body=" ++ inner ++ ")"
| .app fn args => do
    let head ← describeExpr fn
    let inner ← describeExprs args
    return "AppC(fun=" ++ head ++ ", args=" ++
      enclose inner ++ ")"
| .foreign object => describe object

/- The descriptions of a list of expressions. -/
def describeExprs :
    List (Expr Datum) → Except Failure (List String)
| [] => .ok []
| e :: es => do
    let first ← describeExpr e
    let rest ← describeExprs es
    return first :: rest

/- The description of a value. -/
def describeValue : Value Datum → Except Failure String
| .num n => do
    let inner ← n.text
    return "NumV(n=" ++ inner ++ ")"
| .bool b => .ok ("BoolV(b=" ++ describeBool b ++ ")")
| .text s => .ok ("StringV(s=" ++ Text.quote s ++ ")")
| .prim op => .ok ("PrimV(op=" ++ describeSymbol op ++ ")")
| .closure params body env => do
    let inner ← describeExpr body
    return "CloV(params=" ++ describeParams params ++
      ", body=" ++ inner ++ ", env=" ++ describeEnv env ++ ")"
| .foreign object => describe object

end

/- Data in an expression or value can be described. -/
instance : Describe Datum where
  describe := Datum.describe

end Datum

end LamLang

------------------------------------------------------------
-- Written Terms
------------------------------------------------------------

namespace LamLang

namespace Datum

mutual

/- The source text of a term. -/
def write : Datum → Except Failure String
| .symbol name => .ok name
| .text s => .ok (Value.quoted s)
| .list items => do
    let inner ← writeAll items
    return "(" ++ " ".intercalate inner ++ ")"
| .tuple items => do
    let inner ← writeAll items
    return "(" ++ " ".intercalate inner ++ ")"
| .nothing => describe .nothing
| .bool b => describe (.bool b)
| .num n => n.text
| .expr e => describeExpr e
| .value v => describeValue v
| .scope env => describe (.scope env)
| .binding name v => describe (.binding name v)
| .other description numbers =>
    describe (.other description numbers)

/- The source texts of a list of terms. -/
def writeAll : List Datum → Except Failure (List String)
| [] => .ok []
| item :: items => do
    let first ← write item
    let rest ← writeAll items
    return first :: rest

end

/-
  The source text of a term, where no more than `depth`
  calls may be nested.
-/
def writeWithin : Nat → Datum → Except Failure String
| 0, _ => .error .depthExceeded
| depth + 1, datum =>
    match datum.items? with
    | none => datum.write
    | some items => do
        let inner ←
          items.mapM fun item => writeWithin depth item
        return "(" ++ " ".intercalate inner ++ ")"

/-
  An object as it stands within a message: a text or symbol
  is shown without marks.
-/
def display : Datum → Except Failure String
| .text s => .ok s
| .symbol name => .ok name
| datum => datum.describe

end Datum

end LamLang
