import LamLang.Text.Blank
import LamLang.Text.Digit
import LamLang.Text.Quoted
import LamLang.Datum.Result

/-
  Command-line arguments.

  Key definitions include:
    * `LamLang.CommandLine.Options`
    * `LamLang.CommandLine.classify`
    * `LamLang.CommandLine.Request`
    * `LamLang.CommandLine.request`

  One argument is the expression to evaluate.  Options may
  stand before or after it and may be shortened as long as
  they stay apart.  What looks like a negative number or
  holds a space is an expression and no option.
-/

------------------------------------------------------------
-- Integers
------------------------------------------------------------

namespace LamLang

namespace CommandLine

/-
  The digits of an integer, where single underscores may
  stand between digits.
-/
def digitGroups? :
    List Char → Option (List Nat)
| [] => none
| [c] => (Text.digitValue? c).map fun d => [d]
| c :: u :: cs => do
    let d ← Text.digitValue? c
    if u = '_' then
      let rest ← digitGroups? cs
      return d :: rest
    else
      let rest ← digitGroups? (u :: cs)
      return d :: rest

/-
  Whether a character may stand around an integer: white
  space other than the four information separators.
-/
def isPadding
    (c : Char) :
    Bool :=
  Text.isBlank c && !Text.CodeRange.contains ⟨0x1C, 0x1F⟩ c

/- A text without the padding at both ends. -/
def unpadded
    (cs : List Char) :
    List Char :=
  let rest := cs.dropWhile isPadding
  (rest.reverse.dropWhile isPadding).reverse

/- The integer that an argument writes. -/
def integer?
    (s : String) :
    Option Int := do
  let (negative, cs) :=
    match unpadded s.toList with
    | '-' :: cs => (true, cs)
    | '+' :: cs => (false, cs)
    | cs => (false, cs)
  let digits ← digitGroups? cs
  if digits.length ≤ Mishap.digitLimit then
    let n : Int := Text.ofDigits digits
    return if negative then -n else n
  else
    none

end CommandLine

end LamLang

------------------------------------------------------------
-- Kinds of Arguments
------------------------------------------------------------

namespace LamLang

namespace CommandLine

/- The long option for help. -/
def longHelp : String := "--help"

/- The option that sets the bound on depth. -/
def limitOption : String := "--recursion-limit"

/- What an argument before the separator is. -/
inductive Argument where
| word (text : String)
| help
| helpGroup (letters : String)
| helpValue (text : String)
| limit
| limitValue (text : String)
| unknown (text : String)
| ambiguous (text : String)
deriving DecidableEq, Repr

/- Split a text at its first equals sign. -/
def splitEquals
    (cs : List Char) :
    List Char × Option (List Char) :=
  let name := cs.takeWhile (· != '=')
  match cs.dropWhile (· != '=') with
  | [] => (name, none)
  | _ :: rest => (name, some rest)

/- Whether a text looks like a negative number. -/
def isNegativeNumber
    (cs : List Char) :
    Bool :=
  let cs := if cs.getLast? = some '\n' then cs.dropLast else cs
  match cs with
  | '-' :: digits =>
      let whole := digits.takeWhile Text.isDigit
      match digits.dropWhile Text.isDigit with
      | [] => !whole.isEmpty
      | '.' :: fraction =>
          !fraction.isEmpty && fraction.all Text.isDigit
      | _ => false
  | _ => false

/- An option that takes no part of the known names. -/
def classifyUnknown
    (text : String) :
    Argument :=
  if isNegativeNumber text.toList then
    .word text
  else if text.toList.contains ' ' then
    .word text
  else
    .unknown text

/- An option with two dashes, by the start of its name. -/
def classifyLong
    (text : String) :
    Argument :=
  let (name, value) := splitEquals text.toList
  let value? := value.map String.ofList
  let isHelp := name.isPrefixOf longHelp.toList
  let isLimit := name.isPrefixOf limitOption.toList
  match isHelp, isLimit, value? with
  | true, true, _ => .ambiguous text
  | true, false, none => .help
  | true, false, some value => .helpValue value
  | false, true, none => .limit
  | false, true, some value => .limitValue value
  | false, false, _ => classifyUnknown text

/-
  What an argument before the separator is.  The letters of
  a short option, also behind an equals sign, are a group of
  short options.
-/
def classify
    (text : String) :
    Argument :=
  match text.toList with
  | '-' :: '-' :: _ => classifyLong text
  | ['-', 'h'] => .help
  | '-' :: 'h' :: '=' :: letters =>
      .helpGroup (String.ofList letters)
  | '-' :: 'h' :: letters =>
      .helpGroup (String.ofList letters)
  | '-' :: _ :: _ => classifyUnknown text
  | _ => .word text

end CommandLine

end LamLang

------------------------------------------------------------
-- Requests
------------------------------------------------------------

namespace LamLang

namespace CommandLine

/- The argument after which all others are words. -/
def separator : String := "--"

/-
  What the arguments choose.  There is no limit where the
  separator was given in its place.
-/
structure Options where
  expression? : Option String
  limit? : Option Int
deriving DecidableEq, Repr

/- What the arguments ask for. -/
inductive Request where
| run (options : Options)
| help
| refuse (message : String)
deriving DecidableEq, Repr

/-
  The arguments seen so far: what they choose, those without
  a place, and whether the last one is the expression.
-/
structure Seen where
  options : Options
  extras : List String
  atExpression : Bool
deriving DecidableEq, Repr

/- A word is the expression, or else has no place. -/
def Seen.takeWord
    (seen : Seen)
    (text : String) :
    Seen :=
  match seen.options.expression? with
  | none =>
      { seen with
        options :=
          { seen.options with expression? := some text }
        atExpression := true }
  | some _ =>
      { seen with
        extras := seen.extras ++ [text]
        atExpression := false }

/- An argument that has no place. -/
def Seen.takeExtra
    (seen : Seen)
    (text : String) :
    Seen :=
  { seen with
    extras := seen.extras ++ [text]
    atExpression := false }

/- Set the bound on depth. -/
def Seen.takeLimit
    (seen : Seen)
    (limit? : Option Int) :
    Seen :=
  { seen with
    options := { seen.options with limit? }
    atExpression := false }

/-
  What the arguments after the separator do.  The separator
  itself has no place unless the expression stands next to
  it.
-/
def Seen.finish
    (seen : Seen)
    (rest? : Option (List String)) :
    Seen :=
  match rest?, seen.options.expression? with
  | none, _ => seen
  | some [], none => seen
  | some (text :: rest), none =>
      { seen.takeWord text with
        extras := seen.extras ++ rest }
  | some rest, some _ =>
      { seen with
        extras := seen.extras ++
          (if seen.atExpression then rest
            else separator :: rest) }

/- The message for a limit that is no integer. -/
def badLimit
    (text : String) :
    String :=
  "argument " ++ limitOption ++ ": invalid int value: " ++
    Text.quote text

/- The message for a limit without its number. -/
def missingLimit : String :=
  "argument " ++ limitOption ++ ": expected one argument"

/- The message for a value given to the help option. -/
def helpWithValue
    (text : String) :
    String :=
  "argument -h/--help: ignored explicit argument " ++
    Text.quote text

/- The message for an option that could be either. -/
def ambiguousOption
    (text : String) :
    String :=
  "ambiguous option: " ++ text ++ " could match " ++
    longHelp ++ ", " ++ limitOption

/-
  The limit that a value attached to its option gives.  A
  separator counts as no value at all.
-/
def attachedLimit?
    (text : String) :
    Option (Option Int) :=
  if text = separator then
    some none
  else
    (integer? text).map some

/- Read the arguments before the separator in order. -/
def requestFrom
    (rest? : Option (List String)) :
    Seen → List Argument → Request
| seen, [] =>
    let last := seen.finish rest?
    if last.extras.isEmpty then
      .run last.options
    else
      .refuse ("unrecognized arguments: " ++
        " ".intercalate last.extras)
| seen, .word text :: args =>
    requestFrom rest? (seen.takeWord text) args
| _, .help :: _ => .help
| _, .helpGroup letters :: _ =>
    let others := letters.toList.dropWhile (· == 'h')
    if others.isEmpty && !letters.isEmpty then
      .help
    else
      .refuse (helpWithValue (String.ofList others))
| _, .helpValue text :: _ => .refuse (helpWithValue text)
| seen, .limit :: .word text :: args =>
    match integer? text with
    | some limit =>
        requestFrom rest? (seen.takeLimit (some limit)) args
    | none => .refuse (badLimit text)
| _, .limit :: _ => .refuse missingLimit
| seen, .limitValue text :: args =>
    match attachedLimit? text with
    | some limit? =>
        requestFrom rest? (seen.takeLimit limit?) args
    | none => .refuse (badLimit text)
| seen, .unknown text :: args =>
    requestFrom rest? (seen.takeExtra text) args
| _, .ambiguous text :: _ =>
    .refuse (ambiguousOption text)

/- An option that could be either is refused at once. -/
def firstAmbiguous? : List Argument → Option String
| [] => none
| .ambiguous text :: _ => some text
| _ :: args => firstAmbiguous? args

/- What a list of arguments asks for. -/
def request
    (argv : List String) :
    Request :=
  let before := argv.takeWhile (· != separator)
  let rest? :=
    match argv.dropWhile (· != separator) with
    | [] => none
    | _ :: rest => some rest
  let args := before.map classify
  match firstAmbiguous? args with
  | some text => .refuse (ambiguousOption text)
  | none =>
      requestFrom rest?
        { options := ⟨none, some defaultDepth⟩
          extras := []
          atExpression := false }
        args

end CommandLine

end LamLang
