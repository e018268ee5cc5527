import LamLang.Template.Style

/-
  The message that a template gives for its arguments.

  Key definitions include:
    * `LamLang.Template.Choice`
    * `LamLang.Template.Step`
    * `LamLang.Template.format`
    * `LamLang.Template.fill`

  The holes are filled one after another, and the first that
  cannot be filled is the reason why the template cannot.
  A hole takes the next argument in order, or the one whose
  number it names; one template keeps to one of the two
  ways, in the holes of its specifications too.

  Of an argument a hole may take one character by its number.
  An argument is a text and is taken to have no attributes,
  for what the attributes of a text look like depends on
  where the texts are kept.
-/

------------------------------------------------------------
-- Arguments
------------------------------------------------------------

namespace LamLang

namespace Template

/- How the holes seen so far choose their arguments. -/
inductive Choice where
| undecided
| ordered (used : Nat)
| numbered
deriving DecidableEq, Repr

namespace Choice

/- The number of the argument that comes next in order. -/
def next : Choice → Except Misfit Nat
| .undecided => .ok 0
| .ordered used => .ok used
| .numbered => .error .numberedThenOrdered

/- Whether a hole may give the number of its argument. -/
def allow : Choice → Except Misfit Unit
| .ordered _ => .error .orderedThenNumbered
| _ => .ok ()

end Choice

/- The number that a text is, if it has digits only. -/
def numberOf
    (cs : List Char) :
    Except Misfit (Option Nat) := do
  let (n?, rest) ← splitNumber cs
  return if rest.isEmpty then n? else none

/- The number of the argument that a hole names. -/
def choose
    (choice : Choice)
    (name : List Char) :
    Except Misfit (Nat × Choice) := do
  if name.isEmpty then
    let index ← choice.next
    return (index, .ordered (index + 1))
  else
    match ← numberOf name with
    | some index =>
        choice.allow
        return (index, .numbered)
    | none => .error (.unknownName name)

/- The argument with a number. -/
def argument
    (args : List String)
    (index : Nat) :
    Except Misfit String :=
  match args[index]? with
  | some arg => .ok arg
  | none => .error (.missing index)

end Template

end LamLang

------------------------------------------------------------
-- Parts of Arguments
------------------------------------------------------------

namespace LamLang

namespace Template

/- What a hole takes of an argument, step by step. -/
inductive Step where
| member (name : List Char)
| item (key : List Char)
| unclosed
| stray
deriving DecidableEq, Repr

namespace Step

/- Where the reading of steps stands. -/
inductive Mode where
| start
| member (seen : List Char)
| item (seen : List Char)
deriving DecidableEq, Repr

/- Read the steps in the rest of a name. -/
def readFrom :
    Mode → List Char → List Step
| .start, [] => []
| .start, c :: cs =>
    if c = '.' then
      readFrom (.member []) cs
    else if c = '[' then
      readFrom (.item []) cs
    else
      [.stray]
| .member seen, [] => [.member seen.reverse]
| .member seen, c :: cs =>
    if c = '.' then
      .member seen.reverse :: readFrom (.member []) cs
    else if c = '[' then
      .member seen.reverse :: readFrom (.item []) cs
    else
      readFrom (.member (c :: seen)) cs
| .item _, [] => [.unclosed]
| .item seen, c :: cs =>
    if c = ']' then
      .item seen.reverse :: readFrom .start cs
    else
      readFrom (.item (c :: seen)) cs

/- The character of a text that a key names. -/
def itemOf
    (key : List Char)
    (s : String) :
    Except Misfit String := do
  match ← numberOf key with
  | some index =>
      match s.toList[index]? with
      | some c => return c.toString
      | none => .error .noItem
  | none =>
      .error (if key.isEmpty then .emptyStep else .itemNotNumber)

/- Take a step into a text. -/
def apply
    (step : Step)
    (s : String) :
    Except Misfit String :=
  match step with
  | .member name =>
      .error
        (if name.isEmpty then .emptyStep
        else .noAttribute name)
  | .item key => itemOf key s
  | .unclosed => .error .unclosedStep
  | .stray => .error .strayStep

end Step

end Template

namespace Hole

/- Whether a character ends the name of an argument. -/
def endsLead
    (c : Char) :
    Bool :=
  c == '.' || c == '['

/- The part of a hole's name that is for the argument. -/
def lead
    (hole : Hole) :
    List Char :=
  hole.name.takeWhile fun c => !endsLead c

/- The part that is for the steps into the argument. -/
def steps
    (hole : Hole) :
    List Template.Step :=
  Template.Step.readFrom .start
    (hole.name.dropWhile fun c => !endsLead c)

/- The specification of a hole, empty if there is none. -/
def spec
    (hole : Hole) :
    List Char :=
  hole.spec?.getD []

end Hole

end LamLang

------------------------------------------------------------
-- Filling
------------------------------------------------------------

namespace LamLang

namespace Template

/- A quotation in which every other script is escaped. -/
def quoteAscii
    (s : String) :
    String :=
  String.ofList
    ((Text.quote s).toList.flatMap fun c =>
      if c.toNat < 128 then [c]
      else Text.codeEscape c.toNat)

/- Convert what is put into a hole. -/
def convert
    (letter? : Option Char)
    (s : String) :
    Except Misfit String :=
  match letter? with
  | none => .ok s
  | some letter =>
      if letter = 'r' then
        .ok (Text.quote s)
      else if letter = 'a' then
        .ok (quoteAscii s)
      else if letter = 's' ∨ letter = '\x00' then
        .ok s
      else
        .error (.unknownConversion letter)

/- How the holes of a specification are filled. -/
abbrev Expand :=
  Choice → List Char → Except Misfit (List Char × Choice)

/-
  Fill a hole.  Its argument is chosen before those of the
  holes in its specification.
-/
def fillHole
    (args : List String)
    (expand : Expand)
    (choice : Choice)
    (hole : Hole) :
    Except Misfit (String × Choice) := do
  let (index, choice) ← choose choice hole.lead
  let arg ← argument args index
  let part ← hole.steps.foldlM (fun s step => step.apply s) arg
  let converted ← convert hole.conversion? part
  let (spec, choice) ← expand choice hole.spec
  let style ← Style.read spec
  return (style.apply converted, choice)

/- Fill the holes of a template, one after another. -/
def formatFrom
    (args : List String)
    (expand : Expand) :
    Choice → Template → Except Misfit (String × Choice)
| choice, [] => .ok ("", choice)
| choice, .text s :: rest => do
    let (filled, choice) ← formatFrom args expand choice rest
    return (s ++ filled, choice)
| choice, .hole hole :: rest => do
    let (s, choice) ← fillHole args expand choice hole
    let (filled, choice) ← formatFrom args expand choice rest
    return (s ++ filled, choice)
| _, .broken _ reason :: _ => .error reason

/- A specification within a specification has no holes. -/
def keepSpec : Expand := fun choice spec =>
  if openBrace ∈ spec then
    .error .nestedTooDeep
  else
    .ok (spec, choice)

/- A specification may be a template with holes. -/
def expandSpec
    (args : List String) :
    Expand := fun choice spec =>
  if openBrace ∈ spec then do
    let (filled, choice) ←
      formatFrom args keepSpec choice
        (read (String.ofList spec))
    return (filled.toList, choice)
  else
    .ok (spec, choice)

/- The message of a template, unless a hole is left. -/
def format
    (template : Template)
    (args : List String) :
    Except Misfit String :=
  (formatFrom args (expandSpec args) .undecided
    template).map Prod.fst

/- The message of a template, empty if a hole is left. -/
def fill
    (template : Template)
    (args : List String) :
    String :=
  (template.format args).toOption.getD ""

end Template

end LamLang
