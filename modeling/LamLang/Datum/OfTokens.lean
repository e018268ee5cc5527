import LamLang.Datum.Basic
import LamLang.Number.Numeral
import LamLang.Source.Token

/-
  Reading terms from tokens.

  Key definitions include:
    * `LamLang.Datum.ofToken`
    * `LamLang.Datum.shift`
    * `LamLang.Datum.ofTokens`
    * `LamLang.Datum.allOfTokens`
    * `LamLang.Datum.ofSource`
    * `LamLang.Datum.ofSourceWithin`
    * `LamLang.Datum.allOfSourceWithin`

  The reader keeps the lists that are still open, innermost
  first, and every token changes that stack in one way.  The
  bottom of the stack collects the finished terms.

  A bound on depth is a bound on the height of that stack:
  each term is read by a call of its own, made by the call
  that reads the list around it.
-/

------------------------------------------------------------
-- Atoms
------------------------------------------------------------

namespace LamLang

namespace Datum

/- The content of a token in marks. -/
def content
    (cs : List Char) :
    String :=
  String.ofList (cs.drop 1).dropLast

/-
  The term of a token that is no parenthesis: a text, a
  number or a symbol.
-/
def ofToken
    (token : Token) :
    Except Failure Datum :=
  let cs := token.toList
  if cs.head? = some Lexeme.mark then
    .ok (.text (content cs))
  else
    match Numeral.parse? cs with
    | some numeral => numeral.toNumber.map .num
    | none => .ok (.symbol token)

end Datum

end LamLang

------------------------------------------------------------
-- Open Lists
------------------------------------------------------------

namespace LamLang

namespace Datum

/-
  The lists that are still open, innermost first, each with
  its latest item first.  The last one is the whole input.
-/
abbrev Stack := List (List Datum)

/- Add a finished term to the innermost list. -/
def push
    (item : Datum) :
    Stack → Stack
| [] => [[item]]
| items :: outer => (item :: items) :: outer

/- What a token does to the open lists. -/
def shift
    (stack : Stack)
    (token : Token) :
    Except Failure Stack :=
  if token = Token.lparen then
    .ok ([] :: stack)
  else if token = Token.rparen then
    match stack with
    | items :: outer :: rest =>
        .ok (push (.list items.reverse) (outer :: rest))
    | _ => .error (.cause .unexpectedClose)
  else
    (ofToken token).map fun item => push item stack

end Datum

end LamLang

------------------------------------------------------------
-- Reading
------------------------------------------------------------

namespace LamLang

namespace Datum

/- Why input that ends with these open lists is incomplete. -/
def endOfInput : Stack → Cause
| [_] => .unexpectedEnd
| _ => .unexpectedEndOfList

/-
  Read until one term is finished.  The tokens that were not
  used are returned, also after an error.
-/
def ofTokensFrom :
    Stack → List Token → Except Failure Datum × List Token
| stack, [] => (.error (.cause (endOfInput stack)), [])
| stack, token :: tokens =>
    match shift stack token with
    | .error failure => (.error failure, tokens)
    | .ok [[item]] => (.ok item, tokens)
    | .ok next => ofTokensFrom next tokens

/- Read one term from the start of a list of tokens. -/
def ofTokens
    (tokens : List Token) :
    Except Failure Datum × List Token :=
  ofTokensFrom [[]] tokens

/- Read every term of a list of tokens. -/
def allOfTokens
    (tokens : List Token) :
    Except Failure (List Datum) := do
  let stack ← tokens.foldlM shift [[]]
  match stack with
  | [items] => return items.reverse
  | _ => .error (.cause .unexpectedEndOfList)

/- Read a source that holds one term. -/
def ofSource
    (source : String) :
    Except Failure Datum := do
  let tokens ← Token.ofSource source
  if tokens.isEmpty then
    .error (.cause .noTerm)
  else
    match ofTokens tokens with
    | (.error failure, _) => .error failure
    | (.ok item, []) => .ok item
    | (.ok _, token :: _) => .error (.cause (.leftover token))

/- Read a source that holds any number of terms. -/
def allOfSource
    (source : String) :
    Except Failure (List Datum) := do
  let tokens ← Token.ofSource source
  allOfTokens tokens

end Datum

end LamLang

------------------------------------------------------------
-- Reading Within a Bound
------------------------------------------------------------

namespace LamLang

namespace Datum

/-
  What a token does to the open lists, where no more than
  `depth` calls may be nested.  The end of a list is found
  by the call that reads the list.
-/
def shiftWithin
    (depth : Nat)
    (stack : Stack)
    (token : Token) :
    Except Failure Stack :=
  if stack.length ≤ depth ∨
      token = Token.rparen ∧ 1 < stack.length then
    shift stack token
  else
    .error .depthExceeded

/- Read until one term is finished. -/
def ofTokensFromWithin
    (depth : Nat) :
    Stack → List Token → Except Failure Datum × List Token
| stack, [] => (.error (.cause (endOfInput stack)), [])
| stack, token :: tokens =>
    match shiftWithin depth stack token with
    | .error failure => (.error failure, tokens)
    | .ok [[item]] => (.ok item, tokens)
    | .ok next => ofTokensFromWithin depth next tokens

/- Read every term of a list of tokens. -/
def allOfTokensWithin
    (depth : Nat)
    (tokens : List Token) :
    Except Failure (List Datum) := do
  let stack ← tokens.foldlM (shiftWithin depth) [[]]
  match stack with
  | [items] => return items.reverse
  | _ => .error (.cause .unexpectedEndOfList)

/- Read a source that holds one term. -/
def ofSourceWithin
    (depth : Nat)
    (source : String) :
    Except Failure Datum := do
  let tokens ← Token.ofSource source
  if tokens.isEmpty then
    .error (.cause .noTerm)
  else
    match ofTokensFromWithin depth [[]] tokens with
    | (.error failure, _) => .error failure
    | (.ok item, []) => .ok item
    | (.ok _, token :: _) => .error (.cause (.leftover token))

/- Read a source that holds any number of terms. -/
def allOfSourceWithin
    (depth : Nat)
    (source : String) :
    Except Failure (List Datum) := do
  let tokens ← Token.ofSource source
  allOfTokensWithin depth tokens

end Datum

end LamLang
