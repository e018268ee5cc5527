import LamLang.Console
import LamLang.Proofs.Bounds
import LamLang.Proofs.Scanning
import Mathlib.Data.List.Infix

/-
  What the reader accepts.

  A token opens a list, closes one or stands for an item, and
  the open lists hold what all tokens so far have told.  The
  lists that are open are counted by the parentheses, so the
  reader refuses a source exactly where its parentheses do
  not match, and the balance of a source knows when a list
  is left open.

  Key definitions include:
    * `LamLang.Datum.Event`
    * `LamLang.Datum.events`
    * `LamLang.Token.event`
    * `LamLang.Token.Covered`
    * `LamLang.Failure.Says`

  Main statements:
    * `LamLang.Datum.allOfTokens_eq_ok_iff`
    * `LamLang.Datum.foldlM_shift_of_covered`
    * `LamLang.Datum.foldlM_shift_of_not_covered`
    * `LamLang.Datum.ofTokens_eq_ok_iff`
    * `LamLang.Datum.ofSource_eq_ok_iff`
    * `LamLang.reader_accepts_balanced`
-/

------------------------------------------------------------
-- Events
------------------------------------------------------------

namespace LamLang

namespace Datum

/- What a token tells the reader. -/
inductive Event where
| opened
| closed
| item (datum : Datum)

mutual

/- What the tokens of a term tell, in order. -/
def events : Datum → List Event
| .list items => .opened :: eventsOfAll items ++ [.closed]
| datum => [.item datum]

/- What the tokens of several terms tell, in order. -/
def eventsOfAll : List Datum → List Event
| [] => []
| item :: items => item.events ++ eventsOfAll items

end

theorem eventsOfAll_append
    (front back : List Datum) :
    eventsOfAll (front ++ back) =
      eventsOfAll front ++ eventsOfAll back := by
  induction front with
  | nil => simp [eventsOfAll]
  | cons item front ih => simp [eventsOfAll, ih]

theorem eventsOfAll_singleton
    (datum : Datum) :
    eventsOfAll [datum] = datum.events := by
  simp [eventsOfAll]

end Datum

/- What a token tells the reader. -/
def Token.event
    (token : Token) :
    Except Failure Datum.Event :=
  if token = Token.lparen then
    .ok .opened
  else if token = Token.rparen then
    .ok .closed
  else
    (Datum.ofToken token).map .item

namespace Datum

/- What an event does to the open lists. -/
def advance
    (stack : Stack) :
    Event → Except Failure Stack
| .opened => .ok ([] :: stack)
| .closed =>
    match stack with
    | items :: outer :: rest =>
        .ok (push (.list items.reverse) (outer :: rest))
    | _ => .error (.cause .unexpectedClose)
| .item datum => .ok (push datum stack)

theorem shift_eq_advance
    (stack : Stack)
    (token : Token) :
    shift stack token =
      token.event >>= advance stack := by
  unfold shift Token.event
  by_cases hOpen : token = Token.lparen
  · rw [if_pos hOpen, if_pos hOpen]
    rfl
  · rw [if_neg hOpen, if_neg hOpen]
    by_cases hClose : token = Token.rparen
    · rw [if_pos hClose, if_pos hClose]
      rfl
    · rw [if_neg hClose, if_neg hClose]
      cases ofToken token <;> rfl

/- A token that is no parenthesis never reads as a list. -/
theorem events_of_ofToken
    {token : Token}
    {datum : Datum}
    (hToken : ofToken token = .ok datum) :
    datum.events = [.item datum] := by
  unfold ofToken at hToken
  dsimp only at hToken
  split at hToken
  · cases hToken
    simp [events]
  · split at hToken
    · rcases map_eq_ok hToken with ⟨n, -, rfl⟩
      simp [events]
    · cases hToken
      simp [events]

/- What the tokens behind the open lists have told. -/
def Stack.events : Stack → List Event
| [] => []
| [items] => eventsOfAll items.reverse
| items :: outer :: rest =>
    Stack.events (outer :: rest) ++
      .opened :: eventsOfAll items.reverse

theorem Stack.events_push
    (datum : Datum)
    (items : List Datum)
    (outer : Stack) :
    Stack.events (push datum (items :: outer)) =
      Stack.events (items :: outer) ++ datum.events := by
  cases outer with
  | nil =>
      simp [push, Stack.events, eventsOfAll_append,
        eventsOfAll_singleton]
  | cons next rest =>
      simp [push, Stack.events, eventsOfAll_append,
        eventsOfAll_singleton]

/- What one token can do to the open lists. -/
theorem shift_eq_ok
    {stack next : Stack}
    {token : Token}
    (hShift : shift stack token = .ok next) :
    (token = Token.lparen ∧ next = [] :: stack) ∨
      (token = Token.rparen ∧
        ∃ items outer rest,
          stack = items :: outer :: rest ∧
            next = (.list items.reverse :: outer) :: rest) ∨
      (token ≠ Token.lparen ∧ token ≠ Token.rparen ∧
        ∃ datum,
          ofToken token = .ok datum ∧
            next = push datum stack) := by
  unfold shift at hShift
  by_cases hOpen : token = Token.lparen
  · rw [if_pos hOpen] at hShift
    cases hShift
    exact .inl ⟨hOpen, rfl⟩
  · rw [if_neg hOpen] at hShift
    by_cases hClose : token = Token.rparen
    · rw [if_pos hClose] at hShift
      split at hShift
      · cases hShift
        exact .inr (.inl ⟨hClose, _, _, _, rfl, rfl⟩)
      · cases hShift
    · rw [if_neg hClose] at hShift
      rcases map_eq_ok hShift with ⟨datum, hDatum, hNext⟩
      exact
        .inr (.inr
          ⟨hOpen, hClose, datum, hDatum, hNext.symm⟩)

theorem event_of_ofToken
    {token : Token}
    {datum : Datum}
    (hOpen : token ≠ Token.lparen)
    (hClose : token ≠ Token.rparen)
    (hToken : ofToken token = .ok datum) :
    token.event = .ok (.item datum) := by
  rw [Token.event, if_neg hOpen, if_neg hClose, hToken]
  rfl

/- One token adds what it tells to the open lists. -/
theorem events_of_shift
    {items : List Datum}
    {outer next : Stack}
    {token : Token}
    (hShift : shift (items :: outer) token = .ok next) :
    next ≠ [] ∧
      ∃ event,
        token.event = .ok event ∧
          Stack.events next =
            Stack.events (items :: outer) ++ [event] := by
  rcases shift_eq_ok hShift with
    ⟨rfl, rfl⟩ |
    ⟨rfl, inner, next', rest, hStack, rfl⟩ |
    ⟨hOpen, hClose, datum, hDatum, rfl⟩
  · refine ⟨by simp, .opened, rfl, ?_⟩
    simp [Stack.events, eventsOfAll]
  · cases hStack
    refine ⟨by simp, .closed, rfl, ?_⟩
    have hPush :=
      Stack.events_push (.list items.reverse) next' rest
    rw [push] at hPush
    rw [hPush, events, Stack.events]
    simp
  · refine
      ⟨by simp [push], .item datum,
        event_of_ofToken hOpen hClose hDatum, ?_⟩
    rw [Stack.events_push, events_of_ofToken hDatum]

/- All tokens add what they tell, in order. -/
theorem events_of_foldlM_shift
    {items : List Datum}
    {outer next : Stack}
    {tokens : List Token}
    (hShifts :
      tokens.foldlM shift (items :: outer) = .ok next) :
    ∃ told,
      tokens.mapM Token.event = .ok told ∧
        Stack.events next =
          Stack.events (items :: outer) ++ told := by
  induction tokens generalizing items outer with
  | nil =>
      cases hShifts
      exact ⟨[], rfl, by simp⟩
  | cons token tokens ih =>
      -- The open lists change with every token.
      rw [List.foldlM_cons] at hShifts
      rcases bind_eq_ok hShifts with ⟨mid, hShift, hRest⟩
      rcases events_of_shift hShift with
        ⟨hMid, event, hEvent, hHere⟩
      rcases List.exists_cons_of_ne_nil hMid with
        ⟨inner, outer', rfl⟩
      rcases ih hRest with ⟨told, hTold, hLater⟩
      refine ⟨event :: told, ?_, ?_⟩
      · rw [List.mapM_cons, hEvent, hTold]
        rfl
      · rw [hLater, hHere, List.append_assoc]
        rfl

/- Tokens act on the open lists by what they tell. -/
theorem foldlM_shift_eq_advance
    {tokens : List Token}
    {told : List Event}
    (hTold : tokens.mapM Token.event = .ok told)
    (stack : Stack) :
    tokens.foldlM shift stack =
      told.foldlM advance stack := by
  induction tokens generalizing told stack with
  | nil =>
      cases hTold
      rfl
  | cons token tokens ih =>
      rw [List.mapM_cons] at hTold
      rcases bind_eq_ok hTold with ⟨event, hEvent, hRest⟩
      rcases bind_eq_ok hRest with ⟨later, hLater, hPure⟩
      cases hPure
      rw [List.foldlM_cons, List.foldlM_cons,
        shift_eq_advance, hEvent, ok_bind]
      congr 1
      funext next
      exact ih hLater next

/- Terms whose items are read are read into a list. -/
theorem foldlM_advance_eventsOfAll
    {terms : List Datum}
    (hTerms :
      ∀ datum ∈ terms, ∀ items outer,
        datum.events.foldlM advance (items :: outer) =
          .ok ((datum :: items) :: outer))
    (items : List Datum)
    (outer : Stack) :
    (eventsOfAll terms).foldlM advance (items :: outer) =
      .ok ((terms.reverse ++ items) :: outer) := by
  induction terms generalizing items with
  | nil =>
      rw [eventsOfAll]
      rfl
  | cons datum terms ih =>
      rw [eventsOfAll, List.foldlM_append,
        hTerms datum (by simp), ok_bind,
        ih (fun other hMem => hTerms other (by simp [hMem]))]
      simp

/- What a term tells adds it to the innermost list. -/
theorem foldlM_advance_events
    (datum : Datum)
    (items : List Datum)
    (outer : Stack) :
    datum.events.foldlM advance (items :: outer) =
      .ok ((datum :: items) :: outer) := by
  induction datum using item_induction generalizing
    items outer with
  | step datum ih =>
      cases datum with
      | list inner =>
          have hInner :=
            foldlM_advance_eventsOfAll
              (fun item hMem => ih inner rfl item hMem)
              [] (items :: outer)
          rw [events, List.cons_append, List.foldlM_cons,
            advance, ok_bind, List.foldlM_append, hInner,
            ok_bind]
          simp [advance, push, pure, Except.pure, bind,
            Except.bind]
      | _ =>
          simp only [events]
          rfl

/-
  The terms that are read are those which the tokens tell
  of, one after the other.
-/
theorem allOfTokens_eq_ok_iff
    {tokens : List Token}
    {terms : List Datum} :
    allOfTokens tokens = .ok terms ↔
      tokens.mapM Token.event =
        .ok (eventsOfAll terms) := by
  constructor
  · intro hTerms
    rcases bind_eq_ok hTerms with ⟨stack, hShifts, hEnd⟩
    split at hEnd
    · cases hEnd
      rcases events_of_foldlM_shift hShifts with
        ⟨told, hTold, hEvents⟩
      rw [Stack.events, Stack.events] at hEvents
      rw [hTold, hEvents]
      simp [eventsOfAll]
    · cases hEnd
  · intro hTold
    have hRead :=
      foldlM_advance_eventsOfAll
        (fun datum (_ : datum ∈ terms) =>
          foldlM_advance_events datum) [] []
    rw [allOfTokens, foldlM_shift_eq_advance hTold, hRead,
      ok_bind]
    simp [pure, Except.pure]

end Datum

end LamLang

------------------------------------------------------------
-- Open Lists Counted
------------------------------------------------------------

namespace LamLang

namespace Token

/-
  The tokens that close no more lists than are open, when
  so many lists are open before them.
-/
def Covered
    (depth : Nat)
    (tokens : List Token) : Prop :=
  ∀ front, front <+: tokens →
    front.count rparen ≤ depth + front.count lparen

theorem covered_nil
    (depth : Nat) :
    Covered depth [] := by
  intro front hFront
  simp [List.prefix_nil.mp hFront]

theorem covered_zero_iff
    {tokens : List Token} :
    Covered 0 tokens ↔
      ∀ front, front <+: tokens →
        front.count rparen ≤ front.count lparen := by
  unfold Covered
  simp only [Nat.zero_add]

/- The first token opens or closes a list of the others. -/
theorem covered_cons
    {depth : Nat}
    {token : Token}
    {tokens : List Token} :
    Covered depth (token :: tokens) ↔
      ∃ next,
        next + [token].count rparen =
            depth + [token].count lparen ∧
          Covered next tokens := by
  have hSplit (name : Token) (front : List Token) :
      (token :: front).count name =
        [token].count name + front.count name := by
    rw [← List.count_append]
    rfl
  constructor
  · intro hCovered
    have hFirst := hCovered [token] (by simp)
    refine
      ⟨depth + [token].count lparen -
        [token].count rparen, by omega, ?_⟩
    intro front hFront
    have hWhole :=
      hCovered (token :: front) (by simpa using hFront)
    rw [hSplit rparen, hSplit lparen] at hWhole
    omega
  · rintro ⟨next, hNext, hCovered⟩ front hFront
    rcases List.prefix_cons_iff.mp hFront with
      rfl | ⟨later, rfl, hLater⟩
    · simp
    · have hRest := hCovered later hLater
      rw [hSplit rparen, hSplit lparen]
      omega

/- The tokens that are no integer beyond the limit. -/
def Brief
    (token : Token) : Prop :=
  ∀ numeral, Numeral.parse? token.toList = some numeral →
    numeral.isInteger = true →
    numeral.whole.length ≤ Mishap.digitLimit

theorem Brief.exists_ofToken
    {token : Token}
    (hBrief : token.Brief) :
    ∃ datum, Datum.ofToken token = .ok datum := by
  unfold Datum.ofToken
  dsimp only
  split
  · exact ⟨_, rfl⟩
  · split
    · rename_i numeral hNumeral
      unfold Numeral.toNumber
      by_cases hInteger : numeral.isInteger = true
      · have hLength := hBrief numeral hNumeral hInteger
        rw [if_pos hInteger, if_pos hLength]
        exact ⟨_, rfl⟩
      · rw [if_neg hInteger]
        exact ⟨_, rfl⟩
    · exact ⟨_, rfl⟩

end Token

namespace Datum

open Token (lparen rparen)

/- One token changes the number of open lists. -/
theorem length_of_shift
    {items : List Datum}
    {outer next : Stack}
    {token : Token}
    (hShift : shift (items :: outer) token = .ok next) :
    ∃ inner outer',
      next = inner :: outer' ∧
        outer'.length + [token].count rparen =
          outer.length + [token].count lparen := by
  rcases shift_eq_ok hShift with
    ⟨rfl, rfl⟩ |
    ⟨rfl, inner, next', rest, hStack, rfl⟩ |
    ⟨hOpen, hClose, datum, hDatum, rfl⟩
  · exact ⟨[], items :: outer, rfl, rfl⟩
  · cases hStack
    exact ⟨_, rest, rfl, rfl⟩
  · refine ⟨datum :: items, outer, rfl, ?_⟩
    simp [hOpen, hClose]

/- The number of open lists is what the tokens leave open. -/
theorem length_of_foldlM_shift
    {items : List Datum}
    {outer next : Stack}
    {tokens : List Token}
    (hShifts :
      tokens.foldlM shift (items :: outer) = .ok next) :
    ∃ inner outer',
      next = inner :: outer' ∧
        outer'.length + tokens.count rparen =
          outer.length + tokens.count lparen := by
  induction tokens generalizing items outer with
  | nil =>
      cases hShifts
      exact ⟨items, outer, rfl, rfl⟩
  | cons token tokens ih =>
      rw [List.foldlM_cons] at hShifts
      rcases bind_eq_ok hShifts with ⟨mid, hShift, hRest⟩
      rcases length_of_shift hShift with
        ⟨inner, outer', rfl, hHere⟩
      rcases ih hRest with ⟨inner', outer'', rfl, hLater⟩
      refine ⟨inner', outer'', rfl, ?_⟩
      rw [← List.singleton_append, List.count_append,
        List.count_append]
      omega

/- A token shifts if it can be read and a list is open. -/
theorem exists_shift
    (items : List Datum)
    {outer : Stack}
    {token : Token}
    (hBrief : token.Brief)
    (hCovered :
      [token].count rparen ≤
        outer.length + [token].count lparen) :
    ∃ next, shift (items :: outer) token = .ok next := by
  unfold shift
  by_cases hOpen : token = lparen
  · exact ⟨_, if_pos hOpen⟩
  · rw [if_neg hOpen]
    by_cases hClose : token = rparen
    · rw [if_pos hClose]
      cases outer with
      | nil =>
          subst hClose
          exact absurd hCovered (by decide)
      | cons next rest => exact ⟨_, rfl⟩
    · rw [if_neg hClose]
      rcases hBrief.exists_ofToken with ⟨datum, hDatum⟩
      rw [hDatum]
      exact ⟨_, rfl⟩

/- Only a list that is not open cannot be closed. -/
theorem shift_of_not_covered
    {items : List Datum}
    {outer : Stack}
    {token : Token}
    (hOver :
      outer.length + [token].count lparen <
        [token].count rparen) :
    shift (items :: outer) token =
      .error (.cause .unexpectedClose) := by
  by_cases hClose : token = rparen
  · subst hClose
    cases outer with
    | nil => rfl
    | cons next rest =>
        have hOne : [rparen].count rparen = 1 := by decide
        rw [hOne, List.length_cons] at hOver
        omega
  · have hNone : [token].count rparen = 0 := by
      simp [hClose]
    omega

/- Tokens that match shift to the lists they leave open. -/
theorem foldlM_shift_of_covered
    (items : List Datum)
    (outer : Stack)
    {tokens : List Token}
    (hBrief : ∀ token ∈ tokens, token.Brief)
    (hCovered : Token.Covered outer.length tokens) :
    ∃ next,
      tokens.foldlM shift (items :: outer) = .ok next := by
  induction tokens generalizing items outer with
  | nil => exact ⟨items :: outer, rfl⟩
  | cons token tokens ih =>
      rcases Token.covered_cons.mp hCovered with
        ⟨depth, hDepth, hLater⟩
      have hFirst :
          [token].count rparen ≤
            outer.length + [token].count lparen := by
        omega
      rcases exists_shift items (hBrief token (by simp))
        hFirst with ⟨next, hShift⟩
      rcases length_of_shift hShift with
        ⟨inner, outer', rfl, hLength⟩
      have hOuter : outer'.length = depth := by omega
      rw [List.foldlM_cons, hShift, ok_bind]
      apply ih
      · intro other hMem
        exact hBrief other (by simp [hMem])
      · rw [hOuter]
        exact hLater

/- Tokens that close too many lists are refused. -/
theorem foldlM_shift_of_not_covered
    (items : List Datum)
    (outer : Stack)
    {tokens : List Token}
    (hBrief : ∀ token ∈ tokens, token.Brief)
    (hOver : ¬ Token.Covered outer.length tokens) :
    tokens.foldlM shift (items :: outer) =
      .error (.cause .unexpectedClose) := by
  induction tokens generalizing items outer with
  | nil => exact absurd (Token.covered_nil _) hOver
  | cons token tokens ih =>
      rw [List.foldlM_cons]
      by_cases hFirst :
          [token].count rparen ≤
            outer.length + [token].count lparen
      · -- The first token shifts, so the others close too many.
        rcases exists_shift items (hBrief token (by simp))
          hFirst with ⟨next, hShift⟩
        rcases length_of_shift hShift with
          ⟨inner, outer', rfl, hLength⟩
        rw [hShift, ok_bind]
        apply ih
        · intro other hMem
          exact hBrief other (by simp [hMem])
        · intro hLater
          exact
            hOver
              (Token.covered_cons.mpr ⟨_, hLength, hLater⟩)
      · rw [shift_of_not_covered (by omega)]
        rfl

/-
  The parentheses decide what becomes of the tokens: one
  that closes nothing, a list that stays open, or terms.
-/
theorem allOfTokens_cases
    {tokens : List Token}
    (hBrief : ∀ token ∈ tokens, token.Brief) :
    (¬ Token.Covered 0 tokens ∧
        allOfTokens tokens =
          .error (.cause .unexpectedClose)) ∨
      (Token.Covered 0 tokens ∧
        tokens.count rparen < tokens.count lparen ∧
        allOfTokens tokens =
          .error (.cause .unexpectedEndOfList)) ∨
      (Token.Covered 0 tokens ∧
        tokens.count lparen = tokens.count rparen ∧
        ∃ terms, allOfTokens tokens = .ok terms) := by
  unfold allOfTokens
  by_cases hCovered : Token.Covered 0 tokens
  · right
    rcases foldlM_shift_of_covered [] [] hBrief hCovered
      with ⟨next, hShifts⟩
    rcases length_of_foldlM_shift hShifts with
      ⟨inner, outer, rfl, hLength⟩
    rw [hShifts, ok_bind]
    rw [List.length_nil] at hLength
    cases outer with
    | nil =>
        rw [List.length_nil] at hLength
        exact .inr ⟨hCovered, by omega, inner.reverse, rfl⟩
    | cons outer rest =>
        rw [List.length_cons] at hLength
        exact .inl ⟨hCovered, by omega, rfl⟩
  · left
    rw [foldlM_shift_of_not_covered [] [] hBrief hCovered]
    exact ⟨hCovered, rfl⟩

end Datum

end LamLang

------------------------------------------------------------
-- Single Terms
------------------------------------------------------------

namespace LamLang

namespace Datum

/- The open lists as they are after earlier terms. -/
def Stack.onto
    (base : List Datum) :
    Stack → Stack
| [] => []
| [items] => [items ++ base]
| items :: outer :: rest =>
    items :: Stack.onto base (outer :: rest)

theorem push_onto
    (base : List Datum)
    (datum : Datum)
    (items : List Datum)
    (outer : Stack) :
    push datum (Stack.onto base (items :: outer)) =
      Stack.onto base (push datum (items :: outer)) := by
  cases outer <;> rfl

/- A token does the same after earlier terms. -/
theorem shift_onto
    (base items : List Datum)
    (outer : Stack)
    (token : Token) :
    shift (Stack.onto base (items :: outer)) token =
      (shift (items :: outer) token).map
        (Stack.onto base) := by
  unfold shift
  by_cases hOpen : token = Token.lparen
  · rw [if_pos hOpen, if_pos hOpen]
    rfl
  · rw [if_neg hOpen, if_neg hOpen]
    by_cases hClose : token = Token.rparen
    · rw [if_pos hClose, if_pos hClose]
      cases outer with
      | nil => rfl
      | cons next rest => cases rest <;> rfl
    · rw [if_neg hClose, if_neg hClose]
      cases ofToken token with
      | error failure => rfl
      | ok datum =>
          exact
            congrArg Except.ok
              (push_onto base datum items outer)

theorem foldlM_shift_onto
    (base items : List Datum)
    (outer : Stack)
    (tokens : List Token) :
    tokens.foldlM shift
        (Stack.onto base (items :: outer)) =
      (tokens.foldlM shift (items :: outer)).map
        (Stack.onto base) := by
  induction tokens generalizing items outer with
  | nil => rfl
  | cons token tokens ih =>
      rw [List.foldlM_cons, List.foldlM_cons, shift_onto]
      cases hShift : shift (items :: outer) token with
      | error failure => rfl
      | ok next =>
          rcases length_of_shift hShift with
            ⟨inner, outer', rfl, -⟩
          exact ih inner outer'

/- No token adds nothing. -/
theorem eq_nil_of_allOfTokens
    {tokens : List Token}
    (hTerms : allOfTokens tokens = .ok []) :
    tokens = [] := by
  have hTold := allOfTokens_eq_ok_iff.mp hTerms
  cases tokens with
  | nil => rfl
  | cons token tokens =>
      rw [List.mapM_cons] at hTold
      rcases bind_eq_ok hTold with ⟨event, -, hRest⟩
      rcases bind_eq_ok hRest with ⟨later, -, hPure⟩
      cases hPure

theorem allOfTokens_eq_singleton_iff
    {tokens : List Token}
    {datum : Datum} :
    allOfTokens tokens = .ok [datum] ↔
      tokens.foldlM shift [[]] = .ok [[datum]] := by
  unfold allOfTokens
  constructor
  · intro hTerms
    rcases bind_eq_ok hTerms with ⟨stack, hShifts, hEnd⟩
    split at hEnd
    · rename_i items
      have hItems : items.reverse = [datum] :=
        Except.ok.inj hEnd
      rw [hShifts, List.reverse_eq_iff.mp hItems]
      rfl
    · cases hEnd
  · intro hShifts
    rw [hShifts]
    rfl

/- A term that is finished takes no further tokens. -/
theorem eq_nil_of_finished
    {first last : Datum}
    {tokens : List Token}
    (hShifts :
      tokens.foldlM shift [[first]] = .ok [[last]]) :
    tokens = [] ∧ first = last := by
  -- The tokens do to an empty bottom what they do here.
  have hOnto := foldlM_shift_onto [first] [] [] tokens
  rw [Stack.onto, List.nil_append, hShifts] at hOnto
  rcases map_eq_ok hOnto.symm with ⟨stack, hStack, hLast⟩
  match stack, hLast with
  | [items], hLast =>
      have hItems : items ++ [first] = [last] := by
        simpa [Stack.onto] using hLast
      rcases List.append_eq_singleton_iff.mp hItems with
        ⟨rfl, hFirst⟩ | ⟨-, hNone⟩
      · refine ⟨?_, by simpa using hFirst⟩
        apply eq_nil_of_allOfTokens
        rw [allOfTokens, hStack]
        rfl
      · cases hNone
  | items :: outer :: rest, hLast =>
      cases rest <;> simp [Stack.onto] at hLast

/- A list at the bottom stays empty until a term is done. -/
theorem shift_unfinished
    {stack next : Stack}
    {token : Token}
    (hStack : stack.getLast? = some [])
    (hShift : shift stack token = .ok next) :
    next.getLast? = some [] ∨
      ∃ datum, next = [[datum]] := by
  rcases shift_eq_ok hShift with
    ⟨-, rfl⟩ | ⟨-, items, outer, rest, rfl, rfl⟩ |
    ⟨-, -, datum, -, rfl⟩
  · left
    rw [List.getLast?_cons, hStack]
    rfl
  · cases rest with
    | nil =>
        right
        have hOuter : outer = [] := by simpa using hStack
        rw [hOuter]
        exact ⟨_, rfl⟩
    | cons next rest =>
        left
        simpa using hStack
  · cases stack with
    | nil => cases hStack
    | cons items outer =>
        cases outer with
        | nil =>
            right
            have hItems : items = [] := by
              simpa using hStack
            rw [hItems]
            exact ⟨datum, rfl⟩
        | cons next rest =>
            left
            simpa [push] using hStack

/- The tokens that a term takes are all that it needs. -/
theorem foldlM_shift_of_ofTokensFrom
    {stack : Stack}
    {tokens rest : List Token}
    {datum : Datum}
    (hRead : ofTokensFrom stack tokens = (.ok datum, rest)) :
    ∃ used,
      tokens = used ++ rest ∧
        used.foldlM shift stack = .ok [[datum]] := by
  fun_induction ofTokensFrom stack tokens with
  | case1 stack => cases hRead
  | case2 stack token tokens failure hShift => cases hRead
  | case3 stack token tokens item hShift =>
      cases hRead
      refine ⟨[token], rfl, ?_⟩
      rw [List.foldlM_cons, hShift]
      rfl
  | case4 stack token tokens next hNext hShift ih =>
      rcases ih hRead with ⟨used, rfl, hShifts⟩
      refine ⟨token :: used, rfl, ?_⟩
      rw [List.foldlM_cons, hShift]
      exact hShifts

/- Go on from the open lists, unless a term is finished. -/
def resume :
    Stack → List Token → Except Failure Datum × List Token
| [[item]], tokens => (.ok item, tokens)
| stack, tokens => ofTokensFrom stack tokens

theorem ofTokensFrom_cons
    {stack next : Stack}
    {token : Token}
    (hShift : shift stack token = .ok next)
    (tokens : List Token) :
    ofTokensFrom stack (token :: tokens) =
      resume next tokens := by
  rw [ofTokensFrom, hShift]
  unfold resume
  split <;> simp_all

theorem resume_of_unfinished
    {stack : Stack}
    (hStack : ∀ item, stack ≠ [[item]])
    (tokens : List Token) :
    resume stack tokens = ofTokensFrom stack tokens := by
  unfold resume
  split
  · exact absurd rfl (hStack _)
  · rfl

theorem ofTokensFrom_of_foldlM_shift
    {stack : Stack}
    {used : List Token}
    {datum : Datum}
    (hStack : stack.getLast? = some [])
    (hShifts : used.foldlM shift stack = .ok [[datum]])
    (rest : List Token) :
    ofTokensFrom stack (used ++ rest) =
      (.ok datum, rest) := by
  induction used generalizing stack with
  | nil =>
      cases hShifts
      cases hStack
  | cons token used ih =>
      rw [List.foldlM_cons] at hShifts
      rcases bind_eq_ok hShifts with ⟨next, hShift, hLater⟩
      rw [List.cons_append, ofTokensFrom_cons hShift]
      rcases shift_unfinished hStack hShift with
        hLast | ⟨item, rfl⟩
      · rw [resume_of_unfinished]
        · exact ih hLast hLater
        · rintro item rfl
          cases hLast
      · rcases eq_nil_of_finished hLater with ⟨rfl, rfl⟩
        rfl

/-
  A term is read from the tokens that are its own, and the
  others are left.
-/
theorem ofTokens_eq_ok_iff
    {tokens rest : List Token}
    {datum : Datum} :
    ofTokens tokens = (.ok datum, rest) ↔
      ∃ used,
        tokens = used ++ rest ∧
          allOfTokens used = .ok [datum] := by
  simp only [allOfTokens_eq_singleton_iff]
  constructor
  · intro hRead
    exact foldlM_shift_of_ofTokensFrom hRead
  · rintro ⟨used, rfl, hShifts⟩
    exact ofTokensFrom_of_foldlM_shift rfl hShifts rest

/- A source holds one term if it is all that it holds. -/
theorem ofSource_eq_ok_iff
    {source : String}
    {datum : Datum} :
    ofSource source = .ok datum ↔
      allOfSource source = .ok [datum] := by
  unfold ofSource allOfSource
  cases Token.ofSource source with
  | error failure =>
      constructor <;> (intro hRead; cases hRead)
  | ok tokens =>
      rw [ok_bind, ok_bind]
      cases tokens with
      | nil =>
          constructor <;> (intro hRead; cases hRead)
      | cons token tokens =>
          rw [if_neg (by simp)]
          constructor
          · intro hRead
            split at hRead
            · cases hRead
            · rename_i hAll
              cases hRead
              rcases ofTokens_eq_ok_iff.mp hAll with
                ⟨used, hUsed, hTerm⟩
              rwa [hUsed, List.append_nil]
            · cases hRead
          · intro hTerm
            rw [ofTokens_eq_ok_iff.mpr
              ⟨_, (List.append_nil _).symm, hTerm⟩]

end Datum

end LamLang

------------------------------------------------------------
-- Refusals
------------------------------------------------------------

namespace LamLang

/- The failures that report a parse fault in these words. -/
def Failure.Says
    (failure : Failure)
    (text : String) : Prop :=
  ∃ fault,
    failure.fault? = some fault ∧
      fault.kind = .parse ∧ fault.message = text

theorem Failure.says_cause
    {cause : Cause}
    {text : String}
    (hKind : cause.kind = .parse) :
    (Failure.cause cause).Says text ↔
      cause.fault.message = text := by
  constructor
  · rintro ⟨fault, hFault, -, hMessage⟩
    cases hFault
    exact hMessage
  · intro hMessage
    exact ⟨cause.fault, rfl, hKind, hMessage⟩

/- Why reading stops before the end of the input. -/
inductive Misread : Failure → Prop
| unterminated (token : String) :
    Misread (.cause (.unterminatedText token))
| closed :
    Misread (.cause .unexpectedClose)
| tooLong (digits : Nat) :
    Misread (.mishap (.numeralTooLong digits))

/- Cutting into tokens fails for want of a mark only. -/
theorem Token.ofLexemes_failsOnly
    {P : Failure → Prop}
    (hUnterminated :
      ∀ token, P (.cause (.unterminatedText token)))
    (lexemes : List Lexeme) :
    FailsOnly P (Token.ofLexemes lexemes) := by
  induction lexemes with
  | nil => exact .ok []
  | cons lexeme lexemes ih =>
      refine .bind ?_ fun first => ih.bind fun later => .ok _
      cases lexeme with
      | unclosed content => exact .error (hUnterminated _)
      | _ => exact .ok _

namespace Datum

theorem ofToken_misread
    (token : Token) :
    FailsOnly Misread (ofToken token) := by
  unfold ofToken
  dsimp only
  split
  · exact .ok _
  · split
    · apply FailsOnly.map
      unfold Numeral.toNumber
      split
      · split
        · exact .ok _
        · exact .error (.tooLong _)
      · exact .ok _
    · exact .ok _

theorem shift_misread
    (stack : Stack)
    (token : Token) :
    FailsOnly Misread (shift stack token) := by
  unfold shift
  split
  · exact .ok _
  · split
    · split
      · exact .ok _
      · exact .error .closed
    · exact (ofToken_misread token).map

theorem foldlM_shift_misread
    (stack : Stack)
    (tokens : List Token) :
    FailsOnly Misread (tokens.foldlM shift stack) := by
  induction tokens generalizing stack with
  | nil => exact .ok stack
  | cons token tokens ih =>
      exact (shift_misread stack token).bind ih

/- The end of the input is refused in an open list only. -/
theorem allOfSource_eq_error
    {source : String}
    {failure : Failure}
    (hError : allOfSource source = .error failure) :
    Misread failure ∨
      failure = .cause .unexpectedEndOfList ∧
        0 < Token.balance source := by
  rcases bind_eq_error hError with
    hTokens | ⟨tokens, hTokens, hTerms⟩
  · left
    exact
      Token.ofLexemes_failsOnly .unterminated _ failure
        hTokens
  · rcases bind_eq_error hTerms with
      hShifts | ⟨stack, hShifts, hEnd⟩
    · left
      exact foldlM_shift_misread _ tokens failure hShifts
    · right
      rcases length_of_foldlM_shift hShifts with
        ⟨inner, outer, rfl, hLength⟩
      cases outer with
      | nil => cases hEnd
      | cons next rest =>
          cases hEnd
          refine ⟨rfl, ?_⟩
          rw [Token.balance_eq_count hTokens]
          simp only [List.length_cons, List.length_nil]
            at hLength
          omega

end Datum

end LamLang

------------------------------------------------------------
-- Balanced Sources
------------------------------------------------------------

namespace LamLang

/- A text is not read, and these are the words for it. -/
def Datum.Refuses
    (source text : String) : Prop :=
  ∃ failure,
    allOfSource source = .error failure ∧
      failure.Says text

/- Reading that stops early says nothing of the end. -/
theorem Misread.not_says
    {failure : Failure}
    (hMisread : Misread failure)
    {text : String}
    (hHead : text.toList.head? = some 'u')
    (hText : text ≠ "unexpected ')'") :
    ¬ failure.Says text := by
  intro hSays
  cases hMisread with
  | unterminated token =>
      have hMessage := (Failure.says_cause rfl).mp hSays
      have hQuote :
          (Cause.unterminatedText
            token).fault.message.toList.head? =
            some '\'' := by
        have hFilled :
            ∃ rest,
              (Cause.unterminatedText token).fault.message =
                "'" ++ rest :=
          ⟨_, rfl⟩
        rcases hFilled with ⟨rest, hFilled⟩
        rw [hFilled, String.toList_append]
        rfl
      rw [hMessage, hHead] at hQuote
      exact absurd hQuote (by decide)
  | closed =>
      have hMessage := (Failure.says_cause rfl).mp hSays
      exact hText hMessage.symm
  | tooLong digits =>
      rcases hSays with ⟨fault, hFault, -⟩
      cases hFault

namespace Datum

theorem not_refuses_end
    (source : String) :
    ¬ Refuses source "unexpected EOF while reading" := by
  rintro ⟨failure, hError, hSays⟩
  rcases allOfSource_eq_error hError with
    hMisread | ⟨rfl, -⟩
  · exact hMisread.not_says rfl (by decide) hSays
  · have hMessage := (Failure.says_cause rfl).mp hSays
    exact absurd hMessage (by decide)

theorem balance_pos_of_refuses
    {source : String}
    (hRefuses :
      Refuses source "unexpected EOF while reading list") :
    0 < Token.balance source := by
  rcases hRefuses with ⟨failure, hError, hSays⟩
  rcases allOfSource_eq_error hError with
    hMisread | ⟨-, hBalance⟩
  · exact absurd hSays (hMisread.not_says rfl (by decide))
  · exact hBalance

/- What is read has no balance. -/
theorem balance_eq_zero
    {source : String}
    {terms : List Datum}
    (hTerms : allOfSource source = .ok terms) :
    Token.balance source = 0 := by
  rcases bind_eq_ok hTerms with ⟨tokens, hTokens, hRead⟩
  rcases bind_eq_ok hRead with ⟨stack, hShifts, hEnd⟩
  rcases length_of_foldlM_shift hShifts with
    ⟨inner, outer, rfl, hLength⟩
  cases outer with
  | nil =>
      rw [Token.balance_eq_count hTokens]
      omega
  | cons next rest => cases hEnd

theorem refuses_iff_of_error
    {source text : String}
    {cause : Cause}
    (hError : allOfSource source = .error (.cause cause))
    (hKind : cause.kind = .parse) :
    Refuses source text ↔ cause.fault.message = text := by
  rw [← Failure.says_cause hKind]
  constructor
  · rintro ⟨failure, hFailure, hSays⟩
    rw [hError] at hFailure
    cases hFailure
    exact hSays
  · intro hSays
    exact ⟨_, hError, hSays⟩

theorem not_refuses_of_ok
    {source text : String}
    {terms : List Datum}
    (hTerms : allOfSource source = .ok terms) :
    ¬ Refuses source text := by
  rintro ⟨failure, hFailure, -⟩
  rw [hTerms] at hFailure
  cases hFailure

variable {source : String} {tokens : List Token}

theorem allOfSource_eq_allOfTokens
    (hTokens : Token.ofSource source = .ok tokens) :
    allOfSource source = allOfTokens tokens := by
  rw [allOfSource, hTokens, ok_bind]

theorem exists_allOfSource_iff
    (hTokens : Token.ofSource source = .ok tokens)
    (hBrief : ∀ token ∈ tokens, token.Brief) :
    (∃ terms, allOfSource source = .ok terms) ↔
      Token.Covered 0 tokens ∧
        tokens.count Token.lparen =
          tokens.count Token.rparen := by
  rw [allOfSource_eq_allOfTokens hTokens]
  rcases allOfTokens_cases hBrief with
    ⟨hOver, hError⟩ | ⟨-, hOpen, hError⟩ |
    ⟨hCovered, hEqual, hTerms⟩
  · rw [hError]
    exact iff_of_false nofun fun hRight => hOver hRight.1
  · rw [hError]
    exact iff_of_false nofun fun hRight => by omega
  · exact iff_of_true hTerms ⟨hCovered, hEqual⟩

theorem refuses_close_iff
    (hTokens : Token.ofSource source = .ok tokens)
    (hBrief : ∀ token ∈ tokens, token.Brief) :
    Refuses source "unexpected ')'" ↔
      ¬ Token.Covered 0 tokens := by
  have hSource := allOfSource_eq_allOfTokens hTokens
  rcases allOfTokens_cases hBrief with
    ⟨hOver, hError⟩ | ⟨hCovered, -, hError⟩ |
    ⟨hCovered, -, terms, hTerms⟩
  · rw [refuses_iff_of_error (hSource.trans hError) rfl]
    exact iff_of_true rfl hOver
  · rw [refuses_iff_of_error (hSource.trans hError) rfl]
    exact iff_of_false (by decide) (not_not.mpr hCovered)
  · exact
      iff_of_false
        (not_refuses_of_ok (hSource.trans hTerms))
        (not_not.mpr hCovered)

theorem refuses_endOfList_iff
    (hTokens : Token.ofSource source = .ok tokens)
    (hBrief : ∀ token ∈ tokens, token.Brief) :
    Refuses source "unexpected EOF while reading list" ↔
      Token.Covered 0 tokens ∧
        0 < Token.balance source := by
  have hSource := allOfSource_eq_allOfTokens hTokens
  have hBalance := Token.balance_eq_count hTokens
  rcases allOfTokens_cases hBrief with
    ⟨hOver, hError⟩ | ⟨hCovered, hOpen, hError⟩ |
    ⟨-, hEqual, terms, hTerms⟩
  · rw [refuses_iff_of_error (hSource.trans hError) rfl]
    exact
      iff_of_false (by decide) fun hRight => hOver hRight.1
  · rw [refuses_iff_of_error (hSource.trans hError) rfl]
    exact iff_of_true rfl ⟨hCovered, by omega⟩
  · exact
      iff_of_false
        (not_refuses_of_ok (hSource.trans hTerms))
        fun hRight => by omega

end Datum

/-
  A batch that fails to take a text exceeds its bound, or
  the text is not read.
-/
theorem Batch.allOfSource_of_add
    {batch : Batch}
    {text : String}
    {number : Int}
    {failure : Failure}
    (hResult :
      (batch.add text number).result = .error failure)
    (hSettled : failure ≠ .depthExceeded) :
    Datum.allOfSource text = .error failure := by
  have hReads :=
    Datum.allOfSourceWithin_approximates_allOfSource
      batch.depth text
  unfold Batch.add at hResult
  cases hRead :
      Datum.allOfSourceWithin batch.depth text with
  | error other =>
      simp only [hRead] at hResult
      cases hResult
      exact hReads.eq_error hRead hSettled
  | ok terms => simp [hRead] at hResult

namespace Console

/- A line is complete when it leaves no list open. -/
theorem joinLine_complete_iff
    (line pending : String) :
    (joinLine line pending).2 = false ↔
      Token.balance (joinLine line pending).1 ≤ 0 := by
  simp [joinLine]

theorem joinLine_alone
    (line : String) :
    (joinLine line "").1 = Text.strip line := by
  simp [joinLine]

end Console

/-
  The reader accepts the sources whose parentheses match,
  and its terms are what their tokens tell.  It refuses the
  others by the first parenthesis that closes nothing, or
  else at the end.  A line that is taken for complete never
  ends too early, a line that can be read is never held
  back, and one term is read as all terms are.
-/
theorem reader_accepts_balanced :
    (∀ source tokens,
      Token.ofSource source = .ok tokens →
      (∀ token ∈ tokens, token.Brief) →
      ((∃ terms, Datum.allOfSource source = .ok terms) ↔
        (∀ front, front <+: tokens →
          front.count Token.rparen ≤
            front.count Token.lparen) ∧
          tokens.count Token.lparen =
            tokens.count Token.rparen) ∧
      (∀ terms,
        Datum.allOfSource source = .ok terms ↔
          tokens.mapM Token.event =
            .ok (Datum.eventsOfAll terms)) ∧
      (Datum.Refuses source "unexpected ')'" ↔
        ∃ front, front <+: tokens ∧
          front.count Token.lparen <
            front.count Token.rparen) ∧
      (Datum.Refuses source
          "unexpected EOF while reading list" ↔
        (∀ front, front <+: tokens →
          front.count Token.rparen ≤
            front.count Token.lparen) ∧
          0 < Token.balance source) ∧
      ¬ Datum.Refuses source
          "unexpected EOF while reading") ∧
    (∀ line pending batch number failure,
      (Console.joinLine line pending).2 = false →
      (Batch.add batch (Console.joinLine line pending).1
        number).result = .error failure →
      ¬ failure.Says "unexpected EOF while reading" ∧
        ¬ failure.Says
          "unexpected EOF while reading list") ∧
    (∀ line terms,
      Datum.allOfSource line = .ok terms →
      (Console.joinLine line "").2 = false) ∧
    (∀ line pending terms,
      Datum.allOfSource (Console.joinLine line pending).1 =
        .ok terms →
      (Console.joinLine line pending).2 = false) ∧
    (∀ source datum,
      Datum.ofSource source = .ok datum ↔
        Datum.allOfSource source = .ok [datum]) := by
  refine ⟨?source, ?complete, ?line, ?joined, ?single⟩
  case source =>
    intro source tokens hTokens hBrief
    have hAccepts :=
      Datum.exists_allOfSource_iff hTokens hBrief
    have hClose := Datum.refuses_close_iff hTokens hBrief
    have hEnd := Datum.refuses_endOfList_iff hTokens hBrief
    have hTerms (terms : List Datum) :
        Datum.allOfSource source = .ok terms ↔
          tokens.mapM Token.event =
            .ok (Datum.eventsOfAll terms) := by
      rw [Datum.allOfSource_eq_allOfTokens hTokens]
      exact Datum.allOfTokens_eq_ok_iff
    rw [Token.covered_zero_iff] at hAccepts hClose hEnd
    refine ⟨hAccepts, hTerms, ?_, hEnd, ?_⟩
    · rw [hClose]
      push Not
      rfl
    · exact Datum.not_refuses_end source
  case complete =>
    intro line pending batch number failure hComplete hResult
    have hRefused
        {text : String}
        (hSays : failure.Says text) :
        Datum.Refuses (Console.joinLine line pending).1
          text := by
      have hSettled : failure ≠ .depthExceeded := by
        rintro rfl
        rcases hSays with ⟨fault, hFault, -⟩
        cases hFault
      exact
        ⟨_, Batch.allOfSource_of_add hResult hSettled,
          hSays⟩
    rw [Console.joinLine_complete_iff] at hComplete
    refine ⟨fun hSays => ?_, fun hSays => ?_⟩
    · exact Datum.not_refuses_end _ (hRefused hSays)
    · have hBalance :=
        Datum.balance_pos_of_refuses (hRefused hSays)
      omega
  case line =>
    intro line terms hTerms
    have hBalance := Datum.balance_eq_zero hTerms
    rw [Console.joinLine_complete_iff,
      Console.joinLine_alone, Token.balance_strip]
    omega
  case joined =>
    intro line pending terms hTerms
    have hBalance := Datum.balance_eq_zero hTerms
    rw [Console.joinLine_complete_iff]
    omega
  case single =>
    intro source datum
    exact Datum.ofSource_eq_ok_iff

/- Parentheses in a text and in a comment do not count. -/
def Datum.hiddenSource : String :=
  "(f \"(\" ;; )\n (1))"

/- The tokens of a source with hidden parentheses. -/
def Token.hidden : List Token :=
  ["(", "f", "\"(\"", "(", "1", ")", ")"]

theorem reader_accepts_balanced_hidden :
    Token.ofSource Datum.hiddenSource = .ok Token.hidden ∧
      (∀ token ∈ Token.hidden, token.Brief) ∧
      (∃ terms,
        Datum.allOfSource Datum.hiddenSource = .ok terms) ∧
      Datum.allOfSource Datum.hiddenSource =
        .ok
          [.list
            [.symbol "f", .text "(",
              .list [.num (.int 1)]]] := by
  have hTokens :
      Token.ofSource Datum.hiddenSource =
        .ok Token.hidden := by
    rfl
  have hBrief : ∀ token ∈ Token.hidden, token.Brief := by
    unfold Token.Brief
    decide
  rcases reader_accepts_balanced.1 _ _ hTokens hBrief with
    ⟨hAccepts, hTerms, -⟩
  refine ⟨hTokens, hBrief, hAccepts.mpr ⟨?_, rfl⟩, ?_⟩
  · intro front hFront
    have hMem := (List.mem_inits front _).mpr hFront
    clear hFront
    revert front
    decide
  · exact (hTerms _).mpr rfl

end LamLang
