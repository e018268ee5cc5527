import LamLang.Proofs.Sequence

/-
  Reading one term at a time.

  A list is read by descent: its items are read as terms are,
  one after the other, until it is closed.  Every term takes
  a token at least, so the descent comes to an end whatever
  the tokens are, and it ends as the reader with its open
  lists does.  A term takes the shortest front of the tokens
  whose parentheses match, and it does not depend on what is
  left behind it.

  Key definitions include:
    * `LamLang.Datum.Aim`
    * `LamLang.Datum.Descends`
    * `LamLang.Token.Balances`

  Main statements:
    * `LamLang.Datum.Descends.progress`
    * `LamLang.Datum.exists_descends`
    * `LamLang.Datum.descends_iff`
    * `LamLang.Datum.allOfTokens_of_ne_nil`
    * `LamLang.terms_read_by_descent`
-/

------------------------------------------------------------
-- Descent
------------------------------------------------------------

namespace LamLang

namespace Datum

open Token (lparen rparen)

/- What is read: a term, or a list with these items so far. -/
inductive Aim where
| term
| list (items : List Datum)

/-
  How reading goes on from some tokens, what it comes to and
  which tokens it leaves.
-/
inductive Descends :
    Aim → List Token → Except Failure Datum → List Token →
      Prop
| ended :
    Descends .term [] (.error (.cause .unexpectedEnd)) []
| opened
    {tokens rest : List Token}
    {result : Except Failure Datum}
    (hList : Descends (.list []) tokens result rest) :
    Descends .term (lparen :: tokens) result rest
| unopened
    (tokens : List Token) :
    Descends .term (rparen :: tokens)
      (.error (.cause .unexpectedClose)) tokens
| single
    {token : Token}
    (hOpen : token ≠ lparen)
    (hClose : token ≠ rparen)
    (tokens : List Token) :
    Descends .term (token :: tokens) (ofToken token) tokens
| unclosed
    (items : List Datum) :
    Descends (.list items) []
      (.error (.cause .unexpectedEndOfList)) []
| closed
    (items : List Datum)
    (tokens : List Token) :
    Descends (.list items) (rparen :: tokens)
      (.ok (.list items)) tokens
| broken
    {token : Token}
    {tokens rest : List Token}
    {failure : Failure}
    (items : List Datum)
    (hClose : token ≠ rparen)
    (hItem :
      Descends .term (token :: tokens) (.error failure)
        rest) :
    Descends (.list items) (token :: tokens)
      (.error failure) rest
| item
    {token : Token}
    {tokens between rest : List Token}
    {datum : Datum}
    {result : Except Failure Datum}
    {items : List Datum}
    (hClose : token ≠ rparen)
    (hItem :
      Descends .term (token :: tokens) (.ok datum) between)
    (hLater :
      Descends (.list (items ++ [datum])) between result
        rest) :
    Descends (.list items) (token :: tokens) result rest

/- Some tokens are left, and fewer if there were any. -/
theorem Descends.progress
    {aim : Aim}
    {tokens rest : List Token}
    {result : Except Failure Datum}
    (hDescends : Descends aim tokens result rest) :
    rest <:+ tokens ∧
      (tokens ≠ [] → rest.length < tokens.length) := by
  induction hDescends with
  | ended => simp
  | opened hList ih =>
      have hLength := ih.1.length_le
      refine ⟨ih.1.trans (List.suffix_cons _ _), ?_⟩
      intro _
      rw [List.length_cons]
      omega
  | unopened tokens => simp
  | single hOpen hClose tokens => simp
  | unclosed items => simp
  | closed items tokens => simp
  | broken items hClose hItem ih => exact ih
  | item hClose hItem hLater ihItem ihLater =>
      have hLength := ihLater.1.length_le
      refine ⟨ihLater.1.trans ihItem.1, ?_⟩
      intro hTokens
      have hFewer := ihItem.2 hTokens
      omega

/- A list goes on if terms and shorter lists do. -/
theorem exists_descends_list
    {tokens : List Token}
    (hTerm :
      ∃ result rest, Descends .term tokens result rest)
    (hShorter :
      ∀ between : List Token,
        between.length < tokens.length →
          ∀ items, ∃ result rest,
            Descends (.list items) between result rest)
    (items : List Datum) :
    ∃ result rest,
      Descends (.list items) tokens result rest := by
  cases tokens with
  | nil => exact ⟨_, _, .unclosed items⟩
  | cons token tokens =>
      by_cases hClose : token = rparen
      · subst hClose
        exact ⟨_, _, .closed items tokens⟩
      · rcases hTerm with ⟨result, between, hItem⟩
        cases result with
        | error failure =>
            exact ⟨_, _, .broken items hClose hItem⟩
        | ok datum =>
            have hFewer := hItem.progress.2 (by simp)
            rcases hShorter between hFewer
              (items ++ [datum]) with ⟨result, rest, hLater⟩
            exact ⟨_, _, .item hClose hItem hLater⟩

theorem exists_descends_term
    {tokens : List Token}
    (hShorter :
      ∀ between : List Token,
        between.length < tokens.length →
          ∀ items, ∃ result rest,
            Descends (.list items) between result rest) :
    ∃ result rest, Descends .term tokens result rest := by
  cases tokens with
  | nil => exact ⟨_, _, .ended⟩
  | cons token tokens =>
      by_cases hOpen : token = lparen
      · subst hOpen
        rcases hShorter tokens (by simp) [] with
          ⟨result, rest, hList⟩
        exact ⟨_, _, .opened hList⟩
      · by_cases hClose : token = rparen
        · subst hClose
          exact ⟨_, _, .unopened tokens⟩
        · exact ⟨_, _, .single hOpen hClose tokens⟩

/- Reading comes to an end, whatever the tokens are. -/
theorem exists_descends
    (aim : Aim)
    (tokens : List Token) :
    ∃ result rest, Descends aim tokens result rest := by
  have hLists :
      ∀ tokens : List Token, ∀ items, ∃ result rest,
        Descends (.list items) tokens result rest := by
    intro tokens
    -- An item may take all tokens but needs fewer for lists.
    induction hLength : tokens.length using
      Nat.strong_induction_on generalizing tokens with
    | h length ih =>
        have hShorter :
            ∀ between : List Token,
              between.length < tokens.length →
                ∀ items, ∃ result rest,
                  Descends (.list items) between result
                    rest := by
          intro between hFewer
          exact ih _ (hLength ▸ hFewer) between rfl
        exact
          exists_descends_list
            (exists_descends_term hShorter) hShorter
  cases aim with
  | list items => exact hLists tokens items
  | term =>
      exact exists_descends_term fun between _ =>
        hLists between

end Datum

end LamLang

------------------------------------------------------------
-- Descent And Open Lists
------------------------------------------------------------

namespace LamLang

namespace Datum

open Token (lparen rparen)

/- The open lists while this is read above others. -/
def Aim.onto
    (stack : Stack) :
    Aim → Stack
| .term => stack
| .list items => items.reverse :: stack

/- Go on above some lists after a term, or stop. -/
def settle
    (stack : Stack) :
    Except Failure Datum → List Token →
      Except Failure Datum × List Token
| .ok datum, rest => resume (push datum stack) rest
| .error failure, rest => (.error failure, rest)

/-
  Above open lists, a term is read only where there is a
  token that does not close one.
-/
def Aim.Fits
    (stack : Stack)
    (tokens : List Token) :
    Aim → Prop
| .term =>
    stack = [[]] ∨
      ∃ token later,
        tokens = token :: later ∧ token ≠ rparen
| .list _ => True

theorem resume_nested
    (items below : List Datum)
    (outer : Stack)
    (tokens : List Token) :
    resume (items :: below :: outer) tokens =
      ofTokensFrom (items :: below :: outer) tokens := by
  apply resume_of_unfinished
  simp

/- Reading with open lists follows the descent. -/
theorem Descends.ofTokensFrom_onto
    {aim : Aim}
    {tokens rest : List Token}
    {result : Except Failure Datum}
    (hDescends : Descends aim tokens result rest)
    (below : List Datum)
    (outer : Stack)
    (hFits : aim.Fits (below :: outer) tokens) :
    ofTokensFrom (aim.onto (below :: outer)) tokens =
      settle (below :: outer) result rest := by
  induction hDescends generalizing below outer with
  | ended =>
      rcases hFits with hStack | ⟨_, _, hNone, -⟩
      · rw [Aim.onto, hStack]
        rfl
      · cases hNone
  | opened hList ih =>
      have hShift :
          shift (below :: outer) lparen =
            .ok ([] :: below :: outer) := by
        simp [shift]
      rw [Aim.onto, ofTokensFrom_cons hShift, resume_nested]
      exact ih below outer trivial
  | unopened tokens =>
      rcases hFits with hStack | ⟨_, _, hFirst, hClose⟩
      · rw [Aim.onto, hStack]
        rfl
      · cases hFirst
        exact absurd rfl hClose
  | @single token hOpen hClose tokens =>
      have hShift :
          shift (below :: outer) token =
            (ofToken token).map fun item =>
              push item (below :: outer) := by
        unfold shift
        rw [if_neg hOpen, if_neg hClose]
      rw [Aim.onto]
      cases hToken : ofToken token with
      | error failure =>
          rw [hToken] at hShift
          rw [ofTokensFrom, hShift]
          rfl
      | ok datum =>
          rw [hToken] at hShift
          exact ofTokensFrom_cons hShift tokens
  | unclosed items => rfl
  | closed items tokens =>
      have hShift :
          shift (items.reverse :: below :: outer) rparen =
            .ok (push (.list items) (below :: outer)) := by
        simp [shift, lparen, rparen]
      rw [Aim.onto]
      exact ofTokensFrom_cons hShift tokens
  | broken items hClose hItem ih =>
      exact
        ih items.reverse (below :: outer)
          (.inr ⟨_, _, rfl, hClose⟩)
  | @item token tokens between rest datum result items
      hClose hItem hLater ihItem ihLater =>
      have hHere :
          ofTokensFrom (items.reverse :: below :: outer)
              (token :: tokens) =
            resume ((datum :: items.reverse) :: below :: outer)
              between :=
        ihItem items.reverse (below :: outer)
          (.inr ⟨_, _, rfl, hClose⟩)
      have hThere :
          ofTokensFrom
              ((datum :: items.reverse) :: below :: outer)
              between =
            settle (below :: outer) result rest := by
        simpa [Aim.onto] using ihLater below outer trivial
      rw [Aim.onto, hHere, resume_nested, hThere]

/- The descent is the one way in which a term is read. -/
theorem descends_iff
    {tokens rest : List Token}
    {result : Except Failure Datum} :
    Descends .term tokens result rest ↔
      ofTokens tokens = (result, rest) := by
  have hFollows :
      ∀ result rest, Descends .term tokens result rest →
        ofTokens tokens = (result, rest) := by
    intro result rest hDescends
    have hRead :=
      hDescends.ofTokensFrom_onto [] [] (.inl rfl)
    rw [ofTokens]
    cases result with
    | error failure => exact hRead
    | ok datum => exact hRead
  constructor
  · exact hFollows result rest
  · intro hRead
    rcases exists_descends .term tokens with
      ⟨other, left, hDescends⟩
    have hSame := hFollows other left hDescends
    rw [hRead] at hSame
    cases hSame
    exact hDescends

end Datum

end LamLang

------------------------------------------------------------
-- The Tokens Of A Term
------------------------------------------------------------

namespace LamLang

/-
  The shortest front of some tokens that closes as many
  lists as it opens.
-/
structure Token.Balances
    (used tokens : List Token) :
    Prop where
  front : used <+: tokens
  nonempty : used ≠ []
  equal : used.count lparen = used.count rparen
  shortest :
    ∀ front, front <+: tokens → front ≠ [] →
      front.count lparen = front.count rparen →
      used.length ≤ front.length

namespace Datum

open Token (lparen rparen)

/- The terms of tokens whose front matches start there. -/
theorem exists_allOfTokens_of_append
    {front back : List Token}
    {terms : List Datum}
    (hTerms : allOfTokens (front ++ back) = .ok terms)
    (hEqual : front.count lparen = front.count rparen) :
    ∃ first later,
      allOfTokens front = .ok first ∧
        allOfTokens back = .ok later ∧
        terms = first ++ later := by
  have hShifts := foldlM_shift_of_allOfTokens hTerms
  rw [List.foldlM_append] at hShifts
  rcases bind_eq_ok hShifts with ⟨stack, hFront, -⟩
  rcases length_of_foldlM_shift hFront with
    ⟨items, outer, rfl, hLength⟩
  have hOuter : outer = [] := by
    apply List.eq_nil_of_length_eq_zero
    rw [List.length_nil] at hLength
    omega
  have hFirst : allOfTokens front = .ok items.reverse := by
    rw [allOfTokens, hFront, hOuter]
    rfl
  rw [allOfTokens_append hFirst] at hTerms
  rcases map_eq_ok hTerms with ⟨later, hLater, hBoth⟩
  exact ⟨_, later, hFirst, hLater, hBoth.symm⟩

/- The tokens of one term match, and no front of them does. -/
theorem balances_of_allOfTokens
    {used : List Token}
    {datum : Datum}
    (hTerm : allOfTokens used = .ok [datum])
    (rest : List Token) :
    Token.Balances used (used ++ rest) where
  front := List.prefix_append used rest
  nonempty := by
    rintro rfl
    cases hTerm
  equal := by
    have hShifts := allOfTokens_eq_singleton_iff.mp hTerm
    rcases length_of_foldlM_shift hShifts with
      ⟨items, outer, hStack, hLength⟩
    cases hStack
    rw [List.length_nil] at hLength
    omega
  shortest := by
    intro front hFront hNonempty hEqual
    by_contra hShorter
    have hWithin : front <+: used :=
      List.prefix_of_prefix_length_le hFront
        (List.prefix_append used rest) (by omega)
    rcases hWithin with ⟨back, rfl⟩
    rcases exists_allOfTokens_of_append hTerm hEqual with
      ⟨first, later, hFirst, hLater, hBoth⟩
    -- One of the two parts has the term, the other nothing.
    rcases List.singleton_eq_append_iff.mp hBoth with
      ⟨rfl, -⟩ | ⟨-, rfl⟩
    · exact hNonempty (eq_nil_of_allOfTokens hFirst)
    · rw [eq_nil_of_allOfTokens hLater] at hShorter
      simp at hShorter

/- A term is one token or a list that a token opens. -/
theorem used_of_descends
    {used rest : List Token}
    {datum : Datum}
    (hDescends :
      Descends .term (used ++ rest) (.ok datum) rest)
    (hUsed : used ≠ []) :
    (∃ token,
      used = [token] ∧ token ≠ lparen ∧ token ≠ rparen) ∨
      used.head? = some lparen := by
  rcases List.exists_cons_of_ne_nil hUsed with
    ⟨token, later, rfl⟩
  generalize hTokens : token :: later ++ rest = tokens
    at hDescends
  generalize hResult : Except.ok datum = result at hDescends
  cases hDescends with
  | ended => cases hTokens
  | opened hList =>
      right
      rw [(List.cons_eq_cons.mp hTokens).1]
      rfl
  | unopened => cases hResult
  | single hOpen hClose =>
      left
      rcases List.cons_eq_cons.mp hTokens with ⟨rfl, hRest⟩
      have hLater : later = [] := by simpa using hRest
      rw [hLater]
      exact ⟨token, rfl, hOpen, hClose⟩

end Datum

end LamLang

------------------------------------------------------------
-- All Terms
------------------------------------------------------------

namespace LamLang

namespace Datum

/- No token leaves the input as it is at the start. -/
theorem shift_ne_blank
    {stack next : Stack}
    {token : Token}
    (hStack : stack ≠ [])
    (hShift : shift stack token = .ok next) :
    next ≠ [[]] := by
  rcases List.exists_cons_of_ne_nil hStack with
    ⟨items, outer, rfl⟩
  rcases events_of_shift hShift with
    ⟨-, event, -, hEvents⟩
  rintro rfl
  simp [Stack.events, eventsOfAll] at hEvents

/- What stops the reading of a term stops that of all. -/
theorem foldlM_shift_of_ofTokensFrom_error
    {stack : Stack}
    {tokens rest : List Token}
    {failure : Failure}
    (hStack : stack.getLast? = some [])
    (hBegun : tokens = [] → stack ≠ [[]])
    (hRead :
      ofTokensFrom stack tokens = (.error failure, rest)) :
    tokens.foldlM shift stack = .error failure ∨
      failure = .cause .unexpectedEndOfList ∧
        ∃ items below outer,
          tokens.foldlM shift stack =
            .ok (items :: below :: outer) := by
  fun_induction ofTokensFrom stack tokens with
  | case1 stack =>
      right
      rcases stack with _ | ⟨items, _ | ⟨below, outer⟩⟩
      · cases hStack
      · have hItems : items = [] := by simpa using hStack
        exact absurd (by rw [hItems]) (hBegun rfl)
      · cases hRead
        exact ⟨rfl, items, below, outer, rfl⟩
  | case2 stack token tokens other hShift =>
      left
      cases hRead
      rw [List.foldlM_cons, hShift]
      rfl
  | case3 stack token tokens item hShift => cases hRead
  | case4 stack token tokens next hNext hShift ih =>
      have hNonempty : stack ≠ [] := by
        rintro rfl
        cases hStack
      rw [List.foldlM_cons, hShift, ok_bind]
      rcases shift_unfinished hStack hShift with
        hLast | ⟨item, rfl⟩
      · exact
          ih hLast
            (fun _ => shift_ne_blank hNonempty hShift) hRead
      · exact absurd rfl (hNext item)

/- All terms are read one after the other. -/
theorem allOfTokens_of_ne_nil
    {tokens : List Token}
    (hTokens : tokens ≠ []) :
    allOfTokens tokens =
      (do
        let datum ← (ofTokens tokens).1
        let terms ← allOfTokens (ofTokens tokens).2
        return datum :: terms) := by
  rcases hRead : ofTokens tokens with ⟨result, rest⟩
  cases result with
  | ok datum =>
      rcases ofTokens_eq_ok_iff.mp hRead with
        ⟨used, rfl, hTerm⟩
      rw [allOfTokens_append hTerm]
      cases allOfTokens rest <;> rfl
  | error failure =>
      have hStops :=
        foldlM_shift_of_ofTokensFrom_error rfl
          (fun hNone => absurd hNone hTokens) hRead
      unfold allOfTokens
      rcases hStops with
        hError | ⟨rfl, items, below, outer, hOpen⟩
      · rw [hError]
        rfl
      · rw [hOpen]
        rfl

end Datum

end LamLang

------------------------------------------------------------
-- One Term At A Time
------------------------------------------------------------

namespace LamLang

open Datum (Descends ofTokens allOfTokens)
open Token (lparen rparen)

/-
  Reading a term by descent ends for all tokens, in the one
  way in which the reader ends.  It leaves the end of the
  tokens, with one token less at least.  A term that is read
  took a single token or the shortest front that matches,
  and it is read in the same way whatever follows.  So all
  terms are read by reading one after the other.
-/
theorem terms_read_by_descent
    (tokens : List Token) :
    (∃ result rest, Descends .term tokens result rest) ∧
    (∀ result rest,
      Descends .term tokens result rest ↔
        ofTokens tokens = (result, rest)) ∧
    (ofTokens tokens).2 <:+ tokens ∧
    (tokens ≠ [] →
      (ofTokens tokens).2.length < tokens.length) ∧
    (∀ datum rest,
      ofTokens tokens = (.ok datum, rest) →
        (∃ used,
          tokens = used ++ rest ∧
            ((∃ token,
              used = [token] ∧
                token ≠ lparen ∧ token ≠ rparen) ∨
              used.head? = some lparen ∧
                Token.Balances used tokens)) ∧
        ∀ extra,
          ofTokens (tokens ++ extra) =
            (.ok datum, rest ++ extra)) ∧
    (tokens ≠ [] →
      allOfTokens tokens =
        (do
          let datum ← (ofTokens tokens).1
          let terms ← allOfTokens (ofTokens tokens).2
          return datum :: terms)) := by
  have hDescends :
      Descends .term tokens (ofTokens tokens).1
        (ofTokens tokens).2 :=
    Datum.descends_iff.mpr rfl
  refine
    ⟨⟨_, _, hDescends⟩, ?same, hDescends.progress.1,
      hDescends.progress.2, ?taken,
      Datum.allOfTokens_of_ne_nil⟩
  case same =>
    intro result rest
    exact Datum.descends_iff
  case taken =>
    intro datum rest hRead
    have hTerm := Datum.descends_iff.mpr hRead
    rcases Datum.ofTokens_eq_ok_iff.mp hRead with
      ⟨used, rfl, hUsed⟩
    have hBalances :=
      Datum.balances_of_allOfTokens hUsed rest
    refine ⟨⟨used, rfl, ?_⟩, ?_⟩
    · rcases Datum.used_of_descends hTerm
        hBalances.nonempty with hSingle | hOpen
      · exact .inl hSingle
      · exact .inr ⟨hOpen, hBalances⟩
    · intro extra
      rw [List.append_assoc]
      exact Datum.ofTokens_eq_ok_iff.mpr ⟨used, rfl, hUsed⟩

/- The tokens of a list that holds lists. -/
def Token.nestedFront : List Token :=
  ["(", "f", "(", ")", "(", "1", ")", ")"]

/- Tokens that may follow, though they start no term. -/
def Token.nestedRest : List Token := [")", "x"]

/- The list that these tokens stand for. -/
def Datum.nestedList : Datum :=
  .list [.symbol "f", .list [], .list [.num (.int 1)]]

theorem terms_read_by_descent_nested :
    Token.nestedFront ++ Token.nestedRest ≠ [] ∧
      ofTokens (Token.nestedFront ++ Token.nestedRest) =
        (.ok Datum.nestedList, Token.nestedRest) ∧
      Descends .term (Token.nestedFront ++ Token.nestedRest)
        (.ok Datum.nestedList) Token.nestedRest ∧
      Token.Balances Token.nestedFront
        (Token.nestedFront ++ Token.nestedRest) ∧
      ofTokens
          (Token.nestedFront ++ Token.nestedRest ++ ["("]) =
        (.ok Datum.nestedList, Token.nestedRest ++ ["("]) ∧
      allOfTokens (Token.nestedFront ++ Token.nestedRest) =
        .error (.cause .unexpectedClose) := by
  have hRead :
      ofTokens (Token.nestedFront ++ Token.nestedRest) =
        (.ok Datum.nestedList, Token.nestedRest) := by
    rfl
  rcases terms_read_by_descent
    (Token.nestedFront ++ Token.nestedRest) with
    ⟨-, hDescends, -, -, hTaken, hAll⟩
  rcases hTaken _ _ hRead with
    ⟨⟨used, hUsed, hShape⟩, hExtra⟩
  have hFront : Token.nestedFront = used :=
    List.append_cancel_right hUsed
  refine
    ⟨by decide, hRead, (hDescends _ _).mpr hRead, ?_,
      hExtra ["("], ?_⟩
  · subst hFront
    rcases hShape with ⟨token, hSingle, -⟩ | ⟨-, hBalances⟩
    · exact absurd hSingle (by simp [Token.nestedFront])
    · exact hBalances
  · rw [hAll (by decide), hRead]
    rfl

end LamLang
