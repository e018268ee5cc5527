import LamLang.Expr.OfDatum
import LamLang.Proofs.Calls
import LamLang.Proofs.Items
import Mathlib.Data.List.Forall2

/-
  The grammar of terms.

  A term is turned into an expression exactly when the
  grammar derives it, and any other term is refused with a
  parse error.  Nothing is lost on the way: an expression is
  turned back into its term, up to the difference between
  lists and tuples, and the expressions reached are those
  that never apply a keyword.

  Key definitions include:
    * `LamLang.Datum.Grammatical`
    * `LamLang.Datum.numbers`
    * `LamLang.Datum.RefusedFor`
    * `LamLang.Expr.KeywordFree`
    * `LamLang.Expr.toDatum`

  Main statements:
    * `LamLang.Datum.write_failsOnly`
    * `LamLang.Expr.ofDatum_induction`
    * `LamLang.Expr.ofDatum_failsOnly_of_parts`
    * `LamLang.Expr.ofDatum_toDatum`
    * `LamLang.ofDatum_exactly_grammatical`
-/

------------------------------------------------------------
-- Grammar
------------------------------------------------------------

namespace LamLang

namespace Datum

/-
  The terms of the language.  A list that starts with one of
  the keywords has the form that the keyword asks for.
-/
inductive Grammatical : Datum → Prop
| num (n : Number) : Grammatical (.num n)
| symbol (name : String) : Grammatical (.symbol name)
| text (s : String) : Grammatical (.text s)
| cond
    {term test yes no : Datum}
    (hItems :
      term.items? =
        some [.symbol condKeyword, test, yes, no])
    (hTest : Grammatical test)
    (hYes : Grammatical yes)
    (hNo : Grammatical no) :
    Grammatical term
| lam
    {term params body : Datum}
    {names : List String}
    (hItems :
      term.items? = some [.symbol lamKeyword, params, body])
    (hParams : params.items? = some (names.map .symbol))
    (hBody : Grammatical body) :
    Grammatical term
| app
    {term head : Datum}
    {rest : List Datum}
    (hItems : term.items? = some (head :: rest))
    (hCond : head ≠ .symbol condKeyword)
    (hLam : head ≠ .symbol lamKeyword)
    (hHead : Grammatical head)
    (hRest : ∀ item ∈ rest, Grammatical item) :
    Grammatical term

/- Only a symbol has a name. -/
theorem symbol?_eq_some_iff
    {datum : Datum}
    {name : String} :
    datum.symbol? = some name ↔ datum = .symbol name := by
  cases datum <;> simp [symbol?]

theorem mapM_symbol?_eq_some_iff
    {items : List Datum}
    {names : List String} :
    items.mapM symbol? = some names ↔
      items = names.map .symbol := by
  induction items generalizing names with
  | nil => cases names <;> simp
  | cons item items ih =>
      cases names with
      | nil =>
          simp [List.mapM_cons, Option.bind_eq_some_iff]
      | cons name names =>
          simp [List.mapM_cons, Option.bind_eq_some_iff,
            symbol?_eq_some_iff, ih]

/- A parameter list is a sequence of symbols. -/
theorem params?_eq_some_iff
    {datum : Datum}
    {names : List String} :
    datum.params? = some names ↔
      datum.items? = some (names.map .symbol) := by
  unfold params?
  cases datum.items? with
  | none => simp
  | some items => simp [mapM_symbol?_eq_some_iff]

end Datum

end LamLang

------------------------------------------------------------
-- Numbers That Are Written
------------------------------------------------------------

namespace LamLang

namespace Datum

mutual

/-
  The numbers that stand in the description of an object.
  An environment is described by its names alone.
-/
def numbers : Datum → List Number
| .num n => [n]
| .list items => numbersOfAll items
| .tuple items => numbersOfAll items
| .expr e => numbersOfExpr e
| .value v => numbersOfValue v
| .binding _ v => numbersOfValue v
| .other _ numbers => numbers
| _ => []

/- The numbers in the descriptions of objects. -/
def numbersOfAll : List Datum → List Number
| [] => []
| item :: items => item.numbers ++ numbersOfAll items

/- The numbers in the description of an expression. -/
def numbersOfExpr : Expr Datum → List Number
| .num n => [n]
| .cond test yes no =>
    numbersOfExpr test ++ numbersOfExpr yes ++
      numbersOfExpr no
| .lam _ body => numbersOfExpr body
| .app fn args => numbersOfExpr fn ++ numbersOfExprs args
| .foreign object => numbers object
| _ => []

/- The numbers in the descriptions of expressions. -/
def numbersOfExprs : List (Expr Datum) → List Number
| [] => []
| e :: es => numbersOfExpr e ++ numbersOfExprs es

/- The numbers in the description of a value. -/
def numbersOfValue : Value Datum → List Number
| .num n => [n]
| .closure _ body _ => numbersOfExpr body
| .foreign object => numbers object
| _ => []

end

theorem mem_numbersOfAll
    {n : Number}
    {items : List Datum} :
    n ∈ numbersOfAll items ↔
      ∃ item ∈ items, n ∈ item.numbers := by
  induction items with
  | nil => simp [numbersOfAll]
  | cons item items ih => simp [numbersOfAll, ih]

theorem mem_numbers_of_items?
    {datum item : Datum}
    {items : List Datum}
    {n : Number}
    (hItems : datum.items? = some items)
    (hMem : item ∈ items)
    (hNumber : n ∈ item.numbers) :
    n ∈ datum.numbers := by
  have hAll : n ∈ numbersOfAll items :=
    mem_numbersOfAll.mpr ⟨item, hMem, hNumber⟩
  rcases items?_eq_some hItems with rfl | rfl
  · simpa [numbers] using hAll
  · simpa [numbers] using hAll

/- The numbers of a part are numbers of the whole. -/
theorem Within.mem_numbers
    {part whole : Datum}
    (hPart : part.Within whole)
    {n : Number}
    (hNumber : n ∈ part.numbers) :
    n ∈ whole.numbers := by
  induction hPart with
  | refl => exact hNumber
  | item hItems hMem _ ih =>
      exact mem_numbers_of_items? hItems hMem ih

variable {P : Failure → Prop}

mutual

/- A description fails only as a number in it does. -/
theorem describe_failsOnly :
    (datum : Datum) →
    (∀ n ∈ datum.numbers, FailsOnly P n.text) →
    FailsOnly P datum.describe
| .nothing, _ => .ok _
| .bool _, _ => .ok _
| .num n, hNumbers => hNumbers n (by simp [numbers])
| .text _, _ => .ok _
| .symbol _, _ => .ok _
| .list items, hNumbers => by
    rw [numbers] at hNumbers
    apply (describeAll_failsOnly items hNumbers).bind
    intro inner
    exact .ok _
| .tuple items, hNumbers => by
    rw [numbers] at hNumbers
    apply (describeAll_failsOnly items hNumbers).bind
    intro inner
    exact .ok _
| .expr e, hNumbers => by
    rw [numbers] at hNumbers
    exact describeExpr_failsOnly e hNumbers
| .value v, hNumbers => by
    rw [numbers] at hNumbers
    exact describeValue_failsOnly v hNumbers
| .scope _, _ => .ok _
| .binding _ v, hNumbers => by
    rw [numbers] at hNumbers
    apply (describeValue_failsOnly v hNumbers).bind
    intro inner
    exact .ok _
| .other _ written, hNumbers => by
    rw [numbers] at hNumbers
    apply FailsOnly.bind
    · intro failure hError
      rcases mapM_error hError with ⟨n, hRuns, hFails⟩
      exact hNumbers n hRuns.mem failure hFails
    · intro texts
      exact .ok _

theorem describeAll_failsOnly :
    (items : List Datum) →
    (∀ n ∈ numbersOfAll items, FailsOnly P n.text) →
    FailsOnly P (describeAll items)
| [], _ => .ok _
| item :: items, hNumbers => by
    simp only [numbersOfAll, List.mem_append] at hNumbers
    apply
      (describe_failsOnly item fun n hMem =>
        hNumbers n (.inl hMem)).bind
    intro first
    apply
      (describeAll_failsOnly items fun n hMem =>
        hNumbers n (.inr hMem)).bind
    intro rest
    exact .ok _

theorem describeExpr_failsOnly :
    (e : Expr Datum) →
    (∀ n ∈ numbersOfExpr e, FailsOnly P n.text) →
    FailsOnly P (describeExpr e)
| .num n, hNumbers => by
    apply (hNumbers n (by simp [numbersOfExpr])).bind
    intro inner
    exact .ok _
| .text _, _ => .ok _
| .ident _, _ => .ok _
| .cond test yes no, hNumbers => by
    simp only [numbersOfExpr, List.mem_append] at hNumbers
    apply
      (describeExpr_failsOnly test fun n hMem =>
        hNumbers n (.inl (.inl hMem))).bind
    intro first
    apply
      (describeExpr_failsOnly yes fun n hMem =>
        hNumbers n (.inl (.inr hMem))).bind
    intro second
    apply
      (describeExpr_failsOnly no fun n hMem =>
        hNumbers n (.inr hMem)).bind
    intro third
    exact .ok _
| .lam _ body, hNumbers => by
    rw [numbersOfExpr] at hNumbers
    apply (describeExpr_failsOnly body hNumbers).bind
    intro inner
    exact .ok _
| .app fn args, hNumbers => by
    simp only [numbersOfExpr, List.mem_append] at hNumbers
    apply
      (describeExpr_failsOnly fn fun n hMem =>
        hNumbers n (.inl hMem)).bind
    intro head
    apply
      (describeExprs_failsOnly args fun n hMem =>
        hNumbers n (.inr hMem)).bind
    intro inner
    exact .ok _
| .foreign object, hNumbers => by
    rw [numbersOfExpr] at hNumbers
    exact describe_failsOnly object hNumbers

theorem describeExprs_failsOnly :
    (es : List (Expr Datum)) →
    (∀ n ∈ numbersOfExprs es, FailsOnly P n.text) →
    FailsOnly P (describeExprs es)
| [], _ => .ok _
| e :: es, hNumbers => by
    simp only [numbersOfExprs, List.mem_append] at hNumbers
    apply
      (describeExpr_failsOnly e fun n hMem =>
        hNumbers n (.inl hMem)).bind
    intro first
    apply
      (describeExprs_failsOnly es fun n hMem =>
        hNumbers n (.inr hMem)).bind
    intro rest
    exact .ok _

theorem describeValue_failsOnly :
    (v : Value Datum) →
    (∀ n ∈ numbersOfValue v, FailsOnly P n.text) →
    FailsOnly P (describeValue v)
| .num n, hNumbers => by
    apply (hNumbers n (by simp [numbersOfValue])).bind
    intro inner
    exact .ok _
| .bool _, _ => .ok _
| .text _, _ => .ok _
| .prim _, _ => .ok _
| .closure _ body _, hNumbers => by
    rw [numbersOfValue] at hNumbers
    apply (describeExpr_failsOnly body hNumbers).bind
    intro inner
    exact .ok _
| .foreign object, hNumbers => by
    rw [numbersOfValue] at hNumbers
    exact describe_failsOnly object hNumbers

end

theorem writeAll_failsOnly
    {items : List Datum}
    (hItems : ∀ item ∈ items, FailsOnly P item.write) :
    FailsOnly P (writeAll items) := by
  induction items with
  | nil => exact .ok _
  | cons item items ih =>
      rw [writeAll]
      apply (hItems item (by simp)).bind
      intro first
      have hRest : FailsOnly P (writeAll items) :=
        ih fun other hMem => hItems other (by simp [hMem])
      apply hRest.bind
      intro rest
      exact .ok _

/- A term is written unless a number in it is too long. -/
theorem write_failsOnly
    (datum : Datum)
    (hNumbers : ∀ n ∈ datum.numbers, FailsOnly P n.text) :
    FailsOnly P datum.write := by
  induction datum using item_induction with
  | step datum ih =>
      cases hItems : datum.items? with
      | none =>
          have hDescribed := describe_failsOnly datum hNumbers
          cases datum with
          | list items => cases hItems
          | tuple items => cases hItems
          | symbol name => exact .ok _
          | text s => exact .ok _
          | _ => simpa [write, describe] using hDescribed
      | some items =>
          have hAll : FailsOnly P (writeAll items) := by
            apply writeAll_failsOnly
            intro item hMem
            apply ih items hItems item hMem
            intro n hNumber
            exact hNumbers n
              (mem_numbers_of_items? hItems hMem hNumber)
          have hWhole :
              FailsOnly P
                (writeAll items >>= fun inner =>
                  .ok ("(" ++ " ".intercalate inner ++ ")")) :=
            hAll.bind fun inner => .ok _
          rcases items?_eq_some hItems with rfl | rfl
          · rw [write]
            exact hWhole
          · rw [write]
            exact hWhole

end Datum

end LamLang

------------------------------------------------------------
-- Parsing Step By Step
------------------------------------------------------------

namespace LamLang

namespace Expr

variable {α : Type}

theorem ofDatum_of_items?
    {term : Datum}
    {items : List Datum}
    (hItems : term.items? = some items) :
    (ofDatum term : Except Failure (Expr α)) =
      ofItems items := by
  rcases Datum.items?_eq_some hItems with rfl | rfl
  · rw [ofDatum]
  · rw [ofDatum]

theorem ofItems_cond
    (test yes no : Datum) :
    (ofItems [.symbol Datum.condKeyword, test, yes, no] :
      Except Failure (Expr α)) = do
        let test ← ofDatum test
        let yes ← ofDatum yes
        let no ← ofDatum no
        return .cond test yes no := by
  rw [ofItems]
  rfl

theorem ofItems_lam
    {params : Datum}
    {names : List String}
    (hParams : params.params? = some names)
    (body : Datum) :
    (ofItems [.symbol Datum.lamKeyword, params, body] :
      Except Failure (Expr α)) = do
        let body ← ofDatum body
        return .lam names body := by
  have hOther : Datum.lamKeyword ≠ Datum.condKeyword := by
    decide
  simp [ofItems, Datum.symbol?, hOther, hParams]

theorem ofItems_app
    {head : Datum}
    (hCond : head ≠ .symbol Datum.condKeyword)
    (hLam : head ≠ .symbol Datum.lamKeyword)
    (rest : List Datum) :
    (ofItems (head :: rest) : Except Failure (Expr α)) = do
      let fn ← ofDatum head
      let args ← ofData rest
      return .app fn args := by
  have hNotCond :
      head.symbol? ≠ some Datum.condKeyword :=
    fun hName => hCond (Datum.symbol?_eq_some_iff.mp hName)
  have hNotLam :
      head.symbol? ≠ some Datum.lamKeyword :=
    fun hName => hLam (Datum.symbol?_eq_some_iff.mp hName)
  rw [ofItems.eq_def]
  dsimp only
  rw [if_neg hNotCond, if_neg hNotLam]

theorem ofData_eq_ok_iff
    {items : List Datum}
    {es : List (Expr α)} :
    ofData items = .ok es ↔
      List.Forall₂ (fun item e => ofDatum item = .ok e)
        items es := by
  induction items generalizing es with
  | nil =>
      rw [ofData, List.forall₂_nil_left_iff]
      constructor
      · rintro ⟨⟩
        rfl
      · rintro rfl
        rfl
  | cons item items ih =>
      rw [ofData]
      constructor
      · intro h
        rcases bind_eq_ok h with ⟨first, hFirst, hNext⟩
        rcases bind_eq_ok hNext with ⟨rest, hRest, hPure⟩
        cases hPure
        exact .cons hFirst (ih.mp hRest)
      · intro h
        cases h with
        | cons hFirst hRest =>
            rw [hFirst, ih.mpr hRest]
            rfl

/-
  All that parsing a list can give: a conditional, a
  function or an application, each with the parts parsed.
-/
theorem ofItems_eq_ok
    {items : List Datum}
    {e : Expr α}
    (h : ofItems items = .ok e) :
    (∃ test yes no test' yes' no',
      items = [.symbol Datum.condKeyword, test, yes, no] ∧
        ofDatum test = .ok test' ∧
        ofDatum yes = .ok yes' ∧
        ofDatum no = .ok no' ∧
        e = .cond test' yes' no') ∨
    (∃ params names body body',
      items = [.symbol Datum.lamKeyword, params, body] ∧
        params.items? = some (names.map .symbol) ∧
        ofDatum body = .ok body' ∧
        e = .lam names body') ∨
    ∃ head rest fn args,
      items = head :: rest ∧
        head ≠ .symbol Datum.condKeyword ∧
        head ≠ .symbol Datum.lamKeyword ∧
        ofDatum head = .ok fn ∧
        List.Forall₂ (fun item e => ofDatum item = .ok e)
          rest args ∧
        e = .app fn args := by
  have hRefused
      {cause : String → Cause}
      {datum : Datum} :
      datum.refuse cause ≠ .ok e := by
    intro hOk
    rcases bind_eq_ok hOk with ⟨text, -, hFailed⟩
    cases hFailed
  cases items with
  | nil =>
      rw [ofItems] at h
      cases h
  | cons head rest =>
      by_cases hCond : head = .symbol Datum.condKeyword
      · subst hCond
        left
        rw [ofItems.eq_def] at h
        dsimp only at h
        rw [if_pos (by rfl)] at h
        split at h
        · rename_i test yes no
          rcases bind_eq_ok h with ⟨test', hTest, hNext⟩
          rcases bind_eq_ok hNext with ⟨yes', hYes, hLast⟩
          rcases bind_eq_ok hLast with ⟨no', hNo, hPure⟩
          cases hPure
          exact
            ⟨test, yes, no, test', yes', no', rfl, hTest,
              hYes, hNo, rfl⟩
        · exact absurd h hRefused
      · by_cases hLam : head = .symbol Datum.lamKeyword
        · subst hLam
          right
          left
          rw [ofItems.eq_def] at h
          dsimp only at h
          rw [if_neg (by decide), if_pos (by rfl)] at h
          split at h
          · rename_i params body
            split at h
            · rename_i names hParams
              rcases bind_eq_ok h with ⟨body', hBody, hPure⟩
              cases hPure
              exact
                ⟨params, names, body, body', rfl,
                  Datum.params?_eq_some_iff.mp hParams,
                  hBody, rfl⟩
            · exact absurd h hRefused
          · exact absurd h hRefused
        · right
          right
          rw [ofItems_app hCond hLam] at h
          rcases bind_eq_ok h with ⟨fn, hFn, hNext⟩
          rcases bind_eq_ok hNext with ⟨args, hArgs, hPure⟩
          cases hPure
          exact
            ⟨head, rest, fn, args, rfl, hCond, hLam, hFn,
              ofData_eq_ok_iff.mp hArgs, rfl⟩

/-
  Induction along a successful parse.  A relation between
  terms and expressions that holds of the constants, and of
  a whole if it holds of the parts, holds of every term and
  its expression.
-/
@[elab_as_elim]
theorem ofDatum_induction
    {motive : Datum → Expr α → Prop}
    (num : ∀ n, motive (.num n) (.num n))
    (symbol : ∀ name, motive (.symbol name) (.ident name))
    (text : ∀ s, motive (.text s) (.text s))
    (cond :
      ∀ term test yes no test' yes' no',
        term.items? =
            some [.symbol Datum.condKeyword, test, yes,
              no] →
          motive test test' →
          motive yes yes' →
          motive no no' →
          motive term (.cond test' yes' no'))
    (lam :
      ∀ term params names body body',
        term.items? =
            some [.symbol Datum.lamKeyword, params, body] →
          params.items? = some (names.map .symbol) →
          motive body body' →
          motive term (.lam names body'))
    (app :
      ∀ term head rest fn args,
        term.items? = some (head :: rest) →
          head ≠ .symbol Datum.condKeyword →
          head ≠ .symbol Datum.lamKeyword →
          ofDatum head = .ok fn →
          motive head fn →
          List.Forall₂ motive rest args →
          motive term (.app fn args))
    {term : Datum}
    {e : Expr α}
    (h : ofDatum term = .ok e) :
    motive term e := by
  induction term using Datum.item_induction
    generalizing e with
  | step term ih =>
      have hRefused
          {cause : String → Cause} :
          term.refuse cause ≠ .ok e := by
        intro hOk
        rcases bind_eq_ok hOk with ⟨text, -, hFailed⟩
        cases hFailed
      cases hItems : term.items? with
      | none =>
          cases term with
          | num n =>
              rw [ofDatum] at h
              cases h
              exact num n
          | symbol name =>
              rw [ofDatum] at h
              cases h
              exact symbol name
          | text s =>
              rw [ofDatum] at h
              cases h
              exact text s
          | list items => cases hItems
          | tuple items => cases hItems
          | _ =>
              rw [ofDatum] at h
              exact absurd h hRefused
      | some items =>
          rw [ofDatum_of_items? hItems] at h
          have hParts
              {item : Datum}
              {part : Expr α}
              (hMem : item ∈ items)
              (hPart : ofDatum item = .ok part) :
              motive item part :=
            ih items hItems item hMem hPart
          rcases ofItems_eq_ok h with
            ⟨test, yes, no, test', yes', no', rfl, hTest,
              hYes, hNo, rfl⟩ |
            ⟨params, names, body, body', rfl, hParams, hBody,
              rfl⟩ |
            ⟨head, rest, fn, args, rfl, hCond, hLam, hFn,
              hArgs, rfl⟩
          · exact
              cond term test yes no test' yes' no' hItems
                (hParts (by simp) hTest)
                (hParts (by simp) hYes)
                (hParts (by simp) hNo)
          · exact
              lam term params names body body' hItems hParams
                (hParts (by simp) hBody)
          · have hRest :
                List.Forall₂ motive rest args := by
              have hMotive :
                  ∀ item ∈ rest, ∀ part : Expr α,
                    ofDatum item = .ok part →
                      motive item part :=
                fun item hMem part =>
                  hParts (by simp [hMem])
              apply
                ((List.forall₂_and_left _ _).mpr
                  ⟨hMotive, hArgs⟩).imp
              intro item part hBoth
              exact hBoth.1 part hBoth.2
            exact
              app term head rest fn args hItems hCond hLam
                hFn (hParts (by simp) hFn) hRest

end Expr

/- Every expression of a list comes from one of the terms. -/
theorem exists_mem_of_forall₂
    {β γ : Type}
    {R : β → γ → Prop}
    {bs : List β}
    {cs : List γ}
    (hEach : List.Forall₂ R bs cs)
    {c : γ}
    (hMem : c ∈ cs) :
    ∃ b ∈ bs, R b c := by
  induction hEach with
  | nil => cases hMem
  | cons hFirst _ ih =>
      rcases List.mem_cons.mp hMem with rfl | hLater
      · exact ⟨_, by simp, hFirst⟩
      · rcases ih hLater with ⟨b, hb, hRelated⟩
        exact ⟨b, by simp [hb], hRelated⟩

end LamLang

------------------------------------------------------------
-- Refused Terms
------------------------------------------------------------

namespace LamLang

namespace Datum

/- A parse error that names a term as it is written. -/
structure RefusedFor
    (term : Datum)
    (cause : Cause) :
    Prop where
  kind : cause.kind = .parse
  named :
    ∃ text, term.write = .ok text ∧ cause.exprs = [text]

end Datum

variable {P : Failure → Prop}

theorem Datum.refuse_failsOnly
    {β : Type}
    {datum : Datum}
    (hWrite : FailsOnly P datum.write)
    (hCause :
      ∀ cause, datum.RefusedFor cause → P (.cause cause))
    {cause : String → Cause}
    (hKind : ∀ text, (cause text).kind = .parse)
    (hExprs : ∀ text, (cause text).exprs = [text]) :
    FailsOnly P (datum.refuse cause : Except Failure β) := by
  apply hWrite.bind_of_ok
  intro text hText
  apply FailsOnly.error
  apply hCause
  exact ⟨hKind text, text, hText, hExprs text⟩

namespace Expr

variable {α : Type}

theorem ofData_failsOnly
    {items : List Datum}
    (hItems :
      ∀ item ∈ items,
        FailsOnly P
          (ofDatum item : Except Failure (Expr α))) :
    FailsOnly P
      (ofData items : Except Failure (List (Expr α))) := by
  induction items with
  | nil =>
      rw [ofData]
      exact .ok _
  | cons item items ih =>
      rw [ofData]
      apply (hItems item (by simp)).bind
      intro first
      have hRest :=
        ih fun other hMem => hItems other (by simp [hMem])
      apply hRest.bind
      intro rest
      exact .ok _

theorem ofItems_failsOnly
    {items : List Datum}
    (hWrite : FailsOnly P (Datum.list items).write)
    (hCause :
      ∀ cause, (Datum.list items).RefusedFor cause →
        P (.cause cause))
    (hItems :
      ∀ item ∈ items,
        FailsOnly P
          (ofDatum item : Except Failure (Expr α))) :
    FailsOnly P
      (ofItems items : Except Failure (Expr α)) := by
  have hCond :
      FailsOnly P
        ((Datum.list items).refuse .malformedConditional :
          Except Failure (Expr α)) :=
    Datum.refuse_failsOnly hWrite hCause (fun _ => rfl)
      (fun _ => rfl)
  have hLam :
      FailsOnly P
        ((Datum.list items).refuse .malformedLambda :
          Except Failure (Expr α)) :=
    Datum.refuse_failsOnly hWrite hCause (fun _ => rfl)
      (fun _ => rfl)
  rw [ofItems.eq_def]
  split
  · apply FailsOnly.error
    apply hCause
    exact ⟨rfl, "()", rfl, rfl⟩
  · rename_i head rest
    split
    · split
      · apply (hItems _ (by simp)).bind
        intro test
        apply (hItems _ (by simp)).bind
        intro yes
        apply (hItems _ (by simp)).bind
        intro no
        exact .ok _
      · exact hCond
    · split
      · split
        · split
          · apply (hItems _ (by simp)).bind
            intro body
            exact .ok _
          · exact hLam
        · exact hLam
      · apply (hItems _ (by simp)).bind
        intro fn
        have hRest :
            FailsOnly P
              (ofData rest :
                Except Failure (List (Expr α))) :=
          ofData_failsOnly fun item hMem =>
            hItems item (by simp [hMem])
        apply hRest.bind
        intro args
        exact .ok _

/-
  Parsing fails with a parse error that names a part of the
  term as it is written, or because the part that is refused
  cannot be written.
-/
theorem ofDatum_failsOnly_of_parts
    (term : Datum)
    (hWrite :
      ∀ part : Datum,
        part.Within term → FailsOnly P part.write)
    (hCause :
      ∀ (part : Datum) (cause : Cause),
        part.Within term → part.RefusedFor cause →
          P (.cause cause)) :
    FailsOnly P
      (ofDatum term : Except Failure (Expr α)) := by
  induction term using Datum.item_induction with
  | step term ih =>
      cases hItems : term.items? with
      | none =>
          have hRefused :
              FailsOnly P
                (term.refuse .unrecognized :
                  Except Failure (Expr α)) :=
            Datum.refuse_failsOnly (hWrite term .refl)
              (fun cause => hCause term cause .refl)
              (fun _ => rfl) (fun _ => rfl)
          cases term with
          | num n =>
              rw [ofDatum]
              exact .ok _
          | symbol name =>
              rw [ofDatum]
              exact .ok _
          | text s =>
              rw [ofDatum]
              exact .ok _
          | list items => cases hItems
          | tuple items => cases hItems
          | _ =>
              rw [ofDatum]
              exact hRefused
      | some items =>
          have hSame := Datum.write_eq_write_list hItems
          rw [ofDatum_of_items? hItems]
          apply ofItems_failsOnly
          · rw [← hSame]
            exact hWrite term .refl
          · rintro cause ⟨hKind, hNamed⟩
            rw [← hSame] at hNamed
            exact hCause term cause .refl ⟨hKind, hNamed⟩
          · intro item hMem
            apply ih items hItems item hMem
            · intro part hPart
              exact hWrite part (.item hItems hMem hPart)
            · intro part cause hPart
              exact
                hCause part cause (.item hItems hMem hPart)

/-
  Parsing fails with a parse error, or because a number in
  the term that is refused cannot be written.
-/
theorem ofDatum_failsOnly
    (hCause :
      ∀ cause, cause.kind = .parse → P (.cause cause))
    (term : Datum)
    (hNumbers : ∀ n ∈ term.numbers, FailsOnly P n.text) :
    FailsOnly P
      (ofDatum term : Except Failure (Expr α)) := by
  apply ofDatum_failsOnly_of_parts
  · intro part hPart
    apply Datum.write_failsOnly
    intro n hNumber
    exact hNumbers n (hPart.mem_numbers hNumber)
  · intro part cause hPart hRefused
    exact hCause cause hRefused.kind

end Expr

end LamLang

------------------------------------------------------------
-- Terms Of Expressions
------------------------------------------------------------

namespace LamLang

namespace Expr

/-
  Expressions of the six forms in which no keyword stands as
  the function of an application.
-/
inductive KeywordFree {α : Type} : Expr α → Prop
| num (n : Number) : KeywordFree (.num n)
| text (s : String) : KeywordFree (.text s)
| ident (name : String) : KeywordFree (.ident name)
| cond
    {test yes no : Expr α}
    (hTest : KeywordFree test)
    (hYes : KeywordFree yes)
    (hNo : KeywordFree no) :
    KeywordFree (.cond test yes no)
| lam
    (params : List String)
    {body : Expr α}
    (hBody : KeywordFree body) :
    KeywordFree (.lam params body)
| app
    {fn : Expr α}
    {args : List (Expr α)}
    (hCond : fn ≠ .ident Datum.condKeyword)
    (hLam : fn ≠ .ident Datum.lamKeyword)
    (hFn : KeywordFree fn)
    (hArgs : ∀ arg ∈ args, KeywordFree arg) :
    KeywordFree (.app fn args)

mutual

/- The term that an expression is written as. -/
def toDatum : Expr Empty → Datum
| .num n => .num n
| .text s => .text s
| .ident name => .symbol name
| .cond test yes no =>
    .list
      [.symbol Datum.condKeyword, test.toDatum, yes.toDatum,
        no.toDatum]
| .lam params body =>
    .list
      [.symbol Datum.lamKeyword,
        .list (params.map .symbol), body.toDatum]
| .app fn args => .list (fn.toDatum :: toData args)

/- The terms that expressions are written as. -/
def toData : List (Expr Empty) → List Datum
| [] => []
| e :: es => e.toDatum :: toData es

end

theorem toData_eq_map
    (es : List (Expr Empty)) :
    toData es = es.map toDatum := by
  induction es with
  | nil => rfl
  | cons e es ih => simp [toData, ih]

/- Only a symbol is parsed as an identifier. -/
theorem ofDatum_eq_ident
    {α : Type}
    {term : Datum}
    {name : String}
    (h : ofDatum term = .ok (.ident name : Expr α)) :
    term = .symbol name := by
  refine
    ofDatum_induction
      (motive := fun term e =>
        e = .ident name → term = .symbol name)
      ?num ?symbol ?text ?cond ?lam ?app h rfl
  case symbol =>
    rintro other ⟨⟩
    rfl
  all_goals
    intros
    rename_i hIdent
    cases hIdent

theorem ofDatum_keywordFree
    {α : Type}
    {term : Datum}
    {e : Expr α}
    (h : ofDatum term = .ok e) :
    e.KeywordFree := by
  refine
    ofDatum_induction
      (motive := fun _ e => e.KeywordFree)
      .num .ident .text ?cond ?lam ?app h
  case cond =>
    intro _ _ _ _ _ _ _ _ hTest hYes hNo
    exact .cond hTest hYes hNo
  case lam =>
    intro _ _ names _ _ _ _ hBody
    exact .lam names hBody
  case app =>
    intro _ _ _ _ _ _ hCond hLam hParsed hFn hArgs
    have hAll :=
      (List.forall₂_and_left (R := fun _ _ => True) _ _).mp
        (hArgs.flip.imp fun _ _ hArg => ⟨hArg, trivial⟩)
    refine .app ?_ ?_ hFn hAll.1
    · rintro rfl
      exact hCond (ofDatum_eq_ident hParsed)
    · rintro rfl
      exact hLam (ofDatum_eq_ident hParsed)

theorem ofDatum_grammatical
    {α : Type}
    {term : Datum}
    {e : Expr α}
    (h : ofDatum term = .ok e) :
    term.Grammatical := by
  refine
    ofDatum_induction
      (motive := fun term _ => term.Grammatical)
      .num .symbol .text ?cond ?lam ?app h
  case cond =>
    intro _ _ _ _ _ _ _ hItems hTest hYes hNo
    exact .cond hItems hTest hYes hNo
  case lam =>
    intro _ _ _ _ _ hItems hParams hBody
    exact .lam hItems hParams hBody
  case app =>
    intro _ _ _ _ _ hItems hCond hLam _ hHead hRest
    have hAll :=
      (List.forall₂_and_left (R := fun _ _ => True) _ _).mp
        (hRest.imp fun _ _ hItem => ⟨hItem, trivial⟩)
    exact .app hItems hCond hLam hHead hAll.1

/- Parsing loses nothing but the names of tuples. -/
theorem toDatum_of_ofDatum
    {term : Datum}
    {program : Program}
    (h : ofDatum term = .ok program) :
    program.toDatum = term.listed := by
  have hSymbols
      (names : List String) :
      (names.map Datum.symbol).map Datum.listed =
        names.map Datum.symbol := by
    simp [Datum.listed]
  refine
    ofDatum_induction
      (motive := fun term program =>
        program.toDatum = term.listed)
      ?num ?symbol ?text ?cond ?lam ?app h
  case num =>
    intro n
    simp [toDatum, Datum.listed]
  case symbol =>
    intro name
    simp [toDatum, Datum.listed]
  case text =>
    intro s
    simp [toDatum, Datum.listed]
  case cond =>
    intro _ _ _ _ _ _ _ hItems hTest hYes hNo
    rw [Datum.listed_of_items? hItems]
    simp [toDatum, hTest, hYes, hNo, Datum.listed]
  case lam =>
    intro _ _ names _ _ hItems hParams hBody
    rw [Datum.listed_of_items? hItems]
    simp [toDatum, hBody, Datum.listed,
      Datum.listed_of_items? hParams, hSymbols]
  case app =>
    intro _ _ rest _ args hItems _ _ _ hFn hArgs
    have hRest :
        args.map toDatum = rest.map Datum.listed := by
      clear hItems
      induction hArgs with
      | nil => rfl
      | cons hFirst _ ih =>
          rw [List.map_cons, List.map_cons, hFirst, ih]
    rw [Datum.listed_of_items? hItems, toDatum,
      toData_eq_map, hFn, hRest, List.map_cons]

theorem exists_ofData
    {α : Type}
    {items : List Datum}
    (hItems :
      ∀ item ∈ items, ∃ e : Expr α, ofDatum item = .ok e) :
    ∃ es : List (Expr α), ofData items = .ok es := by
  induction items with
  | nil => exact ⟨[], by rw [ofData]⟩
  | cons item items ih =>
      rcases hItems item (by simp) with ⟨e, hFirst⟩
      rcases ih fun other hMem =>
          hItems other (by simp [hMem]) with
        ⟨es, hRest⟩
      refine ⟨e :: es, ?_⟩
      rw [ofData, hFirst, hRest]
      rfl

/- A term of the grammar is parsed. -/
theorem exists_ofDatum
    {α : Type}
    {term : Datum}
    (h : term.Grammatical) :
    ∃ e : Expr α, ofDatum term = .ok e := by
  induction h with
  | num n => exact ⟨.num n, by rw [ofDatum]⟩
  | symbol name => exact ⟨.ident name, by rw [ofDatum]⟩
  | text s => exact ⟨.text s, by rw [ofDatum]⟩
  | cond hItems _ _ _ ihTest ihYes ihNo =>
      rcases ihTest with ⟨test, hTest⟩
      rcases ihYes with ⟨yes, hYes⟩
      rcases ihNo with ⟨no, hNo⟩
      refine ⟨.cond test yes no, ?_⟩
      rw [ofDatum_of_items? hItems, ofItems_cond, hTest,
        hYes, hNo]
      rfl
  | lam hItems hParams _ ihBody =>
      rename_i names _
      rcases ihBody with ⟨body, hBody⟩
      refine ⟨.lam names body, ?_⟩
      rw [ofDatum_of_items? hItems,
        ofItems_lam (Datum.params?_eq_some_iff.mpr hParams),
        hBody]
      rfl
  | app hItems hCond hLam _ _ ihHead ihRest =>
      rcases ihHead with ⟨fn, hFn⟩
      rcases exists_ofData ihRest with ⟨args, hArgs⟩
      refine ⟨.app fn args, ?_⟩
      rw [ofDatum_of_items? hItems, ofItems_app hCond hLam,
        hFn, hArgs]
      rfl

/- An expression without keywords is parsed from its term. -/
theorem ofDatum_toDatum
    {program : Program}
    (h : program.KeywordFree) :
    ofDatum program.toDatum = .ok program := by
  induction h with
  | num n => rw [toDatum, ofDatum]
  | text s => rw [toDatum, ofDatum]
  | ident name => rw [toDatum, ofDatum]
  | cond _ _ _ ihTest ihYes ihNo =>
      rw [toDatum, ofDatum, ofItems_cond, ihTest, ihYes,
        ihNo]
      rfl
  | lam params _ ihBody =>
      have hParams :
          (Datum.list (params.map .symbol)).params? =
            some params :=
        Datum.params?_eq_some_iff.mpr rfl
      rw [toDatum, ofDatum, ofItems_lam hParams, ihBody]
      rfl
  | app hCond hLam _ _ ihFn ihArgs =>
      rename_i fn args _ _
      have hKeyword
          {name : String}
          (hOther : fn ≠ .ident name) :
          fn.toDatum ≠ .symbol name := by
        intro hSymbol
        rw [hSymbol, ofDatum] at ihFn
        exact hOther (Except.ok.inj ihFn).symm
      have hArgs : ofData (toData args) = .ok args := by
        rw [toData_eq_map, ofData_eq_ok_iff,
          List.forall₂_map_left_iff, List.forall₂_same]
        exact ihArgs
      rw [toDatum, ofDatum,
        ofItems_app (hKeyword hCond) (hKeyword hLam), ihFn,
        hArgs]
      rfl

end Expr

end LamLang

------------------------------------------------------------
-- Exactness
------------------------------------------------------------

namespace LamLang

/-
  No integer that the description of an object names has
  more digits than may be written.
-/
def Datum.Brief
    (datum : Datum) : Prop :=
  ∀ n : Int, .int n ∈ datum.numbers →
    n.natAbs < Number.textBound

/- Numbers that are short enough are written. -/
theorem Datum.Brief.text_failsOnly
    {P : Failure → Prop}
    {datum : Datum}
    (hBrief : datum.Brief) :
    ∀ n ∈ datum.numbers, FailsOnly P n.text := by
  intro n hNumber
  cases n with
  | real x => exact .ok _
  | int n =>
      rw [Number.text, if_pos (hBrief n hNumber)]
      exact .ok _

/- What the grammar does not derive is a parse error. -/
theorem Expr.ofDatum_refuses
    {α : Type}
    {term : Datum}
    (hBrief : term.Brief)
    (hUnderivable : ¬ term.Grammatical) :
    ∃ cause,
      (ofDatum term : Except Failure (Expr α)) =
          .error (.cause cause) ∧
        cause.kind = .parse := by
  cases hOutcome :
      (ofDatum term : Except Failure (Expr α)) with
  | ok e =>
      exact absurd (ofDatum_grammatical hOutcome) hUnderivable
  | error failure =>
      have hParse :
          ∃ cause,
            failure = .cause cause ∧ cause.kind = .parse :=
        ofDatum_failsOnly
          (P := fun failure =>
            ∃ cause,
              failure = .cause cause ∧ cause.kind = .parse)
          (fun cause hKind => ⟨cause, rfl, hKind⟩) term
          hBrief.text_failsOnly failure hOutcome
      rcases hParse with ⟨cause, rfl, hKind⟩
      exact ⟨cause, rfl, hKind⟩

/-
  A term whose integers can be written is parsed exactly if
  the grammar derives it, and is refused with a parse error
  otherwise.  Parsing and `toDatum` are inverse to each
  other, between the terms of the grammar up to tuples and
  the programs that never apply a keyword.
-/
theorem ofDatum_exactly_grammatical :
    (∀ term : Datum, term.Brief →
      ((∃ program : Program,
          Expr.ofDatum term = .ok program) ↔
        term.Grammatical) ∧
      (¬ term.Grammatical →
        ∃ cause,
          (Expr.ofDatum term : Except Failure Program) =
              .error (.cause cause) ∧
            cause.kind = .parse)) ∧
    (∀ (term : Datum) (program : Program),
      Expr.ofDatum term = .ok program →
        program.KeywordFree ∧
          program.toDatum = term.listed) ∧
    (∀ program : Program, program.KeywordFree →
      program.toDatum.Grammatical ∧
        Expr.ofDatum program.toDatum = .ok program) ∧
    ∀ (term term' : Datum) (program program' : Program),
      Expr.ofDatum term = .ok program →
        Expr.ofDatum term' = .ok program' →
        (program = program' ↔
          term.listed = term'.listed) := by
  refine ⟨?_, ?_, ?_, ?_⟩
  · intro term hBrief
    refine ⟨⟨?_, Expr.exists_ofDatum⟩, ?_⟩
    · rintro ⟨program, hParsed⟩
      exact Expr.ofDatum_grammatical hParsed
    · exact Expr.ofDatum_refuses hBrief
  · intro term program hParsed
    exact
      ⟨Expr.ofDatum_keywordFree hParsed,
        Expr.toDatum_of_ofDatum hParsed⟩
  · intro program hFree
    have hParsed := Expr.ofDatum_toDatum hFree
    exact ⟨Expr.ofDatum_grammatical hParsed, hParsed⟩
  · intro term term' program program' hParsed hParsed'
    rw [← Expr.toDatum_of_ofDatum hParsed,
      ← Expr.toDatum_of_ofDatum hParsed']
    constructor
    · exact congrArg Expr.toDatum
    · intro hTerms
      have hBack :=
        Expr.ofDatum_toDatum (Expr.ofDatum_keywordFree hParsed)
      rw [hTerms,
        Expr.ofDatum_toDatum
          (Expr.ofDatum_keywordFree hParsed')] at hBack
      exact (Except.ok.inj hBack).symm

/-
  The term `((lam (if) ("if" if)) lam)`, with tuples for two
  of its lists.  No keyword in it is at work but the first.
-/
def Datum.keywordsAsNames : Datum :=
  .tuple
    [.list
      [.symbol "lam", .tuple [.symbol "if"],
        .list [.text "if", .symbol "if"]],
     .symbol "lam"]

/- The program of that term. -/
def Program.keywordsAsNames : Program :=
  .app
    (.lam ["if"] (.app (.text "if") [.ident "if"]))
    [.ident "lam"]

/- The malformed term `(if 1 True)`. -/
def Datum.shortConditional : Datum :=
  .list [.symbol "if", .num (.int 1), .bool true]

/- The object `{'a': 1}`, which is no term. -/
def Datum.mapping : Datum :=
  .other "\x7b'a': 1\x7d" [.int 1]

/- A term with that object in it. -/
def Datum.appliedMapping : Datum :=
  .tuple [.symbol "f", .list [.mapping]]

theorem ofDatum_exactly_grammatical_keywordsAsNames :
    Datum.keywordsAsNames.Grammatical ∧
    Program.keywordsAsNames.KeywordFree ∧
    Program.keywordsAsNames.toDatum =
      Datum.keywordsAsNames.listed ∧
    Expr.ofDatum Program.keywordsAsNames.toDatum =
      .ok Program.keywordsAsNames ∧
    (∃ cause,
      (Expr.ofDatum Datum.shortConditional :
        Except Failure Program) =
          .error (.cause cause) ∧
        cause.kind = .parse) ∧
    ∃ cause,
      (Expr.ofDatum Datum.appliedMapping :
        Except Failure Program) =
          .error (.cause cause) ∧
        cause.kind = .parse := by
  rcases ofDatum_exactly_grammatical with
    ⟨hAccepts, hParses, hBack, -⟩
  have hParsed :
      Expr.ofDatum Datum.keywordsAsNames =
        .ok Program.keywordsAsNames := by rfl
  have hBrief : Datum.keywordsAsNames.Brief := by
    intro n hNumber
    simp [Datum.keywordsAsNames, Datum.numbers,
      Datum.numbersOfAll] at hNumber
  have hShort : Datum.shortConditional.Brief := by
    intro n hNumber
    have hOne : n = 1 := by
      simpa [Datum.shortConditional, Datum.numbers,
        Datum.numbersOfAll] using hNumber
    subst hOne
    exact Number.one_lt_textBound
  have hUnderivable :
      ¬ Datum.shortConditional.Grammatical := by
    intro hDerived
    cases hDerived with
    | cond hItems => cases hItems
    | lam hItems =>
        simp [Datum.shortConditional, Datum.items?,
          Datum.lamKeyword] at hItems
    | app hItems hCond =>
        cases hItems
        exact hCond rfl
  have hMapping : Datum.appliedMapping.Brief := by
    intro n hNumber
    have hOne : n = 1 := by
      simpa [Datum.appliedMapping, Datum.mapping,
        Datum.numbers, Datum.numbersOfAll] using hNumber
    subst hOne
    exact Number.one_lt_textBound
  have hForeign : ¬ Datum.mapping.Grammatical := by
    intro hDerived
    cases hDerived with
    | cond hItems => cases hItems
    | lam hItems => cases hItems
    | app hItems => cases hItems
  have hApplied : ¬ Datum.appliedMapping.Grammatical := by
    intro hDerived
    cases hDerived with
    | cond hItems =>
        simp [Datum.appliedMapping, Datum.items?] at hItems
    | lam hItems =>
        simp [Datum.appliedMapping, Datum.items?] at hItems
    | app hItems hCond hLam hHead hRest =>
        cases hItems
        cases hRest _ List.mem_cons_self with
        | cond hInner => cases hInner
        | lam hInner => cases hInner
        | app hInner _ _ hFirst =>
            cases hInner
            exact hForeign hFirst
  rcases hParses _ _ hParsed with ⟨hFree, hTerm⟩
  exact
    ⟨(hAccepts _ hBrief).1.mp ⟨_, hParsed⟩, hFree, hTerm,
      (hBack _ hFree).2, (hAccepts _ hShort).2 hUnderivable,
      (hAccepts _ hMapping).2 hApplied⟩

end LamLang
