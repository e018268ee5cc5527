import LamLang.Datum.Result
import LamLang.Proofs.Grammar

/-
  Reading, writing and parsing within a bound on depth.

  A stage within a bound comes to what it comes to within
  any larger one, or it exceeds the bound.  Every source and
  every term has a bound from which on nothing is exceeded,
  and there the stage is the one without a bound.  What is
  read within a bound nests no deeper than the bound, so it
  can be written within it.

  Key definitions include:
    * `LamLang.Approximates`
    * `LamLang.Datum.NestsWithin`
    * `LamLang.Datum.Stack.NestsWithin`

  Main statements:
    * `LamLang.Datum.writeWithin_eq`
    * `LamLang.Expr.ofDatumWithin_eq`
    * `LamLang.Datum.ofSourceWithin_approximates`
    * `LamLang.Datum.allOfSourceWithin_approximates`
    * `LamLang.Datum.nestsWithin_of_allOfSourceWithin`
-/

------------------------------------------------------------
-- Approximation
------------------------------------------------------------

namespace LamLang

variable {β γ ι σ : Type}

/-
  One outcome approximates another: it is the same, or it is
  no more than an exceeded depth.
-/
def Approximates
    (x y : Except Failure β) :
    Prop :=
  x ≠ .error .depthExceeded → y = x

namespace Approximates

theorem refl
    (x : Except Failure β) :
    Approximates x x := by
  intro _
  rfl

theorem depthExceeded
    (y : Except Failure β) :
    Approximates (.error .depthExceeded) y := by
  intro hSettled
  exact absurd rfl hSettled

/- What follows an outcome may be approximated, too. -/
theorem bind
    {x y : Except Failure β}
    {f g : β → Except Failure γ}
    (hFirst : Approximates x y)
    (hNext : ∀ b, Approximates (f b) (g b)) :
    Approximates (x >>= f) (y >>= g) := by
  intro hSettled
  cases x with
  | error failure =>
      have hSame : y = .error failure := by
        apply hFirst
        intro hExceeded
        cases hExceeded
        exact hSettled rfl
      rw [hSame]
      rfl
  | ok b =>
      have hSame : y = .ok b := hFirst nofun
      rw [hSame]
      exact hNext b hSettled

theorem mapM
    {f g : ι → Except Failure β}
    {items : List ι}
    (hEach :
      ∀ item ∈ items, Approximates (f item) (g item)) :
    Approximates (items.mapM f) (items.mapM g) := by
  induction items with
  | nil => exact refl _
  | cons item items ih =>
      rw [List.forall_mem_cons] at hEach
      rw [List.mapM_cons, List.mapM_cons]
      apply bind hEach.1
      intro b
      apply bind (ih hEach.2)
      intro bs
      exact refl _

theorem foldlM
    {f g : σ → ι → Except Failure σ}
    (hEach : ∀ s item, Approximates (f s item) (g s item))
    (items : List ι)
    (s : σ) :
    Approximates (items.foldlM f s) (items.foldlM g s) := by
  induction items generalizing s with
  | nil => exact refl _
  | cons item items ih =>
      rw [List.foldlM_cons, List.foldlM_cons]
      exact bind (hEach s item) ih

variable {x y : Except Failure β}

theorem eq_ok
    {b : β}
    (hApproximates : Approximates x y)
    (hOk : x = .ok b) :
    y = .ok b := by
  subst hOk
  exact hApproximates nofun

theorem eq_error
    {failure : Failure}
    (hApproximates : Approximates x y)
    (hError : x = .error failure)
    (hSettled : failure ≠ .depthExceeded) :
    y = .error failure := by
  subst hError
  apply hApproximates
  rintro ⟨⟩
  exact hSettled rfl

/- An approximation adds one way to fail. -/
theorem failsOnly
    {P : Failure → Prop}
    (hApproximates : Approximates x y)
    (hExceeded : P .depthExceeded)
    (hFails : FailsOnly P y) :
    FailsOnly P x := by
  intro failure hError
  by_cases hSettled : failure = .depthExceeded
  · subst hSettled
    exact hExceeded
  · exact
      hFails failure (hApproximates.eq_error hError hSettled)

end Approximates

/-
  A computation within a bound approximates the one that it
  comes to from some bound on.
-/
theorem approximates_limit
    {f : Nat → Except Failure β}
    {x : Except Failure β}
    (hMono : ∀ m n, m ≤ n → Approximates (f m) (f n))
    (hLimit : ∃ bound, ∀ n, bound ≤ n → f n = x)
    (depth : Nat) :
    Approximates (f depth) x := by
  rcases hLimit with ⟨bound, hFrom⟩
  have hLarge :=
    hMono depth (max depth bound) (Nat.le_max_left _ _)
  rwa [hFrom _ (Nat.le_max_right _ _)] at hLarge

end LamLang

------------------------------------------------------------
-- Nesting
------------------------------------------------------------

namespace LamLang

namespace Datum

/-
  A term takes no more than `depth` nested calls: one for
  itself, and those of any of its items.
-/
def NestsWithin : Nat → Datum → Prop
| 0, _ => False
| depth + 1, datum =>
    ∀ items, datum.items? = some items →
      ∀ item ∈ items, NestsWithin depth item

theorem NestsWithin.mono
    {m n : Nat}
    (hLe : m ≤ n)
    {datum : Datum}
    (hNests : datum.NestsWithin m) :
    datum.NestsWithin n := by
  induction m generalizing n datum with
  | zero => exact hNests.elim
  | succ m ih =>
      cases n with
      | zero => omega
      | succ n =>
          intro items hItems item hMem
          exact
            ih (Nat.le_of_succ_le_succ hLe)
              (hNests items hItems item hMem)

theorem exists_forall_nestsWithin
    {items : List Datum}
    (hItems :
      ∀ item ∈ items, ∃ depth, NestsWithin depth item) :
    ∃ depth, ∀ item ∈ items, NestsWithin depth item := by
  induction items with
  | nil => exact ⟨0, nofun⟩
  | cons item items ih =>
      rw [List.forall_mem_cons] at hItems
      rcases hItems.1 with ⟨here, hHere⟩
      rcases ih hItems.2 with ⟨later, hLater⟩
      refine ⟨max here later, ?_⟩
      rw [List.forall_mem_cons]
      refine ⟨hHere.mono (Nat.le_max_left _ _), ?_⟩
      intro other hMem
      exact (hLater other hMem).mono (Nat.le_max_right _ _)

/- Every term has a depth. -/
theorem exists_nestsWithin
    (datum : Datum) :
    ∃ depth, datum.NestsWithin depth := by
  induction datum using item_induction with
  | step datum ih =>
      cases hItems : datum.items? with
      | none =>
          refine ⟨1, ?_⟩
          intro items hSome
          rw [hItems] at hSome
          cases hSome
      | some items =>
          rcases exists_forall_nestsWithin (ih items hItems)
            with ⟨depth, hDepth⟩
          refine ⟨depth + 1, ?_⟩
          intro other hOther
          rw [hItems] at hOther
          cases hOther
          exact hDepth

/- A term without items takes one call. -/
theorem nestsWithin_leaf
    {depth : Nat}
    {datum : Datum}
    (hLeaf : datum.items? = none)
    (hPos : 0 < depth) :
    datum.NestsWithin depth := by
  cases depth with
  | zero => omega
  | succ depth =>
      intro items hItems
      rw [hLeaf] at hItems
      cases hItems

end Datum

end LamLang

------------------------------------------------------------
-- Writing
------------------------------------------------------------

namespace LamLang

namespace Datum

theorem writeAll_eq_mapM
    (items : List Datum) :
    writeAll items = items.mapM write := by
  induction items with
  | nil => rfl
  | cons item items ih =>
      rw [writeAll, List.mapM_cons, ih]

theorem write_items_eq
    {datum : Datum}
    {items : List Datum}
    (hItems : datum.items? = some items) :
    datum.write = do
      let inner ← items.mapM write
      return "(" ++ " ".intercalate inner ++ ")" := by
  rw [write_eq_write_list hItems, write, writeAll_eq_mapM]

/- A larger bound gives no other text. -/
theorem writeWithin_approximates
    {m n : Nat}
    (hLe : m ≤ n)
    (datum : Datum) :
    Approximates (datum.writeWithin m)
      (datum.writeWithin n) := by
  induction m generalizing n datum with
  | zero => exact .depthExceeded _
  | succ m ih =>
      cases n with
      | zero => omega
      | succ n =>
          rw [writeWithin, writeWithin]
          cases datum.items? with
          | none => exact .refl _
          | some items =>
              apply Approximates.bind
              · apply Approximates.mapM
                intro item _
                exact ih (Nat.le_of_succ_le_succ hLe) item
              · intro inner
                exact .refl _

/- A term is written unless an integer in it is too long. -/
theorem write_ne_depthExceeded
    (datum : Datum) :
    datum.write ≠ .error .depthExceeded := by
  intro hExceeded
  have hOther :
      FailsOnly (· ≠ .depthExceeded) datum.write := by
    apply write_failsOnly
    intro n _
    apply Number.text_failsOnly
    intro event _
    nofun
  exact hOther _ hExceeded rfl

/- A term that nests within the bound is written within it. -/
theorem writeWithin_eq
    {depth : Nat}
    {datum : Datum}
    (hNests : datum.NestsWithin depth) :
    datum.writeWithin depth = datum.write := by
  have hWritten :
      Approximates datum.write (datum.writeWithin depth) := by
    induction depth generalizing datum with
    | zero => exact hNests.elim
    | succ depth ih =>
        rw [writeWithin]
        cases hItems : datum.items? with
        | none => exact .refl _
        | some items =>
            rw [write_items_eq hItems]
            apply Approximates.bind
            · apply Approximates.mapM
              intro item hMem
              exact ih (hNests items hItems item hMem)
            · intro inner
              exact .refl _
  exact hWritten datum.write_ne_depthExceeded

/- From some bound on a term is written as without one. -/
theorem exists_writeWithin_eq
    (datum : Datum) :
    ∃ bound, ∀ n, bound ≤ n →
      datum.writeWithin n = datum.write := by
  rcases exists_nestsWithin datum with ⟨bound, hNests⟩
  refine ⟨bound, ?_⟩
  intro n hLe
  exact writeWithin_eq (hNests.mono hLe)

theorem writeWithin_approximates_write
    (depth : Nat)
    (datum : Datum) :
    Approximates (datum.writeWithin depth) datum.write := by
  apply
    approximates_limit
      (f := fun depth => datum.writeWithin depth)
  · intro m n hLe
    exact writeWithin_approximates hLe datum
  · exact exists_writeWithin_eq datum

end Datum

end LamLang

------------------------------------------------------------
-- Parsing
------------------------------------------------------------

namespace LamLang

namespace Expr

variable {α : Type}

theorem ofData_eq_mapM
    (items : List Datum) :
    (ofData items : Except Failure (List (Expr α))) =
      items.mapM ofDatum := by
  induction items with
  | nil =>
      rw [ofData]
      rfl
  | cons item items ih =>
      rw [ofData, List.mapM_cons, ih]

/- Parsing is one step of it with parsing for the parts. -/
theorem ofDatum_eq_ofDatumWith
    (term : Datum) :
    (ofDatum term : Except Failure (Expr α)) =
      ofDatumWith ofDatum Datum.write term := by
  cases hItems : term.items? with
  | none =>
      cases term with
      | list items => cases hItems
      | tuple items => cases hItems
      | _ =>
          rw [ofDatum]
          rfl
  | some items =>
      rw [ofDatum_of_items? hItems]
      cases items with
      | nil =>
          rcases Datum.items?_eq_some hItems with rfl | rfl
          · rw [ofItems]
            rfl
          · rw [ofItems]
            rfl
      | cons head rest =>
          have hWrite := Datum.write_eq_write_list hItems
          have hStep :
              (ofDatumWith ofDatum Datum.write term :
                Except Failure (Expr α)) =
                ofItemsWith ofDatum
                  (fun cause => term.refuse cause) head
                  rest := by
            rcases Datum.items?_eq_some hItems with rfl | rfl
            · rfl
            · rfl
          rw [hStep, ofItems.eq_def]
          unfold ofItemsWith Datum.refuse
          rw [hWrite]
          dsimp only
          simp only [ofData_eq_mapM]

variable {parse parse' : Datum → Except Failure (Expr α)}

theorem ofItemsWith_approximates
    {refuse refuse' :
      (String → Cause) → Except Failure (Expr α)}
    {head : Datum}
    {rest : List Datum}
    (hParse :
      ∀ item ∈ head :: rest,
        Approximates (parse item) (parse' item))
    (hRefuse :
      ∀ cause, Approximates (refuse cause) (refuse' cause)) :
    Approximates (ofItemsWith parse refuse head rest)
      (ofItemsWith parse' refuse' head rest) := by
  unfold ofItemsWith
  split
  · split
    · apply Approximates.bind (hParse _ (by simp))
      intro test
      apply Approximates.bind (hParse _ (by simp))
      intro yes
      apply Approximates.bind (hParse _ (by simp))
      intro no
      exact .refl _
    · exact hRefuse _
  · split
    · split
      · split
        · apply Approximates.bind (hParse _ (by simp))
          intro body
          exact .refl _
        · exact hRefuse _
      · exact hRefuse _
    · apply Approximates.bind (hParse _ (by simp))
      intro fn
      apply Approximates.bind
      · apply Approximates.mapM
        intro item hMem
        exact hParse item (by simp [hMem])
      · intro args
        exact .refl _

/- A step is as good as the parsing and writing in it. -/
theorem ofDatumWith_approximates
    {write write' : Datum → Except Failure String}
    {term : Datum}
    (hParse :
      ∀ items, term.items? = some items →
        ∀ item ∈ items,
          Approximates (parse item) (parse' item))
    (hWrite : Approximates (write term) (write' term)) :
    Approximates (ofDatumWith parse write term)
      (ofDatumWith parse' write' term) := by
  have hRefuse
      (cause : String → Cause) :
      Approximates
        (write term >>= fun text =>
          (.error (.cause (cause text)) :
            Except Failure (Expr α)))
        (write' term >>= fun text =>
          .error (.cause (cause text))) := by
    apply hWrite.bind
    intro text
    exact .refl _
  unfold ofDatumWith
  dsimp only
  split
  · exact .refl _
  · exact .refl _
  · exact .refl _
  · split
    · rename_i head rest hItems
      exact
        ofItemsWith_approximates (hParse _ hItems) hRefuse
    · exact hRefuse _
    · exact hRefuse _

/- A larger bound gives no other expression. -/
theorem ofDatumWithin_approximates
    {m n : Nat}
    (hLe : m ≤ n)
    (term : Datum) :
    Approximates
      (ofDatumWithin m term : Except Failure (Expr α))
      (ofDatumWithin n term) := by
  induction m generalizing n term with
  | zero => exact .depthExceeded _
  | succ m ih =>
      cases n with
      | zero => omega
      | succ n =>
          have hInner := Nat.le_of_succ_le_succ hLe
          rw [ofDatumWithin, ofDatumWithin]
          apply ofDatumWith_approximates
          · intro items _ item _
            exact ih hInner item
          · exact Datum.writeWithin_approximates hInner term

theorem ofDatum_ne_depthExceeded
    (term : Datum) :
    (ofDatum term : Except Failure (Expr α)) ≠
      .error .depthExceeded := by
  intro hExceeded
  have hOther :
      FailsOnly (· ≠ .depthExceeded)
        (ofDatum term : Except Failure (Expr α)) := by
    apply ofDatum_failsOnly
    · intro cause _
      nofun
    · intro n _
      apply Number.text_failsOnly
      intro event _
      nofun
  exact hOther _ hExceeded rfl

/-
  A term is parsed within a bound if it nests one call less
  deep: the last one may be needed to write what is refused.
-/
theorem ofDatumWithin_eq
    {depth : Nat}
    {term : Datum}
    (hNests : term.NestsWithin depth) :
    (ofDatumWithin (depth + 1) term :
      Except Failure (Expr α)) = ofDatum term := by
  have hParsed :
      Approximates
        (ofDatum term : Except Failure (Expr α))
        (ofDatumWithin (depth + 1) term) := by
    induction depth generalizing term with
    | zero => exact hNests.elim
    | succ depth ih =>
        rw [ofDatum_eq_ofDatumWith, ofDatumWithin]
        apply ofDatumWith_approximates
        · intro items hItems item hMem
          exact ih (hNests items hItems item hMem)
        · rw [Datum.writeWithin_eq hNests]
          exact .refl _
  exact hParsed (ofDatum_ne_depthExceeded term)

/- From some bound on a term is parsed as without one. -/
theorem exists_ofDatumWithin_eq
    (term : Datum) :
    ∃ bound, ∀ n, bound ≤ n →
      (ofDatumWithin n term : Except Failure (Expr α)) =
        ofDatum term := by
  rcases Datum.exists_nestsWithin term with ⟨bound, hNests⟩
  refine ⟨bound + 1, ?_⟩
  rintro (_ | n) hLe
  · omega
  · exact
      ofDatumWithin_eq
        (hNests.mono (Nat.le_of_succ_le_succ hLe))

theorem ofDatumWithin_approximates_ofDatum
    (depth : Nat)
    (term : Datum) :
    Approximates
      (ofDatumWithin depth term : Except Failure (Expr α))
      (ofDatum term) := by
  apply
    approximates_limit
      (f := fun depth => ofDatumWithin depth term)
  · intro m n hLe
    exact ofDatumWithin_approximates hLe term
  · exact exists_ofDatumWithin_eq term

end Expr

end LamLang

------------------------------------------------------------
-- Meanings
------------------------------------------------------------

namespace LamLang

namespace Datum

variable {depth : Nat} {term : Datum}

/- The value of a term is that of its expression. -/
theorem meaning_eq_ok
    {value : Value Empty}
    (hMeaning : term.meaning depth = .ok value) :
    ∃ program : Program,
      Expr.ofDatum term = .ok program ∧
        eval depth program Env.top = .ok value := by
  rcases bind_eq_ok hMeaning with
    ⟨program, hParsed, hValue⟩
  have hParses :=
    Expr.ofDatumWithin_approximates_ofDatum (α := Empty)
      depth term
  exact ⟨program, hParses.eq_ok hParsed, hValue⟩

/-
  A term without a value exceeds the depth, is not parsed,
  or its expression has no value.
-/
theorem meaning_eq_error
    {failure : Failure}
    (hFails : term.meaning depth = .error failure)
    (hSettled : failure ≠ .depthExceeded) :
    (Expr.ofDatum term : Except Failure Program) =
        .error failure ∨
      ∃ program : Program,
        Expr.ofDatum term = .ok program ∧
          eval depth program Env.top = .error failure := by
  have hParses :=
    Expr.ofDatumWithin_approximates_ofDatum (α := Empty)
      depth term
  rcases bind_eq_error hFails with
    hRefused | ⟨program, hParsed, hValue⟩
  · exact .inl (hParses.eq_error hRefused hSettled)
  · exact .inr ⟨program, hParses.eq_ok hParsed, hValue⟩

theorem meaning_failsOnly
    {P : Failure → Prop}
    (hExceeded : P .depthExceeded)
    (hParses :
      FailsOnly P
        (Expr.ofDatum term : Except Failure Program))
    (hValues :
      ∀ program : Program,
        Expr.ofDatum term = .ok program →
          FailsOnly P (eval depth program Env.top)) :
    FailsOnly P (term.meaning depth) := by
  intro failure hFails
  by_cases hSettled : failure = .depthExceeded
  · rw [hSettled]
    exact hExceeded
  · rcases meaning_eq_error hFails hSettled with
      hRefused | ⟨program, hParsed, hValue⟩
    · exact hParses failure hRefused
    · exact hValues program hParsed failure hValue

end Datum

end LamLang

------------------------------------------------------------
-- Reading
------------------------------------------------------------

namespace LamLang

namespace Datum

theorem shiftWithin_approximates
    {m n : Nat}
    (hLe : m ≤ n)
    (stack : Stack)
    (token : Token) :
    Approximates (shiftWithin m stack token)
      (shiftWithin n stack token) := by
  unfold shiftWithin
  split
  · rename_i hRoom
    rw [if_pos (hRoom.imp_left fun hLow => by omega)]
    exact .refl _
  · exact .depthExceeded _

/- A token opens one list at most. -/
theorem length_le_of_shift
    {stack next : Stack}
    {token : Token}
    (hShift : shift stack token = .ok next) :
    next.length ≤ stack.length + 1 := by
  have hPush
      (item : Datum)
      (stack : Stack) :
      (push item stack).length ≤ stack.length + 1 := by
    cases stack <;> simp [push]
  unfold shift at hShift
  split at hShift
  · cases hShift
    simp
  · split at hShift
    · split at hShift
      · cases hShift
        simp [push]
      · cases hShift
    · rcases map_eq_ok hShift with ⟨item, -, rfl⟩
      exact hPush item stack

/- Where there is room for all tokens nothing is exceeded. -/
theorem shiftWithin_eq
    {depth : Nat}
    {stack : Stack}
    (hRoom : stack.length ≤ depth)
    (token : Token) :
    shiftWithin depth stack token = shift stack token := by
  rw [shiftWithin, if_pos (.inl hRoom)]

theorem foldlM_shiftWithin_eq
    {depth : Nat}
    {tokens : List Token}
    {stack : Stack}
    (hRoom : stack.length + tokens.length ≤ depth + 1) :
    tokens.foldlM (shiftWithin depth) stack =
      tokens.foldlM shift stack := by
  induction tokens generalizing stack with
  | nil => rfl
  | cons token tokens ih =>
      rw [List.length_cons] at hRoom
      rw [List.foldlM_cons, List.foldlM_cons,
        shiftWithin_eq (by omega)]
      cases hShift : shift stack token with
      | error failure => rfl
      | ok next =>
          have hLength := length_le_of_shift hShift
          exact ih (by omega)

theorem ofTokensFromWithin_eq
    {depth : Nat}
    {tokens : List Token}
    {stack : Stack}
    (hRoom : stack.length + tokens.length ≤ depth + 1) :
    ofTokensFromWithin depth stack tokens =
      ofTokensFrom stack tokens := by
  induction tokens generalizing stack with
  | nil => rfl
  | cons token tokens ih =>
      rw [List.length_cons] at hRoom
      rw [ofTokensFromWithin, ofTokensFrom,
        shiftWithin_eq (by omega)]
      split
      · rfl
      · rfl
      · rename_i next _ hShift
        have hLength := length_le_of_shift hShift
        exact ih (by omega)

/- One term is read, and the rest left, as within a bound. -/
theorem ofTokensFromWithin_of_le
    {m n : Nat}
    (hLe : m ≤ n)
    {tokens : List Token}
    {stack : Stack}
    (hSettled :
      (ofTokensFromWithin m stack tokens).1 ≠
        .error .depthExceeded) :
    ofTokensFromWithin n stack tokens =
      ofTokensFromWithin m stack tokens := by
  induction tokens generalizing stack with
  | nil => rfl
  | cons token tokens ih =>
      have hShift :=
        shiftWithin_approximates hLe stack token
      cases hFirst : shiftWithin m stack token with
      | error failure =>
          have hOther : failure ≠ .depthExceeded := by
            rintro rfl
            simp [ofTokensFromWithin, hFirst] at hSettled
          have hSame := hShift.eq_error hFirst hOther
          simp only [ofTokensFromWithin, hFirst, hSame]
      | ok next =>
          have hSame := hShift.eq_ok hFirst
          revert hSettled
          simp only [ofTokensFromWithin, hFirst, hSame]
          split
          · intro _
            rfl
          · intro _
            rfl
          · exact ih

theorem ofSourceWithin_approximates
    {m n : Nat}
    (hLe : m ≤ n)
    (source : String) :
    Approximates (ofSourceWithin m source)
      (ofSourceWithin n source) := by
  apply Approximates.bind (.refl _)
  intro tokens
  split
  · exact .refl _
  · intro hSettled
    rw [ofTokensFromWithin_of_le hLe]
    intro hExceeded
    apply hSettled
    rcases hRead : ofTokensFromWithin m [[]] tokens with
      ⟨outcome, rest⟩
    rw [hRead] at hExceeded
    cases hExceeded
    rfl

theorem allOfSourceWithin_approximates
    {m n : Nat}
    (hLe : m ≤ n)
    (source : String) :
    Approximates (allOfSourceWithin m source)
      (allOfSourceWithin n source) := by
  apply Approximates.bind (.refl _)
  intro tokens
  apply Approximates.bind
  · exact
      Approximates.foldlM (shiftWithin_approximates hLe)
        tokens [[]]
  · intro stack
    exact .refl _

/- From some bound on a source is read as without one. -/
theorem exists_ofSourceWithin_eq
    (source : String) :
    ∃ bound, ∀ n, bound ≤ n →
      ofSourceWithin n source = ofSource source := by
  unfold ofSourceWithin ofSource
  cases Token.ofSource source with
  | error failure =>
      refine ⟨0, ?_⟩
      intro n _
      rfl
  | ok tokens =>
      refine ⟨tokens.length, ?_⟩
      intro n hLe
      have hRoom :
          [([] : List Datum)].length + tokens.length ≤
            n + 1 := by
        simpa [Nat.add_comm] using hLe
      simp only [ok_bind, ofTokens,
        ofTokensFromWithin_eq hRoom]

theorem exists_allOfSourceWithin_eq
    (source : String) :
    ∃ bound, ∀ n, bound ≤ n →
      allOfSourceWithin n source = allOfSource source := by
  unfold allOfSourceWithin allOfSource
  cases Token.ofSource source with
  | error failure =>
      refine ⟨0, ?_⟩
      intro n _
      rfl
  | ok tokens =>
      refine ⟨tokens.length, ?_⟩
      intro n hLe
      have hRoom :
          [([] : List Datum)].length + tokens.length ≤
            n + 1 := by
        simpa [Nat.add_comm] using hLe
      simp only [ok_bind, allOfTokensWithin, allOfTokens,
        foldlM_shiftWithin_eq hRoom]

theorem ofSourceWithin_approximates_ofSource
    (depth : Nat)
    (source : String) :
    Approximates (ofSourceWithin depth source)
      (ofSource source) := by
  apply
    approximates_limit
      (f := fun depth => ofSourceWithin depth source)
  · intro m n hLe
    exact ofSourceWithin_approximates hLe source
  · exact exists_ofSourceWithin_eq source

theorem allOfSourceWithin_approximates_allOfSource
    (depth : Nat)
    (source : String) :
    Approximates (allOfSourceWithin depth source)
      (allOfSource source) := by
  apply
    approximates_limit
      (f := fun depth => allOfSourceWithin depth source)
  · intro m n hLe
    exact allOfSourceWithin_approximates hLe source
  · exact exists_allOfSourceWithin_eq source

end Datum

end LamLang

------------------------------------------------------------
-- Terms Read Within a Bound
------------------------------------------------------------

namespace LamLang

namespace Datum

/-
  The items of an open list leave room for the calls that
  read the lists around it.
-/
def Stack.NestsWithin
    (depth : Nat) :
    Stack → Prop
| [] => True
| items :: outer =>
    outer.length ≤ depth ∧
      (∀ item ∈ items,
        item.NestsWithin (depth - outer.length)) ∧
      Stack.NestsWithin depth outer

theorem Stack.NestsWithin.push
    {depth : Nat}
    {items : List Datum}
    {outer : Stack}
    {item : Datum}
    (hNests : Stack.NestsWithin depth (items :: outer))
    (hItem : item.NestsWithin (depth - outer.length)) :
    Stack.NestsWithin depth
      (Datum.push item (items :: outer)) := by
  rcases hNests with ⟨hRoom, hItems, hOuter⟩
  refine ⟨hRoom, ?_, hOuter⟩
  rw [List.forall_mem_cons]
  exact ⟨hItem, hItems⟩

/- A token is a leaf of the terms. -/
theorem items?_ofToken
    {token : Token}
    {item : Datum}
    (hToken : ofToken token = .ok item) :
    item.items? = none := by
  unfold ofToken at hToken
  dsimp only at hToken
  split at hToken
  · cases hToken
    rfl
  · split at hToken
    · rcases map_eq_ok hToken with ⟨n, -, rfl⟩
      rfl
    · cases hToken
      rfl

/- Reading a token keeps to the bound. -/
theorem Stack.NestsWithin.shift
    {depth : Nat}
    {stack next : Stack}
    {token : Token}
    (hNests : stack.NestsWithin depth)
    (hSome : stack ≠ [])
    (hShift : shiftWithin depth stack token = .ok next) :
    next.NestsWithin depth ∧ next ≠ [] := by
  unfold shiftWithin at hShift
  split at hShift
  swap
  · cases hShift
  rename_i hRoom
  unfold Datum.shift at hShift
  rcases stack with _ | ⟨items, outer⟩
  · exact absurd rfl hSome
  rw [List.length_cons] at hRoom
  split at hShift
  · rename_i hOpen
    subst hOpen
    cases hShift
    have hLow : outer.length + 1 ≤ depth :=
      hRoom.resolve_right fun hClose =>
        absurd hClose.1 (by decide)
    exact ⟨⟨hLow, nofun, hNests⟩, nofun⟩
  · split at hShift
    · cases outer with
      | nil => cases hShift
      | cons around rest =>
          cases hShift
          rcases hNests with ⟨hLow, hItems, hOuter⟩
          rw [List.length_cons] at hLow hItems
          have hLevel :
              depth - rest.length =
                depth - (rest.length + 1) + 1 := by
            omega
          refine ⟨hOuter.push ?_, nofun⟩
          rw [hLevel]
          rintro inner ⟨⟩ item hMem
          exact hItems item (List.mem_reverse.mp hMem)
    · rename_i hNotClose
      rcases map_eq_ok hShift with ⟨item, hToken, rfl⟩
      have hLow : outer.length + 1 ≤ depth :=
        hRoom.resolve_right fun hClose =>
          hNotClose hClose.1
      refine ⟨hNests.push ?_, nofun⟩
      exact
        nestsWithin_leaf (items?_ofToken hToken) (by omega)

theorem Stack.NestsWithin.foldlM
    {depth : Nat}
    {tokens : List Token}
    {stack last : Stack}
    (hNests : stack.NestsWithin depth)
    (hSome : stack ≠ [])
    (hShifts :
      tokens.foldlM (shiftWithin depth) stack = .ok last) :
    last.NestsWithin depth := by
  induction tokens generalizing stack with
  | nil =>
      cases hShifts
      exact hNests
  | cons token tokens ih =>
      rw [List.foldlM_cons] at hShifts
      rcases bind_eq_ok hShifts with ⟨next, hShift, hRest⟩
      rcases hNests.shift hSome hShift with
        ⟨hNext, hNextSome⟩
      exact ih hNext hNextSome hRest

/- What is read within a bound nests within it. -/
theorem nestsWithin_of_allOfSourceWithin
    {depth : Nat}
    {source : String}
    {terms : List Datum}
    (hTerms : allOfSourceWithin depth source = .ok terms) :
    ∀ term ∈ terms, term.NestsWithin depth := by
  rcases bind_eq_ok hTerms with ⟨tokens, -, hRead⟩
  rcases bind_eq_ok hRead with ⟨stack, hShifts, hEnd⟩
  have hStart : Stack.NestsWithin depth [[]] :=
    ⟨Nat.zero_le _, nofun, trivial⟩
  have hLast := hStart.foldlM nofun hShifts
  split at hEnd
  · cases hEnd
    intro term hMem
    exact hLast.2.1 term (List.mem_reverse.mp hMem)
  · cases hEnd

end Datum

end LamLang

------------------------------------------------------------
-- Exceeded Bounds
------------------------------------------------------------

namespace LamLang

namespace Datum

/- A number within so many lists. -/
def nested : Nat → Datum
| 0 => .num (.int 0)
| count + 1 => .list [nested count]

end Datum

end LamLang
