import LamLang.Proofs.Lexical
import LamLang.Proofs.RoundTrip
import LamLang.Proofs.Safety

/-
  Where texts come from.

  No operator makes a text.  So every text that a program
  comes to, also one that a closure has captured, stands in
  the program itself, and a term that was read holds texts
  without a mark only.

  Key definitions include:
    * `LamLang.Expr.texts`
    * `LamLang.Datum.texts`
    * `LamLang.Value.TextsIn`
    * `LamLang.Datum.IsRead`
    * `LamLang.Datum.ReadWithin`

  Main statements:
    * `LamLang.textsIn_invariant`
    * `LamLang.Datum.meaning_textsIn`
    * `LamLang.Datum.IsRead.exists_write`
    * `LamLang.Datum.IsRead.markedText?_eq_none`
-/

------------------------------------------------------------
-- Texts Of Expressions And Terms
------------------------------------------------------------

namespace LamLang

namespace Expr

variable {α : Type}

mutual

/- The texts that stand in an expression. -/
def texts : Expr α → List String
| .text s => [s]
| .cond test yes no => test.texts ++ yes.texts ++ no.texts
| .lam _ body => body.texts
| .app fn args => fn.texts ++ textsOfAll args
| _ => []

/- The texts that stand in some expression. -/
def textsOfAll : List (Expr α) → List String
| [] => []
| first :: rest => first.texts ++ textsOfAll rest

end

theorem mem_textsOfAll
    {s : String}
    {exprs : List (Expr α)} :
    s ∈ textsOfAll exprs ↔ ∃ e ∈ exprs, s ∈ e.texts := by
  induction exprs with
  | nil => simp [textsOfAll]
  | cons first rest ih => simp [textsOfAll, ih]

/- The texts of a part are texts of the whole. -/
theorem mem_texts_of_part?
    {s : String}
    {e part : Expr α}
    {index : Nat}
    (hPart : e.part? index = some part)
    (hText : s ∈ part.texts) :
    s ∈ e.texts := by
  unfold part? at hPart
  split at hPart
  · cases hPart
    simp [texts, hText]
  · cases hPart
    simp [texts, hText]
  · cases hPart
    simp [texts, hText]
  · cases hPart
    simpa [texts] using hText
  · cases hPart
    simp [texts, hText]
  · have hMem := List.mem_of_getElem? hPart
    have hAll := mem_textsOfAll.mpr ⟨part, hMem, hText⟩
    simp [texts, hAll]
  · cases hPart

end Expr

namespace Datum

mutual

/- The texts that stand in a term. -/
def texts : Datum → List String
| .text s => [s]
| .list items => textsOfAll items
| .tuple items => textsOfAll items
| _ => []

/- The texts that stand in some term. -/
def textsOfAll : List Datum → List String
| [] => []
| item :: items => item.texts ++ textsOfAll items

end

theorem mem_textsOfAll
    {s : String}
    {items : List Datum} :
    s ∈ textsOfAll items ↔
      ∃ item ∈ items, s ∈ item.texts := by
  induction items with
  | nil => simp [textsOfAll]
  | cons item items ih => simp [textsOfAll, ih]

theorem mem_texts_of_items?
    {datum item : Datum}
    {items : List Datum}
    {s : String}
    (hItems : datum.items? = some items)
    (hMem : item ∈ items)
    (hText : s ∈ item.texts) :
    s ∈ datum.texts := by
  have hAll : s ∈ textsOfAll items :=
    mem_textsOfAll.mpr ⟨item, hMem, hText⟩
  rcases items?_eq_some hItems with rfl | rfl
  · simpa [texts] using hAll
  · simpa [texts] using hAll

end Datum

/- Parsing adds no texts. -/
theorem Expr.texts_subset_of_ofDatum
    {α : Type}
    {term : Datum}
    {e : Expr α}
    (hParsed : Expr.ofDatum term = .ok e) :
    e.texts ⊆ term.texts := by
  apply Expr.ofDatum_induction
    (motive := fun term e => e.texts ⊆ term.texts)
    (h := hParsed)
  case num =>
    intro n
    simp [Expr.texts]
  case symbol =>
    intro name
    simp [Expr.texts]
  case text =>
    intro s
    simp [Expr.texts, Datum.texts]
  case cond =>
    intro _ _ _ _ _ _ _ hItems hTest hYes hNo s hText
    simp only [Expr.texts, List.mem_append] at hText
    rcases hText with (hInTest | hInYes) | hInNo
    · exact
        Datum.mem_texts_of_items? hItems (by simp)
          (hTest hInTest)
    · exact
        Datum.mem_texts_of_items? hItems (by simp)
          (hYes hInYes)
    · exact
        Datum.mem_texts_of_items? hItems (by simp)
          (hNo hInNo)
  case lam =>
    intro _ _ _ _ _ hItems _ hBody s hText
    rw [Expr.texts] at hText
    exact
      Datum.mem_texts_of_items? hItems (by simp)
        (hBody hText)
  case app =>
    intro _ _ _ _ _ hItems _ _ _ hFn hArgs s hText
    rw [Expr.texts, List.mem_append] at hText
    rcases hText with hInFn | hInArgs
    · exact
        Datum.mem_texts_of_items? hItems (by simp)
          (hFn hInFn)
    · rcases Expr.mem_textsOfAll.mp hInArgs with
        ⟨arg, hArg, hInArg⟩
      rcases exists_mem_of_forall₂ hArgs hArg with
        ⟨item, hMem, hSubset⟩
      exact
        Datum.mem_texts_of_items? hItems (by simp [hMem])
          (hSubset hInArg)

end LamLang

------------------------------------------------------------
-- Texts Of Values
------------------------------------------------------------

namespace LamLang

variable {α : Type} {S : String → Prop}

/-
  Values whose texts are all of one sort: a text itself, and
  the texts of a closure, in its body and in the values that
  it has captured.
-/
inductive Value.TextsIn
    (S : String → Prop) :
    Value α → Prop
| text
    {s : String}
    (hText : S s) :
    TextsIn S (.text s)
| closure
    {params : List String}
    {body : Expr α}
    {env : Env α}
    (hBody : ∀ s ∈ body.texts, S s)
    (hEnv : ∀ binding ∈ env, TextsIn S binding.2) :
    TextsIn S (.closure params body env)
| plain
    {value : Value α}
    (hText : ∀ s, value ≠ .text s)
    (hClosure :
      ∀ params body env, value ≠ .closure params body env) :
    TextsIn S value

/- Evaluations among texts of one sort. -/
structure Call.TextsIn
    (S : String → Prop)
    (call : Call α) :
    Prop where
  node : ∀ s ∈ call.node.texts, S s
  env : ∀ binding ∈ call.env, binding.2.TextsIn S

/- No initial binding holds a text. -/
theorem Env.textsIn_top :
    ∀ binding ∈ (Env.top : Env α),
      binding.2.TextsIn S := by
  intro binding hMem
  simp only [Env.top, List.mem_cons, List.not_mem_nil,
    or_false] at hMem
  rcases hMem with
    rfl | rfl | rfl | rfl | rfl | rfl | rfl | rfl
  all_goals exact .plain (by simp) (by simp)

variable [Describe α]

/- A call gives a text only if it stands there or is bound. -/
theorem Call.TextsIn.gives
    {call : Call α}
    {outcome : Except Failure (Value α)}
    {value : Value α}
    (hCall : call.TextsIn S)
    (hGives : call.Gives outcome)
    (hOutcome : outcome = .ok value) :
    value.TextsIn S := by
  rcases hCall with ⟨hNode, hEnv⟩
  cases hGives with
  | exceeded => cases hOutcome
  | num =>
      cases hOutcome
      exact .plain (by simp) (by simp)
  | text =>
      cases hOutcome
      exact .text (hNode _ (by simp [Expr.texts]))
  | ident =>
      unfold Env.lookup at hOutcome
      split at hOutcome
      · rename_i hFind
        cases hOutcome
        exact hEnv _ (Env.mem_of_find?_eq_some hFind)
      · cases hOutcome
  | lam =>
      cases hOutcome
      rw [Expr.texts] at hNode
      exact .closure hNode hEnv
  | foreign =>
      rcases bind_eq_ok hOutcome with
        ⟨description, -, hFailed⟩
      cases hFailed
  | unchosen hTest hChoice => cases hOutcome
  | operator hFn hArgs =>
      rcases Primitive.apply_eq_ok hOutcome with
        ⟨n, rfl⟩ | ⟨b, rfl⟩
      · exact .plain (by simp) (by simp)
      · exact .plain (by simp) (by simp)
  | unextended hFn hArgs hExtend => cases hOutcome
  | uncallable hFn hArgs hPrim hClosure =>
      rcases bind_eq_ok hOutcome with ⟨text, -, hFailed⟩
      cases hFailed

/- No evaluation makes a text of another sort. -/
theorem textsIn_invariant :
    Call.Invariant (α := α) (Call.TextsIn S)
      (Value.TextsIn S) where
  asks := by
    intro call index next hCall hAsks
    rcases hAsks.part with ⟨hPart, -, hEnv⟩
    refine ⟨?_, ?_⟩
    · intro s hText
      exact
        hCall.node s (Expr.mem_texts_of_part? hPart hText)
    · rw [hEnv]
      exact hCall.env
  gives := fun _ _ _ => Call.TextsIn.gives
  enters := by
    intro params body captured values inner depth hClosure
      hValues hInner
    cases hClosure with
    | closure hBody hEnv =>
        refine ⟨hBody, ?_⟩
        exact
          Env.forall_mem_of_extend hEnv
            (fun value hMem _ => hValues value hMem) hInner
    | plain _ hNone => exact absurd rfl (hNone _ _ _)

omit [Describe α] in
/- A program starts among the texts of its term. -/
theorem Datum.textsIn_program
    {term : Datum}
    {program : Expr α}
    (hParsed : Expr.ofDatum term = .ok program)
    (depth : Nat) :
    Call.TextsIn (· ∈ term.texts)
      ⟨depth, program, Env.top⟩ := by
  refine ⟨?_, Env.textsIn_top⟩
  intro s hText
  exact Expr.texts_subset_of_ofDatum hParsed hText

/- The texts of a term's value stand in the term. -/
theorem Datum.meaning_textsIn
    {depth : Nat}
    {term : Datum}
    {value : Value Empty}
    (hMeaning : term.meaning depth = .ok value) :
    value.TextsIn (· ∈ term.texts) := by
  rcases meaning_eq_ok hMeaning with
    ⟨program, hParsed, hValue⟩
  exact
    textsIn_invariant.value (textsIn_program hParsed depth)
      hValue

end LamLang

------------------------------------------------------------
-- Terms That Were Read
------------------------------------------------------------

namespace LamLang

namespace Datum

/- The text of a readable term has some characters. -/
theorem Readable.exists_line
    {term : Datum}
    (hReadable : term.Readable) :
    ∃ line, term.write = .ok line ∧ line ≠ "" := by
  rcases ofSource_write hReadable with ⟨line, hLine, hBack⟩
  refine ⟨line, hLine, ?_⟩
  rintro rfl
  cases hBack

/- So has the text of a list, whatever its items are. -/
theorem exists_line_of_items
    {items : List Datum}
    (hItems :
      ∀ item ∈ items,
        ∃ line, item.write = .ok line ∧ line ≠ "") :
    ∃ line,
      (Datum.list items).write = .ok line ∧ line ≠ "" := by
  have hWritten :
      ∃ texts, items.mapM write = .ok texts := by
    induction items with
    | nil => exact ⟨[], rfl⟩
    | cons item items ih =>
        rcases hItems item (by simp) with ⟨line, hLine, -⟩
        rcases ih fun other hMem =>
          hItems other (by simp [hMem]) with
          ⟨texts, hTexts⟩
        refine ⟨line :: texts, ?_⟩
        rw [List.mapM_cons, hLine, hTexts]
        rfl
  rcases hWritten with ⟨texts, hTexts⟩
  refine ⟨_, write_of_items? rfl hTexts, ?_⟩
  intro hEmpty
  have hChars := congrArg String.toList hEmpty
  simp at hChars

/- The terms that some source is read as. -/
def IsRead
    (term : Datum) : Prop :=
  ∃ source terms,
    allOfSource source = .ok terms ∧ term ∈ terms

namespace IsRead

variable {term : Datum}

/-
  What holds of a list as soon as it holds of its items, and
  of every leaf that can be read, holds of terms read.
-/
theorem of_leaves
    {motive : Datum → Prop}
    (hRead : term.IsRead)
    (hList :
      ∀ items, (∀ item ∈ items, motive item) →
        motive (.list items))
    (hReadable :
      ∀ leaf : Datum,
        leaf.items? = none → leaf.Readable → motive leaf)
    (hInfinite :
      ∀ negative,
        motive (.num (.real (.infinite negative)))) :
    motive term := by
  rcases hRead with ⟨source, terms, hTerms, hTerm⟩
  rcases exists_ofSource hTerms with ⟨tokens, hTokens⟩
  apply Datum.of_leaves hList
  intro leaf hLeaf
  rcases leaf_of_allOfSource hTokens hTerms hTerm hLeaf with
    ⟨-, -, -, hItems, hLegible | ⟨negative, rfl⟩⟩
  · exact hReadable leaf hItems hLegible
  · exact hInfinite negative

/- Every part of a term that was read can be written. -/
theorem exists_write_of_within
    (hRead : term.IsRead) :
    ∀ part : Datum, part.Within term →
      ∃ line, part.write = .ok line ∧ line ≠ "" := by
  apply hRead.of_leaves
  · intro items hItems part hPart
    cases hPart with
    | refl =>
        apply exists_line_of_items
        intro item hMem
        exact hItems item hMem item .refl
    | item hInner hMem hWithin =>
        cases hInner
        exact hItems _ hMem part hWithin
  · intro leaf hLeaf hReadable part hPart
    rw [hPart.eq_of_leaf hLeaf]
    exact hReadable.exists_line
  · intro negative part hPart
    rw [hPart.eq_of_leaf rfl]
    cases negative
    · exact ⟨"inf", rfl, by decide⟩
    · exact ⟨"-inf", rfl, by decide⟩

/- A term that was read can be written on a line. -/
theorem exists_write
    (hRead : term.IsRead) :
    ∃ line, term.write = .ok line ∧ line ≠ "" :=
  hRead.exists_write_of_within term .refl

/- A text in a term that was read holds no mark. -/
theorem mark_not_mem
    (hRead : term.IsRead)
    {s : String}
    (hText : s ∈ term.texts) :
    Lexeme.mark ∉ s.toList := by
  revert s
  apply hRead.of_leaves
  · intro items hItems s hText
    rw [texts] at hText
    rcases mem_textsOfAll.mp hText with
      ⟨item, hMem, hInItem⟩
    exact hItems item hMem hInItem
  · intro leaf hLeaf hReadable s hText
    cases hReadable with
    | num hLegible => simp [texts] at hText
    | symbol hAtom hName => simp [texts] at hText
    | text hMark =>
        rw [texts, List.mem_singleton] at hText
        rw [hText]
        exact hMark
    | items hItems _ =>
        rw [hLeaf] at hItems
        cases hItems
  · intro negative s hText
    simp [texts] at hText

/- So its value never gives rise to a warning. -/
theorem markedText?_eq_none
    (hRead : term.IsRead)
    {depth : Nat}
    {value : Value Empty}
    (hMeaning : term.meaning depth = .ok value) :
    value.markedText? = none := by
  cases meaning_textsIn hMeaning with
  | text hText =>
      have hMark := hRead.mark_not_mem hText
      rw [Lexeme.mark] at hMark
      simp [Value.markedText?, hMark]
  | closure hBody hEnv => rfl
  | plain hText hClosure =>
      cases value with
      | text s => exact absurd rfl (hText s)
      | _ => rfl

end IsRead

/- The terms that some source is read as within a bound. -/
structure ReadWithin
    (depth : Nat)
    (term : Datum) :
    Prop where
  isRead : term.IsRead
  nests : term.NestsWithin depth

theorem readWithin_of_mem
    {depth : Nat}
    {source : String}
    {terms : List Datum}
    (hTerms : allOfSourceWithin depth source = .ok terms)
    {term : Datum}
    (hMem : term ∈ terms) :
    term.ReadWithin depth := by
  have hReads :=
    allOfSourceWithin_approximates_allOfSource depth source
  exact
    ⟨⟨source, terms, hReads.eq_ok hTerms, hMem⟩,
      nestsWithin_of_allOfSourceWithin hTerms term hMem⟩

/- Such a term is written within the bound. -/
theorem ReadWithin.exists_write
    {depth : Nat}
    {term : Datum}
    (hRead : term.ReadWithin depth) :
    ∃ line,
      term.write = .ok line ∧
        term.writeWithin depth = .ok line ∧
        line ≠ "" := by
  rcases hRead.isRead.exists_write with
    ⟨line, hLine, hShown⟩
  refine ⟨line, hLine, ?_, hShown⟩
  rw [writeWithin_eq hRead.nests, hLine]

end Datum

end LamLang
