import LamLang.Proofs.Batches

/-
  Where texts come from, for terms, readers and batches.

  Every text that is met while a term is evaluated, also one
  that a closure has captured, stands in the term.  The
  reader makes no text with a mark in it.  So a batch has
  nothing to warn of, whatever was put into it and run.

  Key definitions include:
    * `LamLang.Value.Holds`

  Main statements:
    * `LamLang.Call.TextsIn.holds`
    * `LamLang.Reporter.warning_ne_empty`
    * `LamLang.Batch.Kept.printed_run`
    * `LamLang.texts_are_never_made`
-/

------------------------------------------------------------
-- Texts Within Values
------------------------------------------------------------

namespace LamLang

variable {α : Type} {S : String → Prop}

/-
  A value holds a text if it is the text, or if it is a
  closure and a value that it has captured holds the text.
-/
inductive Value.Holds : Value α → String → Prop
| text
    (s : String) :
    Holds (.text s) s
| captured
    {params : List String}
    {body : Expr α}
    {env : Env α}
    {binding : String × Value α}
    {s : String}
    (hMem : binding ∈ env)
    (hHolds : Holds binding.2 s) :
    Holds (.closure params body env) s

theorem Value.TextsIn.of_holds
    {value : Value α}
    {s : String}
    (hTexts : value.TextsIn S)
    (hHolds : value.Holds s) :
    S s := by
  induction hHolds with
  | text s =>
      cases hTexts with
      | text hText => exact hText
      | plain hText hClosure => exact absurd rfl (hText s)
  | captured hMem hHolds ih =>
      cases hTexts with
      | closure hBody hEnv => exact ih (hEnv _ hMem)
      | plain hText hClosure =>
          exact absurd rfl (hClosure _ _ _)

/- The texts that a reached call binds or comes to. -/
theorem Call.TextsIn.holds
    [Describe α]
    {call last : Call α}
    (hCall : call.TextsIn S)
    (hReach : Relation.ReflTransGen Call.Makes call last) :
    (∀ binding ∈ last.env, ∀ s,
      binding.2.Holds s → S s) ∧
    ∀ value s,
      last.outcome = .ok value → value.Holds s → S s := by
  have hLast := textsIn_invariant.reaches hCall hReach
  constructor
  · intro binding hMem s hHolds
    exact (hLast.env binding hMem).of_holds hHolds
  · intro value s hOutcome hHolds
    exact
      (textsIn_invariant.value hLast hOutcome).of_holds
        hHolds

end LamLang

------------------------------------------------------------
-- Warnings
------------------------------------------------------------

namespace LamLang

/- A warning always shows. -/
theorem Reporter.warning_ne_empty
    (reporter : Reporter)
    (fault : Fault) :
    reporter.warning fault ≠ "" := by
  intro hEmpty
  have hChars := congrArg String.toList hEmpty
  simp [warning] at hChars

namespace Batch

variable {path : String} {depth : Nat} {batch : Batch}

/- A run of terms that were read prints nothing. -/
theorem Kept.printed_run
    (hKept : Kept path depth batch) :
    batch.run.printed = "" := by
  rcases hKept with ⟨-, rfl, hRead⟩
  rcases results_or_breaks batch.depth hRead with
    ⟨texts, hTexts⟩ | ⟨entry, failure, line, hBreaks⟩
  · rw [run_of_results batch hRead hTexts]
  · rw [run_of_breaks batch hRead hBreaks]

end Batch

end LamLang

------------------------------------------------------------
-- Origins
------------------------------------------------------------

namespace LamLang

open Lexeme (mark)

/-
  The text that a term comes to stands in the term, and so
  does every text that is bound, captured or come to on the
  way.  No text that is read holds a mark.  So if a batch
  has only been added to, run and taken from, with any texts
  and in any order, no queued term has a value to warn of,
  and a run prints no warning.
-/
theorem texts_are_never_made :
    (∀ (depth : Nat) (term : Datum) (s : String),
      term.meaning depth = .ok (.text s) →
        s ∈ term.texts) ∧
    (∀ (depth : Nat) (term : Datum)
        (program : Expr Empty) (call : Call Empty),
      Expr.ofDatum term = .ok program →
      Relation.ReflTransGen Call.Makes
          ⟨depth, program, Env.top⟩ call →
        (∀ binding ∈ call.env, ∀ s,
          binding.2.Holds s → s ∈ term.texts) ∧
        ∀ value s,
          call.outcome = .ok value → value.Holds s →
            s ∈ term.texts) ∧
    (∀ (source : String) (term : Datum),
      Datum.ofSource source = .ok term →
        ∀ s ∈ term.texts, mark ∉ s.toList) ∧
    (∀ (source : String) (terms : List Datum),
      Datum.allOfSource source = .ok terms →
        ∀ term ∈ terms, ∀ s ∈ term.texts,
          mark ∉ s.toList) ∧
    (∀ (reporter : Reporter) (fault : Fault),
      reporter.warning fault ≠ "") ∧
    ∀ (reporter : Reporter) (path : String) (depth : Nat)
        (typed : Bool)
        (history : List (Bool × Batch.Action)),
      let batch :=
        (Batch.start reporter path depth typed).after
          history
      (∀ entry ∈ batch.queue, ∀ value,
        entry.2.meaning depth = .ok value →
          value.holdsMark = false) ∧
        batch.run.printed = "" := by
  refine
    ⟨?value, ?calls, ?single, ?several,
      Reporter.warning_ne_empty, ?batches⟩
  case value =>
    intro depth term s hMeaning
    exact (Datum.meaning_textsIn hMeaning).of_holds (.text s)
  case calls =>
    intro depth term program call hParsed hReach
    exact (Datum.textsIn_program hParsed depth).holds hReach
  case single =>
    intro source term hRead s hText
    have hAll := Datum.ofSource_eq_ok_iff.mp hRead
    have hTerm : term.IsRead :=
      ⟨source, [term], hAll, by simp⟩
    exact hTerm.mark_not_mem hText
  case several =>
    intro source terms hRead term hMem s hText
    have hTerm : term.IsRead := ⟨source, terms, hRead, hMem⟩
    exact hTerm.mark_not_mem hText
  case batches =>
    intro reporter path depth typed history batch
    have hKept : batch.Kept path depth :=
      (Batch.kept_start reporter path depth typed).after
        history
    refine ⟨?_, hKept.printed_run⟩
    intro entry hMem value hMeaning
    have hTerm := (hKept.read entry hMem).isRead
    rw [Value.holdsMark, hTerm.markedText?_eq_none hMeaning]
    rfl

-- Only a term that was not read can give a warning.
example :
    { Batch.start (.fresh false false) "<in>" 3 true with
      queue := [(1, .text "a\"b")] }.run.printed ≠ "" := by
  decide +kernel

/- A function that is handed a text and captures it. -/
def Expr.capturing : Expr Empty :=
  .app (.lam ["s"] (.lam ["x"] (.ident "s"))) [.text "a"]

/- The closure that it comes to. -/
def Value.capturing : Value Empty :=
  .closure ["x"] (.ident "s") (("s", .text "a") :: Env.top)

/- A text that is not read whole, a run, and more texts. -/
def Batch.textHistory : List (Bool × Action) :=
  [(true, .add "\"b\" \"" 1), (false, .run),
   (false, .add "\"c;;\" \"d\"" 2)]

theorem texts_are_never_made_capturing :
    Expr.capturing.toDatum.meaning 4 =
      .ok Value.capturing ∧
    Value.capturing.Holds "a" ∧
    "a" ∈ Expr.capturing.toDatum.texts ∧
    ((Batch.start (.fresh false false) "<in>" 3 true).after
        Batch.textHistory).queue =
      [(2, .text "c;;"), (2, .text "d")] ∧
    ((Batch.start (.fresh false false) "<in>" 3 true).after
        Batch.textHistory).run.printed = "" := by
  have hParsed :
      Expr.ofDatum Expr.capturing.toDatum =
        .ok Expr.capturing :=
    rfl
  have hMeaning :
      Expr.capturing.toDatum.meaning 4 =
        .ok Value.capturing :=
    rfl
  have hHolds : Value.capturing.Holds "a" :=
    .captured List.mem_cons_self (.text "a")
  rcases texts_are_never_made with
    ⟨-, hCalls, -, -, -, hBatches⟩
  rcases hCalls 4 _ _ _ hParsed .refl with ⟨-, hValues⟩
  refine
    ⟨hMeaning, hHolds, hValues _ "a" hMeaning hHolds, rfl,
      ?_⟩
  exact (hBatches _ _ _ _ Batch.textHistory).2

end LamLang
