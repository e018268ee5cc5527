import LamLang.Proofs.Failures
import LamLang.Report.Colour
import Mathlib.Data.List.Forall2
import Mathlib.Data.List.TakeWhile
import Mathlib.Tactic.SplitIfs

/-
  When a template can be filled, and with what.

  Every text is read as a template that is written back as
  it was.  Whether a plain hole can be filled depends on the
  number of the arguments only.  If no specification has
  holes of its own, then arguments that are at least as long
  fill every hole that the shorter ones do, so painting the
  arguments cannot fail.

  Key definitions include:
    * `LamLang.Template.Alike`
    * `LamLang.Template.Flat`

  Main statements:
    * `LamLang.Template.source_read`
    * `LamLang.Template.formatFrom_alike`
    * `LamLang.Template.Flat.exists_format`
    * `LamLang.Fault.Formed.exists_highlighted`
-/

------------------------------------------------------------
-- Reading Back
------------------------------------------------------------

namespace LamLang

namespace Template

/- A step ends where these characters have been read. -/
def Mode.Next.Covers
    (next : Mode.Next)
    (cs : List Char) : Prop :=
  match next with
  | .goOn mode => mode.written = cs
  | .done piece => (pieceSource piece).toList = cs
  | .refused _ => True

theorem Mode.covers_stepName
    (seen : List Char)
    (c : Char) :
    (stepName seen c).Covers
      (openBrace :: seen.reverse ++ [c]) := by
  unfold stepName
  split_ifs <;>
    simp_all [Next.Covers, written, pieceSource, holeSource,
      optionSource]

theorem Mode.covers_stepSpec
    (name : List Char)
    (letter? : Option Char)
    (seen : List Char)
    (nested : Nat)
    (c : Char) :
    (stepSpec name letter? seen nested c).Covers
      ((Mode.laying name letter? seen nested).written ++
        [c]) := by
  unfold stepSpec
  split_ifs with hOpen hClose
  · simp [Next.Covers, written]
  · cases nested <;>
      simp [Next.Covers, written, pieceSource, holeSource,
        optionSource, hClose]
  · simp [Next.Covers, written]

/- A step reads its character and loses nothing. -/
theorem Mode.covers_step
    (mode : Mode)
    (c : Char) :
    (mode.step c).Covers (mode.written ++ [c]) := by
  cases mode with
  | naming seen => exact covers_stepName seen c
  | laying name letter? seen nested =>
      exact covers_stepSpec name letter? seen nested c
  -- A second brace makes a text, all else starts a name.
  | opened =>
      simp only [step]
      split_ifs with hOpen
      · simp [Next.Covers, hOpen, written, pieceSource,
          sourceChar]
      · exact covers_stepName [] c
  | converting name =>
      simp [step, Next.Covers, written]
  | _ =>
      simp only [step]
      split_ifs <;>
        simp_all [Next.Covers, written, pieceSource,
          sourceChar, holeSource, optionSource]

theorem toList_source_cons
    (piece : Piece)
    (rest : Template) :
    (source (piece :: rest)).toList =
      (pieceSource piece).toList ++ (source rest).toList := by
  simp [source]

theorem toList_source_readFrom
    (cs : List Char) :
    ∀ mode,
      (source (readFrom mode cs)).toList =
        mode.written ++ cs := by
  induction cs with
  | nil =>
      intro mode
      cases mode <;>
        simp [readFrom, Mode.unfinished?, source,
          pieceSource, Mode.written]
  | cons c cs ih =>
      intro mode
      have hStep := mode.covers_step c
      rw [readFrom]
      cases hNext : mode.step c with
      | goOn next =>
          rw [hNext, Mode.Next.Covers] at hStep
          simp [ih, hStep]
      | done piece =>
          rw [hNext, Mode.Next.Covers] at hStep
          rw [toList_source_cons, ih, hStep]
          simp [Mode.written]
      | refused reason => simp [source, pieceSource]

/- Every text is a template, written as the text. -/
theorem source_read
    (s : String) :
    (read s).source = s := by
  have hRead := toList_source_readFrom s.toList .ground
  exact String.toList_inj.mp hRead

end Template

end LamLang

------------------------------------------------------------
-- Plain Holes
------------------------------------------------------------

namespace LamLang

namespace Hole

variable {hole : Hole}

/- The whole name of a plain hole is for its argument. -/
theorem Plain.not_endsLead
    (hPlain : hole.Plain)
    {c : Char}
    (hMem : c ∈ hole.name) :
    (!endsLead c) = true := by
  have hDigit := List.all_eq_true.mp hPlain.1 c hMem
  rw [Bool.not_eq_true', Bool.eq_false_iff]
  intro hEnds
  rcases Bool.or_eq_true _ _ ▸ hEnds with hDot | hBracket
  · rw [beq_iff_eq.mp hDot] at hDigit
    exact absurd hDigit (by decide)
  · rw [beq_iff_eq.mp hBracket] at hDigit
    exact absurd hDigit (by decide)

theorem Plain.lead_eq
    (hPlain : hole.Plain) :
    hole.lead = hole.name := by
  rw [lead, List.takeWhile_eq_self_iff]
  exact fun c => hPlain.not_endsLead

theorem Plain.steps_eq
    (hPlain : hole.Plain) :
    hole.steps = [] := by
  have hRest :
      (hole.name.dropWhile fun c => !endsLead c) = [] := by
    rw [List.dropWhile_eq_nil_iff]
    exact fun c => hPlain.not_endsLead
  rw [steps, hRest]
  rfl

end Hole

namespace Template

/- A plain hole is filled with its argument as it is. -/
theorem fillHole_of_plain
    {hole : Hole}
    (hPlain : hole.Plain)
    (args : List String)
    (choice : Choice) :
    fillHole args (expandSpec args) choice hole = (do
      let taken ← choose choice hole.name
      let arg ← argument args taken.1
      return (arg, taken.2)) := by
  have hSpec : hole.spec = [] := by
    rw [Hole.spec, hPlain.2.2]
    rfl
  rw [fillHole, hPlain.lead_eq, hPlain.steps_eq, hSpec,
    hPlain.2.1]
  cases choose choice hole.name with
  | error reason => rfl
  | ok taken =>
      cases hArg : argument args taken.1 with
      | error reason => simp [hArg, bind, Except.bind]
      | ok arg =>
          have hStyle := Style.apply_plain arg
          simp [hArg, hStyle, expandSpec, convert,
            Style.read_nil, bind, Except.bind, pure,
            Except.pure]

/-
  Two wordings that fail for one reason, or that are related
  and have chosen the same arguments.
-/
inductive Alike
    (R : String → String → Prop) :
    Except Misfit (String × Choice) →
      Except Misfit (String × Choice) → Prop where
| ok
    {s t : String}
    {choice : Choice}
    (hTexts : R s t) :
    Alike R (.ok (s, choice)) (.ok (t, choice))
| error
    (reason : Misfit) :
    Alike R (.error reason) (.error reason)

variable
  {R : String → String → Prop} {args others : List String}

/- Related arguments are there under the same numbers. -/
theorem argument_related
    (hArgs : List.Forall₂ R args others)
    (index : Nat) :
    (∃ arg other,
      argument args index = .ok arg ∧
        argument others index = .ok other ∧ R arg other) ∨
      argument args index = .error (.missing index) ∧
        argument others index = .error (.missing index) := by
  rcases List.forall₂_iff_get.mp hArgs with
    ⟨hLength, hRelated⟩
  by_cases hIndex : index < args.length
  · have hOther : index < others.length := hLength ▸ hIndex
    exact
      .inl
        ⟨args[index], others[index],
          by simp [argument, hIndex],
          by simp [argument, hOther],
          hRelated index hIndex hOther⟩
  · have hOther : ¬ index < others.length :=
      hLength ▸ hIndex
    exact
      .inr
        ⟨by simp [argument, hIndex],
          by simp [argument, hOther]⟩

/- Related texts may be put in front of such wordings. -/
theorem Alike.prepend
    {s t : String}
    {x y : Except Misfit (String × Choice)}
    (hRest : Alike R x y)
    (hFirst :
      ∀ {s' t' : String},
        R s' t' → R (s ++ s') (t ++ t')) :
    Alike R
      (do
        let filled ← x
        return (s ++ filled.1, filled.2))
      (do
        let filled ← y
        return (t ++ filled.1, filled.2)) := by
  cases hRest with
  | ok hTexts => exact .ok (hFirst hTexts)
  | error reason => exact .error reason

/-
  Related arguments fill plain holes alike.  The induction
  is on the pieces; the holes choose by number only, so the
  choices go along.
-/
theorem formatFrom_alike
    (hEmpty : R "" "")
    (hAppend :
      ∀ {s t s' t'},
        R s t → R s' t' → R (s ++ s') (t ++ t'))
    (hArgs : List.Forall₂ R args others)
    (template : Template)
    (hPlain : template.Plain)
    (hTexts : ∀ s, .text s ∈ template → R s s) :
    ∀ choice,
      Alike R
        (formatFrom args (expandSpec args) choice template)
        (formatFrom others (expandSpec others) choice
          template) := by
  induction template with
  | nil => exact fun choice => .ok hEmpty
  | cons piece rest ih =>
      intro choice
      rw [Plain, List.forall_mem_cons] at hPlain
      have hRest :=
        ih hPlain.2 fun s hMem =>
          hTexts s (List.mem_cons_of_mem _ hMem)
      cases piece with
      | text s =>
          exact
            (hRest choice).prepend
              (hAppend (hTexts s List.mem_cons_self))
      | broken unread reason => exact hPlain.1.elim
      | hole hole =>
          rw [formatFrom, formatFrom,
            fillHole_of_plain hPlain.1 args,
            fillHole_of_plain hPlain.1 others]
          cases choose choice hole.name with
          | error reason => exact .error reason
          | ok taken =>
              rcases argument_related hArgs taken.1 with
                ⟨arg, other, hArg, hOther, hRelated⟩ |
                  ⟨hArg, hOther⟩
              · simp only [bind, Except.bind, hArg, hOther]
                exact
                  (hRest taken.2).prepend (hAppend hRelated)
              · simp only [bind, Except.bind, hArg, hOther]
                exact .error _

end Template

end LamLang

------------------------------------------------------------
-- Longer Arguments
------------------------------------------------------------

namespace LamLang

namespace Template

/- A template none of whose specifications has a hole. -/
def Flat
    (template : Template) : Prop :=
  ∀ hole, .hole hole ∈ template → openBrace ∉ hole.spec

theorem Plain.flat
    {template : Template}
    (hPlain : template.Plain) :
    template.Flat := by
  intro hole hMem
  have hHole : hole.Plain := hPlain _ hMem
  rw [Hole.spec, hHole.2.2]
  exact List.not_mem_nil

/- A text that has the characters of another, or more. -/
def Longer
    (s t : String) : Prop :=
  s.toList.length ≤ t.toList.length

variable {args others : List String}

/- A step into a text can be taken into a longer one. -/
theorem Step.apply_longer
    {step : Step}
    {s t part : String}
    (hLonger : Longer s t)
    (hPart : step.apply s = .ok part) :
    ∃ other, step.apply t = .ok other ∧
      Longer part other := by
  cases step with
  | member name => cases hPart
  | unclosed => cases hPart
  | stray => cases hPart
  | item key =>
      rcases bind_eq_ok hPart with ⟨index?, hKey, hItem⟩
      cases index? with
      | none => cases hItem
      | some index =>
          cases hChar : s.toList[index]? with
          | none =>
              simp only [hChar] at hItem
              cases hItem
          | some c =>
              simp only [hChar] at hItem
              cases hItem
              have hIndex : index < t.toList.length :=
                Nat.lt_of_lt_of_le
                  (List.getElem?_eq_some_iff.mp hChar).1
                  hLonger
              refine
                ⟨t.toList[index].toString, ?_,
                  by simp [Longer]⟩
              simp [apply, itemOf, hKey, hIndex, bind,
                Except.bind, pure, Except.pure]

theorem Step.foldlM_longer
    (steps : List Step) :
    ∀ {s t part : String},
      Longer s t →
      steps.foldlM (fun s step => step.apply s) s =
          .ok part →
        ∃ other,
          steps.foldlM (fun s step => step.apply s) t =
            .ok other := by
  induction steps with
  | nil => exact fun _ _ => ⟨_, rfl⟩
  | cons step steps ih =>
      intro s t part hLonger hPart
      rw [List.foldlM_cons] at hPart ⊢
      rcases bind_eq_ok hPart with ⟨first, hFirst, hRest⟩
      rcases step.apply_longer hLonger hFirst with
        ⟨other, hOther, hLongerRest⟩
      rw [hOther]
      exact ih hLongerRest hRest

/- Whether a conversion is known has nothing to do with it. -/
theorem exists_convert
    {letter? : Option Char}
    {s converted : String}
    (hConverted : convert letter? s = .ok converted)
    (t : String) :
    ∃ other, convert letter? t = .ok other := by
  cases letter? with
  | none => exact ⟨_, rfl⟩
  | some letter =>
      simp only [convert] at hConverted ⊢
      split_ifs at hConverted ⊢
      all_goals exact ⟨_, rfl⟩

/- A hole without holes in it is filled with longer texts. -/
theorem exists_fillHole
    {hole : Hole}
    (hFlat : openBrace ∉ hole.spec)
    (hArgs : List.Forall₂ Longer args others)
    {choice next : Choice}
    {filled : String}
    (hFilled :
      fillHole args (expandSpec args) choice hole =
        .ok (filled, next)) :
    ∃ other,
      fillHole others (expandSpec others) choice hole =
        .ok (other, next) := by
  -- The argument is chosen by its number, so that the others
  -- have one in its place; only the steps look at its length.
  rcases bind_eq_ok hFilled with
    ⟨⟨index, chosen⟩, hChosen, hFilled⟩
  rcases bind_eq_ok hFilled with ⟨arg, hArg, hFilled⟩
  rcases bind_eq_ok hFilled with ⟨part, hPart, hFilled⟩
  rcases bind_eq_ok hFilled with
    ⟨converted, hConverted, hFilled⟩
  have hKept (args : List String) :
      expandSpec args chosen hole.spec =
        .ok (hole.spec, chosen) :=
    if_neg hFlat
  rcases bind_eq_ok hFilled with
    ⟨⟨spec, last⟩, hExpanded, hFilled⟩
  rw [hKept] at hExpanded
  cases hExpanded
  rcases bind_eq_ok hFilled with ⟨style, hStyle, hDone⟩
  cases hDone
  rcases argument_related hArgs index with
    ⟨first, other, hFirst, hOther, hLonger⟩ |
      ⟨hMissing, -⟩
  · rw [hArg] at hFirst
    cases hFirst
    rcases Step.foldlM_longer hole.steps hLonger hPart with
      ⟨otherPart, hOtherPart⟩
    rcases exists_convert hConverted otherPart with
      ⟨otherConverted, hOtherConverted⟩
    refine ⟨style.apply otherConverted, ?_⟩
    simp only [fillHole, hChosen, hOther, hOtherPart,
      hOtherConverted, hKept, hStyle, bind, Except.bind,
      pure, Except.pure]
  · rw [hArg] at hMissing
    cases hMissing

/-
  Longer arguments fill a template that has been filled, if
  it is flat.  The induction is on the pieces.
-/
theorem exists_formatFrom
    (hArgs : List.Forall₂ Longer args others)
    (template : Template)
    (hFlat : template.Flat) :
    ∀ {choice next : Choice} {filled : String},
      formatFrom args (expandSpec args) choice template =
          .ok (filled, next) →
        ∃ other,
          formatFrom others (expandSpec others) choice
              template =
            .ok (other, next) := by
  induction template with
  | nil =>
      intro choice next filled hFilled
      cases hFilled
      exact ⟨"", rfl⟩
  | cons piece rest ih =>
      intro choice next filled hFilled
      have hRest :=
        @ih fun hole hMem =>
          hFlat hole (List.mem_cons_of_mem _ hMem)
      cases piece with
      | text s =>
          rcases bind_eq_ok hFilled with
            ⟨⟨tail, last⟩, hTail, hDone⟩
          cases hDone
          rcases hRest hTail with ⟨other, hOther⟩
          refine ⟨s ++ other, ?_⟩
          simp only [formatFrom, hOther, bind, Except.bind,
            pure, Except.pure]
      | hole hole =>
          rcases bind_eq_ok hFilled with
            ⟨⟨s, chosen⟩, hHole, hFilled⟩
          rcases bind_eq_ok hFilled with
            ⟨⟨tail, last⟩, hTail, hDone⟩
          cases hDone
          rcases
            exists_fillHole (hFlat hole List.mem_cons_self)
              hArgs hHole with
            ⟨t, hOtherHole⟩
          rcases hRest hTail with ⟨other, hOther⟩
          refine ⟨t ++ other, ?_⟩
          simp only [formatFrom, hOtherHole, hOther, bind,
            Except.bind, pure, Except.pure]
      | broken unread reason => cases hFilled

theorem Flat.exists_format
    {template : Template}
    (hFlat : template.Flat)
    (hArgs : List.Forall₂ Longer args others)
    {message : String}
    (hMessage : template.format args = .ok message) :
    ∃ other, template.format others = .ok other := by
  rw [format] at hMessage ⊢
  cases hFilled :
      formatFrom args (expandSpec args) .undecided
        template with
  | error reason =>
      rw [hFilled] at hMessage
      cases hMessage
  | ok filled =>
      rcases exists_formatFrom hArgs template hFlat hFilled
        with ⟨other, hOther⟩
      rw [hOther]
      exact ⟨other, rfl⟩

end Template

end LamLang

------------------------------------------------------------
-- Highlighted Messages
------------------------------------------------------------

namespace LamLang

/- A painted text is at least as long as the text. -/
theorem longer_paint
    (colour : Bool)
    (hue : Option Hue)
    (s : String) :
    Template.Longer s (paint colour hue s) := by
  cases colour with
  | false =>
      rw [paint_false]
      exact Nat.le_refl _
  | true =>
      simp only [Template.Longer, paint, if_true,
        String.toList_append, List.length_append]
      omega

/- A formed fault with a flat template can be highlighted. -/
theorem Fault.Formed.exists_highlighted
    {fault : Fault}
    (hFormed : fault.Formed)
    (hFlat : fault.template.Flat)
    (colour : Bool) :
    ∃ message, fault.highlighted colour = .ok message := by
  rcases hFormed with ⟨message, hMessage⟩
  have hLonger :
      List.Forall₂ Template.Longer fault.exprs
        (fault.exprs.map (paint colour none)) := by
    rw [List.forall₂_map_right_iff, List.forall₂_same]
    exact fun expr _ => longer_paint colour none expr
  exact hFlat.exists_format hLonger hMessage

end LamLang
