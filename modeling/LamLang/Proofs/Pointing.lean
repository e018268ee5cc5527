import LamLang.Proofs.Batches

/-
  What a report can point at.

  A fault that is pointed at names a part of the term that
  was run, as it is written, unless the fault is a value
  that cannot be called.  A parse error names the part that
  was refused, and any other fault names an identifier: the
  one that is unbound, or the one that the operator at fault
  was looked up by.  So the subject of the fault stands in
  the line of its term.

  Key definitions include:
    * `LamLang.Datum.Shows`
    * `LamLang.Expr.Mentions`
    * `LamLang.Value.OpsIn`
    * `LamLang.Failure.PointsInto`

  Main statements:
    * `LamLang.Text.find?_isSome_iff`
    * `LamLang.Datum.IsRead.infix_of_shows`
    * `LamLang.opsIn_invariant`
    * `LamLang.Datum.meaning_failsOnly_pointsInto`
    * `LamLang.pointed_faults_have_pointers`
-/

------------------------------------------------------------
-- Texts Found In A Line
------------------------------------------------------------

namespace LamLang

/- A text is found wherever it stands. -/
theorem Text.find?_isSome_iff
    {needle cs : List Char} :
    (find? needle cs).isSome = true ↔ needle <:+: cs := by
  induction cs with
  | nil => simp [find?]
  | cons c cs ih =>
      rw [find?, List.infix_cons_iff, ← ih]
      by_cases hHere : needle.isPrefixOf (c :: cs) = true
      · rw [if_pos hHere]
        simp [List.isPrefixOf_iff_prefix.mp hHere]
      · rw [if_neg hHere]
        rw [List.isPrefixOf_iff_prefix] at hHere
        simp [hHere]

theorem Fault.pointer?_isSome_iff
    {fault : Fault}
    {colour : Bool}
    {hue : Hue}
    {line : String} :
    (fault.pointer? colour hue line).isSome = true ↔
      fault.subject ≠ "" ∧
        fault.subject.toList <:+: line.toList := by
  unfold pointer? place?
  rw [Option.isSome_map, ← Text.find?_isSome_iff]
  by_cases hEmpty : fault.subject = ""
  · simp [hEmpty]
  · simp [hEmpty]

theorem Fault.pointer?_of_find?
    {fault : Fault}
    (hNonempty : fault.subject ≠ "")
    {line : String}
    {start : Nat}
    (hFind :
      Text.find? fault.subject.toList line.toList =
        some start)
    {colour : Bool}
    {hue : Hue} :
    fault.pointer? colour hue line =
      some (fault.pointerAt colour hue line start) := by
  unfold pointer? place?
  rw [if_neg (by simpa using hNonempty), hFind]
  rfl

/-
  The line and the caret below it, spelled out: the line has
  the offending text marked, and below the text stand a
  caret and a tail of the same length.
-/
theorem Fault.pointerAt_eq
    {fault : Fault}
    {line : String}
    {start : Nat}
    (hSpan :
      (line.toList.drop start).take
          fault.subject.toList.length =
        fault.subject.toList)
    (colour : Bool) :
    fault.pointerAt colour .red line start =
      "  " ++ String.ofList (line.toList.take start) ++
        (if colour then
          "\x1b[1m\x1b[31m" ++ fault.subject ++ "\x1b[0m"
        else
          fault.subject) ++
        String.ofList
          (line.toList.drop
            (start + fault.subject.toList.length)) ++
        "\n" ++ "  " ++
        String.ofList (List.replicate start ' ') ++
        (if colour then
          "\x1b[1m\x1b[31m" ++
            String.ofList
              ('^' ::
                List.replicate
                  (fault.subject.toList.length - 1) '~') ++
            "\x1b[0m"
        else
          String.ofList
            ('^' ::
              List.replicate
                (fault.subject.toList.length - 1) '~')) := by
  have hBold (s : String) :
      paint true (some .red) s =
        "\x1b[1m\x1b[31m" ++ s ++ "\x1b[0m" :=
    rfl
  simp only [pointerAt, hSpan, String.ofList_toList, caret,
    margin]
  cases colour with
  | false => simp only [paint_false, Bool.false_eq_true, if_false]
  | true => simp only [hBold, if_true]

theorem infix_intercalate
    {text : String}
    {texts : List String}
    (hMem : text ∈ texts)
    (separator : String) :
    text.toList <:+:
      (separator.intercalate texts).toList := by
  induction texts with
  | nil => cases hMem
  | cons first rest ih =>
      cases rest with
      | nil =>
          rw [List.mem_singleton.mp hMem,
            String.intercalate_singleton]
      | cons next rest =>
          rw [String.intercalate_cons_cons,
            String.toList_append, String.toList_append]
          rcases List.mem_cons.mp hMem with rfl | hLater
          · rw [List.append_assoc]
            exact (List.prefix_append _ _).isInfix
          · exact
              (ih hLater).trans
                (List.suffix_append _ _).isInfix

namespace Datum

/- The texts that the parts of a term are written as. -/
def Shows
    (term : Datum)
    (text : String) : Prop :=
  ∃ part : Datum, part.Within term ∧ part.write = .ok text

/- A part of a term is written within the term. -/
theorem Within.exists_write
    {part whole : Datum}
    (hPart : part.Within whole)
    {line : String}
    (hLine : whole.write = .ok line) :
    ∃ text,
      part.write = .ok text ∧
        text.toList <:+: line.toList := by
  induction hPart generalizing line with
  | refl => exact ⟨line, hLine, List.infix_rfl⟩
  | item hItems hMem _ ih =>
      rw [write_eq_write_list hItems, write] at hLine
      rcases bind_eq_ok hLine with ⟨texts, hTexts, hWhole⟩
      cases hWhole
      rw [writeAll_eq_mapM] at hTexts
      rcases exists_mem_of_mapM_ok hTexts hMem with
        ⟨inner, hInner, hItem⟩
      rcases ih hItem with ⟨text, hText, hInfix⟩
      refine ⟨text, hText, hInfix.trans ?_⟩
      rw [String.toList_append, String.toList_append]
      exact
        (infix_intercalate hInner " ").trans
          (List.infix_append _ _ _)

namespace IsRead

variable {term : Datum}

/- What a term shows stands in the line of the term. -/
theorem infix_of_shows
    (hRead : term.IsRead)
    {line : String}
    (hLine : term.write = .ok line)
    {text : String}
    (hShows : term.Shows text) :
    text ≠ "" ∧ text.toList <:+: line.toList := by
  rcases hShows with ⟨part, hPart, hText⟩
  rcases hRead.exists_write_of_within part hPart with
    ⟨_, hSame, hNonempty⟩
  cases hText.symm.trans hSame
  rcases hPart.exists_write hLine with
    ⟨_, hAgain, hInfix⟩
  cases hText.symm.trans hAgain
  exact ⟨hNonempty, hInfix⟩

end IsRead

end Datum

end LamLang

------------------------------------------------------------
-- Names That Are Mentioned
------------------------------------------------------------

namespace LamLang

namespace Expr

variable {α : Type} {name : String}

/- An identifier of this name stands in the expression. -/
def Mentions
    (e : Expr α)
    (name : String) : Prop :=
  ∃ pos, e.at? pos = some (.ident name)

theorem mentions_ident
    (name : String) :
    (Expr.ident name : Expr α).Mentions name :=
  ⟨[], rfl⟩

/- What a part mentions is mentioned by the whole. -/
theorem Mentions.of_part?
    {e part : Expr α}
    {index : Nat}
    (hPart : e.part? index = some part)
    (hMentions : part.Mentions name) :
    e.Mentions name := by
  rcases hMentions with ⟨pos, hAt⟩
  refine ⟨index :: pos, ?_⟩
  rw [at?, hPart, Option.bind_some, hAt]

theorem Mentions.cases
    {e : Expr α}
    (hMentions : e.Mentions name) :
    e = .ident name ∨
      ∃ index part,
        e.part? index = some part ∧ part.Mentions name := by
  rcases hMentions with ⟨pos, hAt⟩
  cases pos with
  | nil =>
      cases hAt
      exact .inl rfl
  | cons index rest =>
      rcases Option.bind_eq_some_iff.mp hAt with
        ⟨part, hPart, hRest⟩
      exact .inr ⟨index, part, hPart, rest, hRest⟩

theorem Mentions.eq_of_leaf
    {e : Expr α}
    (hLeaf : ∀ index, e.part? index = none)
    (hMentions : e.Mentions name) :
    e = .ident name := by
  rcases hMentions.cases with hIdent | ⟨index, _, hPart, -⟩
  · exact hIdent
  · rw [hLeaf index] at hPart
    cases hPart

/- Every name in an expression is a symbol of its term. -/
theorem symbol_within_of_mentions
    {term : Datum}
    {e : Expr α}
    (hParsed : ofDatum term = .ok e) :
    ∀ name, e.Mentions name →
      (Datum.symbol name).Within term := by
  apply ofDatum_induction
    (motive := fun term e =>
      ∀ name, e.Mentions name →
        (Datum.symbol name).Within term)
    (h := hParsed)
  case num =>
    intro n name hMentions
    cases hMentions.eq_of_leaf fun _ => rfl
  case symbol =>
    intro other name hMentions
    cases hMentions.eq_of_leaf fun _ => rfl
    exact .refl
  case text =>
    intro s name hMentions
    cases hMentions.eq_of_leaf fun _ => rfl
  case cond =>
    intro _ _ _ _ _ _ _ hItems hTest hYes hNo name hMentions
    rcases hMentions.cases with
      hIdent | ⟨index, part, hPart, hInner⟩
    · cases hIdent
    · match index, hPart with
      | 0, hPart =>
          cases hPart
          exact .item hItems (by simp) (hTest name hInner)
      | 1, hPart =>
          cases hPart
          exact .item hItems (by simp) (hYes name hInner)
      | 2, hPart =>
          cases hPart
          exact .item hItems (by simp) (hNo name hInner)
  case lam =>
    intro _ _ _ _ _ hItems _ hBody name hMentions
    rcases hMentions.cases with
      hIdent | ⟨index, part, hPart, hInner⟩
    · cases hIdent
    · match index, hPart with
      | 0, hPart =>
          cases hPart
          exact .item hItems (by simp) (hBody name hInner)
  case app =>
    intro _ _ _ _ _ hItems _ _ _ hFn hArgs name hMentions
    rcases hMentions.cases with
      hIdent | ⟨index, part, hPart, hInner⟩
    · cases hIdent
    · match index, hPart with
      | 0, hPart =>
          cases hPart
          exact .item hItems (by simp) (hFn name hInner)
      | index + 1, hPart =>
          have hArg := List.mem_of_getElem? hPart
          rcases exists_mem_of_forall₂ hArgs hArg with
            ⟨item, hMem, hItem⟩
          exact
            .item hItems (by simp [hMem]) (hItem name hInner)

end Expr

end LamLang

------------------------------------------------------------
-- Operators By Their Names
------------------------------------------------------------

namespace LamLang

variable {α : Type} {S : String → Prop}

/-
  Values whose operators all have names of one sort, in a
  closure also the names that its body looks up.  A binding
  of an operator to its own name counts for nothing before
  the name is looked up.
-/
inductive Value.OpsIn
    (S : String → Prop) :
    Value α → Prop
| prim
    {op : String}
    (hOp : S op) :
    OpsIn S (.prim op)
| closure
    {params : List String}
    {body : Expr α}
    {env : Env α}
    (hBody : ∀ name, body.Mentions name → S name)
    (hEnv :
      ∀ binding ∈ env,
        binding.2 ≠ .prim binding.1 → OpsIn S binding.2) :
    OpsIn S (.closure params body env)
| plain
    {value : Value α}
    (hPrim : ∀ op, value ≠ .prim op)
    (hClosure :
      ∀ params body env, value ≠ .closure params body env) :
    OpsIn S value

/- Evaluations that look up names of one sort. -/
structure Call.OpsIn
    (S : String → Prop)
    (call : Call α) :
    Prop where
  node : ∀ name, call.node.Mentions name → S name
  env :
    ∀ binding ∈ call.env,
      binding.2 ≠ .prim binding.1 → binding.2.OpsIn S

/- At first every operator is bound to its own name. -/
theorem Env.opsIn_top :
    ∀ binding ∈ (Env.top : Env α),
      binding.2 ≠ .prim binding.1 →
        binding.2.OpsIn S := by
  intro binding hMem hOther
  simp only [Env.top, List.mem_cons, List.not_mem_nil,
    or_false] at hMem
  rcases hMem with
    rfl | rfl | rfl | rfl | rfl | rfl | rfl | rfl
  · exact .plain (by simp) (by simp)
  · exact .plain (by simp) (by simp)
  all_goals exact absurd rfl hOther

variable [Describe α]

/- An operator is given only where its name is looked up. -/
theorem Call.OpsIn.gives
    {call : Call α}
    {outcome : Except Failure (Value α)}
    {value : Value α}
    (hCall : call.OpsIn S)
    (hGives : call.Gives outcome)
    (hOutcome : outcome = .ok value) :
    value.OpsIn S := by
  rcases hCall with ⟨hNode, hEnv⟩
  cases hGives with
  | exceeded => cases hOutcome
  | num =>
      cases hOutcome
      exact .plain (by simp) (by simp)
  | text =>
      cases hOutcome
      exact .plain (by simp) (by simp)
  | ident =>
      rename_i name env
      unfold Env.lookup at hOutcome
      split at hOutcome
      · rename_i hFind
        cases hOutcome
        have hMem := Env.mem_of_find?_eq_some hFind
        by_cases hOwn : value = .prim name
        · rw [hOwn]
          exact .prim (hNode name (Expr.mentions_ident name))
        · exact hEnv _ hMem hOwn
      · cases hOutcome
  | lam =>
      rename_i params body env
      cases hOutcome
      have hPart :
          (Expr.lam params body).part? 0 = some body := rfl
      refine .closure (fun name hBody => ?_) hEnv
      exact hNode name (hBody.of_part? hPart)
  | foreign =>
      rcases bind_eq_ok hOutcome with
        ⟨description, -, hFailed⟩
      cases hFailed
  | unchosen hTest hChoice => cases hOutcome
  | operator hFn hArgs =>
      rcases Primitive.apply_eq_ok hOutcome with
        ⟨n, rfl⟩ | ⟨b, rfl⟩
      · exact .plain (by simp) (by simp)
      · exact .plain (by simp) (by simp)
  | unextended hFn hArgs hExtend => cases hOutcome
  | uncallable hFn hArgs hPrim hClosure =>
      rcases bind_eq_ok hOutcome with ⟨text, -, hFailed⟩
      cases hFailed

/- No evaluation finds an operator in another way. -/
theorem opsIn_invariant :
    Call.Invariant (α := α) (Call.OpsIn S)
      (Value.OpsIn S) where
  asks := by
    intro call index next hCall hAsks
    rcases hAsks.part with ⟨hPart, -, hEnv⟩
    refine ⟨?_, ?_⟩
    · intro name hMentions
      exact hCall.node name (hMentions.of_part? hPart)
    · rw [hEnv]
      exact hCall.env
  gives := fun _ _ _ => Call.OpsIn.gives
  enters := by
    intro params body captured values inner depth hClosure
      hValues hInner
    cases hClosure with
    | closure hBody hEnv =>
        refine ⟨hBody, ?_⟩
        exact
          Env.forall_mem_of_extend hEnv
            (fun value hMem _ _ => hValues value hMem) hInner
    | plain _ hNone => exact absurd rfl (hNone _ _ _)

end LamLang

------------------------------------------------------------
-- Faults That Are Pointed At
------------------------------------------------------------

namespace LamLang

namespace Failure

variable {S : String → Prop}

/-
  A failure whose subject is of one sort, if a report points
  at it and it is no value that cannot be called.
-/
def PointsInto
    (S : String → Prop)
    (failure : Failure) : Prop :=
  ∀ fault, failure.fault? = some fault →
    fault.pointed = true → fault.kind ≠ .notCallable →
      S fault.subject

theorem pointsInto_of_fault?
    {failure : Failure}
    (hNone : failure.fault? = none) :
    failure.PointsInto S := by
  intro fault hFault
  rw [hNone] at hFault
  cases hFault

theorem pointsInto_of_not_pointed
    {cause : Cause}
    (hPointed : cause.isPointed = false) :
    (Failure.cause cause).PointsInto S := by
  rintro fault ⟨⟩ hShown
  rw [Cause.fault, hPointed] at hShown
  cases hShown

theorem pointsInto_cause
    {cause : Cause}
    (hSubject : S cause.fault.subject) :
    (Failure.cause cause).PointsInto S := by
  rintro fault ⟨⟩ - -
  exact hSubject

end Failure

/- A call blames a name that it looks up. -/
theorem Call.Gives.failsOnly_pointsInto
    {S : String → Prop}
    {call : Call Empty}
    {outcome : Except Failure (Value Empty)}
    (hCall : call.OpsIn S)
    (hGives : call.Gives outcome) :
    FailsOnly (Failure.PointsInto S) outcome := by
  have hMishap :
      ∀ event ∈ Number.mishaps,
        Failure.PointsInto S (.mishap event) :=
    fun _ _ => Failure.pointsInto_of_fault? rfl
  have hWritten {value : Value Empty} :
      FailsOnly (Failure.PointsInto S) value.written :=
    Value.written_failsOnly hMishap
      (Value.native_of_isEmpty value)
  cases hGives with
  | exceeded =>
      exact .error (Failure.pointsInto_of_fault? rfl)
  | num => exact .ok _
  | text => exact .ok _
  | lam => exact .ok _
  | foreign =>
      rename_i object _
      exact nomatch object
  | ident =>
      rename_i name _
      unfold Env.lookup
      split
      · exact .ok _
      · apply FailsOnly.error
        apply Failure.pointsInto_cause
        exact hCall.node name (Expr.mentions_ident name)
  | unchosen hTest hChoice =>
      apply FailsOnly.error
      refine choose_failsOnly ?_ hWritten _ _ _ hChoice
      intro text
      exact Failure.pointsInto_of_not_pointed rfl
  | operator hFn hArgs =>
      rcases opsIn_invariant.application hCall hFn hArgs with
        ⟨hCallee, -⟩
      cases hCallee with
      | prim hOp =>
          apply Primitive.apply_failsOnly
          · intro cause hBlamed
            apply Failure.pointsInto_cause
            rw [hBlamed.subject]
            exact hOp
          · exact hMishap
          · intro hUnknown
            exact Failure.pointsInto_of_not_pointed rfl
          · intro arg hArg
            exact Value.native_of_isEmpty arg
      | plain hPrim _ => exact absurd rfl (hPrim _)
  | unextended hFn hArgs hExtend =>
      apply FailsOnly.error
      rcases Env.extend_eq_error_iff.mp hExtend with ⟨-, rfl⟩
      exact Failure.pointsInto_of_not_pointed rfl
  | uncallable hFn hArgs hPrim hClosure =>
      refine Value.refused_failsOnly ?_ hWritten
      rintro text fault ⟨⟩ - hKind
      exact absurd rfl hKind

/- An evaluation blames a name that it looks up. -/
theorem eval_failsOnly_pointsInto
    {S : String → Prop}
    {depth : Nat}
    {node : Expr Empty}
    {env : Env Empty}
    (hCall : Call.OpsIn S ⟨depth, node, env⟩) :
    FailsOnly (Failure.PointsInto S)
      (eval depth node env) := by
  rcases Call.reaches_gives ⟨depth, node, env⟩ with
    ⟨last, hReach, hGives⟩
  have hLast : last.OpsIn S :=
    opsIn_invariant.reaches hCall hReach
  exact hGives.failsOnly_pointsInto hLast

namespace Datum

/- A program starts among the symbols of its term. -/
theorem opsIn_program
    {term : Datum}
    {program : Expr Empty}
    (hParsed : Expr.ofDatum term = .ok program)
    (depth : Nat) :
    Call.OpsIn
      (fun name => (Datum.symbol name).Within term)
      ⟨depth, program, Env.top⟩ :=
  ⟨Expr.symbol_within_of_mentions hParsed, Env.opsIn_top⟩

theorem shows_symbol
    {term : Datum}
    {name : String}
    (hSymbol : (Datum.symbol name).Within term) :
    term.Shows name :=
  ⟨.symbol name, hSymbol, by rw [write]⟩

/- A parse error names the part that is refused. -/
theorem ofDatum_failsOnly_pointsInto
    (term : Datum) :
    FailsOnly (Failure.PointsInto term.Shows)
      (Expr.ofDatum term : Except Failure (Expr Empty)) := by
  apply Expr.ofDatum_failsOnly_of_parts
  · intro part hPart
    apply write_failsOnly
    intro n hNumber
    apply Number.text_failsOnly
    intro event hEvent
    exact Failure.pointsInto_of_fault? rfl
  · rintro part cause hPart ⟨-, text, hText, hExprs⟩
    apply Failure.pointsInto_cause
    rw [Cause.fault, Fault.subject, hExprs]
    exact ⟨part, hPart, hText⟩

/- Running a term fails with faults that the term shows. -/
theorem meaning_failsOnly_pointsInto
    (term : Datum)
    (depth : Nat) :
    FailsOnly (Failure.PointsInto term.Shows)
      (term.meaning depth) := by
  apply meaning_failsOnly
  · exact Failure.pointsInto_of_fault? rfl
  · exact ofDatum_failsOnly_pointsInto term
  · intro program hParsed failure hFailure
    have hNamed :=
      eval_failsOnly_pointsInto (opsIn_program hParsed depth)
        failure hFailure
    intro fault hFault hPointed hKind
    exact shows_symbol (hNamed fault hFault hPointed hKind)

/- Writing the value adds no fault. -/
theorem result_failsOnly_pointsInto
    (term : Datum)
    (depth : Nat) :
    FailsOnly (Failure.PointsInto term.Shows)
      (term.result depth) := by
  apply (term.meaning_failsOnly_pointsInto depth).bind
  intro value
  apply Value.written_failsOnly
  · intro event hEvent
    exact Failure.pointsInto_of_fault? rfl
  · exact Value.native_of_isEmpty value

end Datum

end LamLang

------------------------------------------------------------
-- Pointers
------------------------------------------------------------

namespace LamLang

/- A run that fails stays on the line of the term at fault. -/
theorem Batch.Kept.line_of_run_error
    {path : String}
    {depth : Nat}
    {batch : Batch}
    (hKept : Kept path depth batch)
    {failure : Failure}
    (hError : batch.run.result = .error failure) :
    ∃ entry ∈ batch.queue, ∃ line,
      entry.2.result depth = .error failure ∧
        entry.2.write = .ok line ∧
        batch.run.batch.reporter.places.at? path =
          some ⟨some line, some entry.1⟩ := by
  rcases hKept with ⟨rfl, rfl, hRead⟩
  rcases results_or_breaks batch.depth hRead with
    ⟨texts, hTexts⟩ | ⟨entry, other, line, hBreaks⟩
  · rw [batch.run_of_results hRead hTexts] at hError
    cases hError
  · rw [batch.run_of_breaks hRead hBreaks] at hError ⊢
    cases hError
    refine
      ⟨entry, hBreaks.runs.mem, line, hBreaks.fails,
        hBreaks.line, ?_⟩
    simp [mark, Reporter.mark]

/-
  If a term that was read fails when it is run, and a report
  points at the fault, then the subject of the fault is some
  text in the line of the term, and there is a pointer to
  it, unless the fault is a value that cannot be called.
  This line is the one that a batch is left on when a run of
  it fails, whatever was asked of the batch before.
-/
theorem pointed_faults_have_pointers :
    (∀ (source : String) (term : Datum),
      (Datum.ofSource source = .ok term ∨
        ∃ terms,
          Datum.allOfSource source = .ok terms ∧
            term ∈ terms) →
        ∃ line,
          term.write = .ok line ∧
            ∀ depth failure fault,
              term.meaning depth = .error failure →
              failure.fault? = some fault →
              fault.pointed = true →
              fault.kind ≠ .notCallable →
                fault.subject ≠ "" ∧
                  fault.subject.toList <:+: line.toList ∧
                  ∀ colour hue,
                    (fault.pointer? colour hue
                      line).isSome = true) ∧
    ∀ (reporter : Reporter) (path : String) (depth : Nat)
        (typed : Bool)
        (history : List (Bool × Batch.Action)),
      let batch :=
        (Batch.start reporter path depth typed).after
          history
      ∀ failure fault,
        batch.run.result = .error failure →
        failure.fault? = some fault →
        fault.pointed = true →
        fault.kind ≠ .notCallable →
          ∃ entry ∈ batch.queue, ∃ line,
            entry.2.result depth = .error failure ∧
              entry.2.write = .ok line ∧
              batch.run.batch.reporter.places.at? path =
                some ⟨some line, some entry.1⟩ ∧
              ∀ colour hue,
                (fault.pointer? colour hue
                  line).isSome = true := by
  refine ⟨?terms, ?batches⟩
  case terms =>
    intro source term hSource
    have hRead : term.IsRead := by
      rcases hSource with hSingle | ⟨terms, hTerms, hMem⟩
      · have hAll := Datum.ofSource_eq_ok_iff.mp hSingle
        exact ⟨source, [term], hAll, by simp⟩
      · exact ⟨source, terms, hTerms, hMem⟩
    rcases hRead.exists_write with ⟨line, hLine, -⟩
    refine ⟨line, hLine, ?_⟩
    intro depth failure fault hMeaning hFault hPointed hKind
    have hShows :=
      term.meaning_failsOnly_pointsInto depth failure
        hMeaning fault hFault hPointed hKind
    have hStands := hRead.infix_of_shows hLine hShows
    refine ⟨hStands.1, hStands.2, ?_⟩
    intro colour hue
    exact Fault.pointer?_isSome_iff.mpr hStands
  case batches =>
    intro reporter path depth typed history batch failure
      fault hResult hFault hPointed hKind
    have hKept : batch.Kept path depth :=
      (Batch.kept_start reporter path depth typed).after
        history
    rcases hKept.line_of_run_error hResult with
      ⟨entry, hMem, line, hFails, hLine, hPlace⟩
    have hShows :=
      entry.2.result_failsOnly_pointsInto depth failure
        hFails fault hFault hPointed hKind
    have hStands :=
      (hKept.read entry hMem).isRead.infix_of_shows hLine
        hShows
    refine ⟨entry, hMem, line, hFails, hLine, hPlace, ?_⟩
    intro colour hue
    exact Fault.pointer?_isSome_iff.mpr hStands

/- An operator that is handed on and called by a parameter. -/
def Datum.handedSource : String := "((lam (f) (f 1)) +)"

def Datum.handed : Datum :=
  .list
    [.list
      [.symbol "lam", .list [.symbol "f"],
        .list [.symbol "f", .num (.int 1)]],
     .symbol "+"]

theorem pointed_faults_have_pointers_handed :
    Datum.ofSource Datum.handedSource = .ok Datum.handed ∧
      Datum.handed.meaning 4 =
        .error (.cause (.primitiveArity "+" 1)) ∧
      ("+".toList <:+: Datum.handedSource.toList ∧
        ((Cause.primitiveArity "+" 1).fault.pointer? false
          .red Datum.handedSource).isSome = true) ∧
      ((Batch.start (.fresh false false) "<in>" 4
        true).after [(false, .add Datum.handedSource 7)]
        ).run.batch.reporter.places.at? "<in>" =
          some ⟨some Datum.handedSource, some 7⟩ := by
  have hSource :
      Datum.ofSource Datum.handedSource =
        .ok Datum.handed :=
    rfl
  have hMeaning :
      Datum.handed.meaning 4 =
        .error (.cause (.primitiveArity "+" 1)) :=
    rfl
  have hLine :
      Datum.handed.write = .ok Datum.handedSource := by
    decide +kernel
  have hRun :
      ((Batch.start (.fresh false false) "<in>" 4
        true).after [(false, .add Datum.handedSource 7)]
        ).run.result =
          .error (.cause (.primitiveArity "+" 1)) := by
    decide +kernel
  rcases pointed_faults_have_pointers with
    ⟨hTerms, hBatches⟩
  refine ⟨hSource, hMeaning, ?_, ?_⟩
  · rcases hTerms _ _ (.inl hSource) with
      ⟨line, hWritten, hFound⟩
    cases hLine.symm.trans hWritten
    rcases hFound 4 _ _ hMeaning rfl rfl (by decide) with
      ⟨-, hInfix, hPointer⟩
    exact ⟨hInfix, hPointer false .red⟩
  · rcases hBatches _ _ _ _ _ _ _ hRun rfl rfl
      (by decide) with
      ⟨entry, hMem, line, -, hWritten, hPlace, -⟩
    have hQueue : entry = (7, Datum.handed) :=
      List.mem_singleton.mp hMem
    subst hQueue
    cases hLine.symm.trans hWritten
    exact hPlace

end LamLang
