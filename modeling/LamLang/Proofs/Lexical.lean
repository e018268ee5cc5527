import LamLang.Proofs.Calls
import LamLang.Proofs.Names

/-
  Lexical scope of evaluation.

  A position in a program is the list of part numbers that
  lead to it.  `Visits` follows an evaluation and keeps for
  every call the position of its expression; the body of a
  closure stands below the lambda that made the closure.
  Every call is found in this way, since each closure at
  hand stems from a lambda that was visited, and at each of
  them the names bound are those of the lambdas around the
  position.

  Key definitions include:
    * `LamLang.Expr.at?`
    * `LamLang.Expr.enclosing`
    * `LamLang.Visits`
    * `LamLang.Value.Stems`

  Main statements:
    * `LamLang.Expr.mem_free_of_at?`
    * `LamLang.Visits.names_eq`
    * `LamLang.reaches_visits`
    * `LamLang.calls_lexically_scoped`
-/

------------------------------------------------------------
-- Positions
------------------------------------------------------------

namespace LamLang

/- The numbers of the parts on the way to a position. -/
abbrev Position := List Nat

namespace Expr

variable {α : Type}

/- A part of an expression, numbered from the left. -/
def part? : Expr α → Nat → Option (Expr α)
| .cond test _ _, 0 => some test
| .cond _ yes _, 1 => some yes
| .cond _ _ no, 2 => some no
| .lam _ body, 0 => some body
| .app fn _, 0 => some fn
| .app _ args, index + 1 => args[index]?
| _, _ => none

/- The parameter lists that an expression adds to a scope. -/
def binders : Expr α → List (List String)
| .lam params _ => [params]
| _ => []

/- The expression at a position. -/
def at? : Expr α → Position → Option (Expr α)
| e, [] => some e
| e, index :: rest =>
    (e.part? index).bind fun part => part.at? rest

/-
  The parameter lists of the lambdas around a position,
  innermost first.
-/
def enclosing : Expr α → Position → List (List String)
| _, [] => []
| e, index :: rest =>
    match e.part? index with
    | some part => part.enclosing rest ++ e.binders
    | none => []

/- One step further down from a position. -/
theorem at?_snoc
    {e inner part : Expr α}
    {pos : Position}
    {index : Nat}
    (hInner : e.at? pos = some inner)
    (hPart : inner.part? index = some part) :
    e.at? (pos ++ [index]) = some part := by
  induction pos generalizing e with
  | nil =>
      cases hInner
      simp [at?, hPart]
  | cons first rest ih =>
      rcases Option.bind_eq_some_iff.mp hInner with
        ⟨next, hNext, hRest⟩
      simp [at?, hNext, ih hRest]

theorem enclosing_snoc
    {e inner part : Expr α}
    {pos : Position}
    {index : Nat}
    (hInner : e.at? pos = some inner)
    (hPart : inner.part? index = some part) :
    e.enclosing (pos ++ [index]) =
      inner.binders ++ e.enclosing pos := by
  induction pos generalizing e with
  | nil =>
      cases hInner
      simp [enclosing, hPart]
  | cons first rest ih =>
      rcases Option.bind_eq_some_iff.mp hInner with
        ⟨next, hNext, hRest⟩
      simp [enclosing, hNext, ih hRest]

/- What is free in a part is free outside, if not bound. -/
theorem mem_free_of_part?
    {name : String}
    {e part : Expr α}
    {index : Nat}
    (hPart : e.part? index = some part)
    (hFree : name ∈ part.free)
    (hBinders : name ∉ e.binders.flatten) :
    name ∈ e.free := by
  unfold part? at hPart
  split at hPart
  · cases hPart
    simp [hFree]
  · cases hPart
    simp [hFree]
  · cases hPart
    simp [hFree]
  · cases hPart
    simpa [binders, hFree] using hBinders
  · cases hPart
    simp [hFree]
  · have hMem := List.mem_of_getElem? hPart
    exact (mem_free_app _ _ _).mpr (.inr ⟨_, hMem, hFree⟩)
  · cases hPart

/- An occurrence that no lambda around it binds is free. -/
theorem mem_free_of_at?
    {name : String}
    {e : Expr α}
    {pos : Position}
    (hAt : e.at? pos = some (.ident name))
    (hEnclosing : name ∉ (e.enclosing pos).flatten) :
    name ∈ e.free := by
  induction pos generalizing e with
  | nil =>
      cases hAt
      simp
  | cons index rest ih =>
      rcases Option.bind_eq_some_iff.mp hAt with
        ⟨part, hPart, hRest⟩
      simp only [enclosing, hPart, List.flatten_append,
        List.mem_append, not_or] at hEnclosing
      rcases hEnclosing with ⟨hInner, hBinders⟩
      exact mem_free_of_part? hPart (ih hRest hInner) hBinders

end Expr

end LamLang

------------------------------------------------------------
-- Visits
------------------------------------------------------------

namespace LamLang

variable {α : Type} [Describe α]

/-
  The calls of the evaluation of a program within a bound on
  depth, each with the position of its expression.  A call
  for a part goes one step down.  A call that enters a
  closure goes below the lambda whose visit made it.
-/
inductive Visits
    (program : Expr α)
    (bound : Nat) :
    Position → Call α → Prop
| root : Visits program bound [] ⟨bound, program, Env.top⟩
| part
    {pos : Position}
    {index : Nat}
    {call next : Call α}
    (hCall : Visits program bound pos call)
    (hAsks : call.Asks index next) :
    Visits program bound (pos ++ [index]) next
| body
    {pos site : Position}
    {depth : Nat}
    {params : List String}
    {body : Expr α}
    {captured : Env α}
    {call next : Call α}
    (hCall : Visits program bound pos call)
    (hEnters : call.Enters params body captured next)
    (hMade :
      Visits program bound site
        ⟨depth + 1, .lam params body, captured⟩) :
    Visits program bound (site ++ [0]) next

/- What is asked for is a part, and parts bind nothing. -/
theorem Call.Asks.part
    {index : Nat}
    {call next : Call α}
    (h : call.Asks index next) :
    call.node.part? index = some next.node ∧
      call.node.binders = [] ∧
      next.env = call.env := by
  cases h with
  | arg hFn hBefore =>
      refine ⟨?_, rfl, rfl⟩
      simp [Expr.part?]
  | _ => exact ⟨rfl, rfl, rfl⟩

/- A body is entered with its parameters bound in front. -/
theorem Call.Enters.frame
    {params : List String}
    {body : Expr α}
    {captured : Env α}
    {call next : Call α}
    (h : call.Enters params body captured next) :
    next.node = body ∧
      next.env.names = params ++ captured.names := by
  cases h with
  | intro hFn hArgs hInner =>
      exact ⟨rfl, Env.names_of_extend hInner⟩

namespace Visits

variable {program : Expr α} {bound : Nat}

/- A position visited is one of the program. -/
theorem at?_eq
    {pos : Position}
    {call : Call α}
    (h : Visits program bound pos call) :
    program.at? pos = some call.node := by
  induction h with
  | root => rfl
  | part hCall hAsks ih =>
      exact Expr.at?_snoc ih hAsks.part.1
  | body hCall hEnters hMade ih ihMade =>
      rw [hEnters.frame.1]
      exact Expr.at?_snoc ihMade rfl

/-
  The names bound at a call are the parameters of the
  lambdas around its position, before the initial names.
-/
theorem names_eq
    {pos : Position}
    {call : Call α}
    (h : Visits program bound pos call) :
    call.env.names =
      (program.enclosing pos).flatten ++
        (Env.top : Env α).names := by
  induction h with
  | root => rfl
  | part hCall hAsks ih =>
      rcases hAsks.part with ⟨hPart, hBinders, hEnv⟩
      rw [hEnv, ih,
        Expr.enclosing_snoc hCall.at?_eq hPart, hBinders]
      rfl
  | body hCall hEnters hMade ih ihMade =>
      rename_i params body captured _ _
      have hPart :
          (Expr.lam params body).part? 0 = some body := rfl
      rw [hEnters.frame.2,
        Expr.enclosing_snoc hMade.at?_eq hPart]
      simp only [Expr.binders, List.singleton_append,
        List.flatten_cons, List.append_assoc]
      exact congrArg (params ++ ·) ihMade

end Visits

end LamLang

------------------------------------------------------------
-- Where Closures Stem From
------------------------------------------------------------

namespace LamLang

variable {α : Type} [Describe α]

/-
  A value that stems from visits: if it is a closure, a
  lambda was visited in the environment that it keeps, and
  so for all values that are found there.
-/
inductive Value.Stems
    (program : Expr α)
    (bound : Nat) :
    Value α → Prop
| plain
    {value : Value α}
    (hPlain :
      ∀ params body env, value ≠ .closure params body env) :
    Stems program bound value
| closure
    {site : Position}
    {depth : Nat}
    {params : List String}
    {body : Expr α}
    {env : Env α}
    (hMade :
      Visits program bound site
        ⟨depth + 1, .lam params body, env⟩)
    (hEnv :
      ∀ name value, env.find? name = some value →
        Stems program bound value) :
    Stems program bound (.closure params body env)

/- All values found in an environment stem from visits. -/
def Env.Stems
    (program : Expr α)
    (bound : Nat)
    (env : Env α) : Prop :=
  ∀ name value, env.find? name = some value →
    value.Stems program bound

variable {program : Expr α} {bound : Nat}

/- No initial binding is a closure. -/
theorem Env.stems_top :
    Env.Stems program bound Env.top := by
  intro name value hFind
  rcases Env.find?_top_eq_some hFind with
    ⟨b, rfl⟩ | ⟨op, rfl⟩
  · exact .plain (by simp)
  · exact .plain (by simp)

theorem Env.Stems.extend
    {env inner : Env α}
    {params : List String}
    {values : List (Value α)}
    (hEnv : env.Stems program bound)
    (hValues :
      ∀ value ∈ values, value.Stems program bound)
    (hInner : env.extend params values = .ok inner) :
    inner.Stems program bound := by
  rcases Env.extend_eq_ok_iff.mp hInner with ⟨hLength, rfl⟩
  intro name value hFind
  rw [Env.find?_zip_append _ _ _ _ hLength] at hFind
  split at hFind
  · exact hValues value (List.mem_of_getElem? hFind)
  · exact hEnv name value hFind

/- What a call gives by itself stems from visits. -/
theorem Call.Gives.stems
    {pos : Position}
    {call : Call α}
    {outcome : Except Failure (Value α)}
    {value : Value α}
    (hCall : Visits program bound pos call)
    (hEnv : call.env.Stems program bound)
    (hGives : call.Gives outcome)
    (hOutcome : outcome = .ok value) :
    value.Stems program bound := by
  cases hGives with
  | exceeded => cases hOutcome
  | num =>
      cases hOutcome
      exact .plain (by simp)
  | text =>
      cases hOutcome
      exact .plain (by simp)
  | ident =>
      unfold Env.lookup at hOutcome
      split at hOutcome
      · rename_i hFind
        cases hOutcome
        exact hEnv _ _ hFind
      · cases hOutcome
  | lam =>
      cases hOutcome
      exact .closure hCall hEnv
  | foreign =>
      rcases bind_eq_ok hOutcome with
        ⟨description, -, hFailed⟩
      cases hFailed
  | unchosen hTest hChoice => cases hOutcome
  | operator hFn hArgs =>
      rcases Primitive.apply_eq_ok hOutcome with
        ⟨n, rfl⟩ | ⟨b, rfl⟩
      · exact .plain (by simp)
      · exact .plain (by simp)
  | unextended hFn hArgs hExtend => cases hOutcome
  | uncallable hFn hArgs hPrim hClosure =>
      rcases bind_eq_ok hOutcome with ⟨text, -, hFailed⟩
      cases hFailed

/-
  At a given depth, the values of calls that were visited,
  in environments that stem from visits, stem from them too.
-/
def StemsAt
    (program : Expr α)
    (bound depth : Nat) : Prop :=
  ∀ pos node env value,
    Visits program bound pos ⟨depth, node, env⟩ →
      env.Stems program bound →
      eval depth node env = .ok value →
      value.Stems program bound

/-
  The calls that a visited call makes are visited, if this
  is known of the values that they are made with.
-/
theorem Visits.makes
    {pos : Position}
    {depth : Nat}
    {node : Expr α}
    {env : Env α}
    {next : Call α}
    (hStems : StemsAt program bound depth)
    (hCall :
      Visits program bound pos ⟨depth + 1, node, env⟩)
    (hEnv : env.Stems program bound)
    (hMakes : Call.Makes ⟨depth + 1, node, env⟩ next) :
    (∃ pos', Visits program bound pos' next) ∧
      next.env.Stems program bound := by
  rcases hMakes with
    ⟨index, hAsks⟩ | ⟨params, body, captured, hEnters⟩
  · rw [hAsks.part.2.2]
    exact ⟨⟨_, hCall.part hAsks⟩, hEnv⟩
  · cases hEnters with
    | intro hFn hArgs hInner =>
        have hCallee :=
          hStems _ _ _ _ (hCall.part .fn) hEnv hFn
        cases hCallee with
        | plain hPlain => exact absurd rfl (hPlain _ _ _)
        | closure hMade hCaptured =>
            refine
              ⟨⟨_, hCall.body (.intro hFn hArgs hInner)
                hMade⟩, ?_⟩
            refine
              Env.Stems.extend hCaptured ?_ hInner
            intro value hValue
            rcases mapM_ok_mem hArgs hValue with
              ⟨arg, ⟨before, after, earlier, rfl, hBefore⟩,
                hArg⟩
            exact
              hStems _ _ _ _ (hCall.part (.arg hFn hBefore))
                hEnv hArg

theorem stemsAt
    (depth : Nat) :
    StemsAt program bound depth := by
  induction depth with
  | zero =>
      intro pos node env value hCall hEnv hValue
      cases hValue
  | succ depth ih =>
      intro pos node env value hCall hEnv hValue
      rcases Call.gives_or_makes ⟨depth + 1, node, env⟩ with
        hGives | ⟨next, hMakes, hOutcome⟩
      · exact hGives.stems hCall hEnv hValue
      · rcases hCall.makes ih hEnv hMakes with
          ⟨⟨pos', hNext⟩, hNextEnv⟩
        have hDepth : next.depth = depth := by
          have hSucc := hMakes.depth_eq
          simpa using hSucc.symm
        rcases next with ⟨nextDepth, nextNode, nextEnv⟩
        cases hDepth
        exact
          ih _ _ _ _ hNext hNextEnv (hOutcome.trans hValue)

/- Every call that an evaluation reaches is visited. -/
theorem reaches_visits
    {call : Call α}
    (h :
      Relation.ReflTransGen Call.Makes
        ⟨bound, program, Env.top⟩ call) :
    (∃ pos, Visits program bound pos call) ∧
      call.env.Stems program bound := by
  induction h with
  | refl => exact ⟨⟨[], .root⟩, Env.stems_top⟩
  | tail hReach hMakes ih =>
      rename_i last next
      rcases ih with ⟨⟨pos, hLast⟩, hEnv⟩
      rcases last with ⟨depth, node, env⟩
      have hDepth : depth = next.depth + 1 :=
        hMakes.depth_eq
      cases hDepth
      exact hLast.makes (stemsAt next.depth) hEnv hMakes

end LamLang

------------------------------------------------------------
-- Scope Of Evaluation
------------------------------------------------------------

namespace LamLang

/- Only an unbound name gives the kind of fault for it. -/
theorem Cause.eq_unbound_of_kind
    {cause : Cause}
    (h : cause.kind = .unboundIdentifier) :
    ∃ name, cause = .unbound name := by
  cases cause with
  | unbound name => exact ⟨name, rfl⟩
  | _ => simp [Cause.kind] at h

/- Only names that are free in a program are found unbound. -/
theorem unbound_mem_free
    {program : Program}
    {bound : Nat}
    {name : String}
    (h :
      eval bound program Env.top =
        .error (.cause (.unbound name))) :
    name ∈ program.free ∧
      name ∉ (Env.top : Env Empty).names := by
  have hOutcome :
      Call.outcome ⟨bound, program, Env.top⟩ =
        .error (.cause (.unbound name)) := h
  rcases Call.reaches_unbound hOutcome with
    ⟨last, hReach, hNode, hNone⟩
  rcases reaches_visits hReach with ⟨⟨pos, hLast⟩, -⟩
  have hAt := hLast.at?_eq
  rw [hNode] at hAt
  have hNames := (Env.find?_eq_none_iff _ _).mp hNone
  rw [hLast.names_eq, List.mem_append, not_or] at hNames
  rcases hNames with ⟨hEnclosing, hTop⟩
  exact ⟨Expr.mem_free_of_at? hAt hEnclosing, hTop⟩

/-
  Every call that the evaluation of a program reaches is
  visited, and wherever it is visited, the names bound are
  the parameters of the lambdas around, innermost first,
  before the initial names; so that names are found where
  the program text says.  Hence only free names other than
  the initial ones can be unbound, and none if there are no
  such names.
-/
theorem calls_lexically_scoped
    (program : Program)
    (bound : Nat) :
    (∀ call,
      Relation.ReflTransGen Call.Makes
          ⟨bound, program, Env.top⟩ call →
        (∃ pos, Visits program bound pos call) ∧
        ∀ pos, Visits program bound pos call →
          program.at? pos = some call.node ∧
          call.env.names =
            (program.enclosing pos).flatten ++
              (Env.top : Env Empty).names ∧
          ∀ name,
            call.env.find? name =
              (((program.enclosing pos).flatten ++
                (Env.top : Env Empty).names).idxOf?
                  name).bind fun index =>
                    (call.env.map Prod.snd)[index]?) ∧
    (∀ name,
      eval bound program Env.top =
          .error (.cause (.unbound name)) →
        name ∈ program.free ∧
          name ∉ (Env.top : Env Empty).names) ∧
    ((∀ name ∈ program.free,
        name ∈ (Env.top : Env Empty).names) →
      ∀ cause,
        eval bound program Env.top =
            .error (.cause cause) →
          cause.kind ≠ .unboundIdentifier) := by
  refine ⟨?_, fun name h => unbound_mem_free h, ?_⟩
  · intro call hReach
    refine ⟨(reaches_visits hReach).1, ?_⟩
    intro pos hVisits
    refine ⟨hVisits.at?_eq, hVisits.names_eq, ?_⟩
    intro name
    rw [← hVisits.names_eq]
    exact Env.find?_eq_bind_idxOf? name call.env
  · intro hClosed cause hFails hKind
    rcases Cause.eq_unbound_of_kind hKind with ⟨name, rfl⟩
    rcases unbound_mem_free hFails with ⟨hFree, hTop⟩
    exact hTop (hClosed name hFree)

/-
  A closure that is called outside the lambda that made it
  and looks up a free name.
-/
def Program.escaping : Program :=
  .app
    (.app (.lam ["x"] (.lam ["y"] (.ident "z")))
      [.text "a"])
    [.text "b"]

/- A program with no names but its own and initial ones. -/
def Program.doubledText : Program :=
  .app
    (.lam ["x"]
      (.app (.ident "+") [.ident "x", .ident "x"]))
    [.text "a"]

theorem calls_lexically_scoped_escaping :
    (∃ call,
      Relation.ReflTransGen Call.Makes
          ⟨3, Program.escaping, Env.top⟩ call ∧
        Visits Program.escaping 3 [0, 0, 0, 0] call ∧
        call.env.names =
          ["y", "x"] ++ (Env.top : Env Empty).names) ∧
    eval 3 Program.escaping Env.top =
      .error (.cause (.unbound "z")) ∧
    ("z" ∈ Program.escaping.free ∧
      "z" ∉ (Env.top : Env Empty).names) ∧
    ∀ cause,
      eval 4 Program.doubledText Env.top =
          .error (.cause cause) →
        cause.kind ≠ .unboundIdentifier := by
  have hUnbound :
      eval 3 Program.escaping Env.top =
        .error (.cause (.unbound "z")) := by rfl
  have hInner :
      Visits Program.escaping 3 [0]
        ⟨2, .app (.lam ["x"] (.lam ["y"] (.ident "z")))
          [.text "a"], Env.top⟩ :=
    Visits.root.part .fn
  have hMade :
      Visits Program.escaping 3 [0, 0, 0]
        ⟨1, .lam ["y"] (.ident "z"),
          ("x", .text "a") :: Env.top⟩ :=
    hInner.body (.intro rfl rfl rfl) (hInner.part .fn)
  have hEnters :
      Call.Enters ⟨3, Program.escaping, Env.top⟩ ["y"]
        (.ident "z") (("x", .text "a") :: Env.top)
        ⟨2, .ident "z",
          ("y", .text "b") :: ("x", .text "a") ::
            Env.top⟩ :=
    .intro rfl rfl rfl
  have hMakes :
      Call.Makes ⟨3, Program.escaping, Env.top⟩ _ :=
    .inr ⟨_, _, _, hEnters⟩
  have hReach := Relation.ReflTransGen.single hMakes
  have hVisits := Visits.root.body hEnters hMade
  rcases calls_lexically_scoped Program.escaping 3 with
    ⟨hCalls, hFree, -⟩
  rcases (hCalls _ hReach).2 _ hVisits with ⟨-, hNames, -⟩
  refine
    ⟨⟨_, hReach, hVisits, hNames⟩, hUnbound,
      hFree "z" hUnbound, ?_⟩
  apply (calls_lexically_scoped Program.doubledText 4).2.2
  decide

end LamLang
