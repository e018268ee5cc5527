import LamLang.Proofs.Names

/-
  How bindings hide each other.

  Bindings are put in front of an environment one by one,
  from the last on, so they stand there in order and the
  first of a name hides the others.  A name is looked up at
  its first position among the new names, and only a name
  that is not among them is looked up behind.  Extending
  twice is extending once by the later names and then the
  earlier ones.

  Key definitions include:
    * `LamLang.Failure.Reports`

  Main statements:
    * `LamLang.Env.ofBindings_eq`
    * `LamLang.Env.extend_extend_iff`
    * `LamLang.Env.lookup_of_extend`
    * `LamLang.bindings_hide_in_order`
-/

------------------------------------------------------------
-- Bindings In Front
------------------------------------------------------------

namespace LamLang

namespace Env

variable {α : Type}
variable {env inner : Env α}
variable {names : List String}
variable {values : List (Value α)}

theorem ofBindings_eq
    (bindings : List (String × Value α)) :
    ofBindings bindings = bindings := by
  unfold ofBindings
  rw [bindAll_eq, List.reverse_reverse, List.append_nil]

/- Two extensions are one by all names, the later first. -/
theorem extend_extend_iff
    {outer : Env α}
    (hInner : env.extend names values = .ok inner)
    (later : List String)
    (others : List (Value α)) :
    inner.extend later others = .ok outer ↔
      env.extend (later ++ names) (others ++ values) =
        .ok outer := by
  rcases extend_eq_ok_iff.mp hInner with ⟨hLength, rfl⟩
  rw [extend_eq_ok_iff, extend_eq_ok_iff,
    List.length_append, List.length_append]
  constructor
  · rintro ⟨hLater, rfl⟩
    refine ⟨by omega, ?_⟩
    rw [List.zip_append hLater, List.append_assoc]
  · rintro ⟨hBoth, rfl⟩
    have hLater : later.length = others.length := by omega
    refine ⟨hLater, ?_⟩
    rw [List.zip_append hLater, List.append_assoc]

theorem extend_nil_eq_ofBindings
    (hLength : names.length = values.length) :
    extend [] names values =
      .ok (ofBindings (names.zip values)) := by
  rw [ofBindings_eq, extend_eq_ok_iff, List.append_nil]
  exact ⟨hLength, rfl⟩

end Env

end LamLang

------------------------------------------------------------
-- Names In Front
------------------------------------------------------------

namespace LamLang

namespace Env

variable {α : Type}
variable {env inner : Env α}
variable {names : List String}
variable {values : List (Value α)}
variable {name : String}

theorem lookup_eq_ok_iff
    {value : Value α} :
    env.lookup name = .ok value ↔
      env.find? name = some value := by
  unfold lookup
  cases env.find? name <;> simp

/- A lookup fails for names that are not bound only. -/
theorem lookup_eq_error_iff
    {failure : Failure} :
    env.lookup name = .error failure ↔
      name ∉ env.names ∧
        failure = .cause (.unbound name) := by
  rw [← find?_eq_none_iff]
  unfold lookup
  cases env.find? name <;> simp [eq_comm]

/- The first of several bindings of a name is found. -/
theorem lookup_of_extend
    {index : Nat}
    (hInner : env.extend names values = .ok inner)
    (hFirst : names.idxOf? name = some index) :
    ∃ value,
      values[index]? = some value ∧
        inner.lookup name = .ok value := by
  rcases extend_eq_ok_iff.mp hInner with ⟨hLength, rfl⟩
  rcases List.idxOf?_eq_some_iff.mp hFirst with ⟨hBound, -⟩
  have hValue : index < values.length := hLength ▸ hBound
  refine
    ⟨values[index], List.getElem?_eq_getElem hValue, ?_⟩
  rw [lookup_eq_ok_iff, find?_zip_append _ _ _ _ hLength,
    hFirst]
  exact List.getElem?_eq_getElem hValue

/- A name that is not bound anew means what it did. -/
theorem lookup_of_extend_of_not_mem
    (hInner : env.extend names values = .ok inner)
    (hName : name ∉ names) :
    inner.lookup name = env.lookup name := by
  rcases extend_eq_ok_iff.mp hInner with ⟨hLength, rfl⟩
  unfold lookup
  rw [find?_zip_append_of_not_mem env hLength hName]

end Env

end LamLang

------------------------------------------------------------
-- Hidden Bindings
------------------------------------------------------------

namespace LamLang

variable {α : Type}

/- A failure reports a fault of a kind, and these texts. -/
def Failure.Reports
    (failure : Failure)
    (kind : Fault.Kind)
    (texts : List String) : Prop :=
  ∃ fault,
    failure.fault? = some fault ∧
      fault.kind = kind ∧ fault.exprs = texts

/-
  An extension fails for a wrong number of values only.  Else
  its bindings stand in order before those of the
  environment, as if they had been put there one by one from
  the last on.  A name has the value at its first position
  among the new names; a name that is not there keeps its
  meaning, and has none if it is not bound behind either.
  Two extensions are one by the later names and the earlier
  ones, and an environment of given bindings extends the
  empty one by them.
-/
theorem bindings_hide_in_order
    (env : Env α)
    (names : List String)
    (values : List (Value α)) :
    ((∃ failure, env.extend names values = .error failure) ↔
      names.length ≠ values.length) ∧
    (∀ failure,
      env.extend names values = .error failure →
        failure.Reports .arity
          [names.length.repr, values.length.repr]) ∧
    (names.length = values.length →
      env.extend names values =
          .ok (names.zip values ++ env) ∧
        env.extend names values =
          .ok
            (env.bindAll
              (names.reverse.zip values.reverse)) ∧
        Env.extend [] names values =
          .ok (Env.ofBindings (names.zip values))) ∧
    ∀ inner, env.extend names values = .ok inner →
      (∀ name index,
        names.idxOf? name = some index →
          ∃ value,
            values[index]? = some value ∧
              inner.lookup name = .ok value) ∧
      (∀ name, name ∉ names →
        inner.lookup name = env.lookup name) ∧
      (∀ name,
        (∃ failure, inner.lookup name = .error failure) ↔
          name ∉ names ∧ name ∉ env.names) ∧
      (∀ name failure,
        inner.lookup name = .error failure →
          failure.Reports .unboundIdentifier [name]) ∧
      ∀ later others outer,
        inner.extend later others = .ok outer ↔
          env.extend (later ++ names) (others ++ values) =
            .ok outer := by
  refine ⟨?refused, ?arity, ?bound, ?inner⟩
  case refused =>
    simp [Env.extend_eq_error_iff]
  case arity =>
    intro failure hError
    rcases Env.extend_eq_error_iff.mp hError with ⟨-, rfl⟩
    exact ⟨_, rfl, rfl, rfl⟩
  case bound =>
    intro hLength
    refine ⟨?_, ?_, ?_⟩
    · exact Env.extend_eq_ok_iff.mpr ⟨hLength, rfl⟩
    · exact if_pos hLength
    · exact Env.extend_nil_eq_ofBindings hLength
  case inner =>
    intro inner hInner
    refine ⟨?first, ?behind, ?unbound, ?named, ?twice⟩
    case first =>
      intro name index hFirst
      exact Env.lookup_of_extend hInner hFirst
    case behind =>
      intro name hName
      exact Env.lookup_of_extend_of_not_mem hInner hName
    case unbound =>
      intro name
      simp [Env.lookup_eq_error_iff,
        Env.names_of_extend hInner]
    case named =>
      intro name failure hError
      rcases Env.lookup_eq_error_iff.mp hError with ⟨-, rfl⟩
      exact ⟨_, rfl, rfl, rfl⟩
    case twice =>
      intro later others outer
      exact Env.extend_extend_iff hInner later others

/- Three bindings, two of them of one name. -/
def Env.repeatedNames : List String := ["x", "true", "x"]

/- The values of these bindings. -/
def Env.repeatedValues : List (Value Empty) :=
  [.num (.int 1), .bool false, .num (.int 2)]

/-
  A name that is bound twice, one that hides an initial
  binding, one that does not and one that is not bound.
-/
theorem bindings_hide_in_order_repeated :
    ∃ inner : Env Empty,
      Env.top.extend Env.repeatedNames Env.repeatedValues =
          .ok inner ∧
        inner.lookup "x" = .ok (.num (.int 1)) ∧
        inner.lookup "true" = .ok (.bool false) ∧
        inner.lookup "false" = Env.top.lookup "false" ∧
        (∃ failure,
          inner.lookup "y" = .error failure ∧
            failure.Reports .unboundIdentifier ["y"]) ∧
        ∃ failure,
          inner.extend ["z"] [] = .error failure ∧
            failure.Reports .arity ["1", "0"] := by
  rcases bindings_hide_in_order Env.top Env.repeatedNames
    Env.repeatedValues with ⟨-, -, hBound, hInner⟩
  rcases hBound rfl with ⟨hExtend, -⟩
  rcases hInner _ hExtend with
    ⟨hFirst, hBehind, hUnbound, hNamed, -⟩
  rcases hFirst "x" 0 rfl with ⟨_, ⟨⟩, hTwice⟩
  rcases hFirst "true" 1 rfl with ⟨_, ⟨⟩, hHidden⟩
  rcases (hUnbound "y").mpr ⟨by decide, by decide⟩ with
    ⟨failure, hError⟩
  rcases bindings_hide_in_order
    (Env.repeatedNames.zip Env.repeatedValues ++ Env.top)
    ["z"] [] with ⟨hRefused, hArity, -⟩
  rcases hRefused.mpr (by decide) with ⟨refusal, hRefusal⟩
  exact
    ⟨_, hExtend, hTwice, hHidden,
      hBehind "false" (by decide),
      ⟨failure, hError, hNamed "y" failure hError⟩,
      refusal, hRefusal, hArity refusal hRefusal⟩

end LamLang
