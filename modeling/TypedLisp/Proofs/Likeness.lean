import Mathlib.Logic.Function.Basic
import TypedLisp.Proofs.Lockstep
import TypedLisp.Proofs.Renaming

/-!
# Registries that are alike

Registries can be alike in more than one way: they may differ in the handles of scopes
only, or one of them may have types that the other lacks. A `Registry.Likeness` is such a
relation between registries, up to a renaming of the handles of types and of scopes,
together with the names that may be declared.

Steps that are run side by side on registries that are alike leave such registries behind,
and have the same outcome up to the handles of types (`Registry.InStep`). A likeness is
lawful (`Likeness.Lawful`) when this holds of every step that checking takes on types.
-/

set_option autoImplicit false

namespace TypedLisp

namespace Registry

variable {left right before after : Registry} {onTypes later : TypeId → TypeId} {id : TypeId}

theorem Grows.has (grows : Grows before after) (has : before.Has id) : after.Has id := by
  obtain ⟨type, found⟩ := has
  exact ⟨type, grows.types found⟩

theorem has_initial (primitive : id.index < 4) : initial.Has id := by
  obtain ⟨index⟩ := id
  match index with
  | 0 | 1 | 2 | 3 => exact ⟨_, rfl⟩
  | _ + 4 =>
      simp only at primitive
      omega

/-! ## Steps side by side -/

/-- Two types correspond. -/
structure Copied (onTypes : TypeId → TypeId) (left : Registry) (id other : TypeId) : Prop where
  has : left.Has id
  same : other = onTypes id

/-- Two steps that are run on related registries leave related ones behind, and fail in
the same way or succeed with values that correspond. -/
def InStep {α β : Type} (related : (TypeId → TypeId) → Registry → Registry → Prop)
    (onTypes : TypeId → TypeId) (left right : Registry) (step : RegistryM α)
    (other : RegistryM β) (good : (TypeId → TypeId) → Registry → α → β → Prop) : Prop :=
  ∃ later : TypeId → TypeId, (∀ {id : TypeId}, left.Has id → later id = onTypes id) ∧
    Grows left (step.run.run left).2 ∧
    related later (step.run.run left).2 (other.run.run right).2 ∧
    Answers (good later (step.run.run left).2) (step.run.run left).1 (other.run.run right).1

namespace InStep

variable {related : (TypeId → TypeId) → Registry → Registry → Prop} {α β : Type}
  {step : RegistryM α} {other : RegistryM β}
  {good : (TypeId → TypeId) → Registry → α → β → Prop}

theorem of_run {outcome : Except Fault α} {otherOutcome : Except Fault β}
    {leftAfter rightAfter : Registry} (run : step.run.run left = (outcome, leftAfter))
    (otherRun : other.run.run right = (otherOutcome, rightAfter))
    (agree : ∀ {id : TypeId}, left.Has id → later id = onTypes id) (grows : Grows left leftAfter)
    (holds : related later leftAfter rightAfter)
    (answers : Answers (good later leftAfter) outcome otherOutcome) :
    InStep related onTypes left right step other good := by
  refine ⟨later, agree, ?_⟩
  rw [run, otherRun]
  exact ⟨grows, holds, answers⟩

/-- Two steps that change nothing. -/
theorem still (holds : related onTypes left right) {outcome : Except Fault α}
    {otherOutcome : Except Fault β} (run : step.run.run left = (outcome, left))
    (otherRun : other.run.run right = (otherOutcome, right))
    (answers : Answers (good onTypes left) outcome otherOutcome) :
    InStep related onTypes left right step other good :=
  of_run run otherRun (fun _ => rfl) (.refl left) holds answers

theorem congr {start : RegistryM α} {otherStart : RegistryM β}
    (inStep : InStep related onTypes left right step other good)
    (run : start.run.run left = step.run.run left)
    (otherRun : otherStart.run.run right = other.run.run right) :
    InStep related onTypes left right start otherStart good := by
  unfold InStep
  rw [run, otherRun]
  exact inStep

theorem bind {γ δ : Type} {next : α → RegistryM γ} {otherNext : β → RegistryM δ}
    {final : (TypeId → TypeId) → Registry → γ → δ → Prop}
    (first : InStep related onTypes left right step other good)
    (rest : ∀ {later : TypeId → TypeId} {leftAfter rightAfter : Registry} {value otherValue},
      (∀ {id : TypeId}, left.Has id → later id = onTypes id) → Grows left leftAfter →
        step.run.run left = (.ok value, leftAfter) →
          other.run.run right = (.ok otherValue, rightAfter) →
            related later leftAfter rightAfter → good later leftAfter value otherValue →
              InStep related later leftAfter rightAfter (next value) (otherNext otherValue)
                final) :
    InStep related onTypes left right (step >>= next) (other >>= otherNext) final := by
  obtain ⟨later, agree, grows, holds, answers⟩ := first
  have unfolded := run_bind step next left
  have otherUnfolded := run_bind other otherNext right
  generalize ran : step.run.run left = ended at grows holds answers unfolded
  generalize otherRan : other.run.run right = otherEnded at holds answers otherUnfolded
  obtain ⟨outcome, leftAfter⟩ := ended
  obtain ⟨otherOutcome, rightAfter⟩ := otherEnded
  cases answers with
  | error fault => exact of_run unfolded otherUnfolded agree grows holds (.error fault)
  | ok found =>
      obtain ⟨last, agreeLast, further, holdsLast, answers⟩ :=
        rest agree grows ran otherRan holds found
      exact of_run unfolded otherUnfolded
        (fun has => (agreeLast (grows.has has)).trans (agree has)) (grows.trans further) holdsLast
        answers

/-- The same steps for each item of a list. -/
theorem mapM {ι : Type} {items : List ι} {step : ι → RegistryM α} {other : ι → RegistryM β}
    (stable : ∀ {onTypes later : TypeId → TypeId} {before after right : Registry}
      {value otherValue}, (∀ {id : TypeId}, before.Has id → later id = onTypes id) →
        Grows before after → related later after right →
          good onTypes before value otherValue → good later after value otherValue)
    (each : ∀ item ∈ items, ∀ {onTypes : TypeId → TypeId} {left right : Registry},
      related onTypes left right →
        InStep related onTypes left right (step item) (other item) good)
    (holds : related onTypes left right) :
    InStep related onTypes left right (items.mapM step) (items.mapM other)
      fun later after => List.Forall₂ (good later after) := by
  induction items generalizing onTypes left right with
  | nil => exact still holds rfl rfl (.ok .nil)
  | cons item items ih =>
      simp only [List.mapM_cons]
      refine bind (each item List.mem_cons_self holds)
        fun {middle _ _ value otherValue} _ _ _ _ holdsMiddle found => ?_
      refine bind (ih (fun item among => each item (List.mem_cons_of_mem _ among)) holdsMiddle)
        fun {last _ _ values otherValues} agree grows _ _ holdsLast all => ?_
      exact still holdsLast rfl rfl (.ok (.cons (stable agree grows holdsLast found) all))

end InStep

/-! ## Ways of being alike -/

/-- The handles of two registries with one more pair, of the types that are made next. -/
def extended (onTypes : TypeId → TypeId) (left right : Registry) : TypeId → TypeId :=
  Function.update onTypes ⟨left.types.size⟩ ⟨right.types.size⟩

theorem ne_size_of_has (has : before.Has id) : id ≠ ⟨before.types.size⟩ := by
  obtain ⟨type, found⟩ := has
  rintro rfl
  exact Nat.lt_irrefl _ (index_lt_of_get? found)

theorem extended_of_has (has : left.Has id) : extended onTypes left right id = onTypes id :=
  Function.update_of_ne (ne_size_of_has has) _ _

theorem extended_size (onTypes : TypeId → TypeId) (left right : Registry) :
    extended onTypes left right ⟨left.types.size⟩ = ⟨right.types.size⟩ :=
  Function.update_self _ _ _

/-- A relation of registries up to the handles of types and of scopes, which types
correspond and are found under their names, and which names may be declared. -/
structure Likeness where
  Related : (TypeId → TypeId) → (ScopeId → ScopeId) → Registry → Registry → Prop
  Named : (TypeId → TypeId) → Registry → TypeId → TypeId → Prop
  Admits : String → Prop

namespace Likeness

/-- Two steps that are run on registries that are alike. -/
def InStep {α β : Type} (like : Likeness) (onScopes : ScopeId → ScopeId)
    (onTypes : TypeId → TypeId) (left right : Registry) (step : RegistryM α)
    (other : RegistryM β) (good : (TypeId → TypeId) → Registry → α → β → Prop) : Prop :=
  Registry.InStep (fun later => like.Related later onScopes) onTypes left right step other good

/-- What a likeness has to give for sessions over alike registries to be checked
alike. -/
structure Lawful (like : Likeness) : Prop where
  embeds : ∀ {onTypes : TypeId → TypeId} {onScopes : ScopeId → ScopeId} {left right : Registry},
    like.Related onTypes onScopes left right → Embeds onTypes onScopes left right
  primitives : ∀ {onTypes : TypeId → TypeId} {onScopes : ScopeId → ScopeId}
    {left right : Registry} {id : TypeId}, like.Related onTypes onScopes left right →
      id.index < 4 → onTypes id = id
  names : ∀ {onTypes : TypeId → TypeId} {onScopes : ScopeId → ScopeId} {left right : Registry},
    like.Related onTypes onScopes left right →
      ∀ name, right.names.get? name = (left.names.get? name).map onTypes
  relabel : ∀ {onTypes : TypeId → TypeId} {onScopes laterScopes : ScopeId → ScopeId}
    {left right : Registry}, like.Related onTypes onScopes left right →
      (∀ {id : TypeId} {type : Ty} {scope : ScopeId}, left.get? id = some type →
        type.scope? = some scope → laterScopes scope = onScopes scope) →
        like.Related onTypes laterScopes left right
  -- What is found under its name.
  named : ∀ {onTypes : TypeId → TypeId} {left : Registry} {id other : TypeId},
    like.Named onTypes left id other → left.IsPlain id ∧ other = onTypes id
  named_later : ∀ {onTypes later : TypeId → TypeId} {onScopes : ScopeId → ScopeId}
    {before after right : Registry} {id other : TypeId}, like.Named onTypes before id other →
      (∀ {id : TypeId}, before.Has id → later id = onTypes id) → Grows before after →
        like.Related later onScopes after right → like.Named later after id other
  -- Steps that may add function types.
  resolve : ∀ {onTypes : TypeId → TypeId} {onScopes : ScopeId → ScopeId} {left right : Registry}
    (text : String), like.Related onTypes onScopes left right →
      like.InStep onScopes onTypes left right (Registry.resolve text) (Registry.resolve text)
        like.Named
  function : ∀ {onTypes : TypeId → TypeId} {onScopes : ScopeId → ScopeId} {left right : Registry}
    {parameters others : List TypeId} {result other : TypeId},
      like.Related onTypes onScopes left right →
        List.Forall₂ (like.Named onTypes left) parameters others →
          like.Named onTypes left result other →
            like.InStep onScopes onTypes left right
              (modifyGet fun registry => registry.function parameters result)
              (modifyGet fun registry => registry.function others other) like.Named
  declareAlias : ∀ {onTypes : TypeId → TypeId} {onScopes : ScopeId → ScopeId}
    {left right : Registry} {name : String} (parent : String),
      like.Related onTypes onScopes left right → like.Admits name →
        like.InStep onScopes onTypes left right (Registry.declareAlias name parent)
          (Registry.declareAlias name parent) Copied
  declareUnion : ∀ {onTypes : TypeId → TypeId} {onScopes : ScopeId → ScopeId}
    {left right : Registry} {name : String} (members : List String),
      like.Related onTypes onScopes left right → like.Admits name →
        like.InStep onScopes onTypes left right (Registry.declareUnion name members)
          (Registry.declareUnion name members) Copied
  -- Types that keep a scope are added, and names are forgotten.
  addTemplate : ∀ {onTypes : TypeId → TypeId} {onScopes : ScopeId → ScopeId}
    {left right : Registry} (template : Template), like.Related onTypes onScopes left right →
      like.Related (extended onTypes left right) onScopes (left.addTemplate template).2
        (right.addTemplate (template.rename onScopes)).2
  declareClass : ∀ {onTypes : TypeId → TypeId} {onScopes : ScopeId → ScopeId}
    {left right : Registry} {name : String} {superclass : Option TypeId} (scope : ScopeId),
      like.Related onTypes onScopes left right → like.Admits name →
        (∀ id ∈ superclass, left.IsPlain id) → left.names.get? name = none →
          like.Related (extended onTypes left right) onScopes
            (left.declare name (.nominal ⟨name, superclass, scope⟩)).2
            (right.declare name (.nominal ⟨name, superclass.map onTypes, onScopes scope⟩)).2
  forget : ∀ {onTypes startTypes : TypeId → TypeId} {onScopes startScopes : ScopeId → ScopeId}
    {left right start startRight : Registry} {name : String},
      like.Related startTypes startScopes start startRight → start.names.get? name = none →
        like.Related onTypes onScopes left right →
          like.Related onTypes onScopes (left.forget name) (right.forget name)

end Likeness

end Registry

end TypedLisp
