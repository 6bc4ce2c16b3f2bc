import Mathlib.Data.List.Find
import TypedLisp.Proofs.Resolution
import TypedLisp.Session.Basic

/-!
# Registries up to the handles of types

One registry embeds into another when every type of the first is there in the second
one under another handle, with its references renamed in the same way, and different
types stay different (`Registry.Embeds`). Then whatever checking asks about types has
the same answer in both: names, the ends of chains of aliases, whether one type fits
where another is expected, the ancestors of a class, and the result of a call.

A registry embeds into every registry that it grows into, with all handles as they
are. So the types that are there answer in the same way whatever is added later.

Types refer to smaller handles on both sides, so the walks of comparison take every
step that they guard. `Sound.fits_eq` is the comparison without the guards.
-/

set_option autoImplicit false

namespace TypedLisp

/-! ## Renaming -/

/-- A class with its handles renamed. -/
def ClassType.rename (onTypes : TypeId → TypeId) (onScopes : ScopeId → ScopeId)
    (declared : ClassType) : ClassType :=
  ⟨declared.name, declared.superclass.map onTypes, onScopes declared.scope⟩

/-- A generic function with its handle renamed. -/
def Template.rename (onScopes : ScopeId → ScopeId) (template : Template) : Template :=
  { template with scope := onScopes template.scope }

/-- A function type with its handles renamed. -/
def FunctionType.rename (onTypes : TypeId → TypeId) (signature : FunctionType) : FunctionType :=
  ⟨signature.name, signature.parameters.map onTypes, onTypes signature.result⟩

namespace Ty

/-- A type with its handles renamed. -/
def rename (onTypes : TypeId → TypeId) (onScopes : ScopeId → ScopeId) : Ty → Ty
  | .primitive kind => .primitive kind
  | .alias name parent => .alias name (onTypes parent)
  | .function signature => .function (signature.rename onTypes)
  | .union name members => .union name (members.map onTypes)
  | .nominal declared => .nominal (declared.rename onTypes onScopes)
  | .generic template => .generic (template.rename onScopes)

variable {onTypes laterTypes : TypeId → TypeId} {onScopes laterScopes : ScopeId → ScopeId}

@[simp] theorem name_rename (type : Ty) : (type.rename onTypes onScopes).name = type.name := by
  cases type <;> rfl

@[simp] theorem declaredName?_rename (type : Ty) :
    (type.rename onTypes onScopes).declaredName? = type.declaredName? := by
  cases type <;> rfl

theorem references_rename (type : Ty) :
    (type.rename onTypes onScopes).references = type.references.map onTypes := by
  cases type with
  | nominal declared =>
      cases inherits : declared.superclass <;>
        simp [rename, ClassType.rename, references, inherits]
  | _ => simp [rename, FunctionType.rename, references]

@[simp] theorem rename_id (type : Ty) : type.rename (fun id => id) (fun id => id) = type := by
  cases type with
  | nominal declared => simp [rename, ClassType.rename]
  | _ => simp [rename, Template.rename, FunctionType.rename]

theorem IsNongeneric.rename {type : Ty} (nongeneric : type.IsNongeneric) :
    (type.rename onTypes onScopes).IsNongeneric := by
  cases type with
  | generic template => exact absurd rfl (nongeneric template)
  | _ => simp [IsNongeneric, Ty.rename]

/-- A renaming matters only on the handles that a type has. -/
theorem rename_congr {type : Ty} (references : ∀ id ∈ type.references, laterTypes id = onTypes id)
    (scope : ∀ id, type.scope? = some id → laterScopes id = onScopes id) :
    type.rename laterTypes laterScopes = type.rename onTypes onScopes := by
  cases type with
  | primitive => rfl
  | «alias» name parent => simp [rename, references parent (by simp [Ty.references])]
  | function signature =>
      have result := references signature.result (by simp [Ty.references])
      have parameters : signature.parameters.map laterTypes = signature.parameters.map onTypes :=
        List.map_congr_left fun id among => references id (by simp [Ty.references, among])
      simp [rename, FunctionType.rename, result, parameters]
  | union name members =>
      have same : members.map laterTypes = members.map onTypes :=
        List.map_congr_left fun id among => references id (by simp [Ty.references, among])
      simp [rename, same]
  | nominal declared =>
      have superclass : declared.superclass.map laterTypes = declared.superclass.map onTypes :=
        Option.map_congr fun id among => references id (by
          simpa [Ty.references] using among)
      simp [rename, ClassType.rename, superclass, scope declared.scope rfl]
  | generic template => simp [rename, Template.rename, scope template.scope rfl]

end Ty

namespace Registry

/-! ## Comparison without guards -/

/-- One step of comparing two types that are not the same, over the comparison of the
types that they refer to. -/
def fitsStep (registry : Registry) (compare : TypeId → TypeId → Bool) (given expected : TypeId) :
    Ty → Ty → Bool
  | .alias _ parent, _ => compare parent expected
  | _, .alias _ parent => compare given parent
  | .function left, .function right =>
      left.parameters.length == right.parameters.length &&
        ((left.parameters.zip right.parameters).all fun pair => compare pair.1 pair.2) &&
        compare left.result right.result
  | .union _ left, .union _ right =>
      registry.includesAll given right && registry.includesAll expected left
  | .union _ members, _ => members.any fun member => compare member expected
  | _, .union _ members => members.any fun member => compare given member
  | .nominal declared, _ => declared.superclass.any fun parent => compare parent expected
  | _, _ => false

variable {registry : Registry} {id given expected : TypeId} {type first second : Ty}
  {mayRefer : Ty → Ty → Prop}

theorem Sound.found_reference (sound : registry.Sound mayRefer)
    (found : registry.get? id = some type) {reference : TypeId}
    (among : reference ∈ type.references) :
    reference.index < id.index ∧ registry.Has reference := by
  obtain ⟨smaller, content, there, _⟩ := sound.references found reference among
  exact ⟨smaller, content, there⟩

theorem Sound.unalias_of_alias (sound : registry.Sound mayRefer) {name : String}
    {parent : TypeId} (found : registry.get? id = some (.alias name parent)) :
    registry.unalias id = registry.unalias parent := by
  have smaller := (sound.found_reference found (List.mem_singleton.2 rfl)).1
  rw [unalias, found]
  exact if_pos smaller

theorem get?_of_class? {declared : ClassType} (found : registry.class? id = some declared) :
    registry.get? (registry.unalias id) = some (.nominal declared) := by
  unfold class? at found
  split at found
  · rename_i there
    obtain rfl := Option.some.inj found
    exact there
  · cases found

theorem get?_of_template? {template : Template} (found : registry.template? id = some template) :
    registry.get? id = some (.generic template) := by
  unfold template? at found
  split at found
  · rename_i there
    obtain rfl := Option.some.inj found
    exact there
  · cases found

theorem unalias_of_ne (found : registry.get? id = some type)
    (other : ∀ name parent, type ≠ .alias name parent) : registry.unalias id = id := by
  rw [unalias, found]
  cases type with
  | «alias» name parent => exact absurd rfl (other name parent)
  | _ => rfl

/-- A chain of aliases ends at a type that is there. -/
theorem Sound.has_unalias (sound : registry.Sound mayRefer)
    (has : registry.Has id) : registry.Has (registry.unalias id) := by
  fun_induction unalias registry id with
  | case1 id name parent found smaller ih =>
      exact ih (sound.found_reference found (List.mem_singleton.2 rfl)).2
  | case2 => exact has
  | case3 => exact has

/-- **Comparison without its guards.** -/
theorem Sound.fits_eq (sound : registry.Sound mayRefer)
    (foundGiven : registry.get? given = some first)
    (foundExpected : registry.get? expected = some second) :
    registry.fits given expected = if given = expected then true
      else fitsStep registry registry.fits given expected first second := by
  have left : ∀ reference ∈ first.references, reference.index < given.index :=
    fun reference among => (sound.found_reference foundGiven among).1
  have right : ∀ reference ∈ second.references, reference.index < expected.index :=
    fun reference among => (sound.found_reference foundExpected among).1
  rw [fits, foundGiven, foundExpected]
  split
  · rfl
  · cases first with
    | «alias» name parent => exact dif_pos (left parent (List.mem_singleton.2 rfl))
    | function signature =>
        cases second with
        | «alias» name parent => exact dif_pos (right parent (List.mem_singleton.2 rfl))
        | function other =>
            change (_ && _ && _) = (_ && _ && _)
            refine congrArg₂ and (congrArg₂ and rfl (List.all_congr_of_mem fun pair among => ?_)) ?_
            · obtain ⟨amongLeft, amongRight⟩ := List.of_mem_zip among
              exact dif_pos ⟨left _ (List.mem_cons_of_mem _ amongLeft),
                right _ (List.mem_cons_of_mem _ amongRight)⟩
            · exact dif_pos ⟨left _ List.mem_cons_self, right _ List.mem_cons_self⟩
        | union name members =>
            exact List.any_congr_of_mem fun member among => dif_pos (right member among)
        | _ => rfl
    | union name members =>
        cases second with
        | «alias» name parent => exact dif_pos (right parent (List.mem_singleton.2 rfl))
        | union => rfl
        | _ => exact List.any_congr_of_mem fun member among => dif_pos (left member among)
    | nominal declared =>
        cases second with
        | «alias» name parent => exact dif_pos (right parent (List.mem_singleton.2 rfl))
        | union name members =>
            exact List.any_congr_of_mem fun member among => dif_pos (right member among)
        | _ =>
            simp only [fitsStep]
            split
            · rename_i parent inherits
              simp [inherits, left parent (by simp [Ty.references, inherits])]
            · rename_i inherits
              simp [inherits]
    | _ =>
        cases second with
        | «alias» name parent => exact dif_pos (right parent (List.mem_singleton.2 rfl))
        | union name members =>
            exact List.any_congr_of_mem fun member among => dif_pos (right member among)
        | _ => rfl

/-- The ancestors of a class without the guard. -/
theorem Sound.lineage_eq (sound : registry.Sound mayRefer) (id : TypeId) :
    registry.lineage id = match registry.class? id with
      | some declared => declared :: (declared.superclass.map registry.lineage).getD []
      | none => [] := by
  rw [lineage]
  cases classed : registry.class? id with
  | none => rfl
  | some declared =>
      cases inherits : declared.superclass with
      | none => simp [inherits]
      | some parent =>
          have smaller := (sound.found_reference (get?_of_class? classed)
            (show parent ∈ _ by simp [Ty.references, inherits])).1
          have bound := registry.index_unalias_le id
          simp [inherits, if_pos (Nat.lt_of_lt_of_le smaller bound)]

theorem get?_of_mem_lineage {declared : ClassType} (among : declared ∈ registry.lineage id) :
    ∃ owner, registry.get? owner = some (.nominal declared) := by
  fun_induction lineage registry id with
  | case1 id found classed ih =>
      rcases List.mem_cons.1 among with rfl | among
      · exact ⟨_, get?_of_class? classed⟩
      · split at among
        · split at among
          · exact ih _ (by assumption) among
          · cases among
        · cases among
  | case2 => cases among

/-! ## Embeddings -/

/-- Every type of the first registry is in the second one, renamed, and different
types stay different. -/
structure Embeds (onTypes : TypeId → TypeId) (onScopes : ScopeId → ScopeId)
    (source target : Registry) : Prop where
  wellFormed : source.WellFormed
  wellFormed_target : target.WellFormed
  types : ∀ {id : TypeId} {type : Ty}, source.get? id = some type →
    target.get? (onTypes id) = some (type.rename onTypes onScopes)
  injective : ∀ {first second : TypeId}, source.Has first → source.Has second →
    onTypes first = onTypes second → first = second

/-- A registry embeds into what it grows into. -/
theorem Grows.embeds {before after : Registry} (grows : Grows before after)
    (wellFormed : before.WellFormed) (wellFormedAfter : after.WellFormed) :
    Embeds (fun id => id) (fun id => id) before after where
  wellFormed := wellFormed
  wellFormed_target := wellFormedAfter
  types found := by simpa using grows.types found
  injective _ _ same := same

namespace Embeds

variable {onTypes : TypeId → TypeId} {onScopes : ScopeId → ScopeId} {source target : Registry}

theorem name (embeds : Embeds onTypes onScopes source target) (has : source.Has id) :
    target.name (onTypes id) = source.name id := by
  obtain ⟨type, found⟩ := has
  simp [Registry.name, found, embeds.types found]

theorem unalias (embeds : Embeds onTypes onScopes source target) (has : source.Has id) :
    target.unalias (onTypes id) = onTypes (source.unalias id) := by
  fun_induction Registry.unalias source id with
  | case1 id name parent found smaller ih =>
      rw [embeds.wellFormed_target.unalias_of_alias (embeds.types found)]
      exact ih (embeds.wellFormed.found_reference found (List.mem_singleton.2 rfl)).2
  | case2 id name parent found larger =>
      exact absurd (embeds.wellFormed.found_reference found (List.mem_singleton.2 rfl)).1 larger
  | case3 id other =>
      obtain ⟨type, found⟩ := has
      refine unalias_of_ne (embeds.types found) ?_
      cases type with
      | «alias» name parent => exact absurd found (other name parent)
      | _ => simp [Ty.rename]

/-- What stands behind any aliases is the same type, renamed. -/
theorem get?_unalias (embeds : Embeds onTypes onScopes source target) (has : source.Has id) :
    target.get? (target.unalias (onTypes id)) =
      (source.get? (source.unalias id)).map (·.rename onTypes onScopes) := by
  obtain ⟨type, found⟩ := embeds.wellFormed.has_unalias has
  rw [embeds.unalias has, embeds.types found, found]
  rfl

theorem class? (embeds : Embeds onTypes onScopes source target) (has : source.Has id) :
    target.class? (onTypes id) = (source.class? id).map (·.rename onTypes onScopes) := by
  unfold Registry.class?
  rw [embeds.get?_unalias has]
  cases source.get? (source.unalias id) with
  | none => rfl
  | some type => cases type <;> rfl

theorem function? (embeds : Embeds onTypes onScopes source target) (has : source.Has id) :
    target.function? (onTypes id) = (source.function? id).map (·.rename onTypes) := by
  unfold Registry.function?
  rw [embeds.get?_unalias has]
  cases source.get? (source.unalias id) with
  | none => rfl
  | some type => cases type <;> rfl

theorem members? (embeds : Embeds onTypes onScopes source target) (has : source.Has id) :
    target.members? (onTypes id) = (source.members? id).map (·.map onTypes) := by
  unfold Registry.members?
  rw [embeds.get?_unalias has]
  cases source.get? (source.unalias id) with
  | none => rfl
  | some type => cases type <;> rfl

theorem template? (embeds : Embeds onTypes onScopes source target) (has : source.Has id) :
    target.template? (onTypes id) = (source.template? id).map (·.rename onScopes) := by
  obtain ⟨type, found⟩ := has
  unfold Registry.template?
  rw [embeds.types found, found]
  cases type <;> rfl

theorem eq_iff (embeds : Embeds onTypes onScopes source target) {first second : TypeId}
    (hasFirst : source.Has first) (hasSecond : source.Has second) :
    onTypes first = onTypes second ↔ first = second :=
  ⟨embeds.injective hasFirst hasSecond, congrArg onTypes⟩

/-- The members of a choice of types are there. -/
theorem has_member (embeds : Embeds onTypes onScopes source target) {members : List TypeId}
    (found : source.members? id = some members) : ∀ member ∈ members, source.Has member := by
  intro member among
  unfold Registry.members? at found
  split at found
  · rename_i there
    obtain rfl := Option.some.inj found
    exact (embeds.wellFormed.found_reference there among).2
  · cases found

theorem includesAll (embeds : Embeds onTypes onScopes source target) (has : source.Has id)
    {candidates : List TypeId} (present : ∀ candidate ∈ candidates, source.Has candidate) :
    target.includesAll (onTypes id) (candidates.map onTypes) =
      source.includesAll id candidates := by
  unfold Registry.includesAll
  rw [embeds.members? has]
  cases found : source.members? id with
  | none => rfl
  | some members =>
      simp only [Option.map_some, List.all_map, List.any_map]
      refine List.all_congr_of_mem fun member among =>
        List.any_congr_of_mem fun candidate amongCandidates => ?_
      have hasMember := embeds.has_member found member among
      have hasCandidate := present candidate amongCandidates
      simp only [Function.comp_apply, embeds.unalias hasMember, embeds.unalias hasCandidate,
        embeds.eq_iff (embeds.wellFormed.has_unalias hasCandidate)
          (embeds.wellFormed.has_unalias hasMember)]

/-- A step of comparison is kept when the comparison of the references is. -/
theorem fitsStep (embeds : Embeds onTypes onScopes source target)
    (foundGiven : source.get? given = some first)
    (foundExpected : source.get? expected = some second)
    {compare renamed : TypeId → TypeId → Bool}
    (onLeft : ∀ left ∈ first.references,
      renamed (onTypes left) (onTypes expected) = compare left expected)
    (onRight : ∀ right ∈ second.references,
      renamed (onTypes given) (onTypes right) = compare given right)
    (onBoth : ∀ left ∈ first.references, ∀ right ∈ second.references,
      renamed (onTypes left) (onTypes right) = compare left right) :
    target.fitsStep renamed (onTypes given) (onTypes expected) (first.rename onTypes onScopes)
        (second.rename onTypes onScopes) =
      source.fitsStep compare given expected first second := by
  have anyLeft : ∀ members : List TypeId, (∀ member ∈ members, member ∈ first.references) →
      ((members.map onTypes).any fun member => renamed member (onTypes expected)) =
        members.any fun member => compare member expected := by
    intro members inside
    rw [List.any_map]
    exact List.any_congr_of_mem fun member among => onLeft member (inside member among)
  have anyRight : ∀ members : List TypeId, (∀ member ∈ members, member ∈ second.references) →
      ((members.map onTypes).any fun member => renamed (onTypes given) member) =
        members.any fun member => compare given member := by
    intro members inside
    rw [List.any_map]
    exact List.any_congr_of_mem fun member among => onRight member (inside member among)
  cases first with
  | «alias» name parent => exact onLeft parent (List.mem_singleton.2 rfl)
  | function signature =>
      cases second with
      | «alias» name parent => exact onRight parent (List.mem_singleton.2 rfl)
      | function other =>
          simp only [Ty.rename, FunctionType.rename, Registry.fitsStep, List.length_map,
            List.zip_map, List.all_map]
          refine congrArg₂ and (congrArg₂ and rfl (List.all_congr_of_mem fun pair among => ?_)) ?_
          · obtain ⟨amongLeft, amongRight⟩ := List.of_mem_zip among
            exact onBoth _ (List.mem_cons_of_mem _ amongLeft) _ (List.mem_cons_of_mem _ amongRight)
          · exact onBoth _ List.mem_cons_self _ List.mem_cons_self
      | union name members => exact anyRight members fun _ among => among
      | _ => rfl
  | union name members =>
      cases second with
      | «alias» name parent => exact onRight parent (List.mem_singleton.2 rfl)
      | union other others =>
          refine congrArg₂ and (embeds.includesAll ⟨_, foundGiven⟩ ?_)
            (embeds.includesAll ⟨_, foundExpected⟩ ?_)
          · exact fun member among =>
              (embeds.wellFormed.found_reference foundExpected among).2
          · exact fun member among => (embeds.wellFormed.found_reference foundGiven among).2
      | _ => exact anyLeft members fun _ among => among
  | nominal declared =>
      have climbs : ((declared.superclass.map onTypes).any fun parent =>
          renamed parent (onTypes expected)) =
            declared.superclass.any fun parent => compare parent expected := by
        cases inherits : declared.superclass with
        | none => rfl
        | some parent => exact onLeft parent (by simp [Ty.references, inherits])
      cases second with
      | «alias» name parent => exact onRight parent (List.mem_singleton.2 rfl)
      | union name members => exact anyRight members fun _ among => among
      | _ => exact climbs
  | _ =>
      cases second with
      | «alias» name parent => exact onRight parent (List.mem_singleton.2 rfl)
      | union name members => exact anyRight members fun _ among => among
      | _ => rfl

/-- **Comparison does not depend on the handles.** By induction on the sum of the
handles, which every reference makes smaller. -/
theorem fits (embeds : Embeds onTypes onScopes source target) (hasGiven : source.Has given)
    (hasExpected : source.Has expected) :
    target.fits (onTypes given) (onTypes expected) = source.fits given expected := by
  induction size : given.index + expected.index using Nat.strongRecOn
    generalizing given expected with
  | ind size ih =>
      obtain ⟨first, foundGiven⟩ := hasGiven
      obtain ⟨second, foundExpected⟩ := hasExpected
      have left := fun {reference} (among : reference ∈ first.references) =>
        embeds.wellFormed.found_reference foundGiven among
      have right := fun {reference} (among : reference ∈ second.references) =>
        embeds.wellFormed.found_reference foundExpected among
      rw [embeds.wellFormed.fits_eq foundGiven foundExpected,
        embeds.wellFormed_target.fits_eq (embeds.types foundGiven) (embeds.types foundExpected)]
      simp only [embeds.eq_iff ⟨first, foundGiven⟩ ⟨second, foundExpected⟩]
      split
      · rfl
      · refine embeds.fitsStep foundGiven foundExpected ?_ ?_ ?_
        · intro reference among
          have := (left among).1
          exact ih _ (by omega) (left among).2 ⟨second, foundExpected⟩ rfl
        · intro reference among
          have := (right among).1
          exact ih _ (by omega) ⟨first, foundGiven⟩ (right among).2 rfl
        · intro reference among other amongOther
          have := (left among).1
          have := (right amongOther).1
          exact ih _ (by omega) (left among).2 (right amongOther).2 rfl

/-- The ancestors of a class are the same, renamed. By induction on the handle. -/
theorem lineage (embeds : Embeds onTypes onScopes source target) (has : source.Has id) :
    target.lineage (onTypes id) = (source.lineage id).map (·.rename onTypes onScopes) := by
  induction size : id.index using Nat.strongRecOn generalizing id with
  | ind size ih =>
      rw [embeds.wellFormed.lineage_eq, embeds.wellFormed_target.lineage_eq, embeds.class? has]
      cases classed : source.class? id with
      | none => rfl
      | some declared =>
          cases inherits : declared.superclass with
          | none => simp [ClassType.rename, inherits]
          | some parent =>
              obtain ⟨smaller, hasParent⟩ := embeds.wellFormed.found_reference
                (get?_of_class? classed)
                (show parent ∈ (Ty.nominal declared).references by simp [Ty.references, inherits])
              have bound := source.index_unalias_le id
              simp [ClassType.rename, inherits, ih _ (by omega) hasParent rfl]

/-! ## Questions about types -/

theorem expect (embeds : Embeds onTypes onScopes source target) (hasGiven : source.Has given)
    (hasExpected : source.Has expected) :
    target.expect (onTypes given) (onTypes expected) = source.expect given expected := by
  unfold Registry.expect
  rw [embeds.fits hasGiven hasExpected, embeds.name hasGiven, embeds.name hasExpected]

theorem expectOperand (embeds : Embeds onTypes onScopes source target) (has : source.Has given)
    {allowed : List TypeId} (present : ∀ candidate ∈ allowed, source.Has candidate) :
    target.expectOperand (onTypes given) (allowed.map onTypes) =
      source.expectOperand given allowed := by
  have isUnion : target.isUnion (onTypes given) = source.isUnion given := by
    simp [Registry.isUnion, embeds.members? has]
  have fitting : ((allowed.map onTypes).any fun candidate =>
      target.fits candidate (onTypes given)) =
        allowed.any fun candidate => source.fits candidate given := by
    rw [List.any_map]
    exact List.any_congr_of_mem fun candidate among => embeds.fits (present candidate among) has
  have names : (allowed.map onTypes).map target.name = allowed.map source.name := by
    rw [List.map_map]
    exact List.map_congr_left fun candidate among => embeds.name (present candidate among)
  unfold Registry.expectOperand
  rw [isUnion, embeds.includesAll has present, fitting, names, embeds.name has]

theorem has_any (embeds : Embeds onTypes onScopes source target) : source.Has .any :=
  ⟨.primitive .any, embeds.wellFormed.primitives rfl⟩

theorem admits (embeds : Embeds onTypes onScopes source target) (any : onTypes .any = .any)
    (hasGiven : source.Has given) (hasExpected : source.Has expected) :
    target.admits (onTypes given) (onTypes expected) = source.admits given expected := by
  have same : onTypes expected = .any ↔ expected = .any := by
    rw [← embeds.eq_iff hasExpected embeds.has_any, any]
  simp only [Registry.admits, same, embeds.fits hasGiven hasExpected]

/-- The result of a call is the same, renamed, and so is its failure. -/
theorem callResult (embeds : Embeds onTypes onScopes source target) (any : onTypes .any = .any)
    (has : source.Has id) {arguments : List TypeId}
    (present : ∀ argument ∈ arguments, source.Has argument) (construct : String) :
    target.callResult (onTypes id) (arguments.map onTypes) construct =
      (source.callResult id arguments construct).map onTypes := by
  unfold Registry.callResult
  rw [embeds.function? has]
  cases called : source.function? id with
  | none => simp [embeds.name has, Except.map]
  | some signature =>
      have hasParameter : ∀ parameter ∈ signature.parameters, source.Has parameter := by
        intro parameter among
        unfold Registry.function? at called
        split at called
        · rename_i there
          obtain rfl := Option.some.inj called
          exact (embeds.wellFormed.found_reference there (List.mem_cons_of_mem _ among)).2
        · cases called
      simp only [Option.map_some, FunctionType.rename, List.length_map, List.zip_map,
        List.find?_map]
      split
      · have refused : (arguments.zip signature.parameters).find?
            ((fun pair => !target.admits pair.1 pair.2) ∘ Prod.map onTypes onTypes) =
              (arguments.zip signature.parameters).find?
                fun pair => !source.admits pair.1 pair.2 := by
          refine List.find?_congr fun pair among => ?_
          obtain ⟨amongArguments, amongParameters⟩ := List.of_mem_zip among
          exact congrArg not (embeds.admits any (present _ amongArguments)
            (hasParameter _ amongParameters))
        rw [refused]
        cases found : (arguments.zip signature.parameters).find? _ with
        | none => rfl
        | some pair =>
            obtain ⟨amongArguments, amongParameters⟩ :=
              List.of_mem_zip (List.mem_of_find?_eq_some found)
            simp [embeds.name (present _ amongArguments),
              embeds.name (hasParameter _ amongParameters), Except.map]
      · rfl

/-- A field has the same type, renamed, when the classes that it is looked for in bind
its name to the same type, renamed. -/
theorem field {left right : Session} (embeds : Embeds onTypes onScopes left.types right.types)
    (has : left.types.Has id) (name : String)
    (bound : ∀ declared ∈ left.types.lineage id,
      right.scopes.getLocal? (onScopes declared.scope) name =
        (left.scopes.getLocal? declared.scope name).map onTypes) :
    right.field (onTypes id) name = (left.field id name).map onTypes := by
  have found : ∀ classes : List ClassType,
      (∀ declared ∈ classes, declared ∈ left.types.lineage id) →
      (classes.map (·.rename onTypes onScopes)).findSome?
          (fun declared => right.scopes.getLocal? declared.scope name) =
        (classes.findSome? fun declared => left.scopes.getLocal? declared.scope name).map
          onTypes := by
    intro classes
    induction classes with
    | nil => exact fun _ => rfl
    | cons declared classes ih =>
        intro inside
        have here := bound declared (inside declared List.mem_cons_self)
        have rest := ih fun other among => inside other (List.mem_cons_of_mem _ among)
        simp only [List.map_cons, List.findSome?_cons, ClassType.rename, here]
        cases left.scopes.getLocal? declared.scope name with
        | none => exact rest
        | some type => rfl
  unfold Session.field
  rw [embeds.lineage has]
  cases lineage : left.types.lineage id with
  | nil => simp [embeds.name has, Except.map]
  | cons declared classes =>
      have all := found (declared :: classes) fun _ among => lineage ▸ among
      simp only [List.map_cons] at all ⊢
      rw [all]
      cases (declared :: classes).findSome? fun declared =>
          left.scopes.getLocal? declared.scope name with
      | none => rfl
      | some type => rfl

end Embeds

end Registry

end TypedLisp
