import TypedLisp.Proofs.Operations
import TypedLisp.Proofs.Renaming

/-!
# Comparison as a partial order

Without choices of types, `fits` is a partial order up to aliases. Two types fit each
other when they are the same after every alias has been expanded, also inside function
types (`Registry.expand`). An ancestor of a class never fits where the class is
expected.

Everything rests on one inversion of comparison (`Unionless.fits_iff`): the types end in
the same type behind their aliases, or they are function types that fit part by part, or
the first is a class whose superclass fits. The inductions are on the handles, which get
smaller along every reference.
-/

set_option autoImplicit false

namespace TypedLisp.Registry

/-! ## Expanding aliases -/

/-- A type without aliases: a function type over such types, or any other type by its
handle. -/
inductive Expanded where
  | atom (id : TypeId)
  | function (parameters : List Expanded) (result : Expanded)

/-- A type with every alias expanded. -/
def expand (registry : Registry) (id : TypeId) : Expanded :=
  match registry.get? id with
  | some (.alias _ parent) =>
      if _ : parent.index < id.index then expand registry parent else .atom id
  | some (.function signature) =>
      .function
        (signature.parameters.map fun parameter =>
          if _ : parameter.index < id.index then expand registry parameter else .atom parameter)
        (if _ : signature.result.index < id.index then expand registry signature.result
          else .atom signature.result)
  | _ => .atom id
termination_by id.index

/-- A class extends a type: it is its superclass, or an ancestor of that. Aliases may
stand in between. -/
inductive Extends (registry : Registry) : TypeId → TypeId → Prop where
  | superclass {id parent : TypeId} {declared : ClassType} :
      registry.class? id = some declared → declared.superclass = some parent →
        Extends registry id parent
  | ancestor {id parent ancestor : TypeId} {declared : ClassType} :
      registry.class? id = some declared → declared.superclass = some parent →
        Extends registry parent ancestor → Extends registry id ancestor

variable {registry : Registry} {mayRefer : Ty → Ty → Prop}
  {id given expected first second third : TypeId}

/-! ## Behind aliases -/

theorem expand_unalias (registry : Registry) (id : TypeId) :
    registry.expand (registry.unalias id) = registry.expand id := by
  fun_induction unalias registry id with
  | case1 id name parent found smaller ih =>
      rw [ih]
      conv_rhs => rw [expand, found]
      simp only [dif_pos smaller]
  | case2 => rfl
  | case3 => rfl

theorem function?_eq_some_iff {signature : FunctionType} : registry.function? id = some signature ↔
    registry.get? (registry.unalias id) = some (.function signature) := by
  unfold function?
  split <;> simp_all

theorem class?_eq_some_iff {declared : ClassType} : registry.class? id = some declared ↔
    registry.get? (registry.unalias id) = some (.nominal declared) := by
  unfold class?
  split <;> simp_all

theorem members?_eq_some_iff {members : List TypeId} : registry.members? id = some members ↔
    ∃ name, registry.get? (registry.unalias id) = some (.union name members) := by
  unfold members?
  split <;> simp_all

theorem members?_eq_none_iff : registry.members? id = none ↔
    ∀ name members, registry.get? (registry.unalias id) ≠ some (.union name members) := by
  simp only [Option.eq_none_iff_forall_ne_some, Ne, members?_eq_some_iff, not_exists]
  exact forall_comm

theorem function?_of_class? {declared : ClassType} (classed : registry.class? id = some declared) :
    registry.function? id = none := by
  rw [function?, get?_of_class? classed]

theorem fits_refl (registry : Registry) (id : TypeId) : registry.fits id id = true := by
  rw [fits, if_pos rfl]

namespace Sound

/-- A chain of aliases does not end in an alias. -/
theorem unalias_ne_alias (sound : registry.Sound mayRefer) (id : TypeId) (name : String)
    (parent : TypeId) : registry.get? (registry.unalias id) ≠ some (.alias name parent) := by
  fun_induction unalias registry id with
  | case1 id name parent found smaller ih => exact ih
  | case2 id name parent found larger =>
      exact absurd (sound.found_reference found (List.mem_singleton.2 rfl)).1 larger
  | case3 id other => exact other name parent

theorem unalias_unalias (sound : registry.Sound mayRefer) (id : TypeId) :
    registry.unalias (registry.unalias id) = registry.unalias id := by
  cases found : registry.get? (registry.unalias id) with
  | none => rw [unalias, found]
  | some type =>
      refine unalias_of_ne found fun name parent same => ?_
      exact sound.unalias_ne_alias id name parent (same ▸ found)

/-- The parts of a function type behind aliases are earlier types. -/
theorem index_lt_of_function? (sound : registry.Sound mayRefer) {signature : FunctionType}
    (found : registry.function? id = some signature) {part : TypeId}
    (among : part ∈ signature.result :: signature.parameters) : part.index < id.index := by
  have there := function?_eq_some_iff.1 found
  exact Nat.lt_of_lt_of_le (sound.found_reference there among).1 (registry.index_unalias_le id)

/-- The superclass of a class is an earlier type than the class behind any aliases. -/
theorem index_lt_of_class? (sound : registry.Sound mayRefer) {declared : ClassType}
    (found : registry.class? id = some declared) {parent : TypeId}
    (inherits : declared.superclass = some parent) :
    parent.index < (registry.unalias id).index :=
  (sound.found_reference (get?_of_class? found) (by simp [Ty.references, inherits])).1

/-- Expansion without its guards. -/
theorem expand_eq (sound : registry.Sound mayRefer) (id : TypeId) :
    registry.expand id = match registry.function? id with
      | some signature =>
          .function (signature.parameters.map registry.expand) (registry.expand signature.result)
      | none => .atom (registry.unalias id) := by
  rw [← expand_unalias, expand, function?]
  cases found : registry.get? (registry.unalias id) with
  | none => rfl
  | some type =>
      cases type with
      | «alias» name parent => exact absurd found (sound.unalias_ne_alias id name parent)
      | function signature =>
          have smaller : ∀ part ∈ signature.result :: signature.parameters,
              part.index < (registry.unalias id).index :=
            fun part among => (sound.found_reference found among).1
          have parameters : signature.parameters.map (fun parameter =>
              if parameter.index < (registry.unalias id).index then registry.expand parameter
              else .atom parameter) = signature.parameters.map registry.expand :=
            List.map_congr_left fun part among =>
              if_pos (smaller part (List.mem_cons_of_mem _ among))
          simp [parameters, smaller signature.result List.mem_cons_self]
      | _ => rfl

/-! ## Comparison behind aliases -/

theorem fits_of_alias_left (sound : registry.Sound mayRefer) {name : String} {parent : TypeId}
    (found : registry.get? given = some (.alias name parent)) (apart : given ≠ expected) :
    registry.fits given expected = registry.fits parent expected := by
  have smaller := (sound.found_reference found (List.mem_singleton.2 rfl)).1
  rw [fits, if_neg apart, found]
  exact dif_pos smaller

theorem fits_of_alias_right (sound : registry.Sound mayRefer) {name : String} {parent : TypeId}
    (other : ∀ name parent, registry.get? given ≠ some (.alias name parent))
    (found : registry.get? expected = some (.alias name parent)) (apart : given ≠ expected) :
    registry.fits given expected = registry.fits given parent := by
  have smaller := (sound.found_reference found (List.mem_singleton.2 rfl)).1
  rw [fits, if_neg apart, found]
  cases there : registry.get? given with
  | none => exact dif_pos smaller
  | some type =>
      cases type with
      | «alias» name parent => exact absurd there (other name parent)
      | _ => exact dif_pos smaller

/-- Comparison looks behind all aliases. -/
theorem fits_unalias (sound : registry.Sound mayRefer) (given expected : TypeId) :
    registry.fits given expected =
      registry.fits (registry.unalias given) (registry.unalias expected) := by
  induction size : given.index + expected.index using Nat.strongRecOn
    generalizing given expected with
  | ind size ih =>
      by_cases same : given = expected
      · rw [same, fits_refl, fits_refl]
      by_cases left : ∃ name parent, registry.get? given = some (.alias name parent)
      · obtain ⟨name, parent, found⟩ := left
        have smaller := (sound.found_reference found (List.mem_singleton.2 rfl)).1
        rw [sound.fits_of_alias_left found same, sound.unalias_of_alias found]
        exact ih _ (by omega) parent expected rfl
      have other : ∀ name parent, registry.get? given ≠ some (.alias name parent) :=
        fun name parent found => left ⟨name, parent, found⟩
      by_cases right : ∃ name parent, registry.get? expected = some (.alias name parent)
      · obtain ⟨name, parent, found⟩ := right
        have smaller := (sound.found_reference found (List.mem_singleton.2 rfl)).1
        rw [sound.fits_of_alias_right other found same, sound.unalias_of_alias found]
        exact ih _ (by omega) given parent rfl
      have plain : ∀ {id : TypeId},
          (¬ ∃ name parent, registry.get? id = some (.alias name parent)) →
          registry.unalias id = id := by
        intro id notAlias
        rw [unalias]
        split
        · rename_i name parent found
          exact absurd ⟨name, parent, found⟩ notAlias
        · rfl
      rw [plain left, plain right]

theorem fits_unalias_left (sound : registry.Sound mayRefer) (given expected : TypeId) :
    registry.fits (registry.unalias given) expected = registry.fits given expected := by
  rw [sound.fits_unalias, sound.unalias_unalias, ← sound.fits_unalias]

theorem fits_unalias_right (sound : registry.Sound mayRefer) (given expected : TypeId) :
    registry.fits given (registry.unalias expected) = registry.fits given expected := by
  rw [sound.fits_unalias, sound.unalias_unalias, ← sound.fits_unalias]

/-- **What comparison of a class says.** The expected type is the class itself, or it is a
choice of types and the class fits a member, or it is no choice and the superclass fits. -/
theorem fits_iff_of_class? (sound : registry.Sound mayRefer) {declared : ClassType}
    (classed : registry.class? given = some declared) (expected : TypeId) :
    registry.fits given expected = true ↔
      registry.unalias given = registry.unalias expected ∨
      (∃ members, registry.members? expected = some members ∧
        ∃ member ∈ members, registry.fits given member = true) ∨
      registry.members? expected = none ∧ ∃ parent, declared.superclass = some parent ∧
        registry.fits parent expected = true := by
  have there := get?_of_class? classed
  have climbs : (declared.superclass.any fun parent => registry.fits parent expected) = true ↔
      ∃ parent, declared.superclass = some parent ∧ registry.fits parent expected = true := by
    cases declared.superclass <;> simp
  rw [sound.fits_unalias]
  by_cases same : registry.unalias given = registry.unalias expected
  · simp [same, fits_refl]
  cases found : registry.get? (registry.unalias expected) with
  | none =>
      have noChoice : registry.members? expected = none := by rw [members?, found]
      rw [fits, if_neg same, there, found]
      obtain ⟨name, superclass, scope⟩ := declared
      cases superclass with
      | none => simp [same, noChoice]
      | some parent =>
          have refers : parent ∈ (Ty.nominal ⟨name, some parent, scope⟩).references :=
            List.mem_singleton.2 rfl
          have earlier := (sound.found_reference there refers).1
          simp [same, noChoice, earlier, sound.fits_unalias_right]
  | some type =>
      rw [sound.fits_eq there found, if_neg same]
      cases type with
      | «alias» name parent => exact absurd found (sound.unalias_ne_alias expected name parent)
      | union name members =>
          have choice : registry.members? expected = some members :=
            members?_eq_some_iff.2 ⟨name, found⟩
          simp [fitsStep, choice, same, sound.fits_unalias_left]
      | _ =>
          have noChoice : registry.members? expected = none := by rw [members?, found]
          simp [fitsStep, noChoice, same, sound.fits_unalias_right, climbs]

/-- Comparison of two function types goes part by part. -/
theorem fits_iff_of_functions (sound : registry.Sound mayRefer) (apart : given ≠ expected)
    {one other : FunctionType} (left : registry.get? given = some (.function one))
    (right : registry.get? expected = some (.function other)) :
    registry.fits given expected = true ↔
      List.Forall₂ (fun first second => registry.fits first second = true)
        (one.result :: one.parameters) (other.result :: other.parameters) := by
  rw [sound.fits_eq left right, if_neg apart, fitsStep, List.forall₂_cons, List.forall₂_iff_zip]
  simp only [Bool.and_eq_true, beq_iff_eq, List.all_eq_true, Prod.forall]
  exact and_comm

/-- **What comparison says of two types that are no choices.** They are the same behind
their aliases, or they are function types that fit part by part, or the first is a class
whose superclass fits. -/
theorem fits_iff_of_no_choice (sound : registry.Sound mayRefer)
    (noChoice : registry.members? given = none)
    (noChoiceExpected : registry.members? expected = none) :
    registry.fits given expected = true ↔
      registry.unalias given = registry.unalias expected ∨
      (∃ one other, registry.function? given = some one ∧ registry.function? expected = some other ∧
        List.Forall₂ (fun first second => registry.fits first second = true)
          (one.result :: one.parameters) (other.result :: other.parameters)) ∨
      ∃ declared parent, registry.class? given = some declared ∧
        declared.superclass = some parent ∧ registry.fits parent expected = true := by
  by_cases same : registry.unalias given = registry.unalias expected
  · simp [sound.fits_unalias given expected, same, fits_refl]
  cases classed : registry.class? given with
  | some declared =>
      rw [sound.fits_iff_of_class? classed expected]
      simp [same, noChoiceExpected, function?_of_class? classed]
  | none =>
      by_cases functions : ∃ one other, registry.function? given = some one ∧
          registry.function? expected = some other
      · obtain ⟨one, other, function, functionExpected⟩ := functions
        rw [sound.fits_unalias, sound.fits_iff_of_functions same
          (function?_eq_some_iff.1 function) (function?_eq_some_iff.1 functionExpected)]
        simp [same, function, functionExpected]
      · -- No other types are compared.
        have never : registry.fits given expected = false := by
          have left := sound.unalias_ne_alias given
          have right := sound.unalias_ne_alias expected
          have noUnion := members?_eq_none_iff.1 noChoice
          have noUnionExpected := members?_eq_none_iff.1 noChoiceExpected
          have noClass : ∀ declared,
              registry.get? (registry.unalias given) ≠ some (.nominal declared) := by
            intro declared found
            rw [class?_eq_some_iff.2 found] at classed
            cases classed
          simp only [function?_eq_some_iff] at functions
          rw [sound.fits_unalias, fits, if_neg same]
          split <;> simp_all
        simp_all

end Sound

/-- No type is a choice of types. -/
def HasNoUnion (registry : Registry) : Prop :=
  ∀ (id : TypeId) (name : String) (members : List TypeId),
    registry.get? id ≠ some (.union name members)

/-- A sound registry without choices of types. -/
structure Unionless (registry : Registry) : Prop extends Sound (fun _ _ => True) registry where
  not_union : registry.HasNoUnion

namespace Unionless

theorem members?_eq_none (unionless : registry.Unionless) (id : TypeId) :
    registry.members? id = none :=
  members?_eq_none_iff.2 (unionless.not_union (registry.unalias id))

/-- **What comparison says.** The types are the same behind their aliases, or they are
function types that fit part by part, or the first is a class whose superclass fits. -/
theorem fits_iff (unionless : registry.Unionless) (given expected : TypeId) :
    registry.fits given expected = true ↔
      registry.unalias given = registry.unalias expected ∨
      (∃ one other, registry.function? given = some one ∧ registry.function? expected = some other ∧
        List.Forall₂ (fun first second => registry.fits first second = true)
          (one.result :: one.parameters) (other.result :: other.parameters)) ∨
      ∃ declared parent, registry.class? given = some declared ∧
        declared.superclass = some parent ∧ registry.fits parent expected = true :=
  unionless.toSound.fits_iff_of_no_choice (unionless.members?_eq_none given)
    (unionless.members?_eq_none expected)

/-! ## The order -/

/-- **Comparison is transitive.** By induction on the handles of all three types. -/
theorem fits_trans (unionless : registry.Unionless) (left : registry.fits first second = true)
    (right : registry.fits second third = true) : registry.fits first third = true := by
  have sound := unionless.toSound
  induction size : first.index + second.index + third.index using Nat.strongRecOn
    generalizing first second third with
  | ind size ih =>
      rcases (unionless.fits_iff first second).1 left with
        same | ⟨one, other, function, functionSecond, each⟩ |
          ⟨declared, parent, classed, inherits, up⟩
      · rwa [sound.fits_unalias, same, ← sound.fits_unalias]
      · rcases (unionless.fits_iff second third).1 right with
          same | ⟨again, another, functionAgain, functionThird, eachRight⟩ |
            ⟨declared, _, classed, _⟩
        · rwa [sound.fits_unalias, ← same, ← sound.fits_unalias]
        · obtain rfl := Option.some.inj (functionSecond.symm.trans functionAgain)
          refine (unionless.fits_iff first third).2 (.inr (.inl
            ⟨one, another, function, functionThird, each.comp_of_mem eachRight ?_⟩))
          intro x amongX y amongY z amongZ fitsLeft fitsRight
          have smallerX := sound.index_lt_of_function? function amongX
          have smallerY := sound.index_lt_of_function? functionSecond amongY
          have smallerZ := sound.index_lt_of_function? functionThird amongZ
          exact ih _ (by omega) fitsLeft fitsRight rfl
        · rw [function?_of_class? classed] at functionSecond
          cases functionSecond
      · have smaller := sound.index_lt_of_class? classed inherits
        have behind := registry.index_unalias_le first
        exact (unionless.fits_iff first third).2 (.inr (.inr
          ⟨declared, parent, classed, inherits, ih _ (by omega) up right rfl⟩))

/-- What fits where a class is expected is no earlier type than the class. -/
theorem index_le_of_fits_class (unionless : registry.Unionless) {declared : ClassType}
    (classed : registry.class? second = some declared)
    (fits : registry.fits first second = true) :
    (registry.unalias second).index ≤ (registry.unalias first).index := by
  have sound := unionless.toSound
  induction size : first.index using Nat.strongRecOn generalizing first with
  | ind size ih =>
      rcases (unionless.fits_iff first second).1 fits with
        same | ⟨_, _, _, function, _⟩ | ⟨below, parent, classedFirst, inherits, up⟩
      · exact Nat.le_of_eq (congrArg TypeId.index same.symm)
      · rw [function?_of_class? classed] at function
        cases function
      · have smaller := sound.index_lt_of_class? classedFirst inherits
        have behind := registry.index_unalias_le first
        have behindParent := registry.index_unalias_le parent
        have climbed := ih parent.index (by omega) up rfl
        omega

theorem fits_of_extends (unionless : registry.Unionless) (below : registry.Extends first second) :
    registry.fits first second = true := by
  induction below with
  | superclass classed inherits =>
      exact (unionless.fits_iff _ _).2 (.inr (.inr ⟨_, _, classed, inherits, fits_refl _ _⟩))
  | ancestor classed inherits _ ih =>
      exact (unionless.fits_iff _ _).2 (.inr (.inr ⟨_, _, classed, inherits, ih⟩))

theorem index_lt_of_extends (unionless : registry.Unionless)
    (below : registry.Extends first second) : second.index < (registry.unalias first).index := by
  induction below with
  | superclass classed inherits => exact unionless.toSound.index_lt_of_class? classed inherits
  | @ancestor id parent _ _ classed inherits _ ih =>
      have smaller := unionless.toSound.index_lt_of_class? classed inherits
      have behind := registry.index_unalias_le parent
      omega

/-- An ancestor does not fit where its descendant is expected: it is an earlier type. -/
theorem not_fits_of_extends (unionless : registry.Unionless)
    (below : registry.Extends first second) : registry.fits second first = false := by
  rw [Bool.eq_false_iff]
  intro fits
  have classed : ∃ declared, registry.class? first = some declared := by
    cases below with
    | superclass classed _ => exact ⟨_, classed⟩
    | ancestor classed _ _ => exact ⟨_, classed⟩
  obtain ⟨declared, classed⟩ := classed
  have later := unionless.index_le_of_fits_class classed fits
  have earlier := unionless.index_lt_of_extends below
  have behind := registry.index_unalias_le second
  omega

theorem forall₂_expand_iff {xs ys : List TypeId} :
    List.Forall₂ (fun x y => registry.expand x = registry.expand y) xs ys ↔
      xs.map registry.expand = ys.map registry.expand := by
  rw [← List.forall₂_eq_eq_eq, List.forall₂_map_left_iff, List.forall₂_map_right_iff]

/-- **Comparison is antisymmetric up to aliases.** A class that fits where an equal type
is expected cannot do so through its superclass. -/
theorem expand_eq_of_fits (unionless : registry.Unionless)
    (left : registry.fits first second = true) (right : registry.fits second first = true) :
    registry.expand first = registry.expand second := by
  have sound := unionless.toSound
  induction size : first.index + second.index using Nat.strongRecOn
    generalizing first second with
  | ind size ih =>
      rcases (unionless.fits_iff first second).1 left with
        same | ⟨one, other, function, functionSecond, each⟩ |
          ⟨declared, parent, classed, inherits, up⟩
      · rw [← expand_unalias, same, expand_unalias]
      · rcases (unionless.fits_iff second first).1 right with
          same | ⟨again, another, functionAgain, functionFirst, eachRight⟩ |
            ⟨declared, _, classed, _⟩
        · rw [← expand_unalias, ← same, expand_unalias]
        · obtain rfl := Option.some.inj (functionSecond.symm.trans functionAgain)
          obtain rfl := Option.some.inj (function.symm.trans functionFirst)
          have parts := forall₂_expand_iff.1 (each.both_of_mem eachRight
            fun x amongX y amongY fitsLeft fitsRight =>
              have smallerX := sound.index_lt_of_function? function amongX
              have smallerY := sound.index_lt_of_function? functionSecond amongY
              ih _ (by omega) fitsLeft fitsRight rfl)
          obtain ⟨result, parameters⟩ := List.cons.inj parts
          rw [sound.expand_eq first, sound.expand_eq second, function, functionSecond]
          exact congrArg₂ Expanded.function parameters result
        · rw [function?_of_class? classed] at functionSecond
          cases functionSecond
      · have ancestor := unionless.not_fits_of_extends (.superclass classed inherits)
        rw [unionless.fits_trans up right] at ancestor
        cases ancestor

theorem fits_of_expand_eq (unionless : registry.Unionless)
    (same : registry.expand first = registry.expand second) :
    registry.fits first second = true := by
  have sound := unionless.toSound
  induction size : first.index + second.index using Nat.strongRecOn
    generalizing first second with
  | ind size ih =>
      rw [sound.expand_eq first, sound.expand_eq second] at same
      refine (unionless.fits_iff first second).2 ?_
      cases function : registry.function? first with
      | none =>
          cases functionSecond : registry.function? second with
          | none =>
              rw [function, functionSecond] at same
              exact .inl (Expanded.atom.inj same)
          | some other =>
              rw [function, functionSecond] at same
              cases same
      | some one =>
          cases functionSecond : registry.function? second with
          | none =>
              rw [function, functionSecond] at same
              cases same
          | some other =>
              rw [function, functionSecond] at same
              obtain ⟨parameters, result⟩ := Expanded.function.inj same
              have each : List.Forall₂ (fun x y => registry.expand x = registry.expand y)
                  (one.result :: one.parameters) (other.result :: other.parameters) :=
                .cons result (forall₂_expand_iff.2 parameters)
              refine .inr (.inl ⟨one, other, rfl, rfl, each.both_of_mem each.flip ?_⟩)
              intro x amongX y amongY sameParts _
              have smallerX := sound.index_lt_of_function? function amongX
              have smallerY := sound.index_lt_of_function? functionSecond amongY
              exact ih _ (by omega) sameParts rfl

end Unionless

/-! ## Registries built without choices of types -/

/-- A call that declares no choice of types, on handles of the registry. -/
def UnionlessCall (registry : Registry) (operation : Operation) : Prop :=
  operation.IsUnionless ∧ ∀ id ∈ operation.handles, registry.Has id

theorem hasNoUnion_initial : initial.HasNoUnion := by
  intro id name members found
  obtain ⟨kind, same⟩ := primitive_of_get?_initial found
  cases same

/-- A call that declares no choice of types adds none. -/
theorem HasNoUnion.changes {before after : Registry} {operation : Operation}
    (noUnion : before.HasNoUnion) (unionless : operation.IsUnionless)
    (sound : before.Sound fun _ _ => True)
    (change : operation.Changes (fun _ _ => True) before after) : after.HasNoUnion := by
  intro id name members found
  rcases change.get? admits_all sound found with found | ⟨signature, same⟩ | makes
  · exact noUnion id name members found
  · cases same
  · cases operation with
    | declareUnion => exact unionless
    | declareAlias =>
        obtain ⟨_, same⟩ := makes
        cases same
    | _ => cases makes

theorem Reaches.unionless {built : Registry} (reaches : Reaches UnionlessCall initial built) :
    built.Unionless := by
  obtain ⟨sound, noUnion⟩ := reaches.invariant sound_initial admits_all
    (fun call => Operation.respects_of_has call.2) hasNoUnion_initial
    fun call sound noUnion change => noUnion.changes call.1 sound change
  exact ⟨sound, noUnion⟩

/-- **Without choices of types, comparison is a partial order up to aliases.** -/
theorem Reaches.fits_partialOrder {built : Registry}
    (reaches : Reaches UnionlessCall initial built) :
    (∀ first, built.fits first first = true) ∧
      (∀ first second third, built.fits first second = true → built.fits second third = true →
        built.fits first third = true) ∧
      (∀ first second, (built.fits first second = true ∧ built.fits second first = true) ↔
        built.expand first = built.expand second) ∧
      ∀ descendant ancestor, built.Extends descendant ancestor →
        built.fits descendant ancestor = true ∧ built.fits ancestor descendant = false := by
  have unionless := reaches.unionless
  refine ⟨built.fits_refl, fun _ _ _ => unionless.fits_trans, fun first second => ⟨?_, ?_⟩, ?_⟩
  · rintro ⟨left, right⟩
    exact unionless.expand_eq_of_fits left right
  · intro same
    exact ⟨unionless.fits_of_expand_eq same, unionless.fits_of_expand_eq same.symm⟩
  · intro descendant ancestor below
    exact ⟨unionless.fits_of_extends below, unionless.not_fits_of_extends below⟩

/-- Functions over a subclass, over an alias of it and over its superclass. -/
theorem fits_partialOrder_pets :
    ∃ built, Reaches UnionlessCall initial built ∧
      ["Animal", "Dog", "Pet", "Fn<number<Dog>>", "Fn<number<Pet>>", "Fn<number<Animal>>"] =
        [4, 5, 6, 7, 8, 9].map (fun index => built.name ⟨index⟩) ∧
      built.expand ⟨7⟩ = built.expand ⟨8⟩ ∧ built.fits ⟨8⟩ ⟨9⟩ = true ∧
      built.expand ⟨8⟩ ≠ built.expand ⟨9⟩ ∧ built.fits ⟨4⟩ ⟨6⟩ = false := by
  have animal : Reaches UnionlessCall initial _ :=
    .step (.declareClass "Animal" none ⟨1⟩) .refl ⟨trivial, nofun⟩
  have dog := animal.step (.declareClass "Dog" (some ⟨4⟩) ⟨2⟩) ⟨trivial, by
    intro id among
    obtain rfl := List.mem_singleton.1 among
    exact ⟨_, rfl⟩⟩
  have pet := dog.step (.declareAlias "Pet" "Dog") ⟨trivial, nofun⟩
  have overDogs := pet.step (.resolve "Fn<number<Dog>>") ⟨trivial, nofun⟩
  have overPets := overDogs.step (.resolve "Fn<number<Pet>>") ⟨trivial, nofun⟩
  have overAnimals := overPets.step (.resolve "Fn<number<Animal>>") ⟨trivial, nofun⟩
  obtain ⟨_, _, antisymm, ancestors⟩ := overAnimals.fits_partialOrder
  refine ⟨_, overAnimals, by decide +kernel,
    (antisymm ⟨7⟩ ⟨8⟩).1 ⟨by decide +kernel, by decide +kernel⟩, by decide +kernel, fun same => ?_,
    (ancestors ⟨6⟩ ⟨4⟩ (.superclass (show _ = some ⟨"Dog", some ⟨4⟩, ⟨2⟩⟩ by decide +kernel) rfl)).2⟩
  have back := ((antisymm ⟨8⟩ ⟨9⟩).2 same).2
  revert back
  decide +kernel

end TypedLisp.Registry
