import TypedLisp.Proofs.Resolution

/-!
# Names of types

In a registry where all declared names are plain, the canonical names of types are
spelled texts, and that of a function type comes apart into the names of its parameters
and of its result (`Registry.Plain.functionParts?_functionName`). When no declared name
was forgotten, a type is determined by its name (`Registry.Listed.eq_of_name`), and so
the function type that is made over some parts is the one with these parts
(`Registry.Listed.get?_function`).
-/

set_option autoImplicit false

namespace TypedLisp

namespace Registry

open TypeText (Spelled isPlainName written writtenParameters OpensFunction)

variable {registry : Registry} {id : TypeId} {mayRefer : Ty → Ty → Prop}

/-- Function types do not refer to generic functions. -/
def NamesParts (mayRefer : Ty → Ty → Prop) : Prop :=
  ∀ (signature : FunctionType) (content : Ty), mayRefer (.function signature) content →
    content.IsNongeneric

theorem namesParts : NamesParts fun _ => Ty.IsNongeneric := fun _ _ nongeneric => nongeneric

/-- All declared names are plain. -/
def Plain (registry : Registry) : Prop :=
  ∀ (id : TypeId) (type : Ty) (name : String), registry.get? id = some type →
    type.declaredName? = some name → isPlainName name.toList = true

/-- **Names of types are spelled texts.** By induction on the handle, since the parts of
a function type are earlier types. -/
theorem Plain.spelled (plain : registry.Plain) (sound : registry.Sound mayRefer)
    (names : NamesParts mayRefer) (nongeneric : registry.IsPlain id) :
    Spelled (registry.name id).toList := by
  induction size : id.index using Nat.strongRecOn generalizing id with
  | ind size ih =>
      obtain ⟨type, found, notGeneric⟩ := nongeneric
      have named : registry.name id = type.name := by simp [Registry.name, found]
      rw [named]
      cases declared : type.declaredName? with
      | some name =>
          rw [Ty.name_of_declaredName? declared]
          exact .plain (plain id type name found declared)
      | none =>
          cases type with
          | function signature =>
              have canonical := (sound.canonical found).2
              have part : ∀ part ∈ signature.result :: signature.parameters,
                  Spelled (registry.name part).toList := by
                intro part among
                obtain ⟨smaller, there⟩ := sound.references found part among
                exact ih part.index (by omega) (there.imp (names _ _)) rfl
              change Spelled signature.name.toList
              rw [canonical, toList_functionName]
              refine .function (fun text among => ?_) (part _ List.mem_cons_self)
              obtain ⟨parameter, listed, rfl⟩ := List.mem_map.1 among
              exact part parameter (List.mem_cons_of_mem _ listed)
          | generic template => exact absurd rfl (notGeneric template)
          | _ => cases declared

theorem Plain.spelled_parts (plain : registry.Plain) (sound : registry.Sound mayRefer)
    (names : NamesParts mayRefer) {parameters : List TypeId} {result : TypeId}
    (inside : ∀ part ∈ result :: parameters, registry.IsPlain part) :
    (∀ text ∈ parameters.map fun parameter => (registry.name parameter).toList, Spelled text) ∧
      Spelled (registry.name result).toList := by
  refine ⟨fun text among => ?_, plain.spelled sound names (inside result List.mem_cons_self)⟩
  obtain ⟨parameter, listed, rfl⟩ := List.mem_map.1 among
  exact plain.spelled sound names (inside parameter (List.mem_cons_of_mem _ listed))

/-- The canonical name of a function type comes apart into the names of its parts. -/
theorem Plain.functionParts?_functionName (plain : registry.Plain)
    (sound : registry.Sound mayRefer) (names : NamesParts mayRefer) {parameters : List TypeId}
    {result : TypeId} (inside : ∀ part ∈ result :: parameters, registry.IsPlain part) :
    TypeText.functionParts? (registry.functionName parameters result).toList =
      some (parameters.map fun parameter => (registry.name parameter).toList,
        (registry.name result).toList) := by
  obtain ⟨each, last⟩ := plain.spelled_parts sound names inside
  rw [toList_functionName, TypeText.functionParts?_written each last]

theorem Plain.blankFree_functionName (plain : registry.Plain) (sound : registry.Sound mayRefer)
    (names : NamesParts mayRefer) {parameters : List TypeId} {result : TypeId}
    (inside : ∀ part ∈ result :: parameters, registry.IsPlain part) :
    TypeText.BlankFree (registry.functionName parameters result).toList := by
  obtain ⟨each, last⟩ := plain.spelled_parts sound names inside
  rw [toList_functionName]
  exact (Spelled.function each last).not_isBlank

/-! ## Names that are known -/

/-- All names under which types are found are plain. -/
def PlainNames (registry : Registry) : Prop :=
  ∀ (name : String) (id : TypeId), registry.names.get? name = some id →
    isPlainName name.toList = true

theorem Plain.plainNames (plain : registry.Plain) (sound : registry.Sound mayRefer) :
    registry.PlainNames := by
  intro name id listed
  obtain ⟨type, found, declared⟩ := sound.named listed
  exact plain id type name found declared

/-- No declared name is a text of a function type. -/
theorem PlainNames.names_eq_none (plain : registry.PlainNames) {text : String}
    (opens : OpensFunction text) : registry.names.get? text = none := by
  cases listed : registry.names.get? text with
  | none => rfl
  | some id =>
      exact absurd opens (TypeText.not_opensFunction_of_plain (plain text id listed))

theorem known?_of_names {text : String} (listed : registry.names.get? text = some id) :
    registry.known? text = some id := by
  simp [known?, lookup?, listed]

theorem PlainNames.known?_of_functions (plain : registry.PlainNames)
    (sound : registry.Sound mayRefer) {text : String}
    (listed : registry.functions.get? text = some id) : registry.known? text = some id := by
  obtain ⟨_, _, spelled⟩ := sound.interned listed
  simp [known?, lookup?, plain.names_eq_none spelled.opens, listed]

theorem names_or_functions_of_known? {text : String} (known : registry.known? text = some id) :
    registry.names.get? text = some id ∨ registry.functions.get? text = some id := by
  unfold known? lookup? at known
  split at known
  · rename_i other listed
    exact .inl (listed.trans known)
  · exact .inr known

/-- The name of a type leads to it. -/
def IsCurrent (registry : Registry) (id : TypeId) : Prop :=
  registry.known? (registry.name id) = some id

/-- A type that a text stands for is found under its own name. -/
theorem PlainNames.isCurrent_of_known? (plain : registry.PlainNames)
    (sound : registry.Sound mayRefer) {text : String}
    (known : registry.known? text = some id) : registry.IsCurrent id := by
  unfold IsCurrent
  rcases names_or_functions_of_known? known with listed | listed
  · obtain ⟨type, found, declared⟩ := sound.named listed
    have named : registry.name id = text := by
      simp [Registry.name, found, Ty.name_of_declaredName? declared]
    rw [named]
    exact known
  · obtain ⟨signature, found, _⟩ := sound.interned listed
    have named : registry.name id = signature.name := by simp [Registry.name, found, Ty.name]
    rw [named]
    exact plain.known?_of_functions sound (sound.canonical found).1

/-! ## Types that their names determine -/

/-- Every declared type is found under its name: no name was forgotten. -/
def Listed (registry : Registry) : Prop :=
  ∀ (id : TypeId) (type : Ty) (name : String), registry.get? id = some type →
    type.declaredName? = some name → registry.names.get? name = some id

theorem Listed.isCurrent (listed : registry.Listed) (plain : registry.PlainNames)
    (sound : registry.Sound mayRefer) (nongeneric : registry.IsPlain id) :
    registry.IsCurrent id := by
  obtain ⟨type, found, notGeneric⟩ := nongeneric
  have named : registry.name id = type.name := by simp [Registry.name, found]
  rw [IsCurrent, named]
  cases declared : type.declaredName? with
  | some name =>
      rw [Ty.name_of_declaredName? declared]
      exact known?_of_names (listed id type name found declared)
  | none =>
      cases type with
      | function signature => exact plain.known?_of_functions sound (sound.canonical found).1
      | generic template => exact absurd rfl (notGeneric template)
      | _ => cases declared

/-- **A type is determined by its name.** -/
theorem Listed.eq_of_name {first second : TypeId} (listed : registry.Listed)
    (plain : registry.PlainNames) (sound : registry.Sound mayRefer)
    (left : registry.IsPlain first) (right : registry.IsPlain second)
    (same : registry.name first = registry.name second) : first = second := by
  have current := listed.isCurrent plain sound left
  rw [IsCurrent, same, listed.isCurrent plain sound right] at current
  exact (Option.some.inj current).symm

/-- A canonical name determines the parts that it is written from. -/
theorem Listed.eq_of_functionName (listed : registry.Listed) (plain : registry.Plain)
    (sound : registry.Sound mayRefer) (names : NamesParts mayRefer)
    {parameters others : List TypeId} {result other : TypeId}
    (inside : ∀ part ∈ result :: parameters, registry.IsPlain part)
    (insideOther : ∀ part ∈ other :: others, registry.IsPlain part)
    (same : registry.functionName parameters result = registry.functionName others other) :
    parameters = others ∧ result = other := by
  have parts := plain.functionParts?_functionName sound names inside
  rw [same, plain.functionParts?_functionName sound names insideOther] at parts
  obtain ⟨sameParameters, sameResult⟩ := Prod.mk.inj (Option.some.inj parts)
  have injective : ∀ first ∈ other :: others, ∀ second ∈ result :: parameters,
      (registry.name first).toList = (registry.name second).toList → first = second := by
    intro first left second right same
    exact listed.eq_of_name (plain.plainNames sound) sound (insideOther first left)
      (inside second right) (String.toList_inj.1 same)
  have results := injective other List.mem_cons_self result List.mem_cons_self sameResult
  refine ⟨(List.eq_of_map_eq (fun first left second right => ?_) sameParameters).symm, results.symm⟩
  exact injective first (List.mem_cons_of_mem _ left) second (List.mem_cons_of_mem _ right)

/-- **Function types are made exactly.** When every declared type is found under its plain
name, the function type over some parts has just these parts. -/
theorem Listed.get?_function (listed : registry.Listed) (plain : registry.Plain)
    (wellFormed : registry.WellFormed) {parameters : List TypeId} {result : TypeId}
    (inside : ∀ part ∈ result :: parameters, registry.IsPlain part) :
    (registry.function parameters result).2.get? (registry.function parameters result).1 =
      some (.function ⟨registry.functionName parameters result, parameters, result⟩) := by
  cases found : registry.functions.get? (registry.functionName parameters result) with
  | none =>
      rw [function_of_get?_eq_none found]
      exact (get?_add registry _ _).trans (if_pos rfl)
  | some id =>
      rw [function_of_get? found]
      obtain ⟨signature, there, spelled⟩ := wellFormed.interned found
      have named :=
        spelled.name_eq (plain.blankFree_functionName wellFormed namesParts inside)
      have canonical := (wellFormed.canonical there).2
      have insideOther : ∀ part ∈ signature.result :: signature.parameters,
          registry.IsPlain part := fun part among =>
        (wellFormed.references there part among).2
      obtain ⟨rfl, rfl⟩ := listed.eq_of_functionName plain wellFormed namesParts inside insideOther
        (named.symm.trans canonical)
      rw [there, ← named]

/-! ## Deciding what is asked of names -/

/-- What holds of every declared name with its type can be decided. -/
theorem forall_declared_iff (registry : Registry) (holds : TypeId → String → Prop) :
    (∀ index < registry.types.size, ∀ type ∈ registry.get? ⟨index⟩, ∀ name ∈ type.declaredName?,
      holds ⟨index⟩ name) ↔
    ∀ (id : TypeId) (type : Ty) (name : String), registry.get? id = some type →
      type.declaredName? = some name → holds id name := by
  constructor
  · intro each id type name found declared
    exact each id.index (index_lt_of_get? found) type found name declared
  · intro each index _ type found name declared
    exact each ⟨index⟩ type name found declared

instance (registry : Registry) : Decidable registry.Plain :=
  decidable_of_iff _ (registry.forall_declared_iff fun _ name => isPlainName name.toList = true)

instance (registry : Registry) : Decidable registry.Listed :=
  decidable_of_iff _ (registry.forall_declared_iff fun id name =>
    registry.names.get? name = some id)

end Registry

end TypedLisp
