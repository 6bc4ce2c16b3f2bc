import TypedLisp.Proofs.TypeGrammar
import TypedLisp.Registry.Compare
import TypedLisp.Registry.Resolve

/-!
# Sound registries

In a sound registry every type refers to earlier types only, a declared name leads
to a type of that name, and a text of a function type leads to a function type whose
canonical name is no longer than the text, and is the text itself when that has no
blanks. Every function type is found under its canonical name, and any other text of it
comes apart into texts of types whose function type it is. What a type may refer to can be
limited: the registries of the checker, where no type refers to a generic function, are
called well-formed.

Adding types, and function types under their canonical names, keeps a registry sound and
changes no entry that is there (`Grows`).
-/

set_option autoImplicit false

namespace TypedLisp

/-! ## What a type holds -/

namespace Ty

/-- The types that a type refers to. -/
def references : Ty → List TypeId
  | .primitive _ => []
  | .alias _ parent => [parent]
  | .function signature => signature.result :: signature.parameters
  | .union _ members => members
  | .nominal declared => declared.superclass.toList
  | .generic _ => []

/-- The scope that a type keeps: that of a class or of a generic function. -/
def scope? : Ty → Option ScopeId
  | .nominal declared => some declared.scope
  | .generic template => some template.scope
  | _ => none

/-- The name under which a type is declared. -/
def declaredName? : Ty → Option String
  | .primitive kind => some kind.name
  | .alias name _ => some name
  | .union name _ => some name
  | .nominal declared => some declared.name
  | .function _ => none
  | .generic _ => none

theorem name_of_declaredName? {type : Ty} {name : String}
    (declared : type.declaredName? = some name) : type.name = name := by
  cases type <;> simp_all [declaredName?, Ty.name]

/-- A type is no generic function. -/
def IsNongeneric (type : Ty) : Prop := ∀ template, type ≠ .generic template

theorem isNongeneric_of_declaredName? {type : Ty} {name : String}
    (declared : type.declaredName? = some name) : type.IsNongeneric := by
  rintro template rfl
  simp [declaredName?] at declared

end Ty

/-- A text can stand for a function type. -/
structure FunctionType.SpelledBy (signature : FunctionType) (text : String) : Prop where
  short : signature.name.length ≤ text.length
  opens : TypeText.OpensFunction text
  name_eq : TypeText.BlankFree text.toList → signature.name = text

namespace Registry

/-- There is a type of a handle. -/
def Has (registry : Registry) (id : TypeId) : Prop := ∃ type, registry.get? id = some type

/-- There is a type of a handle, and it is of a kind. -/
def HasKind (registry : Registry) (kind : Ty → Prop) (id : TypeId) : Prop :=
  ∃ type, registry.get? id = some type ∧ kind type

/-- There is a type of a handle, and it is no generic function. -/
def IsPlain (registry : Registry) (id : TypeId) : Prop := registry.HasKind Ty.IsNongeneric id

/-- A text spells a type: it is a text of a function type, or the name under which the
type was declared. -/
def Spells (registry : Registry) (text : List Char) (id : TypeId) : Prop :=
  registry.functions.get? (String.ofList (Text.trim text)) = some id ∨
    registry.HasKind (fun type => type.declaredName? = some (String.ofList (Text.trim text))) id

/-- A text is the name of a type, or it comes apart into texts that spell types, and the
canonical name of the function type over these types leads to the type. -/
def ComesApart (registry : Registry) (text : String) (id : TypeId) : Prop :=
  registry.HasKind (·.name = text) id ∨
    ∃ (parameterTexts : List (List Char)) (resultText : List Char) (parameters : List TypeId)
      (result : TypeId), TypeText.functionParts? text.toList = some (parameterTexts, resultText) ∧
        List.Forall₂ registry.Spells parameterTexts parameters ∧
        registry.Spells resultText result ∧
        registry.functions.get? (registry.functionName parameters result) = some id

/-- Types refer to earlier types that they may refer to, and the tables lead to types
of their names and texts. -/
structure Sound (mayRefer : Ty → Ty → Prop) (registry : Registry) : Prop where
  primitives : ∀ {id : TypeId} {type : Ty}, initial.get? id = some type →
    registry.get? id = some type
  references : ∀ {id : TypeId} {type : Ty}, registry.get? id = some type →
    ∀ reference ∈ type.references, reference.index < id.index ∧
      registry.HasKind (mayRefer type) reference
  named : ∀ {name : String} {id : TypeId}, registry.names.get? name = some id →
    ∃ type, registry.get? id = some type ∧ type.declaredName? = some name
  interned : ∀ {text : String} {id : TypeId}, registry.functions.get? text = some id →
    ∃ signature, registry.get? id = some (.function signature) ∧ signature.SpelledBy text
  canonical : ∀ {id : TypeId} {signature : FunctionType},
    registry.get? id = some (.function signature) →
      registry.functions.get? signature.name = some id ∧
        signature.name = registry.functionName signature.parameters signature.result
  decoded : ∀ {text : String} {id : TypeId}, registry.functions.get? text = some id →
    registry.ComesApart text id

/-- Every type may refer to any type that is no generic function. -/
def AdmitsNongeneric (mayRefer : Ty → Ty → Prop) : Prop :=
  ∀ type content : Ty, content.IsNongeneric → mayRefer type content

/-- A sound registry in which no type refers to a generic function. -/
def WellFormed (registry : Registry) : Prop := registry.Sound fun _ => Ty.IsNongeneric

/-- The second registry has the types and the entries of the first one. -/
structure Grows (before after : Registry) : Prop where
  types : ∀ {id : TypeId} {type : Ty}, before.get? id = some type → after.get? id = some type
  names : ∀ {name : String} {id : TypeId}, before.names.get? name = some id →
    after.names.get? name = some id
  functions : ∀ {text : String} {id : TypeId}, before.functions.get? text = some id →
    after.functions.get? text = some id

/-- The second registry has further function types and spellings, but no other
types or names. -/
structure Interns (before after : Registry) : Prop extends Grows before after where
  same_names : after.names = before.names
  only_functions : ∀ {id : TypeId} {type : Ty}, after.get? id = some type →
    before.get? id = some type ∨ ∃ signature, type = .function signature

variable {registry before middle after : Registry} {id : TypeId} {type : Ty} {kind : Ty → Prop}
  {mayRefer : Ty → Ty → Prop}

theorem admitsNongeneric : AdmitsNongeneric fun _ => Ty.IsNongeneric :=
  fun _ _ nongeneric => nongeneric

theorem HasKind.imp {wider : Ty → Prop} (there : registry.HasKind kind id)
    (implies : ∀ {type : Ty}, kind type → wider type) : registry.HasKind wider id := by
  obtain ⟨type, found, isKind⟩ := there
  exact ⟨type, found, implies isKind⟩

theorem HasKind.has (there : registry.HasKind kind id) : registry.Has id := by
  obtain ⟨type, found, _⟩ := there
  exact ⟨type, found⟩

/-! ## The primitives -/

theorem primitive_of_get?_initial {id : TypeId} {type : Ty} (found : initial.get? id = some type) :
    ∃ kind, type = .primitive kind := by
  obtain ⟨index⟩ := id
  match index with
  | 0 | 1 | 2 | 3 => exact ⟨_, (Option.some.inj found).symm⟩
  | _ + 4 => simp [get?, initial] at found

theorem sound_initial : initial.Sound mayRefer where
  primitives found := found
  references found reference among := by
    obtain ⟨kind, rfl⟩ := primitive_of_get?_initial found
    simp [Ty.references] at among
  named {name id} found := by
    simp only [initial, NameTable.get?, NameTable.find?] at found
    repeat' split at found
    all_goals cases found
    all_goals exact ⟨_, rfl, congrArg some ‹_ = name›⟩
  interned found := by simp [initial] at found
  canonical found := by
    obtain ⟨kind, same⟩ := primitive_of_get?_initial found
    cases same
  decoded found := by simp [initial] at found

/-! ## Growth -/

namespace Grows

theorem refl (registry : Registry) : Grows registry registry :=
  ⟨fun found => found, fun found => found, fun found => found⟩

theorem trans (first : Grows before middle) (second : Grows middle after) : Grows before after :=
  ⟨fun found => second.types (first.types found), fun found => second.names (first.names found),
    fun found => second.functions (first.functions found)⟩

theorem name (grows : Grows before after) (found : before.get? id = some type) :
    after.name id = before.name id := by
  simp [Registry.name, found, grows.types found]

end Grows

namespace Interns

theorem refl (registry : Registry) : Interns registry registry :=
  { Grows.refl registry with
    same_names := rfl
    only_functions := fun found => .inl found }

theorem trans (first : Interns before middle) (second : Interns middle after) :
    Interns before after :=
  { first.toGrows.trans second.toGrows with
    same_names := second.same_names.trans first.same_names
    only_functions := fun found => by
      rcases second.only_functions found with found | function
      · exact first.only_functions found
      · exact .inr function }

theorem known? (interns : Interns before after) {text : String}
    (known : before.known? text = some id) : after.known? text = some id := by
  unfold Registry.known? lookup? at known ⊢
  rw [interns.same_names]
  split at known
  · exact known
  · exact interns.functions known

end Interns

theorem index_lt_of_get? (found : registry.get? id = some type) :
    id.index < registry.types.size := by
  refine Nat.lt_of_not_le fun outside => ?_
  simp [get?, Array.getElem?_eq_none outside] at found

/-- A text that is known leads to a type whose name is no longer than the text and
that is no generic function. -/
theorem Sound.of_known? (sound : registry.Sound mayRefer) {text : String}
    (known : registry.known? text = some id) :
    ∃ type, registry.get? id = some type ∧ type.name.length ≤ text.length ∧
      type.IsNongeneric := by
  unfold known? lookup? at known
  split at known
  · rename_i found
    obtain rfl := Option.some.inj known
    obtain ⟨type, there, declared⟩ := sound.named found
    exact ⟨type, there, Nat.le_of_eq (congrArg String.length (Ty.name_of_declaredName? declared)),
      Ty.isNongeneric_of_declaredName? declared⟩
  · obtain ⟨signature, there, spelled⟩ := sound.interned known
    exact ⟨_, there, spelled.short, by simp [Ty.IsNongeneric]⟩

/-! ## Adding types -/

theorem get?_add (registry : Registry) (type : Ty) (id : TypeId) :
    (registry.add type).2.get? id =
      if id = (registry.add type).1 then some type else registry.get? id := by
  by_cases same : id = ⟨registry.types.size⟩
  · simp [add, get?, same]
  · have apart : id.index ≠ registry.types.size := by
      intro equal
      apply same
      cases id
      simp_all
    simp [add, get?, same, Array.getElem?_push, apart]

theorem get?_add_of_get? {added : Ty} (found : registry.get? id = some type) :
    (registry.add added).2.get? id = some type := by
  rw [get?_add, if_neg, found]
  rintro rfl
  exact Nat.lt_irrefl _ (index_lt_of_get? found)

theorem name_eq_of_types (same : ∀ {id : TypeId} {type : Ty}, before.get? id = some type →
    after.get? id = some type) {ids : List TypeId}
    (inside : ∀ id ∈ ids, before.Has id) :
    ids.map after.name = ids.map before.name := by
  refine List.map_congr_left fun id among => ?_
  obtain ⟨type, found⟩ := inside id among
  simp [name, found, same found]

/-- The canonical name of a function type depends only on the types that it
speaks of. -/
theorem functionName_eq (same : ∀ {id : TypeId} {type : Ty}, before.get? id = some type →
    after.get? id = some type) {parameters : List TypeId} {result : TypeId}
    (inside : ∀ id ∈ result :: parameters, before.Has id) :
    after.functionName parameters result = before.functionName parameters result := by
  have names := name_eq_of_types same inside
  simp only [List.map_cons, List.cons.injEq] at names
  simp only [functionName, names]

theorem grows_add (registry : Registry) (type : Ty) : Grows registry (registry.add type).2 :=
  ⟨get?_add_of_get?, fun found => found, fun found => found⟩

theorem Sound.has_of_spells (sound : registry.Sound mayRefer) {text : List Char}
    (spells : registry.Spells text id) : registry.Has id := by
  rcases spells with listed | declared
  · obtain ⟨signature, found, _⟩ := sound.interned listed
    exact ⟨_, found⟩
  · exact declared.has

theorem Spells.grows {text : List Char} (spells : before.Spells text id)
    (grows : Grows before after) : after.Spells text id := by
  rcases spells with listed | ⟨type, found, declared⟩
  · exact .inl (grows.functions listed)
  · exact .inr ⟨type, grows.types found, declared⟩

theorem HasKind.of_types (same : ∀ {id : TypeId} {type : Ty}, before.get? id = some type →
    after.get? id = some type) (there : before.HasKind kind id) : after.HasKind kind id := by
  obtain ⟨type, found, isKind⟩ := there
  exact ⟨type, same found, isKind⟩

theorem Sound.comesApart_grows (sound : before.Sound mayRefer) (grows : Grows before after)
    {text : String} (apart : before.ComesApart text id) : after.ComesApart text id := by
  rcases apart with named |
    ⟨parameterTexts, resultText, parameters, result, parts, each, last, made⟩
  · exact .inl (named.of_types grows.types)
  · have inside : ∀ part ∈ result :: parameters, before.Has part := by
      intro part among
      rcases List.mem_cons.1 among with rfl | among
      · exact sound.has_of_spells last
      · exact (each.imp fun _ _ spells => sound.has_of_spells spells).forall_right part among
    refine .inr ⟨parameterTexts, resultText, parameters, result, parts,
      each.imp fun _ _ spells => spells.grows grows, last.grows grows, ?_⟩
    rw [functionName_eq grows.types inside]
    exact grows.functions made

/-- A type that refers to types of the registry and is no function type can be
added. -/
theorem Sound.add (sound : registry.Sound mayRefer)
    (inside : ∀ reference ∈ type.references, registry.HasKind (mayRefer type) reference)
    (apart : ∀ signature, type ≠ .function signature) : (registry.add type).2.Sound mayRefer where
  primitives found := get?_add_of_get? (sound.primitives found)
  references {id content} found reference among := by
    rw [get?_add] at found
    split at found
    · rename_i same
      obtain rfl := Option.some.inj found
      obtain ⟨referred, there, _⟩ := inside reference among
      rw [same]
      exact ⟨index_lt_of_get? there, (inside reference among).of_types get?_add_of_get?⟩
    · obtain ⟨earlier, plain⟩ := sound.references found reference among
      exact ⟨earlier, plain.of_types get?_add_of_get?⟩
  named found := by
    obtain ⟨content, there, declared⟩ := sound.named found
    exact ⟨content, get?_add_of_get? there, declared⟩
  interned found := by
    obtain ⟨signature, there, spelled⟩ := sound.interned found
    exact ⟨signature, get?_add_of_get? there, spelled⟩
  canonical {id signature} found := by
    rw [get?_add] at found
    split at found
    · exact absurd (Option.some.inj found) (apart signature)
    · obtain ⟨listed, canonical⟩ := sound.canonical found
      refine ⟨listed, canonical.trans (Eq.symm ?_)⟩
      exact functionName_eq get?_add_of_get? fun reference among =>
        (sound.references found reference among).2.has
  decoded listed := sound.comesApart_grows (grows_add registry type) (sound.decoded listed)

theorem grows_declare {name : String} (type : Ty) (unclaimed : registry.names.get? name = none) :
    Grows registry (registry.declare name type).2 where
  types := get?_add_of_get?
  names {other id} found := by
    have apart : name ≠ other := by
      rintro rfl
      simp [unclaimed] at found
    exact (NameTable.get?_insert _ _ _ _).trans ((if_neg apart).trans found)
  functions found := found

theorem get?_names_declare (registry : Registry) (name other : String) (type : Ty) :
    (registry.declare name type).2.names.get? other =
      if name = other then some ⟨registry.types.size⟩ else registry.names.get? other :=
  NameTable.get?_insert _ _ _ _

/-- A type can be declared under its own name. -/
theorem Sound.declare {name : String} (sound : registry.Sound mayRefer)
    (inside : ∀ reference ∈ type.references, registry.HasKind (mayRefer type) reference)
    (declared : type.declaredName? = some name) :
    (registry.declare name type).2.Sound mayRefer := by
  have added := sound.add inside (by rintro signature rfl; simp [Ty.declaredName?] at declared)
  refine ⟨added.primitives, added.references, ?_, added.interned, added.canonical, added.decoded⟩
  intro other id found
  rw [get?_names_declare] at found
  split at found
  · rename_i same
    obtain rfl := Option.some.inj found
    exact ⟨type, (get?_add registry type _).trans (if_pos rfl), same ▸ declared⟩
  · exact added.named found

theorem Sound.forget (sound : registry.Sound mayRefer) (name : String) :
    (registry.forget name).Sound mayRefer := by
  refine ⟨sound.primitives, sound.references, ?_, sound.interned, sound.canonical, sound.decoded⟩
  intro other id found
  rw [Registry.forget, NameTable.get?_erase] at found
  split at found
  · simp at found
  · exact sound.named found

/-! ## Function types -/

theorem function_of_get? {parameters : List TypeId} {result : TypeId}
    (found : registry.functions.get? (registry.functionName parameters result) = some id) :
    registry.function parameters result = (id, registry) := by
  simp [function, found]

theorem get?_functions_spell (registry : Registry) (text key : String) (id : TypeId) :
    (registry.spell text id).functions.get? key =
      if text = key then some id else registry.functions.get? key :=
  NameTable.get?_insert _ _ _ _

theorem grows_spell {text : String}
    (unspelled : ∀ {other : TypeId}, registry.functions.get? text = some other → other = id) :
    Grows registry (registry.spell text id) := by
  refine ⟨fun found => found, fun listed => listed, fun {key other} listed => ?_⟩
  rw [get?_functions_spell]
  split
  · rename_i same
    subst same
    exact congrArg some (unspelled listed).symm
  · exact listed

theorem function_of_get?_eq_none {parameters : List TypeId} {result : TypeId}
    (missing : registry.functions.get? (registry.functionName parameters result) = none) :
    registry.function parameters result =
      (⟨registry.types.size⟩,
        (registry.add (.function ⟨registry.functionName parameters result, parameters, result⟩)).2.spell
          (registry.functionName parameters result) ⟨registry.types.size⟩) := by
  simp [function, missing, add, spell]

theorem opensFunction_functionName (registry : Registry) (parameters : List TypeId)
    (result : TypeId) : TypeText.OpensFunction (registry.functionName parameters result) := by
  unfold functionName
  exact ⟨_, by simp only [String.toList_append]; rfl⟩

/-- A new function type can be added under its canonical name. -/
theorem Sound.addFunction (sound : registry.Sound mayRefer) {parameters : List TypeId}
    {result : TypeId} (inside : ∀ id ∈ result :: parameters, registry.HasKind (mayRefer
      (.function ⟨registry.functionName parameters result, parameters, result⟩)) id)
    (missing : registry.functions.get? (registry.functionName parameters result) = none) :
    ((registry.add (.function ⟨registry.functionName parameters result, parameters, result⟩)).2.spell
      (registry.functionName parameters result) ⟨registry.types.size⟩).Sound mayRefer := by
  have opens := registry.opensFunction_functionName parameters result
  generalize named : registry.functionName parameters result = name at missing opens inside
  have old : ∀ {id : TypeId} {content : Ty}, registry.get? id = some content →
      (registry.add (.function ⟨name, parameters, result⟩)).2.get? id = some content :=
    get?_add_of_get?
  have slot := get?_add registry (.function ⟨name, parameters, result⟩)
  have entry := get?_functions_spell
    (registry.add (.function ⟨name, parameters, result⟩)).2 name
  refine ⟨fun listed => old (sound.primitives listed), ?_, ?_, ?_, ?_, ?_⟩
  · intro id content there reference among
    rcases Decidable.em (id = ⟨registry.types.size⟩) with rfl | apart
    · obtain rfl := Option.some.inj (((slot _).trans (if_pos rfl)).symm.trans there)
      obtain ⟨referred, found, _⟩ := inside reference among
      exact ⟨index_lt_of_get? found, (inside reference among).of_types old⟩
    · obtain ⟨earlier, plain⟩ := sound.references
        (((slot _).trans (if_neg apart)).symm.trans there) reference among
      exact ⟨earlier, plain.of_types old⟩
  · intro other id listed
    obtain ⟨content, there, declared⟩ := sound.named listed
    exact ⟨content, old there, declared⟩
  · intro key id listed
    rw [entry] at listed
    split at listed
    · rename_i same
      obtain rfl := Option.some.inj listed
      exact ⟨_, (slot _).trans (if_pos rfl), same ▸ ⟨Nat.le_refl _, opens, fun _ => rfl⟩⟩
    · obtain ⟨signature, there, spelled⟩ := sound.interned listed
      exact ⟨signature, old there, spelled⟩
  · intro id signature there
    rcases Decidable.em (id = ⟨registry.types.size⟩) with rfl | apart
    · obtain rfl := Ty.function.inj
        (Option.some.inj (((slot _).trans (if_pos rfl)).symm.trans there))
      have renamed := functionName_eq old fun id among => (inside id among).has
      exact ⟨(entry _ _).trans (if_pos rfl), (renamed.trans named).symm⟩
    · have found := ((slot _).trans (if_neg apart)).symm.trans there
      obtain ⟨listed, canonical⟩ := sound.canonical found
      refine ⟨(entry _ _).trans ?_, canonical.trans (Eq.symm ?_)⟩
      · rw [if_neg]
        · exact listed
        · intro same
          simp [← same, missing] at listed
      · exact functionName_eq old fun reference among =>
          (sound.references found reference among).2.has
  · intro key id listed
    rw [entry] at listed
    split at listed
    · rename_i same
      obtain rfl := Option.some.inj listed
      exact .inl ⟨_, (slot _).trans (if_pos rfl), same⟩
    · refine sound.comesApart_grows ((grows_add registry _).trans (grows_spell fun spelled => ?_))
        (sound.decoded listed)
      cases missing.symm.trans spelled

/-- Making a function type keeps a registry sound, adds at most the canonical
name, and leads that name to the type. -/
theorem Sound.function (sound : registry.Sound mayRefer) {parameters : List TypeId}
    {result : TypeId} (inside : ∀ id ∈ result :: parameters, registry.HasKind (mayRefer
      (.function ⟨registry.functionName parameters result, parameters, result⟩)) id) :
    (registry.function parameters result).2.Sound mayRefer ∧
      Interns registry (registry.function parameters result).2 ∧
      (registry.function parameters result).2.functions.get?
        (registry.functionName parameters result) =
          some (registry.function parameters result).1 ∧
      ∀ {key : String} {id : TypeId},
        (registry.function parameters result).2.functions.get? key = some id →
          registry.functions.get? key = some id ∨
            key = registry.functionName parameters result ∧
              id = (registry.function parameters result).1 := by
  cases found : registry.functions.get? (registry.functionName parameters result) with
  | some id =>
      rw [function_of_get? found]
      exact ⟨sound, .refl registry, found, fun listed => .inl listed⟩
  | none =>
      rw [function_of_get?_eq_none found]
      have slot := get?_add registry
        (.function ⟨registry.functionName parameters result, parameters, result⟩)
      have entry := get?_functions_spell (registry.add
        (.function ⟨registry.functionName parameters result, parameters, result⟩)).2
          (registry.functionName parameters result)
      refine ⟨sound.addFunction inside found, ⟨⟨get?_add_of_get?, fun listed => listed, ?_⟩,
        rfl, ?_⟩, (entry _ _).trans (if_pos rfl), ?_⟩
      · intro key id listed
        rw [entry, if_neg]
        · exact listed
        · rintro rfl
          simp [found] at listed
      · intro id content there
        rcases Decidable.em (id = ⟨registry.types.size⟩) with rfl | apart
        · obtain rfl := Option.some.inj (((slot _).trans (if_pos rfl)).symm.trans there)
          exact .inr ⟨_, rfl⟩
        · exact .inl (((slot _).trans (if_neg apart)).symm.trans there)
      · intro key id listed
        rw [entry] at listed
        split at listed
        · rename_i same
          exact .inr ⟨same.symm, (Option.some.inj listed).symm⟩
        · exact .inl listed

/-- A text that stands for nothing else can become a spelling of a function type. -/
theorem Sound.spell (sound : registry.Sound mayRefer) {text : String}
    {signature : FunctionType} (found : registry.get? id = some (.function signature))
    (spelled : signature.SpelledBy text) (apart : registry.ComesApart text id)
    (unspelled : ∀ {other : TypeId}, registry.functions.get? text = some other → other = id) :
    (registry.spell text id).Sound mayRefer := by
  have grows := grows_spell unspelled
  refine ⟨sound.primitives, sound.references, sound.named, ?_, ?_, ?_⟩
  · intro key other listed
    rw [get?_functions_spell] at listed
    split at listed
    · rename_i same
      obtain rfl := Option.some.inj listed
      exact ⟨signature, found, same ▸ spelled⟩
    · exact sound.interned listed
  · intro other function there
    obtain ⟨listed, canonical⟩ := sound.canonical there
    exact ⟨grows.functions listed, canonical⟩
  · intro key other listed
    refine sound.comesApart_grows grows ?_
    rw [get?_functions_spell] at listed
    split at listed
    · rename_i same
      obtain rfl := Option.some.inj listed
      exact same ▸ apart
    · exact sound.decoded listed

end Registry

end TypedLisp
