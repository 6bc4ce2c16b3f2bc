import TypedLisp.Proofs.Likeness
import TypedLisp.Proofs.TypeNames

/-!
# Twin registries

Two registries are twins when the first one embeds into the second, both know the same
declared names, and the texts of function types that only the second one knows are
coherent (`Registry.Twins`): such a text comes apart into texts that lead somewhere for
good, and it leads to the function type over these parts. The second registry has then
done nothing but resolve texts in advance.

Twins answer alike, and whatever is made, declared or forgotten on both sides leaves them
twins, though not with the same handles: the renaming is extended as types are made.
When the second registry has a function type already, the first one catches up by making
the type of which the second one has a copy (`Twins.function`).

Names that are declared and forgotten again must not be among those of a base, which
both registries keep; the parts of coherent texts are names of the base or texts of
function types.

Where the second registry knows no further text (`residue` fails), declared names may be
any texts; where it does, they are plain, since a name with a comma could be taken for
several parts.
-/

set_option autoImplicit false

namespace TypedLisp

namespace Registry

variable {residue : Prop} {base left right before after : Registry}
  {onTypes later : TypeId → TypeId} {onScopes laterScopes : ScopeId → ScopeId} {id : TypeId}
  {type : Ty}

/-! ## Embeddings that are extended -/

/-- An embedding can be extended by a new type that is there on the right. -/
theorem Embeds.extend {leftAfter rightAfter : Registry}
    (embeds : Embeds onTypes onScopes left right) (wellFormed : leftAfter.WellFormed)
    (wellFormed_target : rightAfter.WellFormed)
    (agree : ∀ {id : TypeId}, left.Has id → later id = onTypes id)
    (added : leftAfter.types = left.types.push type)
    (grows : ∀ {id : TypeId} {type : Ty}, right.get? id = some type →
      rightAfter.get? id = some type)
    (there : rightAfter.get? (later ⟨left.types.size⟩) = some (type.rename later onScopes))
    (fresh : ∀ {id : TypeId}, left.Has id → onTypes id ≠ later ⟨left.types.size⟩) :
    Embeds later onScopes leftAfter rightAfter := by
  have only : ∀ {id : TypeId} {content : Ty}, leftAfter.get? id = some content →
      left.get? id = some content ∨ id = ⟨left.types.size⟩ ∧ content = type := by
    intro id content found
    have slot := get?_add left type id
    unfold get? at found slot
    rw [added] at found
    rw [show (left.add type).2.types = left.types.push type from rfl, found] at slot
    split at slot
    · exact .inr ⟨by assumption, Option.some.inj slot⟩
    · exact .inl slot.symm
  refine ⟨wellFormed, wellFormed_target, ?_, ?_⟩
  · intro id content found
    rcases only found with old | ⟨rfl, rfl⟩
    · have same : content.rename later onScopes = content.rename onTypes onScopes :=
        Ty.rename_congr
          (fun reference among => agree (embeds.wellFormed.found_reference old among).2)
          fun _ _ => rfl
      rw [agree ⟨content, old⟩, same]
      exact grows (embeds.types old)
    · exact there
  · rintro first second ⟨_, foundFirst⟩ ⟨_, foundSecond⟩ same
    rcases only foundFirst with oldFirst | ⟨rfl, _⟩
    · rcases only foundSecond with oldSecond | ⟨rfl, _⟩
      · rw [agree ⟨_, oldFirst⟩, agree ⟨_, oldSecond⟩] at same
        exact embeds.injective ⟨_, oldFirst⟩ ⟨_, oldSecond⟩ same
      · rw [agree ⟨_, oldFirst⟩] at same
        exact absurd same (fresh ⟨_, oldFirst⟩)
    · rcases only foundSecond with oldSecond | ⟨rfl, _⟩
      · rw [agree ⟨_, oldSecond⟩] at same
        exact absurd same.symm (fresh ⟨_, oldSecond⟩)
      · rfl

/-- Handles of the right are of types that are there. -/
theorem Embeds.has (embeds : Embeds onTypes onScopes left right) (has : left.Has id) :
    right.Has (onTypes id) := by
  obtain ⟨type, found⟩ := has
  exact ⟨_, embeds.types found⟩

theorem Embeds.isPlain (embeds : Embeds onTypes onScopes left right) (plain : left.IsPlain id) :
    right.IsPlain (onTypes id) := by
  obtain ⟨type, found, nongeneric⟩ := plain
  exact ⟨_, embeds.types found, nongeneric.rename⟩

theorem Embeds.plain_parts (embeds : Embeds onTypes onScopes left right)
    {parameters : List TypeId} {result : TypeId}
    (inside : ∀ part ∈ result :: parameters, left.IsPlain part) :
    ∀ part ∈ onTypes result :: parameters.map onTypes, right.IsPlain part := by
  intro part among
  rw [← List.map_cons] at among
  obtain ⟨original, listed, rfl⟩ := List.mem_map.1 among
  exact embeds.isPlain (inside original listed)

/-- The same type is added on both sides. -/
theorem Embeds.add (embeds : Embeds onTypes onScopes left right)
    (inside : ∀ reference ∈ type.references, left.IsPlain reference)
    (apart : ∀ signature, type ≠ .function signature)
    (agree : ∀ {id : TypeId}, left.Has id → later id = onTypes id)
    (new : later ⟨left.types.size⟩ = ⟨right.types.size⟩) :
    Embeds later onScopes (left.add type).2 (right.add (type.rename later onScopes)).2 := by
  have insideRight : ∀ reference ∈ (type.rename later onScopes).references,
      right.IsPlain reference := by
    intro reference among
    rw [Ty.references_rename] at among
    obtain ⟨original, listed, rfl⟩ := List.mem_map.1 among
    obtain ⟨content, found, _⟩ := inside original listed
    rw [agree ⟨content, found⟩]
    exact embeds.isPlain (inside original listed)
  have apartRight : ∀ signature, type.rename later onScopes ≠ .function signature := by
    intro signature same
    cases type with
    | function original => exact apart original rfl
    | _ => simp [Ty.rename] at same
  refine embeds.extend (embeds.wellFormed.add inside apart)
    (embeds.wellFormed_target.add insideRight apartRight) agree rfl get?_add_of_get? ?_ ?_
  · rw [new]
    exact (get?_add right _ _).trans (if_pos rfl)
  · intro id has
    rw [new]
    exact ne_size_of_has (embeds.has has)

/-! ## Texts that lead somewhere for good -/

/-- The second registry has the types and the texts of the first one, and the names of
the base lead where they led. -/
structure Retains (base before after : Registry) : Prop where
  types : ∀ {id : TypeId} {type : Ty}, before.get? id = some type → after.get? id = some type
  functions : ∀ {text : String} {id : TypeId}, before.functions.get? text = some id →
    after.functions.get? text = some id
  names : ∀ {name : String} {id : TypeId}, base.names.contains name = true →
    before.names.get? name = some id → after.names.get? name = some id

theorem Retains.refl (base registry : Registry) : Retains base registry registry :=
  ⟨fun found => found, fun listed => listed, fun _ listed => listed⟩

theorem Grows.retains (base : Registry) (grows : Grows before after) : Retains base before after :=
  ⟨grows.types, grows.functions, fun _ listed => grows.names listed⟩

theorem retains_forget {name : String} (apart : ¬ base.names.contains name = true)
    (registry : Registry) : Retains base registry (registry.forget name) := by
  refine ⟨fun found => found, fun listed => listed, fun {other id} kept listed => ?_⟩
  refine (NameTable.get?_erase _ _ _).trans ((if_neg ?_).trans listed)
  rintro rfl
  exact apart kept

/-- A text is one of a function type, or a name of the base. -/
def Lasting (base registry : Registry) (text : List Char) (id : TypeId) : Prop :=
  registry.functions.get? (String.ofList (Text.trim text)) = some id ∨
    base.names.contains (String.ofList (Text.trim text)) = true ∧
      registry.names.get? (String.ofList (Text.trim text)) = some id

theorem Lasting.retained {text : List Char} (lasting : Lasting base before text id)
    (retains : Retains base before after) : Lasting base after text id := by
  rcases lasting with listed | ⟨kept, listed⟩
  · exact .inl (retains.functions listed)
  · exact .inr ⟨kept, retains.names kept listed⟩

theorem Lasting.denotes {registry : Registry} {text : List Char}
    (lasting : Lasting base registry text id) (plain : registry.PlainNames)
    (wellFormed : registry.WellFormed) : registry.Denotes text id := by
  rcases lasting with listed | ⟨_, listed⟩
  · exact plain.known?_of_functions wellFormed listed
  · exact known?_of_names listed

/-- A text of the second registry comes apart into texts that lead somewhere for good,
and leads to the function type over these parts. Unless the first registry has that type
under its canonical name, its parameters and its result are the parts themselves. -/
def Coherent (base left right : Registry) (text : String) (id : TypeId) : Prop :=
  ∃ (parameterTexts : List (List Char)) (resultText : List Char) (parameters : List TypeId)
    (result : TypeId), TypeText.functionParts? text.toList = some (parameterTexts, resultText) ∧
      List.Forall₂ (Lasting base right) parameterTexts parameters ∧
      Lasting base right resultText result ∧
      right.functions.get? (right.functionName parameters result) = some id ∧
      (left.functions.get? (right.functionName parameters result) = none →
        right.get? id =
          some (.function ⟨right.functionName parameters result, parameters, result⟩))

theorem Coherent.retained {leftAfter rightAfter : Registry} {text : String}
    (coherent : Coherent base left right text id) (plain : right.PlainNames)
    (wellFormed : right.WellFormed) (retains : Retains base left leftAfter)
    (retainsRight : Retains base right rightAfter) :
    Coherent base leftAfter rightAfter text id := by
  obtain ⟨parameterTexts, resultText, parameters, result, found, each, last, listed, exactly⟩ :=
    coherent
  have inside : ∀ part ∈ result :: parameters, right.IsPlain part := by
    intro part among
    rcases List.mem_cons.1 among with rfl | among
    · exact (last.denotes plain wellFormed).isPlain wellFormed
    · exact (each.imp fun _ _ lasting =>
        (lasting.denotes plain wellFormed).isPlain wellFormed).forall_right part among
  have named := functionName_eq retainsRight.types fun part among => (inside part among).has
  refine ⟨parameterTexts, resultText, parameters, result, found,
    each.imp fun _ _ lasting => lasting.retained retainsRight, last.retained retainsRight, ?_, ?_⟩
  · rw [named]
    exact retainsRight.functions listed
  · rw [named]
    intro missing
    refine retainsRight.types (exactly ?_)
    cases there : left.functions.get? (right.functionName parameters result) with
    | none => rfl
    | some old => simp [retains.functions there] at missing

/-! ## Twins -/

/-- The first registry embeds into the second one, which knows the same names and has
resolved texts in advance, if there is any residue of that kind. Declared names are plain
then. -/
structure Twins (residue : Prop) (base : Registry) (onTypes : TypeId → TypeId)
    (onScopes : ScopeId → ScopeId) (left right : Registry) : Prop
    extends Embeds onTypes onScopes left right where
  plain : residue → left.Plain
  primitives : ∀ {id : TypeId}, id.index < 4 → onTypes id = id
  names : ∀ name, right.names.get? name = (left.names.get? name).map onTypes
  kept : ∀ {name : String}, base.names.contains name = true → left.names.contains name = true
  functions : ∀ {text : String} {id : TypeId}, left.functions.get? text = some id →
    right.functions.get? text = some (onTypes id)
  coherent : ∀ {text : String} {id : TypeId}, left.functions.get? text = none →
    right.functions.get? text = some id → residue ∧ Coherent base left right text id

namespace Twins

theorem plainNames (twins : Twins residue base onTypes onScopes left right) (leftover : residue) :
    left.PlainNames :=
  (twins.plain leftover).plainNames twins.wellFormed

theorem plainNames_right (twins : Twins residue base onTypes onScopes left right)
    (leftover : residue) : right.PlainNames := by
  intro name id listed
  rw [twins.names] at listed
  obtain ⟨original, there, _⟩ := Option.map_eq_some_iff.1 listed
  exact twins.plainNames leftover name original there

/-- Changes that keep what is there on both sides, and bring no texts of function types
to the right alone. -/
theorem evolve {leftAfter rightAfter : Registry}
    (twins : Twins residue base onTypes onScopes left right)
    (embeds : Embeds later onScopes leftAfter rightAfter) (plain : residue → leftAfter.Plain)
    (agree : ∀ {id : TypeId}, left.Has id → later id = onTypes id)
    (names : ∀ name, rightAfter.names.get? name = (leftAfter.names.get? name).map later)
    (retains : Retains base left leftAfter) (retainsRight : Retains base right rightAfter)
    (functions : ∀ {text : String} {id : TypeId}, leftAfter.functions.get? text = some id →
      rightAfter.functions.get? text = some (later id))
    (only : ∀ {text : String} {id : TypeId}, leftAfter.functions.get? text = none →
      rightAfter.functions.get? text = some id → right.functions.get? text = some id) :
    Twins residue base later onScopes leftAfter rightAfter where
  toEmbeds := embeds
  plain := plain
  primitives {id} primitive := by
    refine (agree ?_).trans (twins.primitives primitive)
    obtain ⟨type, found⟩ := has_initial primitive
    exact ⟨type, twins.wellFormed.primitives found⟩
  names := names
  kept {name} inBase := by
    have there := twins.kept inBase
    unfold NameTable.contains at there ⊢
    obtain ⟨id, listed⟩ := Option.isSome_iff_exists.1 there
    rw [retains.names inBase listed]
    rfl
  functions := functions
  coherent {text id} missing listed := by
    have absent : left.functions.get? text = none := by
      cases there : left.functions.get? text with
      | none => rfl
      | some old => simp [retains.functions there] at missing
    obtain ⟨leftover, coherent⟩ := twins.coherent absent (only missing listed)
    exact ⟨leftover, coherent.retained (twins.plainNames_right leftover) twins.wellFormed_target
      retains retainsRight⟩

/-- The scopes that types keep are named otherwise where there is nothing. -/
theorem relabel (twins : Twins residue base onTypes onScopes left right)
    (agree : ∀ {id : TypeId} {type : Ty} {scope : ScopeId}, left.get? id = some type →
      type.scope? = some scope → laterScopes scope = onScopes scope) :
    Twins residue base onTypes laterScopes left right :=
  { twins with
    types := fun found => by
      rw [Ty.rename_congr (fun _ _ => rfl) fun scope keeps => agree found keeps]
      exact twins.types found }

/-- The names that are there lead where they led. -/
theorem names_later (twins : Twins residue base onTypes onScopes left right)
    (agree : ∀ {id : TypeId}, left.Has id → later id = onTypes id) (name : String) :
    right.names.get? name = (left.names.get? name).map later := by
  rw [twins.names]
  refine Option.map_congr fun id listed => (agree ?_).symm
  obtain ⟨type, found, _⟩ := twins.wellFormed.named listed
  exact ⟨type, found⟩

theorem functions_later (twins : Twins residue base onTypes onScopes left right)
    (agree : ∀ {id : TypeId}, left.Has id → later id = onTypes id) {text : String}
    (listed : left.functions.get? text = some id) :
    right.functions.get? text = some (later id) := by
  obtain ⟨signature, found, _⟩ := twins.wellFormed.interned listed
  rw [agree ⟨_, found⟩]
  exact twins.functions listed

theorem unclaimed_right (twins : Twins residue base onTypes onScopes left right) {name : String}
    (unclaimed : left.names.get? name = none) : right.names.get? name = none := by
  rw [twins.names, unclaimed]
  rfl

theorem plain_add (twins : Twins residue base onTypes onScopes left right)
    (plain : ∀ name, type.declaredName? = some name → residue →
      TypeText.isPlainName name.toList = true) (leftover : residue) : (left.add type).2.Plain := by
  intro id content name found declared
  rw [get?_add] at found
  split at found
  · obtain rfl := Option.some.inj found
    exact plain name declared leftover
  · exact twins.plain leftover id content name found declared

/-- The same type is added on both sides. -/
theorem add (twins : Twins residue base onTypes onScopes left right)
    (inside : ∀ reference ∈ type.references, left.IsPlain reference)
    (apart : ∀ signature, type ≠ .function signature)
    (plain : ∀ name, type.declaredName? = some name → residue →
      TypeText.isPlainName name.toList = true)
    (agree : ∀ {id : TypeId}, left.Has id → later id = onTypes id)
    (new : later ⟨left.types.size⟩ = ⟨right.types.size⟩) :
    Twins residue base later onScopes (left.add type).2
      (right.add (type.rename later onScopes)).2 :=
  twins.evolve (twins.toEmbeds.add inside apart agree new) (twins.plain_add plain) agree
    (twins.names_later agree) ((grows_add left type).retains base)
    ((grows_add right _).retains base) (twins.functions_later agree) fun _ listed => listed

/-- The same type is declared on both sides, under a name that is free. -/
theorem declare (twins : Twins residue base onTypes onScopes left right) {name : String}
    (inside : ∀ reference ∈ type.references, left.IsPlain reference)
    (declared : type.declaredName? = some name)
    (plain : residue → TypeText.isPlainName name.toList = true)
    (unclaimed : left.names.get? name = none)
    (agree : ∀ {id : TypeId}, left.Has id → later id = onTypes id)
    (new : later ⟨left.types.size⟩ = ⟨right.types.size⟩) :
    Twins residue base later onScopes (left.declare name type).2
      (right.declare name (type.rename later onScopes)).2 := by
  have plainName : ∀ other, type.declaredName? = some other → residue →
      TypeText.isPlainName other.toList = true := fun other same =>
    Option.some.inj (declared.symm.trans same) ▸ plain
  have added := twins.add inside (by rintro signature rfl; cases declared) plainName agree new
  have insideRight : ∀ reference ∈ (type.rename later onScopes).references,
      right.IsPlain reference := by
    intro reference among
    rw [Ty.references_rename] at among
    obtain ⟨original, listed, rfl⟩ := List.mem_map.1 among
    obtain ⟨content, found, _⟩ := inside original listed
    rw [agree ⟨content, found⟩]
    exact twins.isPlain (inside original listed)
  refine twins.evolve ⟨twins.wellFormed.declare inside declared,
    twins.wellFormed_target.declare insideRight (by simpa using declared), added.types,
    added.injective⟩ added.plain agree ?_ ((grows_declare type unclaimed).retains base)
    ((grows_declare _ (twins.unclaimed_right unclaimed)).retains base)
    (twins.functions_later agree) fun _ listed => listed
  intro other
  rw [get?_names_declare, get?_names_declare]
  split
  · exact congrArg some new.symm
  · exact twins.names_later agree other

/-- A name that is not in the base is forgotten on both sides. -/
theorem forget (twins : Twins residue base onTypes onScopes left right) {name : String}
    (apart : ¬ base.names.contains name = true) :
    Twins residue base onTypes onScopes (left.forget name) (right.forget name) := by
  refine twins.evolve ⟨twins.wellFormed.forget name, twins.wellFormed_target.forget name,
    twins.types, twins.injective⟩ twins.plain (fun _ => rfl) ?_ (retains_forget apart left)
    (retains_forget apart right) twins.functions fun _ listed => listed
  intro other
  rw [Registry.forget, Registry.forget, NameTable.get?_erase, NameTable.get?_erase]
  split
  · rfl
  · exact twins.names other

/-! ## Function types -/

theorem functionName_right (twins : Twins residue base onTypes onScopes left right)
    {parameters : List TypeId} {result : TypeId}
    (inside : ∀ part ∈ result :: parameters, left.IsPlain part) :
    right.functionName (parameters.map onTypes) (onTypes result) =
      left.functionName parameters result := by
  have named : ∀ part ∈ result :: parameters, right.name (onTypes part) = left.name part := by
    intro part among
    obtain ⟨type, found, _⟩ := inside part among
    exact twins.name ⟨type, found⟩
  have parts : (parameters.map onTypes).map right.name = parameters.map left.name := by
    rw [List.map_map]
    exact List.map_congr_left fun part among => named part (List.mem_cons_of_mem _ among)
  simp only [functionName, named result List.mem_cons_self, parts, List.isEmpty_map]

theorem known?_right (twins : Twins residue base onTypes onScopes left right) {text : String}
    (known : left.known? text = some id) : right.known? text = some (onTypes id) := by
  unfold known? lookup? at known ⊢
  rw [twins.names]
  cases listed : left.names.get? text with
  | some other =>
      rw [listed] at known
      exact congrArg (Option.map onTypes) known
  | none =>
      rw [listed] at known
      exact twins.functions known

/-- The first registry makes a function type that the second one has or makes too. -/
theorem addFunction {rightAfter : Registry} (twins : Twins residue base onTypes onScopes left right)
    {parameters : List TypeId} {result : TypeId}
    (inside : ∀ part ∈ result :: parameters, left.IsPlain part)
    (missing : left.functions.get? (left.functionName parameters result) = none)
    (wellFormed : rightAfter.WellFormed) (names : rightAfter.names = right.names)
    (retains : Retains base right rightAfter)
    (agree : ∀ {id : TypeId}, left.Has id → later id = onTypes id)
    (there : rightAfter.get? (later ⟨left.types.size⟩) = some (.function
      ⟨left.functionName parameters result, parameters.map onTypes, onTypes result⟩))
    (listed : rightAfter.functions.get? (left.functionName parameters result) =
      some (later ⟨left.types.size⟩))
    (only : ∀ {text : String} {id : TypeId}, text ≠ left.functionName parameters result →
      rightAfter.functions.get? text = some id → right.functions.get? text = some id)
    (fresh : ∀ {id : TypeId}, left.Has id → onTypes id ≠ later ⟨left.types.size⟩) :
    Twins residue base later onScopes (left.function parameters result).2 rightAfter := by
  obtain ⟨made, interns, entry, keys⟩ := twins.wellFormed.function inside
  rw [function_of_get?_eq_none missing] at made interns entry keys ⊢
  have agreeOn : ∀ part ∈ result :: parameters, later part = onTypes part := by
    intro part among
    obtain ⟨type, found, _⟩ := inside part among
    exact agree ⟨type, found⟩
  have renamed : (Ty.function ⟨left.functionName parameters result, parameters, result⟩).rename
      later onScopes = .function ⟨left.functionName parameters result, parameters.map onTypes,
        onTypes result⟩ := by
    have parts : parameters.map later = parameters.map onTypes :=
      List.map_congr_left fun part among => agreeOn part (List.mem_cons_of_mem _ among)
    simp [Ty.rename, FunctionType.rename, parts, agreeOn result List.mem_cons_self]
  refine twins.evolve (twins.toEmbeds.extend made wellFormed agree rfl retains.types
    (there.trans (congrArg some renamed.symm)) fresh) (twins.plain_add (by simp [Ty.declaredName?]))
    agree (fun name => ?_) (interns.toGrows.retains base) retains ?_ ?_
  · rw [names]
    exact twins.names_later agree name
  · intro text id found
    rcases keys found with old | ⟨rfl, rfl⟩
    · have oldRight := twins.functions_later agree old
      exact retains.functions oldRight
    · exact listed
  · intro text id absent found
    refine only ?_ found
    rintro rfl
    simp [entry] at absent

/-- A type that is found under its own name is found there on the right. -/
theorem eq_of_denotes_name (twins : Twins residue base onTypes onScopes left right)
    (leftover : residue) {part other : TypeId}
    (current : left.IsPlain part ∧ left.IsCurrent part)
    (denotes : right.Denotes (left.name part).toList other) : other = onTypes part := by
  have spelled := (twins.plain leftover).spelled twins.wellFormed namesParts current.1
  rw [Denotes, spelled.trim_eq, String.ofList_toList, twins.known?_right current.2] at denotes
  exact (Option.some.inj denotes).symm

/-- When the name of a function type is new to the first registry only, the second one
has the type over the same parts under it: the name comes apart into the names of the
parts. -/
theorem function_of_right (twins : Twins residue base onTypes onScopes left right)
    {parameters : List TypeId} {result : TypeId}
    (current : ∀ part ∈ result :: parameters, left.IsPlain part ∧ (residue → left.IsCurrent part))
    (missing : left.functions.get? (left.functionName parameters result) = none)
    (listed : right.functions.get? (left.functionName parameters result) = some id) :
    right.get? id = some (.function ⟨left.functionName parameters result,
      parameters.map onTypes, onTypes result⟩) := by
  have inside : ∀ part ∈ result :: parameters, left.IsPlain part := fun part among =>
    (current part among).1
  obtain ⟨leftover, texts, resultText, others, otherResult, found, each, last, _, exactly⟩ :=
    twins.coherent missing listed
  have denotes : ∀ {text : List Char} {other : TypeId}, Lasting base right text other →
      right.Denotes text other := fun lasting =>
    lasting.denotes (twins.plainNames_right leftover) twins.wellFormed_target
  have underNames : ∀ part ∈ result :: parameters, left.IsPlain part ∧ left.IsCurrent part :=
    fun part among => (current part among).imp_right fun isCurrent => isCurrent leftover
  rw [(twins.plain leftover).functionParts?_functionName twins.wellFormed namesParts inside]
    at found
  obtain ⟨rfl, rfl⟩ := Prod.mk.inj (Option.some.inj found)
  obtain rfl : otherResult = onTypes result :=
    twins.eq_of_denotes_name leftover (underNames result List.mem_cons_self) (denotes last)
  obtain rfl : parameters.map onTypes = others := by
    rw [← List.forall₂_eq_eq_eq, List.forall₂_map_left_iff]
    rw [List.forall₂_map_left_iff] at each
    have paired := (List.forall₂_and_left parameters others).2
      ⟨fun part among => underNames part (List.mem_cons_of_mem _ among), each⟩
    exact paired.imp fun part other both =>
      (twins.eq_of_denotes_name leftover both.1 (denotes both.2)).symm
  rw [twins.functionName_right inside] at exactly
  exact exactly missing

/-- The first registry makes a function type that the second one has already. -/
theorem function_caughtUp (twins : Twins residue base onTypes onScopes left right)
    {parameters : List TypeId} {result : TypeId}
    (current : ∀ part ∈ result :: parameters, left.IsPlain part ∧ (residue → left.IsCurrent part))
    (missing : left.functions.get? (left.functionName parameters result) = none)
    (listed : right.functions.get? (left.functionName parameters result) = some id) :
    Twins residue base (Function.update onTypes ⟨left.types.size⟩ id) onScopes
      (left.function parameters result).2 right := by
  have exactly := twins.function_of_right current missing listed
  refine twins.addFunction (fun part among => (current part among).1) missing
    twins.wellFormed_target rfl (.refl _ _)
    (fun has => Function.update_of_ne (ne_size_of_has has) _ _) ?_ ?_ (fun _ listed => listed) ?_
  · simpa using exactly
  · simpa using listed
  · -- A type of the left with this name would be listed under it.
    rintro other ⟨type, there⟩ same
    have copy := twins.types there
    rw [same, Function.update_self, exactly] at copy
    cases type with
    | function signature =>
        have named : left.functionName parameters result = signature.name := by
          simp only [Ty.rename, FunctionType.rename, Option.some.injEq, Ty.function.injEq,
            FunctionType.mk.injEq] at copy
          exact copy.1
        rw [named, (twins.wellFormed.canonical there).1] at missing
        cases missing
    | _ => simp [Ty.rename] at copy

/-- Both registries make a function type that is new to them. -/
theorem function_new (twins : Twins residue base onTypes onScopes left right)
    {parameters : List TypeId} {result : TypeId}
    (inside : ∀ part ∈ result :: parameters, left.IsPlain part)
    (missing : left.functions.get? (left.functionName parameters result) = none)
    (missingRight : right.functions.get? (left.functionName parameters result) = none) :
    Twins residue base (extended onTypes left right) onScopes (left.function parameters result).2
      (right.function (parameters.map onTypes) (onTypes result)).2 := by
  obtain ⟨made, interns, entry, keys⟩ :=
    twins.wellFormed_target.function (twins.plain_parts inside)
  have named := twins.functionName_right inside
  rw [← named] at missingRight
  have handle := function_of_get?_eq_none missingRight
  rw [handle] at made interns entry keys ⊢
  rw [named] at made interns entry keys ⊢
  refine twins.addFunction inside missing made rfl (interns.toGrows.retains base) extended_of_has
    ?_ ?_ ?_ ?_
  · rw [extended_size]
    exact (get?_add right _ _).trans (if_pos rfl)
  · rw [extended_size]
    exact entry
  · intro text id apart listed
    rcases keys listed with listed | ⟨same, _⟩
    · exact listed
    · exact absurd same apart
  · intro other has
    rw [extended_size]
    exact ne_size_of_has (twins.has has)

/-- **Twins make function types alike.** -/
theorem function (twins : Twins residue base onTypes onScopes left right) {parameters : List TypeId}
    {result : TypeId}
    (current : ∀ part ∈ result :: parameters, left.IsPlain part ∧ (residue → left.IsCurrent part)) :
    ∃ later : TypeId → TypeId, (∀ {id : TypeId}, left.Has id → later id = onTypes id) ∧
      Twins residue base later onScopes (left.function parameters result).2
        (right.function (parameters.map onTypes) (onTypes result)).2 ∧
      (right.function (parameters.map onTypes) (onTypes result)).1 =
        later (left.function parameters result).1 := by
  have inside : ∀ part ∈ result :: parameters, left.IsPlain part := fun part among =>
    (current part among).1
  have named := twins.functionName_right inside
  cases found : left.functions.get? (left.functionName parameters result) with
  | some id =>
      have foundRight := twins.functions found
      rw [← named] at foundRight
      rw [function_of_get? found, function_of_get? foundRight]
      exact ⟨onTypes, fun _ => rfl, twins, rfl⟩
  | none =>
      have fresh := congrArg Prod.fst (function_of_get?_eq_none found)
      cases foundRight : right.functions.get? (left.functionName parameters result) with
      | some id =>
          have caughtUp := twins.function_caughtUp current found foundRight
          rw [← named] at foundRight
          rw [function_of_get? foundRight, fresh]
          exact ⟨_, fun has => Function.update_of_ne (ne_size_of_has has) _ _, caughtUp, by simp⟩
      | none =>
          refine ⟨_, extended_of_has, twins.function_new inside found foundRight, ?_⟩
          rw [← named] at foundRight
          rw [congrArg Prod.fst (function_of_get?_eq_none foundRight), fresh]
          exact (extended_size onTypes left right).symm

end Twins

end Registry

end TypedLisp
