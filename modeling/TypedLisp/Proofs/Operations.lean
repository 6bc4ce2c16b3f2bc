import Mathlib.Logic.Relation
import TypedLisp.Proofs.Resolution

/-!
# Building registries

A registry is built from the primitives by calls: it declares aliases, choices of types
and classes, adds generic functions, makes function types, resolves texts and forgets
names. An `Operation` is one such call, and `Registry.Reaches` relates a registry to
what any sequence of calls makes of it. A call that fails keeps what it has added, so
it is a step like any other.

A call is a sequence of small changes (`Sound.perform_changes`), and what each change
keeps is kept by every sequence of calls (`Reaches.invariant`).
-/

set_option autoImplicit false

namespace TypedLisp.Registry

/-- A call that changes a registry. -/
inductive Operation where
  | declareAlias (name parent : String)
  | declareUnion (name : String) (members : List String)
  | declareClass (name : String) (superclass : Option TypeId) (scope : ScopeId)
  | addTemplate (template : Template)
  | function (parameters : List TypeId) (result : TypeId)
  | resolve (text : String)
  | forget (name : String)

namespace Operation

/-- What a call leaves behind, whether it succeeds or fails. -/
def perform : Operation → Registry → Registry
  | .declareAlias name parent, registry =>
      ((Registry.declareAlias name parent).run.run registry).2
  | .declareUnion name members, registry =>
      ((Registry.declareUnion name members).run.run registry).2
  | .declareClass name superclass scope, registry =>
      ((Registry.declareClass name superclass scope).run.run registry).2
  | .addTemplate template, registry => (registry.addTemplate template).2
  | .function parameters result, registry => (registry.function parameters result).2
  | .resolve text, registry => ((Registry.resolve text).run.run registry).2
  | .forget name, registry => registry.forget name

/-- The handles that a call is given. -/
def handles : Operation → List TypeId
  | .declareClass _ superclass _ => superclass.toList
  | .function parameters result => result :: parameters
  | _ => []

/-- The name that a call declares. -/
def declares? : Operation → Option String
  | .declareAlias name _ => some name
  | .declareUnion name _ => some name
  | .declareClass name _ _ => some name
  | _ => none

/-- A call adds no choice of types. -/
def IsUnionless : Operation → Prop
  | .declareUnion _ _ => False
  | _ => True

/-- A call removes no name. -/
def IsLasting : Operation → Prop
  | .forget _ => False
  | _ => True

/-- What a call may add besides function types. -/
def Makes : Operation → Ty → Prop
  | .declareAlias name _, type => ∃ target, type = .alias name target
  | .declareUnion name _, type => ∃ members, type = .union name members
  | .declareClass name superclass scope, type => type = .nominal ⟨name, superclass, scope⟩
  | .addTemplate template, type => type = .generic template
  | _, _ => False

/-- The types of the handles that a call is given are ones that the new type may refer
to. -/
def Respects (mayRefer : Ty → Ty → Prop) (registry : Registry) : Operation → Prop
  | .declareClass name superclass scope => ∀ parent ∈ superclass,
      registry.HasKind (mayRefer (.nominal ⟨name, superclass, scope⟩)) parent
  | .function parameters result => ∀ part ∈ result :: parameters, registry.HasKind
      (mayRefer (.function ⟨registry.functionName parameters result, parameters, result⟩)) part
  | _ => True

/-- Where every type may refer to any type, a call is only asked for handles of the
registry. -/
theorem respects_of_has {registry : Registry} {operation : Operation}
    (there : ∀ id ∈ operation.handles, registry.Has id) :
    operation.Respects (fun _ _ => True) registry := by
  have any : ∀ id ∈ operation.handles, registry.HasKind (fun _ => True) id := by
    intro id among
    obtain ⟨type, found⟩ := there id among
    exact ⟨type, found, trivial⟩
  cases operation with
  | declareClass name superclass scope =>
      exact fun parent among => any parent (Option.mem_toList.2 among)
  | function parameters result => exact any
  | _ => trivial

end Operation

theorem admits_all : AdmitsNongeneric fun _ _ => True := fun _ _ _ => trivial

/-- The registries that sequences of calls make of a registry, where each call is
allowed at its time. -/
inductive Reaches (allowed : Registry → Operation → Prop) (start : Registry) : Registry → Prop where
  | refl : Reaches allowed start start
  | step {registry : Registry} (operation : Operation) : Reaches allowed start registry →
      allowed registry operation → Reaches allowed start (operation.perform registry)

variable {registry before after : Registry} {operation : Operation} {id : TypeId} {type : Ty}
  {mayRefer : Ty → Ty → Prop} {allowed : Registry → Operation → Prop} {holds : Registry → Prop}

/-! ## The changes of one call -/

/-- One change that a call makes: a type is declared under a free name, a generic
function is added, a function type is made, a text becomes a spelling of one, or a name
is forgotten. -/
inductive Operation.Changes (mayRefer : Ty → Ty → Prop) (operation : Operation)
    (before : Registry) : Registry → Prop where
  | declared {name : String} {type : Ty} (named : operation.declares? = some name)
      (unclaimed : before.names.get? name = none)
      (inside : ∀ reference ∈ type.references, before.HasKind (mayRefer type) reference)
      (declares : type.declaredName? = some name) (makes : operation.Makes type) :
      Changes mayRefer operation before (before.declare name type).2
  | added {template : Template} (same : operation = .addTemplate template) :
      Changes mayRefer operation before (before.addTemplate template).2
  | made {parameters : List TypeId} {result : TypeId}
      (inside : ∀ part ∈ result :: parameters, before.HasKind (mayRefer
        (.function ⟨before.functionName parameters result, parameters, result⟩)) part) :
      Changes mayRefer operation before (before.function parameters result).2
  | spelled {text resultText : List Char} {parameterTexts : List (List Char)}
      {parameters : List TypeId} {result : TypeId}
      (found : TypeText.functionParts? text = some (parameterTexts, resultText))
      (each : List.Forall₂ before.Denotes parameterTexts parameters)
      (last : before.Denotes resultText result)
      (unspelled : before.functions.get? (String.ofList text) = none) :
      Changes mayRefer operation before ((before.function parameters result).2.spell
        (String.ofList text) (before.function parameters result).1)
  | forgotten {name : String} (same : operation = .forget name) :
      Changes mayRefer operation before (before.forget name)

/-- What spelling adds to a call's changes. -/
theorem Operation.keptBySpelling_changes (mayRefer : Ty → Ty → Prop) (operation : Operation)
    (start : Registry) :
    KeptBySpelling mayRefer (Relation.ReflTransGen (operation.Changes mayRefer) start) :=
  fun _ _ _ _ _ _ _ reached found each last unspelled =>
    reached.tail (.spelled found each last unspelled)

theorem Declaration.changes {middle : Registry} {name : String} {outcome : Except Fault TypeId}
    (named : operation.declares? = some name)
    (declaration : Declaration mayRefer (Relation.ReflTransGen (operation.Changes mayRefer) before)
      operation.Makes name middle outcome after) :
    Relation.ReflTransGen (operation.Changes mayRefer) before after := by
  cases declaration with
  | failed _ _ kept => exact kept
  | made _ _ kept unclaimed inside declares makes =>
      exact kept.tail (.declared named unclaimed inside declares makes)

/-- **A call is a sequence of changes.** -/
theorem Sound.perform_changes (sound : registry.Sound mayRefer)
    (admits : AdmitsNongeneric mayRefer) (respects : operation.Respects mayRefer registry) :
    Relation.ReflTransGen (operation.Changes mayRefer) registry (operation.perform registry) := by
  have kept := operation.keptBySpelling_changes mayRefer registry
  cases operation with
  | declareAlias name parent =>
      exact (declareAlias_declaration admits kept name parent sound .refl rfl).changes rfl
  | declareUnion name members =>
      exact (declareUnion_declaration admits kept name members sound .refl rfl).changes rfl
  | declareClass name superclass scope =>
      exact (declareClass_declaration respects sound .refl rfl).changes rfl
  | addTemplate template => exact .single (.added rfl)
  | function parameters result => exact .single (.made respects)
  | resolve text => exact resolveChars_keeps admits kept text.toList sound .refl rfl
  | forget name => exact .single (.forgotten rfl)

namespace Operation.Changes

theorem sound (changes : operation.Changes mayRefer before after)
    (admits : AdmitsNongeneric mayRefer) (start : before.Sound mayRefer) :
    after.Sound mayRefer := by
  cases changes with
  | declared _ _ inside declares _ => exact start.declare inside declares
  | added => exact start.add (by simp [Ty.references]) (by simp)
  | made inside => exact (start.function inside).1
  | spelled found each last unspelled =>
      exact (start.spellFunction admits found each last unspelled).1
  | forgotten => exact start.forget _

/-- A type is there before a change, or it is a function type, or the call makes it. -/
theorem get? (changes : operation.Changes mayRefer before after)
    (admits : AdmitsNongeneric mayRefer) (start : before.Sound mayRefer)
    (found : after.get? id = some type) :
    before.get? id = some type ∨ (∃ signature, type = .function signature) ∨
      operation.Makes type := by
  cases changes with
  | declared _ _ _ _ makes =>
      change (Registry.add _ _).2.get? id = some type at found
      rw [get?_add] at found
      split at found
      · obtain rfl := Option.some.inj found
        exact .inr (.inr makes)
      · exact .inl found
  | added same =>
      rw [Registry.addTemplate, get?_add] at found
      split at found
      · obtain rfl := Option.some.inj found
        exact .inr (.inr (same ▸ rfl))
      · exact .inl found
  | made inside => exact ((start.function inside).2.1.only_functions found).imp_right .inl
  | spelled parts each last unspelled =>
      have resolves := (start.spellFunction admits parts each last unspelled).2
      exact (resolves.only_functions found).imp_right .inl
  | forgotten => exact .inl found

/-- A change keeps all that is there, or it forgets a name. -/
theorem grows_or_forgets (changes : operation.Changes mayRefer before after)
    (admits : AdmitsNongeneric mayRefer) (start : before.Sound mayRefer) :
    Grows before after ∨ ∃ name, operation = .forget name ∧ after = before.forget name := by
  cases changes with
  | declared _ unclaimed _ _ _ => exact .inl (grows_declare _ unclaimed)
  | added => exact .inl (grows_add _ _)
  | made inside => exact .inl (start.function inside).2.1.toGrows
  | spelled found each last unspelled =>
      exact .inl (start.spellFunction admits found each last unspelled).2.toGrows
  | forgotten same => exact .inr ⟨_, same, rfl⟩

theorem grows (changes : operation.Changes mayRefer before after)
    (admits : AdmitsNongeneric mayRefer) (start : before.Sound mayRefer)
    (lasting : operation.IsLasting) : Grows before after := by
  rcases changes.grows_or_forgets admits start with grows | ⟨name, rfl, _⟩
  · exact grows
  · exact absurd lasting id

end Operation.Changes

/-! ## Sequences of changes and of calls -/

theorem Reaches.trans {middle : Registry} (first : Reaches allowed before middle)
    (second : Reaches allowed middle after) : Reaches allowed before after := by
  induction second with
  | refl => exact first
  | step operation _ isAllowed ih => exact .step operation ih isAllowed

theorem Reaches.mono {others : Registry → Operation → Prop} (reaches : Reaches allowed before after)
    (weaker : ∀ {registry : Registry} {operation : Operation},
      allowed registry operation → others registry operation) : Reaches others before after := by
  induction reaches with
  | refl => exact .refl
  | step operation _ isAllowed ih => exact ih.step operation (weaker isAllowed)

/-- What every change of a call keeps holds after the call. -/
theorem Sound.of_changes (sound : before.Sound mayRefer) (admits : AdmitsNongeneric mayRefer)
    (initially : holds before)
    (kept : ∀ {first second : Registry}, first.Sound mayRefer → holds first →
      operation.Changes mayRefer first second → holds second)
    (changes : Relation.ReflTransGen (operation.Changes mayRefer) before after) :
    after.Sound mayRefer ∧ holds after := by
  induction changes with
  | refl => exact ⟨sound, initially⟩
  | tail _ change ih => exact ⟨change.sound admits ih.1, kept ih.1 ih.2 change⟩

/-- What every change of an allowed call keeps holds after any sequence of calls. -/
theorem Reaches.invariant (reaches : Reaches allowed before after) (sound : before.Sound mayRefer)
    (admits : AdmitsNongeneric mayRefer)
    (respects : ∀ {registry : Registry} {operation : Operation}, allowed registry operation →
      operation.Respects mayRefer registry) (initially : holds before)
    (kept : ∀ {registry first second : Registry} {operation : Operation},
      allowed registry operation → first.Sound mayRefer → holds first →
        operation.Changes mayRefer first second → holds second) :
    after.Sound mayRefer ∧ holds after := by
  induction reaches with
  | refl => exact ⟨sound, initially⟩
  | step operation _ isAllowed ih =>
      have changes := ih.1.perform_changes admits (respects isAllowed)
      exact ih.1.of_changes admits ih.2 (kept isAllowed) changes

end TypedLisp.Registry
