import TypedLisp.Proofs.Likeness

/-!
# Registries up to the handles of scopes

Classes and generic functions keep a scope, and nothing that a registry does depends on
which handle the scope has. So every step on a registry commutes with relabelling the
scopes that its types keep (`Registry.Relabels`): the outcome is the same, and the
registries that are left behind differ in the labels only.

Registries that differ in the labels of scopes are alike in a lawful way, whatever names
are declared (`Registry.relabelling_lawful`).
-/

set_option autoImplicit false

namespace TypedLisp

namespace Registry

/-- The registry in which types keep other scopes. -/
def relabel (onScopes : ScopeId → ScopeId) (registry : Registry) : Registry :=
  { registry with types := registry.types.map (Ty.rename (fun id => id) onScopes) }

variable {registry : Registry} {onScopes laterScopes : ScopeId → ScopeId} {id : TypeId}

theorem get?_relabel (registry : Registry) (id : TypeId) :
    (registry.relabel onScopes).get? id =
      (registry.get? id).map (Ty.rename (fun id => id) onScopes) := by
  simp [relabel, get?]

theorem get?_relabel_of_get? {type : Ty} (found : registry.get? id = some type) :
    (registry.relabel onScopes).get? id = some (type.rename (fun id => id) onScopes) := by
  rw [get?_relabel, found, Option.map_some]

theorem name_relabel (registry : Registry) (id : TypeId) :
    (registry.relabel onScopes).name id = registry.name id := by
  rw [Registry.name, get?_relabel, Registry.name]
  cases registry.get? id with
  | none => rfl
  | some type => exact type.name_rename

theorem functionName_relabel (registry : Registry) (parameters : List TypeId) (result : TypeId) :
    (registry.relabel onScopes).functionName parameters result =
      registry.functionName parameters result := by
  simp [functionName, name_relabel, funext (name_relabel registry)]

theorem relabel_id (registry : Registry) : registry.relabel (fun id => id) = registry := by
  have same : Ty.rename (fun id => id) (fun id => id) = id := funext Ty.rename_id
  simp [relabel, same]

/-- Labels matter only on the scopes that types keep. -/
theorem relabel_congr (agree : ∀ {id : TypeId} {type : Ty} {scope : ScopeId},
    registry.get? id = some type → type.scope? = some scope →
      laterScopes scope = onScopes scope) :
    registry.relabel laterScopes = registry.relabel onScopes := by
  have types : registry.types.map (Ty.rename (fun id => id) laterScopes) =
      registry.types.map (Ty.rename (fun id => id) onScopes) := by
    refine Array.map_congr_left fun type among => ?_
    obtain ⟨index, there⟩ := Array.getElem?_of_mem among
    have found : registry.get? ⟨index⟩ = some type := there
    exact Ty.rename_congr (fun _ _ => rfl) fun scope keeps => agree found keeps
  simp [relabel, types]

theorem WellFormed.relabel (wellFormed : registry.WellFormed) (onScopes : ScopeId → ScopeId) :
    (registry.relabel onScopes).WellFormed where
  primitives found := by
    obtain ⟨kind, rfl⟩ := primitive_of_get?_initial found
    rw [get?_relabel, wellFormed.primitives found]
    rfl
  references {id type} found reference among := by
    rw [get?_relabel] at found
    obtain ⟨original, there, rfl⟩ := Option.map_eq_some_iff.1 found
    rw [Ty.references_rename, List.map_id'] at among
    obtain ⟨smaller, content, foundContent, nongeneric⟩ :=
      wellFormed.references there reference among
    exact ⟨smaller, _, get?_relabel_of_get? foundContent, nongeneric.rename⟩
  named listed := by
    obtain ⟨type, found, declared⟩ := wellFormed.named listed
    exact ⟨_, get?_relabel_of_get? found, type.declaredName?_rename.trans declared⟩
  interned listed := by
    obtain ⟨signature, found, spelled⟩ := wellFormed.interned listed
    refine ⟨signature, ?_, spelled⟩
    rw [get?_relabel, found]
    simp [Ty.rename, FunctionType.rename]
  canonical {id signature} found := by
    rw [get?_relabel] at found
    obtain ⟨original, there, renamed⟩ := Option.map_eq_some_iff.1 found
    cases original with
    | function old =>
        obtain rfl : old = signature := by simpa [Ty.rename, FunctionType.rename] using renamed
        rw [functionName_relabel]
        exact wellFormed.canonical there
    | _ => simp [Ty.rename] at renamed
  decoded listed := by
    have spells : ∀ {text : List Char} {id : TypeId}, registry.Spells text id →
        (registry.relabel onScopes).Spells text id := by
      rintro text id (listed | ⟨type, found, declared⟩)
      · exact .inl listed
      · exact .inr ⟨_, get?_relabel_of_get? found, type.declaredName?_rename.trans declared⟩
    rcases wellFormed.decoded listed with ⟨type, found, named⟩ |
      ⟨parameterTexts, resultText, parameters, result, parts, each, last, made⟩
    · exact .inl ⟨_, get?_relabel_of_get? found, type.name_rename.trans named⟩
    · refine .inr ⟨parameterTexts, resultText, parameters, result, parts,
        each.imp fun _ _ => spells, spells last, ?_⟩
      rw [functionName_relabel]
      exact made

/-- Relabelling a registry embeds it. -/
theorem embeds_relabel (wellFormed : registry.WellFormed) (onScopes : ScopeId → ScopeId) :
    Embeds (fun id => id) onScopes registry (registry.relabel onScopes) where
  wellFormed := wellFormed
  wellFormed_target := wellFormed.relabel onScopes
  types found := get?_relabel_of_get? found
  injective _ _ same := same

/-! ## Changes -/

theorem add_relabel (registry : Registry) (type : Ty) :
    (registry.relabel onScopes).add (type.rename (fun id => id) onScopes) =
      ((registry.add type).1, (registry.add type).2.relabel onScopes) := by
  simp [add, relabel]

theorem declare_relabel (registry : Registry) (name : String) (type : Ty) :
    (registry.relabel onScopes).declare name (type.rename (fun id => id) onScopes) =
      ((registry.declare name type).1, (registry.declare name type).2.relabel onScopes) := by
  simp [declare, add, relabel]

theorem function_relabel (registry : Registry) (parameters : List TypeId) (result : TypeId) :
    (registry.relabel onScopes).function parameters result =
      ((registry.function parameters result).1,
        (registry.function parameters result).2.relabel onScopes) := by
  have named : (registry.relabel onScopes).functionName parameters result =
      registry.functionName parameters result := functionName_relabel registry parameters result
  cases found : registry.functions.get? (registry.functionName parameters result) with
  | some id =>
      rw [function_of_get? found]
      exact function_of_get? ((congrArg _ named).trans found)
  | none =>
      have missing := (congrArg (registry.relabel onScopes).functions.get? named).trans found
      rw [function_of_get?_eq_none found, function_of_get?_eq_none missing, named]
      simp [add, spell, relabel, Ty.rename, FunctionType.rename]

/-! ## Steps -/

/-- A step has the same outcome on a relabelled registry, and leaves the relabelled
registry behind. -/
def Relabels {α : Type} (onScopes : ScopeId → ScopeId) (step : RegistryM α) : Prop :=
  ∀ registry : Registry, step.run.run (registry.relabel onScopes) =
    ((step.run.run registry).1, (step.run.run registry).2.relabel onScopes)

namespace Relabels

variable {α β : Type} {step : RegistryM α} {next : α → RegistryM β}

theorem bind (first : Relabels onScopes step) (rest : ∀ value, Relabels onScopes (next value)) :
    Relabels onScopes (step >>= next) := by
  intro registry
  rw [run_bind, run_bind, first]
  cases ran : step.run.run registry with
  | mk outcome reached =>
      cases outcome with
      | ok value => exact rest value reached
      | error fault => rfl

theorem mapM {ι : Type} {items : List ι} {step : ι → RegistryM α}
    (each : ∀ item ∈ items, Relabels onScopes (step item)) :
    Relabels onScopes (items.mapM step) := by
  induction items with
  | nil => exact fun _ => rfl
  | cons item items ih =>
      rw [List.mapM_cons]
      refine (each item List.mem_cons_self).bind fun value => ?_
      exact (ih fun other among => each other (List.mem_cons_of_mem _ among)).bind
        fun values registry => rfl

end Relabels

theorem claim_relabels (name : String) : Relabels onScopes (claim name) := by
  intro registry
  rw [run_claim, run_claim]
  rfl

theorem function_relabels (parameters : List TypeId) (result : TypeId) :
    Relabels onScopes (modifyGet fun registry => registry.function parameters result) := by
  intro registry
  rw [run_modifyGet, run_modifyGet, function_relabel]

/-- **Resolution does not depend on labels.** By induction on the length of the text. -/
theorem resolveChars_relabels (text : List Char) : Relabels onScopes (resolveChars text) := by
  induction size : text.length using Nat.strongRecOn generalizing text with
  | ind size ih =>
      intro registry
      have trimmed := Text.length_trim_le text
      have known : (registry.relabel onScopes).known? (String.ofList (Text.trim text)) =
          registry.known? (String.ofList (Text.trim text)) := rfl
      rw [resolveChars_eq, run_bind, run_bind, run_get, run_get]
      dsimp only
      rw [known]
      cases registry.known? (String.ofList (Text.trim text)) with
      | some id => rfl
      | none =>
          cases found : TypeText.functionParts? (Text.trim text) with
          | none => rfl
          | some parts =>
              obtain ⟨parameters, result⟩ := parts
              have shorter := TypeText.length_lt_of_functionParts? found
              have each : ∀ parameter ∈ parameters, Relabels onScopes (resolveChars parameter) := by
                intro parameter among
                have less := shorter.1 parameter among
                exact ih parameter.length (by omega) parameter rfl
              have last : Relabels onScopes (resolveChars result) :=
                ih result.length (by omega) result rfl
              refine (Relabels.mapM each).bind (fun parameters => last.bind fun result => ?_)
                registry
              exact (function_relabels parameters result).bind fun id registry => rfl

/-- The declaration of a type that keeps no scope. -/
theorem declare_relabels (name : String) {type : Ty} (captureless : type.scope? = none) :
    Relabels onScopes (modifyGet fun registry => registry.declare name type) := by
  have same : type.rename (fun id => id) onScopes = type := by
    refine (Ty.rename_congr (fun _ _ => rfl) fun scope keeps => ?_).trans (Ty.rename_id type)
    rw [captureless] at keeps
    cases keeps
  intro registry
  have declared : (registry.relabel onScopes).declare name (type.rename (fun id => id) onScopes) =
      _ := declare_relabel registry name type
  rw [same] at declared
  rw [run_modifyGet, run_modifyGet, declared]

theorem declareAlias_relabels (name parent : String) :
    Relabels onScopes (declareAlias name parent) :=
  (claim_relabels name).bind fun _ => (resolveChars_relabels parent.toList).bind fun _ =>
    declare_relabels name rfl

theorem declareUnion_relabels (name : String) (members : List String) :
    Relabels onScopes (declareUnion name members) :=
  (claim_relabels name).bind fun _ =>
    (Relabels.mapM fun member _ => resolveChars_relabels member.toList).bind fun _ =>
      declare_relabels name rfl

/-! ## Relabelled registries are alike -/

/-- The likeness of a registry and the same one with other labels. All names may be
declared. -/
def relabelling : Likeness where
  Related onTypes onScopes left right :=
    left.WellFormed ∧ onTypes = (fun id => id) ∧ right = left.relabel onScopes
  Named onTypes left id other := left.IsPlain id ∧ other = onTypes id
  Admits _ := True

theorem Relabels.inStep {step : RegistryM TypeId} {left : Registry}
    {good : (TypeId → TypeId) → Registry → TypeId → TypeId → Prop}
    (relabels : Relabels onScopes step) (wellFormed : (step.run.run left).2.WellFormed)
    (grows : Grows left (step.run.run left).2)
    (holds : ∀ id, (step.run.run left).1 = .ok id →
      good (fun id => id) (step.run.run left).2 id id) :
    relabelling.InStep onScopes (fun id => id) left (left.relabel onScopes) step step good :=
  .of_run rfl (relabels left) (fun _ => rfl) grows ⟨wellFormed, rfl, rfl⟩ (.of_eq rfl holds)

theorem extended_relabel (left : Registry) (onScopes : ScopeId → ScopeId) :
    extended (fun id => id) left (left.relabel onScopes) = fun id => id := by
  have sizes : (left.relabel onScopes).types.size = left.types.size := by simp [relabel]
  rw [extended, sizes]
  exact Function.update_eq_self _ _

theorem WellFormed.function_inStep {left : Registry} (wellFormed : left.WellFormed)
    (onScopes : ScopeId → ScopeId) {parameters : List TypeId} {result : TypeId}
    (inside : ∀ part ∈ result :: parameters, left.IsPlain part) :
    relabelling.InStep onScopes (fun id => id) left (left.relabel onScopes)
      (modifyGet fun registry => registry.function parameters result)
      (modifyGet fun registry => registry.function parameters result) relabelling.Named := by
  obtain ⟨made, interns, listed, _⟩ := wellFormed.function inside
  obtain ⟨signature, found, _⟩ := made.interned listed
  refine (function_relabels parameters result).inStep made interns.toGrows fun id answer => ?_
  obtain rfl := Except.ok.inj answer
  exact ⟨⟨_, found, by simp [Ty.IsNongeneric]⟩, rfl⟩

/-- **Relabelled registries are alike in a lawful way.** -/
theorem relabelling_lawful : relabelling.Lawful where
  embeds := by
    rintro _ onScopes left _ ⟨wellFormed, rfl, rfl⟩
    exact embeds_relabel wellFormed onScopes
  primitives := by
    rintro _ _ _ _ _ ⟨_, rfl, _⟩ _
    rfl
  names := by
    rintro _ _ left _ ⟨_, rfl, rfl⟩ name
    exact Option.map_id'.symm
  relabel := by
    rintro _ _ _ left _ ⟨wellFormed, rfl, rfl⟩ agree
    exact ⟨wellFormed, rfl, (relabel_congr agree).symm⟩
  named := by
    rintro _ _ _ _ ⟨plain, same⟩
    exact ⟨plain, same⟩
  named_later := by
    rintro _ _ _ _ _ _ _ _ ⟨plain, same⟩ agree grows _
    exact ⟨plain.of_types grows.types, same.trans (agree plain.has).symm⟩
  resolve := by
    rintro _ onScopes left _ text ⟨wellFormed, rfl, rfl⟩
    obtain ⟨made, interns, denotes⟩ := resolve_resolves text wellFormed rfl
    exact (resolveChars_relabels text.toList).inStep made interns.toGrows fun id answer =>
      ⟨(denotes id answer).isPlain made, rfl⟩
  function := by
    rintro _ onScopes left _ parameters _ result other ⟨wellFormed, rfl, rfl⟩ each ⟨plain, same⟩
    obtain ⟨rfl, parts⟩ := each.eq_map
    obtain rfl : other = result := same
    rw [List.map_id']
    exact wellFormed.function_inStep onScopes fun part among => by
      rcases List.mem_cons.1 among with rfl | among
      · exact plain
      · exact parts part among
  declareAlias := by
    rintro _ onScopes left _ name parent ⟨wellFormed, rfl, rfl⟩ _
    obtain ⟨declares, plain⟩ := declareAlias_declares name parent wellFormed rfl
    exact (declareAlias_relabels name parent).inStep declares.wellFormed declares.grows
      fun id answer => ⟨(plain id answer).has, rfl⟩
  declareUnion := by
    rintro _ onScopes left _ name members ⟨wellFormed, rfl, rfl⟩ _
    obtain ⟨declares, plain⟩ := declareUnion_declares name members wellFormed rfl
    exact (declareUnion_relabels name members).inStep declares.wellFormed declares.grows
      fun id answer => ⟨(plain id answer).has, rfl⟩
  addTemplate := by
    rintro _ onScopes left _ template ⟨wellFormed, rfl, rfl⟩
    refine ⟨wellFormed.add (by simp [Ty.references]) (by simp), extended_relabel left onScopes, ?_⟩
    exact congrArg Prod.snd (add_relabel left (.generic template))
  declareClass := by
    rintro _ onScopes left _ name superclass scope ⟨wellFormed, rfl, rfl⟩ _ plain unclaimed
    refine ⟨wellFormed.declare (fun reference among => ?_) rfl, extended_relabel left onScopes, ?_⟩
    · exact plain reference (Option.mem_toList.1 among)
    · exact congrArg Prod.snd (declare_relabel left name (.nominal ⟨name, superclass, scope⟩))
  forget := by
    rintro _ _ onScopes _ left _ _ _ name _ _ ⟨wellFormed, rfl, rfl⟩
    exact ⟨wellFormed.forget name, rfl, rfl⟩

end Registry

end TypedLisp
