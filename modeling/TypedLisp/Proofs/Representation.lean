import TypedLisp.Proofs.Operations
import TypedLisp.Proofs.Renaming
import TypedLisp.Proofs.TypeNames

/-!
# The representation of types

A registry that calls have built, in any order and whether each of them succeeded or
failed, is represented soundly (`Registry.Represented`): a type refers to earlier types
only, a declared name leads to a primitive, an alias, a choice of types or a class of
that name, a text of a function type leads to a function type, and every function type
is found under its canonical name. A text leads to the same function type for good.

The functions that follow references ask whether a reference leads to an earlier type
before they take it. Here the same walks are stated without that question, for a number
of steps. Such a walk has no outcome when it meets a handle of no type or when the steps
do not suffice. In a registry that calls have built neither happens, and the outcome is
the one of the guarded walk (`Registry.Walks`), so the guards never refuse anything.

A declaration asks whether its name has been declared, not whether the name is a text of a
function type. So a text that has been resolved keeps its type only until a type is
declared under that very text (`Registry.TakenSince`), and a text whose type was declared
keeps it as long as names are not forgotten.
-/

set_option autoImplicit false

namespace TypedLisp.Registry

/-! ## Walks without guards -/

/-- The end of a chain of aliases and the type there. -/
def aliasEndWithin (registry : Registry) : Nat → TypeId → Option (TypeId × Ty)
  | 0, _ => none
  | steps + 1, id => do
      match ← registry.get? id with
      | .alias _ parent => registry.aliasEndWithin steps parent
      | type => return (id, type)

/-- The name of a type. That of a function type is put together from the names of its
parts. -/
def nameWithin (registry : Registry) : Nat → TypeId → Option String
  | 0, _ => none
  | steps + 1, id => do
      match ← registry.get? id with
      | .function signature =>
          let result ← registry.nameWithin steps signature.result
          let parameters ← signature.parameters.mapM (registry.nameWithin steps)
          return "Fn<" ++ result ++
            (if parameters.isEmpty then "" else "<" ++ String.intercalate "," parameters ++ ">") ++
              ">"
      | type => return type.name

/-- Whether every member of a choice of types is one of the candidates. -/
def includesAllWithin (registry : Registry) (steps : Nat) (union : TypeId)
    (candidates : List TypeId) : Option Bool := do
  match ← registry.aliasEndWithin steps union with
  | (_, .union _ members) =>
      members.allM fun member => do
        let memberEnd ← registry.aliasEndWithin steps member
        candidates.anyM fun candidate => do
          let candidateEnd ← registry.aliasEndWithin steps candidate
          return candidateEnd.1 = memberEnd.1
  | _ => return false

/-- Whether a value of the first type may stand where the second is expected. -/
def fitsWithin (registry : Registry) : Nat → TypeId → TypeId → Option Bool
  | 0, _, _ => none
  | steps + 1, given, expected =>
      if given = expected then some true
      else do
        match ← registry.get? given, ← registry.get? expected with
        | .alias _ parent, _ => registry.fitsWithin steps parent expected
        | _, .alias _ parent => registry.fitsWithin steps given parent
        | .function left, .function right =>
            if left.parameters.length = right.parameters.length then
              if ← (left.parameters.zip right.parameters).allM fun pair =>
                  registry.fitsWithin steps pair.1 pair.2 then
                registry.fitsWithin steps left.result right.result
              else return false
            else return false
        | .union _ left, .union _ right =>
            if ← registry.includesAllWithin (steps + 1) given right then
              registry.includesAllWithin (steps + 1) expected left
            else return false
        | .union _ members, _ => members.anyM fun member => registry.fitsWithin steps member expected
        | _, .union _ members => members.anyM fun member => registry.fitsWithin steps given member
        | .nominal declared, _ =>
            match declared.superclass with
            | some parent => registry.fitsWithin steps parent expected
            | none => return false
        | _, _ => return false

/-- A class and its ancestors. -/
def lineageWithin (registry : Registry) : Nat → TypeId → Option (List ClassType)
  | 0, _ => none
  | steps + 1, id => do
      match ← registry.aliasEndWithin (steps + 1) id with
      | (_, .nominal declared) =>
          match declared.superclass with
          | some parent => return declared :: (← registry.lineageWithin steps parent)
          | none => return [declared]
      | _ => return []

/-- Every walk from types that are there, allowed at least as many steps as their handles
say, has an outcome, and it is that of the guarded walk. -/
structure Walks (registry : Registry) : Prop where
  unalias : ∀ {id : TypeId} {steps : Nat}, registry.Has id → id.index < steps →
    (registry.aliasEndWithin steps id).map Prod.fst = some (registry.unalias id)
  function? : ∀ {id : TypeId} {steps : Nat}, registry.Has id → id.index < steps →
    (registry.aliasEndWithin steps id).map (fun found => match found.2 with
      | .function signature => some signature
      | _ => none) = some (registry.function? id)
  class? : ∀ {id : TypeId} {steps : Nat}, registry.Has id → id.index < steps →
    (registry.aliasEndWithin steps id).map (fun found => match found.2 with
      | .nominal declared => some declared
      | _ => none) = some (registry.class? id)
  name : ∀ {id : TypeId} {steps : Nat}, registry.Has id → id.index < steps →
    registry.nameWithin steps id = some (registry.name id)
  fits : ∀ {given expected : TypeId} {steps : Nat}, registry.Has given → registry.Has expected →
    given.index + expected.index < steps →
      registry.fitsWithin steps given expected = some (registry.fits given expected)
  lineage : ∀ {id : TypeId} {steps : Nat}, registry.Has id → id.index < steps →
    registry.lineageWithin steps id = some (registry.lineage id)

variable {registry : Registry} {mayRefer : Ty → Ty → Prop} {id given expected : TypeId}
  {steps : Nat}

/-! ## The walks end -/

/-- A chain of aliases is shorter than its first handle says. -/
theorem Sound.aliasEndWithin_eq (sound : registry.Sound mayRefer) (has : registry.Has id)
    (enough : id.index < steps) : ∃ type, registry.get? (registry.unalias id) = some type ∧
      registry.aliasEndWithin steps id = some (registry.unalias id, type) := by
  induction steps generalizing id with
  | zero => omega
  | succ steps ih =>
      obtain ⟨type, found⟩ := has
      cases type with
      | «alias» name parent =>
          obtain ⟨smaller, there⟩ := sound.found_reference found (List.mem_singleton.2 rfl)
          obtain ⟨last, foundLast, ended⟩ := ih there (by omega)
          rw [sound.unalias_of_alias found]
          refine ⟨last, foundLast, ?_⟩
          simp [aliasEndWithin, found, ended]
      | _ =>
          rw [unalias_of_ne found (by simp)]
          exact ⟨_, found, by simp [aliasEndWithin, found]⟩

/-- The canonical name that is kept in a function type is the one that its parts make
up. -/
theorem Sound.nameWithin_eq (sound : registry.Sound mayRefer) (has : registry.Has id)
    (enough : id.index < steps) : registry.nameWithin steps id = some (registry.name id) := by
  induction steps generalizing id with
  | zero => omega
  | succ steps ih =>
      obtain ⟨type, found⟩ := has
      cases type with
      | function signature =>
          have part : ∀ reference ∈ signature.result :: signature.parameters,
              registry.nameWithin steps reference = some (registry.name reference) := by
            intro reference among
            obtain ⟨smaller, there⟩ := sound.found_reference found among
            exact ih there (by omega)
          have parameters := List.mapM_eq_some_of_mem fun reference among =>
            part reference (List.mem_cons_of_mem _ among)
          have canonical : registry.name id = signature.name := by
            simp [Registry.name, found, Ty.name]
          rw [canonical, (sound.canonical found).2]
          simp [nameWithin, found, part signature.result List.mem_cons_self, parameters,
            functionName]
      | _ => simp [nameWithin, found, Registry.name, Ty.name]

theorem Sound.includesAllWithin_eq (sound : registry.Sound mayRefer) (has : registry.Has id)
    (enough : id.index < steps) {candidates : List TypeId}
    (present : ∀ candidate ∈ candidates, registry.Has candidate ∧ candidate.index < steps) :
    registry.includesAllWithin steps id candidates = some (registry.includesAll id candidates) := by
  obtain ⟨type, found, ended⟩ := sound.aliasEndWithin_eq has enough
  have bound := registry.index_unalias_le id
  cases type with
  | union name members =>
      have here : registry.members? id = some members := by simp [members?, found]
      simp only [includesAllWithin, ended, Option.bind_eq_bind, Option.bind_some, includesAll, here]
      apply List.allM_eq_some_of_mem
      intro member among
      obtain ⟨smaller, there⟩ := sound.found_reference found among
      obtain ⟨_, _, memberEnd⟩ := sound.aliasEndWithin_eq there
        (show member.index < steps by omega)
      rw [memberEnd, Option.bind_some]
      apply List.anyM_eq_some_of_mem
      intro candidate amongCandidates
      obtain ⟨thereToo, small⟩ := present candidate amongCandidates
      obtain ⟨_, _, candidateEnd⟩ := sound.aliasEndWithin_eq thereToo small
      rw [candidateEnd, Option.bind_some]
      rfl
  | _ => simp [includesAllWithin, ended, includesAll, members?, found]

theorem Sound.small_references (sound : registry.Sound mayRefer) {type : Ty}
    (found : registry.get? id = some type) (small : id.index ≤ steps) :
    ∀ reference ∈ type.references, registry.Has reference ∧ reference.index < steps := by
  intro reference among
  obtain ⟨smaller, there⟩ := sound.found_reference found among
  exact ⟨there, by omega⟩

/-- One choice of types is held against the members of another. -/
theorem Sound.choiceWithin_eq (sound : registry.Sound mayRefer) {name otherName : String}
    {members others : List TypeId} (foundGiven : registry.get? given = some (.union name members))
    (foundExpected : registry.get? expected = some (.union otherName others))
    (enough : given.index + expected.index < steps) :
    registry.includesAllWithin steps given others = some (registry.includesAll given others) := by
  apply sound.includesAllWithin_eq ⟨_, foundGiven⟩
  · omega
  · exact sound.small_references foundExpected (by omega)

/-- Two types are compared in fewer steps than the sum of their handles says. A step
moves to an earlier type on one side at least. -/
theorem Sound.fitsWithin_eq (sound : registry.Sound mayRefer) (hasGiven : registry.Has given)
    (hasExpected : registry.Has expected) (enough : given.index + expected.index < steps) :
    registry.fitsWithin steps given expected = some (registry.fits given expected) := by
  induction steps generalizing given expected with
  | zero => omega
  | succ steps ih =>
      obtain ⟨first, foundGiven⟩ := hasGiven
      obtain ⟨second, foundExpected⟩ := hasExpected
      have left : ∀ reference ∈ first.references, registry.fitsWithin steps reference expected =
          some (registry.fits reference expected) := by
        intro reference among
        obtain ⟨smaller, there⟩ := sound.found_reference foundGiven among
        exact ih there ⟨second, foundExpected⟩ (by omega)
      have right : ∀ reference ∈ second.references, registry.fitsWithin steps given reference =
          some (registry.fits given reference) := by
        intro reference among
        obtain ⟨smaller, there⟩ := sound.found_reference foundExpected among
        exact ih ⟨first, foundGiven⟩ there (by omega)
      have both : ∀ one ∈ first.references, ∀ other ∈ second.references,
          registry.fitsWithin steps one other = some (registry.fits one other) := by
        intro one amongLeft other amongRight
        obtain ⟨smaller, there⟩ := sound.found_reference foundGiven amongLeft
        obtain ⟨smallerToo, thereToo⟩ := sound.found_reference foundExpected amongRight
        exact ih there thereToo (by omega)
      rw [sound.fits_eq foundGiven foundExpected]
      by_cases same : given = expected
      · simp [fitsWithin, same]
      · simp only [fitsWithin, if_neg same, foundGiven, foundExpected, Option.bind_eq_bind,
          Option.bind_some]
        cases first with
        | «alias» name parent => exact left parent (List.mem_singleton.2 rfl)
        | function signature =>
            cases second with
            | «alias» name parent => exact right parent (List.mem_singleton.2 rfl)
            | function other =>
                have parameters := List.allM_zip_eq_some_of_mem fun one amongLeft another amongRight =>
                  both one (List.mem_cons_of_mem _ amongLeft) another
                    (List.mem_cons_of_mem _ amongRight)
                have result := both signature.result List.mem_cons_self other.result
                  List.mem_cons_self
                by_cases length : signature.parameters.length = other.parameters.length
                · simp only [if_pos length, parameters, Option.bind_some, fitsStep, result]
                  cases (signature.parameters.zip other.parameters).all
                    fun pair => registry.fits pair.1 pair.2 <;> simp [length]
                · simp [fitsStep, length]
            | union name members => exact List.anyM_eq_some_of_mem right
            | _ => rfl
        | union name members =>
            cases second with
            | «alias» name parent => exact right parent (List.mem_singleton.2 rfl)
            | union otherName others =>
                have forth := sound.choiceWithin_eq foundGiven foundExpected enough
                have back := sound.choiceWithin_eq foundExpected foundGiven
                  (Nat.add_comm given.index expected.index ▸ enough)
                simp only [forth, back, Option.bind_some, fitsStep]
                cases registry.includesAll given others <;> rfl
            | _ => exact List.anyM_eq_some_of_mem left
        | nominal declared =>
            cases second with
            | «alias» name parent => exact right parent (List.mem_singleton.2 rfl)
            | union name members => exact List.anyM_eq_some_of_mem right
            | _ =>
                cases inherits : declared.superclass with
                | none => simp [fitsStep, inherits]
                | some parent => simp [fitsStep, inherits, left parent (by simp [Ty.references, inherits])]
        | _ =>
            cases second with
            | «alias» name parent => exact right parent (List.mem_singleton.2 rfl)
            | union name members => exact List.anyM_eq_some_of_mem right
            | _ => rfl

theorem Sound.lineageWithin_eq (sound : registry.Sound mayRefer) (has : registry.Has id)
    (enough : id.index < steps) :
    registry.lineageWithin steps id = some (registry.lineage id) := by
  induction steps generalizing id with
  | zero => omega
  | succ steps ih =>
      obtain ⟨type, found, ended⟩ := sound.aliasEndWithin_eq has enough
      have bound := registry.index_unalias_le id
      rw [sound.lineage_eq]
      cases type with
      | nominal declared =>
          have classed : registry.class? id = some declared := by simp [class?, found]
          cases inherits : declared.superclass with
          | none => simp [lineageWithin, ended, classed, inherits]
          | some parent =>
              obtain ⟨smaller, there⟩ := sound.found_reference found
                (show parent ∈ _ by simp [Ty.references, inherits])
              have rest := ih there (by omega)
              simp [lineageWithin, ended, classed, inherits, rest]
      | _ => simp [lineageWithin, ended, class?, found]

/-- **The walks of a sound registry end without their guards.** -/
theorem Sound.walks (sound : registry.Sound mayRefer) : registry.Walks where
  unalias has enough := by
    obtain ⟨type, _, ended⟩ := sound.aliasEndWithin_eq has enough
    rw [ended]
    rfl
  function? has enough := by
    obtain ⟨type, found, ended⟩ := sound.aliasEndWithin_eq has enough
    rw [ended, Registry.function?, found]
    cases type <;> rfl
  class? has enough := by
    obtain ⟨type, found, ended⟩ := sound.aliasEndWithin_eq has enough
    rw [ended, Registry.class?, found]
    cases type <;> rfl
  name := sound.nameWithin_eq
  fits := sound.fitsWithin_eq
  lineage := sound.lineageWithin_eq

/-! ## Registries that calls build -/

/-- Types refer to earlier types that are there, and the tables lead to types of their
names and texts. -/
structure Represented (registry : Registry) : Prop where
  earlier : ∀ {id : TypeId} {type : Ty}, registry.get? id = some type →
    ∀ reference ∈ type.references, reference.index < id.index ∧ registry.Has reference
  named : ∀ {name : String} {id : TypeId}, registry.names.get? name = some id →
    ∃ type, registry.get? id = some type ∧ type.declaredName? = some name
  interned : ∀ {text : String} {id : TypeId}, registry.functions.get? text = some id →
    ∃ signature, registry.get? id = some (.function signature)
  canonical : ∀ {id : TypeId} {signature : FunctionType},
    registry.get? id = some (.function signature) →
      registry.functions.get? signature.name = some id ∧
        signature.name = registry.functionName signature.parameters signature.result

theorem Sound.represented (sound : registry.Sound mayRefer) : registry.Represented where
  earlier found _ among := sound.found_reference found among
  named := sound.named
  interned listed := by
    obtain ⟨signature, found, _⟩ := sound.interned listed
    exact ⟨signature, found⟩
  canonical := sound.canonical

/-- A call on handles of the registry. -/
def GivenCall (registry : Registry) (operation : Operation) : Prop :=
  ∀ id ∈ operation.handles, registry.Has id

/-- The handle that a call gives out. -/
def Operation.gives? : Operation → Registry → Option TypeId
  | .declareAlias name parent, registry =>
      ((Registry.declareAlias name parent).run.run registry).1.toOption
  | .declareUnion name members, registry =>
      ((Registry.declareUnion name members).run.run registry).1.toOption
  | .declareClass name superclass scope, registry =>
      ((Registry.declareClass name superclass scope).run.run registry).1.toOption
  | .addTemplate template, registry => some (registry.addTemplate template).1
  | .function parameters result, registry => some (registry.function parameters result).1
  | .resolve text, registry => ((Registry.resolve text).run.run registry).1.toOption
  | .forget _, _ => none

theorem ok_of_toOption {α : Type} {outcome : Except Fault α} {value : α}
    (given : outcome.toOption = some value) : outcome = .ok value := by
  cases outcome with
  | ok found => exact congrArg Except.ok (Option.some.inj given)
  | error fault => cases given

/-- A handle that is given out is the handle of a type. -/
theorem Sound.has_gives (sound : registry.Sound fun _ _ => True) {operation : Operation}
    (call : GivenCall registry operation) (gives : operation.gives? registry = some id) :
    (operation.perform registry).Has id := by
  have respects := Operation.respects_of_has call
  have kept : KeptBySpelling (fun _ _ => True) fun _ => True := keptBySpelling_true
  cases operation with
  | declareAlias name parent =>
      have declaration := declareAlias_declaration admits_all kept name parent sound trivial rfl
      exact (declaration.isPlain id (ok_of_toOption gives)).has
  | declareUnion name members =>
      have declaration := declareUnion_declaration admits_all kept name members sound trivial rfl
      exact (declaration.isPlain id (ok_of_toOption gives)).has
  | declareClass name superclass scope =>
      have declaration : Declaration (fun _ _ => True) (fun _ => True)
          (· = .nominal ⟨name, superclass, scope⟩) name registry _ _ :=
        declareClass_declaration (fun parent among => respects parent among) sound trivial rfl
      exact (declaration.isPlain id (ok_of_toOption gives)).has
  | addTemplate template =>
      obtain rfl := Option.some.inj gives
      exact ⟨_, (get?_add _ _ _).trans (if_pos rfl)⟩
  | function parameters result =>
      obtain rfl := Option.some.inj gives
      obtain ⟨made, _, listed, _⟩ := sound.function respects
      obtain ⟨signature, found, _⟩ := made.interned listed
      exact ⟨_, found⟩
  | resolve text =>
      obtain ⟨made, _, denotes⟩ := resolve_sound admits_all text sound rfl
      exact ((denotes id (ok_of_toOption gives)).isPlain made).has
  | forget name => cases gives

/-- The second registry has the types of the first one under their handles, and its texts
of function types lead where they led. -/
structure Lasts (before after : Registry) : Prop where
  types : ∀ {id : TypeId} {type : Ty}, before.get? id = some type → after.get? id = some type
  functions : ∀ {text : String} {id : TypeId}, before.functions.get? text = some id →
    after.functions.get? text = some id

/-- A change of any call, also one that forgets a name, leaves what lasts. -/
theorem Lasts.changes {before first second : Registry} {operation : Operation}
    (lasts : before.Lasts first) (sound : first.Sound mayRefer) (admits : AdmitsNongeneric mayRefer)
    (change : operation.Changes mayRefer first second) : before.Lasts second := by
  rcases change.grows_or_forgets admits sound with grows | ⟨name, _, rfl⟩
  · exact ⟨fun found => grows.types (lasts.types found),
      fun listed => grows.functions (lasts.functions listed)⟩
  · exact ⟨lasts.types, lasts.functions⟩

theorem Reaches.lasts {before after : Registry} (reaches : Reaches GivenCall before after)
    (sound : before.Sound fun _ _ => True) : after.Sound (fun _ _ => True) ∧ before.Lasts after := by
  apply reaches.invariant sound admits_all Operation.respects_of_has
    ⟨fun found => found, fun listed => listed⟩
  intro _ _ _ _ _ soundFirst lasts change
  exact lasts.changes soundFirst admits_all change

/-- **The representation of types is sound after any sequence of calls.** Whatever calls
have been made on handles of the registry, succeeding or failing, types refer to earlier
types, names and texts lead to types of these names and texts, and the walks along
references end without their guards and meet no missing type. The handles that calls
give out are handles of types, and neither a type nor a text of a function type is bound
anew by any further call. -/
theorem Reaches.representation {built : Registry} (reaches : Reaches GivenCall initial built) :
    built.Represented ∧ built.Walks ∧
      (∀ {operation : Operation} {id : TypeId}, GivenCall built operation →
        operation.gives? built = some id → (operation.perform built).Has id) ∧
      ∀ {later : Registry}, Reaches GivenCall built later → built.Lasts later := by
  obtain ⟨sound, _⟩ := reaches.lasts sound_initial
  exact ⟨sound.represented, sound.walks, sound.has_gives, fun further => (further.lasts sound).2⟩

/-- A class is forgotten and its name is declared again, while a function type over the
class stays under its text. In between, a choice of types fails after it has made a
function type. -/
theorem representation_forgotten_class :
    ∃ built, Reaches GivenCall initial built ∧ built.Represented ∧ built.Walks ∧
      built.get? ⟨5⟩ = some (.function ⟨"Fn<number<A>>", [⟨4⟩], .number⟩) ∧
      built.functions.get? "Fn<number<A>>" = some ⟨5⟩ ∧ built.names.get? "A" = some ⟨7⟩ := by
  have given : ∀ {registry : Registry} {operation : Operation}, operation.handles = [] →
      GivenCall registry operation := by
    intro registry operation none id among
    simp [none] at among
  have declared : Reaches GivenCall initial _ :=
    .step (.declareClass "A" none ⟨1⟩) .refl (given rfl)
  have function := declared.step (.resolve "Fn<number<A>>") (given rfl)
  have failed := function.step (.declareUnion "B" ["Fn<A>", "missing"]) (given rfl)
  have forgotten := failed.step (.forget "A") (given rfl)
  have again := forgotten.step (.declareAlias "A" "number") (given rfl)
  obtain ⟨represented, walks, _⟩ := again.representation
  exact ⟨_, again, represented, walks, by decide +kernel, by decide +kernel, by decide +kernel⟩

/-! ## What texts denote later on -/

section Later

variable {before after final : Registry}

/-- A call on handles of the registry that removes no name. -/
structure LastingCall (registry : Registry) (operation : Operation) : Prop where
  given : GivenCall registry operation
  lasting : operation.IsLasting

theorem Reaches.grows_of_lasting (calls : Reaches LastingCall before after)
    (sound : before.Sound fun _ _ => True) :
    after.Sound (fun _ _ => True) ∧ Grows before after := by
  apply calls.invariant sound admits_all (fun call => Operation.respects_of_has call.given)
    (Grows.refl before)
  intro _ _ _ _ call soundFirst grows change
  exact grows.trans (change.grows admits_all soundFirst call.lasting)

/-- A name that no type was declared under has been declared since. -/
def TakenSince (before after : Registry) (name : String) : Prop :=
  before.lookup? name = none ∧ after.lookup? name ≠ none

/-- When a registry grows, a known text goes on denoting its type or has been taken as a
name since. Only a spelling of a function type can be taken, for no type was declared
under it. -/
theorem Grows.known?_or_taken (grows : Grows before after) (sound : before.Sound mayRefer)
    {text : String} (known : before.known? text = some id) :
    (¬ before.TakenSince after text ∧ after.known? text = some id) ∨
      (before.TakenSince after text ∧ ∃ signature : FunctionType,
        before.get? id = some (.function signature) ∧ signature.SpelledBy text) := by
  unfold known? at known
  split at known
  · rename_i declared listed
    obtain rfl := Option.some.inj known
    refine .inl ⟨fun taken => ?_, known?_of_names (grows.names listed)⟩
    rw [taken.1] at listed
    cases listed
  · rename_i unnamed
    cases later : after.lookup? text with
    | none =>
        refine .inl ⟨fun taken => taken.2 later, ?_⟩
        rw [known?, later]
        exact grows.functions known
    | some other => exact .inr ⟨⟨unnamed, by simp [later]⟩, sound.interned known⟩

/-- A type found under a declared name is no function type. -/
theorem Sound.not_function_of_lookup? (sound : registry.Sound mayRefer) {name : String}
    {signature : FunctionType} (listed : registry.lookup? name = some id) :
    registry.get? id ≠ some (.function signature) := by
  intro found
  obtain ⟨type, there, declared⟩ := sound.named listed
  obtain rfl := Option.some.inj (found.symm.trans there)
  cases declared

/-- **What a text denotes lasts until the text is taken as a name.** A text that has been
resolved is resolved after any further calls that forget no name, whether they succeed or
fail, and nothing is added for it. It leads to the same type exactly when the text has not
been declared as a name since. Where it has, the text led to a function type that it
spells, and it now leads to the declared type. -/
theorem Reaches.resolve_lasting (built : Reaches GivenCall initial registry) {text : String}
    (resolved : (resolve text).run.run registry = (.ok id, after))
    (calls : Reaches LastingCall after final) :
    ∃ now, (resolve text).run.run final = (.ok now, final) ∧
      (now = id ↔ ¬ after.TakenSince final (String.ofList (Text.trim text.toList))) ∧
      (after.TakenSince final (String.ofList (Text.trim text.toList)) →
        final.lookup? (String.ofList (Text.trim text.toList)) = some now ∧
          ∃ signature : FunctionType, after.get? id = some (.function signature) ∧
            signature.SpelledBy (String.ofList (Text.trim text.toList))) := by
  obtain ⟨sound, _⟩ := built.lasts sound_initial
  obtain ⟨soundAfter, _, denotes⟩ := resolve_sound admits_all text sound resolved
  obtain ⟨soundFinal, grows⟩ := calls.grows_of_lasting soundAfter
  have answer : ∀ {now : TypeId},
      final.known? (String.ofList (Text.trim text.toList)) = some now →
        (resolve text).run.run final = (.ok now, final) := by
    intro now known
    rw [resolve, run_resolveChars, known]
  rcases grows.known?_or_taken soundAfter (denotes id rfl) with
    ⟨untaken, known⟩ | ⟨taken, signature, found, spelled⟩
  · exact ⟨id, answer known, by simp [untaken], fun taken => absurd taken untaken⟩
  · obtain ⟨now, listed⟩ := Option.ne_none_iff_exists'.1 taken.2
    refine ⟨now, answer (known?_of_names listed), ?_, fun _ => ⟨listed, signature, found, spelled⟩⟩
    have apart : now ≠ id := by
      rintro rfl
      exact soundFinal.not_function_of_lookup? listed (grows.types found)
    exact ⟨fun same => absurd same apart, fun untaken => absurd taken untaken⟩

/-- A text over a class keeps its type when the name of the class is claimed again in
vain and another spelling of the text is taken as a name. -/
theorem resolve_lasting_other_spelling :
    ∃ built after final, Reaches GivenCall initial built ∧
      (resolve "Fn<A>").run.run built = (.ok ⟨5⟩, after) ∧ Reaches LastingCall after final ∧
      ¬ after.TakenSince final "Fn<A>" ∧ after.TakenSince final "Fn< A >" ∧
      (resolve "Fn<A>").run.run final = (.ok ⟨5⟩, final) := by
  have built : Reaches GivenCall initial _ :=
    .step (.declareClass "A" none ⟨1⟩) .refl (by simp [GivenCall, Operation.handles])
  obtain ⟨after, resolved, untaken, taken⟩ : ∃ after,
      (resolve "Fn<A>").run.run ((Operation.declareClass "A" none ⟨1⟩).perform initial) =
        (.ok ⟨5⟩, after) ∧
      ¬ after.TakenSince ((Operation.declareUnion "Fn< A >" ["A", "string"]).perform
        ((Operation.declareAlias "A" "string").perform after)) "Fn<A>" ∧
      after.TakenSince ((Operation.declareUnion "Fn< A >" ["A", "string"]).perform
        ((Operation.declareAlias "A" "string").perform after)) "Fn< A >" :=
    ⟨_, Prod.ext (by decide +kernel) rfl, by unfold TakenSince; decide +kernel,
      by unfold TakenSince; decide +kernel⟩
  have calls : Reaches LastingCall after _ :=
    (Reaches.refl.step (.declareAlias "A" "string")
      ⟨by simp [GivenCall, Operation.handles], trivial⟩).step
        (.declareUnion "Fn< A >" ["A", "string"]) ⟨by simp [GivenCall, Operation.handles], trivial⟩
  have trimmed : String.ofList (Text.trim "Fn<A>".toList) = "Fn<A>" := by decide
  obtain ⟨now, again, same, _⟩ := built.resolve_lasting resolved calls
  rw [trimmed] at same
  obtain rfl := same.2 untaken
  exact ⟨_, after, _, built, resolved, calls, untaken, taken, again⟩

/-- **A declaration can take over a text that is in use.** A name is free when no type has
been declared under it, and texts of function types are not asked. -/
theorem resolve_taken_text :
    ∃ after final, (resolve "Fn<number>").run.run initial = (.ok ⟨4⟩, after) ∧
      ((declareAlias "Fn<number>" "string").run.run after) = (.ok ⟨5⟩, final) ∧
      Reaches LastingCall after final ∧
      (resolve "Fn<number>").run.run final = (.ok ⟨5⟩, final) := by
  have calls : ∀ after : Registry, Reaches LastingCall after
      ((Operation.declareAlias "Fn<number>" "string").perform after) := fun after =>
    .step (.declareAlias "Fn<number>" "string") .refl
      ⟨by simp [GivenCall, Operation.handles], trivial⟩
  exact ⟨_, _, Prod.ext (by decide +kernel) rfl, Prod.ext (by decide +kernel) rfl, calls _,
    Prod.ext (by decide +kernel) (by decide +kernel)⟩

end Later

end TypedLisp.Registry
