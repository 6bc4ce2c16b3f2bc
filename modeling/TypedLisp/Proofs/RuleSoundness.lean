import TypedLisp.Checker.Basic
import TypedLisp.Proofs.Evolution
import TypedLisp.Proofs.Renaming

/-!
# Soundness of the rules of checking

Every rule lets a well-formed session evolve, whether it fails or not, provided
that the checking of smaller expressions does. Only names of the scope at hand can
change, and a block, a function body, a narrowed branch and the instantiation of a
generic function change no names at all.

The rules are compared on two ways of checking smaller expressions that agree on
well-formed sessions and the scopes of a territory (`Territory`), such as all scopes that
are there. That they agree as well says that a rule asks for smaller expressions only there.
-/

set_option autoImplicit false

namespace TypedLisp

/-! ## Answers are types that are there -/

namespace Session

variable {session : Session}

theorem WellFormed.isPlain_reference (wellFormed : session.WellFormed) {id reference : TypeId}
    {type : Ty} (found : session.types.get? id = some type) (among : reference ∈ type.references) :
    session.types.IsPlain reference :=
  (wellFormed.types.references found reference among).2

theorem WellFormed.isPlain_primitive (wellFormed : session.WellFormed) {id : TypeId}
    {kind : Primitive} (primitive : Registry.initial.get? id = some (.primitive kind)) :
    session.types.IsPlain id :=
  ⟨.primitive kind, wellFormed.types.primitives primitive, by simp [Ty.IsNongeneric]⟩

theorem WellFormed.isPlain_classNamed (wellFormed : session.WellFormed) {name : String}
    {id : TypeId} (answer : session.classNamed name = .ok id) : session.types.IsPlain id := by
  unfold classNamed Registry.lookup? at answer
  split at answer
  · rename_i found listed
    split at answer
    · obtain rfl := Except.ok.inj answer
      obtain ⟨type, there, declared⟩ := wellFormed.types.named listed
      refine ⟨type, there, ?_⟩
      rintro template rfl
      simp [Ty.declaredName?] at declared
    · cases answer
  · cases answer

theorem WellFormed.isPlain_superclassOf (wellFormed : session.WellFormed) {name : String}
    {id : TypeId} (answer : session.superclassOf name = .ok id) : session.types.IsPlain id := by
  unfold superclassOf at answer
  cases named : session.classNamed name with
  | error fault =>
      rw [named] at answer
      cases answer
  | ok declared =>
      rw [named] at answer
      dsimp only [bind, Except.bind] at answer
      split at answer
      · rename_i superclass inherits
        obtain rfl := Except.ok.inj answer
        obtain ⟨content, classed, inherited⟩ := Option.bind_eq_some_iff.1 inherits
        exact wellFormed.isPlain_reference (Registry.get?_of_class? classed)
          (by simp [Ty.references, inherited])
      · cases answer

theorem WellFormed.has_field (wellFormed : session.WellFormed) {object id : TypeId} {name : String}
    (answer : session.field object name = .ok id) : session.Has id := by
  unfold field at answer
  split at answer
  · cases answer
  · split at answer
    · rename_i found
      obtain rfl := Except.ok.inj answer
      obtain ⟨declared, _, bound⟩ := List.exists_of_findSome?_eq_some found
      exact wellFormed.has_of_getLocal? bound
    · cases answer

theorem WellFormed.has_lookup (wellFormed : session.WellFormed) {scope : ScopeId} {id : TypeId}
    {name : String} (answer : session.scopes.lookup scope name = .ok id) : session.Has id := by
  unfold Scopes.lookup at answer
  split at answer
  · rename_i found
    obtain rfl := Except.ok.inj answer
    obtain ⟨owner, _, bound⟩ := Option.bind_eq_some_iff.1 found
    exact wellFormed.has_of_getLocal? bound
  · cases answer

theorem WellFormed.isPlain_callResult (wellFormed : session.WellFormed) {callee id : TypeId}
    {arguments : List TypeId} {construct : String}
    (answer : session.types.callResult callee arguments construct = .ok id) :
    session.types.IsPlain id := by
  unfold Registry.callResult at answer
  split at answer
  · cases answer
  · rename_i signature found
    split at answer
    · split at answer
      · cases answer
      · obtain rfl := Except.ok.inj answer
        unfold Registry.function? at found
        split at found
        · rename_i there
          obtain rfl := Option.some.inj found
          exact wellFormed.isPlain_reference there (by simp [Ty.references])
        · cases found
    · cases answer

end Session

/-! ## Territories -/

/-- Scopes that checking does not leave. They are there; they stay among them when names of
such scopes change; and with one of them, every scope that is opened anywhere is among them. -/
class Territory (territory : Scopes → ScopeId → Prop) : Prop where
  isLive : ∀ {scopes : Scopes} {scope : ScopeId}, territory scopes scope →
    scopes.isLive scope = true
  keeps : ∀ {before after : Scopes} {scope : ScopeId} {writable : Set ScopeId},
    territory before scope → (∀ written ∈ writable, territory before written) →
      Scopes.Keeps writable before after → territory after scope
  push : ∀ {scopes : Scopes} {scope : ScopeId} (parent : ScopeId), scopes.WellFormed →
    territory scopes scope → territory (scopes.push parent).2 (scopes.push parent).1

/-- All scopes that are there. -/
instance : Territory fun scopes scope => scopes.isLive scope = true where
  isLive live := live
  keeps live _ keeps := keeps.isLive live
  push parent wellFormed _ :=
    Scopes.isLive_of_get? ((Scopes.get?_push wellFormed parent _).trans (if_pos rfl))

section

variable {territory : Scopes → ScopeId → Prop} [Territory territory] {before after : Session}
  {scope : ScopeId}

theorem Session.Evolves.stays (evolves : before.Evolves {scope} after)
    (inside : territory before.scopes scope) : territory after.scopes scope :=
  Territory.keeps inside (fun _ same => Set.mem_singleton_iff.1 same ▸ inside) evolves.scopes

theorem Session.Evolves.remains (evolves : before.Evolves ∅ after)
    (inside : territory before.scopes scope) : territory after.scopes scope :=
  Territory.keeps inside (fun _ none => none.elim) evolves.scopes

theorem Session.WellFormed.opens (wellFormed : before.WellFormed) (parent : ScopeId)
    (inside : territory before.scopes scope) :
    territory (before.opened parent).scopes (before.next parent) :=
  Territory.push parent wellFormed.scopes inside

end

namespace Checker

open CheckM

/-- Two ways of checking smaller expressions agree on well-formed sessions and the scopes of a
territory, let sessions evolve, and yield types that are there. -/
def SoundVisitIn (territory : Scopes → ScopeId → Prop)
    (visit other : Expr → ScopeId → CheckM TypeId) : Prop :=
  ∀ ⦃session : Session⦄ (expression : Expr) {scope : ScopeId}, session.WellFormed →
    territory session.scopes scope →
      Sound session session {scope} (visit expression scope) (other expression scope)
        fun id reached => reached.Has id

/-- Two ways of checking smaller expressions agree on well-formed sessions and live
scopes, let sessions evolve, and yield types that are there. -/
abbrev SoundVisit (visit other : Expr → ScopeId → CheckM TypeId) : Prop :=
  SoundVisitIn (fun scopes scope => scopes.isLive scope = true) visit other

variable {territory : Scopes → ScopeId → Prop} [Territory territory]
  {visit other : Expr → ScopeId → CheckM TypeId} {session : Session} {scope : ScopeId}

/-! ## Questions

A question changes nothing, and its answer is a type that is there. Only looking up
a name or a field can lead to a generic function. -/

theorem expect_sound (expression : Expr) (given expected : TypeId)
    (wellFormed : session.WellFormed) {writable : Set ScopeId} :
    Sound session session writable
      (ask expression fun session => session.types.expect given expected)
      (ask expression fun session => session.types.expect given expected) fun _ _ => True :=
  .ask wellFormed (.refl _ wellFormed) fun _ _ => trivial

theorem operand_sound (expression : Expr) (given : TypeId) (allowed : List TypeId)
    (wellFormed : session.WellFormed) {writable : Set ScopeId} :
    Sound session session writable
      (ask expression fun session => session.types.expectOperand given allowed)
      (ask expression fun session => session.types.expectOperand given allowed) fun _ _ => True :=
  .ask wellFormed (.refl _ wellFormed) fun _ _ => trivial

theorem classNamed_sound (name : String) (expression : Expr) (wellFormed : session.WellFormed)
    {writable : Set ScopeId} :
    Sound session session writable (ask expression (·.classNamed name))
      (ask expression (·.classNamed name)) fun id reached => reached.types.IsPlain id :=
  .ask wellFormed (.refl _ wellFormed) fun _ answer => wellFormed.isPlain_classNamed answer

theorem field_sound (object : TypeId) (name : String) (expression : Expr)
    (wellFormed : session.WellFormed) {writable : Set ScopeId} :
    Sound session session writable (ask expression (·.field object name))
      (ask expression (·.field object name)) fun id reached => reached.Has id :=
  .ask wellFormed (.refl _ wellFormed) fun _ answer => wellFormed.has_field answer

theorem lookup_sound (name : String) (expression : Expr) (wellFormed : session.WellFormed)
    {writable : Set ScopeId} :
    Sound session session writable (ask expression fun session => session.scopes.lookup scope name)
      (ask expression fun session => session.scopes.lookup scope name)
      fun id reached => reached.Has id :=
  .ask wellFormed (.refl _ wellFormed) fun _ answer => wellFormed.has_lookup answer

theorem callResult_sound (callee : TypeId) (arguments : List TypeId) (construct : String)
    (expression : Expr) (wellFormed : session.WellFormed) {writable : Set ScopeId} :
    Sound session session writable
      (ask expression fun session => session.types.callResult callee arguments construct)
      (ask expression fun session => session.types.callResult callee arguments construct)
      fun id reached => reached.types.IsPlain id :=
  .ask wellFormed (.refl _ wellFormed) fun _ answer => wellFormed.isPlain_callResult answer

/-! ## Sequences and bodies -/

theorem sequence_sound (sound : SoundVisitIn territory visit other) (items : List Expr)
    (wellFormed : session.WellFormed) (inside : territory session.scopes scope) :
    Sound session session {scope} (sequence visit items scope) (sequence other items scope)
      fun id reached => reached.Has id := by
  fun_induction sequence visit items scope generalizing session with
  | case1 => exact .throw (.refl _ wellFormed)
  | case2 => exact sound _ wellFormed inside
  | case3 item next items scope ih =>
      exact (sound item wellFormed inside).andThen fun evolves _ =>
        ih evolves.wellFormed (evolves.stays inside)

theorem checkBody_sound (sound : SoundVisitIn territory visit other) (body : Expr)
    (wellFormed : session.WellFormed) (inside : territory session.scopes scope) :
    Sound session session {scope} (checkBody visit body scope) (checkBody other body scope)
      fun id reached => reached.Has id := by
  unfold checkBody
  split
  · exact sequence_sound sound _ wellFormed inside
  · exact sound _ wellFormed inside

/-! ## Functions -/

theorem resolve_sound (expression : Expr) (text : String) (wellFormed : session.WellFormed) :
    Sound session session ∅ (registering expression (Registry.resolve text))
      (registering expression (Registry.resolve text))
      fun id reached => reached.types.IsPlain id := by
  obtain ⟨made, interns, denotes⟩ := Registry.resolve_resolves text wellFormed.types rfl
  refine .registering (.refl _ wellFormed) (wellFormed.evolves_interns made interns) ?_
  exact fun id answer => (denotes id answer).isPlain made

theorem parameterTypes_sound (parameters : List (String × String)) (expression : Expr)
    (wellFormed : session.WellFormed) :
    Sound session session ∅ (parameterTypes parameters expression)
      (parameterTypes parameters expression)
      fun typed reached => ∀ parameter ∈ typed, reached.types.IsPlain parameter.2 := by
  refine .mapM (fun evolves plain => evolves.isPlain plain) (.refl _ wellFormed) ?_
  intro parameter _ reached evolves
  refine ((resolve_sound expression parameter.2 evolves.wellFormed).andThen ?_).rebase evolves
    Set.Subset.rfl
  exact fun further plain => .pure further.wellFormed plain

theorem function_sound (parameters : List TypeId) (result : TypeId)
    (wellFormed : session.WellFormed)
    (plain : ∀ id ∈ result :: parameters, session.types.IsPlain id) :
    Sound session session ∅ (making (·.function parameters result))
      (making (·.function parameters result)) fun id reached => reached.types.IsPlain id := by
  obtain ⟨made, interns, listed, _⟩ := wellFormed.types.function plain
  refine .making (wellFormed.evolves_interns made interns) ?_
  obtain ⟨signature, found, _⟩ := made.interned listed
  exact ⟨_, found, by simp [Ty.IsNongeneric]⟩

theorem evolves_bindAll (parameters : List (String × TypeId)) (wellFormed : session.WellFormed)
    (has : ∀ parameter ∈ parameters, session.Has parameter.2) :
    session.Evolves {scope} { session with
      scopes := parameters.foldl (fun scopes (name, type) => scopes.define scope name type)
        session.scopes } := by
  induction parameters generalizing session with
  | nil => exact .refl _ wellFormed
  | cons parameter parameters ih =>
      have first := wellFormed.evolves_define scope parameter.1 (has _ List.mem_cons_self)
      exact first.trans (ih first.wellFormed fun other among =>
        first.has (has other (List.mem_cons_of_mem _ among)))

/-- A body is checked after the parameters have been bound in the same scope. -/
theorem boundBody_sound (sound : SoundVisitIn territory visit other)
    (parameters : List (String × TypeId)) (body : Expr) (wellFormed : session.WellFormed)
    (inside : territory session.scopes scope)
    (plain : ∀ parameter ∈ parameters, session.types.IsPlain parameter.2) :
    Sound session session {scope}
      (do modifyScopes fun scopes =>
            parameters.foldl (fun scopes (name, type) => scopes.define scope name type) scopes
          checkBody visit body scope)
      (do modifyScopes fun scopes =>
            parameters.foldl (fun scopes (name, type) => scopes.define scope name type) scopes
          checkBody other body scope) fun id reached => reached.Has id := by
  have bound : session.Evolves {scope} _ := evolves_bindAll parameters wellFormed
    fun parameter among => Session.has_of_isPlain (plain parameter among)
  exact (Sound.modifyScopes bound).andThen fun evolves _ =>
    checkBody_sound sound body evolves.wellFormed (evolves.stays inside)

/-- A body is checked in a scope of its own. -/
theorem functionBody_sound (sound : SoundVisitIn territory visit other)
    (parameters : List (String × TypeId)) (body : Expr) (wellFormed : session.WellFormed)
    (live : session.scopes.isLive scope = true)
    (inner : territory (session.opened scope).scopes (session.next scope))
    (plain : ∀ parameter ∈ parameters, session.types.IsPlain parameter.2) :
    Sound session session ∅
      (inChild scope fun inner => do
        modifyScopes fun scopes =>
          parameters.foldl (fun scopes (name, type) => scopes.define inner name type) scopes
        checkBody visit body inner)
      (inChild scope fun inner => do
        modifyScopes fun scopes =>
          parameters.foldl (fun scopes (name, type) => scopes.define inner name type) scopes
        checkBody other body inner) fun id reached => reached.Has id :=
  .inChild wellFormed live (boundBody_sound sound parameters body (wellFormed.opened live)
    inner plain) fun has => has

theorem checkFunction_sound (sound : SoundVisitIn territory visit other)
    (parameters : List (String × TypeId)) (result : TypeId) (body expression : Expr)
    (wellFormed : session.WellFormed)
    (live : session.scopes.isLive scope = true)
    (inner : territory (session.opened scope).scopes (session.next scope))
    (plain : ∀ parameter ∈ parameters, session.types.IsPlain parameter.2)
    (plainResult : session.types.IsPlain result) :
    Sound session session ∅ (checkFunction visit parameters result body scope expression)
      (checkFunction other parameters result body scope expression)
      fun id reached => reached.types.IsPlain id := by
  refine (functionBody_sound sound parameters body wellFormed live inner plain).andThen
    fun {actual middle} evolves _ => ?_
  refine (expect_sound expression actual result evolves.wellFormed).andThen fun further _ => ?_
  refine function_sound _ result further.wellFormed fun id among => ?_
  have all := evolves.trans further
  rcases List.mem_cons.1 among with rfl | among
  · exact all.isPlain plainResult
  · obtain ⟨parameter, listed, rfl⟩ := List.mem_map.1 among
    exact all.isPlain (plain parameter listed)

theorem signatureType_sound (signature : Signature) (expression : Expr)
    (wellFormed : session.WellFormed) :
    Sound session session ∅ (signatureType signature expression)
      (signatureType signature expression) fun id reached => reached.types.IsPlain id := by
  refine (parameterTypes_sound signature.parameters expression wellFormed).andThen
    fun {typed middle} evolves plain => ?_
  refine (resolve_sound expression signature.result evolves.wellFormed).andThen
    fun {result last} further plainResult => ?_
  refine function_sound _ result further.wellFormed fun id among => ?_
  rcases List.mem_cons.1 among with rfl | among
  · exact plainResult
  · obtain ⟨parameter, listed, rfl⟩ := List.mem_map.1 among
    exact further.isPlain (plain parameter listed)

theorem runOn_keepTemplate (signature : Signature) (scope : ScopeId) (session : Session) :
    (keepTemplate signature scope).runOn session = some (.ok ⟨session.types.types.size⟩,
      session.withTemplate ⟨signature.generics, signature.parameters, signature.result,
        signature.body, scope⟩) := rfl

theorem keepTemplate_sound (signature : Signature) (wellFormed : session.WellFormed)
    (live : session.scopes.isLive scope = true) :
    Sound session session ∅ (keepTemplate signature scope) (keepTemplate signature scope)
      fun id reached => reached.Has id := by
  refine .of_runOn (runOn_keepTemplate signature scope session) (fun id same => ⟨?_, ?_⟩)
    fun _ same => by cases same
  · exact wellFormed.evolves_withTemplate live
  · obtain rfl := Except.ok.inj same
    exact ⟨_, Session.get?_withTemplate session _⟩

theorem checkLambda_sound (sound : SoundVisitIn territory visit other) (signature : Signature)
    (expression : Expr) (wellFormed : session.WellFormed)
    (inside : territory session.scopes scope) :
    Sound session session ∅ (checkLambda visit signature scope expression)
      (checkLambda other signature scope expression) fun id reached => reached.Has id := by
  unfold checkLambda
  split
  · exact keepTemplate_sound signature wellFormed (Territory.isLive inside)
  · refine (parameterTypes_sound signature.parameters expression wellFormed).andThen
      fun {typed middle} evolves plain => ?_
    refine (resolve_sound expression signature.result evolves.wellFormed).andThen
      fun {result last} further plainResult => ?_
    have inside := further.remains (evolves.remains inside)
    refine (checkFunction_sound sound typed result signature.body expression further.wellFormed
      (Territory.isLive inside) (further.wellFormed.opens scope inside) ?_
      plainResult).mono Session.has_of_isPlain
    exact fun parameter listed => further.isPlain (plain parameter listed)

theorem instantiate_sound (sound : SoundVisitIn territory visit other) (generic : TypeId)
    (typeArguments : List String) (callee expression : Expr) (wellFormed : session.WellFormed)
    (inside : territory session.scopes scope) :
    Sound session session ∅ (instantiate visit generic typeArguments callee expression)
      (instantiate other generic typeArguments callee expression)
      fun id reached => reached.types.IsPlain id := by
  refine .get ?_
  split
  · exact .ask wellFormed (.refl _ wellFormed) fun _ answer => by cases answer
  · rename_i template found
    have live : session.scopes.isLive template.scope = true :=
      wellFormed.isLive_of_scope? (Registry.get?_of_template? found) rfl
    split
    · refine (parameterTypes_sound _ expression wellFormed).andThen
        fun {typed middle} evolves plain => ?_
      refine (resolve_sound expression _ evolves.wellFormed).andThen
        fun {result last} further plainResult => ?_
      refine (Sound.emit further.wellFormed).andThen fun {_ announced} emitted _ => ?_
      refine .get ?_
      split
      · exact .throw (.refl _ emitted.wellFormed)
      · refine .guarded ?_ fun plain => plain
        have entered := emitted.wellFormed.entered generic
        exact checkFunction_sound sound typed result template.body expression entered
          (emitted.isLive (further.isLive (evolves.isLive live)))
          (entered.opens template.scope
            (emitted.remains (further.remains (evolves.remains inside))))
          (fun parameter listed => emitted.isPlain (further.isPlain (plain parameter listed)))
          (emitted.isPlain plainResult)
    · exact .throw (.refl _ wellFormed)

/-! ## Declarations -/

theorem declares_sound {register : RegistryM TypeId} (expression : Expr)
    (wellFormed : session.WellFormed)
    (declares : Registry.Declares session.types (register.run.run session.types).2)
    (plain : ∀ id, (register.run.run session.types).1 = .ok id →
      (register.run.run session.types).2.IsPlain id) :
    Sound session session ∅ (registering expression register) (registering expression register)
      fun id reached => reached.types.IsPlain id := by
  exact .registering (.refl _ wellFormed) (wellFormed.evolves_declares declares) plain

/-- The step that declares a type on a base. -/
def register (name : String) : TypeBase → RegistryM TypeId
  | .alias parent => Registry.declareAlias name parent
  | .union members => Registry.declareUnion name members

theorem checkTypeDecl_eq (name : String) (base : TypeBase) (expression : Expr) :
    checkTypeDecl name base expression = (do
      let type ← registering expression (register name base)
      emit (.declaredType name)
      return type) := by
  cases base <;> rfl

theorem checkTypeDecl_sound (name : String) (base : TypeBase) (expression : Expr)
    (wellFormed : session.WellFormed) :
    Sound session session ∅ (checkTypeDecl name base expression)
      (checkTypeDecl name base expression) fun id reached => reached.types.IsPlain id := by
  have registered : Sound session session ∅ (registering expression (register name base))
      (registering expression (register name base))
      fun id reached => reached.types.IsPlain id := by
    cases base with
    | «alias» parent =>
        obtain ⟨declares, plain⟩ := Registry.declareAlias_declares name parent wellFormed.types rfl
        exact declares_sound expression wellFormed declares plain
    | union members =>
        obtain ⟨declares, plain⟩ := Registry.declareUnion_declares name members wellFormed.types rfl
        exact declares_sound expression wellFormed declares plain
  rw [checkTypeDecl_eq]
  refine registered.andThen fun evolves plain => ?_
  refine (Sound.emit evolves.wellFormed).andThen fun emitted _ => ?_
  exact .pure emitted.wellFormed (emitted.isPlain plain)

theorem run_declareClass (name : String) (superclass : Option TypeId) (inner : ScopeId)
    (types : Registry) :
    (Registry.declareClass name superclass inner).run.run types =
      if types.names.contains name then (.error (.redeclaration name), types)
      else (.ok (types.declare name (.nominal ⟨name, superclass, inner⟩)).1,
        (types.declare name (.nominal ⟨name, superclass, inner⟩)).2) := by
  rw [Registry.declareClass, Registry.run_bind, Registry.run_claim]
  by_cases taken : types.names.contains name = true
  · rw [if_pos taken, if_pos taken]
  · rw [if_neg taken, if_neg taken]
    rfl

/-- The start of the declaration of a class: its scope is opened and pinned, and its
name is declared. -/
def openClass {α : Type} (name : String) (superclass : Option TypeId) (scope : ScopeId)
    (expression : Expr) (next : ScopeId → TypeId → CheckM α) : CheckM α := do
  let inner ← openScope scope
  let type ← undoing (registering expression (Registry.declareClass name superclass inner))
    fun session => { session with scopes := session.scopes.release inner }
  modifyScopes (·.pin inner)
  next inner type

theorem runOn_openClass {α : Type} (name : String) (superclass : Option TypeId) (scope : ScopeId)
    (expression : Expr) (next : ScopeId → TypeId → CheckM α) (session : Session) :
    (openClass name superclass scope expression next).runOn session =
      if session.types.names.contains name then
        some (.error ((Fault.redeclaration name).inExpr expression),
          (session.opened scope).closed (session.next scope))
      else
        (next (session.next scope) ⟨session.types.types.size⟩).runOn
          (session.withClass name superclass scope) := by
  rw [openClass, runOn_bind, openScope, runOn_modifyGet]
  dsimp only [Option.bind_some]
  rw [runOn_bind, runOn_undoing, runOn_registering, run_declareClass]
  dsimp only
  by_cases taken : session.types.names.contains name = true
  · rw [if_pos taken, if_pos taken]
    rfl
  · rw [if_neg taken, if_neg taken]
    rfl

/-- The rest of the declaration of a class: its name is bound and its body is checked. -/
def bindClass (visit : Expr → ScopeId → CheckM TypeId) (name : String) (body : Expr)
    (scope inner : ScopeId) (type : TypeId) : CheckM TypeId := do
  let previous := (← get).scopes.getLocal? scope name
  modifyScopes (·.define scope name type)
  emit (.declaredClass name)
  let _ ← undoing (checkBody visit body inner) fun session =>
    { session with
      types := session.types.forget name
      scopes := session.scopes.restore scope name previous }
  return type

theorem runOn_bindClass (visit : Expr → ScopeId → CheckM TypeId) (name : String) (body : Expr)
    (scope inner : ScopeId) (type : TypeId) (session : Session) :
    (bindClass visit name body scope inner type).runOn session =
      ((checkBody visit body inner).runOn
        { session with
          scopes := session.scopes.define scope name type
          events := .declaredClass name :: session.events }).map fun (outcome, reached) =>
        match outcome with
        | .ok _ => (.ok type, reached)
        | .error error => (.error error,
            { reached with
              types := reached.types.forget name
              scopes := reached.scopes.restore scope name
                (session.scopes.getLocal? scope name) }) := by
  rw [bindClass, runOn_bind, runOn_get]
  dsimp only [Option.bind_some]
  rw [runOn_bind, modifyScopes, runOn_modify]
  dsimp only [Option.bind_some]
  rw [runOn_bind, emit, runOn_modify]
  dsimp only [Option.bind_some]
  rw [runOn_bind, runOn_undoing]
  cases (checkBody visit body inner).runOn _ with
  | none => rfl
  | some ended =>
      obtain ⟨outcome, reached⟩ := ended
      cases outcome <;> rfl

theorem checkClassDecl_eq (visit : Expr → ScopeId → CheckM TypeId) (name : String)
    (superclass : Option String) (body : Expr) (scope : ScopeId) (expression : Expr) :
    checkClassDecl visit name superclass body scope expression = (do
      let superclass ← superclass.mapM fun parent => ask expression (·.classNamed parent)
      openClass name superclass scope expression (bindClass visit name body scope)) := rfl

theorem runOn_superclass (superclass : Option String) (expression : Expr) (session : Session) :
    ∃ outcome, (superclass.mapM fun parent => ask expression (·.classNamed parent)).runOn session =
      some (outcome, session) := by
  cases superclass with
  | none => exact ⟨_, rfl⟩
  | some parent =>
      simp only [Option.mapM_some, map_eq_pure_bind]
      rw [runOn_bind, runOn_ask]
      dsimp only [Option.bind_some]
      cases (session.classNamed parent).mapError (·.inExpr expression) with
      | ok id => exact ⟨_, rfl⟩
      | error error => exact ⟨_, rfl⟩

/-- How the declaration of a class goes on in a session, whatever checks its body: it is
refused at once, or its name is free and is declared. -/
inductive ClassStart (name : String) (superclass : Option String) (body : Expr) (scope : ScopeId)
    (expression : Expr) (session : Session) : Prop where
  | refused (error : Error) {reached : Session}
      (unchanged : reached = session ∨
        reached = (session.opened scope).closed (session.next scope))
      (runs : ∀ visit, (checkClassDecl visit name superclass body scope expression).runOn session =
        some (.error error, reached))
  | opened {parent : Option TypeId}
      (asked : (superclass.mapM fun parent => ask expression (·.classNamed parent)).runOn session =
        some (.ok parent, session))
      (free : session.types.names.get? name = none)
      (runs : ∀ visit, (checkClassDecl visit name superclass body scope expression).runOn session =
        (bindClass visit name body scope (session.next scope) ⟨session.types.types.size⟩).runOn
          (session.withClass name parent scope))

theorem classStart (name : String) (superclass : Option String) (body : Expr) (scope : ScopeId)
    (expression : Expr) (session : Session) :
    ClassStart name superclass body scope expression session := by
  obtain ⟨outcome, asked⟩ := runOn_superclass superclass expression session
  cases outcome with
  | error error =>
      refine .refused error (.inl rfl) fun visit => ?_
      rw [checkClassDecl_eq, runOn_bind, asked]
      rfl
  | ok parent =>
      have starts : ∀ visit,
          (checkClassDecl visit name superclass body scope expression).runOn session =
            (openClass name parent scope expression (bindClass visit name body scope)).runOn
              session := by
        intro visit
        rw [checkClassDecl_eq, runOn_bind, asked]
        rfl
      by_cases taken : session.types.names.contains name = true
      · refine .refused ((Fault.redeclaration name).inExpr expression) (.inr rfl) fun visit => ?_
        rw [starts, runOn_openClass, if_pos taken]
      · refine .opened asked (Registry.get?_names_of_contains taken) fun visit => ?_
        rw [starts, runOn_openClass, if_neg taken]

theorem openClass_sound {α : Type} (expression : Expr) (name : String)
    {superclass : Option TypeId} (wellFormed : session.WellFormed)
    (live : session.scopes.isLive scope = true)
    (plain : ∀ id ∈ superclass, session.types.IsPlain id)
    {writable : Set ScopeId} {next otherNext : ScopeId → TypeId → CheckM α}
    {good : α → Session → Prop}
    (rest : ∀ {type : TypeId} {reached : Session}, session.Evolves ∅ reached →
      (session.opened scope).Evolves ∅ reached → reached.Has type →
        session.types.names.get? name = none →
          Sound session reached writable (next (session.next scope) type)
            (otherNext (session.next scope) type) good) :
    Sound session session writable (openClass name superclass scope expression next)
      (openClass name superclass scope expression otherNext) good := by
  have starts := runOn_openClass name superclass scope expression next session
  have otherStarts := runOn_openClass name superclass scope expression otherNext session
  by_cases taken : session.types.names.contains name = true
  · rw [if_pos taken] at starts otherStarts
    refine ⟨starts.trans otherStarts.symm, fun run => ?_, fun run => ?_⟩
    · cases starts.symm.trans run
    · obtain ⟨_, rfl⟩ := Prod.mk.inj (Option.some.inj (starts.symm.trans run))
      exact (Session.Evolves.closed wellFormed live (.refl _ (wellFormed.opened live))).mono
        (Set.empty_subset _)
  · rw [if_neg taken] at starts otherStarts
    have unclaimed := Registry.get?_names_of_contains taken
    have evolves := wellFormed.evolves_withClass live plain unclaimed
    exact (rest evolves (wellFormed.opened_evolves_withClass live plain unclaimed)
      ⟨_, Session.get?_withClass session name superclass scope⟩ unclaimed).moved
      (evolves.mono (Set.empty_subset _)) starts otherStarts

theorem superclass_sound (superclass : Option String) (expression : Expr)
    (wellFormed : session.WellFormed) {writable : Set ScopeId} :
    Sound session session writable
      (superclass.mapM fun parent => ask expression (·.classNamed parent))
      (superclass.mapM fun parent => ask expression (·.classNamed parent))
      fun superclass reached => ∀ id ∈ superclass, reached.types.IsPlain id := by
  cases superclass with
  | none => exact .pure wellFormed (by simp)
  | some parent =>
      simp only [Option.mapM_some, map_eq_pure_bind]
      refine (classNamed_sound parent expression wellFormed).andThen fun evolves plain => ?_
      refine .pure evolves.wellFormed ?_
      intro id same
      obtain rfl := Option.some.inj same
      exact plain

theorem checkClassDecl_sound (sound : SoundVisitIn territory visit other) (name : String)
    (superclass : Option String) (body expression : Expr) (wellFormed : session.WellFormed)
    (inside : territory session.scopes scope) :
    Sound session session {scope} (checkClassDecl visit name superclass body scope expression)
      (checkClassDecl other name superclass body scope expression)
      fun id reached => reached.Has id := by
  rw [checkClassDecl_eq, checkClassDecl_eq]
  refine (superclass_sound superclass expression wellFormed).andThen
    fun {superclass start} evolves plain => ?_
  -- The scope of the class is not there at the start, so it may be written to.
  refine Sound.drop (Scopes.get?_push_fst evolves.wellFormed.scopes scope) ?_
  have insideStart := evolves.stays inside
  refine openClass_sound expression name evolves.wellFormed (Territory.isLive insideStart) plain
    fun {type opened} opens declares hasType unclaimed => ?_
  have insideInner := declares.remains (evolves.wellFormed.opens scope insideStart)
  unfold bindClass
  have within : ({scope} : Set ScopeId) ⊆ insert (start.next scope) {scope} :=
    Set.subset_insert _ _
  have innerWithin : ({start.next scope} : Set ScopeId) ⊆ insert (start.next scope) {scope} :=
    Set.singleton_subset_iff.2 (Set.mem_insert _ _)
  refine .get ?_
  refine (Sound.modifyScopes ((opens.wellFormed.evolves_define scope name hasType).mono
    within)).bind fun {_ defined} defines _ => ?_
  refine (Sound.emit defines.wellFormed).bind fun {_ announced} emits _ => ?_
  have fromOpened := defines.trans emits
  have fromStart := (opens.mono (Set.empty_subset _)).trans fromOpened
  have insideWritten : ∀ written ∈ insert (start.next scope) ({scope} : Set ScopeId),
      territory opened.scopes written := by
    rintro written (rfl | rfl)
    · exact insideInner
    · exact opens.remains insideStart
  have body := ((checkBody_sound sound body emits.wellFormed
    (Territory.keeps insideInner insideWritten fromOpened.scopes)).rebase
      (.refl _ emits.wellFormed) innerWithin)
  refine (body.undoing fun {reached} further => ?_).bind fun ended _ =>
    .pure ended.wellFormed ((fromOpened.trans ended).has hasType)
  have had : ∀ old ∈ opened.scopes.getLocal? scope name, reached.Has old := fun old same =>
    (fromOpened.trans further).has (opens.wellFormed.has_of_getLocal? same)
  have restored := further.wellFormed.evolves_restore scope name had
  exact ((fromStart.trans further).trans (restored.mono within)).forget unclaimed

theorem variableType_sound (typeText : Option String) {actual : TypeId} (expression : Expr)
    (wellFormed : session.WellFormed) (has : session.Has actual) :
    Sound session session ∅ (variableType typeText actual expression)
      (variableType typeText actual expression) fun id reached => reached.Has id := by
  cases typeText with
  | none => exact .pure wellFormed has
  | some typeText =>
      refine (resolve_sound expression typeText wellFormed).andThen
        fun {declared middle} evolves plain => ?_
      refine (expect_sound expression actual declared evolves.wellFormed).andThen
        fun further _ => .pure further.wellFormed (further.has (Session.has_of_isPlain plain))

theorem define_sound (name : String) {type : TypeId} (wellFormed : session.WellFormed)
    (has : session.Has type) :
    Sound session session {scope} (modifyScopes (·.define scope name type))
      (modifyScopes (·.define scope name type)) fun _ _ => True :=
  .modifyScopes (wellFormed.evolves_define scope name has)

omit [Territory territory] in
theorem checkVariable_sound (sound : SoundVisitIn territory visit other) (target : Binding)
    (value expression : Expr) (wellFormed : session.WellFormed)
    (inside : territory session.scopes scope) :
    Sound session session {scope} (checkVariable visit target value scope expression)
      (checkVariable other target value scope expression) fun id reached => reached.Has id := by
  refine (sound value wellFormed inside).andThen fun {actual middle} evolves has => ?_
  refine (variableType_sound target.typeText expression evolves.wellFormed has).widen.andThen
    fun {type last} further hasType => ?_
  exact (define_sound target.name further.wellFormed hasType).andThen
    fun defines _ => .pure defines.wellFormed (defines.has hasType)

theorem announce_sound (name : String) (signature : Signature) (expression : Expr)
    (wellFormed : session.WellFormed) :
    Sound session session {scope} (announce name signature scope expression)
      (announce name signature scope expression) fun _ _ => True := by
  unfold announce
  split
  · exact .pure wellFormed trivial
  · exact (signatureType_sound signature expression wellFormed).widen.andThen
      fun evolves plain => define_sound name evolves.wellFormed (Session.has_of_isPlain plain)

theorem checkFunctionDecl_sound (sound : SoundVisitIn territory visit other) (name : String)
    (signature : Signature) (expression : Expr) (wellFormed : session.WellFormed)
    (inside : territory session.scopes scope) :
    Sound session session {scope} (checkFunctionDecl visit name signature scope expression)
      (checkFunctionDecl other name signature scope expression)
      fun id reached => reached.Has id := by
  refine .get ?_
  refine (announce_sound name signature expression wellFormed).bind
    fun {_ announced} evolves _ => ?_
  refine (sound _ evolves.wellFormed (evolves.stays inside)).undoing fun {reached} further => ?_
  have all := evolves.trans further
  exact all.trans (all.wellFormed.evolves_restore scope name fun old same =>
    all.has (wellFormed.has_of_getLocal? same))

/-! ## Operations -/

theorem checkArithmetic_sound (sound : SoundVisitIn territory visit other) (operator : Arithmetic)
    (left right expression : Expr) (wellFormed : session.WellFormed)
    (inside : territory session.scopes scope) :
    Sound session session {scope} (checkArithmetic visit operator left right scope expression)
      (checkArithmetic other operator left right scope expression)
      fun id reached => reached.Has id := by
  refine (sound left wellFormed inside).andThen fun {leftType _} first _ => ?_
  refine (sound right first.wellFormed (first.stays inside)).andThen
    fun {rightType _} second hasRight => ?_
  refine (operand_sound expression leftType _ second.wellFormed).andThen fun third _ => ?_
  refine (operand_sound expression rightType _ third.wellFormed).andThen fun fourth _ => ?_
  refine (expect_sound expression rightType leftType fourth.wellFormed).andThen fun last _ => ?_
  exact .pure last.wellFormed (last.has (fourth.has (third.has hasRight)))

theorem checkComparison_sound (sound : SoundVisitIn territory visit other)
    (left right expression : Expr) (wellFormed : session.WellFormed)
    (inside : territory session.scopes scope) :
    Sound session session {scope} (checkComparison visit left right scope expression)
      (checkComparison other left right scope expression) fun id reached => reached.Has id := by
  refine (sound left wellFormed inside).andThen fun {leftType _} first _ => ?_
  refine (sound right first.wellFormed (first.stays inside)).andThen
    fun {rightType _} second _ => ?_
  refine (expect_sound expression rightType leftType second.wellFormed).andThen fun last _ => ?_
  exact .pure last.wellFormed (Session.has_of_isPlain (last.wellFormed.isPlain_primitive rfl))

theorem arguments_sound (sound : SoundVisitIn territory visit other) (arguments : List Expr)
    (wellFormed : session.WellFormed) (inside : territory session.scopes scope) :
    Sound session session {scope} (arguments.mapM (visit · scope)) (arguments.mapM (other · scope))
      fun ids reached => ∀ id ∈ ids, reached.Has id := by
  refine .mapM (fun evolves has => evolves.has has) (.refl _ wellFormed) ?_
  intro argument _ reached evolves
  exact (sound argument evolves.wellFormed (evolves.stays inside)).rebase evolves Set.Subset.rfl

theorem checkConstruct_sound (sound : SoundVisitIn territory visit other) (className : String)
    (arguments : List Expr) (expression : Expr) (wellFormed : session.WellFormed)
    (inside : territory session.scopes scope) :
    Sound session session {scope} (checkConstruct visit className arguments scope expression)
      (checkConstruct other className arguments scope expression)
      fun id reached => reached.Has id := by
  refine (classNamed_sound className expression wellFormed).andThen
    fun {object _} first plain => ?_
  refine (arguments_sound sound arguments first.wellFormed (first.stays inside)).andThen
    fun {types _} second _ => ?_
  refine (field_sound object "constructor" expression second.wellFormed).andThen
    fun {constructor _} third _ => ?_
  refine (callResult_sound constructor (object :: types) "constructor" expression
    third.wellFormed).andThen fun last _ => ?_
  exact .pure last.wellFormed
    (Session.has_of_isPlain (last.isPlain (third.isPlain (second.isPlain plain))))

omit [Territory territory] in
theorem checkProperty_sound (sound : SoundVisitIn territory visit other) (object : Expr)
    (field : String) (expression : Expr) (wellFormed : session.WellFormed)
    (inside : territory session.scopes scope) :
    Sound session session {scope} (checkProperty visit object field scope expression)
      (checkProperty other object field scope expression) fun id reached => reached.Has id :=
  (sound object wellFormed inside).andThen fun {type _} evolves _ =>
    field_sound type field expression evolves.wellFormed

theorem checkAssign_sound (sound : SoundVisitIn territory visit other) (target : AssignTarget)
    (value expression : Expr) (wellFormed : session.WellFormed)
    (inside : territory session.scopes scope) :
    Sound session session {scope} (checkAssign visit target value scope expression)
      (checkAssign other target value scope expression) fun id reached => reached.Has id := by
  have targeted : Sound session session {scope} (targetType visit target scope expression)
      (targetType other target scope expression) fun id reached => reached.Has id := by
    cases target with
    | name name => exact lookup_sound name expression wellFormed
    | property object field =>
        exact checkProperty_sound sound object field expression wellFormed inside
  refine targeted.andThen fun {declared _} first hasDeclared => ?_
  refine (sound value first.wellFormed (first.stays inside)).andThen fun {actual _} second _ => ?_
  refine (expect_sound expression actual declared second.wellFormed).andThen fun last _ => ?_
  exact .pure last.wellFormed (last.has (second.has hasDeclared))

omit [Territory territory] in
theorem checkCondition_sound (sound : SoundVisitIn territory visit other) (condition : Expr)
    (wellFormed : session.WellFormed) (inside : territory session.scopes scope) :
    Sound session session {scope} (checkCondition visit condition scope)
      (checkCondition other condition scope) fun _ _ => True :=
  (sound condition wellFormed inside).andThen fun {type _} evolves _ =>
    expect_sound condition type .boolean evolves.wellFormed

/-- A branch is checked after the narrowed name has been bound in the same scope. -/
theorem narrowedBody_sound (sound : SoundVisitIn territory visit other) (narrowing : Narrowing)
    (consequent : Expr) {narrowed : TypeId} (wellFormed : session.WellFormed)
    (inside : territory session.scopes scope) (plain : session.types.IsPlain narrowed) :
    Sound session session {scope}
      (do modifyScopes (·.define scope narrowing.name narrowed)
          visit consequent scope)
      (do modifyScopes (·.define scope narrowing.name narrowed)
          other consequent scope) fun id reached => reached.Has id :=
  (define_sound narrowing.name wellFormed (Session.has_of_isPlain plain)).andThen
    fun defines _ => sound consequent defines.wellFormed (defines.stays inside)

/-- A narrowed branch is checked in a scope of its own. -/
theorem narrowed_sound (sound : SoundVisitIn territory visit other) (narrowing : Narrowing)
    (consequent expression : Expr) (wellFormed : session.WellFormed)
    (inside : territory session.scopes scope) :
    Sound session session ∅ (checkConsequent visit (some narrowing) consequent scope expression)
      (checkConsequent other (some narrowing) consequent scope expression)
      fun id reached => reached.Has id := by
  refine (resolve_sound expression narrowing.typeName wellFormed).andThen
    fun {narrowed middle} evolves plain => ?_
  have insideMiddle := evolves.remains inside
  have liveMiddle := Territory.isLive insideMiddle
  exact .inChild evolves.wellFormed liveMiddle (narrowedBody_sound sound narrowing consequent
    (evolves.wellFormed.opened liveMiddle) (evolves.wellFormed.opens scope insideMiddle) plain)
    fun has => has

theorem checkConsequent_sound (sound : SoundVisitIn territory visit other)
    (narrowing : Option Narrowing) (consequent expression : Expr) (wellFormed : session.WellFormed)
    (inside : territory session.scopes scope) :
    Sound session session {scope} (checkConsequent visit narrowing consequent scope expression)
      (checkConsequent other narrowing consequent scope expression)
      fun id reached => reached.Has id := by
  cases narrowing with
  | none => exact sound consequent wellFormed inside
  | some narrowing =>
      exact (narrowed_sound sound narrowing consequent expression wellFormed inside).widen

theorem checkBranch_sound (sound : SoundVisitIn territory visit other) (condition : Expr)
    (narrowing : Option Narrowing) (consequent alternative expression : Expr)
    (wellFormed : session.WellFormed) (inside : territory session.scopes scope) :
    Sound session session {scope}
      (checkBranch visit condition narrowing consequent alternative scope expression)
      (checkBranch other condition narrowing consequent alternative scope expression)
      fun id reached => reached.Has id := by
  refine (checkCondition_sound sound condition wellFormed inside).andThen fun first _ => ?_
  have inside := first.stays inside
  refine (checkConsequent_sound sound narrowing consequent expression first.wellFormed
    inside).andThen fun {type _} second hasType => ?_
  refine (sound alternative second.wellFormed (second.stays inside)).andThen
    fun {alternativeType _} third _ => ?_
  refine (expect_sound expression alternativeType type third.wellFormed).andThen fun last _ => ?_
  exact .pure last.wellFormed (last.has (third.has hasType))

theorem calledType_sound (sound : SoundVisitIn territory visit other) {calleeType : TypeId}
    (typeArguments : Option (List String)) (callee expression : Expr)
    (wellFormed : session.WellFormed) (inside : territory session.scopes scope)
    (has : session.Has calleeType) :
    Sound session session ∅ (calledType visit calleeType typeArguments callee expression)
      (calledType other calleeType typeArguments callee expression)
      fun id reached => reached.Has id := by
  cases typeArguments with
  | some typeArguments =>
      exact (instantiate_sound sound calleeType typeArguments callee expression wellFormed
        inside).mono Session.has_of_isPlain
  | none =>
      refine .ask wellFormed (.refl _ wellFormed) fun id answer => ?_
      split at answer
      · cases answer
      · obtain rfl := Except.ok.inj answer
        exact has

theorem checkCall_sound (sound : SoundVisitIn territory visit other) (callee : Expr)
    (typeArguments : Option (List String)) (arguments : List Expr) (expression : Expr)
    (wellFormed : session.WellFormed) (inside : territory session.scopes scope) :
    Sound session session {scope} (checkCall visit callee typeArguments arguments scope expression)
      (checkCall other callee typeArguments arguments scope expression)
      fun id reached => reached.Has id := by
  refine (sound callee wellFormed inside).andThen fun first hasCallee => ?_
  have inside := first.stays inside
  refine (calledType_sound sound typeArguments callee expression first.wellFormed inside
    hasCallee).widen.andThen fun second _ => ?_
  refine (arguments_sound sound arguments second.wellFormed (second.stays inside)).andThen
    fun last _ => ?_
  exact (callResult_sound _ _ _ expression last.wellFormed).mono Session.has_of_isPlain

/-! ## Forms -/

/-- A block is checked in a scope of its own. -/
theorem block_sound (sound : SoundVisitIn territory visit other) (items : List Expr)
    (wellFormed : session.WellFormed) (inside : territory session.scopes scope) :
    Sound session session ∅ (inChild scope fun inner => sequence visit items inner)
      (inChild scope fun inner => sequence other items inner) fun id reached => reached.Has id :=
  .inChild wellFormed (Territory.isLive inside)
    (sequence_sound sound items (wellFormed.opened (Territory.isLive inside))
      (wellFormed.opens scope inside)) fun has => has

theorem checkForm_sound (sound : SoundVisitIn territory visit other) (form : Form)
    (expression : Expr) (wellFormed : session.WellFormed)
    (inside : territory session.scopes scope) :
    Sound session session {scope} (checkForm visit form scope expression)
      (checkForm other form scope expression) fun id reached => reached.Has id := by
  cases form with
  | literal kind =>
      refine .pure wellFormed ?_
      cases kind <;> exact Session.has_of_isPlain (wellFormed.isPlain_primitive rfl)
  | arithmetic => exact checkArithmetic_sound sound _ _ _ expression wellFormed inside
  | comparison => exact checkComparison_sound sound _ _ expression wellFormed inside
  | typeDecl =>
      exact (checkTypeDecl_sound _ _ expression wellFormed).widen.mono Session.has_of_isPlain
  | classDecl => exact checkClassDecl_sound sound _ _ _ expression wellFormed inside
  | construct => exact checkConstruct_sound sound _ _ expression wellFormed inside
  | super =>
      exact .ask wellFormed (.refl _ wellFormed) fun _ answer =>
        Session.has_of_isPlain (wellFormed.isPlain_superclassOf answer)
  | property => exact checkProperty_sound sound _ _ expression wellFormed inside
  | varDecl => exact checkVariable_sound sound _ _ expression wellFormed inside
  | identifier => exact lookup_sound _ expression wellFormed
  | assign => exact checkAssign_sound sound _ _ expression wellFormed inside
  | block items => exact (block_sound sound items wellFormed inside).widen
  | branch => exact checkBranch_sound sound _ _ _ _ expression wellFormed inside
  | loop condition body =>
      exact (checkCondition_sound sound condition wellFormed inside).andThen fun evolves _ =>
        sound body evolves.wellFormed (evolves.stays inside)
  | functionDecl => exact checkFunctionDecl_sound sound _ _ expression wellFormed inside
  | lambda => exact (checkLambda_sound sound _ expression wellFormed inside).widen
  | typeOf inner =>
      exact (sound inner wellFormed inside).andThen fun evolves _ =>
        .pure evolves.wellFormed
          (Session.has_of_isPlain (evolves.wellFormed.isPlain_primitive rfl))
  | call => exact checkCall_sound sound _ _ _ expression wellFormed inside

theorem checkExpr_sound (sound : SoundVisitIn territory visit other) :
    SoundVisitIn territory (checkExpr visit) (checkExpr other) := by
  intro session expression scope wellFormed inside
  have classified : Sound session session {scope} (settle (Form.classify expression))
      (settle (Form.classify expression)) fun _ _ => True :=
    .settle wellFormed (.refl _ wellFormed) fun _ _ => trivial
  refine classified.andThen fun first _ => ?_
  refine (Sound.emit first.wellFormed).andThen fun second _ => ?_
  exact checkForm_sound sound _ expression second.wellFormed (second.stays (first.stays inside))

/-- **Checking lets sessions evolve.** By induction on the depth, the step being the
soundness of the rules. -/
theorem typeOf_sound (depth : Nat) : SoundVisit (typeOf depth) (typeOf depth) := by
  induction depth with
  | zero =>
      intro session expression scope _ _
      exact .exhausted
  | succ depth ih => exact checkExpr_sound ih

end Checker

end TypedLisp
