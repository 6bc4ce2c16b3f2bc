import TypedLisp.Proofs.Declarations
import TypedLisp.Proofs.Operations
import TypedLisp.Proofs.Reachable
import TypedLisp.Proofs.Renaming

/-!
# Superclasses are classes

A registry takes any type as the superclass of a class. Checking does not: it asks for the
class of a name before it declares another class over it. So in every session that is
reached from a new one each superclass is a class, perhaps behind aliases
(`Session.Reachable.inheritsClasses`).

Checking changes the types of a session only by calls of the registry, and the calls that
declare a class do so over a class (`Session.Reachable.types_reached`). The rules say so
because it is a congruence: only the declarations of types and classes are looked at. What
such calls keep then holds of the types of every session.
-/

set_option autoImplicit false

namespace TypedLisp

namespace Registry

variable {registry before after : Registry} {id : TypeId} {type : Ty}

/-- Every superclass is a class, perhaps behind aliases. -/
def InheritsClasses (registry : Registry) : Prop :=
  ∀ (id : TypeId) (declared : ClassType) (parent : TypeId),
    registry.get? id = some (.nominal declared) → declared.superclass = some parent →
      (registry.class? parent).isSome = true

/-- A call that declares a class over a class, if it declares one over anything. -/
def InheritingCall (registry : Registry) : Operation → Prop
  | .declareClass _ superclass _ => ∀ parent ∈ superclass, (registry.class? parent).isSome = true
  | _ => True

/-! ## Adding types -/

/-- A class is found behind the same aliases when there are more types. -/
theorem class?_of_types {declared : ClassType}
    (types : ∀ {id : TypeId} {type : Ty}, before.get? id = some type → after.get? id = some type)
    (classed : before.class? id = some declared) : after.class? id = some declared := by
  have found := get?_of_class? classed
  have ends : after.unalias id = before.unalias id := by
    clear classed
    fun_induction unalias before id with
    | case1 id name parent isAlias smaller ih =>
        rw [unalias, types isAlias]
        exact (if_pos smaller).trans (ih found)
    | case2 id name parent isAlias _ =>
        rw [isAlias] at found
        cases found
    | case3 id _ => exact unalias_of_ne (types found) (by simp)
  rw [class?, ends, types found]

/-- A class may be declared over what is known to be a class. -/
theorem inheritingCall_of_class? {parent : TypeId}
    (classed : (registry.class? parent).isSome = true) (name : String) (scope : ScopeId) :
    (∀ id ∈ (Operation.declareClass name (some parent) scope).handles, registry.Has id) ∧
      InheritingCall registry (.declareClass name (some parent) scope) := by
  constructor
  · intro id among
    obtain rfl := List.mem_singleton.1 among
    apply Option.isSome_iff_exists.1
    by_contra missing
    rw [class?, unalias] at classed
    simp_all
  · rintro _ ⟨⟩
    exact classed

theorem InheritsClasses.of_types (inherits : before.InheritsClasses)
    (types : ∀ {id : TypeId} {type : Ty}, before.get? id = some type → after.get? id = some type)
    (added : ∀ {id : TypeId} {declared : ClassType} {parent : TypeId},
      after.get? id = some (.nominal declared) → declared.superclass = some parent →
        before.get? id = some (.nominal declared) ∨ (before.class? parent).isSome = true) :
    after.InheritsClasses := by
  intro id declared parent found superclass
  have classed : (before.class? parent).isSome = true := by
    rcases added found superclass with found | classed
    · exact inherits id declared parent found superclass
    · exact classed
  obtain ⟨content, there⟩ := Option.isSome_iff_exists.1 classed
  rw [class?_of_types types there]
  rfl

theorem InheritsClasses.add (inherits : registry.InheritsClasses) (type : Ty)
    (onClass : ∀ {declared : ClassType} {parent : TypeId}, type = .nominal declared →
      declared.superclass = some parent → (registry.class? parent).isSome = true) :
    (registry.add type).2.InheritsClasses := by
  refine inherits.of_types get?_add_of_get? fun found superclass => ?_
  rw [get?_add] at found
  split at found
  · exact .inr (onClass (Option.some.inj found) superclass)
  · exact .inl found

theorem InheritsClasses.declare (inherits : registry.InheritsClasses) (name : String) (type : Ty)
    (onClass : ∀ {declared : ClassType} {parent : TypeId}, type = .nominal declared →
      declared.superclass = some parent → (registry.class? parent).isSome = true) :
    (registry.declare name type).2.InheritsClasses :=
  (inherits.add type onClass).of_types (fun found => found) fun found _ => .inl found

theorem InheritsClasses.spell (inherits : registry.InheritsClasses) (text : String)
    (id : TypeId) : (registry.spell text id).InheritsClasses :=
  inherits.of_types (fun found => found) fun found _ => .inl found

theorem InheritsClasses.function (inherits : registry.InheritsClasses) (parameters : List TypeId)
    (result : TypeId) : (registry.function parameters result).2.InheritsClasses := by
  cases found : registry.functions.get? (registry.functionName parameters result) with
  | some id =>
      rw [function_of_get? found]
      exact inherits
  | none =>
      rw [function_of_get?_eq_none found]
      exact (inherits.add (.function ⟨_, parameters, result⟩) nofun).spell _ _

theorem resolve_inheritsClasses (text : String) : Preserves InheritsClasses (resolve text) :=
  .resolveChars (fun parameters result held => held.function parameters result)
    (fun text id held => held.spell text id) text.toList

/-- A declaration of no class claims its name, makes what it needs and declares the name. -/
theorem claim_inheritsClasses {α : Type} {make : RegistryM α}
    (made : Preserves InheritsClasses make) (name : String) (content : α → Ty)
    (other : ∀ value declared, content value ≠ .nominal declared) :
    Preserves InheritsClasses (do
      claim name
      let value ← make
      modifyGet fun registry => registry.declare name (content value)) := by
  refine .bind (fun registry held => ?_) fun _ => .bind made fun value registry held => ?_
  · rw [run_claim]
    split
    · exact held
    · exact held
  · exact held.declare name (content value) fun same => absurd same (other value _)

/-- **Calls that declare classes over classes keep every superclass a class.** -/
theorem InheritsClasses.perform (inherits : registry.InheritsClasses) {operation : Operation}
    (call : InheritingCall registry operation) : (operation.perform registry).InheritsClasses := by
  cases operation with
  | declareAlias name parent =>
      exact claim_inheritsClasses (resolve_inheritsClasses parent) name (.alias name ·) (by simp)
        registry inherits
  | declareUnion name members =>
      have made : Preserves InheritsClasses (members.mapM resolve) :=
        .mapM fun text _ => resolve_inheritsClasses text
      exact claim_inheritsClasses made name (.union name ·) (by simp) registry inherits
  | declareClass name superclass scope =>
      rw [Operation.perform, Checker.run_declareClass]
      split
      · exact inherits
      · refine inherits.declare name _ ?_
        rintro declared parent same superclass
        obtain rfl := Ty.nominal.inj same
        exact call parent superclass
  | addTemplate template => exact inherits.add (.generic template) nofun
  | function parameters result => exact inherits.function parameters result
  | resolve text => exact resolve_inheritsClasses text registry inherits
  | forget name => exact inherits.of_types (fun found => found) fun found _ => .inl found

theorem Reaches.inheritsClasses (reaches : Reaches InheritingCall before after)
    (inherits : before.InheritsClasses) : after.InheritsClasses := by
  induction reaches with
  | refl => exact inherits
  | step operation _ call ih => exact ih.perform call

theorem inheritsClasses_initial : initial.InheritsClasses := by
  intro id declared parent found _
  obtain ⟨kind, same⟩ := primitive_of_get?_initial found
  cases same

end Registry

/-! ## Checking by calls -/

namespace CheckM

variable {α β : Type} {session : Session}

/-- A step changes the types by calls alone, and declares classes only over classes. -/
def Calls (session : Session) (step : CheckM α) : Prop :=
  ∀ (outcome : Except Error α) (reached : Session),
    step.runOn session = some (outcome, reached) →
      Registry.Reaches Registry.InheritingCall session.types reached.types

namespace Calls

theorem of_runOn {step : CheckM α} {outcome : Except Error α} {reached : Session}
    (run : step.runOn session = some (outcome, reached))
    (reaches : Registry.Reaches Registry.InheritingCall session.types reached.types) :
    Calls session step := by
  intro ended other ran
  obtain ⟨_, rfl⟩ := Prod.mk.inj (Option.some.inj (run.symm.trans ran))
  exact reaches

/-- A step that performs one call. -/
theorem of_call {step : CheckM α} {outcome : Except Error α} {reached : Session}
    (operation : Registry.Operation) (run : step.runOn session = some (outcome, reached))
    (performed : reached.types = operation.perform session.types)
    (call : Registry.InheritingCall session.types operation) : Calls session step :=
  of_runOn run (performed ▸ .step operation .refl call)

theorem bind {step : CheckM α} {next : α → CheckM β} (first : Calls session step)
    (rest : ∀ value reached, Calls reached (next value)) : Calls session (step >>= next) := by
  intro outcome reached run
  rw [runOn_bind] at run
  obtain ⟨⟨ended, middle⟩, ran, followed⟩ := Option.bind_eq_some_iff.1 run
  have reaches := first ended middle ran
  cases ended with
  | ok value => exact reaches.trans (rest value middle outcome reached followed)
  | error error =>
      obtain ⟨_, rfl⟩ := Prod.mk.inj (Option.some.inj followed)
      exact reaches

theorem attempt {step : CheckM α} (calls : Calls session step) :
    Calls session (attempt step) := by
  intro outcome reached run
  rw [runOn_attempt] at run
  obtain ⟨⟨ended, middle⟩, ran, same⟩ := Option.map_eq_some_iff.1 run
  obtain ⟨_, rfl⟩ := Prod.mk.inj same
  exact calls ended middle ran

theorem congruence : Congruence fun session step _ => Calls session step where
  still change same := of_runOn (runOn_modifyGet change _) (same _ ▸ .refl)
  throw error := of_runOn (runOn_throw error _) .refl
  bind := bind
  attempt := attempt
  resolve expression text := of_call (.resolve text) (runOn_registering expression _ _) rfl trivial
  function parameters result :=
    of_call (.function parameters result) (runOn_modifyGet _ _) rfl trivial
  addTemplate template := of_call (.addTemplate template) (runOn_modifyGet _ _) rfl trivial

end Calls

end CheckM

namespace Checker

open CheckM

variable {visit : Expr → ScopeId → CheckM TypeId} {session : Session} {scope : ScopeId}

/-- Checking expressions changes the types by calls alone. -/
def CallingVisit (visit : Expr → ScopeId → CheckM TypeId) : Prop :=
  Congruence.Visits (fun session step _ => Calls session step) visit visit

theorem checkTypeDecl_calls (name : String) (base : TypeBase) (expression : Expr) :
    Calls session (checkTypeDecl name base expression) := by
  have registers : Calls session (registering expression (register name base)) := by
    cases base with
    | «alias» parent =>
        exact .of_call (.declareAlias name parent) (runOn_registering expression _ _) rfl trivial
    | union members =>
        exact .of_call (.declareUnion name members) (runOn_registering expression _ _) rfl trivial
  rw [checkTypeDecl_eq]
  refine registers.bind fun type reached => ?_
  exact (Calls.congruence.emit _).bind fun _ _ => Calls.congruence.pure _

/-- The superclass that the declaration of a class has asked for is a class. -/
theorem isClass_of_asked {superclass : Option String} {expression : Expr}
    {parent : Option TypeId}
    (asked : (superclass.mapM fun parent => ask expression (·.classNamed parent)).runOn session =
      some (.ok parent, session)) :
    ∀ id ∈ parent, (session.types.class? id).isSome = true := by
  cases superclass with
  | none =>
      obtain ⟨same, _⟩ := Prod.mk.inj (Option.some.inj asked)
      obtain rfl := Except.ok.inj same
      exact nofun
  | some name =>
      simp only [Option.mapM_some, map_eq_pure_bind, runOn_bind, runOn_ask, Option.bind_some]
        at asked
      cases answer : session.classNamed name with
      | error fault =>
          rw [answer] at asked
          cases asked
      | ok id =>
          rw [answer] at asked
          obtain ⟨same, _⟩ := Prod.mk.inj (Option.some.inj asked)
          obtain rfl := Except.ok.inj same
          intro other among
          obtain rfl := Option.some.inj among
          unfold Session.classNamed at answer
          split at answer
          · split at answer
            · obtain rfl := Except.ok.inj answer
              assumption
            · cases answer
          · cases answer

theorem bindClass_calls (calls : CallingVisit visit) (name : String) (body : Expr)
    (inner : ScopeId) (type : TypeId) :
    Calls session (bindClass visit name body scope inner type) := by
  intro outcome reached run
  rw [runOn_bindClass] at run
  obtain ⟨⟨ended, middle⟩, ran, same⟩ := Option.map_eq_some_iff.1 run
  have reaches := Calls.congruence.compatible.checkBody calls body inner ended middle ran
  cases ended with
  | ok _ =>
      obtain ⟨_, rfl⟩ := Prod.mk.inj same
      exact reaches
  | error _ =>
      obtain ⟨_, rfl⟩ := Prod.mk.inj same
      exact reaches.step (.forget name) trivial

theorem checkClassDecl_calls (calls : CallingVisit visit) (name : String)
    (superclass : Option String) (body expression : Expr) :
    Calls session (checkClassDecl visit name superclass body scope expression) := by
  cases classStart name superclass body scope expression session with
  | refused error unchanged runs =>
      refine .of_runOn (runs visit) ?_
      rcases unchanged with rfl | rfl
      · exact .refl
      · exact .refl
  | @opened parent asked free runs =>
      intro outcome reached run
      rw [runs] at run
      have call : Registry.Reaches Registry.InheritingCall session.types
          (session.withClass name parent scope).types := by
        have declares : Registry.Reaches Registry.InheritingCall session.types _ :=
          .step (.declareClass name parent (session.next scope)) .refl (isClass_of_asked asked)
        rwa [Registry.Operation.perform, run_declareClass, if_neg] at declares
        rw [NameTable.contains, free]
        simp
      exact call.trans (bindClass_calls calls name body _ _ outcome reached run)

theorem checkExpr_calls (calls : CallingVisit visit) : CallingVisit (checkExpr visit) := by
  have congruence := Calls.congruence
  intro expression scope session
  refine .bind (congruence.compatible.settle _) fun form reached => ?_
  refine .bind (congruence.emit _) fun _ reached => ?_
  refine congruence.checkForm calls ?_ ?_
  · rintro name base rfl
    exact checkTypeDecl_calls name base expression
  · rintro name superclass body rfl
    exact checkClassDecl_calls calls name superclass body expression

/-- **Checking changes the types by calls alone.** By induction on the depth. -/
theorem typeOf_calls (depth : Nat) : CallingVisit (typeOf depth) := by
  induction depth with
  | zero =>
      intro expression scope session outcome reached run
      cases run
  | succ depth ih => exact checkExpr_calls ih

end Checker

namespace Session

variable {session : Session}

/-- The types of a session are made by calls that declare classes only over classes. -/
theorem Reachable.types_reached (reachable : session.Reachable) :
    Registry.Reaches Registry.InheritingCall .initial session.types := by
  have program : ∀ {session reached : Session} {outcome : Except Error TypeId} {program : Expr},
      session.typeOfProgram program = some (outcome, reached) →
        Registry.Reaches Registry.InheritingCall session.types reached.types :=
    fun run => CheckM.Calls.congruence.compatible.checkBody (Checker.typeOf_calls _) _ _ _ _ run
  induction reachable with
  | initial builtins =>
      cases builtins with
      | false => exact .refl
      | true =>
          have sum : Registry.Reaches Registry.InheritingCall .initial _ :=
            .step (.function [.number, .number] .number) .refl trivial
          have square := sum.step (.function [.number] .number) trivial
          have concat := square.step (.function [.string, .string] .string) trivial
          exact concat.step (.function [.any] .string) trivial
  | checkSource source _ run ih =>
      unfold Session.checkSource at run
      split at run
      · exact ih.trans (program run)
      · obtain ⟨_, rfl⟩ := Prod.mk.inj (Option.some.inj run)
        exact ih
  | typeOfProgram _ _ run ih => exact ih.trans (program run)
  | typeOf expression _ _ run ih =>
      exact ih.trans (Checker.typeOf_calls _ expression _ _ _ _ run)

/-- **In a session, every superclass is a class.** -/
theorem Reachable.inheritsClasses (reachable : session.Reachable) :
    session.types.InheritsClasses :=
  reachable.types_reached.inheritsClasses Registry.inheritsClasses_initial

end Session

end TypedLisp
