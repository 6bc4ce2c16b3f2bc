import TypedLisp.Proofs.Instantiation
import TypedLisp.Proofs.ScopeInvariant

/-!
# Instances of generic functions

While a generic function is instantiated it counts as being checked, and a call inside its
body that instantiates it again is refused. This is the one thing that an instance knows and
the function that is written out does not. So the two agree as long as no such call is made
(`Session.Reachable.instances_written_out`): they give one type or fail with one fault, and
they leave the same types, names and scopes behind. Only the places of faults and the events
differ.

That no such call is made is a property of a run, and a checker tells it: `Checker.avoiding`
checks like `Checker.typeOf` (`Checker.avoiding_refines`) but has no outcome where a call gets
as far as the body of the generic function. A call that is refused before that, for the
number of its type arguments or for a type that does not resolve, is refused in the same way
inside and outside, and is no obstacle.

The argument is a simulation. Two sessions that differ in whether the generic function is
being checked (`Session.Inside`) are kept so by every rule (`CheckM.Follows.compatible`), by
the instantiations of other generic functions (`Checker.instantiate_follows`), and hence by
every run that avoids the generic function (`Checker.avoiding_follows`).
-/

set_option autoImplicit false

namespace TypedLisp

/-! ## Checking without instantiating a generic function -/

namespace Checker

open CheckM

/-- Whether an instantiation gets as far as the body of the generic function: there is a type
argument for each generic name, and the types of the signature resolve. -/
def reachesBody (registry : Registry) (generic : TypeId) (typeArguments : List String) : Bool :=
  (registry.template? generic).any fun template =>
    typeArguments.length == template.generics.length &&
      ((resolveSignature (template.writtenOut typeArguments)).run.run registry).1.isOk

/-- Whether an expression is a call that instantiates a generic function, as checking its
callee finds out. -/
def instantiates (visit : Expr → ScopeId → CheckM TypeId) (generic : TypeId) (expression : Expr)
    (scope : ScopeId) (session : Session) : Bool :=
  match Form.classify expression with
  | .ok (.call callee (some typeArguments) _) =>
      match (visit callee scope).runOn
          { session with events := .visited expression :: session.events } with
      | some (.ok type, reached) =>
          type = generic && reachesBody reached.types generic typeArguments
      | _ => false
  | _ => false

/-- The checker that has no outcome where a call would instantiate the generic function. -/
def avoiding (generic : TypeId) : Nat → Expr → ScopeId → CheckM TypeId
  | 0, _, _ => exhausted
  | depth + 1, expression, scope => do
      if instantiates (avoiding generic depth) generic expression scope (← get) then exhausted
      else checkExpr (avoiding generic depth) expression scope

variable {generic : TypeId} {session : Session} {scope : ScopeId}

/-- What is called in a run that avoids a generic function is something else, or is refused
before its body. -/
theorem ne_of_reachesBody {visit : Expr → ScopeId → CheckM TypeId} {expression : Expr}
    (avoids : instantiates visit generic expression scope session = false) {callee : Expr}
    {typeArguments : List String} {arguments : List Expr}
    (called : Form.classify expression = .ok (.call callee (some typeArguments) arguments))
    {type : TypeId} {reached : Session}
    (run : (visit callee scope).runOn
      { session with events := .visited expression :: session.events } =
        some (.ok type, reached))
    (reaches : reachesBody reached.types type typeArguments = true) : type ≠ generic := by
  rintro rfl
  simp [instantiates, called, run, reaches] at avoids

theorem reachesBody_of_resolves {template : Template} {typeArguments : List String}
    (found : session.types.template? generic = some template)
    (arity : typeArguments.length = template.generics.length) {expression : Expr}
    {types : List (String × TypeId) × TypeId} {reached : Session}
    (run : (registering expression (resolveSignature (template.writtenOut typeArguments))).runOn
      session = some (.ok types, reached)) :
    reachesBody session.types generic typeArguments = true := by
  rw [runOn_registering] at run
  rw [reachesBody, found, Option.any_some, arity, beq_self_eq_true, Bool.true_and]
  cases resolved : ((resolveSignature (template.writtenOut typeArguments)).run.run
      session.types).1 with
  | ok types => rfl
  | error fault =>
      rw [resolved] at run
      cases (Prod.mk.inj (Option.some.inj run)).1

theorem runOn_avoiding_succ {depth : Nat} {expression : Expr}
    {ended : Except Error TypeId × Session}
    (run : (avoiding generic (depth + 1) expression scope).runOn session = some ended) :
    instantiates (avoiding generic depth) generic expression scope session = false ∧
      (checkExpr (avoiding generic depth) expression scope).runOn session = some ended := by
  rw [avoiding, runOn_bind, runOn_get, Option.bind_some] at run
  dsimp only at run
  split at run
  · cases run
  · rename_i avoids
    exact ⟨Bool.eq_false_iff.2 avoids, run⟩

theorem avoiding_refines (generic : TypeId) (depth : Nat) (expression : Expr) (scope : ScopeId) :
    Refines (avoiding generic depth expression scope) (typeOf depth expression scope) := by
  induction depth generalizing expression scope with
  | zero => exact .refl _
  | succ depth ih =>
      intro session ended run
      exact checkExpr_refines ih expression scope session ended (runOn_avoiding_succ run).2

end Checker

/-! ## Being inside a generic function or not -/

/-- The sessions have the same types and scopes, and the first one counts the generic
functions of the second one as being checked, and maybe one more. -/
structure Session.Inside (generic : TypeId) (inner outer : Session) : Prop where
  types : outer.types = inner.types
  scopes : outer.scopes = inner.scopes
  active : outer.active = inner.active.erase generic

namespace Session.Inside

variable {generic type : TypeId} {inner outer : Session}

theorem contains (inside : inner.Inside generic outer) (apart : type ≠ generic) :
    outer.active.contains type = inner.active.contains type := by
  simp only [inside.active, List.contains_eq_mem, List.mem_erase_of_ne apart]

theorem entered (inside : inner.Inside generic outer) (apart : type ≠ generic) :
    (inner.entered type).Inside generic (outer.entered type) where
  types := inside.types
  scopes := inside.scopes
  active := by
    change type :: outer.active = (type :: inner.active).erase generic
    rw [inside.active, List.erase_cons_tail (by simpa using apart)]

theorem left (inside : inner.Inside generic outer) (type : TypeId) :
    (inner.left type).Inside generic (outer.left type) where
  types := inside.types
  scopes := inside.scopes
  active := by
    change outer.active.erase type = (inner.active.erase type).erase generic
    rw [inside.active, List.erase_comm]

/-- When the generic function has been left, the sessions differ in their events only. -/
theorem eq_left (inside : inner.Inside generic outer) :
    outer = { inner.left generic with events := outer.events } := by
  obtain ⟨types, scopes, active, events⟩ := outer
  obtain ⟨rfl, rfl, rfl⟩ := inside
  rfl

end Session.Inside

namespace CheckM

/-- Wherever a step ends that is run inside a generic function, another step that is run
outside of it ends in the same way. -/
def Follows {α : Type} (generic : TypeId) (session : Session) (step other : CheckM α) : Prop :=
  ∀ outer, session.Inside generic outer → ∀ outcome reached,
    step.runOn session = some (outcome, reached) →
      ∃ after, other.runOn outer = some (outcome, after) ∧ reached.Inside generic after

namespace Follows

variable {α β : Type} {generic : TypeId} {session : Session}

/-- A step that depends on the types and the scopes only, and leaves alone which generic
functions are being checked. -/
theorem of_view {step : CheckM α}
    (ends : Registry → Scopes → Except Error α × Registry × Scopes)
    (runs : ∀ session : Session, ∃ events, step.runOn session =
      some ((ends session.types session.scopes).1,
        ⟨(ends session.types session.scopes).2.1, (ends session.types session.scopes).2.2,
          session.active, events⟩)) : Follows generic session step step := by
  intro outer inside outcome reached run
  obtain ⟨events, ran⟩ := runs session
  obtain ⟨outerEvents, outerRan⟩ := runs outer
  obtain ⟨rfl, rfl⟩ := Prod.mk.inj (Option.some.inj (ran.symm.trans run))
  rw [inside.types, inside.scopes] at outerRan
  exact ⟨_, outerRan, rfl, rfl, inside.active⟩

theorem bind_of_run {step other : CheckM α} {next otherNext : α → CheckM β}
    (first : Follows generic session step other)
    (rest : ∀ value reached, step.runOn session = some (.ok value, reached) →
      Follows generic reached (next value) (otherNext value)) :
    Follows generic session (step >>= next) (other >>= otherNext) := by
  intro outer inside outcome reached run
  rw [runOn_bind] at run
  obtain ⟨⟨ended, middle⟩, ran, followed⟩ := Option.bind_eq_some_iff.1 run
  obtain ⟨between, outerRan, insideBetween⟩ := first outer inside ended middle ran
  rw [runOn_bind, outerRan, Option.bind_some]
  cases ended with
  | ok value => exact rest value middle ran between insideBetween outcome reached followed
  | error error =>
      obtain ⟨rfl, rfl⟩ := Prod.mk.inj (Option.some.inj followed)
      exact ⟨between, rfl, insideBetween⟩

theorem attempt {step other : CheckM α} (follows : Follows generic session step other) :
    Follows generic session (attempt step) (attempt other) := by
  intro outer inside outcome reached run
  rw [runOn_attempt] at run
  obtain ⟨⟨ended, middle⟩, ran, same⟩ := Option.map_eq_some_iff.1 run
  obtain ⟨rfl, rfl⟩ := Prod.mk.inj same
  obtain ⟨after, outerRan, insideAfter⟩ := follows outer inside ended middle ran
  exact ⟨after, by rw [runOn_attempt, outerRan, Option.map_some], insideAfter⟩

theorem read (view : Registry → Scopes → α) {next otherNext : α → CheckM β}
    (rest : ∀ value reached, Follows generic reached (next value) (otherNext value)) :
    Follows generic session (get >>= fun session => next (view session.types session.scopes))
      (get >>= fun session => otherNext (view session.types session.scopes)) := by
  intro outer inside outcome reached run
  rw [runOn_bind, runOn_get, Option.bind_some] at run ⊢
  dsimp only at run ⊢
  rw [inside.types, inside.scopes]
  exact rest _ session outer inside outcome reached run

theorem registering (expression : Expr) (step : RegistryM α) :
    Follows generic session (registering expression step) (registering expression step) :=
  of_view (fun types scopes => ((step.run.run types).1.mapError (·.inExpr expression),
    (step.run.run types).2, scopes)) fun session => ⟨_, runOn_registering expression step session⟩

theorem making (step : Registry → TypeId × Registry) :
    Follows generic session (making step) (making step) :=
  of_view (fun types scopes => (.ok (step types).1, (step types).2, scopes))
    fun session => ⟨_, runOn_modifyGet _ session⟩

theorem compatible (generic : TypeId) :
    Compatible fun session step other => Follows generic session step other where
  pure value := of_view (fun types scopes => (.ok value, types, scopes)) fun _ => ⟨_, rfl⟩
  throw error := of_view (fun types scopes => (.error error, types, scopes)) fun _ => ⟨_, rfl⟩
  bind first rest := bind_of_run first fun value reached _ => rest value reached
  attempt := attempt
  read := read
  rescope change := of_view
    (fun types scopes => (.ok (change scopes).1, types, (change scopes).2)) fun _ => ⟨_, rfl⟩
  emit _ := of_view (fun types scopes => (.ok (), types, scopes)) fun _ => ⟨_, rfl⟩
  resolve expression _ := registering expression _
  function _ _ := making _
  addTemplate _ := making _

end Follows

end CheckM

/-! ## The rules -/

namespace Checker

open CheckM

variable {generic : TypeId} {session : Session} {scope : ScopeId}
  {visit other : Expr → ScopeId → CheckM TypeId}

/-- Checking inside a generic function is followed outside of it. -/
def FollowsVisit (generic : TypeId) (visit other : Expr → ScopeId → CheckM TypeId) : Prop :=
  Congruence.Visits (fun session step other => Follows generic session step other) visit other

theorem checkTypeDecl_follows (name : String) (base : TypeBase) (expression : Expr) :
    Follows generic session (checkTypeDecl name base expression)
      (checkTypeDecl name base expression) := by
  have compatible := Follows.compatible generic
  rw [checkTypeDecl_eq]
  refine compatible.bind (.registering expression _) fun type _ => ?_
  exact compatible.bind (compatible.emit _) fun _ _ => compatible.pure type

theorem checkClassDecl_follows (follows : FollowsVisit generic visit other) (name : String)
    (superclass : Option String) (body expression : Expr) :
    Follows generic session (checkClassDecl visit name superclass body scope expression)
      (checkClassDecl other name superclass body scope expression) := by
  refine (Follows.compatible generic).checkClassDecl follows
    (fun parent inner reached => .registering expression _) (fun previous reached => ?_)
    superclass body
  exact .of_view (fun types scopes =>
    (.ok ⟨⟩, types.forget name, scopes.restore scope name previous)) fun _ => ⟨_, rfl⟩

theorem checkInstance_follows (follows : FollowsVisit generic visit other) {type : TypeId}
    (apart : type ≠ generic) (template : Template) (parameters : List (String × TypeId))
    (result : TypeId) (callee expression : Expr) :
    Follows generic session
      (checkInstance visit type template parameters result callee expression)
      (checkInstance other type template parameters result callee expression) := by
  intro outer inside outcome reached run
  rw [runOn_checkInstance] at run ⊢
  rw [inside.contains apart]
  split at run
  · rename_i active
    obtain ⟨rfl, rfl⟩ := Prod.mk.inj (Option.some.inj run)
    exact ⟨outer, if_pos active, inside⟩
  · rename_i idle
    obtain ⟨⟨ended, middle⟩, ran, same⟩ := Option.map_eq_some_iff.1 run
    obtain ⟨rfl, rfl⟩ := Prod.mk.inj same
    obtain ⟨after, outerRan, insideAfter⟩ := (Follows.compatible generic).checkFunction follows
      parameters result template.body template.scope expression _ (inside.entered apart) ended
      middle ran
    refine ⟨after.left type, ?_, insideAfter.left type⟩
    rw [if_neg idle, outerRan, Option.map_some]

/-- Another generic function is instantiated in the same way inside and outside, and what is
refused before the body is refused in the same way. -/
theorem instantiate_follows (follows : FollowsVisit generic visit other) {type : TypeId}
    {typeArguments : List String}
    (avoids : reachesBody session.types type typeArguments = true → type ≠ generic)
    (callee expression : Expr) :
    Follows generic session (instantiate visit type typeArguments callee expression)
      (instantiate other type typeArguments callee expression) := by
  have compatible := Follows.compatible generic
  intro outer inside outcome reached run
  by_cases refused : ∀ template, session.types.template? type = some template →
      typeArguments.length ≠ template.generics.length
  · obtain ⟨error, fails⟩ := runOn_instantiate_of_refused refused callee expression
    obtain ⟨rfl, rfl⟩ := Prod.mk.inj (Option.some.inj ((fails visit session rfl).symm.trans run))
    exact ⟨outer, fails other outer inside.types, inside⟩
  · push Not at refused
    obtain ⟨template, found, arity⟩ := refused
    rw [runOn_instantiate found arity] at run
    rw [runOn_instantiate (by rw [inside.types, found]) arity]
    refine Follows.bind_of_run (Follows.registering expression _) (fun types resolved ran => ?_)
      outer inside outcome reached run
    refine compatible.bind (compatible.emit _) fun _ _ => ?_
    exact checkInstance_follows follows (avoids (reachesBody_of_resolves found arity ran)) _ _ _ _ _

theorem checkCall_follows (follows : FollowsVisit generic visit other) {callee : Expr}
    {typeArguments : List String}
    (avoids : ∀ type reached, (visit callee scope).runOn session = some (.ok type, reached) →
      reachesBody reached.types type typeArguments = true → type ≠ generic)
    (arguments : List Expr) (expression : Expr) :
    Follows generic session
      (checkCall visit callee (some typeArguments) arguments scope expression)
      (checkCall other callee (some typeArguments) arguments scope expression) := by
  have compatible := Follows.compatible generic
  refine (follows callee scope session).bind_of_run fun type reached run => ?_
  refine compatible.bind (instantiate_follows follows (avoids type reached run) _ _) fun _ _ => ?_
  refine compatible.bind (compatible.mapM fun _ _ => follows _ _ _) fun _ _ => ?_
  exact compatible.ask _ _ fun _ => rfl

/-- **Checking that avoids a generic function does not depend on whether it is being
checked.** By induction on the depth. -/
theorem avoiding_follows (generic : TypeId) (depth : Nat) :
    FollowsVisit generic (avoiding generic depth) (typeOf depth) := by
  induction depth with
  | zero =>
      intro expression scope session outer inside outcome reached run
      cases run
  | succ depth ih =>
      intro expression scope session outer inside outcome reached run
      obtain ⟨avoids, ran⟩ := runOn_avoiding_succ run
      cases classified : Form.classify expression with
      | error error =>
          rw [runOn_checkExpr_of_error classified] at ran
          obtain ⟨rfl, rfl⟩ := Prod.mk.inj (Option.some.inj ran)
          exact ⟨outer, runOn_checkExpr_of_error classified, inside⟩
      | ok form =>
          rw [runOn_checkExpr classified] at ran
          rw [typeOf, runOn_checkExpr classified]
          have follows : Follows generic
              { session with events := .visited expression :: session.events }
              (checkForm (avoiding generic depth) form scope expression)
              (checkForm (typeOf depth) form scope expression) := by
            refine (Follows.compatible generic).checkForm ih (fun _ => ?_) (fun _ => ?_)
              fun called => ?_
            · exact checkTypeDecl_follows _ _ _
            · exact checkClassDecl_follows ih _ _ _ _
            · -- Of all forms only this one asks what is being checked.
              subst called
              exact checkCall_follows ih (fun type reached run =>
                ne_of_reachesBody avoids classified run) _ _
          exact follows { outer with events := .visited expression :: outer.events }
            ⟨inside.types, inside.scopes, inside.active⟩ outcome reached ran

/-! ## Instances outside of their generic function -/

/-- The body of an instance whose checking avoids the generic function is checked in the same
way outside of it. -/
theorem checkInstance_outside {template : Template} {parameters : List (String × TypeId)}
    {result : TypeId} {callee expression : Expr} {depth : Nat} {outcome : Except Error TypeId}
    {reached : Session}
    (run : (checkInstance (avoiding generic depth) generic template parameters result callee
      expression).runOn session = some (outcome, reached))
    (idle : generic ∉ session.active) (events : List Event) (place : Expr) :
    ∃ written later,
      (checkFunction (typeOf depth) parameters result template.body template.scope place).runOn
        { session with events } = some (written, { reached with events := later }) ∧
      written.mapError Error.fault = outcome.mapError Error.fault := by
  rw [runOn_checkInstance, if_neg (by simpa using idle)] at run
  obtain ⟨⟨ended, middle⟩, ran, same⟩ := Option.map_eq_some_iff.1 run
  obtain ⟨rfl, rfl⟩ := Prod.mk.inj same
  have follows : Follows generic (session.entered generic)
      (checkFunction (avoiding generic depth) parameters result template.body template.scope
        expression)
      (checkFunction (typeOf depth) parameters result template.body template.scope expression) :=
    (Follows.compatible generic).checkFunction (avoiding_follows generic depth) _ _ _ _ _
  obtain ⟨after, outerRan, inside⟩ := follows { session with events }
    ⟨rfl, rfl, (List.erase_cons_head _ _).symm⟩ ended middle ran
  obtain ⟨written, placed, sameFault⟩ := checkFunction_place _ _ _ _ _ _ place outerRan
  rw [inside.eq_left] at placed
  exact ⟨written, after.events, placed, sameFault⟩

/-- **An instance is checked like the function that is written out,** if checking it avoids
the generic function. -/
theorem instance_writtenOut {template : Template} {typeArguments : List String}
    (found : session.types.template? generic = some template)
    (arity : typeArguments.length = template.generics.length)
    (idle : generic ∉ session.active) {callee expression : Expr} {depth : Nat}
    {outcome : Except Error TypeId} {reached : Session}
    (run : (instantiate (avoiding generic depth) generic typeArguments callee expression).runOn
      session = some (outcome, reached)) :
    ∃ written events,
      (typeOf (depth + 1) (template.writtenOut typeArguments).toLambda template.scope).runOn
        session = some (written, { reached with events }) ∧
      written.mapError Error.fault = outcome.mapError Error.fault := by
  rw [runOn_instantiate found arity, runOn_bind, runOn_registering, Option.bind_some] at run
  rw [typeOf, runOn_checkExpr (Form.classify_toLambda rfl), checkForm, checkLambda_eq rfl,
    runOn_bind, runOn_registering, Option.bind_some]
  dsimp only at run ⊢
  generalize (resolveSignature (template.writtenOut typeArguments)).run.run session.types =
    resolved at run ⊢
  obtain ⟨resolution, types⟩ := resolved
  cases resolution with
  | error fault =>
      obtain ⟨rfl, rfl⟩ := Prod.mk.inj (Option.some.inj run)
      exact ⟨_, _, rfl, rfl⟩
  | ok signature =>
      change (checkInstance (avoiding generic depth) generic template signature.1 signature.2 callee
        expression).runOn { session with
          types
          events := .instantiated template.generics typeArguments :: session.events } = _ at run
      exact checkInstance_outside run idle _ _

end Checker

namespace Session

open Checker

variable {session : Session}

/-- A generic function with type arguments for its generic names gives the type of the
function that is written out, or fails with the same fault, and leaves the same types and
scopes. This is so where the generic function is not being checked and checking its body does
not instantiate it again. -/
def WritesOutInstances (session : Session) : Prop :=
  ∀ {generic : TypeId} {template : Template} (typeArguments : List String)
    (callee expression : Expr),
    session.types.template? generic = some template →
    typeArguments.length = template.generics.length →
    generic ∉ session.active →
    (∃ depth, ((instantiate (avoiding generic depth) generic typeArguments callee
      expression).runOn session).isSome = true) →
    ∃ outcome reached written events,
      (∃ bound, ∀ depth, bound ≤ depth →
        (instantiate (Checker.typeOf depth) generic typeArguments callee expression).runOn
          session = some (outcome, reached)) ∧
      session.typeOf (template.writtenOut typeArguments).toLambda template.scope =
        some (written, { reached with events }) ∧
      written.mapError Error.fault = outcome.mapError Error.fault

theorem WellFormed.writesOutInstances (wellFormed : session.WellFormed) :
    session.WritesOutInstances := by
  intro generic template typeArguments callee expression found arity idle ⟨depth, ends⟩
  obtain ⟨⟨outcome, reached⟩, run⟩ := Option.isSome_iff_exists.1 ends
  obtain ⟨written, events, ran, sameFault⟩ := instance_writtenOut found arity idle run
  refine ⟨outcome, reached, written, events, ⟨depth, fun deeper le => ?_⟩, ?_, sameFault⟩
  · -- What the checker that avoids the generic function finds is found within every depth.
    have refines := fun expression scope => (avoiding_refines generic depth expression scope).trans
      (typeOf_refines_of_le le expression scope)
    exact instantiate_refines refines generic typeArguments callee expression session _ run
  · have live := wellFormed.isLive_of_scope? (Registry.get?_of_template? found) rfl
    obtain ⟨ended, after, ends⟩ := wellFormed.typeOf_ends
      (template.writtenOut typeArguments).toLambda live
    rw [ends, outcome_unique ends ran]

/-- **An instance of a generic function is the function with its type arguments written
out.** In every reachable session this holds of every generic function, of all type
arguments for its generic names, and of the types, the declared names and the scopes that
the session is left with. It holds at every call inside a run as well, where generic
functions are being checked: the checker that stops at a call where it fails ends in the
same way. -/
theorem Reachable.instances_written_out (reachable : session.Reachable) :
    session.WritesOutInstances ∧
      ∀ (expression : Expr) {scope : ScopeId}, session.scopes.isLive scope = true →
        ∃ ended, session.typeOf expression scope = some ended ∧
          (watched (fun session _ => session.WritesOutInstances) (session.depthBound expression)
            expression scope).runOn session = some ended := by
  have wellFormed := reachable.wellFormed
  refine ⟨wellFormed.writesOutInstances, fun expression scope live => ?_⟩
  obtain ⟨outcome, reached, run, watched⟩ := wellFormed.watched_ends
    (fun session _ => session.WritesOutInstances)
    (fun wellFormed _ => wellFormed.writesOutInstances) expression live
  exact ⟨(outcome, reached), run, watched⟩

/-- A generic function whose body instantiates another one. -/
theorem instances_written_out_nested :
    ∃ outcome session template, (initial true).checkSource
        "(def id <K> ((x K)) -> K x) (def pick <K> ((x K)) -> K (begin (id <number> 1) x))" =
          some (outcome, session) ∧
      session.Reachable ∧ session.types.template? ⟨9⟩ = some template ∧
      template.generics = ["K"] ∧ (⟨9⟩ : TypeId) ∉ session.active ∧
      (template.writtenOut ["string"]).toLambda.text =
        "(lambda ((x string)) -> string (begin (id <number> 1) x))" ∧
      ∃ instantiated reached written events,
        (∃ bound, ∀ depth, bound ≤ depth →
          (instantiate (Checker.typeOf depth) ⟨9⟩ ["string"] (.symbol "pick")
            (.symbol "pick")).runOn session = some (instantiated, reached)) ∧
        session.typeOf (template.writtenOut ["string"]).toLambda template.scope =
          some (written, { reached with events }) ∧
        written.mapError Error.fault = instantiated.mapError Error.fault := by
  have checked : (((initial true).checkSource
      "(def id <K> ((x K)) -> K x) (def pick <K> ((x K)) -> K (begin (id <number> 1) x))").any
        fun ended => (ended.2.types.template? ⟨9⟩).any fun template =>
          template.generics == ["K"] && !ended.2.active.contains ⟨9⟩ &&
          (template.writtenOut ["string"]).toLambda.text ==
            "(lambda ((x string)) -> string (begin (id <number> 1) x))" &&
          ((instantiate (avoiding ⟨9⟩ 8) ⟨9⟩ ["string"] (.symbol "pick") (.symbol "pick")).runOn
            ended.2).isSome) = true := by
    decide +kernel
  obtain ⟨⟨outcome, session⟩, run, checked⟩ := (Option.any_eq_true _ _).1 checked
  obtain ⟨template, found, checked⟩ := (Option.any_eq_true _ _).1 checked
  simp only [Bool.and_eq_true, beq_iff_eq, Bool.not_eq_true'] at checked
  obtain ⟨⟨⟨generics, idle⟩, text⟩, ends⟩ := checked
  have idle : (⟨9⟩ : TypeId) ∉ session.active := by simpa using idle
  have reachable := Reachable.checkSource _ (.initial true) run
  exact ⟨outcome, session, template, run, reachable, found, generics, idle, text,
    reachable.instances_written_out.1 _ _ _ found (by rw [generics]; rfl) idle ⟨8, ends⟩⟩

end Session

end TypedLisp
