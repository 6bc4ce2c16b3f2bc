import TypedLisp.Proofs.Declarations
import TypedLisp.Proofs.FunctionForms

/-!
# What an instantiation does

To instantiate a generic function is to write the type arguments in the places of its
generic names (`Template.writtenOut`), to resolve the types of the signature that comes out,
and to check the body with these types (`Checker.runOn_instantiate`). To check the function
that is written out, as an expression of its own, is to do the same
(`Checker.checkLambda_eq`), with two differences. The instantiation counts the generic
function as being checked meanwhile, and refuses to enter it a second time. And the faults
that are its own are placed at the expression of the call, not at that of the function
(`Checker.checkFunction_place`).

The types are resolved in one go here: making types for an expression is a homomorphism from
steps on registries to steps of checking (`CheckM.registering_bind`).
-/

set_option autoImplicit false

namespace TypedLisp

/-- The signature of a generic function with type arguments in the places of its generic
names. The body stays as it is. -/
def Template.writtenOut (template : Template) (typeArguments : List String) : Signature where
  generics := []
  parameters := template.parameters.map fun (name, text) =>
    (name, TypeText.substitute template.generics typeArguments text)
  result := TypeText.substitute template.generics typeArguments template.result
  body := template.body

/-! ## Making types for an expression -/

namespace CheckM

variable {α β : Type}

theorem ext {step other : CheckM α} (same : ∀ session, step.runOn session = other.runOn session) :
    step = other :=
  funext same

theorem registering_pure (expression : Expr) (value : α) :
    registering expression (pure value) = pure value :=
  ext fun session => runOn_registering expression (pure value) session

theorem registering_bind (expression : Expr) (step : RegistryM α) (next : α → RegistryM β) :
    registering expression (step >>= next) =
      registering expression step >>= fun value => registering expression (next value) := by
  refine ext fun session => ?_
  rw [runOn_bind, runOn_registering, runOn_registering, Registry.run_bind, Option.bind_some]
  generalize step.run.run session.types = ended
  obtain ⟨outcome, types⟩ := ended
  cases outcome with
  | ok value => exact (runOn_registering expression (next value) { session with types }).symm
  | error fault => rfl

theorem registering_mapM (expression : Expr) (step : α → RegistryM β) (items : List α) :
    registering expression (items.mapM step) =
      items.mapM fun item => registering expression (step item) := by
  induction items with
  | nil => exact registering_pure expression []
  | cons item items ih =>
      simp only [List.mapM_cons, registering_bind, registering_pure, ih]

end CheckM

namespace Checker

open CheckM

variable {generic : TypeId} {session : Session}

/-- The types that a signature names. -/
def resolveSignature (signature : Signature) : RegistryM (List (String × TypeId) × TypeId) := do
  let parameters ← signature.parameters.mapM fun parameter => do
    return (parameter.1, ← Registry.resolve parameter.2)
  return (parameters, ← Registry.resolve signature.result)

section Denotation

variable {mayRefer : Ty → Ty → Prop} {registry reached : Registry}

/-- A parameter is typed as its text says. -/
def Typed (registry : Registry) (parameter : String × String) (typed : String × TypeId) : Prop :=
  typed.1 = parameter.1 ∧ registry.Denotes parameter.2.toList typed.2

theorem resolveParameter_typed (admits : Registry.AdmitsNongeneric mayRefer)
    (sound : registry.Sound mayRefer) (parameter : String × String)
    {outcome : Except Fault (String × TypeId)}
    (run : (do return (parameter.1, ← Registry.resolve parameter.2) :
      RegistryM (String × TypeId)).run.run registry = (outcome, reached)) :
    reached.Sound mayRefer ∧ Registry.Interns registry reached ∧
      ∀ typed, outcome = .ok typed → Typed reached parameter typed := by
  rw [Registry.run_bind] at run
  cases resolved : (Registry.resolve parameter.2).run.run registry with
  | mk ended middle =>
      obtain ⟨made, interns, denotes⟩ := Registry.resolve_sound admits parameter.2 sound resolved
      rw [resolved] at run
      cases ended with
      | ok id =>
          obtain ⟨rfl, rfl⟩ := Prod.mk.inj run
          refine ⟨made, interns, fun typed same => ?_⟩
          obtain rfl := Except.ok.inj same
          exact ⟨rfl, denotes id rfl⟩
      | error fault =>
          obtain ⟨rfl, rfl⟩ := Prod.mk.inj run
          exact ⟨made, interns, fun typed same => nomatch same⟩

/-- The types of a signature are those that its texts stand for from then on. -/
theorem resolveSignature_denotes (admits : Registry.AdmitsNongeneric mayRefer)
    (sound : registry.Sound mayRefer) {signature : Signature}
    {types : List (String × TypeId) × TypeId}
    (run : (resolveSignature signature).run.run registry = (.ok types, reached)) :
    reached.Sound mayRefer ∧ Registry.Interns registry reached ∧
      List.Forall₂ (Typed reached) signature.parameters types.1 ∧
      reached.Denotes signature.result.toList types.2 := by
  rw [resolveSignature, Registry.run_bind] at run
  split at run
  · rename_i parameters middle first
    obtain ⟨soundMiddle, internsMiddle, each⟩ := Registry.run_mapM (·.Sound mayRefer)
      Registry.Interns (fun parameter typed registry => Typed registry parameter typed)
      Registry.Interns.refl Registry.Interns.trans
      (fun interns good => ⟨good.1, interns.denotes good.2⟩)
      (fun parameter _ {_ _ _} sound run => resolveParameter_typed admits sound parameter run)
      sound first
    rw [Registry.run_bind] at run
    split at run
    · rename_i result last second
      obtain ⟨soundLast, internsLast, denotes⟩ :=
        Registry.resolve_sound admits signature.result soundMiddle second
      obtain ⟨same, rfl⟩ := Prod.mk.inj run
      obtain rfl := Except.ok.inj same
      exact ⟨soundLast, internsMiddle.trans internsLast,
        (each parameters rfl).imp fun _ _ good => ⟨good.1, internsLast.denotes good.2⟩,
        denotes result rfl⟩
    · cases run
  · cases run

/-- Types that the texts of a signature stand for are found again, and nothing changes. -/
theorem resolveSignature_of_denotes {signature : Signature}
    {types : List (String × TypeId) × TypeId}
    (each : List.Forall₂ (Typed registry) signature.parameters types.1)
    (last : registry.Denotes signature.result.toList types.2) :
    (resolveSignature signature).run.run registry = (.ok types, registry) := by
  have known : ∀ {text : String} {id : TypeId}, registry.Denotes text.toList id →
      (Registry.resolve text).run.run registry = (.ok id, registry) := by
    intro text id denotes
    rw [Registry.resolve, Registry.run_resolveChars, denotes]
  have parameters : (signature.parameters.mapM fun parameter => do
      return (parameter.1, ← Registry.resolve parameter.2) :
        RegistryM (List (String × TypeId))).run.run registry = (.ok types.1, registry) := by
    refine Registry.run_mapM_of_forall₂ (each.imp fun parameter typed good => ?_)
    rw [Registry.run_bind, known good.2, ← good.1]
    rfl
  rw [resolveSignature, Registry.run_bind, parameters]
  dsimp only
  rw [Registry.run_bind, known last]
  rfl

end Denotation

theorem resolving_eq {α : Type} (signature : Signature) (expression : Expr)
    (next : List (String × TypeId) → TypeId → CheckM α) :
    (do let parameters ← parameterTypes signature.parameters expression
        let result ← registering expression (Registry.resolve signature.result)
        next parameters result) =
      registering expression (resolveSignature signature) >>= fun types =>
        next types.1 types.2 := by
  have parameters : parameterTypes signature.parameters expression =
      registering expression (signature.parameters.mapM fun parameter => do
        return (parameter.1, ← Registry.resolve parameter.2)) := by
    simp only [registering_mapM, registering_bind, registering_pure]
    rfl
  simp only [parameters, resolveSignature, registering_bind, registering_pure, bind_assoc,
    pure_bind]

/-! ## Functions and instances -/

/-- A function without generic names resolves the types of its signature and checks its
body. -/
theorem checkLambda_eq {signature : Signature} (plain : signature.generics = [])
    (visit : Expr → ScopeId → CheckM TypeId) (scope : ScopeId) (expression : Expr) :
    checkLambda visit signature scope expression =
      registering expression (resolveSignature signature) >>= fun types =>
        checkFunction visit types.1 types.2 signature.body scope expression := by
  rw [checkLambda, if_neg (by simp [Signature.isGeneric, plain])]
  exact resolving_eq signature expression fun parameters result =>
    checkFunction visit parameters result signature.body scope expression

/-- The part of an instantiation that comes after its types have been resolved. -/
def checkInstance (visit : Expr → ScopeId → CheckM TypeId) (generic : TypeId) (template : Template)
    (parameters : List (String × TypeId)) (result : TypeId) (callee expression : Expr) :
    CheckM TypeId := do
  if (← get).active.contains generic then
    throw ((Fault.unresolvedReference callee.text).inExpr expression)
  else
    modify fun session => { session with active := generic :: session.active }
    let outcome ← attempt
      (checkFunction visit parameters result template.body template.scope expression)
    modify fun session => { session with active := session.active.erase generic }
    settle outcome

theorem runOn_checkInstance (visit : Expr → ScopeId → CheckM TypeId) (generic : TypeId)
    (template : Template) (parameters : List (String × TypeId)) (result : TypeId)
    (callee expression : Expr) (session : Session) :
    (checkInstance visit generic template parameters result callee expression).runOn session =
      if session.active.contains generic then
        some (.error ((Fault.unresolvedReference callee.text).inExpr expression), session)
      else
        ((checkFunction visit parameters result template.body template.scope expression).runOn
          (session.entered generic)).map fun (outcome, reached) =>
            (outcome, reached.left generic) := by
  rw [checkInstance, runOn_bind, runOn_get, Option.bind_some]
  dsimp only
  split
  · rfl
  · exact runOn_guarded generic _ session

/-- **An instantiation** with as many type arguments as there are generic names resolves the
types of the signature that is written out, and then checks the body. -/
theorem runOn_instantiate {template : Template} {typeArguments : List String}
    (found : session.types.template? generic = some template)
    (arity : typeArguments.length = template.generics.length)
    (visit : Expr → ScopeId → CheckM TypeId) (callee expression : Expr) :
    (instantiate visit generic typeArguments callee expression).runOn session =
      (registering expression (resolveSignature (template.writtenOut typeArguments)) >>=
        fun types => do
          emit (.instantiated template.generics typeArguments)
          checkInstance visit generic template types.1 types.2 callee expression).runOn
        session := by
  rw [← resolving_eq _ _ fun parameters result => do
      emit (.instantiated template.generics typeArguments)
      checkInstance visit generic template parameters result callee expression,
    instantiate, runOn_bind, runOn_get, Option.bind_some]
  dsimp only
  rw [found]
  dsimp only
  rw [if_pos arity]
  rfl

/-- An instantiation of what is no generic function, or with another number of type
arguments, is refused with an error that depends on the types only. -/
theorem runOn_instantiate_of_refused {registry : Registry} {typeArguments : List String}
    (refused : ∀ template, registry.template? generic = some template →
      typeArguments.length ≠ template.generics.length) (callee expression : Expr) :
    ∃ error, ∀ (visit : Expr → ScopeId → CheckM TypeId) (session : Session),
      session.types = registry →
        (instantiate visit generic typeArguments callee expression).runOn session =
          some (.error error, session) := by
  cases found : registry.template? generic with
  | none =>
      refine ⟨(Fault.typeMismatch "generic function" (registry.name generic)).inExpr expression,
        fun visit session same => ?_⟩
      subst same
      rw [instantiate, runOn_bind, runOn_get, Option.bind_some]
      dsimp only
      rw [found]
      exact runOn_ask _ _ _
  | some template =>
      refine ⟨(Fault.arityMismatch "type arguments" template.generics.length
        typeArguments.length).inExpr expression, fun visit session same => ?_⟩
      subst same
      rw [instantiate, runOn_bind, runOn_get, Option.bind_some]
      dsimp only
      rw [found]
      dsimp only
      rw [if_neg (refused template found)]
      rfl

/-- The expression that a function is checked for only shows in the place of an error. -/
theorem checkFunction_place (visit : Expr → ScopeId → CheckM TypeId)
    (parameters : List (String × TypeId)) (result : TypeId) (body : Expr) (scope : ScopeId)
    (expression place : Expr) {outcome : Except Error TypeId} {reached : Session}
    (run : (checkFunction visit parameters result body scope expression).runOn session =
      some (outcome, reached)) :
    ∃ placed, (checkFunction visit parameters result body scope place).runOn session =
        some (placed, reached) ∧
      placed.mapError Error.fault = outcome.mapError Error.fault := by
  rw [checkFunction, runOn_bind] at run ⊢
  obtain ⟨⟨ended, middle⟩, ran, followed⟩ := Option.bind_eq_some_iff.1 run
  rw [ran, Option.bind_some]
  cases ended with
  | error error => exact ⟨outcome, followed, rfl⟩
  | ok actual =>
      dsimp only at followed ⊢
      rw [runOn_bind, runOn_ask, Option.bind_some] at followed ⊢
      cases fits : middle.types.expect actual result with
      | ok _ =>
          rw [fits] at followed
          exact ⟨outcome, followed, rfl⟩
      | error fault =>
          rw [fits] at followed
          obtain ⟨rfl, rfl⟩ := Prod.mk.inj (Option.some.inj followed)
          exact ⟨_, rfl, rfl⟩

end Checker

end TypedLisp
