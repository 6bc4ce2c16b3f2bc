import TypedLisp.Checker.Basic

/-!
# Relations that all rules keep

A rule of checking is put together from a few ways of making steps. It reads the types and
the scopes and changes the scopes, it records events, it fails, it does one step after
another, it goes on after a failure, it resolves texts, and it makes function types and
generic functions. A relation between steps that all of these keep is compatible with
checking (`CheckM.Compatible`).

Two runs of a rule are related in this way when the runs that check its smaller
expressions are. This leaves open the declarations of types and of classes, which also
change the declared names, and the calls with type arguments, which depend on the generic
functions that are being instantiated. So what remains to be shown of a compatible relation
is what it says of these (`CheckM.Compatible.checkForm`).

A relation that is also kept where the session as a whole is read, and changed apart from
its types, is a congruence (`CheckM.Congruence`). It leaves open the declarations only.
-/

set_option autoImplicit false

namespace TypedLisp.CheckM

open Checker

/-- A relation between steps from a session that the ways of making steps keep which see
only the types and the scopes. -/
structure Compatible (related : {α : Type} → Session → CheckM α → CheckM α → Prop) : Prop where
  pure : ∀ {α : Type} {session : Session} (value : α),
    related session (pure value : CheckM α) (pure value)
  throw : ∀ {α : Type} {session : Session} (error : Error),
    related session (throw error : CheckM α) (throw error)
  bind : ∀ {α β : Type} {session : Session} {step other : CheckM α}
    {next otherNext : α → CheckM β}, related session step other →
      (∀ value reached, related reached (next value) (otherNext value)) →
        related session (step >>= next) (other >>= otherNext)
  attempt : ∀ {α : Type} {session : Session} {step other : CheckM α},
    related session step other → related session (attempt step) (attempt other)
  read : ∀ {α β : Type} {session : Session} (view : Registry → Scopes → α)
    {next otherNext : α → CheckM β},
      (∀ value reached, related reached (next value) (otherNext value)) →
        related session (get >>= fun session => next (view session.types session.scopes))
          (get >>= fun session => otherNext (view session.types session.scopes))
  rescope : ∀ {α : Type} {session : Session} (change : Scopes → α × Scopes),
    related session
      (modifyGet fun session =>
        ((change session.scopes).1, { session with scopes := (change session.scopes).2 }))
      (modifyGet fun session =>
        ((change session.scopes).1, { session with scopes := (change session.scopes).2 }))
  emit : ∀ {session : Session} (event : Event), related session (emit event) (emit event)
  resolve : ∀ {session : Session} (expression : Expr) (text : String),
    related session (registering expression (Registry.resolve text))
      (registering expression (Registry.resolve text))
  function : ∀ {session : Session} (parameters : List TypeId) (result : TypeId),
    related session (making (·.function parameters result)) (making (·.function parameters result))
  addTemplate : ∀ {session : Session} (template : Template),
    related session (making (·.addTemplate template)) (making (·.addTemplate template))

/-- The checking of expressions is related in all sessions. -/
def Congruence.Visits (related : {α : Type} → Session → CheckM α → CheckM α → Prop)
    (visit other : Expr → ScopeId → CheckM TypeId) : Prop :=
  ∀ (expression : Expr) (scope : ScopeId) (session : Session),
    related session (visit expression scope) (other expression scope)

namespace Compatible

open Congruence (Visits)

variable {related : {α : Type} → Session → CheckM α → CheckM α → Prop} {α β : Type}
  {session : Session}

/-! ## Further ways of making steps -/

theorem modifyScopes (compatible : Compatible related) (change : Scopes → Scopes) :
    related session (CheckM.modifyScopes change) (CheckM.modifyScopes change) :=
  compatible.rescope fun scopes => (PUnit.unit, change scopes)

theorem settle (compatible : Compatible related) (outcome : Except Error α) :
    related session (CheckM.settle outcome) (CheckM.settle outcome) := by
  cases outcome with
  | ok value => exact compatible.pure value
  | error error => exact compatible.throw error

/-- A question that is answered by the types and the scopes. -/
theorem ask (compatible : Compatible related) (expression : Expr)
    (question : Session → Except Fault α)
    (seen : ∀ session, question session = question ⟨session.types, session.scopes, [], []⟩) :
    related session (CheckM.ask expression question) (CheckM.ask expression question) := by
  have asks : CheckM.ask expression question = MonadState.get >>= fun session => CheckM.settle
      ((question ⟨session.types, session.scopes, [], []⟩).mapError (·.inExpr expression)) := by
    refine bind_congr fun session => ?_
    rw [← seen]
    cases question session <;> rfl
  rw [asks]
  exact compatible.read (fun types scopes =>
    (question ⟨types, scopes, [], []⟩).mapError (·.inExpr expression)) fun answer _ =>
      compatible.settle answer

theorem undoing (compatible : Compatible related) {step other : CheckM α}
    {undo : Session → Session} (steps : related session step other)
    (undone : ∀ reached, related reached (modify undo : CheckM PUnit) (modify undo)) :
    related session (CheckM.undoing step undo) (CheckM.undoing other undo) := by
  refine compatible.bind (compatible.attempt steps) fun outcome reached => ?_
  cases outcome with
  | ok value => exact compatible.pure value
  | error error => exact compatible.bind (undone reached) fun _ _ => compatible.throw error

theorem inChild (compatible : Compatible related) {parent : ScopeId}
    {step other : ScopeId → CheckM α}
    (steps : ∀ scope reached, related reached (step scope) (other scope)) :
    related session (CheckM.inChild parent step) (CheckM.inChild parent other) := by
  refine compatible.bind (compatible.rescope (·.push parent)) fun scope reached => ?_
  refine compatible.bind (compatible.attempt (steps scope reached)) fun outcome reached => ?_
  exact compatible.bind (compatible.modifyScopes _) fun _ _ => compatible.settle outcome

theorem mapM (compatible : Compatible related) {items : List α} {step other : α → CheckM β}
    (steps : ∀ item reached, related reached (step item) (other item)) :
    related session (items.mapM step) (items.mapM other) := by
  induction items generalizing session with
  | nil => exact compatible.pure _
  | cons item items ih =>
      rw [List.mapM_cons, List.mapM_cons]
      exact compatible.bind (steps item session) fun _ _ => compatible.bind ih fun _ _ =>
        compatible.pure _

/-! ## Sequences, bodies and functions -/

variable {visit other : Expr → ScopeId → CheckM TypeId}

theorem sequence (compatible : Compatible related) (visits : Visits related visit other)
    (items : List Expr) (scope : ScopeId) :
    related session (Checker.sequence visit items scope) (Checker.sequence other items scope) := by
  fun_induction Checker.sequence visit items scope generalizing session with
  | case1 => exact compatible.throw _
  | case2 => exact visits _ _ _
  | case3 item next items scope ih => exact compatible.bind (visits _ _ _) fun _ _ => ih

theorem checkBody (compatible : Compatible related) (visits : Visits related visit other)
    (body : Expr) (scope : ScopeId) :
    related session (Checker.checkBody visit body scope) (Checker.checkBody other body scope) := by
  unfold Checker.checkBody
  split
  · exact compatible.sequence visits _ _
  · exact visits _ _ _

theorem parameterTypes (compatible : Compatible related) (parameters : List (String × String))
    (expression : Expr) :
    related session (Checker.parameterTypes parameters expression)
      (Checker.parameterTypes parameters expression) := by
  refine compatible.mapM fun parameter reached => ?_
  exact compatible.bind (compatible.resolve expression _) fun _ _ => compatible.pure _

theorem checkFunction (compatible : Compatible related) (visits : Visits related visit other)
    (parameters : List (String × TypeId)) (result : TypeId) (body : Expr) (scope : ScopeId)
    (expression : Expr) :
    related session (Checker.checkFunction visit parameters result body scope expression)
      (Checker.checkFunction other parameters result body scope expression) := by
  refine compatible.bind (compatible.inChild fun inner reached => ?_) fun actual reached => ?_
  · exact compatible.bind (compatible.modifyScopes _) fun _ _ => compatible.checkBody visits _ _
  · exact compatible.bind (compatible.ask _ _ fun _ => rfl) fun _ _ => compatible.function _ _

theorem signatureType (compatible : Compatible related) (signature : Signature)
    (expression : Expr) :
    related session (Checker.signatureType signature expression)
      (Checker.signatureType signature expression) := by
  refine compatible.bind (compatible.parameterTypes _ _) fun parameters reached => ?_
  exact compatible.bind (compatible.resolve expression _) fun _ _ => compatible.function _ _

theorem checkLambda (compatible : Compatible related) (visits : Visits related visit other)
    (signature : Signature) (scope : ScopeId) (expression : Expr) :
    related session (Checker.checkLambda visit signature scope expression)
      (Checker.checkLambda other signature scope expression) := by
  unfold Checker.checkLambda
  split
  · exact compatible.bind (compatible.modifyScopes _) fun _ _ => compatible.addTemplate _
  · refine compatible.bind (compatible.parameterTypes _ _) fun parameters reached => ?_
    refine compatible.bind (compatible.resolve expression _) fun result reached => ?_
    exact compatible.checkFunction visits _ _ _ _ _

/-! ## Forms -/

theorem variableType (compatible : Compatible related) (typeText : Option String)
    (actual : TypeId) (expression : Expr) :
    related session (Checker.variableType typeText actual expression)
      (Checker.variableType typeText actual expression) := by
  unfold Checker.variableType
  split
  · exact compatible.bind (compatible.resolve expression _) fun _ _ =>
      compatible.bind (compatible.ask _ _ fun _ => rfl) fun _ _ => compatible.pure _
  · exact compatible.pure _

/-- The declaration of a class, but for the steps that declare its name and forget it. -/
theorem checkClassDecl (compatible : Compatible related) (visits : Visits related visit other)
    {name : String} {scope : ScopeId} {expression : Expr}
    (declare : ∀ (parent : Option TypeId) (inner : ScopeId) (reached : Session), related reached
      (registering expression (Registry.declareClass name parent inner))
      (registering expression (Registry.declareClass name parent inner)))
    (forget : ∀ (previous : Option TypeId) (reached : Session), related reached
      (modify fun session => { session with
        types := session.types.forget name
        scopes := session.scopes.restore scope name previous } : CheckM PUnit)
      (modify fun session => { session with
        types := session.types.forget name
        scopes := session.scopes.restore scope name previous }))
    (superclass : Option String) (body : Expr) :
    related session (Checker.checkClassDecl visit name superclass body scope expression)
      (Checker.checkClassDecl other name superclass body scope expression) := by
  refine compatible.bind ?_ fun parent _ => ?_
  · cases superclass with
    | none => exact compatible.pure _
    | some parent =>
        simp only [Option.mapM_some, map_eq_pure_bind]
        exact compatible.bind (compatible.ask _ _ fun _ => rfl) fun _ _ => compatible.pure _
  refine compatible.bind (compatible.rescope (·.push scope)) fun inner _ => ?_
  refine compatible.bind (compatible.undoing (declare parent inner _) fun _ =>
    compatible.modifyScopes (·.release inner)) fun type _ => ?_
  refine compatible.bind (compatible.modifyScopes _) fun _ _ => ?_
  exact compatible.read (fun _ scopes => scopes.getLocal? scope name) fun previous _ =>
    compatible.bind (compatible.modifyScopes _) fun _ _ =>
      compatible.bind (compatible.emit _) fun _ _ =>
        compatible.bind (compatible.undoing (compatible.checkBody visits _ _) (forget previous))
          fun _ _ => compatible.pure _

theorem checkFunctionDecl (compatible : Compatible related) (visits : Visits related visit other)
    (name : String) (signature : Signature) (scope : ScopeId) (expression : Expr) :
    related session (Checker.checkFunctionDecl visit name signature scope expression)
      (Checker.checkFunctionDecl other name signature scope expression) := by
  refine compatible.read (fun _ scopes => scopes.getLocal? scope name) fun previous _ =>
    compatible.bind ?_ fun _ _ => compatible.undoing (visits _ _ _) fun _ =>
      compatible.modifyScopes (·.restore scope name previous)
  unfold announce
  split
  · exact compatible.pure _
  · exact compatible.bind (compatible.signatureType _ _) fun _ _ => compatible.modifyScopes _

theorem checkProperty (compatible : Compatible related) (visits : Visits related visit other)
    (object : Expr) (field : String) (scope : ScopeId) (expression : Expr) :
    related session (Checker.checkProperty visit object field scope expression)
      (Checker.checkProperty other object field scope expression) :=
  compatible.bind (visits _ _ _) fun _ _ => compatible.ask _ _ fun _ => rfl

theorem checkCondition (compatible : Compatible related) (visits : Visits related visit other)
    (condition : Expr) (scope : ScopeId) :
    related session (Checker.checkCondition visit condition scope)
      (Checker.checkCondition other condition scope) :=
  compatible.bind (visits _ _ _) fun _ _ => compatible.ask _ _ fun _ => rfl

theorem checkConsequent (compatible : Compatible related) (visits : Visits related visit other)
    (narrowing : Option Narrowing) (consequent : Expr) (scope : ScopeId) (expression : Expr) :
    related session (Checker.checkConsequent visit narrowing consequent scope expression)
      (Checker.checkConsequent other narrowing consequent scope expression) := by
  cases narrowing with
  | none => exact visits _ _ _
  | some narrowing =>
      refine compatible.bind (compatible.resolve expression _) fun _ _ => ?_
      exact compatible.inChild fun _ _ =>
        compatible.bind (compatible.modifyScopes _) fun _ _ => visits _ _ _

/-- **The rules keep a compatible relation** that the declarations and the calls with type
arguments keep. -/
theorem checkForm (compatible : Compatible related) (visits : Visits related visit other)
    {form : Form} {scope : ScopeId} {expression : Expr}
    (typeDecl : ∀ {name : String} {base : TypeBase}, form = .typeDecl name base →
      related session (checkTypeDecl name base expression) (checkTypeDecl name base expression))
    (classDecl : ∀ {name : String} {superclass : Option String} {body : Expr},
      form = .classDecl name superclass body →
        related session (Checker.checkClassDecl visit name superclass body scope expression)
          (Checker.checkClassDecl other name superclass body scope expression))
    (call : ∀ {callee : Expr} {typeArguments : List String} {arguments : List Expr},
      form = .call callee (some typeArguments) arguments →
        related session
          (checkCall visit callee (some typeArguments) arguments scope expression)
          (checkCall other callee (some typeArguments) arguments scope expression)) :
    related session (Checker.checkForm visit form scope expression)
      (Checker.checkForm other form scope expression) := by
  cases form with
  | literal => exact compatible.pure _
  | arithmetic =>
      refine compatible.bind (visits _ _ _) fun _ _ => compatible.bind (visits _ _ _) fun _ _ => ?_
      refine compatible.bind (compatible.ask _ _ fun _ => rfl) fun _ _ => ?_
      refine compatible.bind (compatible.ask _ _ fun _ => rfl) fun _ _ => ?_
      exact compatible.bind (compatible.ask _ _ fun _ => rfl) fun _ _ => compatible.pure _
  | comparison =>
      refine compatible.bind (visits _ _ _) fun _ _ => compatible.bind (visits _ _ _) fun _ _ => ?_
      exact compatible.bind (compatible.ask _ _ fun _ => rfl) fun _ _ => compatible.pure _
  | typeDecl => exact typeDecl rfl
  | classDecl => exact classDecl rfl
  | construct =>
      refine compatible.bind (compatible.ask _ _ fun _ => rfl) fun _ _ => ?_
      refine compatible.bind (compatible.mapM fun _ _ => visits _ _ _) fun _ _ => ?_
      refine compatible.bind (compatible.ask _ _ fun _ => rfl) fun _ _ => ?_
      exact compatible.bind (compatible.ask _ _ fun _ => rfl) fun _ _ => compatible.pure _
  | super => exact compatible.ask _ _ fun _ => rfl
  | property => exact compatible.checkProperty visits _ _ _ _
  | varDecl =>
      refine compatible.bind (visits _ _ _) fun _ _ => ?_
      refine compatible.bind (compatible.variableType _ _ _) fun _ _ => ?_
      exact compatible.bind (compatible.modifyScopes _) fun _ _ => compatible.pure _
  | identifier => exact compatible.ask _ _ fun _ => rfl
  | assign target =>
      refine compatible.bind ?_ fun _ _ => compatible.bind (visits _ _ _) fun _ _ =>
        compatible.bind (compatible.ask _ _ fun _ => rfl) fun _ _ => compatible.pure _
      cases target with
      | name => exact compatible.ask _ _ fun _ => rfl
      | property => exact compatible.checkProperty visits _ _ _ _
  | block => exact compatible.inChild fun _ _ => compatible.sequence visits _ _
  | branch =>
      refine compatible.bind (compatible.checkCondition visits _ _) fun _ _ => ?_
      refine compatible.bind (compatible.checkConsequent visits _ _ _ _) fun _ _ => ?_
      refine compatible.bind (visits _ _ _) fun _ _ => ?_
      exact compatible.bind (compatible.ask _ _ fun _ => rfl) fun _ _ => compatible.pure _
  | loop =>
      exact compatible.bind (compatible.checkCondition visits _ _) fun _ _ => visits _ _ _
  | functionDecl => exact compatible.checkFunctionDecl visits _ _ _ _
  | lambda => exact compatible.checkLambda visits _ _ _
  | typeOf => exact compatible.bind (visits _ _ _) fun _ _ => compatible.pure _
  | call callee typeArguments arguments =>
      cases typeArguments with
      | some typeArguments => exact call rfl
      | none =>
          refine compatible.bind (visits _ _ _) fun _ _ => ?_
          refine compatible.bind (compatible.ask _ _ fun _ => rfl) fun _ _ => ?_
          refine compatible.bind (compatible.mapM fun _ _ => visits _ _ _) fun _ _ => ?_
          exact compatible.ask _ _ fun _ => rfl

end Compatible

/-- A relation between steps from a session that the ways of making steps keep, also those
which see the whole session. -/
structure Congruence (related : {α : Type} → Session → CheckM α → CheckM α → Prop) : Prop where
  still : ∀ {α : Type} {session : Session} (change : Session → α × Session),
    (∀ session, (change session).2.types = session.types) →
      related session (modifyGet change) (modifyGet change)
  throw : ∀ {α : Type} {session : Session} (error : Error),
    related session (throw error : CheckM α) (throw error)
  bind : ∀ {α β : Type} {session : Session} {step other : CheckM α}
    {next otherNext : α → CheckM β}, related session step other →
      (∀ value reached, related reached (next value) (otherNext value)) →
        related session (step >>= next) (other >>= otherNext)
  attempt : ∀ {α : Type} {session : Session} {step other : CheckM α},
    related session step other → related session (attempt step) (attempt other)
  resolve : ∀ {session : Session} (expression : Expr) (text : String),
    related session (registering expression (Registry.resolve text))
      (registering expression (Registry.resolve text))
  function : ∀ {session : Session} (parameters : List TypeId) (result : TypeId),
    related session (making (·.function parameters result)) (making (·.function parameters result))
  addTemplate : ∀ {session : Session} (template : Template),
    related session (making (·.addTemplate template)) (making (·.addTemplate template))

namespace Congruence

variable {related : {α : Type} → Session → CheckM α → CheckM α → Prop} {α : Type}
  {session : Session}

theorem pure (congruence : Congruence related) (value : α) :
    related session (Pure.pure value) (Pure.pure value) :=
  congruence.still (fun session => (value, session)) fun _ => rfl

theorem get (congruence : Congruence related) :
    related session (MonadState.get : CheckM Session) MonadState.get :=
  congruence.still (fun session => (session, session)) fun _ => rfl

theorem changes (congruence : Congruence related) {change : Session → Session}
    (same : ∀ session, (change session).types = session.types) :
    related session (modify change : CheckM PUnit) (modify change) :=
  congruence.still (fun session => (PUnit.unit, change session)) same

theorem emit (congruence : Congruence related) (event : Event) :
    related session (CheckM.emit event) (CheckM.emit event) :=
  congruence.changes fun _ => rfl

theorem compatible (congruence : Congruence related) : Compatible related where
  pure := congruence.pure
  throw := congruence.throw
  bind := congruence.bind
  attempt := congruence.attempt
  read _ _ _ rest := congruence.bind congruence.get fun _ _ => rest _ _
  rescope _ := congruence.still _ fun _ => rfl
  emit := congruence.emit
  resolve := congruence.resolve
  function := congruence.function
  addTemplate := congruence.addTemplate

variable {visit other : Expr → ScopeId → CheckM TypeId}

theorem instantiate (congruence : Congruence related) (visits : Visits related visit other)
    (generic : TypeId) (typeArguments : List String) (callee expression : Expr) :
    related session (Checker.instantiate visit generic typeArguments callee expression)
      (Checker.instantiate other generic typeArguments callee expression) := by
  refine congruence.bind congruence.get fun _ reached => ?_
  split
  · exact congruence.compatible.ask _ _ fun _ => rfl
  · split
    · refine congruence.bind (congruence.compatible.parameterTypes _ _) fun parameters reached => ?_
      refine congruence.bind (congruence.resolve expression _) fun result reached => ?_
      refine congruence.bind (congruence.emit _) fun _ reached => ?_
      refine congruence.bind congruence.get fun _ reached => ?_
      split
      · exact congruence.throw _
      · refine congruence.bind (congruence.changes fun _ => rfl) fun _ reached => ?_
        refine congruence.bind (congruence.attempt
          (congruence.compatible.checkFunction visits _ _ _ _ _))
          fun outcome reached => ?_
        exact congruence.bind (congruence.changes fun _ => rfl) fun _ _ =>
          congruence.compatible.settle outcome
    · exact congruence.throw _

/-- **The rules keep a congruence that the declarations keep.** -/
theorem checkForm (congruence : Congruence related) (visits : Visits related visit other)
    {form : Form} {scope : ScopeId} {expression : Expr}
    (typeDecl : ∀ {name : String} {base : TypeBase}, form = .typeDecl name base →
      related session (checkTypeDecl name base expression) (checkTypeDecl name base expression))
    (classDecl : ∀ {name : String} {superclass : Option String} {body : Expr},
      form = .classDecl name superclass body →
        related session (checkClassDecl visit name superclass body scope expression)
          (checkClassDecl other name superclass body scope expression)) :
    related session (Checker.checkForm visit form scope expression)
      (Checker.checkForm other form scope expression) := by
  refine congruence.compatible.checkForm visits typeDecl classDecl
    fun _ => ?_
  refine congruence.bind (visits _ _ _) fun _ _ => ?_
  refine congruence.bind (congruence.instantiate visits _ _ _ _) fun _ _ => ?_
  refine congruence.bind (congruence.compatible.mapM fun _ _ => visits _ _ _) fun _ _ => ?_
  exact congruence.compatible.ask _ _ fun _ => rfl

end Congruence

end TypedLisp.CheckM
