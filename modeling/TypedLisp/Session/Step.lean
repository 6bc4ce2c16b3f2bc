import TypedLisp.Session.Basic

/-!
# Steps of checking

A step starts from a session and ends in one, with a value or with an error; a
step that goes deeper than it is allowed to has no outcome. The session that a
failed step ends in is kept, so each step says on its own what a failure leaves
behind.

`runOn` runs a step on a session. Each way of making a step has a lemma that says
what `runOn` does with it.
-/

set_option autoImplicit false

namespace TypedLisp

/-- A step of checking. The session that it ends in is there after a failure
too. -/
abbrev CheckM := ExceptT Error (StateT Session Option)

namespace CheckM

variable {α : Type}

/-- The step that has no outcome. -/
def exhausted : CheckM α := ExceptT.mk fun _ => none

/-- Runs a step on a session. -/
def runOn (step : CheckM α) (session : Session) : Option (Except Error α × Session) :=
  step.run.run session

/-! ## Failure and recovery -/

/-- Runs a step and yields its outcome, so that what follows is done after a
failure too. -/
def attempt (step : CheckM α) : CheckM (Except Error α) := ExceptT.lift step.run

/-- The step with a given outcome. -/
def settle : Except Error α → CheckM α
  | .ok value => pure value
  | .error error => throw error

/-- Changes the session when a step has failed. -/
def undoing (step : CheckM α) (undo : Session → Session) : CheckM α := do
  match ← attempt step with
  | .ok value => return value
  | .error error =>
      modify undo
      throw error

/-! ## Types, scopes and events -/

/-- Asks the session a question about an expression. -/
def ask (expression : Expr) (question : Session → Except Fault α) : CheckM α := do
  match question (← get) with
  | .ok value => return value
  | .error fault => throw (fault.inExpr expression)

/-- Makes types for an expression. -/
def registering (expression : Expr) (step : RegistryM α) : CheckM α := do
  let session ← get
  let (outcome, types) := step.run.run session.types
  set { session with types }
  match outcome with
  | .ok value => return value
  | .error fault => throw (fault.inExpr expression)

/-- Makes a type. -/
def making (step : Registry → TypeId × Registry) : CheckM TypeId :=
  modifyGet fun session =>
    let (id, types) := step session.types
    (id, { session with types })

/-- Changes the scopes. -/
def modifyScopes (change : Scopes → Scopes) : CheckM Unit :=
  modify fun session => { session with scopes := change session.scopes }

/-- Opens a scope. -/
def openScope (parent : ScopeId) : CheckM ScopeId :=
  modifyGet fun session =>
    let (id, scopes) := session.scopes.push parent
    (id, { session with scopes })

/-- Runs a step in a new scope, which is released afterwards. -/
def inChild (parent : ScopeId) (step : ScopeId → CheckM α) : CheckM α := do
  let scope ← openScope parent
  let outcome ← attempt (step scope)
  modifyScopes (·.release scope)
  settle outcome

/-- Records an event. -/
def emit (event : Event) : CheckM Unit :=
  modify fun session => { session with events := event :: session.events }

/-! ## What running a step does -/

@[simp] theorem runOn_exhausted (session : Session) :
    (exhausted : CheckM α).runOn session = none := rfl

@[simp] theorem runOn_pure (value : α) (session : Session) :
    (pure value : CheckM α).runOn session = some (.ok value, session) := rfl

@[simp] theorem runOn_throw (error : Error) (session : Session) :
    (throw error : CheckM α).runOn session = some (.error error, session) := rfl

@[simp] theorem runOn_get (session : Session) :
    (get : CheckM Session).runOn session = some (.ok session, session) := rfl

@[simp] theorem runOn_set (next session : Session) :
    (set next : CheckM PUnit).runOn session = some (.ok ⟨⟩, next) := rfl

@[simp] theorem runOn_modify (change : Session → Session) (session : Session) :
    (modify change : CheckM PUnit).runOn session = some (.ok ⟨⟩, change session) := rfl

@[simp] theorem runOn_modifyGet (change : Session → α × Session) (session : Session) :
    (modifyGet change : CheckM α).runOn session =
      some (.ok (change session).1, (change session).2) := rfl

/-- A step that follows another runs on the session which that one ends in, and
only when it has not failed. -/
theorem runOn_bind {β : Type} (step : CheckM α) (next : α → CheckM β) (session : Session) :
    (step >>= next).runOn session = (step.runOn session).bind fun (outcome, reached) =>
      match outcome with
      | .ok value => (next value).runOn reached
      | .error error => some (.error error, reached) := by
  simp only [runOn, bind, ExceptT.bind, ExceptT.mk, ExceptT.run, StateT.bind, StateT.run]
  congr
  funext reached
  obtain ⟨outcome, session⟩ := reached
  cases outcome <;> rfl

theorem runOn_attempt (step : CheckM α) (session : Session) :
    (attempt step).runOn session =
      (step.runOn session).map fun (outcome, reached) => (.ok outcome, reached) := by
  simp only [runOn, attempt, ExceptT.lift, ExceptT.run, ExceptT.mk, StateT.run, Functor.map,
    StateT.map]
  cases step session <;> rfl

@[simp] theorem runOn_settle (outcome : Except Error α) (session : Session) :
    (settle outcome).runOn session = some (outcome, session) := by
  cases outcome <;> rfl

theorem runOn_undoing (step : CheckM α) (undo : Session → Session) (session : Session) :
    (undoing step undo).runOn session = (step.runOn session).map fun (outcome, reached) =>
      match outcome with
      | .ok value => (.ok value, reached)
      | .error error => (.error error, undo reached) := by
  rw [undoing, runOn_bind, runOn_attempt]
  cases step.runOn session with
  | none => rfl
  | some reached =>
      obtain ⟨outcome, reached⟩ := reached
      cases outcome <;> rfl

theorem runOn_ask (expression : Expr) (question : Session → Except Fault α) (session : Session) :
    (ask expression question).runOn session =
      some ((question session).mapError (·.inExpr expression), session) := by
  rw [ask, runOn_bind, runOn_get]
  dsimp only [Option.bind_some]
  cases question session <;> rfl

theorem runOn_registering (expression : Expr) (step : RegistryM α) (session : Session) :
    (registering expression step).runOn session =
      some ((step.run.run session.types).1.mapError (·.inExpr expression),
        { session with types := (step.run.run session.types).2 }) := by
  rw [registering, runOn_bind, runOn_get]
  dsimp only [Option.bind_some]
  obtain ⟨outcome, types⟩ := step.run.run session.types
  dsimp only
  rw [runOn_bind, runOn_set]
  cases outcome <;> rfl

theorem runOn_inChild (parent : ScopeId) (step : ScopeId → CheckM α) (session : Session) :
    (inChild parent step).runOn session =
      ((step (session.scopes.push parent).1).runOn
        { session with scopes := (session.scopes.push parent).2 }).map
        fun (outcome, reached) => (outcome,
          { reached with scopes := reached.scopes.release (session.scopes.push parent).1 }) := by
  rw [inChild, openScope, runOn_bind, runOn_modifyGet]
  dsimp only [Option.bind_some]
  rw [runOn_bind, runOn_attempt]
  cases (step (session.scopes.push parent).1).runOn
      { session with scopes := (session.scopes.push parent).2 } with
  | none => rfl
  | some reached =>
      dsimp only [Option.map_some, Option.bind_some]
      rw [runOn_bind, modifyScopes, runOn_modify]
      dsimp only [Option.bind_some]
      rw [runOn_settle]

end CheckM

end TypedLisp
