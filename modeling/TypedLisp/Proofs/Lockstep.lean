import TypedLisp.Proofs.RuleSoundness
import TypedLisp.Proofs.Weight

/-!
# Runs in lockstep

Two sessions can be checked side by side. A correspondence says which types and
scopes of the one stand for which of the other, in worlds that pair two sessions.
Checking moves from a world to a later one, in which what corresponded before still
does.

Two steps are alike in a world (`Correspondence.Alike`) when neither has an outcome,
or both fail with the same error, or both succeed with values that correspond, and
they end in the two sessions of a later world. A correspondence may be lenient: then
nothing is asked of the second step where the first one fails.

`Correspondence.Lawful` lists what a correspondence has to give: the questions that
checking asks have corresponding answers, and every change that checking makes can be
made on both sides. Nothing else about the two sessions is used when the rules of
checking are shown to be alike. Only the first session has to be well-formed: what is
true of the second one is up to the correspondence.
-/

set_option autoImplicit false

namespace TypedLisp

/-- Two outcomes that fail in the same way, or succeed with related values. -/
inductive Answers {ε α β : Type} (good : α → β → Prop) : Except ε α → Except ε β → Prop where
  | ok {value : α} {other : β} : good value other → Answers good (.ok value) (.ok other)
  | error (fault : ε) : Answers good (.error fault) (.error fault)

namespace Answers

variable {ε α β : Type} {good : α → β → Prop}

theorem mapError {ε' : Type} {outcome : Except ε α} {other : Except ε β}
    (answers : Answers good outcome other) (change : ε → ε') :
    Answers good (outcome.mapError change) (other.mapError change) := by
  cases answers with
  | ok holds => exact .ok holds
  | error fault => exact .error (change fault)

/-- Equal outcomes, whatever is asked of equal values. -/
theorem of_eq {same : α → α → Prop} {outcome other : Except ε α} (equal : outcome = other)
    (holds : ∀ value, outcome = .ok value → same value value) : Answers same outcome other := by
  subst equal
  cases outcome with
  | ok value => exact .ok (holds value rfl)
  | error fault => exact .error fault

/-- One outcome is the other one with its value changed. -/
theorem of_map {change : α → β} {outcome : Except ε α} {other : Except ε β}
    (equal : other = outcome.map change) (holds : ∀ value, outcome = .ok value →
      good value (change value)) : Answers good outcome other := by
  subst equal
  cases outcome with
  | ok value => exact .ok (holds value rfl)
  | error fault => exact .error fault

end Answers

/-- Worlds that pair two sessions, the order in which checking goes through them, the
types and scopes that correspond in a world, the types that correspond and are found
under their names, the names that may be declared, and whether only the first session
may fail. -/
structure Correspondence (World : Type) where
  left : World → Session
  right : World → Session
  Later : World → World → Prop
  Types : World → TypeId → TypeId → Prop
  Named : World → TypeId → TypeId → Prop
  Scopes : World → ScopeId → ScopeId → Prop
  Admits : String → Prop
  Lenient : Prop

namespace Correspondence

open CheckM

variable {World : Type} {pair : Correspondence World} {world : World} {α β : Type}

/-- Two sessions are those of a later world, of which something more holds. -/
def Reaches (pair : Correspondence World) (world : World) (left right : Session)
    (also : World → Prop) : Prop :=
  ∃ later, pair.Later world later ∧ pair.left later = left ∧ pair.right later = right ∧ also later

/-- Two steps end alike from the two sessions of a world. -/
inductive Alike (pair : Correspondence World) (world : World) (step : CheckM α)
    (other : CheckM β) (good : World → α → β → Prop) : Prop where
  | exhausted : step.runOn (pair.left world) = none → other.runOn (pair.right world) = none →
      Alike pair world step other good
  | ok {later : World} {value : α} {otherValue : β} :
      step.runOn (pair.left world) = some (.ok value, pair.left later) →
        other.runOn (pair.right world) = some (.ok otherValue, pair.right later) →
          pair.Later world later → good later value otherValue → Alike pair world step other good
  | error {later : World} {error : Error} :
      step.runOn (pair.left world) = some (.error error, pair.left later) →
        other.runOn (pair.right world) = some (.error error, pair.right later) →
          pair.Later world later → Alike pair world step other good
  | spared {error : Error} {reached : Session} : pair.Lenient →
      step.runOn (pair.left world) = some (.error error, reached) →
        Alike pair world step other good

/-- All names that an expression declares are admitted. -/
def Covers (pair : Correspondence World) (expression : Expr) : Prop :=
  ∀ name, expression.Declares name → pair.Admits name

/-- A registration of types for an expression is alike on both sides. -/
def Registers (pair : Correspondence World) (world : World) (register other : RegistryM TypeId)
    (good : World → TypeId → TypeId → Prop) : Prop :=
  ∀ expression, pair.Alike world (registering expression register) (registering expression other)
    good

/-- What a correspondence has to give for the rules of checking to be alike. -/
structure Lawful (pair : Correspondence World) : Prop where
  refl : ∀ world, pair.Later world world
  trans : ∀ {first second third : World}, pair.Later first second → pair.Later second third →
    pair.Later first third
  wellFormed : ∀ world, (pair.left world).WellFormed
  -- What corresponds goes on to do so.
  types_later : ∀ {world later : World} {type other : TypeId}, pair.Later world later →
    pair.Types world type other → pair.Types later type other
  scopes_later : ∀ {world later : World} {scope other : ScopeId}, pair.Later world later →
    pair.Scopes world scope other → pair.Scopes later scope other
  named_later : ∀ {world later : World} {type other : TypeId}, pair.Later world later →
    Registry.Grows (pair.left world).types (pair.left later).types →
      pair.Named world type other → pair.Named later type other
  types_of_named : ∀ {world : World} {type other : TypeId}, pair.Named world type other →
    pair.Types world type other
  plain : ∀ {world : World} {type other : TypeId}, pair.Named world type other →
    (pair.left world).types.IsPlain type
  live : ∀ {world : World} {scope other : ScopeId}, pair.Scopes world scope other →
    (pair.left world).scopes.isLive scope = true
  -- Questions have corresponding answers.
  primitive : ∀ {world : World} {type : TypeId}, type.index < 4 → pair.Types world type type
  name : ∀ {world : World} {type other : TypeId}, pair.Types world type other →
    (pair.left world).types.name type = (pair.right world).types.name other
  expect : ∀ {world : World} {given otherGiven expected otherExpected : TypeId},
    pair.Types world given otherGiven → pair.Types world expected otherExpected →
      (pair.left world).types.expect given expected =
        (pair.right world).types.expect otherGiven otherExpected
  operand : ∀ {world : World} {given other : TypeId} {allowed : List TypeId},
    pair.Types world given other → (∀ type ∈ allowed, type.index < 4) →
      (pair.left world).types.expectOperand given allowed =
        (pair.right world).types.expectOperand other allowed
  classNamed : ∀ (world : World) (name : String), Answers (pair.Types world)
    ((pair.left world).classNamed name) ((pair.right world).classNamed name)
  superclassOf : ∀ (world : World) (name : String), Answers (pair.Types world)
    ((pair.left world).superclassOf name) ((pair.right world).superclassOf name)
  field : ∀ {world : World} {object other : TypeId} (name : String),
    pair.Types world object other → Answers (pair.Types world)
      ((pair.left world).field object name) ((pair.right world).field other name)
  lookup : ∀ {world : World} {scope other : ScopeId} (name : String),
    pair.Scopes world scope other → Answers (pair.Types world)
        ((pair.left world).scopes.lookup scope name)
        ((pair.right world).scopes.lookup other name) ∨
      pair.Lenient ∧ ∃ fault, (pair.left world).scopes.lookup scope name = .error fault
  callResult : ∀ {world : World} {callee other : TypeId} {arguments otherArguments : List TypeId}
    (construct : String), pair.Types world callee other →
      List.Forall₂ (pair.Types world) arguments otherArguments → Answers (pair.Types world)
        ((pair.left world).types.callResult callee arguments construct)
        ((pair.right world).types.callResult other otherArguments construct)
  template : ∀ {world : World} {generic other : TypeId}, pair.Types world generic other →
    ((pair.left world).types.template? generic = none ∧
      (pair.right world).types.template? other = none) ∨
    ∃ template otherScope, (pair.left world).types.template? generic = some template ∧
      (pair.right world).types.template? other = some { template with scope := otherScope } ∧
      pair.Scopes world template.scope otherScope ∧ pair.Covers template.body
  active : ∀ {world : World} {generic other : TypeId}, pair.Types world generic other →
    (pair.left world).active.contains generic = (pair.right world).active.contains other
  taken : ∀ (world : World) (name : String), (pair.left world).types.names.contains name =
    (pair.right world).types.names.contains name
  -- Changes can be made on both sides.
  emit : ∀ (world : World) (event : Event), pair.Reaches world
    { pair.left world with events := event :: (pair.left world).events }
    { pair.right world with events := event :: (pair.right world).events } fun _ => True
  enter : ∀ {world : World} {generic other : TypeId}, pair.Types world generic other →
    pair.Reaches world ((pair.left world).entered generic) ((pair.right world).entered other)
      fun _ => True
  leave : ∀ {world : World} {generic other : TypeId}, pair.Types world generic other →
    pair.Reaches world ((pair.left world).left generic) ((pair.right world).left other)
      fun _ => True
  define : ∀ {world : World} {scope otherScope : ScopeId} {type other : TypeId} (name : String),
    pair.Scopes world scope otherScope → pair.Types world type other → pair.Reaches world
      { pair.left world with scopes := (pair.left world).scopes.define scope name type }
      { pair.right world with scopes := (pair.right world).scopes.define otherScope name other }
      fun _ => True
  restore : ∀ {start world : World} {scope other : ScopeId} (name : String),
    pair.Scopes start scope other → pair.Later start world → pair.Reaches world
      { pair.left world with
        scopes := (pair.left world).scopes.restore scope name
          ((pair.left start).scopes.getLocal? scope name) }
      { pair.right world with
        scopes := (pair.right world).scopes.restore other name
          ((pair.right start).scopes.getLocal? other name) } fun _ => True
  forget : ∀ {start world : World} {name : String},
    (pair.left start).types.names.get? name = none → pair.Later start world → pair.Reaches world
      { pair.left world with types := (pair.left world).types.forget name }
      { pair.right world with types := (pair.right world).types.forget name } fun _ => True
  opens : ∀ {world : World} {scope other : ScopeId}, pair.Scopes world scope other →
    pair.Reaches world ((pair.left world).opened scope) ((pair.right world).opened other)
      fun later => pair.Scopes later ((pair.left world).next scope) ((pair.right world).next other)
  closes : ∀ {world opened reached : World} {scope other : ScopeId},
    pair.Scopes world scope other → pair.Later world opened →
      pair.left opened = (pair.left world).opened scope →
        pair.right opened = (pair.right world).opened other →
          pair.Scopes opened ((pair.left world).next scope) ((pair.right world).next other) →
            pair.Later opened reached →
              (pair.left opened).Evolves {(pair.left world).next scope} (pair.left reached) →
                pair.Reaches world ((pair.left reached).closed ((pair.left world).next scope))
                  ((pair.right reached).closed ((pair.right world).next other))
                  fun later => ∀ {type other : TypeId}, pair.Types reached type other →
                    pair.Types later type other
  resolve : ∀ (world : World) (text : String),
    pair.Registers world (Registry.resolve text) (Registry.resolve text) pair.Named
  function : ∀ {world : World} {parameters otherParameters : List TypeId}
    {result otherResult : TypeId},
    List.Forall₂ (pair.Named world) parameters otherParameters →
      pair.Named world result otherResult →
        pair.Alike world (making (·.function parameters result))
          (making (·.function otherParameters otherResult)) pair.Named
  declareAlias : ∀ (world : World) {name : String} (parent : String), pair.Admits name →
    pair.Registers world (Registry.declareAlias name parent) (Registry.declareAlias name parent)
      pair.Types
  declareUnion : ∀ (world : World) {name : String} (members : List String), pair.Admits name →
    pair.Registers world (Registry.declareUnion name members) (Registry.declareUnion name members)
      pair.Types
  withTemplate : ∀ {world : World} (template : Template) {otherScope : ScopeId},
    pair.Scopes world template.scope otherScope → pair.Covers template.body → pair.Reaches world
      ((pair.left world).withTemplate template)
      ((pair.right world).withTemplate { template with scope := otherScope })
      fun later => pair.Types later ⟨(pair.left world).types.types.size⟩
        ⟨(pair.right world).types.types.size⟩
  withClass : ∀ {world : World} {name : String} {superclass otherSuperclass : Option TypeId}
    {scope otherScope : ScopeId}, pair.Admits name →
      Option.Rel (pair.Types world) superclass otherSuperclass →
        (∀ id ∈ superclass, (pair.left world).types.IsPlain id) →
          pair.Scopes world scope otherScope →
            (pair.left world).types.names.get? name = none → pair.Reaches world
              ((pair.left world).withClass name superclass scope)
              ((pair.right world).withClass name otherSuperclass otherScope)
              fun later => pair.Types later ⟨(pair.left world).types.types.size⟩
                  ⟨(pair.right world).types.types.size⟩ ∧
                pair.Scopes later ((pair.left world).next scope)
                  ((pair.right world).next otherScope)

/-! ## Steps that are alike -/

theorem Reaches.since {left right : Session} {start : World} {also : World → Prop}
    (reaches : pair.Reaches world left right also) (lawful : pair.Lawful)
    (later : pair.Later start world) : pair.Reaches start left right also := by
  obtain ⟨reached, after, found⟩ := reaches
  exact ⟨reached, lawful.trans later after, found⟩

namespace Alike

variable {step : CheckM α} {other : CheckM β} {good better : World → α → β → Prop}

/-- What is known of the values may be changed in the light of the run. -/
theorem imp (alike : pair.Alike world step other better)
    (holds : ∀ {later value otherValue},
      step.runOn (pair.left world) = some (.ok value, pair.left later) →
        better later value otherValue → good later value otherValue) :
    pair.Alike world step other good := by
  cases alike with
  | exhausted run otherRun => exact .exhausted run otherRun
  | ok run otherRun later found => exact .ok run otherRun later (holds run found)
  | error run otherRun later => exact .error run otherRun later
  | spared lenient run => exact .spared lenient run

theorem mono (alike : pair.Alike world step other better)
    (weaker : ∀ {later value otherValue}, better later value otherValue →
      good later value otherValue) : pair.Alike world step other good :=
  alike.imp fun _ found => weaker found

/-- Two steps that succeed in the sessions of a later world. -/
theorem of_ok {left right : Session} {value : α} {otherValue : β} {also : World → Prop}
    (run : step.runOn (pair.left world) = some (.ok value, left))
    (otherRun : other.runOn (pair.right world) = some (.ok otherValue, right))
    (reaches : pair.Reaches world left right also)
    (holds : ∀ {later}, also later → good later value otherValue) :
    pair.Alike world step other good := by
  obtain ⟨later, after, rfl, rfl, found⟩ := reaches
  exact .ok run otherRun after (holds found)

/-- Two steps that fail in the sessions of a later world. -/
theorem of_error {left right : Session} {error : Error} {also : World → Prop}
    (run : step.runOn (pair.left world) = some (.error error, left))
    (otherRun : other.runOn (pair.right world) = some (.error error, right))
    (reaches : pair.Reaches world left right also) : pair.Alike world step other good := by
  obtain ⟨later, after, rfl, rfl, _⟩ := reaches
  exact .error run otherRun after

theorem pure (lawful : pair.Lawful) {value : α} {otherValue : β}
    (holds : good world value otherValue) :
    pair.Alike world (Pure.pure value) (Pure.pure otherValue) good :=
  .ok rfl rfl (lawful.refl world) holds

theorem throw (lawful : pair.Lawful) (error : Error) :
    pair.Alike world (MonadExcept.throw error) (MonadExcept.throw error) good :=
  .error rfl rfl (lawful.refl world)

theorem settle (lawful : pair.Lawful) {good : World → α → α → Prop} (outcome : Except Error α)
    (holds : ∀ value, outcome = .ok value → good world value value) :
    pair.Alike world (CheckM.settle outcome) (CheckM.settle outcome) good := by
  cases outcome with
  | ok value => exact pure lawful (holds value rfl)
  | error error => exact throw lawful error

/-- Two steps with outcomes that answer alike. -/
theorem of_answers {later : World} {outcome : Except Error α} {otherOutcome : Except Error β}
    (run : step.runOn (pair.left world) = some (outcome, pair.left later))
    (otherRun : other.runOn (pair.right world) = some (otherOutcome, pair.right later))
    (after : pair.Later world later) (answers : Answers (good later) outcome otherOutcome) :
    pair.Alike world step other good := by
  cases answers with
  | ok holds => exact .ok run otherRun after holds
  | error error => exact .error run otherRun after

theorem ask (lawful : pair.Lawful) (expression : Expr) {question : Session → Except Fault α}
    {otherQuestion : Session → Except Fault β}
    (answers : Answers (good world) (question (pair.left world))
      (otherQuestion (pair.right world))) :
    pair.Alike world (CheckM.ask expression question) (CheckM.ask expression otherQuestion) good :=
  of_answers (runOn_ask expression question _) (runOn_ask expression otherQuestion _)
    (lawful.refl world) (answers.mapError _)

/-- A change of the session that both sides can make. -/
theorem changes {change otherChange : Session → Session} {also : World → Prop}
    (reaches : pair.Reaches world (change (pair.left world)) (otherChange (pair.right world))
      also) :
    pair.Alike world (modify change : CheckM PUnit) (modify otherChange)
      fun later _ _ => also later :=
  of_ok rfl rfl reaches fun holds => holds

/-- Two steps that start by moving to a later world. -/
theorem moved (lawful : pair.Lawful) {start : CheckM α} {otherStart : CheckM β} {later : World}
    (after : pair.Later world later) (moves : start.runOn (pair.left world) =
      step.runOn (pair.left later))
    (otherMoves : otherStart.runOn (pair.right world) = other.runOn (pair.right later))
    (alike : pair.Alike later step other good) : pair.Alike world start otherStart good := by
  cases alike with
  | exhausted run otherRun => exact .exhausted (moves.trans run) (otherMoves.trans otherRun)
  | ok run otherRun further holds =>
      exact .ok (moves.trans run) (otherMoves.trans otherRun) (lawful.trans after further) holds
  | error run otherRun further =>
      exact .error (moves.trans run) (otherMoves.trans otherRun) (lawful.trans after further)
  | spared lenient run => exact .spared lenient (moves.trans run)

theorem get (lawful : pair.Lawful) {next : Session → CheckM α} {otherNext : Session → CheckM β}
    (rest : pair.Alike world (next (pair.left world)) (otherNext (pair.right world)) good) :
    pair.Alike world (MonadState.get >>= next) (MonadState.get >>= otherNext) good :=
  moved lawful (lawful.refl world) (by rw [runOn_bind, runOn_get, Option.bind_some])
    (by rw [runOn_bind, runOn_get, Option.bind_some]) rest

/-- What follows two steps need only be alike where both have succeeded. -/
theorem bind {γ δ : Type} {next : α → CheckM γ} {otherNext : β → CheckM δ}
    {final : World → γ → δ → Prop} (lawful : pair.Lawful)
    (first : pair.Alike world step other good)
    (rest : ∀ {later value otherValue}, pair.Later world later →
      step.runOn (pair.left world) = some (.ok value, pair.left later) →
        good later value otherValue →
          pair.Alike later (next value) (otherNext otherValue) final) :
    pair.Alike world (step >>= next) (other >>= otherNext) final := by
  have unfolded := runOn_bind step next (pair.left world)
  have otherUnfolded := runOn_bind other otherNext (pair.right world)
  cases first with
  | exhausted run otherRun =>
      rw [run, Option.bind_none] at unfolded
      rw [otherRun, Option.bind_none] at otherUnfolded
      exact .exhausted unfolded otherUnfolded
  | error run otherRun later =>
      rw [run, Option.bind_some] at unfolded
      rw [otherRun, Option.bind_some] at otherUnfolded
      exact .error unfolded otherUnfolded later
  | spared lenient run =>
      rw [run, Option.bind_some] at unfolded
      exact .spared lenient unfolded
  | ok run otherRun later holds =>
      rw [run, Option.bind_some] at unfolded
      rw [otherRun, Option.bind_some] at otherUnfolded
      cases rest later run holds with
      | exhausted second otherSecond =>
          exact .exhausted (unfolded.trans second) (otherUnfolded.trans otherSecond)
      | ok second otherSecond further final =>
          exact .ok (unfolded.trans second) (otherUnfolded.trans otherSecond)
            (lawful.trans later further) final
      | error second otherSecond further =>
          exact .error (unfolded.trans second) (otherUnfolded.trans otherSecond)
            (lawful.trans later further)
      | spared lenient second => exact .spared lenient (unfolded.trans second)

theorem undoing (lawful : pair.Lawful) {undo otherUndo : Session → Session}
    (alike : pair.Alike world step other good)
    (undone : ∀ {later}, pair.Later world later → pair.Reaches later (undo (pair.left later))
      (otherUndo (pair.right later)) fun _ => True) :
    pair.Alike world (CheckM.undoing step undo) (CheckM.undoing other otherUndo) good := by
  have unfolded := runOn_undoing step undo (pair.left world)
  have otherUnfolded := runOn_undoing other otherUndo (pair.right world)
  cases alike with
  | exhausted run otherRun =>
      rw [run] at unfolded
      rw [otherRun] at otherUnfolded
      exact .exhausted unfolded otherUnfolded
  | ok run otherRun later holds =>
      rw [run] at unfolded
      rw [otherRun] at otherUnfolded
      exact .ok unfolded otherUnfolded later holds
  | error run otherRun later =>
      rw [run] at unfolded
      rw [otherRun] at otherUnfolded
      exact of_error unfolded otherUnfolded ((undone later).since lawful later)
  | spared lenient run =>
      rw [run] at unfolded
      exact .spared lenient unfolded

/-- Two runs that are wrapped in the same way on each side. -/
theorem wrapped {start : CheckM α} {otherStart : CheckM β} {inner : World}
    (wrap otherWrap : Session → Session)
    (run : start.runOn (pair.left world) =
      (step.runOn (pair.left inner)).map fun (outcome, reached) => (outcome, wrap reached))
    (otherRun : otherStart.runOn (pair.right world) =
      (other.runOn (pair.right inner)).map fun (outcome, reached) => (outcome, otherWrap reached))
    (alike : pair.Alike inner step other better)
    (reaches : ∀ {reached outcome}, pair.Later inner reached →
      step.runOn (pair.left inner) = some (outcome, pair.left reached) →
        pair.Reaches world (wrap (pair.left reached)) (otherWrap (pair.right reached))
          fun later => ∀ {value otherValue}, better reached value otherValue →
            good later value otherValue) :
    pair.Alike world start otherStart good := by
  cases alike with
  | exhausted first second =>
      rw [first] at run
      rw [second] at otherRun
      exact .exhausted run otherRun
  | ok first second after holds =>
      rw [first] at run
      rw [second] at otherRun
      exact of_ok run otherRun (reaches after first) fun transfer => transfer holds
  | error first second after =>
      rw [first] at run
      rw [second] at otherRun
      exact of_error run otherRun (reaches after first)
  | spared lenient first =>
      rw [first] at run
      exact .spared lenient run

/-- Two steps in new scopes, which are released afterwards. -/
theorem inChild (lawful : pair.Lawful) {scope otherScope : ScopeId}
    (scopes : pair.Scopes world scope otherScope) {inner otherInner : ScopeId → CheckM TypeId}
    (evolves : ∀ {outcome reached},
      (inner ((pair.left world).next scope)).runOn ((pair.left world).opened scope) =
        some (outcome, reached) →
          ((pair.left world).opened scope).Evolves {(pair.left world).next scope} reached)
    (alike : ∀ {opened}, pair.left opened = (pair.left world).opened scope →
      pair.right opened = (pair.right world).opened otherScope → pair.Later world opened →
        pair.Scopes opened ((pair.left world).next scope) ((pair.right world).next otherScope) →
          pair.Alike opened (inner ((pair.left world).next scope))
            (otherInner ((pair.right world).next otherScope)) pair.Types) :
    pair.Alike world (CheckM.inChild scope inner) (CheckM.inChild otherScope otherInner)
      pair.Types := by
  obtain ⟨opened, later, left, right, innerScopes⟩ := lawful.opens scopes
  have run := runOn_inChild_opened scope inner (pair.left world)
  have otherRun := runOn_inChild_opened otherScope otherInner (pair.right world)
  rw [← left] at run
  rw [← right] at otherRun
  refine wrapped (·.closed _) (·.closed _) run otherRun (alike left right later innerScopes)
    fun {reached _} further first => ?_
  rw [left] at first
  exact lawful.closes scopes later left right innerScopes further (left ▸ evolves first)

/-- Two steps during which generic functions count as being checked. -/
theorem guarded (lawful : pair.Lawful) {generic otherGeneric : TypeId}
    (types : pair.Types world generic otherGeneric) {step other : CheckM TypeId}
    (alike : ∀ {entered}, pair.left entered = (pair.left world).entered generic →
      pair.right entered = (pair.right world).entered otherGeneric → pair.Later world entered →
        pair.Alike entered step other pair.Types) :
    pair.Alike world
      (do modify fun session => { session with active := generic :: session.active }
          let outcome ← attempt step
          modify fun session => { session with active := session.active.erase generic }
          CheckM.settle outcome)
      (do modify fun session => { session with active := otherGeneric :: session.active }
          let outcome ← attempt other
          modify fun session => { session with active := session.active.erase otherGeneric }
          CheckM.settle outcome) pair.Types := by
  obtain ⟨entered, later, left, right, _⟩ := lawful.enter types
  have run := runOn_guarded generic step (pair.left world)
  have otherRun := runOn_guarded otherGeneric other (pair.right world)
  rw [← left] at run
  rw [← right] at otherRun
  refine wrapped (·.left generic) (·.left otherGeneric) run otherRun (alike left right later)
    fun {reached _} further _ => ?_
  have all := lawful.trans later further
  obtain ⟨released, after, sides, otherSides, _⟩ := lawful.leave (lawful.types_later all types)
  exact ⟨released, lawful.trans all after, sides, otherSides, fun found =>
    lawful.types_later after found⟩

/-- The same steps for each item of a list. Values found for earlier items have to stay
good while the types grow. -/
theorem mapM {ι : Type} (lawful : pair.Lawful) {items : List ι} {step : ι → CheckM α}
    {other : ι → CheckM β}
    (stable : ∀ {world later value otherValue}, pair.Later world later →
      Registry.Grows (pair.left world).types (pair.left later).types →
        good world value otherValue → good later value otherValue)
    (each : ∀ item ∈ items, ∀ {later}, pair.Later world later →
      pair.Alike later (step item) (other item) fun reached value otherValue =>
        Registry.Grows (pair.left later).types (pair.left reached).types ∧
          good reached value otherValue) :
    pair.Alike world (items.mapM step) (items.mapM other) fun later values otherValues =>
      Registry.Grows (pair.left world).types (pair.left later).types ∧
        List.Forall₂ (good later) values otherValues := by
  induction items generalizing world with
  | nil => exact pure lawful ⟨.refl _, .nil⟩
  | cons item items ih =>
      simp only [List.mapM_cons]
      refine bind lawful (each item List.mem_cons_self (lawful.refl world))
        fun {later value otherValue} first _ found => ?_
      obtain ⟨grows, holds⟩ := found
      have rest := ih fun item among {reached} further =>
        each item (List.mem_cons_of_mem _ among) (lawful.trans first further)
      refine bind lawful rest fun {last values otherValues} second _ found => ?_
      obtain ⟨further, all⟩ := found
      exact pure lawful ⟨grows.trans further, .cons (stable second further holds) all⟩

end Alike

end Correspondence

end TypedLisp
