import TypedLisp.Proofs.Declarations
import TypedLisp.Proofs.Decoding
import TypedLisp.Proofs.Reachable

/-!
# Declared types that are found under their names

A class is made a type before its body is checked, and when the body fails its name is
forgotten while the type stays. The class is then abandoned: no later declaration of the
name leads back to that type. Nothing else forgets a name. So after a check every declared
type is found under its name if this was so before and no class was abandoned on the way,
and only then (`Session.listed_after_typeOf`, `Session.listed_after_checkSource`). The
sessions that are reached without abandoning a class are those that are reached and find every
declared type under its name (`Session.unabandoned_iff`).

In the course of a check, a class is abandoned when the checker that stops there is stopped
(`Checker.sparing`). Two facts on registries carry the comparison with it. A name never
comes to lead to a type that is already there (`Registry.Ages`), so what was lost stays
lost, and a step that forgets no name loses nothing (`Registry.Lists`).
-/

set_option autoImplicit false

namespace TypedLisp

namespace Registry

variable {α : Type} {registry before middle after : Registry}

/-- The second registry comes after the first one: the types stay, and no name has come to
lead to one of them. -/
structure Ages (before after : Registry) : Prop where
  types : ∀ {id : TypeId} {type : Ty}, before.get? id = some type → after.get? id = some type
  names : ∀ {id : TypeId} {type : Ty} {name : String}, before.get? id = some type →
    after.names.get? name = some id → before.names.get? name = some id

namespace Ages

theorem refl (registry : Registry) : Ages registry registry :=
  ⟨fun found => found, fun _ listed => listed⟩

theorem trans (first : Ages before middle) (second : Ages middle after) : Ages before after :=
  ⟨fun found => second.types (first.types found),
    fun found listed => first.names found (second.names (first.types found) listed)⟩

/-- What is not found under its name is not found under it later on. -/
theorem listed (ages : Ages before after) (listed : after.Listed) : before.Listed :=
  fun id type name found declared =>
    ages.names found (listed id type name (ages.types found) declared)

theorem add (registry : Registry) (type : Ty) : Ages registry (registry.add type).2 :=
  ⟨get?_add_of_get?, fun _ listed => listed⟩

/-- A name is declared for a new type. -/
theorem declare (registry : Registry) (name : String) (type : Ty) :
    Ages registry (registry.declare name type).2 := by
  refine ⟨get?_add_of_get?, fun {id content other} found listed => ?_⟩
  rw [get?_names_declare] at listed
  split at listed
  · obtain rfl := Option.some.inj listed
    exact absurd (index_lt_of_get? found) (Nat.lt_irrefl _)
  · exact listed

theorem forget (registry : Registry) (name : String) : Ages registry (registry.forget name) := by
  refine ⟨fun found => found, fun {id content other} _ listed => ?_⟩
  rw [Registry.forget, NameTable.get?_erase] at listed
  split at listed
  · cases listed
  · exact listed

end Ages

/-- The second registry comes after the first one, and no declared type has been lost. -/
structure Lists (before after : Registry) : Prop extends Ages before after where
  lists : before.Listed → after.Listed

namespace Lists

theorem refl (registry : Registry) : Lists registry registry :=
  { Ages.refl registry with lists := fun listed => listed }

theorem trans (first : Lists before middle) (second : Lists middle after) : Lists before after :=
  { first.toAges.trans second.toAges with
    lists := fun listed => second.lists (first.lists listed) }

/-- A type without a declared name is added. -/
theorem add {type : Ty} (undeclared : type.declaredName? = none) (registry : Registry) :
    Lists registry (registry.add type).2 where
  toAges := .add registry type
  lists listed id content name found declared := by
    rw [get?_add] at found
    split at found
    · obtain rfl := Option.some.inj found
      rw [undeclared] at declared
      cases declared
    · exact listed id content name found declared

theorem declare {name : String} {type : Ty} (declares : type.declaredName? = some name)
    (free : registry.names.get? name = none) : Lists registry (registry.declare name type).2 :=
  { Ages.declare registry name type with
    lists := fun listed => listed.declare declares free }

theorem function (registry : Registry) (parameters : List TypeId) (result : TypeId) :
    Lists registry (registry.function parameters result).2 := by
  unfold Registry.function
  dsimp only
  split
  · exact .refl registry
  · have added : Lists registry (registry.add
        (.function ⟨registry.functionName parameters result, parameters, result⟩)).2 :=
      .add rfl registry
    exact ⟨⟨added.types, added.names⟩, added.lists⟩

theorem resolve (text : String) (registry : Registry) :
    Lists registry ((resolve text).run.run registry).2 := by
  have kept : Preserves (Lists registry) (resolveChars text.toList) := by
    apply Preserves.resolveChars
    · intro reached parameters result lists
      exact lists.trans (.function reached parameters result)
    · intro reached text id lists
      exact ⟨⟨lists.types, lists.names⟩, lists.lists⟩
  exact kept registry (.refl registry)

theorem mapM_resolve (texts : List String) (registry : Registry) :
    Lists registry ((texts.mapM Registry.resolve).run.run registry).2 := by
  have kept : Preserves (Lists registry) (texts.mapM Registry.resolve) :=
    .mapM fun text _ reached lists => lists.trans (.resolve text reached)
  exact kept registry (.refl registry)

/-- A declaration claims its name, makes what it needs, and declares the name. -/
theorem of_claim {make : RegistryM α} (unnaming : Unnaming make)
    (makes : ∀ registry, Lists registry (make.run.run registry).2) {content : α → Ty}
    {name : String} (declares : ∀ value, (content value).declaredName? = some name)
    (registry : Registry) :
    Lists registry
      ((do claim name
           let value ← make
           modifyGet fun registry => registry.declare name (content value) :
        RegistryM TypeId).run.run registry).2 := by
  rw [run_bind, run_claim]
  by_cases taken : registry.names.contains name = true
  · rw [if_pos taken]
    exact .refl registry
  · rw [if_neg taken]
    dsimp only
    rw [run_bind]
    have same := unnaming registry
    have made := makes registry
    cases ran : make.run.run registry with
    | mk outcome middle =>
        rw [ran] at same made
        cases outcome with
        | error fault => exact made
        | ok value =>
            refine made.trans (.declare (declares value) ?_)
            exact (congrArg (NameTable.get? · name) same).trans (get?_names_of_contains taken)

end Lists

end Registry

/-! ## Checks that are stopped where a class is abandoned -/

namespace CheckM

/-- The rule of the checks that are stopped where a class is abandoned: without a stop no
declared type is lost, and with a stop one is. -/
def losingRule : StopRule where
  always := Registry.Ages
  spared before after := before.Listed → after.Listed
  struck _ after := ¬ after.Listed
  always_trans := Registry.Ages.trans
  spared_trans first second listed := second (first listed)
  struck_later lost ages listed := lost (ages.listed listed)
  struck_earlier _ lost := lost

theorem quiet_losingRule {before after : Registry} (lists : before.Lists after) :
    losingRule.Quiet before after :=
  ⟨lists.toAges, lists.lists⟩

theorem congruence_losingRule :
    Congruence fun session step stopped => Obeys losingRule session step stopped := by
  apply Obeys.congruence
  · exact fun registry => quiet_losingRule (.refl registry)
  · exact fun text registry => quiet_losingRule (.resolve text registry)
  · exact fun registry parameters result => quiet_losingRule (.function registry parameters result)
  · exact fun registry _ => quiet_losingRule (.add rfl registry)

end CheckM

/-! ## The rules -/

namespace Checker

open CheckM

variable {visit stopped : Expr → ScopeId → CheckM TypeId} {session reached : Session}
  {scope : ScopeId}

/-- Checking with stops where classes are abandoned. -/
def SparesVisit (visit stopped : Expr → ScopeId → CheckM TypeId) : Prop :=
  ∀ (expression : Expr) (scope : ScopeId) (session : Session),
    Obeys losingRule session (visit expression scope) (stopped expression scope)

theorem SparesVisit.checkBody (spares : SparesVisit visit stopped) (body : Expr)
    (scope : ScopeId) (session : Session) :
    Obeys losingRule session (checkBody visit body scope) (checkBody stopped body scope) :=
  congruence_losingRule.compatible.checkBody spares body scope

theorem register_lists (name : String) (base : TypeBase) (registry : Registry) :
    registry.Lists ((register name base).run.run registry).2 := by
  cases base with
  | «alias» parent =>
      exact Registry.Lists.of_claim (Registry.Unnaming.resolve parent) (.resolve parent)
        (fun _ => rfl) registry
  | union members =>
      exact Registry.Lists.of_claim
        (Registry.Unnaming.mapM fun text _ => Registry.Unnaming.resolve text)
        (.mapM_resolve members) (fun _ => rfl) registry

theorem checkTypeDecl_spares (name : String) (base : TypeBase) (expression : Expr) :
    Obeys losingRule session (checkTypeDecl name base expression)
      (checkTypeDecl name base expression) := by
  rw [checkTypeDecl_eq]
  refine .bind (.of_runOn (runOn_registering expression _ _) ?_) fun _ _ => ?_
  · exact quiet_losingRule (register_lists name base session.types)
  · exact .bind (congruence_losingRule.emit _) fun _ _ => congruence_losingRule.pure _

/-- A class whose body fails is still a type, and its name is forgotten. -/
theorem bindClass_loses (spares : SparesVisit visit stopped) {name : String} {body : Expr}
    {inner : ScopeId} {type : TypeId} {content : Ty} {error : Error}
    (found : session.types.get? type = some content)
    (run : (bindClass visit name body scope inner type).runOn session =
      some (.error error, reached)) :
    reached.types.get? type = some content ∧ reached.types.names.get? name = none := by
  refine ⟨?_, bindClass_forgets run⟩
  rw [runOn_bindClass] at run
  obtain ⟨⟨outcome, ended⟩, ran, same⟩ := Option.map_eq_some_iff.1 run
  cases outcome with
  | ok _ => cases same
  | error _ =>
      obtain ⟨_, rfl⟩ := Prod.mk.inj same
      exact ((spares.checkBody body inner _).always ran).types found

/-- The types after the declaration of a class come after those before it. -/
theorem bindClass_ages (spares : SparesVisit visit stopped) {name : String} {body : Expr}
    {inner : ScopeId} {type : TypeId} {outcome : Except Error TypeId}
    (run : (bindClass visit name body scope inner type).runOn session = some (outcome, reached)) :
    session.types.Ages reached.types := by
  rw [runOn_bindClass] at run
  obtain ⟨⟨bodyOutcome, ended⟩, ran, same⟩ := Option.map_eq_some_iff.1 run
  have ages := (spares.checkBody body inner _).always ran
  cases bodyOutcome with
  | ok _ =>
      obtain ⟨_, rfl⟩ := Prod.mk.inj same
      exact ages
  | error _ =>
      obtain ⟨_, rfl⟩ := Prod.mk.inj same
      exact ages.trans (.forget _ name)

/-- A class whose body does not fail forgets no name of its own. -/
theorem bindClass_spares (spares : SparesVisit visit stopped) {name : String} {body : Expr}
    {inner : ScopeId} {type : TypeId}
    (completes : ∀ error reached,
      (bindClass visit name body scope inner type).runOn session ≠ some (.error error, reached)) :
    Obeys losingRule session (bindClass visit name body scope inner type)
      (bindClass stopped name body scope inner type) := by
  have within := spares.checkBody body inner { session with
    scopes := session.scopes.define scope name type
    events := .declaredClass name :: session.events }
  refine ⟨fun {ended} run => ?_, bindClass_ages spares, fun {outcome last} run => ?_,
    fun {outcome last} run none => ?_⟩
  · rw [runOn_bindClass] at run ⊢
    obtain ⟨bodyEnded, ran, same⟩ := Option.map_eq_some_iff.1 run
    rw [within.refines ran, ← same]
    rfl
  · rw [runOn_bindClass] at run
    obtain ⟨⟨bodyOutcome, ended⟩, ran, same⟩ := Option.map_eq_some_iff.1 run
    cases bodyOutcome with
    | ok _ =>
        obtain ⟨_, rfl⟩ := Prod.mk.inj same
        exact within.spared ran
    | error error =>
        refine absurd ?_ (completes error last)
        obtain ⟨_, rfl⟩ := Prod.mk.inj same
        rw [runOn_bindClass, within.refines ran]
        rfl
  · rw [runOn_bindClass] at none
    have stop := Option.map_eq_none_iff.1 none
    have ran := run
    rw [runOn_bindClass] at ran
    obtain ⟨⟨bodyOutcome, ended⟩, bodyRan, same⟩ := Option.map_eq_some_iff.1 ran
    cases bodyOutcome with
    | ok _ =>
        obtain ⟨_, rfl⟩ := Prod.mk.inj same
        exact within.struck bodyRan stop
    | error error =>
        obtain ⟨rfl, _⟩ := Prod.mk.inj same
        exact absurd run (completes error last)

theorem lists_withClass {name : String} (parent : Option TypeId)
    (free : session.types.names.get? name = none) :
    session.types.Lists (session.withClass name parent scope).types :=
  .declare rfl free

/-- A class that fails after it was made a type is lost. -/
theorem checkClassDecl_loses (spares : SparesVisit visit stopped) {name : String}
    {superclass : Option String} {body expression : Expr} {error : Error}
    (run : (checkClassDecl visit name superclass body scope expression).runOn session =
      some (.error error, reached))
    (larger : session.types.types.size < reached.types.types.size) :
    session.types.Ages reached.types ∧ ¬ reached.types.Listed := by
  cases classStart name superclass body scope expression session with
  | refused _ unchanged runs =>
      obtain ⟨_, rfl⟩ := Prod.mk.inj (Option.some.inj ((runs visit).symm.trans run))
      rcases unchanged with rfl | rfl
      · exact absurd larger (Nat.lt_irrefl _)
      · exact absurd larger (Nat.lt_irrefl _)
  | @opened parent asked free runs =>
      rw [runs] at run
      obtain ⟨there, forgotten⟩ := bindClass_loses spares
        (Session.get?_withClass session name parent scope) run
      refine ⟨(lists_withClass parent free).toAges.trans (bindClass_ages spares run), ?_⟩
      intro listed
      rw [listed _ _ name there rfl] at forgotten
      cases forgotten

theorem checkClassDecl_spares (spares : SparesVisit visit stopped) {name : String}
    {superclass : Option String} {body expression : Expr}
    (kept : ∀ error reached,
      (checkClassDecl visit name superclass body scope expression).runOn session =
        some (.error error, reached) → ¬ session.types.types.size < reached.types.types.size) :
    Obeys losingRule session (checkClassDecl visit name superclass body scope expression)
      (checkClassDecl stopped name superclass body scope expression) := by
  cases classStart name superclass body scope expression session with
  | @refused error ended unchanged runs =>
      have fails : Obeys losingRule ended (MonadExcept.throw error : CheckM TypeId)
          (MonadExcept.throw error) := congruence_losingRule.throw error
      refine fails.moved ((runs visit).trans (runOn_throw error ended).symm)
        ((runs stopped).trans (runOn_throw error ended).symm) (quiet_losingRule ?_)
      rcases unchanged with rfl | rfl
      · exact .refl _
      · exact .refl _
  | @opened parent asked free runs =>
      refine .moved (runs visit) (runs stopped) (quiet_losingRule (lists_withClass parent free))
        (bindClass_spares spares fun error reached run => ?_)
      obtain ⟨there, _⟩ := bindClass_loses spares
        (Session.get?_withClass session name parent scope) run
      exact kept error reached ((runs visit).trans run) (Registry.index_lt_of_get? there)

/-! ## The course of a check -/

/-- A check declares a class, makes it a type, and fails. -/
def Abandons (depth : Nat) (expression : Expr) (scope : ScopeId) (session : Session) : Prop :=
  (∃ name superclass body, Form.classify expression = .ok (.classDecl name superclass body)) ∧
    ∃ error reached, (typeOf depth expression scope).runOn session = some (.error error, reached) ∧
      session.types.types.size < reached.types.types.size

open Classical in
/-- The checker that stops, without an outcome, where a class is abandoned. -/
noncomputable def sparing : Nat → Expr → ScopeId → CheckM TypeId
  | 0, _, _ => exhausted
  | depth + 1, expression, scope => do
      if Abandons (depth + 1) expression scope (← get) then exhausted
      else checkExpr (sparing depth) expression scope

theorem checkExpr_spares (spares : SparesVisit visit stopped) {expression : Expr}
    (kept : ∀ name superclass body,
      Form.classify expression = .ok (.classDecl name superclass body) → ∀ error reached,
        (checkExpr visit expression scope).runOn session = some (.error error, reached) →
          ¬ session.types.types.size < reached.types.types.size) :
    Obeys losingRule session (checkExpr visit expression scope)
      (checkExpr stopped expression scope) := by
  cases classified : Form.classify expression with
  | error error =>
      exact .moved (runOn_checkExpr_of_error classified) (runOn_checkExpr_of_error classified)
        (quiet_losingRule (.refl _)) (congruence_losingRule.throw error)
  | ok form =>
      refine .moved (runOn_checkExpr classified) (runOn_checkExpr classified)
        (quiet_losingRule (.refl _)) (congruence_losingRule.checkForm spares ?_ ?_)
      · rintro name base rfl
        exact checkTypeDecl_spares name base expression
      · rintro name superclass body rfl
        refine checkClassDecl_spares spares fun error reached run => ?_
        exact kept name superclass body classified error reached
          ((runOn_checkExpr classified).trans run)

/-- By induction on the depth. A call that abandons a class is stopped, and every other call
is checked like any other and its parts may be stopped. -/
theorem typeOf_spares (depth : Nat) : SparesVisit (typeOf depth) (sparing depth) := by
  induction depth with
  | zero =>
      intro expression scope session
      exact .unstopped rfl fun run => by cases run
  | succ depth ih =>
      intro expression scope session
      by_cases abandons : Abandons (depth + 1) expression scope session
      · have stop : (sparing (depth + 1) expression scope).runOn session = none := by
          simp only [sparing, runOn_bind, runOn_get, Option.bind_some, if_pos abandons,
            runOn_exhausted]
        obtain ⟨⟨name, superclass, body, classified⟩, error, ended, ran, larger⟩ := abandons
        have lost := checkClassDecl_loses ih ((runOn_checkExpr classified).symm.trans ran) larger
        refine ⟨fun run => ?_, fun run => ?_, fun run => ?_, fun run _ => ?_⟩
        · rw [stop] at run
          cases run
        · obtain ⟨_, rfl⟩ := Prod.mk.inj (Option.some.inj (ran.symm.trans run))
          exact lost.1
        · rw [stop] at run
          cases run
        · obtain ⟨_, rfl⟩ := Prod.mk.inj (Option.some.inj (ran.symm.trans run))
          exact lost.2
      · have goes : (sparing (depth + 1) expression scope).runOn session =
            (checkExpr (sparing depth) expression scope).runOn session := by
          simp only [sparing, runOn_bind, runOn_get, Option.bind_some, if_neg abandons]
        refine .moved rfl goes (quiet_losingRule (.refl _)) (checkExpr_spares ih ?_)
        intro name superclass body classified error reached ran larger
        exact abandons ⟨⟨name, superclass, body, classified⟩, error, reached, ran, larger⟩

end Checker

namespace CheckM

/-- After a step no declared type is lost exactly when none was before and nothing stops the
step with stops. -/
theorem Obeys.listed_iff {α : Type} {step stopped : CheckM α} {session reached : Session}
    {outcome : Except Error α} (obeys : Obeys losingRule session step stopped)
    (run : step.runOn session = some (outcome, reached)) :
    reached.types.Listed ↔ session.types.Listed ∧ stopped.runOn session ≠ none := by
  constructor
  · intro listed
    exact ⟨(obeys.always run).listed listed, fun stop => obeys.struck run stop listed⟩
  · rintro ⟨listed, goes⟩
    obtain ⟨ended, ran⟩ := Option.ne_none_iff_exists'.1 goes
    obtain rfl := Option.some.inj ((obeys.refines ran).symm.trans run)
    exact obeys.spared ran listed

end CheckM

namespace Session

variable {session reached : Session} {outcome : Except Error TypeId}

/-- Within the check of an expression, a class is abandoned: the checker that stops there is
stopped. -/
def AbandonsWithin (session : Session) (expression : Expr) (scope : ScopeId) : Prop :=
  (Checker.sparing (session.depthBound expression) expression scope).runOn session = none

/-- Within the check of a program, a class is abandoned. -/
def AbandonsInProgram (session : Session) (program : Expr) : Prop :=
  (Checker.checkBody (Checker.sparing (session.depthBound program)) program .global).runOn
    session = none

/-- Within the check of a source text, a class is abandoned. -/
def AbandonsInSource (session : Session) (source : String) : Prop :=
  ∃ program, Expr.readProgram source none = .ok program ∧ session.AbandonsInProgram program

/-- **After a check every declared type is found under its name exactly when this was so
before and no class was abandoned on the way.** -/
theorem listed_after_typeOf {expression : Expr} {scope : ScopeId}
    (run : session.typeOf expression scope = some (outcome, reached)) :
    reached.types.Listed ↔ session.types.Listed ∧ ¬ session.AbandonsWithin expression scope :=
  (Checker.typeOf_spares _ expression scope session).listed_iff run

theorem listed_after_typeOfProgram {program : Expr}
    (run : session.typeOfProgram program = some (outcome, reached)) :
    reached.types.Listed ↔ session.types.Listed ∧ ¬ session.AbandonsInProgram program :=
  ((Checker.typeOf_spares _).checkBody program .global session).listed_iff run

theorem listed_after_checkSource {source : String}
    (run : session.checkSource source = some (outcome, reached)) :
    reached.types.Listed ↔ session.types.Listed ∧ ¬ session.AbandonsInSource source := by
  unfold checkSource at run
  unfold AbandonsInSource
  cases read : Expr.readProgram source none with
  | error error =>
      rw [read] at run
      obtain ⟨_, rfl⟩ := Prod.mk.inj (Option.some.inj run)
      simp
  | ok program =>
      rw [read] at run
      rw [listed_after_typeOfProgram run]
      simp

/-- A class whose constructor has a wrong type is abandoned, and the corrected one is not. -/
theorem abandonsInSource_wrong_constructor :
    (initial true).AbandonsInSource "(class A null (def constructor ((self A)) -> A 1))" ∧
      ¬ (initial true).AbandonsInSource
        "(class A null (def constructor ((self A)) -> A self))" := by
  have wrong : (((initial true).checkSource
      "(class A null (def constructor ((self A)) -> A 1))").any
        fun ended => decide (¬ ended.2.types.Listed)) = true := by
    decide +kernel
  have corrected : (((initial true).checkSource
      "(class A null (def constructor ((self A)) -> A self))").any
        fun ended => decide ended.2.types.Listed) = true := by
    decide +kernel
  obtain ⟨⟨_, reached⟩, run, lost⟩ := (Option.any_eq_true _ _).1 wrong
  obtain ⟨⟨_, last⟩, correctedRun, listed⟩ := (Option.any_eq_true _ _).1 corrected
  constructor
  · by_contra spared
    exact of_decide_eq_true lost ((listed_after_checkSource run).2 ⟨by decide, spared⟩)
  · exact ((listed_after_checkSource correctedRun).1 (of_decide_eq_true listed)).2

/-- The sessions that are reached from a new one with no class abandoned on the way. -/
inductive Unabandoned : Session → Prop where
  | initial (builtins : Bool) : Unabandoned (initial builtins)
  | checkSource {session reached : Session} {outcome : Except Error TypeId} (source : String) :
      Unabandoned session → session.checkSource source = some (outcome, reached) →
        ¬ session.AbandonsInSource source → Unabandoned reached
  | typeOfProgram {session reached : Session} {outcome : Except Error TypeId} (program : Expr) :
      Unabandoned session → session.typeOfProgram program = some (outcome, reached) →
        ¬ session.AbandonsInProgram program → Unabandoned reached
  | typeOf {session reached : Session} {outcome : Except Error TypeId} (expression : Expr)
      {scope : ScopeId} : Unabandoned session → session.scopes.isLive scope = true →
        session.typeOf expression scope = some (outcome, reached) →
          ¬ session.AbandonsWithin expression scope → Unabandoned reached

theorem Unabandoned.reachable (unabandoned : session.Unabandoned) : session.Reachable := by
  induction unabandoned with
  | initial builtins => exact .initial builtins
  | checkSource source _ run _ ih => exact ih.checkSource source run
  | typeOfProgram program _ run _ ih => exact ih.typeOfProgram program run
  | typeOf expression _ live run _ ih => exact ih.typeOf expression live run

theorem listed_initial (builtins : Bool) : (initial builtins).types.Listed := by
  cases builtins <;> decide

/-- **As long as no class is abandoned, every declared type is found under its name.** -/
theorem Unabandoned.listed (unabandoned : session.Unabandoned) : session.types.Listed := by
  induction unabandoned with
  | initial builtins => exact listed_initial builtins
  | checkSource source _ run spared ih => exact (listed_after_checkSource run).2 ⟨ih, spared⟩
  | typeOfProgram program _ run spared ih => exact (listed_after_typeOfProgram run).2 ⟨ih, spared⟩
  | typeOf expression _ _ run spared ih => exact (listed_after_typeOf run).2 ⟨ih, spared⟩

/-- **And only then.** What is lost on the way stays lost, so that a session in which every
declared type is found was reached through such sessions alone. -/
theorem unabandoned_iff :
    session.Unabandoned ↔ session.Reachable ∧ session.types.Listed := by
  constructor
  · exact fun unabandoned => ⟨unabandoned.reachable, unabandoned.listed⟩
  · rintro ⟨reachable, listed⟩
    induction reachable with
    | initial builtins => exact .initial builtins
    | checkSource source _ run ih =>
        obtain ⟨earlier, spared⟩ := (listed_after_checkSource run).1 listed
        exact (ih earlier).checkSource source run spared
    | typeOfProgram program _ run ih =>
        obtain ⟨earlier, spared⟩ := (listed_after_typeOfProgram run).1 listed
        exact (ih earlier).typeOfProgram program run spared
    | typeOf expression _ live run ih =>
        obtain ⟨earlier, spared⟩ := (listed_after_typeOf run).1 listed
        exact (ih earlier).typeOf expression live run spared

end Session

end TypedLisp
