import TypedLisp.Checker.Depth
import TypedLisp.Proofs.Congruence
import TypedLisp.Proofs.RuleSoundness
import TypedLisp.Proofs.Weight

/-!
# What checking adds to the declared names

Only the declarations of types and classes add declared names, and a name that is added
stays, unless it is that of a class that fails. So after a check a name leads to a type
if it did so before, or if a declaration of that name was completed with that type in the
course of the check (`Session.names_after_typeOf`), whether the check succeeds or not.

To say what happens in the course of a check, it is compared with a checker that stops
without an outcome at the first call that declares the name and completes with the type
(`Checker.stoppingAt`). A check that is not stopped leads the name to no new type, and
one that is stopped would have ended with the name leading to the type
(`CheckM.Tracks`). What such a comparison needs is a rule for the types before and after a
step (`StopRule`), and then it is a congruence (`CheckM.Obeys.congruence`), so only the rules
that declare a type or a class have to be looked at.
-/

set_option autoImplicit false

namespace TypedLisp

/-! ## What the steps of a registry keep -/

namespace Registry

variable {α β : Type} {registry : Registry} {holds : Registry → Prop}

/-- A step keeps a property of registries, whether it fails or not. -/
def Preserves (holds : Registry → Prop) (step : RegistryM α) : Prop :=
  ∀ registry, holds registry → holds (step.run.run registry).2

namespace Preserves

theorem bind {step : RegistryM α} {next : α → RegistryM β} (first : Preserves holds step)
    (rest : ∀ value, Preserves holds (next value)) : Preserves holds (step >>= next) := by
  intro registry held
  have middleHeld := first registry held
  rw [run_bind]
  cases ran : step.run.run registry with
  | mk outcome middle =>
      rw [ran] at middleHeld
      cases outcome with
      | error fault => exact middleHeld
      | ok value => exact rest value middle middleHeld

theorem mapM {step : α → RegistryM β} {items : List α}
    (each : ∀ item ∈ items, Preserves holds (step item)) : Preserves holds (items.mapM step) := by
  induction items with
  | nil => exact fun registry held => held
  | cons item items ih =>
      rw [List.mapM_cons]
      refine bind (each item List.mem_cons_self) fun value => ?_
      refine bind (ih fun other among => each other (List.mem_cons_of_mem _ among)) fun values => ?_
      exact fun registry held => held

/-- Resolution only makes function types and spellings of them. -/
theorem resolveChars
    (function : ∀ {registry : Registry} (parameters : List TypeId) (result : TypeId),
      holds registry → holds (registry.function parameters result).2)
    (spell : ∀ {registry : Registry} (text : String) (id : TypeId), holds registry →
      holds (registry.spell text id)) (text : List Char) :
    Preserves holds (resolveChars text) := by
  induction size : text.length using Nat.strongRecOn generalizing text with
  | ind size ih =>
      rw [resolveChars_eq]
      refine bind (fun registry held => held) fun registry => ?_
      split
      · exact fun registry held => held
      split
      · exact fun registry held => held
      rename_i parameters result found
      have shorter := TypeText.length_lt_of_functionParts? found
      have trimmed := Text.length_trim_le text
      have part : ∀ piece : List Char, piece.length < (Text.trim text).length →
          Preserves holds (Registry.resolveChars piece) := by
        intro piece less
        exact ih piece.length (by omega) piece rfl
      refine bind (mapM fun piece among => part piece (shorter.1 piece among)) fun types => ?_
      refine bind (part result shorter.2) fun type => ?_
      refine bind (fun registry held => function types type held) fun id => ?_
      exact bind (fun registry held => spell _ id held) fun _ registry held => held

end Preserves

/-- A step declares no name. -/
def Unnaming (step : RegistryM α) : Prop :=
  ∀ registry, (step.run.run registry).2.names = registry.names

theorem Unnaming.mapM {step : α → RegistryM β} {items : List α}
    (each : ∀ item ∈ items, Unnaming (step item)) : Unnaming (items.mapM step) := by
  intro registry
  have kept : Preserves (·.names = registry.names) (items.mapM step) :=
    .mapM fun item among reached same => (each item among reached).trans same
  exact kept registry rfl

theorem names_function (registry : Registry) (parameters : List TypeId) (result : TypeId) :
    (registry.function parameters result).2.names = registry.names := by
  unfold Registry.function
  dsimp only
  split
  · rfl
  · rfl

theorem Unnaming.resolve (text : String) : Unnaming (resolve text) := by
  intro registry
  have kept : Preserves (·.names = registry.names) (resolveChars text.toList) := by
    apply Preserves.resolveChars
    · intro reached parameters result same
      exact (names_function reached parameters result).trans same
    · exact fun _ _ same => same
  exact kept registry rfl

/-- What the declaration of a name does to the declared names: nothing when it fails, and
when it succeeds the name, which was free, leads to the new type. -/
inductive Names (name : String) (before : Registry) : Except Fault TypeId → Registry → Prop where
  | failed {fault : Fault} {after : Registry} :
      after.names = before.names → Names name before (.error fault) after
  | made {id : TypeId} {after : Registry} :
      before.names.get? name = none → after.names = before.names.insert name id →
        Names name before (.ok id) after

/-- A declaration claims its name, makes what it needs, and declares the name. -/
theorem names_of_claim {make : RegistryM α} (unnaming : Unnaming make) (content : α → Ty)
    (name : String) (registry : Registry) :
    Names name registry
      ((do claim name
           let value ← make
           modifyGet fun registry => registry.declare name (content value) :
        RegistryM TypeId).run.run registry).1
      ((do claim name
           let value ← make
           modifyGet fun registry => registry.declare name (content value) :
        RegistryM TypeId).run.run registry).2 := by
  rw [run_bind, run_claim]
  by_cases taken : registry.names.contains name = true
  · rw [if_pos taken]
    exact .failed rfl
  · rw [if_neg taken]
    dsimp only
    rw [run_bind]
    have same := unnaming registry
    cases ran : make.run.run registry with
    | mk outcome middle =>
        rw [ran] at same
        cases outcome with
        | error fault => exact .failed same
        | ok value =>
            refine .made (get?_names_of_contains taken) ?_
            exact congrArg (NameTable.insert · name _) same

end Registry

/-! ## Checks that are stopped -/

/-- What the comparison of a step with the same step with stops tells of the types before and
after it: what holds in any case, what holds when it is not stopped, and what holds when it
is stopped. A stop at any time tells of the whole run. -/
structure StopRule where
  always : Registry → Registry → Prop
  spared : Registry → Registry → Prop
  struck : Registry → Registry → Prop
  always_trans : ∀ {first second third}, always first second → always second third →
    always first third
  spared_trans : ∀ {first second third}, spared first second → spared second third →
    spared first third
  struck_later : ∀ {first second third}, struck first second → always second third →
    struck first third
  struck_earlier : ∀ {first second third}, always first second → struck second third →
    struck first third

/-- A change of the types that calls for no stop. -/
def StopRule.Quiet (rule : StopRule) (before after : Registry) : Prop :=
  rule.always before after ∧ rule.spared before after

namespace CheckM

variable {α β : Type} {name : String} {id : TypeId} {session : Session}

/-- A step and the same step with stops on the way, which a rule describes. -/
structure Obeys (rule : StopRule) (session : Session) (step stopped : CheckM α) : Prop where
  refines : ∀ {ended}, stopped.runOn session = some ended → step.runOn session = some ended
  always : ∀ {outcome reached}, step.runOn session = some (outcome, reached) →
    rule.always session.types reached.types
  spared : ∀ {outcome reached}, stopped.runOn session = some (outcome, reached) →
    rule.spared session.types reached.types
  struck : ∀ {outcome reached}, step.runOn session = some (outcome, reached) →
    stopped.runOn session = none → rule.struck session.types reached.types

namespace Obeys

variable {rule : StopRule}

/-- A step that is not stopped on the way. -/
theorem unstopped {step stopped : CheckM α} (agree : stopped.runOn session = step.runOn session)
    (quiet : ∀ {outcome reached}, step.runOn session = some (outcome, reached) →
      rule.Quiet session.types reached.types) : Obeys rule session step stopped where
  refines run := agree ▸ run
  always run := (quiet run).1
  spared run := (quiet (agree ▸ run)).2
  struck run none := by
    rw [← agree, none] at run
    cases run

theorem of_runOn {step : CheckM α} {outcome : Except Error α} {reached : Session}
    (run : step.runOn session = some (outcome, reached))
    (quiet : rule.Quiet session.types reached.types) : Obeys rule session step step := by
  refine unstopped rfl fun ran => ?_
  obtain ⟨_, rfl⟩ := Prod.mk.inj (Option.some.inj (run.symm.trans ran))
  exact quiet

/-- Steps that go on as others do from a later session. -/
theorem moved {start : Session} {step stopped first firstStopped : CheckM α}
    (agree : step.runOn session = first.runOn start)
    (agreeStopped : stopped.runOn session = firstStopped.runOn start)
    (quiet : rule.Quiet session.types start.types) (obeys : Obeys rule start first firstStopped) :
    Obeys rule session step stopped where
  refines run := agree.trans (obeys.refines (agreeStopped ▸ run))
  always run := rule.always_trans quiet.1 (obeys.always (agree ▸ run))
  spared run := rule.spared_trans quiet.2 (obeys.spared (agreeStopped ▸ run))
  struck run none := rule.struck_earlier quiet.1 (obeys.struck (agree ▸ run) (agreeStopped ▸ none))

theorem bind {step stopped : CheckM α} {next stoppedNext : α → CheckM β}
    (first : Obeys rule session step stopped)
    (rest : ∀ value reached, Obeys rule reached (next value) (stoppedNext value)) :
    Obeys rule session (step >>= next) (stopped >>= stoppedNext) where
  refines run := by
    rw [runOn_bind] at run ⊢
    obtain ⟨⟨outcome, middle⟩, ran, followed⟩ := Option.bind_eq_some_iff.1 run
    rw [first.refines ran]
    cases outcome with
    | ok value => exact (rest value middle).refines followed
    | error error => exact followed
  always run := by
    rw [runOn_bind] at run
    obtain ⟨⟨outcome, middle⟩, ran, followed⟩ := Option.bind_eq_some_iff.1 run
    cases outcome with
    | ok value => exact rule.always_trans (first.always ran) ((rest value middle).always followed)
    | error error =>
        obtain ⟨_, rfl⟩ := Prod.mk.inj (Option.some.inj followed)
        exact first.always ran
  spared run := by
    rw [runOn_bind] at run
    obtain ⟨⟨outcome, middle⟩, ran, followed⟩ := Option.bind_eq_some_iff.1 run
    cases outcome with
    | ok value => exact rule.spared_trans (first.spared ran) ((rest value middle).spared followed)
    | error error =>
        obtain ⟨_, rfl⟩ := Prod.mk.inj (Option.some.inj followed)
        exact first.spared ran
  struck run none := by
    rw [runOn_bind] at run none
    obtain ⟨⟨outcome, middle⟩, ran, followed⟩ := Option.bind_eq_some_iff.1 run
    cases stop : stopped.runOn session with
    | none =>
        -- stopped in the first step: what is struck stays so in the second one
        have struck := first.struck ran stop
        cases outcome with
        | ok value => exact rule.struck_later struck ((rest value middle).always followed)
        | error error =>
            obtain ⟨_, rfl⟩ := Prod.mk.inj (Option.some.inj followed)
            exact struck
    | some ended =>
        obtain rfl := Option.some.inj ((first.refines stop).symm.trans ran)
        rw [stop, Option.bind_some] at none
        cases outcome with
        | error error => cases none
        | ok value =>
            exact rule.struck_earlier (first.always ran) ((rest value middle).struck followed none)

theorem attempt {step stopped : CheckM α} (obeys : Obeys rule session step stopped) :
    Obeys rule session (attempt step) (attempt stopped) where
  refines run := by
    rw [runOn_attempt] at run ⊢
    obtain ⟨ended, ran, same⟩ := Option.map_eq_some_iff.1 run
    rw [obeys.refines ran, ← same]
    rfl
  always run := by
    rw [runOn_attempt] at run
    obtain ⟨⟨outcome, middle⟩, ran, same⟩ := Option.map_eq_some_iff.1 run
    obtain ⟨_, rfl⟩ := Prod.mk.inj same
    exact obeys.always ran
  spared run := by
    rw [runOn_attempt] at run
    obtain ⟨⟨outcome, middle⟩, ran, same⟩ := Option.map_eq_some_iff.1 run
    obtain ⟨_, rfl⟩ := Prod.mk.inj same
    exact obeys.spared ran
  struck run none := by
    rw [runOn_attempt] at run none
    obtain ⟨⟨outcome, middle⟩, ran, same⟩ := Option.map_eq_some_iff.1 run
    obtain ⟨_, rfl⟩ := Prod.mk.inj same
    exact obeys.struck ran (Option.map_eq_none_iff.1 none)

/-- Only declarations are stopped, if nothing else calls for it. -/
theorem congruence (still : ∀ registry, rule.Quiet registry registry)
    (resolve : ∀ text registry,
      rule.Quiet registry ((Registry.resolve text).run.run registry).2)
    (function : ∀ registry parameters result,
      rule.Quiet registry (registry.function parameters result).2)
    (addTemplate : ∀ registry template, rule.Quiet registry (registry.addTemplate template).2) :
    Congruence fun session step stopped => Obeys rule session step stopped where
  still change same := of_runOn (runOn_modifyGet change _) (by rw [same]; exact still _)
  throw error := of_runOn (runOn_throw error _) (still _)
  bind := bind
  attempt := attempt
  resolve expression text := of_runOn (runOn_registering expression _ _) (resolve text _)
  function parameters result := of_runOn (runOn_modifyGet _ _) (function _ parameters result)
  addTemplate template := of_runOn (runOn_modifyGet _ _) (addTemplate _ template)

end Obeys

/-! ## Checks that are stopped at a declaration -/

/-- A step and the same step with stops on the way to a name leading to a type. What the
name leads to stays. Without a stop, the steps end in the same way and the name leads to
the type only if it did before. With a stop, the name leads nowhere at the start and to
the type at the end. -/
structure Tracks (name : String) (id : TypeId) (session : Session) (step stopped : CheckM α) :
    Prop where
  refines : ∀ {ended}, stopped.runOn session = some ended → step.runOn session = some ended
  keeps : ∀ {outcome reached}, step.runOn session = some (outcome, reached) → ∀ {other},
    session.types.names.get? name = some other → reached.types.names.get? name = some other
  adds : ∀ {outcome reached}, stopped.runOn session = some (outcome, reached) →
    reached.types.names.get? name = some id → session.types.names.get? name = some id
  stops : ∀ {outcome reached}, step.runOn session = some (outcome, reached) →
    stopped.runOn session = none →
      session.types.names.get? name = none ∧ reached.types.names.get? name = some id

/-- The rule of the checks that are stopped on the way to a name leading to a type. -/
def leadingRule (name : String) (id : TypeId) : StopRule where
  always before after := ∀ other, before.names.get? name = some other →
    after.names.get? name = some other
  spared before after := after.names.get? name = some id → before.names.get? name = some id
  struck before after := before.names.get? name = none ∧ after.names.get? name = some id
  always_trans first second other found := second other (first other found)
  spared_trans first second found := first (second found)
  struck_later struck kept := ⟨struck.1, kept id struck.2⟩
  struck_earlier {first _ _} kept struck := by
    refine ⟨?_, struck.2⟩
    cases before : first.names.get? name with
    | none => rfl
    | some other =>
        rw [kept other before] at struck
        cases struck.1

theorem quiet_leadingRule {before after : Registry}
    (same : after.names.get? name = before.names.get? name) :
    (leadingRule name id).Quiet before after :=
  ⟨fun _ found => same.trans found, fun found => same.symm.trans found⟩

theorem tracks_iff_obeys {step stopped : CheckM α} :
    Tracks name id session step stopped ↔ Obeys (leadingRule name id) session step stopped :=
  ⟨fun tracks => ⟨tracks.refines, fun run _ => tracks.keeps run, tracks.adds, tracks.stops⟩,
    fun obeys => ⟨obeys.refines, fun run _ => obeys.always run _, obeys.spared, obeys.struck⟩⟩

namespace Tracks

/-- A step that is not stopped on the way. -/
theorem unstopped {step stopped : CheckM α} (agree : stopped.runOn session = step.runOn session)
    (keeps : ∀ {outcome reached}, step.runOn session = some (outcome, reached) → ∀ {other},
      session.types.names.get? name = some other → reached.types.names.get? name = some other)
    (adds : ∀ {outcome reached}, step.runOn session = some (outcome, reached) →
      reached.types.names.get? name = some id → session.types.names.get? name = some id) :
    Tracks name id session step stopped :=
  tracks_iff_obeys.2 (.unstopped agree fun run => ⟨fun _ => keeps run, adds run⟩)

theorem of_runOn {step : CheckM α} {outcome : Except Error α} {reached : Session}
    (run : step.runOn session = some (outcome, reached))
    (same : reached.types.names.get? name = session.types.names.get? name) :
    Tracks name id session step step :=
  tracks_iff_obeys.2 (.of_runOn run (quiet_leadingRule same))

/-- Steps that go on as others do from a session with the same name. -/
theorem moved {start : Session} {step stopped first firstStopped : CheckM α}
    (agree : step.runOn session = first.runOn start)
    (agreeStopped : stopped.runOn session = firstStopped.runOn start)
    (same : start.types.names.get? name = session.types.names.get? name)
    (tracks : Tracks name id start first firstStopped) : Tracks name id session step stopped :=
  tracks_iff_obeys.2
    (.moved agree agreeStopped (quiet_leadingRule same) (tracks_iff_obeys.1 tracks))

/-- Only declarations are stopped. -/
theorem congruence (name : String) (id : TypeId) :
    Congruence fun session step stopped => Tracks name id session step stopped := by
  simp only [tracks_iff_obeys]
  apply Obeys.congruence
  · exact fun _ => quiet_leadingRule rfl
  · exact fun text registry => quiet_leadingRule
      (congrArg (NameTable.get? · name) (Registry.Unnaming.resolve text registry))
  · exact fun registry parameters result => quiet_leadingRule
      (congrArg (NameTable.get? · name) (Registry.names_function registry parameters result))
  · exact fun _ _ => quiet_leadingRule rfl

end Tracks

end CheckM

/-! ## The rules -/

namespace Checker

open CheckM

variable {visit stopped : Expr → ScopeId → CheckM TypeId} {name : String} {id : TypeId}
  {session reached : Session} {scope : ScopeId}

/-- Checking with stops on the way to a name leading to a type. -/
def TracksVisit (name : String) (id : TypeId) (visit stopped : Expr → ScopeId → CheckM TypeId) :
    Prop :=
  ∀ (expression : Expr) (scope : ScopeId) (session : Session),
    Tracks name id session (visit expression scope) (stopped expression scope)

/-! ## Declarations -/

theorem register_names (name : String) (base : TypeBase) (registry : Registry) :
    Registry.Names name registry ((register name base).run.run registry).1
      ((register name base).run.run registry).2 := by
  cases base with
  | «alias» parent =>
      exact Registry.names_of_claim (Registry.Unnaming.resolve parent) (.alias name ·) name registry
  | union members =>
      refine Registry.names_of_claim (Registry.Unnaming.mapM fun text _ => ?_) (.union name ·) name
        registry
      exact Registry.Unnaming.resolve text

/-- A type that is declared has the name, which was free. -/
theorem runOn_checkTypeDecl (declared : String) (base : TypeBase) (expression : Expr)
    (session : Session) :
    ∃ outcome reached, (checkTypeDecl declared base expression).runOn session =
        some (outcome.mapError (·.inExpr expression), reached) ∧
      Registry.Names declared session.types outcome reached.types := by
  have names := register_names declared base session.types
  rw [checkTypeDecl_eq, runOn_bind, runOn_registering]
  dsimp only [Option.bind_some]
  generalize (register declared base).run.run session.types = ended at names
  obtain ⟨outcome, types⟩ := ended
  cases outcome with
  | error fault => exact ⟨.error fault, _, rfl, names⟩
  | ok type => exact ⟨.ok type, _, rfl, names⟩

theorem checkTypeDecl_declares {base : TypeBase} {expression : Expr}
    (run : (checkTypeDecl name base expression).runOn session = some (.ok id, reached)) :
    session.types.names.get? name = none ∧ reached.types.names.get? name = some id := by
  obtain ⟨outcome, ended, ran, names⟩ := runOn_checkTypeDecl name base expression session
  obtain ⟨same, rfl⟩ := Prod.mk.inj (Option.some.inj (ran.symm.trans run))
  cases names with
  | failed => cases same
  | made free added =>
      obtain rfl := Except.ok.inj same
      refine ⟨free, ?_⟩
      rw [added, NameTable.get?_insert, if_pos rfl]

theorem checkTypeDecl_tracks {declared : String} {base : TypeBase} {expression : Expr}
    (spared : declared = name → ∀ reached,
      (checkTypeDecl declared base expression).runOn session ≠ some (.ok id, reached)) :
    Tracks name id session (checkTypeDecl declared base expression)
      (checkTypeDecl declared base expression) := by
  obtain ⟨outcome, ended, ran, names⟩ := runOn_checkTypeDecl declared base expression session
  cases names with
  | failed same => exact .of_runOn ran (congrArg (NameTable.get? · name) same)
  | @made type _ free added =>
      have leads := NameTable.get?_insert session.types.names declared name type
      rw [← added] at leads
      by_cases same : declared = name
      · rw [if_pos same] at leads
        refine .unstopped rfl (fun _ other found => ?_) fun run found => ?_
        · rw [← same, free] at found
          cases found
        · obtain ⟨_, rfl⟩ := Prod.mk.inj (Option.some.inj (ran.symm.trans run))
          obtain rfl := Option.some.inj (leads.symm.trans found)
          exact absurd ran (spared same _)
      · rw [if_neg same] at leads
        exact .of_runOn ran leads

theorem bindClass_declares (tracks : TracksVisit name id visit stopped) {body : Expr}
    {inner : ScopeId} {type value : TypeId}
    (leads : session.types.names.get? name = some type)
    (run : (bindClass visit name body scope inner type).runOn session = some (.ok value, reached)) :
    reached.types.names.get? name = some value := by
  rw [runOn_bindClass] at run
  obtain ⟨⟨outcome, ended⟩, ran, same⟩ := Option.map_eq_some_iff.1 run
  cases outcome with
  | error error => cases same
  | ok _ =>
      obtain ⟨typed, rfl⟩ := Prod.mk.inj same
      obtain rfl := Except.ok.inj typed
      exact ((Tracks.congruence name id).compatible.checkBody tracks body inner).keeps ran leads

theorem bindClass_forgets {body : Expr} {inner : ScopeId} {type : TypeId} {error : Error}
    (run : (bindClass visit name body scope inner type).runOn session =
      some (.error error, reached)) :
    reached.types.names.get? name = none := by
  rw [runOn_bindClass] at run
  obtain ⟨⟨outcome, ended⟩, ran, same⟩ := Option.map_eq_some_iff.1 run
  cases outcome with
  | ok _ => cases same
  | error _ =>
      obtain ⟨_, rfl⟩ := Prod.mk.inj same
      exact (NameTable.get?_erase _ _ _).trans (if_pos rfl)

theorem checkClassDecl_declares (tracks : TracksVisit name id visit stopped)
    {superclass : Option String} {body expression : Expr} {value : TypeId}
    (run : (checkClassDecl visit name superclass body scope expression).runOn session =
      some (.ok value, reached)) :
    session.types.names.get? name = none ∧ reached.types.names.get? name = some value := by
  cases classStart name superclass body scope expression session with
  | refused _ _ runs =>
      rw [runs] at run
      cases run
  | opened _ free runs =>
      rw [runs] at run
      refine ⟨free, bindClass_declares tracks ?_ run⟩
      exact (NameTable.get?_insert _ _ _ _).trans (if_pos rfl)

/-- In the body of a class the name of the class leads to the class, so nothing in it
declares the name, and nothing stops there. -/
theorem runOn_bindClass_stopped (tracks : TracksVisit name id visit stopped) {body : Expr}
    {inner : ScopeId} {type : TypeId} (leads : session.types.names.get? name = some type) :
    (bindClass stopped name body scope inner type).runOn session =
      (bindClass visit name body scope inner type).runOn session := by
  rw [runOn_bindClass, runOn_bindClass]
  generalize start : ({ session with
    scopes := session.scopes.define scope name type
    events := .declaredClass name :: session.events } : Session) = announced
  have leadsStart : announced.types.names.get? name = some type := by
    subst start
    exact leads
  have within : Tracks name id announced (checkBody visit body inner)
      (checkBody stopped body inner) :=
    (Tracks.congruence name id).compatible.checkBody tracks body inner
  congr 1
  cases stop : (checkBody stopped body inner).runOn announced with
  | some ended => exact (within.refines stop).symm
  | none =>
      cases ran : (checkBody visit body inner).runOn announced with
      | none => rfl
      | some ended =>
          obtain ⟨free, _⟩ := within.stops ran stop
          rw [leadsStart] at free
          cases free

theorem checkClassDecl_tracks_self (tracks : TracksVisit name id visit stopped)
    {superclass : Option String} {body expression : Expr}
    (spared : ∀ reached,
      (checkClassDecl visit name superclass body scope expression).runOn session ≠
        some (.ok id, reached)) :
    Tracks name id session (checkClassDecl visit name superclass body scope expression)
      (checkClassDecl stopped name superclass body scope expression) := by
  cases classStart name superclass body scope expression session with
  | @refused error ended unchanged runs =>
      have fails : Tracks name id ended (MonadExcept.throw error : CheckM TypeId)
          (MonadExcept.throw error) := (Tracks.congruence name id).throw error
      refine fails.moved ((runs visit).trans (runOn_throw error ended).symm)
        ((runs stopped).trans (runOn_throw error ended).symm) ?_
      rcases unchanged with rfl | rfl
      · rfl
      · rfl
  | opened asked free runs =>
      have leads := (NameTable.get?_insert session.types.names name name
        ⟨session.types.types.size⟩).trans (if_pos rfl)
      refine .unstopped ?_ (fun run other found => ?_) fun {outcome _} run found => ?_
      · rw [runs, runs]
        exact runOn_bindClass_stopped tracks leads
      · rw [free] at found
        cases found
      · cases outcome with
        | ok value =>
            obtain ⟨_, added⟩ := checkClassDecl_declares tracks run
            obtain rfl := Option.some.inj (added.symm.trans found)
            exact absurd run (spared _)
        | error error =>
            rw [runs] at run
            rw [bindClass_forgets run] at found
            cases found

/-- A class of another name declares its name and forgets it again, if its body fails. -/
theorem checkClassDecl_tracks_other (tracks : TracksVisit name id visit stopped)
    {declared : String} (apart : declared ≠ name) (superclass : Option String)
    (body expression : Expr) :
    Tracks name id session (checkClassDecl visit declared superclass body scope expression)
      (checkClassDecl stopped declared superclass body scope expression) := by
  refine (Tracks.congruence name id).compatible.checkClassDecl tracks
    (fun parent inner reached => ?_) (fun previous reached => ?_) superclass body
  · refine .of_runOn (runOn_registering _ _ _) ?_
    rw [run_declareClass]
    split
    · rfl
    · exact (NameTable.get?_insert _ _ _ _).trans (if_neg apart)
  · exact .of_runOn (runOn_modify _ _) ((NameTable.get?_erase _ _ _).trans (if_neg apart))

/-! ## Forms -/

theorem checkForm_declares (tracks : TracksVisit name id visit stopped) {form : Form}
    {expression : Expr} {value : TypeId} (declares : form.declaredName? = some name)
    (run : (checkForm visit form scope expression).runOn session = some (.ok value, reached)) :
    session.types.names.get? name = none ∧ reached.types.names.get? name = some value := by
  cases form with
  | typeDecl declared base =>
      obtain rfl := Option.some.inj declares
      exact checkTypeDecl_declares run
  | classDecl declared superclass body =>
      obtain rfl := Option.some.inj declares
      exact checkClassDecl_declares tracks run
  | _ => cases declares

theorem checkForm_tracks (tracks : TracksVisit name id visit stopped) {form : Form}
    {expression : Expr}
    (spared : form.declaredName? = some name → ∀ reached,
      (checkForm visit form scope expression).runOn session ≠ some (.ok id, reached)) :
    Tracks name id session (checkForm visit form scope expression)
      (checkForm stopped form scope expression) := by
  refine (Tracks.congruence name id).checkForm tracks ?_ ?_
  · rintro declared base rfl
    exact checkTypeDecl_tracks fun same => spared (congrArg some same)
  · rintro declared superclass body rfl
    by_cases same : declared = name
    · subst same
      exact checkClassDecl_tracks_self tracks (spared rfl)
    · exact checkClassDecl_tracks_other tracks same superclass body expression

/-! ## The course of a check -/

theorem runOn_checkExpr {expression : Expr} {form : Form}
    (classified : Form.classify expression = .ok form) :
    (checkExpr visit expression scope).runOn session =
      (checkForm visit form scope expression).runOn
        { session with events := .visited expression :: session.events } := by
  rw [checkExpr, runOn_bind, runOn_settle, classified]
  rfl

theorem runOn_checkExpr_of_error {expression : Expr} {error : Error}
    (classified : Form.classify expression = .error error) :
    (checkExpr visit expression scope).runOn session = some (.error error, session) := by
  rw [checkExpr, runOn_bind, runOn_settle, classified]
  rfl

/-- A check declares a name and is completed with a type. -/
def Completes (name : String) (id : TypeId) (depth : Nat) (expression : Expr) (scope : ScopeId)
    (session : Session) : Prop :=
  (∃ form, Form.classify expression = .ok form ∧ form.declaredName? = some name) ∧
    ∃ reached, (typeOf depth expression scope).runOn session = some (.ok id, reached)

open Classical in
/-- The checker that stops, without an outcome, where a declaration of the name is completed
with the type. -/
noncomputable def stoppingAt (name : String) (id : TypeId) : Nat → Expr → ScopeId → CheckM TypeId
  | 0, _, _ => exhausted
  | depth + 1, expression, scope => do
      if Completes name id (depth + 1) expression scope (← get) then exhausted
      else checkExpr (stoppingAt name id depth) expression scope

theorem checkExpr_tracks (tracks : TracksVisit name id visit stopped) {expression : Expr}
    (spared : ∀ form, Form.classify expression = .ok form → form.declaredName? = some name →
      ∀ reached, (checkExpr visit expression scope).runOn session ≠ some (.ok id, reached)) :
    Tracks name id session (checkExpr visit expression scope)
      (checkExpr stopped expression scope) := by
  cases classified : Form.classify expression with
  | error error =>
      exact .moved (runOn_checkExpr_of_error classified) (runOn_checkExpr_of_error classified) rfl
        ((Tracks.congruence name id).throw error)
  | ok form =>
      refine .moved (runOn_checkExpr classified) (runOn_checkExpr classified) rfl
        (checkForm_tracks tracks fun declares reached => ?_)
      rw [← runOn_checkExpr classified]
      exact spared form classified declares reached

/-- By induction on the depth. A call is stopped, and then it has declared the name, or else
it is checked like any other and its parts may be stopped. -/
theorem typeOf_tracks (name : String) (id : TypeId) (depth : Nat) :
    TracksVisit name id (typeOf depth) (stoppingAt name id depth) := by
  induction depth with
  | zero =>
      intro expression scope session
      exact .unstopped rfl (fun run => by cases run) fun run => by cases run
  | succ depth ih =>
      intro expression scope session
      by_cases completes : Completes name id (depth + 1) expression scope session
      · have stop : (stoppingAt name id (depth + 1) expression scope).runOn session = none := by
          simp only [stoppingAt, runOn_bind, runOn_get, Option.bind_some, if_pos completes,
            runOn_exhausted]
        obtain ⟨⟨form, classified, declares⟩, ended, ran⟩ := completes
        have declared :=
          checkForm_declares ih declares ((runOn_checkExpr classified).symm.trans ran)
        refine ⟨fun run => ?_, fun run other found => ?_, fun run => ?_, fun run _ => ?_⟩
        · rw [stop] at run
          cases run
        · rw [declared.1] at found
          cases found
        · rw [stop] at run
          cases run
        · obtain ⟨_, rfl⟩ := Prod.mk.inj (Option.some.inj (ran.symm.trans run))
          exact declared
      · have goes : (stoppingAt name id (depth + 1) expression scope).runOn session =
            (checkExpr (stoppingAt name id depth) expression scope).runOn session := by
          simp only [stoppingAt, runOn_bind, runOn_get, Option.bind_some, if_neg completes]
        refine .moved rfl goes rfl (checkExpr_tracks ih ?_)
        intro form classified declares reached ran
        exact completes ⟨⟨form, classified, declares⟩, reached, ran⟩

end Checker

namespace Session

variable {session reached : Session} {expression : Expr} {scope : ScopeId}

/-- Within the check of an expression, a declaration of the name is completed with the type:
the checker that stops there is stopped. -/
def DeclaresWithin (session : Session) (expression : Expr) (scope : ScopeId) (name : String)
    (id : TypeId) : Prop :=
  (Checker.stoppingAt name id (session.depthBound expression) expression scope).runOn session = none

/-- **After a check, the declared names are the earlier ones and those whose declarations
were completed on the way.** -/
theorem names_after_typeOf {outcome : Except Error TypeId}
    (run : session.typeOf expression scope = some (outcome, reached)) (name : String)
    (id : TypeId) :
    reached.types.names.get? name = some id ↔
      session.types.names.get? name = some id ∨ session.DeclaresWithin expression scope name id := by
  have tracks := Checker.typeOf_tracks name id (session.depthBound expression) expression scope
    session
  constructor
  · intro found
    cases stop : (Checker.stoppingAt name id (session.depthBound expression) expression
        scope).runOn session with
    | none => exact .inr stop
    | some ended =>
        obtain rfl := Option.some.inj ((tracks.refines stop).symm.trans run)
        exact .inl (tracks.adds stop found)
  · rintro (before | within)
    · exact tracks.keeps run before
    · exact (tracks.stops run within).2

end Session

end TypedLisp
