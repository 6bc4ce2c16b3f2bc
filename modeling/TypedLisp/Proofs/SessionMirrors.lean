import TypedLisp.Proofs.Likeness
import TypedLisp.Proofs.RuleLockstep
import TypedLisp.Proofs.ScopeMirrors

/-!
# Sessions up to their handles

One session mirrors into another when their types are alike, the scopes of the first have
copies in the second, with the same renaming of handles, and the same generic functions
are being checked (`Session.Mirrors`). All names that the bodies of generic functions would
declare are admitted, and no class keeps the global scope where the copy of that scope may
bind other names.

Sessions that mirror correspond lawfully when their types are alike in a lawful way
(`Session.mirroring_lawful`). So checking an expression that declares admitted names has
the same outcome in both, up to the handles of types.
-/

set_option autoImplicit false

namespace TypedLisp

namespace Session

open Registry (Likeness Copied extended extended_of_has extended_size)

/-- Two sessions with alike types, in which every scope of the first has a copy, and with
the same generic functions being checked. -/
structure Mirrors (like : Likeness) (setting : Scopes.Setting) (onTypes : TypeId → TypeId)
    (onScopes : ScopeId → ScopeId) (left right : Session) : Prop where
  wellFormed : left.WellFormed
  types : like.Related onTypes onScopes left.types right.types
  scopes : Scopes.Mirrors setting onTypes onScopes left.scopes right.scopes
  active : right.active = left.active.map onTypes
  present : ∀ id ∈ left.active, left.Has id
  bodies : ∀ {id : TypeId} {template : Template}, left.types.get? id = some (.generic template) →
    ∀ name, template.body.Declares name → like.Admits name
  classes : ∀ {id : TypeId} {declared : ClassType}, left.types.get? id = some (.nominal declared) →
    declared.scope = .global → setting.IsPlain

/-- Sessions that mirror, with the renaming of their handles. -/
structure Mirrored (like : Likeness) (setting : Scopes.Setting) where
  left : Session
  right : Session
  onTypes : TypeId → TypeId
  onScopes : ScopeId → ScopeId
  mirrors : Mirrors like setting onTypes onScopes left right

/-- What is there in the first world is there in the second one, under the same
handles. -/
structure Mirrored.Later {like : Likeness} {setting : Scopes.Setting}
    (world later : Mirrored like setting) : Prop where
  types : ∀ {id : TypeId}, world.left.Has id →
    later.left.Has id ∧ later.onTypes id = world.onTypes id
  scopes : ∀ {id : ScopeId}, world.left.scopes.isLive id = true →
    later.left.scopes.isLive id = true ∧ later.onScopes id = world.onScopes id

/-- The correspondence of sessions that mirror. -/
def mirroring (like : Likeness) (setting : Scopes.Setting) :
    Correspondence (Mirrored like setting) where
  left := Mirrored.left
  right := Mirrored.right
  Later := Mirrored.Later
  Types world := Copied world.onTypes world.left.types
  Named world := like.Named world.onTypes world.left.types
  Scopes world scope other :=
    world.left.scopes.isLive scope = true ∧ other = world.onScopes scope
  Admits := like.Admits
  Lenient := setting.lenient

variable {like : Likeness} {setting : Scopes.Setting} {left right : Session}
  {onTypes later : TypeId → TypeId} {onScopes laterScopes : ScopeId → ScopeId} {id : TypeId}

namespace Mirrors

/-! ## Questions -/

theorem classNamed (mirrors : Mirrors like setting onTypes onScopes left right)
    (lawful : like.Lawful) (name : String) :
    right.classNamed name = (left.classNamed name).map onTypes := by
  unfold Session.classNamed Registry.lookup?
  rw [lawful.names mirrors.types]
  cases listed : left.types.names.get? name with
  | none => rfl
  | some id =>
      obtain ⟨type, found, _⟩ := mirrors.wellFormed.types.named listed
      simp only [Option.map_some, (lawful.embeds mirrors.types).class? ⟨type, found⟩,
        Option.isSome_map]
      split <;> rfl

theorem superclassOf (mirrors : Mirrors like setting onTypes onScopes left right)
    (lawful : like.Lawful) (name : String) :
    right.superclassOf name = (left.superclassOf name).map onTypes := by
  unfold Session.superclassOf
  rw [mirrors.classNamed lawful]
  cases named : left.classNamed name with
  | error fault => rfl
  | ok id =>
      have has : left.types.Has id := (mirrors.wellFormed.isPlain_classNamed named).has
      dsimp only [bind, Except.bind, Except.map]
      rw [(lawful.embeds mirrors.types).class? has]
      cases left.types.class? id with
      | none => rfl
      | some declared =>
          cases inherits : declared.superclass <;>
            simp [ClassType.rename, inherits]

theorem field (mirrors : Mirrors like setting onTypes onScopes left right) (lawful : like.Lawful)
    (has : left.Has id) (name : String) :
    right.field (onTypes id) name = (left.field id name).map onTypes := by
  refine (lawful.embeds mirrors.types).field has name fun declared among => ?_
  obtain ⟨owner, found⟩ := Registry.get?_of_mem_lineage among
  exact mirrors.scopes.getLocal? (mirrors.wellFormed.isLive_of_scope? found rfl)
    (mirrors.classes found) name

theorem contains_active (mirrors : Mirrors like setting onTypes onScopes left right)
    (lawful : like.Lawful) (has : left.Has id) :
    right.active.contains (onTypes id) = left.active.contains id := by
  have embeds := lawful.embeds mirrors.types
  rw [mirrors.active, Bool.eq_iff_iff, List.contains_iff_mem, List.contains_iff_mem, List.mem_map]
  constructor
  · rintro ⟨other, among, same⟩
    exact embeds.injective (mirrors.present other among) has same ▸ among
  · intro among
    exact ⟨id, among, rfl⟩

theorem erase_active (mirrors : Mirrors like setting onTypes onScopes left right)
    (lawful : like.Lawful) (has : left.Has id) :
    right.active.erase (onTypes id) = (left.active.erase id).map onTypes := by
  have embeds := lawful.embeds mirrors.types
  have apart : ∀ active : List TypeId, (∀ other ∈ active, left.Has other) →
      (active.map onTypes).erase (onTypes id) = (active.erase id).map onTypes := by
    intro active
    induction active with
    | nil => exact fun _ => rfl
    | cons other active ih =>
        intro present
        have same := embeds.eq_iff (present other List.mem_cons_self) has
        have rest := ih fun other among => present other (List.mem_cons_of_mem _ among)
        rw [List.map_cons, List.erase_cons, List.erase_cons, rest]
        by_cases equal : other = id
        · simp [equal]
        · simp [equal, mt same.1 equal]
  rw [mirrors.active]
  exact apart left.active mirrors.present

/-! ## Changes on both sides -/

/-- Types are made and scopes are opened and pinned, without any new bindings. -/
theorem changed {leftAfter rightAfter : Session}
    (mirrors : Mirrors like setting onTypes onScopes left right)
    (wellFormed : leftAfter.WellFormed)
    (types : like.Related later laterScopes leftAfter.types rightAfter.types)
    (agree : ∀ {id : TypeId}, left.Has id → later id = onTypes id)
    (grows : ∀ {id : TypeId}, left.Has id → leftAfter.Has id)
    (scopes : Scopes.Mirrors setting onTypes laterScopes leftAfter.scopes rightAfter.scopes)
    (bound : ∀ {id : ScopeId} {scope : Scope} {name : String} {type : TypeId},
      leftAfter.scopes.get? id = some scope → scope.record.get? name = some type → left.Has type)
    (active : leftAfter.active = left.active) (active_right : rightAfter.active = right.active)
    (bodies : ∀ {id : TypeId} {template : Template},
      leftAfter.types.get? id = some (.generic template) →
        ∀ name, template.body.Declares name → like.Admits name)
    (classes : ∀ {id : TypeId} {declared : ClassType},
      leftAfter.types.get? id = some (.nominal declared) →
        declared.scope = .global → setting.IsPlain) :
    Mirrors like setting later laterScopes leftAfter rightAfter where
  wellFormed := wellFormed
  types := types
  scopes := scopes.congr (fun found listed => agree (bound found listed)) fun _ => rfl
  active := by
    rw [active, active_right, mirrors.active]
    exact List.map_congr_left fun id among => (agree (mirrors.present id among)).symm
  present id among := grows (mirrors.present id (active ▸ among))
  bodies := bodies
  classes := classes

/-- Scopes are changed. -/
theorem withScopes {leftScopes rightScopes : Scopes}
    (mirrors : Mirrors like setting onTypes onScopes left right)
    (wellFormed : { left with scopes := leftScopes }.WellFormed)
    (scopes : Scopes.Mirrors setting onTypes onScopes leftScopes rightScopes) :
    Mirrors like setting onTypes onScopes { left with scopes := leftScopes }
      { right with scopes := rightScopes } :=
  ⟨wellFormed, mirrors.types, scopes, mirrors.active, mirrors.present, mirrors.bodies,
    mirrors.classes⟩

/-- Generic functions are entered or left, or events are recorded. -/
theorem withActive {leftActive rightActive : List TypeId} {leftEvents rightEvents : List Event}
    (mirrors : Mirrors like setting onTypes onScopes left right)
    (active : rightActive = leftActive.map onTypes) (present : ∀ id ∈ leftActive, left.Has id) :
    Mirrors like setting onTypes onScopes { left with active := leftActive, events := leftEvents }
      { right with active := rightActive, events := rightEvents } where
  wellFormed := ⟨mirrors.wellFormed.types, mirrors.wellFormed.scopes, mirrors.wellFormed.recycles,
    mirrors.wellFormed.captured, mirrors.wellFormed.bound⟩
  types := mirrors.types
  scopes := mirrors.scopes
  active := active
  present := present
  bodies := mirrors.bodies
  classes := mirrors.classes

end Mirrors

namespace Mirrored

open Correspondence

variable (world : Mirrored like setting)

/-- A later world with given sessions. -/
theorem reaches {also : Mirrored like setting → Prop}
    (changed : Mirrors like setting later laterScopes left right)
    (types : ∀ {id : TypeId}, world.left.Has id → left.Has id ∧ later id = world.onTypes id)
    (scopes : ∀ {id : ScopeId}, world.left.scopes.isLive id = true →
      left.scopes.isLive id = true ∧ laterScopes id = world.onScopes id)
    (holds : also ⟨left, right, later, laterScopes, changed⟩) :
    (mirroring like setting).Reaches world left right also :=
  ⟨⟨left, right, later, laterScopes, changed⟩, ⟨types, scopes⟩, rfl, rfl, holds⟩

/-- A later world with the same handles. -/
theorem reaches_same (changed : Mirrors like setting world.onTypes world.onScopes left right)
    (types : ∀ {id : TypeId}, world.left.Has id → left.Has id)
    (scopes : ∀ {id : ScopeId}, world.left.scopes.isLive id = true →
      left.scopes.isLive id = true) :
    (mirroring like setting).Reaches world left right fun _ => True :=
  world.reaches changed (fun has => ⟨types has, rfl⟩) (fun live => ⟨scopes live, rfl⟩) trivial

/-! ## Making types -/

/-- Types are made on both sides. -/
theorem registered {step other : RegistryM TypeId}
    {good : (TypeId → TypeId) → Registry → TypeId → TypeId → Prop}
    (inStep : like.InStep world.onScopes world.onTypes world.left.types world.right.types
      step other good)
    (evolves : world.left.Evolves ∅
      { world.left with types := (step.run.run world.left.types).2 })
    (captureless : Registry.Captureless world.left.types (step.run.run world.left.types).2) :
    ∃ reached : Mirrored like setting, world.Later reached ∧
      reached.left = { world.left with types := (step.run.run world.left.types).2 } ∧
      reached.right = { world.right with types := (other.run.run world.right.types).2 } ∧
      Answers (good reached.onTypes reached.left.types) (step.run.run world.left.types).1
        (other.run.run world.right.types).1 := by
  obtain ⟨later, agree, grows, types, answers⟩ := inStep
  have changed : Mirrors like setting later world.onScopes
      { world.left with types := (step.run.run world.left.types).2 }
      { world.right with types := (other.run.run world.right.types).2 } :=
    world.mirrors.changed evolves.wellFormed types agree grows.has world.mirrors.scopes
      world.mirrors.wellFormed.bound rfl rfl
      (fun found => world.mirrors.bodies (captureless found rfl))
      fun found => world.mirrors.classes (captureless found rfl)
  exact ⟨⟨_, _, later, world.onScopes, changed⟩,
    ⟨fun has => ⟨grows.has has, agree has⟩, fun live => ⟨live, rfl⟩⟩, rfl, rfl, answers⟩

theorem registers {step other : RegistryM TypeId}
    {good : (TypeId → TypeId) → Registry → TypeId → TypeId → Prop}
    (inStep : like.InStep world.onScopes world.onTypes world.left.types world.right.types
      step other good)
    (evolves : world.left.Evolves ∅
      { world.left with types := (step.run.run world.left.types).2 })
    (captureless : Registry.Captureless world.left.types (step.run.run world.left.types).2) :
    (mirroring like setting).Registers world step other
      fun later => good later.onTypes later.left.types := by
  intro expression
  obtain ⟨reached, after, left, right, answers⟩ := world.registered inStep evolves captureless
  have run := CheckM.runOn_registering expression step world.left
  have otherRun := CheckM.runOn_registering expression other world.right
  rw [← left] at run
  rw [← right] at otherRun
  exact .of_answers run otherRun after (answers.mapError _)

theorem resolve (lawful : like.Lawful) (text : String) :
    (mirroring like setting).Registers world (Registry.resolve text) (Registry.resolve text)
      (mirroring like setting).Named := by
  have wellFormed := world.mirrors.wellFormed
  obtain ⟨made, interns, _⟩ := Registry.resolve_resolves text wellFormed.types rfl
  exact world.registers (lawful.resolve text world.mirrors.types)
    (wellFormed.evolves_interns made interns) interns.captureless

theorem declareAlias (lawful : like.Lawful) {name : String} (parent : String)
    (admits : like.Admits name) :
    (mirroring like setting).Registers world (Registry.declareAlias name parent)
      (Registry.declareAlias name parent) (mirroring like setting).Types := by
  have wellFormed := world.mirrors.wellFormed
  obtain ⟨declares, _⟩ := Registry.declareAlias_declares name parent wellFormed.types rfl
  exact world.registers (lawful.declareAlias parent world.mirrors.types admits)
    (wellFormed.evolves_declares declares) declares.captureless

theorem declareUnion (lawful : like.Lawful) {name : String} (members : List String)
    (admits : like.Admits name) :
    (mirroring like setting).Registers world (Registry.declareUnion name members)
      (Registry.declareUnion name members) (mirroring like setting).Types := by
  have wellFormed := world.mirrors.wellFormed
  obtain ⟨declares, _⟩ := Registry.declareUnion_declares name members wellFormed.types rfl
  exact world.registers (lawful.declareUnion members world.mirrors.types admits)
    (wellFormed.evolves_declares declares) declares.captureless

theorem function (lawful : like.Lawful) {parameters others : List TypeId} {result other : TypeId}
    (each : List.Forall₂ ((mirroring like setting).Named world) parameters others)
    (last : (mirroring like setting).Named world result other) :
    (mirroring like setting).Alike world (CheckM.making (·.function parameters result))
      (CheckM.making (·.function others other)) (mirroring like setting).Named := by
  have wellFormed := world.mirrors.wellFormed
  have inside : ∀ part ∈ result :: parameters, world.left.types.IsPlain part := by
    intro part among
    rcases List.mem_cons.1 among with rfl | among
    · exact (lawful.named last).1
    · exact (each.flip.imp fun _ _ named => (lawful.named named).1).forall_right part among
  obtain ⟨made, interns, _⟩ := wellFormed.types.function inside
  obtain ⟨reached, after, left, right, answers⟩ :=
    world.registered (lawful.function world.mirrors.types each last)
      (wellFormed.evolves_interns made interns) interns.captureless
  simp only [Registry.run_modifyGet] at left right answers
  have run := CheckM.runOn_making (·.function parameters result) world.left
  have otherRun := CheckM.runOn_making (·.function others other) world.right
  rw [← left] at run
  rw [← right] at otherRun
  cases answers with
  | ok named => exact .ok run otherRun after named

/-! ## Opening and closing scopes -/

/-- The renaming of scopes after one has been opened on each side. -/
def newScopes (scope : ScopeId) : ScopeId → ScopeId :=
  Function.update world.onScopes (world.left.next scope) (world.right.next (world.onScopes scope))

theorem newScopes_of_isLive (scope : ScopeId) {id : ScopeId}
    (live : world.left.scopes.isLive id = true) : world.newScopes scope id = world.onScopes id :=
  Scopes.Mirrors.agree_push world.mirrors.wellFormed.scopes scope _ live

theorem newScopes_next (scope : ScopeId) :
    world.newScopes scope (world.left.next scope) = world.right.next (world.onScopes scope) :=
  Scopes.Mirrors.update_push _ _ _ _

theorem mirrors_opened {scope : ScopeId} (live : world.left.scopes.isLive scope = true) :
    Scopes.Mirrors setting world.onTypes (world.newScopes scope) (world.left.opened scope).scopes
      (world.right.opened (world.onScopes scope)).scopes :=
  world.mirrors.scopes.push live

theorem related_opened (lawful : like.Lawful) (scope : ScopeId) :
    like.Related world.onTypes (world.newScopes scope) world.left.types world.right.types :=
  lawful.relabel world.mirrors.types fun found keeps =>
    world.newScopes_of_isLive scope (world.mirrors.wellFormed.isLive_of_scope? found keeps)

theorem opens (lawful : like.Lawful) {scope other : ScopeId}
    (scopes : (mirroring like setting).Scopes world scope other) :
    (mirroring like setting).Reaches world (world.left.opened scope) (world.right.opened other)
      fun later => (mirroring like setting).Scopes later (world.left.next scope)
        (world.right.next other) := by
  obtain ⟨live, rfl⟩ := scopes
  have mirrors := world.mirrors
  have opened : Mirrors like setting world.onTypes (world.newScopes scope) (world.left.opened scope)
      (world.right.opened (world.onScopes scope)) :=
    ⟨mirrors.wellFormed.opened live, world.related_opened lawful scope, world.mirrors_opened live,
      mirrors.active, mirrors.present, mirrors.bodies, mirrors.classes⟩
  refine world.reaches opened (fun has => ⟨has, rfl⟩) (fun {id} alive => ⟨?_, ?_⟩)
    ⟨mirrors.wellFormed.isLive_next scope, (world.newScopes_next scope).symm⟩
  · obtain ⟨content, found⟩ := Scopes.isLive_iff.1 alive
    exact Scopes.isLive_of_get? (Scopes.get?_push_of_get? mirrors.wellFormed.scopes scope found)
  · exact world.newScopes_of_isLive scope alive

/-- A scope that has been opened on both sides is released on both. -/
theorem closes {opened reached : Mirrored like setting} {scope other : ScopeId}
    (scopes : (mirroring like setting).Scopes world scope other) (later : world.Later opened)
    (left : opened.left = world.left.opened scope)
    (inner : (mirroring like setting).Scopes opened (world.left.next scope) (world.right.next other))
    (further : opened.Later reached)
    (evolves : opened.left.Evolves {world.left.next scope} reached.left) :
    (mirroring like setting).Reaches world (reached.left.closed (world.left.next scope))
      (reached.right.closed (world.right.next other)) fun closed =>
        ∀ {type other : TypeId}, (mirroring like setting).Types reached type other →
          (mirroring like setting).Types closed type other := by
  obtain ⟨live, rfl⟩ := scopes
  have wellFormed := world.mirrors.wellFormed
  rw [left] at evolves
  have closed := evolves.closed wellFormed live
  obtain ⟨liveInner, copy⟩ := further.scopes inner.1
  have released := reached.mirrors.scopes.release liveInner (wellFormed.scopes.push_ne_global scope)
    (Scopes.isPinned_of_child_push wellFormed.scopes live evolves.scopes evolves.wellFormed.scopes)
  rw [copy, ← inner.2] at released
  have mirrors : Mirrors like setting reached.onTypes reached.onScopes
      (reached.left.closed (world.left.next scope))
      (reached.right.closed (world.right.next (world.onScopes scope))) :=
    reached.mirrors.withScopes closed.wellFormed released
  refine world.reaches mirrors (fun has => ?_) (fun alive => ?_) fun {_ _} types => types
  · obtain ⟨hasOpened, same⟩ := later.types has
    obtain ⟨hasReached, again⟩ := further.types hasOpened
    exact ⟨hasReached, again.trans same⟩
  · obtain ⟨liveOpened, same⟩ := later.scopes alive
    exact ⟨closed.isLive alive, (further.scopes liveOpened).2.trans same⟩

/-! ## Types that keep scopes -/

theorem withTemplate (lawful : like.Lawful) (template : Template) {otherScope : ScopeId}
    (scopes : (mirroring like setting).Scopes world template.scope otherScope)
    (covers : (mirroring like setting).Covers template.body) :
    (mirroring like setting).Reaches world (world.left.withTemplate template)
      (world.right.withTemplate { template with scope := otherScope })
      fun later => (mirroring like setting).Types later ⟨world.left.types.types.size⟩
        ⟨world.right.types.types.size⟩ := by
  obtain ⟨live, rfl⟩ := scopes
  have mirrors := world.mirrors
  have evolves := mirrors.wellFormed.evolves_withTemplate live
  have added : Mirrors like setting (extended world.onTypes world.left.types world.right.types)
      world.onScopes (world.left.withTemplate template)
      (world.right.withTemplate (template.rename world.onScopes)) := by
    refine mirrors.changed evolves.wellFormed (lawful.addTemplate template mirrors.types)
      extended_of_has evolves.has (mirrors.scopes.pin live) ?_ rfl rfl ?_ ?_
    · intro id scope name type found listed
      obtain ⟨old, there, record⟩ := Scopes.get?_of_pin mirrors.wellFormed.scopes live found
      exact mirrors.wellFormed.bound there (record ▸ listed)
    · intro id other found
      change (world.left.types.add (.generic template)).2.get? id = _ at found
      rw [Registry.get?_add] at found
      split at found
      · obtain rfl : template = other := by simpa using found
        exact covers
      · exact mirrors.bodies found
    · intro id declared found
      change (world.left.types.add (.generic template)).2.get? id = _ at found
      rw [Registry.get?_add] at found
      split at found
      · cases found
      · exact mirrors.classes found
  exact world.reaches added (fun has => ⟨evolves.has has, extended_of_has has⟩)
    (fun alive => ⟨evolves.isLive alive, rfl⟩)
    ⟨⟨_, get?_withTemplate world.left template⟩, (extended_size _ _ _).symm⟩

theorem withClass (lawful : like.Lawful) {name : String}
    {superclass otherSuperclass : Option TypeId} {scope otherScope : ScopeId}
    (admits : like.Admits name)
    (inherited : Option.Rel ((mirroring like setting).Types world) superclass otherSuperclass)
    (nongeneric : ∀ id ∈ superclass, world.left.types.IsPlain id)
    (scopes : (mirroring like setting).Scopes world scope otherScope)
    (unclaimed : world.left.types.names.get? name = none) :
    (mirroring like setting).Reaches world (world.left.withClass name superclass scope)
      (world.right.withClass name otherSuperclass otherScope)
      fun later => (mirroring like setting).Types later ⟨world.left.types.types.size⟩
          ⟨world.right.types.types.size⟩ ∧
        (mirroring like setting).Scopes later (world.left.next scope)
          (world.right.next otherScope) := by
  obtain ⟨live, rfl⟩ := scopes
  obtain rfl : otherSuperclass = superclass.map world.onTypes := by
    cases inherited with
    | some copied => exact congrArg some copied.same
    | none => rfl
  have mirrors := world.mirrors
  have opened := mirrors.wellFormed.opened live
  have liveInner := mirrors.wellFormed.isLive_next scope
  have evolves := mirrors.wellFormed.evolves_withClass live nongeneric unclaimed
  have pinned := (world.mirrors_opened live).pin liveInner
  have types := lawful.declareClass (world.left.next scope) (world.related_opened lawful scope)
    admits nongeneric unclaimed
  rw [world.newScopes_next] at pinned types
  have declared : Mirrors like setting (extended world.onTypes world.left.types world.right.types)
      (world.newScopes scope) (world.left.withClass name superclass scope)
      (world.right.withClass name (superclass.map world.onTypes) (world.onScopes scope)) := by
    refine mirrors.changed evolves.wellFormed types extended_of_has evolves.has pinned ?_ rfl rfl
      ?_ ?_
    · intro id content name type found listed
      obtain ⟨old, there, record⟩ := Scopes.get?_of_pin opened.scopes liveInner found
      exact opened.bound there (record ▸ listed)
    · intro id template found
      change (world.left.types.add _).2.get? id = _ at found
      rw [Registry.get?_add] at found
      split at found
      · cases found
      · exact mirrors.bodies found
    · intro id declared found atGlobal
      change (world.left.types.add _).2.get? id = _ at found
      rw [Registry.get?_add] at found
      split at found
      · obtain rfl := Ty.nominal.inj (Option.some.inj found)
        exact absurd atGlobal (mirrors.wellFormed.scopes.push_ne_global scope)
      · exact mirrors.classes found atGlobal
  exact world.reaches declared (fun has => ⟨evolves.has has, extended_of_has has⟩)
    (fun alive => ⟨evolves.isLive alive, world.newScopes_of_isLive scope alive⟩)
    ⟨⟨⟨_, get?_withClass world.left name superclass scope⟩, (extended_size _ _ _).symm⟩,
      (mirrors.wellFormed.isPinned_withClass live).isLive, (world.newScopes_next scope).symm⟩

/-! ## Names -/

theorem define {scope otherScope : ScopeId} {type other : TypeId} (name : String)
    (scopes : (mirroring like setting).Scopes world scope otherScope)
    (types : (mirroring like setting).Types world type other) :
    (mirroring like setting).Reaches world
      { world.left with scopes := world.left.scopes.define scope name type }
      { world.right with scopes := world.right.scopes.define otherScope name other }
      fun _ => True := by
  obtain ⟨live, rfl⟩ := scopes
  obtain ⟨has, rfl⟩ := types
  have evolves := world.mirrors.wellFormed.evolves_define scope name has
  exact world.reaches_same (world.mirrors.withScopes evolves.wellFormed
    (world.mirrors.scopes.define live name type)) evolves.has evolves.isLive

/-- A name is put back to what it was bound to in an earlier world. -/
theorem restore {start : Mirrored like setting} {scope other : ScopeId} (name : String)
    (scopes : (mirroring like setting).Scopes start scope other) (later : start.Later world) :
    (mirroring like setting).Reaches world
      { world.left with
        scopes := world.left.scopes.restore scope name (start.left.scopes.getLocal? scope name) }
      { world.right with
        scopes := world.right.scopes.restore other name (start.right.scopes.getLocal? other name) }
      fun _ => True := by
  obtain ⟨live, rfl⟩ := scopes
  obtain ⟨alive, sameScope⟩ := later.scopes live
  have present : ∀ id ∈ start.left.scopes.getLocal? scope name, start.left.Has id :=
    fun id bound => start.mirrors.wellFormed.has_of_getLocal? bound
  have shown := start.mirrors.scopes.shows live name
  rw [← Option.map_congr fun id bound => (later.types (present id bound)).2] at shown
  have evolves := world.mirrors.wellFormed.evolves_restore scope name
    fun id bound => (later.types (present id bound)).1
  rw [← sameScope] at shown ⊢
  exact world.reaches_same (world.mirrors.withScopes evolves.wellFormed
    (world.mirrors.scopes.restore alive shown)) evolves.has evolves.isLive

theorem forget (lawful : like.Lawful) {start : Mirrored like setting} {name : String}
    (unclaimed : start.left.types.names.get? name = none) :
    (mirroring like setting).Reaches world
      { world.left with types := world.left.types.forget name }
      { world.right with types := world.right.types.forget name } fun _ => True := by
  have mirrors := world.mirrors
  have forgotten : Mirrors like setting world.onTypes world.onScopes
      { world.left with types := world.left.types.forget name }
      { world.right with types := world.right.types.forget name } :=
    ⟨⟨mirrors.wellFormed.types.forget name, mirrors.wellFormed.scopes, mirrors.wellFormed.recycles,
      mirrors.wellFormed.captured, mirrors.wellFormed.bound⟩,
      lawful.forget start.mirrors.types unclaimed mirrors.types, mirrors.scopes, mirrors.active,
      mirrors.present, mirrors.bodies, mirrors.classes⟩
  exact world.reaches_same forgotten (fun has => has) fun live => live

/-! ## Generic functions being checked -/

theorem enter {generic other : TypeId} (types : (mirroring like setting).Types world generic other) :
    (mirroring like setting).Reaches world (world.left.entered generic)
      (world.right.entered other) fun _ => True := by
  obtain ⟨has, rfl⟩ := types
  have entered : Mirrors like setting world.onTypes world.onScopes (world.left.entered generic)
      (world.right.entered (world.onTypes generic)) :=
    world.mirrors.withActive (congrArg (List.cons _) world.mirrors.active) fun id among => by
      rcases List.mem_cons.1 among with rfl | among
      · exact has
      · exact world.mirrors.present id among
  exact world.reaches_same entered (fun has => has) fun live => live

theorem leave (lawful : like.Lawful) {generic other : TypeId}
    (types : (mirroring like setting).Types world generic other) :
    (mirroring like setting).Reaches world (world.left.left generic) (world.right.left other)
      fun _ => True := by
  obtain ⟨has, rfl⟩ := types
  have gone : Mirrors like setting world.onTypes world.onScopes (world.left.left generic)
      (world.right.left (world.onTypes generic)) :=
    world.mirrors.withActive (world.mirrors.erase_active lawful has) fun id among =>
      world.mirrors.present id (List.mem_of_mem_erase among)
  exact world.reaches_same gone (fun has => has) fun live => live

/-! ## The correspondence -/

/-- The primitives are there, and correspond to themselves. -/
theorem primitive (lawful : like.Lawful) {type : TypeId} (primitive : type.index < 4) :
    (mirroring like setting).Types world type type := by
  obtain ⟨content, found⟩ := Registry.has_initial primitive
  exact ⟨⟨content, world.mirrors.wellFormed.types.primitives found⟩,
    (lawful.primitives world.mirrors.types primitive).symm⟩

theorem operand (lawful : like.Lawful) {given other : TypeId} {allowed : List TypeId}
    (types : (mirroring like setting).Types world given other)
    (primitives : ∀ type ∈ allowed, type.index < 4) :
    world.left.types.expectOperand given allowed =
      world.right.types.expectOperand other allowed := by
  obtain ⟨has, rfl⟩ := types
  have same : allowed.map world.onTypes = allowed := by
    refine (List.map_congr_left fun type among => ?_).trans (List.map_id allowed)
    exact lawful.primitives world.mirrors.types (primitives type among)
  have asked := (lawful.embeds world.mirrors.types).expectOperand has fun type among =>
    (world.primitive lawful (primitives type among)).has
  rw [same] at asked
  exact asked.symm

theorem callResult (lawful : like.Lawful) {callee other : TypeId} {arguments others : List TypeId}
    (construct : String) (types : (mirroring like setting).Types world callee other)
    (each : List.Forall₂ ((mirroring like setting).Types world) arguments others) :
    Answers ((mirroring like setting).Types world)
      (world.left.types.callResult callee arguments construct)
      (world.right.types.callResult other others construct) := by
  obtain ⟨has, rfl⟩ := types
  have paired : List.Forall₂ (fun argument other =>
      world.left.types.Has argument ∧ other = world.onTypes argument) arguments others :=
    each.imp fun _ _ copied => ⟨copied.has, copied.same⟩
  obtain ⟨rfl, present⟩ := paired.eq_map
  refine .of_map ((lawful.embeds world.mirrors.types).callResult
    (lawful.primitives world.mirrors.types (by decide)) has present construct) fun type answer => ?_
  exact ⟨(world.mirrors.wellFormed.isPlain_callResult answer).has, rfl⟩

theorem template (lawful : like.Lawful) {generic other : TypeId}
    (types : (mirroring like setting).Types world generic other) :
    (world.left.types.template? generic = none ∧ world.right.types.template? other = none) ∨
      ∃ template otherScope, world.left.types.template? generic = some template ∧
        world.right.types.template? other = some { template with scope := otherScope } ∧
        (mirroring like setting).Scopes world template.scope otherScope ∧
        (mirroring like setting).Covers template.body := by
  obtain ⟨has, rfl⟩ := types
  rw [(lawful.embeds world.mirrors.types).template? has]
  cases found : world.left.types.template? generic with
  | none => exact .inl ⟨rfl, rfl⟩
  | some template =>
      have there := Registry.get?_of_template? found
      exact .inr ⟨template, _, rfl, rfl,
        ⟨world.mirrors.wellFormed.isLive_of_scope? there rfl, rfl⟩, world.mirrors.bodies there⟩

end Mirrored

/-- **Sessions that mirror correspond lawfully.** -/
theorem mirroring_lawful (lawful : like.Lawful) (setting : Scopes.Setting) :
    (mirroring like setting).Lawful where
  refl _ := ⟨fun has => ⟨has, rfl⟩, fun live => ⟨live, rfl⟩⟩
  trans first second :=
    ⟨fun has => ⟨(second.types (first.types has).1).1,
        (second.types (first.types has).1).2.trans (first.types has).2⟩,
      fun live => ⟨(second.scopes (first.scopes live).1).1,
        (second.scopes (first.scopes live).1).2.trans (first.scopes live).2⟩⟩
  wellFormed world := world.mirrors.wellFormed
  types_later later types :=
    ⟨(later.types types.has).1, types.same.trans (later.types types.has).2.symm⟩
  scopes_later later scopes :=
    ⟨(later.scopes scopes.1).1, scopes.2.trans (later.scopes scopes.1).2.symm⟩
  named_later {_ reached _ _} later grows named :=
    lawful.named_later named (fun has => (later.types has).2) grows reached.mirrors.types
  types_of_named named := ⟨(lawful.named named).1.has, (lawful.named named).2⟩
  plain named := (lawful.named named).1
  live scopes := scopes.1
  primitive {world _} primitive := world.primitive lawful primitive
  name {world _ _} types :=
    types.same ▸ ((lawful.embeds world.mirrors.types).name types.has).symm
  expect {world _ _ _ _} types others :=
    types.same ▸ others.same ▸
      ((lawful.embeds world.mirrors.types).expect types.has others.has).symm
  operand {world _ _ _} types primitives := world.operand lawful types primitives
  classNamed world name := .of_map (world.mirrors.classNamed lawful name) fun _ answer =>
    ⟨(world.mirrors.wellFormed.isPlain_classNamed answer).has, rfl⟩
  superclassOf world name := .of_map (world.mirrors.superclassOf lawful name) fun _ answer =>
    ⟨(world.mirrors.wellFormed.isPlain_superclassOf answer).has, rfl⟩
  field {world _ _} name types := types.same ▸
    .of_map (world.mirrors.field lawful types.has name) fun _ answer =>
      ⟨world.mirrors.wellFormed.has_field answer, rfl⟩
  lookup {world _ _} name scopes := scopes.2 ▸
    (world.mirrors.scopes.lookup scopes.1 name).imp_left fun same =>
      .of_map same fun _ answer => ⟨world.mirrors.wellFormed.has_lookup answer, rfl⟩
  callResult {world _ _ _ _} construct types each := world.callResult lawful construct types each
  template {world _ _} types := world.template lawful types
  active {world _ _} types := types.same ▸ (world.mirrors.contains_active lawful types.has).symm
  taken world name := by
    have same := lawful.names world.mirrors.types name
    exact (congrArg Option.isSome same).trans (Option.isSome_map ..) |>.symm
  emit world event := world.reaches_same
    (world.mirrors.withActive world.mirrors.active world.mirrors.present) (fun has => has)
    fun live => live
  enter {world _ _} types := world.enter types
  leave {world _ _} types := world.leave lawful types
  define {world _ _ _ _} name scopes types := world.define name scopes types
  restore {_ world _ _} name scopes later := world.restore name scopes later
  forget {_ world _} unclaimed _ := world.forget lawful unclaimed
  opens {world _ _} scopes := world.opens lawful scopes
  closes {world _ _ _ _} scopes later left _ inner further evolves :=
    world.closes scopes later left inner further evolves
  resolve world text := world.resolve lawful text
  function {world _ _ _ _} each last := world.function lawful each last
  declareAlias world _ parent admits := world.declareAlias lawful parent admits
  declareUnion world _ members admits := world.declareUnion lawful members admits
  withTemplate {world} template _ scopes covers :=
    world.withTemplate lawful template scopes covers
  withClass {world _ _ _ _ _} admits inherited nongeneric scopes unclaimed :=
    world.withClass lawful admits inherited nongeneric scopes unclaimed

end Session

end TypedLisp
