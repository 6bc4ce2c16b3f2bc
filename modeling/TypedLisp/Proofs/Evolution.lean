import Mathlib.Data.Set.Insert
import TypedLisp.Proofs.ArenaSteps
import TypedLisp.Proofs.Resolution
import TypedLisp.Session.Step

/-!
# Evolution of sessions

A session is well-formed when its types and its scopes are, when the scopes that
classes and generic functions keep are pinned, and when names are bound to types
that are there.

One session evolves into another when nothing that was there is lost: types, names
and texts stay, scopes stay with their parents and, outside the writable ones, with
their names, and the generic functions being checked are the same. A scope that is
pinned anew is kept by a new class or generic function, or leads to one that is.

`CheckM.Sound` says that a step lets a session evolve, whether it fails or not, and
that its value has a given property. It compares the step with another one along
the way, so that what is proved of a rule of checking also says in which sessions
the rule asks for smaller expressions to be checked.
-/

set_option autoImplicit false

namespace TypedLisp

namespace Session

/-- There is a type of a handle. -/
def Has (session : Session) (id : TypeId) : Prop := session.types.Has id

/-- Types and scopes are well-formed and fit together, and slots are taken again. -/
structure WellFormed (session : Session) : Prop where
  types : session.types.WellFormed
  scopes : session.scopes.WellFormed
  recycles : session.scopes.recycles = true
  captured : ∀ {id : TypeId} {type : Ty} {scope : ScopeId}, session.types.get? id = some type →
    type.scope? = some scope → session.scopes.IsPinned scope
  bound : ∀ {id : ScopeId} {scope : Scope} {name : String} {type : TypeId},
    session.scopes.get? id = some scope → scope.record.get? name = some type → session.Has type

/-- A class or generic function of the second session that the first one does not
have keeps a scope, or a scope from which it is reached. -/
def CapturesAnew (before after : Session) (id : ScopeId) : Prop :=
  ∃ (type : TypeId) (content : Ty) (scope : ScopeId) (path : List ScopeId),
    before.types.get? type = none ∧ after.types.get? type = some content ∧
      content.scope? = some scope ∧ after.scopes.Chain scope path ∧ id ∈ path

/-- The second session is well-formed and keeps what the first one has, except for
the names of the writable scopes. -/
structure Evolves (writable : Set ScopeId) (before after : Session) : Prop where
  wellFormed : after.WellFormed
  types : Registry.Grows before.types after.types
  scopes : Scopes.Keeps writable before.scopes after.scopes
  active : after.active = before.active
  pinned : ∀ {id : ScopeId}, after.scopes.IsPinned id →
    before.scopes.IsPinned id ∨ CapturesAnew before after id

variable {session before middle after : Session} {writable wider : Set ScopeId}

theorem CapturesAnew.later {id : ScopeId} (captures : CapturesAnew before middle id)
    (evolves : Evolves writable middle after) : CapturesAnew before after id := by
  obtain ⟨type, content, scope, path, missing, found, keeps, chain, onPath⟩ := captures
  exact ⟨type, content, scope, path, missing, evolves.types.types found, keeps,
    chain.keeps evolves.scopes, onPath⟩

theorem CapturesAnew.earlier {id : ScopeId} (captures : CapturesAnew middle after id)
    (grows : Registry.Grows before.types middle.types) : CapturesAnew before after id := by
  obtain ⟨type, content, scope, path, missing, found, keeps, chain, onPath⟩ := captures
  refine ⟨type, content, scope, path, ?_, found, keeps, chain, onPath⟩
  cases there : before.types.get? type with
  | none => rfl
  | some old => simp [grows.types there] at missing

namespace Evolves

theorem refl (writable : Set ScopeId) (wellFormed : session.WellFormed) :
    Evolves writable session session :=
  ⟨wellFormed, .refl _, .refl _ _, rfl, fun pinned => .inl pinned⟩

theorem trans (first : Evolves writable before middle) (second : Evolves writable middle after) :
    Evolves writable before after where
  wellFormed := second.wellFormed
  types := first.types.trans second.types
  scopes := first.scopes.trans second.scopes
  active := second.active.trans first.active
  pinned pinned := by
    rcases second.pinned pinned with pinned | captures
    · rcases first.pinned pinned with pinned | captures
      · exact .inl pinned
      · exact .inr (captures.later second)
    · exact .inr (captures.earlier first.types)

theorem mono (subset : writable ⊆ wider) (evolves : Evolves writable before after) :
    Evolves wider before after :=
  { evolves with scopes := evolves.scopes.mono subset }

theorem isLive {id : ScopeId} (evolves : Evolves writable before after)
    (live : before.scopes.isLive id = true) : after.scopes.isLive id = true :=
  evolves.scopes.isLive live

theorem has {id : TypeId} (evolves : Evolves writable before after) (has : before.Has id) :
    after.Has id := by
  obtain ⟨type, found⟩ := has
  exact ⟨type, evolves.types.types found⟩

theorem isPlain {id : TypeId} (evolves : Evolves writable before after)
    (plain : before.types.IsPlain id) : after.types.IsPlain id :=
  plain.of_types evolves.types.types

end Evolves

theorem has_of_isPlain {id : TypeId} (plain : session.types.IsPlain id) : session.Has id := by
  obtain ⟨type, found, _⟩ := plain
  exact ⟨type, found⟩

theorem WellFormed.isLive_of_scope? (wellFormed : session.WellFormed) {id : TypeId} {type : Ty}
    {scope : ScopeId} (found : session.types.get? id = some type)
    (keeps : type.scope? = some scope) : session.scopes.isLive scope = true :=
  (wellFormed.captured found keeps).isLive

theorem WellFormed.isLive_global (wellFormed : session.WellFormed) :
    session.scopes.isLive .global = true :=
  wellFormed.scopes.isLive_global

/-! ## Types and scopes apart -/

/-- Making types that keep no scope lets a session evolve. -/
theorem WellFormed.evolves_types {types : Registry} (wellFormed : session.WellFormed)
    (made : types.WellFormed) (grows : Registry.Grows session.types types)
    (scopeless : ∀ {id : TypeId} {type : Ty} {scope : ScopeId}, types.get? id = some type →
      type.scope? = some scope → session.types.get? id = some type) :
    Evolves ∅ session { session with types } where
  wellFormed :=
    { types := made
      scopes := wellFormed.scopes
      recycles := wellFormed.recycles
      captured := fun found keeps => wellFormed.captured (scopeless found keeps) keeps
      bound := fun found listed => by
        obtain ⟨type, there⟩ := wellFormed.bound found listed
        exact ⟨type, grows.types there⟩ }
  types := grows
  scopes := .refl _ _
  active := rfl
  pinned pinned := .inl pinned

theorem WellFormed.evolves_interns {types : Registry} (wellFormed : session.WellFormed)
    (made : types.WellFormed) (interns : Registry.Interns session.types types) :
    Evolves ∅ session { session with types } := by
  refine wellFormed.evolves_types made interns.toGrows fun found keeps => ?_
  rcases interns.only_functions found with found | ⟨signature, rfl⟩
  · exact found
  · simp [Ty.scope?] at keeps

theorem WellFormed.evolves_declares {types : Registry} (wellFormed : session.WellFormed)
    (declares : Registry.Declares session.types types) :
    Evolves ∅ session { session with types } :=
  wellFormed.evolves_types declares.wellFormed declares.grows fun found keeps =>
    declares.captureless found (by simp [keeps])

/-- Events leave everything else as it is. -/
theorem WellFormed.evolves_events (wellFormed : session.WellFormed) (events : List Event) :
    Evolves writable session { session with events } :=
  ⟨⟨wellFormed.types, wellFormed.scopes, wellFormed.recycles, wellFormed.captured,
    wellFormed.bound⟩, .refl _, .refl _ _, rfl, fun pinned => .inl pinned⟩

/-- Changing the names of a scope to types that are there lets a session evolve. -/
theorem WellFormed.evolves_updateRecord (wellFormed : session.WellFormed) (id : ScopeId)
    (change : NameTable TypeId → NameTable TypeId)
    (bound : ∀ {scope : Scope} {name : String} {type : TypeId}, session.scopes.get? id = some scope →
      (change scope.record).get? name = some type → session.Has type) :
    Evolves {id} session { session with scopes := session.scopes.updateRecord id change } where
  wellFormed :=
    { types := wellFormed.types
      scopes := wellFormed.scopes.updateRecord id change
      recycles := (Scopes.keeps_updateRecord _ _ _).recycles.trans wellFormed.recycles
      captured := fun found keeps =>
        (Scopes.keeps_updateRecord _ _ _).isPinned (wellFormed.captured found keeps)
      bound := fun {other scope name type} found listed => by
        rw [Scopes.get?_updateRecord] at found
        obtain ⟨old, there, rfl⟩ := Option.map_eq_some_iff.1 found
        unfold Scopes.recordChanged at listed
        split at listed
        · rename_i same
          exact bound (same ▸ there) listed
        · exact wellFormed.bound there listed }
  types := .refl _
  scopes := Scopes.keeps_updateRecord _ _ _
  active := rfl
  pinned {other} pinned := by
    obtain ⟨scope, found, isPinned⟩ := pinned
    rw [Scopes.get?_updateRecord] at found
    obtain ⟨old, there, rfl⟩ := Option.map_eq_some_iff.1 found
    refine .inl ⟨old, there, ?_⟩
    unfold Scopes.recordChanged at isPinned
    split at isPinned <;> exact isPinned

theorem WellFormed.evolves_define (wellFormed : session.WellFormed) (id : ScopeId) (name : String)
    {type : TypeId} (has : session.Has type) :
    Evolves {id} session { session with scopes := session.scopes.define id name type } := by
  refine wellFormed.evolves_updateRecord id _ fun found listed => ?_
  rw [NameTable.get?_insert] at listed
  split at listed
  · obtain rfl := Option.some.inj listed
    exact has
  · exact wellFormed.bound found listed

theorem WellFormed.evolves_remove (wellFormed : session.WellFormed) (id : ScopeId)
    (name : String) :
    Evolves {id} session { session with scopes := session.scopes.remove id name } := by
  refine wellFormed.evolves_updateRecord id _ fun found listed => ?_
  rw [NameTable.get?_erase] at listed
  split at listed
  · simp at listed
  · exact wellFormed.bound found listed

theorem WellFormed.evolves_restore (wellFormed : session.WellFormed) (id : ScopeId)
    (name : String) {previous : Option TypeId} (has : ∀ type ∈ previous, session.Has type) :
    Evolves {id} session { session with scopes := session.scopes.restore id name previous } := by
  cases previous with
  | none => exact wellFormed.evolves_remove id name
  | some type => exact wellFormed.evolves_define id name (has type rfl)

theorem WellFormed.has_of_getLocal? (wellFormed : session.WellFormed) {id : ScopeId}
    {name : String} {type : TypeId} (found : session.scopes.getLocal? id name = some type) :
    session.Has type := by
  obtain ⟨scope, there, listed⟩ := Option.bind_eq_some_iff.1 found
  exact wellFormed.bound there listed

/-! ## Scopes that are opened and released -/

/-- The session after a scope has been opened. -/
def opened (session : Session) (parent : ScopeId) : Session :=
  { session with scopes := (session.scopes.push parent).2 }

/-- The scope that is opened next. -/
def next (session : Session) (parent : ScopeId) : ScopeId := (session.scopes.push parent).1

/-- The session after a scope has been released. -/
def closed (session : Session) (id : ScopeId) : Session :=
  { session with scopes := session.scopes.release id }

theorem WellFormed.isLive_next (wellFormed : session.WellFormed) (parent : ScopeId) :
    (session.opened parent).scopes.isLive (session.next parent) = true :=
  Scopes.isLive_of_get? ((Scopes.get?_push wellFormed.scopes parent _).trans (if_pos rfl))

theorem WellFormed.opened (wellFormed : session.WellFormed) {parent : ScopeId}
    (live : session.scopes.isLive parent = true) : (session.opened parent).WellFormed where
  types := wellFormed.types
  scopes := wellFormed.scopes.push live
  recycles := (Scopes.recycles_push _ _).trans wellFormed.recycles
  captured found keeps := by
    obtain ⟨scope, there, pinned⟩ := wellFormed.captured found keeps
    exact ⟨scope, Scopes.get?_push_of_get? wellFormed.scopes parent there, pinned⟩
  bound {id scope name type} found listed := by
    have slot := Scopes.get?_push wellFormed.scopes parent id
    rcases Decidable.em (id = session.next parent) with same | apart
    · obtain rfl := Option.some.inj ((slot.trans (if_pos same)).symm.trans found)
      simp at listed
    · exact wellFormed.bound ((slot.trans (if_neg apart)).symm.trans found) listed

/-- **A scope that is opened and released leaves no trace.** -/
theorem Evolves.closed {parent : ScopeId} (wellFormed : session.WellFormed)
    (live : session.scopes.isLive parent = true)
    (inner : Evolves {session.next parent} (session.opened parent) after) :
    Evolves ∅ session (after.closed (session.next parent)) := by
  obtain ⟨keeps, released⟩ := Scopes.keeps_release_push wellFormed.scopes live inner.scopes
    inner.wellFormed.scopes
  refine ⟨⟨inner.wellFormed.types, released, keeps.recycles.trans wellFormed.recycles, ?_, ?_⟩,
    inner.types, keeps, inner.active, ?_⟩
  · exact fun found captured => (inner.wellFormed.captured found captured).release
  · intro id scope name type found listed
    exact inner.wellFormed.bound (Scopes.get?_of_release found) listed
  · intro id pinned
    obtain ⟨scope, found, isPinned⟩ := pinned
    rcases inner.pinned ⟨scope, Scopes.get?_of_release found, isPinned⟩ with pinned | captures
    · -- The new scope is not pinned when it is opened.
      obtain ⟨old, there, isPinned⟩ := pinned
      have slot := Scopes.get?_push wellFormed.scopes parent id
      rcases Decidable.em (id = session.next parent) with same | apart
      · obtain rfl := Option.some.inj ((slot.trans (if_pos same)).symm.trans there)
        simp at isPinned
      · exact .inl ⟨old, (slot.trans (if_neg apart)).symm.trans there, isPinned⟩
    · obtain ⟨type, content, scope, path, missing, found, captured, chain, onPath⟩ := captures
      refine .inr ⟨type, content, scope, path, missing, found, captured, ?_, onPath⟩
      -- All scopes of the chain are pinned, so none of them is released.
      have all := chain.isPinned (fun _ => inner.wellFormed.scopes.pinned_parent)
        (inner.wellFormed.captured found captured)
      refine chain.transport fun member onPath scope there => ?_
      obtain ⟨later, foundLater, _⟩ := (all member onPath).release
      obtain rfl := Option.some.inj ((Scopes.get?_of_release foundLater).symm.trans there)
      exact ⟨later, foundLater, rfl⟩

/-- A scope that is opened and then pinned is there for good. -/
theorem Evolves.of_opened {parent : ScopeId} (wellFormed : session.WellFormed)
    (inner : Evolves writable (session.opened parent) after)
    (pinned : after.scopes.IsPinned (session.next parent)) : Evolves writable session after := by
  have slot := Scopes.get?_push wellFormed.scopes parent
  refine ⟨inner.wellFormed, inner.types, ⟨fun found => ?_, ?_, ?_⟩, inner.active, ?_⟩
  · exact inner.scopes.kept (Scopes.get?_push_of_get? wellFormed.scopes parent found)
  · intro id scope dead found
    rcases Decidable.em (id = session.next parent) with rfl | apart
    · obtain ⟨later, there, isPinned⟩ := pinned
      exact Option.some.inj (there.symm.trans found) ▸ isPinned
    · exact inner.scopes.fresh ((slot id).trans ((if_neg apart).trans dead)) found
  · exact inner.scopes.recycles.trans (Scopes.recycles_push _ _)
  · intro id isPinned
    rcases inner.pinned isPinned with ⟨scope, found, isPinned⟩ | captures
    · rcases Decidable.em (id = session.next parent) with same | apart
      · obtain rfl := Option.some.inj (((slot id).trans (if_pos same)).symm.trans found)
        simp at isPinned
      · exact .inl ⟨scope, ((slot id).trans (if_neg apart)).symm.trans found, isPinned⟩
    · exact .inr captures

/-- Writing to a scope that is not there at the start changes nothing that is. -/
theorem Evolves.drop {dead : ScopeId} (evolves : Evolves (insert dead writable) before after)
    (missing : before.scopes.get? dead = none) : Evolves writable before after := by
  refine { evolves with scopes := ⟨fun {id scope} found => ?_, evolves.scopes.fresh,
    evolves.scopes.recycles⟩ }
  obtain ⟨later, there, parent, pinned, record⟩ := evolves.scopes.kept found
  refine ⟨later, there, parent, pinned, fun outside => record fun inside => ?_⟩
  rcases Set.mem_insert_iff.1 inside with rfl | inside
  · simp [missing] at found
  · exact outside inside

/-! ## Types that keep scopes -/

/-- A class or generic function can be added when the scope that it keeps is pinned
at the same time. -/
theorem WellFormed.evolves_capture {types : Registry} {id : TypeId} {type : Ty} {scope : ScopeId}
    (wellFormed : session.WellFormed) (live : session.scopes.isLive scope = true)
    (made : types.WellFormed) (grows : Registry.Grows session.types types)
    (missing : session.types.get? id = none) (found : types.get? id = some type)
    (keeps : type.scope? = some scope)
    (only : ∀ {other : TypeId} {content : Ty}, types.get? other = some content →
      other = id ∨ session.types.get? other = some content) :
    Evolves ∅ session { session with types, scopes := session.scopes.pin scope } where
  wellFormed :=
    { types := made
      scopes := wellFormed.scopes.pin live
      recycles := (Scopes.keeps_pin wellFormed.scopes live).recycles.trans wellFormed.recycles
      captured := fun {other content kept} there keepsOther => by
        rcases only there with rfl | old
        · obtain rfl := Option.some.inj (found.symm.trans there)
          obtain rfl := Option.some.inj (keeps.symm.trans keepsOther)
          exact Scopes.isPinned_pin wellFormed.scopes live
        · exact (Scopes.keeps_pin wellFormed.scopes live).isPinned
            (wellFormed.captured old keepsOther)
      bound := fun {other content name type} there listed => by
        obtain ⟨old, foundOld, record⟩ := Scopes.get?_of_pin wellFormed.scopes live there
        obtain ⟨content, has⟩ := wellFormed.bound foundOld (record ▸ listed)
        exact ⟨content, grows.types has⟩ }
  types := grows
  scopes := Scopes.keeps_pin wellFormed.scopes live
  active := rfl
  pinned {other} pinned := by
    obtain ⟨path, chain⟩ := wellFormed.scopes.chain live
    rcases Decidable.em (other ∈ path) with onPath | offPath
    · exact .inr ⟨id, type, scope, path, missing, found, keeps,
        chain.keeps (Scopes.keeps_pin wellFormed.scopes live), onPath⟩
    · obtain ⟨later, there, isPinned⟩ := pinned
      rw [Scopes.get?_pin wellFormed.scopes chain] at there
      obtain ⟨old, foundOld, rfl⟩ := Option.map_eq_some_iff.1 there
      rw [Scopes.pinnedOn, if_neg offPath] at isPinned
      exact .inl ⟨old, foundOld, isPinned⟩

/-- The session after a generic function has been kept. -/
def withTemplate (session : Session) (template : Template) : Session :=
  { session with
    types := (session.types.addTemplate template).2
    scopes := session.scopes.pin template.scope }

theorem get?_withTemplate (session : Session) (template : Template) :
    (session.withTemplate template).types.get? ⟨session.types.types.size⟩ =
      some (.generic template) :=
  (Registry.get?_add _ _ _).trans (if_pos rfl)

theorem WellFormed.evolves_withTemplate {template : Template} (wellFormed : session.WellFormed)
    (live : session.scopes.isLive template.scope = true) :
    Evolves ∅ session (session.withTemplate template) := by
  refine wellFormed.evolves_capture live (wellFormed.types.add (by simp [Ty.references]) (by simp))
    (Registry.grows_add _ _) (by simp [Registry.get?]) (get?_withTemplate session template) rfl ?_
  intro other content there
  rw [Registry.addTemplate, Registry.get?_add] at there
  split at there
  · exact .inl (by assumption)
  · exact .inr there

/-- The session after a class has been declared and its scope opened. -/
def withClass (session : Session) (name : String) (superclass : Option TypeId)
    (parent : ScopeId) : Session :=
  { session.opened parent with
    types :=
      (session.types.declare name (.nominal ⟨name, superclass, session.next parent⟩)).2
    scopes := (session.opened parent).scopes.pin (session.next parent) }

theorem get?_withClass (session : Session) (name : String) (superclass : Option TypeId)
    (parent : ScopeId) :
    (session.withClass name superclass parent).types.get? ⟨session.types.types.size⟩ =
      some (.nominal ⟨name, superclass, session.next parent⟩) :=
  Registry.get?_declare session.types name _

theorem WellFormed.opened_evolves_withClass {name : String} {superclass : Option TypeId}
    {parent : ScopeId} (wellFormed : session.WellFormed)
    (live : session.scopes.isLive parent = true)
    (plain : ∀ id ∈ superclass, session.types.IsPlain id)
    (unclaimed : session.types.names.get? name = none) :
    Evolves ∅ (session.opened parent) (session.withClass name superclass parent) := by
  have inside : ∀ reference ∈ (Ty.nominal ⟨name, superclass, session.next parent⟩).references,
      session.types.IsPlain reference := fun reference among =>
    plain reference (Option.mem_toList.1 among)
  refine (wellFormed.opened live).evolves_capture (wellFormed.isLive_next parent)
    (wellFormed.types.declare inside rfl) (Registry.grows_declare _ unclaimed)
    (by simp [Session.opened, Registry.get?]) (get?_withClass session name superclass parent)
    rfl ?_
  intro other content there
  change (session.types.add _).2.get? other = some content at there
  rw [Registry.get?_add] at there
  split at there
  · exact .inl (by assumption)
  · exact .inr there

theorem WellFormed.isPinned_withClass {name : String} {superclass : Option TypeId}
    {parent : ScopeId} (wellFormed : session.WellFormed)
    (live : session.scopes.isLive parent = true) :
    (session.withClass name superclass parent).scopes.IsPinned (session.next parent) :=
  Scopes.isPinned_pin (wellFormed.opened live).scopes (wellFormed.isLive_next parent)

theorem WellFormed.evolves_withClass {name : String} {superclass : Option TypeId}
    {parent : ScopeId} (wellFormed : session.WellFormed)
    (live : session.scopes.isLive parent = true)
    (plain : ∀ id ∈ superclass, session.types.IsPlain id)
    (unclaimed : session.types.names.get? name = none) :
    Evolves ∅ session (session.withClass name superclass parent) :=
  (wellFormed.opened_evolves_withClass live plain unclaimed).of_opened wellFormed
    (wellFormed.isPinned_withClass live)

/-- Forgetting a name that the first session does not have. -/
theorem Evolves.forget {name : String} (evolves : Evolves writable before after)
    (unclaimed : before.types.names.get? name = none) :
    Evolves writable before { after with types := after.types.forget name } where
  wellFormed :=
    { types := evolves.wellFormed.types.forget name
      scopes := evolves.wellFormed.scopes
      recycles := evolves.wellFormed.recycles
      captured := evolves.wellFormed.captured
      bound := evolves.wellFormed.bound }
  types :=
    { types := evolves.types.types
      names := fun {other id} found => by
        have apart : name ≠ other := by
          rintro rfl
          simp [unclaimed] at found
        exact (NameTable.get?_erase _ _ _).trans ((if_neg apart).trans (evolves.types.names found))
      functions := evolves.types.functions }
  scopes := evolves.scopes
  active := evolves.active
  pinned := evolves.pinned

/-! ## Generic functions being checked -/

/-- The session in which a generic function is being checked. -/
def entered (session : Session) (generic : TypeId) : Session :=
  { session with active := generic :: session.active }

/-- The session after a generic function has been checked. -/
def left (session : Session) (generic : TypeId) : Session :=
  { session with active := session.active.erase generic }

theorem WellFormed.entered (wellFormed : session.WellFormed) (generic : TypeId) :
    (session.entered generic).WellFormed :=
  ⟨wellFormed.types, wellFormed.scopes, wellFormed.recycles, wellFormed.captured,
    wellFormed.bound⟩

theorem Evolves.left {generic : TypeId} (inner : Evolves writable (session.entered generic) after) :
    Evolves writable session (after.left generic) where
  wellFormed := ⟨inner.wellFormed.types, inner.wellFormed.scopes, inner.wellFormed.recycles,
    inner.wellFormed.captured, inner.wellFormed.bound⟩
  types := inner.types
  scopes := inner.scopes
  active := by
    have erased : (after.left generic).active = after.active.erase generic := rfl
    simp [erased, inner.active, Session.entered]
  pinned := inner.pinned

end Session

/-! ## Sound steps -/

namespace CheckM

open Session

variable {α β : Type} {base session : Session} {writable wider : Set ScopeId}
  {step other : CheckM α} {good : α → Session → Prop}

/-- A step during which a generic function counts as being checked. -/
theorem runOn_guarded (generic : TypeId) (step : CheckM α) (session : Session) :
    (do modify fun session => { session with active := generic :: session.active }
        let outcome ← attempt step
        modify fun session => { session with active := session.active.erase generic }
        settle outcome : CheckM α).runOn session =
      (step.runOn (session.entered generic)).map fun (outcome, reached) =>
        (outcome, reached.left generic) := by
  rw [runOn_bind, runOn_modify]
  dsimp only [Option.bind_some]
  rw [runOn_bind, runOn_attempt]
  change ((step.runOn (session.entered generic)).map _).bind _ = _
  cases step.runOn (session.entered generic) with
  | none => rfl
  | some ended =>
      dsimp only [Option.map_some, Option.bind_some]
      rw [runOn_bind, runOn_modify]
      dsimp only [Option.bind_some]
      rw [runOn_settle]
      rfl

theorem runOn_inChild_opened (parent : ScopeId) (step : ScopeId → CheckM α) (session : Session) :
    (inChild parent step).runOn session =
      ((step (session.next parent)).runOn (session.opened parent)).map
        fun (outcome, reached) => (outcome, reached.closed (session.next parent)) :=
  runOn_inChild parent step session

theorem runOn_making (make : Registry → TypeId × Registry) (session : Session) :
    (making make).runOn session =
      some (.ok (make session.types).1, { session with types := (make session.types).2 }) := rfl

/-- Two steps agree on a session. When they succeed the session evolves and their
value is good; when they fail, they end in a session into which the base evolves. -/
structure Sound (base session : Session) (writable : Set ScopeId) (step other : CheckM α)
    (good : α → Session → Prop) : Prop where
  agree : step.runOn session = other.runOn session
  ok : ∀ {value : α} {reached : Session}, step.runOn session = some (.ok value, reached) →
    session.Evolves writable reached ∧ good value reached
  error : ∀ {error : Error} {reached : Session},
    step.runOn session = some (.error error, reached) → base.Evolves writable reached

namespace Sound

/-- Whatever the outcome is, the session at the start evolves. -/
theorem evolves (sound : Sound session session writable step other good)
    {outcome : Except Error α} {reached : Session}
    (run : step.runOn session = some (outcome, reached)) : session.Evolves writable reached := by
  cases outcome with
  | ok value => exact (sound.ok run).1
  | error error => exact sound.error run

theorem rebase (sound : Sound session session writable step other good)
    (evolves : base.Evolves wider session) (subset : writable ⊆ wider) :
    Sound base session wider step other good where
  agree := sound.agree
  ok run := ⟨(sound.ok run).1.mono subset, (sound.ok run).2⟩
  error run := evolves.trans ((sound.error run).mono subset)

theorem mono {better : α → Session → Prop} (sound : Sound base session writable step other better)
    (weaker : ∀ {value reached}, better value reached → good value reached) :
    Sound base session writable step other good where
  agree := sound.agree
  ok run := ⟨(sound.ok run).1, weaker (sound.ok run).2⟩
  error := sound.error

theorem widen (sound : Sound session session ∅ step other good) :
    Sound session session writable step other good where
  agree := sound.agree
  ok run := ⟨(sound.ok run).1.mono (Set.empty_subset _), (sound.ok run).2⟩
  error run := (sound.error run).mono (Set.empty_subset _)

/-- A step with a known outcome. -/
theorem of_runOn {outcome : Except Error α} {reached : Session}
    (run : step.runOn session = some (outcome, reached))
    (ok : ∀ value, outcome = .ok value → session.Evolves writable reached ∧ good value reached)
    (error : ∀ error, outcome = .error error → base.Evolves writable reached) :
    Sound base session writable step step good where
  agree := rfl
  ok run' := by
    obtain ⟨same, rfl⟩ := Prod.mk.inj (Option.some.inj (run.symm.trans run'))
    exact ok _ same
  error run' := by
    obtain ⟨same, rfl⟩ := Prod.mk.inj (Option.some.inj (run.symm.trans run'))
    exact error _ same

theorem exhausted : Sound base session writable CheckM.exhausted CheckM.exhausted good where
  agree := rfl
  ok run := by cases run
  error run := by cases run

theorem pure {value : α} (wellFormed : session.WellFormed) (holds : good value session) :
    Sound base session writable (Pure.pure value) (Pure.pure value) good := by
  refine of_runOn (runOn_pure value session) (fun found same => ?_) (fun error same => by cases same)
  obtain rfl := Except.ok.inj same
  exact ⟨.refl _ wellFormed, holds⟩

theorem throw {error : Error} (evolves : base.Evolves writable session) :
    Sound base session writable (MonadExcept.throw error) (MonadExcept.throw error) good :=
  of_runOn (runOn_throw error session) (fun value same => by cases same) fun _ _ => evolves

theorem settle {outcome : Except Error α} (wellFormed : session.WellFormed)
    (evolves : base.Evolves writable session)
    (holds : ∀ value, outcome = .ok value → good value session) :
    Sound base session writable (CheckM.settle outcome) (CheckM.settle outcome) good :=
  of_runOn (runOn_settle outcome session)
    (fun value same => ⟨.refl _ wellFormed, holds value same⟩) fun _ _ => evolves

theorem bind {next otherNext : α → CheckM β} {final : β → Session → Prop}
    (first : Sound base session writable step other good)
    (rest : ∀ {value reached}, session.Evolves writable reached → good value reached →
      Sound base reached writable (next value) (otherNext value) final) :
    Sound base session writable (step >>= next) (other >>= otherNext) final := by
  have unfolded := runOn_bind step next session
  cases ran : step.runOn session with
  | none =>
      rw [ran, Option.bind_none] at unfolded
      refine ⟨?_, fun run => ?_, fun run => ?_⟩
      · rw [unfolded, runOn_bind, ← first.agree, ran, Option.bind_none]
      · cases unfolded.symm.trans run
      · cases unfolded.symm.trans run
  | some ended =>
      obtain ⟨outcome, middle⟩ := ended
      rw [ran, Option.bind_some] at unfolded
      have unfoldedOther : (other >>= otherNext).runOn session = _ :=
        (runOn_bind other otherNext session).trans (by rw [← first.agree, ran, Option.bind_some])
      cases outcome with
      | error error =>
          refine ⟨unfolded.trans unfoldedOther.symm, fun run => ?_, fun run => ?_⟩
          · cases unfolded.symm.trans run
          · obtain ⟨_, rfl⟩ := Prod.mk.inj (Option.some.inj (unfolded.symm.trans run))
            exact first.error ran
      | ok value =>
          obtain ⟨evolves, holds⟩ := first.ok ran
          have continued := rest evolves holds
          refine ⟨unfolded.trans (continued.agree.trans unfoldedOther.symm), fun run => ?_,
            fun run => continued.error (unfolded.symm.trans run)⟩
          obtain ⟨further, final⟩ := continued.ok (unfolded.symm.trans run)
          exact ⟨evolves.trans further, final⟩

/-- A step that follows another one need only be sound from where that one ends. -/
theorem andThen {next otherNext : α → CheckM β} {final : β → Session → Prop}
    (first : Sound session session writable step other good)
    (rest : ∀ {value reached}, session.Evolves writable reached → good value reached →
      Sound reached reached writable (next value) (otherNext value) final) :
    Sound session session writable (step >>= next) (other >>= otherNext) final :=
  first.bind fun evolves holds => (rest evolves holds).rebase evolves Set.Subset.rfl

theorem get {next otherNext : Session → CheckM α}
    (rest : Sound base session writable (next session) (otherNext session) good) :
    Sound base session writable (MonadState.get >>= next) (MonadState.get >>= otherNext) good where
  agree := by simpa only [runOn_bind, runOn_get, Option.bind_some] using rest.agree
  ok run := rest.ok (by simpa only [runOn_bind, runOn_get, Option.bind_some] using run)
  error run := rest.error (by simpa only [runOn_bind, runOn_get, Option.bind_some] using run)

theorem modifyScopes {change : Scopes → Scopes}
    (evolves : session.Evolves writable { session with scopes := change session.scopes }) :
    Sound base session writable (CheckM.modifyScopes change) (CheckM.modifyScopes change)
      fun _ _ => True :=
  of_runOn (runOn_modify _ session) (fun _ _ => ⟨evolves, trivial⟩) fun _ same => by cases same

theorem emit {event : Event} (wellFormed : session.WellFormed) :
    Sound base session writable (CheckM.emit event) (CheckM.emit event) fun _ _ => True := by
  refine of_runOn (runOn_modify _ session) (fun _ _ => ⟨?_, trivial⟩) fun _ same => by cases same
  exact wellFormed.evolves_events _

theorem ask {expression : Expr} {question : Session → Except Fault α}
    (wellFormed : session.WellFormed) (evolves : base.Evolves writable session)
    (holds : ∀ value, question session = .ok value → good value session) :
    Sound base session writable (CheckM.ask expression question) (CheckM.ask expression question)
      good := by
  refine of_runOn (runOn_ask expression question session)
    (fun value same => ⟨.refl _ wellFormed, ?_⟩) fun _ _ => evolves
  cases answer : question session with
  | ok found =>
      rw [answer] at same
      exact Except.ok.inj same ▸ holds found answer
  | error fault =>
      rw [answer] at same
      cases same

theorem registering {expression : Expr} {register : RegistryM α}
    (evolves : base.Evolves writable session)
    (further : session.Evolves writable
      { session with types := (register.run.run session.types).2 })
    (holds : ∀ value, (register.run.run session.types).1 = .ok value →
      good value { session with types := (register.run.run session.types).2 }) :
    Sound base session writable (CheckM.registering expression register)
      (CheckM.registering expression register) good := by
  refine of_runOn (runOn_registering expression register session)
    (fun value same => ⟨further, ?_⟩) fun _ _ => evolves.trans further
  cases answer : (register.run.run session.types).1 with
  | ok found =>
      rw [answer] at same
      exact Except.ok.inj same ▸ holds found answer
  | error fault =>
      rw [answer] at same
      cases same

theorem making {make : Registry → TypeId × Registry} {holds : TypeId → Session → Prop}
    (evolves : session.Evolves writable { session with types := (make session.types).2 })
    (after : holds (make session.types).1 { session with types := (make session.types).2 }) :
    Sound base session writable (CheckM.making make) (CheckM.making make) holds :=
  of_runOn (runOn_modifyGet _ session)
    (fun _ same => ⟨evolves, Except.ok.inj same ▸ after⟩) fun _ same => by cases same

theorem undoing {undo : Session → Session} {start : Session}
    (sound : Sound start session writable step other good)
    (undone : ∀ {reached : Session}, start.Evolves writable reached →
      base.Evolves writable (undo reached)) :
    Sound base session writable (CheckM.undoing step undo) (CheckM.undoing other undo) good where
  agree := by rw [runOn_undoing, runOn_undoing, sound.agree]
  ok run := by
    rw [runOn_undoing] at run
    obtain ⟨⟨outcome, middle⟩, ran, same⟩ := Option.map_eq_some_iff.1 run
    cases outcome with
    | ok value =>
        obtain ⟨inner, rfl⟩ := Prod.mk.inj same
        obtain rfl := Except.ok.inj inner
        exact sound.ok ran
    | error error => cases same
  error run := by
    rw [runOn_undoing] at run
    obtain ⟨⟨outcome, middle⟩, ran, same⟩ := Option.map_eq_some_iff.1 run
    cases outcome with
    | ok value => cases same
    | error error =>
        obtain ⟨_, rfl⟩ := Prod.mk.inj same
        exact undone (sound.error ran)

theorem inChild {parent : ScopeId} {inner otherInner : ScopeId → CheckM α}
    (wellFormed : session.WellFormed) (live : session.scopes.isLive parent = true)
    (sound : Sound (session.opened parent) (session.opened parent) {session.next parent}
      (inner (session.next parent)) (otherInner (session.next parent)) good)
    (stable : ∀ {value reached}, good value reached →
      good value (reached.closed (session.next parent))) :
    Sound session session ∅ (CheckM.inChild parent inner) (CheckM.inChild parent otherInner)
      good := by
  have unfolded : ∀ step : ScopeId → CheckM α, (CheckM.inChild parent step).runOn session =
      ((step (session.next parent)).runOn (session.opened parent)).map fun (outcome, reached) =>
        (outcome, reached.closed (session.next parent)) := fun step =>
    runOn_inChild parent step session
  refine ⟨?_, fun run => ?_, fun run => ?_⟩
  · rw [unfolded, unfolded, sound.agree]
  · rw [unfolded] at run
    obtain ⟨⟨outcome, middle⟩, ran, same⟩ := Option.map_eq_some_iff.1 run
    obtain ⟨rfl, rfl⟩ := Prod.mk.inj same
    obtain ⟨evolves, holds⟩ := sound.ok ran
    exact ⟨evolves.closed wellFormed live, stable holds⟩
  · rw [unfolded] at run
    obtain ⟨⟨outcome, middle⟩, ran, same⟩ := Option.map_eq_some_iff.1 run
    obtain ⟨rfl, rfl⟩ := Prod.mk.inj same
    exact (sound.error ran).closed wellFormed live

/-- A step that starts by moving to another session. -/
theorem moved {start otherStart : CheckM α} {reached : Session}
    (sound : Sound base reached writable step other good)
    (evolves : session.Evolves writable reached) (moves : start.runOn session = step.runOn reached)
    (otherMoves : otherStart.runOn session = other.runOn reached) :
    Sound base session writable start otherStart good where
  agree := moves.trans (sound.agree.trans otherMoves.symm)
  ok run := by
    obtain ⟨further, holds⟩ := sound.ok (moves.symm.trans run)
    exact ⟨evolves.trans further, holds⟩
  error run := sound.error (moves.symm.trans run)

theorem drop {dead : ScopeId} (missing : session.scopes.get? dead = none)
    (sound : Sound session session (insert dead writable) step other good) :
    Sound session session writable step other good where
  agree := sound.agree
  ok run := ⟨(sound.ok run).1.drop missing, (sound.ok run).2⟩
  error run := (sound.error run).drop missing

theorem guarded {generic : TypeId}
    (sound : Sound (session.entered generic) (session.entered generic) writable step other good)
    (stable : ∀ {value reached}, good value reached → good value (reached.left generic)) :
    Sound session session writable
      (do modify fun session => { session with active := generic :: session.active }
          let outcome ← attempt step
          modify fun session => { session with active := session.active.erase generic }
          CheckM.settle outcome)
      (do modify fun session => { session with active := generic :: session.active }
          let outcome ← attempt other
          modify fun session => { session with active := session.active.erase generic }
          CheckM.settle outcome) good := by
  refine ⟨?_, fun run => ?_, fun run => ?_⟩
  · rw [runOn_guarded, runOn_guarded, sound.agree]
  · rw [runOn_guarded] at run
    obtain ⟨⟨outcome, middle⟩, ran, same⟩ := Option.map_eq_some_iff.1 run
    obtain ⟨rfl, rfl⟩ := Prod.mk.inj same
    obtain ⟨evolves, holds⟩ := sound.ok ran
    exact ⟨evolves.left, stable holds⟩
  · rw [runOn_guarded] at run
    obtain ⟨⟨outcome, middle⟩, ran, same⟩ := Option.map_eq_some_iff.1 run
    obtain ⟨rfl, rfl⟩ := Prod.mk.inj same
    exact (sound.error ran).left

theorem mapM {step other : α → CheckM β} {good : β → Session → Prop} {items : List α}
    (stable : ∀ {value before after}, Session.Evolves writable before after → good value before →
      good value after)
    (evolves : base.Evolves writable session)
    (each : ∀ item ∈ items, ∀ {reached}, base.Evolves writable reached →
      Sound base reached writable (step item) (other item) good) :
    Sound base session writable (items.mapM step) (items.mapM other)
      (fun values reached => ∀ value ∈ values, good value reached) := by
  induction items generalizing session with
  | nil => exact .pure evolves.wellFormed (by simp)
  | cons item items ih =>
      simp only [List.mapM_cons]
      refine bind (each item List.mem_cons_self evolves) fun {value middle} first holds => ?_
      refine bind (ih (evolves.trans first) fun item among => each item
        (List.mem_cons_of_mem _ among)) fun {values last} second all => ?_
      refine .pure second.wellFormed fun other among => ?_
      rcases List.mem_cons.1 among with rfl | among
      · exact stable second holds
      · exact all other among

end Sound

end CheckM

end TypedLisp
