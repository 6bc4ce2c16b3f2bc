import Mathlib.Logic.Function.Basic
import TypedLisp.Proofs.ArenaSteps
import TypedLisp.Proofs.Renaming

/-!
# Scopes up to their handles

One arena of scopes mirrors into another when every scope that is there in the first has
a copy in the second: with the copy of its parent, pinned like it, and binding the same
names to the copies of their types (`Scopes.Mirrors`). Different scopes have different
copies. Slots may be taken in another order, or not be taken again at all: the second
arena has come from a base that recycles slots or does not. Its scopes that are no copies
were pinned in the base.

The copy of the global scope may stand inside scopes of the base, whose names it then
shadows, and it may be allowed to bind further names (`Scopes.Setting`).

Looking up a name finds the same in both, and binding and removing names, pinning,
opening and releasing scopes on both sides keeps the arenas mirrored. When the copy of the
global scope is the global scope and nothing else is pinned in the base, there is nothing
but copies (`Mirrors.surjective`), and both arenas have equally many scopes
(`Mirrors.liveCount`).
-/

set_option autoImplicit false

namespace TypedLisp

namespace Scopes

/-- Where the copies of scopes stand: the arena that they were added to, the scopes of it
around the copy of the global scope, from the innermost on, and whether that copy may bind
names which the global scope does not bind. -/
structure Setting where
  base : Scopes
  surrounding : List ScopeId
  lenient : Prop

namespace Setting

/-- The copy of the global scope is the global scope, and it binds the same names. -/
def IsPlain (setting : Setting) : Prop := setting.surrounding = [] ∧ ¬ setting.lenient

/-- The plain setting of a base. -/
def plain (base : Scopes) : Setting := ⟨base, [], False⟩

theorem isPlain_plain (base : Scopes) : (plain base).IsPlain := ⟨rfl, id⟩

/-- The type of a name around the copy of the global scope. -/
def around? (setting : Setting) (name : String) : Option TypeId :=
  setting.surrounding.findSome? (setting.base.getLocal? · name)

/-- The copy of a scope shows what the scope binds a name to. That of the global scope may
leave the name to the scopes around it. -/
def Shows (setting : Setting) (id : ScopeId) (name : String) (bound copy : Option TypeId) : Prop :=
  if id = .global then copy.or (setting.around? name) = bound ∨ setting.lenient ∧ bound = none
  else copy = bound

variable {setting : Setting} {id : ScopeId} {name : String} {bound copy : Option TypeId}

theorem shows_iff (exactly : id = .global → setting.IsPlain) :
    setting.Shows id name bound copy ↔ copy = bound := by
  unfold Shows
  split
  · rename_i here
    obtain ⟨alone, strict⟩ := exactly here
    simp [around?, alone, strict]
  · rfl

theorem shows_self (alone : setting.surrounding = []) (id : ScopeId) (name : String)
    (bound : Option TypeId) : setting.Shows id name bound bound := by
  unfold Shows
  split
  · exact .inl (by simp [around?, alone])
  · rfl

theorem shows_some (setting : Setting) (id : ScopeId) (name : String) (type : TypeId) :
    setting.Shows id name (some type) (some type) := by
  unfold Shows
  split
  · exact .inl rfl
  · rfl

end Setting

end Scopes

/-- A scope and its copy. -/
structure Scope.Mirrors (setting : Scopes.Setting) (onTypes : TypeId → TypeId)
    (onScopes : ScopeId → ScopeId) (id : ScopeId) (scope copy : Scope) : Prop where
  parent : id ≠ .global → copy.parent = scope.parent.map onScopes
  pinned : id ≠ .global → copy.pinned = scope.pinned
  record : ∀ name, setting.Shows id name ((scope.record.get? name).map onTypes)
    (copy.record.get? name)

namespace Scopes

/-- Every scope of the first arena has a copy of its own in the second one, in which all
other scopes are pinned and come from the base. The scopes around the copy of the global
scope bind what they did in the base. -/
structure Mirrors (setting : Setting) (onTypes : TypeId → TypeId)
    (onScopes : ScopeId → ScopeId) (left right : Scopes) : Prop where
  wellFormed : left.WellFormed
  wellFormed_copies : right.WellFormed
  copied : ∀ {id : ScopeId} {scope : Scope}, left.get? id = some scope →
    ∃ copy, right.get? (onScopes id) = some copy ∧ scope.Mirrors setting onTypes onScopes id copy
  injective : ∀ {first second : ScopeId}, left.isLive first = true → left.isLive second = true →
    onScopes first = onScopes second → first = second
  global : right.Chain (onScopes .global) (onScopes .global :: setting.surrounding)
  outside : ∀ {id : ScopeId}, left.isLive id = true → onScopes id ∉ setting.surrounding
  around : ∀ id ∈ setting.surrounding, ∀ name,
    right.getLocal? id name = setting.base.getLocal? id name
  covered : ∀ {id : ScopeId}, right.isLive id = true →
    (∃ original, left.isLive original = true ∧ onScopes original = id) ∨
      setting.base.IsPinned id ∧ right.IsPinned id
  recycles : right.recycles = setting.base.recycles

variable {setting : Setting} {scopes left right : Scopes} {onTypes later : TypeId → TypeId}
  {onScopes laterScopes : ScopeId → ScopeId} {id : ScopeId} {path : List ScopeId}

/-- Looking up a name takes the first binding along the chain of a scope. -/
theorem owner?_bind_getLocal? (name : String) (chain : scopes.Chain id path) :
    (scopes.owner? id name).bind (scopes.getLocal? · name) =
      path.findSome? (scopes.getLocal? · name) := by
  rw [owner?_eq_find? name chain]
  clear chain
  induction path with
  | nil => rfl
  | cons member path ih =>
      have bound : scopes.binds name member = (scopes.getLocal? member name).isSome := by
        cases found : scopes.get? member <;>
          simp [binds, Scopes.getLocal?, found, NameTable.contains]
      rw [List.find?_cons, List.findSome?_cons, bound]
      cases here : scopes.getLocal? member name with
      | some type => simp [here]
      | none => simpa using ih

namespace Mirrors

theorem isLive (mirrors : Mirrors setting onTypes onScopes left right)
    (live : left.isLive id = true) : right.isLive (onScopes id) = true := by
  obtain ⟨scope, found⟩ := isLive_iff.1 live
  obtain ⟨copy, there, _⟩ := mirrors.copied found
  exact isLive_of_get? there

/-- A copy shows what its scope binds. -/
theorem shows (mirrors : Mirrors setting onTypes onScopes left right)
    (live : left.isLive id = true) (name : String) :
    setting.Shows id name ((left.getLocal? id name).map onTypes)
      (right.getLocal? (onScopes id) name) := by
  obtain ⟨scope, found⟩ := isLive_iff.1 live
  obtain ⟨copy, there, same⟩ := mirrors.copied found
  simp only [Scopes.getLocal?, found, there, Option.bind_some]
  exact same.record name

theorem getLocal? (mirrors : Mirrors setting onTypes onScopes left right)
    (live : left.isLive id = true) (exactly : id = .global → setting.IsPlain) (name : String) :
    right.getLocal? (onScopes id) name = (left.getLocal? id name).map onTypes :=
  (Setting.shows_iff exactly).1 (mirrors.shows live name)

theorem chain (mirrors : Mirrors setting onTypes onScopes left right) (chain : left.Chain id path) :
    right.Chain (onScopes id) (path.map onScopes ++ setting.surrounding) := by
  induction chain with
  | global _ _ => exact mirrors.global
  | outward found parented _ ih =>
      obtain ⟨copy, there, same⟩ := mirrors.copied found
      refine .outward there ?_ ih
      rw [same.parent (mirrors.wellFormed.ne_global found parented), parented, Option.map_some]

/-- The first binding of a name along a chain is copied, unless there is none and the
setting is lenient. -/
theorem findSome? (mirrors : Mirrors setting onTypes onScopes left right)
    (chain : left.Chain id path) (name : String) :
    (path.map onScopes ++ setting.surrounding).findSome? (right.getLocal? · name) =
        (path.findSome? (left.getLocal? · name)).map onTypes ∨
      setting.lenient ∧ path.findSome? (left.getLocal? · name) = none := by
  induction chain with
  | global found _ =>
      have shown := mirrors.shows (isLive_of_get? found) name
      rw [Setting.Shows, if_pos rfl] at shown
      have around : setting.surrounding.findSome? (right.getLocal? · name) =
          setting.around? name := by
        have same := List.map_congr_left fun id among => mirrors.around id among name
        simpa [Setting.around?, List.findSome?_map, Function.comp_def] using
          congrArg (List.findSome? fun bound => bound) same
      have first : ∀ scopes : Scopes, [ScopeId.global].findSome? (scopes.getLocal? · name) =
          scopes.getLocal? .global name := by
        intro scopes
        cases here : scopes.getLocal? .global name <;> simp [here]
      rw [first, List.map_singleton, List.singleton_append, List.findSome?_cons, around]
      refine shown.imp (fun same => ?_) (And.imp_right Option.map_eq_none_iff.1)
      rw [← same]
      cases right.getLocal? (onScopes .global) name <;> rfl
  | outward found parented _ ih =>
      have apart := mirrors.wellFormed.ne_global found parented
      have same := mirrors.getLocal? (isLive_of_get? found) (fun here => absurd here apart) name
      rw [List.map_cons, List.cons_append, List.findSome?_cons, List.findSome?_cons, same]
      cases left.getLocal? _ name with
      | some type => exact .inl rfl
      | none => exact ih

/-- A name is looked up alike from a scope and from its copy, unless the scope does not see
it and the setting is lenient. -/
theorem lookup (mirrors : Mirrors setting onTypes onScopes left right)
    (live : left.isLive id = true) (name : String) :
    right.lookup (onScopes id) name = (left.lookup id name).map onTypes ∨
      setting.lenient ∧ ∃ fault, left.lookup id name = .error fault := by
  obtain ⟨path, chain⟩ := mirrors.wellFormed.chain live
  unfold Scopes.lookup
  rw [owner?_bind_getLocal? name chain, owner?_bind_getLocal? name (mirrors.chain chain)]
  refine (mirrors.findSome? chain name).imp (fun same => ?_) (And.imp_right fun none => ?_)
  · rw [same]
    cases path.findSome? (left.getLocal? · name) <;> rfl
  · rw [none]
    exact ⟨_, rfl⟩

/-! ## Changes on both sides -/

/-- Handles may be renamed otherwise where there is nothing. -/
theorem congr (mirrors : Mirrors setting onTypes onScopes left right)
    (agree : ∀ {id : ScopeId} {scope : Scope} {name : String} {type : TypeId},
      left.get? id = some scope → scope.record.get? name = some type → later type = onTypes type)
    (agreeScopes : ∀ {id : ScopeId}, left.isLive id = true → laterScopes id = onScopes id) :
    Mirrors setting later laterScopes left right where
  wellFormed := mirrors.wellFormed
  wellFormed_copies := mirrors.wellFormed_copies
  copied {id scope} found := by
    obtain ⟨copy, there, same⟩ := mirrors.copied found
    rw [agreeScopes (isLive_of_get? found)]
    refine ⟨copy, there, fun apart => ?_, same.pinned, fun name => ?_⟩
    · rw [same.parent apart]
      exact Option.map_congr fun parent parented =>
        (agreeScopes (mirrors.wellFormed.isLive_parent found parented)).symm
    · rw [Option.map_congr fun type listed => agree found listed]
      exact same.record name
  injective liveFirst liveSecond same := by
    rw [agreeScopes liveFirst, agreeScopes liveSecond] at same
    exact mirrors.injective liveFirst liveSecond same
  global := by
    rw [agreeScopes mirrors.wellFormed.isLive_global]
    exact mirrors.global
  outside live := agreeScopes live ▸ mirrors.outside live
  around := mirrors.around
  covered live := by
    refine (mirrors.covered live).imp_left ?_
    rintro ⟨original, there, same⟩
    exact ⟨original, there, (agreeScopes there).trans same⟩
  recycles := mirrors.recycles

/-- A change of the scopes in their slots. -/
theorem map {leftAfter rightAfter : Scopes} (mirrors : Mirrors setting onTypes onScopes left right)
    (wellFormed : leftAfter.WellFormed) (wellFormed_copies : rightAfter.WellFormed)
    (change otherChange : ScopeId → Scope → Scope)
    (changed : ∀ id, leftAfter.get? id = (left.get? id).map (change id))
    (otherChanged : ∀ id, rightAfter.get? id = (right.get? id).map (otherChange id))
    (parents : ∀ id scope, (otherChange id scope).parent = scope.parent)
    (pinned : ∀ id scope, scope.pinned = true → (otherChange id scope).pinned = true)
    (records : ∀ id ∈ setting.surrounding, ∀ scope, (otherChange id scope).record = scope.record)
    (recycles : rightAfter.recycles = right.recycles)
    (alike : ∀ {id : ScopeId} {scope copy : Scope}, left.get? id = some scope →
      scope.Mirrors setting onTypes onScopes id copy →
        (change id scope).Mirrors setting onTypes onScopes id (otherChange (onScopes id) copy)) :
    Mirrors setting onTypes onScopes leftAfter rightAfter := by
  have live : ∀ id : ScopeId, leftAfter.isLive id = left.isLive id := by
    intro id
    rw [Scopes.isLive, changed, Option.isSome_map]
    rfl
  refine ⟨wellFormed, wellFormed_copies, ?_, fun {first second} liveFirst liveSecond => ?_,
    ?_, fun {id} alive => ?_, ?_, fun {id} alive => ?_, recycles.trans mirrors.recycles⟩
  · intro id scope found
    rw [changed] at found
    obtain ⟨old, foundOld, rfl⟩ := Option.map_eq_some_iff.1 found
    obtain ⟨copy, there, same⟩ := mirrors.copied foundOld
    exact ⟨_, by rw [otherChanged, there, Option.map_some], alike foundOld same⟩
  · rw [live] at liveFirst liveSecond
    exact mirrors.injective liveFirst liveSecond
  · refine mirrors.global.transport fun member _ scope found => ?_
    exact ⟨_, by rw [otherChanged, found, Option.map_some], parents member scope⟩
  · exact mirrors.outside ((live id).symm.trans alive)
  · intro id among name
    rw [← mirrors.around id among name, Scopes.getLocal?, Scopes.getLocal?, otherChanged]
    cases right.get? id with
    | none => rfl
    | some scope => simp only [Option.map_some, Option.bind_some, records id among]
  · rw [Scopes.isLive, otherChanged, Option.isSome_map] at alive
    rcases mirrors.covered alive with ⟨original, there, same⟩ | ⟨among, scope, found, isPinned⟩
    · exact .inl ⟨original, (live original).trans there, same⟩
    · exact .inr ⟨among, _, by rw [otherChanged, found, Option.map_some], pinned id scope isPinned⟩

theorem updateRecord (mirrors : Mirrors setting onTypes onScopes left right)
    (live : left.isLive id = true) {change otherChange : NameTable TypeId → NameTable TypeId}
    (alike : ∀ {record copy : NameTable TypeId},
      (∀ name, setting.Shows id name ((record.get? name).map onTypes) (copy.get? name)) →
        ∀ name, setting.Shows id name (((change record).get? name).map onTypes)
          ((otherChange copy).get? name)) :
    Mirrors setting onTypes onScopes (left.updateRecord id change)
      (right.updateRecord (onScopes id) otherChange) := by
  refine mirrors.map (mirrors.wellFormed.updateRecord id change)
    (mirrors.wellFormed_copies.updateRecord (onScopes id) otherChange) _ _
    (get?_updateRecord left id change) (get?_updateRecord right (onScopes id) otherChange)
    (fun other scope => ?_) (fun other scope pinned => ?_) (fun other among scope => ?_)
    (keeps_updateRecord right (onScopes id) otherChange).recycles ?_
  · unfold recordChanged
    split <;> rfl
  · unfold recordChanged
    split <;> exact pinned
  · have apart : other ≠ onScopes id := by
      rintro rfl
      exact mirrors.outside live among
    rw [recordChanged, if_neg apart]
  intro other scope copy found same
  have apart : onScopes other = onScopes id ↔ other = id :=
    ⟨mirrors.injective (isLive_of_get? found) live, congrArg onScopes⟩
  unfold recordChanged
  by_cases here : other = id
  · subst here
    rw [if_pos rfl, if_pos rfl]
    exact ⟨same.parent, same.pinned, alike same.record⟩
  · rw [if_neg here, if_neg fun equal => here (apart.1 equal)]
    exact same

/-- A name is put back to bindings of which the copy shows the original. -/
theorem restore (mirrors : Mirrors setting onTypes onScopes left right)
    (live : left.isLive id = true) {name : String} {previous copy : Option TypeId}
    (shown : setting.Shows id name (previous.map onTypes) copy) :
    Mirrors setting onTypes onScopes (left.restore id name previous)
      (right.restore (onScopes id) name copy) := by
  -- Whatever was bound before, the record binds the name to what is put back.
  have record : ∀ (scopes : Scopes) (id : ScopeId) (previous : Option TypeId),
      ∃ change : NameTable TypeId → NameTable TypeId,
        scopes.restore id name previous = scopes.updateRecord id change ∧
        ∀ table other, (change table).get? other =
          if name = other then previous else table.get? other := by
    intro scopes id previous
    cases previous with
    | some type => exact ⟨_, rfl, fun table other => NameTable.get?_insert ..⟩
    | none => exact ⟨_, rfl, fun table other => NameTable.get?_erase ..⟩
  obtain ⟨change, restored, listed⟩ := record left id previous
  obtain ⟨otherChange, otherRestored, otherListed⟩ := record right (onScopes id) copy
  rw [restored, otherRestored]
  refine mirrors.updateRecord live fun same other => ?_
  rw [listed, otherListed]
  by_cases here : name = other
  · subst here
    rwa [if_pos rfl, if_pos rfl]
  · rw [if_neg here, if_neg here]
    exact same other

theorem define (mirrors : Mirrors setting onTypes onScopes left right)
    (live : left.isLive id = true) (name : String) (type : TypeId) :
    Mirrors setting onTypes onScopes (left.define id name type)
      (right.define (onScopes id) name (onTypes type)) := by
  have shown : setting.Shows id name ((some type).map onTypes) (some (onTypes type)) :=
    setting.shows_some id name (onTypes type)
  exact mirrors.restore live shown

theorem pin (mirrors : Mirrors setting onTypes onScopes left right)
    (live : left.isLive id = true) :
    Mirrors setting onTypes onScopes (left.pin id) (right.pin (onScopes id)) := by
  obtain ⟨path, chain⟩ := mirrors.wellFormed.chain live
  refine mirrors.map (mirrors.wellFormed.pin live)
    (mirrors.wellFormed_copies.pin (mirrors.isLive live)) _ _ (get?_pin mirrors.wellFormed chain)
    (get?_pin mirrors.wellFormed_copies (mirrors.chain chain)) (fun _ _ => pinnedOn_parent)
    (fun _ _ pinned => pinned_pinnedOn pinned) (fun _ _ _ => pinnedOn_record)
    (keeps_pin mirrors.wellFormed_copies (mirrors.isLive live)).recycles ?_
  intro other scope copy found same
  have onPath : onScopes other ∈ path.map onScopes ++ setting.surrounding ↔ other ∈ path := by
    refine ⟨fun among => ?_, fun listed => List.mem_append_left _ (List.mem_map_of_mem listed)⟩
    rcases List.mem_append.1 among with among | among
    · obtain ⟨member, listed, equal⟩ := List.mem_map.1 among
      exact mirrors.injective (chain.isLive member listed) (isLive_of_get? found) equal ▸ listed
    · exact absurd among (mirrors.outside (isLive_of_get? found))
  unfold pinnedOn
  by_cases here : other ∈ path
  · rw [if_pos here, if_pos (onPath.2 here)]
    exact ⟨same.parent, fun _ => rfl, same.record⟩
  · rw [if_neg here, if_neg fun among => here (onPath.1 among)]
    exact same

/-- The handles of both sides with the new scopes. -/
theorem agree_push (wellFormed : left.WellFormed) (parent : ScopeId) (copy : ScopeId)
    (live : left.isLive id = true) :
    Function.update onScopes (left.push parent).1 copy id = onScopes id :=
  Function.update_of_ne (wellFormed.ne_push_fst parent live) _ _

theorem update_push (onScopes : ScopeId → ScopeId) (scopes : Scopes) (parent copy : ScopeId) :
    Function.update onScopes (scopes.push parent).1 copy (scopes.push parent).1 = copy :=
  Function.update_self _ _ _

theorem push (mirrors : Mirrors setting onTypes onScopes left right)
    (live : left.isLive id = true) :
    Mirrors setting onTypes
      (Function.update onScopes (left.push id).1 (right.push (onScopes id)).1)
      (left.push id).2 (right.push (onScopes id)).2 := by
  have wellFormed := mirrors.wellFormed
  have wellFormedRight := mirrors.wellFormed_copies
  have agree : ∀ {other : ScopeId}, left.isLive other = true →
      Function.update onScopes (left.push id).1 (right.push (onScopes id)).1 other =
        onScopes other := fun live => agree_push wellFormed id _ live
  have old := mirrors.congr (fun _ _ => rfl) agree
  have new := update_push onScopes left id (right.push (onScopes id)).1
  have fresh : ∀ {other : ScopeId}, left.isLive other = true →
      onScopes other ≠ (right.push (onScopes id)).1 :=
    fun live => wellFormedRight.ne_push_fst _ (mirrors.isLive live)
  have freshAround : ∀ {other : ScopeId}, other ∈ setting.surrounding →
      other ≠ (right.push (onScopes id)).1 :=
    fun among => wellFormedRight.ne_push_fst _
      (mirrors.global.isLive _ (List.mem_cons_of_mem _ among))
  refine ⟨wellFormed.push live, wellFormedRight.push (mirrors.isLive live), ?_, ?_, ?_, ?_, ?_, ?_,
    (recycles_push right _).trans mirrors.recycles⟩
  · intro other scope found
    rw [get?_push wellFormed] at found
    split at found
    · rename_i same
      subst same
      obtain rfl := Option.some.inj found
      refine ⟨⟨.empty, some (onScopes id), false⟩, ?_, fun _ => ?_, fun _ => rfl, fun name => ?_⟩
      · rw [new, get?_push wellFormedRight, if_pos rfl]
      · exact congrArg some (agree live).symm
      · exact (Setting.shows_iff fun here => absurd here (wellFormed.push_ne_global id)).2 rfl
    · obtain ⟨copy, there, same⟩ := old.copied found
      exact ⟨copy, get?_push_of_get? wellFormedRight _ there, same⟩
  · intro first second liveFirst liveSecond same
    rcases (wellFormed.isLive_push_iff id).1 liveFirst with rfl | liveFirst
    · rcases (wellFormed.isLive_push_iff id).1 liveSecond with rfl | liveSecond
      · rfl
      · rw [new, agree liveSecond] at same
        exact absurd same.symm (fresh liveSecond)
    · rcases (wellFormed.isLive_push_iff id).1 liveSecond with rfl | liveSecond
      · rw [new, agree liveFirst] at same
        exact absurd same (fresh liveFirst)
      · exact old.injective liveFirst liveSecond same
  · exact old.global.transport fun member _ scope found =>
      ⟨scope, get?_push_of_get? wellFormedRight _ found, rfl⟩
  · intro other alive among
    rcases (wellFormed.isLive_push_iff id).1 alive with rfl | alive
    · exact freshAround (new ▸ among) rfl
    · exact old.outside alive among
  · intro other among name
    rw [← mirrors.around other among name, Scopes.getLocal?, Scopes.getLocal?,
      get?_push wellFormedRight, if_neg (freshAround among)]
  · intro other alive
    rcases (wellFormedRight.isLive_push_iff _).1 alive with rfl | alive
    · exact .inl ⟨(left.push id).1, (wellFormed.isLive_push_iff id).2 (.inl rfl), new⟩
    · rcases old.covered alive with ⟨original, there, equal⟩ | ⟨among, scope, found, pinned⟩
      · exact .inl ⟨original, (wellFormed.isLive_push_iff id).2 (.inr there), equal⟩
      · exact .inr ⟨among, scope, get?_push_of_get? wellFormedRight _ found, pinned⟩

theorem isPinned (mirrors : Mirrors setting onTypes onScopes left right) (apart : id ≠ .global)
    (pinned : left.IsPinned id) : right.IsPinned (onScopes id) := by
  obtain ⟨scope, found, isPinned⟩ := pinned
  obtain ⟨copy, there, same⟩ := mirrors.copied found
  exact ⟨copy, there, (same.pinned apart).trans isPinned⟩

/-- A child of a copy is the copy of a child, or it is pinned. So a copy has no unpinned
children if the scope that it copies has none. -/
theorem isPinned_of_child (mirrors : Mirrors setting onTypes onScopes left right)
    (live : left.isLive id = true) (apart : id ≠ .global)
    (childless : ∀ {child : ScopeId} {scope : Scope}, left.get? child = some scope →
      scope.parent = some id → left.IsPinned id)
    {child : ScopeId} {scope : Scope} (found : right.get? child = some scope)
    (parented : scope.parent = some (onScopes id)) : right.IsPinned (onScopes id) := by
  rcases mirrors.covered (isLive_of_get? found) with
    ⟨original, there, rfl⟩ | ⟨_, again, foundAgain, pinned⟩
  · obtain ⟨content, foundOriginal⟩ := isLive_iff.1 there
    obtain ⟨copy, foundCopy, same⟩ := mirrors.copied foundOriginal
    obtain rfl := Option.some.inj (found.symm.trans foundCopy)
    by_cases atGlobal : original = .global
    · -- The copy of the global scope stands inside scopes that are no copies.
      subst atGlobal
      have inside := mirrors.global.parent_mem List.mem_cons_self found parented
      rcases List.mem_cons.1 inside with same | among
      · exact absurd (mirrors.injective live there same) apart
      · exact absurd among (mirrors.outside live)
    · rw [same.parent atGlobal] at parented
      obtain ⟨parent, isParent, equal⟩ := Option.map_eq_some_iff.1 parented
      have liveParent := mirrors.wellFormed.isLive_parent foundOriginal isParent
      obtain rfl := mirrors.injective liveParent live equal
      exact mirrors.isPinned apart (childless foundOriginal isParent)
  · obtain rfl := Option.some.inj (found.symm.trans foundAgain)
    exact mirrors.wellFormed_copies.pinned_parent found pinned parented

/-- A scope whose unpinned children have gone is released on both sides. -/
theorem release (mirrors : Mirrors setting onTypes onScopes left right)
    (live : left.isLive id = true) (apart : id ≠ .global)
    (childless : ∀ {child : ScopeId} {scope : Scope}, left.get? child = some scope →
      scope.parent = some id → left.IsPinned id) :
    Mirrors setting onTypes onScopes (left.release id) (right.release (onScopes id)) := by
  have liveOld : ∀ {other : ScopeId}, (left.release id).isLive other = true →
      left.isLive other = true := by
    intro other alive
    obtain ⟨scope, found⟩ := isLive_iff.1 alive
    exact isLive_of_get? (get?_of_release found)
  have kept : ∀ {other : ScopeId} {scope : Scope}, other ≠ onScopes id →
      right.get? other = some scope → (right.release (onScopes id)).get? other = some scope :=
    fun other found => (get?_release_of_ne other).trans found
  refine ⟨mirrors.wellFormed.release live childless,
    mirrors.wellFormed_copies.release (mirrors.isLive live)
      (mirrors.isPinned_of_child live apart childless), ?_,
    fun liveFirst liveSecond => mirrors.injective (liveOld liveFirst) (liveOld liveSecond), ?_,
    fun alive => mirrors.outside (liveOld alive), ?_, ?_,
    (recycles_release right _).trans mirrors.recycles⟩
  · intro other scope found
    have before := get?_of_release found
    obtain ⟨copy, there, same⟩ := mirrors.copied before
    refine ⟨copy, ?_, same⟩
    by_cases here : other = id
    · subst here
      exact get?_release_of_pinned there
        ((same.pinned apart).trans (pinned_of_get?_release found).2)
    · exact kept (fun equal => here (mirrors.injective (isLive_of_get? before) live equal)) there
  · refine mirrors.global.transport fun member among scope found => ⟨scope, kept ?_ found, rfl⟩
    rintro rfl
    rcases List.mem_cons.1 among with same | among
    · exact apart (mirrors.injective live mirrors.wellFormed.isLive_global same)
    · exact mirrors.outside live among
  · intro other among name
    have elsewhere : other ≠ onScopes id := by
      rintro rfl
      exact mirrors.outside live among
    rw [← mirrors.around other among name, Scopes.getLocal?, Scopes.getLocal?,
      get?_release_of_ne elsewhere]
  · intro other alive
    obtain ⟨content, found⟩ := isLive_iff.1 alive
    by_cases here : other = onScopes id
    · subst here
      obtain ⟨there, pinned⟩ := pinned_of_get?_release found
      obtain ⟨scope, foundScope⟩ := isLive_iff.1 live
      obtain ⟨copy, foundCopy, same⟩ := mirrors.copied foundScope
      obtain rfl := Option.some.inj (there.symm.trans foundCopy)
      exact .inl ⟨id, isLive_of_get? (get?_release_of_pinned foundScope
        ((same.pinned apart).symm.trans pinned)), rfl⟩
    · rw [get?_release_of_ne here] at found
      rcases mirrors.covered (isLive_of_get? found) with
        ⟨original, there, rfl⟩ | ⟨among, scope, foundScope, pinned⟩
      · have elsewhere : original ≠ id := fun equal => here (congrArg onScopes equal)
        refine .inl ⟨original, ?_, rfl⟩
        rw [Scopes.isLive, get?_release_of_ne elsewhere]
        exact there
      · exact .inr ⟨among, scope, kept here foundScope, pinned⟩

/-! ## The same handles -/

/-- Scopes and their copies have the same handles, and there is nothing around the copy of
the global scope. -/
theorem of_same_handles (alone : setting.surrounding = []) (wellFormed : left.WellFormed)
    (wellFormed_copies : right.WellFormed)
    (copied : ∀ {id : ScopeId} {scope : Scope}, left.get? id = some scope →
      ∃ copy, right.get? id = some copy ∧ copy.parent = scope.parent ∧
        copy.pinned = scope.pinned ∧
        ∀ name, setting.Shows id name (scope.record.get? name) (copy.record.get? name))
    (covered : ∀ {id : ScopeId}, right.isLive id = true →
      left.isLive id = true ∨ setting.base.IsPinned id ∧ right.IsPinned id)
    (recycles : right.recycles = setting.base.recycles) :
    Mirrors setting (fun id => id) (fun id => id) left right where
  wellFormed := wellFormed
  wellFormed_copies := wellFormed_copies
  copied found := by
    obtain ⟨copy, there, parent, pinned, record⟩ := copied found
    refine ⟨copy, there, fun _ => by rw [parent, Option.map_id'], fun _ => pinned, fun name => ?_⟩
    rw [Option.map_id']
    exact record name
  injective _ _ same := same
  global := by
    obtain ⟨scope, found, orphan, _⟩ := wellFormed_copies.global
    rw [alone]
    exact .global found orphan
  outside _ := by simp [alone]
  around := by simp [alone]
  covered live := (covered live).imp_left fun there => ⟨_, there, rfl⟩
  recycles := recycles

theorem onScopes_global (mirrors : Mirrors setting onTypes onScopes left right)
    (alone : setting.surrounding = []) : onScopes .global = .global := by
  have chain := mirrors.global
  rw [alone] at chain
  generalize onScopes .global = copy at chain
  cases chain with
  | global => rfl
  | outward _ _ rest => cases rest

/-! ## Plain settings -/

/-- In a plain setting the global scope has a copy like any other. -/
theorem copied_plain (mirrors : Mirrors setting onTypes onScopes left right)
    (plain : setting.IsPlain) {scope : Scope} (found : left.get? id = some scope) :
    ∃ copy, right.get? (onScopes id) = some copy ∧ copy.parent = scope.parent.map onScopes ∧
      copy.pinned = scope.pinned ∧
      ∀ name, copy.record.get? name = (scope.record.get? name).map onTypes := by
  obtain ⟨copy, there, same⟩ := mirrors.copied found
  have record : ∀ name, copy.record.get? name = (scope.record.get? name).map onTypes :=
    fun name => (Setting.shows_iff fun _ => plain).1 (same.record name)
  refine ⟨copy, there, ?_, ?_, record⟩ <;> by_cases here : id = .global
  -- Both global scopes have no parent and are pinned.
  · subst here
    obtain ⟨_, again, orphan, _⟩ := mirrors.wellFormed.global
    obtain ⟨_, copyAgain, orphanCopy, _⟩ := mirrors.wellFormed_copies.global
    rw [mirrors.onScopes_global plain.1] at there
    obtain rfl := Option.some.inj (found.symm.trans again)
    obtain rfl := Option.some.inj (there.symm.trans copyAgain)
    rw [orphan, orphanCopy, Option.map_none]
  · exact same.parent here
  · subst here
    obtain ⟨_, again, _, pinned⟩ := mirrors.wellFormed.global
    obtain ⟨_, copyAgain, _, pinnedCopy⟩ := mirrors.wellFormed_copies.global
    rw [mirrors.onScopes_global plain.1] at there
    obtain rfl := Option.some.inj (found.symm.trans again)
    obtain rfl := Option.some.inj (there.symm.trans copyAgain)
    rw [pinned, pinnedCopy]
  · exact same.pinned here

end Mirrors

/-! ## Counting scopes -/

/-- The handles of the scopes that are there. -/
def liveIds (scopes : Scopes) : List ScopeId :=
  ((List.finRange scopes.slots.size).map fun index => (⟨index.val⟩ : ScopeId)).filter scopes.isLive

theorem mem_liveIds {scopes : Scopes} : id ∈ scopes.liveIds ↔ scopes.isLive id = true := by
  rw [liveIds, List.mem_filter]
  refine and_iff_right_of_imp fun live => ?_
  obtain ⟨scope, found⟩ := isLive_iff.1 live
  exact List.mem_map.2 ⟨⟨id.index, index_lt_of_get? found⟩, List.mem_finRange _, rfl⟩

theorem nodup_liveIds (scopes : Scopes) : scopes.liveIds.Nodup := by
  refine ((List.nodup_finRange _).map fun first second same => ?_).filter _
  exact Fin.ext (ScopeId.mk.inj same)

theorem length_liveIds (scopes : Scopes) : scopes.liveIds.length = scopes.liveCount := by
  have slots : scopes.slots.toList = (List.finRange scopes.slots.size).map
      fun index => scopes.slots[index] := (List.map_getElem_finRange scopes.slots.toList).symm
  rw [liveIds, ← List.countP_eq_length_filter, List.countP_map, liveCount, ← Array.countP_toList,
    slots, List.countP_map]
  refine List.countP_congr fun index _ => ?_
  simp [isLive, get?]

/-- In a plain setting, when only the global scope is pinned in the base, there is nothing
but copies. -/
theorem Mirrors.surjective (mirrors : Mirrors setting onTypes onScopes left right)
    (plain : setting.IsPlain) (only : ∀ {id : ScopeId}, setting.base.IsPinned id → id = .global)
    (live : right.isLive id = true) :
    ∃ original, left.isLive original = true ∧ onScopes original = id := by
  rcases mirrors.covered live with copied | ⟨pinned, _⟩
  · exact copied
  · exact ⟨.global, mirrors.wellFormed.isLive_global,
      (mirrors.onScopes_global plain.1).trans (only pinned).symm⟩

/-- **Arenas with nothing but copies have equally many scopes.** -/
theorem Mirrors.liveCount (mirrors : Mirrors setting onTypes onScopes left right)
    (plain : setting.IsPlain) (only : ∀ {id : ScopeId}, setting.base.IsPinned id → id = .global) :
    right.liveCount = left.liveCount := by
  have same : (left.liveIds.map onScopes).Perm right.liveIds := by
    refine (List.perm_ext_iff_of_nodup ?_ right.nodup_liveIds).2 fun id => ?_
    · exact left.nodup_liveIds.map_on fun first liveFirst second liveSecond =>
        mirrors.injective (mem_liveIds.1 liveFirst) (mem_liveIds.1 liveSecond)
    · rw [List.mem_map, mem_liveIds]
      constructor
      · rintro ⟨original, live, rfl⟩
        exact mirrors.isLive (mem_liveIds.1 live)
      · intro live
        obtain ⟨original, there, same⟩ := mirrors.surjective plain only live
        exact ⟨original, mem_liveIds.2 there, same⟩
  have lengths := same.length_eq
  rw [List.length_map, length_liveIds, length_liveIds] at lengths
  exact lengths.symm

end Scopes

end TypedLisp
