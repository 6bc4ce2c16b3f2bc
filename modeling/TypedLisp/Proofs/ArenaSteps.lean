import TypedLisp.Proofs.Arena

/-!
# Steps on well-formed arenas

Binding, pinning, opening and releasing keep an arena well-formed. What else they
keep is the relation `Keeps`, which is reflexive and transitive.

A scope may be released when no unpinned scope has it as its parent. This holds of
a scope that was opened before steps related by `Keeps`: what is new is pinned, and
what is old had its parent when the slot was still dead. So a scope that is opened
and then released leaves no trace on the scopes from before
(`keeps_release_push`).
-/

set_option autoImplicit false

namespace TypedLisp

namespace Scopes

variable {scopes : Scopes} {id other parent : ScopeId} {scope : Scope} {path : List ScopeId}

namespace WellFormed

theorem isLive_global (wellFormed : scopes.WellFormed) : scopes.isLive .global = true := by
  obtain ⟨scope, found, _⟩ := wellFormed.global
  exact isLive_of_get? found

/-- The parent of a scope that is there is there. -/
theorem isLive_parent (wellFormed : scopes.WellFormed) (found : scopes.get? id = some scope)
    (parented : scope.parent = some parent) : scopes.isLive parent = true := by
  obtain ⟨path, chain⟩ := wellFormed.chain (isLive_of_get? found)
  exact chain.isLive parent (chain.parent_mem chain.start found parented)

theorem ne_global (wellFormed : scopes.WellFormed) (found : scopes.get? id = some scope)
    (parented : scope.parent = some parent) : id ≠ .global := by
  rintro rfl
  obtain ⟨global, there, orphan, _⟩ := wellFormed.global
  obtain rfl := Option.some.inj (found.symm.trans there)
  simp [orphan] at parented

end WellFormed

/-! ## What is kept -/

namespace Keeps

variable {writable wider : Set ScopeId} {before middle after : Scopes}

theorem refl (writable : Set ScopeId) (scopes : Scopes) : Keeps writable scopes scopes where
  kept found := ⟨_, found, rfl, fun pinned => pinned, fun _ => rfl⟩
  fresh dead found := by simp [dead] at found
  recycles := rfl

theorem trans (first : Keeps writable before middle) (second : Keeps writable middle after) :
    Keeps writable before after where
  kept found := by
    obtain ⟨between, foundBetween, parent, pinned, record⟩ := first.kept found
    obtain ⟨later, foundLater, parent', pinned', record'⟩ := second.kept foundBetween
    exact ⟨later, foundLater, parent'.trans parent, fun isPinned => pinned' (pinned isPinned),
      fun outside => (record' outside).trans (record outside)⟩
  fresh {id scope} dead found := by
    cases between : middle.get? id with
    | none => exact second.fresh between found
    | some content =>
        obtain ⟨later, foundLater, _, pinned, _⟩ := second.kept between
        obtain rfl := Option.some.inj (found.symm.trans foundLater)
        exact pinned (first.fresh dead between)
  recycles := second.recycles.trans first.recycles

theorem mono (subset : writable ⊆ wider) (keeps : Keeps writable before after) :
    Keeps wider before after where
  kept found := by
    obtain ⟨later, foundLater, parent, pinned, record⟩ := keeps.kept found
    exact ⟨later, foundLater, parent, pinned, fun outside => record fun inside =>
      outside (subset inside)⟩
  fresh := keeps.fresh
  recycles := keeps.recycles

theorem isLive (keeps : Keeps writable before after) (live : before.isLive id = true) :
    after.isLive id = true := by
  obtain ⟨scope, found⟩ := isLive_iff.1 live
  obtain ⟨later, foundLater, _⟩ := keeps.kept found
  exact isLive_of_get? foundLater

theorem isPinned (keeps : Keeps writable before after) (pinned : before.IsPinned id) :
    after.IsPinned id := by
  obtain ⟨scope, found, isPinned⟩ := pinned
  obtain ⟨later, foundLater, _, pinned', _⟩ := keeps.kept found
  exact ⟨later, foundLater, pinned' isPinned⟩

theorem getLocal? (keeps : Keeps writable before after) (live : before.isLive id = true)
    (outside : id ∉ writable) (name : String) :
    after.getLocal? id name = before.getLocal? id name := by
  obtain ⟨scope, found⟩ := isLive_iff.1 live
  obtain ⟨later, foundLater, _, _, record⟩ := keeps.kept found
  simp [Scopes.getLocal?, found, foundLater, record outside]

end Keeps

theorem Chain.keeps {writable : Set ScopeId} {after : Scopes} (chain : scopes.Chain id path)
    (keeps : Keeps writable scopes after) : after.Chain id path :=
  chain.transport fun _ _ _ found => by
    obtain ⟨later, foundLater, parent, _⟩ := keeps.kept found
    exact ⟨later, foundLater, parent⟩

/-! ## Changing scopes in place -/

/-- A change of the scopes in their slots that leaves the parents and unpins
nothing keeps an arena well-formed, as long as pinning still goes outward. -/
theorem WellFormed.map {after : Scopes} (wellFormed : scopes.WellFormed)
    (change : ScopeId → Scope → Scope)
    (changed : ∀ id, after.get? id = (scopes.get? id).map (change id))
    (parents : ∀ id scope, (change id scope).parent = scope.parent)
    (pinned : ∀ id scope, scope.pinned = true → (change id scope).pinned = true)
    (outward : ∀ {id parent : ScopeId} {scope : Scope}, scopes.get? id = some scope →
      (change id scope).pinned = true → scope.parent = some parent → after.IsPinned parent)
    (rest : after.slots.size = scopes.slots.size ∧ after.free = scopes.free ∧
      after.recycles = scopes.recycles) : after.WellFormed where
  global := by
    obtain ⟨scope, found, orphan, isPinned⟩ := wellFormed.global
    refine ⟨change .global scope, ?_, (parents _ _).trans orphan, pinned _ _ isPinned⟩
    rw [changed, found, Option.map_some]
  chain {id} live := by
    obtain ⟨later, found⟩ := isLive_iff.1 live
    rw [changed] at found
    obtain ⟨scope, found, _⟩ := Option.map_eq_some_iff.1 found
    obtain ⟨path, chain⟩ := wellFormed.chain (isLive_of_get? found)
    refine ⟨path, chain.transport fun member _ content there => ?_⟩
    exact ⟨change member content, by rw [changed, there, Option.map_some], parents _ _⟩
  pinned_parent {id parent later} found isPinned parented := by
    rw [changed] at found
    obtain ⟨scope, there, rfl⟩ := Option.map_eq_some_iff.1 found
    exact outward there isPinned ((parents _ _).symm.trans parented)
  free_nodup := rest.2.1 ▸ wellFormed.free_nodup
  mem_free id := by
    rw [rest.2.1, rest.2.2, rest.1, changed, Option.map_eq_none_iff]
    exact wellFormed.mem_free id

theorem Keeps.map {after : Scopes} (writable : Set ScopeId) (change : ScopeId → Scope → Scope)
    (changed : ∀ id, after.get? id = (scopes.get? id).map (change id))
    (parents : ∀ id scope, (change id scope).parent = scope.parent)
    (pinned : ∀ id scope, scope.pinned = true → (change id scope).pinned = true)
    (records : ∀ id scope, id ∉ writable → (change id scope).record = scope.record)
    (recycles : after.recycles = scopes.recycles) : Keeps writable scopes after where
  kept {id scope} found :=
    ⟨change id scope, by rw [changed, found, Option.map_some], parents _ _, pinned _ _,
      records _ _⟩
  fresh dead found := by simp [changed, dead] at found
  recycles := recycles

/-! ### Binding names -/

/-- Changes the record of one scope. -/
def recordChanged (id : ScopeId) (change : NameTable TypeId → NameTable TypeId)
    (other : ScopeId) (scope : Scope) : Scope :=
  if other = id then { scope with record := change scope.record } else scope

theorem get?_updateRecord (scopes : Scopes) (id : ScopeId)
    (change : NameTable TypeId → NameTable TypeId) (other : ScopeId) :
    (scopes.updateRecord id change).get? other =
      (scopes.get? other).map (recordChanged id change other) := by
  unfold updateRecord
  cases found : scopes.get? id with
  | none =>
      by_cases same : other = id
      · simp [same, found]
      · cases scopes.get? other <;> simp [recordChanged, same]
  | some scope =>
      dsimp only
      rw [get?_set (index_lt_of_get? found)]
      by_cases same : other = id
      · simp [same, found, recordChanged]
      · cases scopes.get? other <;> simp [recordChanged, same]

theorem rest_updateRecord (scopes : Scopes) (id : ScopeId)
    (change : NameTable TypeId → NameTable TypeId) :
    (scopes.updateRecord id change).slots.size = scopes.slots.size ∧
      (scopes.updateRecord id change).free = scopes.free ∧
      (scopes.updateRecord id change).recycles = scopes.recycles := by
  unfold updateRecord
  split <;> simp [set]

theorem keeps_updateRecord (scopes : Scopes) (id : ScopeId)
    (change : NameTable TypeId → NameTable TypeId) :
    Keeps {id} scopes (scopes.updateRecord id change) := by
  refine .map {id} (recordChanged id change) (get?_updateRecord scopes id change) ?_ ?_ ?_
    (rest_updateRecord scopes id change).2.2
  · intro other scope
    unfold recordChanged
    split <;> rfl
  · intro other scope pinned
    unfold recordChanged
    split <;> exact pinned
  · intro other scope outside
    have apart : other ≠ id := outside
    rw [recordChanged, if_neg apart]

theorem WellFormed.updateRecord (wellFormed : scopes.WellFormed) (id : ScopeId)
    (change : NameTable TypeId → NameTable TypeId) :
    (scopes.updateRecord id change).WellFormed := by
  have keeps := keeps_updateRecord scopes id change
  refine wellFormed.map (recordChanged id change) (get?_updateRecord scopes id change) ?_ ?_ ?_
    (rest_updateRecord scopes id change)
  · intro other scope
    unfold recordChanged
    split <;> rfl
  · intro other scope pinned
    unfold recordChanged
    split <;> exact pinned
  · intro other parent scope found pinned parented
    have before : scope.pinned = true := by
      unfold recordChanged at pinned
      split at pinned <;> exact pinned
    exact keeps.isPinned (wellFormed.pinned_parent found before parented)

/-! ### Pinning -/

/-- Pinning a scope pins the scopes of its chain and changes nothing else. -/
theorem get?_pin (wellFormed : scopes.WellFormed) (chain : scopes.Chain id path)
    (other : ScopeId) :
    (scopes.pin id).get? other = (scopes.get? other).map (pinnedOn path other) :=
  get?_pinUpTo chain (fun _ => wellFormed.pinned_parent) chain.length_le other

theorem pinnedOn_parent : (pinnedOn path other scope).parent = scope.parent := by
  unfold pinnedOn
  split <;> rfl

theorem pinnedOn_record : (pinnedOn path other scope).record = scope.record := by
  unfold pinnedOn
  split <;> rfl

theorem pinned_pinnedOn (pinned : scope.pinned = true) :
    (pinnedOn path other scope).pinned = true := by
  rw [pinnedOn_of_pinned pinned, pinned]

/-- A scope after pinning is one from before with the same names. -/
theorem get?_of_pin (wellFormed : scopes.WellFormed) (live : scopes.isLive id = true)
    (found : (scopes.pin id).get? other = some scope) :
    ∃ old, scopes.get? other = some old ∧ old.record = scope.record := by
  obtain ⟨path, chain⟩ := wellFormed.chain live
  rw [get?_pin wellFormed chain] at found
  obtain ⟨old, there, rfl⟩ := Option.map_eq_some_iff.1 found
  exact ⟨old, there, pinnedOn_record.symm⟩

theorem keeps_pin (wellFormed : scopes.WellFormed) (live : scopes.isLive id = true) :
    Keeps ∅ scopes (scopes.pin id) := by
  obtain ⟨path, chain⟩ := wellFormed.chain live
  exact .map ∅ (pinnedOn path) (get?_pin wellFormed chain) (fun _ _ => pinnedOn_parent)
    (fun _ _ => pinned_pinnedOn) (fun _ _ _ => pinnedOn_record)
    (slots_size_pinUpTo _ scopes id).2.2

theorem isPinned_pin (wellFormed : scopes.WellFormed) (live : scopes.isLive id = true) :
    (scopes.pin id).IsPinned id := by
  obtain ⟨path, chain⟩ := wellFormed.chain live
  obtain ⟨scope, found⟩ := isLive_iff.1 live
  refine ⟨pinnedOn path id scope, by rw [get?_pin wellFormed chain, found, Option.map_some], ?_⟩
  rw [pinnedOn, if_pos chain.start]

theorem WellFormed.pin (wellFormed : scopes.WellFormed) (live : scopes.isLive id = true) :
    (scopes.pin id).WellFormed := by
  obtain ⟨path, chain⟩ := wellFormed.chain live
  have keeps := keeps_pin wellFormed live
  have along : ∀ member ∈ path, (scopes.pin id).IsPinned member := by
    intro member onPath
    obtain ⟨scope, found⟩ := isLive_iff.1 (chain.isLive member onPath)
    refine ⟨pinnedOn path member scope, ?_, by rw [pinnedOn, if_pos onPath]⟩
    rw [get?_pin wellFormed chain, found, Option.map_some]
  refine wellFormed.map (pinnedOn path) (get?_pin wellFormed chain) (fun _ _ => pinnedOn_parent)
    (fun _ _ => pinned_pinnedOn) ?_ (slots_size_pinUpTo _ scopes id)
  intro inner outer scope found pinned parented
  by_cases onPath : inner ∈ path
  · -- The parent of a scope on the chain is on the chain too.
    exact along outer (chain.parent_mem onPath found parented)
  · rw [pinnedOn, if_neg onPath] at pinned
    exact keeps.isPinned (wellFormed.pinned_parent found pinned parented)

/-! ## Opening and releasing -/

theorem push_of_cons {free : List ScopeId} (listed : scopes.free = id :: free)
    (parent : ScopeId) :
    scopes.push parent = (id, { scopes.set id (some ⟨.empty, some parent, false⟩) with free }) := by
  simp [push, listed]

theorem push_of_nil (listed : scopes.free = []) (parent : ScopeId) :
    scopes.push parent = (⟨scopes.slots.size⟩,
      { scopes with slots := scopes.slots.push (some ⟨.empty, some parent, false⟩) }) := by
  simp [push, listed]

/-- The slot that a new scope takes is dead before. -/
theorem get?_push_fst (wellFormed : scopes.WellFormed) (parent : ScopeId) :
    scopes.get? (scopes.push parent).1 = none := by
  cases listed : scopes.free with
  | cons id free =>
      rw [push_of_cons listed]
      exact ((wellFormed.mem_free id).1 (by simp [listed])).2.2
  | nil => simp [push_of_nil listed, get?]

/-- A scope that is there is not the one that is opened next. -/
theorem WellFormed.ne_push_fst (wellFormed : scopes.WellFormed) (parent : ScopeId)
    (live : scopes.isLive id = true) : id ≠ (scopes.push parent).1 := by
  rintro rfl
  rw [isLive, get?_push_fst wellFormed parent] at live
  cases live

theorem WellFormed.push_ne_global (wellFormed : scopes.WellFormed) (parent : ScopeId) :
    (scopes.push parent).1 ≠ .global :=
  (wellFormed.ne_push_fst parent wellFormed.isLive_global).symm

theorem get?_push (wellFormed : scopes.WellFormed) (parent other : ScopeId) :
    (scopes.push parent).2.get? other =
      if other = (scopes.push parent).1 then some ⟨.empty, some parent, false⟩
      else scopes.get? other := by
  cases listed : scopes.free with
  | cons id free =>
      rw [push_of_cons listed]
      exact get?_set ((wellFormed.mem_free id).1 (by simp [listed])).2.1 _
  | nil =>
      rw [push_of_nil listed]
      by_cases same : other = ⟨scopes.slots.size⟩
      · simp [get?, same]
      · have apart : other.index ≠ scopes.slots.size := by
          intro equal
          apply same
          cases other
          simp_all
        simp [get?, same, Array.getElem?_push, apart]

theorem get?_push_of_get? (wellFormed : scopes.WellFormed) (parent : ScopeId)
    (found : scopes.get? id = some scope) : (scopes.push parent).2.get? id = some scope := by
  rw [get?_push wellFormed, if_neg (wellFormed.ne_push_fst parent (isLive_of_get? found)), found]

theorem WellFormed.isLive_push_iff (wellFormed : scopes.WellFormed) (parent : ScopeId) :
    (scopes.push parent).2.isLive id = true ↔
      id = (scopes.push parent).1 ∨ scopes.isLive id = true := by
  rw [isLive, isLive, get?_push wellFormed]
  split <;> simp_all

theorem recycles_push (scopes : Scopes) (parent : ScopeId) :
    (scopes.push parent).2.recycles = scopes.recycles := by
  unfold push
  split <;> rfl

theorem WellFormed.push (wellFormed : scopes.WellFormed) (live : scopes.isLive parent = true) :
    (scopes.push parent).2.WellFormed where
  global := by
    obtain ⟨scope, found, rest⟩ := wellFormed.global
    exact ⟨scope, get?_push_of_get? wellFormed parent found, rest⟩
  chain {id} alive := by
    have old : ∀ {id : ScopeId}, scopes.isLive id = true →
        ∃ path, (scopes.push parent).2.Chain id path := by
      intro id alive
      obtain ⟨path, chain⟩ := wellFormed.chain alive
      exact ⟨path, chain.transport fun _ _ scope found =>
        ⟨scope, get?_push_of_get? wellFormed parent found, rfl⟩⟩
    by_cases same : id = (scopes.push parent).1
    · obtain ⟨path, chain⟩ := old live
      exact ⟨id :: path, .outward (by rw [get?_push wellFormed, if_pos same]) rfl chain⟩
    · obtain ⟨scope, found⟩ := isLive_iff.1 alive
      rw [get?_push wellFormed, if_neg same] at found
      exact old (isLive_of_get? found)
  pinned_parent {id outer scope} found pinned parented := by
    rw [get?_push wellFormed] at found
    split at found
    · obtain rfl := Option.some.inj found
      simp at pinned
    · obtain ⟨content, there, isPinned⟩ := wellFormed.pinned_parent found pinned parented
      exact ⟨content, get?_push_of_get? wellFormed parent there, isPinned⟩
  free_nodup := by
    have distinct := wellFormed.free_nodup
    cases listed : scopes.free with
    | cons id free =>
        rw [listed] at distinct
        rw [push_of_cons listed]
        exact (List.nodup_cons.1 distinct).2
    | nil =>
        rw [push_of_nil listed]
        exact distinct
  mem_free id := by
    have free := wellFormed.mem_free id
    rw [recycles_push, get?_push wellFormed]
    cases listed : scopes.free with
    | cons first others =>
        have distinct := wellFormed.free_nodup
        rw [listed] at free distinct
        rw [push_of_cons listed]
        by_cases same : id = first
        · subst same
          simpa using (List.nodup_cons.1 distinct).1
        · simpa [same] using free
    | nil =>
        rw [listed] at free
        rw [push_of_nil listed]
        simp only [listed, List.not_mem_nil, false_iff, not_and, Array.size_push] at free ⊢
        intro recycles inside
        split
        · simp
        · rename_i apart
          refine free recycles (Nat.lt_of_le_of_ne (Nat.le_of_lt_succ inside) fun equal => apart ?_)
          cases id
          simp_all

theorem get?_release_of_ne (apart : other ≠ id) :
    (scopes.release id).get? other = scopes.get? other := by
  unfold release
  split
  · rename_i scope found
    split
    · rfl
    · exact (get?_set (index_lt_of_get? found) none).trans (if_neg apart)
  · rfl

/-- A pinned scope is not released. -/
theorem pinned_of_get?_release (found : (scopes.release id).get? id = some scope) :
    scopes.get? id = some scope ∧ scope.pinned = true := by
  unfold release at found
  split at found
  · rename_i before there
    split at found
    · rename_i pinned
      obtain rfl := Option.some.inj (there.symm.trans found)
      exact ⟨there, pinned⟩
    · have emptied : (scopes.set id none).get? id = none :=
        (get?_set (index_lt_of_get? there) none).trans (if_pos rfl)
      cases emptied.symm.trans found
  · rename_i dead
    simp [dead] at found

theorem get?_release_of_pinned (found : scopes.get? id = some scope)
    (pinned : scope.pinned = true) : (scopes.release id).get? id = some scope := by
  simp [Scopes.release, found, pinned]

/-- What is there after a release was there before. -/
theorem get?_of_release (found : (scopes.release id).get? other = some scope) :
    scopes.get? other = some scope := by
  by_cases same : other = id
  · subst same
    exact (pinned_of_get?_release found).1
  · exact (get?_release_of_ne same).symm.trans found

theorem IsPinned.release (pinned : scopes.IsPinned other) : (scopes.release id).IsPinned other := by
  obtain ⟨scope, found, isPinned⟩ := pinned
  refine ⟨scope, ?_, isPinned⟩
  by_cases same : other = id
  · subst same
    exact get?_release_of_pinned found isPinned
  · exact (get?_release_of_ne same).trans found

theorem recycles_release (scopes : Scopes) (id : ScopeId) :
    (scopes.release id).recycles = scopes.recycles := by
  unfold release
  split
  · split <;> rfl
  · rfl

/-- A chain goes past a scope that is nobody's parent, unless it starts there. -/
theorem Chain.notMem_of_childless (chain : scopes.Chain id path)
    (childless : ∀ {child : ScopeId} {scope : Scope}, scopes.get? child = some scope →
      scope.parent ≠ some other) (apart : id ≠ other) : other ∉ path := by
  induction chain with
  | global => exact fun onPath => apart (List.mem_singleton.1 onPath).symm
  | outward found parented _ ih =>
      intro onPath
      rcases List.mem_cons.1 onPath with same | onPath
      · exact apart same.symm
      · refine ih ?_ onPath
        rintro rfl
        exact childless found parented

/-- A scope without unpinned children can be released. -/
theorem WellFormed.release (wellFormed : scopes.WellFormed) (live : scopes.isLive id = true)
    (childless : ∀ {child : ScopeId} {scope : Scope}, scopes.get? child = some scope →
      scope.parent = some id → scopes.IsPinned id) : (scopes.release id).WellFormed := by
  obtain ⟨content, there⟩ := isLive_iff.1 live
  by_cases pinned : content.pinned = true
  · simpa [Scopes.release, there, pinned] using wellFormed
  have unpinned : ¬ scopes.IsPinned id := by
    rintro ⟨again, foundAgain, isPinned⟩
    obtain rfl := Option.some.inj (there.symm.trans foundAgain)
    exact pinned isPinned
  have released : scopes.release id = { scopes.set id none with
      free := if scopes.recycles then id :: scopes.free else scopes.free } := by
    simp [Scopes.release, there, pinned]
  have slot : ∀ other, (scopes.release id).get? other =
      if other = id then none else scopes.get? other := by
    intro other
    rw [released]
    exact get?_set (index_lt_of_get? there) none
  have others : ∀ {other : ScopeId} {scope : Scope}, other ≠ id → scopes.get? other = some scope →
      (scopes.release id).get? other = some scope := by
    intro other scope apart found
    rw [slot, if_neg apart, found]
  constructor
  case global =>
    obtain ⟨scope, found, orphan, isPinned⟩ := wellFormed.global
    refine ⟨scope, others ?_ found, orphan, isPinned⟩
    rintro rfl
    exact unpinned ⟨scope, found, isPinned⟩
  case chain =>
    intro other alive
    obtain ⟨scope, found⟩ := isLive_iff.1 alive
    rw [slot] at found
    split at found
    · simp at found
    · rename_i apart
      obtain ⟨path, chain⟩ := wellFormed.chain (isLive_of_get? found)
      have avoids : id ∉ path := chain.notMem_of_childless
        (fun found parented => unpinned (childless found parented)) apart
      refine ⟨path, chain.transport fun member onPath scope found => ⟨scope, others ?_ found, rfl⟩⟩
      rintro rfl
      exact avoids onPath
  case pinned_parent =>
    intro inner outer scope found isPinned parented
    rw [slot] at found
    split at found
    · simp at found
    · obtain ⟨target, foundTarget, pinnedTarget⟩ :=
        wellFormed.pinned_parent found isPinned parented
      refine ⟨target, others ?_ foundTarget, pinnedTarget⟩
      rintro rfl
      exact unpinned ⟨target, foundTarget, pinnedTarget⟩
  case free_nodup =>
    have apart : id ∉ scopes.free := fun listed => by
      simpa [there] using (wellFormed.mem_free id).1 listed
    rw [released]
    by_cases recycles : scopes.recycles = true
    · simpa [recycles] using ⟨apart, wellFormed.free_nodup⟩
    · simpa [recycles] using wellFormed.free_nodup
  case mem_free =>
    intro other
    have free := wellFormed.mem_free other
    rw [slot, recycles_release, released]
    by_cases same : other = id
    · subst same
      by_cases recycles : scopes.recycles = true
      · simp [recycles, index_lt_of_get? there]
      · simpa [recycles] using free
    · by_cases recycles : scopes.recycles = true
      · simpa [recycles, same] using free
      · simpa [recycles, same] using free

/-- A scope that has been opened is pinned by the time that it has a child: the child is
newer still, hence pinned, and so is its parent. -/
theorem isPinned_of_child_push {after : Scopes} (wellFormed : scopes.WellFormed)
    (live : scopes.isLive parent = true) {writable : Set ScopeId}
    (inner : Keeps writable (scopes.push parent).2 after) (wellFormedAfter : after.WellFormed)
    {child : ScopeId} (found : after.get? child = some scope)
    (parented : scope.parent = some (scopes.push parent).1) :
    after.IsPinned (scopes.push parent).1 := by
  cases before : (scopes.push parent).2.get? child with
  | none => exact wellFormedAfter.pinned_parent found (inner.fresh before found) parented
  | some content =>
      -- Neither the new scope nor an older one has the new scope as its parent.
      exfalso
      obtain ⟨later, foundLater, sameParent, _⟩ := inner.kept before
      obtain rfl := Option.some.inj (found.symm.trans foundLater)
      rw [parented] at sameParent
      rw [get?_push wellFormed] at before
      split at before
      · obtain rfl := Option.some.inj before
        exact wellFormed.ne_push_fst parent live (Option.some.inj sameParent).symm
      · have alive := wellFormed.isLive_parent before sameParent.symm
        exact wellFormed.ne_push_fst parent alive rfl

/-- **A scope that is opened and released leaves no trace.** What happens in
between may bind names in it and open further scopes that stay pinned. -/
theorem keeps_release_push {after : Scopes} (wellFormed : scopes.WellFormed)
    (live : scopes.isLive parent = true)
    (inner : Keeps {(scopes.push parent).1} (scopes.push parent).2 after)
    (wellFormedAfter : after.WellFormed) :
    Keeps ∅ scopes (after.release (scopes.push parent).1) ∧
      (after.release (scopes.push parent).1).WellFormed := by
  have opened : (scopes.push parent).2.get? (scopes.push parent).1 =
      some ⟨.empty, some parent, false⟩ := by
    rw [get?_push wellFormed, if_pos rfl]
  obtain ⟨last, foundLast, _⟩ := inner.kept opened
  refine ⟨⟨?_, ?_, ?_⟩, wellFormedAfter.release (isLive_of_get? foundLast)
    (isPinned_of_child_push wellFormed live inner wellFormedAfter)⟩
  · intro id scope found
    have apart := wellFormed.ne_push_fst parent (isLive_of_get? found)
    obtain ⟨later, foundLater, parent', pinned, record⟩ :=
      inner.kept (get?_push_of_get? wellFormed parent found)
    exact ⟨later, (get?_release_of_ne apart).trans foundLater, parent', pinned,
      fun _ => record apart⟩
  · intro id scope before found
    by_cases same : id = (scopes.push parent).1
    · subst same
      exact (pinned_of_get?_release found).2
    · rw [get?_release_of_ne same] at found
      exact inner.fresh (by rw [get?_push wellFormed, if_neg same, before]) found
  · rw [recycles_release, inner.recycles, recycles_push]

end Scopes

end TypedLisp
