import Mathlib.Data.Set.Basic
import Mathlib.Data.List.Nodup
import Mathlib.Data.List.Perm.Subperm
import TypedLisp.Scopes

/-!
# Well-formed arenas of scopes

In a well-formed arena the global scope is pinned and has no parent, every scope
leads through its parents to the global scope, the parent of a pinned scope is
pinned, and the list of free slots holds exactly the dead slots, each once.

Slots are taken again, so the handles of parents are not ordered and a chain of
parents has no measure of its own. It is kept as a path instead (`Chain`). A path
repeats no slot, so it is no longer than the arena, and the bounded walks that
look a name up and that pin scopes go all the way along it (`owner?_eq_find?`,
`get?_pinUpTo`).

The relation `Keeps` says what steps on an arena leave alone: the scopes of the
first arena stay, with their parents and, outside a given set, with the names that
they bind, and the scopes that the second arena has beyond them are pinned.
-/

set_option autoImplicit false

namespace TypedLisp

namespace Scopes

/-- There is a scope in a slot, and it is pinned. -/
def IsPinned (scopes : Scopes) (id : ScopeId) : Prop :=
  ∃ scope, scopes.get? id = some scope ∧ scope.pinned = true

/-- The slots from one scope outward to the global scope, all of them live. -/
inductive Chain (scopes : Scopes) : ScopeId → List ScopeId → Prop where
  | global {scope : Scope} :
      scopes.get? .global = some scope → scope.parent = none → Chain scopes .global [.global]
  | outward {id parent : ScopeId} {scope : Scope} {path : List ScopeId} :
      scopes.get? id = some scope → scope.parent = some parent → Chain scopes parent path →
        Chain scopes id (id :: path)

/-- The arena is rooted in a pinned global scope, pinning goes outward, and the
free slots are the dead ones. -/
structure WellFormed (scopes : Scopes) : Prop where
  global : ∃ scope, scopes.get? .global = some scope ∧ scope.parent = none ∧ scope.pinned = true
  chain : ∀ {id : ScopeId}, scopes.isLive id = true → ∃ path, scopes.Chain id path
  pinned_parent : ∀ {id parent : ScopeId} {scope : Scope}, scopes.get? id = some scope →
    scope.pinned = true → scope.parent = some parent → scopes.IsPinned parent
  free_nodup : scopes.free.Nodup
  mem_free : ∀ id, id ∈ scopes.free ↔
    scopes.recycles = true ∧ id.index < scopes.slots.size ∧ scopes.get? id = none

/-- The scopes of the first arena are there in the second one, with their parents
and, outside the writable ones, with their names. Pinned scopes stay pinned, and
what is new is pinned. -/
structure Keeps (writable : Set ScopeId) (before after : Scopes) : Prop where
  kept : ∀ {id : ScopeId} {scope : Scope}, before.get? id = some scope →
    ∃ later, after.get? id = some later ∧ later.parent = scope.parent ∧
      (scope.pinned = true → later.pinned = true) ∧
      (id ∉ writable → later.record = scope.record)
  fresh : ∀ {id : ScopeId} {scope : Scope}, before.get? id = none →
    after.get? id = some scope → scope.pinned = true
  recycles : after.recycles = before.recycles

/-! ## Slots -/

variable {scopes : Scopes} {id other parent : ScopeId} {scope : Scope} {path : List ScopeId}

theorem isLive_iff : scopes.isLive id = true ↔ ∃ scope, scopes.get? id = some scope := by
  simp [isLive, Option.isSome_iff_exists]

theorem isLive_of_get? (found : scopes.get? id = some scope) : scopes.isLive id = true :=
  isLive_iff.2 ⟨scope, found⟩

theorem IsPinned.isLive (pinned : scopes.IsPinned id) : scopes.isLive id = true := by
  obtain ⟨scope, found, _⟩ := pinned
  exact isLive_of_get? found

theorem index_lt_of_get? (found : scopes.get? id = some scope) :
    id.index < scopes.slots.size := by
  by_contra outside
  simp [get?, Array.getElem?_eq_none (Nat.le_of_not_lt outside)] at found

theorem get?_set (inside : id.index < scopes.slots.size) (content : Option Scope) :
    (scopes.set id content).get? other = if other = id then content else scopes.get? other := by
  by_cases same : other = id
  · subst same
    simp [get?, set, inside]
  · have apart : id.index ≠ other.index := by
      intro equal
      apply same
      cases id
      cases other
      simp_all
    simp [get?, set, same, apart]

@[simp] theorem size_set (content : Option Scope) :
    (scopes.set id content).slots.size = scopes.slots.size := by
  simp [set]

/-! ## Chains -/

namespace Chain

theorem isLive (chain : scopes.Chain id path) : ∀ member ∈ path, scopes.isLive member = true := by
  induction chain with
  | global found _ =>
      intro member among
      obtain rfl := List.mem_singleton.1 among
      exact isLive_of_get? found
  | outward found _ _ ih =>
      intro member among
      rcases List.mem_cons.1 among with rfl | among
      · exact isLive_of_get? found
      · exact ih member among

theorem start (chain : scopes.Chain id path) : id ∈ path := by
  cases chain <;> simp

/-- Every member of a chain is the start of the rest of it. -/
theorem from_member (chain : scopes.Chain id path) :
    ∀ member ∈ path, ∃ rest, scopes.Chain member rest ∧ rest.length ≤ path.length := by
  induction chain with
  | global found orphan =>
      intro member among
      obtain rfl := List.mem_singleton.1 among
      exact ⟨_, .global found orphan, Nat.le_refl _⟩
  | outward found parented chain ih =>
      intro member among
      rcases List.mem_cons.1 among with rfl | among
      · exact ⟨_, .outward found parented chain, Nat.le_refl _⟩
      · obtain ⟨rest, inner, shorter⟩ := ih member among
        exact ⟨rest, inner, by simp only [List.length_cons]; omega⟩

theorem parent_mem (chain : scopes.Chain id path) {member : ScopeId} (onPath : member ∈ path)
    (found : scopes.get? member = some scope) (parented : scope.parent = some parent) :
    parent ∈ path := by
  induction chain with
  | global again orphan =>
      obtain rfl := List.mem_singleton.1 onPath
      obtain rfl := Option.some.inj (found.symm.trans again)
      simp [orphan] at parented
  | outward again parentedToo chain ih =>
      rcases List.mem_cons.1 onPath with rfl | onPath
      · obtain rfl := Option.some.inj (found.symm.trans again)
        obtain rfl := Option.some.inj (parented.symm.trans parentedToo)
        exact List.mem_cons_of_mem _ chain.start
      · exact List.mem_cons_of_mem _ (ih onPath)

/-- A scope has one chain. -/
theorem unique {first second : List ScopeId} (left : scopes.Chain id first)
    (right : scopes.Chain id second) : first = second := by
  induction left generalizing second with
  | global found orphan =>
      cases right with
      | global => rfl
      | outward again parented _ =>
          obtain rfl := Option.some.inj (found.symm.trans again)
          simp [orphan] at parented
  | outward found parented _ ih =>
      cases right with
      | global again orphan =>
          obtain rfl := Option.some.inj (found.symm.trans again)
          simp [orphan] at parented
      | outward again parentedToo rest =>
          obtain rfl := Option.some.inj (found.symm.trans again)
          obtain rfl := Option.some.inj (parented.symm.trans parentedToo)
          rw [ih rest]

theorem nodup (chain : scopes.Chain id path) : path.Nodup := by
  induction chain with
  | global => exact List.nodup_singleton _
  | @outward id parent scope path found parented chain ih =>
      refine List.nodup_cons.2 ⟨fun again => ?_, ih⟩
      -- The chain from a second place of `id` would be as long as the first one.
      obtain ⟨rest, inner, shorter⟩ := chain.from_member id again
      have same := inner.unique (.outward found parented chain)
      subst same
      simp only [List.length_cons] at shorter
      omega

theorem length_le (chain : scopes.Chain id path) : path.length ≤ scopes.slots.size := by
  have injective : Function.Injective ScopeId.index := by
    intro first second same
    cases first
    cases second
    simp_all
  have inside : path.map ScopeId.index ⊆ List.range scopes.slots.size := by
    intro index among
    obtain ⟨member, onPath, rfl⟩ := List.mem_map.1 among
    obtain ⟨scope, found⟩ := isLive_iff.1 (chain.isLive member onPath)
    exact List.mem_range.2 (index_lt_of_get? found)
  have bound := (List.Nodup.subperm (chain.nodup.map injective) inside).length_le
  simpa using bound

/-- Whether there is a chain depends only on the parents of its members. -/
theorem transport {arena : Scopes} (chain : scopes.Chain id path)
    (same : ∀ member ∈ path, ∀ scope, scopes.get? member = some scope →
      ∃ later, arena.get? member = some later ∧ later.parent = scope.parent) :
    arena.Chain id path := by
  induction chain with
  | global found orphan =>
      obtain ⟨later, there, parent⟩ := same _ (List.mem_singleton.2 rfl) _ found
      exact .global there (parent.trans orphan)
  | outward found parented _ ih =>
      obtain ⟨later, there, parent⟩ := same _ List.mem_cons_self _ found
      exact .outward there (parent.trans parented)
        (ih fun member among => same member (List.mem_cons_of_mem _ among))

/-- Where pinning goes outward, it goes all along a chain. -/
theorem isPinned (chain : scopes.Chain id path)
    (outward : ∀ {id parent : ScopeId} {scope : Scope}, id ∈ path → scopes.get? id = some scope →
      scope.pinned = true → scope.parent = some parent → scopes.IsPinned parent)
    (pinned : scopes.IsPinned id) : ∀ member ∈ path, scopes.IsPinned member := by
  induction chain with
  | global =>
      intro member among
      obtain rfl := List.mem_singleton.1 among
      exact pinned
  | @outward id parent scope path found parented _ ih =>
      intro member among
      rcases List.mem_cons.1 among with rfl | among
      · exact pinned
      · obtain ⟨scope', found', isPinned⟩ := pinned
        obtain rfl := Option.some.inj (found.symm.trans found')
        exact ih (fun among => outward (List.mem_cons_of_mem _ among))
          (outward List.mem_cons_self found isPinned parented) member among

end Chain

/-! ## Walks along a chain -/

/-- Whether a scope itself binds a name. -/
def binds (scopes : Scopes) (name : String) (id : ScopeId) : Bool :=
  (scopes.get? id).any (·.record.contains name)

theorem ownerWithin_eq_find? (name : String) (chain : scopes.Chain id path) {steps : Nat}
    (enough : path.length ≤ steps) :
    scopes.ownerWithin name steps id = path.find? (scopes.binds name) := by
  induction chain generalizing steps with
  | @global scope found orphan =>
      obtain ⟨steps, rfl⟩ : ∃ more, steps = more + 1 := ⟨steps - 1, by simp at enough; omega⟩
      by_cases bound : scope.record.contains name = true <;>
        simp [ownerWithin, found, orphan, binds, bound]
  | @outward _ _ scope _ found parented _ ih =>
      obtain ⟨steps, rfl⟩ : ∃ more, steps = more + 1 := ⟨steps - 1, by simp at enough; omega⟩
      have rest := ih (show _ ≤ steps by simpa using enough)
      by_cases bound : scope.record.contains name = true <;>
        simp [ownerWithin, found, parented, binds, bound, rest]

/-- Looking up the owner of a name goes along the whole chain of a scope. -/
theorem owner?_eq_find? (name : String) (chain : scopes.Chain id path) :
    scopes.owner? id name = path.find? (scopes.binds name) :=
  ownerWithin_eq_find? name chain chain.length_le

/-- Pins a scope that is on a path. -/
def pinnedOn (path : List ScopeId) (id : ScopeId) (scope : Scope) : Scope :=
  if id ∈ path then { scope with pinned := true } else scope

theorem pinnedOn_of_pinned (pinned : scope.pinned = true) : pinnedOn path id scope = scope := by
  unfold pinnedOn
  split
  · rw [← pinned]
  · rfl

theorem get?_pinUpTo (chain : scopes.Chain id path)
    (outward : ∀ {id parent : ScopeId} {scope : Scope}, id ∈ path → scopes.get? id = some scope →
      scope.pinned = true → scope.parent = some parent → scopes.IsPinned parent)
    {steps : Nat} (enough : path.length ≤ steps) (other : ScopeId) :
    (pinUpTo steps scopes id).get? other = (scopes.get? other).map (pinnedOn path other) := by
  induction path generalizing scopes id steps with
  | nil => cases chain
  | cons first path ih =>
      obtain ⟨steps, rfl⟩ : ∃ more, steps = more + 1 := ⟨steps - 1, by simp at enough; omega⟩
      obtain rfl : id = first := by cases chain <;> rfl
      obtain ⟨scope, found⟩ := isLive_iff.1 (chain.isLive id List.mem_cons_self)
      have inside := index_lt_of_get? found
      by_cases pinned : scope.pinned = true
      · -- The walk stops here, and all of the path is pinned already.
        have all := chain.isPinned outward ⟨scope, found, pinned⟩
        simp only [pinUpTo, found, pinned, if_true]
        cases there : scopes.get? other with
        | none => rfl
        | some content =>
            by_cases onPath : other ∈ id :: path
            · obtain ⟨again, foundAgain, isPinned⟩ := all other onPath
              obtain rfl := Option.some.inj (there.symm.trans foundAgain)
              rw [Option.map_some, pinnedOn_of_pinned isPinned]
            · simp [pinnedOn, onPath]
      · simp only [pinUpTo, found, pinned, if_false, Bool.false_eq_true]
        have only : ∀ other, (scopes.set id (some { scope with pinned := true })).get? other =
            (scopes.get? other).map (pinnedOn [id] other) := by
          intro other
          rw [get?_set inside]
          by_cases same : other = id
          · subst same
            simp [found, pinnedOn]
          · cases scopes.get? other <;> simp [same, pinnedOn]
        cases chain with
        | global again orphan =>
            obtain rfl := Option.some.inj (found.symm.trans again)
            simpa [orphan] using only other
        | @outward _ parent _ _ again parented chain =>
            obtain rfl := Option.some.inj (found.symm.trans again)
            simp only [parented]
            have apart : id ∉ path := by
              have distinct := (Chain.outward found parented chain).nodup
              exact (List.nodup_cons.1 distinct).1
            have untouched : ∀ member ∈ path,
                (scopes.set id (some { scope with pinned := true })).get? member =
                  scopes.get? member := by
              intro member onPath
              rw [get?_set inside, if_neg]
              rintro rfl
              exact apart onPath
            have rest := ih
              (chain.transport fun member onPath content there =>
                ⟨content, (untouched member onPath).trans there, rfl⟩)
              (by
                intro inner outer content onPath there isPinned parentedToo
                rw [untouched inner onPath] at there
                obtain ⟨target, foundTarget, pinnedTarget⟩ :=
                  outward (List.mem_cons_of_mem _ onPath) there isPinned parentedToo
                rw [IsPinned, only outer, foundTarget]
                exact ⟨_, rfl, by unfold pinnedOn; split <;> simp [pinnedTarget]⟩)
              (show path.length ≤ steps by simpa using enough)
            simp only [parented] at rest only
            rw [rest, only other, Option.map_map]
            congr 1
            funext content
            by_cases same : other = id
            · simp [pinnedOn, same, apart]
            · simp [pinnedOn, same]

theorem slots_size_pinUpTo (steps : Nat) (scopes : Scopes) (id : ScopeId) :
    (pinUpTo steps scopes id).slots.size = scopes.slots.size ∧
      (pinUpTo steps scopes id).free = scopes.free ∧
      (pinUpTo steps scopes id).recycles = scopes.recycles := by
  induction steps generalizing scopes id with
  | zero => simp [pinUpTo]
  | succ steps ih =>
      simp only [pinUpTo]
      cases scopes.get? id with
      | none => simp
      | some scope =>
          by_cases pinned : scope.pinned = true
          · simp [pinned]
          · simp only [pinned, if_false, Bool.false_eq_true]
            split
            · simpa [set] using ih (scopes.set id (some { scope with pinned := true })) _
            · simp [set]

end Scopes

end TypedLisp
