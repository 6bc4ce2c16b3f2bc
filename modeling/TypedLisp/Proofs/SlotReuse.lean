import TypedLisp.Proofs.Relabelling
import TypedLisp.Proofs.Traces

/-!
# Taking slots again cannot be observed

An arena of scopes may take released slots again, or take a new slot for every scope. The
two kinds of arenas give scopes different handles, but checking over them has the same
outcomes, call by call: the same types and the same errors, with as many scopes after each
call, which correspond to each other one by one (`Session.trace_recycling`).

The sessions over the two arenas mirror: their types differ in the handles of scopes only,
and every scope of either arena is or has a copy. A handle of a scope that is not there any
more is never followed, since the sessions that mirror are well-formed.
-/

set_option autoImplicit false

namespace TypedLisp

/-- No slot of an arena has been released, so it may as well not be one that recycles. -/
theorem Scopes.WellFormed.withoutRecycling {scopes : Scopes} (wellFormed : scopes.WellFormed)
    (unreleased : scopes.free = []) : { scopes with recycles := false }.WellFormed where
  global := wellFormed.global
  chain live := by
    obtain ⟨path, chain⟩ := wellFormed.chain live
    exact ⟨path, chain.transport fun _ _ scope found => ⟨scope, found, rfl⟩⟩
  pinned_parent := wellFormed.pinned_parent
  free_nodup := wellFormed.free_nodup
  mem_free id := by simp [unreleased]

/-- Only the global scope is pinned in a new arena. -/
theorem Scopes.eq_global_of_isPinned_initial {recycles : Bool} {id : ScopeId}
    (pinned : (Scopes.initial recycles).IsPinned id) : id = .global := by
  obtain ⟨scope, found, _⟩ := pinned
  exact (Session.eq_global_of_get?_initial found).1

namespace Session

open Registry (relabelling relabelling_lawful)

/-! ## Corresponding sessions -/

/-- The types of two sessions are the same up to the handles of scopes, and their scopes
correspond one by one: inside corresponding scopes, pinned alike, and binding the same names
to the same types. The second session has not put any slot aside. -/
structure SameScopes (onScopes : ScopeId → ScopeId) (left right : Session) : Prop where
  types : right.types = left.types.relabel onScopes
  liveCount : right.scopes.liveCount = left.scopes.liveCount
  global : onScopes .global = .global
  copied : ∀ {id : ScopeId} {scope : Scope}, left.scopes.get? id = some scope →
    ∃ copy, right.scopes.get? (onScopes id) = some copy ∧
      copy.parent = scope.parent.map onScopes ∧ copy.pinned = scope.pinned ∧
      ∀ name, copy.record.get? name = scope.record.get? name
  injective : ∀ {first second : ScopeId}, left.scopes.isLive first = true →
    left.scopes.isLive second = true → onScopes first = onScopes second → first = second
  surjective : ∀ {id : ScopeId}, right.scopes.isLive id = true →
    ∃ original, left.scopes.isLive original = true ∧ onScopes original = id
  unrecycled : right.scopes.recycles = false ∧ right.scopes.free = []

/-- Two traces have the same outcomes, and after each call the scopes correspond. What
corresponded before the call is still there and goes on to correspond. -/
inductive Parallel : (ScopeId → ScopeId) → Session → List (Except Error TypeId × Session) →
    List (Except Error TypeId × Session) → Prop where
  | nil {onScopes : ScopeId → ScopeId} {left : Session} : Parallel onScopes left [] []
  | cons {onScopes later : ScopeId → ScopeId} {left reached other : Session}
      {outcome : Except Error TypeId} {steps others : List (Except Error TypeId × Session)} :
      SameScopes later reached other →
        (∀ {id : ScopeId}, left.scopes.isLive id = true →
          reached.scopes.isLive id = true ∧ later id = onScopes id) →
        Parallel later reached steps others →
          Parallel onScopes left ((outcome, reached) :: steps) ((outcome, other) :: others)

/-- Sessions over an arena that recycles slots and over one that does not. -/
abbrev Recycled : Type := Mirrored relabelling (.plain (.initial false))

namespace Recycled

theorem onTypes_eq (world : Recycled) (id : TypeId) : world.onTypes id = id := by
  obtain ⟨_, same, _⟩ := world.mirrors.types
  exact congrFun same id

theorem sameScopes (world : Recycled) : SameScopes world.onScopes world.left world.right where
  types := world.mirrors.types.2.2
  liveCount := world.mirrors.scopes.liveCount (Scopes.Setting.isPlain_plain _)
    Scopes.eq_global_of_isPinned_initial
  global := world.mirrors.scopes.onScopes_global rfl
  copied found := by
    obtain ⟨copy, there, parent, pinned, record⟩ :=
      world.mirrors.scopes.copied_plain (Scopes.Setting.isPlain_plain _) found
    refine ⟨copy, there, parent, pinned, fun name => ?_⟩
    rw [record, funext world.onTypes_eq, Option.map_id']
  injective := world.mirrors.scopes.injective
  surjective := world.mirrors.scopes.surjective (Scopes.Setting.isPlain_plain _)
    Scopes.eq_global_of_isPinned_initial
  unrecycled := by
    have recycles : world.right.scopes.recycles = false := world.mirrors.scopes.recycles
    refine ⟨recycles, List.eq_nil_iff_forall_not_mem.2 fun id among => ?_⟩
    have recycling := ((world.mirrors.scopes.wellFormed_copies.mem_free id).1 among).1
    rw [recycles] at recycling
    cases recycling

/-- Outcomes that correspond are the same. -/
theorem eq_of_answers {world : Recycled} {answer other : Except Error TypeId}
    (answers : Answers ((mirroring relabelling (.plain (.initial false))).Types world) answer other) :
    other = answer := by
  cases answers with
  | @ok type copy types => exact congrArg Except.ok (types.same.trans (world.onTypes_eq type))
  | error fault => rfl

theorem parallel {world : Recycled} {steps others : List (Except Error TypeId × Session)}
    (paired : world.Paired steps others) : Parallel world.onScopes world.left steps others := by
  induction paired with
  | nil => exact .nil
  | @cons world later answer other _ _ after answers _ ih =>
      obtain rfl := eq_of_answers answers
      exact .cons (sameScopes later) after.scopes ih

end Recycled

/-! ## New sessions -/

/-- New sessions over the two kinds of arenas differ only in the kind. -/
theorem initialOver_eq (builtins : Bool) : initialOver (.initial false) builtins =
    { initial builtins with scopes := { (initial builtins).scopes with recycles := false } } := by
  cases builtins <;> rfl

/-- New sessions over the two kinds of arenas. -/
def Recycled.initial (builtins : Bool) : Recycled where
  left := Session.initial builtins
  right := initialOver (.initial false) builtins
  onTypes id := id
  onScopes id := id
  mirrors := by
    have settled := settled_initial builtins
    have unreleased : (Session.initial builtins).scopes.free = [] := by cases builtins <;> rfl
    have idle : (Session.initial builtins).active = [] := settled.idle
    rw [initialOver_eq]
    refine ⟨settled.wellFormed, ⟨settled.wellFormed.types, rfl, ?_⟩, ?_, ?_, ?_, ?_, ?_⟩
    · exact ((Session.initial builtins).types.relabel_id).symm
    · refine .of_same_handles rfl settled.wellFormed.scopes
        (settled.wellFormed.scopes.withoutRecycling unreleased)
        (fun {id scope} found => ⟨scope, found, rfl, rfl, fun name => ?_⟩) .inl rfl
      exact Scopes.Setting.shows_self rfl id name _
    · exact (List.map_id' _).symm
    · simp [idle]
    · exact fun _ _ _ => trivial
    · exact fun _ _ => Scopes.Setting.isPlain_plain _

/-- **Taking slots again cannot be observed.** On a new session and on one whose arena takes
a new slot for every scope, any calls have outcomes, the same ones call by call, and after
each call there are equally many scopes, which correspond one by one and bind the same names
to the same types. -/
theorem trace_recycling (builtins : Bool) (calls : List Call) :
    ∃ steps others, trace calls (initial builtins) = some steps ∧
      trace calls (initialOver (.initial false) builtins) = some others ∧
      Parallel (fun id => id) (initial builtins) steps others := by
  obtain ⟨steps, others, run, otherRun, paired⟩ :=
    (Recycled.initial builtins).trace relabelling_lawful calls fun _ _ _ _ => trivial
  exact ⟨steps, others, run, otherRun, Recycled.parallel paired⟩

/-- A class that is declared after a block stands in the slot of the block, or in a new
one. -/
example : ∀ recycles,
    ((initialOver (.initial recycles) false).checkSource
      "(if true (begin 1) 2) (class Pet null (begin))").map
        (fun ended => (ended.2.scopes.liveCount, ended.2.scopes.slots.size)) =
      some (2, if recycles then 2 else 3) := by
  decide +kernel

end Session

end TypedLisp
