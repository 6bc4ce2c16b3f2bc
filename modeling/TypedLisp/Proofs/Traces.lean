import TypedLisp.Proofs.Reachable
import TypedLisp.Proofs.SessionMirrors

/-!
# Calls on sessions that mirror

A session is used through calls: source texts, programs and expressions are checked one
after the other, and each call goes on from what the ones before it have left behind, also
when they have failed (`Session.trace`).

On sessions that mirror in a plain setting, calls that declare admitted names have
corresponding outcomes one by one (`Session.Mirrored.trace`): the same error, or types that
correspond. Checking ends on the first session because that is well-formed. The second one
has the generic functions of the first and so a bound on the depth that is no lower.
-/

set_option autoImplicit false

namespace TypedLisp

/-! ## The bound on the depth -/

namespace Registry

variable {left right : Registry} {onTypes : TypeId → TypeId} {onScopes : ScopeId → ScopeId}

/-- The handles of the types that are there. -/
def handles (types : Registry) : Finset TypeId :=
  (Finset.range types.types.size).image TypeId.mk

/-- What the type of a handle adds to the size of all bodies. -/
def sizeAt (types : Registry) (id : TypeId) : Nat :=
  ((types.get? id).map Ty.templateSize).getD 0

theorem mem_handles {types : Registry} {id : TypeId} : id ∈ types.handles ↔ types.Has id := by
  simp only [handles, Finset.mem_image, Finset.mem_range]
  constructor
  · rintro ⟨index, inside, rfl⟩
    exact ⟨types.types[index], Array.getElem?_eq_getElem inside⟩
  · rintro ⟨type, found⟩
    exact ⟨id.index, index_lt_of_get? found, rfl⟩

theorem templateSize_eq_sum (types : Registry) :
    types.templateSize = ∑ id ∈ types.handles, types.sizeAt id := by
  rw [handles, Finset.sum_image fun _ _ _ _ same => TypeId.mk.inj same, templateSize_eq,
    ← sum_range_getElem?, Array.length_toList]
  exact Finset.sum_congr rfl fun index _ => by rw [sizeAt, Array.getElem?_toList, get?]

/-- A registry has the generic functions of one that embeds into it. -/
theorem Embeds.templateSize_le (embeds : Embeds onTypes onScopes left right) :
    left.templateSize ≤ right.templateSize := by
  have sizes : ∀ id ∈ left.handles, left.sizeAt id = right.sizeAt (onTypes id) := by
    intro id among
    obtain ⟨type, found⟩ := mem_handles.1 among
    rw [sizeAt, sizeAt, found, embeds.types found]
    cases type <;> rfl
  have injective : Set.InjOn onTypes left.handles := fun _ first _ second same =>
    embeds.injective (mem_handles.1 first) (mem_handles.1 second) same
  have copies : left.handles.image onTypes ⊆ right.handles := by
    intro id among
    obtain ⟨original, listed, rfl⟩ := Finset.mem_image.1 among
    obtain ⟨type, found⟩ := mem_handles.1 listed
    exact mem_handles.2 ⟨_, embeds.types found⟩
  calc left.templateSize
      = ∑ id ∈ left.handles, right.sizeAt (onTypes id) := by
        rw [templateSize_eq_sum, Finset.sum_congr rfl sizes]
    _ = ∑ id ∈ left.handles.image onTypes, right.sizeAt id := (Finset.sum_image injective).symm
    _ ≤ ∑ id ∈ right.handles, right.sizeAt id := Finset.sum_le_sum_of_subset copies
    _ = right.templateSize := right.templateSize_eq_sum.symm

end Registry

namespace Session

open Registry (Likeness)

/-! ## Calls -/

/-- A call on a session. -/
inductive Call where
  | checkSource (source : String)
  | typeOfProgram (program : Expr)
  | typeOfGlobal (expression : Expr)

namespace Call

/-- The outcome of a call. -/
def perform : Call → Session → Outcome
  | .checkSource source, session => session.checkSource source
  | .typeOfProgram program, session => session.typeOfProgram program
  | .typeOfGlobal expression, session => session.typeOfGlobal expression

/-- The names that a call may declare. -/
def declaredNames : Call → List String
  | .checkSource source =>
      match Expr.readProgram source none with
      | .ok program => program.declaredNames
      | .error _ => []
  | .typeOfProgram program => program.declaredNames
  | .typeOfGlobal expression => expression.declaredNames

end Call

/-- The outcomes of calls one after the other, each with the session after it. -/
def trace : List Call → Session → Option (List (Except Error TypeId × Session))
  | [], _ => some []
  | call :: calls, session => do
      let ended ← call.perform session
      let rest ← trace calls ended.2
      return ended :: rest

namespace Mirrored

variable {like : Likeness} {setting : Scopes.Setting} {base : Scopes}

/-- Corresponding outcomes of a step, in the two sessions of a later world. -/
def Agree (world : Mirrored like setting) (outcome other : Outcome) : Prop :=
  ∃ (later : Mirrored like setting) (answer otherAnswer : Except Error TypeId), world.Later later ∧
    Answers ((mirroring like setting).Types later) answer otherAnswer ∧
    outcome = some (answer, later.left) ∧ other = some (otherAnswer, later.right)

/-- Traces whose outcomes correspond one by one, in worlds one after the other. -/
inductive Paired : Mirrored like setting → List (Except Error TypeId × Session) →
    List (Except Error TypeId × Session) → Prop where
  | nil (world : Mirrored like setting) : Paired world [] []
  | cons {world later : Mirrored like setting} {answer other : Except Error TypeId}
      {steps others : List (Except Error TypeId × Session)} : world.Later later →
        Answers ((mirroring like setting).Types later) answer other → Paired later steps others →
          Paired world ((answer, later.left) :: steps) ((other, later.right) :: others)

theorem depthBound_le (lawful : like.Lawful) (world : Mirrored like setting) (expression : Expr) :
    world.left.depthBound expression ≤ world.right.depthBound expression := by
  have size := (lawful.embeds world.mirrors.types).templateSize_le
  unfold depthBound
  dsimp only
  exact (Nat.pow_le_pow_left (by omega) _).trans (Nat.pow_le_pow_right (by omega) (by omega))

theorem scopes_global (world : Mirrored like setting) (alone : setting.surrounding = []) :
    (mirroring like setting).Scopes world .global .global :=
  ⟨world.mirrors.wellFormed.isLive_global, (world.mirrors.scopes.onScopes_global alone).symm⟩

/-- Alike steps agree when the first one has an outcome, also if the second one is replaced
by one that has more outcomes. In a lenient setting the first one has to succeed. -/
theorem agree_of_alike {world : Mirrored like setting} {step other finer : CheckM TypeId}
    (alike : (mirroring like setting).Alike world step other (mirroring like setting).Types)
    (ends : ∃ outcome reached, step.runOn world.left = some (outcome, reached))
    (succeeds : setting.lenient → ∃ type reached, step.runOn world.left = some (.ok type, reached))
    (refines : other.Refines finer) :
    world.Agree (step.runOn world.left) (finer.runOn world.right) := by
  cases alike with
  | exhausted run _ =>
      obtain ⟨_, _, ended⟩ := ends
      cases run.symm.trans ended
  | ok run otherRun after types =>
      exact ⟨_, _, _, after, .ok types, run, refines _ _ otherRun⟩
  | error run otherRun after => exact ⟨_, _, _, after, .error _, run, refines _ _ otherRun⟩
  | spared lenient run =>
      obtain ⟨_, _, ended⟩ := succeeds lenient
      cases run.symm.trans ended

theorem typeOfProgram (lawful : like.Lawful) (world : Mirrored like setting)
    (alone : setting.surrounding = []) {program : Expr}
    (succeeds : setting.lenient → ∃ type reached,
      world.left.typeOfProgram program = some (.ok type, reached))
    (admits : ∀ name, program.Declares name → like.Admits name) :
    world.Agree (world.left.typeOfProgram program) (world.right.typeOfProgram program) := by
  have visits := Checker.typeOf_refines_of_le (world.depthBound_le lawful program)
  have pair := mirroring_lawful lawful setting
  have alike := Checker.checkBody_alike pair
    (Checker.typeOf_alike pair (world.left.depthBound program)) admits (world.scopes_global alone)
  unfold Session.typeOfProgram
  exact agree_of_alike alike (world.mirrors.wellFormed.typeOfProgram_ends program) succeeds
    (Checker.checkBody_refines visits program .global)

/-! ### Plain settings -/

theorem typeOfGlobal (lawful : like.Lawful) (world : Mirrored like (.plain base))
    {expression : Expr} (admits : ∀ name, expression.Declares name → like.Admits name) :
    world.Agree (world.left.typeOfGlobal expression) (world.right.typeOfGlobal expression) := by
  have visits := Checker.typeOf_refines_of_le (world.depthBound_le lawful expression)
  have alike := Checker.typeOf_alike (mirroring_lawful lawful (.plain base))
    (world.left.depthBound expression) expression admits (world.scopes_global rfl)
  unfold Session.typeOfGlobal Session.typeOf
  exact agree_of_alike alike (world.mirrors.wellFormed.typeOf_ends expression
    world.mirrors.wellFormed.isLive_global) (fun lenient => lenient.elim)
    (visits expression .global)

/-- **A call has corresponding outcomes on sessions that mirror.** -/
theorem perform (lawful : like.Lawful) (world : Mirrored like (.plain base)) {call : Call}
    (admits : ∀ name ∈ call.declaredNames, like.Admits name) :
    world.Agree (call.perform world.left) (call.perform world.right) := by
  cases call with
  | checkSource source =>
      dsimp only [Call.perform, checkSource, Call.declaredNames] at admits ⊢
      cases read : Expr.readProgram source none with
      | ok program =>
          rw [read] at admits
          exact world.typeOfProgram lawful rfl (fun lenient => lenient.elim)
            fun name declares => admits name declares.mem_declaredNames
      | error error =>
          have later := (mirroring_lawful lawful (.plain base)).refl world
          exact ⟨world, _, _, later, .error error, rfl, rfl⟩
  | typeOfProgram program =>
      exact world.typeOfProgram lawful rfl (fun lenient => lenient.elim)
        fun name declares => admits name declares.mem_declaredNames
  | typeOfGlobal expression =>
      exact world.typeOfGlobal lawful fun name declares => admits name declares.mem_declaredNames

/-- **Traces have corresponding outcomes on sessions that mirror.** By induction on the
calls: each one leads to a later world. -/
theorem trace (lawful : like.Lawful) (world : Mirrored like (.plain base)) (calls : List Call)
    (admits : ∀ call ∈ calls, ∀ name ∈ call.declaredNames, like.Admits name) :
    ∃ steps others, Session.trace calls world.left = some steps ∧
      Session.trace calls world.right = some others ∧ Paired world steps others := by
  induction calls generalizing world with
  | nil => exact ⟨[], [], rfl, rfl, .nil world⟩
  | cons call calls ih =>
      obtain ⟨later, answer, otherAnswer, after, answers, run, otherRun⟩ :=
        world.perform lawful (admits call List.mem_cons_self)
      obtain ⟨steps, others, rest, otherRest, paired⟩ :=
        ih later fun call among => admits call (List.mem_cons_of_mem _ among)
      refine ⟨(answer, later.left) :: steps, (otherAnswer, later.right) :: others, ?_, ?_,
        .cons after answers paired⟩
      · simp [Session.trace, run, rest]
      · simp [Session.trace, otherRun, otherRest]

end Mirrored

end Session

end TypedLisp
