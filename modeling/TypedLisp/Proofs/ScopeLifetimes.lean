import TypedLisp.Proofs.ScopeInvariant

/-!
# Scopes that outlive a call

Checking an expression opens scopes and releases them again. The scopes that are there
afterwards are the ones from before and those that a class or a generic function added
meanwhile keeps, with the scopes around them (`Session.KeepsOnlyCaptured`). This holds
whether checking succeeds or fails, so a failed call leaves no scope behind for another
reason. A call that adds neither a class nor a generic function leaves the scopes as they
were, down to which of them are pinned.

All of it follows from what a session may evolve into: a scope that is new is pinned, and a
scope that is newly pinned is kept by a new type.
-/

set_option autoImplicit false

namespace TypedLisp.Session

/-- The scopes of the second session are those of the first one and the ones that a new
class or generic function keeps, which are pinned. -/
structure KeepsOnlyCaptured (before after : Session) : Prop where
  fresh : ∀ {id : ScopeId}, before.scopes.isLive id = false → after.scopes.isLive id = true →
    after.scopes.IsPinned id ∧ before.CapturesAnew after id
  live_iff : ∀ {id : ScopeId}, after.scopes.isLive id = true ↔
    before.scopes.isLive id = true ∨ before.CapturesAnew after id
  pinned_iff : ∀ {id : ScopeId}, after.scopes.IsPinned id ↔
    before.scopes.IsPinned id ∨ before.CapturesAnew after id
  unchanged : (∀ {id : TypeId} {content : Ty}, before.types.get? id = none →
    after.types.get? id = some content → content.scope? = none) →
      ∀ id, (after.scopes.get? id).map Scope.pinned = (before.scopes.get? id).map Scope.pinned

/-- Checking to any depth from here keeps only scopes that are captured. -/
def ReleasesScopes (session : Session) (scope : ScopeId) : Prop :=
  ∀ (depth : Nat) (expression : Expr) {outcome : Except Error TypeId} {reached : Session},
    (Checker.typeOf depth expression scope).runOn session = some (outcome, reached) →
      session.KeepsOnlyCaptured reached

variable {session before after : Session} {writable : Set ScopeId} {id : ScopeId}

/-- The scopes that a type keeps are pinned, and so are those around them. -/
theorem CapturesAnew.isPinned (captures : before.CapturesAnew after id)
    (wellFormed : after.WellFormed) : after.scopes.IsPinned id := by
  obtain ⟨type, content, scope, path, _, found, keeps, chain, onPath⟩ := captures
  exact chain.isPinned (fun _ => wellFormed.scopes.pinned_parent)
    (wellFormed.captured found keeps) id onPath

theorem CapturesAnew.scope?_isSome (captures : before.CapturesAnew after id) :
    ∃ type content, before.types.get? type = none ∧ after.types.get? type = some content ∧
      content.scope? ≠ none := by
  obtain ⟨type, content, scope, _, missing, found, keeps, _⟩ := captures
  exact ⟨type, content, missing, found, by simp [keeps]⟩

namespace Evolves

theorem isPinned_of_fresh (evolves : before.Evolves writable after)
    (dead : before.scopes.isLive id = false) (live : after.scopes.isLive id = true) :
    after.scopes.IsPinned id := by
  obtain ⟨scope, found⟩ := Scopes.isLive_iff.1 live
  rw [Scopes.isLive, Option.isSome_eq_false_iff, Option.isNone_iff_eq_none] at dead
  exact ⟨scope, found, evolves.scopes.fresh dead found⟩

theorem isPinned_iff (evolves : before.Evolves writable after) :
    after.scopes.IsPinned id ↔ before.scopes.IsPinned id ∨ before.CapturesAnew after id := by
  constructor
  · exact evolves.pinned
  · rintro (pinned | captures)
    · exact evolves.scopes.isPinned pinned
    · exact captures.isPinned evolves.wellFormed

theorem capturesAnew_of_fresh (evolves : before.Evolves writable after)
    (dead : before.scopes.isLive id = false) (live : after.scopes.isLive id = true) :
    before.CapturesAnew after id := by
  rcases evolves.pinned (evolves.isPinned_of_fresh dead live) with pinned | captures
  · rw [pinned.isLive] at dead
    cases dead
  · exact captures

theorem isLive_iff (evolves : before.Evolves writable after) :
    after.scopes.isLive id = true ↔
      before.scopes.isLive id = true ∨ before.CapturesAnew after id := by
  constructor
  · intro live
    cases there : before.scopes.isLive id with
    | true => exact .inl rfl
    | false => exact .inr (evolves.capturesAnew_of_fresh there live)
  · rintro (live | captures)
    · exact evolves.isLive live
    · exact (captures.isPinned evolves.wellFormed).isLive

/-- Without a new class or generic function, no scope is new and none is newly pinned. -/
theorem pinned_unchanged (evolves : before.Evolves writable after)
    (captureless : ∀ id, ¬ before.CapturesAnew after id) (id : ScopeId) :
    (after.scopes.get? id).map Scope.pinned = (before.scopes.get? id).map Scope.pinned := by
  cases found : before.scopes.get? id with
  | none =>
      have dead : before.scopes.isLive id = false := by rw [Scopes.isLive, found]; rfl
      cases there : after.scopes.get? id with
      | none => rfl
      | some scope =>
          have live := Scopes.isLive_of_get? there
          exact absurd (evolves.capturesAnew_of_fresh dead live) (captureless id)
  | some scope =>
      obtain ⟨later, there, _, stays, _⟩ := evolves.scopes.kept found
      refine (congrArg _ there).trans (congrArg some (Bool.eq_iff_iff.2 ⟨fun pinned => ?_, stays⟩))
      rcases evolves.pinned ⟨later, there, pinned⟩ with ⟨again, foundAgain, pinned⟩ | captures
      · obtain rfl := Option.some.inj (found.symm.trans foundAgain)
        exact pinned
      · exact absurd captures (captureless id)

/-- **What a session evolves into keeps only scopes that are captured.** -/
theorem keepsOnlyCaptured (evolves : before.Evolves writable after) :
    before.KeepsOnlyCaptured after where
  fresh dead live :=
    ⟨evolves.isPinned_of_fresh dead live, evolves.capturesAnew_of_fresh dead live⟩
  live_iff := evolves.isLive_iff
  pinned_iff := evolves.isPinned_iff
  unchanged scopeless := evolves.pinned_unchanged fun _ captures => by
    obtain ⟨_, _, missing, found, keeps⟩ := captures.scope?_isSome
    exact keeps (scopeless missing found)

end Evolves

theorem WellFormed.releasesScopes (wellFormed : session.WellFormed) {scope : ScopeId}
    (live : session.scopes.isLive scope = true) : session.ReleasesScopes scope :=
  fun depth expression _ _ run =>
    ((Checker.typeOf_sound depth expression wellFormed live).evolves run).keepsOnlyCaptured

/-- **Only captured scopes outlive a call.** In every reachable session and every scope
that is there, checking an expression has an outcome, and whatever it is, the scopes that
were not there before are pinned and kept by a class or a generic function that the call has
added, or lie around such a scope. Where it has added none, the scopes and their pins are
the same as before. This holds of every call inside the run as well: the checker that stops
at a call where it fails ends in the same way. -/
theorem Reachable.releases_scopes (reachable : session.Reachable) (expression : Expr)
    {scope : ScopeId} (live : session.scopes.isLive scope = true) :
    ∃ outcome reached, session.typeOf expression scope = some (outcome, reached) ∧
      session.KeepsOnlyCaptured reached ∧
      (Checker.watched ReleasesScopes (session.depthBound expression) expression scope).runOn
        session = some (outcome, reached) := by
  have wellFormed := reachable.wellFormed
  obtain ⟨outcome, reached, run, watched⟩ := wellFormed.watched_ends ReleasesScopes
    (fun wellFormed live => wellFormed.releasesScopes live) expression live
  exact ⟨outcome, reached, run, wellFormed.releasesScopes live _ expression run, watched⟩

/-- A block fails after a generic function in a block inside it. The scopes of both blocks
stay, the outer one because it is around the scope of the generic function. -/
theorem releases_scopes_failed_block :
    (initial true).Reachable ∧ (initial true).scopes.isLive .global = true ∧
      (initial true).scopes.liveCount = 1 ∧ (initial true).scopes.isLive ⟨1⟩ = false ∧
      ∃ error reached,
        (initial true).typeOf
            (.list [.symbol "begin",
              .list [.symbol "begin",
                .list [.symbol "lambda", .symbol "<K>", .list [.list [.symbol "x", .symbol "K"]],
                  .symbol "->", .symbol "K", .symbol "x"]],
              .symbol "missing"]) .global = some (.error error, reached) ∧
          reached.scopes.liveCount = 3 ∧ reached.scopes.isLive ⟨1⟩ = true ∧
          reached.scopes.IsPinned ⟨1⟩ ∧ (initial true).CapturesAnew reached ⟨1⟩ := by
  have reachable := Reachable.initial true
  have live := reachable.wellFormed.isLive_global
  have failed : (((initial true).typeOf
      (.list [.symbol "begin",
        .list [.symbol "begin",
          .list [.symbol "lambda", .symbol "<K>", .list [.list [.symbol "x", .symbol "K"]],
            .symbol "->", .symbol "K", .symbol "x"]],
        .symbol "missing"]) .global).any fun ended =>
          !ended.1.isOk && ended.2.scopes.liveCount == 3 && ended.2.scopes.isLive ⟨1⟩) = true := by
    decide +kernel
  have dead : (initial true).scopes.isLive ⟨1⟩ = false := by decide +kernel
  obtain ⟨outcome, reached, run, keeps, _⟩ := reachable.releases_scopes _ live
  rw [run] at failed
  simp only [Option.any_some, Bool.and_eq_true, Bool.not_eq_true', beq_iff_eq] at failed
  obtain ⟨⟨failed, count⟩, opened⟩ := failed
  cases outcome with
  | ok type => cases failed
  | error error =>
      exact ⟨reachable, live, by decide +kernel, dead, error, reached, run, count, opened,
        keeps.fresh dead opened⟩

end TypedLisp.Session
