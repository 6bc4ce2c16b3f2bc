import TypedLisp.Proofs.Reachable

/-!
# The arena of scopes throughout checking

`Session.SoundArena` says what is true of the scopes of a session: the global scope
is pinned and is the only one without a parent, every scope leads to it through
scopes that are there, the parent of a pinned scope is pinned, the free slots are
the dead ones, each listed once, and the scopes of all classes and generic functions
are pinned. Looking a name up and pinning walk along the chain of a scope, so both
end, and no step of theirs meets a dead slot (`Scopes.Walks`).

This holds of every reachable session, and at every call inside a run of checking.
To say so, checking is compared with a checker that looks at the session at each
call, at whatever depth, and stops without an outcome when a property fails there
(`Checker.watched`). Where the property follows from well-formedness, in all scopes or in
those of a territory, the two have the same runs (`Checker.watched_sound`,
`Checker.watched_sound_within`).
-/

set_option autoImplicit false

namespace TypedLisp

/-! ## What holds of the scopes -/

/-- A walk from a scope outward follows a path of live scopes to the global one, no
longer than the arena. However many steps a walk is allowed beyond that, looking a
name up finds the first scope of the path that binds it, and pinning pins exactly
the scopes of the path. -/
structure Scopes.Walks (scopes : Scopes) (id : ScopeId) (path : List ScopeId) : Prop where
  chain : scopes.Chain id path
  live : ∀ member ∈ path, scopes.isLive member = true
  bounded : path.length ≤ scopes.slots.size
  owner : ∀ (name : String) {steps : Nat}, path.length ≤ steps →
    scopes.ownerWithin name steps id = path.find? (scopes.binds name)
  pin : ∀ {steps : Nat}, path.length ≤ steps → ∀ other,
    (Scopes.pinUpTo steps scopes id).get? other =
      (scopes.get? other).map (Scopes.pinnedOn path other)

theorem Scopes.WellFormed.walks {scopes : Scopes} (wellFormed : scopes.WellFormed) {id : ScopeId}
    (live : scopes.isLive id = true) : ∃ path, scopes.Walks id path := by
  obtain ⟨path, chain⟩ := wellFormed.chain live
  exact ⟨path, chain, chain.isLive, chain.length_le,
    fun name _ enough => Scopes.ownerWithin_eq_find? name chain enough,
    fun enough other => Scopes.get?_pinUpTo chain (fun _ => wellFormed.pinned_parent) enough other⟩

namespace Session

/-- The scopes of a session form a tree around the pinned global scope, pinning goes
outward, the free slots are the dead ones, and classes and generic functions keep
pinned scopes. -/
structure SoundArena (session : Session) : Prop where
  global : ∃ scope, session.scopes.get? .global = some scope ∧ scope.parent = none ∧
    scope.pinned = true
  parent : ∀ {id : ScopeId} {scope : Scope}, session.scopes.get? id = some scope →
    id ≠ .global → ∃ parent, scope.parent = some parent ∧ session.scopes.isLive parent = true
  walks : ∀ {id : ScopeId}, session.scopes.isLive id = true →
    ∃ path, session.scopes.Walks id path
  pinned_parent : ∀ {id parent : ScopeId} {scope : Scope}, session.scopes.get? id = some scope →
    scope.pinned = true → scope.parent = some parent → session.scopes.IsPinned parent
  free_nodup : session.scopes.free.Nodup
  mem_free : ∀ id, id ∈ session.scopes.free ↔
    id.index < session.scopes.slots.size ∧ session.scopes.isLive id = false
  captured : ∀ {id : TypeId} {type : Ty} {scope : ScopeId}, session.types.get? id = some type →
    type.scope? = some scope → session.scopes.IsPinned scope

theorem WellFormed.soundArena {session : Session} (wellFormed : session.WellFormed) :
    session.SoundArena where
  global := wellFormed.scopes.global
  parent {id scope} found apart := by
    obtain ⟨path, chain⟩ := wellFormed.scopes.chain (Scopes.isLive_of_get? found)
    cases chain with
    | global => exact absurd rfl apart
    | outward again parented rest =>
        obtain rfl := Option.some.inj (found.symm.trans again)
        exact ⟨_, parented, rest.isLive _ rest.start⟩
  walks := wellFormed.scopes.walks
  pinned_parent := wellFormed.scopes.pinned_parent
  free_nodup := wellFormed.scopes.free_nodup
  mem_free id := by
    rw [wellFormed.scopes.mem_free id, Scopes.isLive, Option.isSome_eq_false_iff,
      Option.isNone_iff_eq_none]
    simp [wellFormed.recycles]
  captured := wellFormed.captured

/-- What holds at a call: the arena is sound, and the scope of the call is there. -/
def SoundCall (session : Session) (scope : ScopeId) : Prop :=
  session.SoundArena ∧ session.scopes.isLive scope = true

end Session

/-! ## Watching every call -/

namespace Checker

open CheckM

open Classical in
/-- The checker that looks at the session and the scope of every call, and has no
outcome when they do not have the property. -/
noncomputable def watched (holds : Session → ScopeId → Prop) : Nat → Expr → ScopeId → CheckM TypeId
  | 0, _, _ => exhausted
  | depth + 1, expression, scope => do
      if holds (← get) scope then checkExpr (watched holds depth) expression scope
      else exhausted

theorem runOn_watched {holds : Session → ScopeId → Prop} {session : Session} {scope : ScopeId}
    (here : holds session scope) (depth : Nat) (expression : Expr) :
    (watched holds (depth + 1) expression scope).runOn session =
      (checkExpr (watched holds depth) expression scope).runOn session := by
  simp only [watched, runOn_bind, runOn_get, Option.bind_some, if_pos here]

/-- **Every call inside a run has a property that well-formed sessions have in the scopes of a
territory.** By induction on the depth: a rule asks for smaller expressions in such sessions
and scopes only, so the watched checker goes on wherever the checker does. -/
theorem watched_sound_within {territory : Scopes → ScopeId → Prop} [Territory territory]
    {holds : Session → ScopeId → Prop}
    (everywhere : ∀ {session : Session} {scope : ScopeId}, session.WellFormed →
      territory session.scopes scope → holds session scope) (depth : Nat) :
    SoundVisitIn territory (typeOf depth) (watched holds depth) := by
  induction depth with
  | zero =>
      intro session expression scope _ _
      exact .exhausted
  | succ depth ih =>
      intro session expression scope wellFormed inside
      have sound := checkExpr_sound ih expression wellFormed inside
      exact { sound with
        agree := sound.agree.trans
          (runOn_watched (everywhere wellFormed inside) depth expression).symm }

/-- Every call inside a run has a property that well-formed sessions have in live scopes. -/
theorem watched_sound {holds : Session → ScopeId → Prop}
    (everywhere : ∀ {session : Session} {scope : ScopeId}, session.WellFormed →
      session.scopes.isLive scope = true → holds session scope) (depth : Nat) :
    SoundVisit (typeOf depth) (watched holds depth) :=
  watched_sound_within everywhere depth

end Checker

namespace Session

theorem WellFormed.watched_ends {session : Session} (wellFormed : session.WellFormed)
    (holds : Session → ScopeId → Prop)
    (everywhere : ∀ {session : Session} {scope : ScopeId}, session.WellFormed →
      session.scopes.isLive scope = true → holds session scope)
    (expression : Expr) {scope : ScopeId} (live : session.scopes.isLive scope = true) :
    ∃ outcome reached, session.typeOf expression scope = some (outcome, reached) ∧
      (Checker.watched holds (session.depthBound expression) expression scope).runOn session =
        some (outcome, reached) := by
  obtain ⟨outcome, reached, run⟩ := wellFormed.typeOf_ends expression live
  have sound := Checker.watched_sound everywhere (session.depthBound expression) expression
    wellFormed live
  exact ⟨outcome, reached, run, sound.agree.symm.trans run⟩

/-- **The arena of scopes is sound in every reachable session, and between steps all
its scopes are pinned.** It is also sound at every call inside the checking of an
expression or of a program, and the scope of the call is there: checking ends, and
the checker that stops at a call where this fails ends in the same way. -/
theorem Reachable.scopes_sound {session : Session} (reachable : session.Reachable) :
    session.SoundArena ∧
      (∀ {id : ScopeId}, session.scopes.isLive id = true → session.scopes.IsPinned id) ∧
      (∀ (expression : Expr) {scope : ScopeId}, session.scopes.isLive scope = true →
        ∃ ended, session.typeOf expression scope = some ended ∧
          (Checker.watched SoundCall (session.depthBound expression) expression scope).runOn
            session = some ended) ∧
      ∀ program : Expr, ∃ ended, session.typeOfProgram program = some ended ∧
        (Checker.checkBody (Checker.watched SoundCall (session.depthBound program)) program
          .global).runOn session = some ended := by
  have wellFormed := reachable.wellFormed
  have watched := Checker.watched_sound (show ∀ {session : Session} {scope : ScopeId},
    session.WellFormed → session.scopes.isLive scope = true → session.SoundCall scope from
      fun wellFormed live => ⟨wellFormed.soundArena, live⟩)
  refine ⟨wellFormed.soundArena, reachable.settled.pinned, fun expression scope live => ?_,
    fun program => ?_⟩
  · obtain ⟨outcome, reached, run⟩ := wellFormed.typeOf_ends expression live
    exact ⟨_, run, (watched _ expression wellFormed live).agree.symm.trans run⟩
  · obtain ⟨outcome, reached, run⟩ := wellFormed.typeOfProgram_ends program
    exact ⟨_, run, (Checker.checkBody_sound (watched _) program wellFormed
      wellFormed.isLive_global).agree.symm.trans run⟩

/-- A class that fails after a generic method has captured its scope. -/
theorem scopes_sound_after_failed_class :
    ∃ error reached, (initial true).checkSource
        "(class Point null (begin (def id <K> ((x K)) -> K x) (+ 1 true)))" =
          some (.error error, reached) ∧
      reached.Reachable ∧ reached.SoundArena ∧
      ∀ {id : ScopeId}, reached.scopes.isLive id = true → reached.scopes.IsPinned id := by
  have failed : (((initial true).checkSource
      "(class Point null (begin (def id <K> ((x K)) -> K x) (+ 1 true)))").any
        fun ended => !ended.1.isOk) = true := by decide +kernel
  obtain ⟨⟨outcome, reached⟩, run, failed⟩ := (Option.any_eq_true _ _).1 failed
  cases outcome with
  | ok type => cases failed
  | error error =>
      have reachable := Reachable.checkSource _ (.initial true) run
      obtain ⟨sound, pinned, _⟩ := reachable.scopes_sound
      exact ⟨error, reached, run, reachable, sound, pinned⟩

end Session

end TypedLisp
