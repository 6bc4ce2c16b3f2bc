import TypedLisp.Checker.Depth
import TypedLisp.Proofs.DepthBound

/-!
# Reachable sessions

A session is reached from a new one by checking source texts, programs and
expressions, one after the other. Each of them may fail, and the session goes on
from what the failure leaves behind.

Between two such steps a session is settled (`Session.Settled`): it is well-formed,
every scope that is there is pinned, and no generic function is being checked. A
new session is settled, and whatever a settled session evolves into is settled
again, since the scopes that checking leaves behind are pinned. A new session is flat
as well (`Session.Flat`): it has the global scope only, and no type keeps that scope.

Checking an expression ends in every reachable session (`Reachable.typeOf_terminates`),
and so does reading and checking a source text (`WellFormed.checkSource_ends`).
-/

set_option autoImplicit false

namespace TypedLisp

/-! ## New sessions -/

namespace Session

/-- The session before anything is bound in the global scope. -/
def blank : Session := ⟨.initial, .initial true, [], []⟩

theorem get?_initial (recycles : Bool) (id : ScopeId) : (Scopes.initial recycles).get? id =
    if id = .global then some ⟨.empty, none, true⟩ else none := by
  obtain ⟨index⟩ := id
  cases index with
  | zero => rfl
  | succ index => simp [Scopes.get?, Scopes.initial, ScopeId.global]

theorem eq_global_of_get?_initial {recycles : Bool} {id : ScopeId} {scope : Scope}
    (found : (Scopes.initial recycles).get? id = some scope) :
    id = .global ∧ scope = ⟨.empty, none, true⟩ := by
  rw [get?_initial] at found
  split at found
  · exact ⟨by assumption, (Option.some.inj found).symm⟩
  · cases found

theorem wellFormed_initial_scopes (recycles : Bool) : (Scopes.initial recycles).WellFormed where
  global := ⟨_, rfl, rfl, rfl⟩
  chain live := by
    obtain ⟨scope, found⟩ := Scopes.isLive_iff.1 live
    obtain ⟨rfl, rfl⟩ := eq_global_of_get?_initial found
    exact ⟨_, .global rfl rfl⟩
  pinned_parent found _ parented := by
    obtain ⟨_, rfl⟩ := eq_global_of_get?_initial found
    cases parented
  free_nodup := List.nodup_nil
  mem_free id := by
    obtain ⟨index⟩ := id
    cases index with
    | zero => simp [Scopes.initial, Scopes.get?]
    | succ index => simp [Scopes.initial]

theorem wellFormed_blank : blank.WellFormed where
  types := Registry.sound_initial
  scopes := wellFormed_initial_scopes true
  recycles := rfl
  captured found keeps := by
    obtain ⟨kind, rfl⟩ := Registry.primitive_of_get?_initial found
    cases keeps
  bound found listed := by
    obtain ⟨_, rfl⟩ := eq_global_of_get?_initial found
    simp at listed

variable {session before after : Session}

theorem WellFormed.evolves_defineFunction (wellFormed : session.WellFormed) (name : String)
    {parameters : List TypeId} {result : TypeId}
    (plain : ∀ id ∈ result :: parameters, session.types.IsPlain id) :
    session.Evolves {.global} (session.defineFunction name parameters result) := by
  obtain ⟨made, interns, listed, _⟩ := wellFormed.types.function plain
  obtain ⟨signature, found, _⟩ := made.interned listed
  have made := wellFormed.evolves_interns made interns
  exact (made.mono (Set.empty_subset _)).trans
    (made.wellFormed.evolves_define .global name ⟨_, found⟩)

/-- The primitives are there in every well-formed session. -/
theorem WellFormed.isPlain_of_index_lt (wellFormed : session.WellFormed) {id : TypeId}
    (primitive : id.index < 4) : session.types.IsPlain id := by
  obtain ⟨index⟩ := id
  match index with
  | 0 | 1 | 2 | 3 => exact wellFormed.isPlain_primitive rfl
  | _ + 4 =>
      simp only at primitive
      omega

/-- Every session starts from a blank one by binding names in the global scope. -/
theorem blank_evolves_initial (builtins : Bool) : blank.Evolves {.global} (initial builtins) := by
  have versioned : blank.Evolves {.global} (bare (.initial true)) :=
    wellFormed_blank.evolves_define .global "VERSION" ⟨_, rfl⟩
  cases builtins with
  | false => exact versioned
  | true =>
      have bind : ∀ {reached : Session}, blank.Evolves {.global} reached →
          ∀ (name : String) (parameters : List TypeId) (result : TypeId),
            (∀ id ∈ result :: parameters, id.index < 4) →
              blank.Evolves {.global} (reached.defineFunction name parameters result) :=
        fun evolves name parameters result primitive =>
          evolves.trans (evolves.wellFormed.evolves_defineFunction name fun id among =>
            evolves.wellFormed.isPlain_of_index_lt (primitive id among))
      have sum := bind versioned "sum" [.number, .number] .number (by decide)
      have square := bind sum "square" [.number] .number (by decide)
      have concat := bind square "concat" [.string, .string] .string (by decide)
      exact bind concat "print" [.any] .string (by decide)

/-! ## Settled sessions -/

/-- A session between two steps: well-formed, with all its scopes pinned, and no
generic function being checked. -/
structure Settled (session : Session) : Prop where
  wellFormed : session.WellFormed
  pinned : ∀ {id : ScopeId}, session.scopes.isLive id = true → session.scopes.IsPinned id
  idle : session.active = []

theorem Settled.of_evolves {writable : Set ScopeId} (settled : before.Settled)
    (evolves : before.Evolves writable after) : after.Settled where
  wellFormed := evolves.wellFormed
  pinned {id} live := by
    obtain ⟨scope, found⟩ := Scopes.isLive_iff.1 live
    cases there : before.scopes.get? id with
    | none => exact ⟨scope, found, evolves.scopes.fresh there found⟩
    | some old =>
        exact evolves.scopes.isPinned (settled.pinned (Scopes.isLive_of_get? there))
  idle := evolves.active.trans settled.idle

theorem settled_initial (builtins : Bool) : (initial builtins).Settled := by
  have settled : blank.Settled := by
    refine ⟨wellFormed_blank, fun {id} live => ?_, rfl⟩
    obtain ⟨scope, found⟩ := Scopes.isLive_iff.1 live
    obtain ⟨rfl, rfl⟩ := eq_global_of_get?_initial found
    exact ⟨_, found, rfl⟩
  exact settled.of_evolves (blank_evolves_initial builtins)

/-- A settled session with nothing but the global scope, which no type keeps. -/
structure Flat (session : Session) : Prop where
  settled : session.Settled
  only : ∀ {id : ScopeId}, session.scopes.isLive id = true → id = .global
  captureless : ∀ {id : TypeId} {type : Ty}, session.types.get? id = some type → type.scope? = none

theorem flat_initial (builtins : Bool) : (initial builtins).Flat where
  settled := settled_initial builtins
  only {id} live := by
    have size : (initial builtins).scopes.slots.size = 1 := by cases builtins <;> rfl
    obtain ⟨scope, found⟩ := Scopes.isLive_iff.1 live
    have inside := Scopes.index_lt_of_get? found
    obtain ⟨index⟩ := id
    exact congrArg ScopeId.mk (show index = 0 by simp only at inside; omega)
  captureless {id type} found := by
    have none : ∀ type ∈ (initial builtins).types.types.toList, type.scope? = none := by
      cases builtins <;> decide
    exact none type (Array.mem_toList_iff.2 (Array.mem_of_getElem? found))

/-! ## Steps of a session -/

theorem WellFormed.typeOf_evolves (wellFormed : session.WellFormed) {expression : Expr}
    {scope : ScopeId} (live : session.scopes.isLive scope = true)
    {outcome : Except Error TypeId} {reached : Session}
    (run : session.typeOf expression scope = some (outcome, reached)) :
    session.Evolves {scope} reached :=
  (Checker.typeOf_sound _ expression wellFormed live).evolves run

theorem WellFormed.typeOfProgram_evolves (wellFormed : session.WellFormed) {program : Expr}
    {outcome : Except Error TypeId} {reached : Session}
    (run : session.typeOfProgram program = some (outcome, reached)) :
    session.Evolves {.global} reached :=
  (Checker.checkBody_sound (Checker.typeOf_sound _) program wellFormed
    wellFormed.isLive_global).evolves run

theorem WellFormed.checkSource_evolves (wellFormed : session.WellFormed) {source : String}
    {outcome : Except Error TypeId} {reached : Session}
    (run : session.checkSource source = some (outcome, reached)) :
    session.Evolves {.global} reached := by
  unfold checkSource at run
  split at run
  · exact wellFormed.typeOfProgram_evolves run
  · obtain ⟨_, rfl⟩ := Prod.mk.inj (Option.some.inj run)
    exact .refl _ wellFormed

theorem WellFormed.checkSource_ends (wellFormed : session.WellFormed) (source : String) :
    ∃ outcome reached, session.checkSource source = some (outcome, reached) := by
  unfold checkSource
  split
  · exact wellFormed.typeOfProgram_ends _
  · exact ⟨_, _, rfl⟩

/-- The sessions that are reached from a new one. Checking an expression in the
global scope is one case of checking it in a scope that is there. -/
inductive Reachable : Session → Prop where
  | initial (builtins : Bool) : Reachable (initial builtins)
  | checkSource {session reached : Session} {outcome : Except Error TypeId} (source : String) :
      Reachable session → session.checkSource source = some (outcome, reached) →
        Reachable reached
  | typeOfProgram {session reached : Session} {outcome : Except Error TypeId} (program : Expr) :
      Reachable session → session.typeOfProgram program = some (outcome, reached) →
        Reachable reached
  | typeOf {session reached : Session} {outcome : Except Error TypeId} (expression : Expr)
      {scope : ScopeId} : Reachable session → session.scopes.isLive scope = true →
        session.typeOf expression scope = some (outcome, reached) → Reachable reached

/-- **Every reachable session is settled.** -/
theorem Reachable.settled (reachable : session.Reachable) : session.Settled := by
  induction reachable with
  | initial builtins => exact settled_initial builtins
  | checkSource source _ run ih => exact ih.of_evolves (ih.wellFormed.checkSource_evolves run)
  | typeOfProgram program _ run ih =>
      exact ih.of_evolves (ih.wellFormed.typeOfProgram_evolves run)
  | typeOf expression _ live run ih =>
      exact ih.of_evolves (ih.wellFormed.typeOf_evolves live run)

theorem Reachable.wellFormed (reachable : session.Reachable) : session.WellFormed :=
  reachable.settled.wellFormed

/-- A run that is found to succeed, with a property of what it comes to. -/
theorem exists_ok_of_any {run : Option (Except Error TypeId × Session)}
    {holds : Except Error TypeId × Session → TypeId → Bool}
    (checked : (run.any fun ended => ended.1.toOption.any (holds ended)) = true) :
    ∃ type reached, run = some (.ok type, reached) ∧ holds (.ok type, reached) type = true := by
  obtain ⟨⟨outcome, reached⟩, ran, checked⟩ := (Option.any_eq_true _ _).1 checked
  cases outcome with
  | error error => cases checked
  | ok type => exact ⟨type, reached, ran, checked⟩

/-! ## Checking ends -/

/-- Runs to different depths that have outcomes have the same one. -/
theorem outcome_unique {expression : Expr} {scope : ScopeId} {depth other : Nat}
    {ended otherEnded : Except Error TypeId × Session}
    (run : (Checker.typeOf depth expression scope).runOn session = some ended)
    (otherRun : (Checker.typeOf other expression scope).runOn session = some otherEnded) :
    ended = otherEnded := by
  have deeper := Checker.typeOf_refines_of_le (Nat.le_max_left depth other) expression scope _ _ run
  have otherDeeper :=
    Checker.typeOf_refines_of_le (Nat.le_max_right depth other) expression scope _ _ otherRun
  exact Option.some.inj (deeper.symm.trans otherDeeper)

/-- **Checking terminates.** In every reachable session and in every scope that is
there, checking an expression has an outcome. It goes no deeper than the bound, so
that a higher bound, or none, would change nothing, and a lower one that is high
enough for an outcome leads to the same outcome. -/
theorem Reachable.typeOf_terminates (reachable : session.Reachable) (expression : Expr)
    {scope : ScopeId} (live : session.scopes.isLive scope = true) :
    ∃ outcome reached, session.typeOf expression scope = some (outcome, reached) ∧
      (∀ depth, session.depthBound expression ≤ depth →
        (Checker.typeOf depth expression scope).runOn session = some (outcome, reached)) ∧
      ∀ depth ended, (Checker.typeOf depth expression scope).runOn session = some ended →
        ended = (outcome, reached) := by
  obtain ⟨outcome, reached, run⟩ := reachable.wellFormed.typeOf_ends expression live
  refine ⟨outcome, reached, run, fun depth deep => ?_, fun depth ended other => ?_⟩
  · exact Checker.typeOf_refines_of_le deep expression scope _ _ run
  · exact outcome_unique other run

/-- A generic function whose instances make another generic function, which calls
the first one again. -/
theorem typeOf_terminates_mutual_generics :
    (initial true).Reachable ∧ (initial true).scopes.isLive .global = true ∧
      ∃ outcome reached, (initial true).typeOf
        (.list [.symbol "begin",
          .list [.symbol "def", .symbol "outer", .symbol "<K>",
            .list [.list [.symbol "x", .symbol "K"]], .symbol "->", .symbol "K",
            .list [.symbol "begin",
              .list [.symbol "def", .symbol "inner", .symbol "<T>",
                .list [.list [.symbol "y", .symbol "T"]], .symbol "->", .symbol "T",
                .list [.symbol "outer", .symbol "<T>", .symbol "y"]],
              .list [.symbol "inner", .symbol "<K>", .symbol "x"]]],
          .list [.symbol "outer", .symbol "<string>", .string "s"]]) .global =
        some (outcome, reached) := by
  have reachable := Reachable.initial true
  have live := reachable.wellFormed.isLive_global
  obtain ⟨outcome, reached, run, _⟩ := reachable.typeOf_terminates _ live
  exact ⟨reachable, live, outcome, reached, run⟩

end Session

end TypedLisp
