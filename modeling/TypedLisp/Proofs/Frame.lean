import TypedLisp.Proofs.ScopeInvariant

/-!
# The frame of checking

Checking an expression in a scope may bind names in that scope and add types, names
and scopes. Everything else is as it was, whether checking succeeds or fails
(`Session.Framed`): the scopes that were there are there with their parents and, but
for the scope at hand, with their names; the types have their handles, so that their
names, the ends of their aliases and their comparison are as before; declared names
and texts of function types lead where they led; and the generic functions being
checked are the same. So a field of a class that is declared already keeps its type when
no scope of its lineage, that of the class or of a class above it, is the scope at hand
(`Framed.field`). The fields that a class declares itself stand in its own scope alone, and
keep their types already when that one is not the scope at hand (`Framed.scopes`).

A block, the body of a function, a narrowed branch and an instance of a generic
function are checked in a scope of their own, and bind no name in any scope that was
there before (`Session.Frames`).

This holds in every reachable session, and again at every call inside a run.
-/

set_option autoImplicit false

namespace TypedLisp

namespace Session

/-- The second session has what the first one has, except for the names of the
writable scopes, and answers questions about it in the same way. -/
structure Framed (writable : Set ScopeId) (before after : Session) : Prop where
  scopes : ∀ {id : ScopeId} {scope : Scope}, before.scopes.get? id = some scope →
    ∃ later, after.scopes.get? id = some later ∧ later.parent = scope.parent ∧
      (scope.pinned = true → later.pinned = true) ∧
      (id ∉ writable → later.record = scope.record)
  lookup : ∀ {id : ScopeId} {path : List ScopeId} (name : String), before.scopes.Chain id path →
    (∀ member ∈ path, member ∉ writable) →
      after.scopes.lookup id name = before.scopes.lookup id name
  types : ∀ {id : TypeId} {type : Ty}, before.types.get? id = some type →
    after.types.get? id = some type
  name : ∀ {id : TypeId}, before.Has id → after.types.name id = before.types.name id
  unalias : ∀ {id : TypeId}, before.Has id → after.types.unalias id = before.types.unalias id
  fits : ∀ {given expected : TypeId}, before.Has given → before.Has expected →
    after.types.fits given expected = before.types.fits given expected
  names : ∀ {name : String} {id : TypeId}, before.types.names.get? name = some id →
    after.types.names.get? name = some id
  functions : ∀ {text : String} {id : TypeId}, before.types.functions.get? text = some id →
    after.types.functions.get? text = some id
  active : after.active = before.active
  field : ∀ {object : TypeId} (name : String), before.Has object →
    (∀ declared ∈ before.types.lineage object, declared.scope ∉ writable) →
      after.field object name = before.field object name

variable {session before after : Session} {writable : Set ScopeId}

/-! ## Bindings that stay -/

theorem Evolves.binds (evolves : before.Evolves writable after) {id : ScopeId}
    (live : before.scopes.isLive id = true) (outside : id ∉ writable) (name : String) :
    after.scopes.binds name id = before.scopes.binds name id := by
  obtain ⟨scope, found⟩ := Scopes.isLive_iff.1 live
  obtain ⟨later, there, _, _, record⟩ := evolves.scopes.kept found
  simp [Scopes.binds, found, there, record outside]

/-- Looking a name up along scopes that are not written finds the same. -/
theorem Evolves.lookup (evolves : before.Evolves writable after) {id : ScopeId}
    {path : List ScopeId} (name : String) (chain : before.scopes.Chain id path)
    (outside : ∀ member ∈ path, member ∉ writable) :
    after.scopes.lookup id name = before.scopes.lookup id name := by
  have owner : after.scopes.owner? id name = before.scopes.owner? id name := by
    rw [Scopes.owner?_eq_find? name chain,
      Scopes.owner?_eq_find? name (chain.keeps evolves.scopes)]
    exact List.find?_congr fun member among =>
      evolves.binds (chain.isLive member among) (outside member among) name
  have type : (before.scopes.owner? id name).bind (after.scopes.getLocal? · name) =
      (before.scopes.owner? id name).bind (before.scopes.getLocal? · name) := by
    cases found : before.scopes.owner? id name with
    | none => rfl
    | some member =>
        rw [Scopes.owner?_eq_find? name chain] at found
        have among := List.mem_of_find?_eq_some found
        exact evolves.scopes.getLocal? (chain.isLive member among) (outside member among) name
  unfold Scopes.lookup
  rw [owner, type]

/-- **What a session evolves into is framed.** -/
theorem Evolves.framed (evolves : before.Evolves writable after) (wellFormed : before.WellFormed) :
    before.Framed writable after := by
  have embeds := evolves.types.embeds wellFormed.types evolves.wellFormed.types
  refine ⟨evolves.scopes.kept, evolves.lookup, evolves.types.types, embeds.name, embeds.unalias,
    embeds.fits, evolves.types.names, evolves.types.functions, evolves.active, ?_⟩
  intro object name has outside
  have same : after.field object name = (before.field object name).map fun id => id :=
    embeds.field has name fun declared among => by
      obtain ⟨owner, found⟩ := Registry.get?_of_mem_lineage among
      simpa using evolves.scopes.getLocal? (wellFormed.isLive_of_scope? found rfl)
        (outside declared among) name
  rw [same]
  cases before.field object name <;> rfl

/-! ## Checking -/

open CheckM Checker in
/-- What checking to any depth may change from here: an expression the names of its
scope only, and a block, a function, a narrowed branch and an instance of a generic
function no names at all. -/
structure Frames (session : Session) (scope : ScopeId) : Prop where
  typeOf : ∀ (depth : Nat) (expression : Expr) {outcome : Except Error TypeId} {reached : Session},
    (Checker.typeOf depth expression scope).runOn session = some (outcome, reached) →
      session.Framed {scope} reached
  block : ∀ (depth : Nat) (items : List Expr) {outcome : Except Error TypeId} {reached : Session},
    (inChild scope fun inner => sequence (Checker.typeOf depth) items inner).runOn session =
      some (outcome, reached) → session.Framed ∅ reached
  function : ∀ (depth : Nat) (signature : Signature) (expression : Expr)
    {outcome : Except Error TypeId} {reached : Session},
    (checkLambda (Checker.typeOf depth) signature scope expression).runOn session =
      some (outcome, reached) → session.Framed ∅ reached
  narrowed : ∀ (depth : Nat) (narrowing : Narrowing) (consequent expression : Expr)
    {outcome : Except Error TypeId} {reached : Session},
    (checkConsequent (Checker.typeOf depth) (some narrowing) consequent scope expression).runOn
      session = some (outcome, reached) → session.Framed ∅ reached
  instantiated : ∀ (depth : Nat) (generic : TypeId) (typeArguments : List String)
    (callee expression : Expr) {outcome : Except Error TypeId} {reached : Session},
    (instantiate (Checker.typeOf depth) generic typeArguments callee expression).runOn session =
      some (outcome, reached) → session.Framed ∅ reached

theorem WellFormed.frames (wellFormed : session.WellFormed) {scope : ScopeId}
    (live : session.scopes.isLive scope = true) : session.Frames scope where
  typeOf depth expression _ _ run :=
    ((Checker.typeOf_sound depth expression wellFormed live).evolves run).framed wellFormed
  block depth items _ _ run :=
    ((Checker.block_sound (Checker.typeOf_sound depth) items wellFormed live).evolves run).framed
      wellFormed
  function depth signature expression _ _ run :=
    ((Checker.checkLambda_sound (Checker.typeOf_sound depth) signature expression wellFormed
      live).evolves run).framed wellFormed
  narrowed depth narrowing consequent expression _ _ run :=
    ((Checker.narrowed_sound (Checker.typeOf_sound depth) narrowing consequent expression
      wellFormed live).evolves run).framed wellFormed
  instantiated depth generic typeArguments callee expression _ _ run :=
    ((Checker.instantiate_sound (Checker.typeOf_sound depth) generic typeArguments callee
      expression wellFormed live).evolves run).framed wellFormed

/-- **The frame of checking.** In every reachable session and every scope that is
there, checking an expression has an outcome, and whatever it is, the session is
framed but for the names of that scope. At every call inside the run, too, checking
changes no more than that, and blocks, functions, narrowed branches and instances
change no names at all: the checker that stops at a call where this fails ends in
the same way. -/
theorem Reachable.checking_framed (reachable : session.Reachable) (expression : Expr)
    {scope : ScopeId} (live : session.scopes.isLive scope = true) :
    ∃ outcome reached, session.typeOf expression scope = some (outcome, reached) ∧
      session.Framed {scope} reached ∧ session.Frames scope ∧
      (Checker.watched Frames (session.depthBound expression) expression scope).runOn session =
        some (outcome, reached) := by
  have wellFormed := reachable.wellFormed
  have frames := wellFormed.frames live
  have watched := Checker.watched_sound (show ∀ {session : Session} {scope : ScopeId},
    session.WellFormed → session.scopes.isLive scope = true → session.Frames scope from
      fun wellFormed live => wellFormed.frames live)
  obtain ⟨outcome, reached, run⟩ := wellFormed.typeOf_ends expression live
  exact ⟨outcome, reached, run, frames.typeOf _ expression run, frames,
    (watched _ expression wellFormed live).agree.symm.trans run⟩

/-- A block that fails after it has shadowed a name of the global scope. -/
theorem checking_framed_failed_block :
    (initial true).Reachable ∧ (initial true).scopes.isLive .global = true ∧
      ∃ outcome reached,
        (initial true).typeOf
            (.list [.symbol "begin", .list [.symbol "var", .symbol "sum", .string "s"],
              .list [.symbol "sum", .symbol "missing"]]) .global = some (outcome, reached) ∧
          (initial true).Framed {.global} reached := by
  have reachable := Reachable.initial true
  have live := reachable.wellFormed.isLive_global
  obtain ⟨outcome, reached, run, framed, _⟩ := reachable.checking_framed _ live
  exact ⟨reachable, live, outcome, reached, run, framed⟩

end Session

end TypedLisp
