import TypedLisp.Proofs.Instantiation
import TypedLisp.Proofs.Rollback
import TypedLisp.Proofs.ScopeInvariant

/-!
# Recursive functions

The declaration of a function without generic names binds its name before its body is
checked, so that the body can call the function. The type that the name is bound to comes
from the signature. It is made again after the body, from types that the signature was
resolved to a second time, and by then the body may have declared types and classes and made
further function types.

All these are one type (`Session.Reachable.recursion_typed`). The texts of the signature are
known after the first time, so they stand for the same types the second time
(`Checker.resolveSignature_of_denotes`), and a function type is found again under its
canonical name, whatever is made in between (`Checker.checkFunction_of_functions`). The name
itself stays bound to it: the body is checked in scopes other than that of the declaration,
and in none of these can the names of that scope change (`Scopes.AwayFrom`).
-/

set_option autoImplicit false

namespace TypedLisp

/-! ## Away from a scope -/

/-- A scope other than one that binds certain names. -/
structure Scopes.AwayFrom (home : ScopeId) (record : NameTable TypeId) (scopes : Scopes)
    (scope : ScopeId) : Prop where
  isLive : scopes.isLive scope = true
  apart : scope ≠ home
  binds : scopes.record? home = some record

namespace Scopes

variable {home scope : ScopeId} {record : NameTable TypeId} {scopes : Scopes}

theorem isLive_of_record? (binds : scopes.record? home = some record) :
    scopes.isLive home = true := by
  obtain ⟨found, there, _⟩ := Option.map_eq_some_iff.1 binds
  exact isLive_of_get? there

theorem getLocal?_define_self (live : scopes.isLive scope = true) (name : String) (type : TypeId) :
    (scopes.define scope name type).getLocal? scope name = some type := by
  obtain ⟨found, there⟩ := isLive_iff.1 live
  rw [getLocal?_eq_record?, define, record?_updateRecord, record?, there, Option.map_some,
    Option.map_some, Option.bind_some, NameTable.get?_insert, if_pos rfl]

/-- Every scope that is opened is away from those that are there. -/
theorem awayFrom_push (wellFormed : scopes.WellFormed) (parent : ScopeId)
    (binds : scopes.record? home = some record) :
    AwayFrom home record (scopes.push parent).2 (scopes.push parent).1 := by
  obtain ⟨found, there, same⟩ := Option.map_eq_some_iff.1 binds
  refine ⟨isLive_of_get? ((get?_push wellFormed parent _).trans (if_pos rfl)),
    (wellFormed.ne_push_fst parent (isLive_of_get? there)).symm, ?_⟩
  rw [record?, get?_push_of_get? wellFormed parent there, Option.map_some, same]

/-- Checking that goes on away from a scope leaves its names as they are. -/
instance : Territory (AwayFrom home record) where
  isLive away := away.isLive
  keeps away written keeps :=
    { isLive := keeps.isLive away.isLive
      apart := away.apart
      binds := (keeps.record? (isLive_of_record? away.binds) fun among =>
        (written _ among).apart rfl).trans away.binds }
  push parent wellFormed away := awayFrom_push wellFormed parent away.binds

end Scopes

/-- The session after a function type has been made and a name has been bound to it. -/
def Session.announced (session : Session) (made : TypeId × Registry) (scope : ScopeId)
    (name : String) : Session :=
  { session with types := made.2, scopes := session.scopes.define scope name made.1 }

/-- The session after the check of an expression has begun. -/
def Session.visiting (session : Session) (expression : Expr) : Session :=
  { session with events := .visited expression :: session.events }

theorem Session.WellFormed.visiting {session : Session} (wellFormed : session.WellFormed)
    (expression : Expr) : (session.visiting expression).WellFormed := by
  have evolves : session.Evolves ∅ _ :=
    wellFormed.evolves_events (.visited expression :: session.events)
  exact evolves.wellFormed

namespace Checker

open CheckM

variable {visit inner innermost : Expr → ScopeId → CheckM TypeId} {session reached : Session}
  {scope : ScopeId} {name : String} {type : TypeId} {signature : Signature}

/-! ## The type of a function -/

/-- A function whose type is there when its body is checked has that type. -/
theorem checkFunction_of_functions (sound : SoundVisit visit visit)
    {parameters : List (String × TypeId)} {result made : TypeId} {body expression : Expr}
    (wellFormed : session.WellFormed) (live : session.scopes.isLive scope = true)
    (plain : ∀ parameter ∈ parameters, session.types.IsPlain parameter.2)
    (plainResult : session.types.IsPlain result)
    (there : session.types.functions.get?
      (session.types.functionName (parameters.map Prod.snd) result) = some made)
    (run : (checkFunction visit parameters result body scope expression).runOn session =
      some (.ok type, reached)) : type = made := by
  rw [checkFunction, runOn_bind] at run
  obtain ⟨⟨outcome, middle⟩, ran, followed⟩ := Option.bind_eq_some_iff.1 run
  have evolves := (functionBody_sound sound parameters body wellFormed live
    (wellFormed.isLive_next scope) plain).evolves ran
  cases outcome with
  | error error => cases followed
  | ok actual =>
      have has : ∀ id ∈ result :: parameters.map Prod.snd, session.Has id := by
        intro id among
        rcases List.mem_cons.1 among with rfl | among
        · exact Session.has_of_isPlain plainResult
        · obtain ⟨parameter, listed, rfl⟩ := List.mem_map.1 among
          exact Session.has_of_isPlain (plain parameter listed)
      have still : middle.types.function (parameters.map Prod.snd) result =
          (made, middle.types) := by
        refine Registry.function_of_get? ?_
        rw [Registry.functionName_eq evolves.types.types has]
        exact evolves.types.functions there
      dsimp only at followed
      rw [runOn_bind, runOn_ask, Option.bind_some] at followed
      cases fits : middle.types.expect actual result with
      | error fault =>
          rw [fits] at followed
          cases followed
      | ok _ =>
          rw [fits] at followed
          have ended : (making (·.function (parameters.map Prod.snd) result)).runOn middle =
              some (.ok type, reached) := followed
          rw [runOn_making, still] at ended
          exact (Except.ok.inj (Prod.mk.inj (Option.some.inj ended)).1).symm

/-! ## What is known of a signature -/

/-- The texts of a signature stand for certain types, and the function type over these is
there. -/
structure Knows (signature : Signature) (types : List (String × TypeId) × TypeId)
    (registry : Registry) (made : TypeId) : Prop where
  parameters : List.Forall₂ (Typed registry) signature.parameters types.1
  result : registry.Denotes signature.result.toList types.2
  function : registry.functions.get?
    (registry.functionName (types.1.map Prod.snd) types.2) = some made

theorem isPlain_of_typed {registry : Registry} {parameters : List (String × String)}
    {typed : List (String × TypeId)} (wellFormed : registry.WellFormed)
    (each : List.Forall₂ (Typed registry) parameters typed) :
    ∀ parameter ∈ typed, registry.IsPlain parameter.2 :=
  (each.imp fun _ _ good => good.2.isPlain wellFormed).forall_right

/-- A signature is known once it has been resolved and its type has been made. -/
theorem knows_function {before registry : Registry} {types : List (String × TypeId) × TypeId}
    (wellFormed : before.WellFormed)
    (resolved : (resolveSignature signature).run.run before = (.ok types, registry)) :
    Knows signature types (registry.function (types.1.map Prod.snd) types.2).2
      (registry.function (types.1.map Prod.snd) types.2).1 := by
  obtain ⟨made, _, each, last⟩ :=
    resolveSignature_denotes Registry.admitsNongeneric wellFormed resolved
  have inside : ∀ id ∈ types.2 :: types.1.map Prod.snd, registry.IsPlain id := by
    intro id among
    rcases List.mem_cons.1 among with rfl | among
    · exact last.isPlain made
    · obtain ⟨parameter, listed, rfl⟩ := List.mem_map.1 among
      exact isPlain_of_typed made each parameter listed
  obtain ⟨_, interns, listed, _⟩ := made.function inside
  refine ⟨each.imp fun _ _ good => ⟨good.1, interns.denotes good.2⟩, interns.denotes last, ?_⟩
  rw [Registry.functionName_eq interns.types fun id among => (inside id among).has]
  exact listed

/-! ## The declaration of a function -/

variable {types : List (String × TypeId) × TypeId} {registry : Registry}

theorem signatureType_eq (signature : Signature) (expression : Expr) :
    signatureType signature expression =
      registering expression (resolveSignature signature) >>= fun types =>
        making (·.function (types.1.map Prod.snd) types.2) :=
  resolving_eq signature expression fun parameters result =>
    making (·.function (parameters.map Prod.snd) result)

theorem runOn_announce (plain : signature.generics = [])
    (resolved : (resolveSignature signature).run.run session.types = (.ok types, registry))
    (expression : Expr) :
    (announce name signature scope expression).runOn session = some (.ok (),
      session.announced (registry.function (types.1.map Prod.snd) types.2) scope name) := by
  rw [announce, if_neg (by simp [Signature.isGeneric, plain]), signatureType_eq, runOn_bind,
    runOn_bind, runOn_registering, resolved]
  rfl

/-- A function that is declared names types that are there. -/
theorem exists_resolved {expression : Expr} (plain : signature.generics = [])
    (run : (checkFunctionDecl visit name signature scope expression).runOn session =
      some (.ok type, reached)) :
    ∃ types registry,
      (resolveSignature signature).run.run session.types = (.ok types, registry) := by
  cases resolved : (resolveSignature signature).run.run session.types with
  | mk outcome registry =>
      cases outcome with
      | ok types => exact ⟨types, registry, rfl⟩
      | error fault =>
          rw [checkFunctionDecl, runOn_bind, runOn_get, Option.bind_some] at run
          dsimp only at run
          rw [runOn_bind, announce, if_neg (by simp [Signature.isGeneric, plain]),
            signatureType_eq, runOn_bind, runOn_bind, runOn_registering, resolved] at run
          cases run

/-- The variable that a function is bound to. -/
def functionVariable (name : String) (signature : Signature) : Expr :=
  .list [.symbol "var", .symbol name, signature.toLambda]

/-- A function whose signature is resolved without any change is checked next. -/
theorem runOn_lambda (plain : signature.generics = [])
    (resolved : (resolveSignature signature).run.run session.types = (.ok types, session.types)) :
    (checkExpr visit signature.toLambda scope).runOn session =
      (checkFunction visit types.1 types.2 signature.body scope signature.toLambda).runOn
        (session.visiting signature.toLambda) := by
  rw [runOn_checkExpr (Form.classify_toLambda plain)]
  change (checkLambda visit signature scope signature.toLambda).runOn _ = _
  rw [checkLambda_eq plain, runOn_bind, runOn_registering, resolved]
  rfl

/-- The end of the declaration of a function: its name is bound to its type, or put back. -/
def declaring (name : String) (scope : ScopeId) (previous : Option TypeId)
    (step : CheckM TypeId) : CheckM TypeId :=
  undoing (do
    let type ← step
    modifyScopes (·.define scope name type)
    return type) fun session =>
      { session with scopes := session.scopes.restore scope name previous }

theorem ok_of_declaring {previous : Option TypeId} {step : CheckM TypeId}
    (run : (declaring name scope previous step).runOn session = some (.ok type, reached)) :
    ∃ middle, step.runOn session = some (.ok type, middle) ∧
      reached = { middle with scopes := middle.scopes.define scope name type } := by
  rw [declaring, runOn_undoing, runOn_bind] at run
  obtain ⟨⟨outcome, ended⟩, ran, same⟩ := Option.map_eq_some_iff.1 run
  obtain ⟨⟨inside, middle⟩, stepped, followed⟩ := Option.bind_eq_some_iff.1 ran
  cases inside with
  | error error =>
      obtain ⟨rfl, rfl⟩ := Prod.mk.inj (Option.some.inj followed)
      cases same
  | ok made =>
      obtain ⟨rfl, rfl⟩ := Prod.mk.inj (Option.some.inj followed)
      obtain ⟨made, rfl⟩ := Prod.mk.inj same
      obtain rfl := Except.ok.inj made
      exact ⟨middle, stepped, rfl⟩

theorem runOn_declaring_congr {later : Session} {previous : Option TypeId}
    {step other : CheckM TypeId} (same : step.runOn session = other.runOn later) :
    (declaring name scope previous step).runOn session =
      (declaring name scope previous other).runOn later := by
  rw [declaring, declaring, runOn_undoing, runOn_undoing, runOn_bind, runOn_bind, same]

/-- **The declaration of a function** makes the type of its signature, binds its name to it,
and checks the function with the name in place. This is so whatever checks the function,
as long as it goes by the rules on the way there. -/
theorem runOn_checkFunctionDecl (plain : signature.generics = [])
    (resolved : (resolveSignature signature).run.run session.types = (.ok types, registry))
    {announced : Session} (announces : session.announced
      (registry.function (types.1.map Prod.snd) types.2) scope name = announced)
    (again : (resolveSignature signature).run.run announced.types = (.ok types, announced.types))
    (outer : (visit (functionVariable name signature) scope).runOn announced =
      (checkExpr inner (functionVariable name signature) scope).runOn announced)
    (within : (inner signature.toLambda scope).runOn
        (announced.visiting (functionVariable name signature)) =
      (checkExpr innermost signature.toLambda scope).runOn
        (announced.visiting (functionVariable name signature))) (expression : Expr) :
    (checkFunctionDecl visit name signature scope expression).runOn session =
      (declaring name scope (session.scopes.getLocal? scope name)
        (checkFunction innermost types.1 types.2 signature.body scope signature.toLambda)).runOn
        ((announced.visiting (functionVariable name signature)).visiting signature.toLambda) := by
  have classified : Form.classify (functionVariable name signature) =
      .ok (.varDecl ⟨name, none⟩ signature.toLambda) := rfl
  have asVariable : (visit (functionVariable name signature) scope).runOn announced =
      (do let type ← inner signature.toLambda scope
          modifyScopes (·.define scope name type)
          return type : CheckM TypeId).runOn
        (announced.visiting (functionVariable name signature)) := by
    rw [outer, runOn_checkExpr classified]
    simp only [checkForm, checkVariable, variableType, pure_bind]
    rfl
  rw [← runOn_declaring_congr (within.trans (runOn_lambda plain again)), checkFunctionDecl,
    runOn_bind, runOn_get]
  dsimp only [Option.bind_some]
  rw [runOn_bind, runOn_announce plain resolved, announces]
  dsimp only [Option.bind_some]
  rw [declaring, runOn_undoing, runOn_undoing, ← asVariable]
  rfl

/-! ## Recursion -/

/-- A scope binds a name to a type, wherever the call is that is looked at. -/
def BindsName (scope : ScopeId) (name : String) (type : TypeId) (session : Session)
    (_ : ScopeId) : Prop :=
  session.scopes.getLocal? scope name = some type

/-- A function is checked in the same way when its name is watched, if the name is bound to
begin with: what is checked inside goes on in other scopes. -/
theorem checkFunction_watched {parameters : List (String × TypeId)} {result : TypeId}
    {body expression : Expr} (wellFormed : session.WellFormed)
    (live : session.scopes.isLive scope = true)
    (plain : ∀ parameter ∈ parameters, session.types.IsPlain parameter.2)
    (plainResult : session.types.IsPlain result)
    (bound : session.scopes.getLocal? scope name = some type) (depth : Nat) :
    (checkFunction (typeOf depth) parameters result body scope expression).runOn session =
      (checkFunction (watched (BindsName scope name type) depth) parameters result body scope
        expression).runOn session := by
  rw [Scopes.getLocal?_eq_record?] at bound
  obtain ⟨record, binds, listed⟩ := Option.bind_eq_some_iff.1 bound
  have everywhere : ∀ {later : Session} {other : ScopeId}, later.WellFormed →
      Scopes.AwayFrom scope record later.scopes other → BindsName scope name type later other := by
    intro later other _ away
    rw [BindsName, Scopes.getLocal?_eq_record?, away.binds, Option.bind_some, listed]
  exact (checkFunction_sound (watched_sound_within everywhere depth) parameters result body
    expression wellFormed live (Scopes.awayFrom_push wellFormed.scopes scope binds) plain
    plainResult).agree

/-- **The name of a function is bound to the type that the function ends up with**, at every
call inside its declaration and afterwards. -/
theorem checkFunctionDecl_watched {depth : Nat} {expression : Expr}
    (plain : signature.generics = []) (wellFormed : session.WellFormed)
    (live : session.scopes.isLive scope = true)
    (run : (checkFunctionDecl (typeOf (depth + 2)) name signature scope expression).runOn session =
      some (.ok type, reached)) :
    reached.scopes.getLocal? scope name = some type ∧
      (checkFunctionDecl (watched (BindsName scope name type) (depth + 2)) name signature scope
        expression).runOn session = some (.ok type, reached) := by
  obtain ⟨types, registry, resolved⟩ := exists_resolved plain run
  generalize announces : session.announced
    (registry.function (types.1.map Prod.snd) types.2) scope name = announced
  have evolves : session.Evolves {scope} announced := announces ▸
    (announce_sound name signature expression wellFormed).evolves
      (runOn_announce plain resolved expression)
  have knows : Knows signature types announced.types
      (registry.function (types.1.map Prod.snd) types.2).1 := announces ▸
    knows_function wellFormed.types resolved
  have bound : announced.scopes.getLocal? scope name =
      some (registry.function (types.1.map Prod.snd) types.2).1 := announces ▸
    Scopes.getLocal?_define_self live _ _
  have again := resolveSignature_of_denotes knows.parameters knows.result
  have ready := (evolves.wellFormed.visiting (functionVariable name signature)).visiting
    signature.toLambda
  have byRule : ∀ (depth : Nat) (part : Expr) (later : Session), (typeOf (depth + 1) part
      scope).runOn later = (checkExpr (typeOf depth) part scope).runOn later := fun _ _ _ => rfl
  rw [runOn_checkFunctionDecl plain resolved announces again (byRule _ _ _) (byRule _ _ _)] at run
  obtain ⟨middle, ran, rfl⟩ := ok_of_declaring run
  have plainParameters := isPlain_of_typed evolves.wellFormed.types knows.parameters
  have plainResult := knows.result.isPlain evolves.wellFormed.types
  obtain rfl := checkFunction_of_functions (typeOf_sound depth) ready (evolves.isLive live)
    plainParameters plainResult knows.function ran
  have checks := checkFunction_sound (typeOf_sound depth) types.1 types.2 signature.body
    signature.toLambda ready (evolves.isLive live) (ready.isLive_next scope) plainParameters
    plainResult
  have liveMiddle := (checks.evolves ran).isLive (evolves.isLive live)
  refine ⟨Scopes.getLocal?_define_self liveMiddle _ _, ?_⟩
  rw [runOn_checkFunctionDecl plain resolved announces again (runOn_watched bound _ _)
    (runOn_watched bound _ _)]
  rw [← run]
  exact runOn_declaring_congr (checkFunction_watched ready (evolves.isLive live) plainParameters
    plainResult bound depth).symm

end Checker

namespace Session

open Checker (BindsName checkExpr watched)

variable {session reached : Session}

theorem exists_depthBound (session : Session) (expression : Expr) :
    ∃ depth, session.depthBound expression = depth + 3 := by
  have large : expression.size + session.types.templateSize + 4 ≤ session.depthBound expression :=
    Nat.le_self_pow (by omega) _
  exact ⟨session.depthBound expression - 3, by omega⟩

/-- **A recursive function is checked against the type that it ends up with.** When the
declaration of a function without generic names succeeds, its name is bound to the type of
the function afterwards, and it was bound to that very type at every call on the way: the
checker that stops at a call where this fails ends in the same way. -/
theorem Reachable.recursion_typed (reachable : session.Reachable) {scope : ScopeId}
    (live : session.scopes.isLive scope = true) {form : Expr} {name : String}
    {signature : Signature} (declares : Form.classify form = .ok (.functionDecl name signature))
    (nongeneric : signature.isGeneric = false) {type : TypeId}
    (run : session.typeOf form scope = some (.ok type, reached)) :
    reached.scopes.getLocal? scope name = some type ∧
      ∃ depth, session.depthBound form = depth + 1 ∧
        (checkExpr (watched (BindsName scope name type) depth) form scope).runOn session =
          some (.ok type, reached) := by
  have plain : signature.generics = [] := by simpa [Signature.isGeneric] using nongeneric
  obtain ⟨depth, bound⟩ := session.exists_depthBound form
  rw [Session.typeOf, bound, Checker.typeOf, Checker.runOn_checkExpr declares] at run
  have visits := reachable.wellFormed.visiting form
  obtain ⟨after, during⟩ := Checker.checkFunctionDecl_watched plain visits live run
  exact ⟨after, depth + 2, bound, (Checker.runOn_checkExpr declares).trans during⟩

/-- A function that calls itself after its body has declared a type and a class, and has made
a function type over them. -/
def recursive : Expr :=
  .list [.symbol "def", .symbol "walk",
    .list [.list [.symbol "n", .symbol "number"], .list [.symbol "to", .symbol "string"]],
    .symbol "->", .symbol "number", .list [.symbol "begin",
      .list [.symbol "type", .symbol "Step", .symbol "number"],
      .list [.symbol "class", .symbol "Path", .symbol "null",
        .list [.symbol "def", .symbol "constructor",
          .list [.list [.symbol "self", .symbol "Path"], .list [.symbol "by", .symbol "Step"]],
          .symbol "->", .symbol "Path", .symbol "self"]],
      .list [.symbol "if", .list [.symbol "==", .symbol "n", .symbol "n"], .symbol "n",
        .list [.symbol "walk", .list [.symbol "-", .symbol "n", .symbol "n"], .symbol "to"]]]]

/-- The type of the function is made before those of its body, and it is found again after
them. -/
theorem recursion_typed_declaring :
    ∃ type reached, (initial true).Reachable ∧ (initial true).scopes.isLive .global = true ∧
      (initial true).typeOf recursive .global = some (.ok type, reached) ∧
      reached.types.name type = "Fn<number<number,string>>" ∧
      reached.types.names.contains "Path" = true ∧
      reached.scopes.getLocal? .global "walk" = some type ∧
      ∃ depth, (initial true).depthBound recursive = depth + 1 ∧
        (checkExpr (watched (BindsName .global "walk" type) depth) recursive .global).runOn
          (initial true) = some (.ok type, reached) := by
  have checked : (((initial true).typeOf recursive .global).any fun ended =>
      ended.1.toOption.any fun type =>
        decide (ended.2.types.name type = "Fn<number<number,string>>" ∧
          ended.2.types.names.contains "Path" = true)) = true := by
    decide +kernel
  obtain ⟨type, reached, run, checked⟩ := exists_ok_of_any checked
  obtain ⟨named, declared⟩ := of_decide_eq_true checked
  have reachable := Reachable.initial true
  have live := reachable.wellFormed.isLive_global
  obtain ⟨after, during⟩ := reachable.recursion_typed live rfl rfl run
  exact ⟨type, reached, reachable, live, run, named, declared, after, during⟩

end Session

end TypedLisp
