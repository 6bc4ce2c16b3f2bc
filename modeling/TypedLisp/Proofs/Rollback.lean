import TypedLisp.Proofs.Declarations
import TypedLisp.Proofs.Reachable

/-!
# Failed declarations

The declaration of a function or a class binds its name before its body is checked, so that
the body can use it. When the declaration fails, at whatever point, the binding is undone:
every scope that was there before binds exactly what it did
(`Checker.typeOf_unwritten`). The bodies themselves are checked in scopes of their own, so
the scope of the declaration is the only one that has to be put back, and there only the
name has changed (`Scopes.record?_restore`).

What a failed declaration does leave behind are the declared names: those of the types and
classes whose declarations were completed before the failure, and no others
(`Session.Reachable.failed_declaration_undone`).
-/

set_option autoImplicit false

namespace TypedLisp

/-! ## The record of a scope -/

namespace Scopes

variable {scopes before after : Scopes} {id : ScopeId} {name : String}

/-- The names that a scope binds. -/
def record? (scopes : Scopes) (id : ScopeId) : Option (NameTable TypeId) :=
  (scopes.get? id).map (·.record)

theorem getLocal?_eq_record? (scopes : Scopes) (id : ScopeId) (name : String) :
    scopes.getLocal? id name = (scopes.record? id).bind (·.get? name) := by
  rw [getLocal?, record?, Option.bind_map]
  rfl

theorem record?_updateRecord (scopes : Scopes) (id : ScopeId)
    (change : NameTable TypeId → NameTable TypeId) :
    (scopes.updateRecord id change).record? id = (scopes.record? id).map change := by
  rw [record?, record?, get?_updateRecord, Option.map_map, Option.map_map]
  congr 1
  funext scope
  simp [recordChanged]

/-- What a name was bound to is put back, whether another binding has taken its place or
not. -/
theorem record?_restore (since : after.record? id = before.record? id ∨
      ∃ type, after.record? id = (before.define id name type).record? id) :
    (after.restore id name (before.getLocal? id name)).record? id = before.record? id := by
  have bound := getLocal?_eq_record? before id name
  cases found : before.record? id with
  | none =>
      have none : after.record? id = none := by
        rcases since with same | ⟨type, defined⟩
        · rw [same, found]
        · rw [defined, define, record?_updateRecord, found, Option.map_none]
      unfold restore
      split
      · rw [define, record?_updateRecord, none, Option.map_none]
      · rw [remove, record?_updateRecord, none, Option.map_none]
  | some table =>
      rw [found, Option.bind_some] at bound
      have tables : after.record? id = some table ∨
          ∃ type, after.record? id = some (table.insert name type) := by
        rcases since with same | ⟨type, defined⟩
        · exact .inl (same.trans found)
        · rw [define, record?_updateRecord, found, Option.map_some] at defined
          exact .inr ⟨type, defined⟩
      rw [bound]
      cases previous : table.get? name with
      | some old =>
          rw [restore, define, record?_updateRecord]
          rcases tables with same | ⟨type, defined⟩
          · rw [same, Option.map_some, NameTable.insert_of_get? previous]
          · rw [defined, Option.map_some, NameTable.insert_insert_of_get? previous]
      | none =>
          rw [restore, remove, record?_updateRecord]
          rcases tables with same | ⟨type, defined⟩
          · rw [same, Option.map_some, NameTable.erase_of_get? previous]
          · rw [defined, Option.map_some, NameTable.erase_insert_of_get? previous]

theorem Keeps.record? {writable : Set ScopeId} (keeps : Keeps writable before after)
    (live : before.isLive id = true) (outside : id ∉ writable) :
    after.record? id = before.record? id := by
  obtain ⟨scope, found⟩ := isLive_iff.1 live
  obtain ⟨later, foundLater, _, _, record⟩ := keeps.kept found
  rw [Scopes.record?, Scopes.record?, found, foundLater, Option.map_some, Option.map_some,
    record outside]

/-- An arena in which only one scope could be written to, and that scope is as it was. -/
theorem Keeps.unwritten (keeps : Keeps {id} before after)
    (same : after.record? id = before.record? id) : Keeps ∅ before after where
  kept := by
    intro other scope found
    obtain ⟨later, foundLater, parent, pinned, record⟩ := keeps.kept found
    refine ⟨later, foundLater, parent, pinned, fun _ => ?_⟩
    by_cases here : other = id
    · subst here
      rw [Scopes.record?, Scopes.record?, found, foundLater] at same
      exact Option.some.inj same
    · exact record here
  fresh := keeps.fresh
  recycles := keeps.recycles

end Scopes

/-! ## Forms by their heads -/

namespace Form

variable {expression : Expr} {form : Form}

theorem exists_operands {tag : String} (starts : expression.head? = some tag)
    (apart : tag ≠ "set") (classified : classify expression = .ok form) :
    ∃ operands, taggedOf expression tag operands = .ok form := by
  unfold Expr.head? at starts
  split at starts
  · rename_i name operands
    obtain rfl := Option.some.inj starts
    exact ⟨operands, (classify_tagged apart operands).symm.trans classified⟩
  · cases starts

theorem eq_lambda (starts : expression.head? = some "lambda")
    (classified : classify expression = .ok form) : ∃ signature, form = .lambda signature := by
  obtain ⟨operands, tagged⟩ := exists_operands starts (by decide) classified
  obtain ⟨signature, _, read⟩ := ok_of_bind tagged
  exact ⟨signature, (Except.ok.inj read).symm⟩

theorem eq_functionDecl (starts : expression.head? = some "def")
    (classified : classify expression = .ok form) :
    ∃ name signature, form = .functionDecl name signature := by
  obtain ⟨operands, tagged⟩ := exists_operands starts (by decide) classified
  have read : functionOf expression operands = .ok form := tagged
  unfold functionOf at read
  split at read
  · cases read
  · obtain ⟨name, _, read⟩ := ok_of_bind read
    obtain ⟨signature, _, read⟩ := ok_of_bind read
    exact ⟨name, signature, (Except.ok.inj read).symm⟩

theorem eq_classDecl (starts : expression.head? = some "class")
    (classified : classify expression = .ok form) :
    ∃ name superclass body, form = .classDecl name superclass body := by
  obtain ⟨operands, tagged⟩ := exists_operands starts (by decide) classified
  have read : classDeclOf expression operands = .ok form := tagged
  unfold classDeclOf at read
  split at read
  · obtain ⟨name, _, read⟩ := ok_of_bind read
    obtain ⟨superclass, _, read⟩ := ok_of_bind read
    exact ⟨name, _, _, (Except.ok.inj read).symm⟩
  · cases read

end Form

/-! ## Classes -/

namespace Checker

open CheckM

variable {visit : Expr → ScopeId → CheckM TypeId} {session reached : Session} {scope : ScopeId}
  {name : String} {error : Error}

/-- The body of a class is checked in the scope of the class. So the scope around it changes
only by the binding of the name, which is undone when the body fails. -/
theorem bindClass_unwritten (sound : SoundVisit visit visit) {inner : ScopeId} {type : TypeId}
    {body : Expr} (wellFormed : session.WellFormed) (live : session.scopes.isLive scope = true)
    (apart : scope ≠ inner) (liveInner : session.scopes.isLive inner = true)
    (has : session.Has type)
    (failed : (bindClass visit name body scope inner type).runOn session =
      some (.error error, reached)) :
    reached.scopes.record? scope = session.scopes.record? scope := by
  rw [runOn_bindClass] at failed
  obtain ⟨⟨outcome, ended⟩, ran, same⟩ := Option.map_eq_some_iff.1 failed
  have defines := wellFormed.evolves_define scope name has
  have announces := defines.trans
    (defines.wellFormed.evolves_events (.declaredClass name :: session.events))
  have evolves := (checkBody_sound sound body announces.wellFormed
    (announces.isLive liveInner)).evolves ran
  cases outcome with
  | ok value => cases same
  | error fault =>
      obtain ⟨_, rfl⟩ := Prod.mk.inj same
      refine Scopes.record?_restore (.inr ⟨type, ?_⟩)
      exact evolves.scopes.record? (announces.isLive live) (by simpa using apart)

theorem checkClassDecl_unwritten (sound : SoundVisit visit visit) {superclass : Option String}
    {body expression : Expr} (wellFormed : session.WellFormed)
    (live : session.scopes.isLive scope = true)
    (failed : (checkClassDecl visit name superclass body scope expression).runOn session =
      some (.error error, reached)) :
    reached.scopes.record? scope = session.scopes.record? scope := by
  cases classStart name superclass body scope expression session with
  | refused _ unchanged runs =>
      obtain ⟨_, rfl⟩ := Prod.mk.inj (Option.some.inj ((runs visit).symm.trans failed))
      rcases unchanged with rfl | rfl
      · rfl
      · have closes := Session.Evolves.closed wellFormed live (.refl _ (wellFormed.opened live))
        exact closes.scopes.record? live (Set.notMem_empty _)
  | opened asked free runs =>
      rw [runs] at failed
      have answered : Sound session session ∅ _ _ _ :=
        superclass_sound superclass expression wellFormed
      have opens := wellFormed.evolves_withClass live (answered.ok asked).2 free
      have apart : scope ≠ session.next scope := wellFormed.scopes.ne_push_fst scope live
      have restored := bindClass_unwritten sound opens.wellFormed (opens.isLive live) apart
        (wellFormed.isPinned_withClass live).isLive
        ⟨_, Session.get?_withClass session name _ scope⟩ failed
      exact restored.trans (opens.scopes.record? live (Set.notMem_empty _))

theorem checkClassDecl_unnamed {superclass : Option String} {body expression : Expr}
    (failed : (checkClassDecl visit name superclass body scope expression).runOn session =
      some (.error error, reached)) :
    reached.types.names.get? name = session.types.names.get? name := by
  cases classStart name superclass body scope expression session with
  | refused _ unchanged runs =>
      obtain ⟨_, rfl⟩ := Prod.mk.inj (Option.some.inj ((runs visit).symm.trans failed))
      rcases unchanged with rfl | rfl
      · rfl
      · rfl
  | opened asked free runs =>
      rw [runs] at failed
      rw [bindClass_forgets failed, free]

/-- A failed class leaves the scope around it as it was, to whatever depth it is checked. -/
theorem typeOf_class_unwritten {depth : Nat} {form : Expr} {superclass : Option String}
    {body : Expr} (declares : Form.classify form = .ok (.classDecl name superclass body))
    (wellFormed : session.WellFormed) (live : session.scopes.isLive scope = true)
    (failed : (typeOf depth form scope).runOn session = some (.error error, reached)) :
    reached.scopes.record? scope = session.scopes.record? scope := by
  cases depth with
  | zero => cases failed
  | succ depth =>
      rw [typeOf, runOn_checkExpr declares] at failed
      have visits : session.Evolves ∅ _ :=
        wellFormed.evolves_events (.visited form :: session.events)
      exact (checkClassDecl_unwritten (typeOf_sound depth) visits.wellFormed live failed :)

/-- The name of a failed class leads to what it led to before. -/
theorem typeOf_unnamed {depth : Nat} {form : Expr} {superclass : Option String} {body : Expr}
    (declares : Form.classify form = .ok (.classDecl name superclass body))
    (failed : (typeOf depth form scope).runOn session = some (.error error, reached)) :
    reached.types.names.get? name = session.types.names.get? name := by
  cases depth with
  | zero => cases failed
  | succ depth =>
      rw [typeOf, runOn_checkExpr declares] at failed
      exact (checkClassDecl_unnamed failed :)

/-! ## Functions -/

/-- A `lambda` writes to no scope that is there before it. -/
theorem typeOf_lambda_evolves {depth : Nat} {expression : Expr} {outcome : Except Error TypeId}
    (starts : expression.head? = some "lambda") (wellFormed : session.WellFormed)
    (live : session.scopes.isLive scope = true)
    (run : (typeOf depth expression scope).runOn session = some (outcome, reached)) :
    session.Evolves ∅ reached := by
  cases depth with
  | zero => cases run
  | succ depth =>
      rw [typeOf] at run
      cases classified : Form.classify expression with
      | error error =>
          rw [runOn_checkExpr_of_error classified] at run
          obtain ⟨_, rfl⟩ := Prod.mk.inj (Option.some.inj run)
          exact .refl _ wellFormed
      | ok form =>
          obtain ⟨signature, rfl⟩ := Form.eq_lambda starts classified
          rw [runOn_checkExpr classified] at run
          have visits : session.Evolves ∅ _ :=
            wellFormed.evolves_events (.visited expression :: session.events)
          have sound := checkLambda_sound (typeOf_sound depth) signature expression
            visits.wellFormed (visits.isLive live)
          exact visits.trans (sound.evolves run)

/-- A variable without a declared type is bound to whatever its value is, so only its value
can fail. -/
theorem checkVariable_fails {value expression : Expr}
    (failed : (checkVariable visit ⟨name, none⟩ value scope expression).runOn session =
      some (.error error, reached)) :
    (visit value scope).runOn session = some (.error error, reached) := by
  rw [checkVariable, runOn_bind] at failed
  obtain ⟨⟨outcome, middle⟩, ran, followed⟩ := Option.bind_eq_some_iff.1 failed
  cases outcome with
  | ok actual => cases followed
  | error fault => exact ran.trans followed

theorem typeOf_variable_evolves {depth : Nat} {value : Expr}
    (starts : value.head? = some "lambda") (wellFormed : session.WellFormed)
    (live : session.scopes.isLive scope = true)
    (failed : (typeOf depth (.list [.symbol "var", .symbol name, value]) scope).runOn session =
      some (.error error, reached)) : session.Evolves ∅ reached := by
  cases depth with
  | zero => cases failed
  | succ depth =>
      rw [typeOf, runOn_checkExpr rfl] at failed
      have visits : session.Evolves ∅ _ := wellFormed.evolves_events
        (.visited (.list [.symbol "var", .symbol name, value]) :: session.events)
      exact visits.trans (typeOf_lambda_evolves starts visits.wellFormed (visits.isLive live)
        (checkVariable_fails failed))

/-- A function is announced, if at all, by the binding of its name. -/
theorem announce_writes {signature : Signature} {expression : Expr} {outcome : Except Error Unit}
    (wellFormed : session.WellFormed) (live : session.scopes.isLive scope = true)
    (run : (announce name signature scope expression).runOn session = some (outcome, reached)) :
    reached.scopes.record? scope = session.scopes.record? scope ∨
      outcome = .ok () ∧ ∃ type, reached.scopes.record? scope =
        (session.scopes.define scope name type).record? scope := by
  unfold announce at run
  split at run
  · obtain ⟨_, rfl⟩ := Prod.mk.inj (Option.some.inj run)
    exact .inl rfl
  · rw [runOn_bind] at run
    obtain ⟨⟨signed, middle⟩, ran, followed⟩ := Option.bind_eq_some_iff.1 run
    have signs := (signatureType_sound signature expression wellFormed).evolves ran
    have same := signs.scopes.record? live (Set.notMem_empty _)
    cases signed with
    | error fault =>
        obtain ⟨_, rfl⟩ := Prod.mk.inj (Option.some.inj followed)
        exact .inl same
    | ok type =>
        obtain ⟨ended, rfl⟩ := Prod.mk.inj (Option.some.inj followed)
        refine .inr ⟨ended.symm, type, ?_⟩
        calc (middle.scopes.define scope name type).record? scope
            = (middle.scopes.record? scope).map (·.insert name type) :=
              Scopes.record?_updateRecord _ _ _
          _ = (session.scopes.record? scope).map (·.insert name type) := by rw [same]
          _ = (session.scopes.define scope name type).record? scope :=
              (Scopes.record?_updateRecord _ _ _).symm

theorem checkFunctionDecl_unwritten {depth : Nat} {signature : Signature} {expression : Expr}
    (wellFormed : session.WellFormed) (live : session.scopes.isLive scope = true)
    (failed : (checkFunctionDecl (typeOf depth) name signature scope expression).runOn session =
      some (.error error, reached)) :
    reached.scopes.record? scope = session.scopes.record? scope := by
  rw [checkFunctionDecl, runOn_bind, runOn_get] at failed
  dsimp only [Option.bind_some] at failed
  rw [runOn_bind] at failed
  obtain ⟨⟨outcome, announced⟩, ran, followed⟩ := Option.bind_eq_some_iff.1 failed
  have announces := (announce_sound name signature expression wellFormed).evolves ran
  have writes := announce_writes wellFormed live ran
  cases outcome with
  | error fault =>
      obtain ⟨_, rfl⟩ := Prod.mk.inj (Option.some.inj followed)
      rcases writes with same | ⟨ended, _⟩
      · exact same
      · cases ended
  | ok _ =>
      dsimp only at followed
      rw [runOn_undoing] at followed
      obtain ⟨⟨outcome, ended⟩, checked, same⟩ := Option.map_eq_some_iff.1 followed
      cases outcome with
      | ok value => cases same
      | error fault =>
          obtain ⟨_, rfl⟩ := Prod.mk.inj same
          have evolves := typeOf_variable_evolves rfl announces.wellFormed (announces.isLive live)
            checked
          have kept := evolves.scopes.record? (announces.isLive live) (Set.notMem_empty _)
          apply Scopes.record?_restore
          rcases writes with unbound | ⟨_, type, bound⟩
          · exact .inl (kept.trans unbound)
          · exact .inr ⟨type, kept.trans bound⟩

theorem typeOf_function_unwritten {depth : Nat} {form : Expr} {signature : Signature}
    (declares : Form.classify form = .ok (.functionDecl name signature))
    (wellFormed : session.WellFormed) (live : session.scopes.isLive scope = true)
    (failed : (typeOf depth form scope).runOn session = some (.error error, reached)) :
    reached.scopes.record? scope = session.scopes.record? scope := by
  cases depth with
  | zero => cases failed
  | succ depth =>
      rw [typeOf, runOn_checkExpr declares] at failed
      have visits : session.Evolves ∅ _ :=
        wellFormed.evolves_events (.visited form :: session.events)
      exact (checkFunctionDecl_unwritten visits.wellFormed live failed :)

/-! ## All declarations -/

/-- An expression declares a function or a class, well-formed or not. -/
def IsDeclaration (expression : Expr) : Prop :=
  expression.head? = some "def" ∨ expression.head? = some "class"

/-- **A failed declaration writes to no scope that was there before it.** The whole check may
write to the scope of the declaration only, and that is put back. -/
theorem typeOf_unwritten {depth : Nat} {form : Expr} (declaration : IsDeclaration form)
    (wellFormed : session.WellFormed) (live : session.scopes.isLive scope = true)
    (failed : (typeOf depth form scope).runOn session = some (.error error, reached)) :
    Scopes.Keeps ∅ session.scopes reached.scopes := by
  have evolves := (typeOf_sound depth form wellFormed live).evolves failed
  refine evolves.scopes.unwritten ?_
  cases classified : Form.classify form with
  | error refusal =>
      cases depth with
      | zero => cases failed
      | succ depth =>
          rw [typeOf, runOn_checkExpr_of_error classified] at failed
          obtain ⟨_, rfl⟩ := Prod.mk.inj (Option.some.inj failed)
          rfl
  | ok meaning =>
      rcases declaration with starts | starts
      · obtain ⟨name, signature, rfl⟩ := Form.eq_functionDecl starts classified
        exact typeOf_function_unwritten classified wellFormed live failed
      · obtain ⟨name, superclass, body, rfl⟩ := Form.eq_classDecl starts classified
        exact typeOf_class_unwritten classified wellFormed live failed

end Checker

namespace Session

/-- **A declaration of a function or a class that fails, at whatever point, is undone.** Every
scope that was there before binds exactly what it did. The declared names are the earlier
ones and those whose declarations were completed within the failed one, and the name of a
failed class is not among these. -/
theorem Reachable.failed_declaration_undone {session reached : Session} {scope : ScopeId}
    {form : Expr} {error : Error} (reachable : session.Reachable)
    (live : session.scopes.isLive scope = true) (declaration : Checker.IsDeclaration form)
    (failed : session.typeOf form scope = some (.error error, reached)) :
    (∀ id found, session.scopes.get? id = some found →
      ∃ later, reached.scopes.get? id = some later ∧ later.record = found.record ∧
        later.parent = found.parent) ∧
    (∀ name id, reached.types.names.get? name = some id ↔
      session.types.names.get? name = some id ∨ session.DeclaresWithin form scope name id) ∧
    (∀ name superclass body, Form.classify form = .ok (.classDecl name superclass body) →
      reached.types.names.get? name = session.types.names.get? name) := by
  refine ⟨fun id found there => ?_, names_after_typeOf failed,
    fun name superclass body declares => Checker.typeOf_unnamed declares failed⟩
  have keeps := Checker.typeOf_unwritten declaration reachable.wellFormed live failed
  obtain ⟨later, foundLater, parent, _, record⟩ := keeps.kept there
  exact ⟨later, foundLater, record (Set.notMem_empty _), parent⟩

/-- A class that takes the place of a variable and fails after its body has declared a type. -/
def shadowingClass : Expr :=
  .list [.symbol "class", .symbol "A", .symbol "null", .list [.symbol "begin",
    .list [.symbol "type", .symbol "T", .symbol "number"],
    .list [.symbol "var", .list [.symbol "x", .symbol "T"], .string "s"]]]

/-- The variable is back, the class is gone, and the type is still declared. -/
theorem failed_declaration_undone_shadowing :
    ∃ (session reached : Session) (error : Error),
      session.Reachable ∧ session.scopes.isLive .global = true ∧
      Checker.IsDeclaration shadowingClass ∧
      session.typeOf shadowingClass .global = some (.error error, reached) ∧
      session.scopes.getLocal? .global "A" = some .number ∧
      reached.scopes.getLocal? .global "A" = some .number ∧
      reached.types.names.get? "A" = none ∧
      ∃ id, session.DeclaresWithin shadowingClass .global "T" id := by
  have checked : (((initial true).checkSource "(var A 1)").any fun started =>
      (started.2.typeOf shadowingClass .global).any fun ended =>
        !ended.1.isOk && decide (started.2.scopes.getLocal? .global "A" = some .number ∧
          started.2.types.names.get? "A" = none ∧ started.2.types.names.get? "T" = none ∧
          (ended.2.types.names.get? "T").isSome = true)) = true := by
    decide +kernel
  obtain ⟨⟨_, session⟩, started, checked⟩ := (Option.any_eq_true _ _).1 checked
  obtain ⟨⟨outcome, reached⟩, failed, checked⟩ := (Option.any_eq_true _ _).1 checked
  have reachable := (Reachable.initial true).checkSource _ started
  have live := reachable.wellFormed.isLive_global
  cases outcome with
  | ok type => cases checked
  | error error =>
      obtain ⟨bound, nameless, undeclared, declared⟩ := of_decide_eq_true checked
      obtain ⟨id, declared⟩ := Option.isSome_iff_exists.1 declared
      obtain ⟨records, names, unnamed⟩ :=
        reachable.failed_declaration_undone live (.inr rfl) failed
      obtain ⟨found, there, binds⟩ := Option.bind_eq_some_iff.1 bound
      obtain ⟨later, thereLater, record, _⟩ := records .global found there
      refine ⟨session, reached, error, reachable, live, .inr rfl, failed, bound, ?_, ?_, id, ?_⟩
      · rw [Scopes.getLocal?, thereLater, Option.bind_some, record, binds]
      · exact (unnamed "A" none _ rfl).trans nameless
      · refine ((names "T" id).1 declared).resolve_left fun before => ?_
        rw [undeclared] at before
        cases before

end Session

end TypedLisp
