import TypedLisp.Proofs.Decoding
import TypedLisp.Proofs.FailedClasses

/-!
# The functions that are built in

A session with the functions that are built in binds more names than one without them, and
it has made their function types in advance. A program that is accepted without them is
accepted with them, and its type has the same name, as long as the types and classes that it
declares have plain names.

The session with the functions widens the one without them (`Session.Widens`): its global
scope binds what the other one does and more, and its types are twins of the other ones,
since the function types that it has made are over the primitives. Checking on a session and
on one that widens it goes in lockstep until a name is not found. From there on nothing is
known of the second session, but the first one fails.
-/

set_option autoImplicit false

namespace TypedLisp

/-- The copy of the global scope is the global scope, and it may bind further names. -/
def Scopes.Setting.wider (base : Scopes) : Scopes.Setting := ⟨base, [], True⟩

/-- A name is shown by its copy when it is bound alike or not bound at all. -/
theorem Scopes.Setting.shows_wider {base : Scopes} {name : String} {bound copy : Option TypeId}
    (kept : ∀ type, bound = some type → copy = some type) :
    (wider base).Shows .global name bound copy := by
  cases bound with
  | none => exact .inr ⟨trivial, rfl⟩
  | some type => exact kept type rfl ▸ shows_self rfl .global name _

namespace Session

open Registry (LeavesTexts twins twins_lawful)
open TypeText (isPlainName IsWord)

variable {session wider : Session}

/-! ## Wider sessions -/

/-- The second session has the types of the first and further function types, which are over
types that are found under their names, and its global scope binds what the first one's does
and maybe more. -/
structure Widens (session wider : Session) : Prop where
  types : Registry.Grows session.types wider.types
  names : ∀ name, wider.types.names.get? name = session.types.names.get? name
  plain : wider.types.Plain
  current : ∀ {id : TypeId} {signature : FunctionType},
    wider.types.get? id = some (.function signature) →
      ∀ part ∈ signature.result :: signature.parameters, wider.types.IsCurrent part
  bound : ∀ name type, session.scopes.getLocal? .global name = some type →
    wider.scopes.getLocal? .global name = some type

/-- The global scope of a wider session is a copy that may bind further names. -/
theorem Widens.scopes_mirror (widens : session.Widens wider) (flat : session.Flat)
    (flatWider : wider.Flat) :
    Scopes.Mirrors (.wider wider.scopes) (fun id => id) (fun id => id) session.scopes
      wider.scopes := by
  have wellFormed := flat.settled.wellFormed.scopes
  have wellFormedWider := flatWider.settled.wellFormed.scopes
  refine .of_same_handles rfl wellFormed wellFormedWider (fun {id scope} found => ?_)
    (fun {id} live => .inl ?_) rfl
  · obtain rfl := flat.only (Scopes.isLive_of_get? found)
    obtain ⟨_, again, orphan, pinned⟩ := wellFormed.global
    obtain rfl := Option.some.inj (found.symm.trans again)
    obtain ⟨copy, there, orphanCopy, pinnedCopy⟩ := wellFormedWider.global
    refine ⟨copy, there, orphanCopy.trans orphan.symm, pinnedCopy.trans pinned.symm, fun name => ?_⟩
    refine Scopes.Setting.shows_wider fun type listed => ?_
    have bound := widens.bound name type
    simp only [Scopes.getLocal?, found, there, Option.bind_some] at bound
    exact bound listed
  · obtain rfl := flatWider.only live
    exact wellFormed.isLive_global

/-- A session and a wider one. -/
def Widens.world (widens : session.Widens wider) (flat : session.Flat) (flatWider : wider.Flat) :
    Mirrored (twins (LeavesTexts session.types wider.types) session.types)
      (.wider wider.scopes) where
  left := session
  right := wider
  onTypes id := id
  onScopes id := id
  mirrors := by
    have wellFormed := flat.settled.wellFormed
    refine ⟨wellFormed, ?_, widens.scopes_mirror flat flatWider, ?_, ?_, ?_, ?_⟩
    · exact widens.types.twins wellFormed.types flatWider.settled.wellFormed.types widens.names
        (fun _ => widens.plain) fun _ _ found => widens.current found
    · rw [flat.settled.idle, flatWider.settled.idle, List.map_nil]
    · simp [flat.settled.idle]
    · intro id template found
      cases flat.captureless found
    · intro id declared found
      cases flat.captureless found

/-- **What is accepted on a session is accepted on a wider one**, with a type of the same
name. -/
theorem Widens.typeOfProgram (widens : session.Widens wider) (flat : session.Flat)
    (flatWider : wider.Flat) {program : Expr} {type : TypeId} {reached : Session}
    (plain : ∀ name, program.Declares name → isPlainName name.toList = true)
    (accepted : session.typeOfProgram program = some (.ok type, reached)) :
    ∃ other later, wider.typeOfProgram program = some (.ok other, later) ∧
      later.types.name other = reached.types.name type := by
  have lawful := twins_lawful (LeavesTexts session.types wider.types) session.types
  obtain ⟨later, answer, otherAnswer, _, answers, run, otherRun⟩ :=
    (widens.world flat flatWider).typeOfProgram lawful rfl (fun _ => ⟨type, reached, accepted⟩)
      fun name declares _ => plain name declares
  obtain ⟨rfl, rfl⟩ := Prod.mk.inj (Option.some.inj (run.symm.trans accepted))
  cases answers with
  | @ok _ other types =>
      exact ⟨other, _, otherRun, ((mirroring_lawful lawful _).name types).symm⟩

/-! ## New sessions -/

theorem widens_initial : (initial false).Widens (initial true) where
  types := (blank_evolves_initial true).types
  names _ := rfl
  plain := by decide
  current {id signature} found := by
    have parts : ∀ type ∈ (initial true).types.types.toList, ∀ part ∈ type.references,
        (initial true).types.known? ((initial true).types.name part) = some part := by
      decide +kernel
    exact parts _ (Array.mem_toList_iff.2 (Array.mem_of_getElem? found))
  bound name type listed := by
    -- Without the functions, nothing but the version is bound.
    change ((NameTable.empty.insert "VERSION" TypeId.string).get? name) = some type at listed
    rw [NameTable.get?_insert, NameTable.get?_empty] at listed
    split at listed
    · rename_i same
      obtain rfl := Option.some.inj listed
      subst same
      decide
    · cases listed

/-- **Adding the functions that are built in is conservative.** A program whose types and
classes are named by words, and which is accepted without these functions, is accepted with
them, and its type has the same name. -/
theorem builtins_conservative {program : Expr} {type : TypeId} {reached : Session}
    (words : ∀ name, program.Declares name → IsWord name)
    (accepted : (initial false).typeOfProgram program = some (.ok type, reached)) :
    ∃ other later, (initial true).typeOfProgram program = some (.ok other, later) ∧
      later.types.name other = reached.types.name type :=
  widens_initial.typeOfProgram (flat_initial false) (flat_initial true)
    (fun name declares => (words name declares).isPlainName) accepted

/-- A program that declares a type `Id` and a function `sum` over it, which a generic function
calls, and that ends with a function of a number. -/
def shadowing : Expr :=
  .list [.symbol "begin",
    .list [.symbol "type", .symbol "Id", .symbol "number"],
    .list [.symbol "def", .symbol "sum", .list [.list [.symbol "x", .symbol "Id"]],
      .symbol "->", .symbol "Id", .symbol "x"],
    .list [.symbol "def", .symbol "twice", .symbol "<K>", .list [.list [.symbol "y", .symbol "K"]],
      .symbol "->", .symbol "K", .list [.symbol "sum", .list [.symbol "sum", .symbol "y"]]],
    .list [.symbol "lambda", .list [.list [.symbol "x", .symbol "number"]], .symbol "->",
      .symbol "number", .list [.symbol "twice", .symbol "<number>", .symbol "x"]]]

/-- The program takes the name of a function that is built in, and its type is one that the
functions that are built in have made in advance. -/
theorem builtins_conservative_shadowing :
    ∃ type reached, (∀ name, shadowing.Declares name → IsWord name) ∧
      (initial false).typeOfProgram shadowing = some (.ok type, reached) ∧
      reached.types.name type = "Fn<number<number>>" ∧
      ∃ other later, (initial true).typeOfProgram shadowing = some (.ok other, later) ∧
        later.types.name other = "Fn<number<number>>" := by
  have words : ∀ name, shadowing.Declares name → IsWord name := by
    have names : shadowing.declaredNames = ["Id"] := by decide
    intro name declares
    have among := declares.mem_declaredNames
    rw [names] at among
    obtain rfl := List.mem_singleton.1 among
    exact ⟨by decide, by decide, by simp [TypeText.isWordChar]⟩
  have checked : (((initial false).typeOfProgram shadowing).any fun ended =>
      decide (ended.1.toOption.map ended.2.types.name = some "Fn<number<number>>")) = true := by
    decide +kernel
  obtain ⟨⟨outcome, reached⟩, run, checked⟩ := (Option.any_eq_true _ _).1 checked
  cases outcome with
  | error error => cases checked
  | ok type =>
      have named : reached.types.name type = "Fn<number<number>>" :=
        Option.some.inj (of_decide_eq_true checked)
      obtain ⟨other, later, otherRun, same⟩ := builtins_conservative words run
      exact ⟨type, reached, words, run, named, other, later, otherRun, same.trans named⟩

end Session

end TypedLisp
