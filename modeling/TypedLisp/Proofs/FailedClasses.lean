import TypedLisp.Proofs.Rollback
import TypedLisp.Proofs.Traces
import TypedLisp.Proofs.TwinResolution

/-!
# Failed classes

The declaration of a class that fails is undone: its name is bound in the scope around it to
what it was bound to before, and it is no declared name any more (`Checker.Restored`). But the
types that its body has made stay, and so do the texts of function types and the scopes.

What stays cannot be told apart from what later checks make themselves, if the function types
are over types that are found under their names. The session after the failure is then a twin
of the one before it (`Registry.Grows.twins`), and all calls answer as if the class had never
been tried (`Session.Reachable.failed_class_unnoticed`). A method of the failed class over the
class itself is another matter: its function type goes on to stand for the name that a new
class of the same name should have (`Session.failed_class_noticed`).
-/

set_option autoImplicit false

namespace TypedLisp

/-! ## The scope of a failed class -/

namespace Checker

variable {session reached : Session} {scope : ScopeId} {name : String} {error : Error}

/-- A failed class leaves its name as it was: in the scope around it and among the declared
names. -/
structure Restored (name : String) (scope : ScopeId) (before after : Session) : Prop where
  bound : ∀ other, after.scopes.getLocal? scope other = before.scopes.getLocal? scope other
  named : before.types.names.get? name = none → after.types.names.get? name = none

/-- A failed class leaves its name as it was, to whatever depth it is checked. -/
theorem typeOf_restored {depth : Nat} {form : Expr} {superclass : Option String} {body : Expr}
    (declares : Form.classify form = .ok (.classDecl name superclass body))
    (wellFormed : session.WellFormed) (live : session.scopes.isLive scope = true)
    (failed : (typeOf depth form scope).runOn session = some (.error error, reached)) :
    Restored name scope session reached where
  bound other := by
    rw [Scopes.getLocal?_eq_record?, Scopes.getLocal?_eq_record?,
      typeOf_class_unwritten declares wellFormed live failed]
  named unclaimed := (typeOf_unnamed declares failed).trans unclaimed

end Checker

/-! ## Texts that a failed check leaves behind -/

namespace Registry

open TypeText (isPlainName)

variable {before after registry : Registry} {id : TypeId}

/-- The second registry has texts of function types that the first one does not have. -/
def LeavesTexts (before after : Registry) : Prop :=
  ∃ text id, before.functions.get? text = none ∧ after.functions.get? text = some id

/-- A text that spells a type with the name of one that is found under its name leads to
that one for good. -/
theorem Spells.lasting {base : Registry} {text : List Char} {part : TypeId}
    (spells : registry.Spells text id) (plain : registry.PlainNames)
    (wellFormed : registry.WellFormed)
    (kept : ∀ {name : String} {id : TypeId}, registry.names.get? name = some id →
      base.names.contains name = true)
    (current : registry.IsCurrent part) (same : registry.name id = registry.name part) :
    Lasting base registry text part := by
  rw [IsCurrent, ← same] at current
  rcases spells with listed | ⟨type, found, declared⟩
  · obtain ⟨signature, found, _⟩ := wellFormed.interned listed
    have named : registry.name id = signature.name := by simp [Registry.name, found, Ty.name]
    rw [named, plain.known?_of_functions wellFormed (wellFormed.canonical found).1] at current
    exact .inl (Option.some.inj current ▸ listed)
  · have named : registry.name id = String.ofList (Text.trim text) := by
      simp [Registry.name, found, Ty.name_of_declaredName? declared]
    rw [named] at current
    rcases names_or_functions_of_known? current with listed | listed
    · exact .inr ⟨kept listed, listed⟩
    · exact .inl listed

theorem Spells.isPlain {text : List Char} (spells : registry.Spells text id)
    (wellFormed : registry.WellFormed) : registry.IsPlain id := by
  rcases spells with listed | ⟨type, found, declared⟩
  · obtain ⟨signature, found, _⟩ := wellFormed.interned listed
    exact ⟨_, found, by simp [Ty.IsNongeneric]⟩
  · exact ⟨type, found, Ty.isNongeneric_of_declaredName? declared⟩

/-- The name of a type spells it. -/
theorem Plain.spells_name (plain : registry.Plain) (wellFormed : registry.WellFormed)
    (nongeneric : registry.IsPlain id) : registry.Spells (registry.name id).toList id := by
  have spelled := plain.spelled wellFormed namesParts nongeneric
  obtain ⟨type, found, notGeneric⟩ := nongeneric
  have named : registry.name id = type.name := by simp [Registry.name, found]
  unfold Spells
  rw [spelled.trim_eq, String.ofList_toList, named]
  cases declared : type.declaredName? with
  | some name => exact .inr ⟨type, found, declared.trans (congrArg some
      (Ty.name_of_declaredName? declared).symm)⟩
  | none =>
      cases type with
      | function signature => exact .inl (wellFormed.canonical found).1
      | generic template => exact absurd rfl (notGeneric template)
      | _ => cases declared

/-- With plain names, every text of a function type comes apart into texts that spell types
with the names of its parameters and of its result. -/
theorem Plain.comesApart (plain : registry.Plain) (wellFormed : registry.WellFormed)
    {text : String} {signature : FunctionType}
    (listed : registry.functions.get? text = some id)
    (found : registry.get? id = some (.function signature)) :
    ∃ (parameterTexts : List (List Char)) (resultText : List Char) (parameters : List TypeId)
      (result : TypeId), TypeText.functionParts? text.toList = some (parameterTexts, resultText) ∧
        List.Forall₂ registry.Spells parameterTexts parameters ∧
        registry.Spells resultText result ∧
        (parameters.map fun part => (registry.name part).toList) =
          signature.parameters.map (fun part => (registry.name part).toList) ∧
        (registry.name result).toList = (registry.name signature.result).toList := by
  have inside : ∀ part ∈ signature.result :: signature.parameters, registry.IsPlain part :=
    fun part among => (wellFormed.references found part among).2
  have canonical := (wellFormed.canonical found).2
  have parts := plain.functionParts?_functionName wellFormed namesParts inside
  rcases wellFormed.decoded listed with ⟨type, there, named⟩ |
    ⟨parameterTexts, resultText, parameters, result, apart, each, last, made⟩
  · obtain rfl := Option.some.inj (found.symm.trans there)
    have same : text = registry.functionName signature.parameters signature.result :=
      named.symm.trans canonical
    refine ⟨_, _, signature.parameters, signature.result, same ▸ parts, ?_,
      plain.spells_name wellFormed (inside _ List.mem_cons_self), rfl, rfl⟩
    rw [List.forall₂_map_left_iff, List.forall₂_same]
    intro part among
    exact plain.spells_name wellFormed (inside part (List.mem_cons_of_mem _ among))
  · have insideApart : ∀ part ∈ result :: parameters, registry.IsPlain part := by
      intro part among
      rcases List.mem_cons.1 among with rfl | among
      · exact last.isPlain wellFormed
      · exact (each.imp fun _ _ spells => spells.isPlain wellFormed).forall_right part among
    obtain ⟨_, there, spelled⟩ := wellFormed.interned made
    obtain rfl := Ty.function.inj (Option.some.inj (found.symm.trans there))
    have named := spelled.name_eq (plain.blankFree_functionName wellFormed namesParts insideApart)
    rw [← canonical, named, plain.functionParts?_functionName wellFormed namesParts insideApart]
      at parts
    obtain ⟨sameParameters, sameResult⟩ := Prod.mk.inj (Option.some.inj parts)
    exact ⟨parameterTexts, resultText, parameters, result, apart, each, last, sameParameters,
      sameResult⟩

/-- **What grows without declaring names is a twin**, if the texts that are left behind are
of function types over types that are found under their names. -/
theorem Grows.twins (grows : Grows before after) (wellFormed : before.WellFormed)
    (wellFormedAfter : after.WellFormed)
    (names : ∀ name, after.names.get? name = before.names.get? name)
    (plain : LeavesTexts before after → after.Plain)
    (current : ∀ {text : String} {id : TypeId} {signature : FunctionType},
      before.functions.get? text = none → after.functions.get? text = some id →
        after.get? id = some (.function signature) →
          ∀ part ∈ signature.result :: signature.parameters, after.IsCurrent part) :
    Twins (LeavesTexts before after) before (fun id => id) (fun id => id) before after where
  toEmbeds := grows.embeds wellFormed wellFormedAfter
  plain leaves id type name found declared := plain leaves id type name (grows.types found) declared
  primitives _ := rfl
  names name := by rw [names, Option.map_id']
  kept inBase := inBase
  functions listed := grows.functions listed
  coherent {text id} missing listed := by
    have leaves : LeavesTexts before after := ⟨text, id, missing, listed⟩
    have plain := plain leaves
    obtain ⟨signature, found, _⟩ := wellFormedAfter.interned listed
    obtain ⟨parameterTexts, resultText, parameters, result, apart, each, last, sameParameters,
      sameResult⟩ := plain.comesApart wellFormedAfter listed found
    have current := current missing listed found
    have kept : ∀ {name : String} {id : TypeId}, after.names.get? name = some id →
        before.names.contains name = true := by
      intro name id there
      simp [NameTable.contains, ← names, there]
    have lasting : ∀ {piece : List Char} {id part : TypeId}, after.Spells piece id →
        after.IsCurrent part → (after.name id).toList = (after.name part).toList →
          Lasting before after piece part := fun spells isCurrent same =>
      spells.lasting (plain.plainNames wellFormedAfter) wellFormedAfter kept isCurrent
        (String.toList_inj.1 same)
    obtain ⟨underName, canonical⟩ := wellFormedAfter.canonical found
    rw [canonical] at underName
    refine ⟨leaves, parameterTexts, resultText, signature.parameters, signature.result, apart, ?_,
      lasting last (current _ List.mem_cons_self) sameResult, underName, fun _ => ?_⟩
    · exact each.of_map_eq sameParameters fun part among spells same =>
        lasting spells (current part (List.mem_cons_of_mem _ among)) same
    · rw [found, ← canonical]

end Registry

/-! ## Failed classes -/

namespace Session

open Registry (LeavesTexts twins twins_lawful)
open TypeText (isPlainName)

variable {session reached : Session} {writable : Set ScopeId}

/-- What calls answer one after the other: the name of a type, or an error. -/
def answers (calls : List Call) (session : Session) : Option (List (Except Error String)) :=
  (trace calls session).map fun steps => steps.map fun step => step.1.map step.2.types.name

/-- The scopes of a settled session are all pinned, so those that a check has left behind
are out of the way of what is opened later. -/
theorem Settled.scopes_mirror (settled : session.Settled)
    (evolves : session.Evolves writable reached)
    (bound : ∀ {id : ScopeId}, session.scopes.isLive id = true → ∀ name,
      reached.scopes.getLocal? id name = session.scopes.getLocal? id name) :
    Scopes.Mirrors (.plain reached.scopes) (fun id => id) (fun id => id) session.scopes
      reached.scopes := by
  refine .of_same_handles rfl settled.wellFormed.scopes evolves.wellFormed.scopes
    (fun {id scope} found => ?_) (fun live => ?_) rfl
  · have live := Scopes.isLive_of_get? found
    obtain ⟨later, there, parent, _⟩ := evolves.scopes.kept found
    obtain ⟨_, again, pinned⟩ := settled.pinned live
    obtain rfl := Option.some.inj (found.symm.trans again)
    obtain ⟨_, thereAgain, pinnedLater⟩ := evolves.scopes.isPinned ⟨scope, found, pinned⟩
    obtain rfl := Option.some.inj (there.symm.trans thereAgain)
    refine ⟨later, there, parent, pinnedLater.trans pinned.symm, fun name => ?_⟩
    have same := bound live name
    simp only [Scopes.getLocal?, found, there, Option.bind_some] at same
    rw [same]
    exact Scopes.Setting.shows_self rfl id name _
  · exact .inr ⟨(settled.of_evolves evolves).pinned live, (settled.of_evolves evolves).pinned live⟩

/-- A check that leaves the bindings and the declared names as they were leads to a session
that mirrors the one before it. -/
theorem Settled.mirrors (settled : session.Settled) (evolves : session.Evolves writable reached)
    (bound : ∀ {id : ScopeId}, session.scopes.isLive id = true → ∀ name,
      reached.scopes.getLocal? id name = session.scopes.getLocal? id name)
    (related : Registry.Twins (LeavesTexts session.types reached.types) session.types
      (fun id => id) (fun id => id) session.types reached.types)
    (bodies : LeavesTexts session.types reached.types → ∀ name ∈ session.types.declaredNames,
      isPlainName name.toList = true) :
    Mirrors (twins (LeavesTexts session.types reached.types) session.types)
      (.plain reached.scopes) (fun id => id) (fun id => id) session reached where
  wellFormed := settled.wellFormed
  types := related
  scopes := settled.scopes_mirror evolves bound
  active := by rw [List.map_id', evolves.active]
  present := by simp [settled.idle]
  bodies {id template} found name declares leaves := by
    have there := Array.mem_toList_iff.2 (Array.mem_of_getElem? found)
    exact bodies leaves name
      (List.mem_flatMap.2 ⟨.generic template, there, declares.mem_declaredNames⟩)
  classes _ _ := Scopes.Setting.isPlain_plain _

/-- Outcomes that correspond have the same name. -/
theorem Mirrored.Paired.names_eq {like : Registry.Likeness} {setting : Scopes.Setting}
    {world : Mirrored like setting} {steps others : List (Except Error TypeId × Session)}
    (paired : world.Paired steps others) (lawful : like.Lawful) :
    (steps.map fun step => step.1.map step.2.types.name) =
      others.map fun step => step.1.map step.2.types.name := by
  induction paired with
  | nil => rfl
  | cons _ answers _ ih =>
      rw [List.map_cons, List.map_cons, ih]
      congr 1
      cases answers with
      | ok types => exact congrArg Except.ok ((mirroring_lawful lawful setting).name types)
      | error fault => rfl

/-- **A failed class goes unnoticed** when it declares no other names and the function types
that it leaves behind are over types that are found under their names, so not over the class
itself. Any calls then answer as if the class had never been tried. Where texts of function
types are left behind at all, declared names have to be plain: a name like `a,b` could be
read as the parameters of a function type that is there. -/
theorem Reachable.failed_class_unnoticed {scope : ScopeId} {form : Expr} {name : String}
    {superclass : Option String} {body : Expr} {error : Error} (reachable : session.Reachable)
    (live : session.scopes.isLive scope = true)
    (declares : Form.classify form = .ok (.classDecl name superclass body))
    (failed : session.typeOf form scope = some (.error error, reached))
    (names : ∀ other, other ≠ name →
      reached.types.names.get? other = session.types.names.get? other)
    (current : ∀ {text : String} {id : TypeId} {signature : FunctionType},
      session.types.functions.get? text = none → reached.types.functions.get? text = some id →
        reached.types.get? id = some (.function signature) →
          ∀ part ∈ signature.result :: signature.parameters, reached.types.IsCurrent part)
    (calls : List Call)
    (plain : LeavesTexts session.types reached.types → reached.types.Plain ∧
      ∀ other ∈ session.types.declaredNames ++ calls.flatMap Call.declaredNames,
        isPlainName other.toList = true) :
    ∃ given, answers calls session = some given ∧ answers calls reached = some given := by
  have settled := reachable.settled
  have evolves := settled.wellFormed.typeOf_evolves live failed
  have restored := Checker.typeOf_restored declares settled.wellFormed live failed
  have bound : ∀ {id : ScopeId}, session.scopes.isLive id = true → ∀ other,
      reached.scopes.getLocal? id other = session.scopes.getLocal? id other := by
    intro id there other
    by_cases same : id = scope
    · exact same ▸ restored.bound other
    · exact evolves.scopes.getLocal? there same other
  have sameNames : ∀ other, reached.types.names.get? other = session.types.names.get? other := by
    intro other
    by_cases same : other = name
    · subst same
      cases listed : session.types.names.get? other with
      | none => exact restored.named listed
      | some id => exact evolves.types.names listed
    · exact names other same
  have related := evolves.types.twins settled.wellFormed.types evolves.wellFormed.types sameNames
    (fun leaves => (plain leaves).1) current
  have mirrors := settled.mirrors evolves bound related fun leaves other among =>
    (plain leaves).2 other (List.mem_append_left _ among)
  have lawful := twins_lawful (LeavesTexts session.types reached.types) session.types
  obtain ⟨steps, others, run, otherRun, paired⟩ :=
    (Mirrored.mk session reached _ _ mirrors).trace lawful calls
      fun call listed other among leaves => (plain leaves).2 other
        (List.mem_append_right _ (List.mem_flatMap.2 ⟨call, listed, among⟩))
  have sameAnswers := paired.names_eq lawful
  exact ⟨_, congrArg _ run, (congrArg _ otherRun).trans (congrArg some sameAnswers.symm)⟩

/-- A class that fails after its method has been checked. -/
def attempt (parameter : String) : String :=
  "(class A null (begin (def m ((self " ++ parameter ++ ")) -> number 1) (var (x number) \"s\")))"

/-- The form that is read from such a text. -/
def attemptForm (parameter : String) : Expr :=
  .list [.symbol "class", .symbol "A", .symbol "null", .list [.symbol "begin",
    .list [.symbol "def", .symbol "m", .list [.list [.symbol "self", .symbol parameter]],
      .symbol "->", .symbol "number", .number (.finite false 4503599627370496 (-52))],
    .list [.symbol "var", .list [.symbol "x", .symbol "number"], .string "s"]]]

/-- A class with the same method is declared, and the method is called. -/
def retry (parameter argument : String) : List Call :=
  [.checkSource ("(class A null (begin (def constructor ((self A)) -> A self) (def m ((self " ++
      parameter ++ ")) -> number 1)))"),
    .checkSource ("((prop (new A) m) " ++ argument ++ ")")]

/-- The method of the failed class takes a string. -/
theorem failed_class_unnoticed_string :
    ∃ form body error reached,
      Expr.readProgram (attempt "string") none = .ok (.list [.symbol "begin", form]) ∧
      Form.classify form = .ok (.classDecl "A" none body) ∧
      (initial true).typeOf form .global = some (.error error, reached) ∧
      LeavesTexts (initial true).types reached.types ∧
      ∃ given, answers (retry "string" "\"s\"") (initial true) = some given ∧
        answers (retry "string" "\"s\"") reached = some given := by
  have checked : ∃ form body,
      Expr.readProgram (attempt "string") none = .ok (.list [.symbol "begin", form]) ∧
      Form.classify form = .ok (.classDecl "A" none body) ∧
      (((initial true).typeOf form .global).any fun ended =>
        !ended.1.isOk && decide (ended.2.types.names = (initial true).types.names ∧
          ended.2.types.functions =
            (initial true).types.functions.insert "Fn<number<string>>" ⟨9⟩ ∧
          ended.2.types.get? ⟨9⟩ = some (.function ⟨"Fn<number<string>>", [.string], .number⟩) ∧
          ended.2.types.known? (ended.2.types.name .number) = some .number ∧
          ended.2.types.known? (ended.2.types.name .string) = some .string ∧
          ended.2.types.Plain)) = true :=
    ⟨attemptForm "string", _, by decide +kernel, rfl, by decide +kernel⟩
  obtain ⟨form, body, read, declares, checked⟩ := checked
  obtain ⟨⟨outcome, reached⟩, run, checked⟩ := (Option.any_eq_true _ _).1 checked
  cases outcome with
  | ok type => cases checked
  | error error =>
      obtain ⟨names, functions, made, number, string, plain⟩ := of_decide_eq_true checked
      have listed := fun text =>
        (initial true).types.functions.get?_insert "Fn<number<string>>" text (⟨9⟩ : TypeId)
      rw [← functions] at listed
      have reachable := Reachable.initial true
      refine ⟨form, body, error, reached, read, declares, run,
        ⟨"Fn<number<string>>", ⟨9⟩, by decide +kernel, (listed _).trans (if_pos rfl)⟩,
        reachable.failed_class_unnoticed reachable.wellFormed.isLive_global declares run
          (fun other _ => by rw [names]) (fun {text id signature} missing there found => ?_) _
          fun _ => ⟨plain, by decide +kernel⟩⟩
      rw [listed] at there
      split at there
      · obtain rfl := Option.some.inj there
        obtain rfl := Ty.function.inj (Option.some.inj (made.symm.trans found))
        intro part among
        rcases List.mem_cons.1 among with rfl | among
        · exact number
        · exact List.mem_singleton.1 among ▸ string
      · cases missing.symm.trans there

/-- The method of the failed class takes an object of the class. When the class is declared
again, its method has the function type that was made first, and does not accept an object of
the new class. -/
theorem failed_class_noticed :
    ∃ form body error reached,
      Expr.readProgram (attempt "A") none = .ok (.list [.symbol "begin", form]) ∧
      Form.classify form = .ok (.classDecl "A" none body) ∧
      (initial true).typeOf form .global = some (.error error, reached) ∧
      reached.types.names = (initial true).types.names ∧
      answers (retry "A" "(new A)") (initial true) = some [.ok "A", .ok "number"] ∧
      answers (retry "A" "(new A)") reached =
        some [.ok "A", .error ((Fault.typeMismatch "A" "A").inExpr
          (.list [.list [.symbol "prop", .list [.symbol "new", .symbol "A"], .symbol "m"],
            .list [.symbol "new", .symbol "A"]]))] := by
  have checked : ∃ form body,
      Expr.readProgram (attempt "A") none = .ok (.list [.symbol "begin", form]) ∧
      Form.classify form = .ok (.classDecl "A" none body) ∧
      (((initial true).typeOf form .global).any fun ended =>
        !ended.1.isOk && decide (ended.2.types.names = (initial true).types.names ∧
          answers (retry "A" "(new A)") ended.2 =
            some [.ok "A", .error ((Fault.typeMismatch "A" "A").inExpr
              (.list [.list [.symbol "prop", .list [.symbol "new", .symbol "A"], .symbol "m"],
                .list [.symbol "new", .symbol "A"]]))])) = true :=
    ⟨attemptForm "A", _, by decide +kernel, rfl, by decide +kernel⟩
  obtain ⟨form, body, read, declares, checked⟩ := checked
  obtain ⟨⟨outcome, reached⟩, run, checked⟩ := (Option.any_eq_true _ _).1 checked
  cases outcome with
  | ok type => cases checked
  | error error =>
      obtain ⟨names, observed⟩ := of_decide_eq_true checked
      exact ⟨form, body, error, reached, read, declares, run, names, by decide +kernel, observed⟩

/-- A failed class with a method over two types `a` and `b` is noticed by a type of the name
`a,b`. -/
example :
    (((initial false).checkSource "(type a number) (type b number)").bind fun declared =>
      (declared.2.checkSource
        "(class A null (begin (def m ((x a) (y b)) -> number 1) (var (x number) \"s\")))").bind
          fun failed => (failed.2.checkSource
            "(type a,b string) (def g ((x a,b)) -> number 1) (g \"s\")").map (·.1.isOk)) =
      some false ∧
    (((initial false).checkSource "(type a number) (type b number)").bind fun declared =>
      (declared.2.checkSource
        "(type a,b string) (def g ((x a,b)) -> number 1) (g \"s\")").map (·.1.isOk)) =
      some true := by
  decide +kernel

end Session

end TypedLisp
