import TypedLisp.Proofs.Listing
import TypedLisp.Proofs.TypeNames

/-!
# Interning of function types

Function types are made once for each canonical name, and canonical names are put
together from declared names. When all declared names are plain and no class was abandoned,
the function type over some types has just these types as its parameters and its
result (`Session.Unabandoned.function_signature`), because every declared type is then found
under its name (`Session.Unabandoned.listed`).

A declared name with a comma reads like two names in the place of parameters, so the
function types over one type of that name and over two types share a canonical name
(`Session.function_conflates_comma`).
-/

set_option autoImplicit false

namespace TypedLisp.Session

/-- **A function type has the parameters and the result that it is made with**, in every
session that is reached without abandoning a class and where the declared names are plain. -/
theorem Unabandoned.function_signature {session : Session} (unabandoned : session.Unabandoned)
    (plain : session.types.Plain) {parameters : List TypeId} {result : TypeId}
    (inside : ∀ part ∈ result :: parameters, session.types.IsPlain part) :
    (session.types.function parameters result).2.get?
      (session.types.function parameters result).1 =
        some (.function ⟨session.types.functionName parameters result, parameters, result⟩) :=
  unabandoned.listed.get?_function plain unabandoned.reachable.wellFormed.types inside

/-- A class whose constructor takes a function over the class. -/
theorem function_signature_constructor :
    ∃ type reached, (initial true).checkSource
        "(class A null (def constructor ((self A) (f Fn<A<number,A>>)) -> A self))" =
          some (.ok type, reached) ∧
      reached.Unabandoned ∧ reached.types.Plain ∧
      (reached.types.function [type, .number] type).2.get?
        (reached.types.function [type, .number] type).1 =
          some (.function ⟨"Fn<A<A,number>>", [type, .number], type⟩) := by
  have checked : (((initial true).checkSource
      "(class A null (def constructor ((self A) (f Fn<A<number,A>>)) -> A self))").any
        fun ended => decide (ended.2.types.Plain ∧ ended.2.types.Listed ∧
          ended.2.types.known? "number" = some .number ∧
          ∃ type ∈ ended.2.types.known? "A", ended.1 = .ok type ∧
            ended.2.types.functionName [type, .number] type = "Fn<A<A,number>>")) = true := by
    decide +kernel
  obtain ⟨⟨outcome, reached⟩, run, checked⟩ := (Option.any_eq_true _ _).1 checked
  obtain ⟨plain, listed, number, type, found, rfl, named⟩ := of_decide_eq_true checked
  have reachable : reached.Reachable := .checkSource _ (.initial true) run
  have unabandoned : reached.Unabandoned := unabandoned_iff.2 ⟨reachable, listed⟩
  have isPlain : ∀ {text : String} {id : TypeId}, reached.types.known? text = some id →
      reached.types.IsPlain id := by
    intro text id known
    obtain ⟨content, there, _, nongeneric⟩ := reachable.wellFormed.types.of_known? known
    exact ⟨content, there, nongeneric⟩
  refine ⟨type, reached, run, unabandoned, plain, named ▸
    unabandoned.function_signature plain fun part among => ?_⟩
  rcases List.mem_cons.1 among with rfl | among
  · exact isPlain found
  rcases List.mem_cons.1 among with rfl | among
  · exact isPlain found
  · exact List.mem_singleton.1 among ▸ isPlain number

/-- The function type over a type of the name `a,b` is the one over the types `a` and
`b`, which was made before. -/
theorem function_conflates_comma :
    ∃ type reached, (initial false).checkSource
        "(type a number) (type b number) (type a,b string) (def f ((x a) (y b)) -> number 1)" =
          some (.ok type, reached) ∧
      reached.Reachable ∧
      ["a", "b", "a,b"].map reached.types.lookup? = [some ⟨4⟩, some ⟨5⟩, some ⟨6⟩] ∧
      (reached.types.function [⟨6⟩] .number).2.get? (reached.types.function [⟨6⟩] .number).1 =
        some (.function ⟨"Fn<number<a,b>>", [⟨4⟩, ⟨5⟩], .number⟩) := by
  have conflates : (((initial false).checkSource
      "(type a number) (type b number) (type a,b string) (def f ((x a) (y b)) -> number 1)").any
        fun ended => ended.1.isOk && decide
          (["a", "b", "a,b"].map ended.2.types.lookup? = [some ⟨4⟩, some ⟨5⟩, some ⟨6⟩] ∧
            (ended.2.types.function [⟨6⟩] .number).2.get?
              (ended.2.types.function [⟨6⟩] .number).1 =
                some (.function ⟨"Fn<number<a,b>>", [⟨4⟩, ⟨5⟩], .number⟩))) = true := by
    decide +kernel
  obtain ⟨⟨outcome, reached⟩, run, conflates⟩ := (Option.any_eq_true _ _).1 conflates
  cases outcome with
  | error error => cases conflates
  | ok type =>
      exact ⟨type, reached, run, .checkSource _ (.initial false) run, of_decide_eq_true conflates⟩

end TypedLisp.Session
