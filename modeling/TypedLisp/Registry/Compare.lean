import TypedLisp.Registry.Basic

/-!
# Comparison of types

`fits` says whether a value of one type may stand where another is expected:
the types are the same, or they are so after following aliases, function types
fit in every parameter and in the result, a choice of types fits by its members,
and a class fits where its superclass does.

Types only refer to types that were made before them. The walks below follow a
reference only when it does, so each of them ends.
-/

set_option autoImplicit false

namespace TypedLisp.Registry

/-- The type at the end of a chain of aliases. -/
def unalias (registry : Registry) (id : TypeId) : TypeId :=
  match registry.get? id with
  | some (.alias _ parent) =>
      if parent.index < id.index then unalias registry parent else id
  | _ => id
termination_by id.index

theorem index_unalias_le (registry : Registry) (id : TypeId) :
    (registry.unalias id).index ≤ id.index := by
  fun_induction unalias registry id with
  | case1 id _ parent _ smaller ih => omega
  | case2 => exact Nat.le_refl _
  | case3 => exact Nat.le_refl _

/-- The function type behind any aliases. -/
def function? (registry : Registry) (id : TypeId) : Option FunctionType :=
  match registry.get? (registry.unalias id) with
  | some (.function signature) => some signature
  | _ => none

/-- The class behind any aliases. -/
def class? (registry : Registry) (id : TypeId) : Option ClassType :=
  match registry.get? (registry.unalias id) with
  | some (.nominal declared) => some declared
  | _ => none

/-- The generic function of a handle itself. -/
def template? (registry : Registry) (id : TypeId) : Option Template :=
  match registry.get? id with
  | some (.generic template) => some template
  | _ => none

/-- The members of the choice of types behind any aliases. -/
def members? (registry : Registry) (id : TypeId) : Option (List TypeId) :=
  match registry.get? (registry.unalias id) with
  | some (.union _ members) => some members
  | _ => none

/-- Whether a type is a choice of types. -/
def isUnion (registry : Registry) (id : TypeId) : Bool := (registry.members? id).isSome

/-- Whether every member of a choice of types is one of the candidates, behind
aliases on both sides. -/
def includesAll (registry : Registry) (union : TypeId) (candidates : List TypeId) : Bool :=
  match registry.members? union with
  | some members => members.all fun member =>
      candidates.any fun candidate => registry.unalias candidate = registry.unalias member
  | none => false

/-- Whether a value of the first type may stand where the second is expected. -/
def fits (registry : Registry) (given expected : TypeId) : Bool :=
  if given = expected then true
  else
    match registry.get? given, registry.get? expected with
    | some (.alias _ parent), _ =>
        if _ : parent.index < given.index then fits registry parent expected else false
    | _, some (.alias _ parent) =>
        if _ : parent.index < expected.index then fits registry given parent else false
    | some (.function left), some (.function right) =>
        left.parameters.length == right.parameters.length &&
          ((left.parameters.zip right.parameters).all fun (first, second) =>
            if _ : first.index < given.index ∧ second.index < expected.index then
              fits registry first second
            else false) &&
          (if _ : left.result.index < given.index ∧ right.result.index < expected.index then
            fits registry left.result right.result
          else false)
    | some (.union _ left), some (.union _ right) =>
        registry.includesAll given right && registry.includesAll expected left
    | some (.union _ members), _ =>
        members.any fun member =>
          if _ : member.index < given.index then fits registry member expected else false
    | _, some (.union _ members) =>
        members.any fun member =>
          if _ : member.index < expected.index then fits registry given member else false
    | some (.nominal declared), _ =>
        match declared.superclass with
        | some parent =>
            if _ : parent.index < given.index then fits registry parent expected else false
        | none => false
    | _, _ => false
termination_by given.index + expected.index

/-- A class behind any aliases, followed by its ancestors from the nearest
on. -/
def lineage (registry : Registry) (id : TypeId) : List ClassType :=
  match registry.class? id with
  | some declared =>
      declared ::
        match declared.superclass with
        | some parent => if parent.index < id.index then lineage registry parent else []
        | none => []
  | none => []
termination_by id.index

end TypedLisp.Registry
