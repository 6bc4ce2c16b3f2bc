import TypedLisp.Error
import TypedLisp.Handle
import TypedLisp.NameTable

/-!
# Scopes

A scope binds names to types and has a parent, except the global scope. Scopes
live in the slots of an arena. A scope that is released leaves its slot, and
the slot released last is the first to be taken again; an arena that does not
recycle takes a new slot for every scope instead. A pinned scope stays: classes
and generic functions keep the scopes they stand in.

A slot without a scope is dead. Binding a name there has no effect, and looking
up a name stops there.
-/

set_option autoImplicit false

namespace TypedLisp

/-- The names that are bound together, the scope around them, and whether they
outlive the construct that opened them. -/
structure Scope where
  record : NameTable TypeId
  parent : Option ScopeId
  pinned : Bool
  deriving DecidableEq, Repr

/-- An arena of scopes: the slots, the released ones from the latest on, and
whether these are taken again. -/
structure Scopes where
  slots : Array (Option Scope)
  free : List ScopeId
  recycles : Bool
  deriving DecidableEq, Repr

namespace Scopes

/-- The arena of the global scope. -/
def initial (recycles : Bool) : Scopes :=
  ⟨#[some ⟨.empty, none, true⟩], [], recycles⟩

/-- The scope in a slot. -/
def get? (scopes : Scopes) (id : ScopeId) : Option Scope := scopes.slots[id.index]?.join

/-- Puts a scope into a slot, or empties it. -/
def set (scopes : Scopes) (id : ScopeId) (scope : Option Scope) : Scopes :=
  { scopes with slots := scopes.slots.setIfInBounds id.index scope }

/-- Whether there is a scope in a slot. -/
def isLive (scopes : Scopes) (id : ScopeId) : Bool := (scopes.get? id).isSome

/-- The number of scopes. -/
def liveCount (scopes : Scopes) : Nat := scopes.slots.countP Option.isSome

/-! ## Opening, keeping and closing scopes -/

/-- Opens a scope inside another one. -/
def push (scopes : Scopes) (parent : ScopeId) : ScopeId × Scopes :=
  let scope : Scope := ⟨.empty, some parent, false⟩
  match scopes.free with
  | id :: free => (id, { scopes.set id (some scope) with free })
  | [] => (⟨scopes.slots.size⟩, { scopes with slots := scopes.slots.push (some scope) })

/-- Pins a scope and the scopes around it, at most the given number of them, up
to one that is pinned already. -/
def pinUpTo : Nat → Scopes → ScopeId → Scopes
  | 0, scopes, _ => scopes
  | steps + 1, scopes, id =>
      match scopes.get? id with
      | some scope =>
          if scope.pinned then scopes
          else
            let pinned := scopes.set id (some { scope with pinned := true })
            match scope.parent with
            | some parent => pinUpTo steps pinned parent
            | none => pinned
      | none => scopes

/-- Pins a scope and the scopes around it. Each step pins another one, so there
are no more steps than slots. -/
def pin (scopes : Scopes) (id : ScopeId) : Scopes := pinUpTo scopes.slots.size scopes id

/-- Closes a scope unless it is pinned. -/
def release (scopes : Scopes) (id : ScopeId) : Scopes :=
  match scopes.get? id with
  | some scope =>
      if scope.pinned then scopes
      else
        { scopes.set id none with
          free := if scopes.recycles then id :: scopes.free else scopes.free }
  | none => scopes

/-! ## Names -/

/-- Changes the names that a scope binds. -/
def updateRecord (scopes : Scopes) (id : ScopeId)
    (change : NameTable TypeId → NameTable TypeId) : Scopes :=
  match scopes.get? id with
  | some scope => scopes.set id (some { scope with record := change scope.record })
  | none => scopes

/-- Binds a name in a scope. -/
def define (scopes : Scopes) (id : ScopeId) (name : String) (type : TypeId) : Scopes :=
  scopes.updateRecord id (·.insert name type)

/-- Removes a name from a scope. -/
def remove (scopes : Scopes) (id : ScopeId) (name : String) : Scopes :=
  scopes.updateRecord id (·.erase name)

/-- The type of a name that the scope itself binds. -/
def getLocal? (scopes : Scopes) (id : ScopeId) (name : String) : Option TypeId :=
  (scopes.get? id).bind (·.record.get? name)

/-- Puts a name of a scope back to what it was bound to before. -/
def restore (scopes : Scopes) (id : ScopeId) (name : String) (previous : Option TypeId) : Scopes :=
  match previous with
  | some type => scopes.define id name type
  | none => scopes.remove id name

/-- The nearest scope that binds a name, among the given number of scopes from
one outward. -/
def ownerWithin (scopes : Scopes) (name : String) : Nat → ScopeId → Option ScopeId
  | 0, _ => none
  | steps + 1, id =>
      match scopes.get? id with
      | some scope =>
          if scope.record.contains name then some id
          else
            match scope.parent with
            | some parent => ownerWithin scopes name steps parent
            | none => none
      | none => none

/-- The nearest scope from one outward that binds a name. A walk with more steps
than slots comes back to where it has been. -/
def owner? (scopes : Scopes) (id : ScopeId) (name : String) : Option ScopeId :=
  scopes.ownerWithin name scopes.slots.size id

/-- The nearest scope from one outward that binds a name. -/
def owner (scopes : Scopes) (id : ScopeId) (name : String) : Except Fault ScopeId :=
  match scopes.owner? id name with
  | some owner => .ok owner
  | none => .error (.unresolvedReference name)

/-- The type of a name, seen from a scope. -/
def lookup (scopes : Scopes) (id : ScopeId) (name : String) : Except Fault TypeId :=
  match (scopes.owner? id name).bind (scopes.getLocal? · name) with
  | some type => .ok type
  | none => .error (.unresolvedReference name)

end Scopes

end TypedLisp
