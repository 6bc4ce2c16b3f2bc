import Mathlib.Algebra.Order.BigOperators.Group.Finset
import Mathlib.Algebra.Order.Group.Nat
import TypedLisp.Proofs.RuleSoundness
import TypedLisp.Proofs.Weight

/-!
# Budgets of checking

Checking ends because the text that is left to be checked runs out. Instantiating a
generic function checks a body that is no part of the call, and a body can make new
generic functions, so the text is accounted for as follows.

At any time a run sees some scopes and, through the names that they bind, some
generic functions (`View`). Each generic function that is seen and is not being
checked costs the weight of its body and one more. What a body makes is paid for by
the text of that body, and it cannot be seen any more once the body has been
checked, unless the body has declared a class: classes are seen from everywhere.
A class is declared once under each name, so this happens only a number of times
that is known in advance, and it is paid for by a factor for every class that may
still be declared (`Ready.budget`).
-/

set_option autoImplicit false

namespace TypedLisp

/-! ## Costs -/

namespace Registry

/-- What instantiating a generic function costs. -/
def cost (types : Registry) (id : TypeId) : Nat :=
  match types.template? id with
  | some template => template.body.weight + 1
  | none => 0

/-- How many of some names are not declared. -/
def undeclared (types : Registry) (classes : List String) : Nat :=
  classes.countP fun name => !types.names.contains name

variable {before after : Registry} {id : TypeId}

theorem template?_of_get? {types : Registry} {template : Template}
    (found : types.get? id = some (.generic template)) : types.template? id = some template := by
  simp [template?, found]

theorem Grows.cost {template : Template} (grows : Grows before after)
    (found : before.get? id = some (.generic template)) : after.cost id = before.cost id := by
  simp [Registry.cost, template?_of_get? found, template?_of_get? (grows.types found)]

theorem Grows.contains (grows : Grows before after) {name : String}
    (listed : before.names.contains name = true) : after.names.contains name = true := by
  unfold NameTable.contains at listed ⊢
  obtain ⟨id, found⟩ := Option.isSome_iff_exists.1 listed
  exact Option.isSome_iff_exists.2 ⟨id, grows.names found⟩

theorem Grows.undeclared_le (grows : Grows before after) (classes : List String) :
    after.undeclared classes ≤ before.undeclared classes := by
  refine List.countP_mono_left fun name _ absent => ?_
  rw [Bool.not_eq_true'] at absent ⊢
  rw [← Bool.not_eq_true] at absent ⊢
  exact fun listed => absent (grows.contains listed)

theorem Grows.undeclared_lt (grows : Grows before after) {classes : List String} {name : String}
    (among : name ∈ classes) (missing : before.names.get? name = none)
    (listed : after.names.contains name = true) :
    after.undeclared classes < before.undeclared classes := by
  induction classes with
  | nil => cases among
  | cons first classes ih =>
      have rest := grows.undeclared_le classes
      have absent : before.names.contains name = false := by simp [NameTable.contains, missing]
      unfold undeclared at rest ih ⊢
      rw [List.countP_cons, List.countP_cons]
      rcases List.mem_cons.1 among with rfl | among
      · simp only [listed, absent]
        simpa using Nat.lt_succ_of_le rest
      · have less := ih among
        by_cases known : before.names.contains first = true
        · simpa [known, grows.contains known] using less
        · have unknown : before.names.contains first = false := by simpa using known
          simp only [unknown]
          split <;> simp <;> omega

end Registry

/-- A weight that every body stays below, and the classes that may be declared. -/
structure Limits where
  factor : Nat
  classes : List String
  positive : 0 < factor

/-- An expression is lighter than the factor and declares only classes of the list. -/
structure Limits.Admits (limits : Limits) (expression : Expr) : Prop where
  light : expression.weight < limits.factor
  classes : ∀ name ∈ expression.declaredNames, name ∈ limits.classes

namespace Session

/-- What it costs to instantiate each of some generic functions that are not being
checked. -/
def spendable (session : Session) (templates : Finset TypeId) : Nat :=
  ∑ id ∈ templates with id ∉ session.active, session.types.cost id

end Session

/-- The generic functions and the scopes that a run sees. -/
structure View where
  templates : Finset TypeId
  scopes : Set ScopeId

namespace View

/-- One view is a part of another. -/
structure Within (small large : View) : Prop where
  templates : small.templates ⊆ large.templates
  scopes : small.scopes ⊆ large.scopes

theorem Within.refl (view : View) : Within view view := ⟨Finset.Subset.refl _, Set.Subset.rfl⟩

theorem Within.trans {first second third : View} (left : Within first second)
    (right : Within second third) : Within first third :=
  ⟨left.templates.trans right.templates, left.scopes.trans right.scopes⟩

/-- There is a type of a handle, and if it is a generic function, the view has it. -/
structure Holds (view : View) (session : Session) (id : TypeId) : Prop where
  has : session.Has id
  seen : ∀ template : Template, session.types.get? id = some (.generic template) →
    id ∈ view.templates

variable {view larger : View} {session reached : Session} {id : TypeId}

theorem holds_of_isPlain (plain : session.types.IsPlain id) : view.Holds session id where
  has := Session.has_of_isPlain plain
  seen := by
    intro template found
    obtain ⟨type, there, apart⟩ := plain
    exact absurd (Option.some.inj (there.symm.trans found)) (apart template)

theorem Holds.mono (holds : view.Holds session id) (within : view.Within larger)
    (grows : Registry.Grows session.types reached.types) : larger.Holds reached id := by
  obtain ⟨type, there⟩ := holds.has
  refine ⟨⟨type, grows.types there⟩, fun template found => ?_⟩
  refine within.templates (holds.seen template ?_)
  rw [there, ← grows.types there, found]

end View

/-! ## Views of a session -/

/-- A view is closed: it has the parents of its scopes, the generic functions that
are bound there, the scopes that these keep, and the scopes of all classes. -/
structure View.Closed (limits : Limits) (view : View) (session : Session) : Prop where
  live : ∀ {id : ScopeId}, id ∈ view.scopes → session.scopes.isLive id = true
  parents : ∀ {id parent : ScopeId} {scope : Scope}, id ∈ view.scopes →
    session.scopes.get? id = some scope → scope.parent = some parent → parent ∈ view.scopes
  bound : ∀ {id : ScopeId} {name : String} {type : TypeId}, id ∈ view.scopes →
    session.scopes.getLocal? id name = some type → view.Holds session type
  classes : ∀ {id : TypeId} {declared : ClassType},
    session.types.get? id = some (.nominal declared) → declared.scope ∈ view.scopes
  templates : ∀ {id : TypeId}, id ∈ view.templates → ∃ template,
    session.types.get? id = some (.generic template) ∧ template.scope ∈ view.scopes ∧
      limits.Admits template.body

/-- A run can go on: what it sees and what is left to be checked stay within the
total. -/
structure Ready (limits : Limits) (session : Session) (view : View) (rest total : Nat) :
    Prop where
  wellFormed : session.WellFormed
  closed : view.Closed limits session
  budget : (session.spendable view.templates + rest) *
    limits.factor ^ session.types.undeclared limits.classes ≤ total

variable {limits : Limits} {session reached : Session} {view larger : View} {rest less total : Nat}

theorem Ready.spend (ready : Ready limits session view rest total) (le : less ≤ rest) :
    Ready limits session view less total where
  wellFormed := ready.wellFormed
  closed := ready.closed
  budget := Nat.le_trans (Nat.mul_le_mul_right _ (Nat.add_le_add_left le _)) ready.budget

/-- A name is looked up along a chain of scopes, and a closed view has all of it. -/
theorem View.Closed.chain {scope : ScopeId} {path : List ScopeId}
    (closed : view.Closed limits session) (chain : session.scopes.Chain scope path)
    (seen : scope ∈ view.scopes) : ∀ member ∈ path, member ∈ view.scopes := by
  induction chain with
  | global =>
      intro member among
      obtain rfl := List.mem_singleton.1 among
      exact seen
  | outward found parented _ ih =>
      intro member among
      rcases List.mem_cons.1 among with rfl | among
      · exact seen
      · exact ih (closed.parents seen found parented) member among

theorem Ready.holds_lookup {scope : ScopeId} {name : String} {id : TypeId}
    (ready : Ready limits session view rest total) (seen : scope ∈ view.scopes)
    (answer : session.scopes.lookup scope name = .ok id) : view.Holds session id := by
  unfold Scopes.lookup at answer
  split at answer
  · rename_i found
    obtain rfl := Except.ok.inj answer
    obtain ⟨owner, owned, bound⟩ := Option.bind_eq_some_iff.1 found
    obtain ⟨path, chain⟩ := ready.wellFormed.scopes.chain (ready.closed.live seen)
    rw [Scopes.owner?_eq_find? name chain] at owned
    exact ready.closed.bound (ready.closed.chain chain seen owner (List.mem_of_find?_eq_some owned))
      bound
  · cases answer

theorem Ready.holds_field {object id : TypeId} {name : String}
    (ready : Ready limits session view rest total)
    (answer : session.field object name = .ok id) : view.Holds session id := by
  unfold Session.field at answer
  split at answer
  · cases answer
  · rename_i declared ancestors lineage
    split at answer
    · rename_i found
      obtain rfl := Except.ok.inj answer
      obtain ⟨owner, among, bound⟩ := List.exists_of_findSome?_eq_some found
      obtain ⟨type, there⟩ := Registry.get?_of_mem_lineage (lineage ▸ among)
      exact ready.closed.bound (ready.closed.classes there) bound
    · cases answer

/-! ## From one session to the next -/

/-- What a step that succeeds does to the types: they grow, and a class can only be
new when fewer classes may be declared afterwards. -/
structure Proceeds (limits : Limits) (before after : Session) : Prop where
  grows : Registry.Grows before.types after.types
  fresh : (∀ {id : TypeId} {declared : ClassType},
      after.types.get? id = some (.nominal declared) →
        before.types.get? id = some (.nominal declared)) ∨
    after.types.undeclared limits.classes < before.types.undeclared limits.classes

theorem Proceeds.refl (limits : Limits) (session : Session) : Proceeds limits session session :=
  ⟨.refl _, .inl fun found => found⟩

theorem Proceeds.trans {before middle after : Session} (first : Proceeds limits before middle)
    (second : Proceeds limits middle after) : Proceeds limits before after := by
  refine ⟨first.grows.trans second.grows, ?_⟩
  have fewerFirst := first.grows.undeclared_le limits.classes
  have fewerSecond := second.grows.undeclared_le limits.classes
  rcases first.fresh with same | fewer
  · rcases second.fresh with sameAgain | fewer
    · exact .inl fun found => same (sameAgain found)
    · exact .inr (Nat.lt_of_lt_of_le fewer fewerFirst)
  · exact .inr (Nat.lt_of_le_of_lt fewerSecond fewer)

theorem Proceeds.of_captureless (grows : Registry.Grows session.types reached.types)
    (captureless : Registry.Captureless session.types reached.types) :
    Proceeds limits session reached :=
  ⟨grows, .inl fun found => captureless found rfl⟩

theorem View.Closed.spendable_eq (closed : view.Closed limits session)
    (grows : Registry.Grows session.types reached.types)
    (active : reached.active = session.active) :
    reached.spendable view.templates = session.spendable view.templates := by
  unfold Session.spendable
  rw [active]
  refine Finset.sum_congr rfl fun id among => ?_
  obtain ⟨template, found, _⟩ := closed.templates (Finset.mem_filter.1 among).1
  exact grows.cost found

/-- The budget holds on when the types grow, whatever is seen. -/
theorem budget_le_of_grows {spent : Nat} (grows : Registry.Grows session.types reached.types)
    (budget : spent * limits.factor ^ session.types.undeclared limits.classes ≤ total) :
    spent * limits.factor ^ reached.types.undeclared limits.classes ≤ total :=
  Nat.le_trans (Nat.mul_le_mul_left _
    (Nat.pow_le_pow_right limits.positive (grows.undeclared_le limits.classes))) budget

theorem View.Closed.of_evolves {writable : Set ScopeId} (closed : view.Closed limits session)
    (evolves : session.Evolves writable reached)
    (classes : ∀ {id : TypeId} {declared : ClassType},
      reached.types.get? id = some (.nominal declared) → declared.scope ∈ view.scopes)
    (bound : ∀ {id : ScopeId} {name : String} {type : TypeId}, id ∈ view.scopes → id ∈ writable →
      reached.scopes.getLocal? id name = some type → view.Holds reached type) :
    view.Closed limits reached where
  live seen := evolves.isLive (closed.live seen)
  parents {id parent scope} seen found parented := by
    obtain ⟨old, there⟩ := Scopes.isLive_iff.1 (closed.live seen)
    obtain ⟨later, foundLater, same, _⟩ := evolves.scopes.kept there
    obtain rfl := Option.some.inj (found.symm.trans foundLater)
    exact closed.parents seen there (same.symm.trans parented)
  bound {id name type} seen found := by
    rcases Classical.em (id ∈ writable) with inside | outside
    · exact bound seen inside found
    · rw [evolves.scopes.getLocal? (closed.live seen) outside] at found
      exact (closed.bound seen found).mono (.refl _) evolves.types
  classes := classes
  templates seen := by
    obtain ⟨template, found, kept, admitted⟩ := closed.templates seen
    exact ⟨template, evolves.types.types found, kept, admitted⟩

/-- A session evolves, and the scopes of classes and the types that the writable
scopes bind then are seen. -/
theorem Ready.of_evolves {writable : Set ScopeId} (ready : Ready limits session view rest total)
    (evolves : session.Evolves writable reached)
    (classes : ∀ {id : TypeId} {declared : ClassType},
      reached.types.get? id = some (.nominal declared) → declared.scope ∈ view.scopes)
    (bound : ∀ {id : ScopeId} {name : String} {type : TypeId}, id ∈ view.scopes → id ∈ writable →
      reached.scopes.getLocal? id name = some type → view.Holds reached type) :
    Ready limits reached view rest total where
  wellFormed := evolves.wellFormed
  closed := ready.closed.of_evolves evolves classes bound
  budget := by
    rw [ready.closed.spendable_eq evolves.types evolves.active]
    exact budget_le_of_grows evolves.types ready.budget

/-! ### Scopes that are opened and released -/

/-- A view with one more scope. -/
def View.withScope (view : View) (scope : ScopeId) : View :=
  ⟨view.templates, insert scope view.scopes⟩

theorem View.within_withScope (view : View) (scope : ScopeId) :
    view.Within (view.withScope scope) :=
  ⟨Finset.Subset.refl _, Set.subset_insert _ _⟩

theorem View.mem_withScope (view : View) (scope : ScopeId) :
    scope ∈ (view.withScope scope).scopes :=
  Set.mem_insert _ _

theorem Ready.opened {parent : ScopeId} (ready : Ready limits session view rest total)
    (seen : parent ∈ view.scopes) :
    Ready limits (session.opened parent) (view.withScope (session.next parent)) rest total where
  wellFormed := ready.wellFormed.opened (ready.closed.live seen)
  closed :=
    { live := by
        intro id among
        rcases Set.mem_insert_iff.1 among with rfl | among
        · exact ready.wellFormed.isLive_next parent
        · obtain ⟨scope, found⟩ := Scopes.isLive_iff.1 (ready.closed.live among)
          exact Scopes.isLive_of_get?
            (Scopes.get?_push_of_get? ready.wellFormed.scopes parent found)
      parents := by
        intro id outer scope among found parented
        have slot := Scopes.get?_push ready.wellFormed.scopes parent id
        rcases Decidable.em (id = session.next parent) with same | apart
        · obtain rfl := Option.some.inj ((slot.trans (if_pos same)).symm.trans found)
          obtain rfl := Option.some.inj parented
          exact Set.mem_insert_of_mem _ seen
        · have old := (Set.mem_insert_iff.1 among).resolve_left apart
          exact Set.mem_insert_of_mem _ (ready.closed.parents old
            ((slot.trans (if_neg apart)).symm.trans found) parented)
      bound := by
        intro id name type among found
        obtain ⟨scope, there, listed⟩ := Option.bind_eq_some_iff.1 found
        have slot := Scopes.get?_push ready.wellFormed.scopes parent id
        rcases Decidable.em (id = session.next parent) with same | apart
        · obtain rfl := Option.some.inj ((slot.trans (if_pos same)).symm.trans there)
          simp at listed
        · have old := (Set.mem_insert_iff.1 among).resolve_left apart
          have before := (slot.trans (if_neg apart)).symm.trans there
          have bound := ready.closed.bound old (Option.bind_eq_some_iff.2 ⟨scope, before, listed⟩)
          exact ⟨bound.has, bound.seen⟩
      classes := fun found => Set.mem_insert_of_mem _ (ready.closed.classes found)
      templates := fun among => by
        obtain ⟨template, found, kept, admitted⟩ := ready.closed.templates among
        exact ⟨template, found, Set.mem_insert_of_mem _ kept, admitted⟩ }
  budget := ready.budget

/-- The scopes of a view that are live in a session. -/
def View.restricted (view : View) (session : Session) : View :=
  ⟨view.templates, { id ∈ view.scopes | session.scopes.isLive id = true }⟩

/-- After a scope has been released, the scopes that are still there are seen. -/
theorem Ready.closed_of_release {child : ScopeId} (ready : Ready limits session view rest total)
    (wellFormed : (session.closed child).WellFormed) :
    Ready limits (session.closed child) (view.restricted (session.closed child)) rest total where
  wellFormed := wellFormed
  closed :=
    { live := fun among => among.2
      parents := by
        intro id parent scope among found parented
        exact ⟨ready.closed.parents among.1 (Scopes.get?_of_release found) parented,
          wellFormed.scopes.isLive_parent found parented⟩
      bound := by
        intro id name type among found
        obtain ⟨scope, there, listed⟩ := Option.bind_eq_some_iff.1 found
        have before := Scopes.get?_of_release there
        have bound := ready.closed.bound among.1 (Option.bind_eq_some_iff.2 ⟨scope, before, listed⟩)
        exact ⟨bound.has, bound.seen⟩
      classes := fun found => ⟨ready.closed.classes found, wellFormed.isLive_of_scope? found rfl⟩
      templates := fun among => by
        obtain ⟨template, found, kept, admitted⟩ := ready.closed.templates among
        exact ⟨template, found, ⟨kept, wellFormed.isLive_of_scope? found rfl⟩, admitted⟩ }
  budget := ready.budget

/-! ### Generic functions -/

theorem spendable_entered {generic : TypeId} {templates : Finset TypeId}
    (seen : generic ∈ templates) (inactive : generic ∉ session.active) :
    (session.entered generic).spendable templates + session.types.cost generic =
      session.spendable templates := by
  have member : generic ∈ {id ∈ templates | id ∉ session.active} :=
    Finset.mem_filter.2 ⟨seen, inactive⟩
  have others : {id ∈ templates | id ∉ (session.entered generic).active} =
      {id ∈ templates | id ∉ session.active}.erase generic := by
    ext id
    simp only [Session.entered, List.mem_cons, not_or, Finset.mem_filter, Finset.mem_erase]
    tauto
  unfold Session.spendable
  rw [others]
  exact Finset.sum_erase_add _ _ member

theorem spendable_left_le {generic : TypeId} {active : List TypeId}
    (entered : session.active = generic :: active) (templates : Finset TypeId) :
    (session.left generic).spendable templates ≤
      session.spendable templates + session.types.cost generic := by
  have left : (session.left generic).active = active := by
    simp [Session.left, entered]
  have subset : {id ∈ templates | id ∉ (session.left generic).active} ⊆
      insert generic {id ∈ templates | id ∉ session.active} := by
    intro id among
    simp only [left, entered, List.mem_cons, not_or, Finset.mem_filter,
      Finset.mem_insert] at among ⊢
    tauto
  calc (session.left generic).spendable templates
      ≤ ∑ id ∈ insert generic {id ∈ templates | id ∉ session.active}, session.types.cost id :=
        Finset.sum_le_sum_of_subset subset
    _ = session.spendable templates + session.types.cost generic := by
        rw [Finset.sum_insert (by simp [entered]), Nat.add_comm]
        rfl

/-- The total within which the body of a generic function is checked. -/
def innerTotal (limits : Limits) (session : Session) (view : View) : Nat :=
  (session.spendable view.templates - 1) *
    limits.factor ^ session.types.undeclared limits.classes

variable {generic : TypeId} {template : Template}

theorem cost_eq (found : session.types.get? generic = some (.generic template)) :
    session.types.cost generic = template.body.weight + 1 := by
  simp [Registry.cost, Registry.template?_of_get? found]

theorem cost_le_spendable (seen : generic ∈ view.templates) (inactive : generic ∉ session.active)
    (found : session.types.get? generic = some (.generic template)) :
    template.body.weight + 1 ≤ session.spendable view.templates := by
  rw [← spendable_entered seen inactive, cost_eq found]
  exact Nat.le_add_left _ _

/-- Entering a body pays for its text and for one step more. -/
theorem Ready.entered (ready : Ready limits session view rest total)
    (seen : generic ∈ view.templates) (inactive : generic ∉ session.active)
    (found : session.types.get? generic = some (.generic template)) :
    Ready limits (session.entered generic) view template.body.weight
      (innerTotal limits session view) where
  wellFormed := ready.wellFormed.entered generic
  closed :=
    { live := ready.closed.live
      parents := ready.closed.parents
      bound := fun among there => by
        have bound := ready.closed.bound among there
        exact ⟨bound.has, bound.seen⟩
      classes := ready.closed.classes
      templates := ready.closed.templates }
  budget := by
    have paid := spendable_entered seen inactive
    rw [cost_eq found] at paid
    refine Nat.mul_le_mul_right _ ?_
    omega

theorem innerTotal_lt (ready : Ready limits session view rest total)
    (some : 0 < session.spendable view.templates) : innerTotal limits session view < total := by
  have power : 0 < limits.factor ^ session.types.undeclared limits.classes := Nat.pow_pos limits.positive
  refine Nat.lt_of_lt_of_le (Nat.mul_lt_mul_of_pos_right ?_ power) ready.budget
  omega

/-- What the declaration of a class in a body pays for: the body can be entered again,
and what it has made can still be seen. -/
theorem budget_of_fewer {factor spent inner cost few many : Nat} (positive : 0 < factor)
    (fewer : few < many) (some : 0 < spent) (small : cost ≤ factor)
    (within : inner * factor ^ few ≤ (spent - 1) * factor ^ many)
    (budget : (spent + rest) * factor ^ many ≤ total) :
    (inner + cost + rest) * factor ^ few ≤ total := by
  have power : factor * factor ^ few ≤ factor ^ many := by
    rw [← Nat.pow_succ']
    exact Nat.pow_le_pow_right positive fewer
  have less : factor ^ few ≤ factor ^ many :=
    Nat.pow_le_pow_right positive (Nat.le_of_lt fewer)
  obtain ⟨spent, rfl⟩ : ∃ less, spent = less + 1 := ⟨spent - 1, by omega⟩
  rw [Nat.add_sub_cancel] at within
  calc (inner + cost + rest) * factor ^ few
      = inner * factor ^ few + cost * factor ^ few + rest * factor ^ few := by
        rw [Nat.add_mul, Nat.add_mul]
    _ ≤ spent * factor ^ many + factor ^ many + rest * factor ^ many := by
        have second := Nat.le_trans (Nat.mul_le_mul_right (factor ^ few) small) power
        have third := Nat.mul_le_mul_left rest less
        omega
    _ = (spent + 1 + rest) * factor ^ many := by
        rw [Nat.add_mul, Nat.add_mul, Nat.one_mul]
    _ ≤ total := budget

/-- **After a body has been checked** nothing new is seen, or the body has declared a
class, and then there is enough left for all that it has made. -/
theorem Ready.left (ready : Ready limits session view rest total)
    (seen : generic ∈ view.templates) (inactive : generic ∉ session.active)
    (evolves : (session.entered generic).Evolves ∅ reached) (within : view.Within larger)
    (inner : Ready limits reached larger less (innerTotal limits session view))
    (proceeds : Proceeds limits (session.entered generic) reached) :
    ∃ final, view.Within final ∧ Ready limits (reached.left generic) final rest total := by
  rcases proceeds.fresh with same | fewer
  · exact ⟨view, .refl _, ready.of_evolves evolves.left
      (fun found => ready.closed.classes (same found)) fun _ inside => by cases inside⟩
  · refine ⟨larger, within, evolves.left.wellFormed, ?_, ?_⟩
    · exact
        { live := inner.closed.live
          parents := inner.closed.parents
          bound := fun among there => by
            have bound := inner.closed.bound among there
            exact ⟨bound.has, bound.seen⟩
          classes := inner.closed.classes
          templates := inner.closed.templates }
    · obtain ⟨template, found, _, admitted⟩ := ready.closed.templates seen
      have spent := cost_le_spendable seen inactive found
      have cost : reached.types.cost generic ≤ limits.factor := by
        rw [evolves.types.cost found]
        exact (cost_eq found).trans_le admitted.light
      have used : reached.spendable larger.templates *
          limits.factor ^ reached.types.undeclared limits.classes ≤
            (session.spendable view.templates - 1) *
              limits.factor ^ session.types.undeclared limits.classes :=
        Nat.le_trans (Nat.mul_le_mul_right _ (Nat.le_add_right _ _)) inner.budget
      have again := spendable_left_le evolves.active larger.templates
      refine Nat.le_trans (Nat.mul_le_mul_right _ (Nat.add_le_add_right again rest)) ?_
      exact budget_of_fewer limits.positive fewer (by omega) cost used ready.budget

/-- A view with one more generic function. -/
def View.withTemplate (view : View) (id : TypeId) : View :=
  ⟨insert id view.templates, view.scopes⟩

theorem View.within_withTemplate (view : View) (id : TypeId) :
    view.Within (view.withTemplate id) :=
  ⟨Finset.subset_insert _ _, Set.Subset.rfl⟩

theorem spendable_insert_le (session : Session) (templates : Finset TypeId) (id : TypeId) :
    session.spendable (insert id templates) ≤
      session.spendable templates + session.types.cost id := by
  have subset : {other ∈ insert id templates | other ∉ session.active} ⊆
      insert id {other ∈ templates | other ∉ session.active} := by
    intro other among
    simp only [Finset.mem_filter, Finset.mem_insert] at among ⊢
    tauto
  refine Nat.le_trans (Finset.sum_le_sum_of_subset subset) ?_
  by_cases member : id ∈ {other ∈ templates | other ∉ session.active}
  · rw [Finset.insert_eq_of_mem member]
    exact Nat.le_add_right _ _
  · rw [Finset.sum_insert member, Nat.add_comm]
    exact Nat.le_refl _

/-- A generic function that is made is paid for by the text of its body. -/
theorem Ready.withTemplate (ready : Ready limits session view (template.body.weight + 1 + rest) total)
    (seen : template.scope ∈ view.scopes) (admitted : limits.Admits template.body) :
    Ready limits (session.withTemplate template)
      (view.withTemplate ⟨session.types.types.size⟩) rest total := by
  have evolves := ready.wellFormed.evolves_withTemplate (ready.closed.live seen)
  have found := Session.get?_withTemplate session template
  have classes : ∀ {id : TypeId} {declared : ClassType},
      (session.withTemplate template).types.get? id = some (.nominal declared) →
        declared.scope ∈ view.scopes := by
    intro id declared there
    rw [Session.withTemplate, Registry.addTemplate, Registry.get?_add] at there
    split at there
    · cases there
    · exact ready.closed.classes there
  have closed := ready.closed.of_evolves evolves classes fun _ inside => by cases inside
  refine ⟨evolves.wellFormed, ⟨closed.live, closed.parents, ?_, closed.classes, ?_⟩, ?_⟩
  · exact fun among there =>
      (closed.bound among there).mono (view.within_withTemplate _) (.refl _)
  · intro id among
    rcases Finset.mem_insert.1 among with rfl | among
    · exact ⟨template, found, seen, admitted⟩
    · exact closed.templates among
  · have more := spendable_insert_le (session.withTemplate template) view.templates
      ⟨session.types.types.size⟩
    rw [ready.closed.spendable_eq evolves.types evolves.active, cost_eq found] at more
    refine Nat.le_trans (Nat.mul_le_mul_right _ ?_)
      (budget_le_of_grows evolves.types ready.budget)
    change (session.withTemplate template).spendable (insert _ view.templates) + rest ≤ _
    omega

/-- The scope of a class that is declared is seen. -/
theorem Ready.withClass {name : String} {superclass : Option TypeId} {scope : ScopeId}
    (ready : Ready limits session view rest total) (seen : scope ∈ view.scopes)
    (plain : ∀ id ∈ superclass, session.types.IsPlain id)
    (unclaimed : session.types.names.get? name = none) :
    Ready limits (session.withClass name superclass scope)
      (view.withScope (session.next scope)) rest total := by
  have evolves := ready.wellFormed.opened_evolves_withClass (ready.closed.live seen) plain unclaimed
  refine (ready.opened seen).of_evolves evolves ?_ fun _ inside => by cases inside
  intro id declared there
  change (session.types.add _).2.get? id = some (.nominal declared) at there
  rw [Registry.get?_add] at there
  split at there
  · obtain rfl := Ty.nominal.inj (Option.some.inj there)
    exact Set.mem_insert _ _
  · exact Set.mem_insert_of_mem _ (ready.closed.classes there)

theorem proceeds_withClass {name : String} {superclass : Option TypeId} {scope : ScopeId}
    (listed : name ∈ limits.classes) (unclaimed : session.types.names.get? name = none) :
    Proceeds limits session (session.withClass name superclass scope) := by
  have grows : Registry.Grows session.types (session.withClass name superclass scope).types :=
    Registry.grows_declare _ unclaimed
  refine ⟨grows, .inr (grows.undeclared_lt listed unclaimed ?_)⟩
  have entry : (session.withClass name superclass scope).types.names.get? name =
      some ⟨session.types.types.size⟩ :=
    (Registry.get?_names_declare _ _ _ _).trans (if_pos rfl)
  simp [NameTable.contains, entry]

end TypedLisp
