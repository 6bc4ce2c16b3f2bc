import Mathlib.Algebra.BigOperators.Ring.Finset
import Mathlib.Tactic.Linarith
import Mathlib.Tactic.Ring
import TypedLisp.Proofs.Termination

/-!
# The bound on the depth of checking

The bound that a session sets on the depth of checking is computed from the size of
the expression and of the bodies of all generic functions. It covers the budget of
the view that has all generic functions and all scopes, so checking always ends:
an expression in a live scope (`typeOf_ends`) and a program (`typeOfProgram_ends`).
-/

set_option autoImplicit false

namespace TypedLisp

/-! ## Sums over all types -/

theorem sum_range_getElem? {α : Type} (measure : α → Nat) (items : List α) :
    (∑ index ∈ Finset.range items.length, (items[index]?.map measure).getD 0) =
      (items.map measure).sum := by
  induction items with
  | nil => rfl
  | cons item items ih =>
      rw [List.length_cons, Finset.sum_range_succ', List.map_cons, List.sum_cons, ← ih,
        Nat.add_comm]
      rfl

namespace Ty

/-- The size that a type adds to that of all bodies. -/
def templateSize : Ty → Nat
  | .generic template => template.body.size + 1
  | _ => 0

/-- The classes that the body of a type declares. -/
def declaredNames : Ty → List String
  | .generic template => template.body.declaredNames
  | _ => []

theorem length_declaredNames_le (type : Ty) : 2 * type.declaredNames.length ≤ type.templateSize := by
  cases type with
  | generic template =>
      exact Nat.le_succ_of_le (Expr.length_declaredNames_le template.body)
  | _ => exact Nat.zero_le _

end Ty

namespace Registry

/-- The generic functions of a registry. -/
def templates (types : Registry) : Finset TypeId :=
  ((Finset.range types.types.size).image TypeId.mk).filter fun id =>
    (types.template? id).isSome = true

/-- The classes that the bodies of generic functions declare. -/
def declaredNames (types : Registry) : List String := types.types.toList.flatMap Ty.declaredNames

theorem mem_templates {types : Registry} {id : TypeId} {template : Template}
    (found : types.get? id = some (.generic template)) : id ∈ types.templates := by
  refine Finset.mem_filter.2 ⟨Finset.mem_image.2 ⟨id.index, ?_, rfl⟩, ?_⟩
  · exact Finset.mem_range.2 (index_lt_of_get? found)
  · simp [template?_of_get? found]

theorem get?_of_mem_templates {types : Registry} {id : TypeId} (among : id ∈ types.templates) :
    ∃ template, types.get? id = some (.generic template) := by
  obtain ⟨template, found⟩ := Option.isSome_iff_exists.1 (Finset.mem_filter.1 among).2
  exact ⟨template, Registry.get?_of_template? found⟩

theorem templateSize_eq (types : Registry) :
    types.templateSize = (types.types.toList.map Ty.templateSize).sum := by
  have shift : ∀ (items : List Ty) (start : Nat),
      items.foldl (fun total type =>
        match type with
        | .generic template => total + template.body.size + 1
        | _ => total) start = start + (items.map Ty.templateSize).sum := by
    intro items
    induction items with
    | nil => intro start; rfl
    | cons type items ih =>
        intro start
        rw [List.foldl_cons, ih, List.map_cons, List.sum_cons, ← Nat.add_assoc]
        cases type <;> rfl
  unfold templateSize
  rw [← Array.foldl_toList]
  exact (shift _ 0).trans (Nat.zero_add _)

theorem cost_le (types : Registry) (index : Nat) :
    types.cost ⟨index⟩ ≤ 4 * (types.types.toList[index]?.map Ty.templateSize).getD 0 := by
  cases found : types.template? ⟨index⟩ with
  | none => simp [cost, found]
  | some template =>
      have there : types.types[index]? = some (.generic template) :=
        Registry.get?_of_template? found
      have light := template.body.weight_le
      have size : (types.types.toList[index]?.map Ty.templateSize).getD 0 =
          template.body.size + 1 := by
        rw [Array.getElem?_toList, there]
        rfl
      rw [cost, found, size]
      dsimp only
      omega

/-- All generic functions together cost no more than four times their size. -/
theorem sum_cost_le (types : Registry) :
    ∑ id ∈ types.templates, types.cost id ≤ 4 * types.templateSize := by
  have injective : Set.InjOn TypeId.mk (Finset.range types.types.size : Set Nat) :=
    fun _ _ _ _ same => TypeId.mk.inj same
  calc ∑ id ∈ types.templates, types.cost id
      ≤ ∑ id ∈ (Finset.range types.types.size).image TypeId.mk, types.cost id :=
        Finset.sum_le_sum_of_subset (Finset.filter_subset _ _)
    _ = ∑ index ∈ Finset.range types.types.size, types.cost ⟨index⟩ := Finset.sum_image injective
    _ ≤ ∑ index ∈ Finset.range types.types.size,
          4 * (types.types.toList[index]?.map Ty.templateSize).getD 0 :=
        Finset.sum_le_sum fun index _ => types.cost_le index
    _ = 4 * types.templateSize := by
        rw [← Finset.mul_sum, ← Array.length_toList, sum_range_getElem?, templateSize_eq]

theorem length_declaredNames_le (types : Registry) :
    2 * types.declaredNames.length ≤ types.templateSize := by
  rw [templateSize_eq, declaredNames]
  induction types.types.toList with
  | nil => exact Nat.zero_le _
  | cons type items ih =>
      have first := type.length_declaredNames_le
      rw [List.flatMap_cons, List.length_append, List.map_cons, List.sum_cons]
      omega

theorem body_size_lt {types : Registry} {id : TypeId} {template : Template}
    (found : types.get? id = some (.generic template)) :
    template.body.size < types.templateSize := by
  have among : Ty.generic template ∈ types.types.toList :=
    Array.mem_toList_iff.2 (Array.mem_of_getElem? found)
  rw [templateSize_eq]
  exact List.single_le_sum (fun _ _ => Nat.zero_le _) _ (List.mem_map_of_mem among)

theorem mem_declaredNames {types : Registry} {id : TypeId} {template : Template} {name : String}
    (found : types.get? id = some (.generic template)) (declared : name ∈ template.body.declaredNames) :
    name ∈ types.declaredNames :=
  List.mem_flatMap.2 ⟨.generic template,
    Array.mem_toList_iff.2 (Array.mem_of_getElem? found), declared⟩

end Registry

/-! ## The whole view -/

namespace Session

/-- The view that has all generic functions and all scopes of a session. -/
def wholeView (session : Session) : View :=
  ⟨session.types.templates, { id | session.scopes.isLive id = true }⟩

/-- The number that the bound on the depth is computed from. -/
def textSize (session : Session) (expression : Expr) : Nat :=
  expression.size + session.types.templateSize

/-- The limits for checking an expression. -/
def limits (session : Session) (expression : Expr) : Limits where
  factor := 4 * session.textSize expression + 1
  classes := expression.declaredNames ++ session.types.declaredNames
  positive := Nat.succ_pos _

/-- The total that checking an expression has at its disposal. -/
def budgetTotal (session : Session) (expression : Expr) : Nat :=
  (session.spendable session.wholeView.templates + expression.weight) *
    (session.limits expression).factor ^
      session.types.undeclared (session.limits expression).classes

variable {session : Session}

theorem admits_expression (session : Session) (expression : Expr) :
    (session.limits expression).Admits expression where
  light := by
    have light := expression.weight_le
    change expression.weight < 4 * (expression.size + session.types.templateSize) + 1
    omega
  classes name declared := List.mem_append_left _ declared

theorem admits_template {expression : Expr} {id : TypeId} {template : Template}
    (found : session.types.get? id = some (.generic template)) :
    (session.limits expression).Admits template.body where
  light := by
    have light := template.body.weight_le
    have small := Registry.body_size_lt found
    change template.body.weight < 4 * (expression.size + session.types.templateSize) + 1
    omega
  classes name declared := List.mem_append_right _ (Registry.mem_declaredNames found declared)

/-- The whole view of a well-formed session is closed. -/
theorem WellFormed.closed_wholeView (wellFormed : session.WellFormed) (expression : Expr) :
    session.wholeView.Closed (session.limits expression) session where
  live seen := seen
  parents {id parent scope} seen found parented := by
    obtain ⟨path, chain⟩ := wellFormed.scopes.chain seen
    exact chain.isLive parent (chain.parent_mem chain.start found parented)
  bound seen found :=
    ⟨wellFormed.has_of_getLocal? found, fun _ there => Registry.mem_templates there⟩
  classes found := wellFormed.isLive_of_scope? found rfl
  templates seen := by
    obtain ⟨template, found⟩ := Registry.get?_of_mem_templates seen
    exact ⟨template, found, wellFormed.isLive_of_scope? found rfl, admits_template found⟩

theorem WellFormed.ready (wellFormed : session.WellFormed) (expression : Expr) :
    Ready (session.limits expression) session session.wholeView (expression.weight + 0)
      (session.budgetTotal expression) :=
  ⟨wellFormed, wellFormed.closed_wholeView expression, Nat.le_refl _⟩

/-! ## The bound is large enough -/

theorem spendable_le (session : Session) :
    session.spendable session.wholeView.templates ≤ 4 * session.types.templateSize :=
  Nat.le_trans (Finset.sum_le_sum_of_subset (Finset.filter_subset _ _)) session.types.sum_cost_le

theorem undeclared_le (session : Session) (expression : Expr) :
    2 * session.types.undeclared (session.limits expression).classes ≤
      session.textSize expression := by
  have count : session.types.undeclared (session.limits expression).classes ≤
      (session.limits expression).classes.length := List.countP_le_length
  have first := expression.length_declaredNames_le
  have second := session.types.length_declaredNames_le
  have all : (session.limits expression).classes.length =
      expression.declaredNames.length + session.types.declaredNames.length := List.length_append
  unfold textSize
  omega

/-- A product of the size and powers of the factor stays below the bound. -/
theorem power_le {size classes : Nat} (few : 2 * classes ≤ size) :
    4 * size * (4 * size + 1) ^ classes * (4 * size + 1) + 4 * size ≤ (size + 4) ^ (size + 8) := by
  have square : 4 * size + 1 ≤ (size + 4) ^ 2 := by nlinarith
  have one : 4 * size ≤ (4 * size + 1) ^ (classes + 1) :=
    Nat.le_trans (Nat.le_succ _) (Nat.le_self_pow (Nat.succ_ne_zero _) _)
  calc 4 * size * (4 * size + 1) ^ classes * (4 * size + 1) + 4 * size
      = 4 * size * (4 * size + 1) ^ (classes + 1) + 4 * size := by
        rw [Nat.pow_succ, Nat.mul_assoc]
    _ ≤ 4 * size * (4 * size + 1) ^ (classes + 1) + (4 * size + 1) ^ (classes + 1) :=
        Nat.add_le_add_left one _
    _ = (4 * size + 1) ^ (classes + 2) := by ring
    _ ≤ ((size + 4) ^ 2) ^ (classes + 2) := Nat.pow_le_pow_left square _
    _ = (size + 4) ^ (2 * (classes + 2)) := by rw [← Nat.pow_mul]
    _ ≤ (size + 4) ^ (size + 8) := Nat.pow_le_pow_right (by omega) (by omega)

theorem allows_depthBound (session : Session) (expression : Expr) :
    Checker.Allows (session.limits expression) (session.depthBound expression)
      (session.budgetTotal expression) expression where
  toAdmits := session.admits_expression expression
  deep := by
    have spent : session.spendable session.wholeView.templates + expression.weight ≤
        4 * session.textSize expression := by
      have first := session.spendable_le
      have second := expression.weight_le
      unfold textSize
      omega
    have light : expression.weight ≤ 4 * session.textSize expression := by omega
    refine Nat.le_trans (Nat.add_le_add (Nat.mul_le_mul_right _ (Nat.mul_le_mul_right _ spent))
      light) ?_
    exact power_le (session.undeclared_le expression)

/-- **Checking ends**, for every expression in a live scope of a well-formed
session. -/
theorem WellFormed.typeOf_ends (wellFormed : session.WellFormed) (expression : Expr)
    {scope : ScopeId} (live : session.scopes.isLive scope = true) :
    ∃ outcome reached, session.typeOf expression scope = some (outcome, reached) := by
  obtain ⟨outcome, reached, run, _⟩ := (Checker.typeOf_terminating _ _).ends
    (session.allows_depthBound expression) live (wellFormed.ready expression)
  exact ⟨outcome, reached, run⟩

/-- **Checking a program ends**, in every well-formed session. -/
theorem WellFormed.typeOfProgram_ends (wellFormed : session.WellFormed) (program : Expr) :
    ∃ outcome reached, session.typeOfProgram program = some (outcome, reached) := by
  obtain ⟨outcome, reached, run, _⟩ := Checker.checkBody_ends (Checker.typeOf_terminating _ _)
    (session.allows_depthBound program) wellFormed.isLive_global (wellFormed.ready program)
  exact ⟨outcome, reached, run⟩

end Session

end TypedLisp
