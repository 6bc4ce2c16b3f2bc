import TypedLisp.Checker.Basic

/-!
# Depth of checking

How deep checking may go decides only whether there is an outcome, not which
one: a run that ends within some depth ends in the same way within any greater
depth (`typeOf_refines_of_le`).

One step refines another when it has the same outcome wherever the other has
one. Every rule keeps this relation when the checking of smaller expressions is
refined, and the statement follows by induction on the depth.
-/

set_option autoImplicit false

namespace TypedLisp

namespace CheckM

variable {α β : Type}

/-- The second step has the outcomes of the first, and maybe more. -/
def Refines (step finer : CheckM α) : Prop :=
  ∀ session reached, step.runOn session = some reached → finer.runOn session = some reached

namespace Refines

theorem refl (step : CheckM α) : Refines step step := fun _ _ run => run

theorem trans {first second third : CheckM α} (left : Refines first second)
    (right : Refines second third) : Refines first third :=
  fun session reached run => right session reached (left session reached run)

theorem bind {step finer : CheckM α} {next finerNext : α → CheckM β} (first : Refines step finer)
    (rest : ∀ value, Refines (next value) (finerNext value)) :
    Refines (step >>= next) (finer >>= finerNext) := by
  intro session reached run
  rw [runOn_bind] at run ⊢
  obtain ⟨⟨outcome, middle⟩, ran, followed⟩ := Option.bind_eq_some_iff.1 run
  rw [first session _ ran]
  cases outcome with
  | ok value => exact rest value middle reached followed
  | error error => exact followed

theorem attempt {step finer : CheckM α} (refines : Refines step finer) :
    Refines (attempt step) (attempt finer) := by
  intro session reached run
  rw [runOn_attempt] at run ⊢
  obtain ⟨ended, ran, same⟩ := Option.map_eq_some_iff.1 run
  rw [refines session _ ran, ← same]
  rfl

theorem undoing {step finer : CheckM α} (refines : Refines step finer)
    (undo : Session → Session) : Refines (undoing step undo) (undoing finer undo) :=
  bind (attempt refines) fun _ => refl _

theorem inChild {parent : ScopeId} {step finer : ScopeId → CheckM α}
    (refines : ∀ scope, Refines (step scope) (finer scope)) :
    Refines (inChild parent step) (inChild parent finer) :=
  bind (refl _) fun scope => bind (attempt (refines scope)) fun _ => refl _

theorem mapM {items : List α} {step finer : α → CheckM β}
    (refines : ∀ item, Refines (step item) (finer item)) :
    Refines (items.mapM step) (items.mapM finer) := by
  induction items with
  | nil => exact refl _
  | cons item items ih =>
      simp only [List.mapM_cons]
      exact bind (refines item) fun _ => bind ih fun _ => refl _

end Refines

end CheckM

namespace Checker

open CheckM

variable {visit finer : Expr → ScopeId → CheckM TypeId}

/-! ## The rules keep refinement -/

theorem sequence_refines (refines : ∀ item scope, Refines (visit item scope) (finer item scope))
    (items : List Expr) (scope : ScopeId) :
    Refines (sequence visit items scope) (sequence finer items scope) := by
  fun_induction sequence visit items scope with
  | case1 => exact .refl _
  | case2 => exact refines _ _
  | case3 item next items scope ih => exact .bind (refines _ _) fun _ => ih

theorem checkBody_refines (refines : ∀ item scope, Refines (visit item scope) (finer item scope))
    (body : Expr) (scope : ScopeId) :
    Refines (checkBody visit body scope) (checkBody finer body scope) := by
  unfold checkBody
  split
  · exact sequence_refines refines _ _
  · exact refines _ _

theorem checkFunction_refines
    (refines : ∀ item scope, Refines (visit item scope) (finer item scope))
    (parameters : List (String × TypeId)) (result : TypeId) (body : Expr) (scope : ScopeId)
    (expression : Expr) :
    Refines (checkFunction visit parameters result body scope expression)
      (checkFunction finer parameters result body scope expression) :=
  .bind (.inChild fun _ => .bind (.refl _) fun _ => checkBody_refines refines _ _) fun _ => .refl _

theorem instantiate_refines
    (refines : ∀ item scope, Refines (visit item scope) (finer item scope))
    (generic : TypeId) (typeArguments : List String) (callee expression : Expr) :
    Refines (instantiate visit generic typeArguments callee expression)
      (instantiate finer generic typeArguments callee expression) := by
  refine .bind (.refl _) fun session => ?_
  split
  · exact .refl _
  · split
    · refine .bind (.refl _) fun _ => .bind (.refl _) fun _ => .bind (.refl _) fun _ =>
        .bind (.refl _) fun _ => ?_
      split
      · exact .refl _
      · exact .bind (.refl _) fun _ =>
          .bind (.attempt (checkFunction_refines refines _ _ _ _ _)) fun _ => .refl _
    · exact .refl _

theorem checkForm_refines (refines : ∀ item scope, Refines (visit item scope) (finer item scope))
    (form : Form) (scope : ScopeId) (expression : Expr) :
    Refines (checkForm visit form scope expression) (checkForm finer form scope expression) := by
  cases form with
  | literal => exact .refl _
  | arithmetic => exact .bind (refines _ _) fun _ => .bind (refines _ _) fun _ => .refl _
  | comparison => exact .bind (refines _ _) fun _ => .bind (refines _ _) fun _ => .refl _
  | typeDecl => exact .refl _
  | classDecl =>
      exact .bind (.refl _) fun _ => .bind (.refl _) fun _ => .bind (.refl _) fun _ =>
        .bind (.refl _) fun _ => .bind (.refl _) fun _ => .bind (.refl _) fun _ =>
        .bind (.refl _) fun _ => .bind (.undoing (checkBody_refines refines _ _) _) fun _ =>
        .refl _
  | construct =>
      exact .bind (.refl _) fun _ => .bind (.mapM fun _ => refines _ _) fun _ => .refl _
  | super => exact .refl _
  | property => exact .bind (refines _ _) fun _ => .refl _
  | varDecl => exact .bind (refines _ _) fun _ => .refl _
  | identifier => exact .refl _
  | assign target =>
      refine .bind ?_ fun _ => .bind (refines _ _) fun _ => .refl _
      cases target with
      | name => exact .refl _
      | property => exact .bind (refines _ _) fun _ => .refl _
  | block => exact .inChild fun _ => sequence_refines refines _ _
  | branch _ narrowing =>
      refine .bind (.bind (refines _ _) fun _ => .refl _) fun _ => .bind ?_ fun _ =>
        .bind (refines _ _) fun _ => .refl _
      cases narrowing with
      | none => exact refines _ _
      | some =>
          exact .bind (.refl _) fun _ => .inChild fun _ => .bind (.refl _) fun _ => refines _ _
  | loop => exact .bind (.bind (refines _ _) fun _ => .refl _) fun _ => refines _ _
  | functionDecl =>
      exact .bind (.refl _) fun _ => .bind (.refl _) fun _ => .undoing (refines _ _) _
  | lambda signature =>
      simp only [checkForm, checkLambda]
      split
      · exact .refl _
      · exact .bind (.refl _) fun _ => .bind (.refl _) fun _ =>
          checkFunction_refines refines _ _ _ _ _
  | typeOf => exact .bind (refines _ _) fun _ => .refl _
  | call _ typeArguments =>
      refine .bind (refines _ _) fun _ => .bind ?_ fun _ =>
        .bind (.mapM fun _ => refines _ _) fun _ => .refl _
      cases typeArguments with
      | none => exact .refl _
      | some => exact instantiate_refines refines _ _ _ _

theorem checkExpr_refines (refines : ∀ item scope, Refines (visit item scope) (finer item scope))
    (expression : Expr) (scope : ScopeId) :
    Refines (checkExpr visit expression scope) (checkExpr finer expression scope) :=
  .bind (.refl _) fun _ => .bind (.refl _) fun _ => checkForm_refines refines _ _ _

/-! ## More depth keeps every outcome -/

theorem typeOf_refines_succ (depth : Nat) (expression : Expr) (scope : ScopeId) :
    Refines (typeOf depth expression scope) (typeOf (depth + 1) expression scope) := by
  induction depth generalizing expression scope with
  | zero =>
      intro session reached run
      rw [typeOf, runOn_exhausted] at run
      cases run
  | succ depth ih => exact checkExpr_refines ih expression scope

/-- An outcome within some depth is the outcome within every greater depth. -/
theorem typeOf_refines_of_le {depth greater : Nat} (le : depth ≤ greater) (expression : Expr)
    (scope : ScopeId) :
    Refines (typeOf depth expression scope) (typeOf greater expression scope) := by
  induction le with
  | refl => exact .refl _
  | step _ ih => exact ih.trans (typeOf_refines_succ _ expression scope)

end Checker

end TypedLisp
