import TypedLisp.Proofs.Declarations
import TypedLisp.Proofs.Relabelling
import TypedLisp.Proofs.Traces

/-!
# Programs and blocks

The items of a program are checked in the global scope itself, those of a block in a new
scope inside it, which is released afterwards. What a program overwrites in the global
scope, a block shadows, and the classes and generic functions of the items keep the one
scope or the other. None of this can be observed: on a session with nothing but the global
scope, which no type keeps, a program and the block of its items have the same outcome.

The two runs are checked side by side, with the scope of the block as the copy of the global
scope. It stands inside the global scope of the second session, which stays as it is.
-/

set_option autoImplicit false

namespace TypedLisp

/-- The copy of the global scope stands inside the global scope of the base. -/
def Scopes.Setting.inside (base : Scopes) : Scopes.Setting := ⟨base, [.global], False⟩

/-- When there is only the global scope, a new scope inside it is a copy of it: it shows
everything that is bound around it. -/
theorem Scopes.WellFormed.mirrors_push {scopes : Scopes} (wellFormed : scopes.WellFormed)
    (only : ∀ {id : ScopeId}, scopes.isLive id = true → id = .global) :
    Scopes.Mirrors (.inside scopes) (fun id => id) (fun _ => (scopes.push .global).1) scopes
      (scopes.push .global).2 where
  wellFormed := wellFormed
  wellFormed_copies := wellFormed.push wellFormed.isLive_global
  copied {id scope} found := by
    obtain rfl := only (Scopes.isLive_of_get? found)
    refine ⟨⟨.empty, some .global, false⟩, (Scopes.get?_push wellFormed _ _).trans (if_pos rfl),
      absurd rfl, absurd rfl, fun name => ?_⟩
    rw [Scopes.Setting.Shows, if_pos rfl, Option.map_id']
    have around : (Scopes.Setting.inside scopes).around? name = scopes.getLocal? .global name := by
      cases bound : scopes.getLocal? .global name <;>
        simp [Scopes.Setting.around?, Scopes.Setting.inside, bound]
    rw [around]
    simp [Scopes.getLocal?, found]
  injective first second _ := (only first).trans (only second).symm
  global := by
    obtain ⟨scope, found, orphan, _⟩ := wellFormed.global
    exact .outward ((Scopes.get?_push wellFormed _ _).trans (if_pos rfl)) rfl
      (.global (Scopes.get?_push_of_get? wellFormed _ found) orphan)
  outside _ among := wellFormed.push_ne_global _ (List.mem_singleton.1 among)
  around id among name := by
    obtain rfl := List.mem_singleton.1 among
    obtain ⟨scope, found, _⟩ := wellFormed.global
    simp [Scopes.getLocal?, Scopes.get?_push_of_get? wellFormed _ found, found,
      Scopes.Setting.inside]
  covered {id} live := by
    by_cases new : id = (scopes.push .global).1
    · exact .inl ⟨.global, wellFormed.isLive_global, new.symm⟩
    · rw [Scopes.isLive, Scopes.get?_push wellFormed, if_neg new] at live
      obtain rfl := only live
      obtain ⟨scope, found, _, pinned⟩ := wellFormed.global
      have kept := Scopes.get?_push_of_get? wellFormed .global found
      exact .inr ⟨⟨scope, found, pinned⟩, scope, kept, pinned⟩
  recycles := Scopes.recycles_push _ _

namespace Session

open Registry (relabelling relabelling_lawful)

variable {session : Session}

/-- A session and the same one after a block has been opened in its global scope. -/
def Flat.enclosed (flat : session.Flat) (event : Event) :
    Mirrored relabelling (.inside session.scopes) where
  left := session
  right := { session with events := event :: session.events }.opened .global
  onTypes id := id
  onScopes _ := session.next .global
  mirrors := by
    have wellFormed := flat.settled.wellFormed
    have unlabelled : session.types = session.types.relabel fun _ => session.next .global := by
      refine (Registry.relabel_id _).symm.trans (Registry.relabel_congr fun found keeps => ?_)
      cases (flat.captureless found).symm.trans keeps
    refine ⟨wellFormed, ⟨wellFormed.types, rfl, unlabelled⟩,
      wellFormed.scopes.mirrors_push flat.only, (List.map_id' _).symm, ?_, ?_, ?_⟩
    · simp [flat.settled.idle]
    · exact fun _ _ _ => trivial
    · intro id declared found
      cases flat.captureless found

/-- Types keep their handles when only those of scopes differ. -/
theorem onTypes_relabelling {setting : Scopes.Setting} (world : Mirrored relabelling setting) :
    world.onTypes = fun id => id :=
  world.mirrors.types.2.1

end Session

namespace Checker

/-- A block is checked in a new scope. -/
theorem runOn_typeOf_block (depth : Nat) (item : Expr) (items : List Expr) (scope : ScopeId)
    (session : Session) :
    (typeOf (depth + 1) (.list (.symbol "begin" :: item :: items)) scope).runOn session =
      ((sequence (typeOf depth) (item :: items) (session.next scope)).runOn
        (Session.opened { session with
          events := .visited (.list (.symbol "begin" :: item :: items)) :: session.events }
          scope)).map
        fun (outcome, reached) => (outcome, reached.closed (session.next scope)) := by
  rw [typeOf, runOn_checkExpr (Form.classify_block item items), checkForm,
    CheckM.runOn_inChild_opened]
  rfl

end Checker

namespace Session

open Registry (relabelling relabelling_lawful)

variable {session : Session}

/-- The items of a block and those of a program, checked to the same depth. -/
theorem Flat.sequence_alike (flat : session.Flat) (event : Event) (depth : Nat)
    (items : List Expr) :
    (mirroring relabelling (.inside session.scopes)).Alike (flat.enclosed event)
      (Checker.sequence (Checker.typeOf depth) items .global)
      (Checker.sequence (Checker.typeOf depth) items (session.next .global))
      (mirroring relabelling (.inside session.scopes)).Types := by
  have lawful := mirroring_lawful relabelling_lawful (.inside session.scopes)
  exact Checker.sequence_alike lawful (Checker.typeOf_alike lawful depth)
    (fun _ _ _ _ => trivial) ⟨flat.settled.wellFormed.isLive_global, rfl⟩

/-- **A program and the block of its items have the same outcome** on a session with nothing
but the global scope. The block ends, so its items end within the same depth in the global
scope, and hence within the greater depth that is allowed there. -/
theorem Flat.typeOfProgram_eq (flat : session.Flat) (item : Expr) (items : List Expr) :
    ∃ outcome reached other onScopes,
      session.typeOfProgram (.list (.symbol "begin" :: item :: items)) = some (outcome, reached) ∧
      session.typeOfGlobal (.list (.symbol "begin" :: item :: items)) = some (outcome, other) ∧
      other.types = reached.types.relabel onScopes := by
  obtain ⟨depth, bound⟩ : ∃ depth,
      session.depthBound (.list (.symbol "begin" :: item :: items)) = depth + 1 :=
    Nat.exists_eq_succ_of_ne_zero (Nat.pos_iff_ne_zero.1 (Nat.pow_pos (by omega)))
  obtain ⟨outcome, other, ends⟩ := flat.settled.wellFormed.typeOf_ends
    (.list (.symbol "begin" :: item :: items)) flat.settled.wellFormed.isLive_global
  have unfolded := ends
  rw [typeOf, bound, Checker.runOn_typeOf_block] at unfolded
  obtain ⟨⟨inner, reached⟩, ran, same⟩ := Option.map_eq_some_iff.1 unfolded
  obtain ⟨rfl, rfl⟩ := Prod.mk.inj same
  have deeper : ∀ {ended : Except Error TypeId × Session},
      (Checker.sequence (Checker.typeOf depth) (item :: items) .global).runOn session = some ended →
        session.typeOfProgram (.list (.symbol "begin" :: item :: items)) = some ended := by
    intro ended ran
    rw [typeOfProgram, bound]
    exact Checker.sequence_refines (Checker.typeOf_refines_succ depth) (item :: items) .global _ _
      ran
  have alike := flat.sequence_alike (.visited (.list (.symbol "begin" :: item :: items))) depth
    (item :: items)
  cases alike with
  | exhausted _ otherRun => cases otherRun.symm.trans ran
  | @ok later type copy run otherRun _ types =>
      obtain ⟨rfl, rfl⟩ := Prod.mk.inj (Option.some.inj (otherRun.symm.trans ran))
      have same : copy = type := types.same.trans (congrFun (onTypes_relabelling later) type)
      subst same
      exact ⟨_, _, _, later.onScopes, deeper run, ends, later.mirrors.types.2.2⟩
  | @error later error run otherRun _ =>
      obtain ⟨rfl, rfl⟩ := Prod.mk.inj (Option.some.inj (otherRun.symm.trans ran))
      exact ⟨_, _, _, later.onScopes, deeper run, ends, later.mirrors.types.2.2⟩
  | spared lenient _ => exact lenient.elim

/-- **Checking a program and checking it as a block agree** on a new session. Both end, with
the same type or with the same error, and the types that they have made are the same up to
the scopes that they keep. -/
theorem initial_program_eq_block (builtins : Bool) (item : Expr) (items : List Expr) :
    ∃ outcome reached other onScopes,
      (initial builtins).typeOfProgram (.list (.symbol "begin" :: item :: items)) =
        some (outcome, reached) ∧
      (initial builtins).typeOfGlobal (.list (.symbol "begin" :: item :: items)) =
        some (outcome, other) ∧
      other.types = reached.types.relabel onScopes :=
  (flat_initial builtins).typeOfProgram_eq item items

end Session

end TypedLisp
