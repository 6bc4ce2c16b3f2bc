import TypedLisp.Proofs.Inheritance
import TypedLisp.Proofs.Ordering
import TypedLisp.Proofs.Representation

/-!
# Comparison behind aliases and below ancestors

These are laws of comparison that hold with choices of types as well.

Comparison sees types behind their aliases only: it gives the same answer for two types and
for the ends of their chains of aliases (`Reaches.fits_behind_aliases`).

A class is accepted wherever an ancestor of it is, also inside choices of types that are
nested in each other and behind aliases (`descendants_fit`). This needs every superclass to
be a class. Comparison tries the members of a choice of types before it climbs to the
superclass, so the superclass has to be looked up inside the choice too, and there a choice
of types as a superclass would be compared as a whole.
-/

set_option autoImplicit false

namespace TypedLisp.Registry

variable {registry built : Registry} {mayRefer : Ty → Ty → Prop}
  {id given expected descendant ancestor : TypeId}

/-! ## Behind aliases -/

/-- The first type is another name for the second. -/
def Renames (registry : Registry) (id parent : TypeId) : Prop :=
  ∃ name, registry.get? id = some (.alias name parent)

theorem renames_unalias (registry : Registry) (id : TypeId) :
    Relation.ReflTransGen registry.Renames id (registry.unalias id) := by
  fun_induction unalias registry id with
  | case1 id name parent found smaller ih => exact ih.head ⟨name, found⟩
  | case2 => exact .refl
  | case3 => exact .refl

/-- **Comparison sees through aliases.** Two types compare like the ends of their chains of
aliases, which are not aliases themselves. -/
theorem Reaches.fits_behind_aliases (reaches : Reaches GivenCall initial built) :
    (∀ given expected, built.fits given expected =
      built.fits (built.unalias given) (built.unalias expected)) ∧
    ∀ id, Relation.ReflTransGen built.Renames id (built.unalias id) ∧
      ∀ parent, ¬ built.Renames (built.unalias id) parent := by
  obtain ⟨sound, _⟩ := reaches.lasts sound_initial
  refine ⟨sound.fits_unalias, fun id => ⟨built.renames_unalias id, ?_⟩⟩
  rintro parent ⟨name, found⟩
  exact sound.unalias_ne_alias id name parent found

/-- A chain of two names for the name that another chain goes through as well. -/
theorem fits_behind_aliases_overlapping :
    ∃ built, Reaches GivenCall initial built ∧
      ["Int", "Id", "Key", "Count"] = [4, 5, 6, 7].map (fun index => built.name ⟨index⟩) ∧
      built.fits ⟨6⟩ ⟨4⟩ = true ∧ built.fits ⟨4⟩ ⟨6⟩ = true ∧ built.fits ⟨7⟩ ⟨5⟩ = true ∧
      built.fits ⟨7⟩ .string = false ∧ ∀ parent, ¬ built.Renames (built.unalias ⟨6⟩) parent := by
  have int : Reaches GivenCall initial _ := .step (.declareAlias "Int" "number") .refl nofun
  have key := (int.step (.declareAlias "Id" "Int") nofun).step (.declareAlias "Key" "Id") nofun
  have count := key.step (.declareAlias "Count" "Int") nofun
  obtain ⟨same, ends⟩ := count.fits_behind_aliases
  exact ⟨_, count, by decide +kernel, (same ⟨6⟩ ⟨4⟩).trans (by decide +kernel),
    (same ⟨4⟩ ⟨6⟩).trans (by decide +kernel), (same ⟨7⟩ ⟨5⟩).trans (by decide +kernel),
    (same ⟨7⟩ .string).trans (by decide +kernel), (ends ⟨6⟩).2⟩

/-! ## Below ancestors -/

namespace Sound

/-- The members of a choice of types are earlier types. -/
theorem index_lt_of_members? (sound : registry.Sound mayRefer) {members : List TypeId}
    (found : registry.members? id = some members) {member : TypeId} (among : member ∈ members) :
    member.index < id.index := by
  obtain ⟨name, there⟩ := members?_eq_some_iff.1 found
  exact Nat.lt_of_lt_of_le (sound.found_reference there among).1 (registry.index_unalias_le id)

/-- **A class is accepted wherever its superclass is,** if that is a class. -/
theorem fits_of_superclass (sound : registry.Sound mayRefer) {declared above : ClassType}
    {parent : TypeId} (classed : registry.class? given = some declared)
    (superclass : declared.superclass = some parent)
    (classedAbove : registry.class? parent = some above)
    (fit : registry.fits parent expected = true) : registry.fits given expected = true := by
  -- By induction on the expected type, whose members are earlier types.
  induction size : expected.index using Nat.strong_induction_on generalizing expected with
  | _ size ih =>
      subst size
      apply (sound.fits_iff_of_class? classed expected).2
      cases choice : registry.members? expected with
      | none => exact .inr (.inr ⟨rfl, parent, superclass, fit⟩)
      | some members =>
          rcases (sound.fits_iff_of_class? classedAbove expected).1 fit with
            same | ⟨others, found, member, among, fits⟩ | ⟨found, _⟩
          · -- a class is no choice of types
            obtain ⟨name, found⟩ := members?_eq_some_iff.1 choice
            rw [← same, get?_of_class? classedAbove] at found
            cases found
          · obtain rfl := Option.some.inj (choice.symm.trans found)
            have earlier := sound.index_lt_of_members? choice among
            exact .inr (.inl ⟨members, rfl, member, among, ih _ earlier fits rfl⟩)
          · rw [choice] at found
            cases found

end Sound

theorem InheritsClasses.class?_superclass (inherits : registry.InheritsClasses)
    {declared : ClassType} {parent : TypeId} (classed : registry.class? id = some declared)
    (superclass : declared.superclass = some parent) :
    ∃ above, registry.class? parent = some above :=
  Option.isSome_iff_exists.1 (inherits _ declared parent (get?_of_class? classed) superclass)

theorem InheritsClasses.fits_of_extends (inherits : registry.InheritsClasses)
    (sound : registry.Sound mayRefer) (below : registry.Extends descendant ancestor)
    (fit : registry.fits ancestor expected = true) :
    registry.fits descendant expected = true := by
  induction below with
  | superclass classed superclass =>
      obtain ⟨above, classedAbove⟩ := inherits.class?_superclass classed superclass
      exact sound.fits_of_superclass classed superclass classedAbove fit
  | ancestor classed superclass _ ih =>
      obtain ⟨above, classedAbove⟩ := inherits.class?_superclass classed superclass
      exact sound.fits_of_superclass classed superclass classedAbove (ih fit)

/-- A class is accepted wherever an ancestor of it is. -/
def AcceptsDescendants (registry : Registry) : Prop :=
  ∀ descendant ancestor expected, registry.Extends descendant ancestor →
    registry.fits ancestor expected = true → registry.fits descendant expected = true

/-- **A class is accepted wherever an ancestor of it is,** in every registry whose
superclasses are classes. The types of every session are such a registry. -/
theorem descendants_fit :
    (∀ built, Reaches GivenCall initial built → built.InheritsClasses →
      built.AcceptsDescendants) ∧
    ∀ session : Session, session.Reachable →
      session.types.InheritsClasses ∧ session.types.AcceptsDescendants := by
  constructor
  · intro built reaches inherits descendant ancestor expected below fit
    exact inherits.fits_of_extends (reaches.lasts sound_initial).1 below fit
  · intro session reachable
    refine ⟨reachable.inheritsClasses, fun descendant ancestor expected below fit => ?_⟩
    exact reachable.inheritsClasses.fits_of_extends reachable.wellFormed.types below fit

/-- A puppy is a dog, dogs are declared over another name for animals, and animals are
among the members of a choice of types inside another one. -/
theorem descendants_fit_nested_union :
    ∃ built, Reaches GivenCall initial built ∧ built.InheritsClasses ∧
      ["Animal", "Beast", "Dog", "Puppy", "Tame", "Owned"] =
        [4, 5, 6, 7, 8, 9].map (fun index => built.name ⟨index⟩) ∧
      built.members? ⟨9⟩ = some [.number, ⟨8⟩] ∧ built.members? ⟨8⟩ = some [.string, ⟨5⟩] ∧
      built.fits ⟨5⟩ ⟨9⟩ = true ∧ built.fits ⟨7⟩ ⟨9⟩ = true := by
  have animal : Reaches (fun registry operation => GivenCall registry operation ∧
      InheritingCall registry operation) initial _ :=
    .step (.declareClass "Animal" none ⟨1⟩) .refl ⟨nofun, nofun⟩
  have beast := animal.step (.declareAlias "Beast" "Animal") ⟨nofun, trivial⟩
  have dog := beast.step (.declareClass "Dog" (some ⟨5⟩) ⟨2⟩)
    (inheritingCall_of_class? (by decide +kernel) "Dog" ⟨2⟩)
  have puppy := dog.step (.declareClass "Puppy" (some ⟨6⟩) ⟨3⟩)
    (inheritingCall_of_class? (by decide +kernel) "Puppy" ⟨3⟩)
  have tame := puppy.step (.declareUnion "Tame" ["string", "Beast"]) ⟨nofun, trivial⟩
  have owned := tame.step (.declareUnion "Owned" ["number", "Tame"]) ⟨nofun, trivial⟩
  have reaches := owned.mono fun call => call.1
  have inherits := (owned.mono fun call => call.2).inheritsClasses inheritsClasses_initial
  refine ⟨_, reaches, inherits, by decide +kernel, by decide +kernel, by decide +kernel,
    by decide +kernel, ?_⟩
  refine descendants_fit.1 _ reaches inherits ⟨7⟩ ⟨5⟩ ⟨9⟩ ?_ (by decide +kernel)
  exact .ancestor (show _ = some ⟨"Puppy", some ⟨6⟩, ⟨3⟩⟩ by decide +kernel) rfl
    (.superclass (show _ = some ⟨"Dog", some ⟨5⟩, ⟨2⟩⟩ by decide +kernel) rfl)

end TypedLisp.Registry
