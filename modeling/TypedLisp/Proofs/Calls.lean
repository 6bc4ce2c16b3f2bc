import TypedLisp.Proofs.Comparison
import TypedLisp.Session.Basic

/-!
# Calls and the comparison of function types

A call is accepted when every argument may be passed for its parameter
(`accepts_iff`): the parameter is the type `any` itself, or the argument fits it. So two
function types accept the same calls exactly if their parameters admit the same arguments,
one by one (`accepts_imp_iff`).

Comparison of function types compares the parameters in the same direction as the results.
A function type that fits another one therefore stands in for it in calls only if its
parameters are the same types, written out (`Reaches.substitutable_iff`): a function of
dogs fits the functions of animals, and then is called with an animal.

A call sees the arguments behind their aliases, and the parameters as well, except for the
type `any`: a parameter that is an alias of it is compared with the argument like every
other type, and no number fits it (`Reaches.calls_behind_aliases_iff`).
-/

set_option autoImplicit false

namespace TypedLisp.Registry

/-- A call of the type with these arguments has a result. -/
def Accepts (registry : Registry) (callee : TypeId) (arguments : List TypeId) : Prop :=
  ∀ construct, (registry.callResult callee arguments construct).isOk = true

/-- What may be passed for the first parameter may be passed for the second. -/
def Widens (registry : Registry) (parameter other : TypeId) : Prop :=
  ∀ argument, registry.admits argument parameter = true → registry.admits argument other = true

variable {registry built : Registry} {mayRefer : Ty → Ty → Prop}
  {callee other parameter given expected : TypeId} {signature otherSignature : FunctionType}
  {arguments : List TypeId}

theorem admits_iff {argument : TypeId} : registry.admits argument parameter = true ↔
    parameter = .any ∨ registry.fits argument parameter = true := by
  simp [admits]

theorem admits_self (registry : Registry) (parameter : TypeId) :
    registry.admits parameter parameter = true :=
  admits_iff.2 (.inr (registry.fits_refl parameter))

/-- The name of a construct is only for the report of a refused call. -/
theorem accepts_iff_isOk (construct : String) : registry.Accepts callee arguments ↔
    (registry.callResult callee arguments construct).isOk = true := by
  refine ⟨fun accepts => accepts construct, fun accepted another => ?_⟩
  rw [← accepted]
  unfold callResult
  split
  · rfl
  · split <;> rfl

instance : Decidable (registry.Accepts callee arguments) :=
  decidable_of_iff _ (accepts_iff_isOk "").symm

/-- **A call is accepted** when every argument may be passed for its parameter. -/
theorem accepts_iff (called : registry.function? callee = some signature) :
    registry.Accepts callee arguments ↔
      List.Forall₂ (fun argument parameter => registry.admits argument parameter = true)
        arguments signature.parameters := by
  rw [List.forall₂_iff_zip, accepts_iff_isOk "", callResult, called]
  by_cases arity : arguments.length = signature.parameters.length
  · simp only [arity, if_true, true_and]
    split
    · rename_i argument parameter refused
      have among := List.mem_of_find?_eq_some refused
      have refuses := List.find?_some refused
      refine iff_of_false (by simp [Except.isOk, Except.toBool]) fun each => ?_
      simp [each among] at refuses
    · rename_i refused
      refine iff_of_true rfl fun {argument parameter} among => ?_
      simpa using List.find?_eq_none.1 refused (argument, parameter) among
  · simp [arity, Except.isOk, Except.toBool]

/-- One function type accepts the calls of another one exactly if its parameters admit as
much, one by one. -/
theorem accepts_imp_iff (called : registry.function? callee = some signature)
    (calledOther : registry.function? other = some otherSignature) :
    (∀ arguments, registry.Accepts callee arguments → registry.Accepts other arguments) ↔
      List.Forall₂ registry.Widens signature.parameters otherSignature.parameters := by
  simp only [accepts_iff called, accepts_iff calledOther]
  exact List.forall₂_imp_iff registry.admits_self

/-! ## The type `any` -/

/-- Numbers do not fit the type `any`, which only calls treat in its own way. -/
theorem Lasts.number_not_fits_any (lasts : initial.Lasts registry) :
    registry.fits .number .any = false := by
  have number : registry.get? .number = some (.primitive .number) := lasts.types rfl
  have any : registry.get? .any = some (.primitive .any) := lasts.types rfl
  have apart : TypeId.number ≠ TypeId.any := by decide
  rw [fits, if_neg apart, number, any]

theorem Lasts.unalias_any (lasts : initial.Lasts registry) : registry.unalias .any = .any :=
  unalias_of_ne (lasts.types (show initial.get? .any = some (.primitive .any) from rfl)) nofun

/-- Among types that are the same behind their aliases, only `any` itself admits more. -/
theorem Sound.widens_iff_of_unalias_eq (sound : registry.Sound mayRefer)
    (lasts : initial.Lasts registry)
    (same : registry.unalias parameter = registry.unalias other) :
    registry.Widens parameter other ↔ (parameter = .any → other = .any) := by
  have sameFit : ∀ argument, registry.fits argument parameter = registry.fits argument other := by
    intro argument
    rw [sound.fits_unalias argument parameter, same, ← sound.fits_unalias]
  constructor
  · rintro widens rfl
    rcases admits_iff.1 (widens .number (admits_iff.2 (.inl rfl))) with isAny | fit
    · exact isAny
    · rw [← sameFit, lasts.number_not_fits_any] at fit
      cases fit
  · intro both argument admitted
    rcases admits_iff.1 admitted with isAny | fit
    · exact admits_iff.2 (.inl (both isAny))
    · exact admits_iff.2 (.inr (sameFit argument ▸ fit))

/-! ## Substitution of function types -/

namespace Unionless

/-- A function type that fits another one fits it part by part. -/
theorem forall₂_fits_parts (unionless : registry.Unionless)
    (called : registry.function? given = some signature)
    (calledOther : registry.function? expected = some otherSignature)
    (fit : registry.fits given expected = true) :
    List.Forall₂ (fun first second => registry.fits first second = true)
      (signature.result :: signature.parameters)
      (otherSignature.result :: otherSignature.parameters) := by
  rcases (unionless.fits_iff given expected).1 fit with
    same | ⟨one, other, left, right, parts⟩ | ⟨declared, parent, classed, _⟩
  · rw [function?_eq_some_iff] at called calledOther
    rw [same, calledOther] at called
    cases called
    exact List.forall₂_same.2 fun part _ => registry.fits_refl part
  · rw [called] at left
    rw [calledOther] at right
    cases left
    cases right
    exact parts
  · rw [function?_of_class? classed] at called
    cases called

/-- What the type `any` fits is an alias of it. -/
theorem unalias_eq_of_any_fits (unionless : registry.Unionless) (lasts : initial.Lasts registry)
    (fit : registry.fits .any expected = true) : registry.unalias expected = .any := by
  have any : registry.get? (registry.unalias .any) = some (.primitive .any) := by
    rw [lasts.unalias_any]
    exact lasts.types rfl
  rcases (unionless.fits_iff .any expected).1 fit with
    same | ⟨one, _, function, _⟩ | ⟨declared, _, classed, _⟩
  · rw [← same, lasts.unalias_any]
  · rw [function?_eq_some_iff, any] at function
    cases function
  · rw [class?_eq_some_iff, any] at classed
    cases classed

/-- A parameter that fits another one admits what that one does exactly if both are the
same type, written out, and it is `any` itself if the other one is. -/
theorem widens_iff (unionless : registry.Unionless) (lasts : initial.Lasts registry)
    (fit : registry.fits given expected = true) :
    registry.Widens expected given ↔
      registry.expand given = registry.expand expected ∧ (expected = .any → given = .any) := by
  constructor
  · intro widens
    constructor
    · rcases admits_iff.1 (widens expected (registry.admits_self expected)) with rfl | back
      · rw [← registry.expand_unalias expected, unionless.unalias_eq_of_any_fits lasts fit]
      · exact unionless.expand_eq_of_fits fit back
    · rintro rfl
      rcases admits_iff.1 (widens .number (admits_iff.2 (.inl rfl))) with isAny | number
      · exact isAny
      · have chain := unionless.fits_trans number fit
        rw [lasts.number_not_fits_any] at chain
        cases chain
  · rintro ⟨same, anyway⟩ argument admitted
    rcases admits_iff.1 admitted with isAny | fits
    · exact admits_iff.2 (.inl (anyway isAny))
    · have back := unionless.fits_of_expand_eq same.symm
      exact admits_iff.2 (.inr (unionless.fits_trans fits back))

end Unionless

/-- **When a function type stands in for another one.** A function type that fits another
one has a fitting result. It accepts every call that the other one does exactly if the
parameters are the same types, written out, and `any` itself stands where it is asked
for. -/
theorem Reaches.substitutable_iff (reaches : Reaches UnionlessCall initial built)
    (called : built.function? given = some signature)
    (calledOther : built.function? expected = some otherSignature)
    (fit : built.fits given expected = true) :
    built.fits signature.result otherSignature.result = true ∧
    ((∀ arguments, built.Accepts expected arguments → built.Accepts given arguments) ↔
      List.Forall₂ (fun own asked =>
          built.expand own = built.expand asked ∧ (asked = .any → own = .any))
        signature.parameters otherSignature.parameters) := by
  have unionless := reaches.unionless
  obtain ⟨_, lasts⟩ := (reaches.mono fun call => call.2).lasts sound_initial
  cases unionless.forall₂_fits_parts called calledOther fit with
  | cons result parameters =>
      refine ⟨result, ?_⟩
      rw [accepts_imp_iff calledOther called]
      constructor
      · intro widens
        exact parameters.mp (fun _ _ fits widens => (unionless.widens_iff lasts fits).1 widens)
          widens.flip
      · intro same
        exact (parameters.mp (fun _ _ fits same => (unionless.widens_iff lasts fits).2 same)
          same).flip

/-- Functions from another name for dogs to dogs stand in for functions from dogs to
animals. -/
theorem substitutable_renamed_parameter :
    ∃ built, Reaches UnionlessCall initial built ∧
      ["Animal", "Dog", "Pet", "Fn<Dog<Pet>>", "Fn<Animal<Dog>>"] =
        [4, 5, 6, 7, 8].map (fun index => built.name ⟨index⟩) ∧
      built.fits ⟨7⟩ ⟨8⟩ = true ∧ built.fits ⟨5⟩ ⟨4⟩ = true ∧
      ∀ arguments, built.Accepts ⟨8⟩ arguments → built.Accepts ⟨7⟩ arguments := by
  have animal : Reaches UnionlessCall initial _ :=
    .step (.declareClass "Animal" none ⟨1⟩) .refl ⟨trivial, nofun⟩
  have dog := animal.step (.declareClass "Dog" (some ⟨4⟩) ⟨2⟩)
    ⟨trivial, (inheritingCall_of_class? (by decide +kernel) "Dog" ⟨2⟩).1⟩
  have pet := dog.step (.declareAlias "Pet" "Dog") ⟨trivial, nofun⟩
  have ofPets := pet.step (.resolve "Fn<Dog<Pet>>") ⟨trivial, nofun⟩
  have ofDogs := ofPets.step (.resolve "Fn<Animal<Dog>>") ⟨trivial, nofun⟩
  obtain ⟨result, substitutable⟩ := ofDogs.substitutable_iff
    (show function? _ ⟨7⟩ = some ⟨"Fn<Dog<Pet>>", [⟨6⟩], ⟨5⟩⟩ by decide +kernel)
    (show function? _ ⟨8⟩ = some ⟨"Fn<Animal<Dog>>", [⟨5⟩], ⟨4⟩⟩ by decide +kernel)
    (by decide +kernel)
  refine ⟨_, ofDogs, by decide +kernel, by decide +kernel, result,
    substitutable.2 (.cons ⟨?_, nofun⟩ .nil)⟩
  exact ofDogs.unionless.expand_eq_of_fits (by decide +kernel) (by decide +kernel)

/-- A function of dogs fits the functions of animals, but does not accept an animal. -/
theorem substitutable_ancestor_refused :
    ∃ built, Reaches UnionlessCall initial built ∧ built.InheritsClasses ∧
      ["Animal", "Dog", "Fn<number<Dog>>", "Fn<number<Animal>>"] =
        [4, 5, 6, 7].map (fun index => built.name ⟨index⟩) ∧
      built.fits ⟨6⟩ ⟨7⟩ = true ∧ built.Accepts ⟨7⟩ [⟨4⟩] ∧ ¬ built.Accepts ⟨6⟩ [⟨4⟩] := by
  have animal : Reaches (fun registry operation => UnionlessCall registry operation ∧
      InheritingCall registry operation) initial _ :=
    .step (.declareClass "Animal" none ⟨1⟩) .refl ⟨⟨trivial, nofun⟩, nofun⟩
  have dog := animal.step (.declareClass "Dog" (some ⟨4⟩) ⟨2⟩)
    ((inheritingCall_of_class? (by decide +kernel) "Dog" ⟨2⟩).imp_left
      fun given => ⟨trivial, given⟩)
  have ofDogs := dog.step (.resolve "Fn<number<Dog>>") ⟨⟨trivial, nofun⟩, trivial⟩
  have ofAnimals := ofDogs.step (.resolve "Fn<number<Animal>>") ⟨⟨trivial, nofun⟩, trivial⟩
  refine ⟨_, ofAnimals.mono fun call => call.1,
    (ofAnimals.mono fun call => call.2).inheritsClasses inheritsClasses_initial,
    by decide +kernel, by decide +kernel, by decide +kernel, by decide +kernel⟩

/-! ## Calls behind aliases -/

theorem Sound.admits_unalias (sound : registry.Sound mayRefer) (argument parameter : TypeId) :
    registry.admits (registry.unalias argument) parameter = registry.admits argument parameter := by
  rw [admits, admits, sound.fits_unalias_left]

theorem Sound.accepts_unalias (sound : registry.Sound mayRefer)
    (called : registry.function? callee = some signature) :
    registry.Accepts callee (arguments.map registry.unalias) ↔
      registry.Accepts callee arguments := by
  rw [accepts_iff called, accepts_iff called, List.forall₂_map_left_iff]
  simp only [sound.admits_unalias]

/-- **When calls see through aliases.** Two function types whose parameters are the same
behind their aliases accept the same calls, of arguments that are the same behind their
aliases, exactly if `any` itself stands in the same places of both. -/
theorem Reaches.calls_behind_aliases_iff (reaches : Reaches GivenCall initial built)
    (called : built.function? callee = some signature)
    (calledOther : built.function? other = some otherSignature)
    (parameters : signature.parameters.map built.unalias =
      otherSignature.parameters.map built.unalias) :
    (∀ arguments others, arguments.map built.unalias = others.map built.unalias →
      (built.Accepts callee arguments ↔ built.Accepts other others)) ↔
    List.Forall₂ (fun parameter other => parameter = .any ↔ other = .any)
      signature.parameters otherSignature.parameters := by
  obtain ⟨sound, lasts⟩ := reaches.lasts sound_initial
  have same : List.Forall₂ (fun parameter other => built.unalias parameter = built.unalias other)
      signature.parameters otherSignature.parameters := by
    rwa [← List.forall₂_eq_eq_eq, List.forall₂_map_left_iff, List.forall₂_map_right_iff]
      at parameters
  constructor
  · intro agree
    have forwards := (accepts_imp_iff called calledOther).1
      fun arguments => (agree arguments arguments rfl).1
    have backwards := (accepts_imp_iff calledOther called).1
      fun arguments => (agree arguments arguments rfl).2
    have both := forwards.both_of_mem backwards fun _ _ _ _ => And.intro
    refine same.mp (fun parameter other same widens => ⟨?_, ?_⟩) both
    · exact (sound.widens_iff_of_unalias_eq lasts same).1 widens.1
    · exact (sound.widens_iff_of_unalias_eq lasts same.symm).1 widens.2
  · intro both arguments others equal
    have agree : built.Accepts callee others ↔ built.Accepts other others := by
      constructor
      · refine (accepts_imp_iff called calledOther).2
          (same.mp (fun _ _ same both => ?_) both) others
        exact (sound.widens_iff_of_unalias_eq lasts same).2 both.1
      · refine (accepts_imp_iff calledOther called).2
          (same.mp (fun _ _ same both => ?_) both).flip others
        exact (sound.widens_iff_of_unalias_eq lasts same.symm).2 both.2
    rw [← sound.accepts_unalias called, equal, sound.accepts_unalias called]
    exact agree

/-- A parameter may be declared with another name for the numbers, and so may an argument. -/
theorem calls_behind_aliases_index :
    ∃ built, Reaches GivenCall initial built ∧
      ["Index", "Fn<number<Index,any>>", "Fn<number<number,any>>"] =
        [4, 5, 6].map (fun index => built.name ⟨index⟩) ∧
      built.unalias ⟨4⟩ = .number ∧
      built.Accepts ⟨5⟩ [.number, .string] ∧ built.Accepts ⟨6⟩ [⟨4⟩, .string] := by
  have index : Reaches GivenCall initial _ := .step (.declareAlias "Index" "number") .refl nofun
  have renamed := index.step (.resolve "Fn<number<Index,any>>") nofun
  have plain := renamed.step (.resolve "Fn<number<number,any>>") nofun
  have agree := plain.calls_behind_aliases_iff
    (show function? _ ⟨5⟩ = some ⟨"Fn<number<Index,any>>", [⟨4⟩, .any], .number⟩ by decide +kernel)
    (show function? _ ⟨6⟩ = some ⟨"Fn<number<number,any>>", [.number, .any], .number⟩ by
      decide +kernel)
    (by decide +kernel)
  have places : List.Forall₂ (fun parameter other : TypeId => parameter = .any ↔ other = .any)
      [⟨4⟩, .any] [.number, .any] := .cons (by decide) (.cons Iff.rfl .nil)
  have same := agree.2 places [.number, .string] [⟨4⟩, .string] (by decide +kernel)
  refine ⟨_, plain, by decide +kernel, by decide +kernel, ?accepted, same.1 ?accepted⟩
  decide +kernel

/-- A parameter that is declared with another name for `any` admits no number. -/
theorem calls_behind_aliases_renamed_any :
    ∃ built, Reaches GivenCall initial built ∧
      ["Whatever", "Fn<number<any>>", "Fn<number<Whatever>>"] =
        [4, 5, 6].map (fun index => built.name ⟨index⟩) ∧
      built.unalias ⟨4⟩ = built.unalias .any ∧
      built.Accepts ⟨5⟩ [.number] ∧ ¬ built.Accepts ⟨6⟩ [.number] := by
  have whatever : Reaches GivenCall initial _ := .step (.declareAlias "Whatever" "any") .refl nofun
  have plain := whatever.step (.resolve "Fn<number<any>>") nofun
  have renamed := plain.step (.resolve "Fn<number<Whatever>>") nofun
  exact ⟨_, renamed, by decide +kernel, by decide +kernel, by decide +kernel, by decide +kernel⟩

end TypedLisp.Registry
