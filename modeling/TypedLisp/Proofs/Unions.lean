import TypedLisp.Proofs.Calls

/-!
# Comparison with choices of types

A choice of types is compared by its members. It is enough that one member compares with a
type that is no choice, on either side (`Sound.fits_of_choice_left`,
`Sound.fits_of_choice_right`). Two choices must include the members of each other
(`Sound.fits_of_choices`).

So the two sides of a comparison only differ in the climb to a superclass, and comparison is
symmetric where no class has one (`fits_symmetric`).

A member may stand where the choice is expected if it is no choice itself. A member that is
a choice is refused: the outer choice includes it, so it would have to include itself, and
its own members are earlier types (`Reaches.member_fits_iff`).
-/

set_option autoImplicit false

namespace TypedLisp.Registry

variable {registry built : Registry} {mayRefer : Ty → Ty → Prop}
  {id given expected union member : TypeId} {members others : List TypeId}

theorem members?_of_unalias_eq (same : registry.unalias given = registry.unalias expected) :
    registry.members? given = registry.members? expected := by
  rw [members?, members?, same]

theorem unalias_ne_of_members? (choice : registry.members? given = some members)
    (noChoice : registry.members? expected = none) :
    registry.unalias given ≠ registry.unalias expected := by
  intro same
  rw [members?_of_unalias_eq same, noChoice] at choice
  cases choice

theorem isUnion_eq_false_iff : registry.isUnion id = false ↔ registry.members? id = none := by
  rw [isUnion, Option.isSome_eq_false_iff, Option.isNone_iff_eq_none]

theorem includesAll_iff (choice : registry.members? union = some members) :
    registry.includesAll union others = true ↔ ∀ member ∈ members,
      ∃ candidate ∈ others, registry.unalias candidate = registry.unalias member := by
  simp [includesAll, choice]

namespace Sound

/-! ## One choice or two -/

/-- **A choice of types compares like one of its members** with a type that is no choice. -/
theorem fits_of_choice_left (sound : registry.Sound mayRefer)
    (choice : registry.members? given = some members)
    (noChoice : registry.members? expected = none) :
    registry.fits given expected = members.any fun member => registry.fits member expected := by
  obtain ⟨name, found⟩ := members?_eq_some_iff.1 choice
  have apart := unalias_ne_of_members? choice noChoice
  rw [sound.fits_unalias]
  cases there : registry.get? (registry.unalias expected) with
  | none =>
      rw [fits, if_neg apart, found, there]
      refine List.any_congr_of_mem fun member among => ?_
      rw [dif_pos (sound.found_reference found among).1, sound.fits_unalias_right]
  | some type =>
      rw [sound.fits_eq found there, if_neg apart]
      cases type with
      | «alias» name parent => exact absurd there (sound.unalias_ne_alias expected name parent)
      | union name others => exact absurd there (members?_eq_none_iff.1 noChoice name others)
      | _ => simp only [fitsStep, sound.fits_unalias_right]

/-- **A type that is no choice compares with a choice** like with one of its members. -/
theorem fits_of_choice_right (sound : registry.Sound mayRefer)
    (noChoice : registry.members? given = none)
    (choice : registry.members? expected = some members) :
    registry.fits given expected = members.any fun member => registry.fits given member := by
  obtain ⟨name, found⟩ := members?_eq_some_iff.1 choice
  have apart := (unalias_ne_of_members? choice noChoice).symm
  rw [sound.fits_unalias]
  cases there : registry.get? (registry.unalias given) with
  | none =>
      rw [fits, if_neg apart, found, there]
      refine List.any_congr_of_mem fun member among => ?_
      rw [dif_pos (sound.found_reference found among).1, sound.fits_unalias_left]
  | some type =>
      rw [sound.fits_eq there found, if_neg apart]
      cases type with
      | «alias» name parent => exact absurd there (sound.unalias_ne_alias given name parent)
      | union name others => exact absurd there (members?_eq_none_iff.1 noChoice name others)
      | _ => simp only [fitsStep, sound.fits_unalias_left]

/-- **Two choices of types compare** if they are the same or include the members of each
other. -/
theorem fits_of_choices (sound : registry.Sound mayRefer)
    (choice : registry.members? given = some members)
    (choiceExpected : registry.members? expected = some others) :
    registry.fits given expected = true ↔
      registry.unalias given = registry.unalias expected ∨
      registry.includesAll given others = true ∧ registry.includesAll expected members = true := by
  obtain ⟨name, found⟩ := members?_eq_some_iff.1 choice
  obtain ⟨other, foundExpected⟩ := members?_eq_some_iff.1 choiceExpected
  have behind : ∀ id candidates, registry.includesAll (registry.unalias id) candidates =
      registry.includesAll id candidates := by
    intro id candidates
    rw [includesAll, includesAll, members?_of_unalias_eq (sound.unalias_unalias id)]
  rw [sound.fits_unalias, sound.fits_eq found foundExpected]
  by_cases same : registry.unalias given = registry.unalias expected
  · simp [same]
  · simp [same, fitsStep, behind]

end Sound

/-! ## Symmetry -/

/-- No class has a superclass. -/
def HasNoSuperclass (registry : Registry) : Prop :=
  ∀ id declared, registry.get? id = some (.nominal declared) → declared.superclass = none

/-- Classes and generic functions are what keeps a scope, and only classes among them refer
to another type. -/
theorem hasNoSuperclass_iff : registry.HasNoSuperclass ↔
    ∀ type ∈ registry.types.toList, type.scope?.isSome → type.references = [] := by
  constructor
  · intro flat type among keeps
    obtain ⟨index, found⟩ := List.mem_iff_getElem?.1 among
    rw [Array.getElem?_toList] at found
    cases type with
    | nominal declared => exact Option.toList_eq_nil_iff.2 (flat ⟨index⟩ declared found)
    | generic template => rfl
    | _ => cases keeps
  · intro each id declared found
    have among := List.mem_of_getElem? (Array.getElem?_toList.trans found)
    exact Option.toList_eq_nil_iff.1 (each (.nominal declared) among rfl)

instance : Decidable registry.HasNoSuperclass := decidable_of_iff _ hasNoSuperclass_iff.symm

theorem Sound.fits_symm (sound : registry.Sound mayRefer) (flat : registry.HasNoSuperclass)
    (fit : registry.fits given expected = true) : registry.fits expected given = true := by
  induction size : given.index + expected.index using Nat.strong_induction_on
    generalizing given expected with
  | _ size ih =>
      subst size
      cases choice : registry.members? given with
      | none =>
          cases choiceExpected : registry.members? expected with
          | none =>
              apply (sound.fits_iff_of_no_choice choiceExpected choice).2
              rcases (sound.fits_iff_of_no_choice choice choiceExpected).1 fit with
                same | ⟨one, other, function, functionExpected, parts⟩ |
                  ⟨declared, parent, classed, superclass, _⟩
              · exact .inl same.symm
              · refine .inr (.inl ⟨other, one, functionExpected, function, ?_⟩)
                -- The parts of both function types are earlier types.
                obtain ⟨lengths, pairs⟩ := List.forall₂_iff_zip.1 parts
                refine (List.forall₂_iff_zip.2 ⟨lengths, fun paired => ?_⟩).flip
                obtain ⟨among, amongExpected⟩ := List.of_mem_zip paired
                have smaller := sound.index_lt_of_function? function among
                have smallerExpected := sound.index_lt_of_function? functionExpected amongExpected
                exact ih _ (by omega) (pairs paired) rfl
              · rw [flat _ _ (get?_of_class? classed)] at superclass
                cases superclass
          | some others =>
              rw [sound.fits_of_choice_right choice choiceExpected, List.any_eq_true] at fit
              obtain ⟨member, among, fits⟩ := fit
              have smaller := sound.index_lt_of_members? choiceExpected among
              rw [sound.fits_of_choice_left choiceExpected choice, List.any_eq_true]
              exact ⟨member, among, ih _ (by omega) fits rfl⟩
      | some members =>
          cases choiceExpected : registry.members? expected with
          | none =>
              rw [sound.fits_of_choice_left choice choiceExpected, List.any_eq_true] at fit
              obtain ⟨member, among, fits⟩ := fit
              have smaller := sound.index_lt_of_members? choice among
              rw [sound.fits_of_choice_right choiceExpected choice, List.any_eq_true]
              exact ⟨member, among, ih _ (by omega) fits rfl⟩
          | some others =>
              rw [sound.fits_of_choices choice choiceExpected] at fit
              rw [sound.fits_of_choices choiceExpected choice]
              exact fit.imp Eq.symm And.symm

theorem Sound.fits_comm (sound : registry.Sound mayRefer) (flat : registry.HasNoSuperclass)
    (given expected : TypeId) : registry.fits given expected = registry.fits expected given :=
  Bool.eq_iff_iff.2 ⟨sound.fits_symm flat, sound.fits_symm flat⟩

/-- **Comparison is symmetric** where no class has a superclass, in every registry and in
every session. -/
theorem fits_symmetric :
    (∀ built, Reaches GivenCall initial built → built.HasNoSuperclass →
      ∀ given expected, built.fits given expected = built.fits expected given) ∧
    ∀ session : Session, session.Reachable → session.types.HasNoSuperclass →
      ∀ given expected, session.types.fits given expected = session.types.fits expected given := by
  constructor
  · intro built reaches flat
    exact (reaches.lasts sound_initial).1.fits_comm flat
  · intro session reachable flat
    exact reachable.wellFormed.types.fits_comm flat

/-- A function of animals fits a choice of types that has the functions of pets among its
members, where animals are one kind of pets; and the other way round. -/
theorem fits_symmetric_nested :
    ∃ built, Reaches GivenCall initial built ∧ built.HasNoSuperclass ∧
      ["Animal", "Tame", "Pet", "Fn<number<Pet>>", "Known", "<K>Fn<K<K>>", "Fn<number<Animal>>"] =
        [4, 5, 6, 7, 8, 9, 10].map (fun index => built.name ⟨index⟩) ∧
      built.members? ⟨8⟩ = some [.number, ⟨7⟩] ∧ built.members? ⟨6⟩ = some [.string, ⟨4⟩] ∧
      built.fits ⟨10⟩ ⟨8⟩ = true ∧ built.fits ⟨8⟩ ⟨10⟩ = true := by
  have animal : Reaches GivenCall initial _ :=
    .step (.declareClass "Animal" none ⟨1⟩) .refl nofun
  have tame := animal.step (.declareUnion "Tame" ["string", "Animal"]) nofun
  have pet := tame.step (.declareAlias "Pet" "Tame") nofun
  have known := pet.step (.declareUnion "Known" ["number", "Fn<number<Pet>>"]) nofun
  have generic := known.step (.addTemplate ⟨["K"], [("x", "K")], "K", .symbol "x", ⟨1⟩⟩) nofun
  have ofAnimals := generic.step (.resolve "Fn<number<Animal>>") nofun
  refine ⟨_, ofAnimals, by decide +kernel, by decide +kernel, by decide +kernel,
    by decide +kernel, by decide +kernel, ?_⟩
  exact (fits_symmetric.1 _ ofAnimals (by decide +kernel) ⟨8⟩ ⟨10⟩).trans (by decide +kernel)

/-! ## Members of a choice -/

/-- The members of a choice are earlier types. -/
theorem Sound.unalias_member_ne (sound : registry.Sound mayRefer)
    (choice : registry.members? union = some members) (among : member ∈ members) :
    registry.unalias member ≠ registry.unalias union := by
  intro same
  obtain ⟨name, found⟩ := members?_eq_some_iff.1 choice
  have earlier := (sound.found_reference found among).1
  have behind := registry.index_unalias_le member
  rw [same] at behind
  omega

/-- A choice of types does not fit where another one of which it is a member is expected. -/
theorem Sound.not_fits_of_member_choice (sound : registry.Sound mayRefer)
    (choice : registry.members? union = some members) (among : member ∈ members)
    (inner : registry.members? member = some others) : registry.fits member union = false := by
  rw [Bool.eq_false_iff]
  intro fit
  rcases (sound.fits_of_choices inner choice).1 fit with same | ⟨_, includes⟩
  · exact sound.unalias_member_ne choice among same
  · -- The outer choice has the inner one as a member, so the inner one would have to have
    -- itself.
    obtain ⟨candidate, amongOthers, same⟩ := (includesAll_iff choice).1 includes member among
    exact sound.unalias_member_ne inner amongOthers same

theorem Sound.member_fits_iff_isUnion (sound : registry.Sound mayRefer)
    (choice : registry.members? union = some members) (among : member ∈ members) :
    registry.fits member union = true ↔ registry.isUnion member = false := by
  rw [isUnion_eq_false_iff]
  cases inner : registry.members? member with
  | none =>
      refine iff_of_true ?_ rfl
      rw [sound.fits_of_choice_right inner choice, List.any_eq_true]
      exact ⟨member, among, registry.fits_refl member⟩
  | some others => simp [sound.not_fits_of_member_choice choice among inner]

theorem expect_eq_ok_iff : registry.expect given expected = .ok () ↔
    registry.fits given expected = true := by
  unfold expect
  split <;> simp_all

theorem Lasts.ne_any_of_members? (lasts : initial.Lasts registry)
    (choice : registry.members? union = some members) : union ≠ .any := by
  rintro rfl
  obtain ⟨name, found⟩ := members?_eq_some_iff.1 choice
  rw [lasts.unalias_any,
    lasts.types (show initial.get? .any = some (.primitive .any) from rfl)] at found
  cases found

/-- One argument of a call may be exchanged for another if that may be passed for the same
parameter. -/
theorem accepts_iff_admits {callee : TypeId} {signature : FunctionType}
    {before after : List TypeId} (called : registry.function? callee = some signature)
    (parameters : signature.parameters = before ++ expected :: after) :
    registry.Accepts callee (before ++ given :: after) ↔
      registry.admits given expected = true := by
  have self : ∀ others : List TypeId, List.Forall₂
      (fun argument parameter => registry.admits argument parameter = true) others others :=
    fun others => List.forall₂_same.2 fun other _ => registry.admits_self other
  rw [accepts_iff called, parameters]
  constructor
  · intro accepted
    have rest := List.forall₂_drop before.length accepted
    rw [List.drop_left, List.drop_left] at rest
    cases rest with
    | cons head _ => exact head
  · intro admitted
    exact List.rel_append (self before) (.cons admitted (self after))

/-- **When a member stands for a choice of types.** A member may be bound to a name of the
choice or returned for it, and be passed for a parameter of it, exactly if it is no choice
itself, behind its aliases. -/
theorem Reaches.member_fits_iff (reaches : Reaches GivenCall initial built)
    (choice : built.members? union = some members) (among : member ∈ members) :
    (built.fits member union = true ↔ built.isUnion member = false) ∧
    (built.expect member union = .ok () ↔ built.isUnion member = false) ∧
    ∀ callee signature before after, built.function? callee = some signature →
      signature.parameters = before ++ union :: after →
      (built.Accepts callee (before ++ member :: after) ↔ built.isUnion member = false) := by
  obtain ⟨sound, lasts⟩ := reaches.lasts sound_initial
  have fits := sound.member_fits_iff_isUnion choice among
  refine ⟨fits, expect_eq_ok_iff.trans fits, ?_⟩
  intro callee signature before after called parameters
  rw [accepts_iff_admits called parameters, admits_iff]
  exact (or_iff_right (lasts.ne_any_of_members? choice)).trans fits

/-- Another name for numbers is passed for a parameter of a choice of which it is a member. -/
theorem member_fits_renamed :
    ∃ built, Reaches GivenCall initial built ∧
      ["Count", "Shown", "Fn<boolean<Shown,string>>"] =
        [4, 5, 6].map (fun index => built.name ⟨index⟩) ∧
      built.members? ⟨5⟩ = some [.string, ⟨4⟩] ∧ built.isUnion ⟨4⟩ = false ∧
      built.expect ⟨4⟩ ⟨5⟩ = .ok () ∧ built.Accepts ⟨6⟩ [⟨4⟩, .string] := by
  have count : Reaches GivenCall initial _ := .step (.declareAlias "Count" "number") .refl nofun
  have shown := count.step (.declareUnion "Shown" ["string", "Count"]) nofun
  have function := shown.step (.resolve "Fn<boolean<Shown,string>>") nofun
  obtain ⟨_, bound, passed⟩ := function.member_fits_iff
    (show members? _ ⟨5⟩ = some [.string, ⟨4⟩] by decide +kernel)
    (show (⟨4⟩ : TypeId) ∈ _ by decide)
  have call := passed ⟨6⟩ ⟨"Fn<boolean<Shown,string>>", [⟨5⟩, .string], .boolean⟩ [] [.string]
    (by decide +kernel) rfl
  exact ⟨_, function, by decide +kernel, by decide +kernel, by decide +kernel,
    bound.2 (by decide +kernel), call.2 (by decide +kernel)⟩

/-- A choice of types inside another one does not fit there. -/
theorem member_choice_refused :
    ∃ built, Reaches GivenCall initial built ∧
      ["Flag", "Setting"] = [4, 5].map (fun index => built.name ⟨index⟩) ∧
      built.members? ⟨5⟩ = some [⟨4⟩, .string] ∧ built.members? ⟨4⟩ = some [.number, .boolean] ∧
      built.fits ⟨4⟩ ⟨5⟩ = false := by
  have flag : Reaches GivenCall initial _ :=
    .step (.declareUnion "Flag" ["number", "boolean"]) .refl nofun
  have setting := flag.step (.declareUnion "Setting" ["Flag", "string"]) nofun
  exact ⟨_, setting, by decide +kernel, by decide +kernel, by decide +kernel, by decide +kernel⟩

end TypedLisp.Registry
