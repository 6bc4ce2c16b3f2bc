import TypedLisp.Proofs.Twins

/-!
# Resolution in twin registries

Twin registries resolve texts side by side (`Twins.resolveChars`), though a text may be
known to the second registry only: then its parts are known there as well, and the first
registry makes what the second one has. It follows for the declarations that resolve
texts, those of aliases and of unions. So twins are alike in a lawful way
(`twins_lawful`).
-/

set_option autoImplicit false

namespace TypedLisp

namespace Registry

variable {residue : Prop} {base left right before after : Registry}
  {onTypes later : TypeId → TypeId} {onScopes laterScopes : ScopeId → ScopeId} {id : TypeId}
  {type : Ty}

/-- Two types correspond, and the first one is found under its name if there is any
residue. -/
structure Current (residue : Prop) (onTypes : TypeId → TypeId) (left : Registry)
    (id other : TypeId) : Prop where
  plain : left.IsPlain id
  current : residue → left.IsCurrent id
  same : other = onTypes id

theorem IsCurrent.grows (current : before.IsCurrent id) (has : before.Has id)
    (grows : Grows before after) (plain : after.PlainNames) (wellFormed : after.WellFormed) :
    after.IsCurrent id := by
  obtain ⟨type, found⟩ := has
  rw [IsCurrent, grows.name found]
  rcases names_or_functions_of_known? current with listed | listed
  · exact known?_of_names (grows.names listed)
  · exact plain.known?_of_functions wellFormed (grows.functions listed)

theorem Current.grows {other : TypeId} (current : Current residue onTypes before id other)
    (agree : ∀ {id : TypeId}, before.Has id → later id = onTypes id) (grows : Grows before after)
    (twins : Twins residue base later onScopes after right) :
    Current residue later after id other where
  plain := current.plain.of_types grows.types
  current leftover := (current.current leftover).grows current.plain.has grows
    (twins.plainNames leftover) twins.wellFormed
  same := current.same.trans (agree current.plain.has).symm

/-! ## Resolution side by side -/

theorem map_of_current {ids others : List TypeId}
    (each : List.Forall₂ (Current residue onTypes left) ids others) :
    others = ids.map onTypes ∧ ∀ id ∈ ids, left.IsPlain id ∧ (residue → left.IsCurrent id) :=
  List.Forall₂.eq_map (each.imp fun _ _ current =>
    And.intro (And.intro current.plain current.current) current.same)

/-- Texts that are known are resolved without any change. -/
theorem run_mapM_of_denotes {registry : Registry} {texts : List (List Char)} {ids : List TypeId}
    (each : List.Forall₂ registry.Denotes texts ids) :
    (texts.mapM resolveChars).run.run registry = (.ok ids, registry) :=
  run_mapM_of_forall₂ (each.imp fun text id denotes => by rw [run_resolveChars, denotes])

/-- The last step of resolution: a function type is made, and a text becomes a spelling
of it. -/
def spelling (text : String) (parameters : List TypeId) (result : TypeId) : RegistryM TypeId := do
  let id ← modifyGet fun registry => registry.function parameters result
  modify fun registry => registry.spell text id
  return id

theorem run_spelling (text : String) (parameters : List TypeId) (result : TypeId)
    (registry : Registry) : (spelling text parameters result).run.run registry =
      (.ok (registry.function parameters result).1, (registry.function parameters result).2.spell
        text (registry.function parameters result).1) := rfl

/-- Resolution of a text that is not known takes it apart. -/
theorem run_resolveChars_of_unknown {registry : Registry} {text resultText : List Char}
    {parameterTexts : List (List Char)}
    (unknown : registry.known? (String.ofList (Text.trim text)) = none)
    (found : TypeText.functionParts? (Text.trim text) = some (parameterTexts, resultText)) :
    (resolveChars text).run.run registry =
      (do let parameters ← parameterTexts.mapM resolveChars
          let result ← resolveChars resultText
          spelling (String.ofList (Text.trim text)) parameters result).run.run registry := by
  rw [resolveChars_eq, run_bind, run_get]
  dsimp only
  rw [unknown, found]
  rfl

/-- A text that is not spelled becomes a spelling of the function type over its parts. -/
theorem WellFormed.grows_spelling {registry : Registry} (wellFormed : registry.WellFormed)
    {text : String} {parameters : List TypeId} {result : TypeId}
    (inside : ∀ part ∈ result :: parameters, registry.IsPlain part)
    (unspelled : registry.functions.get? text = none) :
    Grows (registry.function parameters result).2
      ((registry.function parameters result).2.spell text
        (registry.function parameters result).1) := by
  obtain ⟨_, _, _, keys⟩ := wellFormed.function inside
  refine grows_spell fun listed => ?_
  rcases keys listed with listed | ⟨_, same⟩
  · simp [unspelled] at listed
  · exact same

namespace Twins

/-- A text becomes a spelling of a type, which it is on the right afterwards. -/
theorem spell {rightAfter : Registry} (twins : Twins residue base onTypes onScopes left right)
    {text : String} (wellFormed : (left.spell text id).WellFormed)
    (grows : Grows left (left.spell text id)) (wellFormed_target : rightAfter.WellFormed)
    (names : rightAfter.names = right.names) (retains : Retains base right rightAfter)
    (listed : rightAfter.functions.get? text = some (onTypes id))
    (only : ∀ {key : String} {other : TypeId}, text ≠ key →
      rightAfter.functions.get? key = some other → right.functions.get? key = some other) :
    Twins residue base onTypes onScopes (left.spell text id) rightAfter := by
  refine twins.evolve ⟨wellFormed, wellFormed_target,
    fun found => retains.types (twins.types found), twins.injective⟩ twins.plain (fun _ => rfl)
    (fun name => ?_) (grows.retains base) retains ?_ ?_
  · rw [names]
    exact twins.names name
  · intro key other found
    rw [get?_functions_spell] at found
    split at found
    · rename_i same
      subst same
      exact Option.some.inj found ▸ listed
    · exact retains.functions (twins.functions found)
  · intro key other missing found
    refine only ?_ found
    rintro rfl
    rw [get?_functions_spell, if_pos rfl] at missing
    cases missing

theorem current_of_known? (twins : Twins residue base onTypes onScopes left right) {text : String}
    (known : left.known? text = some id) : left.IsPlain id ∧ (residue → left.IsCurrent id) := by
  obtain ⟨type, there, _, nongeneric⟩ := twins.wellFormed.of_known? known
  exact ⟨⟨type, there, nongeneric⟩, fun leftover =>
    (twins.plainNames leftover).isCurrent_of_known? twins.wellFormed known⟩

theorem current_of_functions (twins : Twins residue base onTypes onScopes left right)
    {text : String} (listed : left.functions.get? text = some id) :
    left.IsPlain id ∧ (residue → left.IsCurrent id) := by
  obtain ⟨signature, there, _⟩ := twins.wellFormed.interned listed
  refine ⟨⟨_, there, by simp [Ty.IsNongeneric]⟩, fun leftover => ?_⟩
  have plain := twins.plainNames leftover
  exact plain.isCurrent_of_known? twins.wellFormed
    (plain.known?_of_functions twins.wellFormed listed)

theorem current_of_denotes (twins : Twins residue base onTypes onScopes left right)
    {parameterTexts : List (List Char)} {resultText : List Char} {parameters : List TypeId}
    {result : TypeId} (each : List.Forall₂ left.Denotes parameterTexts parameters)
    (last : left.Denotes resultText result) :
    ∀ part ∈ result :: parameters, left.IsPlain part ∧ (residue → left.IsCurrent part) := by
  intro part among
  rcases List.mem_cons.1 among with rfl | among
  · exact twins.current_of_known? last
  · exact (each.imp fun _ _ denotes => twins.current_of_known? denotes).forall_right part among

/-- The first registry spells a function type that the second one has and spells, or
spells too. -/
theorem spelling {text resultText : List Char} {parameterTexts : List (List Char)}
    {parameters : List TypeId} {result id : TypeId} {rightAfter : Registry}
    {other : RegistryM TypeId} (twins : Twins residue base onTypes onScopes left right)
    (found : TypeText.functionParts? text = some (parameterTexts, resultText))
    (each : List.Forall₂ left.Denotes parameterTexts parameters)
    (last : left.Denotes resultText result)
    (unspelled : left.functions.get? (String.ofList text) = none)
    (run : other.run.run right = (.ok id, rightAfter))
    (handle : (right.function (parameters.map onTypes) (onTypes result)).1 = id)
    (wellFormed_target : rightAfter.WellFormed) (names : rightAfter.names = right.names)
    (retains : Retains base (right.function (parameters.map onTypes) (onTypes result)).2 rightAfter)
    (listed : rightAfter.functions.get? (String.ofList text) = some id)
    (only : ∀ {key : String} {other : TypeId}, String.ofList text ≠ key →
      rightAfter.functions.get? key = some other →
        (right.function (parameters.map onTypes) (onTypes result)).2.functions.get? key =
          some other) :
    InStep (Twins residue base · onScopes) onTypes left right
      (Registry.spelling (String.ofList text) parameters result) other (Current residue) := by
  have current := twins.current_of_denotes each last
  have inside : ∀ part ∈ result :: parameters, left.IsPlain part := fun part among =>
    (current part among).1
  obtain ⟨wellFormed, resolves⟩ :=
    twins.wellFormed.spellFunction admitsNongeneric found each last unspelled
  obtain ⟨later, agree, made, same⟩ := twins.function current
  have sameNames : rightAfter.names =
      (right.function (parameters.map onTypes) (onTypes result)).2.names := by
    have interns := (twins.wellFormed_target.function (twins.plain_parts inside)).2.1
    exact names.trans interns.same_names.symm
  have spelled := made.spell wellFormed (twins.wellFormed.grows_spelling inside unspelled)
    wellFormed_target sameNames retains (by rw [listed, ← handle, same]) only
  refine .of_run (run_spelling _ _ _ left) run agree resolves.toGrows spelled (.ok ?_)
  obtain ⟨plain, current⟩ :=
    spelled.current_of_functions ((get?_functions_spell _ _ _ _).trans (if_pos rfl))
  exact ⟨plain, current, handle.symm.trans same⟩

/-- Both registries spell a function type. -/
theorem spelling_both {text resultText : List Char} {parameterTexts : List (List Char)}
    {parameters : List TypeId} {result : TypeId}
    (twins : Twins residue base onTypes onScopes left right)
    (found : TypeText.functionParts? text = some (parameterTexts, resultText))
    (each : List.Forall₂ left.Denotes parameterTexts parameters)
    (last : left.Denotes resultText result)
    (unspelled : left.functions.get? (String.ofList text) = none)
    (eachRight : List.Forall₂ right.Denotes parameterTexts (parameters.map onTypes))
    (lastRight : right.Denotes resultText (onTypes result))
    (unspelledRight : right.functions.get? (String.ofList text) = none) :
    InStep (Twins residue base · onScopes) onTypes left right
      (Registry.spelling (String.ofList text) parameters result)
      (Registry.spelling (String.ofList text) (parameters.map onTypes) (onTypes result))
      (Current residue) := by
  obtain ⟨wellFormed, resolves⟩ :=
    twins.wellFormed_target.spellFunction admitsNongeneric found eachRight lastRight
      unspelledRight
  have inside := twins.plain_parts fun part among =>
    (twins.current_of_denotes each last part among).1
  refine twins.spelling found each last unspelled (run_spelling _ _ _ right) rfl wellFormed
    resolves.same_names
    ((twins.wellFormed_target.grows_spelling inside unspelledRight).retains base)
    ((get?_functions_spell _ _ _ _).trans (if_pos rfl)) fun apart listed => ?_
  rw [get?_functions_spell, if_neg apart] at listed
  exact listed

/-- The first registry spells a function type that the second one has and spells. -/
theorem spelling_caughtUp {text resultText : List Char} {parameterTexts : List (List Char)}
    {parameters : List TypeId} {result : TypeId}
    (twins : Twins residue base onTypes onScopes left right)
    (found : TypeText.functionParts? text = some (parameterTexts, resultText))
    (each : List.Forall₂ left.Denotes parameterTexts parameters)
    (last : left.Denotes resultText result)
    (unspelled : left.functions.get? (String.ofList text) = none)
    (made : right.functions.get? (right.functionName (parameters.map onTypes) (onTypes result)) =
      some id)
    (listed : right.functions.get? (String.ofList text) = some id) :
    InStep (Twins residue base · onScopes) onTypes left right
      (Registry.spelling (String.ofList text) parameters result) (pure id) (Current residue) := by
  have handle := function_of_get? made
  refine twins.spelling found each last unspelled rfl (congrArg Prod.fst handle)
    twins.wellFormed_target rfl ?_ listed fun _ listed => ?_
  · rw [handle]
    exact .refl base right
  · rw [handle]
    exact listed

/-- Twins resolve a text alike. -/
def ResolveAlike (residue : Prop) (base : Registry) (onScopes : ScopeId → ScopeId)
    (text : List Char) : Prop :=
  ∀ {onTypes : TypeId → TypeId} {left right : Registry},
    Twins residue base onTypes onScopes left right →
      InStep (Twins residue base · onScopes) onTypes left right (Registry.resolveChars text)
        (Registry.resolveChars text) (Current residue)

/-- A text that neither registry knows. -/
theorem resolveChars_unknown {text resultText : List Char} {parameterTexts : List (List Char)}
    (twins : Twins residue base onTypes onScopes left right)
    (unknown : left.known? (String.ofList (Text.trim text)) = none)
    (unknownRight : right.known? (String.ofList (Text.trim text)) = none)
    (found : TypeText.functionParts? (Text.trim text) = some (parameterTexts, resultText))
    (parts : ∀ piece ∈ resultText :: parameterTexts, ResolveAlike residue base onScopes piece) :
    InStep (Twins residue base · onScopes) onTypes left right (Registry.resolveChars text)
      (Registry.resolveChars text) (Current residue) := by
  refine InStep.congr ?_ (run_resolveChars_of_unknown unknown found)
    (run_resolveChars_of_unknown unknownRight found)
  refine .bind (.mapM (fun agree grows twins current => current.grows agree grows twins)
    (fun piece among => parts piece (List.mem_cons_of_mem _ among)) twins)
    fun {middle _ _ _ _} _ _ first otherFirst twinsMiddle each => ?_
  refine .bind (parts resultText List.mem_cons_self twinsMiddle)
    fun {last _ _ _ _} agree grows second otherSecond twinsLast current => ?_
  obtain ⟨_, denotes, denotesLast, unspelled⟩ :=
    twins.wellFormed.resolvedParts admitsNongeneric unknown found first second
  obtain ⟨_, denotesRight, denotesLastRight, unspelledRight⟩ :=
    twins.wellFormed_target.resolvedParts admitsNongeneric unknownRight found otherFirst otherSecond
  obtain ⟨rfl, _⟩ :=
    map_of_current (each.imp fun _ _ current => current.grows agree grows twinsLast)
  obtain rfl := current.same
  exact twinsLast.spelling_both found denotes denotesLast unspelled denotesRight denotesLastRight
    unspelledRight

/-- A text that only the second registry knows. The second one knows its parts too, so
that resolving them changes the first one only. -/
theorem resolveChars_caughtUp {text : List Char}
    (twins : Twins residue base onTypes onScopes left right)
    (unknown : left.known? (String.ofList (Text.trim text)) = none)
    (listed : right.functions.get? (String.ofList (Text.trim text)) = some id)
    (parts : ∀ {parameterTexts : List (List Char)} {resultText : List Char},
      TypeText.functionParts? (Text.trim text) = some (parameterTexts, resultText) →
        ∀ piece ∈ resultText :: parameterTexts, ResolveAlike residue base onScopes piece) :
    InStep (Twins residue base · onScopes) onTypes left right (Registry.resolveChars text) (pure id)
      (Current residue) := by
  obtain ⟨leftover, parameterTexts, resultText, others, otherResult, found, each, last, made, _⟩ :=
    twins.coherent (known?_eq_none unknown).2 listed
  rw [String.toList_ofList] at found
  have parts := parts found
  have denotes : ∀ {text : List Char} {other : TypeId}, Lasting base right text other →
      right.Denotes text other := fun lasting =>
    lasting.denotes (twins.plainNames_right leftover) twins.wellFormed_target
  have knownParts := run_mapM_of_denotes (each.imp fun _ _ lasting => denotes lasting)
  have knownLast : (Registry.resolveChars resultText).run.run right = (.ok otherResult, right) := by
    rw [run_resolveChars, denotes last]
  have assembled : InStep (Twins residue base · onScopes) onTypes left right
      (do let parameters ← parameterTexts.mapM Registry.resolveChars
          let result ← Registry.resolveChars resultText
          Registry.spelling (String.ofList (Text.trim text)) parameters result)
      (do let _ ← (pure others : RegistryM (List TypeId))
          let _ ← (pure otherResult : RegistryM TypeId)
          pure id) (Current residue) := by
    have resolved : InStep (Twins residue base · onScopes) onTypes left right
        (parameterTexts.mapM Registry.resolveChars) (parameterTexts.mapM Registry.resolveChars)
        fun later after => List.Forall₂ (Current residue later after) :=
      .mapM (fun agree grows twins current => current.grows agree grows twins)
        (fun piece among => parts piece (List.mem_cons_of_mem _ among)) twins
    refine .bind (resolved.congr rfl knownParts.symm)
      fun {middle leftMiddle rightMiddle _ _} _ _ first otherFirst twinsMiddle each => ?_
    obtain ⟨same, rfl⟩ := Prod.mk.inj otherFirst
    obtain rfl := Except.ok.inj same
    refine .bind ((parts resultText List.mem_cons_self twinsMiddle).congr rfl knownLast.symm)
      fun {last leftLast rightLast _ _} agree grows second otherSecond twinsLast current => ?_
    obtain ⟨same, rfl⟩ := Prod.mk.inj otherSecond
    obtain rfl := Except.ok.inj same
    obtain ⟨_, denotes, denotesLast, unspelled⟩ :=
      twins.wellFormed.resolvedParts admitsNongeneric unknown found first second
    obtain ⟨rfl, _⟩ :=
      map_of_current (each.imp fun _ _ current => current.grows agree grows twinsLast)
    obtain rfl := current.same
    exact twinsLast.spelling_caughtUp found denotes denotesLast unspelled made listed
  exact assembled.congr (run_resolveChars_of_unknown unknown found) rfl

/-- **Twins resolve texts alike.** By induction on the length of the text. -/
theorem resolveChars (twins : Twins residue base onTypes onScopes left right) (text : List Char) :
    InStep (Twins residue base · onScopes) onTypes left right (Registry.resolveChars text)
      (Registry.resolveChars text) (Current residue) := by
  induction size : text.length using Nat.strongRecOn generalizing text onTypes left right with
  | ind size ih =>
      have run := run_resolveChars text left
      have otherRun := run_resolveChars text right
      have parts : ∀ {parameterTexts : List (List Char)} {resultText : List Char},
          TypeText.functionParts? (Text.trim text) = some (parameterTexts, resultText) →
            ∀ piece ∈ resultText :: parameterTexts, ResolveAlike residue base onScopes piece := by
        intro parameterTexts resultText found piece among onTypes left right twins
        have shorter := TypeText.length_lt_of_functionParts? found
        have trimmed := Text.length_trim_le text
        refine ih piece.length ?_ twins piece rfl
        rcases List.mem_cons.1 among with rfl | among
        · omega
        · have less := shorter.1 piece among
          omega
      cases known : left.known? (String.ofList (Text.trim text)) with
      | some id =>
          have knownRight := twins.known?_right known
          rw [known] at run
          rw [knownRight] at otherRun
          obtain ⟨plain, current⟩ := twins.current_of_known? known
          exact .still twins run otherRun (.ok ⟨plain, current, rfl⟩)
      | none =>
          obtain ⟨unnamed, unlisted⟩ := known?_eq_none known
          cases knownRight : right.known? (String.ofList (Text.trim text)) with
          | some id =>
              have listed : right.functions.get? (String.ofList (Text.trim text)) = some id := by
                rcases names_or_functions_of_known? knownRight with named | listed
                · rw [twins.unclaimed_right unnamed] at named
                  cases named
                · exact listed
              rw [knownRight] at otherRun
              exact (twins.resolveChars_caughtUp known listed parts).congr rfl otherRun
          | none =>
              cases found : TypeText.functionParts? (Text.trim text) with
              | none =>
                  rw [known, found] at run
                  rw [knownRight, found] at otherRun
                  exact .still twins run otherRun (.error _)
              | some pieces =>
                  exact twins.resolveChars_unknown known knownRight found (parts found)

/-- Twins make function types alike. -/
theorem functionInStep (twins : Twins residue base onTypes onScopes left right)
    {parameters otherParameters : List TypeId} {result otherResult : TypeId}
    (each : List.Forall₂ (Current residue onTypes left) parameters otherParameters)
    (last : Current residue onTypes left result otherResult) :
    InStep (Twins residue base · onScopes) onTypes left right
      (modifyGet fun registry => registry.function parameters result)
      (modifyGet fun registry => registry.function otherParameters otherResult)
      (Current residue) := by
  obtain ⟨rfl, parts⟩ := map_of_current each
  obtain rfl := last.same
  have current : ∀ part ∈ result :: parameters,
      left.IsPlain part ∧ (residue → left.IsCurrent part) := by
    intro part among
    rcases List.mem_cons.1 among with rfl | among
    · exact ⟨last.plain, last.current⟩
    · exact parts part among
  obtain ⟨later, agree, made, same⟩ := twins.function current
  obtain ⟨_, interns, listed, _⟩ :=
    twins.wellFormed.function fun part among => (current part among).1
  obtain ⟨plain, isCurrent⟩ := made.current_of_functions listed
  exact .of_run (run_modifyGet _ left) (run_modifyGet _ right) agree interns.toGrows made
    (.ok ⟨plain, isCurrent, same⟩)

/-! ## Declarations side by side -/

/-- A name is free on both sides or on neither. -/
theorem claim (twins : Twins residue base onTypes onScopes left right) (name : String) :
    InStep (Twins residue base · onScopes) onTypes left right (Registry.claim name)
      (Registry.claim name) fun _ after _ _ => after.names.get? name = none := by
  have same : right.names.contains name = left.names.contains name := by
    simp [NameTable.contains, twins.names name]
  refine .still twins (run_claim name left) (run_claim name right) ?_
  rw [same]
  by_cases taken : left.names.contains name = true
  · rw [if_pos taken]
    exact .error _
  · rw [if_neg taken]
    exact .ok (get?_names_of_contains taken)

/-- The same type is declared on both sides, and keeps no scope. -/
theorem declareNew (twins : Twins residue base onTypes onScopes left right) {name : String}
    (inside : ∀ reference ∈ type.references, left.IsPlain reference)
    (declared : type.declaredName? = some name)
    (plain : residue → TypeText.isPlainName name.toList = true)
    (unclaimed : left.names.get? name = none) :
    InStep (Twins residue base · onScopes) onTypes left right
      (modifyGet fun registry => registry.declare name type)
      (modifyGet fun registry => registry.declare name (type.rename onTypes onScopes)) Copied := by
  have same : type.rename (extended onTypes left right) onScopes =
      type.rename onTypes onScopes :=
    Ty.rename_congr (fun reference among => extended_of_has (inside reference among).has)
      fun _ _ => rfl
  have twins := twins.declare inside declared plain unclaimed extended_of_has
    (extended_size onTypes left right)
  rw [same] at twins
  refine .of_run (run_modifyGet _ left) (run_modifyGet _ right) extended_of_has
    (grows_declare type unclaimed) twins (.ok ⟨⟨type, get?_declare left name type⟩, ?_⟩)
  exact (extended_size onTypes left right).symm

theorem declareAlias (twins : Twins residue base onTypes onScopes left right) {name : String}
    (parent : String) (plain : residue → TypeText.isPlainName name.toList = true) :
    InStep (Twins residue base · onScopes) onTypes left right (Registry.declareAlias name parent)
      (Registry.declareAlias name parent) Copied := by
  refine .bind (twins.claim name) fun {_ claimed _ _ _} _ _ _ _ twins unclaimed => ?_
  refine .bind (twins.resolveChars parent.toList) fun _ _ run _ made current => ?_
  obtain ⟨_, interns, _⟩ := resolve_resolves parent twins.wellFormed run
  obtain rfl := current.same
  refine made.declareNew (by simpa [Ty.references] using current.plain) rfl plain ?_
  rw [interns.same_names]
  exact unclaimed

theorem declareUnion (twins : Twins residue base onTypes onScopes left right) {name : String}
    (members : List String) (plain : residue → TypeText.isPlainName name.toList = true) :
    InStep (Twins residue base · onScopes) onTypes left right (Registry.declareUnion name members)
      (Registry.declareUnion name members) Copied := by
  refine .bind (twins.claim name) fun {_ claimed _ _ _} _ _ _ _ twins unclaimed => ?_
  have resolved : InStep (Twins residue base · onScopes) _ claimed _ (members.mapM resolve)
      (members.mapM resolve) fun later after => List.Forall₂ (Current residue later after) :=
    .mapM (fun agree grows twins current => current.grows agree grows twins)
      (fun member _ _ _ _ twins => twins.resolveChars member.toList) twins
  refine .bind resolved fun _ _ run _ made each => ?_
  obtain ⟨_, interns, _⟩ := resolveAll_sound admitsNongeneric members twins.wellFormed run
  obtain ⟨rfl, current⟩ := map_of_current each
  refine made.declareNew (fun reference among => (current reference among).1) rfl plain ?_
  rw [interns.same_names]
  exact unclaimed

/-- The same class is declared on both sides. -/
theorem declareClass (twins : Twins residue base onTypes onScopes left right) {name : String}
    {superclass : Option TypeId} (scope : ScopeId)
    (plain : residue → TypeText.isPlainName name.toList = true)
    (nongeneric : ∀ id ∈ superclass, left.IsPlain id)
    (unclaimed : left.names.get? name = none) :
    Twins residue base (extended onTypes left right) onScopes
      (left.declare name (.nominal ⟨name, superclass, scope⟩)).2
      (right.declare name (.nominal ⟨name, superclass.map onTypes, onScopes scope⟩)).2 := by
  have inside : ∀ reference ∈ (Ty.nominal ⟨name, superclass, scope⟩).references,
      left.IsPlain reference := fun reference among =>
    nongeneric reference (Option.mem_toList.1 among)
  have declared := twins.declare inside rfl plain unclaimed extended_of_has
    (extended_size onTypes left right)
  have inherited : superclass.map (extended onTypes left right) = superclass.map onTypes :=
    Option.map_congr fun id among => extended_of_has (nongeneric id among).has
  rw [Ty.rename, ClassType.rename, inherited] at declared
  exact declared

end Twins

/-- Twins that keep the names of a base, and in which plain names are declared if there is
any residue. -/
def twins (residue : Prop) (base : Registry) : Likeness where
  Related := Twins residue base
  Named := Current residue
  Admits name := residue → TypeText.isPlainName name.toList = true

/-- **Twins are alike in a lawful way.** -/
theorem twins_lawful (residue : Prop) (base : Registry) : (twins residue base).Lawful where
  embeds twins := twins.toEmbeds
  primitives twins := twins.primitives
  names twins := twins.names
  relabel twins agree := twins.relabel agree
  named current := ⟨current.plain, current.same⟩
  named_later current agree grows twins := current.grows agree grows twins
  resolve text twins := twins.resolveChars text.toList
  function twins each last := twins.functionInStep each last
  declareAlias parent twins plain := twins.declareAlias parent plain
  declareUnion members twins plain := twins.declareUnion members plain
  addTemplate template twins :=
    twins.add (by simp [Ty.references]) (by simp) (by simp [Ty.declaredName?]) extended_of_has
      (extended_size _ _ _)
  declareClass scope twins plain nongeneric unclaimed :=
    twins.declareClass scope plain nongeneric unclaimed
  forget start unclaimed twins := twins.forget fun inBase => by
    have kept := start.kept inBase
    simp [NameTable.contains, unclaimed] at kept

end Registry

end TypedLisp
