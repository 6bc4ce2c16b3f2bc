import TypedLisp.Proofs.Registration

/-!
# Resolution and declarations in sound registries

The delicate step of resolution is that a text becomes a further spelling only after
its parts have been resolved, and they have made spellings of their own. Those are
shorter than the text, so the new spelling replaces none of them
(`resolveChars_sound`). Resolution changes a registry only in this way, so whatever
spelling keeps is kept by resolution (`resolveChars_keeps`).

A declaration resolves the texts that it reads and then adds one type under a name that
was free (`Declaration`).
-/

set_option autoImplicit false

namespace TypedLisp.Registry

variable {registry before middle after : Registry} {id : TypeId} {type : Ty} {kind : Ty → Prop}
  {mayRefer : Ty → Ty → Prop}

/-! ## Lengths of names

Canonical names are written without blanks, so a canonical name is no longer than
any text from whose parts it is built. -/

theorem sum_length_cutCommas (depth : Nat) (text : List Char) :
    ((TypeText.cutCommas depth text).map List.length).sum +
      (TypeText.cutCommas depth text).length = text.length + 1 := by
  have consFirst : ∀ (character : Char) (parts : List (List Char)), parts ≠ [] →
      ((TypeText.consFirst character parts).map List.length).sum +
        (TypeText.consFirst character parts).length =
          (parts.map List.length).sum + parts.length + 1 := by
    intro character parts nonempty
    cases parts with
    | nil => exact absurd rfl nonempty
    | cons part parts =>
        simp only [TypeText.consFirst, List.map_cons, List.sum_cons, List.length_cons]
        omega
  have nonempty : ∀ (depth : Nat) (text : List Char), TypeText.cutCommas depth text ≠ [] := by
    intro depth text
    cases text with
    | nil => simp [TypeText.cutCommas]
    | cons character rest =>
        simp only [TypeText.cutCommas]
        repeat' split
        all_goals cases TypeText.cutCommas _ rest <;> simp [TypeText.consFirst]
  induction text generalizing depth with
  | nil => simp [TypeText.cutCommas]
  | cons character rest ih =>
      simp only [TypeText.cutCommas]
      split
      · rw [consFirst _ _ (nonempty _ _), ih, List.length_cons]
      split
      · rw [consFirst _ _ (nonempty _ _), ih, List.length_cons]
      split
      · have shorter := ih depth
        simp only [List.map_cons, List.length_nil, List.sum_cons, List.length_cons]
        omega
      · rw [consFirst _ _ (nonempty _ _), ih, List.length_cons]

theorem sum_length_splitList_le (text : List Char) :
    ((TypeText.splitList text).map List.length).sum + (TypeText.splitList text).length ≤
      text.length + 1 := by
  have trimmed : ∀ parts : List (List Char), ((parts.map Text.trim).map List.length).sum ≤
      (parts.map List.length).sum := by
    intro parts
    induction parts with
    | nil => exact Nat.le_refl _
    | cons part parts ih =>
        have shorter := Text.length_trim_le part
        simp only [List.map_cons, List.sum_cons]
        omega
  have cut := sum_length_cutCommas 0 text
  have shorter := trimmed (TypeText.cutCommas 0 text)
  simp only [TypeText.splitList, List.length_map]
  omega

/-- The length of what a function type is written with: its parts, the commas
between them, and the brackets around them. -/
def writtenLength (parameters : List Nat) (result : Nat) : Nat :=
  result + 4 + if parameters = [] then 0 else parameters.sum + parameters.length + 1

theorem writtenLength_le_of_functionParts? {text result : List Char}
    {parameters : List (List Char)}
    (found : TypeText.functionParts? text = some (parameters, result)) :
    writtenLength (parameters.map List.length) result.length ≤ text.length := by
  have bracketed : ∀ {text inside : List Char}, TypeText.bracketed? text = some inside →
      inside.length + 2 = text.length ∧ text ≠ [] := by
    intro text inside found
    unfold TypeText.bracketed? at found
    split at found
    · rename_i rest
      split at found
      · rename_i both
        obtain rfl := Option.some.inj found
        have nonempty : rest ≠ [] := by
          rintro rfl
          simp at both
        have positive := List.length_pos_iff.2 nonempty
        simp only [List.length_dropLast, List.length_cons]
        exact ⟨by omega, by simp⟩
      · simp at found
    · simp at found
  simp only [TypeText.functionParts?, Option.bind_eq_bind, Option.bind_eq_some_iff] at found
  obtain ⟨inside, atInside, ⟨first, rest⟩, atResult, parts, atParts, same⟩ := found
  dsimp only at atParts same
  obtain ⟨sameParts, sameResult⟩ := Prod.mk.inj (Option.some.inj same)
  subst sameParts sameResult
  have whole : inside.length + 4 = text.length := by
    unfold TypeText.functionInside? at atInside
    split at atInside
    · split at atInside
      · rename_i found
        split at atInside
        · simp at atInside
        · obtain rfl := Option.some.inj atInside
          have inner := (bracketed found).1
          simp only [List.length_cons]
          omega
      · simp at atInside
    · simp at atInside
  have halves : first.length + rest.length = inside.length := by
    simpa using congrArg List.length (TypeText.append_of_splitResult atResult)
  unfold TypeText.parameterTexts? at atParts
  split at atParts
  · obtain rfl := Option.some.inj atParts
    simp only [writtenLength, List.map_nil, if_true]
    omega
  · obtain ⟨inner, found, rfl⟩ := Option.map_eq_some_iff.1 atParts
    have brackets := (bracketed found).1
    have parts := sum_length_splitList_le inner
    unfold writtenLength
    split
    · omega
    · rw [List.length_map]
      omega

theorem length_functionName (registry : Registry) (parameters : List TypeId) (result : TypeId) :
    (registry.functionName parameters result).length =
      writtenLength (parameters.map fun id => (registry.name id).length)
        (registry.name result).length := by
  have start : "Fn<".length = 3 := by decide
  have opened : "<".length = 1 := by decide
  have closed : ">".length = 1 := by decide
  cases parameters with
  | nil =>
      simp only [functionName, List.isEmpty_nil, if_true, String.length_append, writtenLength,
        List.map_nil, String.length_empty]
      omega
  | cons parameter parameters =>
      have comma : ",".length = 1 := by decide
      have commas := String.length_intercalate "," ((parameter :: parameters).map registry.name)
        (by simp)
      simp only [functionName, List.isEmpty_cons, Bool.false_eq_true, if_false, comma,
        String.length_append, writtenLength, List.map_cons, reduceCtorEq] at commas ⊢
      simp only [List.map_map, Function.comp_def, List.sum_cons, List.length_cons,
        List.length_map] at commas ⊢
      omega

/-- The canonical name of a function type is no longer than a text whose parts
are no shorter than the names of its parameters and of its result. -/
theorem length_functionName_le {parameters : List TypeId} {result : TypeId}
    {text resultText : List Char} {parameterTexts : List (List Char)}
    (found : TypeText.functionParts? text = some (parameterTexts, resultText))
    (each : List.Forall₂ (fun text id => (registry.name id).length ≤ text.length) parameterTexts
      parameters) (last : (registry.name result).length ≤ resultText.length) :
    (registry.functionName parameters result).length ≤ text.length := by
  have sums : (parameters.map fun id => (registry.name id).length).sum ≤
      (parameterTexts.map List.length).sum := by
    clear found
    induction each with
    | nil => exact Nat.le_refl _
    | cons first _ ih =>
        simp only [List.map_cons, List.sum_cons]
        omega
  have written := writtenLength_le_of_functionParts? found
  have lengths := each.length_eq
  rw [length_functionName]
  unfold writtenLength at written ⊢
  cases each with
  | nil =>
      simp only [List.map_nil, if_true] at written ⊢
      omega
  | cons =>
      simp only [List.map_cons, reduceCtorEq, if_false, List.length_cons, List.length_map]
        at written lengths ⊢
      simp only [List.map_cons] at sums
      omega

/-! ## Running the steps of a registry -/

section Run

variable {α β : Type}

@[simp] theorem run_pure (value : α) (registry : Registry) :
    (pure value : RegistryM α).run.run registry = (.ok value, registry) := rfl

@[simp] theorem run_throw (fault : Fault) (registry : Registry) :
    (throw fault : RegistryM α).run.run registry = (.error fault, registry) := rfl

@[simp] theorem run_get (registry : Registry) :
    (get : RegistryM Registry).run.run registry = (.ok registry, registry) := rfl

@[simp] theorem run_modify (change : Registry → Registry) (registry : Registry) :
    (modify change : RegistryM PUnit).run.run registry = (.ok ⟨⟩, change registry) := rfl

@[simp] theorem run_modifyGet (change : Registry → α × Registry) (registry : Registry) :
    (modifyGet change : RegistryM α).run.run registry =
      (.ok (change registry).1, (change registry).2) := rfl

theorem run_bind (step : RegistryM α) (next : α → RegistryM β) (registry : Registry) :
    (step >>= next).run.run registry =
      match step.run.run registry with
      | (.ok value, reached) => (next value).run.run reached
      | (.error fault, reached) => (.error fault, reached) := by
  simp only [bind, ExceptT.bind, ExceptT.mk, ExceptT.run, StateT.bind, StateT.run]
  cases step registry with
  | mk outcome reached => cases outcome <;> rfl

/-- What holds at the start of a sequence of steps and is kept by each of them
holds at its end. -/
theorem run_mapM (sound : Registry → Prop) (kept : Registry → Registry → Prop)
    (good : α → β → Registry → Prop) (refl : ∀ registry, kept registry registry)
    (trans : ∀ {first second third}, kept first second → kept second third → kept first third)
    (stable : ∀ {item value before after}, kept before after → good item value before →
      good item value after) {step : α → RegistryM β} :
    ∀ {items : List α}, (∀ item ∈ items, ∀ {registry outcome reached}, sound registry →
      (step item).run.run registry = (outcome, reached) →
        sound reached ∧ kept registry reached ∧
          ∀ value, outcome = .ok value → good item value reached) →
      ∀ {registry outcome reached}, sound registry →
        (items.mapM step).run.run registry = (outcome, reached) →
          sound reached ∧ kept registry reached ∧
            ∀ values, outcome = .ok values →
              List.Forall₂ (fun item value => good item value reached) items values := by
  intro items
  induction items with
  | nil =>
      intro _ registry outcome reached isSound run
      obtain ⟨rfl, rfl⟩ := Prod.mk.inj run
      exact ⟨isSound, refl _, fun values same => by cases same; exact .nil⟩
  | cons item items ih =>
      intro each registry outcome reached isSound run
      rw [List.mapM_cons, run_bind] at run
      cases first : (step item).run.run registry with
      | mk outcome₁ middle =>
          obtain ⟨soundMiddle, keptMiddle, goodFirst⟩ := each item List.mem_cons_self isSound first
          rw [first] at run
          cases outcome₁ with
          | error fault =>
              obtain ⟨rfl, rfl⟩ := Prod.mk.inj run
              exact ⟨soundMiddle, keptMiddle, fun values same => by cases same⟩
          | ok value =>
              dsimp only at run
              rw [run_bind] at run
              cases rest : (items.mapM step).run.run middle with
              | mk outcome₂ last =>
                  obtain ⟨soundLast, keptLast, goodRest⟩ := ih
                    (fun item among => each item (List.mem_cons_of_mem _ among)) soundMiddle rest
                  rw [rest] at run
                  cases outcome₂ with
                  | error fault =>
                      obtain ⟨rfl, rfl⟩ := Prod.mk.inj run
                      exact ⟨soundLast, trans keptMiddle keptLast, fun values same => by cases same⟩
                  | ok values =>
                      obtain ⟨rfl, rfl⟩ := Prod.mk.inj run
                      refine ⟨soundLast, trans keptMiddle keptLast, fun all same => ?_⟩
                      obtain rfl := Except.ok.inj same
                      exact .cons (stable keptLast (goodFirst value rfl)) (goodRest values rfl)

/-- A sequence of steps that change nothing changes nothing. -/
theorem run_mapM_of_forall₂ {step : α → RegistryM β} {registry : Registry} {items : List α}
    {values : List β} (each : List.Forall₂ (fun item value =>
      (step item).run.run registry = (.ok value, registry)) items values) :
    (items.mapM step).run.run registry = (.ok values, registry) := by
  induction each with
  | nil => rfl
  | cons first _ ih =>
      rw [List.mapM_cons, run_bind, first]
      dsimp only
      rw [run_bind, ih]
      rfl

end Run

/-! ## Resolution -/

/-- The type of a text is known. -/
def Denotes (registry : Registry) (text : List Char) (id : TypeId) : Prop :=
  registry.known? (String.ofList (Text.trim text)) = some id

/-- What resolution does to a registry: it interns function types under texts of a
bounded length. -/
structure Resolves (bound : Nat) (before after : Registry) : Prop extends Interns before after where
  short : ∀ {key : String} {id : TypeId}, after.functions.get? key = some id →
    before.functions.get? key = some id ∨ key.length ≤ bound

namespace Resolves

variable {bound wider : Nat}

theorem refl (bound : Nat) (registry : Registry) : Resolves bound registry registry :=
  { Interns.refl registry with short := fun listed => .inl listed }

theorem trans (first : Resolves bound before middle) (second : Resolves bound middle after) :
    Resolves bound before after :=
  { first.toInterns.trans second.toInterns with
    short := fun listed => by
      rcases second.short listed with listed | short
      · exact first.short listed
      · exact .inr short }

theorem mono (le : bound ≤ wider) (resolves : Resolves bound before after) :
    Resolves wider before after :=
  { resolves with
    short := fun listed => by
      rcases resolves.short listed with listed | short
      · exact .inl listed
      · exact .inr (Nat.le_trans short le) }

/-- A text that is too long to be made a spelling stays unspelled. -/
theorem unspelled {text : String} (resolves : Resolves bound before after)
    (longer : bound < text.length) (unspelled : before.functions.get? text = none) :
    after.functions.get? text = none := by
  cases spelled : after.functions.get? text with
  | none => rfl
  | some other =>
      rcases resolves.short spelled with spelled | short
      · simp [unspelled] at spelled
      · omega

end Resolves

theorem Interns.denotes {text : List Char} (interns : Interns before after)
    (denotes : before.Denotes text id) : after.Denotes text id :=
  interns.known? denotes

theorem run_resolveChars (text : List Char) (registry : Registry) :
    (resolveChars text).run.run registry =
      match registry.known? (String.ofList (Text.trim text)) with
      | some id => (.ok id, registry)
      | none =>
          match TypeText.functionParts? (Text.trim text) with
          | none => (.error (.unknownType (String.ofList (Text.trim text))), registry)
          | some (parameters, result) =>
              match (parameters.mapM resolveChars).run.run registry with
              | (.error fault, reached) => (.error fault, reached)
              | (.ok parameters, reached) =>
                  match (resolveChars result).run.run reached with
                  | (.error fault, reached) => (.error fault, reached)
                  | (.ok result, reached) =>
                      (.ok (reached.function parameters result).1,
                        (reached.function parameters result).2.spell
                          (String.ofList (Text.trim text))
                          (reached.function parameters result).1) := by
  rw [resolveChars_eq, run_bind, run_get]
  dsimp only
  cases registry.known? (String.ofList (Text.trim text)) with
  | some id => rfl
  | none =>
      dsimp only
      cases TypeText.functionParts? (Text.trim text) with
      | none => rfl
      | some parts =>
          obtain ⟨parameters, result⟩ := parts
          dsimp only
          rw [run_bind]
          cases (parameters.mapM resolveChars).run.run registry with
          | mk outcome reached =>
              cases outcome with
              | error fault => rfl
              | ok ids =>
                  dsimp only
                  rw [run_bind]
                  cases (resolveChars result).run.run reached with
                  | mk outcome last => cases outcome <;> rfl

theorem known?_eq_none {text : String} (unknown : registry.known? text = none) :
    registry.names.get? text = none ∧ registry.functions.get? text = none := by
  unfold known? lookup? at unknown
  split at unknown
  · simp at unknown
  · rename_i unnamed
    exact ⟨unnamed, unknown⟩

theorem Denotes.isPlain {text : List Char} (sound : registry.Sound mayRefer)
    (denotes : registry.Denotes text id) : registry.IsPlain id := by
  obtain ⟨type, found, _, plain⟩ := sound.of_known? denotes
  exact ⟨type, found, plain⟩

theorem Denotes.spells {text : List Char} (sound : registry.Sound mayRefer)
    (denotes : registry.Denotes text id) : registry.Spells text id := by
  unfold Denotes known? lookup? at denotes
  split at denotes
  · rename_i listed
    obtain rfl := Option.some.inj denotes
    exact .inr (sound.named listed)
  · exact .inl denotes

theorem Denotes.length_name_le {text : List Char} (sound : registry.Sound mayRefer)
    (denotes : registry.Denotes text id) : (registry.name id).length ≤ text.length := by
  obtain ⟨type, found, short, _⟩ := sound.of_known? denotes
  rw [String.length_ofList] at short
  simp only [name, found]
  exact Nat.le_trans short (Text.length_trim_le text)

/-- A text without blanks that is known is the name of its type. -/
theorem Sound.name_of_known? (sound : registry.Sound mayRefer) {text : String}
    (blankFree : TypeText.BlankFree text.toList) (known : registry.known? text = some id) :
    registry.name id = text := by
  unfold known? lookup? at known
  split at known
  · rename_i listed
    obtain rfl := Option.some.inj known
    obtain ⟨type, found, declared⟩ := sound.named listed
    simp [name, found, Ty.name_of_declaredName? declared]
  · obtain ⟨signature, found, spelled⟩ := sound.interned known
    simp [name, found, Ty.name, spelled.name_eq blankFree]

theorem Denotes.toList_name {text : List Char} (sound : registry.Sound mayRefer)
    (blankFree : TypeText.BlankFree text) (denotes : registry.Denotes text id) :
    (registry.name id).toList = text := by
  unfold Denotes at denotes
  rw [TypeText.trim_eq_self blankFree] at denotes
  rw [sound.name_of_known? (by rwa [String.toList_ofList]) denotes, String.toList_ofList]

/-- The canonical name of a function type is written from the names of its parts. -/
theorem toList_functionName (registry : Registry) (parameters : List TypeId) (result : TypeId) :
    (registry.functionName parameters result).toList =
      TypeText.written (parameters.map fun parameter => (registry.name parameter).toList)
        (registry.name result).toList := by
  have comma : ",".toList = [','] := rfl
  cases parameters with
  | nil => simp [functionName, TypeText.written, TypeText.writtenParameters]
  | cons first rest =>
      simp [functionName, TypeText.written, TypeText.writtenParameters,
        String.toList_intercalate, comma, Function.comp_def]

/-- A text without blanks is the canonical name of the function type over its parts. -/
theorem Sound.functionName_of_functionParts? (sound : registry.Sound mayRefer)
    {text resultText : List Char} {parameterTexts : List (List Char)}
    {parameters : List TypeId} {result : TypeId} (blankFree : TypeText.BlankFree text)
    (found : TypeText.functionParts? text = some (parameterTexts, resultText))
    (each : List.Forall₂ registry.Denotes parameterTexts parameters)
    (last : registry.Denotes resultText result) :
    registry.functionName parameters result = String.ofList text := by
  have parts := blankFree.parts found
  have names : parameters.map (fun parameter => (registry.name parameter).toList) =
      parameterTexts := by
    have inside : ∀ piece ∈ parameterTexts, TypeText.BlankFree piece :=
      fun piece among => parts piece (List.mem_cons_of_mem _ among)
    clear found parts
    induction each with
    | nil => rfl
    | cons denotes _ ih =>
        rw [List.map_cons, denotes.toList_name sound (inside _ List.mem_cons_self),
          ih fun piece among => inside piece (List.mem_cons_of_mem _ among)]
  rw [← String.toList_inj, toList_functionName, names,
    last.toList_name sound (parts _ List.mem_cons_self), String.toList_ofList]
  exact (TypeText.written_of_functionParts? blankFree found).symm

theorem opensFunction_of_functionParts? {text result : List Char} {parameters : List (List Char)}
    (found : TypeText.functionParts? text = some (parameters, result)) :
    TypeText.OpensFunction (String.ofList text) := by
  simp only [TypeText.functionParts?, Option.bind_eq_bind, Option.bind_eq_some_iff] at found
  obtain ⟨inside, atInside, _⟩ := found
  unfold TypeText.functionInside? TypeText.bracketed? at atInside
  split at atInside
  · split at atInside
    · rename_i bracketed
      split at bracketed
      · exact ⟨_, String.toList_ofList⟩
      · cases bracketed
    · cases atInside
  · cases atInside

/-- The last step of resolution: the parts are known, the function type is made,
and the text becomes a spelling of it. -/
theorem Sound.spellFunction (sound : registry.Sound mayRefer)
    (admits : AdmitsNongeneric mayRefer) {text resultText : List Char}
    {parameterTexts : List (List Char)} {parameters : List TypeId} {result : TypeId}
    (found : TypeText.functionParts? text = some (parameterTexts, resultText))
    (each : List.Forall₂ registry.Denotes parameterTexts parameters)
    (last : registry.Denotes resultText result)
    (unspelled : registry.functions.get? (String.ofList text) = none) :
    ((registry.function parameters result).2.spell (String.ofList text)
        (registry.function parameters result).1).Sound mayRefer ∧
      Resolves text.length registry ((registry.function parameters result).2.spell
        (String.ofList text) (registry.function parameters result).1) := by
  have inside : ∀ id ∈ result :: parameters, registry.HasKind (mayRefer
      (.function ⟨registry.functionName parameters result, parameters, result⟩)) id := by
    intro id among
    rcases List.mem_cons.1 among with rfl | among
    · exact (last.isPlain sound).imp (admits _ _)
    · exact (each.imp fun _ _ denotes => (denotes.isPlain sound).imp (admits _ _)).forall_right id
        among
  have short : (registry.functionName parameters result).length ≤ text.length :=
    length_functionName_le found (each.imp fun _ _ denotes => denotes.length_name_le sound)
      (last.length_name_le sound)
  obtain ⟨made, interns, listed, keys⟩ := sound.function inside
  obtain ⟨signature, there, spelled⟩ := made.interned listed
  have only : ∀ {other : TypeId}, (registry.function parameters result).2.functions.get?
      (String.ofList text) = some other → other = (registry.function parameters result).1 := by
    intro other spelled
    rcases keys spelled with spelled | ⟨_, same⟩
    · simp [unspelled] at spelled
    · exact same
  have spelledBy : signature.SpelledBy (String.ofList text) := by
    refine ⟨?_, opensFunction_of_functionParts? found, fun blankFree => ?_⟩
    · rw [String.length_ofList]
      exact Nat.le_trans spelled.short short
    · rw [String.toList_ofList] at blankFree
      have same := sound.functionName_of_functionParts? blankFree found each last
      rw [same] at spelled
      exact spelled.name_eq (by rwa [String.toList_ofList])
  have apart : (registry.function parameters result).2.ComesApart (String.ofList text)
      (registry.function parameters result).1 := by
    refine .inr ⟨parameterTexts, resultText, parameters, result, by rwa [String.toList_ofList],
      each.imp fun _ _ denotes => (denotes.spells sound).grows interns.toGrows,
      (last.spells sound).grows interns.toGrows, ?_⟩
    rw [functionName_eq interns.types fun part among => (inside part among).has]
    exact listed
  refine ⟨made.spell there spelledBy apart only,
    ⟨⟨⟨interns.types, interns.names, ?_⟩, interns.same_names, interns.only_functions⟩, ?_⟩⟩
  · intro key id entry
    have kept := interns.functions entry
    rw [get?_functions_spell]
    split
    · rename_i same
      subst same
      exact congrArg some (only kept).symm
    · exact kept
  · intro key id entry
    rw [get?_functions_spell] at entry
    split at entry
    · rename_i same
      subst same
      exact .inr (Nat.le_of_eq String.length_ofList)
    · rcases keys entry with entry | ⟨rfl, _⟩
      · exact .inl entry
      · exact .inr short

/-- What resolving a text does to any sound registry. -/
def ResolvesSoundly (mayRefer : Ty → Ty → Prop) (bound : Nat) (text : List Char) : Prop :=
  ∀ ⦃registry : Registry⦄ ⦃outcome : Except Fault TypeId⦄ ⦃reached : Registry⦄,
    registry.Sound mayRefer → (resolveChars text).run.run registry = (outcome, reached) →
      reached.Sound mayRefer ∧ Resolves bound registry reached ∧
        ∀ id, outcome = .ok id → reached.Denotes text id

theorem ResolvesSoundly.mono {bound wider : Nat} {text : List Char} (le : bound ≤ wider)
    (resolves : ResolvesSoundly mayRefer bound text) : ResolvesSoundly mayRefer wider text := by
  intro registry outcome reached sound run
  obtain ⟨made, short, denotes⟩ := resolves sound run
  exact ⟨made, short.mono le, denotes⟩

theorem ResolvesSoundly.mapM {bound : Nat} {texts : List (List Char)}
    (each : ∀ text ∈ texts, ResolvesSoundly mayRefer bound text)
    {outcome : Except Fault (List TypeId)} {reached : Registry} (sound : registry.Sound mayRefer)
    (run : (texts.mapM resolveChars).run.run registry = (outcome, reached)) :
    reached.Sound mayRefer ∧ Resolves bound registry reached ∧
      ∀ ids, outcome = .ok ids → List.Forall₂ reached.Denotes texts ids :=
  run_mapM (Sound mayRefer) (Resolves bound) (fun text id registry => registry.Denotes text id)
    (Resolves.refl _) Resolves.trans (fun resolves denotes => resolves.toInterns.denotes denotes)
    (fun text among _ _ _ sound run => each text among sound run) sound run

/-- **Resolution of a text.** It interns function types under texts no longer than
the given one, keeps the registry sound, and when it succeeds the text is known from
then on. -/
theorem resolveChars_sound (admits : AdmitsNongeneric mayRefer)
    (text : List Char) {outcome : Except Fault TypeId} {reached : Registry}
    (sound : registry.Sound mayRefer)
    (run : (resolveChars text).run.run registry = (outcome, reached)) :
    reached.Sound mayRefer ∧ Resolves (Text.trim text).length registry reached ∧
      ∀ id, outcome = .ok id → reached.Denotes text id := by
  induction size : text.length using Nat.strongRecOn
    generalizing text registry outcome reached with
  | _ size ih =>
      rw [run_resolveChars] at run
      split at run
      · rename_i id known
        obtain ⟨rfl, rfl⟩ := Prod.mk.inj run
        exact ⟨sound, .refl _ _, fun other same => Except.ok.inj same ▸ known⟩
      rename_i unknown
      split at run
      · obtain ⟨rfl, rfl⟩ := Prod.mk.inj run
        exact ⟨sound, .refl _ _, fun id same => by simp at same⟩
      rename_i parameterTexts resultText found
      have shorter := TypeText.length_lt_of_functionParts? found
      have trimmed := Text.length_trim_le text
      -- The parts make spellings that are shorter than the text.
      have part : ∀ piece : List Char, piece.length < (Text.trim text).length →
          ResolvesSoundly mayRefer ((Text.trim text).length - 1) piece := by
        intro piece less
        have trimmedPiece := Text.length_trim_le piece
        exact ResolvesSoundly.mono (by omega)
          fun _ _ _ sound run => ih piece.length (by omega) piece sound run rfl
      have less : ∀ {reached : Registry},
          Resolves ((Text.trim text).length - 1) registry reached →
            Resolves (Text.trim text).length registry reached :=
        fun resolves => resolves.mono (by omega)
      cases first : (parameterTexts.mapM resolveChars).run.run registry with
      | mk outcomes middle =>
          obtain ⟨madeMiddle, resolvesMiddle, each⟩ := ResolvesSoundly.mapM
            (fun piece among => part piece (shorter.1 piece among)) sound first
          rw [first] at run
          cases outcomes with
          | error fault =>
              obtain ⟨rfl, rfl⟩ := Prod.mk.inj run
              exact ⟨madeMiddle, less resolvesMiddle, fun id same => by simp at same⟩
          | ok parameters =>
              dsimp only at run
              cases second : (resolveChars resultText).run.run middle with
              | mk outcomeLast last =>
                  obtain ⟨madeLast, resolvesLast, denotesLast⟩ :=
                    part resultText shorter.2 madeMiddle second
                  have resolves := resolvesMiddle.trans resolvesLast
                  rw [second] at run
                  cases outcomeLast with
                  | error fault =>
                      obtain ⟨rfl, rfl⟩ := Prod.mk.inj run
                      exact ⟨madeLast, less resolves, fun id same => by simp at same⟩
                  | ok result =>
                      obtain ⟨rfl, rfl⟩ := Prod.mk.inj run
                      have unspelled := resolves.unspelled
                        (by rw [String.length_ofList]; omega) (known?_eq_none unknown).2
                      obtain ⟨made, spelled⟩ := madeLast.spellFunction admits found
                        ((each parameters rfl).imp fun piece id denotes =>
                          resolvesLast.toInterns.denotes denotes) (denotesLast result rfl) unspelled
                      have all := (less resolves).trans spelled
                      refine ⟨made, all, fun id same => ?_⟩
                      obtain rfl := Except.ok.inj same
                      rw [Denotes, known?, lookup?, all.same_names, (known?_eq_none unknown).1]
                      exact (get?_functions_spell _ _ _ _).trans (if_pos rfl)

theorem resolvesSoundly (admits : AdmitsNongeneric mayRefer) (text : List Char) :
    ResolvesSoundly mayRefer (Text.trim text).length text :=
  fun _ _ _ sound run => resolveChars_sound admits text sound run

/-- After the parts of an unknown text have been resolved, they are known and the text
itself is still not spelled. -/
theorem Sound.resolvedParts (sound : registry.Sound mayRefer)
    (admits : AdmitsNongeneric mayRefer) {text resultText : List Char}
    {parameterTexts : List (List Char)} {parameters : List TypeId} {result : TypeId}
    {middle last : Registry}
    (unknown : registry.known? (String.ofList (Text.trim text)) = none)
    (found : TypeText.functionParts? (Text.trim text) = some (parameterTexts, resultText))
    (first : (parameterTexts.mapM resolveChars).run.run registry = (.ok parameters, middle))
    (second : (resolveChars resultText).run.run middle = (.ok result, last)) :
    last.Sound mayRefer ∧ List.Forall₂ last.Denotes parameterTexts parameters ∧
      last.Denotes resultText result ∧
        last.functions.get? (String.ofList (Text.trim text)) = none := by
  have shorter := TypeText.length_lt_of_functionParts? found
  have part : ∀ piece : List Char, piece.length < (Text.trim text).length →
      ResolvesSoundly mayRefer ((Text.trim text).length - 1) piece := by
    intro piece less
    have trimmed := Text.length_trim_le piece
    exact (resolvesSoundly admits piece).mono (by omega)
  obtain ⟨madeMiddle, resolvesMiddle, each⟩ := ResolvesSoundly.mapM
    (fun piece among => part piece (shorter.1 piece among)) sound first
  obtain ⟨madeLast, resolvesLast, denotes⟩ := part resultText shorter.2 madeMiddle second
  refine ⟨madeLast, (each parameters rfl).imp fun piece id known =>
    resolvesLast.toInterns.denotes known, denotes result rfl, ?_⟩
  have longer := shorter.2
  exact (resolvesMiddle.trans resolvesLast).unspelled (by rw [String.length_ofList]; omega)
    (known?_eq_none unknown).2

/-- A property that stays when a text becomes a spelling of a function type. -/
def KeptBySpelling (mayRefer : Ty → Ty → Prop) (holds : Registry → Prop) : Prop :=
  ∀ ⦃registry : Registry⦄ ⦃text resultText : List Char⦄ ⦃parameterTexts : List (List Char)⦄
    ⦃parameters : List TypeId⦄ ⦃result : TypeId⦄, registry.Sound mayRefer → holds registry →
    TypeText.functionParts? text = some (parameterTexts, resultText) →
    List.Forall₂ registry.Denotes parameterTexts parameters →
    registry.Denotes resultText result →
    registry.functions.get? (String.ofList text) = none →
      holds ((registry.function parameters result).2.spell (String.ofList text)
        (registry.function parameters result).1)

theorem keptBySpelling_true : KeptBySpelling mayRefer fun _ => True :=
  fun _ _ _ _ _ _ _ _ _ _ _ _ => trivial

/-- Resolution changes a registry only by spelling function types. -/
theorem resolveChars_keeps {holds : Registry → Prop} (admits : AdmitsNongeneric mayRefer)
    (kept : KeptBySpelling mayRefer holds) (text : List Char) {outcome : Except Fault TypeId}
    {reached : Registry} (sound : registry.Sound mayRefer) (start : holds registry)
    (run : (resolveChars text).run.run registry = (outcome, reached)) : holds reached := by
  induction size : text.length using Nat.strongRecOn
    generalizing text registry outcome reached with
  | ind size ih =>
      rw [run_resolveChars] at run
      split at run
      · obtain ⟨rfl, rfl⟩ := Prod.mk.inj run
        exact start
      rename_i unknown
      split at run
      · obtain ⟨rfl, rfl⟩ := Prod.mk.inj run
        exact start
      rename_i parameterTexts resultText found
      have shorter := TypeText.length_lt_of_functionParts? found
      have trimmed := Text.length_trim_le text
      have part : ∀ piece : List Char, piece.length < (Text.trim text).length →
          ∀ {registry : Registry} {outcome : Except Fault TypeId} {reached : Registry},
            registry.Sound mayRefer ∧ holds registry →
              (resolveChars piece).run.run registry = (outcome, reached) →
                (reached.Sound mayRefer ∧ holds reached) ∧ True ∧
                  ∀ id, outcome = .ok id → True := by
        intro piece less registry outcome reached both run
        have made := (resolveChars_sound admits piece both.1 run).1
        exact ⟨⟨made, ih piece.length (by omega) piece both.1 both.2 run rfl⟩, trivial,
          fun _ _ => trivial⟩
      cases first : (parameterTexts.mapM resolveChars).run.run registry with
      | mk outcomes middle =>
          have atMiddle := (run_mapM (fun registry => registry.Sound mayRefer ∧ holds registry)
            (fun _ _ => True) (fun _ _ _ => True) (fun _ => trivial) (fun _ _ => trivial)
            (fun _ _ => trivial) (fun piece among => part piece (shorter.1 piece among))
            ⟨sound, start⟩ first).1
          rw [first] at run
          cases outcomes with
          | error fault =>
              obtain ⟨rfl, rfl⟩ := Prod.mk.inj run
              exact atMiddle.2
          | ok parameters =>
              dsimp only at run
              cases second : (resolveChars resultText).run.run middle with
              | mk outcomeLast last =>
                  have atLast := (part resultText shorter.2 atMiddle second).1
                  rw [second] at run
                  cases outcomeLast with
                  | error fault =>
                      obtain ⟨rfl, rfl⟩ := Prod.mk.inj run
                      exact atLast.2
                  | ok result =>
                      obtain ⟨rfl, rfl⟩ := Prod.mk.inj run
                      obtain ⟨_, each, denotes, unspelled⟩ :=
                        sound.resolvedParts admits unknown found first second
                      exact kept atLast.1 atLast.2 found each denotes unspelled

theorem resolve_sound (admits : AdmitsNongeneric mayRefer) (text : String)
    {outcome : Except Fault TypeId} {reached : Registry}
    (sound : registry.Sound mayRefer)
    (run : (resolve text).run.run registry = (outcome, reached)) :
    reached.Sound mayRefer ∧ Interns registry reached ∧
      ∀ id, outcome = .ok id → reached.Denotes text.toList id := by
  obtain ⟨made, resolves, denotes⟩ := resolveChars_sound admits text.toList sound run
  exact ⟨made, resolves.toInterns, denotes⟩

theorem resolveAll_sound (admits : AdmitsNongeneric mayRefer)
    (texts : List String) {outcome : Except Fault (List TypeId)}
    {reached : Registry} (sound : registry.Sound mayRefer)
    (run : (texts.mapM resolve).run.run registry = (outcome, reached)) :
    reached.Sound mayRefer ∧ Interns registry reached ∧
      ∀ ids, outcome = .ok ids → ∀ id ∈ ids, reached.IsPlain id := by
  have each : ∀ text ∈ texts, ∀ {registry : Registry} {outcome : Except Fault TypeId}
      {reached : Registry}, registry.Sound mayRefer →
        (resolve text).run.run registry = (outcome, reached) →
          reached.Sound mayRefer ∧ Interns registry reached ∧
            ∀ id, outcome = .ok id → reached.IsPlain id := by
    intro text _ registry outcome reached sound run
    obtain ⟨made, interns, denotes⟩ := resolve_sound admits text sound run
    exact ⟨made, interns, fun id same => (denotes id same).isPlain made⟩
  obtain ⟨made, interns, there⟩ := run_mapM (Sound mayRefer) Interns
    (fun _ id registry => registry.IsPlain id) Interns.refl Interns.trans
    (fun interns plain => plain.of_types interns.types) each sound run
  exact ⟨made, interns, fun ids same => (there ids same).forall_right⟩

theorem resolveAll_keeps {holds : Registry → Prop} (admits : AdmitsNongeneric mayRefer)
    (kept : KeptBySpelling mayRefer holds) (texts : List String)
    {outcome : Except Fault (List TypeId)} {reached : Registry} (sound : registry.Sound mayRefer)
    (start : holds registry) (run : (texts.mapM resolve).run.run registry = (outcome, reached)) :
    holds reached := by
  have each : ∀ text ∈ texts, ∀ {registry : Registry} {outcome : Except Fault TypeId}
      {reached : Registry}, registry.Sound mayRefer ∧ holds registry →
        (resolve text).run.run registry = (outcome, reached) →
          (reached.Sound mayRefer ∧ holds reached) ∧ True ∧ ∀ id, outcome = .ok id → True := by
    intro text _ registry outcome reached both run
    exact ⟨⟨(resolve_sound admits text both.1 run).1,
      resolveChars_keeps admits kept text.toList both.1 both.2 run⟩, trivial, fun _ _ => trivial⟩
  exact (run_mapM (fun registry => registry.Sound mayRefer ∧ holds registry)
    (fun _ _ => True) (fun _ _ _ => True) (fun _ => trivial) (fun _ _ => trivial)
    (fun _ _ => trivial) each ⟨sound, start⟩ run).1.2

/-! ## Declarations -/

/-- Every class and generic function of the second registry is one of the first. -/
def Captureless (before after : Registry) : Prop :=
  ∀ {id : TypeId} {type : Ty}, after.get? id = some type → type.scope?.isSome = true →
    before.get? id = some type

theorem Interns.captureless (interns : Interns before after) : Captureless before after := by
  intro id type found captures
  rcases interns.only_functions found with found | ⟨signature, rfl⟩
  · exact found
  · simp [Ty.scope?] at captures

theorem captureless_declare {name : String} (captureless : type.scope? = none) :
    Captureless registry (registry.declare name type).2 := by
  intro id content found captures
  change (registry.add type).2.get? id = some content at found
  rw [get?_add] at found
  split at found
  · obtain rfl := Option.some.inj found
    simp [captureless] at captures
  · exact found

theorem get?_declare (registry : Registry) (name : String) (type : Ty) :
    (registry.declare name type).2.get? (registry.declare name type).1 = some type :=
  (get?_add registry type _).trans (if_pos rfl)

theorem run_claim (name : String) (registry : Registry) :
    (claim name).run.run registry =
      (if registry.names.contains name then .error (.redeclaration name) else .ok (),
        registry) := by
  rw [claim, run_bind, run_get]
  dsimp only
  split <;> rfl

theorem get?_names_of_contains {name : String} (free : ¬ registry.names.contains name = true) :
    registry.names.get? name = none := by
  cases listed : registry.names.get? name with
  | none => rfl
  | some id => simp [NameTable.contains, listed] at free

/-- What the declaration of a name does to a registry: it makes function types for the
texts that it reads, and when it succeeds it declares one new type under the name, which
was free. What spelling keeps holds until then. -/
inductive Declaration (mayRefer : Ty → Ty → Prop) (holds : Registry → Prop) (shape : Ty → Prop)
    (name : String) (before : Registry) : Except Fault TypeId → Registry → Prop where
  | failed {fault : Fault} {after : Registry} (interns : Interns before after)
      (sound : after.Sound mayRefer) (kept : holds after) :
      Declaration mayRefer holds shape name before (.error fault) after
  | made {middle : Registry} {type : Ty} (interns : Interns before middle)
      (sound : middle.Sound mayRefer) (kept : holds middle)
      (unclaimed : middle.names.get? name = none)
      (inside : ∀ reference ∈ type.references, middle.HasKind (mayRefer type) reference)
      (declared : type.declaredName? = some name) (shaped : shape type) :
      Declaration mayRefer holds shape name before (.ok (middle.declare name type).1)
        (middle.declare name type).2

namespace Declaration

variable {holds : Registry → Prop} {shape : Ty → Prop} {name : String}
  {outcome : Except Fault TypeId}

theorem sound (declaration : Declaration mayRefer holds shape name before outcome after) :
    after.Sound mayRefer := by
  cases declaration with
  | failed _ sound _ => exact sound
  | made _ sound _ _ inside declared _ => exact sound.declare inside declared

theorem grows (declaration : Declaration mayRefer holds shape name before outcome after) :
    Grows before after := by
  cases declaration with
  | failed interns _ _ => exact interns.toGrows
  | made interns _ _ unclaimed _ _ _ => exact interns.toGrows.trans (grows_declare _ unclaimed)

theorem isPlain (declaration : Declaration mayRefer holds shape name before outcome after) :
    ∀ id, outcome = .ok id → after.IsPlain id := by
  intro id same
  cases declaration with
  | failed => cases same
  | made _ _ _ _ _ declared _ =>
      obtain rfl := Except.ok.inj same
      exact ⟨_, get?_declare _ _ _, Ty.isNongeneric_of_declaredName? declared⟩

theorem captureless (declaration : Declaration mayRefer holds shape name before outcome after)
    (scopeless : ∀ {type : Ty}, shape type → type.scope? = none) : Captureless before after := by
  intro id type found captures
  cases declaration with
  | failed interns _ _ => exact interns.captureless found captures
  | made interns _ _ _ _ _ shaped =>
      exact interns.captureless (captureless_declare (scopeless shaped) found captures) captures

end Declaration

/-- A declaration first refuses a name that is taken. -/
theorem declaration_of_claim {holds : Registry → Prop} {shape : Ty → Prop} {name : String}
    {step : RegistryM TypeId} {outcome : Except Fault TypeId} {reached : Registry}
    (sound : registry.Sound mayRefer) (start : holds registry)
    (run : (do claim name; step : RegistryM TypeId).run.run registry = (outcome, reached))
    (next : registry.names.get? name = none → step.run.run registry = (outcome, reached) →
      Declaration mayRefer holds shape name registry outcome reached) :
    Declaration mayRefer holds shape name registry outcome reached := by
  rw [run_bind, run_claim] at run
  by_cases taken : registry.names.contains name = true
  · rw [if_pos taken] at run
    obtain ⟨rfl, rfl⟩ := Prod.mk.inj run
    exact .failed (.refl _) sound start
  · rw [if_neg taken] at run
    exact next (get?_names_of_contains taken) run

theorem declareClass_declaration {holds : Registry → Prop} {superclass : Option TypeId}
    {name : String} {scope : ScopeId} (inside : ∀ parent ∈ superclass,
      registry.HasKind (mayRefer (.nominal ⟨name, superclass, scope⟩)) parent)
    {outcome : Except Fault TypeId} {reached : Registry}
    (sound : registry.Sound mayRefer) (start : holds registry)
    (run : (declareClass name superclass scope).run.run registry = (outcome, reached)) :
    Declaration mayRefer holds (· = .nominal ⟨name, superclass, scope⟩) name registry outcome
      reached := by
  refine declaration_of_claim sound start run fun unclaimed declares => ?_
  obtain ⟨rfl, rfl⟩ := Prod.mk.inj declares
  exact .made (.refl _) sound start unclaimed
    (fun reference among => inside reference (by simpa [Ty.references] using among)) rfl rfl

theorem declareAlias_declaration {holds : Registry → Prop} (admits : AdmitsNongeneric mayRefer)
    (kept : KeptBySpelling mayRefer holds)
    (name parent : String) {outcome : Except Fault TypeId} {reached : Registry}
    (sound : registry.Sound mayRefer) (start : holds registry)
    (run : (declareAlias name parent).run.run registry = (outcome, reached)) :
    Declaration mayRefer holds (fun type => ∃ target, type = .alias name target) name registry
      outcome reached := by
  refine declaration_of_claim sound start run fun unclaimed declares => ?_
  rw [run_bind] at declares
  cases resolved : (resolve parent).run.run registry with
  | mk outcome middle =>
      obtain ⟨made, interns, denotes⟩ := resolve_sound admits parent sound resolved
      have keeps := resolveChars_keeps admits kept parent.toList sound start resolved
      rw [resolved] at declares
      cases outcome with
      | error fault =>
          obtain ⟨rfl, rfl⟩ := Prod.mk.inj declares
          exact .failed interns made keeps
      | ok target =>
          obtain ⟨rfl, rfl⟩ := Prod.mk.inj declares
          refine .made interns made keeps (interns.same_names ▸ unclaimed) ?_ rfl ⟨target, rfl⟩
          intro reference among
          obtain rfl := List.mem_singleton.1 among
          exact ((denotes reference rfl).isPlain made).imp (admits _ _)

theorem declareUnion_declaration {holds : Registry → Prop} (admits : AdmitsNongeneric mayRefer)
    (kept : KeptBySpelling mayRefer holds)
    (name : String) (members : List String) {outcome : Except Fault TypeId} {reached : Registry}
    (sound : registry.Sound mayRefer) (start : holds registry)
    (run : (declareUnion name members).run.run registry = (outcome, reached)) :
    Declaration mayRefer holds (fun type => ∃ members, type = .union name members) name registry
      outcome reached := by
  refine declaration_of_claim sound start run fun unclaimed declares => ?_
  rw [run_bind] at declares
  cases resolved : (members.mapM resolve).run.run registry with
  | mk outcome middle =>
      obtain ⟨made, interns, there⟩ := resolveAll_sound admits members sound resolved
      have keeps := resolveAll_keeps admits kept members sound start resolved
      rw [resolved] at declares
      cases outcome with
      | error fault =>
          obtain ⟨rfl, rfl⟩ := Prod.mk.inj declares
          exact .failed interns made keeps
      | ok types =>
          obtain ⟨rfl, rfl⟩ := Prod.mk.inj declares
          exact .made interns made keeps (interns.same_names ▸ unclaimed)
            (fun reference among => (there types rfl reference among).imp (admits _ _)) rfl
            ⟨types, rfl⟩

/-! ## Well-formed registries -/

theorem resolve_resolves (text : String) {outcome : Except Fault TypeId} {reached : Registry}
    (wellFormed : registry.WellFormed)
    (run : (resolve text).run.run registry = (outcome, reached)) :
    reached.WellFormed ∧ Interns registry reached ∧
      ∀ id, outcome = .ok id → reached.Denotes text.toList id :=
  resolve_sound admitsNongeneric text wellFormed run

/-- What the declaration of an alias or of a choice of types does to a well-formed
registry: it grows by types that keep no scope. -/
structure Declares (before after : Registry) : Prop where
  wellFormed : after.WellFormed
  grows : Grows before after
  captureless : Captureless before after

theorem declareAlias_declares (name parent : String) {outcome : Except Fault TypeId}
    {reached : Registry} (wellFormed : registry.WellFormed)
    (run : (declareAlias name parent).run.run registry = (outcome, reached)) :
    Declares registry reached ∧ ∀ id, outcome = .ok id → reached.IsPlain id := by
  have declaration := declareAlias_declaration admitsNongeneric keptBySpelling_true name parent
    wellFormed trivial run
  refine ⟨⟨declaration.sound, declaration.grows, declaration.captureless ?_⟩, declaration.isPlain⟩
  rintro _ ⟨target, rfl⟩
  rfl

theorem declareUnion_declares (name : String) (members : List String)
    {outcome : Except Fault TypeId} {reached : Registry} (wellFormed : registry.WellFormed)
    (run : (declareUnion name members).run.run registry = (outcome, reached)) :
    Declares registry reached ∧ ∀ id, outcome = .ok id → reached.IsPlain id := by
  have declaration := declareUnion_declaration admitsNongeneric keptBySpelling_true name members
    wellFormed trivial run
  refine ⟨⟨declaration.sound, declaration.grows, declaration.captureless ?_⟩, declaration.isPlain⟩
  rintro _ ⟨members, rfl⟩
  rfl

end TypedLisp.Registry
