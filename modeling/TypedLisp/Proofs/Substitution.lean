import TypedLisp.Proofs.Decoding

/-!
# Type arguments in the places of generic names

An instance of a generic function names its types by texts in which type arguments have
taken the places of the generic names. Only whole words are replaced, and a character that
belongs to no word divides a text (`TypeText.replaceWords_append_cons`), so replacing goes on
inside a function type part by part (`TypeText.replaceWords_written`).

**Words as names.** When all declared names and all generic names are words, the text that
comes out stands for the type that one has in mind: it is the type of the text, with the
types of the arguments in the places of the generic names
(`Registry.Reaches.resolve_substitute`). A generic name hides a type that is declared under
it, and an argument is taken as it is, also when it mentions a generic name.
-/

set_option autoImplicit false

namespace TypedLisp

namespace TypeText

variable {replace : List Char → List Char}

/-! ## Words -/

theorem replaceWord_reverse (word : List Char) :
    replaceWord replace word.reverse = if word = [] then [] else replace word := by
  simp [replaceWord]

/-- A character between words ends one word, and another one may start behind it. -/
theorem replaceWords_append_cons (word first rest : List Char) {character : Char}
    (between : isWordChar character = false) :
    replaceWords replace word (first ++ character :: rest) =
      replaceWords replace word first ++ character :: replaceWords replace [] rest := by
  induction first generalizing word with
  | nil => simp [replaceWords, between]
  | cons other first ih =>
      simp only [List.cons_append, replaceWords]
      split
      · exact ih (other :: word)
      · rw [ih [], List.append_assoc, List.cons_append]

theorem replaceWords_of_forall (word : List Char) {text : List Char}
    (each : ∀ character ∈ text, isWordChar character = true) :
    replaceWords replace word text = replaceWord replace (text.reverse ++ word) := by
  induction text generalizing word with
  | nil => rfl
  | cons character text ih =>
      obtain ⟨first, rest⟩ := List.forall_mem_cons.1 each
      rw [replaceWords, if_pos first, ih _ rest, List.reverse_cons, List.append_assoc,
        List.singleton_append]

/-- A word is replaced as a whole. -/
theorem replaceWords_word {word : List Char} (nonempty : word ≠ [])
    (each : ∀ character ∈ word, isWordChar character = true) :
    replaceWords replace [] word = replace word := by
  rw [replaceWords_of_forall [] each, List.append_nil, replaceWord_reverse, if_neg nonempty]

/-! ## Texts of function types -/

theorem replaceWords_intercalate (texts : List (List Char)) :
    replaceWords replace [] ([','].intercalate texts) =
      [','].intercalate (texts.map (replaceWords replace [])) := by
  have comma : isWordChar ',' = false := by decide
  induction texts with
  | nil => rfl
  | cons first texts ih =>
      cases texts with
      | nil => simp
      | cons second rest =>
          rw [List.intercalate_cons_cons, List.append_assoc, List.singleton_append,
            replaceWords_append_cons _ _ _ comma, ih]
          simp

theorem replaceWords_append_writtenParameters (result : List Char)
    (parameters : List (List Char)) :
    replaceWords replace [] (result ++ writtenParameters parameters) =
      replaceWords replace [] result ++
        writtenParameters (parameters.map (replaceWords replace [])) := by
  have opened : isWordChar '<' = false := by decide
  have closed : isWordChar '>' = false := by decide
  by_cases empty : parameters = []
  · subst empty
    simp [writtenParameters]
  · rw [writtenParameters, if_neg empty, replaceWords_append_cons _ _ _ opened,
      replaceWords_append_cons _ _ _ closed, replaceWords_intercalate, writtenParameters,
      if_neg (by simpa using empty)]
    rfl

/-- **Replacing words goes on inside a function type part by part**, as long as the word
`Fn` stays. -/
theorem replaceWords_written (kept : replace ['F', 'n'] = ['F', 'n'])
    (parameters : List (List Char)) (result : List Char) :
    replaceWords replace [] (written parameters result) =
      written (parameters.map (replaceWords replace [])) (replaceWords replace [] result) := by
  have opened : isWordChar '<' = false := by decide
  have closed : isWordChar '>' = false := by decide
  have word : replaceWords replace [] ['F', 'n'] = ['F', 'n'] :=
    (replaceWords_word (by simp) (by simp [isWordChar])).trans kept
  calc
    replaceWords replace []
        (['F', 'n'] ++ '<' :: (result ++ writtenParameters parameters ++ ['>']))
      = ['F', 'n'] ++ '<' ::
          (replaceWords replace [] (result ++ writtenParameters parameters) ++ ['>']) := by
        rw [replaceWords_append_cons _ _ _ opened, word, replaceWords_append_cons _ _ _ closed]
        rfl
    _ = written (parameters.map (replaceWords replace [])) (replaceWords replace [] result) := by
        rw [replaceWords_append_writtenParameters]
        rfl

/-! ## Type arguments -/

/-- What takes the place of a word: the argument of the same place as the generic name that
it is, or else the word itself. -/
def replacement (generics arguments : List String) (word : List Char) : List Char :=
  ((generics.zip arguments).lookup (String.ofList word)).elim word String.toList

variable {generics arguments : List String}

theorem toList_substitute (generics arguments : List String) (text : String) :
    (substitute generics arguments text).toList =
      replaceWords (replacement generics arguments) [] text.toList := by
  rw [substitute, String.toList_ofList]
  congr 1
  funext word
  unfold replacement
  cases (generics.zip arguments).lookup (String.ofList word) <;> rfl

theorem replacement_of_notMem {word : List Char} (foreign : String.ofList word ∉ generics) :
    replacement generics arguments word = word := by
  have absent : (generics.zip arguments).lookup (String.ofList word) = none := by
    rw [List.lookup_eq_none_iff]
    intro pair among
    have listed : pair.1 ∈ generics := (List.of_mem_zip among).1
    exact bne_iff_ne.2 fun same => foreign (same ▸ listed)
  rw [replacement, absent, Option.elim_none]

/-- When no generic name is listed twice, each of them has one argument. -/
theorem replacement_of_mem_zip (distinct : generics.Nodup) {name argument : String}
    (paired : (name, argument) ∈ generics.zip arguments) :
    replacement generics arguments name.toList = argument.toList := by
  have found : (generics.zip arguments).lookup name = some argument := by
    induction generics generalizing arguments with
    | nil => cases paired
    | cons first rest ih =>
        cases arguments with
        | nil => cases paired
        | cons head tail =>
            obtain ⟨fresh, distinct⟩ := List.nodup_cons.1 distinct
            rw [List.zip_cons_cons] at paired ⊢
            rcases List.mem_cons.1 paired with same | later
            · obtain ⟨rfl, rfl⟩ := Prod.mk.inj same
              exact List.lookup_cons_self
            · have listed : name ∈ rest := (List.of_mem_zip later).1
              have other : name ≠ first := fun same => fresh (same ▸ listed)
              rw [List.lookup_cons, beq_false_of_ne other]
              exact ih distinct later
  rw [replacement, String.ofList_toList, found, Option.elim_some]

/-- A word is replaced as the name that it is. -/
theorem IsWord.replaceWords {name : String} (word : IsWord name) :
    replaceWords replace [] name.toList = replace name.toList :=
  replaceWords_word (ne_nil_of_plain word.isPlainName) word.2.2

theorem replacement_function (words : ∀ name ∈ generics, IsWord name) :
    replacement generics arguments ['F', 'n'] = ['F', 'n'] :=
  replacement_of_notMem fun listed => (words _ listed).2.1 rfl

/-- Replacing the names of a text by texts that derive gives a text that derives. -/
theorem Derives.replaceWords {isName isOther : String → Prop} {text : List Char}
    (words : ∀ name, isName name → IsWord name)
    (derive : ∀ name, isName name → Derives isOther (replace name.toList))
    (kept : replace ['F', 'n'] = ['F', 'n']) (derives : Derives isName text) :
    Derives isOther (replaceWords replace [] text) := by
  induction derives with
  | @name name isName =>
      rw [(words name isName).replaceWords]
      exact derive name isName
  | @function parameters result _ _ each last =>
      rw [replaceWords_written kept]
      refine .function (fun parameter among => ?_) last
      obtain ⟨original, listed, rfl⟩ := List.mem_map.1 among
      exact each original listed

end TypeText

namespace Registry

open TypeText (BlankFree Derives IsWord Spelled isPlainName replaceWords replacement substitute
  written)

variable {registry : Registry} {generics arguments : List String} {id : TypeId}

/-! ## Types of texts with type arguments -/

/-- A type stands for a text of a generic function, at the type arguments: for a generic name
stands the type of its argument, also when a type is declared under the name, for any other
name its type, and for a function type one over the types of its parts. -/
inductive StandsAt (registry : Registry) (generics arguments : List String) :
    List Char → TypeId → Prop where
  | generic {name argument : String} {id : TypeId} :
      (name, argument) ∈ generics.zip arguments →
      (resolve argument).run.run registry = (.ok id, registry) →
        StandsAt registry generics arguments name.toList id
  | name {name : String} {id : TypeId} : name ∉ generics → registry.names.get? name = some id →
      StandsAt registry generics arguments name.toList id
  | function {parameters : List (List Char)} {result : List Char} {id : TypeId}
      {signature : FunctionType} : registry.get? id = some (.function signature) →
      parameters.length = signature.parameters.length →
      (∀ pair ∈ parameters.zip signature.parameters,
        StandsAt registry generics arguments pair.1 pair.2) →
      StandsAt registry generics arguments result signature.result →
        StandsAt registry generics arguments (written parameters result) id

/-- The name of a type is resolved to the type, and the registry stays as it is. -/
theorem Legible.resolve_name (legible : registry.Legible) (sound : registry.Sound plainParts)
    (nongeneric : registry.IsPlain id) :
    (resolve (registry.name id)).run.run registry = (.ok id, registry) := by
  have spelled := legible.plain.spelled sound namesParts_plainParts nongeneric
  have current := legible.listed.isCurrent (legible.plain.plainNames sound) sound nongeneric
  rw [resolve, run_resolveChars, spelled.trim_eq, String.ofList_toList, current]

/-- A type whose name is the text of a function type is a function type over types that the
parts of the text name. -/
theorem Legible.function_of_name (legible : registry.Legible) (sound : registry.Sound plainParts)
    (nongeneric : registry.IsPlain id) {parameters : List (List Char)} {result : List Char}
    (each : ∀ parameter ∈ parameters, Spelled parameter) (last : Spelled result)
    (named : (registry.name id).toList = written parameters result) :
    ∃ signature, registry.get? id = some (.function signature) ∧
      (∀ part ∈ signature.result :: signature.parameters, registry.IsPlain part) ∧
      parameters = signature.parameters.map (fun parameter => (registry.name parameter).toList) ∧
      result = (registry.name signature.result).toList := by
  obtain ⟨type, found, notGeneric⟩ := nongeneric
  have typeNamed : registry.name id = type.name := by simp [Registry.name, found]
  cases declared : type.declaredName? with
  | some name =>
      rw [typeNamed, Ty.name_of_declaredName? declared] at named
      exact absurd ⟨_, named⟩
        (TypeText.not_opensFunction_of_plain (legible.plain id type name found declared))
  | none =>
      cases type with
      | function signature =>
          have inside : ∀ part ∈ signature.result :: signature.parameters,
              registry.IsPlain part := fun part among =>
            (sound.references found part among).2.imp (namesParts_plainParts _ _)
          have apart := legible.plain.functionParts?_functionName sound namesParts_plainParts inside
          have sameName : signature.name = registry.name id := typeNamed.symm
          rw [← (sound.canonical found).2, sameName, named,
            TypeText.functionParts?_written each last] at apart
          obtain ⟨sameParameters, sameResult⟩ := Prod.mk.inj (Option.some.inj apart)
          exact ⟨signature, found, inside, sameParameters, sameResult⟩
      | generic template => exact absurd rfl (notGeneric template)
      | _ => cases declared

section Words

/-- The names that a text of a generic function mentions. -/
def IsLeaf (registry : Registry) (generics : List String) (name : String) : Prop :=
  registry.names.contains name = true ∨ name ∈ generics

variable (words : ∀ name, registry.IsLeaf generics name → IsWord name)
  (distinct : generics.Nodup) (matching : arguments.length = generics.length)
  (derive : ∀ argument ∈ arguments,
    Derives (fun name => registry.names.contains name = true) argument.toList)
  {text : List Char} (derives : Derives (registry.IsLeaf generics) text)
include words distinct matching derive derives

/-- The text with the arguments in it derives from declared names. -/
theorem derives_replaceWords :
    Derives (fun name => registry.names.contains name = true)
      (replaceWords (replacement generics arguments) [] text) := by
  refine derives.replaceWords words (fun name isLeaf => ?_)
    (TypeText.replacement_function fun name listed => words name (.inr listed))
  by_cases listed : name ∈ generics
  · rw [← List.map_fst_zip (Nat.le_of_eq matching.symm)] at listed
    obtain ⟨pair, paired, rfl⟩ := List.mem_map.1 listed
    rw [TypeText.replacement_of_mem_zip distinct paired]
    exact derive _ (List.of_mem_zip paired).2
  · rw [TypeText.replacement_of_notMem (by rwa [String.ofList_toList])]
    exact .name (isLeaf.resolve_right listed)

/-- **A type that the replaced text names stands for the text at the type arguments.** By
induction on the text. -/
theorem Legible.standsAt (legible : registry.Legible) (sound : registry.Sound plainParts)
    (nongeneric : registry.IsPlain id)
    (named : (registry.name id).toList = replaceWords (replacement generics arguments) [] text) :
    registry.StandsAt generics arguments text id := by
  have spell : ∀ {part : List Char}, Derives (registry.IsLeaf generics) part →
      Spelled (replaceWords (replacement generics arguments) [] part) := fun derives =>
    (derives_replaceWords words distinct matching derive derives).spelled
      fun name isName => (words name (.inl isName)).isPlainName
  induction derives generalizing id with
  | @name name isLeaf =>
      rw [(words name isLeaf).replaceWords] at named
      by_cases listed : name ∈ generics
      · rw [← List.map_fst_zip (Nat.le_of_eq matching.symm)] at listed
        obtain ⟨⟨name, argument⟩, paired, rfl⟩ := List.mem_map.1 listed
        rw [TypeText.replacement_of_mem_zip distinct paired] at named
        refine .generic paired ?_
        rw [← String.toList_inj.1 named]
        exact legible.resolve_name sound nongeneric
      · rw [TypeText.replacement_of_notMem (by rwa [String.ofList_toList])] at named
        have current := legible.listed.isCurrent (legible.plain.plainNames sound) sound nongeneric
        obtain ⟨other, declared⟩ := Option.isSome_iff_exists.1 (isLeaf.resolve_right listed)
        rw [IsCurrent, String.toList_inj.1 named, known?_of_names declared] at current
        exact .name listed (declared.trans current)
  | @function parameters result each last ihEach ihLast =>
      rw [TypeText.replaceWords_written
        (TypeText.replacement_function fun name listed => words name (.inr listed))] at named
      obtain ⟨signature, found, inside, sameParameters, sameResult⟩ :=
        legible.function_of_name sound nongeneric (fun parameter among => by
          obtain ⟨original, listed, rfl⟩ := List.mem_map.1 among
          exact spell (each original listed)) (spell last) named
      have lengths : parameters.length = signature.parameters.length := by
        simpa using congrArg List.length sameParameters
      refine .function found lengths (fun pair among => ?_)
        (ihLast (inside _ List.mem_cons_self) sameResult.symm)
      obtain ⟨position, bound, rfl⟩ := List.mem_iff_getElem.1 among
      rw [List.length_zip, Nat.lt_min] at bound
      have image := List.getElem_of_eq sameParameters (by simpa using bound.1)
      rw [List.getElem_map, List.getElem_map] at image
      rw [List.getElem_zip]
      exact ihEach _ (List.getElem_mem bound.1)
        (inside _ (List.mem_cons_of_mem _ (List.getElem_mem bound.2))) image.symm

end Words

/-- **Replacing words in the text of a type is putting types in the places of names.** The
names are words, no generic name is listed twice, and each has an argument that is resolved.
Then the text with the arguments in it is resolved as well, and its type stands for the text
at the arguments: an argument is not replaced again, and a generic name goes before a declared
type. -/
theorem Reaches.resolve_substitute (built : Reaches PlainCall initial registry)
    (words : ∀ name, registry.IsLeaf generics name → IsWord name) (distinct : generics.Nodup)
    (matching : arguments.length = generics.length)
    (accepted : ∀ argument ∈ arguments, BlankFree argument.toList ∧
      ∃ id reached, (resolve argument).run.run registry = (.ok id, reached))
    {text : String} (derives : Derives (registry.IsLeaf generics) text.toList) :
    ∃ id reached,
      (resolve (substitute generics arguments text)).run.run registry = (.ok id, reached) ∧
        Interns registry reached ∧ reached.StandsAt generics arguments text.toList id := by
  obtain ⟨sound, legible⟩ := built.legible
  have derive : ∀ argument ∈ arguments,
      Derives (fun name => registry.names.contains name = true) argument.toList := by
    intro argument among
    obtain ⟨blankFree, id, reached, run⟩ := accepted argument among
    obtain ⟨_, interns, _, stands, _⟩ := built.resolved blankFree run
    exact interns.same_names ▸ stands.derives
  have replaced := derives_replaceWords words distinct matching derive derives
  rw [← TypeText.toList_substitute] at replaced
  obtain ⟨id, reached, run⟩ := resolveChars_of_derives admitsNongeneric_plainParts sound
    (legible.plain.plainNames sound) replaced
  have blankFree : BlankFree (substitute generics arguments text).toList :=
    (replaced.spelled fun name isName => (words name (.inl isName)).isPlainName).not_isBlank
  obtain ⟨later, interns, nongeneric, _, named⟩ := built.resolved blankFree run
  obtain ⟨laterSound, laterLegible⟩ := later.legible
  -- Resolution declares no names, so the text mentions the same ones afterwards.
  have sameLeaf : reached.IsLeaf generics = registry.IsLeaf generics := by
    funext name
    rw [IsLeaf, IsLeaf, interns.same_names]
  refine ⟨id, reached, run, interns, laterLegible.standsAt (sameLeaf ▸ words) distinct matching
    (interns.same_names.symm ▸ derive) (sameLeaf ▸ derives) laterSound nongeneric ?_⟩
  rw [named, TypeText.toList_substitute]

/-- The generic name `V` goes before the alias `V`, which the argument of `K` mentions. -/
theorem resolve_substitute_shadowing :
    ∃ registry id reached, Reaches PlainCall initial registry ∧
      registry.names.contains "V" = true ∧
      (resolve (substitute ["K", "V"] ["Fn<V>", "number"] "Fn<K<V,boolean>>")).run.run registry =
        (.ok id, reached) ∧
      reached.StandsAt ["K", "V"] ["Fn<V>", "number"] "Fn<K<V,boolean>>".toList id ∧
      reached.name id = "Fn<Fn<V><number,boolean>>" := by
  have word : ∀ name ∈ ["number", "string", "boolean", "any", "V", "K"], IsWord name := by
    simp [IsWord, TypeText.isWordChar]
  have built : Reaches PlainCall initial _ := .step (.declareAlias "V" "string") .refl
    (.of_handles_eq_nil trivial rfl fun name same =>
      Option.some.inj same ▸ (word "V" (by simp)).isPlainName)
  have names : ((Operation.declareAlias "V" "string").perform initial).names =
      ⟨[("number", .number), ("string", .string), ("boolean", .boolean), ("any", .any),
        ("V", ⟨4⟩)]⟩ := by decide +kernel
  have words : ∀ name, ((Operation.declareAlias "V" "string").perform initial).IsLeaf ["K", "V"]
      name → IsWord name := by
    intro name isLeaf
    apply word
    by_contra foreign
    simp only [List.mem_cons, List.not_mem_nil, or_false, not_or, eq_comm (a := name)] at foreign
    rcases isLeaf with declared | listed
    · simp [names, NameTable.contains, NameTable.get?, NameTable.find?, foreign] at declared
    · simp [foreign, eq_comm (a := name)] at listed
  have accepted : ∀ argument ∈ ["Fn<V>", "number"], BlankFree argument.toList ∧
      ∃ id reached, (resolve argument).run.run
        ((Operation.declareAlias "V" "string").perform initial) = (.ok id, reached) := by
    intro argument among
    rcases List.mem_pair.1 among with rfl | rfl
    · exact ⟨by simp [BlankFree, Text.isBlank], ⟨5⟩, _, Prod.ext (by decide +kernel) rfl⟩
    · exact ⟨by simp [BlankFree, Text.isBlank], .number, _, Prod.ext (by decide +kernel) rfl⟩
  have declared : ((Operation.declareAlias "V" "string").perform initial).names.contains
    "boolean" = true := by decide +kernel
  have derives : Derives (((Operation.declareAlias "V" "string").perform initial).IsLeaf ["K", "V"])
      "Fn<K<V,boolean>>".toList := by
    change Derives _ (written ["V".toList, "boolean".toList] "K".toList)
    refine .function (fun parameter among => ?_) (.name (.inr (by simp)))
    rcases List.mem_pair.1 among with rfl | rfl
    · exact .name (.inr (by simp))
    · exact .name (.inl declared)
  have matching : ["Fn<V>", "number"].length = ["K", "V"].length := rfl
  obtain ⟨id, reached, run, _, stands⟩ :=
    built.resolve_substitute words (by decide) matching accepted derives
  have replaced : substitute ["K", "V"] ["Fn<V>", "number"] "Fn<K<V,boolean>>" =
      "Fn<Fn<V><number,boolean>>" := by decide +kernel
  have blankFree : BlankFree "Fn<Fn<V><number,boolean>>".toList := by
    simp [BlankFree, Text.isBlank]
  exact ⟨_, id, reached, built, by decide +kernel, run, stands,
    (built.resolved blankFree (replaced ▸ run)).2.2.2.2⟩

end Registry

end TypedLisp
