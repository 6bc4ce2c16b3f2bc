import TypedLisp.Proofs.Instantiation
import TypedLisp.Proofs.Reachable
import TypedLisp.Proofs.Substitution

/-!
# Declared names in generic functions

A declared name may hold characters that are in no word, as `K-list` does, and then it falls
into several words (`TypeText.words`). An instance replaces the words of a type text, not its
names. So a declared name keeps its type in every instance exactly when none of its words is
a generic name (`Session.Reachable.declared_name_kept`): the name need not be generic itself
to be taken apart.
-/

set_option autoImplicit false

namespace TypedLisp

/-! ## Words of a text -/

namespace TypeText

variable {replace : List Char → List Char}

/-- The longest words of a text, in their order. -/
def words (text : List Char) : List (List Char) :=
  (text.splitOnP fun character => !isWordChar character).filter fun word => !word.isEmpty

theorem words_append_cons (first rest : List Char) {character : Char}
    (between : isWordChar character = false) :
    words (first ++ character :: rest) = words first ++ words rest := by
  rw [words, List.splitOnP_append_cons _ _ (by simp [between]), List.filter_append, words, words]

theorem words_of_forall {word : List Char} (nonempty : word ≠ [])
    (each : ∀ character ∈ word, isWordChar character = true) : words word = [word] := by
  rw [words, List.splitOnP_eq_singleton fun character among => by simp [each character among]]
  simp [nonempty]

/-- A text is empty, or a word, or two texts with a character between them that is in no
word. -/
theorem words_induction {motive : List Char → Prop} (nil : motive [])
    (word : ∀ word, word ≠ [] → (∀ character ∈ word, isWordChar character = true) → motive word)
    (cut : ∀ first character rest, isWordChar character = false → motive first → motive rest →
      motive (first ++ character :: rest)) (text : List Char) : motive text := by
  induction size : text.length using Nat.strongRecOn generalizing text with
  | ind size ih =>
      by_cases between : ∃ character ∈ text, isWordChar character = false
      · obtain ⟨character, among, outside⟩ := between
        obtain ⟨first, rest, rfl⟩ := List.append_of_mem among
        rw [List.length_append, List.length_cons] at size
        exact cut first character rest outside (ih first.length (by omega) first rfl)
          (ih rest.length (by omega) rest rfl)
      · by_cases empty : text = []
        · exact empty ▸ nil
        · exact word text empty fun character among => by
            by_contra outside
            exact between ⟨character, among, Bool.eq_false_of_not_eq_true outside⟩

theorem mem_words {text word : List Char} (among : word ∈ words text) :
    word ≠ [] ∧ ∀ character ∈ word, isWordChar character = true := by
  induction text using words_induction with
  | nil => cases among
  | word text nonempty each =>
      rw [words_of_forall nonempty each] at among
      obtain rfl := List.mem_singleton.1 among
      exact ⟨nonempty, each⟩
  | cut first character rest between left right =>
      rw [words_append_cons _ _ between] at among
      exact (List.mem_append.1 among).elim left right

/-- A text stays when its words do. -/
theorem replaceWords_eq_self {text : List Char} (kept : ∀ word ∈ words text, replace word = word) :
    replaceWords replace [] text = text := by
  induction text using words_induction with
  | nil => rfl
  | word word nonempty each =>
      rw [replaceWords_word nonempty each]
      exact kept word (by simp [words_of_forall nonempty each])
  | cut first character rest between left right =>
      rw [words_append_cons _ _ between] at kept
      rw [replaceWords_append_cons _ _ _ between,
        left fun word among => kept word (List.mem_append_left _ among),
        right fun word among => kept word (List.mem_append_right _ among)]

/-- When words are put in the places of words, these are the words of the text. -/
theorem words_replaceWords {text : List Char} (each : ∀ word ∈ words text, replace word ≠ [] ∧
      ∀ character ∈ replace word, isWordChar character = true) :
    words (replaceWords replace [] text) = (words text).map replace := by
  induction text using words_induction with
  | nil => rfl
  | word word nonempty inside =>
      rw [words_of_forall nonempty inside] at each ⊢
      obtain ⟨some, characters⟩ := each word (List.mem_singleton_self word)
      rw [replaceWords_word nonempty inside, words_of_forall some characters]
      rfl
  | cut first character rest between left right =>
      rw [words_append_cons _ _ between] at each ⊢
      rw [replaceWords_append_cons _ _ _ between, words_append_cons _ _ between, List.map_append,
        left fun word among => each word (List.mem_append_left _ among),
        right fun word among => each word (List.mem_append_right _ among)]

theorem blankFree_of_word {word : List Char}
    (each : ∀ character ∈ word, isWordChar character = true) : BlankFree word := by
  intro character among
  have plain := isPlainChar_of_isWordChar (each character among)
  simp only [isPlainChar, Bool.and_eq_true, Bool.not_eq_true'] at plain
  exact plain.1.1.1

theorem BlankFree.replaceWords {text : List Char} (blankFree : BlankFree text)
    (each : ∀ word ∈ words text, BlankFree (replace word)) :
    BlankFree (replaceWords replace [] text) := by
  induction text using words_induction with
  | nil => exact blankFree
  | word word nonempty inside =>
      rw [replaceWords_word nonempty inside]
      exact each word (by simp [words_of_forall nonempty inside])
  | cut first character rest between left right =>
      rw [words_append_cons _ _ between] at each
      obtain ⟨before, here, behind⟩ : BlankFree first ∧ Text.isBlank character = false ∧
          BlankFree rest := by simpa [BlankFree, or_imp, forall_and] using blankFree
      have left := left before fun word among => each word (List.mem_append_left _ among)
      have right := right behind fun word among => each word (List.mem_append_right _ among)
      rw [replaceWords_append_cons _ _ _ between]
      simpa [BlankFree, or_imp, forall_and] using And.intro left (And.intro here right)

/-- One type argument in the places of all generic names. -/
theorem replacement_replicate (generics : List String) (argument : String) (word : List Char) :
    replacement generics (List.replicate generics.length argument) word =
      if String.ofList word ∈ generics then argument.toList else word := by
  by_cases listed : String.ofList word ∈ generics
  · rw [if_pos listed]
    have paired :
        (generics.zip (List.replicate generics.length argument)).map Prod.fst = generics :=
      List.map_fst_zip (by simp)
    rw [← paired] at listed
    obtain ⟨pair, among, same⟩ := List.mem_map.1 listed
    cases found : (generics.zip (List.replicate generics.length argument)).lookup
        (String.ofList word) with
    | none =>
        have apart := List.lookup_eq_none_iff.1 found pair among
        simp [same] at apart
    | some value =>
        obtain ⟨front, back, together, _⟩ := List.lookup_eq_some_iff.1 found
        have there : (String.ofList word, value) ∈
            generics.zip (List.replicate generics.length argument) := by simp [together]
        rw [replacement, found, Option.elim_some,
          List.eq_of_mem_replicate (List.of_mem_zip there).2]
  · rw [if_neg listed, replacement_of_notMem listed]

end TypeText

/-! ## Resolving a declared name -/

namespace Registry

open TypeText (BlankFree)

variable {registry later : Registry} {name text : String} {id : TypeId}

theorem Interns.resolve_name (interns : Interns registry later)
    (declared : registry.lookup? name = some id) (blankFree : BlankFree name.toList) :
    (resolve name).run.run later = (.ok id, later) := by
  rw [resolve, run_resolveChars, TypeText.trim_eq_self blankFree, String.ofList_toList,
    known?_of_names (interns.names declared)]

/-- A text without blanks that is resolved to a declared type is its name. -/
theorem WellFormed.eq_of_resolve (wellFormed : registry.WellFormed)
    (declared : registry.lookup? name = some id) (blankFree : BlankFree text.toList)
    (run : (resolve text).run.run registry = (.ok id, later)) : text = name := by
  obtain ⟨made, interns, denotes⟩ := resolve_sound admitsNongeneric text wellFormed run
  obtain ⟨type, found, named⟩ := wellFormed.named declared
  have same : later.name id = name := by
    simp [Registry.name, interns.types found, Ty.name_of_declaredName? named]
  rw [← String.toList_inj, ← same, (denotes id rfl).toList_name made blankFree]

/-- A word in the places of all generic names leads back to a declared type only when it is
each of the generic names that are words of the type's name. -/
theorem WellFormed.eq_argument_of_resolve (wellFormed : registry.WellFormed)
    (declared : registry.lookup? name = some id) (blankFree : BlankFree name.toList)
    {generics : List String} {argument : String} (isWord : TypeText.IsWord argument)
    (run : (resolve (TypeText.substitute generics (List.replicate generics.length argument)
      name)).run.run registry = (.ok id, later)) {word : List Char}
    (among : word ∈ TypeText.words name.toList) (generic : String.ofList word ∈ generics) :
    word = argument.toList := by
  have replaced : ∀ word ∈ TypeText.words name.toList,
      TypeText.replacement generics (List.replicate generics.length argument) word ≠ [] ∧
        ∀ character ∈ TypeText.replacement generics (List.replicate generics.length argument) word,
          TypeText.isWordChar character = true := by
    intro word among
    rw [TypeText.replacement_replicate]
    split
    · exact ⟨TypeText.ne_nil_of_plain isWord.isPlainName, isWord.2.2⟩
    · exact TypeText.mem_words among
  have unblank : BlankFree (TypeText.substitute generics (List.replicate generics.length argument)
      name).toList := by
    rw [TypeText.toList_substitute]
    exact blankFree.replaceWords fun word among =>
      TypeText.blankFree_of_word (replaced word among).2
  have same := wellFormed.eq_of_resolve declared unblank run
  have mapped := TypeText.words_replaceWords replaced
  rw [← TypeText.toList_substitute, same] at mapped
  have kept := List.map_inj_left.1 ((List.map_id _).trans mapped) word among
  rwa [TypeText.replacement_replicate, if_pos generic] at kept

end Registry

/-! ## Instances -/

/-- The instance at some type arguments takes a declared name for a type: wherever it resolves
the name, and in every place of its signature where the name stands alone. -/
structure Template.KeepsName (template : Template) (types : Registry) (typeArguments : List String)
    (name : String) (id : TypeId) : Prop where
  resolves : ∀ {later : Registry}, Registry.Interns types later →
    (Registry.resolve (TypeText.substitute template.generics typeArguments name)).run.run later =
      (.ok id, later)
  signature : ∀ {parameters : List (String × TypeId)} {result : TypeId} {reached : Registry},
    (Checker.resolveSignature (template.writtenOut typeArguments)).run.run types =
      (.ok (parameters, result), reached) →
      (∀ pair ∈ template.parameters.zip parameters, pair.1.2 = name → pair.2.2 = id) ∧
        (template.result = name → result = id)

theorem Template.KeepsName.of_resolves {template : Template} {types : Registry}
    {typeArguments : List String} {name : String} {id : TypeId} (wellFormed : types.WellFormed)
    (resolves : ∀ {later : Registry}, Registry.Interns types later →
      (Registry.resolve (TypeText.substitute template.generics typeArguments name)).run.run later =
        (.ok id, later)) : template.KeepsName types typeArguments name id where
  resolves := resolves
  signature {parameters result reached} run := by
    obtain ⟨_, interns, each, last⟩ :=
      Checker.resolveSignature_denotes Registry.admitsNongeneric wellFormed run
    have same : ∀ {text : String} {other : TypeId}, text = name → reached.Denotes
        (TypeText.substitute template.generics typeArguments text).toList other → other = id := by
      rintro text other rfl denotes
      have again := resolves interns
      rw [Registry.resolve, Registry.run_resolveChars, denotes] at again
      exact Except.ok.inj (Prod.mk.inj again).1
    refine ⟨fun pair among isName => ?_, fun isName => same isName last⟩
    have typed := (List.forall₂_iff_zip.1 (List.forall₂_map_left_iff.1 each)).2 among
    exact same isName typed.2

namespace Session

open TypeText (BlankFree words)

variable {session : Session}

/-- **A declared name keeps its type in all instances of a generic function exactly when none
of its words is a generic name.** -/
theorem Reachable.declared_name_kept (reachable : session.Reachable) {name : String} {id : TypeId}
    (declared : session.types.lookup? name = some id) (blankFree : BlankFree name.toList)
    (template : Template) :
    ((∀ word ∈ words name.toList, String.ofList word ∉ template.generics) →
      ∀ typeArguments, template.KeepsName session.types typeArguments name id) ∧
    ((∃ word ∈ words name.toList, String.ofList word ∈ template.generics) →
      ∃ primitive ∈ ["number", "string"], ∀ reached,
        (Registry.resolve (TypeText.substitute template.generics
          (List.replicate template.generics.length primitive) name)).run.run session.types ≠
            (.ok id, reached)) := by
  have wellFormed : session.types.WellFormed := reachable.wellFormed.types
  constructor
  · intro foreign typeArguments
    have kept : TypeText.substitute template.generics typeArguments name = name := by
      rw [← String.toList_inj, TypeText.toList_substitute]
      exact TypeText.replaceWords_eq_self fun word among =>
        TypeText.replacement_of_notMem (foreign word among)
    refine .of_resolves wellFormed fun interns => ?_
    rw [kept]
    exact interns.resolve_name declared blankFree
  · rintro ⟨word, among, generic⟩
    by_contra all
    push Not at all
    obtain ⟨_, numbers⟩ := all "number" (by simp)
    obtain ⟨_, strings⟩ := all "string" (by simp)
    have number := wellFormed.eq_argument_of_resolve declared blankFree
      (by simp [TypeText.IsWord, TypeText.isWordChar]) numbers among generic
    have string := wellFormed.eq_argument_of_resolve declared blankFree
      (by simp [TypeText.IsWord, TypeText.isWordChar]) strings among generic
    cases number.symm.trans string

/-- The name `my_id` is one word, and an instance keeps it. The name `my-id` has the word `id`,
which is generic. -/
theorem declared_name_kept_underscore :
    ∃ type reached template, (initial false).checkSource
        "(type my-id number) (type my_id string) (def f <id> ((x id) (y my_id)) -> my-id 1)" =
          some (.ok type, reached) ∧
      reached.Reachable ∧ reached.types.template? type = some template ∧
      reached.types.lookup? "my_id" = some ⟨5⟩ ∧
      (∀ typeArguments, template.KeepsName reached.types typeArguments "my_id" ⟨5⟩) ∧
      reached.types.lookup? "my-id" = some ⟨4⟩ ∧
      ∃ primitive ∈ ["number", "string"], ∀ last,
        (Registry.resolve (TypeText.substitute template.generics
          (List.replicate template.generics.length primitive) "my-id")).run.run reached.types ≠
            (.ok ⟨4⟩, last) := by
  have checked : (((initial false).checkSource
      "(type my-id number) (type my_id string) (def f <id> ((x id) (y my_id)) -> my-id 1)").any
        fun ended => ended.1.toOption.any fun type =>
          (ended.2.types.template? type).any fun template => decide (template.generics = ["id"] ∧
            ended.2.types.lookup? "my_id" = some ⟨5⟩ ∧
            ended.2.types.lookup? "my-id" = some ⟨4⟩)) = true := by
    decide +kernel
  obtain ⟨type, reached, run, checked⟩ := exists_ok_of_any checked
  obtain ⟨template, found, checked⟩ := (Option.any_eq_true _ _).1 checked
  obtain ⟨generics, underscored, hyphened⟩ := of_decide_eq_true checked
  have reachable : reached.Reachable := .checkSource _ (.initial false) run
  have plain : BlankFree "my_id".toList := by simp [BlankFree, Text.isBlank]
  have plainHyphened : BlankFree "my-id".toList := by simp [BlankFree, Text.isBlank]
  have oneWord : words "my_id".toList = ["my_id".toList] := by decide +kernel
  have twoWords : words "my-id".toList = ["my".toList, "id".toList] := by decide +kernel
  refine ⟨type, reached, template, run, reachable, found, underscored,
    (reachable.declared_name_kept underscored plain template).1 ?_, hyphened,
    (reachable.declared_name_kept hyphened plainHyphened template).2 ?_⟩
  · rw [oneWord, generics]
    intro word among
    rw [List.mem_singleton.1 among, String.ofList_toList]
    decide
  · rw [twoWords, generics]
    exact ⟨_, List.mem_cons_of_mem _ (List.mem_singleton_self _), by
      rw [String.ofList_toList]
      exact List.mem_singleton_self _⟩

/-- A generic name takes the declared name `K-list` apart, and the instance asks for a type
that nobody has declared. -/
theorem declared_name_taken_apart :
    ∃ type reached, (initial false).checkSource
        "(type K-list number) (def f <K> ((x K) (y K-list)) -> number 1)" =
          some (.ok type, reached) ∧
      reached.Reachable ∧
      (reached.types.template? type).map Template.generics = some ["K"] ∧
      reached.types.lookup? "K-list" = some ⟨4⟩ ∧
      (reached.checkSource "(f <string> \"s\" 1)").map (·.1.mapError Error.fault) =
        some (.error (.unknownType "string-list")) := by
  have checked : (((initial false).checkSource
      "(type K-list number) (def f <K> ((x K) (y K-list)) -> number 1)").any fun ended =>
        ended.1.toOption.any fun type => decide (
          (ended.2.types.template? type).map Template.generics = some ["K"] ∧
          ended.2.types.lookup? "K-list" = some ⟨4⟩ ∧
          (ended.2.checkSource "(f <string> \"s\" 1)").map (·.1.mapError Error.fault) =
            some (.error (.unknownType "string-list")))) = true := by
    decide +kernel
  obtain ⟨type, reached, run, checked⟩ := exists_ok_of_any checked
  exact ⟨type, reached, run, .checkSource _ (.initial false) run, of_decide_eq_true checked⟩

end Session

end TypedLisp
