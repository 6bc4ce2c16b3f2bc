import TypedLisp.Proofs.Operations
import TypedLisp.Proofs.TypeNames

/-!
# Decoding type texts

A text without blanks is resolved exactly when it derives from declared names by the
grammar of type texts, `T ::= N | Fn<T> | Fn<T<T,...,T>>` (`TypeText.Derives`). The type
that it resolves to stands for the derivation (`Registry.StandsFor`): it is the type of a
declared name, or a function type over the types of the parts. Its canonical name is the
text again, so different texts lead to different types, and a text leads to the same type
for good (`Registry.Reaches.resolve_decodes`).

This is a theorem about the registries that are built with plain names, where nothing is
forgotten and no function type mentions a generic function. Two facts carry it: a declared
type is found under its name (`Listed`), and a text without blanks that is known is the
name of its type (`Sound.name_of_known?`).
-/

set_option autoImplicit false

namespace TypedLisp

namespace TypeText

/-- The texts of types over some names. -/
inductive Derives (isName : String → Prop) : List Char → Prop where
  | name {name : String} : isName name → Derives isName name.toList
  | function {parameters : List (List Char)} {result : List Char} :
      (∀ parameter ∈ parameters, Derives isName parameter) → Derives isName result →
        Derives isName (written parameters result)

theorem Derives.spelled {isName : String → Prop} {text : List Char}
    (plain : ∀ name, isName name → isPlainName name.toList = true)
    (derives : Derives isName text) : Spelled text := by
  induction derives with
  | name isName => exact .plain (plain _ isName)
  | function _ _ each last => exact .function each last

theorem toNat_of_isWordChar {character : Char} (word : isWordChar character = true) :
    48 ≤ character.toNat ∧ character.toNat ≤ 57 ∨ 65 ≤ character.toNat ∧ character.toNat ≤ 90 ∨
      95 ≤ character.toNat ∧ character.toNat ≤ 122 := by
  have ranges : ((decide (65 ≤ character.val ∧ character.val ≤ 90) ||
      decide (97 ≤ character.val) && decide (character.val ≤ 122)) ||
      decide (48 ≤ character.val) && decide (character.val ≤ 57) || character == '_') = true := word
  simp only [Bool.or_eq_true, Bool.and_eq_true, decide_eq_true_eq, beq_iff_eq,
    UInt32.le_iff_toNat_le] at ranges
  rcases ranges with ((upper | lower) | digit) | rfl
  · exact .inr (.inl upper)
  · exact .inr (.inr ⟨Nat.le_trans (by decide) lower.1, lower.2⟩)
  · exact .inl digit
  · decide

theorem isPlainChar_of_isWordChar {character : Char} (word : isWordChar character = true) :
    isPlainChar character = true := by
  have range := toNat_of_isWordChar word
  have blank : Text.isBlank character = false := by
    simp [Text.isBlank]
    omega
  have apart : ∀ mark : Char, mark.toNat < 48 ∨ mark.toNat = 60 ∨ mark.toNat = 62 →
      character ≠ mark := by
    rintro mark outside rfl
    omega
  simp [isPlainChar, blank, apart '<' (by decide), apart '>' (by decide), apart ',' (by decide)]

/-- Words of letters, digits and underscores other than `Fn` are plain names. -/
theorem isPlainName_of_word {name : List Char} (nonempty : name ≠ []) (other : name ≠ ['F', 'n'])
    (word : ∀ character ∈ name, isWordChar character = true) : isPlainName name = true := by
  have plain : ∀ character ∈ name, isPlainChar character = true :=
    fun character among => isPlainChar_of_isWordChar (word character among)
  simpa [isPlainName, nonempty, other] using plain

/-- A word of letters, digits and underscores other than `Fn`. -/
def IsWord (name : String) : Prop :=
  name ≠ "" ∧ name ≠ "Fn" ∧ ∀ character ∈ name.toList, isWordChar character = true

theorem IsWord.isPlainName {name : String} (word : IsWord name) :
    isPlainName name.toList = true := by
  obtain ⟨nonempty, other, characters⟩ := word
  refine isPlainName_of_word (fun empty => nonempty ?_) (fun same => other ?_) characters
  · exact String.toList_inj.1 empty
  · exact String.toList_inj.1 same

end TypeText

namespace Registry

open TypeText (Derives isPlainName written BlankFree)

/-- A type stands for a text: that of a declared name for the name, and a function type
for the texts of its result and of its parameters. -/
inductive StandsFor (registry : Registry) : List Char → TypeId → Prop where
  | name {name : String} {id : TypeId} :
      registry.names.get? name = some id → StandsFor registry name.toList id
  | function {parameters : List (List Char)} {result : List Char} {id : TypeId}
      {signature : FunctionType} : registry.get? id = some (.function signature) →
      parameters.length = signature.parameters.length →
      (∀ pair ∈ parameters.zip signature.parameters, StandsFor registry pair.1 pair.2) →
      StandsFor registry result signature.result →
        StandsFor registry (written parameters result) id

/-- A call that declares only a plain name, forgets none, and makes function types of
types other than generic functions. -/
structure PlainCall (registry : Registry) (operation : Operation) : Prop where
  lasting : operation.IsLasting
  plain : ∀ name, operation.declares? = some name → isPlainName name.toList = true
  given : ∀ id ∈ operation.handles, registry.Has id
  nongeneric : ∀ parameters result, operation = .function parameters result →
    ∀ part ∈ result :: parameters, registry.IsPlain part

/-- Function types refer to no generic function. -/
def plainParts (type content : Ty) : Prop :=
  (∃ signature, type = .function signature) → content.IsNongeneric

variable {registry before after : Registry} {operation : Operation} {id : TypeId}

theorem admitsNongeneric_plainParts : AdmitsNongeneric plainParts :=
  fun _ _ nongeneric _ => nongeneric

theorem namesParts_plainParts : NamesParts plainParts :=
  fun signature _ mayRefer => mayRefer ⟨signature, rfl⟩

/-- A call that is given no handles is judged by the name that it declares. -/
theorem PlainCall.of_handles_eq_nil (lasting : operation.IsLasting) (none : operation.handles = [])
    (plain : ∀ name, operation.declares? = some name → isPlainName name.toList = true) :
    PlainCall registry operation where
  lasting := lasting
  plain := plain
  given := by simp [none]
  nongeneric := by
    rintro parameters result rfl
    cases none

theorem PlainCall.respects (call : PlainCall registry operation) :
    operation.Respects plainParts registry := by
  cases operation with
  | declareClass name superclass scope =>
      intro parent among
      obtain ⟨type, found⟩ := call.given parent (Option.mem_toList.2 among)
      refine ⟨type, found, ?_⟩
      rintro ⟨signature, same⟩
      cases same
  | function parameters result =>
      intro part among
      exact (call.nongeneric parameters result rfl part among).imp fun nongeneric _ => nongeneric
  | _ => trivial

/-! ## Built registries -/

/-- What holds of the names of every registry that plain calls build. -/
structure Legible (registry : Registry) : Prop where
  plain : registry.Plain
  listed : registry.Listed

theorem legible_initial : initial.Legible := by
  constructor <;> decide

/-- The type that a call declares has the call's name. -/
theorem Operation.declares?_of_makes {type : Ty} {name : String} (makes : operation.Makes type)
    (declared : type.declaredName? = some name) : operation.declares? = some name := by
  cases operation with
  | declareAlias =>
      obtain ⟨_, rfl⟩ := makes
      exact declared
  | declareUnion =>
      obtain ⟨_, rfl⟩ := makes
      exact declared
  | declareClass =>
      obtain rfl := makes
      exact declared
  | addTemplate =>
      obtain rfl := makes
      cases declared
  | _ => cases makes

theorem Listed.interns (listed : before.Listed) (interns : Interns before after) :
    after.Listed := by
  intro id type name found declared
  rw [interns.same_names]
  rcases interns.only_functions found with found | ⟨signature, rfl⟩
  · exact listed id type name found declared
  · cases declared

theorem Listed.declare (listed : before.Listed) {name : String} {type : Ty}
    (declares : type.declaredName? = some name) (unclaimed : before.names.get? name = none) :
    (before.declare name type).2.Listed := by
  intro id content other found declared
  rw [get?_names_declare]
  change (before.add type).2.get? id = some content at found
  rw [get?_add] at found
  split at found
  · rename_i same
    obtain rfl := Option.some.inj found
    rw [if_pos (Option.some.inj (declares.symm.trans declared)), same]
    rfl
  · have there := listed id content other found declared
    rw [if_neg, there]
    rintro rfl
    simp [unclaimed] at there

theorem Legible.changes (legible : before.Legible) (call : PlainCall registry operation)
    (sound : before.Sound plainParts) (change : operation.Changes plainParts before after) :
    after.Legible where
  plain id type name found declared := by
    rcases change.get? admitsNongeneric_plainParts sound found with found | ⟨signature, rfl⟩ | makes
    · exact legible.plain id type name found declared
    · cases declared
    · exact call.plain name (Operation.declares?_of_makes makes declared)
  listed := by
    cases change with
    | declared _ unclaimed _ declares _ => exact legible.listed.declare declares unclaimed
    | added =>
        intro id type name found declared
        rw [addTemplate, get?_add] at found
        split at found
        · obtain rfl := Option.some.inj found
          cases declared
        · exact legible.listed id type name found declared
    | made inside => exact legible.listed.interns (sound.function inside).2.1
    | spelled found each last unspelled =>
        exact legible.listed.interns (sound.spellFunction admitsNongeneric_plainParts found each
          last unspelled).2.toInterns
    | forgotten same =>
        subst same
        exact absurd call.lasting id

theorem Reaches.legible (reaches : Reaches PlainCall initial registry) :
    registry.Sound plainParts ∧ registry.Legible :=
  reaches.invariant sound_initial admitsNongeneric_plainParts PlainCall.respects legible_initial
    fun call sound legible change => legible.changes call sound change

/-! ## Every type stands for its name -/

/-- A text that a type stands for derives from declared names. -/
theorem StandsFor.derives {text : List Char} (stands : registry.StandsFor text id) :
    Derives (fun name => registry.names.contains name = true) text := by
  induction stands with
  | name listed => exact .name (by simp [NameTable.contains, listed])
  | @function parameters result id signature _ lengths _ _ each last =>
      refine .function (fun parameter among => ?_) last
      rw [← List.map_fst_zip (Nat.le_of_eq lengths)] at among
      obtain ⟨pair, listed, rfl⟩ := List.mem_map.1 among
      exact each pair listed

/-- **Every type stands for its canonical name.** By induction on the handle. -/
theorem Legible.standsFor_name (legible : registry.Legible) (sound : registry.Sound plainParts)
    (nongeneric : registry.IsPlain id) :
    registry.StandsFor (registry.name id).toList id := by
  induction size : id.index using Nat.strongRecOn generalizing id with
  | ind size ih =>
      obtain ⟨type, found, notGeneric⟩ := nongeneric
      have named : registry.name id = type.name := by simp [Registry.name, found]
      rw [named]
      cases declared : type.declaredName? with
      | some name =>
          rw [Ty.name_of_declaredName? declared]
          exact .name (legible.listed id type name found declared)
      | none =>
          cases type with
          | function signature =>
              have part : ∀ part ∈ signature.result :: signature.parameters,
                  registry.StandsFor (registry.name part).toList part := by
                intro part among
                obtain ⟨smaller, there⟩ := sound.references found part among
                exact ih part.index (by omega) (there.imp (namesParts_plainParts _ _)) rfl
              change registry.StandsFor signature.name.toList id
              rw [(sound.canonical found).2, toList_functionName]
              refine .function found (by simp) ?_ (part _ List.mem_cons_self)
              intro pair among
              rw [← List.map_prod_right_eq_zip] at among
              obtain ⟨parameter, listed, rfl⟩ := List.mem_map.1 among
              exact part parameter (List.mem_cons_of_mem _ listed)
          | generic template => exact absurd rfl (notGeneric template)
          | _ => cases declared

/-! ## Texts that derive are resolved -/

/-- When each of a list of steps succeeds, wherever the ones before it end, so does the
list. -/
theorem run_mapM_ok {α β : Type} {holds : Registry → Prop} {step : α → RegistryM β}
    {items : List α} (each : ∀ item ∈ items, ∀ {registry : Registry}, holds registry →
      ∃ value reached, (step item).run.run registry = (.ok value, reached) ∧ holds reached)
    (start : holds registry) :
    ∃ values reached, (items.mapM step).run.run registry = (.ok values, reached) ∧
      holds reached := by
  induction items generalizing registry with
  | nil => exact ⟨[], registry, rfl, start⟩
  | cons item items ih =>
      obtain ⟨value, middle, first, atMiddle⟩ := each item List.mem_cons_self start
      obtain ⟨values, last, rest, atLast⟩ :=
        ih (fun other among => each other (List.mem_cons_of_mem _ among)) atMiddle
      refine ⟨value :: values, last, ?_, atLast⟩
      rw [List.mapM_cons, run_bind, first]
      dsimp only
      rw [run_bind, rest]
      rfl

/-- **A text that derives from declared names is resolved.** By induction on its length.
The resolution of the parts declares no names, so the parts still derive. -/
theorem resolveChars_of_derives {mayRefer : Ty → Ty → Prop} (admits : AdmitsNongeneric mayRefer)
    {text : List Char} (sound : registry.Sound mayRefer) (plain : registry.PlainNames)
    (derives : Derives (fun name => registry.names.contains name = true) text) :
    ∃ id reached, (resolveChars text).run.run registry = (.ok id, reached) := by
  induction size : text.length using Nat.strongRecOn generalizing text registry with
  | ind size ih =>
      have plainName : ∀ name, registry.names.contains name = true →
          isPlainName name.toList = true := by
        intro name isName
        obtain ⟨id, listed⟩ := Option.isSome_iff_exists.1 isName
        exact plain name id listed
      rw [run_resolveChars, (derives.spelled plainName).trim_eq]
      cases known : registry.known? (String.ofList text) with
      | some id => exact ⟨id, registry, rfl⟩
      | none =>
          cases derives with
          | @name name isName =>
              obtain ⟨id, listed⟩ := Option.isSome_iff_exists.1 isName
              rw [String.ofList_toList, known?_of_names listed] at known
              cases known
          | @function parameters result each last =>
              have found := TypeText.functionParts?_written
                (fun parameter among => (each parameter among).spelled plainName)
                (last.spelled plainName)
              have shorter := TypeText.length_lt_of_functionParts? found
              have part : ∀ {piece : List Char}, piece.length < (written parameters result).length →
                  Derives (fun name => registry.names.contains name = true) piece →
                  ∀ {later : Registry}, later.Sound mayRefer ∧ later.names = registry.names →
                    ∃ id reached, (resolveChars piece).run.run later = (.ok id, reached) ∧
                      reached.Sound mayRefer ∧ reached.names = registry.names := by
                intro piece less derives later both
                obtain ⟨id, reached, run⟩ := ih piece.length (size ▸ less) both.1
                  (fun name id listed => plain name id (both.2 ▸ listed))
                  (both.2.symm ▸ derives) rfl
                obtain ⟨made, resolves, _⟩ := resolveChars_sound admits piece both.1 run
                exact ⟨id, reached, run, made, resolves.same_names.trans both.2⟩
              obtain ⟨ids, middle, first, atMiddle⟩ := run_mapM_ok
                (fun parameter among => part (shorter.1 parameter among) (each parameter among))
                ⟨sound, rfl⟩
              obtain ⟨id, reached, second, _⟩ := part shorter.2 last atMiddle
              rw [found]
              dsimp only
              rw [first]
              dsimp only
              rw [second]
              exact ⟨_, _, rfl⟩

/-! ## Decoding -/

namespace Reaches

theorem grows (reaches : Reaches PlainCall before after) (sound : before.Sound plainParts) :
    Grows before after :=
  (reaches.invariant sound admitsNongeneric_plainParts PlainCall.respects (Grows.refl before)
    fun call sound grows change =>
      grows.trans (change.grows admitsNongeneric_plainParts sound call.lasting)).2

/-- What a text without blanks resolves to stands for the text and is named by it. -/
theorem resolved (built : Reaches PlainCall initial registry) {text : String}
    (blankFree : BlankFree text.toList) {reached : Registry}
    (run : (resolve text).run.run registry = (.ok id, reached)) :
    Reaches PlainCall initial reached ∧ Interns registry reached ∧ reached.IsPlain id ∧
      reached.StandsFor text.toList id ∧ reached.name id = text := by
  obtain ⟨made, interns, denotes⟩ := resolve_sound admitsNongeneric_plainParts text
    built.legible.1 run
  have call : PlainCall registry (.resolve text) :=
    .of_handles_eq_nil trivial rfl (by simp [Operation.declares?])
  have later : Reaches PlainCall initial reached := by
    have performed : (Operation.resolve text).perform registry = reached := congrArg Prod.snd run
    exact performed ▸ built.step _ call
  have nongeneric := (denotes id rfl).isPlain made
  have named := (denotes id rfl).toList_name made blankFree
  have stands := later.legible.2.standsFor_name made nongeneric
  rw [named] at stands
  exact ⟨later, interns, nongeneric, stands, String.toList_inj.1 named⟩

/-- **Resolution decodes exactly the grammar of type texts.** A text without blanks is
resolved when and only when it derives from declared names. Its type stands for the
derivation and is named by the text. Whatever is built later, a text resolves to this type
exactly when it is the same text. -/
theorem resolve_decodes (built : Reaches PlainCall initial registry) {text : String}
    (blankFree : BlankFree text.toList) :
    ((∃ id reached, (resolve text).run.run registry = (.ok id, reached)) ↔
      Derives (fun name => registry.names.contains name = true) text.toList) ∧
    ∀ {id : TypeId} {reached : Registry}, (resolve text).run.run registry = (.ok id, reached) →
      reached.StandsFor text.toList id ∧ reached.name id = text ∧
        ∀ {later last : Registry} {other : String} {found : TypeId},
          Reaches PlainCall reached later → BlankFree other.toList →
            (resolve other).run.run later = (.ok found, last) → (found = id ↔ other = text) := by
  obtain ⟨sound, legible⟩ := built.legible
  refine ⟨⟨?_, ?_⟩, ?_⟩
  · rintro ⟨id, reached, run⟩
    obtain ⟨_, interns, _, stands, _⟩ := built.resolved blankFree run
    exact interns.same_names ▸ stands.derives
  · exact resolveChars_of_derives admitsNongeneric_plainParts sound (legible.plain.plainNames sound)
  · intro id reached run
    obtain ⟨next, _, nongeneric, stands, named⟩ := built.resolved blankFree run
    refine ⟨stands, named, fun {later last other found} further otherBlankFree otherRun => ?_⟩
    obtain ⟨final, interns, otherNongeneric, _, otherNamed⟩ :=
      (next.trans further).resolved otherBlankFree otherRun
    obtain ⟨finalSound, finalLegible⟩ := final.legible
    -- Both names are compared in the last registry, where they determine their types.
    have grows : Grows reached last := (further.grows next.legible.1).trans interns.toGrows
    have stillNongeneric : last.IsPlain id := nongeneric.of_types grows.types
    have stillNamed : last.name id = text := by
      obtain ⟨_, there, _⟩ := nongeneric
      exact (grows.name there).trans named
    constructor
    · rintro rfl
      exact otherNamed.symm.trans stillNamed
    · rintro rfl
      exact finalLegible.listed.eq_of_name (finalLegible.plain.plainNames finalSound) finalSound
        otherNongeneric stillNongeneric (otherNamed.trans stillNamed.symm)

end Reaches

/-- A nested text over a class and an alias is resolved to a type that a text with the
alias in the place of the class does not lead to. -/
theorem resolve_decodes_nested :
    ∃ built id reached, Reaches PlainCall initial built ∧
      (resolve "Fn<Fn<number<Id>><Point,Fn<string>>>").run.run built = (.ok id, reached) ∧
      reached.name id = "Fn<Fn<number<Id>><Point,Fn<string>>>" ∧
      ∃ other last,
        (resolve "Fn<Fn<number<Id>><Id,Fn<string>>>").run.run reached = (.ok other, last) ∧
          other ≠ id := by
  have pointWord : isPlainName "Point".toList = true :=
    TypeText.isPlainName_of_word (by simp) (by simp) (by simp [TypeText.isWordChar])
  have idWord : isPlainName "Id".toList = true :=
    TypeText.isPlainName_of_word (by simp) (by simp) (by simp [TypeText.isWordChar])
  have point : Reaches PlainCall initial _ := .step (.declareClass "Point" none ⟨1⟩) .refl
    (.of_handles_eq_nil trivial rfl fun name same => Option.some.inj same ▸ pointWord)
  have built := point.step (.declareAlias "Id" "Point")
    (.of_handles_eq_nil trivial rfl fun name same => Option.some.inj same ▸ idWord)
  have blankFree : BlankFree "Fn<Fn<number<Id>><Point,Fn<string>>>".toList := by
    simp [BlankFree, Text.isBlank]
  have otherBlankFree : BlankFree "Fn<Fn<number<Id>><Id,Fn<string>>>".toList := by
    simp [BlankFree, Text.isBlank]
  have runs : ∃ reached, (resolve "Fn<Fn<number<Id>><Point,Fn<string>>>").run.run
      ((Operation.declareAlias "Id" "Point").perform
        ((Operation.declareClass "Point" none ⟨1⟩).perform initial)) = (.ok ⟨8⟩, reached) ∧
      ((resolve "Fn<Fn<number<Id>><Id,Fn<string>>>").run.run reached).1 = .ok ⟨9⟩ :=
    ⟨_, Prod.ext (by decide +kernel) rfl, by decide +kernel⟩
  obtain ⟨reached, run, otherRun⟩ := runs
  obtain ⟨_, named, apart⟩ := (built.resolve_decodes blankFree).2 run
  refine ⟨_, _, reached, built, run, named, _, _, Prod.ext otherRun rfl, fun same => ?_⟩
  have sameText := (apart .refl otherBlankFree (Prod.ext otherRun rfl)).1 same
  revert sameText
  decide

end Registry

end TypedLisp
