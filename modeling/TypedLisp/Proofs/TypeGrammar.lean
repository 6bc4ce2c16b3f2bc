import TypedLisp.Proofs.Lists
import TypedLisp.TypeText

/-!
# The grammar of type texts

The text of a type is a plain name, or it is written as `Fn<R>` or `Fn<R<P,Q>>` from
the texts of a result and of parameters (`TypeText.Spelled`). A plain name is not
empty, is not `Fn`, and has no blanks, commas and angle brackets.

Such texts are balanced: cutting at commas passes over them, and so does looking for
the bracket that closes an open one. So taking the text of a function type apart gives
the texts that it was written from (`functionParts?_written`), and these are the only
ones. A text without blanks that comes apart is written from its parts
(`written_of_functionParts?`).
-/

set_option autoImplicit false

namespace TypedLisp

namespace TypeText

open Text (isBlank trim trimStart trimEnd)

/-! ## Texts -/

/-- A text has no blanks. -/
def BlankFree (text : List Char) : Prop := ∀ character ∈ text, isBlank character = false

/-- A text starts like that of a function type. -/
def OpensFunction (text : String) : Prop := ∃ rest, text.toList = 'F' :: 'n' :: '<' :: rest

/-- Whether a character can stand in a plain name. -/
def isPlainChar (character : Char) : Bool :=
  !isBlank character && character != '<' && character != '>' && character != ','

/-- Whether a name is plain. -/
def isPlainName (name : List Char) : Bool :=
  !name.isEmpty && name != ['F', 'n'] && name.all isPlainChar

/-- The part of a function type's text behind its result. -/
def writtenParameters (parameters : List (List Char)) : List Char :=
  if parameters = [] then [] else '<' :: ([','].intercalate parameters ++ ['>'])

/-- The text of a function type over the texts of its parameters and its result. -/
def written (parameters : List (List Char)) (result : List Char) : List Char :=
  'F' :: 'n' :: '<' :: (result ++ writtenParameters parameters ++ ['>'])

/-- The texts of types over plain names. -/
inductive Spelled : List Char → Prop where
  | plain {name : List Char} : isPlainName name = true → Spelled name
  | function {parameters : List (List Char)} {result : List Char} :
      (∀ parameter ∈ parameters, Spelled parameter) → Spelled result →
        Spelled (written parameters result)

/-! ## Plain names -/

theorem plainChar_of_mem {name : List Char} {character : Char} (plain : isPlainName name = true)
    (among : character ∈ name) : isBlank character = false ∧ character ≠ '<' ∧ character ≠ '>' ∧
      character ≠ ',' := by
  simp only [isPlainName, Bool.and_eq_true, List.all_eq_true] at plain
  simpa [isPlainChar, and_assoc] using plain.2 character among

theorem ne_nil_of_plain {name : List Char} (plain : isPlainName name = true) : name ≠ [] := by
  rintro rfl
  simp [isPlainName] at plain

theorem ne_function_of_plain {name : List Char} (plain : isPlainName name = true) :
    name ≠ ['F', 'n'] := by
  rintro rfl
  simp [isPlainName] at plain

/-- A plain name is not taken apart. -/
theorem not_opensFunction_of_plain {name : String} (plain : isPlainName name.toList = true) :
    ¬ OpensFunction name := by
  rintro ⟨rest, same⟩
  exact (plainChar_of_mem plain (show '<' ∈ name.toList by simp [same])).2.1 rfl

/-! ## Spelled texts are balanced -/

/-- Puts a text in front of the first part. -/
def prependFirst (text : List Char) (parts : List (List Char)) : List (List Char) :=
  text.foldr consFirst parts

theorem prependFirst_append (first second : List Char) (parts : List (List Char)) :
    prependFirst (first ++ second) parts = prependFirst first (prependFirst second parts) :=
  List.foldr_append

theorem prependFirst_cons (text part : List Char) (parts : List (List Char)) :
    prependFirst text (part :: parts) = (text ++ part) :: parts := by
  induction text with
  | nil => rfl
  | cons character text ih =>
      change consFirst character (prependFirst text (part :: parts)) = _
      rw [ih]
      rfl

/-- Cutting at commas passes over a text that is balanced. -/
def PassesCut (text : List Char) : Prop :=
  ∀ (depth : Nat) (rest : List Char),
    cutCommas depth (text ++ rest) = prependFirst text (cutCommas depth rest)

/-- Looking for the end of an open bracket passes over a text that is balanced. -/
def PassesClose (text : List Char) : Prop :=
  ∀ (depth : Nat) (rest : List Char), throughClose (depth + 1) (text ++ rest) =
    (throughClose (depth + 1) rest).map fun (front, back) => (text ++ front, back)

theorem passesCut_of_plain {name : List Char}
    (plain : ∀ character ∈ name, character ≠ '<' ∧ character ≠ '>' ∧ character ≠ ',') :
    PassesCut name := by
  intro depth rest
  induction name with
  | nil => rfl
  | cons character name ih =>
      obtain ⟨notOpen, notClose, notComma⟩ := plain character List.mem_cons_self
      have inner := ih fun other among => plain other (List.mem_cons_of_mem _ among)
      simp only [List.cons_append, cutCommas, notOpen, notClose, notComma, if_false, false_and,
        inner]
      rfl

theorem passesClose_of_plain {name : List Char}
    (plain : ∀ character ∈ name, character ≠ '<' ∧ character ≠ '>') : PassesClose name := by
  intro depth rest
  induction name with
  | nil => simp
  | cons character name ih =>
      obtain ⟨notOpen, notClose⟩ := plain character List.mem_cons_self
      have inner := ih fun other among => plain other (List.mem_cons_of_mem _ among)
      simp only [List.cons_append, throughClose, notOpen, notClose, if_false, false_and, inner,
        Option.map_map]
      rfl

/-- Cutting at commas passes over a text inside brackets, where commas do not cut. -/
def PassesCutInside (text : List Char) : Prop :=
  ∀ (depth : Nat) (rest : List Char),
    cutCommas (depth + 1) (text ++ rest) = prependFirst text (cutCommas (depth + 1) rest)

theorem PassesCutInside.append {first second : List Char} (left : PassesCutInside first)
    (right : PassesCutInside second) : PassesCutInside (first ++ second) := by
  intro depth rest
  rw [List.append_assoc, left, right, prependFirst_append]

theorem PassesClose.append {first second : List Char} (left : PassesClose first)
    (right : PassesClose second) : PassesClose (first ++ second) := by
  intro depth rest
  rw [List.append_assoc, left, right, Option.map_map]
  congr 1
  funext parts
  simp

theorem PassesCut.append {first second : List Char} (left : PassesCut first)
    (right : PassesCut second) : PassesCut (first ++ second) := by
  intro depth rest
  rw [List.append_assoc, left, right, prependFirst_append]

theorem PassesCut.inside {text : List Char} (passes : PassesCut text) : PassesCutInside text :=
  fun depth rest => passes (depth + 1) rest

theorem PassesCutInside.bracketed {text : List Char} (passes : PassesCutInside text) :
    PassesCut ('<' :: (text ++ ['>'])) := by
  intro depth rest
  have opened : cutCommas depth ('<' :: (text ++ '>' :: rest)) =
      consFirst '<' (cutCommas (depth + 1) (text ++ '>' :: rest)) := rfl
  have closed : cutCommas (depth + 1) ('>' :: rest) = consFirst '>' (cutCommas depth rest) := rfl
  simp only [List.cons_append, List.append_assoc, List.nil_append, opened]
  rw [passes depth, closed]
  exact congrArg (consFirst '<') (prependFirst_append text ['>'] _).symm

theorem PassesClose.bracketed {text : List Char} (passes : PassesClose text) :
    PassesClose ('<' :: (text ++ ['>'])) := by
  intro depth rest
  have opened : throughClose (depth + 1) ('<' :: (text ++ '>' :: rest)) =
      (throughClose (depth + 2) (text ++ '>' :: rest)).map
        fun (front, back) => ('<' :: front, back) := rfl
  have closed : throughClose (depth + 2) ('>' :: rest) =
      (throughClose (depth + 1) rest).map fun (front, back) => ('>' :: front, back) := by
    rw [throughClose, if_neg (by omega)]
    rfl
  simp only [List.cons_append, List.append_assoc, List.nil_append, opened, passes (depth + 1),
    closed, Option.map_map]
  congr 1

theorem passesCut_written {parameters : List (List Char)} {result : List Char}
    (each : ∀ parameter ∈ parameters, PassesCut parameter) (last : PassesCut result) :
    PassesCut (written parameters result) := by
  have word : PassesCut ['F', 'n'] := passesCut_of_plain (by simp)
  have comma : PassesCutInside [','] := fun depth rest => rfl
  have parametersPass : PassesCutInside (writtenParameters parameters) := by
    unfold writtenParameters
    split
    · exact fun _ _ => rfl
    · refine (PassesCutInside.bracketed ?_).inside
      exact List.intercalate_induction (fun _ _ => rfl) PassesCutInside.append comma
        fun text among => (each text among).inside
  exact word.append (last.inside.append parametersPass).bracketed

theorem passesClose_writtenParameters {parameters : List (List Char)}
    (each : ∀ parameter ∈ parameters, PassesClose parameter) :
    PassesClose (writtenParameters parameters) := by
  have nil : PassesClose [] := passesClose_of_plain (by simp)
  have comma : PassesClose [','] := passesClose_of_plain (by simp)
  unfold writtenParameters
  split
  · exact nil
  · exact (List.intercalate_induction nil PassesClose.append comma each).bracketed

theorem passesClose_written {parameters : List (List Char)} {result : List Char}
    (each : ∀ parameter ∈ parameters, PassesClose parameter) (last : PassesClose result) :
    PassesClose (written parameters result) := by
  have word : PassesClose ['F', 'n'] := passesClose_of_plain (by simp)
  exact word.append (last.append (passesClose_writtenParameters each)).bracketed

/-- **Spelled texts are balanced.** By induction on the grammar. -/
theorem Spelled.passes {text : List Char} (spelled : Spelled text) :
    PassesCut text ∧ PassesClose text := by
  induction spelled with
  | plain plain =>
      have each := fun character (among : character ∈ _) => (plainChar_of_mem plain among).2
      exact ⟨passesCut_of_plain each,
        passesClose_of_plain fun character among => ⟨(each character among).1,
          (each character among).2.1⟩⟩
  | function _ _ each last =>
      exact ⟨passesCut_written (fun text among => (each text among).1) last.1,
        passesClose_written (fun text among => (each text among).2) last.2⟩

/-! ## No blanks, and no empty texts -/

theorem mem_written {parameters : List (List Char)} {result : List Char} {character : Char}
    (among : character ∈ written parameters result) :
    character ∈ ['F', 'n', '<', '>', ','] ∨
      ∃ text ∈ result :: parameters, character ∈ text := by
  have brackets : ∀ {text : List Char}, character ∈ '<' :: (text ++ ['>']) →
      character ∈ ['F', 'n', '<', '>', ','] ∨ character ∈ text := by
    intro text among
    rcases List.mem_cons.1 among with rfl | among
    · exact .inl (by simp)
    rcases List.mem_append.1 among with among | among
    · exact .inr among
    · exact .inl (by simp_all)
  have split : character ∈ ['F', 'n'] ∨
      character ∈ '<' :: ((result ++ writtenParameters parameters) ++ ['>']) :=
    List.mem_append.1 (show character ∈ ['F', 'n'] ++ _ from among)
  rcases split with among | among
  · exact .inl (List.mem_append_left ['<', '>', ','] among)
  rcases brackets among with found | among
  · exact .inl found
  rcases List.mem_append.1 among with among | among
  · exact .inr ⟨result, List.mem_cons_self, among⟩
  unfold writtenParameters at among
  split at among
  · cases among
  rcases brackets among with found | among
  · exact .inl found
  rcases List.mem_or_mem_of_mem_intercalate among with comma | ⟨text, listed, among⟩
  · obtain rfl := List.mem_singleton.1 comma
    exact .inl (by simp)
  · exact .inr ⟨text, List.mem_cons_of_mem _ listed, among⟩

/-- A spelled text has no blanks. -/
theorem Spelled.not_isBlank {text : List Char} (spelled : Spelled text) :
    ∀ character ∈ text, isBlank character = false := by
  induction spelled with
  | plain plain => exact fun character among => (plainChar_of_mem plain among).1
  | function _ _ each last =>
      intro character among
      rcases mem_written among with found | ⟨part, listed, inside⟩
      · have marks : ∀ mark ∈ ['F', 'n', '<', '>', ','], isBlank mark = false := by
          simp [isBlank]
        exact marks character found
      · rcases List.mem_cons.1 listed with rfl | listed
        · exact last character inside
        · exact each part listed character inside

theorem Spelled.ne_nil {text : List Char} (spelled : Spelled text) : text ≠ [] := by
  cases spelled with
  | plain plain => exact ne_nil_of_plain plain
  | function => simp [written]

theorem dropWhile_blanks_append {blanks text : List Char}
    (white : ∀ blank ∈ blanks, isBlank blank = true)
    (start : ∀ first ∈ text.head?, isBlank first = false) :
    (blanks ++ text).dropWhile isBlank = text := by
  rw [List.dropWhile_append_of_pos white]
  cases text with
  | nil => rfl
  | cons first text => simp [start first rfl]

/-- Trimming takes off the blanks around a text that has none at its ends. -/
theorem trim_append {front text back : List Char} (before : ∀ blank ∈ front, isBlank blank = true)
    (behind : ∀ blank ∈ back, isBlank blank = true)
    (start : ∀ first ∈ text.head?, isBlank first = false)
    (stop : ∀ last ∈ text.getLast?, isBlank last = false) : trim (front ++ text ++ back) = text := by
  have reversed : ∀ blank ∈ back.reverse, isBlank blank = true := fun blank among =>
    behind blank (List.mem_reverse.1 among)
  by_cases empty : text = []
  · -- Nothing but blanks is left of an empty text.
    have white : ∀ blank ∈ front ++ back, isBlank blank = true := fun blank among =>
      (List.mem_append.1 among).elim (before blank) (behind blank)
    have gone := @dropWhile_blanks_append _ [] white (by simp)
    rw [List.append_nil] at gone
    rw [empty, List.append_nil, trim, trimStart, gone]
    rfl
  · have started : ∀ first ∈ (text ++ back).head?, isBlank first = false := by
      rwa [List.head?_append_of_ne_nil text empty]
    have ended : ∀ first ∈ text.reverse.head?, isBlank first = false := by
      rwa [List.head?_reverse]
    rw [trim, trimStart, List.append_assoc, dropWhile_blanks_append before started, trimEnd,
      List.reverse_append, dropWhile_blanks_append reversed ended, List.reverse_reverse]

theorem trim_eq_self {text : List Char} (none : ∀ character ∈ text, isBlank character = false) :
    trim text = text := by
  have trimmed := @trim_append [] text [] (by simp) (by simp)
    (fun first isFirst => none first (List.mem_of_mem_head? isFirst))
    (fun last isLast => none last (List.mem_of_getLast? isLast))
  rwa [List.nil_append, List.append_nil] at trimmed

theorem Spelled.trim_eq {text : List Char} (spelled : Spelled text) : trim text = text :=
  trim_eq_self spelled.not_isBlank

/-! ## Taking texts apart -/

theorem bracketed?_append {inside : List Char} (nonempty : inside ≠ []) :
    bracketed? ('<' :: (inside ++ ['>'])) = some inside := by
  simp [bracketed?, nonempty]

/-- Cutting a list of spelled texts gives the texts. -/
theorem cutCommas_intercalate {texts : List (List Char)} (nonempty : texts ≠ [])
    (each : ∀ text ∈ texts, Spelled text) : cutCommas 0 ([','].intercalate texts) = texts := by
  induction texts with
  | nil => exact absurd rfl nonempty
  | cons first texts ih =>
      have passes := (each first List.mem_cons_self).passes.1 0
      cases texts with
      | nil =>
          have cut := passes []
          rw [List.append_nil] at cut
          rw [List.intercalate_singleton, cut, cutCommas, prependFirst_cons, List.append_nil]
      | cons second rest =>
          have inner := ih (by simp) fun text among => each text (List.mem_cons_of_mem _ among)
          have comma : cutCommas 0 ([','] ++ [','].intercalate (second :: rest)) =
              [] :: cutCommas 0 ([','].intercalate (second :: rest)) := rfl
          rw [List.intercalate_cons_cons, List.append_assoc, passes, comma, inner,
            prependFirst_cons, List.append_nil]

theorem splitList_intercalate {texts : List (List Char)} (nonempty : texts ≠ [])
    (each : ∀ text ∈ texts, Spelled text) : splitList ([','].intercalate texts) = texts := by
  rw [splitList, cutCommas_intercalate nonempty each]
  conv_rhs => rw [← List.map_id texts]
  exact List.map_congr_left fun text among => (each text among).trim_eq

theorem intercalate_ne_nil {texts : List (List Char)} (nonempty : texts ≠ [])
    (each : ∀ text ∈ texts, Spelled text) : [','].intercalate texts ≠ [] := by
  intro empty
  have cut := cutCommas_intercalate nonempty each
  rw [empty] at cut
  have first : [] ∈ texts := cut ▸ List.mem_singleton.2 rfl
  exact (each [] first).ne_nil rfl

theorem parameterTexts?_writtenParameters {texts : List (List Char)}
    (each : ∀ text ∈ texts, Spelled text) :
    parameterTexts? (writtenParameters texts) = some texts := by
  by_cases empty : texts = []
  · subst empty
    rfl
  · have bracketed := bracketed?_append (intercalate_ne_nil empty each)
    simp only [writtenParameters, empty, if_false]
    rw [parameterTexts?, if_neg (by simp), bracketed, Option.map_some,
      splitList_intercalate empty each]

/-- The result of a function type ends where its parameters begin. -/
theorem splitResult_append {result : List Char} (spelled : Spelled result)
    (parameters : List (List Char)) :
    splitResult (result ++ writtenParameters parameters) =
      some (result, writtenParameters parameters) := by
  have tail : writtenParameters parameters = [] ∨
      ∃ rest, writtenParameters parameters = '<' :: rest := by
    unfold writtenParameters
    split
    · exact .inl rfl
    · exact .inr ⟨_, rfl⟩
  generalize writtenParameters parameters = rest at tail
  cases spelled with
  | plain plain =>
      have closed : ∀ character ∈ result, decide (character ≠ '<') = true :=
        fun character among => decide_eq_true (plainChar_of_mem plain among).2.1
      unfold splitResult
      split
      · -- Only the name `Fn` could be taken for the start of a function type.
        rename_i inside opened
        match result, opened with
        | [], _ => exact absurd rfl (ne_nil_of_plain plain)
        | [first], opened =>
            rcases tail with rfl | ⟨more, rfl⟩ <;> simp at opened
        | [first, second], opened =>
            obtain ⟨rfl, rfl⟩ : first = 'F' ∧ second = 'n' := by simp_all
            exact absurd rfl (ne_function_of_plain plain)
        | first :: second :: third :: more, opened =>
            obtain rfl : third = '<' := by simp_all
            exact absurd rfl (plainChar_of_mem plain (show '<' ∈ _ by simp)).2.1
      · rw [List.takeWhile_append_of_pos closed, List.dropWhile_append_of_pos closed]
        rcases tail with rfl | ⟨more, rfl⟩ <;> simp
  | @function texts inner each last =>
      have passes : PassesClose (inner ++ writtenParameters texts) :=
        last.passes.2.append (passesClose_writtenParameters fun text among =>
          (each text among).passes.2)
      have found := passes 0 ('>' :: rest)
      have closed : throughClose 1 ('>' :: rest) = some (['>'], rest) := rfl
      rw [Nat.zero_add, closed, Option.map_some] at found
      have opened : splitResult (written texts inner ++ rest) =
          (throughClose 1 ((inner ++ writtenParameters texts) ++ '>' :: rest)).map
            fun (front, back) => ('F' :: 'n' :: '<' :: front, back) := by
        simp [written, splitResult]
      rw [opened, found]
      simp [written]

/-- **Taking a text apart undoes writing it.** -/
theorem functionParts?_written {parameters : List (List Char)} {result : List Char}
    (each : ∀ parameter ∈ parameters, Spelled parameter) (last : Spelled result) :
    functionParts? (written parameters result) = some (parameters, result) := by
  have nonempty : result ++ writtenParameters parameters ≠ [] := by
    simp [last.ne_nil]
  have oneLine : '\n' ∉ result ++ writtenParameters parameters := by
    intro among
    have inside : '\n' ∈ written parameters result := by
      simp [written, List.mem_append.1 among]
    have blank := (Spelled.function each last).not_isBlank _ inside
    revert blank
    decide
  have inside : functionInside? (written parameters result) =
      some (result ++ writtenParameters parameters) := by
    simp only [written, functionInside?, bracketed?_append nonempty, oneLine, if_false]
  simp [functionParts?, inside, splitResult_append last, parameterTexts?_writtenParameters each]

/-! ## Writing texts again -/

theorem cutCommas_ne_nil (depth : Nat) (text : List Char) : cutCommas depth text ≠ [] := by
  cases text with
  | nil => simp [cutCommas]
  | cons character rest =>
      simp only [cutCommas]
      repeat' split
      all_goals cases cutCommas _ rest <;> simp [consFirst]

theorem intercalate_consFirst (character : Char) {parts : List (List Char)} (nonempty : parts ≠ []) :
    [','].intercalate (consFirst character parts) = character :: [','].intercalate parts := by
  cases parts with
  | nil => exact absurd rfl nonempty
  | cons part parts =>
      cases parts with
      | nil => simp [consFirst]
      | cons next parts => simp [consFirst]

/-- The parts between the commas, joined by commas, are the text. -/
theorem intercalate_cutCommas (depth : Nat) (text : List Char) :
    [','].intercalate (cutCommas depth text) = text := by
  induction text generalizing depth with
  | nil => rfl
  | cons character rest ih =>
      simp only [cutCommas]
      split
      · rw [intercalate_consFirst _ (cutCommas_ne_nil _ _), ih]
      split
      · rw [intercalate_consFirst _ (cutCommas_ne_nil _ _), ih]
      split
      · rename_i comma
        obtain ⟨part, parts, cut⟩ := List.exists_cons_of_ne_nil (cutCommas_ne_nil depth rest)
        rw [cut, List.intercalate_cons_cons, List.append_assoc, ← cut, ih, comma.1]
        rfl
      · rw [intercalate_consFirst _ (cutCommas_ne_nil _ _), ih]

theorem eq_of_bracketed? {text inside : List Char} (found : bracketed? text = some inside) :
    text = '<' :: (inside ++ ['>']) := by
  unfold bracketed? at found
  split at found
  · rename_i rest
    split at found
    · rename_i both
      obtain rfl := Option.some.inj found
      rw [List.dropLast_append_getLast? _ both.1]
    · cases found
  · cases found

theorem eq_of_functionInside? {text inside : List Char} (found : functionInside? text = some inside) :
    text = 'F' :: 'n' :: '<' :: (inside ++ ['>']) := by
  unfold functionInside? at found
  split at found
  · split at found
    · rename_i bracketed
      split at found
      · cases found
      · obtain rfl := Option.some.inj found
        rw [eq_of_bracketed? bracketed]
    · cases found
  · cases found

/-- Without blanks, the parts of a list are what stands between its commas. -/
theorem splitList_of_blankFree {text : List Char} (blankFree : BlankFree text) :
    splitList text = cutCommas 0 text := by
  have whole := intercalate_cutCommas 0 text
  conv_rhs => rw [← List.map_id (cutCommas 0 text)]
  refine List.map_congr_left fun part listed => trim_eq_self fun character among => ?_
  exact blankFree character (whole ▸ List.mem_intercalate_of_mem [','] listed among)

/-- Joining the parts of a text without blanks gives the text. -/
theorem toList_intercalate_splitList {text : List Char} (blankFree : BlankFree text) :
    (",".intercalate ((splitList text).map String.ofList)).toList = text := by
  have comma : ",".toList = [','] := rfl
  have parts : (splitList text).map (String.toList ∘ String.ofList) = splitList text := by
    simp [Function.comp_def]
  rw [String.toList_intercalate, List.map_map, parts, comma, splitList_of_blankFree blankFree,
    intercalate_cutCommas]

theorem writtenParameters_of_parameterTexts? {text : List Char} {parameters : List (List Char)}
    (blankFree : BlankFree text) (found : parameterTexts? text = some parameters) :
    text = writtenParameters parameters := by
  unfold parameterTexts? at found
  split at found
  · rename_i empty
    obtain rfl := Option.some.inj found
    exact empty
  · obtain ⟨inside, bracketed, rfl⟩ := Option.map_eq_some_iff.1 found
    have whole := eq_of_bracketed? bracketed
    have inner : BlankFree inside := fun character among =>
      blankFree character (by simp [whole, among])
    rw [splitList_of_blankFree inner, writtenParameters, if_neg (cutCommas_ne_nil _ _),
      intercalate_cutCommas]
    exact whole

/-- **A text without blanks is written from its parts.** -/
theorem written_of_functionParts? {text result : List Char} {parameters : List (List Char)}
    (blankFree : BlankFree text) (found : functionParts? text = some (parameters, result)) :
    text = written parameters result := by
  simp only [functionParts?, Option.bind_eq_bind, Option.bind_eq_some_iff] at found
  obtain ⟨inside, atInside, ⟨first, rest⟩, atResult, parts, atParts, same⟩ := found
  dsimp only at atParts same
  obtain ⟨rfl, rfl⟩ := Prod.mk.inj (Option.some.inj same)
  have whole := eq_of_functionInside? atInside
  have halves := append_of_splitResult atResult
  have tail : BlankFree rest := fun character among =>
    blankFree character (by simp [whole, ← halves, among])
  rw [whole, ← halves, writtenParameters_of_parameterTexts? tail atParts, written]

theorem mem_written_of_mem {parameters : List (List Char)} {result text : List Char}
    {character : Char} (listed : text ∈ result :: parameters) (among : character ∈ text) :
    character ∈ written parameters result := by
  rcases List.mem_cons.1 listed with rfl | listed
  · simp [written, among]
  · have inside := List.mem_intercalate_of_mem [','] listed among
    have nonempty : parameters ≠ [] := List.ne_nil_of_mem listed
    simp [written, writtenParameters, nonempty, inside]

/-- The parts of a text without blanks have none either. -/
theorem BlankFree.parts {text result : List Char} {parameters : List (List Char)}
    (blankFree : BlankFree text) (found : functionParts? text = some (parameters, result)) :
    ∀ part ∈ result :: parameters, BlankFree part := by
  intro part listed character among
  refine blankFree character ?_
  rw [written_of_functionParts? blankFree found]
  exact mem_written_of_mem listed among

end TypeText

end TypedLisp
