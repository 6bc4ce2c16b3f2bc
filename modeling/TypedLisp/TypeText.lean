import TypedLisp.Text.Blank

/-!
# Type texts

Types are written as texts: a name, or `Fn<R>` and `Fn<R<P,Q>>` for functions
with result `R` and parameters `P` and `Q`. Lists of types and of generic names
are separated by the commas that stand outside angle brackets.

This module takes such texts apart. `functionParts?` splits the text of a
function type into the texts of its parameters and of its result, each shorter
than the whole (`length_lt_of_functionParts?`). `substitute` replaces whole words
of a text.
-/

set_option autoImplicit false

namespace TypedLisp.TypeText

open Text (trim)

/-! ## Lists -/

/-- Puts a character in front of the first part. -/
def consFirst (character : Char) : List (List Char) → List (List Char)
  | [] => [[character]]
  | part :: parts => (character :: part) :: parts

/-- Cuts a text at its commas outside angle brackets, inside the given number of
open brackets. A closing bracket that closes nothing is a character like any
other. -/
def cutCommas : Nat → List Char → List (List Char)
  | _, [] => [[]]
  | depth, character :: rest =>
      if character = '<' then consFirst character (cutCommas (depth + 1) rest)
      else if character = '>' then consFirst character (cutCommas (depth - 1) rest)
      else if character = ',' ∧ depth = 0 then [] :: cutCommas depth rest
      else consFirst character (cutCommas depth rest)

/-- The parts of a list, without the blanks around them. -/
def splitList (text : List Char) : List (List Char) :=
  (cutCommas 0 text).map trim

/-- The parts of a list, without the blanks around them. -/
def split (text : String) : List String :=
  (splitList text.toList).map String.ofList

/-- What stands between angle brackets that enclose the whole text, if it is not
empty. -/
def bracketed? : List Char → Option (List Char)
  | '<' :: rest =>
      if rest.getLast? = some '>' ∧ rest.dropLast ≠ [] then some rest.dropLast else none
  | _ => none

/-- The parts of a list of generic names such as `<K,V>`. -/
def genericList? (symbol : String) : Option (List String) :=
  (bracketed? symbol.toList).map fun inside => (splitList inside).map String.ofList

/-! ## Function types -/

/-- Splits a text after the bracket that closes the given number of open
brackets. -/
def throughClose : Nat → List Char → Option (List Char × List Char)
  | _, [] => none
  | depth, character :: rest =>
      if character = '>' ∧ depth ≤ 1 then some (['>'], rest)
      else
        let inside :=
          if character = '<' then depth + 1 else if character = '>' then depth - 1 else depth
        (throughClose inside rest).map fun (front, back) => (character :: front, back)

/-- Splits the inside of a function type after its result. A result that is a
function type itself ends with its own bracket, any other before the next
one. -/
def splitResult : List Char → Option (List Char × List Char)
  | 'F' :: 'n' :: '<' :: rest =>
      (throughClose 1 rest).map fun (front, back) => ('F' :: 'n' :: '<' :: front, back)
  | text => some (text.takeWhile (· ≠ '<'), text.dropWhile (· ≠ '<'))

/-- The inside of `Fn<...>`, which is not empty and on one line. -/
def functionInside? : List Char → Option (List Char)
  | 'F' :: 'n' :: rest =>
      match bracketed? rest with
      | some inside => if '\n' ∈ inside then none else some inside
      | none => none
  | _ => none

/-- The texts of the parameters, of which there is none after an empty text. -/
def parameterTexts? (text : List Char) : Option (List (List Char)) :=
  if text = [] then some [] else (bracketed? text).map splitList

/-- The texts of the parameters and of the result of a function type. -/
def functionParts? (text : List Char) : Option (List (List Char) × List Char) := do
  let inside ← functionInside? text
  let (result, rest) ← splitResult inside
  let parameters ← parameterTexts? rest
  return (parameters, result)

/-! ### The parts are shorter than the whole -/

theorem length_le_of_mem_consFirst {character : Char} {parts : List (List Char)}
    {part : List Char} {bound : Nat} (each : ∀ part ∈ parts, part.length ≤ bound)
    (member : part ∈ consFirst character parts) : part.length ≤ bound + 1 := by
  cases parts with
  | nil => simp only [consFirst, List.mem_singleton] at member; simp [member]
  | cons first parts =>
      simp only [consFirst, List.mem_cons] at member
      rcases member with rfl | member
      · simpa using each first (by simp)
      · exact Nat.le_succ_of_le (each part (by simp [member]))

theorem length_le_of_mem_cutCommas {depth : Nat} {text part : List Char}
    (member : part ∈ cutCommas depth text) : part.length ≤ text.length := by
  induction text generalizing depth part with
  | nil => simp only [cutCommas, List.mem_singleton] at member; simp [member]
  | cons character rest ih =>
      simp only [cutCommas] at member
      split at member
      · exact length_le_of_mem_consFirst (fun _ => ih) member
      split at member
      · exact length_le_of_mem_consFirst (fun _ => ih) member
      split at member
      · rcases List.mem_cons.1 member with rfl | member
        · simp
        · exact Nat.le_succ_of_le (ih member)
      · exact length_le_of_mem_consFirst (fun _ => ih) member

theorem length_le_of_mem_splitList {text part : List Char} (member : part ∈ splitList text) :
    part.length ≤ text.length := by
  obtain ⟨cut, memberCut, rfl⟩ := List.mem_map.1 member
  exact Nat.le_trans (Text.length_trim_le cut) (length_le_of_mem_cutCommas memberCut)

theorem length_lt_of_bracketed? {text inside : List Char} (found : bracketed? text = some inside) :
    inside.length < text.length := by
  unfold bracketed? at found
  split at found
  · split at found
    · obtain rfl := Option.some.inj found
      simp only [List.length_dropLast, List.length_cons]
      omega
    · simp at found
  · simp at found

theorem append_of_throughClose {depth : Nat} {text front back : List Char}
    (split : throughClose depth text = some (front, back)) : front ++ back = text := by
  induction text generalizing depth front with
  | nil => simp [throughClose] at split
  | cons character rest ih =>
      simp only [throughClose] at split
      split at split
      · rename_i close
        obtain ⟨rfl, rfl⟩ := Prod.mk.inj (Option.some.inj split)
        simp [close.1]
      · obtain ⟨⟨inner, outer⟩, found, same⟩ := Option.map_eq_some_iff.1 split
        obtain ⟨rfl, rfl⟩ := Prod.mk.inj same
        simp [ih found]

theorem append_of_splitResult {text result rest : List Char}
    (split : splitResult text = some (result, rest)) : result ++ rest = text := by
  unfold splitResult at split
  split at split
  · obtain ⟨⟨inner, outer⟩, found, same⟩ := Option.map_eq_some_iff.1 split
    obtain ⟨rfl, rfl⟩ := Prod.mk.inj same
    simp [append_of_throughClose found]
  · obtain ⟨rfl, rfl⟩ := Prod.mk.inj (Option.some.inj split)
    exact List.takeWhile_append_dropWhile

theorem length_lt_of_functionInside? {text inside : List Char}
    (found : functionInside? text = some inside) : inside.length < text.length := by
  unfold functionInside? at found
  split at found
  · split at found
    · rename_i found'
      split at found
      · simp at found
      · obtain rfl := Option.some.inj found
        have := length_lt_of_bracketed? found'
        simp only [List.length_cons]
        omega
    · simp at found
  · simp at found

theorem length_le_of_mem_parameterTexts? {text part : List Char} {parts : List (List Char)}
    (found : parameterTexts? text = some parts) (member : part ∈ parts) :
    part.length ≤ text.length := by
  unfold parameterTexts? at found
  split at found
  · obtain rfl := Option.some.inj found
    simp at member
  · obtain ⟨inside, atInside, rfl⟩ := Option.map_eq_some_iff.1 found
    exact Nat.le_trans (length_le_of_mem_splitList member)
      (Nat.le_of_lt (length_lt_of_bracketed? atInside))

/-- The parameters and the result of a function type are shorter texts. -/
theorem length_lt_of_functionParts? {text result : List Char} {parameters : List (List Char)}
    (found : functionParts? text = some (parameters, result)) :
    (∀ parameter ∈ parameters, parameter.length < text.length) ∧ result.length < text.length := by
  simp only [functionParts?, Option.bind_eq_bind, Option.bind_eq_some_iff] at found
  obtain ⟨inside, atInside, ⟨first, rest⟩, atResult, parts, atParts, same⟩ := found
  dsimp only at atParts same
  obtain ⟨sameParts, sameResult⟩ := Prod.mk.inj (Option.some.inj same)
  subst sameParts sameResult
  have shorter := length_lt_of_functionInside? atInside
  have lengths : first.length + rest.length = inside.length := by
    simpa using congrArg List.length (append_of_splitResult atResult)
  refine ⟨fun parameter member => ?_, by omega⟩
  have := length_le_of_mem_parameterTexts? atParts member
  omega

/-! ## Substitution -/

/-- Whether a character can stand in a word of a type text. -/
def isWordChar (character : Char) : Bool := character.isAlphanum || character == '_'

/-- The replacement of a word that has been read, its last character first. -/
def replaceWord (replace : List Char → List Char) (word : List Char) : List Char :=
  if word = [] then [] else replace word.reverse

/-- Replaces every longest word of a text; the characters of the word that is
being read come first, the last one in front. -/
def replaceWords (replace : List Char → List Char) : List Char → List Char → List Char
  | word, [] => replaceWord replace word
  | word, character :: rest =>
      if isWordChar character then replaceWords replace (character :: word) rest
      else replaceWord replace word ++ character :: replaceWords replace [] rest

/-- Replaces the words of a text that are generic names by the arguments in the
same places. -/
def substitute (generics arguments : List String) (text : String) : String :=
  let replace (word : List Char) : List Char :=
    match (generics.zip arguments).lookup (String.ofList word) with
    | some argument => argument.toList
    | none => word
  String.ofList (replaceWords replace [] text.toList)

end TypedLisp.TypeText
