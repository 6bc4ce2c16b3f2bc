import Mathlib.Data.List.Infix
import TypedLisp.Proofs.TypeGrammar

/-!
# Lists come apart as they were joined

The items of a list are separated by the commas outside angle brackets. An item may hold
anything as long as its brackets are properly nested, its commas stand inside them and it
has no blanks at its ends (`TypeText.IsItem`). Cutting at commas passes over such a text:
the depth follows the count of its brackets (`cutCommas_append`) and is back where it was
behind the last of them. So a text that is joined from items, with any blanks around its
commas (`TypeText.Joined`), is split into just these items.

In the other direction nothing is asked of the brackets. A closing bracket that closes
nothing leaves the depth at zero, and still no character is lost: joining the parts of a
text without blanks gives the text.
-/

set_option autoImplicit false

namespace TypedLisp

namespace TypeText

open Text (isBlank)

/-! ## Items -/

/-- The angle brackets of a text are properly nested: no front part closes more of them
than it opens, and the whole text closes as many as it opens. -/
structure Nested (text : List Char) : Prop where
  fronts : ∀ front, front <+: text → front.count '>' ≤ front.count '<'
  totals : text.count '>' = text.count '<'

/-- Every comma of a text stands inside angle brackets. -/
def CommasInside (text : List Char) : Prop :=
  ∀ front, front ++ [','] <+: text → front.count '>' < front.count '<'

/-- A text can stand as an item of a list. -/
structure IsItem (text : List Char) : Prop where
  nested : Nested text
  commas : CommasInside text
  start : ∀ first ∈ text.head?, isBlank first = false
  stop : ∀ last ∈ text.getLast?, isBlank last = false

instance (text : List Char) : Decidable (Nested text) :=
  decidable_of_iff ((∀ front ∈ text.inits, front.count '>' ≤ front.count '<') ∧
      text.count '>' = text.count '<')
    ⟨fun both => ⟨fun front isFront => both.1 front ((List.mem_inits ..).2 isFront), both.2⟩,
      fun nested => ⟨fun front listed => nested.fronts front ((List.mem_inits ..).1 listed),
        nested.totals⟩⟩

instance (text : List Char) : Decidable (CommasInside text) :=
  decidable_of_iff (∀ front ∈ text.inits, front ++ [','] <+: text →
      front.count '>' < front.count '<')
    ⟨fun each front isFront =>
        each front ((List.mem_inits ..).2 ((List.prefix_append front [',']).trans isFront)) isFront,
      fun commas front _ isFront => commas front isFront⟩

instance (text : List Char) : Decidable (IsItem text) :=
  decidable_of_iff (Nested text ∧ CommasInside text ∧ text.head?.all (! isBlank ·) ∧
      text.getLast?.all (! isBlank ·))
    ⟨fun ⟨nested, commas, start, stop⟩ => ⟨nested, commas,
        by simpa [Option.all_eq_true] using start, by simpa [Option.all_eq_true] using stop⟩,
      fun item => ⟨item.nested, item.commas, by simpa [Option.all_eq_true] using item.start,
        by simpa [Option.all_eq_true] using item.stop⟩⟩

/-- `Joined texts joined`: the texts stand in `joined` one after the other, with a comma
between each two of them and blanks around the commas. -/
inductive Joined : List String → String → Prop where
  | single (text : String) : Joined [text] text
  | cons {text front back joined : String} {texts : List String} :
      (∀ blank ∈ front.toList, isBlank blank = true) →
        (∀ blank ∈ back.toList, isBlank blank = true) → Joined texts joined →
          Joined (text :: texts) (text ++ front ++ "," ++ back ++ joined)

/-! ## Cutting passes over items -/

/-- The number of open brackets behind a character. -/
def depthPast (depth : Nat) (character : Char) : Nat :=
  if character = '<' then depth + 1 else if character = '>' then depth - 1 else depth

theorem cutCommas_step {depth : Nat} {character : Char} (rest : List Char)
    (kept : character = ',' → 0 < depth) :
    cutCommas depth (character :: rest) =
      consFirst character (cutCommas (depthPast depth character) rest) := by
  unfold depthPast
  rw [cutCommas]
  split
  · rfl
  split
  · rfl
  rw [if_neg]
  rintro ⟨comma, outside⟩
  have inside := kept comma
  omega

/-- A character moves the depth by the bracket that it is, if it closes one that is open. -/
theorem depthPast_add_count {depth : Nat} {character : Char} (front : List Char)
    (opened : character = '>' → 0 < depth) :
    depthPast depth character + front.count '<' + (character :: front).count '>' =
      depth + (character :: front).count '<' + front.count '>' := by
  unfold depthPast
  split
  · rename_i isOpen
    rw [isOpen, List.count_cons_self, List.count_cons_of_ne (by decide)]
    omega
  split
  · rename_i isClose
    have := opened isClose
    rw [isClose, List.count_cons_self, List.count_cons_of_ne (by decide)]
    omega
  · rename_i notOpen notClose
    rw [List.count_cons_of_ne notOpen, List.count_cons_of_ne notClose]

/-- **The depth counts the brackets.** Where no front part of a text closes a bracket that is
not open and every comma has an open bracket around it, cutting keeps the text in one piece,
and behind it as many brackets are open as the counts say. By induction on the text, from
any depth. -/
theorem cutCommas_append {depth : Nat} {text : List Char} (rest : List Char)
    (fronts : ∀ front, front <+: text → front.count '>' ≤ depth + front.count '<')
    (commas : ∀ front, front ++ [','] <+: text → front.count '>' < depth + front.count '<') :
    cutCommas depth (text ++ rest) =
      prependFirst text (cutCommas (depth + text.count '<' - text.count '>') rest) := by
  induction text generalizing depth with
  | nil => rfl
  | cons character text ih =>
      have opened : character = '>' → 0 < depth := by
        rintro rfl
        have first : 1 ≤ depth := by simpa using fronts ['>'] (by simp)
        exact first
      have kept : character = ',' → 0 < depth := by
        rintro rfl
        simpa using commas [] (by simp)
      have moved := fun front => depthPast_add_count front opened
      have innerFronts : ∀ front, front <+: text →
          front.count '>' ≤ depthPast depth character + front.count '<' := by
        intro front isFront
        have balance := moved front
        have bound := fronts (character :: front) (List.cons_prefix_cons.2 ⟨rfl, isFront⟩)
        omega
      have innerCommas : ∀ front, front ++ [','] <+: text →
          front.count '>' < depthPast depth character + front.count '<' := by
        intro front isFront
        have balance := moved front
        have bound := commas (character :: front) (List.cons_prefix_cons.2 ⟨rfl, isFront⟩)
        omega
      have same : depthPast depth character + text.count '<' - text.count '>' =
          depth + (character :: text).count '<' - (character :: text).count '>' := by
        have balance := moved text
        have closed := fronts (character :: text) (List.prefix_refl _)
        omega
      rw [List.cons_append, cutCommas_step _ kept, ih innerFronts innerCommas, same]
      rfl

/-- Cutting at commas passes over an item, at any depth. -/
theorem IsItem.passesCut {text : List Char} (item : IsItem text) : PassesCut text := by
  intro depth rest
  have fronts : ∀ front, front <+: text → front.count '>' ≤ depth + front.count '<' := by
    intro front isFront
    exact Nat.le_add_left_of_le (item.nested.fronts front isFront)
  have inside : ∀ front, front ++ [','] <+: text → front.count '>' < depth + front.count '<' := by
    intro front isFront
    exact Nat.lt_add_left _ (item.commas front isFront)
  rw [cutCommas_append rest fronts inside, item.nested.totals, Nat.add_sub_cancel]

theorem passesCut_of_blanks {blanks : List Char} (white : ∀ blank ∈ blanks, isBlank blank = true) :
    PassesCut blanks := by
  apply passesCut_of_plain
  intro blank among
  have isWhite := white blank among
  refine ⟨?_, ?_, ?_⟩ <;> rintro rfl <;> revert isWhite <;> decide

/-! ## Splitting what was joined -/

/-- The parts of a text that is joined from items, behind some blanks, are the items. By
induction on the joining: the blanks behind a comma come before the next item. -/
theorem splitList_joined {texts : List String} {joined : String} {front : List Char}
    (joins : Joined texts joined) (each : ∀ text ∈ texts, IsItem text.toList)
    (white : ∀ blank ∈ front, isBlank blank = true) :
    splitList (front ++ joined.toList) = texts.map String.toList := by
  induction joins generalizing front with
  | single text =>
      have item := each text (List.mem_singleton.2 rfl)
      have passes := (passesCut_of_blanks white).append item.passesCut
      have cut := passes 0 []
      have trimmed := trim_append white (fun _ none => absurd none List.not_mem_nil) item.start
        item.stop
      rw [List.append_nil] at cut trimmed
      rw [splitList, cut, cutCommas, prependFirst_cons, List.append_nil]
      simp [trimmed]
  | @cons text blanks back joined texts before behind joins ih =>
      have item := each text List.mem_cons_self
      have passes := ((passesCut_of_blanks white).append item.passesCut).append
        (passesCut_of_blanks before)
      have comma : cutCommas 0 (',' :: (back.toList ++ joined.toList)) =
          [] :: cutCommas 0 (back.toList ++ joined.toList) := rfl
      have whole : front ++ (text ++ blanks ++ "," ++ back ++ joined).toList =
          (front ++ text.toList ++ blanks.toList) ++ ',' :: (back.toList ++ joined.toList) := by
        simp
      have inner := ih (fun other among => each other (List.mem_cons_of_mem _ among)) behind
      rw [splitList] at inner
      rw [whole, splitList, passes, comma, prependFirst_cons, List.append_nil, List.map_cons,
        trim_append white before item.start item.stop, inner, List.map_cons]

theorem joined_intercalate {texts : List String} (nonempty : texts ≠ []) :
    Joined texts (",".intercalate texts) := by
  induction texts with
  | nil => exact absurd rfl nonempty
  | cons first texts ih =>
      cases texts with
      | nil =>
          rw [String.intercalate_singleton]
          exact .single first
      | cons second rest =>
          have joins := @Joined.cons first "" "" _ _ (by simp) (by simp) (ih (by simp))
          rw [String.append_empty, String.append_empty] at joins
          rwa [String.intercalate_cons_cons]

/-- **Splitting undoes joining, and joining undoes splitting.** A text that is joined from
items by commas, with any blanks around them, is split into these items; so is what the items
are joined to by commas alone. A text without blanks is joined from the parts that it is split
into, whatever its brackets. -/
theorem split_inverts_joining :
    (∀ texts joined, Joined texts joined → (∀ text ∈ texts, IsItem text.toList) →
      split joined = texts) ∧
    (∀ texts, texts ≠ [] → Joined texts (",".intercalate texts)) ∧
    ∀ text : String, BlankFree text.toList → ",".intercalate (split text) = text := by
  refine ⟨?_, fun texts nonempty => joined_intercalate nonempty, ?_⟩
  · intro texts joined joins each
    have parts := @splitList_joined texts joined [] joins each (by simp)
    rw [List.nil_append] at parts
    simp [split, parts]
  · intro text blankFree
    apply String.toList_injective
    exact toList_intercalate_splitList blankFree

/-- Among the items are one with a comma of its own and an empty one. In the second text a
bracket is closed that was never opened, and one is left open. -/
theorem split_inverts_joining_stray :
    split "Fn<a<b,c>>\u3000,  ,\té" = ["Fn<a<b,c>>", "", "é"] ∧
      ",".intercalate (split "a>,<b,c") = "a>,<b,c" := by
  have white {blanks : String} (all : blanks.toList.all isBlank = true) :
      ∀ blank ∈ blanks.toList, isBlank blank = true :=
    List.all_eq_true.1 all
  have joins : Joined ["Fn<a<b,c>>", "", "é"] "Fn<a<b,c>>\u3000,  ,\té" :=
    @Joined.cons "Fn<a<b,c>>" "\u3000" " " " ,\té" _ (white (by decide)) (white (by decide))
      (@Joined.cons "" " " "\t" "é" _ (white (by decide)) (white (by decide)) (.single "é"))
  have items : ∀ text ∈ ["Fn<a<b,c>>", "", "é"], IsItem text.toList := by
    decide
  have blankFree : BlankFree "a>,<b,c".toList := by
    simp [BlankFree, isBlank]
  exact ⟨split_inverts_joining.1 _ _ joins items, split_inverts_joining.2.2 _ blankFree⟩

end TypeText

end TypedLisp
