import Mathlib.Algebra.Ring.Nat
import Mathlib.Data.List.Forall2
import Mathlib.Data.List.TakeWhile

/-!
# Facts about lists

What the proofs need to know about lists whatever their items are: runs of items that pass
a test, questions that are answered item by item, items that are related pair by pair, and
lists or texts that are joined with a separator. Nothing here mentions the program.
-/

set_option autoImplicit false

namespace List

variable {α β γ : Type}

/-! ## Runs -/

section Runs

variable {test : α → Bool}

theorem head?_dropWhile_eq_false {items : List α} :
    ∀ first ∈ (items.dropWhile test).head?, test first = false := by
  intro first found
  have stopped := head?_dropWhile_not test items
  rw [Option.mem_def] at found
  simpa [found] using stopped

theorem takeWhile_append_of_stops {run rest : List α} (inside : ∀ item ∈ run, test item = true)
    (stops : ∀ first ∈ rest.head?, test first = false) : (run ++ rest).takeWhile test = run := by
  rw [takeWhile_append_of_pos inside]
  cases rest with
  | nil => simp
  | cons first rest => simp [stops first rfl]

theorem dropWhile_append_of_stops {run rest : List α} (inside : ∀ item ∈ run, test item = true)
    (stops : ∀ first ∈ rest.head?, test first = false) : (run ++ rest).dropWhile test = rest := by
  have parts := @takeWhile_append_dropWhile _ test (run ++ rest)
  rw [takeWhile_append_of_stops inside stops] at parts
  exact append_cancel_left parts

/-- What is dropped in front of an item that stays does not depend on what comes next. -/
theorem dropWhile_append_cons_of_neg {item : α} (stays : test item = false) (front back : List α) :
    (front ++ item :: back).dropWhile test = front.dropWhile test ++ item :: back := by
  rw [dropWhile_append]
  split
  · rename_i none
    rw [isEmpty_iff.1 none, dropWhile_cons_of_neg (by simp [stays]), nil_append]
  · rfl

theorem takeWhile_append_cons_of_neg {item : α} (stays : test item = false) (front back : List α) :
    (front ++ item :: back).takeWhile test = front.takeWhile test := by
  rw [takeWhile_append]
  split
  · rename_i all
    have front := takeWhile_prefix test (l := front)
    rw [takeWhile_cons_of_neg (by simp [stays]), append_nil]
    exact (front.eq_of_length all).symm
  · rfl

/-- A mark at the end of a list that it does not occur in stands at one place only. -/
theorem getElem?_concat_eq_some_iff {front : List α} {mark : α} (fresh : mark ∉ front)
    {index : Nat} : (front ++ [mark])[index]? = some mark ↔ index = front.length := by
  rw [getElem?_append]
  split
  · rename_i short
    constructor
    · intro found
      exact absurd (mem_of_getElem? found) fresh
    · omega
  · rename_i long
    have first : index - front.length = 0 ↔ index = front.length := by omega
    simp [getElem?_singleton, first]

end Runs

/-! ## Questions -/

section Questions

variable {items : List α}

theorem any_congr_of_mem {left right : α → Bool}
    (same : ∀ item ∈ items, left item = right item) : items.any left = items.any right := by
  induction items with
  | nil => rfl
  | cons item items ih =>
      simp only [any_cons, same item mem_cons_self,
        ih fun other among => same other (mem_cons_of_mem _ among)]

theorem all_congr_of_mem {left right : α → Bool}
    (same : ∀ item ∈ items, left item = right item) : items.all left = items.all right := by
  induction items with
  | nil => rfl
  | cons item items ih =>
      simp only [all_cons, same item mem_cons_self,
        ih fun other among => same other (mem_cons_of_mem _ among)]

theorem mapM_eq_some_of_mem {ask : α → Option β} {answer : α → β}
    (answered : ∀ item ∈ items, ask item = some (answer item)) :
    items.mapM ask = some (items.map answer) := by
  induction items with
  | nil => rfl
  | cons item items ih =>
      rw [mapM_cons, answered item mem_cons_self,
        ih fun other among => answered other (mem_cons_of_mem _ among)]
      rfl

theorem allM_eq_some_of_mem {ask : α → Option Bool} {answer : α → Bool}
    (answered : ∀ item ∈ items, ask item = some (answer item)) :
    items.allM ask = some (items.all answer) := by
  induction items with
  | nil => rfl
  | cons item items ih =>
      have rest := ih fun other among => answered other (mem_cons_of_mem _ among)
      cases here : answer item <;>
        simp [allM, answered item mem_cons_self, here, rest]

theorem allM_zip_eq_some_of_mem {others : List β} {ask : α → β → Option Bool}
    {answer : α → β → Bool}
    (answered : ∀ item ∈ items, ∀ other ∈ others, ask item other = some (answer item other)) :
    (items.zip others).allM (fun pair => ask pair.1 pair.2) =
      some ((items.zip others).all fun pair => answer pair.1 pair.2) := by
  apply allM_eq_some_of_mem
  intro pair among
  obtain ⟨amongItems, amongOthers⟩ := of_mem_zip among
  exact answered pair.1 amongItems pair.2 amongOthers

theorem anyM_eq_some_of_mem {ask : α → Option Bool} {answer : α → Bool}
    (answered : ∀ item ∈ items, ask item = some (answer item)) :
    items.anyM ask = some (items.any answer) := by
  induction items with
  | nil => rfl
  | cons item items ih =>
      have rest := ih fun other among => answered other (mem_cons_of_mem _ among)
      cases here : answer item <;>
        simp [anyM, answered item mem_cons_self, here, rest]

end Questions

/-! ## Pairs -/

/-- Relations of corresponding items are combined pair by pair. -/
theorem Forall₂.comp_of_mem {left : α → β → Prop} {right : β → γ → Prop} {both : α → γ → Prop}
    {xs : List α} {ys : List β} {zs : List γ} (one : Forall₂ left xs ys)
    (other : Forall₂ right ys zs)
    (combine : ∀ x ∈ xs, ∀ y ∈ ys, ∀ z ∈ zs, left x y → right y z → both x z) :
    Forall₂ both xs zs := by
  induction one generalizing zs with
  | nil =>
      cases other
      exact .nil
  | cons first _ ih =>
      cases other with
      | cons second rest =>
          refine .cons (combine _ mem_cons_self _ mem_cons_self _ mem_cons_self first second)
            (ih rest ?_)
          intro x amongX y amongY z amongZ
          exact combine x (mem_cons_of_mem _ amongX) y (mem_cons_of_mem _ amongY) z
            (mem_cons_of_mem _ amongZ)

/-- Relations of corresponding items in both directions are combined pair by pair. -/
theorem Forall₂.both_of_mem {left : α → β → Prop} {right : β → α → Prop} {both : α → β → Prop}
    {xs : List α} {ys : List β} (one : Forall₂ left xs ys) (other : Forall₂ right ys xs)
    (combine : ∀ x ∈ xs, ∀ y ∈ ys, left x y → right y x → both x y) : Forall₂ both xs ys := by
  obtain ⟨lengths, pairs⟩ := forall₂_iff_zip.1 one
  obtain ⟨_, back⟩ := forall₂_iff_zip.1 other.flip
  refine forall₂_iff_zip.2 ⟨lengths, fun {x y} among => ?_⟩
  obtain ⟨amongX, amongY⟩ := of_mem_zip among
  exact combine x amongX y amongY (pairs among) (back among)

/-- What holds of the second side of every pair holds of all second sides. -/
theorem Forall₂.forall_right {holds : β → Prop} {xs : List α} {ys : List β}
    (each : Forall₂ (fun _ y => holds y) xs ys) : ∀ y ∈ ys, holds y :=
  have paired : Forall₂ (fun y _ => holds y ∧ True) ys xs :=
    each.flip.imp fun _ _ found => ⟨found, trivial⟩
  ((forall₂_and_left ys xs).1 paired).1

/-- Items that are paired with their images. -/
theorem Forall₂.eq_map {holds : α → Prop} {image : α → β} {xs : List α} {ys : List β}
    (each : Forall₂ (fun x y => holds x ∧ y = image x) xs ys) :
    ys = xs.map image ∧ ∀ x ∈ xs, holds x := by
  obtain ⟨all, images⟩ := (forall₂_and_left xs ys).1 each
  refine ⟨?_, all⟩
  have paired := forall₂_map_right_iff.2 images.flip
  rwa [forall₂_eq_eq_eq] at paired

theorem forall₂_of_map_eq {image : α → β} {xs ys : List α} (same : xs.map image = ys.map image) :
    Forall₂ (fun x y => image x = image y) xs ys := by
  have equal : Forall₂ Eq (xs.map image) (ys.map image) := by
    rw [forall₂_eq_eq_eq]
    exact same
  exact forall₂_map_right_iff.1 (forall₂_map_left_iff.1 equal)

/-- The second sides of the pairs can be exchanged for others with the same images. -/
theorem Forall₂.of_map_eq {first second : α → β → Prop} {image : β → γ} {xs : List α}
    {ys zs : List β} (each : Forall₂ first xs ys) (same : ys.map image = zs.map image)
    (step : ∀ {x : α} {y : β}, ∀ z ∈ zs, first x y → image y = image z → second x z) :
    Forall₂ second xs zs :=
  each.comp_of_mem (forall₂_of_map_eq same) fun _ _ _ _ z among => step z among

theorem eq_of_map_eq {image : α → β} {xs ys : List α}
    (injective : ∀ x ∈ xs, ∀ y ∈ ys, image x = image y → x = y)
    (same : xs.map image = ys.map image) : xs = ys := by
  rw [← forall₂_eq_eq_eq]
  exact (forall₂_of_map_eq same).both_of_mem (forall₂_of_map_eq same.symm)
    fun x amongX y amongY sameImage _ => injective x amongX y amongY sameImage

/-- Whatever lists are related to one list are related to another one exactly if this holds
item by item, for a reflexive relation. -/
theorem forall₂_imp_iff {related : α → α → Prop} {items others : List α}
    (refl : ∀ item, related item item) :
    (∀ values, Forall₂ related values items → Forall₂ related values others) ↔
      Forall₂ (fun item other => ∀ value, related value item → related value other)
        items others := by
  constructor
  · intro implied
    induction items generalizing others with
    | nil =>
        cases implied [] .nil
        exact .nil
    | cons item items ih =>
        have same : Forall₂ related items items := forall₂_same.2 fun item _ => refl item
        cases implied (item :: items) (.cons (refl item) same) with
        | cons _ _ =>
            -- One value is changed at a time, and the others are the items themselves.
            refine .cons (fun value holds => ?_) (ih fun values holds => ?_)
            · cases implied (value :: items) (.cons holds same) with
              | cons head _ => exact head
            · cases implied (item :: values) (.cons (refl item) holds) with
              | cons _ tail => exact tail
  · intro pointwise values holds
    exact holds.comp_of_mem pointwise fun value _ item _ other _ first second =>
      second value first

/-! ## Joined lists -/

/-- What holds of the separator and of every list holds of the joined list, if it holds of the
empty list and of two lists one after the other. -/
theorem intercalate_induction {motive : List α → Prop} {separator : List α} (nil : motive [])
    (append : ∀ {first second : List α}, motive first → motive second → motive (first ++ second))
    (between : motive separator) {lists : List (List α)} (each : ∀ list ∈ lists, motive list) :
    motive (separator.intercalate lists) := by
  induction lists with
  | nil => exact nil
  | cons first lists ih =>
      cases lists with
      | nil =>
          rw [intercalate_singleton]
          exact each first mem_cons_self
      | cons second rest =>
          rw [intercalate_cons_cons, append_assoc]
          exact append (each first mem_cons_self)
            (append between (ih fun list among => each list (mem_cons_of_mem _ among)))

theorem mem_or_mem_of_mem_intercalate {separator : List α} {lists : List (List α)} {item : α}
    (among : item ∈ separator.intercalate lists) :
    item ∈ separator ∨ ∃ list ∈ lists, item ∈ list := by
  refine intercalate_induction (motive := fun text => item ∈ text →
    item ∈ separator ∨ ∃ list ∈ lists, item ∈ list) (by simp) ?_ .inl ?_ among
  · intro first second left right among
    exact (mem_append.1 among).elim left right
  · exact fun list listed among => .inr ⟨list, listed, among⟩

theorem mem_intercalate_of_mem (separator : List α) {lists : List (List α)} {list : List α}
    {item : α} (listed : list ∈ lists) (among : item ∈ list) :
    item ∈ separator.intercalate lists := by
  induction lists with
  | nil => cases listed
  | cons first lists ih =>
      cases lists with
      | nil =>
          rw [intercalate_singleton, ← mem_singleton.1 listed]
          exact among
      | cons second rest =>
          rw [intercalate_cons_cons, append_assoc]
          rcases mem_cons.1 listed with rfl | listed
          · exact mem_append_left _ among
          · exact mem_append_right _ (mem_append_right _ (ih listed))

end List

/-- Between joined texts there is one separator less than there are texts. -/
theorem String.length_intercalate (separator : String) (texts : List String)
    (nonempty : texts ≠ []) :
    (separator.intercalate texts).length + separator.length =
      (texts.map String.length).sum + texts.length * separator.length := by
  induction texts with
  | nil => exact absurd rfl nonempty
  | cons text texts ih =>
      cases texts with
      | nil => simp
      | cons next texts =>
          have rest := ih (by simp)
          rw [String.intercalate_cons_cons]
          simp only [String.length_append, List.map_cons, List.sum_cons, List.length_cons,
            Nat.succ_mul] at rest ⊢
          omega
