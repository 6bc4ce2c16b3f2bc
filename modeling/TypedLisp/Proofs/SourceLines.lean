import TypedLisp.Report

/-!
# The line of an offset

A report shows the line that a byte offset falls into. What that line is can be said without
cutting the text into lines (`Report.LineAt`): the text falls into what is above the line, the
line itself and what is below. Above the line the text is empty or ends with a newline, the
line has no newline before its last character, and only the last line of the text can do
without one. The number of the line counts the newlines above it, and the offset counts the
bytes from the start of the text.

A text is cut into its lines in this sense (`Report.cut_lines`, `Report.lines_eq_append_cons`),
and the search adds up their lengths until the offset falls into one
(`Report.locateIn_eq_some_iff`). So each offset below the length of the text has its line, the
newline at the end of a line belongs to that line, and no other line is ever found.
-/

set_option autoImplicit false

namespace TypedLisp.Report

open Text (byteLength byteLength_append)

/-- A new line starts behind a text. -/
def EndsLine (text : List Char) : Prop := text = [] ∨ text.getLast? = some '\n'

/-- A line is not empty and has no newline before its last character. -/
structure IsLine (line : List Char) : Prop where
  nonempty : line ≠ []
  single : '\n' ∉ line.dropLast

/-- `LineAt text offset located above below`: in the text, the offset falls into the located
line, which stands between `above` and `below`. -/
structure LineAt (text : List Char) (offset : Nat) (located : Located)
    (above below : List Char) : Prop where
  whole : text = above ++ located.line ++ below
  starts : EndsLine above
  numbered : located.number = above.count '\n' + 1
  placed : byteLength above + located.offset = offset
  inside : located.offset < byteLength located.line
  single : '\n' ∉ located.line.dropLast
  ended : located.line.getLast? = some '\n' ∨ below = []

/-! ## Cutting a text into lines -/

/-- Every one of the texts is a line, and all but the last one end with a newline. -/
inductive Cut : List (List Char) → Prop where
  | nil : Cut []
  | last {line : List Char} : line ≠ [] → '\n' ∉ line → Cut [line]
  | cons {line : List Char} {later : List (List Char)} :
      '\n' ∉ line → Cut later → Cut ((line ++ ['\n']) :: later)

theorem cut_lines (text : List Char) : Cut (lines text) := by
  induction text with
  | nil => exact .nil
  | cons character rest ih =>
      rw [lines]
      split
      · rename_i newline
        rw [newline]
        exact @Cut.cons [] _ (by simp) ih
      · rename_i inner
        have different : '\n' ≠ character := fun same => inner same.symm
        split
        · exact .last (by simp) (by simpa using different)
        · rename_i line later found
          rw [found] at ih
          cases ih with
          | last _ free => exact .last (by simp) (by simp [different, free])
          | @cons line _ free ih =>
              exact @Cut.cons (character :: line) _ (by simp [different, free]) ih

theorem flatten_lines (text : List Char) : (lines text).flatten = text := by
  induction text with
  | nil => rfl
  | cons character rest ih =>
      rw [lines]
      split
      · rw [List.flatten_cons, ih]
        rfl
      · split
        · rename_i none
          rw [none] at ih
          rw [← ih]
          rfl
        · rename_i line later found
          rw [found] at ih
          rw [← ih]
          rfl

theorem EndsLine.append {front back : List Char} (first : EndsLine front) (second : EndsLine back) :
    EndsLine (front ++ back) := by
  rcases second with rfl | ends
  · rwa [List.append_nil]
  · exact .inr (by rw [List.getLast?_append, ends]; rfl)

/-- What stands above, at and below one of the lines of a text that is cut. By induction on the
lines above. -/
theorem Cut.around {front back : List (List Char)} {line : List Char}
    (cut : Cut (front ++ line :: back)) :
    EndsLine front.flatten ∧ front.flatten.count '\n' = front.length ∧ IsLine line ∧
      (line.getLast? = some '\n' ∨ back = []) := by
  induction front with
  | nil =>
      rw [List.nil_append] at cut
      refine ⟨.inl rfl, rfl, ?_⟩
      cases cut with
      | last nonempty free =>
          have single : '\n' ∉ line.dropLast :=
            fun among => free ((List.dropLast_sublist line).subset among)
          exact ⟨⟨nonempty, single⟩, .inr rfl⟩
      | cons free _ => exact ⟨⟨by simp, by simpa using free⟩, .inl (by simp)⟩
  | cons first front ih =>
      generalize same : front ++ line :: back = later at cut ih
      rw [List.cons_append, same] at cut
      cases cut with
      | last => simp at same
      | @cons first _ free later =>
          obtain ⟨starts, counted, rest⟩ := ih later
          have ends : EndsLine (first ++ ['\n']) := .inr (by simp)
          refine ⟨ends.append starts, ?_, rest⟩
          rw [List.flatten_cons, List.count_append, counted, List.count_append,
            List.count_eq_zero_of_not_mem free, List.count_singleton_self, List.length_cons]
          omega

/-- The first line of a text ends with its newline, or it is all of the text. -/
theorem lines_append_of_isLine {line below : List Char} (isLine : IsLine line)
    (ended : line.getLast? = some '\n' ∨ below = []) :
    lines (line ++ below) = line :: lines below := by
  obtain ⟨nonempty, single⟩ := isLine
  induction line with
  | nil => exact absurd rfl nonempty
  | cons character rest ih =>
      cases rest with
      | nil =>
          rcases ended with newline | rfl
          · obtain rfl := Option.some.inj newline
            rfl
          · by_cases newline : character = '\n' <;> simp [lines, newline]
      | cons second rest =>
          have inner : character ≠ '\n' := by
            rintro rfl
            exact single List.mem_cons_self
          have found := ih ended (by simp) fun among => single (List.mem_cons_of_mem _ among)
          rw [List.cons_append, lines, if_neg inner, found]

/-- The lines of a text go on behind a newline. -/
theorem lines_append {above : List Char} (starts : EndsLine above) (rest : List Char) :
    lines (above ++ rest) = lines above ++ lines rest := by
  induction above with
  | nil => rfl
  | cons character above ih =>
      by_cases last : above = []
      · obtain rfl : character = '\n' := by simpa [EndsLine, last] using starts
        rw [last]
        rfl
      · have ends : EndsLine above := by
          right
          simpa [EndsLine, List.getLast?_cons_of_ne_nil last] using starts
        rw [List.cons_append, lines, lines, ih ends]
        split
        · rfl
        · obtain ⟨line, later, found⟩ : ∃ line later, lines above = line :: later := by
            apply List.exists_cons_of_ne_nil
            intro none
            exact last (by rw [← flatten_lines above, none]; rfl)
          rw [found]
          rfl

/-- **The lines of a text are what can be told apart in it as lines.** -/
theorem lines_eq_append_cons {above line below : List Char} (starts : EndsLine above)
    (isLine : IsLine line) (ended : line.getLast? = some '\n' ∨ below = []) :
    lines (above ++ line ++ below) = lines above ++ line :: lines below := by
  rw [List.append_assoc, lines_append starts, lines_append_of_isLine isLine ended]

/-! ## The search -/

/-- The search finds the line whose bytes, counted from the start of the first line, hold the
offset. By induction on the lines: each line that is passed adds its length. -/
theorem locateIn_eq_some_iff {number offset : Nat} {texts : List (List Char)}
    {located : Located} :
    locateIn number texts offset = some located ↔
      ∃ front back, texts = front ++ located.line :: back ∧
        located.number = number + front.length ∧
        byteLength front.flatten + located.offset = offset ∧
        located.offset < byteLength located.line := by
  induction texts generalizing number offset with
  | nil => simp [locateIn]
  | cons line later ih =>
      rw [locateIn]
      split
      · rename_i here
        constructor
        · intro found
          obtain rfl := Option.some.inj found
          exact ⟨[], later, rfl, rfl, by simp, here⟩
        · rintro ⟨front, back, same, numbered, placed, -⟩
          cases front with
          | nil =>
              obtain ⟨rfl, -⟩ := List.cons.inj same
              obtain rfl : located.offset = offset := by simpa using placed
              obtain rfl : located.number = number := by simpa using numbered
              rfl
          | cons first front =>
              obtain ⟨rfl, -⟩ := List.cons.inj same
              rw [List.flatten_cons, byteLength_append] at placed
              omega
      · rename_i past
        rw [ih]
        constructor
        · rintro ⟨front, back, rfl, numbered, placed, inside⟩
          refine ⟨line :: front, back, rfl, ?_, ?_, inside⟩
          · rw [List.length_cons]
            omega
          · rw [List.flatten_cons, byteLength_append]
            omega
        · rintro ⟨front, back, same, numbered, placed, inside⟩
          cases front with
          | nil =>
              obtain ⟨rfl, rfl⟩ := List.cons.inj same
              simp only [List.flatten_nil, Text.byteLength_nil] at placed
              omega
          | cons first front =>
              obtain ⟨rfl, rfl⟩ := List.cons.inj same
              rw [List.flatten_cons, byteLength_append] at placed
              rw [List.length_cons] at numbered
              exact ⟨front, back, rfl, by omega, by omega, inside⟩

theorem exists_locateIn_iff {number offset : Nat} {texts : List (List Char)} :
    (∃ located, locateIn number texts offset = some located) ↔
      offset < byteLength texts.flatten := by
  induction texts generalizing number offset with
  | nil => simp [locateIn]
  | cons line later ih =>
      rw [locateIn, List.flatten_cons, byteLength_append]
      split
      · rename_i here
        exact ⟨fun _ => by omega, fun _ => ⟨_, rfl⟩⟩
      · rw [ih]
        omega

theorem exists_locate_iff {text : String} {offset : Nat} :
    (∃ located, locate text offset = some located) ↔ offset < byteLength text.toList := by
  rw [← flatten_lines text.toList]
  exact exists_locateIn_iff

theorem locate_eq_some_iff {text : String} {offset : Nat} {located : Located} :
    locate text offset = some located ↔
      ∃ above below, LineAt text.toList offset located above below := by
  have cut := cut_lines text.toList
  rw [locate, locateIn_eq_some_iff]
  constructor
  · rintro ⟨front, back, same, numbered, placed, inside⟩
    rw [same] at cut
    obtain ⟨starts, counted, isLine, ended⟩ := cut.around
    refine ⟨front.flatten, back.flatten, ?_, starts, by omega, placed, inside, isLine.single, ?_⟩
    · rw [← flatten_lines text.toList, same, List.flatten_append, List.flatten_cons,
        List.append_assoc]
    · exact ended.imp_right fun none => by rw [none]; rfl
  · rintro ⟨above, below, whole, starts, numbered, placed, inside, single, ended⟩
    have nonempty : located.line ≠ [] := by
      intro empty
      rw [empty] at inside
      exact Nat.not_lt_zero _ inside
    have same := lines_eq_append_cons starts ⟨nonempty, single⟩ ended
    rw [← whole] at same
    rw [same] at cut
    have counted := cut.around.2.1
    rw [flatten_lines] at counted
    refine ⟨lines above, lines below, same, by omega, ?_, inside⟩
    rwa [flatten_lines]

/-- **Every byte of a text is found in its line.** There is an answer for the offsets below the
length of the text and no others, and it is the line that the offset falls into, with its
number and the offset within it. -/
theorem locate_exact (text : String) (offset : Nat) :
    ((∃ located, locate text offset = some located) ↔ offset < byteLength text.toList) ∧
    ∀ located, locate text offset = some located ↔
      ∃ above below, LineAt text.toList offset located above below :=
  ⟨exists_locate_iff, fun _ => locate_eq_some_iff⟩

-- An empty line is found by its newline alone.
example : locate "é\n\nb" 3 = some ⟨2, ['\n'], 0⟩ := by
  decide

/-! ## Characters -/

/-- A character of the text that stands at the offset stands in the line. -/
theorem LineAt.split {text above below front back : List Char} {offset : Nat} {located : Located}
    {character : Char} (lineAt : LineAt text offset located above below)
    (same : text = front ++ character :: back) (atOffset : byteLength front = offset) :
    ∃ before after, front = above ++ before ∧ back = after ++ below ∧
      located.line = before ++ character :: after ∧ located.offset = byteLength before := by
  have placed := lineAt.placed
  have inside := lineAt.inside
  have halves : above ++ (located.line ++ below) = front ++ character :: back := by
    rw [← List.append_assoc, ← lineAt.whole, same]
  -- The line starts at or before the offset.
  obtain ⟨before, rfl, rest⟩ : ∃ before, front = above ++ before ∧
      located.line ++ below = before ++ character :: back := by
    rcases List.append_eq_append_iff.1 halves with ⟨before, found, rest⟩ | ⟨extra, found, rest⟩
    · exact ⟨before, found, rest⟩
    · cases extra with
      | nil => exact ⟨[], by simpa using found.symm, by simpa using rest.symm⟩
      | cons first extra =>
          have size := first.utf8Size_pos
          rw [found, byteLength_append, Text.byteLength_cons] at placed
          omega
  rw [byteLength_append] at atOffset
  -- It ends behind the offset.
  rcases List.append_eq_append_iff.1 rest with ⟨extra, found, -⟩ | ⟨tail, found, rest⟩
  · rw [found, byteLength_append] at atOffset
    omega
  · cases tail with
    | nil =>
        rw [found, List.append_nil] at inside
        omega
    | cons first after =>
        obtain ⟨rfl, rfl⟩ := List.cons.inj rest
        exact ⟨before, after, rfl, rfl, found, by omega⟩

end TypedLisp.Report
