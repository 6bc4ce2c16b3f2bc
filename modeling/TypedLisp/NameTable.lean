/-!
# Tables from names to values

A table keeps its entries in the order in which their names first came.
Inserting a name that is there replaces its value in place, so putting an old
value back, or erasing a name that was not there before, restores the table
(`insert_insert_of_get?`, `erase_insert_of_get?`).
-/

set_option autoImplicit false

namespace TypedLisp

/-- A table from names to values. -/
structure NameTable (α : Type) where
  entries : List (String × α)
  deriving DecidableEq, Repr

namespace NameTable

variable {α : Type}

/-- The table without entries. -/
def empty : NameTable α := ⟨[]⟩

/-- The value of a name among entries. -/
def find? (name : String) : List (String × α) → Option α
  | [] => none
  | entry :: entries => if entry.1 = name then some entry.2 else find? name entries

/-- Entries with a value set for a name. -/
def put (name : String) (value : α) : List (String × α) → List (String × α)
  | [] => [(name, value)]
  | entry :: entries =>
      if entry.1 = name then (name, value) :: entries else entry :: put name value entries

/-- The value of a name. -/
def get? (table : NameTable α) (name : String) : Option α := find? name table.entries

/-- Whether a name has a value. -/
def contains (table : NameTable α) (name : String) : Bool := (table.get? name).isSome

/-- The table with a value set for a name. -/
def insert (table : NameTable α) (name : String) (value : α) : NameTable α :=
  ⟨put name value table.entries⟩

/-- The table without a name. -/
def erase (table : NameTable α) (name : String) : NameTable α :=
  ⟨table.entries.filter (·.1 ≠ name)⟩

/-! ## Looking up after a change -/

@[simp] theorem get?_empty (name : String) : (empty : NameTable α).get? name = none := rfl

theorem find?_put (name other : String) (value : α) (entries : List (String × α)) :
    find? other (put name value entries) = if name = other then some value
      else find? other entries := by
  induction entries with
  | nil => simp [find?, put]
  | cons entry entries ih =>
      by_cases here : entry.1 = name
      · by_cases same : name = other <;> simp [find?, put, here, same]
      · by_cases same : name = other
        · subst same; simp [find?, put, here, ih]
        · simp [find?, put, here, ih, same]

theorem get?_insert (table : NameTable α) (name other : String) (value : α) :
    (table.insert name value).get? other = if name = other then some value
      else table.get? other :=
  find?_put name other value table.entries

theorem find?_filter (name other : String) (entries : List (String × α)) :
    find? other (entries.filter (·.1 ≠ name)) = if name = other then none
      else find? other entries := by
  induction entries with
  | nil => simp [find?]
  | cons entry entries ih =>
      by_cases here : entry.1 = name
      · by_cases same : name = other
        · simpa [here, same] using ih
        · simpa [find?, here, same] using ih
      · by_cases same : name = other
        · subst same; simpa [find?, here] using ih
        · by_cases there : entry.1 = other
          · subst there; simp [find?, here, same]
          · simpa [find?, here, same, there] using ih

theorem get?_erase (table : NameTable α) (name other : String) :
    (table.erase name).get? other = if name = other then none else table.get? other :=
  find?_filter name other table.entries

/-! ## Restoring a table -/

theorem put_put_of_find? {name : String} {old new : α} {entries : List (String × α)}
    (found : find? name entries = some old) :
    put name old (put name new entries) = entries := by
  induction entries with
  | nil => simp [find?] at found
  | cons entry entries ih =>
      by_cases here : entry.1 = name
      · obtain rfl : entry.2 = old := by simpa [find?, here] using found
        subst here
        simp [put]
      · simp [put, here, ih (by simpa [find?, here] using found)]

/-- Putting the old value of a name back undoes an insertion. -/
theorem insert_insert_of_get? {table : NameTable α} {name : String} {old new : α}
    (found : table.get? name = some old) : (table.insert name new).insert name old = table := by
  simp [insert, put_put_of_find? found]

theorem filter_put_of_find? {name : String} {value : α} {entries : List (String × α)}
    (missing : find? name entries = none) :
    (put name value entries).filter (·.1 ≠ name) = entries := by
  induction entries with
  | nil => simp [put]
  | cons entry entries ih =>
      by_cases here : entry.1 = name
      · simp [find?, here] at missing
      · have rest := ih (by simpa [find?, here] using missing)
        simpa [put, here] using rest

/-- Erasing a name that was not there undoes an insertion. -/
theorem erase_insert_of_get? {table : NameTable α} {name : String} {value : α}
    (missing : table.get? name = none) : (table.insert name value).erase name = table := by
  have restored : (put name value table.entries).filter (·.1 ≠ name) = table.entries :=
    filter_put_of_find? missing
  simp only [insert, erase, restored]

theorem put_of_find? {name : String} {value : α} {entries : List (String × α)}
    (found : find? name entries = some value) : put name value entries = entries := by
  induction entries with
  | nil => cases found
  | cons entry entries ih =>
      by_cases same : entry.1 = name
      · rw [find?, if_pos same] at found
        rw [put, if_pos same, ← same, ← Option.some.inj found]
      · rw [find?, if_neg same] at found
        rw [put, if_neg same, ih found]

theorem insert_of_get? {table : NameTable α} {name : String} {value : α}
    (found : table.get? name = some value) : table.insert name value = table :=
  congrArg NameTable.mk (put_of_find? found)

theorem filter_of_find? {name : String} {entries : List (String × α)}
    (missing : find? name entries = none) : entries.filter (·.1 ≠ name) = entries := by
  induction entries with
  | nil => rfl
  | cons entry entries ih =>
      by_cases same : entry.1 = name
      · rw [find?, if_pos same] at missing
        cases missing
      · rw [find?, if_neg same] at missing
        rw [List.filter_cons_of_pos (by simpa using same), ih missing]

theorem erase_of_get? {table : NameTable α} {name : String} (missing : table.get? name = none) :
    table.erase name = table :=
  congrArg NameTable.mk (filter_of_find? missing)

end NameTable

end TypedLisp
