/-
**Rows of named columns.**

An insertion names its columns once and gives its values by position; a selection names columns and
is read by position. `keepAll` is what the columns keep of the values, `selectRow` what a selection
returns, `scanNext` the reading of one position.

* `selectRow_zip`: selecting the columns of an insertion, in its order, returns what was kept.
* `scan_bind`: reading goes on with the next position.
-/

import Mathlib.Data.List.Basic

namespace Trail.Library

variable {Column Value : Type}

/-- What the columns keep of values given by position; none when one is refused or the numbers
differ. -/
def keepAll (keep : Column → Value → Option Value) : List Column → List Value → Option (List Value)
  | [], [] => some []
  | column :: columns, value :: values =>
    (keep column value).bind fun kept =>
      (keepAll keep columns values).map fun rest => kept :: rest
  | _, _ => none

theorem keepAll_cons {keep : Column → Value → Option Value} {column : Column} {value kept : Value}
    {columns : List Column} {values rest : List Value} (first : keep column value = some kept)
    (others : keepAll keep columns values = some rest) :
    keepAll keep (column :: columns) (value :: values) = some (kept :: rest) := by
  rw [keepAll, first, Option.bind_some, others]
  rfl

theorem keepAll_refused {keep : Column → Value → Option Value} {columns : List Column}
    {values : List Value} {index : Nat} {column : Column} {value : Value}
    (here : columns[index]? = some column) (there : values[index]? = some value)
    (refused : keep column value = none) : keepAll keep columns values = none := by
  induction columns generalizing values index with
  | nil => cases here
  | cons first columns ih =>
    cases values with
    | nil => cases there
    | cons head values =>
      cases index with
      | zero =>
        cases here
        cases there
        rw [keepAll, refused]
        rfl
      | succ index =>
        rw [keepAll, ih here there]
        cases keep first head <;> rfl

theorem keepAll_length {keep : Column → Value → Option Value} {columns : List Column}
    {values kept : List Value} (stored : keepAll keep columns values = some kept) :
    kept.length = columns.length := by
  induction columns generalizing values kept with
  | nil =>
    cases values with
    | nil =>
      cases stored
      rfl
    | cons value values => cases stored
  | cons column columns ih =>
    cases values with
    | nil => cases stored
    | cons value values =>
      obtain ⟨first, _, rest⟩ := Option.bind_eq_some_iff.mp stored
      obtain ⟨others, inner, rfl⟩ := Option.map_eq_some_iff.mp rest
      rw [List.length_cons, List.length_cons, ih inner]

theorem keepAll_getElem? {keep : Column → Value → Option Value} {columns : List Column}
    {values kept : List Value} (stored : keepAll keep columns values = some kept) {index : Nat}
    {column : Column} {value : Value} (here : columns[index]? = some column)
    (there : values[index]? = some value) : kept[index]? = keep column value := by
  induction columns generalizing values kept index with
  | nil => cases here
  | cons first columns ih =>
    cases values with
    | nil => cases there
    | cons head values =>
      obtain ⟨start, same, rest⟩ := Option.bind_eq_some_iff.mp stored
      obtain ⟨others, inner, rfl⟩ := Option.map_eq_some_iff.mp rest
      cases index with
      | zero =>
        cases here
        cases there
        exact same.symm
      | succ index => exact ih inner here there

/-- A row, with a value for each of its columns. -/
abbrev Row (Column Value : Type) := List (Column × Value)

variable [DecidableEq Column]

/-- The value of a column. -/
def Row.get (row : Row Column Value) (column : Column) : Option Value :=
  (row.find? fun entry => entry.1 = column).map Prod.snd

/-- `SELECT` of some columns of a row. -/
def selectRow (row : Row Column Value) : List Column → Option (List Value)
  | [] => some []
  | column :: columns =>
    (row.get column).bind fun value => (selectRow row columns).map fun rest => value :: rest

theorem selectRow_cons {row : Row Column Value} {column : Column} {value : Value}
    {columns : List Column} (absent : column ∉ columns) :
    selectRow ((column, value) :: row) columns = selectRow row columns := by
  induction columns with
  | nil => rfl
  | cons other columns ih =>
    obtain ⟨differ, rest⟩ := not_or.mp (mt List.mem_cons.mpr absent)
    have same : Row.get ((column, value) :: row) other = Row.get row other := by
      unfold Row.get
      rw [List.find?_cons_of_neg (by simpa using differ)]
    rw [selectRow, selectRow, same, ih rest]

/-- **Selecting the columns of an insertion returns its values.** -/
theorem selectRow_zip {columns : List Column} {values : List Value} (distinct : columns.Nodup)
    (same : values.length = columns.length) :
    selectRow (columns.zip values) columns = some values := by
  induction columns generalizing values with
  | nil =>
    rw [List.length_eq_zero_iff.mp same]
    rfl
  | cons column columns ih =>
    cases values with
    | nil => cases same
    | cons value values =>
      obtain ⟨absent, rest⟩ := List.nodup_cons.mp distinct
      have here : Row.get ((column, value) :: columns.zip values) column = some value := by
        unfold Row.get
        rw [List.find?_cons_of_pos (by simp)]
        rfl
      rw [List.zip_cons_cons, selectRow, here, selectRow_cons absent,
        ih rest (Nat.succ.inj same)]
      rfl

theorem Row.get_zip {columns : List Column} {values : List Value} (distinct : columns.Nodup)
    (same : values.length = columns.length) {index : Nat} {column : Column}
    (here : columns[index]? = some column) :
    Row.get (columns.zip values) column = values[index]? := by
  induction columns generalizing values index with
  | nil => cases here
  | cons first columns ih =>
    cases values with
    | nil => cases same
    | cons value values =>
      obtain ⟨absent, rest⟩ := List.nodup_cons.mp distinct
      unfold Row.get
      cases index with
      | zero =>
        cases here
        rw [List.zip_cons_cons, List.find?_cons_of_pos (by simp)]
        rfl
      | succ index =>
        have differs : first ≠ column := fun equal =>
          absent (equal ▸ List.mem_of_getElem? here)
        rw [List.zip_cons_cons, List.find?_cons_of_neg (by simpa using differs)]
        exact ih rest (Nat.succ.inj same) here

/-! ### Reading by position -/

/-- A reading of the values of a row, from the front. -/
abbrev Scan (Value : Type) := StateT (List Value) Option

/-- The next value, as its target reads it. -/
def scanNext {α : Type} (read : Value → Option α) : Scan Value α := fun values =>
  match values with
  | [] => none
  | value :: values => (read value).map fun result => (result, values)

theorem scan_bind {α β : Type} (read : Value → Option α) (next : α → Scan Value β) (value : Value)
    (values : List Value) :
    (scanNext read >>= next) (value :: values) = (read value).bind fun result => next result values := by
  show ((read value).map _).bind _ = _
  cases read value <;> rfl

/-- A reading of all the values of a row: every value has a target. -/
def scanAll {α : Type} (scan : Scan Value α) (values : List Value) : Option α :=
  (scan values).bind fun result => if result.2.isEmpty then some result.1 else none

end Trail.Library
