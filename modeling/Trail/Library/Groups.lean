/-
**Groups of rows.**

`GROUP BY` gives one row for each key that occurs, made of the rows that have it.

* `mem_groups`: a group is a key that occurs, with its rows.
* `group_filter`: the rows of a key among those that pass a condition.
* `groups_of_one`: rows that share a key are one group.
* `countDistinct_eq_iff`: a part counts as many values as all rows when it has all of them.
* `IsFirst`, `IsLast`: a row that no other one is before, or after.
-/

import Mathlib.Data.Finset.Card
import Mathlib.Data.List.Dedup
import Mathlib.Order.Lattice

namespace Trail.Library

variable {Row Key Value : Type} [DecidableEq Key] [DecidableEq Value]

/-- The rows of a key. -/
def group (keyOf : Row → Key) (rows : List Row) (key : Key) : List Row :=
  rows.filter fun row => keyOf row = key

/-- `GROUP BY`: the keys that occur, with their rows. -/
def groups (keyOf : Row → Key) (rows : List Row) : List (Key × List Row) :=
  (rows.map keyOf).dedup.map fun key => (key, group keyOf rows key)

/-- `count(DISTINCT value)`. -/
def countDistinct (value : Row → Value) (rows : List Row) : Nat := (rows.map value).dedup.length

section Groups

variable {keyOf : Row → Key} {rows : List Row} {key : Key}

theorem mem_group {row : Row} : row ∈ group keyOf rows key ↔ row ∈ rows ∧ keyOf row = key := by
  unfold group
  rw [List.mem_filter, decide_eq_true_iff]

theorem mem_groups {entry : Key × List Row} :
    entry ∈ groups keyOf rows ↔ ∃ row ∈ rows, entry = (keyOf row, group keyOf rows (keyOf row)) := by
  unfold groups
  rw [List.mem_map]
  constructor
  · rintro ⟨key, member, rfl⟩
    obtain ⟨row, here, rfl⟩ := List.mem_map.mp (List.mem_dedup.mp member)
    exact ⟨row, here, rfl⟩
  · rintro ⟨row, member, rfl⟩
    exact ⟨keyOf row, List.mem_dedup.mpr (List.mem_map_of_mem member), rfl⟩

theorem group_ne_nil {entry : Key × List Row} (member : entry ∈ groups keyOf rows) :
    entry.2 ≠ [] := by
  obtain ⟨row, here, rfl⟩ := mem_groups.mp member
  exact List.ne_nil_of_mem (mem_group.mpr ⟨here, rfl⟩)

theorem group_filter (keep : Row → Bool) :
    group keyOf (rows.filter keep) key = (group keyOf rows key).filter keep := by
  unfold group
  rw [List.filter_filter, List.filter_filter]
  exact List.filter_congr fun row _ => Bool.and_comm _ _

theorem group_filter_of_all {keep : Row → Bool}
    (all : ∀ row ∈ rows, keyOf row = key → keep row = true) :
    group keyOf (rows.filter keep) key = group keyOf rows key := by
  rw [group_filter, List.filter_eq_self.mpr]
  intro row member
  obtain ⟨here, same⟩ := mem_group.mp member
  exact all row here same

theorem groups_of_one (some : rows ≠ []) (all : ∀ row ∈ rows, keyOf row = key) :
    groups keyOf rows = [(key, rows)] := by
  have keys : (rows.map keyOf).dedup = [key] := by
    rw [List.map_eq_replicate_iff.mpr all]
    exact List.replicate_dedup fun none => some (List.length_eq_zero_iff.mp none)
  have whole : group keyOf rows key = rows :=
    List.filter_eq_self.mpr fun row member => decide_eq_true (all row member)
  unfold groups
  rw [keys, List.map_singleton, whole]

end Groups

section Count

variable {value : Row → Value} {rows part : List Row}

theorem countDistinct_eq (distinct : (rows.map value).Nodup) : countDistinct value rows = rows.length := by
  unfold countDistinct
  rw [distinct.dedup, List.length_map]

theorem countDistinct_eq_card : countDistinct value rows = (rows.map value).toFinset.card := rfl

theorem countDistinct_congr (same : ∀ v, (∃ row ∈ part, value row = v) ↔ ∃ row ∈ rows, value row = v) :
    countDistinct value part = countDistinct value rows := by
  have values : (part.map value).toFinset = (rows.map value).toFinset := by
    ext v
    rw [List.mem_toFinset, List.mem_toFinset, List.mem_map, List.mem_map, same]
  rw [countDistinct_eq_card, countDistinct_eq_card, values]

/-- **A part counts as many values as all rows** exactly when it has the value of every row. -/
theorem countDistinct_eq_iff (among : ∀ row ∈ part, row ∈ rows) :
    countDistinct value part = countDistinct value rows ↔
      ∀ row ∈ rows, ∃ other ∈ part, value other = value row := by
  have fewer : (part.map value).toFinset ⊆ (rows.map value).toFinset := by
    intro v member
    obtain ⟨row, here, rfl⟩ := List.mem_map.mp (List.mem_toFinset.mp member)
    exact List.mem_toFinset.mpr (List.mem_map_of_mem (among row here))
  constructor
  · intro same row member
    have all := Finset.eq_of_subset_of_card_le fewer (le_of_eq same.symm)
    have value := List.mem_toFinset.mpr (List.mem_map_of_mem (f := value) member)
    rw [← all] at value
    exact List.mem_map.mp (List.mem_toFinset.mp value)
  · intro all
    refine countDistinct_congr fun v => ⟨?_, ?_⟩
    · rintro ⟨row, member, rfl⟩
      exact ⟨row, among row member, rfl⟩
    · rintro ⟨row, member, rfl⟩
      exact all row member

end Count

/-! ### The first and the last row -/

section Extremes

variable {Key : Type} [LinearOrder Key] {key : Row → Key} {rows : List Row} {row other : Row}

/-- A row that no other one is before. -/
structure IsFirst (key : Row → Key) (rows : List Row) (row : Row) : Prop where
  member : row ∈ rows
  before : ∀ other ∈ rows, key row ≤ key other

/-- A row that no other one is after. -/
structure IsLast (key : Row → Key) (rows : List Row) (row : Row) : Prop where
  member : row ∈ rows
  after : ∀ other ∈ rows, key other ≤ key row

theorem IsLast.same (one : IsLast key rows row) (two : IsLast key rows other) : key row = key other :=
  le_antisymm (two.after row one.member) (one.after other two.member)

theorem exists_isLast (key : Row → Key) (some : rows ≠ []) : ∃ row, IsLast key rows row := by
  induction rows with
  | nil => exact absurd rfl some
  | cons first rest ih =>
    by_cases alone : rest = []
    · subst alone
      refine ⟨first, List.mem_cons_self, fun other member => ?_⟩
      rw [List.mem_singleton.mp member]
    · obtain ⟨row, member, after⟩ := ih alone
      rcases le_total (key first) (key row) with before | behind
      · exact ⟨row, List.mem_cons_of_mem _ member, List.forall_mem_cons.mpr ⟨before, after⟩⟩
      · exact ⟨first, List.mem_cons_self, List.forall_mem_cons.mpr
          ⟨le_refl _, fun other here => le_trans (after other here) behind⟩⟩

end Extremes

end Trail.Library
