/-
**Tables: finite maps by a key.**

Membership and lookups of `AList`, and the two ways of inserting a row: `insert` replaces the row of
the key, `insertNew` keeps it. A table that keeps every version of a row is a list, and `newest` is the
version that is read.
-/

import Mathlib.Data.List.AList
import Mathlib.Order.Lattice

namespace Trail.Library

/-- A table by its key. -/
abbrev Table (Key Row : Type) := AList fun _ : Key => Row

namespace Table

variable {Key Row : Type} [DecidableEq Key] {table : Table Key Row} {key other : Key} {row found : Row}

/-- A row for a key that has none. -/
def insertNew (table : Table Key Row) (key : Key) (row : Row) : Table Key Row :=
  if key ∈ table then table else table.insert key row

theorem mem_of_lookup (here : table.lookup key = some row) : key ∈ table := by
  rw [← AList.lookup_isSome, here]
  rfl

theorem lookup_of_mem (member : key ∈ table) : ∃ row, table.lookup key = some row := by
  rw [← AList.lookup_isSome] at member
  exact Option.isSome_iff_exists.mp member

theorem lookup_insert_cases (here : (table.insert key row).lookup other = some found) :
    other = key ∧ found = row ∨ other ≠ key ∧ table.lookup other = some found := by
  by_cases same : other = key
  · subst same
    rw [AList.lookup_insert, Option.some.injEq] at here
    exact .inl ⟨rfl, here.symm⟩
  · rw [AList.lookup_insert_ne same] at here
    exact .inr ⟨same, here⟩

theorem lookup_insertNew (here : (table.insertNew key row).lookup other = some found) :
    table.lookup other = some found ∨ key = other ∧ row = found := by
  unfold insertNew at here
  split at here
  · exact .inl here
  · rcases lookup_insert_cases here with ⟨same, equal⟩ | ⟨_, old⟩
    · exact .inr ⟨same.symm, equal.symm⟩
    · exact .inl old

theorem mem_insertNew : other ∈ table.insertNew key row ↔ other = key ∨ other ∈ table := by
  unfold insertNew
  split
  · rename_i here
    constructor
    · exact .inr
    · rintro (rfl | member)
      · exact here
      · exact member
  · exact AList.mem_insert table

theorem insertNew_of_mem (member : key ∈ table) : table.insertNew key row = table := if_pos member

theorem lookup_insertNew_of_lookup (here : table.lookup other = some found) :
    (table.insertNew key row).lookup other = some found := by
  unfold insertNew
  split
  · exact here
  · rename_i fresh
    rw [AList.lookup_insert_ne, here]
    rintro rfl
    exact fresh (mem_of_lookup here)

theorem mem_eraseAll {keys : List Key} :
    key ∈ keys.foldl (fun rows id => rows.erase id) table ↔ key ∈ table ∧ key ∉ keys := by
  induction keys generalizing table with
  | nil => simp
  | cons first keys ih =>
    rw [List.foldl_cons, ih, AList.mem_erase, List.mem_cons]
    tauto

end Table

end Trail.Library
