/-
**Finalised states.**

What the `…Merge` functions return for the states of some rows: times, counts, and the values of the
first and the last row.

* `argMaxMerge_of_last`, `argMaxIf_filter`: the value of the last row, or of the last that has one.
* `flowOf_rows`: the flow of rows.
-/

import Trail.ClickHouse.Listings

namespace Trail.Warehouse

open Library Storage
open ClickHouse (SummaryKey flowSingle executionSingle minState maxState argMaxState argMaxIfState
  argMinState uniqExactStateIf Ordered)
open Retention (RowKey rowKey)

section States

variable {rows : List EventRecord} {e : EventRecord} {value : EventRecord → GoString}

/-- Rows with the same time and identifier have the same value. -/
def Agree {Value : Type} (value : EventRecord → Value) (rows : List EventRecord) : Prop :=
  ∀ one ∈ rows, ∀ two ∈ rows, rowKey one = rowKey two → value one = value two

theorem Agree.filter {Value : Type} {value : EventRecord → Value} (agree : Agree value rows)
    (keep : EventRecord → Bool) : Agree value (rows.filter keep) :=
  fun one here two there => agree one (List.mem_of_mem_filter here) two (List.mem_of_mem_filter there)

theorem time_le {one two : EventRecord} (before : rowKey one ≤ rowKey two) :
    one.timestamp ≤ two.timestamp := by
  rcases Prod.Lex.toLex_le_toLex.mp before with less | ⟨same, _⟩
  · exact le_of_lt less
  · exact le_of_eq same

theorem minMerge_of_first (first : IsFirst rowKey rows e) :
    minMerge (aggregate minState rows) = e.timestamp := by
  have last : IsLast (fun e => OrderDual.toDual e.timestamp) rows e :=
    ⟨first.member, fun other member => time_le (first.before other member)⟩
  exact congrArg minMerge (aggregate_of_isLast last)

theorem maxMerge_of_last (last : IsLast rowKey rows e) :
    maxMerge (aggregate maxState rows) = e.timestamp := by
  have latest : IsLast EventRecord.timestamp rows e :=
    ⟨last.member, fun other member => time_le (last.after other member)⟩
  exact congrArg maxMerge (aggregate_of_isLast latest)

/-- **`argMax` is the value of the last row.** -/
theorem argMaxMerge_of_last (last : IsLast rowKey rows e) (agree : Agree value rows) :
    argMaxMerge (aggregate (fun e => argMaxState e (value e)) rows) = value e := by
  have greatest : IsLast (fun e => (toLex (rowKey e, (value e : Ordered)) : Lex (RowKey × Ordered)))
      rows e := by
    refine ⟨last.member, fun other member => Prod.Lex.toLex_le_toLex.mpr ?_⟩
    rcases lt_or_eq_of_le (last.after other member) with less | same
    · exact .inl less
    · exact .inr ⟨same, le_of_eq (agree other member e last.member same)⟩
  exact congrArg argMaxMerge (aggregate_of_isLast greatest)

/-- **`argMin` is the value of the first row.** -/
theorem argMinMerge_of_first (first : IsFirst rowKey rows e) (agree : Agree value rows) :
    argMinMerge (aggregate (fun e => argMinState e (value e)) rows) = value e := by
  have greatest : IsLast (fun e => (toLex (OrderDual.toDual (rowKey e), (value e : Ordered)) :
      Lex (RowKeyᵒᵈ × Ordered))) rows e := by
    refine ⟨first.member, fun other member => Prod.Lex.toLex_le_toLex.mpr ?_⟩
    rcases lt_or_eq_of_le (first.before other member) with less | same
    · exact .inl (OrderDual.toDual_lt_toDual.mpr less)
    · exact .inr ⟨congrArg OrderDual.toDual same.symm,
        le_of_eq (agree other member e first.member same.symm)⟩
  exact congrArg argMinMerge (aggregate_of_isLast greatest)

/-- **`argMaxIf` takes the rows that have a value.** -/
theorem argMaxIf_filter :
    aggregate (fun e => argMaxIfState e (value e)) rows =
      aggregate (fun e => argMaxState e (value e)) (rows.filter fun e => value e ≠ []) := by
  rw [← aggregate_ite_bot]
  refine congrArg (fun single => aggregate single rows) (funext fun e => ?_)
  unfold argMaxIfState
  by_cases empty : value e = []
  · rw [if_pos empty, if_neg (not_not.mpr empty)]
  · rw [if_neg empty, if_pos empty]

/-- **`uniqExact` counts the different values.** -/
theorem uniqExact_eq (id : EventRecord → Bytes 16) :
    aggregate (fun e => ({id e} : Finset (Bytes 16))) rows = (rows.map id).toFinset := by
  induction rows with
  | nil => rfl
  | cons e rows ih =>
    unfold aggregate at ih ⊢
    rw [List.map_cons, joinAll_cons, ih, List.map_cons, List.toFinset_cons]
    rfl

theorem card_uniqExact (id : EventRecord → Bytes 16) :
    (aggregate (fun e => ({id e} : Finset (Bytes 16))) rows).card = countDistinct id rows := by
  rw [uniqExact_eq]
  rfl

end States

/-! ### Summaries of rows -/

section Summaries

variable {rows : List EventRecord} {first last : EventRecord} (key : SummaryKey)

/-- The value of the last row that has one. -/
def latestText (value : EventRecord → GoString) (rows : List EventRecord) : GoString :=
  argMaxMerge (aggregate (fun e => argMaxState e (value e)) (rows.filter fun e => value e ≠ []))

/-- **The flow of rows.** -/
theorem flowOf_rows (begins : IsFirst rowKey rows first) (ends : IsLast rowKey rows last)
    (entityType : Agree EventRecord.entityType rows) (entityID : Agree EventRecord.entityID rows)
    (executionID : Agree EventRecord.executionID rows) (kind : Agree EventRecord.kind rows) :
    flowOf key (aggregate flowSingle rows) =
      { id := key.1
        service := key.2.1
        environment := key.2.2
        entityType := last.entityType
        entityID := last.entityID
        executionID := last.executionID
        status := latestText EventRecord.flowStatus rows
        startedAt := first.timestamp
        finishedAt := last.timestamp
        eventCount := countDistinct (·.id) rows
        firstKind := first.kind
        lastKind := last.kind } := by
  have bytes : Agree (fun e => e.executionID.1) rows := fun one here two there same =>
    congrArg Subtype.val (executionID one here two there same)
  unfold flowSingle
  simp only [aggregate_prod]
  unfold flowOf latestText
  simp only [minMerge_of_first begins, maxMerge_of_last ends, card_uniqExact,
    argMaxMerge_of_last ends entityType, argMaxMerge_of_last ends entityID,
    argMaxMerge_of_last ends bytes, argMinMerge_of_first begins kind, argMaxMerge_of_last ends kind,
    argMaxIf_filter, copyID_self]

end Summaries

end Trail.Warehouse
