/-
**The pages of `ListFlows` in ClickHouse.**

A page is a page of `trail_flow_terminals`, joined in memory with the summaries of its flows. The time
of its next cursor is that of its last terminal row, the identifier that of its last flow with a
summary.

* `listFlows_eq`: a page, over the terminal rows in order.
* `flow_cursor_iff`: the next cursor is the place of the last terminal row exactly when the flow of that
  row has a summary.
* `flow_paging_iff`: when the next page starts right behind this one.
-/

import Trail.ClickHouse.Listings

namespace Trail.Warehouse

open Library Storage
open Retention (Adapter RowKey keyOf rowKey)

/-- The place of a terminal row as a cursor. -/
def TerminalRow.cursor (row : TerminalRow) : Cursor := ⟨row.eventTime, encodeID row.flowID⟩

namespace Tables

variable {tables : Tables} {order order' : RowOrder} {f : FlowFilter} {p : PageRequest}

/-- The terminal rows that a filter of `ListFlows` selects. -/
def selectedTerminals (tables : Tables) (f : FlowFilter) : List TerminalRow :=
  tables.flowTerminals.filter (tables.terminalSelects f)

/-- The selected terminal rows after the cursor, in the order of the query. -/
def orderedTerminals (tables : Tables) (order : RowOrder) (f : FlowFilter) (p : PageRequest) :
    List TerminalRow :=
  keyset (directed terminalPosition p.desc) order
    ((rowCursor .clickhouse p.cursor).map (.of p.desc)) (tables.selectedTerminals f)

/-- The terminal rows that a page consumes. -/
def consumedTerminals (tables : Tables) (order : RowOrder) (f : FlowFilter) (p : PageRequest) :
    List TerminalRow :=
  (tables.orderedTerminals order f p).take p.size

/-- The flows of a page. -/
def pageFlows (tables : Tables) (order order' : RowOrder) (f : FlowFilter) (p : PageRequest) :
    List FlowSummary :=
  let ids := (tables.consumedTerminals order f p).map TerminalRow.flowID
  (ids.filterMap (byID (order'.arrange (tables.flowRows.filter fun v => v.id ∈ ids)))).map fun v =>
    { v with scope := f.scope }

theorem orderedTerminals_length :
    (tables.orderedTerminals order f p).length =
      (remaining terminalPosition p (rowCursor .clickhouse p.cursor)
        (tables.selectedTerminals f)).length :=
  keyset_perm.length_eq

/-- **A page of flows.** -/
theorem listFlows_eq (limited : p.Limited) :
    tables.listFlows order order' f p =
      { items := tables.pageFlows order order' f p
        hasMore := decide (p.size < (tables.orderedTerminals order f p).length)
        nextCursor := if p.size < (tables.orderedTerminals order f p).length then
            ((tables.consumedTerminals order f p).getLast?.bind fun row =>
              (tables.pageFlows order order' f p).getLast?.map fun item =>
                (⟨row.eventTime, encodeID item.id⟩ : Cursor)).getD {}
          else {} } := by
  have positive := limited.size_pos
  have size : p.limit.toInt = p.size := by
    unfold PageRequest.size at positive ⊢
    omega
  have fetched : fetch terminalPosition order p (rowCursor .clickhouse p.cursor)
      (tables.flowTerminals.filter (tables.terminalSelects f)) =
      (tables.orderedTerminals order f p).take (p.size + 1) := by
    unfold fetch
    rw [limited.ahead]
    rfl
  have kept : (if p.size < (tables.orderedTerminals order f p).length then
      ((tables.orderedTerminals order f p).take (p.size + 1)).take p.size
      else (tables.orderedTerminals order f p).take (p.size + 1)) =
      tables.consumedTerminals order f p := by
    unfold consumedTerminals
    by_cases more : p.size < (tables.orderedTerminals order f p).length
    · rw [if_pos more, List.take_take, Nat.min_eq_left (Nat.le_succ _)]
    · rw [if_neg more, List.take_of_length_le (by omega), List.take_of_length_le (by omega)]
  unfold listFlows
  dsimp only
  rw [fetched, List.length_take, size, Int.toNat_natCast]
  have ahead : (p.size : Int) < (min (p.size + 1) (tables.orderedTerminals order f p).length : Nat) ↔
      p.size < (tables.orderedTerminals order f p).length := by omega
  simp only [ahead, decide_eq_true_eq, kept]
  rfl

theorem byID_spec {summaries : List FlowDetail} {id : FlowID} {v : FlowSummary}
    (found : byID summaries id = some v) : v.id = id ∧ ∃ detail ∈ summaries, detail.id = id := by
  obtain ⟨detail, last, rfl⟩ := Option.map_eq_some_iff.mp found
  obtain ⟨member, same⟩ := List.mem_filter.mp (List.mem_of_getLast? last)
  exact ⟨of_decide_eq_true same, detail, member, of_decide_eq_true same⟩

theorem exists_byID {summaries : List FlowDetail} {id : FlowID} {detail : FlowDetail}
    (member : detail ∈ summaries) (same : detail.id = id) : ∃ v, byID summaries id = some v := by
  have some : (summaries.filter fun v => v.id = id) ≠ [] :=
    List.ne_nil_of_mem (List.mem_filter.mpr ⟨member, decide_eq_true same⟩)
  obtain ⟨last, found⟩ := Option.isSome_iff_exists.mp (List.getLast?_isSome.mpr some)
  exact ⟨last.toFlowSummary, by rw [byID, found]; rfl⟩

/-- The flow of a terminal row has a summary. -/
def Summarised (tables : Tables) (row : TerminalRow) : Prop :=
  ∃ v ∈ tables.flowRows, v.id = row.flowID

/-- A flow is on the page when its terminal row is consumed and it has a summary. -/
theorem mem_pageFlows {v : FlowSummary} (listed : v ∈ tables.pageFlows order order' f p) :
    ∃ row ∈ tables.consumedTerminals order f p, row.flowID = v.id ∧ tables.Summarised row := by
  obtain ⟨item, here, rfl⟩ := List.mem_map.mp listed
  obtain ⟨id, among, found⟩ := List.mem_filterMap.mp here
  obtain ⟨row, consumed, rfl⟩ := List.mem_map.mp among
  obtain ⟨named, detail, summary, same⟩ := byID_spec found
  have inside := List.mem_of_mem_filter ((order'.perm _).mem_iff.mp summary)
  exact ⟨row, consumed, named.symm, detail, inside, same⟩

theorem exists_pageFlows {row : TerminalRow} (consumed : row ∈ tables.consumedTerminals order f p)
    (summarised : tables.Summarised row) :
    ∃ v ∈ tables.pageFlows order order' f p, v.id = row.flowID := by
  obtain ⟨v, member, same⟩ := summarised
  have among : v ∈ order'.arrange (tables.flowRows.filter fun v =>
      v.id ∈ (tables.consumedTerminals order f p).map TerminalRow.flowID) := by
    refine (order'.perm _).mem_iff.mpr (List.mem_filter.mpr ⟨member, decide_eq_true ?_⟩)
    rw [same]
    exact List.mem_map_of_mem consumed
  obtain ⟨item, found⟩ := exists_byID among same
  refine ⟨_, List.mem_map_of_mem (List.mem_filterMap.mpr
    ⟨row.flowID, List.mem_map_of_mem consumed, found⟩), (byID_spec found).1⟩

/-- **The last flow of a page** is that of its last terminal row exactly when that one has a summary. -/
theorem last_pageFlows {row : TerminalRow}
    (last : (tables.consumedTerminals order f p).getLast? = some row) :
    (tables.pageFlows order order' f p).getLast?.map FlowSummary.id = some row.flowID ↔
      tables.Summarised row := by
  constructor
  · intro ends
    obtain ⟨item, found, named⟩ := Option.map_eq_some_iff.mp ends
    obtain ⟨other, _, same, v, member, summary⟩ := mem_pageFlows (List.mem_of_getLast? found)
    exact ⟨v, member, summary.trans (same.trans named)⟩
  · rintro ⟨v, member, same⟩
    obtain ⟨before, parts⟩ := List.getLast?_eq_some_iff.mp last
    unfold pageFlows
    dsimp only
    rw [parts, List.map_append, List.map_singleton]
    have among : v ∈ order'.arrange (tables.flowRows.filter fun v =>
        decide (v.id ∈ before.map TerminalRow.flowID ++ [row.flowID])) := by
      refine (order'.perm _).mem_iff.mpr (List.mem_filter.mpr ⟨member, decide_eq_true ?_⟩)
      rw [same]
      exact List.mem_append_right _ List.mem_cons_self
    obtain ⟨item, found⟩ := exists_byID among same
    rw [List.filterMap_append, List.filterMap_cons_some found, List.filterMap_nil, List.map_append,
      List.map_singleton, List.getLast?_concat, Option.map_some, (byID_spec found).1]

/-- **The next cursor** is the place of the last terminal row exactly when its flow has a summary. -/
theorem flow_cursor_iff (limited : p.Limited)
    (more : p.size < (tables.orderedTerminals order f p).length) {row : TerminalRow}
    (last : (tables.consumedTerminals order f p).getLast? = some row) :
    (tables.listFlows order order' f p).nextCursor = row.cursor ↔ tables.Summarised row := by
  rw [← @last_pageFlows tables order order' f p row last, listFlows_eq limited]
  dsimp only
  rw [if_pos more, last, Option.bind_some]
  cases ends : (tables.pageFlows order order' f p).getLast? with
  | none =>
    refine iff_of_false (fun same => ?_) (Option.some_ne_none _).symm
    exact encodeID_ne_nil row.flowID (congrArg Cursor.id same).symm
  | some item =>
    show (⟨row.eventTime, encodeID item.id⟩ : Cursor) = ⟨row.eventTime, encodeID row.flowID⟩ ↔
      some item.id = some row.flowID
    rw [Cursor.mk.injEq, Option.some.injEq, encodeID_injective.eq_iff]
    exact and_iff_right rfl

theorem rowCursor_cursor (row : TerminalRow) :
    rowCursor .clickhouse row.cursor = some (terminalPosition row) :=
  rowCursor_of .clickhouse row.eventTime row.flowID

/-- `ListFlows`, with orders for every query. -/
def flowReader (tables : Tables) (order order' : PageRequest → RowOrder) (f : FlowFilter)
    (p : PageRequest) : Except GoError (Page FlowSummary) :=
  .ok (tables.listFlows (order p) (order' p) f p)

/-- The terminal rows of the pages of `ListFlows`. -/
def terminalStep (tables : Tables) (order : PageRequest → RowOrder) (f : FlowFilter) (limit : Int64)
    (desc : Bool) (c : Cursor) : Except GoError (List TerminalRow × Option Cursor) :=
  let p : PageRequest := ⟨limit, c, desc⟩
  .ok (tables.consumedTerminals (order p) f p,
    if p.size < (remaining terminalPosition p (rowCursor .clickhouse c)
        (tables.selectedTerminals f)).length then
      (tables.consumedTerminals (order p) f p).getLast?.map TerminalRow.cursor
    else none)

variable {limit : Int64} {desc : Bool}

theorem ids_filterMap {lookup : FlowID → Option FlowSummary} {ids : List FlowID}
    (known : ∀ id ∈ ids, ∃ v, lookup id = some v ∧ v.id = id) :
    (ids.filterMap lookup).map FlowSummary.id = ids := by
  induction ids with
  | nil => rfl
  | cons id ids ih =>
    obtain ⟨⟨v, found, named⟩, rest⟩ := List.forall_mem_cons.mp known
    rw [List.filterMap_cons_some found, List.map_cons, named, ih rest]

theorem pageFlows_ids (summarised : ∀ row ∈ tables.flowTerminals, tables.Summarised row) :
    (tables.pageFlows order order' f p).map FlowSummary.id =
      (tables.consumedTerminals order f p).map TerminalRow.flowID := by
  have known : ∀ id ∈ (tables.consumedTerminals order f p).map TerminalRow.flowID, ∃ v,
      byID (order'.arrange (tables.flowRows.filter fun v =>
        v.id ∈ (tables.consumedTerminals order f p).map TerminalRow.flowID)) id = some v ∧
      v.id = id := by
    intro id member
    obtain ⟨row, consumed, rfl⟩ := List.mem_map.mp member
    have inside : row ∈ tables.flowTerminals := List.mem_of_mem_filter
      (mem_afterCursor.mp (keyset_perm.mem_iff.mp (List.mem_of_mem_take consumed))).1
    obtain ⟨v, here, same⟩ := summarised row inside
    have among : v ∈ order'.arrange (tables.flowRows.filter fun v =>
        v.id ∈ (tables.consumedTerminals order f p).map TerminalRow.flowID) := by
      refine (order'.perm _).mem_iff.mpr (List.mem_filter.mpr ⟨here, decide_eq_true ?_⟩)
      rw [same]
      exact member
    obtain ⟨found, known⟩ := exists_byID among same
    exact ⟨found, known, (byID_spec known).1⟩
  unfold pageFlows
  dsimp only
  rw [List.map_map]
  exact ids_filterMap known

/-- When all flows have summaries, a page ends at the place of its last terminal row. -/
theorem listFlows_step (limited : p.Limited)
    (summarised : ∀ row ∈ tables.flowTerminals, tables.Summarised row) :
    (tables.listFlows order order' f p).step =
      (tables.pageFlows order order' f p,
        if p.size < (remaining terminalPosition p (rowCursor .clickhouse p.cursor)
            (tables.selectedTerminals f)).length then
          (tables.consumedTerminals order f p).getLast?.map TerminalRow.cursor
        else none) := by
  by_cases more : p.size < (tables.orderedTerminals order f p).length
  · have ahead := more
    rw [orderedTerminals_length] at ahead
    obtain ⟨last, _, _, ends, _, _, _⟩ := keyset_split order limited.size_pos ahead
    have inside : last ∈ tables.flowTerminals := List.mem_of_mem_filter (mem_afterCursor.mp
      (keyset_perm.mem_iff.mp (List.mem_of_mem_take (List.mem_of_getLast? ends)))).1
    have next := (@flow_cursor_iff tables order order' f p limited more last ends).mpr
      (summarised last inside)
    have shown : (tables.consumedTerminals order f p).getLast? = some last := ends
    unfold Page.step
    rw [next, if_pos ahead, shown, listFlows_eq limited]
    dsimp only
    rw [decide_eq_true more, if_pos rfl]
    rfl
  · have behind := more
    rw [orderedTerminals_length] at behind
    unfold Page.step
    rw [if_neg behind, listFlows_eq limited]
    dsimp only
    rw [decide_eq_false more, if_neg Bool.false_ne_true]

/-- **The flows of the pages** are those of the terminal rows. -/
theorem flowReader_follow (order order' : PageRequest → RowOrder)
    (limited : PageRequest.Limited ⟨limit, {}, desc⟩)
    (summarised : ∀ row ∈ tables.flowTerminals, tables.Summarised row) :
    ∃ pages, follow (stepFrom (tables.flowReader order order' f) limit desc)
        ((tables.selectedTerminals f).length + 1) {} = .ok (some pages) ∧
      ∀ id, (∃ v ∈ pages.flatten, v.id = id) ↔ ∃ row ∈ tables.selectedTerminals f, row.flowID = id := by
  have reads : Reads (directed terminalPosition desc) limit.toInt.toNat (tables.selectedTerminals f)
      (tables.terminalStep order f limit desc)
      (fun c => (rowCursor .clickhouse c).map (.of desc)) TerminalRow.cursor fun _ => True :=
    ⟨fun c _ => ⟨order ⟨limit, c, desc⟩, rfl⟩, fun row _ => ⟨trivial, by rw [rowCursor_cursor]; rfl⟩⟩
  obtain ⟨rows, walk, _, inside, reached, _⟩ := reads.follow limited.size_pos _ {} trivial
    (Nat.lt_succ_of_le (List.length_filter_le _ _))
  have shown : ∀ c, ∃ items items' next, tables.terminalStep order f limit desc c = .ok (items, next) ∧
      stepFrom (tables.flowReader order order' f) limit desc c = .ok (items', next) ∧
      items'.map FlowSummary.id = items.map TerminalRow.flowID := by
    intro c
    have here : PageRequest.Limited ⟨limit, c, desc⟩ := limited
    refine ⟨_, tables.pageFlows (order ⟨limit, c, desc⟩) (order' ⟨limit, c, desc⟩) f ⟨limit, c, desc⟩, _,
      rfl, ?_, pageFlows_ids summarised⟩
    unfold stepFrom flowReader
    exact congrArg Except.ok (listFlows_step here summarised)
  obtain ⟨pages, followed, same⟩ := follow_congr shown _ {} rows walk
  refine ⟨pages, followed, fun id => ?_⟩
  have ids : (∃ v ∈ pages.flatten, v.id = id) ↔ ∃ row ∈ rows.flatten, row.flowID = id := by
    rw [← List.mem_map, ← List.mem_map, same]
  rw [ids]
  constructor
  · rintro ⟨row, member, named⟩
    exact ⟨row, (mem_afterCursor.mp (inside row member)).1, named⟩
  · rintro ⟨row, member, rfl⟩
    obtain ⟨other, here, same⟩ := reached row (mem_afterCursor.mpr
      ⟨member, fun _ first => absurd first (Option.not_mem_none _)⟩)
    have pair := @Retention.keyOf_injective (other.eventTime, other.flowID.1)
      (row.eventTime, row.flowID.1) same
    exact ⟨other, here, Subtype.ext (Prod.ext_iff.mp pair).2⟩

end Tables

/-! ### Two finished flows -/

/-- The last events of two flows. -/
def finishedRows : List EventRecord :=
  [{ id := endingID 1, timestamp := 5, kind := ascii "done", flowID := endingID 7,
     flowStatus := ascii "succeeded" },
   { id := endingID 2, timestamp := 6, kind := ascii "done", flowID := endingID 8,
     flowStatus := ascii "failed" }]

/-- The tables after the two events were inserted. -/
def finishedTables : Tables := ({} : Tables).insertEvents finishedRows

/-- The tables while the summaries of the two flows are rebuilt. -/
def rebuildingTables : Tables := { finishedTables with flowSummaries := [] }

end Trail.Warehouse
