/-
**The pages of the grouped listings.**

The cursor of a group is the time it was first seen and one identifier, while flows and executions are
grouped by service and environment as well, and entities by scope and type. Groups that share time and
identifier are one position, and the page behind it starts after all of them.

* `flows_listed`, `executions_listed`, `entities_listed`: the listings are keyset listings.
* `grouped_pages_iff`: following the pages gives every group once exactly when no page ends between two
  groups with the same position.
-/

import Trail.Postgres.Listings

namespace Trail.Postgres

open Library Storage
open Retention (Adapter RowKey keyOf rowKey)

theorem minTime_mem {group : Group} (some : group ≠ []) : ∃ e ∈ group, e.timestamp = minTime group := by
  unfold minTime
  cases least : (group.map (·.timestamp)).min? with
  | none => exact absurd (List.map_eq_nil_iff.mp (List.min?_eq_none_iff.mp least)) some
  | some time => exact List.mem_map.mp (List.min?_mem least)

namespace Events

variable {table : Events} {limit : Int64} {desc : Bool}

theorem minTime_precise (table : Events) {group : Group} (some : group ≠ []) (among : ∀ e ∈ group, e ∈ table.rows) :
    microseconds (minTime group) = minTime group := by
  obtain ⟨e, member, same⟩ := minTime_mem some
  rw [← same]
  exact table.precise e (among e member)

theorem group_of_selected {Key : Type} [DecidableEq Key] {keyOf : EventRecord → Key}
    {keep : EventRecord → Bool} {entry : Key × List EventRecord}
    (member : entry ∈ groups keyOf (table.rows.filter keep)) :
    microseconds (minTime entry.2) = minTime entry.2 := by
  refine table.minTime_precise (group_ne_nil member) fun e here => ?_
  obtain ⟨row, _, rfl⟩ := mem_groups.mp member
  exact List.mem_of_mem_filter (mem_group.mp here).1

theorem groupCursor_of {startedAt : Time} (precise : microseconds startedAt = startedAt)
    (id : Bytes 16) : groupCursor ⟨limit, ⟨startedAt, encodeID id⟩, desc⟩ = some (keyOf startedAt id.1) := by
  unfold groupCursor cursorID parseEventID
  dsimp only
  rw [if_neg (encodeID_ne_nil id), decodeID_encodeID]
  show some (keyOf (microseconds startedAt) id.1) = _
  rw [precise]

theorem entityCursor_of (collation : Collation) {firstSeen : Time} {id : GoString}
    (precise : microseconds firstSeen = firstSeen) (named : id ≠ []) :
    entityCursor .postgres collation ⟨firstSeen, id⟩ =
      some (toLex (firstSeen, collation.of id)) := by
  unfold entityCursor
  rw [if_neg named]
  show some (toLex (microseconds firstSeen, collation.of id)) = _
  rw [precise]

theorem flows_listed (f : FlowFilter) (unset : f.status = []) (order : PageRequest → RowOrder) :
    Lists flowPosition limit desc (table.flows f) FlowSummary.cursor groupCursor
      fun p => table.listFlows (order p) f p := by
  refine ⟨fun c => ⟨order ⟨limit, c, desc⟩, ?_⟩, rfl, fun v member => ?_⟩
  · unfold listFlows
    rw [if_pos ((wellFormed_listFlows f _).mpr (.inl unset))]
  · obtain ⟨detail, here, rfl⟩ := List.mem_map.mp (List.mem_of_mem_filter member)
    obtain ⟨entry, listed, rfl⟩ := List.mem_map.mp here
    exact groupCursor_of (group_of_selected listed) _

theorem executions_listed (f : ExecutionFilter) (unset : f.status = [])
    (order : PageRequest → RowOrder) :
    Lists executionPosition limit desc (table.executions f) ExecutionSummary.cursor groupCursor
      fun p => table.listExecutions (order p) f p := by
  refine ⟨fun c => ⟨order ⟨limit, c, desc⟩, ?_⟩, rfl, fun v member => ?_⟩
  · unfold listExecutions
    rw [if_pos ((wellFormed_listExecutions f _).mpr (.inl unset))]
  · obtain ⟨entry, listed, rfl⟩ := List.mem_map.mp (List.mem_of_mem_filter member)
    exact groupCursor_of (group_of_selected listed) _

theorem entities_listed (collation : Collation) (f : EntityFilter) (order : PageRequest → RowOrder) :
    Lists (entityPosition collation) limit desc (table.entities f) EntitySummary.cursor
      (fun p => entityCursor .postgres collation p.cursor) fun p => .ok (table.searchEntities (order p) collation f p) := by
  refine ⟨fun c => ⟨order ⟨limit, c, desc⟩, rfl⟩, rfl, fun v member => ?_⟩
  obtain ⟨entry, listed, rfl⟩ := List.mem_map.mp member
  have precise := group_of_selected listed
  obtain ⟨e, selected, rfl⟩ := mem_groups.mp listed
  have named : e.entityID ≠ [] := (of_decide_eq_true (List.mem_filter.mp selected).2).2.2.1.2
  exact entityCursor_of collation precise named

/-- **When the grouped listings enumerate their groups**: following the pages of a listing from the first
ends, gives groups of the listing only, and gives each of them once exactly when no page ends between two
groups that share the time they were first seen and the identifier. -/
theorem grouped_pages_iff (table : Events) (collation : Collation) (order : PageRequest → RowOrder)
    (limit : Int64) (desc : Bool) (limited : PageRequest.Limited ⟨limit, {}, desc⟩) :
    (∀ f, f.status = [] → ∃ pages,
      follow (stepFrom (fun p => table.listFlows (order p) f p) limit desc)
        ((table.flows f).length + 1) {} = .ok (some pages) ∧
      (∀ v ∈ pages.flatten, v ∈ table.flows f) ∧
      (pages.flatten.Perm (table.flows f) ↔
        Apart limit.toInt.toNat (keysAfter (directed flowPosition desc) none (table.flows f)))) ∧
    (∀ f, f.status = [] → ∃ pages,
      follow (stepFrom (fun p => table.listExecutions (order p) f p) limit desc)
        ((table.executions f).length + 1) {} = .ok (some pages) ∧
      (∀ v ∈ pages.flatten, v ∈ table.executions f) ∧
      (pages.flatten.Perm (table.executions f) ↔
        Apart limit.toInt.toNat
          (keysAfter (directed executionPosition desc) none (table.executions f)))) ∧
    ∀ f, ∃ pages,
      follow (stepFrom (fun p => .ok (table.searchEntities (order p) collation f p)) limit desc)
        ((table.entities f).length + 1) {} = .ok (some pages) ∧
      (∀ v ∈ pages.flatten, v ∈ table.entities f) ∧
      (pages.flatten.Perm (table.entities f) ↔
        Apart limit.toInt.toNat
          (keysAfter (directed (entityPosition collation) desc) none (table.entities f))) := by
  refine ⟨fun f unset => ?_, fun f unset => ?_, fun f => ?_⟩
  · obtain ⟨pages, walk, _, among, _, once⟩ := (flows_listed f unset order).follow limited
    exact ⟨pages, walk, among, once⟩
  · obtain ⟨pages, walk, _, among, _, once⟩ := (executions_listed f unset order).follow limited
    exact ⟨pages, walk, among, once⟩
  · obtain ⟨pages, walk, _, among, _, once⟩ := (entities_listed collation f order).follow limited
    exact ⟨pages, walk, among, once⟩

end Events

/-! ### Two entities with one identifier -/

/-- An order and an invoice that share an identifier, first seen at the same time. -/
def twinRows : List EventRecord :=
  [{ id := endingID 1, timestamp := 1000, kind := ascii "billed", flowID := endingID 7,
     entityType := ascii "invoice", entityID := ascii "42" },
   { id := endingID 2, timestamp := 1000, kind := ascii "placed", flowID := endingID 8,
     entityType := ascii "order", entityID := ascii "42" }]

def twinTable : Events :=
  ⟨twinRows, by decide, by decide, by unfold Retention.InRange; decide⟩

/-- The pages of the entities, one entity a page. -/
abbrev twinPages : Except GoError (Option (List (List EntitySummary))) :=
  follow (stepFrom (fun p => .ok (twinTable.searchEntities .given .bytes {} p)) 1 false) 3 {}

/-- **An entity vanishes**: of two entities with one identifier, a page for each shows the first. -/
theorem entity_vanishes :
    (twinTable.entities {}).map (fun v => (v.type, v.id)) =
      [(ascii "invoice", ascii "42"), (ascii "order", ascii "42")] ∧
    twinPages.map (Option.map (List.map (List.map fun v => (v.type, v.id)))) =
      .ok (some [[(ascii "invoice", ascii "42")], []]) := by
  decide

/-- The pages of the two entities do not have them both, those of the flows do. -/
theorem grouped_pages_twins :
    (∃ pages, twinPages = .ok (some pages) ∧ ¬ pages.flatten.Perm (twinTable.entities {})) ∧
    ∃ pages, follow (stepFrom (fun p => twinTable.listFlows .given {} p) 1 false)
        ((twinTable.flows {}).length + 1) {} = .ok (some pages) ∧
      pages.flatten.Perm (twinTable.flows {}) := by
  obtain ⟨flows, _, entities⟩ := Events.grouped_pages_iff twinTable .bytes (fun _ => .given) 1 false
    ⟨by decide, by decide⟩
  refine ⟨?_, ?_⟩
  · obtain ⟨pages, walk, _, once⟩ := entities {}
    have two : (twinTable.entities {}).length + 1 = 3 := by decide
    rw [two] at walk
    refine ⟨pages, walk, fun all => once.mp all 0 (toLex (1000, [52, 50])) ?_ ?_⟩
    · decide
    · decide
  · obtain ⟨pages, walk, _, once⟩ := flows {} rfl
    exact ⟨pages, walk, once.mpr (apart_of_nodup (by decide) (by decide))⟩

end Trail.Postgres
