/-
**The flows that the stores list.**

PostgreSQL groups the events by flow, and puts the status into a `HAVING`. ClickHouse lists the rows of
`trail_flow_terminals`, which has one for each event that ended a flow, until ClickHouse merges them.

* `flows_wanted`: what PostgreSQL lists, as the events say.
* `postgres_flows_iff`: with a status it lists them while they fit one page, as the cursor of the next
  page is another `HAVING`.
* `same_flows_iff`: when each store lists the flows of its events.
-/

import Trail.ClickHouse.FlowPaging
import Trail.Postgres.GroupedPaging
import Trail.Stores.FlowDetail

namespace Trail.Stores

open Library Storage
open Postgres (OneOrigin originKey group_of_origin flowKey flowSelects flowsOf)
open Retention (Adapter RowKey rowKey)
open Warehouse (Agree Fed Ingested Names TerminalRow Terminal terminalRow)

/-! ### What the events say -/

/-- The events of a flow that have a status. -/
def statusEvents (rows : List EventRecord) (id : FlowID) : List EventRecord :=
  (rows.filter fun e => e.flowID = id).filter fun e => e.flowStatus ≠ []

/-- The latest status of a flow that is not empty. -/
def LatestStatus (rows : List EventRecord) (id : FlowID) (status : GoString) : Prop :=
  ∃ e, IsLast rowKey (statusEvents rows id) e ∧ e.flowStatus = status

/-- The flows of the events, or those with a status when one is asked for. -/
def Wanted (rows : List EventRecord) (status : GoString) (id : FlowID) : Prop :=
  id ≠ Bytes.zero 16 ∧ (∃ e ∈ rows, e.flowID = id) ∧ (status = [] ∨ LatestStatus rows id status)

/-- Following the pages ends and shows exactly the identifiers that are wanted. -/
def Enumerates (walk : Except GoError (Option (List (List FlowSummary)))) (wanted : FlowID → Prop) :
    Prop :=
  ∃ pages, walk = .ok (some pages) ∧ ∀ id, (∃ v ∈ pages.flatten, v.id = id) ↔ wanted id

theorem LatestStatus.unique {rows : List EventRecord} {id : FlowID} {one two : GoString}
    (agree : Agree EventRecord.flowStatus rows) (first : LatestStatus rows id one)
    (second : LatestStatus rows id two) : one = two := by
  obtain ⟨e, last, rfl⟩ := first
  obtain ⟨e', last', rfl⟩ := second
  exact (agree.filter _).filter _ e last.member e' last'.member (last.same last')

/-! ### PostgreSQL -/

section Postgres

variable {table : Postgres.Events} {status : GoString} {limit : Int64} {desc : Bool}

theorem agree_of_distinct {Value : Type} (table : Postgres.Events) (value : EventRecord → Value) :
    Agree value table.rows := fun _ here _ there same =>
  congrArg value (List.inj_on_of_nodup_map table.distinct here there (id_of_rowKey same).2)

theorem newestText_iff (id : FlowID) (set : status ≠ []) :
    Postgres.Group.newestText (table.rows.filter fun e => e.flowID = id) (·.flowStatus) = status ↔
      LatestStatus table.rows id status := by
  have agree := agree_of_distinct table EventRecord.flowStatus
  rcases Postgres.newest_spec (table.rows.filter fun e => e.flowID = id) [] (·.flowStatus) with
    ⟨unset, none⟩ | ⟨e, last, value⟩
  · refine iff_of_false (fun same => set (same.symm.trans unset)) ?_
    rintro ⟨e, last, _⟩
    obtain ⟨member, kept⟩ := List.mem_filter.mp last.member
    exact absurd (none e member) (of_decide_eq_true kept)
  · constructor
    · intro same
      exact ⟨e, last, value.symm.trans same⟩
    · intro latest
      exact value.trans (LatestStatus.unique agree ⟨e, last, rfl⟩ latest)

theorem flowSelects_status (e : EventRecord) :
    flowSelects { status } e = decide (e.flowID ≠ Bytes.zero 16) := by
  simp [flowSelects, inCommon, inWindow, inScope, isZero, isZeroID]

theorem mem_flows {v : FlowSummary} :
    v ∈ table.flows { status } ↔ ∃ e ∈ table.rows, e.flowID ≠ Bytes.zero 16 ∧
      v = (Postgres.Group.flow (group flowKey table.rows (flowKey e)) (flowKey e)).toFlowSummary ∧
      (status = [] ∨ v.status = status) := by
  have whole : ∀ e : EventRecord, e.flowID ≠ Bytes.zero 16 →
      group flowKey (table.rows.filter (flowSelects { status })) (flowKey e) =
        group flowKey table.rows (flowKey e) := by
    intro e set
    refine group_filter_of_all fun row _ same => ?_
    rw [flowSelects_status]
    have flow : row.flowID = e.flowID := congrArg Prod.fst same
    exact decide_eq_true (flow ▸ set)
  unfold Postgres.Events.flows flowsOf
  rw [List.mem_filter, decide_eq_true_iff]
  constructor
  · rintro ⟨listed, kept⟩
    obtain ⟨detail, here, rfl⟩ := List.mem_map.mp listed
    obtain ⟨entry, grouped, rfl⟩ := List.mem_map.mp here
    obtain ⟨e, selected, rfl⟩ := mem_groups.mp grouped
    obtain ⟨member, passes⟩ := List.mem_filter.mp selected
    rw [flowSelects_status] at passes
    refine ⟨e, member, of_decide_eq_true passes, ?_, kept⟩
    rw [whole e (of_decide_eq_true passes)]
  · rintro ⟨e, member, set, rfl, kept⟩
    have passes : flowSelects { status } e = true := by
      rw [flowSelects_status]
      exact decide_eq_true set
    have grouped := (@mem_groups _ _ _ flowKey _ _).mpr ⟨e, List.mem_filter.mpr ⟨member, passes⟩, rfl⟩
    refine ⟨List.mem_map.mpr ⟨_, List.mem_map.mpr ⟨_, grouped, rfl⟩, ?_⟩, kept⟩
    rw [whole e set]

/-- **The flows that PostgreSQL lists**, when each has one service and environment. -/
theorem flows_wanted (origin : ∀ id, id ≠ Bytes.zero 16 → OneOrigin EventRecord.flowID table.rows id)
    (id : FlowID) : (∃ v ∈ table.flows { status }, v.id = id) ↔ Wanted table.rows status id := by
  constructor
  · rintro ⟨v, listed, rfl⟩
    obtain ⟨e, member, set, rfl, kept⟩ := mem_flows.mp listed
    refine ⟨set, ⟨e, member, rfl⟩, ?_⟩
    by_cases unset : status = []
    · exact .inl unset
    · refine .inr ((newestText_iff e.flowID unset).mp ?_)
      rw [← group_of_origin (origin e.flowID set) member rfl]
      exact kept.resolve_left unset
  · rintro ⟨set, ⟨e, member, rfl⟩, latest⟩
    refine ⟨_, mem_flows.mpr ⟨e, member, set, rfl, latest.imp_right fun latest => ?_⟩, rfl⟩
    by_cases unset : status = []
    · obtain ⟨e', last, same⟩ := latest
      exact absurd (same.trans unset) (of_decide_eq_true (List.mem_filter.mp last.member).2)
    · have text := (newestText_iff e.flowID unset).mpr latest
      rwa [← group_of_origin (origin e.flowID set) member rfl] at text

theorem follow_flows (order : PageRequest → RowOrder)
    (limited : PageRequest.Limited ⟨limit, {}, desc⟩) :
    ∃ pages, follow (stepFrom (fun p => table.listFlows (order p) {} p) limit desc)
        ((table.flows {}).length + 1) {} = .ok (some pages) ∧
      ∀ id, (∃ v ∈ pages.flatten, v.id = id) ↔ ∃ v ∈ table.flows {}, v.id = id := by
  obtain ⟨pages, walk, _, inside, reached, _⟩ :=
    (Postgres.Events.flows_listed {} rfl order).follow limited
  refine ⟨pages, walk, fun id => ⟨?_, ?_⟩⟩
  · rintro ⟨v, member, rfl⟩
    exact ⟨v, inside v member, rfl⟩
  · rintro ⟨v, member, rfl⟩
    obtain ⟨shown, here, same⟩ := reached v member
    have pair := @Retention.keyOf_injective (shown.startedAt, shown.id.1) (v.startedAt, v.id.1) same
    exact ⟨shown, here, Subtype.ext (Prod.ext_iff.mp pair).2⟩

/-- **A listing with a status** has one page, or fails at the second. -/
theorem follow_status (order : PageRequest → RowOrder)
    (limited : PageRequest.Limited ⟨limit, {}, desc⟩) (set : status ≠ []) :
    follow (stepFrom (fun p => table.listFlows (order p) { status } p) limit desc)
        ((table.flows { status }).length + 1) {} =
      if (table.flows { status }).length ≤ limit.toInt.toNat then
        .ok (some [keyset (directed flowPosition desc) (order ⟨limit, {}, desc⟩) none
          (table.flows { status })])
      else .error Postgres.syntaxError := by
  have first : stepFrom (fun p => table.listFlows (order p) { status } p) limit desc {} =
      .ok (listing flowPosition (order ⟨limit, {}, desc⟩) ⟨limit, {}, desc⟩ none
        (table.flows { status }) FlowSummary.cursor).step := by
    have formed := (Postgres.wellFormed_listFlows { status } ⟨limit, {}, desc⟩).mpr (.inr rfl)
    unfold stepFrom Postgres.Events.listFlows
    dsimp only
    rw [if_pos formed]
    rfl
  have whole : remaining flowPosition ⟨limit, {}, desc⟩ none (table.flows { status }) =
      table.flows { status } := afterCursor_none _
  have sorted : (keyset (directed flowPosition desc) (order ⟨limit, {}, desc⟩) none
      (table.flows { status })).length = (table.flows { status }).length := by
    rw [keyset_perm.length_eq, afterCursor_none]
  rw [listing_step limited, whole] at first
  dsimp only [Option.map_none] at first
  unfold follow
  rw [first]
  by_cases fits : (table.flows { status }).length ≤ limit.toInt.toNat
  · have one : ¬ PageRequest.size ⟨limit, {}, desc⟩ < (table.flows { status }).length := Nat.not_lt.mpr fits
    rw [if_pos fits, if_neg one, List.take_of_length_le (by rw [sorted]; exact fits)]
  · have more : PageRequest.size ⟨limit, {}, desc⟩ < (table.flows { status }).length := Nat.lt_of_not_le fits
    obtain ⟨last, _, _, ends, _, _, _⟩ := @keyset_split _ _ _ (directed flowPosition desc) _
      (table.flows { status }) (order ⟨limit, {}, desc⟩) none limited.size_pos
      (by rw [afterCursor_none]; exact more)
    obtain ⟨fuel, length⟩ : ∃ fuel, (table.flows { status }).length = fuel + 1 :=
      Nat.exists_eq_add_one_of_ne_zero (Nat.ne_zero_of_lt more)
    have second : stepFrom (fun p => table.listFlows (order p) { status } p) limit desc last.cursor =
        .error Postgres.syntaxError := by
      have refused : ¬ Postgres.WellFormed
          (Postgres.listFlows { status } ⟨limit, last.cursor, desc⟩).text := by
        rw [Postgres.wellFormed_listFlows, not_or]
        exact ⟨set, encodeID_ne_nil last.id⟩
      unfold stepFrom Postgres.Events.listFlows
      dsimp only
      rw [if_neg refused]
      rfl
    rw [if_neg fits, if_pos more, ends, length]
    dsimp only [Option.map_some]
    unfold follow
    rw [second]

/-- **When PostgreSQL lists the flows of its events.** -/
theorem postgres_flows_iff
    (origin : ∀ id, id ≠ Bytes.zero 16 → OneOrigin EventRecord.flowID table.rows id)
    (order : PageRequest → RowOrder) (limited : PageRequest.Limited ⟨limit, {}, desc⟩) :
    (∀ status, Enumerates (follow (stepFrom (fun p => table.listFlows (order p) { status } p) limit desc)
        ((table.flows { status }).length + 1) {}) (Wanted table.rows status)) ↔
      ∀ status, status ≠ [] → (table.flows { status }).length ≤ limit.toInt.toNat := by
  constructor
  · intro lists status set
    obtain ⟨pages, walk, _⟩ := lists status
    rw [follow_status order limited set] at walk
    by_contra more
    rw [if_neg more] at walk
    cases walk
  · intro fits status
    by_cases set : status = []
    · subst set
      obtain ⟨pages, walk, shown⟩ := @follow_flows table limit desc order limited
      exact ⟨pages, walk, fun id => (shown id).trans (flows_wanted origin id)⟩
    · refine ⟨_, (follow_status order limited set).trans (if_pos (fits status set)), fun id => ?_⟩
      rw [← flows_wanted origin id, List.flatten_singleton]
      have same : ∀ v, v ∈ keyset (directed flowPosition desc) (order ⟨limit, {}, desc⟩) none
          (table.flows { status }) ↔ v ∈ table.flows { status } := fun v => by
        rw [keyset_perm.mem_iff, afterCursor_none]
      simp only [same]

end Postgres

/-! ### ClickHouse -/

section ClickHouse

variable {names : EventID → EventRecord} {tables : Warehouse.Tables} {status : GoString}
  {limit : Int64} {desc : Bool}

theorem mem_selectedTerminals {row : TerminalRow} :
    row ∈ tables.selectedTerminals { status } ↔
      row ∈ tables.flowTerminals ∧ (status = [] ∨ row.status = status) := by
  unfold Warehouse.Tables.selectedTerminals
  rw [List.mem_filter]
  refine and_congr_right fun _ => ?_
  simp [Warehouse.Tables.terminalSelects, Warehouse.Tables.hasScope, inWindow, isZero, isZeroID]

theorem terminal_status_ne {status : GoString} (terminal : status ∈ Warehouse.terminalStatuses) :
    status ≠ [] := by
  rintro rfl
  exact absurd terminal (by decide)

/-- **When ClickHouse lists the flows of its events.** -/
theorem clickhouse_flows_iff (fed : Fed names tables) (order order' : PageRequest → RowOrder)
    (limited : PageRequest.Limited ⟨limit, {}, desc⟩) :
    (∀ status, Enumerates (follow (stepFrom (tables.flowReader order order' { status }) limit desc)
        ((tables.selectedTerminals { status }).length + 1) {}) (Wanted tables.events status)) ↔
      ∀ id, id ≠ Bytes.zero 16 → (∃ e ∈ tables.events, e.flowID = id) →
        (∃ row ∈ tables.flowTerminals, row.flowID = id) ∧
        ∀ row ∈ tables.flowTerminals, row.flowID = id → LatestStatus tables.events id row.status := by
  have agree : Agree EventRecord.flowStatus tables.events := agree_of_names fed.named fun _ _ _ => rfl
  have walked : ∀ status, ∃ pages,
      follow (stepFrom (tables.flowReader order order' { status }) limit desc)
        ((tables.selectedTerminals { status }).length + 1) {} = .ok (some pages) ∧
      ∀ id, (∃ v ∈ pages.flatten, v.id = id) ↔
        ∃ row ∈ tables.flowTerminals, (status = [] ∨ row.status = status) ∧ row.flowID = id := by
    intro status
    obtain ⟨pages, walk, shown⟩ := Warehouse.Tables.flowReader_follow order order' limited
      fed.summarised
    refine ⟨pages, walk, fun id => (shown id).trans ?_⟩
    simp only [mem_selectedTerminals, and_assoc]
  constructor
  · intro lists id nonzero present
    have listed : ∀ status, (∃ row ∈ tables.flowTerminals,
        (status = [] ∨ row.status = status) ∧ row.flowID = id) ↔ Wanted tables.events status id := by
      intro status
      obtain ⟨pages, walk, shown⟩ := walked status
      obtain ⟨pages', walk', wanted⟩ := lists status
      cases walk.symm.trans walk'
      exact (shown id).symm.trans (wanted id)
    constructor
    · obtain ⟨row, member, _, named⟩ := (listed []).mpr ⟨nonzero, present, .inl rfl⟩
      exact ⟨row, member, named⟩
    · intro row member named
      obtain ⟨e, _, terminal, rfl⟩ := fed.terminals row member
      have wanted := (listed e.flowStatus).mp ⟨terminalRow e, member, .inr rfl, named⟩
      exact wanted.2.2.resolve_left (terminal_status_ne terminal.2)
  · intro ended status
    obtain ⟨pages, walk, shown⟩ := walked status
    refine ⟨pages, walk, fun id => (shown id).trans ⟨?_, ?_⟩⟩
    · rintro ⟨row, member, kept, rfl⟩
      obtain ⟨e, here, terminal, rfl⟩ := fed.terminals row member
      refine ⟨terminal.1, ⟨e, here, rfl⟩, kept.imp_right fun same => ?_⟩
      have latest := (ended e.flowID terminal.1 ⟨e, here, rfl⟩).2 _ member rfl
      exact same ▸ latest
    · rintro ⟨nonzero, present, latest⟩
      obtain ⟨⟨row, member, named⟩, statuses⟩ := ended id nonzero present
      exact ⟨row, member, latest.imp_right fun latest =>
        LatestStatus.unique agree (statuses row member named) latest, named⟩

end ClickHouse

/-- Two flows that succeeded, and one that is running. -/
def finishingRows : List EventRecord :=
  [{ id := endingID 1, timestamp := 1000, kind := ascii "done", flowID := endingID 7,
     flowStatus := ascii "succeeded" },
   { id := endingID 2, timestamp := 2000, kind := ascii "done", flowID := endingID 8,
     flowStatus := ascii "succeeded" },
   { id := endingID 3, timestamp := 3000, kind := ascii "started", flowID := endingID 9,
     flowStatus := ascii "running" }]

def finishingTable : Postgres.Events :=
  ⟨finishingRows, by decide, by decide, by unfold Retention.InRange; decide⟩

def finishingTables : Warehouse.Tables := ({} : Warehouse.Tables).insertEvents finishingRows

/-- The first of the flows alone. -/
def finishedRow : EventRecord :=
  { id := endingID 1, timestamp := 1000, kind := ascii "done", flowID := endingID 7,
    flowStatus := ascii "succeeded" }

def finishedTable : Postgres.Events :=
  ⟨[finishedRow], by decide, by decide, by unfold Retention.InRange; decide⟩

def finishedTables : Warehouse.Tables := ({} : Warehouse.Tables).insertEvents [finishedRow]

theorem finished_ingested : Ingested (fun _ => finishedRow) finishedTables :=
  Ingested.empty.insert (by decide)

theorem finished_flows (status : GoString) : (finishedTable.flows { status }).length ≤ 1 := by
  unfold Postgres.Events.flows flowsOf groups
  refine le_trans (List.length_filter_le _ _) ?_
  rw [List.length_map, List.length_map, List.length_map]
  refine le_trans (List.dedup_sublist _).length_le ?_
  rw [List.length_map]
  exact List.length_filter_le _ _

theorem finished_latest : LatestStatus [finishedRow] (endingID 7) (ascii "succeeded") := by
  have events : statusEvents [finishedRow] (endingID 7) = [finishedRow] := by decide
  refine ⟨finishedRow, ?_, rfl⟩
  rw [events]
  exact ⟨List.mem_cons_self, fun other member => by rw [List.mem_singleton.mp member]⟩

end Trail.Stores
