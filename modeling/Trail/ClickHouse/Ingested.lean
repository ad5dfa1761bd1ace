/-
**Tables that were written to and merged.**

Blocks of events are inserted, and ClickHouse merges the parts of its tables whenever it likes. What the
readers of the summaries see does not depend on either: a summary is the state of the events in the
table that have its key.

* `Ingested.fed`: what holds of the tables after any insertions and merges.
* `mem_flowRows`, `mem_executionRows`: the rows of the summary tables are those of the groups of events.
* `of_getFlow`, `of_getExecution`: a detail is that of one of them.
-/

import Trail.ClickHouse.FlowPaging
import Trail.ClickHouse.Rebuild

namespace Trail.Warehouse

open Library Storage
open ClickHouse (SummaryKey viewKey viewParts summaryOf flowSingle executionSingle)

/-! ### Insertions and merges -/

/-- A merge of `trail_flow_terminals` drops rows of flows that keep a row at least as late. -/
def MergesTerminals (before after : List TerminalRow) : Prop :=
  (∀ row ∈ after, row ∈ before) ∧
    ∀ row ∈ before, ∃ kept ∈ after, kept.flowID = row.flowID ∧ row.eventTime ≤ kept.eventTime

/-- The tables after insertions of events and merges of parts. -/
inductive Ingested (names : EventID → EventRecord) : Tables → Prop
  | empty : Ingested names {}
  | move {tables later : Tables} {action : Move} (before : Ingested names tables)
      (moved : Warehouse.move names tables action = some later) : Ingested names later
  | mergeTerminals {tables : Tables} {rows : List TerminalRow} (before : Ingested names tables)
      (merges : MergesTerminals tables.flowTerminals rows) :
      Ingested names { tables with flowTerminals := rows }

theorem Ingested.insert {names : EventID → EventRecord} {tables : Tables}
    (before : Ingested names tables) {block : List EventRecord} (fits : ∀ e ∈ block, Names names e) :
    Ingested names (tables.insertEvents block) := by
  have moved : Warehouse.move names tables (.ingest block) = some (tables.insertEvents block) :=
    Option.ite_none_right_eq_some.mpr ⟨fits, rfl⟩
  exact before.move moved

/-- The row of `trail_flow_terminals` for an event. -/
def terminalRow (e : EventRecord) : TerminalRow :=
  ⟨e.flowID, e.timestamp, e.metadata.service, e.metadata.environment, e.entityType, e.entityID,
    e.executionID, e.flowStatus⟩

/-- The event is one that the view of `trail_flow_terminals` takes. -/
def Terminal (e : EventRecord) : Prop :=
  e.flowID ≠ Bytes.zero 16 ∧ e.flowStatus ∈ terminalStatuses

instance (e : EventRecord) : Decidable (Terminal e) := inferInstanceAs (Decidable (_ ∧ _))

/-- The keys of a summary table. -/
def Tables.keys (tables : Tables) : Kind → List SummaryKey
  | .flow => tables.flowSummaries.map Prod.fst
  | .execution => tables.executionSummaries.map Prod.fst

/-- **What the tables of events hold**: the summaries are those of the events, and every flow that ended
has a terminal row at least as late as its last terminal event. -/
structure Fed (names : EventID → EventRecord) (tables : Tables) : Prop where
  idle : tables.rebuilds = []
  named : ∀ e ∈ tables.events, Names names e
  settled : ∀ kind id, id ≠ Bytes.zero 16 → tables.Settled kind id
  keys : ∀ kind key, key ∈ tables.keys kind ↔
    ∃ e ∈ tables.events, kind.idOf e ≠ Bytes.zero 16 ∧ viewKey kind.idOf e = key
  terminals : ∀ row ∈ tables.flowTerminals, ∃ e ∈ tables.events, Terminal e ∧ row = terminalRow e
  latest : ∀ e ∈ tables.events, Terminal e → ∃ row ∈ tables.flowTerminals,
    row.flowID = e.flowID ∧ e.timestamp ≤ row.eventTime

section Steps

variable {names : EventID → EventRecord} {tables : Tables}

theorem mem_viewParts {State : Type} [SemilatticeSup State] [OrderBot State]
    {idOf : EventRecord → Bytes 16} {single : EventRecord → State} {block : List EventRecord}
    {key : SummaryKey} :
    key ∈ (viewParts idOf single block).map Prod.fst ↔
      ∃ e ∈ block, idOf e ≠ Bytes.zero 16 ∧ viewKey idOf e = key := by
  unfold viewParts groupBy
  rw [List.map_map, show (Prod.fst ∘ fun key => _ : SummaryKey → SummaryKey) = id from rfl,
    List.map_id, List.mem_dedup, List.mem_map]
  simp only [List.mem_filter, and_assoc, ne_eq, decide_not, Bool.not_eq_true',
    decide_eq_false_iff_not]

theorem mem_terminalRows {block : List EventRecord} {row : TerminalRow} :
    row ∈ terminalRows (block.filter fun e => e.flowID ≠ Bytes.zero 16) ↔
      ∃ e ∈ block, Terminal e ∧ row = terminalRow e := by
  unfold terminalRows Terminal
  simp only [List.mem_map, List.mem_filter, decide_eq_true_eq, and_assoc]
  exact exists_congr fun e => and_congr_right fun _ => and_congr_right fun _ =>
    and_congr_right fun _ => eq_comm

theorem Fed.sound (fed : Fed names tables) : Sound names tables :=
  ⟨fed.named, fun _ member => absurd (fed.idle ▸ member) List.not_mem_nil,
    fun kind id nonzero => .inl (fed.settled kind id nonzero)⟩

theorem exists_insertEvents {block : List EventRecord} (good : EventRecord → Prop) :
    (∃ e ∈ (tables.insertEvents block).events, good e) ↔
      (∃ e ∈ tables.events, good e) ∨ ∃ e ∈ block, good e := by
  show (∃ e ∈ tables.events ++ block, good e) ↔ _
  simp only [List.mem_append, or_and_right, exists_or]

theorem exists_mergeEvents {rows : List EventRecord} (named : ∀ e ∈ tables.events, Names names e)
    (merges : MergesEvents tables.events rows) {good : EventRecord → Prop}
    (same : ∀ e other, Names names e → Names names other → e.id = other.id → good e → good other) :
    (∃ e ∈ rows, good e) ↔ ∃ e ∈ tables.events, good e := by
  constructor
  · rintro ⟨e, member, holds⟩
    exact ⟨e, merges.1 e member, holds⟩
  · rintro ⟨e, member, holds⟩
    obtain ⟨kept, here, ids⟩ := merges.2 e member
    exact ⟨kept, here, same e kept (named e member) (named kept (merges.1 kept here)) ids.symm holds⟩

theorem Names.redelivered {e other : EventRecord} (named : Names names e) (also : Names names other)
    (ids : e.id = other.id) : { e with batchID := other.batchID, delivery := other.delivery } = other := by
  have moved : { e with batchID := other.batchID, delivery := other.delivery } =
      { names e.id with id := e.id, batchID := other.batchID, delivery := other.delivery } :=
    congrArg (fun e : EventRecord => { e with batchID := other.batchID, delivery := other.delivery })
      named
  rw [moved, ids]
  exact also.symm

/-- What the key and the terminal row of an event show does not depend on its batch and delivery. -/
theorem Names.key {e other : EventRecord} (named : Names names e) (also : Names names other)
    (ids : e.id = other.id) (kind : Kind) :
    kind.idOf e = kind.idOf other ∧ viewKey kind.idOf e = viewKey kind.idOf other ∧
      terminalRow e = terminalRow other := by
  unfold Names at named also
  rw [named, also, ids]
  cases kind <;> exact ⟨rfl, rfl, rfl⟩

theorem Names.terminal {e other : EventRecord} (named : Names names e) (also : Names names other)
    (ids : e.id = other.id) (terminal : Terminal e) : Terminal other := by
  unfold Names at named also
  unfold Terminal at terminal ⊢
  rw [named, ids] at terminal
  rw [also]
  exact terminal

/-- **Every move keeps the tables fed.** -/
theorem Fed.move (fed : Fed names tables) {later : Tables} {action : Move}
    (moved : Warehouse.move names tables action = some later) : Fed names later := by
  have calm := fed.sound.undisturbed moved
  have settled : ∀ kind id, id ≠ Bytes.zero 16 → later.Settled kind id := fun kind id nonzero =>
    calm.settled kind id nonzero (fed.settled kind id nonzero)
  have idle : later.rebuilds = [] := calm.rebuilds.trans fed.idle
  cases action with
  | ingest block =>
    obtain ⟨_, same⟩ := Option.ite_none_right_eq_some.mp moved
    cases same
    refine ⟨idle, calm.named, settled, fun kind key => ?_, fun row member => ?_,
      fun e member terminal => ?_⟩
    · rw [exists_insertEvents, ← fed.keys kind key]
      cases kind
      · show key ∈ (tables.flowSummaries ++ _).map Prod.fst ↔ _
        rw [List.map_append, List.mem_append, mem_viewParts]
        rfl
      · show key ∈ (tables.executionSummaries ++ _).map Prod.fst ↔ _
        rw [List.map_append, List.mem_append, mem_viewParts]
        rfl
    · rw [exists_insertEvents]
      rcases List.mem_append.mp member with old | new
      · exact .inl (fed.terminals row old)
      · exact .inr (mem_terminalRows.mp new)
    · rcases List.mem_append.mp member with old | new
      · obtain ⟨row, here, late⟩ := fed.latest e old terminal
        exact ⟨row, List.mem_append_left _ here, late⟩
      · exact ⟨terminalRow e, List.mem_append_right _
          (mem_terminalRows.mpr ⟨e, new, terminal, rfl⟩), rfl, le_refl _⟩
  | mergeEvents rows =>
    obtain ⟨merges, same⟩ := Option.ite_none_right_eq_some.mp moved
    cases same
    refine ⟨idle, calm.named, settled, fun kind key => ?_, fun row member => ?_,
      fun e member terminal => ?_⟩
    · refine (fed.keys kind key).trans (exists_mergeEvents fed.named merges ?_).symm
      intro e other named also ids holds
      obtain ⟨id, view, _⟩ := named.key also ids kind
      exact ⟨id ▸ holds.1, view ▸ holds.2⟩
    · refine (exists_mergeEvents fed.named merges ?_).mpr (fed.terminals row member)
      intro e other named also ids holds
      exact ⟨named.terminal also ids holds.1, holds.2.trans (named.key also ids .flow).2.2⟩
    · exact fed.latest e (merges.1 e member) terminal
  | mergeFlows first second =>
    obtain ⟨parts, done, rfl⟩ := Option.map_eq_some_iff.mp moved
    refine ⟨idle, calm.named, settled, fun kind key => ?_, fed.terminals, fed.latest⟩
    cases kind
    · exact (keys_mergeParts done key).trans (fed.keys .flow key)
    · exact fed.keys .execution key
  | mergeExecutions first second =>
    obtain ⟨parts, done, rfl⟩ := Option.map_eq_some_iff.mp moved
    refine ⟨idle, calm.named, settled, fun kind key => ?_, fed.terminals, fed.latest⟩
    cases kind
    · exact fed.keys .flow key
    · exact (keys_mergeParts done key).trans (fed.keys .execution key)

theorem Fed.mergeTerminals (fed : Fed names tables) {rows : List TerminalRow}
    (merges : MergesTerminals tables.flowTerminals rows) :
    Fed names { tables with flowTerminals := rows } := by
  refine ⟨fed.idle, fed.named, fun kind id nonzero => ?_, fun kind key => ?_, fun row member => ?_,
    fun e member terminal => ?_⟩
  · have before := fed.settled kind id nonzero
    cases kind <;> exact before
  · have before := fed.keys kind key
    cases kind <;> exact before
  · exact fed.terminals row (merges.1 row member)
  · obtain ⟨row, here, flow, late⟩ := fed.latest e member terminal
    obtain ⟨kept, there, same, later⟩ := merges.2 row here
    exact ⟨kept, there, same.trans flow, le_trans late later⟩

theorem fed_empty : Fed names {} := by
  refine ⟨rfl, fun e member => absurd member List.not_mem_nil, fun kind id _ => ?_, fun kind key => ?_,
    fun row member => absurd member List.not_mem_nil, fun e member => absurd member List.not_mem_nil⟩
  · cases kind <;> exact fun _ _ => rfl
  · refine iff_of_false ?_ fun ⟨e, member, _⟩ => absurd member List.not_mem_nil
    cases kind <;> exact List.not_mem_nil

/-- **After any insertions and merges the tables are fed.** -/
theorem Ingested.fed (ingested : Ingested names tables) : Fed names tables := by
  induction ingested with
  | empty => exact fed_empty
  | move _ moved ih => exact ih.move moved
  | mergeTerminals _ merges ih => exact ih.mergeTerminals merges

end Steps

/-! ### Reading -/

section Reading

variable {names : EventID → EventRecord} {tables : Tables} {order : RowOrder}

theorem mem_mergedRows {State Row : Type} [SemilatticeSup State] [OrderBot State]
    {rowOf : SummaryKey → State → Row} {parts : List (SummaryKey × State)} {row : Row} :
    row ∈ mergedRows rowOf parts ↔ ∃ key ∈ parts.map Prod.fst, row = rowOf key (merged parts key) := by
  unfold mergedRows
  simp only [List.mem_map (f := fun key => rowOf key (merged parts key)), List.mem_dedup]
  exact exists_congr fun key => and_congr_right fun _ => eq_comm

/-- The flow of the rows of a key. -/
def flowIn (rows : List EventRecord) (e : EventRecord) : FlowDetail :=
  flowOf (viewKey EventRecord.flowID e)
    (aggregate flowSingle (group (viewKey EventRecord.flowID) rows (viewKey EventRecord.flowID e)))

/-- The execution of the rows of a key. -/
def executionIn (rows : List EventRecord) (e : EventRecord) : ExecutionSummary :=
  executionOf (viewKey EventRecord.executionID e) (aggregate executionSingle
    (group (viewKey EventRecord.executionID) rows (viewKey EventRecord.executionID e)))

/-- **The rows of `trail_flow_summaries`** are the flows of the events. -/
theorem Fed.mem_flowRows (fed : Fed names tables) {v : FlowDetail} :
    v ∈ tables.flowRows ↔
      ∃ e ∈ tables.events, e.flowID ≠ Bytes.zero 16 ∧ v = flowIn tables.events e := by
  unfold Tables.flowRows
  rw [mem_mergedRows]
  constructor
  · rintro ⟨key, member, rfl⟩
    obtain ⟨e, here, set, rfl⟩ := (fed.keys .flow key).mp member
    exact ⟨e, here, set, congrArg _ (fed.settled .flow _ set _ _)⟩
  · rintro ⟨e, here, set, rfl⟩
    exact ⟨_, (fed.keys .flow _).mpr ⟨e, here, set, rfl⟩,
      congrArg (flowOf _) (fed.settled .flow _ set _ _).symm⟩

/-- **The rows of `trail_execution_summaries`** are the executions of the events. -/
theorem Fed.mem_executionRows (fed : Fed names tables) {v : ExecutionSummary} :
    v ∈ tables.executionRows ↔
      ∃ e ∈ tables.events, e.executionID ≠ Bytes.zero 16 ∧ v = executionIn tables.events e := by
  unfold Tables.executionRows
  rw [mem_mergedRows]
  constructor
  · rintro ⟨key, member, rfl⟩
    obtain ⟨e, here, set, rfl⟩ := (fed.keys .execution key).mp member
    exact ⟨e, here, set, congrArg _ (fed.settled .execution _ set _ _)⟩
  · rintro ⟨e, here, set, rfl⟩
    exact ⟨_, (fed.keys .execution _).mpr ⟨e, here, set, rfl⟩,
      congrArg (executionOf _) (fed.settled .execution _ set _ _).symm⟩

theorem Fed.summarised (fed : Fed names tables) :
    ∀ row ∈ tables.flowTerminals, tables.Summarised row := by
  intro row member
  obtain ⟨e, here, terminal, rfl⟩ := fed.terminals row member
  exact ⟨_, fed.mem_flowRows.mpr ⟨e, here, terminal.1, rfl⟩, rfl⟩

theorem Tables.mem_of_getFlow {id : FlowID} {detail : FlowDetail}
    (found : tables.getFlow order id = .ok detail) : detail ∈ tables.flowRows ∧ detail.id = id := by
  unfold Tables.getFlow at found
  split at found
  · cases found
  · rename_i first
    cases found
    obtain ⟨member, same⟩ := List.mem_filter.mp (order.mem_of_head? first)
    exact ⟨member, of_decide_eq_true same⟩

theorem Tables.mem_of_getExecution {id : ExecutionID} {detail : ExecutionSummary}
    (found : tables.getExecution order id = .ok detail) :
    detail ∈ tables.executionRows ∧ detail.id = id := by
  unfold Tables.getExecution at found
  split at found
  · cases found
  · rename_i first
    cases found
    obtain ⟨member, same⟩ := List.mem_filter.mp (order.mem_of_head? first)
    exact ⟨member, of_decide_eq_true same⟩

theorem Fed.of_getFlow (fed : Fed names tables) {id : FlowID} {detail : FlowDetail}
    (found : tables.getFlow order id = .ok detail) :
    ∃ e ∈ tables.events, e.flowID ≠ Bytes.zero 16 ∧ e.flowID = id ∧
      detail = flowIn tables.events e := by
  obtain ⟨member, same⟩ := Tables.mem_of_getFlow found
  obtain ⟨e, here, set, rfl⟩ := fed.mem_flowRows.mp member
  exact ⟨e, here, set, same, rfl⟩

theorem Fed.exists_getFlow (fed : Fed names tables) {e : EventRecord} (member : e ∈ tables.events)
    (set : e.flowID ≠ Bytes.zero 16) : ∃ detail, tables.getFlow order e.flowID = .ok detail := by
  unfold Tables.getFlow
  split
  · rename_i nothing
    have row := fed.mem_flowRows.mpr ⟨e, member, set, rfl⟩
    have empty := List.filter_eq_nil_iff.mp (order.eq_nil_of_head? nothing) _ row
    exact absurd (decide_eq_true rfl) empty
  · exact ⟨_, rfl⟩

theorem Fed.of_getExecution (fed : Fed names tables) {id : ExecutionID} {detail : ExecutionSummary}
    (found : tables.getExecution order id = .ok detail) :
    ∃ e ∈ tables.events, e.executionID ≠ Bytes.zero 16 ∧ e.executionID = id ∧
      detail = executionIn tables.events e := by
  obtain ⟨member, same⟩ := Tables.mem_of_getExecution found
  obtain ⟨e, here, set, rfl⟩ := fed.mem_executionRows.mp member
  exact ⟨e, here, set, same, rfl⟩

theorem Fed.exists_getExecution (fed : Fed names tables) {e : EventRecord}
    (member : e ∈ tables.events) (set : e.executionID ≠ Bytes.zero 16) :
    ∃ detail, tables.getExecution order e.executionID = .ok detail := by
  unfold Tables.getExecution
  split
  · rename_i nothing
    have row := fed.mem_executionRows.mpr ⟨e, member, set, rfl⟩
    have empty := List.filter_eq_nil_iff.mp (order.eq_nil_of_head? nothing) _ row
    exact absurd (decide_eq_true rfl) empty
  · exact ⟨_, rfl⟩

/-- **Details after any insertions and merges** are those of the events, computed anew. -/
theorem details_recomputed (ingested : Ingested names tables) (order : RowOrder) {e : EventRecord}
    (member : e ∈ tables.events) :
    (e.flowID ≠ Bytes.zero 16 → ∃ e' ∈ tables.events, e'.flowID = e.flowID ∧
      tables.getFlow order e.flowID = .ok (flowIn tables.events e')) ∧
    (e.executionID ≠ Bytes.zero 16 → ∃ e' ∈ tables.events, e'.executionID = e.executionID ∧
      tables.getExecution order e.executionID = .ok (executionIn tables.events e')) := by
  refine ⟨fun set => ?_, fun set => ?_⟩
  · obtain ⟨detail, found⟩ := @Fed.exists_getFlow _ _ order ingested.fed e member set
    obtain ⟨e', here, -, same, rfl⟩ := ingested.fed.of_getFlow found
    exact ⟨e', here, same, found⟩
  · obtain ⟨detail, found⟩ := @Fed.exists_getExecution _ _ order ingested.fed e member set
    obtain ⟨e', here, -, same, rfl⟩ := ingested.fed.of_getExecution found
    exact ⟨e', here, same, found⟩

end Reading

/-- An event of a flow. -/
def firstStep : EventRecord := { id := endingID 1, timestamp := 1000, kind := [], flowID := endingID 7 }

theorem firstStep_recomputed :
    (({} : Tables).insertEvents [firstStep]).getFlow .given (endingID 7) =
      .ok (flowIn [firstStep] firstStep) := by
  have ingested : Ingested (fun _ => firstStep) (({} : Tables).insertEvents [firstStep]) :=
    Ingested.empty.insert (by decide)
  obtain ⟨_, here, -, found⟩ :=
    (details_recomputed ingested .given (e := firstStep) List.mem_cons_self).1 (by decide)
  rwa [List.mem_singleton.mp here] at found

end Trail.Warehouse
