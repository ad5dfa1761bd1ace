/-
**The readers of the ClickHouse adapter.**

Flows and executions are read from the summary tables: the parts of a key are merged and the states
finalised. `ListFlows` reads a page of `trail_flow_terminals` first and then the summaries of the flows
it found there. Events and entities are read from `trail_events`; none of these queries says `FINAL`, so
all rows that are not merged yet are visible.
-/

import Trail.ClickHouse.Retention
import Trail.Storage.Listings

namespace Trail.Warehouse

open Library Storage
open ClickHouse (SummaryKey FlowState ExecutionState MinState MaxState ArgMaxState ArgMinState
  UniqExactState)
open Retention (Adapter RowKey keyOf rowKey)

/-! ### Finalised states -/

/-- `minMerge`. -/
def minMerge (state : MinState) : Time := OrderDual.ofDual (state.unbotD (OrderDual.toDual 0))

/-- `maxMerge`. -/
def maxMerge (state : MaxState) : Time := state.unbotD 0

/-- `argMaxMerge`, and `argMaxIfMerge`. -/
def argMaxMerge (state : ArgMaxState) : GoString := (state.map fun entry => (ofLex entry).2).unbotD []

/-- `argMinMerge`. -/
def argMinMerge (state : ArgMinState) : GoString := (state.map fun entry => (ofLex entry).2).unbotD []

/-- A row of `flowRows`, as `scanCHFlow` reads it. -/
def flowOf (key : SummaryKey) : FlowState → FlowDetail
  | (startedAt, finishedAt, eventCount, entityType, entityID, executionID, status, firstKind,
      lastKind) =>
    { id := key.1
      service := key.2.1
      environment := key.2.2
      entityType := argMaxMerge entityType
      entityID := argMaxMerge entityID
      executionID := copyID (argMaxMerge executionID)
      status := argMaxMerge status
      startedAt := minMerge startedAt
      finishedAt := maxMerge finishedAt
      eventCount := eventCount.card
      firstKind := argMinMerge firstKind
      lastKind := argMaxMerge lastKind }

/-- A row of `executionRows`, as `scanCHExecution` reads it. -/
def executionOf (key : SummaryKey) : ExecutionState → ExecutionSummary
  | (startedAt, finishedAt, eventCount, flowCount, kind, source, status, attempt, parent, retry) =>
    { id := key.1
      service := key.2.1
      environment := key.2.2
      kind := argMaxMerge kind
      source := argMaxMerge source
      status := argMaxMerge status
      attempt := attempt.unbotD 0
      parentExecutionID := copyID (argMaxMerge parent)
      retryOfExecutionID := copyID (argMaxMerge retry)
      startedAt := minMerge startedAt
      finishedAt := maxMerge finishedAt
      eventCount := eventCount.card
      flowCount := flowCount.card }

/-- The merged rows of a summary table: one for each key. -/
def mergedRows {State Row : Type} [SemilatticeSup State] [OrderBot State]
    (rowOf : SummaryKey → State → Row) (parts : List (SummaryKey × State)) : List Row :=
  (parts.map Prod.fst).dedup.map fun key => rowOf key (merged parts key)

namespace Tables

variable (tables : Tables) (order : RowOrder)

/-- `flowRows`. -/
def flowRows : List FlowDetail := mergedRows flowOf tables.flowSummaries

/-- `executionRows`. -/
def executionRows : List ExecutionSummary := mergedRows executionOf tables.executionSummaries

/-- `id IN (SELECT DISTINCT id FROM trail_events WHERE scope_type=? AND scope_id=?)`. -/
def hasScope (idOf : EventRecord → Bytes 16) (scope : Scope) (id : Bytes 16) : Bool :=
  isZero scope ∨ id ∈ (tables.events.filter (inScope scope)).map idOf

/-! ### Flows -/

/-- The conditions of `ListFlows` on the rows of `trail_flow_terminals`. -/
def terminalSelects (f : FlowFilter) (row : TerminalRow) : Bool :=
  inWindow .clickhouse f.time f.service f.environment row.eventTime row.service row.environment ∧
  tables.hasScope (·.flowID) f.scope row.flowID ∧
  (f.status = [] ∨ row.status = f.status) ∧
  (f.entityType = [] ∨ row.entityType = f.entityType) ∧
  (f.entityID = [] ∨ row.entityID = f.entityID) ∧
  (isZeroID f.executionID ∨ sameID .clickhouse row.executionID f.executionID)

/-- The position of a terminal row in the order of `ListFlows`. -/
def terminalPosition (row : TerminalRow) : RowKey := keyOf row.eventTime row.flowID.1

/-- The summary that `byID` has for a flow, when the summaries come in the given order: a later one
replaces an earlier one. -/
def byID (summaries : List FlowDetail) (id : FlowID) : Option FlowSummary :=
  ((summaries.filter fun v => v.id = id).getLast?).map FlowDetail.toFlowSummary

/-- `ListFlows`; the query for the summaries has an order of its own. -/
def listFlows (order' : RowOrder) (f : FlowFilter) (p : PageRequest) : Page FlowSummary :=
  let rows := fetch terminalPosition order p (rowCursor .clickhouse p.cursor)
    (tables.flowTerminals.filter (tables.terminalSelects f))
  let hasMore : Bool := p.limit.toInt < rows.length
  let kept := if hasMore then rows.take p.limit.toInt.toNat else rows
  let ids := kept.map TerminalRow.flowID
  let summaries := order'.arrange (tables.flowRows.filter fun v => v.id ∈ ids)
  let items := (ids.filterMap (byID summaries)).map fun v => { v with scope := f.scope }
  let next := kept.getLast?.bind fun row =>
    items.getLast?.map fun item => (⟨row.eventTime, encodeID item.id⟩ : Cursor)
  { items, hasMore, nextCursor := if hasMore then next.getD {} else {} }

/-- `GetFlow`. -/
def getFlow (id : FlowID) : Except GoError FlowDetail :=
  match (order.arrange (tables.flowRows.filter fun v => v.id = id)).head? with
  | none => .error errNotFound
  | some detail => .ok detail

/-- `ListExecutionFlows`. -/
def listExecutionFlows (order' : RowOrder) (id : ExecutionID) (f : FlowFilter) (p : PageRequest) :
    Page FlowSummary :=
  tables.listFlows order order' { f with executionID := id } p

/-- `ListEntityFlows`. -/
def listEntityFlows (order' : RowOrder) (key : EntityKey) (f : FlowFilter) (p : PageRequest) :
    Page FlowSummary :=
  tables.listFlows order order'
    { f with entityType := key.type, entityID := key.id, scope := key.scope } p

/-! ### Executions -/

/-- The conditions of `ListExecutions` on the merged rows. -/
def executionSelects (f : ExecutionFilter) (v : ExecutionSummary) : Bool :=
  inWindow .clickhouse f.time f.service f.environment v.startedAt v.service v.environment ∧
  tables.hasScope (·.executionID) f.scope v.id ∧
  (f.status = [] ∨ v.status = f.status) ∧
  (f.kind = [] ∨ v.kind = f.kind) ∧
  (f.source = [] ∨ v.source = f.source)

/-- `ListExecutions`. -/
def listExecutions (f : ExecutionFilter) (p : PageRequest) : Page ExecutionSummary :=
  Storage.listing executionPosition order p (rowCursor .clickhouse p.cursor)
    ((tables.executionRows.filter (tables.executionSelects f)).map fun v =>
      { v with scope := f.scope })
    ExecutionSummary.cursor

/-- `GetExecution`. -/
def getExecution (id : ExecutionID) : Except GoError ExecutionSummary :=
  match (order.arrange (tables.executionRows.filter fun v => v.id = id)).head? with
  | none => .error errNotFound
  | some detail => .ok detail

/-- `GetRetryChain`; the second query has an order of its own. -/
def getRetryChain (order' : RowOrder) (id : ExecutionID) : Except GoError (List ExecutionSummary) :=
  match tables.getExecution order id with
  | .error error => .error error
  | .ok detail =>
    let root := retryRoot id detail
    .ok (orderBy (fun v => toLex (v.attempt, v.startedAt)) (order'.arrange
      (tables.executionRows.filter fun v => v.id = root ∨ v.retryOfExecutionID = root)))

/-! ### Entities and events -/

/-- The conditions of `SearchEntities` on rows. -/
def entitySelects (f : EntityFilter) (e : EventRecord) : Bool :=
  inCommon .clickhouse f.time f.service f.environment e ∧ inScope f.scope e ∧
  (e.entityType ≠ [] ∧ e.entityID ≠ []) ∧
  (f.entityType = [] ∨ e.entityType = f.entityType) ∧
  (f.idPrefix = [] ∨ f.idPrefix.isPrefixOf e.entityID)

/-- The entities of `SearchEntities`. -/
def entities (f : EntityFilter) : List EntitySummary :=
  entitiesOf (tables.events.filter (entitySelects f))

/-- `SearchEntities`. -/
def searchEntities (f : EntityFilter) (p : PageRequest) : Page EntitySummary :=
  Storage.listing (entityPosition .bytes) order p (entityCursor .clickhouse .bytes p.cursor)
    (tables.entities f) EntitySummary.cursor

/-- `GetEntity`. -/
def getEntity (key : EntityKey) : Except GoError EntitySummary :=
  let rows := tables.events.filter fun e =>
    e.entityType = key.type ∧ e.entityID = key.id ∧ inScope key.scope e
  if rows = [] then .error errNotFound else .ok (entitySummary rows key)

/-- `listCHEvents`, of a flow in `ListFlowEvents`. -/
def listCHEvents (f : EventFilter) (p : PageRequest) (flow : Option FlowID) : Page EventRecord :=
  Storage.listing rowKey order p (rowCursor .clickhouse p.cursor)
    (tables.events.filter (f.selects .clickhouse flow)) EventRecord.cursor

/-- `GetEvent`. -/
def getEvent (id : EventID) : Except GoError EventRecord :=
  match (order.arrange (tables.events.filter fun e => e.id = id)).head? with
  | none => .error errNotFound
  | some record => .ok record

end Tables

end Trail.Warehouse
