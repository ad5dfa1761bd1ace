/-
**The readers of the PostgreSQL adapter.**

Flows, executions and entities have no tables of their own: a listing selects rows of `trail_events`,
groups them and aggregates the groups. `Group` has the columns of the selections; `Events` is the table,
with the readers as its methods.

A `RowOrder` is the order of the rows a query leaves open: `QueryRow` reads the first row of any, and
rows with equal keys come in any order.
-/

import Trail.Library.Patterns
import Trail.Postgres.Clauses
import Trail.Storage.Listings

namespace Trail.Postgres

open Library Storage
open Retention (Adapter RowKey keyOf rowKey)

/-! ### Groups -/

/-- The rows of a group. -/
abbrev Group := List EventRecord

namespace Group

variable (group : Group)

/-- The rows `ORDER BY event_time DESC,event_id DESC`. -/
def newestFirst : List EventRecord := orderBy (directed rowKey true) group

/-- `COALESCE((array_agg(column ORDER BY event_time DESC,event_id DESC) FILTER(…))[1],unset)`, with the
rows that have the column set. -/
def newest {Value : Type} [DecidableEq Value] (unset : Value) (column : EventRecord → Value) : Value :=
  ((newestFirst (group.filter fun e => column e ≠ unset)).head?.map column).getD unset

/-- `newestText` of a column. -/
def newestText (column : EventRecord → GoString) : GoString := group.newest [] column

/-- `newestID` of a column. -/
def newestID (column : EventRecord → Bytes 16) : Bytes 16 := group.newest (Bytes.zero 16) column

/-- A row of `flowSummarySelect`, as `scanFlow` reads it. -/
def flow (key : FlowID × GoString × GoString) : FlowDetail where
  id := key.1
  service := key.2.1
  environment := key.2.2
  scope := ⟨group.newestText (·.scope.type), group.newestText (·.scope.id)⟩
  entityType := group.newestText (·.entityType)
  entityID := group.newestText (·.entityID)
  executionID := group.newestID (·.executionID)
  status := group.newestText (·.flowStatus)
  startedAt := minTime group
  finishedAt := maxTime group
  eventCount := countDistinct (·.id) group
  firstKind := ((orderBy rowKey group).head?.map (·.kind)).getD []
  lastKind := (group.newestFirst.head?.map (·.kind)).getD []

/-- A row of `executionSummarySelect`, as `scanExecution` reads it. -/
def execution (key : ExecutionID × GoString × GoString) : ExecutionSummary where
  id := key.1
  service := key.2.1
  environment := key.2.2
  scope := ⟨group.newestText (·.scope.type), group.newestText (·.scope.id)⟩
  kind := group.newestText (·.executionKind)
  source := group.newestText (·.executionSource)
  status := group.newestText (·.executionStatus)
  attempt := (group.map (·.executionAttempt.toNat)).max?.getD 0
  parentExecutionID := group.newestID (·.parentExecutionID)
  retryOfExecutionID := group.newestID (·.retryOfExecutionID)
  startedAt := minTime group
  finishedAt := maxTime group
  eventCount := countDistinct (·.id) group
  flowCount := flowCount group

end Group

/-- The columns of `GROUP BY flow_id,service,environment`. -/
def flowKey (e : EventRecord) : FlowID × GoString × GoString :=
  (e.flowID, e.metadata.service, e.metadata.environment)

/-- The columns of `GROUP BY execution_id,service,environment`. -/
def executionKey (e : EventRecord) : ExecutionID × GoString × GoString :=
  (e.executionID, e.metadata.service, e.metadata.environment)

/-- The flows of rows. -/
def flowsOf (rows : List EventRecord) : List FlowDetail :=
  (groups flowKey rows).map fun entry => Group.flow entry.2 entry.1

/-- The executions of rows. -/
def executionsOf (rows : List EventRecord) : List ExecutionSummary :=
  (groups executionKey rows).map fun entry => Group.execution entry.2 entry.1

/-! ### Conditions -/

/-- The conditions of `ListFlows` on rows. -/
def flowSelects (f : FlowFilter) (e : EventRecord) : Bool :=
  e.flowID ≠ Bytes.zero 16 ∧ inCommon .postgres f.time f.service f.environment e ∧
  inScope f.scope e ∧
  (f.entityType = [] ∨ e.entityType = f.entityType) ∧
  (f.entityID = [] ∨ e.entityID = f.entityID) ∧
  (isZeroID f.executionID ∨ sameID .postgres e.executionID f.executionID)

/-- The conditions of `ListExecutions` on rows. -/
def executionSelects (f : ExecutionFilter) (e : EventRecord) : Bool :=
  e.executionID ≠ Bytes.zero 16 ∧ inCommon .postgres f.time f.service f.environment e ∧
  inScope f.scope e ∧
  (f.source = [] ∨ e.executionSource = f.source) ∧
  (f.kind = [] ∨ e.executionKind = f.kind)

/-- The condition of the second query of `GetRetryChain`. -/
def chainSelects (root : ExecutionID) (e : EventRecord) : Bool :=
  e.executionID ≠ Bytes.zero 16 ∧
    (sameID .postgres e.executionID root ∨ sameID .postgres e.retryOfExecutionID root)

/-- The conditions of `SearchEntities` on rows. -/
def entitySelects (f : EntityFilter) (e : EventRecord) : Bool :=
  inCommon .postgres f.time f.service f.environment e ∧ inScope f.scope e ∧
  (e.entityType ≠ [] ∧ e.entityID ≠ []) ∧
  (f.entityType = [] ∨ e.entityType = f.entityType) ∧
  (f.idPrefix = [] ∨ like (f.idPrefix ++ ascii "%") e.entityID)

/-- The position of the cursor in `paginateGrouped`. -/
def groupCursor (p : PageRequest) : Option RowKey :=
  if p.cursor.id = [] then none
  else some (keyOf (bound .postgres p.cursor.timestamp) (cursorID p).1)

instance (text : GoString) : Decidable (WellFormed text) :=
  inferInstanceAs (Decidable (_ ∨ _))

/-- The error of a second `HAVING`. -/
def syntaxError : GoError :=
  errorsNew "ERROR: syntax error at or near \"HAVING\" (SQLSTATE 42601)"

theorem wellFormed_listFlows (f : FlowFilter) (p : PageRequest) :
    WellFormed (listFlows f p).text ↔ f.status = [] ∨ p.cursor.id = [] :=
  groupedClauses_iff (listFlows_clauses f p)

theorem wellFormed_listExecutions (f : ExecutionFilter) (p : PageRequest) :
    WellFormed (listExecutions f p).text ↔ f.status = [] ∨ p.cursor.id = [] :=
  groupedClauses_iff (listExecutions_clauses f p)

/-! ### The table -/

/-- `trail_events` as it is read: one row for an identifier, with the times of `timestamptz`; the time of
an event is a number of nanoseconds. -/
structure Events where
  rows : List EventRecord
  distinct : (rows.map (·.id)).Nodup
  precise : ∀ e ∈ rows, microseconds e.timestamp = e.timestamp
  ranged : ∀ e ∈ rows, Retention.InRange e.timestamp

namespace Events

variable (table : Events) (order : RowOrder)

/-- The flows of `ListFlows`: the groups of the selected rows that have the status. -/
def flows (f : FlowFilter) : List FlowSummary :=
  ((flowsOf (table.rows.filter (flowSelects f))).map FlowDetail.toFlowSummary).filter fun v =>
    f.status = [] ∨ v.status = f.status

/-- The executions of `ListExecutions`. -/
def executions (f : ExecutionFilter) : List ExecutionSummary :=
  (executionsOf (table.rows.filter (executionSelects f))).filter fun v =>
    f.status = [] ∨ v.status = f.status

/-- The entities of `SearchEntities`. -/
def entities (f : EntityFilter) : List EntitySummary :=
  entitiesOf (table.rows.filter (entitySelects f))

/-- `ListFlows`. -/
def listFlows (f : FlowFilter) (p : PageRequest) : Except GoError (Page FlowSummary) :=
  if WellFormed (Postgres.listFlows f p).text then
    .ok (listing flowPosition order p (groupCursor p) (table.flows f) FlowSummary.cursor)
  else .error syntaxError

/-- `GetFlow`. -/
def getFlow (id : FlowID) : Except GoError FlowDetail :=
  let flows := flowsOf (table.rows.filter fun e =>
    e.flowID ≠ Bytes.zero 16 ∧ sameID .postgres e.flowID id)
  match (order.arrange flows).head? with
  | none => .error errNotFound
  | some detail => .ok detail

/-- `ListExecutionFlows`. -/
def listExecutionFlows (id : ExecutionID) (f : FlowFilter) (p : PageRequest) :
    Except GoError (Page FlowSummary) :=
  table.listFlows order { f with executionID := id } p

/-- `ListEntityFlows`. -/
def listEntityFlows (key : EntityKey) (f : FlowFilter) (p : PageRequest) :
    Except GoError (Page FlowSummary) :=
  table.listFlows order (setEntity key f) p

/-- `ListExecutions`. -/
def listExecutions (f : ExecutionFilter) (p : PageRequest) :
    Except GoError (Page ExecutionSummary) :=
  if WellFormed (Postgres.listExecutions f p).text then
    .ok (listing executionPosition order p (groupCursor p) (table.executions f)
      ExecutionSummary.cursor)
  else .error syntaxError

/-- `GetExecution`. -/
def getExecution (id : ExecutionID) : Except GoError ExecutionSummary :=
  let executions := executionsOf (table.rows.filter fun e =>
    e.executionID ≠ Bytes.zero 16 ∧ sameID .postgres e.executionID id)
  match (order.arrange executions).head? with
  | none => .error errNotFound
  | some detail => .ok detail

/-- `GetRetryChain`; the second query has an order of its own. -/
def getRetryChain (order' : RowOrder) (id : ExecutionID) : Except GoError (List ExecutionSummary) :=
  match table.getExecution order id with
  | .error error => .error error
  | .ok detail =>
    let executions := executionsOf (table.rows.filter (chainSelects (retryRoot id detail)))
    .ok (orderBy (fun v => toLex (v.attempt, v.startedAt)) (order'.arrange executions))

/-- `SearchEntities`. -/
def searchEntities (collation : Collation) (f : EntityFilter) (p : PageRequest) :
    Page EntitySummary :=
  listing (entityPosition collation) order p (entityCursor .postgres collation p.cursor) (table.entities f)
    EntitySummary.cursor

/-- `GetEntity`. -/
def getEntity (key : EntityKey) : Except GoError EntitySummary :=
  let rows := table.rows.filter fun e =>
    e.entityType = key.type ∧ e.entityID = key.id ∧ inScope key.scope e
  if rows = [] then .error errNotFound else .ok (entitySummary rows key)

/-- `listEvents`, of a flow in `ListFlowEvents`. -/
def listEvents (f : EventFilter) (p : PageRequest) (flow : Option FlowID) : Page EventRecord :=
  listing rowKey order p (rowCursor .postgres p.cursor)
    (table.rows.filter (f.selects .postgres flow)) EventRecord.cursor

/-- `ListEvents`, or `ListFlowEvents` of a flow, with an order for every query. -/
def eventReader (order : PageRequest → RowOrder) (f : EventFilter) (flow : Option FlowID)
    (p : PageRequest) : Except GoError (Page EventRecord) :=
  .ok (table.listEvents (order p) f p flow)

/-- `GetEvent`. -/
def getEvent (id : EventID) : Except GoError EventRecord :=
  match (order.arrange (table.rows.filter fun e => e.id = id)).head? with
  | none => .error errNotFound
  | some record => .ok record

end Events

end Trail.Postgres
