/-
**The statements of the PostgreSQL readers.**

The text of a statement is put together from parts that are appended while the arguments are
collected: a part refers to its argument by the number of arguments there are at that point.

`Where.Holds.sql`: the text and the arguments of a builder are those of the conditions it holds.
-/

import Trail.Storage.Queries
import Trail.Wire.Decimal

namespace Trail.Postgres

open Library Storage

/-! ### The builder -/

/-- `$%d`. -/
def placeholder (number : Nat) : GoString := ascii "$" ++ Wire.decimal number

/-- `where`. -/
structure Where where
  parts : List GoString := []
  args : List Arg := []
  base : Bool

/-- `newWhere`. -/
def newWhere (existingWhere : Nat) : Where := { base := 0 < existingWhere }

namespace Where

def add (b : Where) (s : GoString) : Where := { b with parts := b.parts ++ [s] }

/-- An argument, and a part that ends with its placeholder. -/
def place (b : Where) (lead : GoString) (value : Arg) : Where :=
  let b := { b with args := b.args ++ [value] }
  b.add (lead ++ placeholder b.args.length)

def eq (b : Where) (column : GoString) (value : Arg) : Where := b.place (column ++ ascii "=") value

/-- `place`, if a field is set. -/
def placeIf (b : Where) (test : Bool) (lead : GoString) (value : Arg) : Where :=
  if test then b.place lead value else b

/-- `eq`, if a field is set. -/
def eqIf (b : Where) (test : Bool) (column : GoString) (value : Arg) : Where :=
  if test then b.eq column value else b

def sql (b : Where) : GoString :=
  if b.parts = [] then []
  else (if b.base then ascii " AND " else ascii " WHERE ") ++ (ascii " AND ").intercalate b.parts

end Where

/-- `applyCommon`. -/
def applyCommon (b : Where) (t : TimeRange) (service environment : GoString) : Where :=
  let b := b.placeIf (t.from_ ≠ zeroTime) (ascii "event_time" ++ ascii " >= ") (.time t.from_)
  let b := b.placeIf (t.to_ ≠ zeroTime) (ascii "event_time" ++ ascii " < ") (.time t.to_)
  let b := b.eqIf (service ≠ []) (ascii "service") (.text service)
  b.eqIf (environment ≠ []) (ascii "environment") (.text environment)

/-- `applyScope`. -/
def applyScope (b : Where) (scope : Scope) : Where :=
  if isZero scope then b
  else (b.eq (ascii "scope_type") (.text scope.type)).eq (ascii "scope_id") (.text scope.id)

/-- The identifier of a cursor; an error leaves the zero identifier. -/
def cursorID (p : PageRequest) : EventID :=
  match parseEventID p.cursor.id with
  | .ok raw => raw
  | .error _ => Bytes.zero 16

/-- A `HAVING` for the cursor of a grouped query. -/
def havingCursor (q : Sql) (p : PageRequest) (timeCol idCol : GoString) (id : Arg) : Sql :=
  if p.cursor.id = [] then q
  else
    let args := q.args ++ [.time p.cursor.timestamp, id]
    ⟨q.text ++ (ascii " HAVING (" ++ timeCol ++ ascii "," ++ idCol ++ ascii ") " ++
      cursorOperator p ++ ascii " (" ++ placeholder (args.length - 1) ++ ascii "," ++
      placeholder args.length ++ ascii ")"), args⟩

/-- The order and the limit of a grouped query. -/
def orderAndLimit (q : Sql) (p : PageRequest) (timeCol idCol : GoString) : Sql :=
  let args := q.args ++ [.int (p.limit + 1)]
  ⟨q.text ++ (ascii " ORDER BY " ++ timeCol ++ ascii " " ++ direction p ++ ascii "," ++ idCol ++
    ascii " " ++ direction p ++ ascii " LIMIT " ++ placeholder args.length), args⟩

/-- `paginateGrouped`. -/
def paginateGrouped (q : Sql) (p : PageRequest) (timeCol idCol : GoString) : Sql :=
  orderAndLimit (havingCursor q p timeCol idCol (.bytes (cursorID p).1)) p timeCol idCol

/-! ### The readers -/

/-- The newest value of a column that is not empty. -/
def newestText (column : String) : GoString :=
  ascii "COALESCE((array_agg(" ++ ascii column ++
    ascii " ORDER BY event_time DESC,event_id DESC) FILTER(WHERE " ++ ascii column ++
    ascii "<>''))[1],'')"

/-- The newest value of a column that is not null. -/
def newestID (column : String) : GoString :=
  ascii "COALESCE((array_agg(" ++ ascii column ++
    ascii " ORDER BY event_time DESC,event_id DESC) FILTER(WHERE " ++ ascii column ++
    ascii " IS NOT NULL))[1],decode(repeat('00',16),'hex'))"

/-- `flowSummarySelect`. -/
def flowSummarySelect : GoString :=
  ascii "SELECT flow_id, service, environment,\n " ++ newestText "scope_type" ++ ascii ",\n " ++
  newestText "scope_id" ++ ascii ",\n " ++ newestText "entity_type" ++ ascii ",\n " ++
  newestText "entity_id" ++ ascii ",\n " ++ newestID "execution_id" ++ ascii ",\n " ++
  newestText "flow_status" ++ ascii ",\n min(event_time),max(event_time),count(DISTINCT event_id)," ++
  ascii "\n (array_agg(kind ORDER BY event_time,event_id))[1]," ++
  ascii "(array_agg(kind ORDER BY event_time DESC,event_id DESC))[1]\n" ++
  ascii " FROM trail_events WHERE flow_id IS NOT NULL"

/-- The `HAVING` for a status. -/
def havingStatus (q : Sql) (status : GoString) (column : String) : Sql :=
  if status = [] then q
  else
    let args := q.args ++ [.text status]
    ⟨q.text ++ (ascii " HAVING " ++ newestText column ++ ascii "=" ++ placeholder args.length), args⟩

/-- `ListFlows`. -/
def listFlows (f : FlowFilter) (p : PageRequest) : Sql :=
  let b := newWhere 1
  let b := applyCommon b f.time f.service f.environment
  let b := applyScope b f.scope
  let b := b.add (ascii "flow_id IS NOT NULL")
  let b := b.eqIf (f.entityType ≠ []) (ascii "entity_type") (.text f.entityType)
  let b := b.eqIf (f.entityID ≠ []) (ascii "entity_id") (.text f.entityID)
  let b := b.eqIf (!isZeroID f.executionID) (ascii "execution_id") (.bytes f.executionID.1)
  let q : Sql := ⟨flowSummarySelect ++ b.sql ++ ascii " GROUP BY flow_id,service,environment", b.args⟩
  paginateGrouped (havingStatus q f.status "flow_status") p (ascii "min(event_time)") (ascii "flow_id")

/-- `ListExecutionFlows`. -/
def listExecutionFlows (id : ExecutionID) (f : FlowFilter) (p : PageRequest) : Sql :=
  listFlows { f with executionID := id } p

/-- The filter of `ListEntityFlows`. -/
def setEntity (key : EntityKey) (f : FlowFilter) : FlowFilter :=
  { f with entityType := key.type, entityID := key.id }

/-- `ListEntityFlows`. -/
def listEntityFlows (key : EntityKey) (f : FlowFilter) (p : PageRequest) : Sql :=
  listFlows (setEntity key f) p

/-- `executionSummarySelect`. -/
def executionSummarySelect : GoString :=
  ascii "SELECT execution_id,service,environment,\n " ++ newestText "scope_type" ++ ascii ",\n " ++
  newestText "scope_id" ++ ascii ",\n " ++ newestText "execution_kind" ++ ascii ",\n " ++
  newestText "execution_source" ++ ascii ",\n " ++ newestText "execution_status" ++
  ascii ",max(execution_attempt),\n " ++ newestID "parent_execution_id" ++ ascii ",\n " ++
  newestID "retry_of_execution_id" ++
  ascii ",\n min(event_time),max(event_time),count(DISTINCT event_id)," ++
  ascii "count(DISTINCT flow_id) FILTER(WHERE flow_id IS NOT NULL)\n" ++
  ascii " FROM trail_events WHERE execution_id IS NOT NULL"

/-- `ListExecutions`. -/
def listExecutions (f : ExecutionFilter) (p : PageRequest) : Sql :=
  let b := newWhere 1
  let b := applyCommon b f.time f.service f.environment
  let b := applyScope b f.scope
  let b := b.add (ascii "execution_id IS NOT NULL")
  let b := b.eqIf (f.source ≠ []) (ascii "execution_source") (.text f.source)
  let b := b.eqIf (f.kind ≠ []) (ascii "execution_kind") (.text f.kind)
  let q : Sql := ⟨executionSummarySelect ++ b.sql ++
    ascii " GROUP BY execution_id,service,environment", b.args⟩
  paginateGrouped (havingStatus q f.status "execution_status") p (ascii "min(event_time)")
    (ascii "execution_id")

/-! ### The conditions of a builder -/

/-- The builder holds conditions. -/
structure Where.Holds (b : Where) (base : Bool) (conditions : List (List (Piece Arg))) : Prop where
  built : Built placeholder b.parts b.args conditions
  base : b.base = base

section Builder

variable {b : Where} {base : Bool} {conditions : List (List (Piece Arg))}

theorem Where.Holds.new (existingWhere : Nat) :
    (newWhere existingWhere).Holds (0 < existingWhere) [] := ⟨.empty, rfl⟩

theorem Where.Holds.add (holds : b.Holds base conditions) (s : GoString) :
    (b.add s).Holds base (conditions ++ [[.text s]]) := by
  refine ⟨?_, holds.base⟩
  have more := holds.built.add [.text s]
  rw [show Piece.values [Piece.text s] = ([] : List Arg) from rfl, List.append_nil,
    show Piece.render placeholder _ [Piece.text s] = s ++ [] from rfl, List.append_nil] at more
  exact more

theorem Where.Holds.place (holds : b.Holds base conditions) (column operator : GoString)
    (value : Arg) :
    (b.place (column ++ operator) value).Holds base (conditions ++ [comparison column operator value]) := by
  refine ⟨?_, holds.base⟩
  have more := holds.built.add (comparison column operator value)
  have text : Piece.render placeholder (b.args.length + 1) (comparison column operator value) =
      column ++ operator ++ placeholder (b.args ++ [value]).length := by
    rw [List.length_append]
    show column ++ operator ++ (placeholder (b.args.length + 1) ++ []) = _
    rw [List.append_nil]
    rfl
  rw [text] at more
  exact more

theorem Where.Holds.placeIf (holds : b.Holds base conditions) (test : Bool)
    (column operator : GoString) (value : Arg) :
    (b.placeIf test (column ++ operator) value).Holds base
      (conditions ++ onlyIf test (comparison column operator value)) := by
  cases test with
  | true => exact holds.place column operator value
  | false =>
    unfold onlyIf
    rw [if_neg Bool.false_ne_true, List.append_nil]
    exact holds

theorem Where.Holds.eqIf (holds : b.Holds base conditions) (test : Bool) (column : GoString)
    (value : Arg) : (b.eqIf test column value).Holds base
      (conditions ++ onlyIf test (comparison column (ascii "=") value)) :=
  holds.placeIf test column (ascii "=") value

/-- What `sql` writes for the conditions. -/
def wherePieces (base : Bool) (conditions : List (List (Piece Arg))) : List (Piece Arg) :=
  Piece.joined (if base then ascii " AND " else ascii " WHERE ") (ascii " AND ") conditions

/-- **The text and the arguments of a builder.** -/
theorem Where.Holds.sql (holds : b.Holds base conditions) :
    (⟨b.sql, b.args⟩ : Sql) = Sql.of placeholder (wherePieces base conditions) := by
  unfold Where.sql Sql.of wherePieces
  rw [holds.built.joined, Piece.values_joined, ← holds.built.args, holds.base]

end Builder

/-! ### The pieces of the statements -/

/-- The conditions common to all filters. -/
def commonConditions (t : TimeRange) (service environment : GoString) (scope : Scope) :
    List (List (Piece Arg)) :=
  onlyIf (t.from_ ≠ zeroTime) (comparison (ascii "event_time") (ascii " >= ") (.time t.from_)) ++
  onlyIf (t.to_ ≠ zeroTime) (comparison (ascii "event_time") (ascii " < ") (.time t.to_)) ++
  onlyIf (service ≠ []) (comparison (ascii "service") (ascii "=") (.text service)) ++
  onlyIf (environment ≠ []) (comparison (ascii "environment") (ascii "=") (.text environment)) ++
  onlyIf (¬ isZero scope) (comparison (ascii "scope_type") (ascii "=") (.text scope.type)) ++
  onlyIf (¬ isZero scope) (comparison (ascii "scope_id") (ascii "=") (.text scope.id))

theorem common_holds (existingWhere : Nat) (t : TimeRange) (service environment : GoString)
    (scope : Scope) :
    (applyScope (applyCommon (newWhere existingWhere) t service environment) scope).Holds
      (0 < existingWhere) (commonConditions t service environment scope) := by
  have common := ((((Where.Holds.new existingWhere).placeIf (t.from_ ≠ zeroTime) (ascii "event_time")
    (ascii " >= ") (.time t.from_)).placeIf (t.to_ ≠ zeroTime) (ascii "event_time") (ascii " < ")
    (.time t.to_)).eqIf (service ≠ []) (ascii "service") (.text service)).eqIf (environment ≠ [])
    (ascii "environment") (.text environment)
  unfold applyScope commonConditions
  by_cases zero : isZero scope
  · rw [if_pos zero, decide_eq_false (not_not.mpr zero)]
    have none : ∀ condition, onlyIf false condition = [] := fun _ => rfl
    rw [none, none, List.append_nil, List.append_nil]
    exact common
  · rw [if_neg zero, decide_eq_true zero]
    exact (common.place (ascii "scope_type") (ascii "=") (.text scope.type)).place
      (ascii "scope_id") (ascii "=") (.text scope.id)

/-- The `HAVING` of a status. -/
def statusPieces (status : GoString) (column : String) : List (Piece Arg) :=
  if status = [] then []
  else .text (ascii " HAVING ") :: comparison (newestText column) (ascii "=") (.text status)

section Steps

variable (pieces : List (Piece Arg)) (p : PageRequest)

theorem havingStatus_of (status : GoString) (column : String) :
    havingStatus (Sql.of placeholder pieces) status column =
      Sql.of placeholder (pieces ++ statusPieces status column) := by
  unfold havingStatus statusPieces
  split
  · rw [List.append_nil]
  · rw [Sql.of_append]
    simp [Piece.render, Piece.values, comparison]

theorem havingCursor_of (timeCol idCol : GoString) (id : Arg) :
    havingCursor (Sql.of placeholder pieces) p timeCol idCol id =
      Sql.of placeholder (pieces ++ havingPieces p timeCol idCol id) := by
  unfold havingCursor havingPieces
  split
  · rw [List.append_nil]
  · have bracket : ascii " HAVING (" = ascii " HAVING " ++ ascii "(" := rfl
    rw [Sql.of_append]
    simp [Piece.render, Piece.values, pairComparison, bracket]

theorem orderAndLimit_of (timeCol idCol : GoString) :
    orderAndLimit (Sql.of placeholder pieces) p timeCol idCol =
      Sql.of placeholder (pieces ++ limitPieces p timeCol idCol) := by
  unfold orderAndLimit limitPieces
  rw [Sql.of_append]
  simp [Piece.render, Piece.values]

end Steps

/-- A selection, the conditions and what comes after them. -/
def framed (select : GoString) (base : Bool) (conditions : List (List (Piece Arg))) (tail : GoString) :
    List (Piece Arg) :=
  .text select :: (wherePieces base conditions ++ [.text tail])

section Framed

variable {b : Where} {base : Bool} {conditions : List (List (Piece Arg))}

theorem Where.Holds.headed (holds : b.Holds base conditions) (select : GoString) :
    (⟨select ++ b.sql, b.args⟩ : Sql) =
      Sql.of placeholder (.text select :: wherePieces base conditions) := by
  have text : b.sql = Piece.render placeholder 1 (wherePieces base conditions) :=
    congrArg Sql.text holds.sql
  have args : b.args = Piece.values (wherePieces base conditions) := congrArg Sql.args holds.sql
  rw [text, args]
  rfl

theorem Where.Holds.framed (holds : b.Holds base conditions) (select tail : GoString) :
    (⟨select ++ b.sql ++ tail, b.args⟩ : Sql) =
      Sql.of placeholder (framed select base conditions tail) := by
  unfold Postgres.framed
  rw [← List.cons_append, Sql.of_append, ← holds.headed]
  simp [Piece.render, Piece.values]

end Framed

def flowConditions (f : FlowFilter) : List (List (Piece Arg)) :=
  commonConditions f.time f.service f.environment f.scope ++ [[.text (ascii "flow_id IS NOT NULL")]] ++
  onlyIf (f.entityType ≠ []) (comparison (ascii "entity_type") (ascii "=") (.text f.entityType)) ++
  onlyIf (f.entityID ≠ []) (comparison (ascii "entity_id") (ascii "=") (.text f.entityID)) ++
  onlyIf (!isZeroID f.executionID)
    (comparison (ascii "execution_id") (ascii "=") (.bytes f.executionID.1))

def flowPieces (f : FlowFilter) (p : PageRequest) : List (Piece Arg) :=
  framed flowSummarySelect true (flowConditions f) (ascii " GROUP BY flow_id,service,environment") ++
  statusPieces f.status "flow_status" ++
  havingPieces p (ascii "min(event_time)") (ascii "flow_id") (.bytes (cursorID p).1) ++
  limitPieces p (ascii "min(event_time)") (ascii "flow_id")

theorem listFlows_eq (f : FlowFilter) (p : PageRequest) :
    listFlows f p = Sql.of placeholder (flowPieces f p) := by
  have holds := ((((common_holds 1 f.time f.service f.environment f.scope).add
    (ascii "flow_id IS NOT NULL")).eqIf (f.entityType ≠ []) (ascii "entity_type")
    (.text f.entityType)).eqIf (f.entityID ≠ []) (ascii "entity_id") (.text f.entityID)).eqIf
    (!isZeroID f.executionID) (ascii "execution_id") (.bytes f.executionID.1)
  unfold listFlows paginateGrouped flowPieces
  dsimp only
  rw [holds.framed, havingStatus_of, havingCursor_of, orderAndLimit_of]
  rfl

def executionConditions (f : ExecutionFilter) : List (List (Piece Arg)) :=
  commonConditions f.time f.service f.environment f.scope ++
  [[.text (ascii "execution_id IS NOT NULL")]] ++
  onlyIf (f.source ≠ []) (comparison (ascii "execution_source") (ascii "=") (.text f.source)) ++
  onlyIf (f.kind ≠ []) (comparison (ascii "execution_kind") (ascii "=") (.text f.kind))

def executionPieces (f : ExecutionFilter) (p : PageRequest) : List (Piece Arg) :=
  framed executionSummarySelect true (executionConditions f)
    (ascii " GROUP BY execution_id,service,environment") ++
  statusPieces f.status "execution_status" ++
  havingPieces p (ascii "min(event_time)") (ascii "execution_id") (.bytes (cursorID p).1) ++
  limitPieces p (ascii "min(event_time)") (ascii "execution_id")

theorem listExecutions_eq (f : ExecutionFilter) (p : PageRequest) :
    listExecutions f p = Sql.of placeholder (executionPieces f p) := by
  have holds := (((common_holds 1 f.time f.service f.environment f.scope).add
    (ascii "execution_id IS NOT NULL")).eqIf (f.source ≠ []) (ascii "execution_source")
    (.text f.source)).eqIf (f.kind ≠ []) (ascii "execution_kind") (.text f.kind)
  unfold listExecutions paginateGrouped executionPieces
  dsimp only
  rw [holds.framed, havingStatus_of, havingCursor_of, orderAndLimit_of]
  rfl

end Trail.Postgres
