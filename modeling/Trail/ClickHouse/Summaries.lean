/-
**The summary tables of ClickHouse.**

`trail_flow_summaries` and `trail_execution_summaries` hold aggregate states by identifier, service and
environment. A materialised view adds, for every block inserted into `trail_events`, the states of
the block; a rebuild deletes the states of some identifiers and inserts those of their rows again.

The two tables differ in which identifier of an event they are about and in the states they keep, so
everything but the states is said once, for the view of an identifier `idOf` with states `single`.
An identifier is `Settled` when what is read for it is the state of the rows that have it, and
`Covered` when it is at most that; every statement that touches the tables has a lemma on both.
-/

import Mathlib.Data.Finset.Lattice.Basic
import Mathlib.Data.Prod.Lex
import Mathlib.Order.Lattice.Nat
import Mathlib.Order.WithBot
import Trail.Library.Aggregates
import Trail.Retention.Scan

namespace Trail.ClickHouse

open Library Storage
open Retention (RowKey rowKey)

/-! ### States -/

/-- A string as it is compared, byte by byte. -/
def Ordered := GoString

instance : LinearOrder Ordered :=
  LinearOrder.lift' (fun text : GoString => text.map UInt8.toNat)
    (Function.Injective.list_map fun _ _ => UInt8.toNat_inj.mp)

/-- `AggregateFunction(min, DateTime64)`. -/
abbrev MinState := WithBot Timeᵒᵈ

/-- `AggregateFunction(max, DateTime64)`. -/
abbrev MaxState := WithBot Time

/-- `AggregateFunction(argMax, String, Tuple(DateTime64, FixedString(16)))`: the greatest time and
identifier so far, with the value of its event. -/
abbrev ArgMaxState := WithBot (Lex (RowKey × Ordered))

/-- `AggregateFunction(argMin, …)`. -/
abbrev ArgMinState := WithBot (Lex (RowKeyᵒᵈ × Ordered))

/-- `AggregateFunction(uniqExact, FixedString(16))`. -/
abbrev UniqExactState := Finset (Bytes 16)

section States

variable (e : EventRecord)

def minState : MinState := (OrderDual.toDual e.timestamp : Timeᵒᵈ)

def maxState : MaxState := (e.timestamp : Time)

/-- `argMaxState(value, tuple(event_time, event_id))`. -/
def argMaxState (value : GoString) : ArgMaxState :=
  (toLex (rowKey e, (value : Ordered)) : Lex (RowKey × Ordered))

/-- `argMaxIfState(value, tuple(event_time, event_id), notEmpty(value))`. -/
def argMaxIfState (value : GoString) : ArgMaxState := if value = [] then ⊥ else argMaxState e value

/-- `argMinState(value, tuple(event_time, event_id))`. -/
def argMinState (value : GoString) : ArgMinState :=
  (toLex (OrderDual.toDual (rowKey e), (value : Ordered)) : Lex (RowKeyᵒᵈ × Ordered))

/-- `uniqExactStateIf(id, id != unhex('00…'))`. -/
def uniqExactStateIf (id : Bytes 16) : UniqExactState := if id = Bytes.zero 16 then ∅ else {id}

end States

/-- The states of `trail_flow_summaries`: `started_at`, `finished_at`, `event_count`, `entity_type`,
`entity_id`, `execution_id`, `status`, `first_kind` and `last_kind`. -/
abbrev FlowState := MinState × MaxState × UniqExactState × ArgMaxState × ArgMaxState × ArgMaxState ×
  ArgMaxState × ArgMinState × ArgMaxState

/-- The selection of `createFlowSummaryView`. -/
def flowSingle (e : EventRecord) : FlowState :=
  (minState e, maxState e, {e.id}, argMaxState e e.entityType, argMaxState e e.entityID,
    argMaxState e e.executionID.1, argMaxIfState e e.flowStatus, argMinState e e.kind,
    argMaxState e e.kind)

/-- The states of `trail_execution_summaries`: `started_at`, `finished_at`, `event_count`, `flow_count`,
`kind`, `source`, `status`, `attempt`, `parent_execution_id` and `retry_of_execution_id`. -/
abbrev ExecutionState := MinState × MaxState × UniqExactState × UniqExactState × ArgMaxState ×
  ArgMaxState × ArgMaxState × WithBot Nat × ArgMaxState × ArgMaxState

/-- The selection of `createExecutionSummaryView`. -/
def executionSingle (e : EventRecord) : ExecutionState :=
  (minState e, maxState e, {e.id}, uniqExactStateIf e.flowID, argMaxIfState e e.executionKind,
    argMaxIfState e e.executionSource, argMaxIfState e e.executionStatus,
    (e.executionAttempt.toNat : Nat), argMaxState e e.parentExecutionID.1,
    argMaxState e e.retryOfExecutionID.1)

/-! ### Views -/

/-- The key of a summary table: an identifier, the service and the environment. -/
abbrev SummaryKey := Bytes 16 × GoString × GoString

section View

variable {State : Type} [SemilatticeSup State] [OrderBot State] (idOf : EventRecord → Bytes 16)
  (single : EventRecord → State)

def viewKey (e : EventRecord) : SummaryKey := (idOf e, e.metadata.service, e.metadata.environment)

/-- What the view adds for a block. -/
def viewParts (block : List EventRecord) : List (SummaryKey × State) :=
  groupBy (viewKey idOf) single (block.filter fun e => idOf e ≠ Bytes.zero 16)

/-- The state of the rows of an identifier, in a service and an environment. -/
def summaryOf (rows : List EventRecord) (key : SummaryKey) : State :=
  aggregate single (rows.filter fun e => viewKey idOf e = key)

/-- What is read for an identifier is the state of its rows. -/
def Settled (rows : List EventRecord) (parts : List (SummaryKey × State)) (id : Bytes 16) : Prop :=
  ∀ service environment, merged parts (id, service, environment) =
    summaryOf idOf single rows (id, service, environment)

/-- What is read for an identifier is at most the state of its rows. -/
def Covered (rows : List EventRecord) (parts : List (SummaryKey × State)) (id : Bytes 16) : Prop :=
  ∀ service environment, merged parts (id, service, environment) ≤
    summaryOf idOf single rows (id, service, environment)

variable {idOf single} {rows block : List EventRecord} {parts : List (SummaryKey × State)}
  {id : Bytes 16} {ids : List GoString}

theorem summaryOf_append (key : SummaryKey) :
    summaryOf idOf single (rows ++ block) key =
      summaryOf idOf single rows key ⊔ summaryOf idOf single block key := by
  unfold summaryOf
  rw [List.filter_append, aggregate_append]

theorem summaryOf_congr {other : List EventRecord}
    (left : ∀ e ∈ rows, ∃ e' ∈ other, viewKey idOf e' = viewKey idOf e ∧ single e' = single e)
    (right : ∀ e ∈ other, ∃ e' ∈ rows, viewKey idOf e' = viewKey idOf e ∧ single e' = single e)
    (key : SummaryKey) : summaryOf idOf single rows key = summaryOf idOf single other key := by
  have half : ∀ {first second : List EventRecord},
      (∀ e ∈ first, ∃ e' ∈ second, viewKey idOf e' = viewKey idOf e ∧ single e' = single e) →
      ∀ e ∈ first.filter fun e => viewKey idOf e = key,
        ∃ e' ∈ second.filter fun e => viewKey idOf e = key, single e' = single e := by
    intro first second among e member
    obtain ⟨inside, keyed⟩ := List.mem_filter.mp member
    obtain ⟨e', here, same, state⟩ := among e inside
    refine ⟨e', List.mem_filter.mpr ⟨here, ?_⟩, state⟩
    rwa [same]
  exact aggregate_congr single (half left) (half right)

theorem Settled.congr {other : List EventRecord} {parts' : List (SummaryKey × State)}
    (settled : Settled idOf single rows parts id)
    (read : ∀ key, merged parts' key = merged parts key)
    (same : ∀ key, summaryOf idOf single other key = summaryOf idOf single rows key) :
    Settled idOf single other parts' id := by
  intro service environment
  rw [read, same, settled]

theorem Covered.congr {other : List EventRecord} {parts' : List (SummaryKey × State)}
    (covered : Covered idOf single rows parts id)
    (read : ∀ key, merged parts' key = merged parts key)
    (same : ∀ key, summaryOf idOf single other key = summaryOf idOf single rows key) :
    Covered idOf single other parts' id := by
  intro service environment
  rw [read, same]
  exact covered service environment

theorem filter_viewKey (keep : Bytes 16 → Bool) (kept : keep id = true) (rows : List EventRecord)
    (service environment : GoString) :
    ((rows.filter fun e => keep (idOf e)).filter fun e => viewKey idOf e = (id, service, environment)) =
      rows.filter fun e => viewKey idOf e = (id, service, environment) := by
  rw [List.filter_filter]
  refine List.filter_congr fun e _ => ?_
  by_cases same : viewKey idOf e = (id, service, environment)
  · have named : idOf e = id := congrArg Prod.fst same
    simp [same, named, kept]
  · simp [same]

theorem merged_viewParts (nonzero : id ≠ Bytes.zero 16) (service environment : GoString) :
    merged (parts ++ viewParts idOf single block) (id, service, environment) =
      merged parts (id, service, environment) ⊔
        summaryOf idOf single block (id, service, environment) := by
  unfold viewParts summaryOf
  rw [merged_append_groupBy, filter_viewKey (fun id => id ≠ Bytes.zero 16) (by simpa using nonzero)]

/-- **The view keeps an identifier settled.** -/
theorem Settled.insert (settled : Settled idOf single rows parts id) (nonzero : id ≠ Bytes.zero 16) :
    Settled idOf single (rows ++ block) (parts ++ viewParts idOf single block) id := by
  intro service environment
  rw [merged_viewParts nonzero, summaryOf_append, settled]

theorem Covered.insert (covered : Covered idOf single rows parts id) (nonzero : id ≠ Bytes.zero 16) :
    Covered idOf single (rows ++ block) (parts ++ viewParts idOf single block) id := by
  intro service environment
  rw [merged_viewParts nonzero, summaryOf_append]
  exact sup_le_sup_right (covered service environment) _

end View

end Trail.ClickHouse
