/-
**Summaries and their rebuild tasks.**

`Sound` says that every summary is that of the events in the table, or its task is pending. What is
ingested and what ClickHouse merges keep it (`Sound.undisturbed`).
-/

import Trail.ClickHouse.Retention
import Trail.Retention.Scan

namespace Trail.Warehouse

open Library Payload Storage
open ClickHouse (SummaryKey viewKey summaryOf viewParts flowSingle executionSingle FlowState
  ExecutionState)
open Retention (Adapter)

/-! ### Summaries by kind -/

/-- The identifier of an event that a kind of summary is about. -/
def Kind.idOf : Kind → EventRecord → Bytes 16
  | .flow => EventRecord.flowID
  | .execution => EventRecord.executionID

namespace Tables

/-- **The merged row of an identifier is the aggregate of the events in the table**, in every service and
environment. -/
def Settled (tables : Tables) : Kind → Bytes 16 → Prop
  | .flow => ClickHouse.Settled EventRecord.flowID flowSingle tables.events tables.flowSummaries
  | .execution =>
    ClickHouse.Settled EventRecord.executionID executionSingle tables.events tables.executionSummaries

/-- The merged row of an identifier is at most the aggregate of the events in the table. -/
def Covered (tables : Tables) : Kind → Bytes 16 → Prop
  | .flow => ClickHouse.Covered EventRecord.flowID flowSingle tables.events tables.flowSummaries
  | .execution =>
    ClickHouse.Covered EventRecord.executionID executionSingle tables.events tables.executionSummaries

end Tables

section Effects

variable {tables : Tables} {kind other : Kind} {id : Bytes 16} {ids : List GoString}

theorem Tables.Settled.insertEvents (settled : tables.Settled kind id) (nonzero : id ≠ Bytes.zero 16)
    (block : List EventRecord) : (tables.insertEvents block).Settled kind id := by
  cases kind <;> exact ClickHouse.Settled.insert settled nonzero

theorem Tables.Covered.insertEvents (covered : tables.Covered kind id) (nonzero : id ≠ Bytes.zero 16)
    (block : List EventRecord) : (tables.insertEvents block).Covered kind id := by
  cases kind <;> exact ClickHouse.Covered.insert covered nonzero

end Effects

/-! ### Names -/

section Names

variable {names : EventID → EventRecord}

theorem Names.same {e other : EventRecord} (named : Names names e) (also : Names names other)
    (ids : e.id = other.id) :
    viewKey EventRecord.flowID e = viewKey EventRecord.flowID other ∧
      flowSingle e = flowSingle other ∧
      viewKey EventRecord.executionID e = viewKey EventRecord.executionID other ∧
      executionSingle e = executionSingle other := by
  unfold Names at named also
  rw [named, also, ids]
  exact ⟨rfl, rfl, rfl, rfl⟩

/-- A task for a flow or an execution that some event has. -/
def Touched (names : EventID → EventRecord) (task : Task) : Prop :=
  ∃ id, task.kind.idOf (names id) ≠ Bytes.zero 16 ∧ task.identity = (task.kind.idOf (names id)).1

/-- **Every summary is right, or its task is pending.** -/
structure Sound (names : EventID → EventRecord) (tables : Tables) : Prop where
  named : ∀ e ∈ tables.events, Names names e
  tasks : ∀ task ∈ tables.rebuilds, Touched names task
  right : ∀ kind id, id ≠ Bytes.zero 16 → tables.Settled kind id ∨ ⟨kind, id.1⟩ ∈ tables.rebuilds

/-- What the moves of others keep. -/
structure Undisturbed (names : EventID → EventRecord) (tables later : Tables) : Prop where
  rebuilds : later.rebuilds = tables.rebuilds
  named : ∀ e ∈ later.events, Names names e
  settled : ∀ kind id, id ≠ Bytes.zero 16 → tables.Settled kind id → later.Settled kind id
  covered : ∀ kind id, id ≠ Bytes.zero 16 → tables.Covered kind id → later.Covered kind id

theorem undisturbed_mergeEvents {tables : Tables} {rows : List EventRecord}
    (named : ∀ e ∈ tables.events, Names names e) (merges : MergesEvents tables.events rows) :
    Undisturbed names tables { tables with events := rows } := by
  obtain ⟨fewer, kept⟩ := merges
  have left : ∀ e ∈ rows, ∃ e' ∈ tables.events, Names names e ∧ Names names e' ∧ e'.id = e.id :=
    fun e member => ⟨e, fewer e member, named e (fewer e member), named e (fewer e member), rfl⟩
  have right : ∀ e ∈ tables.events, ∃ e' ∈ rows, Names names e ∧ Names names e' ∧ e'.id = e.id := by
    intro e member
    obtain ⟨e', here, same⟩ := kept e member
    exact ⟨e', here, named e member, named e' (fewer e' here), same⟩
  have flows : ∀ key, summaryOf EventRecord.flowID flowSingle rows key =
      summaryOf EventRecord.flowID flowSingle tables.events key := by
    refine ClickHouse.summaryOf_congr (fun e member => ?_) (fun e member => ?_)
    · obtain ⟨e', here, one, two, same⟩ := left e member
      exact ⟨e', here, (two.same one same).1, (two.same one same).2.1⟩
    · obtain ⟨e', here, one, two, same⟩ := right e member
      exact ⟨e', here, (two.same one same).1, (two.same one same).2.1⟩
  have executions : ∀ key, summaryOf EventRecord.executionID executionSingle rows key =
      summaryOf EventRecord.executionID executionSingle tables.events key := by
    refine ClickHouse.summaryOf_congr (fun e member => ?_) (fun e member => ?_)
    · obtain ⟨e', here, one, two, same⟩ := left e member
      exact ⟨e', here, (two.same one same).2.2.1, (two.same one same).2.2.2⟩
    · obtain ⟨e', here, one, two, same⟩ := right e member
      exact ⟨e', here, (two.same one same).2.2.1, (two.same one same).2.2.2⟩
  refine ⟨rfl, fun e member => named e (fewer e member), fun kind id _ settled => ?_,
    fun kind id _ covered => ?_⟩
  · cases kind
    · exact ClickHouse.Settled.congr settled (fun _ => rfl) flows
    · exact ClickHouse.Settled.congr settled (fun _ => rfl) executions
  · cases kind
    · exact ClickHouse.Covered.congr covered (fun _ => rfl) flows
    · exact ClickHouse.Covered.congr covered (fun _ => rfl) executions

/-- **Others disturb no summary.** -/
theorem Sound.undisturbed {tables later : Tables} {action : Move} (sound : Sound names tables)
    (moved : move names tables action = some later) : Undisturbed names tables later := by
  cases action with
  | ingest block =>
    obtain ⟨fits, same⟩ := Option.ite_none_right_eq_some.mp moved
    cases same
    refine ⟨rfl, fun e member => ?_, fun kind id nonzero settled => ?_,
      fun kind id nonzero covered => ?_⟩
    · rcases List.mem_append.mp member with old | new
      · exact sound.named e old
      · exact fits e new
    · exact settled.insertEvents nonzero block
    · exact covered.insertEvents nonzero block
  | mergeEvents rows =>
    obtain ⟨merges, same⟩ := Option.ite_none_right_eq_some.mp moved
    cases same
    exact undisturbed_mergeEvents sound.named merges
  | mergeFlows first second =>
    obtain ⟨parts, done, rfl⟩ := Option.map_eq_some_iff.mp moved
    refine ⟨rfl, sound.named, fun kind id _ settled => ?_, fun kind id _ covered => ?_⟩
    · cases kind
      · exact ClickHouse.Settled.congr settled (merged_mergeParts done) fun _ => rfl
      · exact settled
    · cases kind
      · exact ClickHouse.Covered.congr covered (merged_mergeParts done) fun _ => rfl
      · exact covered
  | mergeExecutions first second =>
    obtain ⟨parts, done, rfl⟩ := Option.map_eq_some_iff.mp moved
    refine ⟨rfl, sound.named, fun kind id _ settled => ?_, fun kind id _ covered => ?_⟩
    · cases kind
      · exact settled
      · exact ClickHouse.Settled.congr settled (merged_mergeParts done) fun _ => rfl
    · cases kind
      · exact covered
      · exact ClickHouse.Covered.congr covered (merged_mergeParts done) fun _ => rfl

end Names

end Trail.Warehouse
