/-
**Live or archived.**

Whatever the processes of a deployment do, in any order and however they end, an event that was ever
committed is a row of `trail_events` or stands in an archive of the catalogue: the one that
`trail_event_archives` named when the row was deleted.

The adapter is followed program by program (`carryOut_obeys`); the engine's own discipline, that it
records only what it has written, is carried down through it (`program_obeys`).
-/

import Trail.Postgres.Invariant
import Trail.Retention.ArchiveFirst

namespace Trail.Postgres

open Library Payload Storage Archive
open Retention (DeleteRequest DeleteResult EventPayload Times)

/-! ### What the programs do -/

section Programs

variable (json : Json) {history : List signature.Exchange}

theorem execAll_obeys (statements : List Statement)
    (plain : ∀ statement ∈ statements, ∀ history, Permitted history (.exec statement)) :
    (execAll statements).Obeys Permitted history fun _ _ => True := by
  induction statements generalizing history with
  | nil => trivial
  | cons statement statements ih =>
    refine ⟨plain statement (List.mem_cons_self ..) history, fun reply => ?_⟩
    rcases reply with error | rows
    · trivial
    · exact ih fun other member => plain other (List.mem_cons_of_mem _ member)

theorem giveUp_obeys {α : Type} (value : α) :
    (giveUp value).Obeys Permitted history fun _ _ => True :=
  ⟨trivial, fun _ => trivial⟩

theorem writeBatches_obeys (batches : List Storage.Batch) :
    (writeBatches json batches).Obeys Permitted history fun _ _ => True := by
  unfold writeBatches
  split
  · trivial
  · refine ⟨trivial, fun reply => ?_⟩
    rcases reply with _ | error
    · dsimp only
      split
      · exact giveUp_obeys _
      · refine Prog.obeys_bind ((execAll_obeys _ ?_).mono ?_)
        · intro statement member history
          obtain ⟨e, _, rfl⟩ := List.mem_map.mp member
          trivial
        · rintro later (_ | error) _
          · exact ⟨trivial, fun _ => trivial⟩
          · exact giveUp_obeys _
    · trivial

theorem restoreArchiveEvents_obeys (archiveID : GoString) (events : List EventRecord) :
    (restoreArchiveEvents json archiveID events).Obeys Permitted history fun _ _ => True := by
  unfold restoreArchiveEvents
  split
  · trivial
  · refine Prog.obeys_bind ((writeBatches_obeys json _).mono ?_)
    rintro later (_ | error) _ <;> trivial

theorem completePayloadCandidate_obeys (ref : Ref) (failure : GoString) :
    (completePayloadCandidate ref failure).Obeys Permitted history fun _ _ => True := by
  unfold completePayloadCandidate
  split
  · exact execAll_obeys _ fun statement member _ => by
      rw [List.mem_singleton.mp member]
      trivial
  · exact execAll_obeys _ fun statement member _ => by
      rw [List.mem_singleton.mp member]
      trivial

/-- The events of a manifest are mapped to the archive that the transaction has inserted. -/
theorem recordEvents_obeys {receipt : Receipt} {receipts : List Receipt} (ids : List GoString)
    (listed : ids ⊆ receipt.manifest.eventIDs) (opened : openTx history = some receipts)
    (inserted : receipt ∈ receipts) :
    (recordEvents receipt.manifest.id ids).Obeys Permitted history fun _ _ => True := by
  induction ids generalizing history with
  | nil => trivial
  | cons id ids ih =>
    unfold recordEvents
    split
    · trivial
    · rename_i parsed parses
      refine ⟨⟨receipts, opened, receipt, inserted, rfl, id, listed (List.mem_cons_self ..), parsed,
        parses, rfl⟩, fun reply => ?_⟩
      rcases reply with error | rows
      · trivial
      · refine ih (fun other member => listed (List.mem_cons_of_mem _ member)) ?_
        rw [openTx_snoc]
        exact opened

theorem recordArchive_obeys {receipt : Receipt}
    (written : ∃ records, (⟨.outside (.write records), .ok receipt⟩ : signature.Exchange) ∈ history) :
    (recordArchive json receipt).Obeys Permitted history fun _ _ => True := by
  obtain ⟨records, written⟩ := written
  unfold recordArchive
  split
  · trivial
  · refine ⟨trivial, fun reply => ?_⟩
    rcases reply with _ | error
    · have opened : openTx (history ++ [⟨.beginTx, (none : Option GoError)⟩]) = some [] :=
        openTx_snoc _ _
      refine ⟨⟨by rw [opened]; rfl, records, List.mem_append_left _ written⟩, fun reply => ?_⟩
      rcases reply with error | rows
      · exact giveUp_obeys _
      · have inserted : openTx ((history ++ [⟨.beginTx, (none : Option GoError)⟩]) ++
            [⟨.exec (.insertArchive receipt), .ok rows⟩]) = some [receipt] := by
          rw [openTx_snoc, opened]
          rfl
        refine Prog.obeys_bind ((recordEvents_obeys _ (List.Subset.refl _) inserted
          (List.mem_singleton_self _)).mono ?_)
        · rintro later (_ | error) _
          · exact ⟨trivial, fun _ => trivial⟩
          · exact giveUp_obeys _
    · trivial

theorem stagePayloads_obeys (archiveID : GoString) (times : Times) (payloads : List EventPayload)
    (seen : Finset GoString) (staged : UInt64) (opened : openTx history = some []) :
    (stagePayloads json archiveID times payloads seen staged).Obeys Permitted history
      fun later _ => openTx later = some [] := by
  induction payloads generalizing seen staged history with
  | nil => exact opened
  | cons p payloads ih =>
    unfold stagePayloads
    split
    · exact ih seen staged opened
    split
    · exact ih seen staged opened
    split
    · exact opened
    · refine ⟨trivial, fun reply => ?_⟩
      have still : openTx (history ++ [⟨.exec (.insertCandidate p.ref _ archiveID), reply⟩]) =
          some [] := by
        rw [openTx_snoc]
        exact opened
      rcases reply with error | rows
      · exact still
      · exact ih _ _ still

theorem deleteCovered_obeys (request : DeleteRequest) (staged : UInt64)
    (opened : openTx history = some []) :
    (deleteCovered request staged).Obeys Permitted history fun _ _ => True := by
  unfold deleteCovered
  split
  · exact giveUp_obeys _
  · rename_i ids decoded
    refine ⟨opened, fun reply => ?_⟩
    rcases reply with error | archived
    · exact giveUp_obeys _
    · dsimp only
      split
      · exact giveUp_obeys _
      · rename_i all
        rw [not_not] at all
        subst all
        refine ⟨⟨?_, request.archiveID, List.mem_append_right _ (List.mem_singleton_self _)⟩,
          fun reply => ?_⟩
        · rw [openTx_snoc]
          show (openTx history).isSome = true
          rw [opened]
          rfl
        · rcases reply with error | rows
          · exact giveUp_obeys _
          · refine ⟨trivial, fun reply => ?_⟩
            rcases reply with _ | error <;> trivial

theorem deleteRetentionEvents_obeys (request : DeleteRequest) :
    (deleteRetentionEvents json request).Obeys Permitted history fun _ _ => True := by
  unfold deleteRetentionEvents
  split
  · trivial
  split
  · trivial
  split
  · trivial
  · refine ⟨trivial, fun reply => ?_⟩
    rcases reply with _ | error
    · refine Prog.obeys_bind ((stagePayloads_obeys json _ _ _ _ _ (openTx_snoc _ _)).mono ?_)
      rintro later ⟨staged, _ | error⟩ opened
      · exact deleteCovered_obeys request staged opened
      · exact giveUp_obeys _
    · trivial

/-- Every receipt that the engine got, the adapter got. -/
def Linked (above : List Retention.signature.Exchange) (below : List signature.Exchange) : Prop :=
  ∀ records receipt, (⟨.write records, .ok receipt⟩ : Retention.signature.Exchange) ∈ above →
    (⟨.outside (.write records), .ok receipt⟩ : signature.Exchange) ∈ below

/-- **The adapter keeps to what is permitted**, for an engine that records only what it has
written. -/
theorem carryOut_obeys (engine : Retention.Engine) (dryRun : Bool)
    {above : List Retention.signature.Exchange} {below : List signature.Exchange}
    (op : Retention.Call) (linked : Linked above below) (allowed : engine.Allowed dryRun above op) :
    (carryOut json op).Obeys Permitted below fun later reply =>
      Linked (above ++ [⟨op, reply⟩]) later := by
  -- a call that returns no receipt
  have plain : ∀ {program : Prog signature op.Reply}, (∀ records, op ≠ .write records) →
      program.Obeys Permitted below (fun _ _ => True) →
      program.Obeys Permitted below fun later reply => Linked (above ++ [⟨op, reply⟩]) later := by
    intro program other obeys
    refine obeys.longer.mono ?_
    rintro later reply ⟨longer, _⟩ records receipt member
    rcases List.mem_append.mp member with old | new
    · exact longer.subset (linked records receipt old)
    · cases List.mem_singleton.mp new
      exact absurd rfl (other records)
  cases op with
  | reconcileRetention => exact plain (fun _ => Retention.Call.noConfusion) trivial
  | loadArchiveEvents events =>
    refine plain (fun _ => Retention.Call.noConfusion) ?_
    show (loadArchiveEvents events).Obeys Permitted below fun _ _ => True
    unfold loadArchiveEvents
    split
    · trivial
    · exact ⟨trivial, fun _ => trivial⟩
  | recordArchive receipt =>
    obtain ⟨_, records, written⟩ := allowed
    refine plain (fun _ => Retention.Call.noConfusion) (recordArchive_obeys json ?_)
    exact ⟨records, linked records receipt written⟩
  | deleteRetentionEvents request =>
    exact plain (fun _ => Retention.Call.noConfusion) (deleteRetentionEvents_obeys json request)
  | completePayloadCandidate ref failure =>
    exact plain (fun _ => Retention.Call.noConfusion) (completePayloadCandidate_obeys ref failure)
  | write records =>
    refine ⟨trivial, fun reply other receipt member => ?_⟩
    rcases List.mem_append.mp member with old | new
    · exact List.mem_append_left _ (linked other receipt old)
    · cases List.mem_singleton.mp new
      exact List.mem_append_right _ (List.mem_singleton_self _)
  | _ => exact plain (fun _ => Retention.Call.noConfusion) ⟨trivial, fun _ => trivial⟩

/-- **Every process keeps to what is permitted.** -/
theorem program_obeys (job : Job) :
    (job.program json).Obeys Permitted [] fun _ _ => True := by
  cases job with
  | ingest batches =>
    exact Prog.obeys_bind ((writeBatches_obeys json batches).mono fun _ _ _ => trivial)
  | restore archiveID events =>
    exact Prog.obeys_bind ((restoreArchiveEvents_obeys json archiveID events).mono
      fun _ _ _ => trivial)
  | retain engine dryRun =>
    refine Prog.obeys_bind (((Retention.run_obeys engine dryRun).through Linked ?_ ?_).mono
      fun _ _ _ => trivial)
    · exact fun above below op linked allowed => carryOut_obeys json engine dryRun op linked allowed
    · exact fun records receipt member => (List.not_mem_nil member).elim

end Programs

/-! ### Every interleaving -/

/-- The threads of a deployment keep the invariant. -/
def discipline (digest : List EventRecord → GoString) : (service digest).Discipline where
  allow := Permitted
  good := Good digest
  knows := Knows digest
  grows := Grows
  stable := Knows.grows
  answer := good_respond
  start := {
    archives := fun _ _ here => by cases here
    mappings := fun _ _ here => by cases here
    unique := fun _ _ _ _ here => by cases here
    live := fun _ member => (Finset.notMem_empty _ member).elim }
  fresh := fun world => ⟨fun _ member => (List.not_mem_nil member).elim, trivial⟩

/-- **Live or archived.** In every state that any interleaving of ingest writes, redeliveries,
restores, retention runs and crashes reaches, an event identifier that was ever committed is a row
of `trail_events`, or stands in the event object of a recorded archive, the one that
`trail_event_archives` named at the moment the row was deleted. -/
theorem live_or_archived (digest : List EventRecord → GoString) (json : Json) {trace : List Empty}
    {state : (service digest).State}
    (reach : ((service digest).machine (Job.program json)).Reaches trace state) {id : ByteA}
    (committed : id ∈ (state.world : World).committed) :
    id ∈ (state.world : World).tables.events ∨
      ∃ archiveID, (state.world : World).deletedUnder id = some archiveID ∧
        World.Archived state.world archiveID id := by
  obtain ⟨good, _⟩ := (discipline digest).holds (program_obeys json) reach
  exact Good.live good id committed

/-! ### A run that archives and deletes an event -/

def expiredEvent : Retention.Event :=
  { id := Hex.encodeToString Retention.expiredRecord.id.1, timestamp := 5 }

/-- The SHA-256 digest of the only line of the event object. -/
def expiredDigest : GoString :=
  ascii "6f74fe9dc245caf117971bbbecb36db9360774cd9df0da7038f128344ddd6e51"

def expiredReceipt : Receipt where
  manifest := ⟨Archive.version, expiredDigest, 10, 1, [encodeID Retention.expiredRecord.id],
    { store := ascii "cold", key := expiredDigest ++ ascii ".gz" }, []⟩
  manifestRef := { store := ascii "cold", key := ascii "manifest" }

/-- The scan finds the event, and the archiver writes it. -/
def replies : (op : Retention.Call) → op.Reply
  | .scanRetentionEvents _ => .ok ⟨[expiredEvent], [], false⟩
  | .write _ => .ok expiredReceipt
  | op => Retention.obliging op

def writable : Json := ⟨fun _ => none, fun _ => none, fun _ => none, fun _ => none⟩

def digestOf (records : List EventRecord) : GoString :=
  if records = [Retention.expiredRecord] then expiredDigest else []

/-- An ingest write, the end of that process, and a retention run up to the commit of its
deletion. -/
def archivedRun : List ((service digestOf).Action Job) :=
  [.spawn (.ingest [⟨Bytes.zero 16, ⟨[], [], []⟩, {}, [Retention.expiredRecord]⟩])] ++
  List.replicate 3 (.step 0 (Choice.done 9)) ++
  [.crash 0, .spawn (.retain Retention.shortEngine false)] ++
  List.replicate 3 (.step 0 (Choice.answered replies)) ++
  [.step 0 (Choice.done 10), .step 0 (Choice.answered replies)] ++
  List.replicate 8 (.step 0 (Choice.done 10))

theorem live_or_archived_run : ∃ (trace : List Empty) (state : (service digestOf).State),
    ((service digestOf).machine (Job.program writable)).Reaches trace state ∧
    Retention.expiredRecord.id.1 ∉ (state.world : World).tables.events ∧
    ∃ archiveID, (state.world : World).deletedUnder Retention.expiredRecord.id.1 = some archiveID ∧
      World.Archived state.world archiveID Retention.expiredRecord.id.1 := by
  have ran : (((service digestOf).machine (Job.program writable)).exec ⟨{}, []⟩ archivedRun).map
      (fun last => decide (Retention.expiredRecord.id.1 ∈ (last.2.world : World).committed ∧
        Retention.expiredRecord.id.1 ∉ (last.2.world : World).tables.events)) = some true := by
    decide
  obtain ⟨⟨trace, state⟩, done, shown⟩ := Option.map_eq_some_iff.mp ran
  obtain ⟨committed, gone⟩ := of_decide_eq_true shown
  have reach : ((service digestOf).machine (Job.program writable)).Reaches trace state :=
    Machine.exec_runs done
  exact ⟨trace, state, reach, gone,
    (live_or_archived digestOf writable reach committed).resolve_left gone⟩

end Trail.Postgres
