/-
**Archive before delete.**

A run is checked against what it may do after each history of exchanges (`Allowed`): events are
deleted only directly after they were loaded, written to an archive and recorded in the catalogue,
and nothing is deleted once a call of this sequence has failed. `run_obeys` follows the program;
`archive_before_delete` reads the result off the traces.

* `sameArchiveEvents_iff`: the export check accepts exactly the records of the eligible events, each
  once.
* `sweep_due`: the eligible events of a page have expired at the start of the run.
-/

import Trail.Retention.Engine

namespace Trail.Retention

open Library Payload Storage Archive

/-! ### The export check -/

/-- The identifier of a record as the store writes it. -/
def recordID (record : EventRecord) : GoString := Hex.encodeToString record.id.1

theorem takeAll_eq_some_iff (want rest : Finset GoString) (records : List EventRecord) :
    takeAll want records = some rest ↔ (records.map recordID).Nodup ∧
      (∀ id ∈ records.map recordID, id ∈ want) ∧ rest = want \ (records.map recordID).toFinset := by
  induction records generalizing want with
  | nil =>
    constructor
    · rintro same
      cases same
      simp
    · rintro ⟨_, _, rfl⟩
      simp [takeAll]
  | cons record records ih =>
    have unfolded : takeAll want (record :: records) =
        if recordID record ∈ want then takeAll (want.erase (recordID record)) records else none := rfl
    rw [unfolded]
    by_cases wanted : recordID record ∈ want
    · rw [if_pos wanted, ih]
      constructor
      · rintro ⟨distinct, within, rfl⟩
        refine ⟨List.nodup_cons.mpr ⟨fun member => ?_, distinct⟩, ?_, ?_⟩
        · exact (Finset.mem_erase.mp (within _ member)).1 rfl
        · intro id member
          rcases List.mem_cons.mp member with rfl | later
          · exact wanted
          · exact (Finset.mem_erase.mp (within id later)).2
        · ext id
          simp only [Finset.mem_sdiff, Finset.mem_erase, List.map_cons, List.toFinset_cons,
            Finset.mem_insert]
          tauto
      · rintro ⟨distinct, within, rfl⟩
        obtain ⟨fresh, distinct⟩ := List.nodup_cons.mp distinct
        refine ⟨distinct, fun id member => Finset.mem_erase.mpr ⟨?_, ?_⟩, ?_⟩
        · rintro rfl
          exact fresh member
        · exact within id (List.mem_cons_of_mem _ member)
        · ext id
          simp only [Finset.mem_sdiff, Finset.mem_erase, List.map_cons, List.toFinset_cons,
            Finset.mem_insert]
          tauto
    · rw [if_neg wanted]
      constructor
      · intro same
        cases same
      · rintro ⟨_, within, _⟩
        exact absurd (within _ (List.mem_cons_self ..)) wanted

/-- **The export check**: the wanted identifiers are distinct and the records have exactly these. -/
theorem sameArchiveEvents_iff (records : List EventRecord) (eligible : List Event) :
    sameArchiveEvents records eligible = true ↔
      (eligible.map paddedID).Nodup ∧ (records.map recordID).Perm (eligible.map paddedID) := by
  simp only [sameArchiveEvents, decide_eq_true_eq, takeAll_eq_some_iff]
  constructor
  · rintro ⟨length, distinct, within, nothing⟩
    have same : (records.map recordID).toFinset = (eligible.map paddedID).toFinset := by
      refine Finset.Subset.antisymm ?_ (Finset.sdiff_eq_empty_iff_subset.mp nothing.symm)
      intro id member
      exact within id (List.mem_toFinset.mp member)
    have card : (eligible.map paddedID).toFinset.card = (eligible.map paddedID).length := by
      rw [← same, List.toFinset_card_of_nodup distinct, List.length_map, List.length_map, length]
    have unique : (eligible.map paddedID).Nodup :=
      Multiset.coe_nodup.mp (Multiset.toFinset_card_eq_card_iff_nodup.mp card)
    exact ⟨unique, List.perm_of_nodup_nodup_toFinset_eq distinct unique same⟩
  · rintro ⟨unique, perm⟩
    refine ⟨by simpa using perm.length_eq, perm.nodup_iff.mpr unique, fun id member => ?_, ?_⟩
    · exact List.mem_toFinset.mpr (perm.mem_iff.mp member)
    · rw [List.toFinset_eq_of_perm _ _ perm, Finset.sdiff_self]

/-- **The export check is exact**: it accepts the records whose identifiers are a permutation of the
padded identifiers of distinct eligible events, so none of them is missing, foreign or repeated. -/
theorem export_check_exact (records : List EventRecord) (eligible : List Event) :
    (sameArchiveEvents records eligible = true ↔
      (eligible.map paddedID).Nodup ∧
        (records.map fun record => Hex.encodeToString record.id.1).Perm (eligible.map paddedID)) ∧
    (sameArchiveEvents records eligible = true →
      (∀ event ∈ eligible, ∃ record ∈ records, Hex.encodeToString record.id.1 = paddedID event) ∧
      (∀ record ∈ records, ∃ event ∈ eligible, paddedID event = Hex.encodeToString record.id.1) ∧
      (records.map (·.id)).Nodup) := by
  refine ⟨sameArchiveEvents_iff records eligible, fun accepted => ?_⟩
  obtain ⟨unique, perm⟩ := (sameArchiveEvents_iff records eligible).mp accepted
  refine ⟨fun event member => ?_, fun record member => ?_, ?_⟩
  · exact List.mem_map.mp (perm.mem_iff.mpr (List.mem_map_of_mem member))
  · exact List.mem_map.mp (perm.mem_iff.mp (List.mem_map_of_mem member))
  · refine List.Nodup.of_map (fun id : Bytes 16 => Hex.encodeToString id.1) ?_
    rw [List.map_map]
    exact perm.nodup_iff.mpr unique

/-! ### The discipline -/

/-- A call of the archive-and-delete sequence that failed. -/
def Failed (exchange : signature.Exchange) : Prop :=
  match exchange with
  | ⟨.reconcileRetention, reply⟩ => reply ≠ (none : Option GoError)
  | ⟨.scanRetentionEvents _, reply⟩ => ∃ error, reply = Except.error error
  | ⟨.loadArchiveEvents _, reply⟩ => ∃ error, reply = Except.error error
  | ⟨.write _, reply⟩ => ∃ error, reply = Except.error error
  | ⟨.recordArchive _, reply⟩ => reply ≠ (none : Option GoError)
  | ⟨.deleteRetentionEvents _, reply⟩ => reply.2 ≠ none
  | _ => False

/-- Every event has matched a policy and expired at the start of the run. -/
def Engine.Due (engine : Engine) (start : Time) (events : List Event) : Prop :=
  ∀ event ∈ events, ∃ expiry, engine.eventExpiry event = some expiry ∧ expiry ≤ start

/-- The last three exchanges of the history loaded exactly the events of the request, archived what
was loaded, and recorded that archive under the identifier of the request. -/
def JustArchived (history : List signature.Exchange) (request : DeleteRequest) : Prop :=
  ∃ (earlier : List signature.Exchange) (records : List EventRecord) (receipt : Receipt),
    history = earlier ++ [⟨.loadArchiveEvents request.events, .ok records⟩,
      ⟨.write records, .ok receipt⟩, ⟨.recordArchive receipt, none⟩] ∧
    (request.events.map paddedID).Nodup ∧
    (records.map recordID).Perm (request.events.map paddedID) ∧
    request.archiveID = receipt.manifest.id

/-- Nothing has failed since the run read its start from the clock. -/
def Clean (start : Time) (history : List signature.Exchange) : Prop :=
  history.head? = some ⟨.now, start⟩ ∧ ∀ exchange ∈ history, ¬ Failed exchange

/-- What a run may call after a history. -/
def Engine.Allowed (engine : Engine) (dryRun : Bool) (history : List signature.Exchange) :
    Call → Prop
  | .deleteRetentionEvents request => request.dryRun = dryRun ∧
      (∃ start, Clean start history ∧ engine.Due start request.events) ∧
      (dryRun = false → JustArchived history request)
  | .delete _ => dryRun = false ∧ ∃ start, Clean start history
  | .recordArchive receipt => dryRun = false ∧
      ∃ records, (⟨.write records, .ok receipt⟩ : signature.Exchange) ∈ history
  | .reconcileRetention | .loadArchiveEvents _ | .write _ | .completePayloadCandidate _ _ =>
    dryRun = false
  | _ => True

theorem Clean.snoc {start : Time} {history : List signature.Exchange} (clean : Clean start history)
    (exchange : signature.Exchange) (fine : ¬ Failed exchange) :
    Clean start (history ++ [exchange]) := by
  obtain ⟨head, none⟩ := clean
  refine ⟨?_, fun other member => ?_⟩
  · rw [List.head?_append, head]
    rfl
  · rcases List.mem_append.mp member with old | new
    · exact none other old
    · rwa [List.mem_singleton.mp new]

section Follow

variable (engine : Engine) (dryRun : Bool) {start : Time} {history : List signature.Exchange}

/-- **The eligible events of a page are due.** -/
theorem sweep_due (events : List Event) (result : Result) :
    engine.Due start (engine.sweep start events result).eligible := by
  have fold : ∀ (events : List Event) (sweep : Sweep), engine.Due start sweep.eligible →
      engine.Due start (events.foldl (engine.sweepEvent start) sweep).eligible := by
    intro events
    induction events with
    | nil => exact fun sweep due => due
    | cons event events ih =>
      intro sweep due
      refine ih _ ?_
      unfold Engine.sweepEvent
      split
      · exact due
      · rename_i expiry matched
        dsimp only
        split
        · rename_i expired
          intro other member
          rcases List.mem_append.mp member with old | new
          · exact due other old
          · rw [List.mem_singleton.mp new]
            exact ⟨expiry, matched, expired⟩
        · exact due
  exact fold events _ fun event member => by simp at member

/-- Archiving ends in an error, or with the three exchanges that a deletion needs. -/
theorem archiveEvents_obeys (events : List Event) (wet : dryRun = false)
    (clean : Clean start history) :
    (archiveEvents events).Obeys (engine.Allowed dryRun) history fun later outcome =>
      ∀ receipt, outcome = .ok receipt → Clean start later ∧ ∀ times,
        JustArchived later ⟨events, times, receipt.manifest.id, false⟩ := by
  refine ⟨wet, fun reply => ?_⟩
  rcases reply with error | records
  · intro receipt same
    cases same
  · dsimp only
    split
    · rename_i exported
      obtain ⟨distinct, perm⟩ := (sameArchiveEvents_iff records events).mp exported
      refine ⟨wet, fun reply => ?_⟩
      rcases reply with error | receipt
      · intro receipt same
        cases same
      · refine ⟨⟨wet, records, List.mem_append_right _ (List.mem_singleton_self _)⟩, fun reply => ?_⟩
        rcases reply with _ | error
        · intro other same
          cases same
          refine ⟨((clean.snoc _ ?_).snoc _ ?_).snoc _ ?_, fun times => ?_⟩
          · rintro ⟨error, same⟩
            cases same
          · rintro ⟨error, same⟩
            cases same
          · exact fun failed => failed rfl
          · exact ⟨history, records, receipt, by simp, distinct, perm, rfl⟩
        · intro other same
          cases same
    · intro receipt same
      cases same

theorem deletePage_obeys (sweep : Sweep) (dryPayloads : Finset GoString)
    (due : engine.Due start sweep.eligible) (clean : Clean start history) :
    (deletePage dryRun sweep dryPayloads).Obeys (engine.Allowed dryRun) history fun later value =>
      ∀ next, value = .ok next → Clean start later := by
  have deleted : ∀ {later : List signature.Exchange} {request : DeleteRequest}
      {reply : DeleteResult × Option GoError} {result : Result} {next : Result × Finset GoString}
      {dryPayloads : Finset GoString}, Clean start later →
      checked result reply.2 dryPayloads = .ok next →
      Clean start (later ++ [⟨.deleteRetentionEvents request, reply⟩]) := by
    intro later request reply result next dryPayloads before same
    exact before.snoc _ fun failed => failed (checked_ok same).1
  unfold deletePage
  split
  · intro next _
    exact clean
  split
  · rename_i dry
    refine ⟨⟨dry.symm, ⟨start, clean, due⟩, fun wet => ?_⟩, fun reply next same => deleted clean same⟩
    rw [dry] at wet
    cases wet
  · rename_i wet
    rw [Bool.not_eq_true] at wet
    refine Prog.obeys_bind ((archiveEvents_obeys engine dryRun sweep.eligible wet clean).mono ?_)
    intro later outcome archived
    cases outcome with
    | error error =>
      intro next same
      cases same
    | ok receipt =>
      obtain ⟨still, justArchived⟩ := archived receipt rfl
      exact ⟨⟨wet.symm, ⟨start, still, due⟩, fun _ => justArchived _⟩,
        fun reply next same => deleted still same⟩

theorem scanLoop_obeys (fuel : Nat) (cursor : GoString) (dryPayloads : Finset GoString)
    (result : Result) (clean : Clean start history) :
    (engine.scanLoop dryRun start fuel cursor dryPayloads result).Obeys (engine.Allowed dryRun)
      history fun later value => ∀ next, value = .ok next → Clean start later := by
  induction fuel generalizing cursor dryPayloads result history with
  | zero => exact fun _ _ => clean
  | succ fuel ih =>
    unfold Engine.scanLoop
    split
    · refine ⟨trivial, fun reply => ?_⟩
      have asked : Clean start (history ++ [⟨.ctxErr, reply⟩]) := clean.snoc _ id
      rcases reply with _ | error
      · refine ⟨trivial, fun reply => ?_⟩
        rcases reply with error | page
        · intro next same
          cases same
        · dsimp only
          have scanned : ¬ Failed ⟨.scanRetentionEvents
              ⟨cursor, engine.scanLimit result.eventsScanned⟩, .ok page⟩ := by
            rintro ⟨error, same⟩
            cases same
          split
          · exact fun _ _ => asked.snoc _ scanned
          · refine Prog.obeys_bind ((deletePage_obeys engine dryRun _ dryPayloads
              (sweep_due engine page.events result) (asked.snoc _ scanned)).mono ?_)
            intro later value cleaned
            cases value with
            | error failure =>
              intro next same
              cases same
            | ok next =>
              dsimp only
              split
              · exact ih _ _ _ (cleaned next rfl)
              · exact fun _ _ => cleaned next rfl
      · exact fun _ _ => asked
    · exact fun _ _ => clean

theorem processCandidate_always (wet : dryRun = false) (c : Candidate) (live : Bool) :
    (engine.processCandidate c live).Always (engine.Allowed dryRun) (Clean start) := by
  have completes : ∀ {lastError : GoString} {next : Option GoError → Prog signature Outcome},
      (∀ reply, (next reply).Always (engine.Allowed dryRun) (Clean start)) →
      (Prog.call (σ := signature) (.completePayloadCandidate c.ref lastError) next).Always
        (engine.Allowed dryRun) (Clean start) :=
    fun rest => ⟨fun _ _ => wet, fun _ _ clean => clean.snoc _ id, rest⟩
  unfold Engine.processCandidate
  split
  · exact completes fun _ => trivial
  split
  · exact completes fun _ => trivial
  split
  · exact completes fun _ => trivial
  · refine ⟨fun _ clean => ⟨wet, start, clean⟩, fun _ _ clean => clean.snoc _ id, fun reply => ?_⟩
    dsimp only
    split
    · exact completes fun _ => trivial
    · refine completes fun reply => ?_
      cases reply <;> trivial

theorem collectLoop_obeys (wet : dryRun = false) (fuel : Nat) (remaining : Int) (result : Result)
    (clean : Clean start history) :
    (engine.collectLoop start fuel remaining result).Obeys (engine.Allowed dryRun) history
      fun later _ => Clean start later := by
  induction fuel generalizing remaining result history with
  | zero => exact clean
  | succ fuel ih =>
    unfold Engine.collectLoop
    split
    · refine ⟨trivial, fun reply => ?_⟩
      have asked : Clean start (history ++ [⟨.ctxErr, reply⟩]) := clean.snoc _ id
      rcases reply with _ | error
      · refine ⟨trivial, fun reply => ?_⟩
        have listed := asked.snoc ⟨.listPayloadCandidates _ _, reply⟩ id
        rcases reply with error | page
        · exact listed
        · dsimp only
          split
          · exact listed
          · refine ⟨trivial, fun reply => ?_⟩
            have referenced := listed.snoc ⟨.referencedPayloads _, reply⟩ id
            rcases reply with error | live
            · exact referenced
            · refine Prog.obeys_bind (Prog.obeys_pool (Clean start) _ _ ?_ ?_ _ _ _ _ ?_
                ?_ referenced)
              · exact fun count history clean => ⟨trivial, fun reply => clean.snoc _ id⟩
              · rintro later ⟨result, _ | error⟩ clean
                · dsimp only
                  split
                  · exact clean
                  · exact ih _ _ clean
                · exact clean
              · intro thread member
                obtain ⟨c, _, rfl⟩ := List.mem_map.mp member
                exact processCandidate_always engine dryRun wet c _
              · intro thread member
                cases member
      · exact ⟨trivial, fun reply => asked.snoc _ id⟩
    · exact ⟨trivial, fun reply => clean.snoc _ id⟩

/-- **A run keeps the discipline.** -/
theorem run_obeys : (engine.run dryRun).Obeys (engine.Allowed dryRun) [] fun _ _ => True := by
  have ends : ∀ {later : List signature.Exchange} (result : Result) (error : Option GoError),
      (finish result error).Obeys (engine.Allowed dryRun) later fun _ _ => True :=
    fun result error => ⟨trivial, fun _ => trivial⟩
  refine ⟨trivial, fun start => ?_⟩
  have clean : Clean start [⟨.now, start⟩] := by
    refine ⟨rfl, fun exchange member => ?_⟩
    rw [List.mem_singleton.mp member]
    exact id
  have scans : ∀ {history : List signature.Exchange} (result : Result), Clean start history →
      ((engine.scanLoop dryRun start (engine.cfg.maxEvents.toNat + 1) [] ∅ result).bind
        (engine.afterScan dryRun start)).Obeys (engine.Allowed dryRun) history fun _ _ => True := by
    intro history result clean
    refine Prog.obeys_bind ((scanLoop_obeys engine dryRun _ [] ∅ result clean).mono ?_)
    intro later value cleaned
    rcases value with ⟨result, error⟩ | result
    · exact ends _ _
    · -- the collection, whose deletions need a clean history
      have still := cleaned result rfl
      have closes : ∀ (later : List signature.Exchange) (total : Result × Option GoError),
          (settle result total).Obeys (engine.Allowed dryRun) later fun _ _ => True := by
        rintro later ⟨collected, _ | error⟩
        · exact ⟨trivial, fun _ => ⟨trivial, fun _ => trivial⟩⟩
        · exact ends _ _
      refine Prog.obeys_bind ?_
      split
      · exact closes later (result, none)
      · rename_i wet
        rw [Bool.not_eq_true] at wet
        exact (collectLoop_obeys engine dryRun wet _ _ result still).mono
          fun later total _ => closes later total
  refine Prog.obeys_bind ?_
  unfold reconcile
  split
  · exact scans _ clean
  · rename_i wet
    rw [Bool.not_eq_true] at wet
    refine ⟨wet, fun reply => ?_⟩
    rcases reply with _ | error
    · exact scans _ (clean.snoc _ fun failed => failed rfl)
    · exact ends _ _

end Follow

/-! ### The traces of a run -/

/-- A deletion of events or of a payload object. -/
def Call.Deletes : Call → Prop
  | .deleteRetentionEvents _ | .delete _ => True
  | _ => False

/-- A call that a dry run may make. -/
def Call.Harmless : Call → Prop
  | .reconcileRetention | .loadArchiveEvents _ | .write _ | .recordArchive _
  | .completePayloadCandidate _ _ | .delete _ => False
  | .deleteRetentionEvents request => request.dryRun = true
  | _ => True

/-- **Archive before delete.** In every trace of every run: a deletion of events comes directly
after the events were loaded without loss or repetition, archived and recorded, and names that
archive; its events matched a policy and had expired at the start of the run; nothing is deleted
after a failed call of the sequence; and a dry run changes nothing. -/
theorem archive_before_delete (engine : Engine) (dryRun : Bool) {trace : List signature.Exchange}
    {outcome : Option (Result × Option GoError)} (ran : (engine.run dryRun).Trace trace outcome) :
    (∀ before request reply after,
      trace = before ++ ⟨.deleteRetentionEvents request, reply⟩ :: after →
      (request.dryRun = false → JustArchived before request) ∧
      ∃ start, trace.head? = some ⟨.now, start⟩ ∧ engine.Due start request.events) ∧
    (∀ before exchange after, trace = before ++ exchange :: after → Failed exchange →
      ∀ later ∈ after, ¬ later.op.Deletes) ∧
    (dryRun = true → ∀ exchange ∈ trace, exchange.op.Harmless) := by
  obtain ⟨allowed, _⟩ := (run_obeys engine dryRun).trace ran
  simp only [List.nil_append] at allowed
  refine ⟨fun before request reply after cut => ?_, fun before exchange after cut failed => ?_,
    fun dry exchange member => ?_⟩
  · obtain ⟨flag, ⟨start, ⟨head, _⟩, due⟩, archived⟩ := allowed before _ after cut
    refine ⟨fun wet => archived (flag.symm.trans wet), start, ?_, due⟩
    rw [cut, List.head?_append, head]
    rfl
  · intro later member deletes
    obtain ⟨middle, rest, rfl⟩ := List.append_of_mem member
    have clean : ∃ start, Clean start (before ++ exchange :: middle) := by
      have permitted := allowed (before ++ exchange :: middle) later rest (by rw [cut]; simp)
      cases op : later.op with
      | deleteRetentionEvents request =>
        rw [op] at permitted
        obtain ⟨_, ⟨start, clean, _⟩, _⟩ := permitted
        exact ⟨start, clean⟩
      | delete ref =>
        rw [op] at permitted
        exact permitted.2
      | _ =>
        rw [op] at deletes
        exact deletes.elim
    obtain ⟨start, _, none⟩ := clean
    exact none exchange (by simp) failed
  · obtain ⟨before, after, rfl⟩ := List.append_of_mem member
    have permitted := allowed before exchange after rfl
    cases op : exchange.op with
    | deleteRetentionEvents request =>
      rw [op] at permitted
      exact permitted.1.trans dry
    | reconcileRetention | loadArchiveEvents events | write records
    | completePayloadCandidate ref lastError =>
      rw [op, dry] at permitted
      cases permitted
    | recordArchive receipt | delete ref =>
      rw [op, dry] at permitted
      cases permitted.1
    | _ => exact trivial

/-! ### A run with one expired event -/

/-- An engine with a default lifetime of one nanosecond. -/
def shortEngine : Engine where
  cfg := Config.withDefaults { defaultEventTTL := 1, archiver := true }
  payloads := []
  quote := fun text => 34 :: text ++ [34]
  bounded := Config.bounded_withDefaults _ (by decide) (by decide)
  validated := by decide

def expiredEvent : Event := { id := ascii "07", timestamp := 5 }

def expiredRecord : EventRecord :=
  { id := ⟨List.replicate 15 0 ++ [7], rfl⟩, timestamp := 5, kind := ascii "kind" }

def expiredReceipt : Receipt where
  manifest := ⟨Archive.version, ascii "archive", 6, 1, [encodeID expiredRecord.id],
    { store := ascii "cold", key := ascii "events" }, []⟩
  manifestRef := { store := ascii "cold", key := ascii "manifest" }

/-- An environment with one page that holds the expired event, where every call succeeds. -/
def obliging : (op : Call) → op.Reply
  | .now => (10 : Time)
  | .ctxErr => (none : Option GoError)
  | .reconcileRetention => (none : Option GoError)
  | .scanRetentionEvents _ => .ok ⟨[expiredEvent], [], false⟩
  | .loadArchiveEvents _ => .ok [expiredRecord]
  | .write _ => .ok expiredReceipt
  | .recordArchive _ => (none : Option GoError)
  | .deleteRetentionEvents _ => ((⟨1, 0⟩ : DeleteResult), (none : Option GoError))
  | .listPayloadCandidates _ _ => .ok []
  | .referencedPayloads _ => .ok fun _ => false
  | .completePayloadCandidate _ _ => (none : Option GoError)
  | .delete _ => (none : Option GoError)
  | .schedule _ => (0 : Nat)

theorem archive_before_delete_expired : ∃ trace outcome before reply after,
    (shortEngine.run false).Trace trace outcome ∧
    trace = before ++ ⟨.deleteRetentionEvents
      ⟨[expiredEvent], ∅, ascii "archive", false⟩, reply⟩ :: after ∧
    JustArchived before ⟨[expiredEvent], ∅, ascii "archive", false⟩ := by
  have ran := Prog.play_trace (σ := signature) obliging (shortEngine.run false)
  refine ⟨_, _, ((shortEngine.run false).play obliging).1.take 7, (⟨1, 0⟩, none), _, ran, rfl, ?_⟩
  exact ((archive_before_delete shortEngine false ran).1 _ _ _ _ rfl).1 rfl

end Trail.Retention
