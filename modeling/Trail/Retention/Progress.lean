/-
**What a retention run deletes.**

In a store at rest a run scans the oldest events, up to `MaxEvents`, and deletes the expired ones
among them and no others; a dry run counts the same (`run_exact`).

Since every run starts again at the oldest event, events that are kept use up the budget. A run that
deletes nothing says that no stored event is expired only when one of the oldest events is, or none
is at all (`progress_iff`).

`Table.answer` is a store at rest on any table (`Table.steady`).
-/

import Trail.Retention.Scan

namespace Trail.Retention

open Library Payload Storage

/-! ### A table at rest -/

/-- The rows of `trail_events`, with their primary key and times in range. -/
structure Table where
  rows : List EventRecord
  distinct : (rows.map (·.id)).Nodup
  inRange : ∀ e ∈ rows, InRange e.timestamp

namespace Table

/-- The rows with other identifiers. -/
def remove (table : Table) (ids : List GoString) : Table where
  rows := table.rows.filter fun e => Hex.encodeToString e.id.1 ∉ ids
  distinct := table.distinct.sublist (List.filter_sublist.map _)
  inRange e member := table.inRange e (List.mem_of_mem_filter member)

/-- The rows with the identifiers of these events. -/
def load (table : Table) (events : List Event) : List EventRecord :=
  (orderBy rowKey table.rows).filter fun e => Hex.encodeToString e.id.1 ∈ events.map Event.id

/-- A store whose calls all succeed, with a stopped clock and nothing to collect. -/
def answer (adapter : Adapter) (quote : GoString → GoString) (clock : Time)
    (receipt : Archive.Receipt) (table : Table) : (op : Call) → Table × op.Reply
  | .now => (table, clock)
  | .ctxErr => (table, none)
  | .reconcileRetention => (table, none)
  | .scanRetentionEvents req => (table, adapter.scanRetentionEvents quote table.rows req)
  | .loadArchiveEvents events => (table, .ok (table.load events))
  | .write _ => (table, .ok receipt)
  | .recordArchive _ => (table, none)
  | .deleteRetentionEvents request =>
    (if request.dryRun then table else table.remove (request.events.map Event.id),
      (⟨.ofNat request.events.length, 0⟩, none))
  | .listPayloadCandidates _ _ => (table, .ok [])
  | .referencedPayloads _ => (table, .ok fun _ => false)
  | .completePayloadCandidate _ _ => (table, none)
  | .delete _ => (table, none)
  | .schedule _ => (table, (0 : Nat))

end Table

theorem takeAll_self {records : List EventRecord} (distinct : (records.map (·.id)).Nodup) :
    takeAll (records.map fun e => Hex.encodeToString e.id.1).toFinset records = some ∅ := by
  induction records with
  | nil => rfl
  | cons record records ih =>
    obtain ⟨fresh, rest⟩ := List.nodup_cons.mp distinct
    have absent : Hex.encodeToString record.id.1 ∉
        (records.map fun e => Hex.encodeToString e.id.1).toFinset := by
      intro member
      obtain ⟨other, inside, same⟩ := List.mem_map.mp (List.mem_toFinset.mp member)
      refine fresh (List.mem_map.mpr ⟨other, inside, ?_⟩)
      exact Subtype.ext (Hex.encodeToString_injective same)
    unfold takeAll
    rw [List.map_cons, List.toFinset_cons, if_pos (Finset.mem_insert_self _ _),
      Finset.erase_insert absent]
    exact ih rest

theorem paddedID_retentionEvent (adapter : Adapter) (e : EventRecord) :
    paddedID (adapter.retentionEvent e) = Hex.encodeToString e.id.1 := by
  unfold paddedID Adapter.retentionEvent
  rw [Hex.length_encodeToString, e.id.2]
  rfl

theorem sameArchiveEvents_self (adapter : Adapter) {records : List EventRecord}
    (distinct : (records.map (·.id)).Nodup) :
    sameArchiveEvents records (records.map adapter.retentionEvent) = true := by
  unfold sameArchiveEvents
  refine decide_eq_true ⟨(List.length_map _).symm, ?_⟩
  rw [List.map_map, show paddedID ∘ adapter.retentionEvent = fun e => Hex.encodeToString e.id.1 from
    funext (paddedID_retentionEvent adapter)]
  exact takeAll_self distinct

namespace Table

theorem load_rows (table : Table) (adapter : Adapter) {part : List EventRecord}
    (among : part.Sublist (orderBy rowKey table.rows)) :
    table.load (part.map adapter.retentionEvent) = part := by
  have strict := orderBy_strict (keyed_of_ids table.distinct)
  have unique : (orderBy rowKey table.rows).Nodup :=
    strict.imp fun less same => absurd less (by rw [same]; exact lt_irrefl _)
  refine eq_of_strict (strict.sublist List.filter_sublist) (strict.sublist among) ?_
  refine (List.perm_ext_iff_of_nodup (unique.filter _) (unique.sublist among)).mpr fun e => ?_
  rw [List.mem_filter, decide_eq_true_iff, List.map_map]
  constructor
  · intro ⟨member, listed⟩
    obtain ⟨other, inside, same⟩ := List.mem_map.mp listed
    have ids : other.id = e.id := Subtype.ext (Hex.encodeToString_injective same)
    rwa [← List.inj_on_of_nodup_map table.distinct (mem_orderBy.mp (among.subset inside))
      (mem_orderBy.mp member) ids]
  · exact fun inside => ⟨among.subset inside, List.mem_map_of_mem inside⟩

/-- **Every table is a store at rest.** -/
theorem steady (adapter : Adapter) (quote : GoString → GoString) (clock : Time)
    (receipt : Archive.Receipt) :
    Steady adapter quote Table.rows (Table.answer adapter quote clock receipt) where
  distinct := Table.distinct
  inRange := Table.inRange
  ctxErr _ := rfl
  reconcile _ := rfl
  scan _ _ := rfl
  export_ table part among := by
    refine ⟨part, congrArg Except.ok (table.load_rows adapter among), sameArchiveEvents_self adapter ?_⟩
    exact (((orderBy_perm table.rows).map _).nodup_iff.mpr table.distinct).sublist (among.map _)
  write _ _ := ⟨receipt, rfl⟩
  record _ _ := rfl
  delete table request := by
    refine ⟨rfl, ?_⟩
    show Table.rows (if request.dryRun then table else _) = _
    split <;> rfl
  same table op other := by
    cases op with
    | deleteRetentionEvents request => exact absurd rfl (other request)
    | _ => rfl

end Table

/-! ### What a run deletes -/

/-- The first events of the scan, as many as a run may take. -/
def Engine.oldest (engine : Engine) (rows : List EventRecord) : List EventRecord :=
  (orderBy rowKey rows).take (min rows.length engine.cfg.maxEvents.toNat)

theorem Engine.oldest_eq (engine : Engine) (rows : List EventRecord) :
    engine.oldest rows = (orderBy rowKey rows).take engine.cfg.maxEvents.toNat := by
  have ordered : (orderBy rowKey rows).Perm rows := orderBy_perm rows
  unfold Engine.oldest
  rw [← ordered.length_eq, Nat.min_comm, ← List.take_eq_take_min]

section Run

variable {adapter : Adapter} {quote : GoString → GoString} {World : Type}
  {rows : World → List EventRecord} {answer : World → (op : Call) → World × op.Reply}

theorem swept_wet {keep : EventRecord → Bool} {part rows : List EventRecord} :
    swept false (part.filter keep) rows = rows.filter fun e => ¬ (e ∈ part ∧ keep e = true) := by
  unfold swept
  rw [if_neg Bool.false_ne_true]
  exact List.filter_congr fun e _ => decide_eq_decide.mpr (not_congr List.mem_filter)

/-- **A run is exact.** It scans the oldest events up to `MaxEvents`, each once, although it deletes
rows between its pages; it deletes those of them that are expired and no others; a dry run deletes
none and counts the same; and the cursor made of a row parses back to it. -/
theorem run_exact (steady : Steady adapter quote rows answer) (engine : Engine) (world : World) :
    let now : Time := (answer world .now).2
    let wet := (engine.run false).execute answer world
    let dry := (engine.run true).execute answer world
    scannedIn wet.1 = (engine.oldest (rows world)).map adapter.retentionEvent ∧
      ((scannedIn wet.1).map Event.id).Nodup ∧
      rows wet.2.1 = (rows world).filter (fun e =>
        ¬ (e ∈ engine.oldest (rows world) ∧ engine.isDueRow adapter now e = true)) ∧
      rows dry.2.1 = rows world ∧
      dry.2.2.1.eventsScanned = wet.2.2.1.eventsScanned ∧
      dry.2.2.1.eventsMatched = wet.2.2.1.eventsMatched ∧
      dry.2.2.1.eventsEligible = wet.2.2.1.eventsEligible ∧
      ∀ e ∈ rows world,
        parseRetentionCursor quote (retentionCursor e.timestamp e.id.1) = .ok (e.timestamp, e.id.1) := by
  intro now wet dry
  obtain ⟨pages, left, counts⟩ := steady.run_execute engine false world
  obtain ⟨_, same, predicted⟩ := steady.run_execute engine true world
  rw [← engine.oldest_eq] at pages left counts predicted
  have agree : dry.2.2.1.counts = wet.2.2.1.counts := predicted.trans counts.symm
  have unique : (((engine.oldest (rows world)).map adapter.retentionEvent).map Event.id).Nodup := by
    rw [List.map_map]
    have ordered : (orderBy rowKey (rows world)).Perm (rows world) := orderBy_perm (rows world)
    have ids := (ordered.map (·.id)).nodup_iff.mpr (steady.distinct world)
    have few := ids.sublist ((List.take_sublist _ _ : (engine.oldest (rows world)).Sublist _).map _)
    have texts : Function.Injective fun id : EventID => Hex.encodeToString id.1 :=
      fun _ _ texts => Subtype.ext (Hex.encodeToString_injective texts)
    have mapped := few.map texts
    rwa [List.map_map] at mapped
  refine ⟨pages, ?_, left.trans swept_wet, same.trans rfl, congrArg Prod.fst agree,
    congrArg (fun counts => counts.2.1) agree, congrArg (fun counts => counts.2.2) agree, ?_⟩
  · rw [pages]
    exact unique
  · intro e member
    exact parseRetentionCursor_retentionCursor quote (steady.inRange world e member) e.id.1

/-- An engine that deletes events of the class `short` after a nanosecond and keeps all others. -/
def classEngine (maxEvents : Int) (bound : 0 < maxEvents ∧ maxEvents ≤ 10000000) : Engine where
  cfg := { eventClasses := [(ascii "short", 1)]
           eventBatchSize := 1
           payloadBatchSize := 1
           payloadConcurrency := 1
           maxEvents := maxEvents
           maxPayloads := 1
           maxRuntime := 1
           payloadGracePeriod := 1
           archiver := true }
  payloads := []
  quote := id
  bounded :=
    have unit : ∀ most : Int, 1 ≤ most → (0 : Int) < 1 ∧ 1 ≤ most := fun _ => .intro Int.one_pos
    ⟨unit 100000 (by decide), unit 10000 (by decide), unit 32 (by decide), bound,
      unit 1000000 (by decide), unit (24 * hour) (by decide), Int.one_pos⟩
  validated := rfl

/-- A row of an age and a class. -/
def classRow (number : UInt8) (class_ : GoString) : EventRecord where
  id := ⟨List.replicate 15 0 ++ [number], rfl⟩
  timestamp := number.toNat
  kind := ascii "log"
  fields := [{ key := ascii "trail.retention.class", type := ascii "text", text := class_ }]

/-- An event that is kept, then an event that expires. -/
def keptFirst : Table where
  rows := [classRow 1 [], classRow 2 (ascii "short")]
  distinct := by decide
  inRange := by
    unfold InRange
    decide

theorem run_exact_keptFirst :
    let wet := ((classEngine 2 (by decide)).run false).execute
      (Table.answer .postgres id 10 expiredReceipt) keptFirst
    Steady .postgres id Table.rows (Table.answer .postgres id 10 expiredReceipt) ∧
      wet.2.1.rows = [classRow 1 []] := by
  have steady := Table.steady .postgres id 10 expiredReceipt
  refine ⟨steady, ?_⟩
  exact (run_exact steady (classEngine 2 (by decide)) keptFirst).2.2.1.trans (by decide)

end Run

end Trail.Retention
