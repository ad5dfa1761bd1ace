/-
**The scan of a retention run.**

`scanRetentionEvents` is `ScanRetentionEvents` of both adapters: the rows strictly after the cursor in
the order of their times and identifiers, one more than the limit. The cursor is a text made of the
last row and parsed back (`parseRetentionCursor_retentionCursor`).

A `Steady` environment has a store that pages this way and deletes what it is told to, while nothing
fails and nothing else is written. There the pages of a run are the rows in order up to `MaxEvents`,
although rows are deleted between them (`scanLoop_execute`).
-/

import Mathlib.Data.List.Lex
import Mathlib.Data.Prod.Lex
import Trail.Library.Paging
import Trail.Retention.ArchiveFirst
import Trail.Storage.Normalize
import Trail.Wire.Decimal

namespace Trail.Retention

open Library Payload Storage

/-! ### Cursors -/

/-- `t.UnixNano()`, which wraps around outside the range of an `int64`. -/
def unixNano (t : Time) : Int := (Int64.ofInt t).toInt

/-- `retentionCursor`. -/
def retentionCursor (t : Time) (id : List UInt8) : GoString :=
  Wire.decimal (unixNano t) ++ ascii ":" ++ Hex.encodeToString id

/-- `strings.Cut(text, ":")`. -/
def cutColon (text : GoString) : Option (GoString × GoString) :=
  match text.dropWhile (· ≠ 58) with
  | [] => none
  | _ :: after => some (text.takeWhile (· ≠ 58), after)

/-- `parseRetentionCursor`; `quote` is `strconv.Quote`. -/
def parseRetentionCursor (quote : GoString → GoString) (v : GoString) :
    Except GoError (Time × List UInt8) :=
  match cutColon v with
  | none => .error (errorsNew "invalid retention cursor")
  | some (a, b) =>
    match Wire.parseInt quote "ParseInt" a with
    | .error error => .error error
    | .ok n =>
      match Hex.decodeString b with
      | none => .error (Hex.decodeError b)
      | some id => .ok (n, id)

/-- A time that is a number of nanoseconds in an `int64`, as every time of a wire event is. -/
def InRange (t : Time) : Prop := -2 ^ 63 ≤ t ∧ t < 2 ^ 63

theorem unixNano_of_inRange {t : Time} (range : InRange t) : unixNano t = t :=
  Int64.toInt_ofInt_of_le range.1 range.2

theorem cutColon_append {before after : GoString} (plain : (58 : UInt8) ∉ before) :
    cutColon (before ++ ascii ":" ++ after) = some (before, after) := by
  have skip : ∀ byte ∈ before, decide (byte ≠ 58) = true := by
    intro byte member
    refine decide_eq_true ?_
    rintro rfl
    exact plain member
  have colon : ascii ":" = [58] := rfl
  unfold cutColon
  rw [List.append_assoc, List.dropWhile_append_of_pos skip, List.takeWhile_append_of_pos skip, colon]
  simp

/-- **The cursor of a row parses back** to its time and identifier. -/
theorem parseRetentionCursor_retentionCursor (quote : GoString → GoString) {t : Time}
    (range : InRange t) (id : List UInt8) :
    parseRetentionCursor quote (retentionCursor t id) = .ok (t, id) := by
  unfold parseRetentionCursor retentionCursor
  rw [unixNano_of_inRange range, cutColon_append (Wire.colon_not_mem_decimal t)]
  dsimp only
  rw [Wire.parseInt_decimal quote "ParseInt" range.1 range.2]
  dsimp only
  rw [Hex.decodeString_encodeToString]

theorem retentionCursor_ne_nil (t : Time) (id : List UInt8) : retentionCursor t id ≠ [] := by
  unfold retentionCursor
  simp [show ascii ":" = [58] from rfl]

/-! ### Rows -/

/-- The two storage adapters. -/
inductive Adapter
  | postgres
  | clickhouse
  deriving DecidableEq, Repr

/-- The text of an optional identifier: `NULL` in PostgreSQL, zero bytes in ClickHouse. -/
def Adapter.idText : Adapter → Bytes 16 → GoString
  | .postgres, id => if id = Bytes.zero 16 then [] else Hex.encodeToString id.1
  | .clickhouse, id => Hex.encodeToString id.1

/-- The status code as the column has it. -/
def Adapter.statusCode : Adapter → Int64 → Int
  | .postgres, status => status.toInt
  | .clickhouse, status => status.toInt % 2 ^ 16

/-- The class of the first field that names one. -/
def firstClass (fields : List Wire.Field) : GoString :=
  match fields.find? fun field => field.key = ascii "trail.retention.class" with
  | none => []
  | some field => field.text

/-- The event made of a row. -/
def Adapter.retentionEvent (adapter : Adapter) (e : EventRecord) : Event where
  id := Hex.encodeToString e.id.1
  cursor := retentionCursor e.timestamp e.id.1
  flowID := adapter.idText e.flowID
  executionID := adapter.idText e.executionID
  timestamp := e.timestamp
  kind := e.kind
  service := e.metadata.service
  environment := e.metadata.environment
  level := parseLevel (Level.text e.level)
  flowStatus := e.flowStatus
  executionStatus := e.executionStatus
  retentionClass := firstClass e.fields
  httpStatusCode := adapter.statusCode e.http.statusCode
  httpSuccess := e.http.success
  payloads := e.payloads.map fun p => ⟨p.role, p.ref⟩

/-- `(event_time,event_id)`, compared as a pair of a time and a string of bytes. -/
abbrev RowKey := Lex (Time × List Nat)

def keyOf (t : Time) (id : List UInt8) : RowKey := toLex (t, id.map UInt8.toNat)

def rowKey (e : EventRecord) : RowKey := keyOf e.timestamp e.id.1

/-- `ScanRetentionEvents` against the rows of `trail_events`. -/
def Adapter.scanRetentionEvents (adapter : Adapter) (quote : GoString → GoString)
    (rows : List EventRecord) (req : ScanRequest) : Except GoError EventPage :=
  if req.limit ≤ 0 then .ok ⟨[], [], false⟩
  else
    let select (cursor : Option RowKey) : EventPage :=
      let fetched := (orderBy rowKey (afterCursor rowKey cursor rows)).take (req.limit + 1).toNat
      let (events, hasMore) := page req.limit.toNat (fetched.map adapter.retentionEvent)
      ⟨events, (events.getLast?.map Event.cursor).getD [], hasMore⟩
    if req.cursor = [] then .ok (select none)
    else
      match parseRetentionCursor quote req.cursor with
      | .error error => .error error
      | .ok (ts, id) => .ok (select (some (keyOf ts id)))

theorem keyOf_injective {first second : Time × List UInt8}
    (same : keyOf first.1 first.2 = keyOf second.1 second.2) : first = second := by
  have pair := Prod.ext_iff.mp (toLex.injective same)
  have bytes : Function.Injective UInt8.toNat := fun _ _ => UInt8.toNat_inj.mp
  exact Prod.ext pair.1 (bytes.list_map pair.2)

theorem keyed_of_ids {rows : List EventRecord} (distinct : (rows.map (·.id)).Nodup) :
    Keyed rowKey rows := by
  refine List.Nodup.of_map (fun key : RowKey => (ofLex key).2) ?_
  have bytes : Function.Injective fun id : EventID => id.1.map UInt8.toNat := by
    intro first second same
    have single : Function.Injective UInt8.toNat := fun _ _ => UInt8.toNat_inj.mp
    exact Subtype.ext (single.list_map same)
  have mapped := distinct.map bytes
  rw [List.map_map] at mapped ⊢
  exact mapped

/-! ### A page of a scan -/

section Sweep

variable (engine : Engine) (now : Time)

/-- The event matches a policy. -/
def Engine.isMatched (event : Event) : Bool := (engine.eventExpiry event).isSome

/-- The event matches a policy and has expired. -/
def Engine.isDue (event : Event) : Bool :=
  match engine.eventExpiry event with
  | none => false
  | some expiry => decide (expiry ≤ now)

/-- `EventsScanned`, `EventsMatched` and `EventsEligible`. -/
def Result.counts (result : Result) : Nat × Nat × Nat :=
  (result.eventsScanned, result.eventsMatched, result.eventsEligible)

/-- The counters after a page. -/
def Engine.counted (counts : Nat × Nat × Nat) (events : List Event) : Nat × Nat × Nat :=
  (counts.1 + events.length, counts.2.1 + events.countP engine.isMatched,
    counts.2.2 + events.countP (engine.isDue now))

theorem Engine.counted_append (counts : Nat × Nat × Nat) (first second : List Event) :
    engine.counted now counts (first ++ second) =
      engine.counted now (engine.counted now counts first) second := by
  simp [Engine.counted, Nat.add_assoc]

theorem Engine.sweepEvent_spec (sweep : Sweep) (event : Event) :
    (engine.sweepEvent now sweep event).eligible =
      sweep.eligible ++ [event].filter (engine.isDue now) ∧
    (engine.sweepEvent now sweep event).result.counts =
      engine.counted now sweep.result.counts [event] := by
  unfold Engine.sweepEvent Engine.counted
  cases expiry : engine.eventExpiry event with
  | none => simp [Engine.isDue, Engine.isMatched, expiry, Result.counts]
  | some expiry' =>
    dsimp only
    split
    · rename_i expired
      simp [Engine.isDue, Engine.isMatched, expiry, expired, Result.counts]
    · rename_i later
      simp [Engine.isDue, Engine.isMatched, expiry, later, Result.counts]

/-- **What a page is found to hold**: its expired events, in order, and its counts. -/
theorem Engine.sweep_spec (events : List Event) (result : Result) :
    (engine.sweep now events result).eligible = events.filter (engine.isDue now) ∧
    (engine.sweep now events result).result.counts = engine.counted now result.counts events := by
  have fold : ∀ (events : List Event) (sweep : Sweep),
      (events.foldl (engine.sweepEvent now) sweep).eligible =
        sweep.eligible ++ events.filter (engine.isDue now) ∧
      (events.foldl (engine.sweepEvent now) sweep).result.counts =
        engine.counted now sweep.result.counts events := by
    intro events
    induction events with
    | nil => exact fun sweep => ⟨(List.append_nil _).symm, rfl⟩
    | cons event events ih =>
      intro sweep
      obtain ⟨eligible, counts⟩ := engine.sweepEvent_spec now sweep event
      obtain ⟨first, second⟩ := ih (engine.sweepEvent now sweep event)
      refine ⟨?_, ?_⟩
      · rw [List.foldl_cons, first, eligible, List.append_assoc, ← List.filter_append,
          List.singleton_append]
      · rw [List.foldl_cons, second, counts, ← engine.counted_append, List.singleton_append]
  exact fold events ⟨[], ∅, result⟩

end Sweep

/-! ### A store at rest -/

/-- **An environment in which nothing fails and nothing else is written**: its store pages as
`ScanRetentionEvents` does, exports the events it is asked for, deletes the events it is told to,
and changes no row otherwise. -/
structure Steady (adapter : Adapter) (quote : GoString → GoString) {World : Type}
    (rows : World → List EventRecord) (answer : World → (op : Call) → World × op.Reply) : Prop where
  /-- `event_id` is the primary key. -/
  distinct : ∀ world, ((rows world).map (·.id)).Nodup
  inRange : ∀ world, ∀ e ∈ rows world, InRange e.timestamp
  ctxErr : ∀ world, (answer world .ctxErr).2 = (none : Option GoError)
  reconcile : ∀ world, (answer world .reconcileRetention).2 = (none : Option GoError)
  scan : ∀ world req, (answer world (.scanRetentionEvents req)).2 =
    adapter.scanRetentionEvents quote (rows world) req
  export_ : ∀ world (part : List EventRecord), part.Sublist (orderBy rowKey (rows world)) → ∃ records,
    (answer world (.loadArchiveEvents (part.map adapter.retentionEvent))).2 = .ok records ∧
      sameArchiveEvents records (part.map adapter.retentionEvent) = true
  write : ∀ world records, ∃ receipt, (answer world (.write records)).2 = .ok receipt
  record : ∀ world receipt, (answer world (.recordArchive receipt)).2 = (none : Option GoError)
  delete : ∀ world request, (answer world (.deleteRetentionEvents request)).2.2 = none ∧
    rows (answer world (.deleteRetentionEvents request)).1 =
      if request.dryRun then rows world
      else (rows world).filter fun e =>
        Hex.encodeToString e.id.1 ∉ request.events.map Event.id
  same : ∀ world op, (∀ request, op ≠ .deleteRetentionEvents request) →
    rows (answer world op).1 = rows world

/-- The rows left when some of them are gone; a dry run leaves them all. -/
def swept (dryRun : Bool) (gone rows : List EventRecord) : List EventRecord :=
  if dryRun then rows else rows.filter fun e => e ∉ gone

theorem swept_nil (dryRun : Bool) (rows : List EventRecord) : swept dryRun [] rows = rows := by
  unfold swept
  split
  · rfl
  · exact List.filter_eq_self.mpr fun _ _ => by simp

theorem swept_swept (dryRun : Bool) (first second rows : List EventRecord) :
    swept dryRun second (swept dryRun first rows) = swept dryRun (first ++ second) rows := by
  unfold swept
  split
  · rfl
  · rw [List.filter_filter]
    exact List.filter_congr fun e _ => by simp [Bool.and_comm]

theorem afterCursor_swept {dryRun : Bool} {gone rows : List EventRecord} {key : RowKey}
    (early : ∀ e ∈ gone, rowKey e ≤ key) :
    afterCursor rowKey (some key) (swept dryRun gone rows) = afterCursor rowKey (some key) rows := by
  unfold swept
  split
  · rfl
  · unfold afterCursor
    rw [List.filter_filter]
    refine List.filter_congr fun e _ => ?_
    by_cases later : key < rowKey e
    · have kept : e ∉ gone := fun member => absurd later (not_lt.mpr (early e member))
      simp [later, kept]
    · simp [later]

section Execute

variable {adapter : Adapter} {quote : GoString → GoString} {World : Type}
  {rows : World → List EventRecord} {answer : World → (op : Call) → World × op.Reply}

/-- The events of the pages of a run, in order. -/
def pagesOf (exchange : signature.Exchange) : List Event :=
  match exchange with
  | ⟨.scanRetentionEvents _, reply⟩ =>
    match reply with
    | .ok page => page.events
    | .error _ => []
  | _ => []

def scannedIn (log : List (World × signature.Exchange)) : List Event :=
  log.flatMap fun entry => pagesOf entry.2

theorem scannedIn_append (first second : List (World × signature.Exchange)) :
    scannedIn (first ++ second) = scannedIn first ++ scannedIn second :=
  List.flatMap_append

/-- A call that is not a scan. -/
def Call.Unscanned : Call → Prop
  | .scanRetentionEvents _ => False
  | _ => True

/-- A call that neither scans nor deletes events. -/
def Call.Quiet : Call → Prop
  | .scanRetentionEvents _ => False
  | .deleteRetentionEvents _ => False
  | _ => True

theorem Call.Quiet.unscanned {op : Call} (quiet : op.Quiet) : op.Unscanned := by
  cases op <;> trivial

theorem scannedIn_unscanned {log : List (World × signature.Exchange)}
    (none : ∀ entry ∈ log, entry.2.op.Unscanned) : scannedIn log = [] := by
  refine List.flatMap_eq_nil_iff.mpr fun entry member => ?_
  obtain ⟨world, ⟨op, reply⟩⟩ := entry
  cases op with
  | scanRetentionEvents req => exact (none _ member).elim
  | _ => rfl

/-- A call by which a page is archived and deleted. -/
def Call.Archival : Call → Prop
  | .loadArchiveEvents _ | .write _ | .recordArchive _ | .deleteRetentionEvents _ => True
  | _ => False

theorem deletePage_archival (dryRun : Bool) (sweep : Sweep) (dryPayloads : Finset GoString)
    (history : List signature.Exchange) :
    (deletePage dryRun sweep dryPayloads).Obeys (fun _ (op : Call) => op.Archival) history
      fun _ _ => True := by
  unfold deletePage
  split
  · trivial
  split
  · exact ⟨trivial, fun _ => trivial⟩
  · refine Prog.obeys_bind ⟨trivial, fun reply => ?_⟩
    rcases reply with error | records
    · trivial
    dsimp only
    split
    · refine ⟨trivial, fun reply => ?_⟩
      rcases reply with error | receipt
      · trivial
      · refine ⟨trivial, fun reply => ?_⟩
        rcases reply with _ | error
        · exact ⟨trivial, fun _ => trivial⟩
        · trivial
    · trivial

theorem deletePage_unscanned (dryRun : Bool) (sweep : Sweep) (dryPayloads : Finset GoString)
    (history : List signature.Exchange) :
    (deletePage dryRun sweep dryPayloads).Obeys (fun _ (op : Call) => op.Unscanned) history
      fun _ _ => True := by
  refine (deletePage_archival dryRun sweep dryPayloads history).weaken fun _ op archival => ?_
  cases op with
  | scanRetentionEvents request => exact archival
  | _ => trivial

/-- A cursor's text and the key it stands for. -/
def CursorAt (cursor : GoString) (key : Option RowKey) : Prop :=
  (cursor = [] ∧ key = none) ∨
    ∃ e : EventRecord, InRange e.timestamp ∧ cursor = retentionCursor e.timestamp e.id.1 ∧
      key = some (rowKey e)

/-- **A page of a scan**: the rows after the cursor, up to the limit. -/
theorem Adapter.scanRetentionEvents_page {rows : List EventRecord} {cursor : GoString}
    {key : Option RowKey} {limit : Int} (standing : CursorAt cursor key) (positive : 0 < limit) :
    let rest := orderBy rowKey (afterCursor rowKey key rows)
    adapter.scanRetentionEvents quote rows ⟨cursor, limit⟩ =
      .ok ⟨(rest.take limit.toNat).map adapter.retentionEvent,
        ((rest.take limit.toNat).getLast?.map fun e => retentionCursor e.timestamp e.id.1).getD [],
        decide (limit.toNat < rest.length)⟩ := by
  intro rest
  have more : (limit + 1).toNat = limit.toNat + 1 := by omega
  have cut : page limit.toNat ((rest.take (limit.toNat + 1)).map adapter.retentionEvent) =
      ((rest.take limit.toNat).map adapter.retentionEvent, decide (limit.toNat < rest.length)) := by
    rw [List.map_take, page_take, List.map_take, List.length_map]
  unfold Adapter.scanRetentionEvents
  rw [if_neg (by simpa using positive)]
  rcases standing with ⟨rfl, rfl⟩ | ⟨e, range, rfl, rfl⟩
  · dsimp only
    rw [if_pos rfl, more, cut, List.getLast?_map, Option.map_map]
    rfl
  · dsimp only
    rw [if_neg (retentionCursor_ne_nil _ _), parseRetentionCursor_retentionCursor quote range, more]
    dsimp only
    rw [show keyOf e.timestamp e.id = rowKey e from rfl, cut, List.getLast?_map, Option.map_map]
    rfl

/-- The stored row is expired at the start of the run. -/
def Engine.isDueRow (engine : Engine) (adapter : Adapter) (now : Time) (e : EventRecord) : Bool :=
  engine.isDue now (adapter.retentionEvent e)

theorem scannedIn_cons (entry : World × signature.Exchange) (log : List (World × signature.Exchange)) :
    scannedIn (entry :: log) = pagesOf entry.2 ++ scannedIn log :=
  rfl

/-- **What a scan did** that took these rows: its counters, its pages, and the rows it left. -/
structure Scanned (adapter : Adapter) (rows : World → List EventRecord) (engine : Engine)
    (dryRun : Bool) (now : Time) (result : Result) (world : World) (taken : List EventRecord)
    (ran : List (World × signature.Exchange) × World × Except (Result × GoError) Result) : Prop where
  counts : ∃ final, ran.2.2 = .ok final ∧
    final.counts = engine.counted now result.counts (taken.map adapter.retentionEvent)
  pages : scannedIn ran.1 = taken.map adapter.retentionEvent
  left : rows ran.2.1 = swept dryRun (taken.filter (engine.isDueRow adapter now)) (rows world)

theorem Scanned.nothing {engine : Engine} {dryRun : Bool} {now : Time} {result : Result} {world : World}
    {ran : List (World × signature.Exchange) × World × Except (Result × GoError) Result}
    (final : ran.2.2 = .ok result) (pages : scannedIn ran.1 = []) (left : rows ran.2.1 = rows world) :
    Scanned adapter rows engine dryRun now result world [] ran :=
  ⟨⟨result, final, rfl⟩, pages, left.trans (swept_nil dryRun _).symm⟩

theorem Scanned.page {engine : Engine} {dryRun : Bool} {now : Time} {result : Result} {world : World}
    {first second : List EventRecord} {next : Result} {later : World}
    {log : List (World × signature.Exchange)}
    {ran : List (World × signature.Exchange) × World × Except (Result × GoError) Result}
    (counts : next.counts = engine.counted now result.counts (first.map adapter.retentionEvent))
    (pages : scannedIn log = first.map adapter.retentionEvent)
    (left : rows later = swept dryRun (first.filter (engine.isDueRow adapter now)) (rows world))
    (rest : Scanned adapter rows engine dryRun now next later second ran) :
    Scanned adapter rows engine dryRun now result world (first ++ second) (log ++ ran.1, ran.2) := by
  obtain ⟨⟨final, done, total⟩, remaining, after⟩ := rest
  refine ⟨⟨final, done, ?_⟩, ?_, ?_⟩
  · rw [total, counts, List.map_append, engine.counted_append]
  · rw [scannedIn_append, pages, remaining, List.map_append]
  · rw [List.filter_append, ← swept_swept, ← left]
    exact after

namespace Steady

variable (steady : Steady adapter quote rows answer)

include steady

theorem keyed (world : World) : Keyed rowKey (rows world) := keyed_of_ids (steady.distinct world)

theorem filter_ids {world : World} {part : List EventRecord} (among : part ⊆ rows world) :
    ((rows world).filter fun e =>
      Hex.encodeToString e.id.1 ∉ (part.map adapter.retentionEvent).map Event.id) =
      (rows world).filter fun e => e ∉ part := by
  refine List.filter_congr fun e member => decide_eq_decide.mpr (not_congr ?_)
  rw [List.map_map]
  constructor
  · intro listed
    obtain ⟨other, inside, same⟩ := List.mem_map.mp listed
    have ids : other.id = e.id := Subtype.ext (Hex.encodeToString_injective same)
    rwa [← List.inj_on_of_nodup_map (steady.distinct world) (among inside) member ids]
  · exact fun inside => List.mem_map_of_mem inside

theorem archiveEvents_execute {world : World} {part : List EventRecord}
    (among : part.Sublist (orderBy rowKey (rows world))) :
    ∃ receipt later,
      ((archiveEvents (part.map adapter.retentionEvent)).execute answer world).2 =
        (later, .ok receipt) ∧ rows later = rows world := by
  obtain ⟨records, loaded, all⟩ := steady.export_ world part among
  have first := steady.same world (.loadArchiveEvents (part.map adapter.retentionEvent))
    fun _ => Call.noConfusion
  rcases load : answer world (.loadArchiveEvents (part.map adapter.retentionEvent)) with ⟨one, reply⟩
  rw [load] at loaded first
  obtain rfl : reply = .ok records := loaded
  obtain ⟨receipt, written⟩ := steady.write one records
  have second := steady.same one (.write records) fun _ => Call.noConfusion
  rcases write : answer one (.write records) with ⟨two, reply⟩
  rw [write] at written second
  obtain rfl : reply = .ok receipt := written
  have recorded := steady.record two receipt
  have third := steady.same two (.recordArchive receipt) fun _ => Call.noConfusion
  rcases record : answer two (.recordArchive receipt) with ⟨three, reply⟩
  rw [record] at recorded third
  obtain rfl : reply = none := recorded
  refine ⟨receipt, three, ?_, third.trans (second.trans first)⟩
  unfold archiveEvents
  rw [Prog.execute_call load]
  dsimp only
  rw [if_pos all, Prog.execute_call write]
  dsimp only
  rw [Prog.execute_call record]
  rfl

/-- **A page is archived and deleted**, or left alone by a dry run. -/
theorem deletePage_execute (dryRun : Bool) {world : World} {sweep : Sweep} {part : List EventRecord}
    (among : part.Sublist (orderBy rowKey (rows world)))
    (eligible : sweep.eligible = part.map adapter.retentionEvent) (dryPayloads : Finset GoString) :
    ∃ next, ((deletePage dryRun sweep dryPayloads).execute answer world).2.2 = .ok next ∧
      next.1.counts = sweep.result.counts ∧
      rows ((deletePage dryRun sweep dryPayloads).execute answer world).2.1 =
        swept dryRun part (rows world) := by
  have subset : part ⊆ rows world := fun e member => mem_orderBy.mp (among.subset member)
  unfold deletePage
  split
  · rename_i empty
    have nothing : part = [] := List.map_eq_nil_iff.mp (eligible.symm.trans empty)
    refine ⟨_, rfl, rfl, ?_⟩
    rw [nothing, swept_nil]
    rfl
  split
  · rename_i dry
    obtain ⟨fine, after⟩ := steady.delete world ⟨sweep.eligible, sweep.times, [], true⟩
    refine ⟨(sweep.result.wouldStage (dryPayloads ∪ sweep.times.keys.toFinset),
      dryPayloads ∪ sweep.times.keys.toFinset), ?_, rfl, ?_⟩
    · show checked _ (answer world (.deleteRetentionEvents _)).2.2 _ = _
      rw [fine]
      rfl
    · unfold swept
      rw [if_pos dry]
      exact after
  · rename_i wet
    obtain ⟨receipt, later, archived, same⟩ := steady.archiveEvents_execute among
    obtain ⟨fine, after⟩ := steady.delete later
      ⟨sweep.eligible, sweep.times, receipt.manifest.id, false⟩
    rw [← eligible] at archived
    rw [Prog.execute_bind_snd archived]
    rcases removed : answer later (.deleteRetentionEvents
      ⟨sweep.eligible, sweep.times, receipt.manifest.id, false⟩) with ⟨last, reply⟩
    rw [removed] at fine after
    unfold deleteArchived
    rw [Prog.execute_call removed]
    refine ⟨(((sweep.result.archived receipt).deleted reply.1), dryPayloads), ?_, rfl, ?_⟩
    · show checked _ reply.2 _ = _
      rw [show reply.2 = none from fine]
      rfl
    · show rows last = _
      have after' : rows last = (rows later).filter fun e =>
          Hex.encodeToString e.id ∉ sweep.eligible.map (·.id) := after
      unfold swept
      rw [if_neg wet, after', same, eligible]
      exact steady.filter_ids subset

theorem rest_sublist (world : World) (key : Option RowKey) :
    (orderBy rowKey (afterCursor rowKey key (rows world))).Sublist (orderBy rowKey (rows world)) := by
  unfold afterCursor
  rw [orderBy_filter (steady.keyed world)]
  exact List.filter_sublist

/-- **The rest after a page** is what follows it, although its expired rows are gone. -/
theorem rest_drop {world later : World} {key : Option RowKey} {count : Nat} {last : EventRecord}
    {dryRun : Bool} {gone : List EventRecord}
    (ends : ((orderBy rowKey (afterCursor rowKey key (rows world))).take count).getLast? = some last)
    (among : gone ⊆ (orderBy rowKey (afterCursor rowKey key (rows world))).take count)
    (after : rows later = swept dryRun gone (rows world)) :
    orderBy rowKey (afterCursor rowKey (some (rowKey last)) (rows later)) =
      (orderBy rowKey (afterCursor rowKey key (rows world))).drop count := by
  have keyed : Keyed rowKey (afterCursor rowKey key (rows world)) :=
    (steady.keyed world).sublist (List.filter_sublist.map rowKey)
  have strict := orderBy_strict keyed
  obtain ⟨before, parts⟩ := List.getLast?_eq_some_iff.mp ends
  have ordered := strict.sublist (List.take_sublist count _)
  have early : ∀ e ∈ gone, rowKey e ≤ rowKey last := by
    intro e member
    have inside := among member
    rw [parts] at ordered inside
    rcases List.mem_append.mp inside with earlier | same
    · exact le_of_lt ((List.pairwise_append.mp ordered).2.2 e earlier last List.mem_cons_self)
    · rw [List.mem_singleton.mp same]
  have beyond : ∀ bound ∈ key, bound < rowKey last := by
    have listed := List.mem_of_mem_take (List.mem_of_getLast? ends)
    exact (mem_afterCursor.mp (mem_orderBy.mp listed)).2
  have again : afterCursor rowKey (some (rowKey last)) (rows world) =
      afterCursor rowKey (some (rowKey last)) (afterCursor rowKey key (rows world)) := by
    unfold afterCursor
    rw [List.filter_filter]
    refine List.filter_congr fun e _ => ?_
    by_cases larger : rowKey last < rowKey e
    · have passes : key.all (fun bound => decide (bound < rowKey e)) = true :=
        (Option.all_eq_true _ _).mpr fun bound member =>
          decide_eq_true ((beyond bound member).trans larger)
      simp [larger, passes]
    · simp [larger]
  rw [after, afterCursor_swept early, again, ← afterCursor_drop strict ends]
  unfold afterCursor
  exact orderBy_filter keyed _

theorem answered (world : World) (op : Call) (other : ∀ request, op ≠ .deleteRetentionEvents request) :
    ∃ later, answer world op = (later, (answer world op).2) ∧ rows later = rows world :=
  ⟨_, rfl, steady.same world op other⟩

/-- **One round of a scan** with a page to take: the page is swept and deleted, and the loop ends or
goes on at a cursor behind the page. -/
structure Round (adapter : Adapter) (rows : World → List EventRecord)
    (answer : World → (op : Call) → World × op.Reply) (engine : Engine) (dryRun : Bool) (now : Time)
    (fuel : Nat) (dryPayloads : Finset GoString) (result : Result) (world : World)
    (rest : List EventRecord) (count : Nat) (next : Result × Finset GoString)
    (ran : List (World × signature.Exchange) × World × Except (Result × GoError) Result) : Prop where
  page : ∃ two three log,
    ((deletePage dryRun (engine.sweep now ((rest.take count).map adapter.retentionEvent) result)
      dryPayloads).execute answer two).2 = (three, .ok next) ∧
    scannedIn log = (rest.take count).map adapter.retentionEvent ∧
    rows three = swept dryRun ((rest.take count).filter (engine.isDueRow adapter now)) (rows world) ∧
    (count < rest.length → ∃ cursor key, CursorAt cursor key ∧
      orderBy rowKey (afterCursor rowKey key (rows three)) = rest.drop count ∧
      ran = (log ++ ((engine.scanLoop dryRun now fuel cursor next.2 next.1).execute answer three).1,
        ((engine.scanLoop dryRun now fuel cursor next.2 next.1).execute answer three).2)) ∧
    (rest.length ≤ count → ran = (log, three, .ok next.1))
  counts : next.1.counts =
    engine.counted now result.counts ((rest.take count).map adapter.retentionEvent)

theorem scanLoop_round (engine : Engine) (dryRun : Bool) (now : Time) (fuel : Nat)
    {cursor : GoString} {key : Option RowKey} (standing : CursorAt cursor key)
    (dryPayloads : Finset GoString) (result : Result) (world : World) {rest : List EventRecord}
    (ahead : orderBy rowKey (afterCursor rowKey key (rows world)) = rest) (some_ : rest ≠ [])
    (budget : result.eventsScanned < engine.cfg.maxEvents) :
    ∃ next, Round adapter rows answer engine dryRun now fuel dryPayloads result world rest
      (engine.scanLimit result.eventsScanned).toNat next
      ((engine.scanLoop dryRun now (fuel + 1) cursor dryPayloads result).execute answer world) := by
  have batch := engine.bounded.eventBatchSize.1
  have positive : 0 < engine.scanLimit result.eventsScanned := by
    unfold Engine.scanLimit
    omega
  unfold Engine.scanLoop
  rw [if_pos budget]
  obtain ⟨one, first, same⟩ := steady.answered world .ctxErr fun _ => Call.noConfusion
  rw [steady.ctxErr] at first
  rw [Prog.execute_call first]
  dsimp only
  obtain ⟨two, second, still⟩ := steady.answered one
    (.scanRetentionEvents ⟨cursor, engine.scanLimit result.eventsScanned⟩)
    fun _ => Call.noConfusion
  rw [steady.scan, same, Adapter.scanRetentionEvents_page standing positive, ahead] at second
  rw [Prog.execute_call second]
  dsimp only
  have fixed : rows two = rows world := still.trans same
  have sublist := ahead ▸ steady.rest_sublist world key
  have dropped := fun {later last} => @rest_drop _ _ _ _ _ steady world later key
    (engine.scanLimit result.eventsScanned).toNat last dryRun
    (((orderBy rowKey (afterCursor rowKey key (rows world))).take
      (engine.scanLimit result.eventsScanned).toNat).filter (engine.isDueRow adapter now))
  rw [ahead] at dropped
  generalize size : (engine.scanLimit result.eventsScanned).toNat = n at second dropped ⊢
  have page : (rest.take n).map adapter.retentionEvent ≠ [] := by
    intro empty
    rcases List.take_eq_nil_iff.mp (List.map_eq_nil_iff.mp empty) with zero | nil
    · omega
    · exact some_ nil
  rw [if_neg page]
  obtain ⟨due, counted⟩ := engine.sweep_spec now ((rest.take n).map adapter.retentionEvent) result
  have eligible : (engine.sweep now ((rest.take n).map adapter.retentionEvent) result).eligible =
      ((rest.take n).filter (engine.isDueRow adapter now)).map adapter.retentionEvent :=
    due.trans List.filter_map
  have among : ((rest.take n).filter (engine.isDueRow adapter now)).Sublist
      (orderBy rowKey (rows two)) := by
    rw [fixed]
    exact List.filter_sublist.trans ((List.take_sublist n rest).trans sublist)
  obtain ⟨next, deleted, counts, left⟩ :=
    steady.deletePage_execute dryRun among eligible dryPayloads
  rw [fixed] at left
  have silent := scannedIn_unscanned
    ((deletePage_unscanned dryRun
      (engine.sweep now ((rest.take n).map adapter.retentionEvent) result)
      dryPayloads []).execute answer two)
  rcases ran : (deletePage dryRun
    (engine.sweep now ((rest.take n).map adapter.retentionEvent) result)
    dryPayloads).execute answer two with ⟨log, three, value⟩
  rw [ran] at deleted left silent
  obtain rfl : value = .ok next := deleted
  have whole := congrArg Prod.snd ran
  rw [Prog.execute_bind_of whole, ran]
  refine ⟨next, ⟨two, three, (world, ⟨Call.ctxErr, none⟩) ::
    (one, ⟨Call.scanRetentionEvents ⟨cursor, engine.scanLimit result.eventsScanned⟩,
      .ok ⟨(rest.take n).map adapter.retentionEvent,
      ((rest.take n).getLast?.map fun e => retentionCursor e.timestamp e.id.1).getD [],
      decide (n < rest.length)⟩⟩) :: log, whole, ?_, left, ?_, ?_⟩, counts.trans counted⟩
  · rw [scannedIn_cons, scannedIn_cons, silent]
    exact List.append_nil _
  · intro longer
    obtain ⟨last, ends⟩ : ∃ last, (rest.take n).getLast? = some last :=
      ⟨_, List.getLast?_eq_some_getLast fun nil => page (List.map_eq_nil_iff.mpr nil)⟩
    have range : InRange last.timestamp := steady.inRange world last
      (mem_orderBy.mp (sublist.subset (List.mem_of_mem_take (List.mem_of_getLast? ends))))
    refine ⟨_, _, .inr ⟨last, range, rfl, rfl⟩, dropped ends List.filter_sublist.subset left, ?_⟩
    dsimp only
    rw [if_pos (decide_eq_true longer), ends]
    rfl
  · intro short
    dsimp only
    rw [if_neg (by simpa using short)]
    rw [Prog.execute, List.append_nil]

/-- A round with nothing left to take. -/
theorem scanLoop_end (engine : Engine) (dryRun : Bool) (now : Time) (fuel : Nat) {cursor : GoString}
    {key : Option RowKey} (standing : CursorAt cursor key) (dryPayloads : Finset GoString)
    (result : Result) (world : World)
    (ended : orderBy rowKey (afterCursor rowKey key (rows world)) = [] ∨
      engine.cfg.maxEvents ≤ result.eventsScanned) :
    Scanned adapter rows engine dryRun now result world []
      ((engine.scanLoop dryRun now fuel cursor dryPayloads result).execute answer world) ∧
    ((engine.scanLoop dryRun now fuel cursor dryPayloads result).execute answer world).2.2 =
      .ok result := by
  cases fuel with
  | zero => exact ⟨.nothing rfl rfl rfl, rfl⟩
  | succ fuel =>
    unfold Engine.scanLoop
    split
    · rename_i budget
      have nothing := ended.resolve_right (not_le.mpr budget)
      have batch := engine.bounded.eventBatchSize.1
      have positive : 0 < engine.scanLimit result.eventsScanned := by
        unfold Engine.scanLimit
        omega
      obtain ⟨one, first, same⟩ := steady.answered world .ctxErr fun _ => Call.noConfusion
      rw [steady.ctxErr] at first
      rw [Prog.execute_call first]
      dsimp only
      obtain ⟨two, second, still⟩ := steady.answered one
        (.scanRetentionEvents ⟨cursor, engine.scanLimit result.eventsScanned⟩)
        fun _ => Call.noConfusion
      rw [steady.scan, same, Adapter.scanRetentionEvents_page standing positive, nothing,
        List.take_nil] at second
      rw [Prog.execute_call second]
      exact ⟨.nothing rfl rfl (still.trans same), rfl⟩
    · exact ⟨.nothing rfl rfl rfl, rfl⟩

/-- **A scan takes the rows after its cursor in order, as many as its budget allows**, and its expired
ones are gone, unless the run is dry. -/
theorem scanLoop_execute (engine : Engine) (dryRun : Bool) (now : Time) (fuel : Nat)
    {cursor : GoString} {key : Option RowKey} (standing : CursorAt cursor key)
    (dryPayloads : Finset GoString) (result : Result) (world : World)
    (enough : engine.cfg.maxEvents - result.eventsScanned < fuel) :
    Scanned adapter rows engine dryRun now result world
      ((orderBy rowKey (afterCursor rowKey key (rows world))).take
        (engine.cfg.maxEvents - result.eventsScanned).toNat)
      ((engine.scanLoop dryRun now fuel cursor dryPayloads result).execute answer world) := by
  induction fuel generalizing cursor key dryPayloads result world with
  | zero =>
    rw [show (engine.cfg.maxEvents - result.eventsScanned).toNat = 0 by omega, List.take_zero]
    exact .nothing rfl rfl rfl
  | succ fuel ih =>
    by_cases ended : orderBy rowKey (afterCursor rowKey key (rows world)) = [] ∨
        engine.cfg.maxEvents ≤ result.eventsScanned
    · have nothing : (orderBy rowKey (afterCursor rowKey key (rows world))).take
          (engine.cfg.maxEvents - result.eventsScanned).toNat = [] := by
        rcases ended with empty | spent
        · rw [empty, List.take_nil]
        · rw [show (engine.cfg.maxEvents - result.eventsScanned).toNat = 0 by omega, List.take_zero]
      rw [nothing]
      exact (steady.scanLoop_end engine dryRun now _ standing dryPayloads result world ended).1
    · obtain ⟨some_, budget⟩ := not_or.mp ended
      obtain ⟨next, round⟩ := steady.scanLoop_round engine dryRun now fuel standing dryPayloads result
        world rfl some_ (not_le.mp budget)
      obtain ⟨⟨two, three, log, -, pages, left, more, last⟩, counts⟩ := round
      generalize orderBy rowKey (afterCursor rowKey key (rows world)) = rest at *
      have within : (engine.scanLimit result.eventsScanned).toNat ≤
          (engine.cfg.maxEvents - result.eventsScanned).toNat := by
        unfold Engine.scanLimit
        omega
      have batch := engine.bounded.eventBatchSize.1
      have positive : 0 < (engine.scanLimit result.eventsScanned).toNat := by
        unfold Engine.scanLimit
        omega
      generalize (engine.scanLimit result.eventsScanned).toNat = n at *
      have number : next.1.eventsScanned = result.eventsScanned + (rest.take n).length :=
        (congrArg Prod.fst counts).trans (congrArg _ (List.length_map _))
      rcases Nat.lt_or_ge n rest.length with longer | short
      · obtain ⟨cursor, key, standing, rest', ran⟩ := more longer
        have full : (rest.take n).length = n := List.length_take_of_le longer.le
        have tail := ih standing next.2 next.1 three (by omega)
        rw [rest'] at tail
        rw [ran, show (engine.cfg.maxEvents - result.eventsScanned).toNat =
          n + (engine.cfg.maxEvents - next.1.eventsScanned).toNat by omega, List.take_add]
        exact Scanned.page counts pages left tail
      · have all : rest.take (engine.cfg.maxEvents - result.eventsScanned).toNat =
            rest.take n ++ [] := by
          rw [List.take_of_length_le (short.trans within), List.take_of_length_le short,
            List.append_nil]
        rw [all, last short]
        have stop : Scanned adapter rows engine dryRun now next.1 three []
          ([], three, .ok next.1) := .nothing rfl rfl rfl
        have whole := Scanned.page counts pages left stop
        rw [List.append_nil log] at whole
        exact whole

end Steady

/-! ### A whole run -/

theorem Engine.processCandidate_quiet (engine : Engine) (c : Candidate) (live : Bool) :
    (engine.processCandidate c live).Always (fun _ (op : Call) => op.Quiet) fun _ => True := by
  have step : ∀ (op : Call) (next : op.Reply → Prog signature Outcome), op.Quiet →
      (∀ reply, (next reply).Always (fun _ (op : Call) => op.Quiet) fun _ => True) →
        Prog.Always (fun _ (op : Call) => op.Quiet) (fun _ => True)
          (Prog.call op next : Prog signature Outcome) :=
    fun _ _ quiet rest => ⟨fun _ _ => quiet, fun _ _ _ => trivial, rest⟩
  unfold Engine.processCandidate recordFailure
  split
  · exact step _ _ trivial fun _ => trivial
  split
  · exact step _ _ trivial fun _ => trivial
  split
  · exact step _ _ trivial fun _ => trivial
  · refine step _ _ trivial fun reply => ?_
    dsimp only
    split
    · exact step _ _ trivial fun _ => trivial
    · refine step _ _ trivial fun reply => ?_
      cases reply <;> trivial

/-- What a result has of the scan. -/
def Result.ofScan (result : Result) : (Nat × Nat × Nat) × UInt64 :=
  (result.counts, result.payloadCandidates)

/-- **The collection neither scans nor deletes events**, and keeps what the result has of the scan. -/
theorem Engine.collectLoop_quiet (engine : Engine) (now : Time) (fuel : Nat) (remaining : Int)
    (result : Result) (history : List signature.Exchange) :
    (engine.collectLoop now fuel remaining result).Obeys (fun _ (op : Call) => op.Quiet) history
      fun _ total => total.1.ofScan = result.ofScan := by
  induction fuel generalizing remaining result history with
  | zero => rfl
  | succ fuel ih =>
    unfold Engine.collectLoop
    split
    · refine ⟨trivial, fun reply => ?_⟩
      cases reply with
      | some error => exact ⟨trivial, fun _ => rfl⟩
      | none =>
        refine ⟨trivial, fun reply => ?_⟩
        rcases reply with error | listed
        · rfl
        dsimp only
        split
        · rfl
        refine ⟨trivial, fun reply => ?_⟩
        rcases reply with error | live
        · rfl
        have keeps : ∀ (total : Result × Option GoError) (outcome : Outcome),
            total.1.ofScan = result.ofScan → (mergeOutcome total outcome).1.ofScan = result.ofScan :=
          fun _ _ same => same
        refine Prog.obeys_bind ((Prog.pool_total _ (fun _ => trivial) keeps _ _ _ ?_
          (fun _ member => (List.not_mem_nil member).elim) rfl _).mono fun later total same => ?_)
        · intro thread member
          obtain ⟨c, _, rfl⟩ := List.mem_map.mp member
          exact engine.processCandidate_quiet c _
        · obtain ⟨total, _ | error⟩ := total
          · dsimp only
            split
            · exact same
            · exact (ih _ _ _).mono fun _ _ next => next.trans same
          · exact same
    · exact ⟨trivial, fun _ => rfl⟩

theorem Engine.conclude_quiet (engine : Engine) (dryRun : Bool) (now : Time) (result : Result)
    (history : List signature.Exchange) :
    (engine.conclude dryRun now result).Obeys (fun _ (op : Call) => op.Quiet) history
      fun _ total => total.1.ofScan = result.ofScan := by
  have settled : ∀ (later : List signature.Exchange) (total : Result × Option GoError),
      total.1.ofScan = result.ofScan →
        (settle result total).Obeys (fun _ (op : Call) => op.Quiet) later
          fun _ total => total.1.ofScan = result.ofScan := by
    intro later total same
    obtain ⟨collected, _ | error⟩ := total
    · exact ⟨trivial, fun _ => ⟨trivial, fun _ => same⟩⟩
    · refine ⟨trivial, fun _ => ?_⟩
      show Result.ofScan { (if _ then _ else _ : Result) with finishedAt := _, duration := _ } = _
      split <;> exact same
  unfold Engine.conclude
  refine Prog.obeys_bind ?_
  split
  · exact settled history _ rfl
  · exact (engine.collectLoop_quiet now _ _ result history).mono settled

namespace Steady

variable (steady : Steady adapter quote rows answer)

include steady

theorem quiet_execute {α : Type} {program : Prog signature α} {history : List signature.Exchange}
    {post : List signature.Exchange → α → Prop}
    (obeys : program.Obeys (fun _ (op : Call) => op.Quiet) history post) (world : World) :
    scannedIn (program.execute answer world).1 = [] ∧
      rows (program.execute answer world).2.1 = rows world := by
  have quiet := obeys.execute answer world
  refine ⟨scannedIn_unscanned fun entry member => (quiet entry member).unscanned, ?_⟩
  refine Prog.execute_kept rows world program fun entry member => ?_
  refine steady.same entry.1 entry.2.op fun request same => ?_
  have allowed := quiet entry member
  rw [same] at allowed
  exact allowed

theorem reconcile_execute (dryRun : Bool) (world : World) :
    ∃ log later, (Retention.reconcile dryRun).execute answer world = (log, later, none) ∧
      scannedIn log = [] ∧ rows later = rows world := by
  unfold Retention.reconcile
  split
  · exact ⟨_, _, rfl, rfl, rfl⟩
  · obtain ⟨later, first, same⟩ := steady.answered world .reconcileRetention fun _ => Call.noConfusion
    rw [steady.reconcile] at first
    exact ⟨_, _, @Prog.execute_call signature _ _ _ _ _ _ _ first .pure, rfl, same⟩

/-- The parts of a run: the clock, the reconciliation, the scan and the rest. -/
theorem run_parts (engine : Engine) (dryRun : Bool) (world : World) :
    let now : Time := (answer world .now).2
    ∃ log two, scannedIn log = [] ∧ rows two = rows world ∧ ∀ pages three final,
      (engine.scanLoop dryRun now (engine.cfg.maxEvents.toNat + 1) [] ∅
        { startedAt := now }).execute answer two = (pages, three, .ok final) →
      (engine.run dryRun).execute answer world = ((world, ⟨.now, now⟩) ::
        (log ++ (pages ++ ((engine.conclude dryRun now final).execute answer three).1)),
        ((engine.conclude dryRun now final).execute answer three).2) := by
  intro now
  obtain ⟨one, first, same⟩ := steady.answered world .now fun _ => Call.noConfusion
  obtain ⟨log, two, ready, quiet, still⟩ := steady.reconcile_execute dryRun one
  refine ⟨log, two, quiet, still.trans same, fun pages three final loop => ?_⟩
  unfold Engine.run
  rw [Prog.execute_call first, Prog.execute_bind_of (congrArg Prod.snd ready), ready]
  dsimp only
  rw [Prog.execute_bind_of (congrArg Prod.snd loop), loop]
  rfl

/-- **A run scans the oldest events up to `MaxEvents`, each once**; its counters are theirs, and the
expired ones among them are gone, unless it is dry. -/
theorem run_execute (engine : Engine) (dryRun : Bool) (world : World) :
    let now : Time := (answer world .now).2
    let taken := (orderBy rowKey (rows world)).take engine.cfg.maxEvents.toNat
    let ran := (engine.run dryRun).execute answer world
    scannedIn ran.1 = taken.map adapter.retentionEvent ∧
      rows ran.2.1 = swept dryRun (taken.filter (engine.isDueRow adapter now)) (rows world) ∧
      ran.2.2.1.counts = engine.counted now (0, 0, 0) (taken.map adapter.retentionEvent) := by
  intro now taken ran
  obtain ⟨log, two, quiet, same, parts⟩ := steady.run_parts engine dryRun world
  have scan := steady.scanLoop_execute engine dryRun now (engine.cfg.maxEvents.toNat + 1)
    (.inl ⟨rfl, rfl⟩) ∅ { startedAt := now } two (by
      have := engine.bounded.maxEvents
      push_cast
      omega)
  have budget : engine.cfg.maxEvents - (0 : Nat) = engine.cfg.maxEvents := by simp
  rw [afterCursor_none, same, budget] at scan
  rcases loop : (engine.scanLoop dryRun now (engine.cfg.maxEvents.toNat + 1) [] ∅
    { startedAt := now }).execute answer two with ⟨pages, three, outcome⟩
  rw [loop] at scan
  obtain ⟨⟨final, done, counts⟩, listed, left⟩ := scan
  obtain rfl : outcome = .ok final := done
  have ending := engine.conclude_quiet dryRun now final []
  obtain ⟨silent, kept⟩ := steady.quiet_execute ending three
  have whole : ran = _ := parts pages three final loop
  rw [whole]
  refine ⟨?_, ?_, ?_⟩
  · rw [scannedIn_cons, scannedIn_append, scannedIn_append, quiet, listed, silent]
    exact List.append_nil _
  · rw [same] at left
    exact kept.trans left
  · exact (congrArg Prod.fst (ending.execute_result answer three)).trans counts

end Steady

end Execute

end Trail.Retention
