/-
**Which envelopes the columns take.**

`Normalize` makes records of every valid envelope; the schemas fix the widths of their values again. A
`Domains` has what the databases say of their types beside the widths: the texts and the times they
take.

* `Postgres.insertRow_ok_iff`, `ClickHouse.appendRow_ok_iff` — when the row of a record is accepted.
* `Postgres.writeBatches_none_iff`, `ClickHouse.writeBatches_none_iff` — a write fails when one of its
  rows is refused, and only then.
* `storable_iff` — the envelopes that both databases store, number by number.
-/

import Trail.Storage.Promotion

namespace Trail.Storage

open Library Payload

/-- What the databases say of their types. -/
structure Domains where
  /-- The texts of PostgreSQL: those of the encoding, without a zero byte. -/
  text : GoString → Bool
  timestamptz : Time → Bool
  /-- The times of `DateTime64` with so many decimals. -/
  dateTime64 : Nat → Time → Bool

/-- The numbers of a record, by their columns. -/
def EventRecord.number (e : EventRecord) : Column → Option Int
  | .jetstreamStreamSeq => some e.delivery.streamSequence.toNat
  | .jetstreamConsumerSeq => some e.delivery.consumerSequence.toNat
  | .jetstreamDelivered => some e.delivery.delivered.toNat
  | .executionAttempt => some e.executionAttempt.toNat
  | .httpStatusCode => some e.http.statusCode.toInt
  | .httpDurationNs => some e.http.duration.toInt
  | .httpRequestSize => some e.http.requestSize.toInt
  | .httpResponseSize => some e.http.responseSize.toInt
  | _ => none

/-- The texts of a record. -/
def EventRecord.texts (e : EventRecord) : List GoString :=
  [e.delivery.stream, e.delivery.consumer, e.metadata.service, e.metadata.environment,
    e.metadata.version, e.kind, Level.text e.level, e.executionSource, e.scope.type, e.scope.id,
    e.entityType, e.entityID, e.flowStatus, e.executionStatus, e.executionKind, e.provider,
    e.http.method, e.http.scheme, e.http.host, e.http.path, e.http.requestPreview,
    e.http.responsePreview]

/-- The row has the numbers of the record. -/
def SameNumbers (e : EventRecord) (row : Row Column Value) : Prop :=
  ∀ column n, e.number column = some n → row.get column = some (.int n)

/-- A list of fields has a text, and `jsonb` takes it. -/
def EncodesFields (driver : Driver) (fields : List Wire.Field) : Prop :=
  ∃ text kept, driver.fields.marshal fields = .ok text ∧ driver.jsonb text = some kept

/-- A list of payload links has a text, and `jsonb` takes it. -/
def EncodesPayloads (driver : Driver) (payloads : List PayloadLink) : Prop :=
  ∃ text kept, driver.payloads.marshal payloads = .ok text ∧ driver.jsonb text = some kept

end Trail.Storage

/-! ### PostgreSQL -/

namespace Trail.Postgres

open Library Payload Storage

/-- The texts and times a column takes; numbers, identifiers and JSON are looked at in `keep`. -/
def ColumnType.admits (domains : Domains) : ColumnType → Value → Bool
  | .text, .text content => domains.text content
  | .timestamptz, .time t => domains.timestamptz t
  | _, _ => true

/-- The row of an event, when the texts and times are those of its columns. -/
def insertRow (domains : Domains) (driver : Driver) (e : EventRecord) :
    Except GoError (Row Column Value) :=
  if (insertColumns.zip (eventValues e [] [])).all fun entry =>
      (columnType entry.1).admits domains entry.2 then
    eventRow driver e
  else .error driver.refused

section Row

variable {domains : Domains} {driver : Driver} {e : EventRecord} {row : Row Column Value}

theorem admits_iff : ((insertColumns.zip (eventValues e [] [])).all fun entry =>
      (columnType entry.1).admits domains entry.2) = true ↔
    (∀ text ∈ e.texts, domains.text text = true) ∧ domains.timestamptz e.timestamp = true ∧
      domains.timestamptz e.delivery.receivedAt = true := by
  simp only [insertColumns, eventValues, List.zip_cons_cons, List.zip_nil_right, List.all_cons,
    List.all_nil, columnType, ColumnType.admits, EventRecord.texts, Bool.and_eq_true,
    List.forall_mem_cons, List.not_mem_nil, false_implies, implies_true, true_and, and_true]
  tauto

/-- A record has a row when its numbers are within the columns and its JSON is taken. -/
theorem eventRow_ok_iff : (∃ row, eventRow driver e = .ok row) ↔
    Fits e ∧ EncodesFields driver e.fields ∧ EncodesPayloads driver e.payloads := by
  constructor
  · rintro ⟨row, stored⟩
    refine ⟨fits_of_eventRow stored, ?_⟩
    unfold eventRow at stored
    split at stored
    · cases stored
    rename_i fields first
    split at stored
    · cases stored
    rename_i payloads second
    have taken : ∀ {index : Nat} {column : Column} {text : List UInt8},
        insertColumns[index]? = some column →
        (eventValues e fields payloads)[index]? = some (.bytes text) →
        columnType column = .jsonb → ∃ kept, driver.jsonb text = some kept := by
      intro index column text here there json
      refine Option.ne_none_iff_exists'.mp fun refused => ?_
      have dropped : (columnType column).keep driver (.bytes text) = none := by
        rw [json]
        show (driver.jsonb text).map _ = none
        rw [refused]
        rfl
      rw [keepAll_refused here there dropped] at stored
      cases stored
    obtain ⟨fields', third⟩ := @taken 30 .fields fields rfl rfl rfl
    obtain ⟨payloads', fourth⟩ := @taken 42 .payloadRefs payloads rfl rfl rfl
    exact ⟨⟨fields, fields', first, third⟩, payloads, payloads', second, fourth⟩
  · rintro ⟨fits, ⟨fields, fields', first, third⟩, payloads, payloads', second, fourth⟩
    refine ⟨insertColumns.zip (eventValues (kept e) fields' payloads'), ?_⟩
    unfold eventRow
    rw [first]
    dsimp only
    rw [second]
    dsimp only
    rw [keepAll_eventValues fits third fourth]

/-- **When the row of a record is accepted.** -/
theorem insertRow_ok_iff : (∃ row, insertRow domains driver e = .ok row) ↔
    (∀ text ∈ e.texts, domains.text text = true) ∧
    (domains.timestamptz e.timestamp = true ∧ domains.timestamptz e.delivery.receivedAt = true) ∧
    Fits e ∧ EncodesFields driver e.fields ∧ EncodesPayloads driver e.payloads := by
  rw [← eventRow_ok_iff, ← and_assoc, ← admits_iff]
  unfold insertRow
  by_cases admitted : ((insertColumns.zip (eventValues e [] [])).all fun entry =>
      (columnType entry.1).admits domains entry.2) = true
  · rw [if_pos admitted]
    exact (and_iff_right admitted).symm
  · rw [if_neg admitted]
    refine ⟨?_, fun both => absurd both.1 admitted⟩
    rintro ⟨row, stored⟩
    cases stored

theorem eventRow_of_insertRow (stored : insertRow domains driver e = .ok row) :
    eventRow driver e = .ok row := by
  unfold insertRow at stored
  split at stored
  · exact stored
  · cases stored

theorem sameNumbers_of_insertRow (stored : insertRow domains driver e = .ok row) :
    SameNumbers e row := by
  have made := eventRow_of_insertRow stored
  obtain ⟨fits, ⟨fields, fields', first, third⟩, payloads, payloads', second, fourth⟩ :=
    eventRow_ok_iff.mp ⟨row, made⟩
  unfold eventRow at made
  rw [first] at made
  dsimp only at made
  rw [second] at made
  dsimp only at made
  rw [keepAll_eventValues fits third fourth] at made
  cases made
  intro column n numbered
  cases column <;> cases numbered <;> rfl

end Row

namespace EventsTable

/-- How the database answers `WriteBatches`, when it looks at texts and times too. -/
def within (domains : Domains) (driver : Driver) (others : (op : Call) → op.Reply)
    (table : EventsTable) : (op : Call) → EventsTable × op.Reply
  | .exec (.insertEvent e) =>
    match insertRow domains driver e with
    | .error error => (table, .error error)
    | .ok row => (table.insert row, .ok ((table.insert row).pending.length - table.pending.length))
  | op => answer driver others table op

end EventsTable

section Write

variable {domains : Domains} {driver : Driver} {others : (op : Call) → op.Reply}
  {events : List EventRecord}

theorem within_insert {e : EventRecord} {row : Row Column Value} (table : EventsTable)
    (stored : insertRow domains driver e = .ok row) :
    EventsTable.within domains driver others table (.exec (.insertEvent e)) =
      (table.insert row, .ok ((table.insert row).pending.length - table.pending.length)) := by
  show (match insertRow domains driver e with | .error _ => _ | .ok _ => _) = _
  rw [stored]

theorem within_refused {e : EventRecord} {error : GoError} (table : EventsTable)
    (refused : insertRow domains driver e = .error error) :
    EventsTable.within domains driver others table (.exec (.insertEvent e)) = (table, .error error) := by
  show (match insertRow domains driver e with | .error _ => _ | .ok _ => _) = _
  rw [refused]

theorem execAll_none_iff (table : EventsTable) :
    ((execAll (events.map .insertEvent)).execute (EventsTable.within domains driver others)
      table).2.2 = none ↔ ∀ e ∈ events, ∃ row, insertRow domains driver e = .ok row := by
  induction events generalizing table with
  | nil => simp [execAll, Prog.execute]
  | cons e events ih =>
    rw [List.map_cons, execAll, List.forall_mem_cons]
    cases stored : insertRow domains driver e with
    | error error =>
      rw [Prog.execute_call (within_refused table stored)]
      simp [Prog.execute]
    | ok row =>
      rw [Prog.execute_call (within_insert table stored)]
      dsimp only
      rw [ih]
      exact (and_iff_right ⟨row, rfl⟩).symm

/-- **A write fails when one of its rows is refused**, and only then. -/
theorem writeBatches_none_iff (batches : List Storage.Batch) (table : EventsTable) :
    ((writeBatches (json driver) batches).execute (EventsTable.within domains driver others)
      table).2.2 = none ↔
      ∀ e ∈ batches.flatMap (·.events), ∃ row, insertRow domains driver e = .ok row := by
  by_cases empty : batches = []
  · subst empty
    simp [writeBatches, Prog.execute]
  unfold writeBatches
  rw [if_neg empty]
  rw [Prog.execute_call (show EventsTable.within domains driver others table .beginTx =
    ({ table with pending := [] }, none) from rfl)]
  dsimp only
  cases marshalled : (batches.flatMap (·.events)).findSome? (fun e =>
      (json driver).fields e.fields <|> (json driver).payloads e.payloads) with
  | some error =>
    -- the record that JSON refuses has no row
    obtain ⟨e, member, refused⟩ := List.exists_of_findSome?_eq_some marshalled
    refine ⟨fun none => ?_, fun all => ?_⟩
    · cases none
    · obtain ⟨-, -, -, ⟨fields, _, first, -⟩, payloads, _, second, -⟩ :=
        insertRow_ok_iff.mp (all e member)
      have none : ((json driver).fields e.fields <|> (json driver).payloads e.payloads) = none := by
        show (failure (driver.fields.marshal e.fields) <|>
          failure (driver.payloads.marshal e.payloads)) = _
        rw [first, second]
        rfl
      rw [none] at refused
      cases refused
  | none =>
    dsimp only
    rw [← @execAll_none_iff domains driver others _ { table with pending := [] }]
    generalize ran : ((execAll ((batches.flatMap (·.events)).map .insertEvent)).execute
      (EventsTable.within domains driver others) { table with pending := [] }).2 = outcome
    obtain ⟨later, result⟩ := outcome
    rw [Prog.execute_bind_snd ran]
    cases result with
    | some error =>
      constructor <;>
      · intro succeeds
        cases succeeds
    | none => exact ⟨fun _ => rfl, fun _ => rfl⟩

end Write

/-- The batches are written, and their rows have their numbers. -/
def Stores (domains : Domains) (driver : Driver) (others : (op : Call) → op.Reply)
    (batches : List Storage.Batch) : Prop :=
  (∀ table, ((writeBatches (json driver) batches).execute (EventsTable.within domains driver others)
    table).2.2 = none) ∧
  ∀ e ∈ batches.flatMap (·.events), ∃ row, insertRow domains driver e = .ok row ∧ SameNumbers e row

theorem stores_iff {domains : Domains} {driver : Driver} {others : (op : Call) → op.Reply}
    {batches : List Storage.Batch} : Stores domains driver others batches ↔
      ∀ e ∈ batches.flatMap (·.events), ∃ row, insertRow domains driver e = .ok row := by
  constructor
  · rintro ⟨-, rows⟩ e member
    obtain ⟨row, stored, -⟩ := rows e member
    exact ⟨row, stored⟩
  · intro rows
    refine ⟨fun table => (writeBatches_none_iff batches table).mpr rows, fun e member => ?_⟩
    obtain ⟨row, stored⟩ := rows e member
    exact ⟨row, stored, sameNumbers_of_insertRow stored⟩

end Trail.Postgres

/-! ### ClickHouse -/

namespace Trail.ClickHouse

open Library Payload Storage

/-- The times a column takes; the rest is looked at in `keep`. -/
def ColumnType.admits (domains : Domains) : ColumnType → Value → Bool
  | .dateTime64 decimals, .time t => domains.dateTime64 decimals t
  | _, _ => true

/-- The row of an event, when the times are those of its columns. -/
def appendRow (domains : Domains) (driver : Driver) (e : EventRecord) :
    Except GoError (Row Column Value) :=
  if (insertColumns.zip (appendValues e [])).all fun entry =>
      (columnType entry.1).admits domains entry.2 then
    eventRow driver e
  else .error driver.refused

section Row

variable {domains : Domains} {driver : Driver} {e : EventRecord} {row : Row Column Value}

theorem admits_iff : ((insertColumns.zip (appendValues e [])).all fun entry =>
      (columnType entry.1).admits domains entry.2) = true ↔
    domains.dateTime64 9 e.timestamp = true ∧ domains.dateTime64 6 e.delivery.receivedAt = true := by
  simp only [insertColumns, appendValues, List.zip_cons_cons, List.zip_nil_right, List.all_cons,
    List.all_nil, columnType, ColumnType.admits, Bool.and_eq_true, true_and, and_true]

theorem eventRow_eq (known : e.level.Known) {payloadJSON : GoString}
    (marshals : driver.payloads.marshal e.payloads = .ok payloadJSON) :
    eventRow driver e = .ok (insertColumns.zip (appendValues (received e) payloadJSON)) := by
  unfold eventRow
  rw [marshals]
  dsimp only
  rw [keepAll_appendValues known]

/-- **When the row of a record is accepted**, and which it is. -/
theorem appendRow_ok_iff (known : e.level.Known) : appendRow domains driver e = .ok row ↔
    (domains.dateTime64 9 e.timestamp = true ∧ domains.dateTime64 6 e.delivery.receivedAt = true) ∧
    ∃ payloadJSON, driver.payloads.marshal e.payloads = .ok payloadJSON ∧
      row = insertColumns.zip (appendValues (received e) payloadJSON) := by
  rw [← admits_iff]
  unfold appendRow
  by_cases admitted : ((insertColumns.zip (appendValues e [])).all fun entry =>
      (columnType entry.1).admits domains entry.2) = true
  · rw [if_pos admitted, and_iff_right admitted]
    cases marshals : driver.payloads.marshal e.payloads with
    | error error =>
      have refused : eventRow driver e = .error error := by
        unfold eventRow
        rw [marshals]
      rw [refused]
      constructor
      · intro stored
        cases stored
      · rintro ⟨payloadJSON, made, -⟩
        cases made
    | ok payloadJSON =>
      rw [eventRow_eq known marshals]
      constructor
      · rintro ⟨⟩
        exact ⟨payloadJSON, rfl, rfl⟩
      · rintro ⟨_, ⟨⟩, rfl⟩
        rfl
  · rw [if_neg admitted]
    refine ⟨?_, fun both => absurd both.1 admitted⟩
    intro stored
    cases stored

theorem durationBits (duration : Int64) :
    (duration.toUInt64.toNat : Int) = duration.toInt % 2 ^ 64 := by
  have same : duration.toUInt64.toNat = duration.toBitVec.toNat := rfl
  have signed := duration.toBitVec.toInt_eq_toNat_cond
  have small := duration.toBitVec.isLt
  rw [Int64.toInt_toBitVec] at signed
  rw [same]
  split at signed <;> omega

/-- **ClickHouse keeps the numbers of a row** when the status code has sixteen bits and the duration is
not negative. -/
theorem sameNumbers_iff {payloadJSON : GoString} :
    SameNumbers e (insertColumns.zip (appendValues (received e) payloadJSON)) ↔
      (0 ≤ e.http.statusCode.toInt ∧ e.http.statusCode.toInt ≤ 65535) ∧
      0 ≤ e.http.duration.toInt := by
  have bits := statusBits e.http.statusCode
  have unsigned := durationBits e.http.duration
  have low := e.http.duration.le_toInt
  have high := e.http.duration.toInt_lt
  constructor
  · intro same
    have status := same .httpStatusCode _ rfl
    have duration := same .httpDurationNs _ rfl
    have first : (e.http.statusCode.toInt16.toUInt16.toNat : Int) = e.http.statusCode.toInt :=
      Value.int.inj (Option.some.inj status)
    have second : (e.http.duration.toUInt64.toNat : Int) = e.http.duration.toInt :=
      Value.int.inj (Option.some.inj duration)
    omega
  · rintro ⟨⟨small, large⟩, positive⟩ column n numbered
    have first : (e.http.statusCode.toInt16.toUInt16.toNat : Int) = e.http.statusCode.toInt := by
      omega
    have second : (e.http.duration.toUInt64.toNat : Int) = e.http.duration.toInt := by omega
    cases column with
    | httpStatusCode =>
      cases numbered
      exact congrArg (fun number => some (Value.int number)) first
    | httpDurationNs =>
      cases numbered
      exact congrArg (fun number => some (Value.int number)) second
    | _ => cases numbered <;> rfl

end Row

namespace EventsTable

/-- How the server answers `WriteBatches`, when it looks at times too. -/
def within (domains : Domains) (driver : Driver) (table : EventsTable) :
    (op : Call) → EventsTable × op.Reply
  | .append event =>
    match appendRow domains driver event with
    | .error error => (table, some error)
    | .ok row => ({ table with batch := table.batch ++ [row] }, (none : Option GoError))
  | op => answer driver table op

end EventsTable

section Write

variable {domains : Domains} {driver : Driver} {events : List EventRecord}

theorem within_append {e : EventRecord} {row : Row Column Value} (table : EventsTable)
    (stored : appendRow domains driver e = .ok row) :
    EventsTable.within domains driver table (.append e) =
      ({ table with batch := table.batch ++ [row] }, (none : Option GoError)) := by
  show (match appendRow domains driver e with | .error _ => _ | .ok _ => _) = _
  rw [stored]
  rfl

theorem within_refused {e : EventRecord} {error : GoError} (table : EventsTable)
    (refused : appendRow domains driver e = .error error) :
    EventsTable.within domains driver table (.append e) = (table, some error) := by
  show (match appendRow domains driver e with | .error _ => _ | .ok _ => _) = _
  rw [refused]
  rfl

theorem appendEvents_none_iff (known : ∀ e ∈ events, e.level.Known) (table : EventsTable) :
    ((appendEvents (marshal driver) events).execute (EventsTable.within domains driver)
      table).2.2 = none ↔ ∀ e ∈ events, ∃ row, appendRow domains driver e = .ok row := by
  induction events generalizing table with
  | nil => simp [appendEvents, Prog.execute]
  | cons e events ih =>
    obtain ⟨level, others⟩ := List.forall_mem_cons.mp known
    rw [appendEvents, List.forall_mem_cons]
    cases marshals : driver.payloads.marshal e.payloads with
    | error error =>
      have failed : marshal driver e.payloads = some error := by
        unfold marshal
        rw [marshals]
        rfl
      rw [failed]
      constructor
      · intro succeeds
        cases succeeds
      · rintro ⟨⟨row, stored⟩, -⟩
        obtain ⟨-, payloadJSON, made, -⟩ := (appendRow_ok_iff level).mp stored
        rw [marshals] at made
        cases made
    | ok payloadJSON =>
      have fine : marshal driver e.payloads = none := by
        unfold marshal
        rw [marshals]
        rfl
      rw [fine]
      dsimp only
      cases stored : appendRow domains driver e with
      | error error =>
        rw [Prog.execute_call (within_refused table stored)]
        simp [Prog.execute, abandon]
      | ok row =>
        rw [Prog.execute_call (within_append table stored)]
        dsimp only
        rw [ih others]
        exact (and_iff_right ⟨row, rfl⟩).symm

/-- **A write fails when one of its rows is refused**, and only then. -/
theorem writeBatches_none_iff (sha256 : List UInt8 → Bytes 32) (batches : List Storage.Batch)
    (known : ∀ e ∈ batches.flatMap (·.events), e.level.Known) (table : EventsTable) :
    ((writeBatches sha256 (marshal driver) batches).execute (EventsTable.within domains driver)
      table).2.2 = none ↔
      ∀ e ∈ batches.flatMap (·.events), ∃ row, appendRow domains driver e = .ok row := by
  by_cases empty : batches = []
  · subst empty
    simp [writeBatches, Prog.execute]
  unfold writeBatches
  rw [if_neg empty]
  rw [Prog.execute_call (show EventsTable.within domains driver table
    (.prepareBatch (deduplicationToken sha256 batches)) = ({ table with batch := [] }, none) from rfl)]
  dsimp only
  rw [← appendEvents_none_iff known { table with batch := [] }]
  generalize ran : ((appendEvents (marshal driver) (batches.flatMap (·.events))).execute
    (EventsTable.within domains driver) { table with batch := [] }).2 = outcome
  obtain ⟨later, result⟩ := outcome
  rw [Prog.execute_bind_snd ran]
  cases result with
  | some error =>
    constructor <;>
    · intro succeeds
      cases succeeds
  | none => exact ⟨fun _ => rfl, fun _ => rfl⟩

end Write

/-- The batches are written, and their rows have their numbers. -/
def Stores (domains : Domains) (driver : Driver) (sha256 : List UInt8 → Bytes 32)
    (batches : List Storage.Batch) : Prop :=
  (∀ table, ((writeBatches sha256 (marshal driver) batches).execute
    (EventsTable.within domains driver) table).2.2 = none) ∧
  ∀ e ∈ batches.flatMap (·.events), ∃ row, appendRow domains driver e = .ok row ∧ SameNumbers e row

theorem stores_iff {domains : Domains} {driver : Driver} {sha256 : List UInt8 → Bytes 32}
    {batches : List Storage.Batch} (known : ∀ e ∈ batches.flatMap (·.events), e.level.Known) :
    Stores domains driver sha256 batches ↔
      ∀ e ∈ batches.flatMap (·.events),
        (domains.dateTime64 9 e.timestamp = true ∧
          domains.dateTime64 6 e.delivery.receivedAt = true) ∧
        (∃ payloadJSON, driver.payloads.marshal e.payloads = .ok payloadJSON) ∧
        (0 ≤ e.http.statusCode.toInt ∧ e.http.statusCode.toInt ≤ 65535) ∧
        0 ≤ e.http.duration.toInt := by
  constructor
  · rintro ⟨-, rows⟩ e member
    obtain ⟨row, stored, same⟩ := rows e member
    obtain ⟨times, payloadJSON, made, rfl⟩ := (appendRow_ok_iff (known e member)).mp stored
    exact ⟨times, ⟨payloadJSON, made⟩, sameNumbers_iff.mp same⟩
  · intro each
    have rows : ∀ e ∈ batches.flatMap (·.events),
        ∃ row, appendRow domains driver e = .ok row ∧ SameNumbers e row := by
      intro e member
      obtain ⟨times, ⟨payloadJSON, made⟩, numbers⟩ := each e member
      exact ⟨_, (appendRow_ok_iff (known e member)).mpr ⟨times, payloadJSON, made, rfl⟩,
        sameNumbers_iff.mpr numbers⟩
    refine ⟨fun table => (writeBatches_none_iff sha256 batches known table).mpr ?_, rows⟩
    intro e member
    obtain ⟨row, stored, -⟩ := rows e member
    exact ⟨row, stored⟩

end Trail.ClickHouse

/-! ### Envelopes -/

namespace Trail.Storage

open Library Payload

/-- The payload links of an event. -/
def linksOf (event : Wire.Event) : List PayloadLink :=
  payloadsOf ((event.fields.filter isPayload).foldl applyPayloadField ∅)

/-- The texts of the columns, from the event and what comes with it. -/
def textsOf (metadata : Metadata) (delivery : Delivery) (event : Wire.Event) : List GoString :=
  [delivery.stream, delivery.consumer, metadata.service, metadata.environment, metadata.version,
    event.kind, Level.text (parseLevel event.level), event.executionSource, event.scopeType,
    event.scopeID, event.entityType, event.entityID] ++
  [Attribute.flowStatus, .executionStatus, .executionKind, .provider, .method, .scheme, .host, .path,
    .requestPreview, .responsePreview].map (latestText event.fields)

/-- **An event that both databases store**: its attempt is within thirty-one bits, its status code within
sixteen, its duration is not negative, the numbers of its delivery are within sixty-three bits, and the
databases take its texts, its times and its JSON. -/
structure Storable (domains : Domains) (driver : Driver) (metadata : Metadata) (delivery : Delivery)
    (event : Wire.Event) : Prop where
  executionAttempt : event.executionAttempt.toNat < 2 ^ 31
  statusCode : (latestNum event.fields .statusCode).toNat ≤ 65535
  duration : (latestNum event.fields .duration).toNat < 2 ^ 63
  streamSequence : delivery.streamSequence.toNat < 2 ^ 63
  consumerSequence : delivery.consumerSequence.toNat < 2 ^ 63
  delivered : delivery.delivered.toNat < 2 ^ 63
  texts : ∀ text ∈ textsOf metadata delivery event, domains.text text = true
  timestamp : domains.timestamptz event.timestampUnixNano.toInt = true ∧
    domains.dateTime64 9 event.timestampUnixNano.toInt = true
  receivedAt : domains.timestamptz delivery.receivedAt = true ∧
    domains.dateTime64 6 delivery.receivedAt = true
  json : EncodesFields driver event.fields ∧ EncodesPayloads driver (linksOf event)

theorem toInt64_cases (number : UInt64) :
    (number.toNat < 2 ^ 63 ∧ number.toInt64.toInt = number.toNat) ∨
    (2 ^ 63 ≤ number.toNat ∧ number.toNat < 2 ^ 64 ∧ number.toInt64.toInt = number.toNat - 2 ^ 64) := by
  have signed := number.toInt64.toBitVec.toInt_eq_toNat_cond
  rw [Int64.toInt_toBitVec] at signed
  have same : number.toInt64.toBitVec.toNat = number.toNat := rfl
  have small := number.toNat_lt
  rw [same] at signed
  split at signed <;> omega

/-- The record of an event is stored when the event is one that both databases store. -/
theorem record_storable_iff {domains : Domains} {driver : Driver} {metadata : Metadata}
    {delivery : Delivery} {event : Wire.Event} {batchID : EventID} {e : EventRecord}
    (record : e = recordOf event metadata batchID delivery) :
    ((∃ row, Postgres.insertRow domains driver e = .ok row) ∧
      (domains.dateTime64 9 e.timestamp = true ∧
        domains.dateTime64 6 e.delivery.receivedAt = true) ∧
      (∃ payloadJSON, driver.payloads.marshal e.payloads = .ok payloadJSON) ∧
      (0 ≤ e.http.statusCode.toInt ∧ e.http.statusCode.toInt ≤ 65535) ∧
      0 ≤ e.http.duration.toInt) ↔ Storable domains driver metadata delivery event := by
  rw [Postgres.insertRow_ok_iff]
  rw [recordOf_eq] at record
  subst record
  have status := toInt64_cases (latestNum event.fields .statusCode)
  have duration := toInt64_cases (latestNum event.fields .duration)
  constructor
  · rintro ⟨⟨texts, times, fits, fields, payloads⟩, times', -, code, long⟩
    obtain ⟨stream, consumer, delivered, attempt, -⟩ := fits
    dsimp only [promote] at code long
    exact ⟨attempt, by omega, by omega, stream, consumer, delivered, texts, ⟨times.1, times'.1⟩,
      ⟨times.2, times'.2⟩, fields, payloads⟩
  · rintro ⟨attempt, code, long, stream, consumer, delivered, texts, times, received, fields, payloads⟩
    have marshals : ∃ payloadJSON, driver.payloads.marshal (linksOf event) = .ok payloadJSON := by
      obtain ⟨text, kept, made, -⟩ := payloads
      exact ⟨text, made⟩
    refine ⟨⟨texts, ⟨times.1, received.1⟩, ⟨stream, consumer, delivered, attempt, ?_⟩, fields,
      payloads⟩, ⟨times.2, received.2⟩, marshals, ?_, ?_⟩ <;> dsimp only [promote] <;> omega

/-- **Which valid envelopes are stored.** `Normalize` makes a batch of every valid envelope; both
databases write it without an error and keep every number of its records exactly when each of its events
is storable. -/
theorem storable_iff (domains : Domains) (driver : Driver) (others : (op : Postgres.Call) → op.Reply)
    (sha256 : List UInt8 → Bytes 32) {envelope : Wire.Envelope}
    (valid : Wire.validate envelope = .ok ()) (delivery : Delivery) :
    ∃ batch, normalize envelope delivery = .ok batch ∧
      (Postgres.Stores domains driver others [batch] ∧ ClickHouse.Stores domains driver sha256 [batch] ↔
        ∀ event ∈ envelope.events, Storable domains driver envelope.metadata delivery event) := by
  refine ⟨batchOf envelope delivery, normalize_eq.mpr ⟨valid, rfl⟩, ?_⟩
  have events : [batchOf envelope delivery].flatMap (·.events) = envelope.events.map fun event =>
      recordOf event envelope.metadata (parsedID envelope.batchID) delivery := by
    rw [List.flatMap_singleton]
    rfl
  have known : ∀ e ∈ [batchOf envelope delivery].flatMap (·.events), e.level.Known := by
    rw [events]
    exact List.forall_mem_map.mpr fun event _ => recordOf_level _ _ _ _
  rw [Postgres.stores_iff, ClickHouse.stores_iff known, events, List.forall_mem_map,
    List.forall_mem_map, ← forall₂_and]
  exact forall₂_congr fun event _ => record_storable_iff rfl

/-! ### An attempt of thirty-two bits and a status code of seventeen -/

/-- A call with a status code. -/
def statusFields (status : UInt64) : List Wire.Field :=
  [⟨ascii "http.status_code", ascii "int64", [], status⟩]

/-- The envelope of one event, with an attempt and a status code. -/
def attemptEnvelope (attempt : UInt32) (status : UInt64) : Wire.Envelope where
  schemaVersion := 1
  batchID := encodeID (Bytes.zero 16)
  metadata := ⟨ascii "shop", [], []⟩
  events :=
    [{ eventID := encodeID (Bytes.zero 16), timestampUnixNano := 1000, kind := ascii "call",
       level := ascii "info", executionAttempt := attempt, fields := statusFields status }]

/-- JSON at the fields of the event, and a database that keeps it as it was written. -/
def statusDriver (status : UInt64) : Driver where
  fields := Wire.Codec.table [(statusFields status,
    octets "[\x7b\"key\":\"http.status_code\",\"type\":\"int64\",\"num\":" ++
      Wire.decimal status.toNat ++ octets "\x7d]")]
  payloads := Wire.Codec.table [([], octets "null")]
  jsonb := some
  refused := errorsNew "value is out of range"
  mismatch := errorsNew "cannot scan"

/-- Databases that take every text without a zero byte and every time. -/
def plainDomains : Domains where
  text content := decide (0 ∉ content)
  timestamptz _ := true
  dateTime64 _ _ := true

/-- A valid envelope with the attempt 2147483648 makes the write to PostgreSQL fail, and one with the
status code 70000 is stored in ClickHouse as 4464. -/
theorem attempt_refused_status_wrapped :
    (Wire.validate (attemptEnvelope 2147483648 200) = .ok () ∧
      ∃ batch, normalize (attemptEnvelope 2147483648 200) {} = .ok batch ∧
        ∀ table, ((Postgres.writeBatches (Postgres.json (statusDriver 200)) [batch]).execute
          (Postgres.EventsTable.within plainDomains (statusDriver 200) idle) table).2.2 ≠ none) ∧
    (Wire.validate (attemptEnvelope 1 70000) = .ok () ∧
      ∃ batch, normalize (attemptEnvelope 1 70000) {} = .ok batch ∧
        ∃ e ∈ batch.events, ∃ row,
          ClickHouse.appendRow plainDomains (statusDriver 70000) e = .ok row ∧
          e.number .httpStatusCode = some 70000 ∧ row.get .httpStatusCode = some (.int 4464)) := by
  have first : Wire.validate (attemptEnvelope 2147483648 200) = .ok () := by decide +kernel
  have second : Wire.validate (attemptEnvelope 1 70000) = .ok () := by decide +kernel
  refine ⟨⟨first, _, normalize_eq.mpr ⟨first, rfl⟩, fun table succeeds => ?_⟩, second, _,
    normalize_eq.mpr ⟨second, rfl⟩, _, List.mem_singleton.mpr rfl, _,
    (ClickHouse.appendRow_ok_iff (recordOf_level _ _ _ _)).mpr ⟨⟨rfl, rfl⟩, octets "null", ?_, rfl⟩,
    ?_, ?_⟩
  · rw [Postgres.writeBatches_none_iff] at succeeds
    have stored := Postgres.insertRow_ok_iff.mp (succeeds _ (List.mem_singleton.mpr rfl))
    exact absurd stored.2.2.1.executionAttempt (by decide +kernel)
  · decide +kernel
  · decide +kernel
  · decide +kernel

/-- The first attempt with the status code 200 is stored by both. -/
theorem first_attempt_stored : ∃ batch, normalize (attemptEnvelope 1 200) {} = .ok batch ∧
    Postgres.Stores plainDomains (statusDriver 200) idle [batch] ∧
    ClickHouse.Stores plainDomains (statusDriver 200) (fun _ => Bytes.zero 32) [batch] := by
  obtain ⟨batch, made, stored⟩ := storable_iff plainDomains (statusDriver 200) idle
    (fun _ => Bytes.zero 32) (show Wire.validate (attemptEnvelope 1 200) = .ok () by decide +kernel) {}
  refine ⟨batch, made, stored.mpr fun event member => ?_⟩
  rw [List.mem_singleton.mp member]
  refine ⟨by decide +kernel, by decide +kernel, by decide +kernel, by decide +kernel,
    by decide +kernel, by decide +kernel, by decide +kernel, ⟨rfl, rfl⟩, ⟨rfl, rfl⟩, ?_, ?_⟩
  · obtain ⟨text, marshals, -⟩ := Wire.Codec.single_inverts (statusFields 200)
      (octets "[\x7b\"key\":\"http.status_code\",\"type\":\"int64\",\"num\":" ++
        Wire.decimal (200 : UInt64).toNat ++ octets "\x7d]")
    exact ⟨text, text, marshals, rfl⟩
  · exact ⟨octets "null", octets "null", by decide +kernel, rfl⟩

end Trail.Storage
