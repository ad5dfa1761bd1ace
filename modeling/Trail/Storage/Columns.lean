/-
**Values between the adapters and their databases.**

`Value` is what the adapters hand to a driver and get from it, with the readings of the targets of a
scan. A `Driver` has what lies outside the adapters: JSON, and the errors of a refused value.
-/

import Trail.Library.Rows
import Trail.Storage.Normalize

namespace Trail.Storage

open Library Payload

/-- `ErrNotFound`. -/
def errNotFound : GoError :=
  { text := ascii "trail/storage: not found", wraps := [.storageNotFound] }

/-- The columns of `trail_events`: PostgreSQL has `fields` and `payload_refs`, ClickHouse the last
five. -/
inductive Column
  | eventTime | eventID | batchID | jetstreamStream | jetstreamStreamSeq | jetstreamConsumer
  | jetstreamConsumerSeq | jetstreamDelivered | receivedAt | service | environment | version
  | kind | level | flowID | executionID | parentExecutionID | retryOfExecutionID
  | executionAttempt | executionSource | scopeType | scopeID | entityType | entityID
  | parentEventID | flowStatus | executionStatus | executionKind | provider | hasError | fields
  | httpMethod | httpScheme | httpHost | httpPath | httpStatusCode | httpDurationNs | httpSuccess
  | httpRequestSize | httpResponseSize | httpRequestPreview | httpResponsePreview | payloadRefs
  | fieldKeys | fieldTypes | fieldText | fieldNum | payloadRefsJSON
  deriving DecidableEq, Repr

/-- A value of a column. -/
inductive Value
  | null
  | time (t : Time)
  | bytes (bytes : List UInt8)
  | text (text : GoString)
  | int (number : Int)
  | flag (flag : Bool)
  | texts (texts : List GoString)
  | nums (nums : List UInt64)
  deriving DecidableEq, Repr

namespace Value

/-- A `time.Time` target. -/
def readTime : Value → Option Time
  | .time t => some t
  | _ => none

/-- A `[]byte` target, `nil` for `NULL`. -/
def readBytes : Value → Option (List UInt8)
  | .null => some []
  | .bytes content => some content
  | _ => none

/-- A `string` target. -/
def readText : Value → Option GoString
  | .text content => some content
  | _ => none

/-- A `bool` target. -/
def readFlag : Value → Option Bool
  | .flag content => some content
  | _ => none

/-- An `int64` or `int` target. -/
def readInt64 : Value → Option Int64
  | .int number => if -2 ^ 63 ≤ number ∧ number < 2 ^ 63 then some (.ofInt number) else none
  | _ => none

/-- A target of an unsigned type with so many values. -/
def readUnsigned (size : Nat) : Value → Option Nat
  | .int number => if 0 ≤ number ∧ number < size then some number.toNat else none
  | _ => none

/-- A `uint64`, a `uint32` and a `uint16` target. -/
def readUInt64 (value : Value) : Option UInt64 := (value.readUnsigned (2 ^ 64)).map .ofNat
def readUInt32 (value : Value) : Option UInt32 := (value.readUnsigned (2 ^ 32)).map .ofNat
def readUInt16 (value : Value) : Option UInt16 := (value.readUnsigned (2 ^ 16)).map .ofNat

/-- A `uint8` target that is a flag. -/
def readByteFlag (value : Value) : Option Bool :=
  (value.readUnsigned (2 ^ 8)).map fun byte => decide (byte ≠ 0)

/-- A `[]string` target. -/
def readTexts : Value → Option (List GoString)
  | .texts content => some content
  | _ => none

/-- A `[]uint64` target. -/
def readNums : Value → Option (List UInt64)
  | .nums content => some content
  | _ => none

theorem readInt64_toInt (number : Int64) : readInt64 (.int number.toInt) = some number := by
  have low := number.le_toInt
  have high := number.toInt_lt
  show (if _ then some (Int64.ofInt number.toInt) else none) = _
  rw [if_pos ⟨low, high⟩, Int64.ofInt_toInt]

theorem readUnsigned_toNat {size number : Nat} (small : number < size) :
    readUnsigned size (.int number) = some number := by
  show (if _ then some (number : Int).toNat else none) = _
  rw [if_pos ⟨Int.natCast_nonneg _, Int.ofNat_lt.mpr small⟩, Int.toNat_natCast]

theorem readUInt64_toNat (number : UInt64) : readUInt64 (.int number.toNat) = some number := by
  unfold readUInt64
  rw [readUnsigned_toNat number.toNat_lt, Option.map_some, UInt64.ofNat_toNat]

theorem readUInt32_toNat (number : UInt32) : readUInt32 (.int number.toNat) = some number := by
  unfold readUInt32
  rw [readUnsigned_toNat number.toNat_lt, Option.map_some, UInt32.ofNat_toNat]

theorem readUInt16_toNat (number : UInt16) : readUInt16 (.int number.toNat) = some number := by
  unfold readUInt16
  rw [readUnsigned_toNat number.toNat_lt, Option.map_some, UInt16.ofNat_toNat]

end Value

/-- `copy(id[:], bytes)` into a zero identifier. -/
def copyID (bytes : List UInt8) : Bytes 16 :=
  ⟨(bytes.take 16) ++ List.replicate (16 - bytes.length) 0, by
    rw [List.length_append, List.length_take, List.length_replicate]
    omega⟩

@[simp] theorem copyID_self (id : Bytes 16) : copyID id.1 = id := by
  refine Subtype.ext ?_
  have length := id.2
  show id.1.take 16 ++ List.replicate (16 - id.1.length) 0 = id.1
  rw [List.take_of_length_le (by omega), length]
  exact List.append_nil _

/-- `var v storage.EventRecord`. -/
def emptyRecord : EventRecord :=
  { id := Bytes.zero 16, timestamp := zeroTime, kind := [], level := 0 }

/-- A time as a column with microseconds keeps it. -/
def microseconds (t : Time) : Time := t - t % 1000

theorem microseconds_of_whole {t : Time} (whole : t % 1000 = 0) : microseconds t = t := by
  unfold microseconds
  rw [whole]
  exact Int.sub_zero t

/-- What the adapters use of JSON and of their drivers. -/
structure Driver where
  /-- JSON at the fields and at the payload links. -/
  fields : Wire.Codec (List Wire.Field)
  payloads : Wire.Codec (List PayloadLink)
  /-- The text a `jsonb` column returns for a text it was given. -/
  jsonb : List UInt8 → Option (List UInt8)
  /-- The error for a value that a column refuses. -/
  refused : GoError
  /-- The error for a value that its target cannot take. -/
  mismatch : GoError

/-- JSON inverts itself on the fields and the payload links of a record. -/
structure Driver.Inverts (driver : Driver) (e : EventRecord) : Prop where
  fields : ∃ text kept, driver.fields.marshal e.fields = .ok text ∧ driver.jsonb text = some kept ∧
    driver.fields.unmarshal kept = .ok e.fields
  payloads : ∃ text kept, driver.payloads.marshal e.payloads = .ok text ∧
    driver.jsonb text = some kept ∧ driver.payloads.unmarshal text = .ok e.payloads ∧
    driver.payloads.unmarshal kept = .ok e.payloads

/-- The error of a result, if any. -/
def failure {α : Type} : Except GoError α → Option GoError
  | .error error => some error
  | .ok _ => none

/-- The first row for an identifier, read by the given selection. -/
def getRow (rows : List (Row Column Value)) (id : Value) (columns : List Column) :
    Option (Option (List Value)) :=
  (rows.find? fun row => row.get .eventID = some id).map fun row => selectRow row columns

theorem find_row {related : EventRecord → Row Column Value → Prop} {idValue : EventID → Value}
    (injective : Function.Injective idValue)
    (named : ∀ e row, related e row → row.get .eventID = some (idValue e.id))
    {events : List EventRecord} {rows : List (Row Column Value)}
    (matched : List.Forall₂ related events rows) (distinct : (events.map (·.id)).Nodup)
    {e : EventRecord} (member : e ∈ events) :
    ∃ row, rows.find? (fun row => row.get .eventID = some (idValue e.id)) = some row ∧
      related e row := by
  induction matched with
  | nil => cases member
  | @cons other row others rows here _ ih =>
    obtain ⟨absent, distinct⟩ := List.nodup_cons.mp distinct
    by_cases same : other.id = e.id
    · have equal : other = e := by
        rcases List.mem_cons.mp member with equal | later
        · exact equal.symm
        · exact absurd (List.mem_map.mpr ⟨e, later, same.symm⟩) absent
      rw [← equal]
      exact ⟨row, List.find?_cons_of_pos (decide_eq_true (named _ _ here)), here⟩
    · have differs : row.get .eventID ≠ some (idValue e.id) := by
        rw [named _ _ here]
        exact fun equal => same (injective (Option.some.inj equal))
      have rest : e ∈ others := (List.mem_cons.mp member).resolve_left fun equal =>
        same (by rw [equal])
      rw [List.find?_cons_of_neg (by simpa using differs)]
      exact ih distinct rest

end Trail.Storage
