/-
**Payload objects in responses.**

`eventPayload` and `archivePayload` compare the logical size of a reference with the read limit and then
copy the stored object up to the same limit. The two agree for objects kept as they are; an object that
gzip made longer can pass the comparison and be cut.

* `EventReaches.answer`, `ArchiveReaches.answer`: the two handlers answer alike, once the reference and
  its store are found.
* `payload_whole_iff`: the objects that are answered whole or refused.
* `gzip_object_cut`: an object of one byte that is answered cut.
-/

import Trail.Archive.Bundle
import Trail.Explorer.ScopedDetail

namespace Trail.Explorer

open Library Storage

/-! ### Archived payloads -/

/-- What the configuration has for archives: `ArchiveCatalog` and the `Open` of `ArchiveStore`, when
they are set, and the read limit. -/
structure ArchiveAccess where
  getArchive : Option (GoString → Except GoError Archive.Receipt)
  open_ : Option (Payload.Ref → Except GoError Payload.Stream)
  maxPayloadBytes : Nat

/-- `GET /archives/{id}/payloads/{index}`: the bytes that are copied. -/
def archivePayload (access : ArchiveAccess) (id index : GoString) : Answer (List UInt8) :=
  match access.getArchive, access.open_ with
  | some getArchive, some openRef =>
    match getArchive id with
    | .error error => respond (.error error)
    | .ok receipt =>
      let n := atoi index
      if ¬ n.2 ∨ n.1 < 0 then bad (errorsNew "invalid payload index")
      else
        match receipt.manifest.payloads[n.1.toInt.toNat]? with
        | none => bad (errorsNew "invalid payload index")
        | some entry =>
          if (access.maxPayloadBytes : Int) < entry.archive.size.toInt then
            .refused 413 (ascii "payload_too_large")
              (ascii "payload exceeds Explorer read limit")
          else respond ((openRef entry.archive).map fun stream =>
            stream.bytes.take access.maxPayloadBytes)
  | _, _ => .refused 501 (ascii "capability_unavailable") (ascii "archive access is not configured")

/-! ### Requests that reach an object -/

/-- The refusal of an object over the read limit. -/
def tooLarge : Answer (List UInt8) :=
  .refused 413 (ascii "payload_too_large") (ascii "payload exceeds Explorer read limit")

/-- The event payload request names a reference of an event in scope, whose store has the object. -/
structure EventReaches (store : ExplorerStore) (q : Query) (access : PayloadAccess)
    (id role : GoString) (ref : Payload.Ref) (object : List UInt8) : Prop where
  named : ∃ eventID event link, decodeID id = .ok eventID ∧
    checkScope q (·.scope) (store.getEvent eventID) = .ok event ∧
    (event.payloads.find? fun link => link.role = role) = some link ∧ link.ref = ref
  opened : ∃ openRef, access.open_ ref.store = some openRef ∧ openRef ref = .ok ⟨object, none⟩

/-- The archive payload request names an entry of a manifest, and the archive store has its object. -/
structure ArchiveReaches (access : ArchiveAccess) (id index : GoString) (ref : Payload.Ref)
    (object : List UInt8) : Prop where
  named : ∃ getArchive receipt entry, access.getArchive = some getArchive ∧
    getArchive id = .ok receipt ∧ (atoi index).2 = true ∧ 0 ≤ (atoi index).1 ∧
    receipt.manifest.payloads[(atoi index).1.toInt.toNat]? = some entry ∧ entry.archive = ref
  opened : ∃ openRef, access.open_ = some openRef ∧ openRef ref = .ok ⟨object, none⟩

/-- What is answered for an object under a limit. -/
def payloadAnswer (limit : Nat) (ref : Payload.Ref) (object : List UInt8) : Answer (List UInt8) :=
  if (limit : Int) < ref.size.toInt then tooLarge else .ok (object.take limit)

section Reached

variable {ref : Payload.Ref} {object : List UInt8}

theorem EventReaches.answer {store : ExplorerStore} {q : Query} {access : PayloadAccess}
    {id role : GoString} (reaches : EventReaches store q access id role ref object) :
    eventPayload store q access id role = payloadAnswer access.maxPayloadBytes ref object := by
  obtain ⟨⟨eventID, event, link, parsed, found, linked, rfl⟩, openRef, configured, opened⟩ := reaches
  unfold eventPayload withID
  simp only [parsed, found, linked, configured, opened]
  rfl

theorem ArchiveReaches.answer {access : ArchiveAccess} {id index : GoString}
    (reaches : ArchiveReaches access id index ref object) :
    archivePayload access id index = payloadAnswer access.maxPayloadBytes ref object := by
  obtain ⟨⟨getArchive, receipt, entry, catalogued, got, number, positive, here, rfl⟩, openRef,
    configured, opened⟩ := reaches
  unfold archivePayload
  have inside : ¬ (¬ (atoi index).2 = true ∨ (atoi index).1 < 0) := by
    rintro (no | negative)
    · exact no number
    · exact absurd (Int64.lt_of_lt_of_le negative positive) (Int64.lt_irrefl)
  simp only [catalogued, configured, got, if_neg inside, here, opened]
  rfl

end Reached

/-! ### Whole objects -/

/-- A success has the complete object, and an object over the limit is refused as too large. -/
def WholeOrRefused (limit : Nat) (object : List UInt8) (answer : Answer (List UInt8)) : Prop :=
  (∀ body, answer = .ok body → body = object) ∧
    (limit < object.length → ∃ code message, answer = .refused 413 code message)

theorem wholeOrRefused_iff {limit : Nat} {ref : Payload.Ref} {object : List UInt8} :
    WholeOrRefused limit object (payloadAnswer limit ref object) ↔
      (limit : Int) < ref.size.toInt ∨ object.length ≤ limit := by
  by_cases large : (limit : Int) < ref.size.toInt
  · have refused : payloadAnswer limit ref object = tooLarge := if_pos large
    rw [refused]
    refine iff_of_true ⟨?_, fun _ => ⟨_, _, rfl⟩⟩ (.inl large)
    intro body answered
    cases answered
  · have copied : payloadAnswer limit ref object = .ok (object.take limit) := if_neg large
    rw [copied]
    constructor
    · rintro ⟨whole, -⟩
      exact .inr (List.take_eq_self_iff _ |>.mp (whole _ rfl))
    · rintro (beyond | fits)
      · exact absurd beyond large
      · refine ⟨?_, fun beyond => absurd fits (Nat.not_le.mpr beyond)⟩
        rintro body ⟨⟩
        exact List.take_of_length_le fits

/-- The size `Put` records is the length of what it read. -/
theorem recorded_size {sha256 : List UInt8 → Bytes 32} {gzip : Payload.Gzip}
    {payloads : Payload.Store} {before after : Payload.Disk} {content : Payload.Stream}
    {options : Payload.PutOptions} {ref : Payload.Ref}
    (recorded : Payload.put sha256 gzip payloads before content options = (after, .ok ref))
    (counted : content.bytes.length < 2 ^ 63) : ref.size.toInt = content.bytes.length := by
  obtain ⟨_, _, rfl, _⟩ := Payload.put_ok recorded
  exact Int64.toInt_ofNat_of_lt counted

/-- **When a payload object is answered whole or refused**: its logical size is over the limit, or its
stored form is within it. The size of what a reader gives is an `int64`. -/
theorem payload_whole_iff (sha256 : List UInt8 → Bytes 32) (gzip : Payload.Gzip)
    (payloads : Payload.Store) (before after : Payload.Disk) (content : Payload.Stream)
    (options : Payload.PutOptions) (ref : Payload.Ref)
    (recorded : Payload.put sha256 gzip payloads before content options = (after, .ok ref))
    (counted : content.bytes.length < 2 ^ 63) :
    (∀ store q access id role, EventReaches store q access id role ref
        (gzip.pack options.compression content.bytes) →
      (WholeOrRefused access.maxPayloadBytes (gzip.pack options.compression content.bytes)
          (eventPayload store q access id role) ↔
        access.maxPayloadBytes < content.bytes.length ∨
          (gzip.pack options.compression content.bytes).length ≤ access.maxPayloadBytes)) ∧
    ∀ access id index, ArchiveReaches access id index ref
        (gzip.pack options.compression content.bytes) →
      (WholeOrRefused access.maxPayloadBytes (gzip.pack options.compression content.bytes)
          (archivePayload access id index) ↔
        access.maxPayloadBytes < content.bytes.length ∨
          (gzip.pack options.compression content.bytes).length ≤ access.maxPayloadBytes) := by
  have size := recorded_size recorded counted
  constructor
  · intro store q access id role reaches
    rw [reaches.answer, wholeOrRefused_iff, size, Nat.cast_lt]
  · intro access id index reaches
    rw [reaches.answer, wholeOrRefused_iff, size, Nat.cast_lt]

/-! ### A short object, compressed -/

section Short

def bodyStore : Payload.Store := Payload.plainStore (ascii "bodies") []

def bodyDigest (_ : List UInt8) : Bytes 32 := Payload.digestOf 1

/-- What `Put` does with one byte. -/
def putByte (compression : Payload.Compression) : Payload.Disk × Except GoError Payload.Ref :=
  Payload.put bodyDigest Payload.storedGzip bodyStore ∅ ⟨ascii "x", none⟩ { compression }

def byteRef (compression : Payload.Compression) : Payload.Ref :=
  Payload.putRef bodyDigest Payload.storedGzip bodyStore (ascii "x") { compression }

/-- An event that refers to the object as its response. -/
def byteRow (compression : Payload.Compression) : EventRecord :=
  { id := endingID 1, timestamp := 1000, kind := ascii "http.server",
    payloads := [{ role := ascii "response", ref := byteRef compression }] }

def byteTable (compression : Payload.Compression) : Warehouse.Tables :=
  ({} : Warehouse.Tables).insertEvents [byteRow compression]

/-- The payload stores of an API that reads at most eight bytes. -/
def eightBytes (compression : Payload.Compression) : PayloadAccess where
  open_ name := if name = ascii "bodies" then
    some (Payload.openRef bodyStore (putByte compression).1) else none
  maxPayloadBytes := 8

def byteArchive (compression : Payload.Compression) : ArchiveAccess where
  getArchive := some fun id => .ok
    ⟨⟨Archive.version, id, 1000, 1, [], byteRef [], [⟨byteRef [], byteRef compression⟩]⟩, byteRef []⟩
  open_ := some (Payload.openRef bodyStore (putByte compression).1)
  maxPayloadBytes := 8

/-- **One byte, compressed, is answered cut**, for an event and for an archive: its size of one passes
the limit of eight, and of its stored form the first eight bytes are copied. -/
theorem gzip_object_cut :
    (putByte Payload.compressionGZIP).2 = .ok (byteRef Payload.compressionGZIP) ∧
    eventPayload (clickhouse (byteTable Payload.compressionGZIP) .given .given) ⟨[]⟩
        (eightBytes Payload.compressionGZIP) (encodeID (endingID 1)) (ascii "response") =
      .ok ((Payload.storedGzip.compress (ascii "x")).take 8) ∧
    archivePayload (byteArchive Payload.compressionGZIP) (ascii "a") (ascii "0") =
      .ok ((Payload.storedGzip.compress (ascii "x")).take 8) ∧
    8 < (Payload.storedGzip.compress (ascii "x")).length :=
  ⟨by decide +kernel, by decide +kernel, by decide +kernel, by decide +kernel⟩

/-- The same byte kept as it is. -/
theorem plain_object_whole :
    eventPayload (clickhouse (byteTable []) .given .given) ⟨[]⟩ (eightBytes [])
      (encodeID (endingID 1)) (ascii "response") = .ok (ascii "x") ∧
    WholeOrRefused 8 (ascii "x") (eventPayload (clickhouse (byteTable []) .given .given) ⟨[]⟩
      (eightBytes []) (encodeID (endingID 1)) (ascii "response")) ∧
    WholeOrRefused 8 (ascii "x") (archivePayload (byteArchive []) (ascii "a") (ascii "0")) := by
  have recorded : putByte [] = ((putByte []).1, .ok (byteRef [])) :=
    Payload.put_whole (ascii "x") (by decide)
  have whole := payload_whole_iff bodyDigest Payload.storedGzip bodyStore ∅ _ ⟨ascii "x", none⟩
    { compression := [] } _ recorded (by decide)
  have opened : Payload.openRef bodyStore (putByte []).1 (byteRef []) = .ok ⟨ascii "x", none⟩ := by
    decide +kernel
  have event : EventReaches (clickhouse (byteTable []) .given .given) ⟨[]⟩ (eightBytes [])
      (encodeID (endingID 1)) (ascii "response") (byteRef []) (ascii "x") :=
    ⟨⟨endingID 1, byteRow [], _, decodeID_encodeID _, by decide +kernel, rfl, rfl⟩, _, rfl, opened⟩
  have entry : ArchiveReaches (byteArchive []) (ascii "a") (ascii "0") (byteRef []) (ascii "x") :=
    ⟨⟨_, _, _, rfl, rfl, by decide +kernel, by decide +kernel, rfl, rfl⟩, _, rfl, opened⟩
  exact ⟨by decide +kernel, (whole.1 _ _ _ _ _ event).mpr (.inr (by decide)),
    (whole.2 _ _ _ entry).mpr (.inr (by decide))⟩

end Short

end Trail.Explorer
