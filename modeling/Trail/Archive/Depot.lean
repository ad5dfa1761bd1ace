/-
**The stores of an archive.**

A `Depot` says which content-addressed store plays which role; two roles may be played by the same
store. Its `World` has the objects of every store and the events of the store that a restore goes
to, keyed by event identifier. The programs of the archive are run against it with `Prog.execute`.

* `honest_execute`: these stores report the digest of what they are given.
* `Kept.execute`: an object stays through any run whose contents do not collide with it, even when
  the same content is put again.
-/

import Mathlib.Data.Set.Function
import Trail.Archive.Verification

namespace Trail.Archive

open Library Payload Storage

/-- Stores by number, the role each plays, and the clock. -/
structure Depot where
  stores : Nat → Store
  archive : Nat
  sources : Table GoString Nat
  active : Table GoString Nat
  now : Time

structure World where
  disks : Nat → Disk
  /-- The events that were restored, by identifier. -/
  target : Table (List UInt8) EventRecord

/-- The world with other objects in a store. -/
def World.setDisk (world : World) (store : Nat) (disk : Disk) : World :=
  { world with disks := Function.update world.disks store disk }

namespace Depot

variable (prim : Primitives) (depot : Depot)

/-- The store in a role. -/
def find : Place → Option Nat
  | .archive => some depot.archive
  | .source name => depot.sources.lookup name
  | .active name => depot.active.lookup name

/-- An idempotent merge by event identifier. -/
def merge (target : Table (List UInt8) EventRecord) (events : List EventRecord) :
    Table (List UInt8) EventRecord :=
  events.foldl (fun target event => target.insertNew event.id.1 event) target

theorem mem_merge {target : Table (List UInt8) EventRecord} {events : List EventRecord}
    {id : List UInt8} (member : id ∈ target ∨ ∃ event ∈ events, event.id.1 = id) :
    id ∈ merge target events := by
  induction events generalizing target with
  | nil => simpa [merge] using member
  | cons event events ih =>
    refine ih ?_
    rw [Table.mem_insertNew]
    rcases member with old | ⟨other, among, same⟩
    · exact .inl (.inr old)
    · rcases List.mem_cons.mp among with rfl | later
      · exact .inl (.inl same.symm)
      · exact .inr ⟨other, later, same⟩

theorem merge_of_mem {target : Table (List UInt8) EventRecord} {events : List EventRecord}
    (present : ∀ event ∈ events, event.id.1 ∈ target) : merge target events = target := by
  induction events with
  | nil => rfl
  | cons event events ih =>
    show merge (target.insertNew event.id.1 event) events = target
    rw [Table.insertNew_of_mem (present event (List.mem_cons_self ..))]
    exact ih fun other member => present other (List.mem_cons_of_mem _ member)

/-- **Merging the same events again changes nothing.** -/
theorem merge_merge (target : Table (List UInt8) EventRecord) (events : List EventRecord) :
    merge (merge target events) events = merge target events :=
  merge_of_mem fun event member => mem_merge (.inr ⟨event, member, rfl⟩)

/-- How the stores answer when none of them fails and nothing is cancelled. -/
def answer (world : World) : (op : Call) → World × op.Reply
  | .put place content options =>
    match depot.find place with
    | none => (world, .error errNotFound)
    | some store =>
      let (disk, reply) := put prim.sha256 prim.gzip (depot.stores store) (world.disks store)
        content options
      (world.setDisk store disk, reply)
  | .openRef place ref =>
    match depot.find place with
    | none => (world, .error errNotFound)
    | some store => (world, openRef (depot.stores store) (world.disks store) ref)
  | .now => (world, depot.now)
  | .ctxErr => (world, (none : Option GoError))
  | .restoreArchiveEvents _ events =>
    ({ world with target := merge world.target events }, ((events.length : Int), none))

/-- The writer of the depot. -/
def writer : BundleWriter := ⟨depot.sources.keys⟩

variable {prim depot}

/-- **A successful put.** -/
theorem answer_put_ok {world later : World} {place : Place} {content : Stream} {options : PutOptions}
    {ref : Ref}
    (done : depot.answer prim world (.put place content options) = (later, .ok ref)) :
    ∃ store, depot.find place = some store ∧ Supported options.compression ∧
      content.failure = none ∧ ref = putRef prim.sha256 prim.gzip (depot.stores store) content.bytes
        options ∧
      later = world.setDisk store ((world.disks store).insert
        (objectKey (depot.stores store).keyPrefix (prim.sha256 content.bytes) options.compression)
        (prim.gzip.pack options.compression content.bytes)) := by
  unfold answer at done
  dsimp only at done
  split at done
  · cases done
  · rename_i store found
    obtain ⟨rfl, reply⟩ := Prod.mk.inj done
    obtain ⟨supported, ends, same, disk⟩ := put_ok (Prod.ext rfl reply)
    exact ⟨store, found, supported, ends, same, by rw [← disk]⟩

theorem answer_put_whole {world : World} {place : Place} {store : Nat} (data : List UInt8)
    {options : PutOptions} (found : depot.find place = some store)
    (supported : Supported options.compression) :
    depot.answer prim world (.put place ⟨data, none⟩ options) =
      (world.setDisk store ((world.disks store).insert
        (objectKey (depot.stores store).keyPrefix (prim.sha256 data) options.compression)
        (prim.gzip.pack options.compression data)),
        .ok (putRef prim.sha256 prim.gzip (depot.stores store) data options)) := by
  unfold answer
  dsimp only
  rw [found]
  dsimp only
  rw [put_whole data supported]

theorem answer_of_log {α : Type} {program : Prog signature α} {world : World}
    {entry : World × signature.Exchange}
    (logged : entry ∈ (program.execute (depot.answer prim) world).1) :
    (depot.answer prim entry.1 entry.2.op).2 = entry.2.reply := by
  induction program generalizing world with
  | pure value => exact (List.not_mem_nil logged).elim
  | call op next ih =>
    rcases List.mem_cons.mp logged with rfl | later
    · rfl
    · exact ih _ later

end Depot

/-- **The stores of a depot report the digest of what they are given.** -/
theorem honest_execute (prim : Primitives) (depot : Depot) {α : Type} (program : Prog signature α)
    (world : World) :
    Honest prim ((program.execute (depot.answer prim) world).1.map Prod.snd) := by
  intro place content options ref member
  obtain ⟨⟨before, exchange⟩, logged, same⟩ := List.mem_map.mp member
  dsimp only at same
  subst same
  have replied : depot.answer prim before (.put place content options) =
      ((depot.answer prim before (.put place content options)).1, .ok ref) :=
    Prod.ext rfl (Depot.answer_of_log logged)
  obtain ⟨store, _, _, _, rfl, _⟩ := Depot.answer_put_ok replied
  rfl

/-! ### Objects that stay -/

section Kept

variable (prim : Primitives) (depot : Depot)

/-- The object of a content is in a store. -/
def Kept (store : Nat) (data : List UInt8) (compression : Compression) (world : World) : Prop :=
  Supported compression ∧
  (world.disks store).lookup
    (objectKey (depot.stores store).keyPrefix (prim.sha256 data) compression) =
      some (prim.gzip.pack compression data)

/-- The contents that were put in a run. -/
def putContents (log : List (World × signature.Exchange)) : Set (List UInt8) :=
  {data | ∃ entry ∈ log, ∃ place content options, entry.2.op = .put place content options ∧
    content.bytes = data}

variable {prim depot} {store : Nat} {data : List UInt8} {compression : Compression} {world : World}

theorem putContents_append (first second : List (World × signature.Exchange)) :
    putContents (first ++ second) = putContents first ∪ putContents second := by
  ext data
  simp only [putContents, List.mem_append, or_and_right, exists_or, Set.mem_union,
    Set.mem_ofPred_eq]

theorem putContents_put (place : Place) (content : Stream) (options : PutOptions)
    (reply : Except GoError Ref) (log : List (World × signature.Exchange)) :
    putContents ((world, ⟨.put place content options, reply⟩) :: log) =
      insert content.bytes (putContents log) := by
  ext data
  constructor
  · rintro ⟨entry, member, where_, other, how, op, bytes⟩
    rcases List.mem_cons.mp member with rfl | later
    · cases op
      exact .inl bytes.symm
    · exact .inr ⟨entry, later, where_, other, how, op, bytes⟩
  · rintro (rfl | ⟨entry, member, rest⟩)
    · exact ⟨_, List.mem_cons_self .., place, content, options, rfl, rfl⟩
    · exact ⟨entry, List.mem_cons_of_mem _ member, rest⟩

theorem putContents_other {entry : World × signature.Exchange}
    {log : List (World × signature.Exchange)}
    (other : ∀ place content options, entry.2.op ≠ .put place content options) :
    putContents (entry :: log) = putContents log := by
  ext data
  constructor
  · rintro ⟨entry, member, place, content, options, same, bytes⟩
    rcases List.mem_cons.mp member with rfl | later
    · exact absurd same (other place content options)
    · exact ⟨entry, later, place, content, options, same, bytes⟩
  · rintro ⟨entry, member, rest⟩
    exact ⟨entry, List.mem_cons_of_mem _ member, rest⟩

theorem mem_putContents {log : List (World × signature.Exchange)} {place : Place} {content : Stream}
    {options : PutOptions} {reply : Except GoError Ref}
    (member : (⟨.put place content options, reply⟩ : signature.Exchange) ∈ log.map Prod.snd) :
    content.bytes ∈ putContents log := by
  obtain ⟨entry, logged, same⟩ := List.mem_map.mp member
  exact ⟨entry, logged, place, content, options, by rw [same], rfl⟩

theorem putContents_reading {log : List (World × signature.Exchange)}
    (reading : ∀ entry ∈ log, entry.2.op.Reading) : putContents log = ∅ := by
  refine Set.eq_empty_iff_forall_notMem.mpr ?_
  rintro data ⟨entry, member, place, content, options, same, _⟩
  have calls := reading entry member
  rw [same] at calls
  exact calls

theorem kept_setDisk (data : List UInt8) (supported : Supported compression) :
    Kept prim depot store data compression (world.setDisk store ((world.disks store).insert
      (objectKey (depot.stores store).keyPrefix (prim.sha256 data) compression)
      (prim.gzip.pack compression data))) := by
  refine ⟨supported, ?_⟩
  unfold World.setDisk
  dsimp only
  rw [Function.update_self, AList.lookup_insert]

theorem Kept.put {other : Nat} {content : Stream} {options : PutOptions}
    (kept : Kept prim depot store data compression world)
    (apart : prim.sha256 content.bytes = prim.sha256 data → content.bytes = data) :
    Kept prim depot store data compression (world.setDisk other
      (Payload.put prim.sha256 prim.gzip (depot.stores other) (world.disks other) content
        options).1) := by
  obtain ⟨supported, here⟩ := kept
  refine ⟨supported, ?_⟩
  unfold World.setDisk
  dsimp only
  by_cases same : store = other
  · subst same
    rw [Function.update_self]
    unfold Payload.put
    split
    · rename_i fits
      split
      · exact here
      · rename_i bytes whole
        have bytes_eq : bytes = content.bytes := by
          unfold Stream.readAll at whole
          split at whole
          · cases whole
          · exact (Except.ok.inj whole).symm
        subst bytes_eq
        dsimp only
        by_cases key : objectKey (depot.stores store).keyPrefix (prim.sha256 data) compression =
            objectKey (depot.stores store).keyPrefix (prim.sha256 content.bytes) options.compression
        · obtain ⟨digest, packed⟩ := objectKey_inj supported fits key
          rw [key, AList.lookup_insert, apart digest.symm, packed]
        · rw [AList.lookup_insert_ne key, here]
    · exact here
  · rw [Function.update_of_ne same]
    exact here

theorem Kept.answer (kept : Kept prim depot store data compression world) (op : Call)
    (apart : ∀ place content options, op = .put place content options →
      prim.sha256 content.bytes = prim.sha256 data → content.bytes = data) :
    Kept prim depot store data compression (depot.answer prim world op).1 := by
  cases op with
  | put place content options =>
    unfold Depot.answer
    dsimp only
    split
    · exact kept
    · exact kept.put (apart place content options rfl)
  | openRef place ref =>
    unfold Depot.answer
    dsimp only
    split <;> exact kept
  | now => exact kept
  | ctxErr => exact kept
  | restoreArchiveEvents archiveID events => exact kept

/-- **An object stays through a run that puts no content of the same digest.** -/
theorem Kept.execute {α : Type} (program : Prog signature α)
    (kept : Kept prim depot store data compression world)
    (apart : ∀ content ∈ putContents (program.execute (depot.answer prim) world).1,
      prim.sha256 content = prim.sha256 data → content = data) :
    Kept prim depot store data compression (program.execute (depot.answer prim) world).2.1 := by
  induction program generalizing world with
  | pure value => exact kept
  | call op next ih =>
    refine ih _ (kept.answer op fun place content options same => ?_) fun content member => ?_
    · exact apart _ ⟨_, List.mem_cons_self .., place, content, options, same, rfl⟩
    · obtain ⟨entry, logged, rest⟩ := member
      exact apart _ ⟨entry, List.mem_cons_of_mem _ logged, rest⟩

theorem disks_execute {α : Type} {program : Prog signature α}
    (elsewhere : ∀ entry ∈ (program.execute (depot.answer prim) world).1,
      ∀ place content options, entry.2.op = .put place content options →
        depot.find place ≠ some store) :
    ∀ entry ∈ (program.execute (depot.answer prim) world).1,
      entry.1.disks store = world.disks store := by
  induction program generalizing world with
  | pure value => exact fun _ member => (List.not_mem_nil member).elim
  | call op next ih =>
    intro entry member
    rcases List.mem_cons.mp member with rfl | later
    · rfl
    · have same : (depot.answer prim world op).1.disks store = world.disks store := by
        cases op with
        | put place content options =>
          have other := elsewhere _ (List.mem_cons_self ..) place content options rfl
          unfold Depot.answer
          dsimp only
          split
          · rfl
          · rename_i found
            refine Function.update_of_ne (fun equal => other ?_) _ _
            rw [equal, found]
        | openRef place ref =>
          unfold Depot.answer
          dsimp only
          split <;> rfl
        | now => rfl
        | ctxErr => rfl
        | restoreArchiveEvents archiveID events => rfl
      rw [← same]
      exact ih _ (fun other among => elsewhere other (List.mem_cons_of_mem _ among)) entry later

/-- **What was put is there at the end**, when no two contents of the run collide. -/
theorem kept_of_put {α : Type} (program : Prog signature α)
    (collisionFree : Set.InjOn prim.sha256
      (putContents (program.execute (depot.answer prim) world).1))
    {place : Place} {content : Stream} {options : PutOptions} {ref : Ref}
    (found : depot.find place = some store)
    (member : (⟨.put place content options, .ok ref⟩ : signature.Exchange) ∈
      (program.execute (depot.answer prim) world).1.map Prod.snd) :
    Kept prim depot store content.bytes options.compression
      (program.execute (depot.answer prim) world).2.1 ∧
    ref = putRef prim.sha256 prim.gzip (depot.stores store) content.bytes options := by
  induction program generalizing world with
  | pure value => exact (List.not_mem_nil member).elim
  | call op next ih =>
    rcases List.mem_cons.mp member with here | later
    · -- the put itself, and then the rest of the run
      obtain ⟨rfl, reply⟩ := Signature.Exchange.mk.inj here
      have replied : depot.answer prim world (.put place content options) =
          ((depot.answer prim world (.put place content options)).1, .ok ref) :=
        Prod.ext rfl (eq_of_heq reply).symm
      obtain ⟨other, same, supported, _, rfl, after⟩ := Depot.answer_put_ok replied
      rw [found, Option.some.injEq] at same
      subst same
      have placed : Kept prim depot store content.bytes options.compression
          (depot.answer prim world (.put place content options)).1 := by
        rw [after]
        exact kept_setDisk _ supported
      refine ⟨placed.execute (next _) fun data among => ?_, rfl⟩
      obtain ⟨entry, logged, put⟩ := among
      exact collisionFree ⟨entry, List.mem_cons_of_mem _ logged, put⟩
        ⟨_, List.mem_cons_self .., place, content, options, rfl, rfl⟩
    · refine ih _ (collisionFree.mono ?_) later
      rintro data ⟨entry, logged, put⟩
      exact ⟨entry, List.mem_cons_of_mem _ logged, put⟩

end Kept

/-! ### Texts of small records -/

section Texts

/-- A JSON string; of the bytes that occur only zero is escaped. -/
def quoted (text : GoString) : GoString :=
  34 :: (text.flatMap fun byte => if byte = 0 then octets "\\u0000" else [byte]) ++ [34]

/-- A number that is not negative. -/
def number (value : Int) : GoString := (Nat.toDigits 10 value.toNat).map Char.toUInt8

def separated (items : List GoString) : GoString := (octets ",").intercalate items

/-- What `encoding/json` writes for a reference that is kept forever and has no class. -/
def refText (ref : Ref) : GoString :=
  octets "\x7b\"store\":" ++ quoted ref.store ++ octets ",\"key\":" ++ quoted ref.key ++
  (if ref.contentType = [] then [] else octets ",\"content_type\":" ++ quoted ref.contentType) ++
  octets ",\"size\":" ++ number ref.size.toInt ++
  octets ",\"stored_size\":" ++ number ref.storedSize.toInt ++
  octets ",\"sha256\":[" ++ separated (ref.sha256.1.map fun byte => number byte.toNat) ++
  octets "]" ++
  (if ref.compression = [] then [] else octets ",\"compression\":" ++ quoted ref.compression) ++
  octets ",\"retain_until\":\"0001-01-01T00:00:00Z\"\x7d"

/-- What it writes for a link to a whole payload. -/
def linkText (link : PayloadLink) : GoString :=
  octets "\x7b\"Role\":" ++ quoted link.role ++ octets ",\"Ref\":" ++ refText link.ref ++
  octets ",\"OriginalSize\":" ++ number link.originalSize.toInt ++
  octets ",\"CapturedSize\":" ++ number link.capturedSize.toInt ++
  octets ",\"Truncated\":false,\"Error\":\"\"\x7d"

def payloadsText (payloads : List PayloadLink) : GoString :=
  if payloads = [] then octets "null"
  else octets "[" ++ separated (payloads.map linkText) ++ octets "]"

def zeroText : GoString := quoted (encodeID (Bytes.zero 16))

/-- The fields between the kind and the payloads, all unset. -/
def recordMiddle : GoString :=
  octets ",\"Level\":1,\"FlowID\":" ++ zeroText ++ octets ",\"ExecutionID\":" ++ zeroText ++
  octets ",\"ParentExecutionID\":" ++ zeroText ++
  octets ",\"RetryOfExecutionID\":" ++ zeroText ++
  octets ",\"ExecutionAttempt\":0,\"ExecutionSource\":\"\"" ++
  octets ",\"Scope\":\x7b\"type\":\"\",\"id\":\"\"\x7d,\"EntityType\":\"\",\"EntityID\":\"\"" ++
  octets ",\"ParentID\":" ++ zeroText ++
  octets ",\"Fields\":null,\"FlowStatus\":\"\",\"ExecutionStatus\":\"\",\"ExecutionKind\":\"\"" ++
  octets ",\"RetentionClass\":\"\",\"Provider\":\"\",\"HasError\":false" ++
  octets ",\"HTTP\":\x7b\"Method\":\"\",\"Scheme\":\"\",\"Host\":\"\",\"Path\":\"\"" ++
  octets ",\"StatusCode\":0,\"Duration\":0,\"Success\":false,\"RequestSize\":0" ++
  octets ",\"ResponseSize\":0,\"RequestPreview\":\"\",\"ResponsePreview\":\"\"\x7d,\"Payloads\":"

/-- The fields after the payloads, all unset. -/
def recordEnd : GoString :=
  octets ",\"BatchID\":" ++ zeroText ++
  octets ",\"Metadata\":\x7b\"Service\":\"\",\"Environment\":\"\",\"Version\":\"\"\x7d" ++
  octets ",\"Delivery\":\x7b\"Stream\":\"\",\"Consumer\":\"\",\"StreamSequence\":0" ++
  octets ",\"ConsumerSequence\":0,\"Delivered\":0,\"ReceivedAt\":\"0001-01-01T00:00:00Z\"\x7d\x7d"

/-- What it writes for a record of the fifth nanosecond of the epoch of which only the identifier,
the kind and the payloads are set. -/
def recordText (record : EventRecord) : GoString :=
  octets "\x7b\"ID\":" ++ (quoted (encodeID record.id) ++
  (octets ",\"Timestamp\":\"1970-01-01T00:00:00.000000005Z\",\"Kind\":" ++ (quoted record.kind ++
  (recordMiddle ++ (payloadsText record.payloads ++ recordEnd)))))

theorem isLine_recordText {record : EventRecord} (id : newline ∉ quoted (encodeID record.id))
    (kind : newline ∉ quoted record.kind) (payloads : newline ∉ payloadsText record.payloads) :
    IsLine (recordText record) := by
  have ends : recordEnd.getLast? = some 125 := by decide
  unfold recordText
  constructor
  · simp only [List.mem_append, not_or]
    exact ⟨by decide +kernel, id, by decide +kernel, kind, by decide +kernel, payloads,
      by decide⟩
  · simp only [List.getLast?_append, ends, Option.some_or]
    decide

theorem recordText_start (record : EventRecord) :
    ∃ rest, recordText record = 123 :: 34 :: 73 :: rest := by
  have start : octets "\x7b\"ID\":" = [123, 34, 73, 68, 34, 58] := by decide
  unfold recordText
  rw [start]
  exact ⟨_, rfl⟩

/-- What it writes for a manifest of the tenth nanosecond of the epoch. -/
def manifestText (manifest : Manifest) : GoString :=
  octets "\x7b\"version\":" ++ (quoted manifest.version ++ octets ",\"id\":" ++ quoted manifest.id ++
  octets ",\"created_at\":\"1970-01-01T00:00:00.00000001Z\",\"event_count\":" ++
  number manifest.eventCount ++
  octets ",\"event_ids\":[" ++ separated (manifest.eventIDs.map quoted) ++
  octets "],\"events\":" ++ refText manifest.events ++
  (if manifest.payloads = [] then []
    else octets ",\"payloads\":[" ++ separated (manifest.payloads.map fun entry =>
      octets "\x7b\"source\":" ++ refText entry.source ++ octets ",\"archive\":" ++
        refText entry.archive ++ octets "\x7d") ++ octets "]") ++
  octets "\x7d")

theorem manifestText_start (manifest : Manifest) :
    ∃ rest, manifestText manifest = 123 :: 34 :: 118 :: rest := by
  have start : octets "\x7b\"version\":" =
      [123, 34, 118, 101, 114, 115, 105, 111, 110, 34, 58] := by decide
  unfold manifestText
  rw [start]
  exact ⟨_, rfl⟩

end Texts

/-! ### Small archives -/

section Small

def body : List UInt8 := ascii "body"

/-- The SHA-256 of the body. -/
def bodyDigest : Bytes 32 :=
  digestOf 0x230d8358dc8e8890b4c58deeb62912ee2f20357ae92a5cc861b98e68fe31acb5

/-- The reference to the body in a store. -/
def bodyRef (name keyPrefix : GoString) : Ref where
  store := name
  key := objectKey keyPrefix bodyDigest compressionNone
  contentType := ascii "text/plain"
  size := 4
  storedSize := 4
  sha256 := bodyDigest

def linkTo (ref : Ref) : PayloadLink :=
  { role := ascii "request", ref, originalSize := ref.size, capturedSize := ref.size }

/-- A record that links to payloads. -/
def linkedRecord (last : UInt8) (refs : List Ref) : EventRecord where
  id := ⟨List.replicate 15 0 ++ [last], by simp⟩
  timestamp := 5
  kind := ascii "kind"
  payloads := refs.map linkTo

/-- The event object of an archive. -/
def smallText (events : List EventRecord) : List UInt8 := joinLines (events.map recordText)

/-- The manifest of an archive in the store `cold` whose event object has the given digest, with the
references to the body that it copied. -/
def smallManifest (sum : Bytes 32) (events : List EventRecord) (copied : List Ref) : Manifest where
  version := version
  id := Hex.encodeToString sum.1
  createdAt := 10
  eventCount := events.length
  eventIDs := events.map fun event => encodeID event.id
  events :=
    { store := ascii "cold"
      key := objectKey [] sum compressionGZIP
      contentType := ascii "application/x-ndjson"
      size := Int64.ofNat (smallText events).length
      storedSize := Int64.ofNat (storedGzip.pack compressionGZIP (smallText events)).length
      sha256 := sum
      compression := compressionGZIP }
  payloads := copied.map fun ref =>
    ⟨ref, { ref with store := ascii "cold", key := objectKey [] bodyDigest compressionNone }⟩

/-- JSON and SHA-256 as far as such an archive needs them, with the digests of the event object and
of the manifest. -/
def smallPrimitives (sum manifestSum : Bytes 32) (events : List EventRecord) (copied : List Ref) :
    Primitives where
  sha256 := tableDigest [(body, bodyDigest), (smallText events, sum),
    (manifestText (smallManifest sum events copied), manifestSum)]
  gzip := storedGzip
  event := Wire.Codec.table (events.map fun event => (event, recordText event))
  manifest := Wire.Codec.table ([smallManifest sum events copied].map fun manifest =>
    (manifest, manifestText manifest))

/-- The receipt of such an archive. -/
def smallReceipt (sum manifestSum : Bytes 32) (events : List EventRecord) (copied : List Ref) :
    Receipt where
  manifest := smallManifest sum events copied
  manifestRef :=
    { store := ascii "cold"
      key := objectKey [] manifestSum compressionNone
      contentType := ascii "application/vnd.trail.archive-manifest+json"
      size := Int64.ofNat (manifestText (smallManifest sum events copied)).length
      storedSize := Int64.ofNat (manifestText (smallManifest sum events copied)).length
      sha256 := manifestSum }

/-- The archive store `cold`, and stores that are sources and active under their names. -/
def smallDepot (sources : List Store) : Depot where
  stores index := (plainStore (ascii "cold") [] :: sources).getD index (plainStore [] [])
  archive := 0
  sources := sources.zipIdx.foldl (fun table entry => table.insert entry.1.name (entry.2 + 1)) ∅
  active := sources.zipIdx.foldl (fun table entry => table.insert entry.1.name (entry.2 + 1)) ∅
  now := 10

/-- Stores that have the body, and an archive store that is empty. -/
def smallWorld (sources : List Store) : World where
  disks index :=
    match (none :: sources.map some).getD index none with
    | none => ∅
    | some store => AList.insert (objectKey store.keyPrefix bodyDigest compressionNone) body ∅
  target := ∅

section Lemmas

variable {sum manifestSum : Bytes 32} {events : List EventRecord} {copied : List Ref}

theorem smallText_start (nonempty : events ≠ []) :
    ∃ rest, smallText events = 123 :: 34 :: 73 :: rest := by
  obtain ⟨event, events, rfl⟩ := List.exists_cons_of_ne_nil nonempty
  obtain ⟨rest, start⟩ := recordText_start event
  unfold smallText
  rw [List.map_cons, joinLines_cons, start]
  exact ⟨_, rfl⟩

theorem small_sha256 (nonempty : events ≠ []) :
    (smallPrimitives sum manifestSum events copied).sha256 body = bodyDigest ∧
    (smallPrimitives sum manifestSum events copied).sha256 (smallText events) = sum ∧
    (smallPrimitives sum manifestSum events copied).sha256
      (manifestText (smallManifest sum events copied)) = manifestSum := by
  obtain ⟨rest, text⟩ := smallText_start nonempty
  obtain ⟨more, manifest⟩ := manifestText_start (smallManifest sum events copied)
  have first : body ≠ smallText events := by
    rw [text]
    exact fun same => absurd (List.cons.inj same).1 (by decide)
  have second : body ≠ manifestText (smallManifest sum events copied) := by
    rw [manifest]
    exact fun same => absurd (List.cons.inj same).1 (by decide)
  have third : smallText events ≠ manifestText (smallManifest sum events copied) := by
    rw [text, manifest]
    intro same
    simp at same
  unfold smallPrimitives
  dsimp only
  refine ⟨?_, ?_, ?_⟩
  · rw [tableDigest_cons, if_pos rfl]
  · rw [tableDigest_cons, if_neg first, tableDigest_cons, if_pos rfl]
  · rw [tableDigest_cons, if_neg second, tableDigest_cons, if_neg third, tableDigest_cons,
      if_pos rfl]

theorem small_truncation (nonempty : events ≠ []) (known : manifestSum ≠ Bytes.zero 32) {bound : Nat}
    (room : 3 ≤ bound) (same : (smallPrimitives sum manifestSum events copied).sha256
      ((manifestText (smallManifest sum events copied)).take bound) = manifestSum) :
    (manifestText (smallManifest sum events copied)).take bound =
      manifestText (smallManifest sum events copied) := by
  obtain ⟨rest, text⟩ := smallText_start nonempty
  obtain ⟨more, manifest⟩ := manifestText_start (smallManifest sum events copied)
  obtain ⟨further, rfl⟩ := Nat.exists_eq_add_of_le' room
  have cut : (manifestText (smallManifest sum events copied)).take (further + 3) =
      123 :: 34 :: 118 :: more.take further := by
    rw [manifest]
    rfl
  by_contra differs
  have first : body ≠ (manifestText (smallManifest sum events copied)).take (further + 3) := by
    rw [cut]
    exact fun same => absurd (List.cons.inj same).1 (by decide)
  have second : smallText events ≠
      (manifestText (smallManifest sum events copied)).take (further + 3) := by
    rw [text, cut]
    intro same
    simp at same
  unfold smallPrimitives at same
  dsimp only at same
  rw [tableDigest_cons, if_neg first, tableDigest_cons, if_neg second, tableDigest_cons,
    if_neg (Ne.symm differs)] at same
  exact known same.symm

theorem small_injOn (nonempty : events ≠ []) (apart : [bodyDigest, sum, manifestSum].Nodup) :
    Set.InjOn (smallPrimitives sum manifestSum events copied).sha256
      {body, smallText events, manifestText (smallManifest sum events copied)} := by
  obtain ⟨first, second, third⟩ := @small_sha256 sum manifestSum events copied nonempty
  simp only [List.nodup_cons, List.mem_cons, List.not_mem_nil, or_false, not_or] at apart
  obtain ⟨⟨one, two⟩, three, _⟩ := apart
  rintro left (rfl | rfl | rfl) right (rfl | rfl | rfl) same
  all_goals grind

theorem small_encode (part : List EventRecord) (among : part ⊆ events) :
    encodeEvents (smallPrimitives sum manifestSum events copied) part =
      .ok (part.map recordText) := by
  induction part with
  | nil => rfl
  | cons event rest ih =>
    have first : (smallPrimitives sum manifestSum events copied).event.marshal event =
        .ok (recordText event) := Wire.Codec.table_marshal (among (List.mem_cons_self ..))
    unfold encodeEvents
    rw [first, ih fun other member => among (List.mem_cons_of_mem _ member)]
    rfl

theorem small_marshal_manifest :
    (smallPrimitives sum manifestSum events copied).manifest.marshal
      (smallManifest sum events copied) = .ok (manifestText (smallManifest sum events copied)) :=
  Wire.Codec.table_marshal (List.mem_singleton_self _)

theorem small_unmarshal_manifest :
    (smallPrimitives sum manifestSum events copied).manifest.unmarshal
      (manifestText (smallManifest sum events copied)) =
        .ok (smallReceipt sum manifestSum events copied).manifest := by
  have alone : Set.InjOn manifestText {item | item ∈ [smallManifest sum events copied]} :=
    fun _ left _ right _ => (List.mem_singleton.mp left).trans (List.mem_singleton.mp right).symm
  have member := List.mem_singleton_self (smallManifest sum events copied)
  unfold smallPrimitives smallReceipt
  dsimp only
  exact Wire.Codec.table_unmarshal alone member

theorem small_manifestText {data : List UInt8}
    (marshalled : (smallPrimitives sum manifestSum events copied).manifest.marshal
      (smallReceipt sum manifestSum events copied).manifest = .ok data) :
    data = manifestText (smallManifest sum events copied) :=
  (Except.ok.inj (small_marshal_manifest.symm.trans marshalled)).symm

theorem small_recordText {event : EventRecord} {line : List UInt8} (member : event ∈ events)
    (marshalled : (smallPrimitives sum manifestSum events copied).event.marshal event = .ok line) :
    line = recordText event :=
  (Except.ok.inj ((Wire.Codec.table_marshal member).symm.trans marshalled)).symm

end Lemmas

end Small

end Trail.Archive
