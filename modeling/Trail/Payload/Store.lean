/-
**Content-addressed payload stores.**

The key of an object is the prefix of its store, the digest of its content in hexadecimal, and
`.gz` when the object is kept compressed; the file system and the S3 store make the same keys. What
a reader gets is a `Stream`: bytes, and how they end. `compress/gzip` and SHA-256 are parameters,
and that decompression inverts compression is a field of `Gzip`.

* `objectKey_inj`: a key determines the digest and whether the object is compressed.
* `openRef_of_lookup`: what was put can be opened.
-/

import Trail.Library.StoredGzip
import Trail.Library.Table
import Trail.Payload.Ref

namespace Trail.Payload

open Library

/-! ### Streams -/

/-- The bytes a reader delivers before it ends, with an error or with `io.EOF`. -/
structure Stream where
  bytes : List UInt8
  failure : Option GoError := none
  deriving DecidableEq, Repr

/-- `io.ReadAll`. -/
def Stream.readAll (stream : Stream) : Except GoError (List UInt8) :=
  match stream.failure with
  | some error => .error error
  | none => .ok stream.bytes

/-- `io.ReadAll` of an `io.LimitReader`, which never gets to an error beyond its limit. -/
def Stream.readLimited (limit : Nat) (stream : Stream) : Except GoError (List UInt8) :=
  if limit ≤ stream.bytes.length then .ok (stream.bytes.take limit) else stream.readAll

theorem Stream.readLimited_whole {limit : Nat} {data : List UInt8} (fits : data.length ≤ limit) :
    Stream.readLimited limit ⟨data, none⟩ = .ok data := by
  unfold Stream.readLimited
  split
  · rw [List.take_of_length_le fits]
  · rfl

/-- `compress/gzip`: a writer, and a reader that refuses a bad header and ends with an error at bad
data. -/
structure Gzip where
  compress : List UInt8 → List UInt8
  reader : Stream → Except GoError Stream
  reader_compress : ∀ data, reader ⟨compress data, none⟩ = .ok ⟨data, none⟩

namespace Gzip

variable (gzip : Gzip)

/-- The bytes kept for a content. -/
def pack (compression : Compression) (data : List UInt8) : List UInt8 :=
  if compression = compressionGZIP then gzip.compress data else data

/-- The logical reader over the reader of an object. -/
def logical (compression : Compression) (stream : Stream) : Except GoError Stream :=
  if compression = compressionGZIP then gzip.reader stream else .ok stream

/-- **Reading what was packed.** -/
theorem logical_pack (compression : Compression) (data : List UInt8) :
    gzip.logical compression ⟨gzip.pack compression data, none⟩ = .ok ⟨data, none⟩ := by
  unfold logical pack
  split
  · exact gzip.reader_compress data
  · rfl

theorem pack_injective (compression : Compression) : Function.Injective (gzip.pack compression) := by
  intro first second same
  have read := gzip.logical_pack compression first
  rw [same, gzip.logical_pack] at read
  cases read
  rfl

end Gzip

/-- The gzip format with stored blocks. -/
def storedGzip : Gzip where
  compress := StoredGzip.compress
  reader stream :=
    match StoredGzip.decompress stream.bytes with
    | none => .error (errorsNew "gzip: invalid header")
    | some data => .ok ⟨data, stream.failure⟩
  reader_compress data := by
    dsimp only
    rw [StoredGzip.decompress_compress]

/-! ### Keys -/

/-- The suffix of the key of a compressed object. -/
def keySuffix (compression : Compression) : GoString :=
  if compression = compressionGZIP then ascii ".gz" else []

/-- The key of an object. -/
def objectKey (keyPrefix : GoString) (sum : Bytes 32) (compression : Compression) : GoString :=
  keyPrefix ++ Hex.encodeToString sum.1 ++ keySuffix compression

/-- The compressions a store can write. -/
def Supported (compression : Compression) : Prop :=
  compression = compressionNone ∨ compression = compressionGZIP

instance (compression : Compression) : Decidable (Supported compression) := by
  unfold Supported
  infer_instance

theorem keySuffix_inj {first second : Compression} (left : Supported first)
    (right : Supported second) (same : keySuffix first = keySuffix second) : first = second := by
  rcases left with rfl | rfl <;> rcases right with rfl | rfl
  · rfl
  · exact absurd same (by decide)
  · exact absurd same (by decide)
  · rfl

/-- **A key determines the digest and the compression.** -/
theorem objectKey_inj {keyPrefix : GoString} {sum other : Bytes 32} {first second : Compression}
    (left : Supported first) (right : Supported second)
    (same : objectKey keyPrefix sum first = objectKey keyPrefix other second) :
    sum = other ∧ first = second := by
  unfold objectKey at same
  rw [List.append_assoc, List.append_assoc, List.append_cancel_left_eq] at same
  have lengths : (Hex.encodeToString sum.1).length = (Hex.encodeToString other.1).length := by
    rw [Hex.length_encodeToString, Hex.length_encodeToString, sum.2, other.2]
  obtain ⟨digits, suffixes⟩ := List.append_inj same lengths
  exact ⟨Subtype.ext (Hex.encodeToString_injective digits), keySuffix_inj left right suffixes⟩

/-! ### Stores -/

/-- What is fixed about a store: its name, the prefix of its keys, the check `Open` makes of a key,
and the error of `Put` for a compression it cannot write. -/
structure Store where
  name : GoString
  keyPrefix : GoString
  accepts : GoString → Bool
  unsupported : Compression → GoError
  accepts_own : ∀ sum compression, accepts (objectKey keyPrefix sum compression) = true

/-- The objects of a store by key, as they are kept. -/
abbrev Disk := Table GoString (List UInt8)

section Operations

variable (sha256 : List UInt8 → Bytes 32) (gzip : Gzip) (store : Store) (disk : Disk)

/-- The reference `Put` returns. -/
def putRef (data : List UInt8) (options : PutOptions) : Ref where
  store := store.name
  key := objectKey store.keyPrefix (sha256 data) options.compression
  contentType := options.contentType
  size := Int64.ofNat data.length
  storedSize := Int64.ofNat (gzip.pack options.compression data).length
  sha256 := sha256 data
  compression := options.compression
  retainUntil := options.retainUntil
  retentionClass := options.retentionClass

@[simp]
theorem putRef_sha256 (data : List UInt8) (options : PutOptions) :
    (putRef sha256 gzip store data options).sha256 = sha256 data :=
  rfl

/-- `Put`. -/
def put (content : Stream) (options : PutOptions) : Disk × Except GoError Ref :=
  if Supported options.compression then
    match content.readAll with
    | .error error => (disk, .error error)
    | .ok data =>
      (disk.insert (objectKey store.keyPrefix (sha256 data) options.compression)
        (gzip.pack options.compression data), .ok (putRef sha256 gzip store data options))
  else (disk, .error (store.unsupported options.compression))

/-- `Open`. -/
def openRef (ref : Ref) : Except GoError Stream :=
  if ref.store ≠ store.name ∨ store.accepts ref.key = false then .error errInvalidRef
  else
    match disk.lookup ref.key with
    | none => .error errNotFound
    | some bytes => .ok ⟨bytes, none⟩

/-- The object of a reference is there, with the digest and the size the reference has. -/
def Holds (ref : Ref) : Prop :=
  ∃ data, disk.lookup ref.key = some (gzip.pack ref.compression data) ∧
    sha256 data = ref.sha256 ∧ Int64.ofNat data.length = ref.size

variable {sha256 gzip store disk}

/-- A successful `Put`. -/
theorem put_ok {content : Stream} {options : PutOptions} {after : Disk} {ref : Ref}
    (done : put sha256 gzip store disk content options = (after, .ok ref)) :
    Supported options.compression ∧ content.failure = none ∧
      ref = putRef sha256 gzip store content.bytes options ∧
      after = disk.insert (objectKey store.keyPrefix (sha256 content.bytes) options.compression)
        (gzip.pack options.compression content.bytes) := by
  unfold put Stream.readAll at done
  split at done
  · rename_i supported
    cases ends : content.failure with
    | some error =>
      rw [ends] at done
      cases done
    | none =>
      rw [ends] at done
      cases done
      exact ⟨supported, rfl, rfl, rfl⟩
  · cases done

theorem put_whole (data : List UInt8) {options : PutOptions}
    (supported : Supported options.compression) :
    put sha256 gzip store disk ⟨data, none⟩ options =
      (disk.insert (objectKey store.keyPrefix (sha256 data) options.compression)
        (gzip.pack options.compression data), .ok (putRef sha256 gzip store data options)) := by
  unfold put
  rw [if_pos supported]
  rfl

/-- **What was put can be opened.** -/
theorem openRef_of_lookup {ref : Ref} {bytes : List UInt8} (named : ref.store = store.name)
    (addressed : ref.key = objectKey store.keyPrefix ref.sha256 ref.compression)
    (here : disk.lookup ref.key = some bytes) : openRef store disk ref = .ok ⟨bytes, none⟩ := by
  unfold openRef
  have accepted : store.accepts ref.key = true := by
    rw [addressed]
    exact store.accepts_own _ _
  rw [if_neg (by simp [named, accepted]), here]

end Operations

/-! ### Small stores -/

/-- A store that accepts the keys under its prefix. -/
def plainStore (name keyPrefix : GoString) : Store where
  name := name
  keyPrefix := keyPrefix
  accepts key := keyPrefix.isPrefixOf key
  unsupported _ := errorsNew "trail/payload: unsupported compression"
  accepts_own sum compression := by
    unfold objectKey
    rw [List.append_assoc, List.isPrefixOf_iff_prefix]
    exact List.prefix_append _ _

/-- The digest that is written as this number. -/
def digestOf (number : Nat) : Bytes 32 :=
  ⟨(List.range 32).map fun index => UInt8.ofNat (number >>> (8 * (31 - index))), by simp⟩

/-- A digest known on the contents of a table. -/
def tableDigest (table : List (List UInt8 × Bytes 32)) (data : List UInt8) : Bytes 32 :=
  match table.find? fun entry => entry.1 = data with
  | none => Bytes.zero 32
  | some entry => entry.2

theorem tableDigest_cons (entry : List UInt8 × Bytes 32) (table : List (List UInt8 × Bytes 32))
    (data : List UInt8) : tableDigest (entry :: table) data =
      if entry.1 = data then entry.2 else tableDigest table data := by
  unfold tableDigest
  by_cases same : entry.1 = data <;> simp [same]

theorem mem_of_tableDigest {table : List (List UInt8 × Bytes 32)} {data : List UInt8}
    (known : tableDigest table data ≠ Bytes.zero 32) : data ∈ table.map Prod.fst := by
  unfold tableDigest at known
  split at known
  · exact absurd rfl known
  · rename_i entry found
    have same : entry.1 = data := by simpa using List.find?_some found
    exact same ▸ List.mem_map_of_mem (List.mem_of_find?_eq_some found)

end Trail.Payload
