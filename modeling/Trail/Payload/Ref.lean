/-
**References to payload objects.**

`Ref` is the reference an event carries to an object of a payload store, with the digest, the sizes
and the lifecycle data recorded when the object was put. `payloadKey` identifies the object across
stores: the store's name and the key, with a zero byte between them.
-/

import Trail.Core.Event
import Trail.Library.Separators

namespace Trail.Payload

/-- `Compression`, any string. -/
abbrev Compression := GoString

def compressionNone : Compression := []

def compressionGZIP : Compression := ascii "gzip"

/-- `Ref`. -/
structure Ref where
  store : GoString
  key : GoString
  contentType : GoString := []
  size : Int64 := 0
  storedSize : Int64 := 0
  sha256 : Bytes 32 := Bytes.zero 32
  compression : Compression := compressionNone
  retainUntil : Time := zeroTime
  retentionClass : GoString := []
  deriving DecidableEq, Repr

/-- `Fields`: the options by which an event refers to the object. -/
def Ref.fields (ref : Ref) (role : GoString) : List LogOption :=
  let fieldPrefix := ascii "payload." ++ role ++ ascii "."
  [.string (fieldPrefix ++ ascii "store") ref.store,
    .string (fieldPrefix ++ ascii "key") ref.key,
    .string (fieldPrefix ++ ascii "content_type") ref.contentType,
    .int64 (fieldPrefix ++ ascii "size") ref.size,
    .int64 (fieldPrefix ++ ascii "stored_size") ref.storedSize,
    .string (fieldPrefix ++ ascii "sha256") (Hex.encodeToString ref.sha256.1)] ++
  (if ref.compression ≠ compressionNone then
    [.string (fieldPrefix ++ ascii "compression") ref.compression] else []) ++
  (if ref.retainUntil ≠ zeroTime then
    [.int64 (fieldPrefix ++ ascii "retain_until_unix_nano") (Int64.ofInt ref.retainUntil)]
    else []) ++
  (if ref.retentionClass ≠ [] then
    [.string (fieldPrefix ++ ascii "retention_class") ref.retentionClass] else [])

/-- `PutOptions`. -/
structure PutOptions where
  contentType : GoString := []
  compression : Compression := compressionNone
  retainUntil : Time := zeroTime
  retentionClass : GoString := []
  deriving DecidableEq, Repr

def errInvalidRef : GoError :=
  { text := ascii "trail/payload: invalid reference", wraps := [.payloadInvalidRef] }

def errNotFound : GoError :=
  { text := ascii "trail/payload: not found", wraps := [.payloadNotFound] }

/-- `r.Store + "\x00" + r.Key`. -/
def payloadKey (ref : Ref) : GoString := ref.store ++ 0 :: ref.key

theorem payloadKey_inj {first second : Ref} (left : 0 ∉ first.store) (right : 0 ∉ second.store)
    (same : payloadKey first = payloadKey second) :
    first.store = second.store ∧ first.key = second.key :=
  Library.append_cons_inj left right same

end Trail.Payload
