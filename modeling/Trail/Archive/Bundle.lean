/-
**Archive bundles: written, read and restored.**

A bundle is one object with the events, one JSON text a line, the copied payload objects, and a
manifest object that describes both. The receipt is what the catalogue keeps. Writing, reading and
restoring are programs over the payload stores, the clock, the context and the event store that a
restore goes to; a store is addressed by its role.

`encoding/json`, `compress/gzip` and SHA-256 are parameters, gathered in `Primitives`.
-/

import Mathlib.Data.Finset.Dedup
import Mathlib.Data.Finset.Insert
import Trail.Library.Interaction
import Trail.Library.Lines
import Trail.Payload.Store
import Trail.Storage.Record

namespace Trail.Archive

open Library Payload Storage

/-- `Version`. -/
def version : GoString := ascii "trail.archive/v1"

/-- `PayloadEntry`. -/
structure PayloadEntry where
  source : Ref
  archive : Ref
  deriving DecidableEq, Repr

/-- `Manifest`. -/
structure Manifest where
  version : GoString
  id : GoString
  createdAt : Time
  eventCount : Int
  eventIDs : List GoString
  events : Ref
  payloads : List PayloadEntry
  deriving DecidableEq, Repr

/-- `Receipt`. -/
structure Receipt where
  manifest : Manifest
  manifestRef : Ref
  deriving DecidableEq, Repr

/-- `RestoreResult`. -/
structure RestoreResult where
  archiveID : GoString
  restored : Int := 0
  next : Int := 0
  complete : Bool := false
  deriving DecidableEq, Repr

/-! ### The environment -/

/-- The payload stores by their role: the archive store, `sources[name]` of the writer and
`activeStores[name]` of a restore. -/
inductive Place
  | archive
  | source (name : GoString)
  | active (name : GoString)
  deriving DecidableEq, Repr

inductive Call
  | put (place : Place) (content : Stream) (options : PutOptions)
  | openRef (place : Place) (ref : Ref)
  /-- `w.now()`. -/
  | now
  /-- `ctx.Err()`. -/
  | ctxErr
  | restoreArchiveEvents (archiveID : GoString) (events : List EventRecord)

/-- What each call returns; `RestoreArchiveEvents` returns a number beside its error. -/
def Call.Reply : Call → Type
  | .put _ _ _ => Except GoError Ref
  | .openRef _ _ => Except GoError Stream
  | .now => Time
  | .ctxErr => Option GoError
  | .restoreArchiveEvents _ _ => Int × Option GoError

abbrev signature : Signature := ⟨Call, Call.Reply⟩

/-- The library functions the archive uses. -/
structure Primitives where
  sha256 : List UInt8 → Bytes 32
  gzip : Gzip
  event : Wire.Codec EventRecord
  manifest : Wire.Codec Manifest

/-- `BundleWriter`, by the names of its sources. -/
structure BundleWriter where
  sources : List GoString

section Programs

variable (prim : Primitives)

/-! ### Writing -/

/-- The lines of the event object. -/
def encodeEvents : List EventRecord → Except GoError (List (List UInt8))
  | [] => .ok []
  | event :: events =>
    match prim.event.marshal event with
    | .error error => .error error
    | .ok line =>
      match encodeEvents events with
      | .error error => .error error
      | .ok lines => .ok (line :: lines)

def eventOptions : PutOptions :=
  { contentType := ascii "application/x-ndjson", compression := compressionGZIP }

def manifestOptions : PutOptions :=
  { contentType := ascii "application/vnd.trail.archive-manifest+json" }

/-- The options under which an object is put that was put with the given reference. -/
def sameOptions (ref : Ref) : PutOptions where
  contentType := ref.contentType
  compression := ref.compression
  retainUntil := ref.retainUntil
  retentionClass := ref.retentionClass

/-- The loop of `Write` over the payload links of all events. -/
def copyPayloads (writer : BundleWriter) : List PayloadLink → Finset GoString → List PayloadEntry →
    Prog signature (Except GoError (List PayloadEntry))
  | [], _, entries => .pure (.ok entries)
  | link :: links, seen, entries =>
    if payloadKey link.ref ∈ seen then copyPayloads writer links seen entries
    else if writer.sources.contains link.ref.store = false then
      .pure (.error (errorsNew "trail/archive: source payload store is not configured"))
    else
      .call (.openRef (.source link.ref.store) link.ref) fun
        | .error error => .pure (.error error)
        | .ok reader =>
          match prim.gzip.logical link.ref.compression reader with
          | .error error => .pure (.error error)
          | .ok content =>
            .call (.put .archive content (sameOptions link.ref)) fun
              | .error error => .pure (.error error)
              | .ok archived =>
                if archived.sha256 ≠ link.ref.sha256 ∨ archived.size ≠ link.ref.size then
                  .pure (.error (errorsNew "trail/archive: payload verification failed"))
                else
                  copyPayloads writer links (insert (payloadKey link.ref) seen)
                    (entries ++ [⟨link.ref, archived⟩])

/-- The manifest before its payloads are known. -/
def baseManifest (events : List EventRecord) (eventData : List UInt8) (eventRef : Ref)
    (createdAt : Time) : Manifest where
  version := version
  id := Hex.encodeToString (prim.sha256 eventData).1
  createdAt := createdAt
  eventCount := events.length
  eventIDs := events.map fun event => encodeID event.id
  events := eventRef
  payloads := []

/-- The end of `Write`: the manifest is put and read back. -/
def writeManifest (manifest : Manifest) : Prog signature (Except GoError Receipt) :=
  match prim.manifest.marshal manifest with
  | .error error => .pure (.error error)
  | .ok data =>
    .call (.put .archive ⟨data, none⟩ manifestOptions) fun
      | .error error => .pure (.error error)
      | .ok manifestRef =>
        .call (.openRef .archive manifestRef) fun
          | .error error => .pure (.error error)
          | .ok opened =>
            if opened.readLimited (data.length + 1) = .ok data then
              .pure (.ok ⟨manifest, manifestRef⟩)
            else .pure (.error (errorsNew "trail/archive: manifest verification failed"))

/-- `Write`. -/
def write (writer : BundleWriter) (events : List EventRecord) :
    Prog signature (Except GoError Receipt) :=
  if events = [] then .pure (.error (errorsNew "trail/archive: empty event batch"))
  else
    match encodeEvents prim events with
    | .error error => .pure (.error error)
    | .ok lines =>
      .call (.put .archive ⟨joinLines lines, none⟩ eventOptions) fun
        | .error error => .pure (.error error)
        | .ok eventRef =>
          .call .now fun createdAt =>
            (copyPayloads prim writer (events.flatMap (·.payloads)) ∅ []).bind fun
              | .error error => .pure (.error error)
              | .ok payloads =>
                writeManifest prim
                  { baseManifest prim events (joinLines lines) eventRef createdAt with payloads }

/-! ### Reading -/

/-- The bound of the manifest reader and of the line scanner. -/
def readBound : Nat := 16 <<< 20

/-- `ReadManifest`; a missing store is `none`. -/
def readManifest (store : Option Place) (ref : Ref) : Prog signature (Except GoError Manifest) :=
  match store with
  | none => .pure (.error (errorsNew "trail/archive: archive store is required"))
  | some place =>
    .call (.openRef place ref) fun
      | .error error => .pure (.error error)
      | .ok reader =>
        match reader.readLimited readBound with
        | .error error => .pure (.error error)
        | .ok data =>
          if prim.sha256 data ≠ ref.sha256 then
            .pure (.error (errorsNew "trail/archive: manifest checksum verification failed"))
          else
            match prim.manifest.unmarshal data with
            | .error error => .pure (.error error)
            | .ok manifest =>
              if manifest.version ≠ version ∨ manifest.id = [] ∨ manifest.eventCount < 1 ∨
                  manifest.eventIDs.length ≠ manifest.eventCount then
                .pure (.error (errorsNew "trail/archive: invalid manifest"))
              else .pure (.ok manifest)

/-- The loop of `ReadEvents` over the lines: the lines counted and the events read so far. -/
def readLines (offset limit : Int) : List (List UInt8) → Nat → List EventRecord →
    Prog signature (Except GoError (Nat × List EventRecord))
  | [], index, result => .pure (.ok (index, result))
  | line :: lines, index, result =>
    .call .ctxErr fun
      | some error => .pure (.error error)
      | none =>
        if offset ≤ index ∧ result.length < limit then
          match prim.event.unmarshal line with
          | .error error => .pure (.error error)
          | .ok event => readLines offset limit lines (index + 1) (result ++ [event])
        else readLines offset limit lines (index + 1) result

def errTooLong : GoError := errorsNew "bufio.Scanner: token too long"

/-- The checks of `ReadEvents` after the scanner has stopped. -/
def verifyEvents (manifest : Manifest) (offset : Int) (logical : Stream) (tooLong : Bool)
    (index : Nat) (result : List EventRecord) : Except GoError (List EventRecord × Bool) :=
  if tooLong then .error errTooLong
  else
    match logical.failure with
    | some error => .error error
    | none =>
      if (index : Int) ≠ manifest.eventCount then
        .error (errorsNew "trail/archive: event count verification failed")
      else if prim.sha256 logical.bytes ≠ manifest.events.sha256 then
        .error (errorsNew "trail/archive: event checksum verification failed")
      else .ok (result, manifest.eventCount ≤ offset + result.length)

/-- `ReadEvents`. -/
def readEvents (store : Option Place) (manifest : Manifest) (offset limit : Int) :
    Prog signature (Except GoError (List EventRecord × Bool)) :=
  match store with
  | none => .pure (.error (errorsNew "trail/archive: invalid bounded read"))
  | some place =>
    if offset < 0 ∨ limit < 1 ∨ limit > 10000 then
      .pure (.error (errorsNew "trail/archive: invalid bounded read"))
    else
      .call (.openRef place manifest.events) fun
        | .error error => .pure (.error error)
        | .ok reader =>
          match prim.gzip.logical manifest.events.compression reader with
          | .error error => .pure (.error error)
          | .ok logical =>
            (readLines prim offset limit (scan readBound logical.bytes).1 0 []).bind fun
              | .error error => .pure (.error error)
              | .ok (index, result) =>
                .pure (verifyEvents prim manifest offset logical
                  (scan readBound logical.bytes).2 index result)

/-! ### Restoring -/

/-- The payloads a chunk of events needs. -/
def neededPayloads (events : List EventRecord) : Finset GoString :=
  (events.flatMap fun event => event.payloads.map fun link => payloadKey link.ref).toFinset

/-- The loop of `Restore` over the payloads of the manifest. -/
def copyBack (active : List GoString) (needed : Finset GoString) : List PayloadEntry →
    Prog signature (Option GoError)
  | [] => .pure none
  | entry :: entries =>
    if payloadKey entry.source ∉ needed then copyBack active needed entries
    else if active.contains entry.source.store = false then
      .pure (some (errorsNew "trail/archive: destination payload store is not configured"))
    else
      .call (.openRef .archive entry.archive) fun
        | .error error => .pure (some error)
        | .ok reader =>
          match prim.gzip.logical entry.archive.compression reader with
          | .error error => .pure (some error)
          | .ok content =>
            .call (.put (.active entry.source.store) content (sameOptions entry.source)) fun
              | .error error => .pure (some error)
              | .ok restored =>
                if restored.sha256 ≠ entry.source.sha256 ∨
                    restored.size ≠ entry.source.size then
                  .pure (some
                    (errorsNew "trail/archive: restored payload verification failed"))
                else copyBack active needed entries

/-- `Restore` once the payloads are back. -/
def passOn (manifest : Manifest) (offset : Int) (events : List EventRecord) (complete : Bool)
    (result : RestoreResult) : Prog signature (RestoreResult × Option GoError) :=
  .call (.restoreArchiveEvents manifest.id events) fun
    | (restored, some error) => .pure ({ result with restored }, some error)
    | (restored, none) =>
      .pure ({ result with
        restored, complete, next := if complete then 0 else offset + events.length }, none)

/-- `Restore` with the manifest it has read. -/
def restoreChunk (active : List GoString) (manifest : Manifest) (offset limit : Int)
    (result : RestoreResult) : Prog signature (RestoreResult × Option GoError) :=
  (readEvents prim (some .archive) manifest offset limit).bind fun
    | .error error => .pure (result, some error)
    | .ok (events, complete) =>
      (copyBack prim active (neededPayloads events) manifest.payloads).bind fun
        | some error => .pure (result, some error)
        | none => passOn manifest offset events complete result

/-- `Restore` from an archive store that is not `nil`; `target` says whether there is an event store
to restore to. -/
def restore (active : List GoString) (target : Bool) (receipt : Receipt) (offset limit : Int) :
    Prog signature (RestoreResult × Option GoError) :=
  if target = false then
    .pure ({ archiveID := receipt.manifest.id },
      some (errorsNew "trail/archive: restore store is required"))
  else
    (readManifest prim (some .archive) receipt.manifestRef).bind fun
      | .error error => .pure ({ archiveID := receipt.manifest.id }, some error)
      | .ok manifest =>
        if manifest.id ≠ receipt.manifest.id then
          .pure ({ archiveID := receipt.manifest.id },
            some (errorsNew "trail/archive: manifest identity mismatch"))
        else
          restoreChunk prim active manifest offset limit { archiveID := receipt.manifest.id }

end Programs

end Trail.Archive
