/-
**Stored records.**

The database-neutral form of an event: what `Normalize` makes of a wire event, what the adapters
store, what the archive writes and reads back.
-/

import Trail.Payload.Ref
import Trail.Wire.Envelope

namespace Trail.Storage

open Payload

/-- `Delivery`. -/
structure Delivery where
  stream : GoString := []
  consumer : GoString := []
  streamSequence : UInt64 := 0
  consumerSequence : UInt64 := 0
  delivered : UInt64 := 0
  receivedAt : Time := zeroTime
  deriving DecidableEq, Repr

/-- `PayloadLink`. -/
structure PayloadLink where
  role : GoString
  ref : Ref := { store := [], key := [] }
  originalSize : Int64 := 0
  capturedSize : Int64 := 0
  truncated : Bool := false
  error : GoString := []
  deriving DecidableEq, Repr

/-- `HTTPRecord`. -/
structure HTTPRecord where
  method : GoString := []
  scheme : GoString := []
  host : GoString := []
  path : GoString := []
  statusCode : Int64 := 0
  duration : Int64 := 0
  success : Bool := false
  requestSize : Int64 := 0
  responseSize : Int64 := 0
  requestPreview : GoString := []
  responsePreview : GoString := []
  deriving DecidableEq, Repr

/-- `EventRecord`. -/
structure EventRecord where
  id : EventID
  timestamp : Time
  kind : GoString
  level : Level := Level.info
  flowID : FlowID := Bytes.zero 16
  executionID : ExecutionID := Bytes.zero 16
  parentExecutionID : ExecutionID := Bytes.zero 16
  retryOfExecutionID : ExecutionID := Bytes.zero 16
  executionAttempt : UInt32 := 0
  executionSource : GoString := []
  scope : Scope := ⟨[], []⟩
  entityType : GoString := []
  entityID : GoString := []
  parentID : EventID := Bytes.zero 16
  fields : List Wire.Field := []
  flowStatus : GoString := []
  executionStatus : GoString := []
  executionKind : GoString := []
  retentionClass : GoString := []
  provider : GoString := []
  hasError : Bool := false
  http : HTTPRecord := {}
  payloads : List PayloadLink := []
  batchID : EventID := Bytes.zero 16
  metadata : Metadata := ⟨[], [], []⟩
  delivery : Delivery := {}
  deriving DecidableEq, Repr

/-- `Batch`. -/
structure Batch where
  batchID : EventID
  metadata : Metadata
  delivery : Delivery
  events : List EventRecord
  deriving DecidableEq, Repr

end Trail.Storage
