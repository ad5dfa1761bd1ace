/-
**Bodies captured while they are read.**

A capture counts the bytes of a body and keeps two prefixes of it, a preview and a payload, each under
its own limit. It sees the body in the chunks in which the body is read; what it holds depends on the
bytes only.

* `keep_take`: a prefix and a chunk make a prefix of both.
* `addAll_eq`: the capture after any chunks.
* `run_capturing`, `run_response`: reading through a capture gives what the reader gives.
* `capture_of_reads`: the two bodies, the capture after all reads and the spooled body together.
-/

import Mathlib.Data.List.Induction
import Mathlib.Data.List.TakeDrop
import Trail.Core.Text

namespace Trail.Http

/-! ### Captures -/

/-- `capture`; a limit that is not positive keeps nothing. -/
structure Capture where
  limit : Int
  payloadLimit : Int
  n : Nat := 0
  data : List UInt8 := []
  payload : List UInt8 := []
  deriving DecidableEq, Repr

/-- `newCapture`. -/
def newCapture (limit payloadLimit : Int) : Capture := { limit, payloadLimit }

/-- One of the two prefixes of `add`: the chunk, cut to what remains of the limit. -/
def keep (limit : Int) (kept data : List UInt8) : List UInt8 :=
  if (kept.length : Int) < limit then
    let remaining := limit - kept.length
    let chunk := if remaining < data.length then data.take remaining.toNat else data
    kept ++ chunk
  else kept

/-- `add`. -/
def Capture.add (c : Capture) (data : List UInt8) : Capture :=
  { c with
    n := c.n + data.length
    payload := keep c.payloadLimit c.payload data
    data := keep c.limit c.data data }

/-- A body captured in chunks. -/
def Capture.addAll (c : Capture) (chunks : List (List UInt8)) : Capture := chunks.foldl Capture.add c

theorem keep_take {limit : Int} {body : List UInt8} (data : List UInt8) :
    keep limit (body.take limit.toNat) data = (body ++ data).take limit.toNat := by
  unfold keep
  rw [List.length_take, List.take_append]
  by_cases room : ((min limit.toNat body.length : Nat) : Int) < limit
  · have short : body.length ≤ limit.toNat := by omega
    rw [if_pos room, Nat.min_eq_right short]
    have remaining : (limit - (body.length : Int)).toNat = limit.toNat - body.length := by omega
    dsimp only
    split
    · rw [remaining]
    · rw [List.take_of_length_le (show data.length ≤ limit.toNat - body.length by omega)]
  · have none : limit.toNat - body.length = 0 := by omega
    rw [if_neg room, none, List.take_zero, List.append_nil]

/-- What a capture holds of a body. -/
def Capture.of (limit payloadLimit : Int) (body : List UInt8) : Capture where
  limit := limit
  payloadLimit := payloadLimit
  n := body.length
  data := body.take limit.toNat
  payload := body.take payloadLimit.toNat

/-- **What a capture holds after any chunks** of a body. -/
theorem addAll_eq (limit payloadLimit : Int) (chunks : List (List UInt8)) :
    (newCapture limit payloadLimit).addAll chunks =
      Capture.of limit payloadLimit chunks.flatten := by
  induction chunks using List.reverseRecOn with
  | nil => simp [Capture.addAll, newCapture, Capture.of]
  | append_singleton chunks chunk ih =>
    unfold Capture.addAll at ih ⊢
    rw [List.foldl_append, ih, List.foldl_cons, List.foldl_nil, Capture.add, Capture.of,
      keep_take, keep_take, Capture.of, List.flatten_append, List.length_append]
    simp

theorem keep_nil (limit : Int) (kept : List UInt8) : keep limit kept [] = kept := by
  unfold keep
  split
  · simp
  · rfl

theorem add_nil (c : Capture) : c.add [] = c := by
  rw [Capture.add, keep_nil, keep_nil]
  rfl

/-! ### Bodies -/

/-- The error of a `Read`. -/
inductive ReadError
  | eof
  | other (error : GoError)
  deriving DecidableEq, Repr

/-- `io.ReadCloser` over a state: what a `Read` into a buffer of the given length puts there. -/
structure Body (S : Type) where
  read : S → Nat → S × List UInt8 × Option ReadError
  close : S → S × Option GoError

/-- A call of a body. -/
inductive Op
  | read (size : Nat)
  | close
  deriving DecidableEq, Repr

/-- What the caller of a body gets. -/
inductive Result
  | read (bytes : List UInt8) (error : Option ReadError)
  | close (error : Option GoError)
  deriving DecidableEq, Repr

/-- The bytes of a result. -/
def Result.bytes : Result → List UInt8
  | .read bytes _ => bytes
  | .close _ => []

/-- The result after which the body is done. -/
def Result.ends : Result → Bool
  | .read _ error => error = some .eof
  | .close _ => true

section Bodies

variable {S : Type}

def Body.act (body : Body S) (state : S) : Op → S × Result
  | .read size =>
    let (next, bytes, error) := body.read state size
    (next, .read bytes error)
  | .close =>
    let (next, error) := body.close state
    (next, .close error)

/-- Calls of a body, one after the other. -/
def Body.run (body : Body S) (state : S) : List Op → S × List Result
  | [] => (state, [])
  | op :: ops =>
    let (next, result) := body.act state op
    let (last, results) := body.run next ops
    (last, result :: results)

/-- `capturingBody`. -/
def capturingBody (body : Body S) : Body (S × Capture) where
  read state size :=
    let (next, bytes, error) := body.read state.1 size
    ((next, if 0 < bytes.length then state.2.add bytes else state.2), bytes, error)
  close state :=
    let (next, error) := body.close state.1
    ((next, state.2), error)

/-- The state of a `responseBody`: `finished` is the capture that `finish` was called with, once. -/
structure Responding (S : Type) where
  source : S
  capture : Capture
  finished : Option Capture := none

/-- `once.Do(finish)`. -/
def Responding.finish (state : Responding S) : Responding S :=
  { state with finished := state.finished <|> some state.capture }

/-- `responseBody`. -/
def responseBody (body : Body S) : Body (Responding S) where
  read state size :=
    let (next, bytes, error) := body.read state.source size
    let captured : Responding S :=
      { state with
        source := next
        capture := if 0 < bytes.length then state.capture.add bytes else state.capture }
    (if error = some .eof then captured.finish else captured, bytes, error)
  close state :=
    let (next, error) := body.close state.source
    ({ state with source := next }.finish, error)

variable (body : Body S)

theorem captured_eq (c : Capture) (bytes : List UInt8) :
    (if 0 < bytes.length then c.add bytes else c) = c.add bytes := by
  split
  · rfl
  · rename_i empty
    rw [List.length_eq_zero_iff.mp (Nat.eq_zero_of_not_pos empty), add_nil]

theorem addAll_cons (c : Capture) (chunk : List UInt8) (chunks : List (List UInt8)) :
    c.addAll (chunk :: chunks) = (c.add chunk).addAll chunks :=
  rfl

theorem act_capturing (state : S) (c : Capture) (op : Op) :
    (capturingBody body).act (state, c) op =
      (((body.act state op).1, c.add (body.act state op).2.bytes), (body.act state op).2) := by
  cases op with
  | read size =>
    simp only [Body.act, capturingBody, captured_eq]
    rfl
  | close =>
    simp only [Body.act, capturingBody, Result.bytes, add_nil]

/-- **Reading a request body through its capture** gives what the body gives. -/
theorem run_capturing (state : S) (c : Capture) (ops : List Op) :
    (capturingBody body).run (state, c) ops =
      (((body.run state ops).1, c.addAll ((body.run state ops).2.map Result.bytes)),
        (body.run state ops).2) := by
  induction ops generalizing state c with
  | nil => rfl
  | cons op ops ih =>
    simp only [Body.run, act_capturing, ih, List.map_cons, addAll_cons]

/-- What `finish` was called with after the results, in a state. -/
def Responding.after (state : Responding S) (next : S) (result : Result) : Responding S where
  source := next
  capture := state.capture.add result.bytes
  finished := state.finished <|>
    if result.ends then some (state.capture.add result.bytes) else none

theorem act_response (state : Responding S) (op : Op) :
    (responseBody body).act state op =
      (state.after (body.act state.source op).1 (body.act state.source op).2,
        (body.act state.source op).2) := by
  cases op with
  | read size =>
    simp only [Body.act, responseBody, captured_eq, Responding.after, Result.bytes, Result.ends]
    split <;> simp_all [Responding.finish]
  | close =>
    simp only [Body.act, responseBody, Responding.after, Result.bytes, Result.ends, add_nil]
    rfl

/-- The results up to the one after which the body is done, if it is. -/
def upToEnd : List Result → Option (List Result)
  | [] => none
  | result :: results => if result.ends then some [result] else (upToEnd results).map (result :: ·)

/-- **Reading a response body** gives what the body gives, and `finish` is called once, with what was
read until the body was done. -/
theorem run_response (state : Responding S) (ops : List Op) :
    (responseBody body).run state ops =
      ({ source := (body.run state.source ops).1
         capture := state.capture.addAll ((body.run state.source ops).2.map Result.bytes)
         finished := state.finished <|> (upToEnd (body.run state.source ops).2).map fun results =>
           state.capture.addAll (results.map Result.bytes) },
        (body.run state.source ops).2) := by
  induction ops generalizing state with
  | nil =>
    obtain ⟨source, capture, finished⟩ := state
    cases finished <;> rfl
  | cons op ops ih =>
    simp only [Body.run, act_response, ih, List.map_cons, addAll_cons, Responding.after, upToEnd]
    congr 2
    cases state.finished with
    | some capture => rfl
    | none =>
      split
      · rfl
      · simp [Function.comp_def, addAll_cons]

end Bodies

/-! ### Spooled bodies -/

/-- `spoolBody`. -/
structure SpoolBody where
  role : GoString := []
  contentType : GoString := []
  data : List UInt8 := []
  original : Nat := 0
  truncated : Bool := false
  deriving DecidableEq, Repr

/-- `PreviewRedactor`. -/
abbrev PreviewRedactor := GoString → List UInt8 → List UInt8

/-- `spoolBody` of the transport. -/
def spoolBody (redactor : Option PreviewRedactor) (payloadBytes : Int) (role contentType : GoString)
    (capture : Option Capture) : SpoolBody :=
  match capture with
  | none => {}
  | some capture =>
    if capture.payload = [] then {}
    else
      let data :=
        match redactor with
        | none => capture.payload
        | some redact => (redact contentType capture.payload).take payloadBytes.toNat
      { role, contentType, data
        original := capture.n
        truncated := capture.payload.length < capture.n }

theorem spoolBody_empty (redactor : Option PreviewRedactor) (payloadBytes : Int)
    (role contentType : GoString) {c : Capture} (nothing : c.payload = []) :
    spoolBody redactor payloadBytes role contentType (some c) = {} :=
  if_pos nothing

theorem truncated_iff (redactor : Option PreviewRedactor) (payloadBytes limit payloadLimit : Int)
    (role contentType : GoString) {body : List UInt8}
    (kept : (Capture.of limit payloadLimit body).payload ≠ []) :
    (spoolBody redactor payloadBytes role contentType
      (some (Capture.of limit payloadLimit body))).truncated = true ↔ payloadLimit < body.length := by
  have positive : payloadLimit.toNat ≠ 0 := by
    intro zero
    rw [Capture.of, zero] at kept
    exact kept rfl
  unfold spoolBody
  dsimp only
  rw [if_neg kept]
  simp only [Capture.of, List.length_take, decide_eq_true_eq]
  omega

/-- The bytes of the results. -/
def bytesRead (results : List Result) : List UInt8 := (results.map Result.bytes).flatten

/-- **Capture does not depend on chunking.** Through the capture of a request or of a response the
caller gets what the body gives; the capture holds the length and the two prefixes of the bytes read;
`finish` gets those of the bytes read until the body is done; and of a body that is longer than the
payload limit, and no other, the spooled body is marked as truncated. -/
theorem capture_of_reads {S : Type} (body : Body S) (state : S) (ops : List Op)
    (limit payloadLimit : Int) :
    (capturingBody body).run (state, newCapture limit payloadLimit) ops =
      (((body.run state ops).1, Capture.of limit payloadLimit (bytesRead (body.run state ops).2)),
        (body.run state ops).2) ∧
    (responseBody body).run { source := state, capture := newCapture limit payloadLimit } ops =
      ({ source := (body.run state ops).1
         capture := Capture.of limit payloadLimit (bytesRead (body.run state ops).2)
         finished := (upToEnd (body.run state ops).2).map fun results =>
           Capture.of limit payloadLimit (bytesRead results) },
        (body.run state ops).2) ∧
    ∀ (whole : List UInt8) (redactor : Option PreviewRedactor) (role contentType : GoString),
      ((Capture.of limit payloadLimit whole).payload = [] →
        spoolBody redactor payloadLimit role contentType (some (Capture.of limit payloadLimit whole)) =
          {}) ∧
      ((Capture.of limit payloadLimit whole).payload ≠ [] →
        ((spoolBody redactor payloadLimit role contentType
            (some (Capture.of limit payloadLimit whole))).truncated = true ↔
          payloadLimit < whole.length)) := by
  refine ⟨?_, ?_, fun whole redactor role contentType => ⟨?_, ?_⟩⟩
  · rw [run_capturing, addAll_eq]
    rfl
  · rw [run_response]
    simp only [addAll_eq]
    rfl
  · exact spoolBody_empty redactor payloadLimit role contentType
  · exact truncated_iff redactor payloadLimit limit payloadLimit role contentType

end Trail.Http
