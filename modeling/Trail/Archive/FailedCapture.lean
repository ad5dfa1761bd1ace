/-
**Writing an archive of events with failed captures.**

`Normalize` keeps a link that carries only an error: this is what the spooler leaves when the put of a
body fails. The loop of `Write` looks for the store of every link it has not seen, and a link without
an object has none. So against stores that hold every object the events name and an archive store
that never fails, `Write` returns a receipt exactly when each link it copies names an object.

* `copyPayloads_named`: the loop over the links, by induction on them;
* `write_receipt_iff`: the whole of `Write`.
-/

import Trail.Archive.ReadBack
import Trail.Storage.ReadBack

namespace Trail.Archive

open Library Payload Storage

/-! ### What the environment provides -/

/-- The link names a stored object. -/
def Names (link : PayloadLink) : Prop := link.ref.store ≠ [] ∧ link.ref.key ≠ []

instance (link : PayloadLink) : Decidable (Names link) := inferInstanceAs (Decidable (_ ∧ _))

/-- The links that the loop copies: those before which no link has the same payload key. -/
def unseen : List PayloadLink → Finset GoString → List PayloadLink
  | [], _ => []
  | link :: links, seen =>
    if payloadKey link.ref ∈ seen then unseen links seen
    else link :: unseen links (insert (payloadKey link.ref) seen)

section Serves

variable {State : Type}

/-- Every archive operation of a write succeeds, and the objects the links name are in their stores
with the digest and the size of the reference, in every state the calls lead to. A store has a name,
and no store opens a reference without a key. -/
structure Serves (prim : Primitives) (writer : BundleWriter) (links : List PayloadLink)
    (answer : State → (op : Call) → State × op.Reply) (good : State → Prop) : Prop where
  kept : ∀ state op, good state → good (answer state op).1
  put : ∀ state data options, good state →
    (options = eventOptions ∨ options = manifestOptions ∨
      ∃ link ∈ links, Names link ∧ options = sameOptions link.ref) →
    ∃ ref, (answer state (.put .archive ⟨data, none⟩ options)).2 = .ok ref ∧
      ref.sha256 = prim.sha256 data ∧ ref.size = Int64.ofNat data.length
  found : ∀ state data ref, good state →
    (answer state (.put .archive ⟨data, none⟩ manifestOptions)).2 = .ok ref →
    (answer (answer state (.put .archive ⟨data, none⟩ manifestOptions)).1
      (.openRef .archive ref)).2 = .ok ⟨data, none⟩
  held : ∀ link ∈ links, Names link → writer.sources.contains link.ref.store = true ∧
    ∀ state, good state → ∃ reader data,
      (answer state (.openRef (.source link.ref.store) link.ref)).2 = .ok reader ∧
      prim.gzip.logical link.ref.compression reader = .ok ⟨data, none⟩ ∧
      prim.sha256 data = link.ref.sha256 ∧ Int64.ofNat data.length = link.ref.size
  nameless : writer.sources.contains [] = false
  keyless : ∀ state name ref, good state → ref.key = [] →
    ∃ error, (answer state (.openRef (.source name) ref)).2 = .error error

variable {prim : Primitives} {writer : BundleWriter} {all : List PayloadLink}
  {answer : State → (op : Call) → State × op.Reply} {good : State → Prop}

/-! ### The loop over the links -/

theorem Serves.copyPayloads_refused (serves : Serves prim writer all answer good) {state : State}
    (fine : good state) {link : PayloadLink} (unnamed : ¬ Names link) (links : List PayloadLink)
    {seen : Finset GoString} (fresh : payloadKey link.ref ∉ seen) (entries : List PayloadEntry) :
    ∃ error, ((copyPayloads prim writer (link :: links) seen entries).execute answer state).2.2 =
      .error error := by
  unfold copyPayloads
  rw [if_neg fresh]
  by_cases configured : writer.sources.contains link.ref.store = false
  · rw [if_pos configured]
    exact ⟨_, rfl⟩
  rw [if_neg configured]
  have named : link.ref.store ≠ [] := by
    intro empty
    rw [empty] at configured
    exact configured serves.nameless
  have keyless : link.ref.key = [] := not_not.mp fun key => unnamed ⟨named, key⟩
  obtain ⟨error, refused⟩ := serves.keyless state link.ref.store link.ref fine keyless
  refine ⟨error, ?_⟩
  rw [Prog.execute_call_snd, refused]
  rfl

theorem Serves.copyPayloads_copied (serves : Serves prim writer all answer good) {state : State}
    (fine : good state) {link : PayloadLink} (member : link ∈ all) (named : Names link)
    (links : List PayloadLink) {seen : Finset GoString} (fresh : payloadKey link.ref ∉ seen)
    (entries : List PayloadEntry) :
    ∃ later archived, good later ∧
      ((copyPayloads prim writer (link :: links) seen entries).execute answer state).2 =
        ((copyPayloads prim writer links (insert (payloadKey link.ref) seen)
          (entries ++ [⟨link.ref, archived⟩])).execute answer later).2 := by
  obtain ⟨configured, opens⟩ := serves.held link member named
  obtain ⟨reader, data, opened, decoded, digest, size⟩ := opens state fine
  have still := serves.kept state (.openRef (.source link.ref.store) link.ref) fine
  obtain ⟨archived, put, sum, length⟩ := serves.put _ data (sameOptions link.ref) still
    (.inr (.inr ⟨link, member, named, rfl⟩))
  have verified : ¬ (archived.sha256 ≠ link.ref.sha256 ∨ archived.size ≠ link.ref.size) := by
    rw [sum, length, digest, size]
    simp
  refine ⟨_, archived, serves.kept _ (.put .archive ⟨data, none⟩ (sameOptions link.ref)) still, ?_⟩
  rw [copyPayloads, if_neg fresh, if_neg (by rw [configured]; decide), Prog.execute_call_snd, opened]
  dsimp only
  rw [decoded]
  dsimp only
  rw [Prog.execute_call_snd, put]
  dsimp only
  rw [if_neg verified]

/-- **The loop ends well exactly when every link it copies names an object.** -/
theorem Serves.copyPayloads_named (serves : Serves prim writer all answer good)
    (links : List PayloadLink) (among : links ⊆ all) (seen : Finset GoString)
    (entries : List PayloadEntry) {state : State} (fine : good state) :
    ((∃ result, ((copyPayloads prim writer links seen entries).execute answer state).2.2 =
        .ok result) ↔ ∀ link ∈ unseen links seen, Names link) ∧
      good ((copyPayloads prim writer links seen entries).execute answer state).2.1 := by
  refine ⟨?_, ?_⟩
  · induction links generalizing seen entries state with
    | nil => exact ⟨fun _ _ member => absurd member List.not_mem_nil, fun _ => ⟨entries, rfl⟩⟩
    | cons link links ih =>
      have rest : links ⊆ all := fun _ member => among (List.mem_cons_of_mem _ member)
      unfold unseen
      by_cases met : payloadKey link.ref ∈ seen
      · rw [copyPayloads, if_pos met, if_pos met]
        exact ih rest seen entries fine
      rw [if_neg met, List.forall_mem_cons]
      by_cases named : Names link
      · obtain ⟨later, archived, stays, copied⟩ := serves.copyPayloads_copied fine
          (among List.mem_cons_self) named links met entries
        rw [copied, ih rest _ _ stays]
        exact ⟨fun others => ⟨named, others⟩, fun both => both.2⟩
      · obtain ⟨error, refused⟩ := serves.copyPayloads_refused fine named links met entries
        rw [refused]
        exact ⟨fun ⟨_, impossible⟩ => (nomatch impossible), fun both => absurd both.1 named⟩
  · exact @Prog.execute_invariant signature _ _ answer good serves.kept _ _ fine

/-! ### The whole write -/

theorem encodeEvents_total {events : List EventRecord}
    (encodes : ∀ event ∈ events, ∃ line, prim.event.marshal event = .ok line) :
    ∃ lines, encodeEvents prim events = .ok lines := by
  induction events with
  | nil => exact ⟨[], rfl⟩
  | cons event events ih =>
    obtain ⟨line, first⟩ := encodes event List.mem_cons_self
    obtain ⟨lines, others⟩ := ih fun other member => encodes other (List.mem_cons_of_mem _ member)
    refine ⟨line :: lines, ?_⟩
    rw [encodeEvents, first]
    dsimp only
    rw [others]

theorem Serves.writeManifest_receipt (serves : Serves prim writer all answer good) {state : State}
    (fine : good state) {manifest : Manifest} {data : List UInt8}
    (marshalled : prim.manifest.marshal manifest = .ok data) :
    ∃ receipt, ((writeManifest prim manifest).execute answer state).2.2 = .ok receipt := by
  obtain ⟨ref, put, _, _⟩ := serves.put state data manifestOptions fine (.inr (.inl rfl))
  refine ⟨⟨manifest, ref⟩, ?_⟩
  unfold writeManifest
  rw [marshalled]
  dsimp only
  rw [Prog.execute_call_snd, put]
  dsimp only
  rw [Prog.execute_call_snd, serves.found state data ref fine put]
  dsimp only
  rw [if_pos (Stream.readLimited_whole (Nat.le_succ _))]
  rfl

/-- **A write returns a receipt exactly when there are events and each link it copies names an
object.** -/
theorem write_receipt_iff {events : List EventRecord}
    (serves : Serves prim writer (events.flatMap (·.payloads)) answer good) {state : State}
    (fine : good state)
    (eventJSON : ∀ event ∈ events, ∃ line, prim.event.marshal event = .ok line)
    (manifestJSON : ∀ manifest, ∃ data, prim.manifest.marshal manifest = .ok data) :
    (∃ receipt, ((write prim writer events).execute answer state).2.2 = .ok receipt) ↔
      events ≠ [] ∧ ∀ link ∈ unseen (events.flatMap (·.payloads)) ∅, Names link := by
  by_cases empty : events = []
  · rw [write, if_pos empty]
    exact ⟨fun ⟨_, impossible⟩ => (nomatch impossible), fun both => absurd empty both.1⟩
  obtain ⟨lines, encoded⟩ := encodeEvents_total eventJSON
  obtain ⟨eventRef, put, _, _⟩ := serves.put state (joinLines lines) eventOptions fine (.inl rfl)
  have stored := serves.kept state (.put .archive ⟨joinLines lines, none⟩ eventOptions) fine
  have timed := serves.kept _ .now stored
  obtain ⟨loop, after⟩ := serves.copyPayloads_named _ (List.Subset.refl _) ∅ [] timed
  rw [write, if_neg empty, encoded]
  dsimp only
  rw [Prog.execute_call_snd, put]
  dsimp only
  rw [Prog.execute_call_snd, Prog.execute_bind, ← loop]
  generalize (copyPayloads prim writer (events.flatMap (·.payloads)) ∅ []).execute answer _ = ran
    at after
  obtain ⟨log, later, copied | payloads⟩ := ran
  · exact ⟨fun ⟨_, impossible⟩ => (nomatch impossible), fun both => (nomatch both.2)⟩
  · obtain ⟨data, marshalled⟩ := manifestJSON { baseManifest prim events (joinLines lines) eventRef
      (answer _ .now).2 with payloads }
    exact ⟨fun _ => ⟨empty, payloads, rfl⟩, fun _ => serves.writeManifest_receipt after marshalled⟩

end Serves

/-! ### A capture that failed -/

/-- The options that `run` of the spooler adds to the event of a job for one body, from what the put
returned. -/
def spooledBody (role : GoString) (result : Except GoError Ref) (original captured : Int64)
    (truncated : Bool) : List LogOption :=
  let fieldPrefix := ascii "payload." ++ role ++ ascii "."
  match result with
  | .error error => [.string (fieldPrefix ++ ascii "error") error.text]
  | .ok ref =>
    ref.fields role ++ [.int64 (fieldPrefix ++ ascii "original_size") original,
      .int64 (fieldPrefix ++ ascii "captured_size") captured,
      .bool (fieldPrefix ++ ascii "truncated") truncated]

/-- The envelope with the event of a job that has the body as its request. -/
def capturedEnvelope (result : Except GoError Ref) : Wire.Envelope :=
  let call : Storage.Call :=
    { id := orderCall.id
      timestamp := 1700000000000000000
      kind := ascii "http.request"
      options := spooledBody (ascii "request") result 4 4 false }
  Wire.batchEnvelope orderMetadata call.event [call.event]

def capturedBatch (result : Except GoError Ref) : Storage.Batch :=
  batchOf (capturedEnvelope result) {}

/-- The store `hot`, that has the body. -/
def captureStore : Store := plainStore (ascii "hot") (ascii "trail/")

def captureRef : Ref := bodyRef (ascii "hot") (ascii "trail/")

/-- JSON that writes every record and every manifest, and SHA-256 at the body. -/
def capturePrimitives : Primitives where
  sha256 := tableDigest [(body, bodyDigest)]
  gzip := storedGzip
  event := ⟨fun record => .ok (recordText record), fun _ => .error (errorsNew "not read")⟩
  manifest := ⟨fun manifest => .ok (manifestText manifest), fun _ => .error (errorsNew "not read")⟩

def captureDepot : Depot := smallDepot [captureStore]

/-- The body is in its store. -/
def Captured : World → Prop :=
  Kept capturePrimitives captureDepot 1 body compressionNone

theorem capture_evaluated :
    bodyDigest ≠ Bytes.zero 32 ∧
    ((smallWorld [captureStore]).disks 1).lookup (objectKey (captureDepot.stores 1).keyPrefix
      (capturePrimitives.sha256 body) compressionNone) = some body ∧
    capturePrimitives.sha256 body = captureRef.sha256 ∧
    captureDepot.sources.lookup captureRef.store = some 1 ∧
    captureDepot.writer.sources.contains captureRef.store = true ∧
    captureDepot.writer.sources.contains [] = false ∧ captureStore.accepts [] = false := by
  decide

theorem captured_evaluated :
    (∀ result ∈ [.ok captureRef, .error (errorsNew "disk full")],
      Wire.validate (capturedEnvelope result) = .ok ()) ∧
    (capturedBatch (.ok captureRef)).events.flatMap (·.payloads) = [linkTo captureRef] ∧
    (capturedBatch (.error (errorsNew "disk full"))).events.flatMap (·.payloads) =
      [{ role := ascii "request", error := ascii "disk full" }] ∧
    Names (linkTo captureRef) := by
  decide +kernel

theorem capture_digest {data : List UInt8} (same : capturePrimitives.sha256 data = bodyDigest) :
    data = body := by
  have known : tableDigest [(body, bodyDigest)] data ≠ Bytes.zero 32 := by
    rw [show tableDigest [(body, bodyDigest)] data = bodyDigest from same]
    exact capture_evaluated.1
  exact List.mem_singleton.mp (mem_of_tableDigest known)

theorem captured_smallWorld : Captured (smallWorld [captureStore]) :=
  ⟨.inl rfl, capture_evaluated.2.1⟩

/-- Stores that have the body serve the writing of events that name no other object. -/
theorem capture_serves {links : List PayloadLink}
    (only : ∀ link ∈ links, Names link → link.ref = captureRef) :
    Serves capturePrimitives captureDepot.writer links (captureDepot.answer capturePrimitives)
      Captured where
  kept world op fine := fine.answer op fun _ _ _ _ same => capture_digest (same.trans rfl)
  put world data options _ which := by
    have supported : Supported options.compression := by
      rcases which with rfl | rfl | ⟨link, member, named, rfl⟩
      · exact .inr rfl
      · exact .inl rfl
      · rw [only link member named]
        exact .inl rfl
    exact ⟨_, congrArg Prod.snd (Depot.answer_put_whole data rfl supported), rfl, rfl⟩
  found world data ref _ done := by
    have put := @Depot.answer_put_whole capturePrimitives captureDepot world .archive
      captureDepot.archive data manifestOptions rfl (.inl rfl)
    rw [put] at done ⊢
    cases done
    exact congrArg Prod.snd (answer_openRef_kept (kept_setDisk data (.inl rfl)))
  held link member named := by
    obtain ⟨_, _, digest, found, configured, _⟩ := capture_evaluated
    rw [only link member named]
    refine ⟨configured, fun world fine => ?_⟩
    have sourced : Sourced capturePrimitives captureDepot (fun _ => body) world captureRef :=
      ⟨1, found, rfl, rfl, fine, digest, rfl⟩
    exact ⟨_, body, congrArg Prod.snd sourced.opened, Gzip.logical_pack _ _ _, digest, rfl⟩
  nameless := capture_evaluated.2.2.2.2.2.1
  keyless world name ref _ keyless := by
    show ∃ error, (captureDepot.answer capturePrimitives world (.openRef (.source name) ref)).2 =
      .error error
    unfold Depot.answer
    dsimp only
    cases found : captureDepot.find (.source name) with
    | none => exact ⟨_, rfl⟩
    | some store =>
      have only : store = 1 := by
        have here : (AList.insert (ascii "hot") 1 (∅ : Table GoString Nat)).lookup name =
          some store := found
        rcases Table.lookup_insert_cases here with ⟨_, same⟩ | ⟨_, none⟩
        · exact same
        · exact nomatch none
      subst only
      refine ⟨errInvalidRef, if_pos (.inr ?_)⟩
      rw [keyless]
      exact capture_evaluated.2.2.2.2.2.2

theorem write_receipt_captured :
    ∃ receipt, ((write capturePrimitives captureDepot.writer
      (capturedBatch (.ok captureRef)).events).execute (captureDepot.answer capturePrimitives)
        (smallWorld [captureStore])).2.2 = .ok receipt := by
  obtain ⟨_, links, _, named⟩ := captured_evaluated
  have serves : Serves capturePrimitives captureDepot.writer
      ((capturedBatch (.ok captureRef)).events.flatMap (·.payloads))
      (captureDepot.answer capturePrimitives) Captured := by
    rw [links]
    exact capture_serves fun link member _ => by rw [List.mem_singleton.mp member]; rfl
  refine (write_receipt_iff serves captured_smallWorld (fun _ _ => ⟨_, rfl⟩)
    fun _ => ⟨_, rfl⟩).mpr ⟨List.cons_ne_nil _ _, ?_⟩
  rw [links]
  exact fun link member => List.mem_singleton.mp member ▸ named

/-- **The event of a failed capture cannot be archived**, by stores none of which fails. -/
theorem failed_capture_not_written :
    Normalized (capturedBatch (.error (errorsNew "disk full"))) ∧
    Serves capturePrimitives captureDepot.writer
      ((capturedBatch (.error (errorsNew "disk full"))).events.flatMap (·.payloads))
      (captureDepot.answer capturePrimitives) Captured ∧
    Captured (smallWorld [captureStore]) ∧
    ((write capturePrimitives captureDepot.writer
      (capturedBatch (.error (errorsNew "disk full"))).events).execute
        (captureDepot.answer capturePrimitives) (smallWorld [captureStore])).2.2 =
      .error (errorsNew "trail/archive: source payload store is not configured") := by
  obtain ⟨valid, _, links, _⟩ := captured_evaluated
  refine ⟨⟨_, {}, normalize_eq.mpr ⟨valid _ ?_, rfl⟩⟩, ?_, captured_smallWorld, by decide⟩
  · exact List.mem_cons_of_mem _ (List.mem_singleton_self _)
  rw [links]
  refine capture_serves fun link member named => ?_
  rw [List.mem_singleton.mp member] at named
  exact absurd rfl named.1

end Trail.Archive
