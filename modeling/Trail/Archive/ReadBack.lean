/-
**Reading an archive back.**

Against stores that keep what was put, reading back what `Write` returned a receipt for succeeds
exactly when the text of the manifest is within the bound of its reader and the text of every event
is shorter than the bound of the line scanner; `Write` checks neither. The evaluations of the two
readers, `readManifest_execute` and `readEvents_execute`, are those a restore uses too.
-/

import Trail.Archive.Depot

namespace Trail.Archive

open Library Payload Storage

section Evaluate

variable {prim : Primitives} {depot : Depot} {world : World}

/-! ### The readers against stores that keep what was put -/

theorem answer_openRef_kept {data : List UInt8} {options : PutOptions}
    (kept : Kept prim depot depot.archive data options.compression world) :
    depot.answer prim world (.openRef .archive
      (putRef prim.sha256 prim.gzip (depot.stores depot.archive) data options)) =
      (world, .ok ⟨prim.gzip.pack options.compression data, none⟩) := by
  show (world, openRef _ _ _) = _
  exact Prod.ext rfl (openRef_of_lookup rfl rfl kept.2)

/-- What the manifest reader accepts. -/
def Manifest.Valid (manifest : Manifest) : Prop :=
  manifest.version = Archive.version ∧ manifest.id ≠ [] ∧ 1 ≤ manifest.eventCount ∧
    (manifest.eventIDs.length : Int) = manifest.eventCount

theorem readManifest_execute {data : List UInt8} {manifest : Manifest}
    (kept : Kept prim depot depot.archive data manifestOptions.compression world)
    (fits : data.length ≤ readBound) (decoded : prim.manifest.unmarshal data = .ok manifest)
    (valid : manifest.Valid) :
    ((readManifest prim (some .archive) (putRef prim.sha256 prim.gzip (depot.stores depot.archive)
      data manifestOptions)).execute (depot.answer prim) world).2 = (world, .ok manifest) := by
  obtain ⟨versioned, named, positive, counted⟩ := valid
  have accepted : ¬ (manifest.version ≠ version ∨ manifest.id = [] ∨ manifest.eventCount < 1 ∨
      (manifest.eventIDs.length : Int) ≠ manifest.eventCount) := by
    push Not
    exact ⟨versioned, named, positive, counted⟩
  unfold readManifest
  rw [Prog.execute_call_snd, answer_openRef_kept kept]
  dsimp only
  rw [show prim.gzip.pack manifestOptions.compression data = data from rfl,
    Stream.readLimited_whole fits]
  dsimp only
  rw [putRef_sha256, if_neg (not_not.mpr rfl), decoded]
  dsimp only
  rw [if_neg accepted]
  rfl

/-- A manifest beyond the bound is cut off, and its digest is not that of the whole. -/
theorem readManifest_execute_long {data : List UInt8}
    (kept : Kept prim depot depot.archive data manifestOptions.compression world)
    (long : readBound < data.length)
    (apart : prim.sha256 (data.take readBound) ≠ prim.sha256 data) :
    ((readManifest prim (some .archive) (putRef prim.sha256 prim.gzip (depot.stores depot.archive)
      data manifestOptions)).execute (depot.answer prim) world).2.2 =
      .error (errorsNew "trail/archive: manifest checksum verification failed") := by
  have cut : Stream.readLimited readBound ⟨data, none⟩ = .ok (data.take readBound) :=
    if_pos long.le
  unfold readManifest
  rw [Prog.execute_call_snd, answer_openRef_kept kept]
  dsimp only
  rw [show prim.gzip.pack manifestOptions.compression data = data from rfl, cut]
  dsimp only
  rw [putRef_sha256, if_pos apart]
  rfl

theorem readLines_execute {lines : List (List UInt8)} {events : List EventRecord}
    (decodes : List.Forall₂ (Decodes prim) lines events) (offset limit : Int) (index : Nat)
    (result : List EventRecord) :
    ((readLines prim offset limit lines index result).execute (depot.answer prim) world).2 =
      (world, .ok (index + lines.length,
        result ++ windowFrom offset limit index result.length events)) := by
  induction decodes generalizing index result with
  | nil => simp [readLines, Prog.execute, windowFrom]
  | @cons line event lines events decoded _ ih =>
    have count : index + 1 + lines.length = index + (line :: lines).length := by
      rw [List.length_cons]
      omega
    unfold readLines
    rw [Prog.execute_call_snd, show depot.answer prim world .ctxErr = (world, none) from rfl]
    dsimp only
    split
    · rename_i inside
      rw [show prim.event.unmarshal line = .ok event from decoded]
      dsimp only
      rw [ih, windowFrom_take event events inside.1 inside.2, List.length_append,
        List.length_singleton, List.append_assoc, List.singleton_append, count]
    · rename_i outside
      rw [ih, windowFrom_skip event events outside, count]

/-- **`ReadEvents`**, when every line fits. -/
theorem readEvents_execute (manifest : Manifest) {lines : List (List UInt8)}
    {events : List EventRecord} {offset limit : Int}
    (kept : Kept prim depot depot.archive (joinLines lines) eventOptions.compression world)
    (object : manifest.events =
      putRef prim.sha256 prim.gzip (depot.stores depot.archive) (joinLines lines) eventOptions)
    (each : ∀ line ∈ lines, IsLine line) (short : ∀ line ∈ lines, line.length < readBound)
    (decodes : List.Forall₂ (Decodes prim) lines events)
    (counted : manifest.eventCount = events.length)
    (bounds : 0 ≤ offset ∧ 1 ≤ limit ∧ limit ≤ 10000) :
    ((readEvents prim (some .archive) manifest offset limit).execute (depot.answer prim) world).2 =
      (world, .ok (chunk events offset limit,
        decide ((events.length : Int) ≤ offset + (chunk events offset limit).length))) := by
  have inside : ¬ (offset < 0 ∨ limit < 1 ∨ limit > 10000) := by omega
  have verified : verifyEvents prim manifest offset ⟨joinLines lines, none⟩ false lines.length
      (chunk events offset limit) = .ok (chunk events offset limit,
        decide ((events.length : Int) ≤ offset + (chunk events offset limit).length)) := by
    unfold verifyEvents
    rw [counted, decodes.length_eq, object, putRef_sha256]
    simp
  unfold readEvents
  dsimp only
  rw [if_neg inside, object, Prog.execute_call_snd, answer_openRef_kept kept]
  dsimp only
  rw [show (putRef prim.sha256 prim.gzip (depot.stores depot.archive) (joinLines lines)
    eventOptions).compression = eventOptions.compression from rfl, Gzip.logical_pack]
  dsimp only
  rw [scan_joinLines each short,
    Prog.execute_bind_snd (readLines_execute decodes offset limit 0 [])]
  dsimp only
  rw [List.length_nil, windowFrom_zero, List.nil_append, Nat.zero_add, verified]
  rfl

theorem readEvents_execute_long (manifest : Manifest) {lines : List (List UInt8)}
    {offset limit : Int}
    (kept : Kept prim depot depot.archive (joinLines lines) eventOptions.compression world)
    (object : manifest.events =
      putRef prim.sha256 prim.gzip (depot.stores depot.archive) (joinLines lines) eventOptions)
    (each : ∀ line ∈ lines, IsLine line) (long : ∃ line ∈ lines, readBound ≤ line.length) :
    ∃ error, ((readEvents prim (some .archive) manifest offset limit).execute (depot.answer prim)
      world).2.2 = .error error := by
  unfold readEvents
  dsimp only
  split
  · exact ⟨_, rfl⟩
  rw [object, Prog.execute_call_snd, answer_openRef_kept kept]
  dsimp only
  rw [show (putRef prim.sha256 prim.gzip (depot.stores depot.archive) (joinLines lines)
    eventOptions).compression = eventOptions.compression from rfl, Gzip.logical_pack]
  dsimp only
  rw [(scan_joinLines_long each).mpr long, Prog.execute_bind_snd rfl]
  split
  · exact ⟨_, rfl⟩
  · exact ⟨errTooLong, rfl⟩

/-! ### A write that succeeds -/

/-- The payloads of the manifest for links with known contents. -/
def copies (prim : Primitives) (depot : Depot) (content : Ref → List UInt8) :
    List PayloadLink → Finset GoString → List PayloadEntry
  | [], _ => []
  | link :: links, seen =>
    if payloadKey link.ref ∈ seen then copies prim depot content links seen
    else
      ⟨link.ref, putRef prim.sha256 prim.gzip (depot.stores depot.archive) (content link.ref)
        (sameOptions link.ref)⟩ ::
        copies prim depot content links (insert (payloadKey link.ref) seen)

/-- The source store of a reference has the content, and the reference is the one it made. -/
def Sourced (prim : Primitives) (depot : Depot) (content : Ref → List UInt8) (world : World)
    (ref : Ref) : Prop :=
  ∃ store, depot.sources.lookup ref.store = some store ∧ ref.store = (depot.stores store).name ∧
    ref.key = objectKey (depot.stores store).keyPrefix ref.sha256 ref.compression ∧
    Kept prim depot store (content ref) ref.compression world ∧
    prim.sha256 (content ref) = ref.sha256 ∧ Int64.ofNat (content ref).length = ref.size

theorem Sourced.answer {content : Ref → List UInt8} {contents : Set (List UInt8)} {ref : Ref}
    (sourced : Sourced prim depot content world ref) (inside : content ref ∈ contents)
    (collisionFree : Set.InjOn prim.sha256 contents) (op : Call)
    (among : ∀ place stream options, op = .put place stream options → stream.bytes ∈ contents) :
    Sourced prim depot content (depot.answer prim world op).1 ref := by
  obtain ⟨store, found, named, address, kept, rest⟩ := sourced
  exact ⟨store, found, named, address,
    kept.answer op fun place stream options same => collisionFree (among _ _ _ same) inside, rest⟩

theorem Sourced.opened {content : Ref → List UInt8} {ref : Ref}
    (sourced : Sourced prim depot content world ref) :
    depot.answer prim world (.openRef (.source ref.store) ref) =
      (world, .ok ⟨prim.gzip.pack ref.compression (content ref), none⟩) := by
  obtain ⟨store, found, named, address, kept, digest, _⟩ := sourced
  unfold Depot.answer
  dsimp only
  rw [show depot.find (.source ref.store) = some store from found]
  refine Prod.ext rfl (openRef_of_lookup named address ?_)
  rw [address, ← digest]
  exact kept.2

/-- **The loop over the payload links** copies each object once. -/
theorem copyPayloads_execute {content : Ref → List UInt8} {contents : Set (List UInt8)}
    (collisionFree : Set.InjOn prim.sha256 contents) (links : List PayloadLink)
    (seen : Finset GoString) (entries : List PayloadEntry)
    (inside : ∀ link ∈ links, content link.ref ∈ contents)
    (sourced : ∀ link ∈ links, Sourced prim depot content world link.ref) :
    ((copyPayloads prim depot.writer links seen entries).execute (depot.answer prim) world).2.2 =
      .ok (entries ++ copies prim depot content links seen) ∧
    putContents ((copyPayloads prim depot.writer links seen entries).execute (depot.answer prim)
      world).1 ⊆ contents := by
  induction links generalizing seen entries world with
  | nil =>
    refine ⟨?_, ?_⟩
    · show Except.ok entries = .ok (entries ++ [])
      rw [List.append_nil]
    · rintro data ⟨entry, member, _⟩
      exact (List.not_mem_nil member).elim
  | cons link links ih =>
    have others := fun other (member : other ∈ links) =>
      inside other (List.mem_cons_of_mem link member)
    unfold copyPayloads copies
    split
    · exact ih seen entries others fun other member =>
        sourced other (List.mem_cons_of_mem link member)
    have here := sourced link (List.mem_cons_self ..)
    have opened := here.opened
    obtain ⟨store, found, _, _, kept, digest, size⟩ := here
    have named : ¬ depot.writer.sources.contains link.ref.store = false := by
      have member : link.ref.store ∈ depot.sources.keys := Table.mem_of_lookup found
      simp [Depot.writer, member]
    have put := @Depot.answer_put_whole prim depot world .archive depot.archive
      (content link.ref) (sameOptions link.ref) rfl kept.1
    have verified : ¬ ((putRef prim.sha256 prim.gzip (depot.stores depot.archive)
        (content link.ref) (sameOptions link.ref)).sha256 ≠ link.ref.sha256 ∨
        (putRef prim.sha256 prim.gzip (depot.stores depot.archive) (content link.ref)
          (sameOptions link.ref)).size ≠ link.ref.size) := by
      push Not
      exact ⟨digest, size⟩
    -- the copy overwrites no source object
    have still : ∀ other ∈ links, Sourced prim depot content _ other.ref := fun other member =>
      (sourced other (List.mem_cons_of_mem link member)).answer (others other member)
        collisionFree (.put .archive ⟨content link.ref, none⟩ (sameOptions link.ref))
        fun _ _ _ same => by
          cases same
          exact inside link (List.mem_cons_self ..)
    rw [put] at still
    obtain ⟨done, among⟩ := ih (insert (payloadKey link.ref) seen)
      (entries ++ [⟨link.ref, putRef prim.sha256 prim.gzip (depot.stores depot.archive)
        (content link.ref) (sameOptions link.ref)⟩]) others still
    rw [if_neg named, Prog.execute_call opened]
    dsimp only
    rw [Gzip.logical_pack]
    dsimp only
    rw [Prog.execute_call put]
    dsimp only
    rw [if_neg verified]
    refine ⟨?_, ?_⟩
    · rw [done, List.append_assoc, List.singleton_append]
    · rw [putContents_other fun _ _ _ => Call.noConfusion, putContents_put]
      exact Set.insert_subset (inside link (List.mem_cons_self ..)) among

theorem writeManifest_execute {manifest : Manifest} {data : List UInt8}
    (marshalled : prim.manifest.marshal manifest = .ok data) :
    ((writeManifest prim manifest).execute (depot.answer prim) world).2.2 =
      .ok ⟨manifest, putRef prim.sha256 prim.gzip (depot.stores depot.archive) data
        manifestOptions⟩ ∧
    putContents ((writeManifest prim manifest).execute (depot.answer prim) world).1 = {data} := by
  have put := @Depot.answer_put_whole prim depot world .archive depot.archive data manifestOptions
    rfl (.inl rfl)
  have opened := @answer_openRef_kept prim depot _ data manifestOptions
    (@kept_setDisk prim depot depot.archive _ world data (.inl rfl))
  unfold writeManifest
  rw [marshalled]
  dsimp only
  rw [Prog.execute_call put]
  dsimp only
  rw [Prog.execute_call opened]
  dsimp only
  rw [show prim.gzip.pack manifestOptions.compression data = data from rfl,
    if_pos (Stream.readLimited_whole (Nat.le_succ _)), putContents_put,
    putContents_other fun _ _ _ => Call.noConfusion]
  refine ⟨rfl, ?_⟩
  show insert data (putContents []) = {data}
  rw [show putContents [] = ∅ from putContents_reading fun _ member =>
    (List.not_mem_nil member).elim, insert_empty_eq]

/-- The manifest of a write. -/
def writtenManifest (prim : Primitives) (depot : Depot) (content : Ref → List UInt8)
    (events : List EventRecord) (lines : List (List UInt8)) : Manifest :=
  { baseManifest prim events (joinLines lines) (putRef prim.sha256 prim.gzip
      (depot.stores depot.archive) (joinLines lines) eventOptions) depot.now with
    payloads := copies prim depot content (events.flatMap (·.payloads)) ∅ }

/-- **A write succeeds** when the source stores have the payloads and everything can be encoded. -/
theorem write_execute {events : List EventRecord} {content : Ref → List UInt8}
    {contents : Set (List UInt8)} {lines : List (List UInt8)} {data : List UInt8}
    (collisionFree : Set.InjOn prim.sha256 contents) (nonempty : events ≠ [])
    (encoded : encodeEvents prim events = .ok lines) (eventsAmong : joinLines lines ∈ contents)
    (inside : ∀ link ∈ events.flatMap (·.payloads), content link.ref ∈ contents)
    (sourced : ∀ link ∈ events.flatMap (·.payloads), Sourced prim depot content world link.ref)
    (marshalled : prim.manifest.marshal (writtenManifest prim depot content events lines) = .ok data)
    (manifestAmong : data ∈ contents) :
    ((write prim depot.writer events).execute (depot.answer prim) world).2.2 =
      .ok ⟨writtenManifest prim depot content events lines, putRef prim.sha256 prim.gzip
        (depot.stores depot.archive) data manifestOptions⟩ ∧
    putContents ((write prim depot.writer events).execute (depot.answer prim) world).1 ⊆ contents := by
  have put := @Depot.answer_put_whole prim depot world .archive depot.archive (joinLines lines)
    eventOptions rfl (.inr rfl)
  have still : ∀ link ∈ events.flatMap (·.payloads), Sourced prim depot content _ link.ref :=
    fun link member => (sourced link member).answer (inside link member) collisionFree
      (.put .archive ⟨joinLines lines, none⟩ eventOptions) fun _ _ _ same => by
        cases same
        exact eventsAmong
  rw [put] at still
  obtain ⟨copied, among⟩ := copyPayloads_execute collisionFree _ ∅ [] inside still
  unfold write
  rw [if_neg nonempty, encoded]
  dsimp only
  rw [Prog.execute_call put]
  dsimp only
  rw [Prog.execute_call (show depot.answer prim _ .now = (_, depot.now) from rfl)]
  dsimp only
  rw [Prog.execute_bind, copied, List.nil_append]
  dsimp only
  obtain ⟨done, only⟩ := @writeManifest_execute prim depot ((copyPayloads prim depot.writer
    (events.flatMap (·.payloads)) ∅ []).execute (depot.answer prim) _).2.1 _ data marshalled
  refine ⟨done, ?_⟩
  rw [putContents_put, putContents_other fun _ _ _ => Call.noConfusion, putContents_append]
  refine Set.insert_subset eventsAmong (Set.union_subset among ?_)
  exact only.trans_subset (Set.singleton_subset_iff.mpr manifestAmong)

/-! ### After a write -/

/-- **What a write leaves in the archive store.** -/
structure Stocked (prim : Primitives) (depot : Depot) (receipt : Receipt)
    (lines : List (List UInt8)) (data : List UInt8) (world : World) : Prop where
  events : Kept prim depot depot.archive (joinLines lines) eventOptions.compression world
  manifest : Kept prim depot depot.archive data manifestOptions.compression world
  eventsRef : receipt.manifest.events =
    putRef prim.sha256 prim.gzip (depot.stores depot.archive) (joinLines lines) eventOptions
  manifestRef : receipt.manifestRef =
    putRef prim.sha256 prim.gzip (depot.stores depot.archive) data manifestOptions

variable {events : List EventRecord} {receipt : Receipt}

/-- The run of a write. -/
abbrev writeRun (prim : Primitives) (depot : Depot) (events : List EventRecord) (world : World) :
    List (World × signature.Exchange) × World × Except GoError Receipt :=
  (write prim depot.writer events).execute (depot.answer prim) world

theorem trace_of_run (ran : (writeRun prim depot events world).2.2 = .ok receipt) :
    (write prim depot.writer events).Trace ((writeRun prim depot events world).1.map Prod.snd)
      (some (.ok receipt)) := by
  have trace := Prog.execute_trace (depot.answer prim) world (write prim depot.writer events)
  rwa [show ((write prim depot.writer events).execute (depot.answer prim) world).2.2 = .ok receipt
    from ran] at trace

theorem written_of_run (ran : (writeRun prim depot events world).2.2 = .ok receipt) :
    ∃ lines data, Written prim events ((writeRun prim depot events world).1.map Prod.snd) receipt
      lines data :=
  write_written prim (trace_of_run ran)

theorem Written.stocked {lines : List (List UInt8)} {data : List UInt8}
    (wrote : Written prim events ((writeRun prim depot events world).1.map Prod.snd) receipt lines
      data)
    (collisionFree : Set.InjOn prim.sha256 (putContents (writeRun prim depot events world).1)) :
    Stocked prim depot receipt lines data (writeRun prim depot events world).2.1 := by
  obtain ⟨eventsKept, eventsRef⟩ := kept_of_put _ collisionFree rfl wrote.eventsPut
  obtain ⟨manifestKept, manifestRef⟩ := kept_of_put _ collisionFree rfl wrote.manifestPut
  exact ⟨eventsKept, manifestKept, eventsRef, manifestRef⟩

theorem Written.valid {trace : List signature.Exchange} {lines : List (List UInt8)}
    {data : List UInt8} (wrote : Written prim events trace receipt lines data)
    (payloads : List PayloadEntry) : Manifest.Valid { receipt.manifest with payloads } := by
  obtain ⟨createdAt, same⟩ := wrote.manifest
  rw [same]
  refine ⟨rfl, ?_, ?_, ?_⟩
  · show Hex.encodeToString _ ≠ []
    intro empty
    have length := Hex.length_encodeToString (prim.sha256 (joinLines lines)).1
    rw [empty, (prim.sha256 (joinLines lines)).2] at length
    cases length
  · show (1 : Int) ≤ events.length
    have positive := List.length_pos_iff.mpr wrote.nonempty
    omega
  · show ((events.map _).length : Int) = events.length
    rw [List.length_map]

theorem Written.count {trace : List signature.Exchange} {lines : List (List UInt8)}
    {data : List UInt8} (wrote : Written prim events trace receipt lines data) :
    receipt.manifest.eventCount = events.length := by
  obtain ⟨createdAt, same⟩ := wrote.manifest
  rw [same]
  rfl

/-! ### A small archive -/

section Small

variable {sum manifestSum : Bytes 32} {events : List EventRecord} {copied : List Ref}
  {sources : List Store}

theorem small_manifest (nonempty : events ≠ [])
    (listed : copies (smallPrimitives sum manifestSum events copied) (smallDepot sources)
      (fun _ => body) (events.flatMap (·.payloads)) ∅ = (smallManifest sum events copied).payloads) :
    writtenManifest (smallPrimitives sum manifestSum events copied) (smallDepot sources)
      (fun _ => body) events (events.map recordText) = smallManifest sum events copied := by
  obtain ⟨_, digest, _⟩ := @small_sha256 sum manifestSum events copied nonempty
  unfold writtenManifest
  rw [listed]
  show ({ baseManifest _ events (smallText events) (putRef _ _ _ (smallText events) _) _ with
    payloads := _ } : Manifest) = _
  unfold baseManifest putRef
  rw [digest]
  rfl

/-- **The write of a small archive** returns its receipt. -/
theorem small_written (nonempty : events ≠ []) (apart : [bodyDigest, sum, manifestSum].Nodup)
    (sourced : ∀ link ∈ events.flatMap (·.payloads),
      Sourced (smallPrimitives sum manifestSum events copied) (smallDepot sources) (fun _ => body)
        (smallWorld sources) link.ref)
    (listed : copies (smallPrimitives sum manifestSum events copied) (smallDepot sources)
      (fun _ => body) (events.flatMap (·.payloads)) ∅ = (smallManifest sum events copied).payloads) :
    (writeRun (smallPrimitives sum manifestSum events copied) (smallDepot sources) events
      (smallWorld sources)).2.2 = .ok (smallReceipt sum manifestSum events copied) ∧
    putContents (writeRun (smallPrimitives sum manifestSum events copied) (smallDepot sources)
      events (smallWorld sources)).1 ⊆
        {body, smallText events, manifestText (smallManifest sum events copied)} := by
  have collisionFree := @small_injOn sum manifestSum events copied nonempty apart
  have same := small_manifest nonempty listed
  obtain ⟨_, _, digest⟩ := @small_sha256 sum manifestSum events copied nonempty
  obtain ⟨done, among⟩ := write_execute collisionFree nonempty
    (small_encode events (List.Subset.refl _)) (.inr (.inl rfl)) (fun _ _ => .inl rfl) sourced
    (by rw [same]; exact small_marshal_manifest) (.inr (.inr rfl))
  refine ⟨?_, among⟩
  refine done.trans ?_
  rw [same]
  unfold putRef
  rw [digest]
  rfl

theorem small_sourced (nonempty : events ≠ []) (index : Nat) (store : Store)
    (here : sources[index]? = some store)
    (found : (smallDepot sources).sources.lookup store.name = some (index + 1)) :
    Sourced (smallPrimitives sum manifestSum events copied) (smallDepot sources) (fun _ => body)
      (smallWorld sources) (bodyRef store.name store.keyPrefix) := by
  obtain ⟨digest, _, _⟩ := @small_sha256 sum manifestSum events copied nonempty
  have same : (smallDepot sources).stores (index + 1) = store := by
    show sources.getD index _ = store
    rw [List.getD_eq_getElem?_getD, here]
    rfl
  have disk : (smallWorld sources).disks (index + 1) =
      AList.insert (objectKey store.keyPrefix bodyDigest compressionNone) body ∅ := by
    unfold smallWorld
    dsimp only
    rw [List.getD_cons_succ, List.getD_eq_getElem?_getD, List.getElem?_map, here]
    rfl
  refine ⟨index + 1, found, by rw [same]; rfl, by rw [same]; rfl, ⟨.inl rfl, ?_⟩, digest, rfl⟩
  rw [same, disk, digest]
  exact AList.lookup_insert _

/-- A record with a payload in the store `hot`. -/
def hotRecord : EventRecord := linkedRecord 7 [bodyRef (ascii "hot") []]

/-- The SHA-256 of the event object with this record. -/
def hotSum : Bytes 32 :=
  digestOf 0x004536fd82d9698c5990c83a890060368e06f41b932050ae37b53b51c22880d4

/-- The SHA-256 of its manifest. -/
def hotManifestSum : Bytes 32 :=
  digestOf 0xf63a6b99531a8c3c03c50b75b837e60675bb27d5aa72a9223508ef0635a7ecc0

def hotPrimitives : Primitives :=
  smallPrimitives hotSum hotManifestSum [hotRecord] [bodyRef (ascii "hot") []]

def hotReceipt : Receipt :=
  smallReceipt hotSum hotManifestSum [hotRecord] [bodyRef (ascii "hot") []]

def hotDepot : Depot := smallDepot [plainStore (ascii "hot") []]

def hotWorld : World := smallWorld [plainStore (ascii "hot") []]

theorem hot_evaluated :
    hotDepot.sources.lookup (ascii "hot") = some 1 ∧
    [bodyDigest, hotSum, hotManifestSum].Nodup ∧ IsLine (recordText hotRecord) ∧
    (recordText hotRecord).length < readBound ∧
    (manifestText (smallManifest hotSum [hotRecord] [bodyRef (ascii "hot") []])).length <
      readBound :=
  ⟨by decide, by decide,
    isLine_recordText (by decide +kernel) (by decide +kernel) (by decide +kernel),
    by decide +kernel, by decide +kernel⟩

theorem hot_sourced : ∀ link ∈ [hotRecord].flatMap (·.payloads),
    Sourced hotPrimitives hotDepot (fun _ => body) hotWorld link.ref := by
  intro link member
  rw [List.mem_singleton.mp member]
  exact @small_sourced _ _ _ _ [plainStore (ascii "hot") []] (List.cons_ne_nil _ _) 0
    (plainStore (ascii "hot") []) rfl hot_evaluated.1

theorem hot_written :
    (writeRun hotPrimitives hotDepot [hotRecord] hotWorld).2.2 = .ok hotReceipt ∧
    putContents (writeRun hotPrimitives hotDepot [hotRecord] hotWorld).1 ⊆
      {body, smallText [hotRecord], manifestText hotReceipt.manifest} := by
  obtain ⟨digest, _, _⟩ := @small_sha256 hotSum hotManifestSum [hotRecord]
    [bodyRef (ascii "hot") []] (List.cons_ne_nil _ _)
  unfold hotPrimitives hotDepot hotWorld hotReceipt
  refine small_written (List.cons_ne_nil _ _) hot_evaluated.2.1 hot_sourced ?_
  show [(⟨_, putRef _ _ _ body _⟩ : PayloadEntry)] = _
  unfold putRef
  rw [digest]
  rfl

theorem hot_collisionFree : Set.InjOn hotPrimitives.sha256
    (putContents (writeRun hotPrimitives hotDepot [hotRecord] hotWorld).1) :=
  (small_injOn (List.cons_ne_nil _ _) hot_evaluated.2.1).mono hot_written.2

theorem hot_line : IsLine (recordText hotRecord) := hot_evaluated.2.2.1

end Small

/-! ### When an archive can be read back -/

/-- JSON decoding accepts what encoding writes: the text of an event is a line and decodes, and the
text of the manifest decodes to the manifest, if perhaps with other payloads. -/
structure Decodable (prim : Primitives) (events : List EventRecord) (manifest : Manifest) : Prop where
  line : ∀ event ∈ events, ∀ line, prim.event.marshal event = .ok line → IsLine line
  event : ∀ event ∈ events, ∀ line, prim.event.marshal event = .ok line →
    ∃ decoded, prim.event.unmarshal line = .ok decoded
  manifest : ∀ data, prim.manifest.marshal manifest = .ok data →
    ∃ payloads, prim.manifest.unmarshal data = .ok { manifest with payloads }

/-- `ReadManifest` succeeds, and `ReadEvents` for every offset and limit it accepts. -/
def ReadsBack (prim : Primitives) (depot : Depot) (receipt : Receipt) (world : World) : Prop :=
  ∃ manifest, ((readManifest prim (some .archive) receipt.manifestRef).execute (depot.answer prim)
      world).2.2 = .ok manifest ∧
    ∀ offset limit : Int, 0 ≤ offset → 1 ≤ limit → limit ≤ 10000 →
      ∃ result, ((readEvents prim (some .archive) manifest offset limit).execute (depot.answer prim)
        world).2.2 = .ok result

theorem exists_decoded {lines : List (List UInt8)}
    (each : ∀ line ∈ lines, ∃ event, prim.event.unmarshal line = .ok event) :
    ∃ events, List.Forall₂ (Decodes prim) lines events := by
  induction lines with
  | nil => exact ⟨[], .nil⟩
  | cons line lines ih =>
    obtain ⟨event, decoded⟩ := each line (List.mem_cons_self ..)
    obtain ⟨events, rest⟩ := ih fun other member => each other (List.mem_cons_of_mem _ member)
    exact ⟨event :: events, .cons decoded rest⟩

theorem small_decodable {sum manifestSum : Bytes 32} {events : List EventRecord} {copied : List Ref}
    (lines : ∀ event ∈ events, IsLine (recordText event))
    (injective : Set.InjOn recordText {event | event ∈ events}) :
    Decodable (smallPrimitives sum manifestSum events copied) events
      (smallReceipt sum manifestSum events copied).manifest := by
  refine ⟨fun event member line marshalled => ?_, fun event member line marshalled => ?_,
    fun data marshalled => ?_⟩
  · rw [small_recordText member marshalled]
    exact lines event member
  · rw [small_recordText member marshalled]
    exact ⟨event, Wire.Codec.table_unmarshal injective member⟩
  · rw [small_manifestText marshalled]
    exact ⟨_, small_unmarshal_manifest⟩

theorem hot_decodable : Decodable hotPrimitives [hotRecord] hotReceipt.manifest :=
  small_decodable (fun event member => by rw [List.mem_singleton.mp member]; exact hot_line)
    fun _ left _ right _ => (List.mem_singleton.mp left).trans (List.mem_singleton.mp right).symm

section Fits

variable {lines : List (List UInt8)} {data : List UInt8} {payloads : List PayloadEntry}

theorem ReadsBack.manifest_fits {later : World} (back : ReadsBack prim depot receipt later)
    (stocked : Stocked prim depot receipt lines data later)
    (truncation : prim.sha256 (data.take readBound) = prim.sha256 data → data.take readBound = data) :
    data.length ≤ readBound := by
  by_contra long
  obtain ⟨manifest, opened, _⟩ := back
  have apart : prim.sha256 (data.take readBound) ≠ prim.sha256 data := by
    intro same
    have whole := congrArg List.length (truncation same)
    rw [List.length_take] at whole
    omega
  rw [stocked.manifestRef, readManifest_execute_long stocked.manifest (not_le.mp long) apart]
    at opened
  cases opened

theorem ReadsBack.events_fit {later : World} (back : ReadsBack prim depot receipt later)
    (stocked : Stocked prim depot receipt lines data later) (fits : data.length ≤ readBound)
    (decoded : prim.manifest.unmarshal data = .ok { receipt.manifest with payloads })
    (valid : Manifest.Valid { receipt.manifest with payloads })
    (each : ∀ line ∈ lines, IsLine line) : ∀ line ∈ lines, line.length < readBound := by
  intro line member
  by_contra long
  obtain ⟨manifest, opened, reads⟩ := back
  rw [stocked.manifestRef, readManifest_execute stocked.manifest fits decoded valid] at opened
  cases opened
  obtain ⟨result, ok⟩ := reads 0 1 (by omega) (by omega) (by omega)
  obtain ⟨error, failed⟩ := readEvents_execute_long { receipt.manifest with payloads }
    stocked.events stocked.eventsRef each ⟨line, member, not_lt.mp long⟩
  rw [failed] at ok
  cases ok

end Fits

/-- **What `Write` returns a receipt for can be read back exactly when it fits**: when the text of the
manifest is within the bound of its reader and the text of every event is shorter than the bound of
the scanner. -/
theorem readsBack_iff (ran : (writeRun prim depot events world).2.2 = .ok receipt)
    (decodable : Decodable prim events receipt.manifest)
    (collisionFree : Set.InjOn prim.sha256 (putContents (writeRun prim depot events world).1))
    (truncation : ∀ data, prim.manifest.marshal receipt.manifest = .ok data →
      prim.sha256 (data.take readBound) = prim.sha256 data → data.take readBound = data) :
    ReadsBack prim depot receipt (writeRun prim depot events world).2.1 ↔
      (∀ data, prim.manifest.marshal receipt.manifest = .ok data → data.length ≤ readBound) ∧
      ∀ event ∈ events, ∀ line, prim.event.marshal event = .ok line → line.length < readBound := by
  obtain ⟨lines, data, wrote⟩ := written_of_run ran
  have stocked := wrote.stocked collisionFree
  have each := forall_line wrote.encoded decodable.line
  obtain ⟨payloads, decoded⟩ := decodable.manifest data wrote.marshalled
  constructor
  · intro back
    have fits := back.manifest_fits stocked (truncation data wrote.marshalled)
    have short := back.events_fit stocked fits decoded (wrote.valid payloads) each
    refine ⟨fun other marshalled => ?_, fun event member line marshalled => ?_⟩
    · rw [wrote.marshalled] at marshalled
      cases marshalled
      exact fits
    · exact short line (line_mem wrote.encoded member marshalled)
  · rintro ⟨fits, short⟩
    have read := readManifest_execute stocked.manifest (fits data wrote.marshalled) decoded
      (wrote.valid payloads)
    refine ⟨_, by rw [stocked.manifestRef, read], fun offset limit low one high => ?_⟩
    obtain ⟨read, decodes⟩ := exists_decoded (forall_line wrote.encoded decodable.event)
    have counted : receipt.manifest.eventCount = read.length := by
      rw [wrote.count, wrote.encoded.length_eq, decodes.length_eq]
    have evaluated := readEvents_execute { receipt.manifest with payloads }
      stocked.events stocked.eventsRef each (forall_line wrote.encoded short) decodes counted
      ⟨low, one, high⟩
    exact ⟨_, by rw [evaluated]⟩

theorem hot_marshalled {data : List UInt8}
    (marshalled : hotPrimitives.manifest.marshal hotReceipt.manifest = .ok data) :
    data.length < readBound := by
  unfold hotPrimitives hotReceipt at marshalled
  rw [small_manifestText marshalled]
  exact hot_evaluated.2.2.2.2

theorem hot_short : ∀ event ∈ [hotRecord], ∀ line, hotPrimitives.event.marshal event = .ok line →
    line.length < readBound := by
  intro event member line marshalled
  unfold hotPrimitives at marshalled
  rw [small_recordText member marshalled, List.mem_singleton.mp member]
  exact hot_evaluated.2.2.2.1

theorem hot_readsBack : ReadsBack hotPrimitives hotDepot hotReceipt
    (writeRun hotPrimitives hotDepot [hotRecord] hotWorld).2.1 := by
  refine (readsBack_iff hot_written.1 hot_decodable hot_collisionFree fun data marshalled _ => ?_).mpr
    ⟨fun data marshalled => (hot_marshalled marshalled).le, hot_short⟩
  exact List.take_of_length_le (hot_marshalled marshalled).le

/-! ### A long kind -/

section Long

variable (count : Nat)

/-- A record with a long kind. -/
def longRecord : EventRecord := { linkedRecord 7 [] with kind := List.replicate count 97 }

/-- The SHA-256 of the event object with the record whose kind has as many bytes as the scanner takes
in all. -/
def longSum : Bytes 32 :=
  digestOf 0xc118817a103c626e9395afa556363f3a23c66273190bc5b8c47260e4c4ef52f9

/-- The SHA-256 of its manifest. -/
def longManifestSum : Bytes 32 :=
  digestOf 0x74e2c7a9d45659c7ac543a5803b92a4423a5b5ab32ec2ce1fdb3a903b961c972

def longPrimitives : Primitives := smallPrimitives longSum longManifestSum [longRecord count] []

def longReceipt : Receipt := smallReceipt longSum longManifestSum [longRecord count] []

theorem quoted_longRecord :
    quoted (longRecord count).kind = 34 :: List.replicate count 97 ++ [34] := by
  have same : ((List.replicate count (97 : UInt8)).flatMap fun byte =>
      if byte = 0 then octets "\\u0000" else [byte]) = List.replicate count 97 := by
    induction count with
    | zero => rfl
    | succ count ih => rw [List.replicate_succ, List.flatMap_cons, ih]; rfl
  unfold quoted longRecord
  rw [same]

theorem long_evaluated :
    [bodyDigest, longSum, longManifestSum].Nodup ∧ longManifestSum ≠ Bytes.zero 32 ∧
    newline ∉ quoted (encodeID (linkedRecord 7 []).id) ∧ newline ∉ payloadsText [] := by
  decide

theorem long_written :
    (writeRun (longPrimitives count) (smallDepot []) [longRecord count] (smallWorld [])).2.2 =
      .ok (longReceipt count) ∧
    Set.InjOn (longPrimitives count).sha256 (putContents (writeRun (longPrimitives count)
      (smallDepot []) [longRecord count] (smallWorld [])).1) := by
  have apart := long_evaluated.1
  have nonempty := List.cons_ne_nil (longRecord count) []
  unfold longPrimitives longReceipt
  obtain ⟨ran, among⟩ := @small_written longSum longManifestSum [longRecord count] [] [] nonempty
    apart (fun link member => (List.not_mem_nil member).elim) rfl
  exact ⟨ran, (small_injOn nonempty apart).mono among⟩

theorem long_decodable :
    Decodable (longPrimitives count) [longRecord count] (longReceipt count).manifest := by
  refine small_decodable (fun event member => ?_)
    fun _ left _ right _ => (List.mem_singleton.mp left).trans (List.mem_singleton.mp right).symm
  obtain ⟨_, _, id, payloads⟩ := long_evaluated
  rw [List.mem_singleton.mp member]
  refine isLine_recordText id ?_ payloads
  rw [quoted_longRecord]
  simp only [List.cons_append, List.mem_cons, List.mem_append, List.mem_replicate, List.not_mem_nil,
    or_false, not_or]
  exact ⟨by decide, fun both => absurd both.2 (by decide), by decide⟩

theorem long_not_readsBack (long : readBound ≤ count) :
    ¬ ReadsBack (longPrimitives count) (smallDepot []) (longReceipt count)
      (writeRun (longPrimitives count) (smallDepot []) [longRecord count] (smallWorld [])).2.1 := by
  intro back
  obtain ⟨lines, data, wrote⟩ := written_of_run (long_written count).1
  have stocked := wrote.stocked (long_written count).2
  obtain ⟨payloads, decoded⟩ := (long_decodable count).manifest data wrote.marshalled
  have fits : data.length ≤ readBound := by
    refine back.manifest_fits stocked fun same => ?_
    have text := wrote.marshalled
    unfold longPrimitives longReceipt at text
    unfold longPrimitives at same
    rw [small_manifestText text] at same ⊢
    rw [(small_sha256 (List.cons_ne_nil _ _)).2.2] at same
    exact small_truncation (List.cons_ne_nil _ _) long_evaluated.2.1 (by decide) same
  have short := back.events_fit stocked fits decoded (wrote.valid payloads)
    (forall_line wrote.encoded (long_decodable count).line)
  have line := short (recordText (longRecord count)) (line_mem wrote.encoded
    (List.mem_singleton_self _) (Wire.Codec.table_marshal (List.mem_singleton_self _)))
  unfold recordText at line
  simp only [List.length_append, quoted_longRecord, List.length_cons, List.length_replicate] at line
  omega

/-- **A receipt for an archive that cannot be read back**: one event, with a kind of as many bytes as
the scanner takes in all. -/
theorem written_not_readsBack :
    (writeRun (longPrimitives readBound) (smallDepot []) [longRecord readBound]
      (smallWorld [])).2.2 = .ok (longReceipt readBound) ∧
    Decodable (longPrimitives readBound) [longRecord readBound] (longReceipt readBound).manifest ∧
    ¬ ReadsBack (longPrimitives readBound) (smallDepot []) (longReceipt readBound)
      (writeRun (longPrimitives readBound) (smallDepot []) [longRecord readBound]
        (smallWorld [])).2.1 :=
  ⟨(long_written readBound).1, long_decodable readBound, long_not_readsBack readBound le_rfl⟩

end Long

end Evaluate

end Trail.Archive
