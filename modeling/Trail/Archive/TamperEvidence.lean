/-
**Tamper evidence.**

After a successful `Write` the archive store may return anything. Whatever `ReadManifest`,
`ReadEvents` and `Restore` make of it, they end with an error or with exactly the events of the
chunk: the receipt fixes the digest of the manifest, the manifest the digest of the events, and a
scanner that has reached the end of the text has hashed every byte of it.

Collision-freeness is assumed of the contents that occur only: what was put by the write, and what
is served to the reader.
-/

import Trail.Archive.ReadBack

namespace Trail.Archive

open Library Payload Storage

section Reading

variable (prim : Primitives)

/-- A content that a reader hashes: that of a manifest up to the bound, or that of an object behind
its compression. -/
def Served (trace : List signature.Exchange) (data : List UInt8) : Prop :=
  ∃ place ref reader, (⟨.openRef place ref, .ok reader⟩ : signature.Exchange) ∈ trace ∧
    (reader.readLimited readBound = .ok data ∨
      ∃ logical, prim.gzip.logical ref.compression reader = .ok logical ∧ logical.bytes = data)

/-- No served content has the digest of another content that was put. -/
def CollisionFree (written trace : List signature.Exchange) : Prop :=
  ∀ served original, Served prim trace served → PutIn written original →
    prim.sha256 served = prim.sha256 original → served = original

theorem CollisionFree.of_subset {written trace later : List signature.Exchange}
    (collisionFree : CollisionFree prim written later) (subset : trace ⊆ later) :
    CollisionFree prim written trace := by
  rintro served original ⟨place, ref, reader, member, read⟩
  exact collisionFree served original ⟨place, ref, reader, subset member, read⟩

/-- `ReadManifest`, then `ReadEvents` with the manifest it returned. -/
def readBack (receipt : Receipt) (offset limit : Int) :
    Prog signature (Except GoError (List EventRecord × Bool)) :=
  (readManifest prim (some .archive) receipt.manifestRef).bind fun
    | .error error => .pure (.error error)
    | .ok manifest => readEvents prim (some .archive) manifest offset limit

/-- JSON decoding inverts encoding on these events and this manifest, and the text of an event is a
line. -/
structure Inverts (events : List EventRecord) (manifest : Manifest) : Prop where
  event : ∀ event ∈ events, ∀ line, prim.event.marshal event = .ok line →
    prim.event.unmarshal line = .ok event
  line : ∀ event ∈ events, ∀ line, prim.event.marshal event = .ok line → IsLine line
  manifest : ∀ data, prim.manifest.marshal manifest = .ok data →
    prim.manifest.unmarshal data = .ok manifest

variable {prim}

theorem eq_of_decoded {events decoded : List EventRecord} {lines : List (List UInt8)}
    (encoded : List.Forall₂ (fun event line => prim.event.marshal event = .ok line) events lines)
    (decodes : List.Forall₂ (Decodes prim) lines decoded)
    (inverts : ∀ event ∈ events, ∀ line, prim.event.marshal event = .ok line →
      prim.event.unmarshal line = .ok event) : decoded = events := by
  induction encoded generalizing decoded with
  | nil =>
    cases decodes
    rfl
  | @cons event line events lines marshalled encoded ih =>
    cases decodes with
    | cons here rest =>
      have same := (inverts event (List.mem_cons_self ..) line marshalled).symm.trans here
      cases same
      rw [ih rest fun event among => inverts event (List.mem_cons_of_mem _ among)]

theorem forall₂_chunk {α β : Type} {relation : α → β → Prop} {first : List α} {second : List β}
    (related : List.Forall₂ relation first second) (offset limit : Int) :
    List.Forall₂ relation (chunk first offset limit) (chunk second offset limit) :=
  List.forall₂_take _ (List.forall₂_drop _ related)

theorem chunk_subset {α : Type} (items : List α) (offset limit : Int) :
    chunk items offset limit ⊆ items :=
  fun _ member => List.mem_of_mem_drop (List.mem_of_mem_take member)

section Receipt

variable {events : List EventRecord} {receipt : Receipt} {written trace : List signature.Exchange}
  {lines : List (List UInt8)} {data : List UInt8}

/-- **The manifest that is read is the manifest that was written.** -/
theorem Written.manifest_eq (wrote : Written prim events written receipt lines data)
    (honest : Honest prim written) (inverts : Inverts prim events receipt.manifest)
    (collisionFree : CollisionFree prim written trace) {manifest : Manifest} {served : List UInt8}
    (read : ManifestRead prim .archive receipt.manifestRef trace manifest served) :
    manifest = receipt.manifest := by
  obtain ⟨reader, opened, limited⟩ := read.served
  have digest : prim.sha256 served = prim.sha256 data :=
    read.checksum.trans (honest _ _ _ _ wrote.manifestPut)
  have same : served = data := collisionFree served data
    ⟨_, _, reader, opened, .inl limited⟩ ⟨_, _, _, wrote.manifestPut⟩ digest
  have decoded := read.decoded
  rw [same, inverts.manifest data wrote.marshalled] at decoded
  exact (Except.ok.inj decoded).symm

/-- **The events that are read are the events of the chunk.** -/
theorem Written.events_eq (wrote : Written prim events written receipt lines data)
    (honest : Honest prim written) (inverts : Inverts prim events receipt.manifest)
    (collisionFree : CollisionFree prim written trace) {offset limit : Int} {logical : Stream}
    {read : List EventRecord} {complete : Bool}
    (ran : EventsRead prim .archive receipt.manifest offset limit trace logical read complete) :
    read = chunk events offset limit ∧
      complete = decide ((events.length : Int) ≤ offset + (chunk events offset limit).length) := by
  obtain ⟨reader, opened, behind⟩ := ran.served
  have digest : prim.sha256 logical.bytes = prim.sha256 (joinLines lines) :=
    ran.checksum.trans (honest _ _ _ _ wrote.eventsPut)
  have same : logical.bytes = joinLines lines := collisionFree _ _
    ⟨_, _, reader, opened, .inr ⟨logical, behind, rfl⟩⟩ ⟨_, _, _, wrote.eventsPut⟩ digest
  have each := forall_line wrote.encoded inverts.line
  have short : ∀ line ∈ lines, line.length < readBound := by
    intro line member
    by_contra long
    have reported := ran.short
    rw [same, Bool.eq_false_iff] at reported
    exact reported ((scan_joinLines_long each).mpr ⟨line, member, not_lt.mp long⟩)
  have decoded := ran.decoded
  rw [same, scan_joinLines each short] at decoded
  have all : read = chunk events offset limit :=
    eq_of_decoded (forall₂_chunk wrote.encoded offset limit) decoded
      fun event member => inverts.event event (chunk_subset _ _ _ member)
  obtain ⟨createdAt, manifest⟩ := wrote.manifest
  have count : receipt.manifest.eventCount = events.length := by rw [manifest]; rfl
  refine ⟨all, ?_⟩
  rw [ran.complete_iff, count, all]

end Receipt

/-! ### The programs -/

section Follow

variable {allow : List signature.Exchange → Call → Prop} {history : List signature.Exchange}
  {receipt : Receipt} {offset limit : Int}

/-- A chunk that both readers have verified, in this order, against the receipt. -/
def Verified (prim : Primitives) (receipt : Receipt) (offset limit : Int)
    (trace : List signature.Exchange) (manifest : Manifest) (read : List EventRecord)
    (complete : Bool) : Prop :=
  (∃ served, ManifestRead prim .archive receipt.manifestRef trace manifest served) ∧
    ∃ logical, EventsRead prim .archive manifest offset limit trace logical read complete

theorem ManifestRead.of_subset {place : Place} {ref : Ref} {trace later : List signature.Exchange}
    {manifest : Manifest} {served : List UInt8}
    (read : ManifestRead prim place ref trace manifest served) (subset : trace ⊆ later) :
    ManifestRead prim place ref later manifest served := by
  obtain ⟨reader, opened, limited⟩ := read.served
  exact ⟨⟨reader, subset opened, limited⟩, read.checksum, read.decoded⟩

theorem EventsRead.of_subset {place : Place} {manifest : Manifest} {logical : Stream}
    {read : List EventRecord} {complete : Bool} {trace later : List signature.Exchange}
    (ran : EventsRead prim place manifest offset limit trace logical read complete)
    (subset : trace ⊆ later) :
    EventsRead prim place manifest offset limit later logical read complete := by
  obtain ⟨reader, opened, behind⟩ := ran.served
  exact ⟨ran.bounds, ⟨reader, subset opened, behind⟩, ran.short, ran.checksum, ran.decoded,
    ran.complete_iff⟩

theorem readBack_spec (reads : Reads allow) :
    (readBack prim receipt offset limit).Obeys allow history fun later value =>
      ∀ read complete, value = .ok (read, complete) →
        ∃ manifest, Verified prim receipt offset limit later manifest read complete := by
  refine Prog.obeys_bind ((readManifest_spec prim reads .archive receipt.manifestRef).mono ?_)
  rintro middle (error | manifest) spec
  · rintro read complete ⟨⟩
  · obtain ⟨served, read⟩ := spec manifest rfl
    refine (readEvents_spec prim reads .archive manifest offset limit).longer.mono ?_
    rintro later value ⟨longer, ran⟩ events complete same
    obtain ⟨logical, ran⟩ := ran events complete same
    exact ⟨manifest, ⟨served, read.of_subset longer.subset⟩, logical, ran⟩

theorem copyBack_obeys (free : Free allow) (active : List GoString) (needed : Finset GoString)
    (entries : List PayloadEntry) :
    (copyBack prim active needed entries).Obeys allow history fun _ _ => True := by
  induction entries generalizing history with
  | nil => trivial
  | cons entry entries ih =>
    unfold copyBack
    split
    · exact ih
    split
    · trivial
    refine ⟨free _ _ (fun _ _ => Call.noConfusion), fun reply => ?_⟩
    rcases reply with error | reader
    · trivial
    dsimp only
    split
    · trivial
    refine ⟨free _ _ (fun _ _ => Call.noConfusion), fun reply => ?_⟩
    rcases reply with error | restored
    · trivial
    dsimp only
    split
    · trivial
    · exact ih

/-- **A chunk verified against the receipt is a chunk of the events.** -/
theorem Written.genuine {events : List EventRecord} {lines : List (List UInt8)} {data : List UInt8}
    {written trace : List signature.Exchange} (wrote : Written prim events written receipt lines data)
    (honest : Honest prim written) (inverts : Inverts prim events receipt.manifest)
    (collisionFree : CollisionFree prim written trace) {manifest : Manifest}
    {read : List EventRecord} {complete : Bool}
    (verified : Verified prim receipt offset limit trace manifest read complete) :
    read = chunk events offset limit ∧
      complete = decide ((events.length : Int) ≤ offset + (chunk events offset limit).length) := by
  obtain ⟨⟨served, first⟩, logical, second⟩ := verified
  have same := wrote.manifest_eq honest inverts collisionFree first
  subst same
  exact wrote.events_eq honest inverts collisionFree second

/-- What `Restore` may pass on: a verified chunk, once. -/
def PassesVerified (prim : Primitives) (receipt : Receipt) (offset limit : Int)
    (history : List signature.Exchange) : Call → Prop
  | .restoreArchiveEvents archiveID passed => (∀ exchange ∈ history, exchange.op.Quiet) ∧
      ∃ manifest complete, archiveID = manifest.id ∧ manifest.id = receipt.manifest.id ∧
        Verified prim receipt offset limit history manifest passed complete
  | _ => True

theorem free_passesVerified : Free (PassesVerified prim receipt offset limit) := by
  intro history op quiet
  cases op with
  | restoreArchiveEvents archiveID events => exact absurd rfl (quiet archiveID events)
  | _ => trivial

/-- How `Restore` ends: with an error and nothing passed on, or with the outcome of passing a verified
chunk on. -/
def Ends (prim : Primitives) (receipt : Receipt) (offset limit : Int)
    (later : List signature.Exchange) (outcome : RestoreResult × Option GoError) : Prop :=
  (outcome.2 ≠ none ∧ ∀ exchange ∈ later, exchange.op.Quiet) ∨
    ∃ before manifest passed complete restored,
      later = before ++ [⟨.restoreArchiveEvents manifest.id passed, (restored, outcome.2)⟩] ∧
      (∀ exchange ∈ before, exchange.op.Quiet) ∧ manifest.id = receipt.manifest.id ∧
      Verified prim receipt offset limit before manifest passed complete ∧
      (outcome.2 = none → outcome.1.complete = complete)

/-- The exchanges of a program that was quiet so far and makes quiet calls only. -/
theorem quiet_of_calls {later : List signature.Exchange}
    (quiet : ∀ exchange ∈ history, exchange.op.Quiet)
    (calls : ∀ exchange ∈ later, exchange ∈ history ∨ exchange.op.Quiet) :
    ∀ exchange ∈ later, exchange.op.Quiet := by
  intro exchange member
  rcases calls exchange member with old | new
  · exact quiet exchange old
  · exact new

theorem restoreChunk_spec (active : List GoString) {manifest : Manifest} {served : List UInt8}
    (result : RestoreResult) (quiet : ∀ exchange ∈ history, exchange.op.Quiet)
    (named : manifest.id = receipt.manifest.id)
    (read : ManifestRead prim .archive receipt.manifestRef history manifest served) :
    (restoreChunk prim active manifest offset limit result).Obeys
      (PassesVerified prim receipt offset limit) history (Ends prim receipt offset limit) := by
  have free : Free (PassesVerified prim receipt offset limit) := free_passesVerified
  refine Prog.obeys_bind (((readEvents_spec prim free.quiet.reads .archive manifest offset
    limit).longer.calls).mono ?_)
  rintro middle (error | ⟨passed, complete⟩) ⟨calls, longer, spec⟩
  · exact .inl ⟨by simp, quiet_of_calls quiet calls⟩
  · obtain ⟨logical, ran⟩ := spec passed complete rfl
    have still := quiet_of_calls quiet calls
    refine Prog.obeys_bind ((copyBack_obeys free.quiet active _ _).longer.calls.mono ?_)
    rintro later (_ | error) ⟨calls, further, _⟩
    · have silent := quiet_of_calls still calls
      have verified : Verified prim receipt offset limit later manifest passed complete :=
        ⟨⟨served, read.of_subset (longer.trans further).subset⟩, logical,
          ran.of_subset further.subset⟩
      refine ⟨⟨silent, manifest, complete, rfl, named, verified⟩, ?_⟩
      rintro ⟨restored, _ | error⟩
      · exact .inr ⟨later, manifest, passed, complete, restored, rfl, silent, named, verified,
          fun _ => rfl⟩
      · exact .inr ⟨later, manifest, passed, complete, restored, rfl, silent, named, verified,
          fun none => by cases none⟩
    · exact .inl ⟨by simp, quiet_of_calls still calls⟩

/-- **`Restore` passes on a verified chunk or nothing.** -/
theorem restore_spec (active : List GoString) (target : Bool) :
    (restore prim active target receipt offset limit).Obeys
      (PassesVerified prim receipt offset limit) [] (Ends prim receipt offset limit) := by
  have free : Free (PassesVerified prim receipt offset limit) := free_passesVerified
  have nothing : ∀ exchange ∈ ([] : List signature.Exchange), exchange.op.Quiet :=
    fun _ member => (List.not_mem_nil member).elim
  unfold restore
  split
  · exact .inl ⟨by simp, nothing⟩
  refine Prog.obeys_bind (((readManifest_spec prim free.quiet.reads .archive
    receipt.manifestRef).calls).mono ?_)
  rintro later (error | manifest) ⟨calls, spec⟩
  · exact .inl ⟨by simp, quiet_of_calls nothing calls⟩
  · obtain ⟨served, read⟩ := spec manifest rfl
    dsimp only
    split
    · exact .inl ⟨by simp, quiet_of_calls nothing calls⟩
    · rename_i named
      exact restoreChunk_spec active _ (quiet_of_calls nothing calls) (not_not.mp named) read

end Follow

end Reading

/-- **Tamper evidence.** After a `Write` that returned a receipt, whatever the stores return: reading
the archive back ends with an error or with exactly the events of the chunk, complete when they
reach the end; a restore passes nothing on and ends with an error, or passes on exactly this
chunk, last and once, and ends as that call does. -/
theorem tamper_evident (prim : Primitives) (writer : BundleWriter) {events : List EventRecord}
    {receipt : Receipt} {written trace : List signature.Exchange}
    (wrote : (write prim writer events).Trace written (some (.ok receipt)))
    (honest : Honest prim written) (inverts : Inverts prim events receipt.manifest)
    (collisionFree : CollisionFree prim written trace) (offset limit : Int) :
    (∀ outcome, (readBack prim receipt offset limit).Trace trace (some outcome) →
      (∃ error, outcome = .error error) ∨
      outcome = .ok (chunk events offset limit,
        decide ((events.length : Int) ≤ offset + (chunk events offset limit).length))) ∧
    ∀ active target outcome, (restore prim active target receipt offset limit).Trace trace outcome →
      (∀ archiveID passed reply,
        (⟨.restoreArchiveEvents archiveID passed, reply⟩ : signature.Exchange) ∈ trace →
          archiveID = receipt.manifest.id ∧ passed = chunk events offset limit) ∧
      ∀ result error, outcome = some (result, error) →
        (error ≠ none ∧ ∀ exchange ∈ trace, exchange.op.Quiet) ∨
        ∃ before restored, trace = before ++ [⟨.restoreArchiveEvents receipt.manifest.id
            (chunk events offset limit), (restored, error)⟩] ∧
          (∀ exchange ∈ before, exchange.op.Quiet) ∧
          (error = none → result.complete =
            decide ((events.length : Int) ≤ offset + (chunk events offset limit).length)) := by
  obtain ⟨lines, data, wrote⟩ := write_written prim wrote
  have genuine : ∀ {before manifest read complete}, before ⊆ trace →
      Verified prim receipt offset limit before manifest read complete →
      read = chunk events offset limit ∧
        complete = decide ((events.length : Int) ≤ offset + (chunk events offset limit).length) :=
    fun subset verified =>
      wrote.genuine honest inverts (collisionFree.of_subset prim subset) verified
  refine ⟨fun outcome ran => ?_, fun active target outcome ran => ⟨?_, ?_⟩⟩
  · have everything : Reads fun _ _ => True := fun _ _ _ => trivial
    rcases outcome with error | ⟨read, complete⟩
    · exact .inl ⟨error, rfl⟩
    · obtain ⟨manifest, verified⟩ :=
        ((@readBack_spec prim _ [] receipt offset limit everything).trace ran).2 _ rfl read complete rfl
      obtain ⟨same, reaches⟩ := genuine (List.Subset.refl _) verified
      exact .inr (by rw [same, reaches])
  · intro archiveID passed reply member
    obtain ⟨before, after, rfl⟩ := List.append_of_mem member
    obtain ⟨_, manifest, complete, named, same, verified⟩ :=
      ((restore_spec active target).trace ran).1 before _ after rfl
    rw [List.nil_append] at verified
    exact ⟨named.trans same, (genuine (List.subset_append_left _ _) verified).1⟩
  · rintro result error rfl
    rcases ((restore_spec active target).trace ran).2 _ rfl with
      ⟨failed, quiet⟩ | ⟨before, manifest, passed, complete, restored, split, quiet, named, verified, ends⟩
    · exact .inl ⟨failed, quiet⟩
    · rw [List.nil_append] at split
      subst split
      obtain ⟨rfl, rfl⟩ := genuine (List.subset_append_left _ _) verified
      rw [named]
      exact .inr ⟨before, restored, rfl, quiet, ends⟩

/-! ### An overwritten manifest -/

theorem small_inverts {sum manifestSum : Bytes 32} {events : List EventRecord} {copied : List Ref}
    (lines : ∀ event ∈ events, IsLine (recordText event))
    (injective : Set.InjOn recordText {event | event ∈ events}) :
    Inverts (smallPrimitives sum manifestSum events copied) events
      (smallReceipt sum manifestSum events copied).manifest := by
  refine ⟨fun event member line marshalled => ?_, fun event member line marshalled => ?_,
    fun data marshalled => ?_⟩
  · rw [small_recordText member marshalled]
    exact Wire.Codec.table_unmarshal injective member
  · rw [small_recordText member marshalled]
    exact lines event member
  · rw [small_manifestText marshalled]
    exact small_unmarshal_manifest

theorem hot_inverts : Inverts hotPrimitives [hotRecord] hotReceipt.manifest :=
  small_inverts (fun event member => by rw [List.mem_singleton.mp member]; exact hot_line)
    fun _ left _ right _ => (List.mem_singleton.mp left).trans (List.mem_singleton.mp right).symm

theorem small_collisionFree {sum manifestSum : Bytes 32} {events : List EventRecord}
    {copied : List Ref} (nonempty : events ≠ [])
    (apart : [Bytes.zero 32, bodyDigest, sum, manifestSum].Nodup)
    {written : List signature.Exchange}
    (among : ∀ data, PutIn written data →
      data = body ∨ data = smallText events ∨ data = manifestText (smallManifest sum events copied))
    (trace : List signature.Exchange) :
    CollisionFree (smallPrimitives sum manifestSum events copied) written trace := by
  intro served original _ put same
  obtain ⟨unknown, others⟩ := List.nodup_cons.mp apart
  obtain ⟨first, second, third⟩ := @small_sha256 sum manifestSum events copied nonempty
  refine @small_injOn sum manifestSum events copied nonempty others _ ?_ _ (among original put) same
  -- the digest is one of the three, so it is not that of an unknown content
  have known : (smallPrimitives sum manifestSum events copied).sha256 served ≠ Bytes.zero 32 := by
    rw [same]
    rintro zero
    rw [← zero] at unknown
    rcases among original put with rfl | rfl | rfl
    · simp [first] at unknown
    · simp [second] at unknown
    · simp [third] at unknown
  have listed := mem_of_tableDigest known
  simpa using listed

/-- The exchanges of the write. -/
def hotWritten : List signature.Exchange :=
  (writeRun hotPrimitives hotDepot [hotRecord] hotWorld).1.map Prod.snd

/-- Stores that have other bytes under every key. -/
def overwriting : (op : Call) → op.Reply
  | .put _ _ _ => .error errNotFound
  | .openRef _ _ => .ok ⟨ascii "overwritten", none⟩
  | .now => (0 : Time)
  | .ctxErr => (none : Option GoError)
  | .restoreArchiveEvents _ _ => ((0 : Int), (none : Option GoError))

/-- A restore from them. -/
def overwritten : List signature.Exchange :=
  [⟨.openRef .archive hotReceipt.manifestRef, .ok ⟨ascii "overwritten", none⟩⟩]

def overwrittenOutcome : RestoreResult × Option GoError :=
  ({ archiveID := hotReceipt.manifest.id },
    some (errorsNew "trail/archive: manifest checksum verification failed"))

theorem read_overwritten :
    Stream.readLimited readBound ⟨ascii "overwritten", none⟩ = .ok (ascii "overwritten") :=
  Stream.readLimited_whole (by decide)

theorem sha256_overwritten : hotPrimitives.sha256 (ascii "overwritten") = Bytes.zero 32 := by
  decide

theorem overwritten_trace : (restore hotPrimitives [ascii "hot"] true hotReceipt 0 10).Trace
    overwritten (some overwrittenOutcome) := by
  have refused : hotPrimitives.sha256 (ascii "overwritten") ≠ hotReceipt.manifestRef.sha256 := by
    rw [sha256_overwritten]
    decide
  have played : (restore hotPrimitives [ascii "hot"] true hotReceipt 0 10).play overwriting =
      (overwritten, overwrittenOutcome) := by
    unfold restore readManifest
    simp only [Prog.bind, Prog.play, overwriting, read_overwritten, if_pos refused, overwritten,
      overwrittenOutcome, Bool.true_eq_false, if_false]
  have trace := Prog.play_trace overwriting (restore hotPrimitives [ascii "hot"] true hotReceipt 0 10)
  rwa [played] at trace

theorem overwritten_collisionFree : CollisionFree hotPrimitives hotWritten overwritten := by
  refine small_collisionFree (List.cons_ne_nil _ _) (by decide) (fun data put => ?_) _
  obtain ⟨_, _, _, put⟩ := put
  exact hot_written.2 (mem_putContents put)

theorem tamper_evident_overwritten :
    (restore hotPrimitives [ascii "hot"] true hotReceipt 0 10).Trace overwritten
      (some overwrittenOutcome) ∧
    ((overwrittenOutcome.2 ≠ none ∧ ∀ exchange ∈ overwritten, exchange.op.Quiet) ∨
      ∃ before restored, overwritten = before ++ [⟨.restoreArchiveEvents hotReceipt.manifest.id
          (chunk [hotRecord] 0 10), (restored, overwrittenOutcome.2)⟩] ∧
        (∀ exchange ∈ before, exchange.op.Quiet) ∧
        (overwrittenOutcome.2 = none → overwrittenOutcome.1.complete =
          decide ((([hotRecord] : List EventRecord).length : Int) ≤
            0 + (chunk [hotRecord] 0 10).length))) := by
  have evident := tamper_evident hotPrimitives hotDepot.writer (trace_of_run hot_written.1)
    (honest_execute hotPrimitives hotDepot _ hotWorld) hot_inverts overwritten_collisionFree 0 10
  exact ⟨overwritten_trace,
    (evident.2 [ascii "hot"] true _ overwritten_trace).2 overwrittenOutcome.1 overwrittenOutcome.2
      rfl⟩

end Trail.Archive
