/-
**What the archive reader checks.**

Each program of the archive is followed once, against an environment that may answer anything: what
a successful `Write` has put (`write_spec`), what `ReadManifest` and `ReadEvents` have verified when
they succeed (`readManifest_spec`, `readEvents_spec`). The lemmas are about every discipline that
leaves all calls but `RestoreArchiveEvents` free, so that they can be used within a restore.
-/

import Trail.Archive.Bundle

namespace Trail.Archive

open Library Payload Storage

/-- The events of a chunk. -/
def chunk {α : Type} (items : List α) (offset limit : Int) : List α :=
  (items.drop offset.toNat).take limit.toNat

/-- A call that passes no events on. -/
def Call.Quiet (op : Call) : Prop := ∀ archiveID events, op ≠ .restoreArchiveEvents archiveID events

/-- A discipline that restricts no call but `RestoreArchiveEvents`. -/
def Free (allow : List signature.Exchange → Call → Prop) : Prop :=
  ∀ history (op : Call), op.Quiet → allow history op

theorem Free.quiet {allow : List signature.Exchange → Call → Prop} (free : Free allow) :
    Free fun history op => allow history op ∧ op.Quiet :=
  fun history op quiet => ⟨free history op quiet, quiet⟩

/-- A call of the readers. -/
def Call.Reading : Call → Prop
  | .openRef _ _ => True
  | .ctxErr => True
  | _ => False

/-- A discipline that leaves the calls of the readers free. -/
def Reads (allow : List signature.Exchange → Call → Prop) : Prop :=
  ∀ history (op : Call), op.Reading → allow history op

theorem Call.Reading.quiet {op : Call} (reading : op.Reading) : op.Quiet := by
  rintro archiveID events rfl
  exact reading

theorem Free.reads {allow : List signature.Exchange → Call → Prop} (free : Free allow) :
    Reads allow :=
  fun history op reading => free history op reading.quiet

/-- A content that was put. -/
def PutIn (trace : List signature.Exchange) (data : List UInt8) : Prop :=
  ∃ place options reply, (⟨.put place ⟨data, none⟩ options, reply⟩ : signature.Exchange) ∈ trace

section Specs

variable (prim : Primitives) {allow : List signature.Exchange → Call → Prop} (free : Free allow)
  {history : List signature.Exchange}

/-! ### Writing -/

/-- The stores report the digest of what they are given. -/
def Honest (trace : List signature.Exchange) : Prop :=
  ∀ place content options ref,
    (⟨.put place content options, .ok ref⟩ : signature.Exchange) ∈ trace →
      ref.sha256 = prim.sha256 content.bytes

theorem encodeEvents_ok {events : List EventRecord} {lines : List (List UInt8)}
    (encoded : encodeEvents prim events = .ok lines) :
    List.Forall₂ (fun event line => prim.event.marshal event = .ok line) events lines := by
  induction events generalizing lines with
  | nil =>
    cases encoded
    exact .nil
  | cons event events ih =>
    unfold encodeEvents at encoded
    split at encoded
    · cases encoded
    · rename_i line marshalled
      split at encoded
      · cases encoded
      · rename_i lines rest
        cases encoded
        exact .cons marshalled (ih rest)

section Lines

variable {prim}

theorem forall_line {events : List EventRecord} {lines : List (List UInt8)} {holds : List UInt8 → Prop}
    (encoded : List.Forall₂ (fun event line => prim.event.marshal event = .ok line) events lines)
    (each : ∀ event ∈ events, ∀ line, prim.event.marshal event = .ok line → holds line) :
    ∀ line ∈ lines, holds line := by
  induction encoded with
  | nil => exact fun _ member => (List.not_mem_nil member).elim
  | @cons event line events lines marshalled encoded ih =>
    intro other member
    rcases List.mem_cons.mp member with rfl | later
    · exact each event (List.mem_cons_self ..) _ marshalled
    · exact ih (fun event among => each event (List.mem_cons_of_mem _ among)) other later

theorem line_mem {events : List EventRecord} {lines : List (List UInt8)} {event : EventRecord}
    {line : List UInt8}
    (encoded : List.Forall₂ (fun event line => prim.event.marshal event = .ok line) events lines)
    (member : event ∈ events) (marshalled : prim.event.marshal event = .ok line) : line ∈ lines := by
  induction encoded with
  | nil => exact (List.not_mem_nil member).elim
  | @cons first text events lines here encoded ih =>
    rcases List.mem_cons.mp member with rfl | later
    · rw [here] at marshalled
      cases marshalled
      exact List.mem_cons_self ..
    · exact List.mem_cons_of_mem _ (ih later)

end Lines

/-- Every entry of the manifest is the reference of a link, with the reference of a copy that has its
digest and its size; and every link that was not seen before has an entry under its key. -/
structure Copied (links : List PayloadLink) (seen : Finset GoString)
    (later : List signature.Exchange) (entries : List PayloadEntry) : Prop where
  source : ∀ entry ∈ entries, ∃ link ∈ links, entry.source = link.ref
  copy : ∀ entry ∈ entries, ∃ content : Stream,
    (⟨.put .archive content (sameOptions entry.source), .ok entry.archive⟩ : signature.Exchange) ∈ later ∧
      entry.archive.sha256 = entry.source.sha256 ∧ entry.archive.size = entry.source.size
  covers : ∀ link ∈ links, payloadKey link.ref ∉ seen →
    ∃ entry ∈ entries, payloadKey entry.source = payloadKey link.ref

include free in
theorem copyPayloads_spec (writer : BundleWriter) (links : List PayloadLink) (seen : Finset GoString)
    (entries : List PayloadEntry) :
    (copyPayloads prim writer links seen entries).Obeys allow history fun later value =>
      ∀ result, value = .ok result → ∃ more, result = entries ++ more ∧ Copied links seen later more := by
  induction links generalizing seen entries history with
  | nil =>
    rintro result ⟨⟩
    exact ⟨[], by simp, by simp, by simp, by simp⟩
  | cons link links ih =>
    unfold copyPayloads
    split
    · rename_i known
      refine (ih seen entries).mono ?_
      rintro later value spec result same
      obtain ⟨more, split, copied⟩ := spec result same
      refine ⟨more, split, fun entry member => ?_, copied.copy, fun other member fresh => ?_⟩
      · obtain ⟨source, among, equal⟩ := copied.source entry member
        exact ⟨source, List.mem_cons_of_mem _ among, equal⟩
      · rcases List.mem_cons.mp member with rfl | later
        · exact absurd known fresh
        · exact copied.covers other later fresh
    split
    · rintro result ⟨⟩
    · refine ⟨free _ _ (fun _ _ => Call.noConfusion), fun reply => ?_⟩
      rcases reply with error | reader
      · rintro result ⟨⟩
      · dsimp only
        split
        · rintro result ⟨⟩
        · rename_i content opened
          refine ⟨free _ _ (fun _ _ => Call.noConfusion), fun reply => ?_⟩
          rcases reply with error | archived
          · rintro result ⟨⟩
          · dsimp only
            split
            · rintro result ⟨⟩
            · rename_i verified
              push Not at verified
              refine ((ih _ _).longer).mono ?_
              rintro later value ⟨longer, spec⟩ result same
              obtain ⟨more, split, copied⟩ := spec result same
              refine ⟨⟨link.ref, archived⟩ :: more, by rw [split]; simp, ?_, ?_, ?_⟩
              · intro entry member
                rcases List.mem_cons.mp member with rfl | among
                · exact ⟨link, List.mem_cons_self .., rfl⟩
                · obtain ⟨source, inside, equal⟩ := copied.source entry among
                  exact ⟨source, List.mem_cons_of_mem _ inside, equal⟩
              · intro entry member
                rcases List.mem_cons.mp member with rfl | among
                · refine ⟨content, longer.subset ?_, verified⟩
                  exact List.mem_append_right _ (List.mem_singleton_self _)
                · exact copied.copy entry among
              · intro other member fresh
                by_cases same : payloadKey other.ref = payloadKey link.ref
                · exact ⟨_, List.mem_cons_self .., same.symm⟩
                · rcases List.mem_cons.mp member with rfl | inside
                  · exact absurd rfl same
                  · obtain ⟨entry, among, equal⟩ := copied.covers other inside fun seen => by
                      rcases Finset.mem_insert.mp seen with new | old
                      · exact same new
                      · exact fresh old
                    exact ⟨entry, List.mem_cons_of_mem _ among, equal⟩

/-- What a successful `Write` has done. -/
structure Written (events : List EventRecord) (trace : List signature.Exchange) (receipt : Receipt)
    (lines : List (List UInt8)) (data : List UInt8) : Prop where
  nonempty : events ≠ []
  encoded : List.Forall₂ (fun event line => prim.event.marshal event = .ok line) events lines
  eventsPut : (⟨.put .archive ⟨joinLines lines, none⟩ eventOptions, .ok receipt.manifest.events⟩ :
    signature.Exchange) ∈ trace
  copied : Copied (events.flatMap (·.payloads)) ∅ trace receipt.manifest.payloads
  manifest : ∃ createdAt, receipt.manifest =
    { baseManifest prim events (joinLines lines) receipt.manifest.events createdAt with
      payloads := receipt.manifest.payloads }
  marshalled : prim.manifest.marshal receipt.manifest = .ok data
  manifestPut : (⟨.put .archive ⟨data, none⟩ manifestOptions, .ok receipt.manifestRef⟩ :
    signature.Exchange) ∈ trace

include free in
theorem writeManifest_spec (manifest : Manifest) :
    (writeManifest prim manifest).Obeys allow history fun later value =>
      ∀ receipt, value = .ok receipt → receipt.manifest = manifest ∧
        ∃ data, prim.manifest.marshal manifest = .ok data ∧
          (⟨.put .archive ⟨data, none⟩ manifestOptions, .ok receipt.manifestRef⟩ :
            signature.Exchange) ∈ later := by
  unfold writeManifest
  split
  · rintro receipt ⟨⟩
  · rename_i data marshalled
    refine ⟨free _ _ (fun _ _ => Call.noConfusion), fun reply => ?_⟩
    rcases reply with error | manifestRef
    · rintro receipt ⟨⟩
    · refine ⟨free _ _ (fun _ _ => Call.noConfusion), fun reply => ?_⟩
      rcases reply with error | opened
      · rintro receipt ⟨⟩
      · dsimp only
        split
        · rintro receipt ⟨⟩
          exact ⟨rfl, data, marshalled, by simp⟩
        · rintro receipt ⟨⟩

include free in
theorem write_spec (writer : BundleWriter) (events : List EventRecord) :
    (write prim writer events).Obeys allow history fun later value =>
      ∀ receipt, value = .ok receipt →
        ∃ lines data, Written prim events later receipt lines data := by
  unfold write
  split
  · rintro receipt ⟨⟩
  rename_i nonempty
  split
  · rintro receipt ⟨⟩
  rename_i lines encoded
  refine ⟨free _ _ (fun _ _ => Call.noConfusion), fun reply => ?_⟩
  rcases reply with error | eventRef
  · rintro receipt ⟨⟩
  refine ⟨free _ _ (fun _ _ => Call.noConfusion), fun createdAt => ?_⟩
  refine Prog.obeys_bind ((copyPayloads_spec prim free writer _ ∅ []).longer.mono ?_)
  rintro copies (error | payloads) ⟨longer, copied⟩
  · rintro receipt ⟨⟩
  · obtain ⟨more, same, copied⟩ := copied payloads rfl
    rw [List.nil_append] at same
    subst same
    refine ((writeManifest_spec prim free _).longer).mono ?_
    rintro later value ⟨further, spec⟩ receipt done
    obtain ⟨manifest, data, marshalled, put⟩ := spec receipt done
    refine ⟨lines, data, nonempty, encodeEvents_ok prim encoded, further.subset (longer.subset ?_),
      ⟨?_, ?_, ?_⟩, ⟨createdAt, ?_⟩, ?_, put⟩
    · rw [manifest]
      simp [baseManifest]
    · rw [manifest]
      exact copied.source
    · rw [manifest]
      intro entry member
      obtain ⟨content, made, verified⟩ := copied.copy entry member
      exact ⟨content, further.subset made, verified⟩
    · rw [manifest]
      exact copied.covers
    · rw [manifest]
      rfl
    · rw [manifest]
      exact marshalled

/-- **What a successful `Write` has done.** -/
theorem write_written {writer : BundleWriter} {events : List EventRecord} {receipt : Receipt}
    {trace : List signature.Exchange}
    (wrote : (write prim writer events).Trace trace (some (.ok receipt))) :
    ∃ lines data, Written prim events trace receipt lines data := by
  have everything : Free fun _ _ => True := fun _ _ _ => trivial
  exact ((@write_spec prim _ everything [] writer events).trace wrote).2 _ rfl receipt rfl

/-! ### Reading -/

variable (reads : Reads allow)

/-- What `ReadManifest` has verified. -/
structure ManifestRead (place : Place) (ref : Ref) (trace : List signature.Exchange)
    (manifest : Manifest) (data : List UInt8) : Prop where
  served : ∃ reader : Stream,
    (⟨.openRef place ref, .ok reader⟩ : signature.Exchange) ∈ trace ∧
      reader.readLimited readBound = .ok data
  checksum : prim.sha256 data = ref.sha256
  decoded : prim.manifest.unmarshal data = .ok manifest

include reads in
theorem readManifest_spec (place : Place) (ref : Ref) :
    (readManifest prim (some place) ref).Obeys allow history fun later value =>
      ∀ manifest, value = .ok manifest → ∃ data, ManifestRead prim place ref later manifest data := by
  refine ⟨reads _ _ trivial, fun reply => ?_⟩
  rcases reply with error | reader
  · rintro manifest ⟨⟩
  · dsimp only
    split
    · rintro manifest ⟨⟩
    rename_i data limited
    split
    · rintro manifest ⟨⟩
    rename_i checksum
    split
    · rintro manifest ⟨⟩
    rename_i decoded unmarshalled
    split
    · rintro manifest ⟨⟩
    · rintro manifest ⟨⟩
      exact ⟨data, ⟨reader, by simp, limited⟩, not_not.mp checksum, unmarshalled⟩

/-- What lies in the window of `ReadEvents`, from a position with so many events read. -/
def windowFrom {α : Type} (offset limit : Int) (index read : Nat) (items : List α) : List α :=
  (items.drop (offset - index).toNat).take (limit - read).toNat

theorem windowFrom_zero {α : Type} (offset limit : Int) (items : List α) :
    windowFrom offset limit 0 0 items = chunk items offset limit := by
  simp [windowFrom, chunk]

theorem windowFrom_take {α : Type} {offset limit : Int} {index read : Nat} (item : α)
    (items : List α) (reached : offset ≤ index) (room : (read : Int) < limit) :
    windowFrom offset limit index read (item :: items) =
      item :: windowFrom offset limit (index + 1) (read + 1) items := by
  have start : (offset - index).toNat = 0 := by omega
  have later : (offset - ((index + 1 : Nat) : Int)).toNat = 0 := by omega
  have left : (limit - read).toNat = (limit - ((read + 1 : Nat) : Int)).toNat + 1 := by omega
  rw [windowFrom, windowFrom, start, later, left, List.drop_zero, List.drop_zero, List.take_succ_cons]

theorem windowFrom_skip {α : Type} {offset limit : Int} {index read : Nat} (item : α)
    (items : List α) (outside : ¬ (offset ≤ index ∧ (read : Int) < limit)) :
    windowFrom offset limit index read (item :: items) =
      windowFrom offset limit (index + 1) read items := by
  rw [windowFrom, windowFrom]
  by_cases before : (index : Int) < offset
  · have gap : (offset - index).toNat = (offset - ((index + 1 : Nat) : Int)).toNat + 1 := by omega
    rw [gap, List.drop_succ_cons]
  · have full : (limit - read).toNat = 0 := by omega
    rw [full, List.take_zero, List.take_zero]

/-- A line with the event it decodes to. -/
def Decodes (line : List UInt8) (event : EventRecord) : Prop :=
  prim.event.unmarshal line = .ok event

include reads in
/-- **The loop over the lines** counts them all and decodes those of the window. -/
theorem readLines_spec (offset limit : Int) (lines : List (List UInt8)) (index : Nat)
    (result : List EventRecord) :
    (readLines prim offset limit lines index result).Obeys allow history fun _ value =>
      ∀ count events, value = .ok (count, events) → count = index + lines.length ∧
        ∃ more, events = result ++ more ∧
          List.Forall₂ (Decodes prim) (windowFrom offset limit index result.length lines) more := by
  induction lines generalizing index result history with
  | nil =>
    rintro count events ⟨⟩
    refine ⟨rfl, [], by simp, ?_⟩
    simp [windowFrom]
  | cons line lines ih =>
    refine ⟨reads _ _ trivial, fun reply => ?_⟩
    rcases reply with _ | error
    · dsimp only
      split
      · rename_i inside
        split
        · rintro count events ⟨⟩
        · rename_i event decoded
          refine (ih (index + 1) (result ++ [event])).mono ?_
          intro later value spec count events same
          obtain ⟨counted, more, split, window⟩ := spec count events same
          refine ⟨by rw [counted, List.length_cons]; omega, event :: more, ?_, ?_⟩
          · rw [split, List.append_assoc, List.singleton_append]
          · rw [windowFrom_take line lines inside.1 inside.2]
            rw [List.length_append, List.length_singleton] at window
            exact .cons decoded window
      · rename_i outside
        refine (ih (index + 1) result).mono ?_
        intro later value spec count events same
        obtain ⟨counted, more, split, window⟩ := spec count events same
        refine ⟨by rw [counted, List.length_cons]; omega, more, split, ?_⟩
        rwa [windowFrom_skip line lines outside]
    · rintro count events ⟨⟩

/-- What `ReadEvents` has verified. -/
structure EventsRead (place : Place) (manifest : Manifest) (offset limit : Int)
    (trace : List signature.Exchange) (logical : Stream) (events : List EventRecord)
    (complete : Bool) : Prop where
  bounds : 0 ≤ offset ∧ 1 ≤ limit ∧ limit ≤ 10000
  served : ∃ reader : Stream,
    (⟨.openRef place manifest.events, .ok reader⟩ : signature.Exchange) ∈ trace ∧
      prim.gzip.logical manifest.events.compression reader = .ok logical
  short : (scan readBound logical.bytes).2 = false
  checksum : prim.sha256 logical.bytes = manifest.events.sha256
  decoded : List.Forall₂ (Decodes prim) (chunk (scan readBound logical.bytes).1 offset limit) events
  complete_iff : complete = decide (manifest.eventCount ≤ offset + events.length)

theorem verifyEvents_ok {manifest : Manifest} {offset : Int} {logical : Stream} {tooLong complete : Bool}
    {index : Nat} {result events : List EventRecord}
    (verified : verifyEvents prim manifest offset logical tooLong index result =
      .ok (events, complete)) :
    tooLong = false ∧ logical.failure = none ∧ (index : Int) = manifest.eventCount ∧
      prim.sha256 logical.bytes = manifest.events.sha256 ∧ events = result ∧
      complete = decide (manifest.eventCount ≤ offset + result.length) := by
  unfold verifyEvents at verified
  split at verified
  · cases verified
  rename_i short
  split at verified
  · cases verified
  rename_i ends
  split at verified
  · cases verified
  rename_i counted
  split at verified
  · cases verified
  rename_i checksum
  cases verified
  exact ⟨by simpa using short, ends, not_not.mp counted, not_not.mp checksum, rfl, rfl⟩

include reads in
theorem readEvents_spec (place : Place) (manifest : Manifest) (offset limit : Int) :
    (readEvents prim (some place) manifest offset limit).Obeys allow history fun later value =>
      ∀ events complete, value = .ok (events, complete) →
        ∃ logical, EventsRead prim place manifest offset limit later logical events complete := by
  unfold readEvents
  dsimp only
  split
  · rintro events complete ⟨⟩
  rename_i bounds
  refine ⟨reads _ _ trivial, fun reply => ?_⟩
  rcases reply with error | reader
  · rintro events complete ⟨⟩
  dsimp only
  split
  · rintro events complete ⟨⟩
  rename_i logical opened
  refine Prog.obeys_bind ((readLines_spec prim reads offset limit _ 0 []).longer.mono ?_)
  rintro later (error | ⟨index, result⟩) ⟨longer, spec⟩
  · rintro events complete ⟨⟩
  · intro events complete same
    obtain ⟨_, more, split, window⟩ := spec index result rfl
    rw [List.nil_append] at split
    subst split
    obtain ⟨short, _, _, checksum, rfl, complete⟩ := verifyEvents_ok prim same
    refine ⟨logical, by omega, ⟨reader, longer.subset (by simp), opened⟩, short, checksum, ?_,
      complete⟩
    rwa [List.length_nil, windowFrom_zero] at window

end Specs

end Trail.Archive
