/-
**Payload references through the fields of an event.**

`Ref.fields` writes a reference as up to nine fields of an event, and `normalizeEvent` collects the
fields of each role into a link. The fields of several references may come in any order and among
other fields.

* `applyField_links`: what one field does to the links.
* `set_partial`: a link that has some parts of a reference gets one more.
* `link_of_fields`: after all fields, the link of a role has the whole reference.
* `normalize_payloads`: the links of every event of an envelope.
* `payload_fields_round_trip`: a reference comes back in every attribute.
* `retention_promise_iff`: the instant a reference is kept until comes back no earlier, up to the last
  one that nanoseconds count in 64 bits.
-/

import Trail.Retention.Engine
import Trail.Storage.Normalize

namespace Trail.Storage

open Library Payload

/-! ### The parts of a reference -/

/-- What follows the role in the key of a field. -/
inductive Part
  | store
  | key
  | contentType
  | size
  | storedSize
  | sha256
  | compression
  | retainUntil
  | retentionClass
  deriving DecidableEq, Repr

namespace Part

def text : Part → GoString
  | store => ascii "store"
  | key => ascii "key"
  | contentType => ascii "content_type"
  | size => ascii "size"
  | storedSize => ascii "stored_size"
  | sha256 => ascii "sha256"
  | compression => ascii "compression"
  | retainUntil => ascii "retain_until_unix_nano"
  | retentionClass => ascii "retention_class"

def all : List Part :=
  [store, key, contentType, size, storedSize, sha256, compression, retainUntil, retentionClass]

theorem mem_all (part : Part) : part ∈ all := by
  cases part <;> decide

theorem text_inj {first second : Part} (same : first.text = second.text) : first = second := by
  have each : ∀ first ∈ all, ∀ second ∈ all, first.text = second.text → first = second := by
    decide
  exact each first (mem_all first) second (mem_all second) same

/-- The key of the part in the fields of a role. -/
def fieldKey (role : GoString) (part : Part) : GoString :=
  ascii "payload." ++ role ++ ascii "." ++ part.text

/-- The parts that `Ref.fields` sends: the last three only when they are set. -/
def sent (ref : Ref) : Part → Bool
  | compression => ref.compression ≠ compressionNone
  | retainUntil => ref.retainUntil ≠ zeroTime
  | retentionClass => ref.retentionClass ≠ []
  | _ => true

/-- The field by which a part is sent. -/
def toField (ref : Ref) (role : GoString) : Part → Wire.Field
  | store => ⟨fieldKey role store, ascii "string", ref.store, 0⟩
  | key => ⟨fieldKey role key, ascii "string", ref.key, 0⟩
  | contentType => ⟨fieldKey role contentType, ascii "string", ref.contentType, 0⟩
  | size => ⟨fieldKey role size, ascii "int64", [], ref.size.toUInt64⟩
  | storedSize => ⟨fieldKey role storedSize, ascii "int64", [], ref.storedSize.toUInt64⟩
  | sha256 => ⟨fieldKey role sha256, ascii "string", Hex.encodeToString ref.sha256.1, 0⟩
  | compression => ⟨fieldKey role compression, ascii "string", ref.compression, 0⟩
  | retainUntil =>
    ⟨fieldKey role retainUntil, ascii "int64", [], (Int64.ofInt ref.retainUntil).toUInt64⟩
  | retentionClass => ⟨fieldKey role retentionClass, ascii "string", ref.retentionClass, 0⟩

theorem key_toField (ref : Ref) (role : GoString) (part : Part) :
    (toField ref role part).key = fieldKey role part := by
  cases part <;> rfl

end Part

/-- The fields of a reference on the wire. -/
def refFields (role : GoString) (ref : Ref) : List Wire.Field :=
  ((ref.fields role).filterMap LogOption.field?).map Wire.fromField

theorem filter_sent (ref : Ref) :
    Part.all.filter (Part.sent ref) =
      [.store, .key, .contentType, .size, .storedSize, .sha256] ++
        (if ref.compression ≠ compressionNone then [.compression] else []) ++
        (if ref.retainUntil ≠ zeroTime then [.retainUntil] else []) ++
        (if ref.retentionClass ≠ [] then [.retentionClass] else []) := by
  simp only [Part.all, List.filter_cons, Part.sent, List.filter_nil, decide_eq_true_eq, if_true]
  split_ifs <;> rfl

theorem refFields_eq (role : GoString) (ref : Ref) :
    refFields role ref = (Part.all.filter (Part.sent ref)).map (Part.toField ref role) := by
  have optional : ∀ {condition : Prop} [Decidable condition] {option : LogOption} {part : Part},
      ([option].filterMap LogOption.field?).map Wire.fromField = [Part.toField ref role part] →
      ((if condition then [option] else []).filterMap LogOption.field?).map Wire.fromField =
        (if condition then [part] else []).map (Part.toField ref role) := by
    intro condition _ option part one
    split
    · exact one
    · rfl
  rw [filter_sent]
  unfold refFields Ref.fields
  simp only [List.filterMap_append, List.map_append]
  refine congrArg₂ _ (congrArg₂ _ (congrArg₂ _ rfl ?_) ?_) ?_
  · exact optional rfl
  · exact optional rfl
  · exact optional rfl

theorem mem_refFields {role : GoString} {ref : Ref} {field : Wire.Field} :
    field ∈ refFields role ref ↔
      ∃ part : Part, part.sent ref = true ∧ part.toField ref role = field := by
  rw [refFields_eq, List.mem_map]
  simp only [List.mem_filter, Part.mem_all, true_and]

/-! ### Keys -/

theorem trimPrefix_append (start text : GoString) : trimPrefix (start ++ text) start = text := by
  unfold trimPrefix
  rw [if_pos (List.isPrefixOf_iff_prefix.mpr (List.prefix_append start text)), List.drop_left]

theorem splitDot_append {role : GoString} (plain : 46 ∉ role) (rest : GoString) :
    splitDot (role ++ 46 :: rest) = [role, rest] := by
  have position : (role ++ 46 :: rest).idxOf? 46 = some role.length := by
    induction role with
    | nil => simp [List.idxOf?_cons]
    | cons byte role ih =>
      have other : ¬ byte = 46 := fun same => plain (same ▸ List.mem_cons_self)
      have tail := ih fun member => plain (List.mem_cons_of_mem _ member)
      simp [List.idxOf?_cons, other, tail]
  unfold splitDot
  rw [position]
  simp

theorem splitDot_fieldKey {role : GoString} (plain : 46 ∉ role) (part : Part) :
    splitDot (trimPrefix (Part.fieldKey role part) (ascii "payload.")) = [role, part.text] := by
  have dot : ascii "." = [46] := by decide
  unfold Part.fieldKey
  rw [List.append_assoc, List.append_assoc, trimPrefix_append, dot, List.singleton_append,
    splitDot_append plain]

theorem fieldKey_inj {role role' : GoString} (plain : 46 ∉ role) (plain' : 46 ∉ role')
    {part part' : Part} (same : Part.fieldKey role part = Part.fieldKey role' part') :
    role = role' ∧ part = part' := by
  have split := splitDot_fieldKey plain part
  rw [same, splitDot_fieldKey plain' part'] at split
  obtain ⟨roles, rest⟩ := List.cons.inj split
  exact ⟨roles.symm, Part.text_inj (List.cons.inj rest).1.symm⟩

/-! ### What one field does to the links -/

/-- The fields that `applyPayloadField` gets. -/
def isPayload (field : Wire.Field) : Bool := (ascii "payload.").isPrefixOf field.key

theorem links_ite {condition : Prop} [Decidable condition] {links : Table GoString PayloadLink}
    {yes no : EventRecord × Table GoString PayloadLink} (first : condition → yes.2 = links)
    (second : no.2 = links) : (if condition then yes else no).2 = links := by
  split
  · rename_i holds
    exact first holds
  · exact second

theorem applyField_links (state : EventRecord × Table GoString PayloadLink) (field : Wire.Field) :
    (applyField state field).2 =
      if isPayload field then applyPayloadField state.2 field else state.2 := by
  -- no conventional key is that of a payload
  have conventional : ∀ key, (ascii "payload.").isPrefixOf key = false → field.key = key →
      state.2 = if isPayload field then applyPayloadField state.2 field else state.2 := by
    intro key free same
    unfold isPayload
    rw [same, free, if_neg Bool.false_ne_true]
  unfold applyField
  iterate 16 refine links_ite (conventional _ (by decide)) ?_
  dsimp only
  unfold isPayload
  split <;> rfl

theorem foldl_applyField_links (fields : List Wire.Field) :
    ∀ state, (fields.foldl applyField state).2 =
      (fields.filter isPayload).foldl applyPayloadField state.2 := by
  induction fields with
  | nil =>
    intro state
    rfl
  | cons field fields ih =>
    intro state
    rw [List.foldl_cons, ih, applyField_links, List.filter_cons]
    split <;> rfl

/-! ### The link of a role -/

/-- What a field does to the link of its role, by the part. -/
def Part.set (link : PayloadLink) (field : Wire.Field) : Part → PayloadLink
  | store => { link with ref := { link.ref with store := field.text } }
  | key => { link with ref := { link.ref with key := field.text } }
  | contentType => { link with ref := { link.ref with contentType := field.text } }
  | size => { link with ref := { link.ref with size := field.num.toInt64 } }
  | storedSize => { link with ref := { link.ref with storedSize := field.num.toInt64 } }
  | sha256 =>
    match Hex.decodeString field.text with
    | none => link
    | some decoded =>
      if size : decoded.length = 32 then
        { link with ref := { link.ref with sha256 := ⟨decoded, size⟩ } }
      else link
  | compression => { link with ref := { link.ref with compression := field.text } }
  | retainUntil => { link with ref := { link.ref with retainUntil := field.num.toInt64.toInt } }
  | retentionClass => { link with ref := { link.ref with retentionClass := field.text } }

theorem setPayload_text (link : PayloadLink) (part : Part) (field : Wire.Field) :
    setPayload link part.text field = part.set link field := by
  have same : ∀ other : Part, (part.text = other.text) = (part = other) := fun other =>
    propext ⟨Part.text_inj, congrArg Part.text⟩
  have store : (part.text = ascii "store") = (part = .store) := same .store
  have key : (part.text = ascii "key") = (part = .key) := same .key
  have contentType : (part.text = ascii "content_type") = (part = .contentType) := same .contentType
  have size : (part.text = ascii "size") = (part = .size) := same .size
  have storedSize : (part.text = ascii "stored_size") = (part = .storedSize) := same .storedSize
  have sha256 : (part.text = ascii "sha256") = (part = .sha256) := same .sha256
  have compression : (part.text = ascii "compression") = (part = .compression) := same .compression
  have retainUntil : (part.text = ascii "retain_until_unix_nano") = (part = .retainUntil) :=
    same .retainUntil
  have retentionClass : (part.text = ascii "retention_class") = (part = .retentionClass) :=
    same .retentionClass
  simp only [setPayload, store, key, contentType, size, storedSize, sha256, compression, retainUntil,
    retentionClass]
  cases part <;> rfl

/-- The link of a role when the parts seen so far have been read. -/
def partialLink (role : GoString) (ref : Ref) (seen : Part → Bool) : PayloadLink where
  role := role
  ref :=
    { store := if seen .store then ref.store else []
      key := if seen .key then ref.key else []
      contentType := if seen .contentType then ref.contentType else []
      size := if seen .size then ref.size else 0
      storedSize := if seen .storedSize then ref.storedSize else 0
      sha256 := if seen .sha256 then ref.sha256 else Bytes.zero 32
      compression := if seen .compression then ref.compression else compressionNone
      retainUntil := if seen .retainUntil then (Int64.ofInt ref.retainUntil).toInt else zeroTime
      retentionClass := if seen .retentionClass then ref.retentionClass else [] }

/-- **One more part of a reference.** -/
theorem set_partial (role : GoString) (ref : Ref) (seen : Part → Bool) (part : Part) :
    part.set (partialLink role ref seen) (part.toField ref role) =
      partialLink role ref fun other => decide (other = part) || seen other := by
  cases part with
  | sha256 =>
    have decoded : Hex.decodeString (Part.toField ref role .sha256).text = some ref.sha256.1 :=
      Hex.decodeString_encodeToString ref.sha256.1
    unfold Part.set
    rw [decoded]
    dsimp only
    rw [dif_pos ref.sha256.2]
    rfl
  | _ => rfl

/-- The reference that is read from the fields of one: nanoseconds are counted in 64 bits. -/
def received (ref : Ref) : Ref :=
  { ref with
    retainUntil := if ref.retainUntil = zeroTime then zeroTime else (Int64.ofInt ref.retainUntil).toInt }

theorem partial_sent (role : GoString) (ref : Ref) :
    partialLink role ref (Part.sent ref) = { role := role, ref := received ref } := by
  obtain ⟨store, key, contentType, size, storedSize, sha256, compression, retainUntil, retentionClass⟩ :=
    ref
  simp only [partialLink, received, Part.sent, if_true, PayloadLink.mk.injEq, Ref.mk.injEq,
    decide_eq_true_eq, ne_eq, ite_not, true_and, and_true]
  refine ⟨?_, ?_⟩
  · split
    · rename_i none
      exact none.symm
    · rfl
  · split
    · rename_i none
      exact none.symm
    · rfl

/-! ### All fields -/

/-- References by their roles: different roles, none of them empty or with a dot. -/
structure Roles (pairs : List (GoString × Ref)) : Prop where
  distinct : (pairs.map Prod.fst).Nodup
  named : ∀ pair ∈ pairs, pair.1 ≠ []
  plain : ∀ pair ∈ pairs, 46 ∉ pair.1

/-- The parts of a reference whose fields have been read. -/
def seenIn (role : GoString) (ref : Ref) (done : List Wire.Field) (part : Part) : Bool :=
  part.sent ref && decide (part.toField ref role ∈ done)

/-- The links after some fields of the references: each has the parts that were read. -/
structure Collected (pairs : List (GoString × Ref)) (done : List Wire.Field)
    (links : Table GoString PayloadLink) : Prop where
  here : ∀ pair ∈ pairs, links.lookup pair.1 =
    if Part.all.any (seenIn pair.1 pair.2 done) then
      some (partialLink pair.1 pair.2 (seenIn pair.1 pair.2 done)) else none
  only : ∀ role ∈ links, ∃ pair ∈ pairs, pair.1 = role

section Collected

variable {pairs : List (GoString × Ref)} {done : List Wire.Field} {links : Table GoString PayloadLink}

theorem Roles.eq_of_role (roles : Roles pairs) {pair other : GoString × Ref} (member : pair ∈ pairs)
    (among : other ∈ pairs) (same : pair.1 = other.1) : pair = other :=
  List.inj_on_of_nodup_map roles.distinct member among same

theorem collected_nil : Collected pairs [] ∅ where
  here := by
    intro pair _
    have none : Part.all.any (seenIn pair.1 pair.2 []) = false := by
      simp [seenIn]
    rw [none]
    rfl
  only := fun role member => (AList.notMem_empty role member).elim

theorem applyPayloadField_toField (roles : Roles pairs) {pair : GoString × Ref} (member : pair ∈ pairs)
    (part : Part) (links : Table GoString PayloadLink) :
    applyPayloadField links (part.toField pair.2 pair.1) =
      links.insert pair.1 (part.set ((links.lookup pair.1).getD { role := pair.1 })
        (part.toField pair.2 pair.1)) := by
  unfold applyPayloadField
  rw [Part.key_toField, splitDot_fieldKey (roles.plain pair member)]
  dsimp only
  rw [if_neg (roles.named pair member), setPayload_text]

theorem Roles.toField_inj (roles : Roles pairs) {pair other : GoString × Ref} (member : pair ∈ pairs)
    (among : other ∈ pairs) {part part' : Part}
    (same : part'.toField other.2 other.1 = part.toField pair.2 pair.1) :
    other = pair ∧ part' = part := by
  have keys := congrArg Wire.Field.key same
  rw [Part.key_toField, Part.key_toField] at keys
  obtain ⟨role, part⟩ := fieldKey_inj (roles.plain other among) (roles.plain pair member) keys
  exact ⟨roles.eq_of_role among member role, part⟩

theorem Roles.seenIn_cons (roles : Roles pairs) {pair other : GoString × Ref} (member : pair ∈ pairs)
    (among : other ∈ pairs) {part : Part} (sent : part.sent pair.2 = true) (done : List Wire.Field)
    (wanted : Part) :
    seenIn other.1 other.2 (part.toField pair.2 pair.1 :: done) wanted =
      (decide (other = pair ∧ wanted = part) || seenIn other.1 other.2 done wanted) := by
  unfold seenIn
  by_cases this : other = pair ∧ wanted = part
  · obtain ⟨rfl, rfl⟩ := this
    simp [sent]
  · have apart : wanted.toField other.2 other.1 ≠ part.toField pair.2 pair.1 :=
      fun same => this (roles.toField_inj member among same)
    rw [decide_eq_false this, Bool.false_or]
    simp [apart]

/-- **One field of a reference.** -/
theorem Collected.step (roles : Roles pairs) (collected : Collected pairs done links)
    {pair : GoString × Ref} (member : pair ∈ pairs) {part : Part} (sent : part.sent pair.2 = true) :
    Collected pairs (part.toField pair.2 pair.1 :: done)
      (applyPayloadField links (part.toField pair.2 pair.1)) := by
  rw [applyPayloadField_toField roles member]
  constructor
  case here =>
    intro other among
    have seen := roles.seenIn_cons member among sent done
    by_cases same : other = pair
    · subst same
      have now : seenIn other.1 other.2 (part.toField other.2 other.1 :: done) =
          fun wanted => decide (wanted = part) || seenIn other.1 other.2 done wanted := by
        funext wanted
        rw [seen]
        simp
      have before : (links.lookup other.1).getD { role := other.1 } =
          partialLink other.1 other.2 (seenIn other.1 other.2 done) := by
        rw [collected.here other among]
        split
        · rfl
        · rename_i none
          have unread : seenIn other.1 other.2 done = fun _ => false := by
            funext wanted
            have each := List.any_eq_false.mp (Bool.eq_false_iff.mpr none)
            exact Bool.eq_false_iff.mpr (each wanted (Part.mem_all wanted))
          rw [unread]
          rfl
      have some : Part.all.any (seenIn other.1 other.2 (part.toField other.2 other.1 :: done)) = true := by
        refine List.any_eq_true.mpr ⟨part, Part.mem_all part, ?_⟩
        rw [now]
        simp
      rw [AList.lookup_insert, if_pos some, before, set_partial, now]
    · have kept : seenIn other.1 other.2 (part.toField pair.2 pair.1 :: done) =
          seenIn other.1 other.2 done := by
        funext wanted
        rw [seen, decide_eq_false fun this => same this.1, Bool.false_or]
      have role : other.1 ≠ pair.1 := fun equal => same (roles.eq_of_role among member equal)
      rw [AList.lookup_insert_ne role, kept]
      exact collected.here other among
  case only =>
    intro role present
    rcases AList.mem_insert _ |>.mp present with rfl | old
    · exact ⟨pair, member, rfl⟩
    · exact collected.only role old

/-- **Some fields of the references**, in any order. -/
theorem Collected.run (roles : Roles pairs) {fields : List Wire.Field}
    (each : ∀ field ∈ fields, ∃ pair ∈ pairs, field ∈ refFields pair.1 pair.2)
    (collected : Collected pairs done links) :
    Collected pairs (fields.reverse ++ done) (fields.foldl applyPayloadField links) := by
  induction fields generalizing done links with
  | nil => exact collected
  | cons field fields ih =>
    obtain ⟨pair, member, among⟩ := each field List.mem_cons_self
    obtain ⟨part, sent, rfl⟩ := mem_refFields.mp among
    have rest := ih (fun other later => each other (List.mem_cons_of_mem _ later))
      (collected.step roles member sent)
    rw [List.reverse_cons, List.append_assoc]
    exact rest

/-- **All fields of the references**: the links are those of the references. -/
theorem link_of_fields (roles : Roles pairs) {fields : List Wire.Field}
    (all : ∀ field, field ∈ fields ↔ ∃ pair ∈ pairs, field ∈ refFields pair.1 pair.2) :
    (∀ pair ∈ pairs, (fields.foldl applyPayloadField ∅).lookup pair.1 =
        some { role := pair.1, ref := received pair.2 }) ∧
      ∀ role, role ∈ fields.foldl applyPayloadField ∅ ↔ role ∈ pairs.map Prod.fst := by
  have collected := collected_nil.run roles fun field member => (all field).mp member
  have found : ∀ pair ∈ pairs, (fields.foldl applyPayloadField ∅).lookup pair.1 =
      some { role := pair.1, ref := received pair.2 } := by
    intro pair member
    have seen : seenIn pair.1 pair.2 (fields.reverse ++ []) = Part.sent pair.2 := by
      funext part
      unfold seenIn
      cases sent : part.sent pair.2 with
      | false => rfl
      | true =>
        have present := (all _).mpr ⟨pair, member, mem_refFields.mpr ⟨part, sent, rfl⟩⟩
        simp [present]
    have some : Part.all.any (Part.sent pair.2) = true :=
      List.any_eq_true.mpr ⟨.store, Part.mem_all _, rfl⟩
    rw [collected.here pair member, seen, if_pos some, partial_sent]
  refine ⟨found, fun role => ⟨fun member => ?_, fun member => ?_⟩⟩
  · obtain ⟨pair, among, rfl⟩ := collected.only role member
    exact List.mem_map_of_mem among
  · obtain ⟨pair, among, rfl⟩ := List.mem_map.mp member
    exact Table.mem_of_lookup (found pair among)

end Collected

/-! ### The links of an event -/

/-- The link of a reference that was read from its fields. -/
def receivedLink (pair : GoString × Ref) : PayloadLink := { role := pair.1, ref := received pair.2 }

theorem payloadsOf_links {pairs : List (GoString × Ref)} {links : Table GoString PayloadLink}
    (distinct : (pairs.map Prod.fst).Nodup)
    (found : ∀ pair ∈ pairs, links.lookup pair.1 = some (receivedLink pair))
    (only : ∀ role, role ∈ links ↔ role ∈ pairs.map Prod.fst)
    (kept : ∀ pair ∈ pairs, pair.2.store ≠ [] ∨ pair.2.key ≠ []) :
    (payloadsOf links).Perm (pairs.map receivedLink) ∧
      (payloadsOf links).Pairwise fun first second => first.role < second.role := by
  have keys : (links.keys.insertionSort (· ≤ ·)).Perm (pairs.map Prod.fst) :=
    (List.perm_insertionSort _ _).trans ((List.perm_ext_iff_of_nodup links.nodupKeys distinct).mpr only)
  have looked : (pairs.map Prod.fst).filterMap links.lookup = pairs.map receivedLink := by
    rw [List.filterMap_map, ← List.filterMap_eq_map]
    exact List.filterMap_congr found
  have sorted : (links.keys.insertionSort (· ≤ ·)).Pairwise (· < ·) := by
    have weak : (links.keys.insertionSort (· ≤ ·)).Pairwise (· ≤ ·) :=
      List.pairwise_insertionSort _ _
    have unequal : (links.keys.insertionSort (· ≤ ·)).Nodup := keys.nodup_iff.mpr distinct
    exact (weak.and unequal).imp fun both =>
      (List.le_iff_lt_or_eq.mp both.1).resolve_right both.2
  have links' : ((links.keys.insertionSort (· ≤ ·)).filterMap links.lookup).Perm
      (pairs.map receivedLink) := looked ▸ keys.filterMap _
  have all : ∀ link ∈ (links.keys.insertionSort (· ≤ ·)).filterMap links.lookup,
      link.ref.store ≠ [] ∨ link.ref.key ≠ [] ∨ link.error ≠ [] := by
    intro link member
    obtain ⟨pair, among, rfl⟩ := List.mem_map.mp (links'.mem_iff.mp member)
    rcases kept pair among with store | key
    · exact .inl store
    · exact .inr (.inl key)
  have whole : payloadsOf links = (links.keys.insertionSort (· ≤ ·)).filterMap links.lookup :=
    List.filter_eq_self.mpr fun link member => decide_eq_true (all link member)
  rw [whole]
  refine ⟨links', ?_⟩
  rw [List.pairwise_filterMap]
  refine sorted.imp_of_mem ?_
  intro role role' member member' less link here link' here'
  obtain ⟨pair, among, rfl⟩ := List.mem_map.mp (keys.mem_iff.mp member)
  obtain ⟨pair', among', rfl⟩ := List.mem_map.mp (keys.mem_iff.mp member')
  rw [found pair among] at here
  rw [found pair' among'] at here'
  cases here
  cases here'
  exact less

/-- **The links of an event with references**: one for each of them, in the order of the roles. -/
theorem normalizeEvent_payloads {pairs : List (GoString × Ref)} (roles : Roles pairs)
    (kept : ∀ pair ∈ pairs, pair.2.store ≠ [] ∨ pair.2.key ≠ []) {others : List Wire.Field}
    (foreign : ∀ field ∈ others, isPayload field = false) {event : Wire.Event}
    (fields : event.fields.Perm (pairs.flatMap (fun pair => refFields pair.1 pair.2) ++ others))
    {metadata : Metadata} {batchID : EventID} {delivery : Delivery} {record : EventRecord}
    (made : normalizeEvent event metadata batchID delivery = .ok record) :
    record.payloads.Perm (pairs.map receivedLink) ∧
      record.payloads.Pairwise fun first second => first.role < second.role := by
  have own : ∀ pair ∈ pairs, ∀ field ∈ refFields pair.1 pair.2, isPayload field = true := by
    intro pair _ field member
    obtain ⟨part, _, rfl⟩ := mem_refFields.mp member
    unfold isPayload
    rw [Part.key_toField, Part.fieldKey, List.append_assoc, List.append_assoc]
    exact List.isPrefixOf_iff_prefix.mpr (List.prefix_append _ _)
  have all : ∀ field, field ∈ event.fields.filter isPayload ↔
      ∃ pair ∈ pairs, field ∈ refFields pair.1 pair.2 := by
    intro field
    rw [List.mem_filter, fields.mem_iff, List.mem_append, List.mem_flatMap]
    constructor
    · intro both
      rcases both.1 with found | other
      · exact found
      · rw [foreign field other] at both
        exact absurd both.2 Bool.false_ne_true
    · rintro ⟨pair, member, among⟩
      exact ⟨.inl ⟨pair, member, among⟩, own pair member field among⟩
  obtain ⟨found, only⟩ := link_of_fields roles all
  have links := foldl_applyField_links event.fields (newRecord event metadata batchID delivery, ∅)
  cases made
  show (payloadsOf (event.fields.foldl applyField
    (newRecord event metadata batchID delivery, ∅)).2).Perm _ ∧ _
  rw [links]
  exact payloadsOf_links roles.distinct found only kept

/-- The fields of an event are those of references by their roles, among fields of other keys. -/
def Attached (pairs : List (GoString × Ref)) (event : Wire.Event) : Prop :=
  Roles pairs ∧ (∀ pair ∈ pairs, pair.2.store ≠ [] ∨ pair.2.key ≠ []) ∧
    ∃ others : List Wire.Field, (∀ field ∈ others, isPayload field = false) ∧
      event.fields.Perm (pairs.flatMap (fun pair => refFields pair.1 pair.2) ++ others)

theorem normalizeEvents_payloads {metadata : Metadata} {batchID : EventID} {delivery : Delivery}
    {events : List Wire.Event} {records : List EventRecord} {index : Nat}
    (made : normalizeEvents metadata batchID delivery index events = .ok records) :
    List.Forall₂ (fun record event => ∀ pairs, Attached pairs event →
      record.payloads.Perm (pairs.map receivedLink) ∧
        record.payloads.Pairwise fun first second => first.role < second.role) records events := by
  induction events generalizing index records with
  | nil =>
    cases made
    exact .nil
  | cons event events ih =>
    obtain ⟨record, normal, _⟩ := normalizeEvent_base event metadata batchID delivery
    rw [normalizeEvents, normal] at made
    dsimp only at made
    cases rest : normalizeEvents metadata batchID delivery (index + 1) events with
    | error error =>
      rw [rest] at made
      cases made
    | ok records =>
      rw [rest] at made
      cases made
      refine .cons ?_ (ih rest)
      rintro pairs ⟨roles, kept, others, foreign, fields⟩
      exact normalizeEvent_payloads roles kept foreign fields normal

/-- **The links of every event of an envelope.** -/
theorem normalize_payloads {envelope : Wire.Envelope} (valid : Wire.validate envelope = .ok ())
    (delivery : Delivery) :
    ∃ batch, normalize envelope delivery = .ok batch ∧
      List.Forall₂ (fun record event => ∀ pairs, Attached pairs event →
        record.payloads.Perm (pairs.map receivedLink) ∧
          record.payloads.Pairwise fun first second => first.role < second.role)
        batch.events envelope.events := by
  obtain ⟨records, made, _⟩ :=
    normalizeEvents_base envelope.metadata (parsedID envelope.batchID) delivery envelope.events 0
  refine ⟨⟨parsedID envelope.batchID, envelope.metadata, delivery, records⟩, ?_,
    normalizeEvents_payloads made⟩
  rw [normalize, valid]
  dsimp only
  rw [made]

/-! ### Instants in 64 bits -/

/-- An instant whose nanoseconds are counted in 64 bits, or none. -/
def Counted (t : Time) : Prop := t = zeroTime ∨ -2 ^ 63 ≤ t ∧ t < 2 ^ 63

theorem received_of_counted {ref : Ref} (counted : Counted ref.retainUntil) : received ref = ref := by
  have same : (if ref.retainUntil = zeroTime then zeroTime
      else (Int64.ofInt ref.retainUntil).toInt) = ref.retainUntil := by
    rcases counted with none | ⟨least, below⟩
    · rw [if_pos none, none]
    · split
      · rename_i none
        exact none.symm
      · exact Int64.toInt_ofInt_of_le least below
  unfold received
  rw [same]

theorem retainUntil_le_received (ref : Ref) :
    ref.retainUntil ≤ (received ref).retainUntil ↔ ref.retainUntil < 2 ^ 63 := by
  show ref.retainUntil ≤ (if ref.retainUntil = zeroTime then zeroTime
      else (Int64.ofInt ref.retainUntil).toInt) ↔ _
  have least := Int64.le_toInt (Int64.ofInt ref.retainUntil)
  have below := Int64.toInt_lt (Int64.ofInt ref.retainUntil)
  split
  · rename_i none
    rw [none]
    exact ⟨fun _ => by decide, fun _ => le_refl _⟩
  · constructor
    · intro later
      exact lt_of_le_of_lt later below
    · intro early
      by_cases counted : -2 ^ 63 ≤ ref.retainUntil
      · rw [Int64.toInt_ofInt_of_le counted early]
      · exact le_trans (le_of_lt (not_le.mp counted)) least

/-! ### References come back -/

/-- **The fields of payload references round trip.** In every envelope, for every event whose fields
are those of references with different roles, in any order and among fields of other keys, the record
has one link for each reference, in the order of the roles, and the reference in it is the original. -/
theorem payload_fields_round_trip (envelope : Wire.Envelope) (delivery : Delivery)
    (valid : Wire.validate envelope = .ok ()) :
    ∃ batch, normalize envelope delivery = .ok batch ∧
      List.Forall₂ (fun record event => ∀ pairs, Attached pairs event →
        (∀ pair ∈ pairs, Counted pair.2.retainUntil) →
        record.payloads.Perm (pairs.map fun pair => { role := pair.1, ref := pair.2 }) ∧
          record.payloads.Pairwise fun first second => first.role < second.role)
        batch.events envelope.events := by
  obtain ⟨batch, made, links⟩ := normalize_payloads valid delivery
  refine ⟨batch, made, links.imp ?_⟩
  intro record event each pairs attached counted
  have same : pairs.map receivedLink = pairs.map fun pair => { role := pair.1, ref := pair.2 } := by
    apply List.map_congr_left
    intro pair member
    unfold receivedLink
    rw [received_of_counted (counted pair member)]
  rw [← same]
  exact each pairs attached

/-- A reference with a size below zero, kept until the first instant after the epoch. -/
def requestRef : Ref where
  store := ascii "s3"
  key := ascii "k1"
  size := -1
  storedSize := 12
  compression := compressionGZIP
  retainUntil := 1

/-- A reference without a store. -/
def responseRef : Ref where
  store := []
  key := ascii "k2"
  sha256 := ⟨List.replicate 32 255, rfl⟩
  retentionClass := ascii "audit"

/-- The references of an order, with roles that are also parts of keys. -/
def orderPairs : List (GoString × Ref) :=
  [(ascii "store", requestRef), (ascii "key", responseRef)]

def ownField : Wire.Field := ⟨ascii "payloads", ascii "string", ascii "2", 0⟩

/-- An event with a field of its own and those of the references, the last first. -/
def payloadEnvelope (pairs : List (GoString × Ref)) : Wire.Envelope where
  schemaVersion := 1
  batchID := ascii "00000000000000000000000001"
  metadata := ⟨ascii "shop", [], []⟩
  events := [{
    eventID := ascii "00000000000000000000000001"
    timestampUnixNano := 1
    kind := ascii "order.paid"
    level := ascii "info"
    fields :=
      (pairs.flatMap (fun pair : GoString × Ref => refFields pair.1 pair.2) ++ [ownField]).reverse }]

theorem payloadEnvelope_attached {pairs : List (GoString × Ref)} (roles : Roles pairs)
    (kept : ∀ pair ∈ pairs, pair.2.store ≠ [] ∨ pair.2.key ≠ []) {event : Wire.Event}
    (member : event ∈ (payloadEnvelope pairs).events) : Attached pairs event := by
  rw [List.mem_singleton.mp member]
  refine ⟨roles, kept, [ownField], ?_, List.reverse_perm _⟩
  intro field among
  rw [List.mem_singleton.mp among]
  decide

theorem orderPairs_checked : Wire.validate (payloadEnvelope orderPairs) = .ok () ∧
    (orderPairs.map Prod.fst).Nodup ∧ (∀ pair ∈ orderPairs, pair.1 ≠ []) ∧
    (∀ pair ∈ orderPairs, 46 ∉ pair.1) ∧ ∀ pair ∈ orderPairs, pair.2.store ≠ [] ∨ pair.2.key ≠ [] := by
  decide

/-- Both references of the order come back. -/
theorem payload_fields_round_trip_order :
    ∃ batch, normalize (payloadEnvelope orderPairs) {} = .ok batch ∧ ∃ record, batch.events = [record] ∧
      record.payloads.Perm (orderPairs.map fun pair => { role := pair.1, ref := pair.2 }) := by
  obtain ⟨valid, distinct, named, plain, kept⟩ := orderPairs_checked
  obtain ⟨batch, made, links⟩ := payload_fields_round_trip (payloadEnvelope orderPairs) {} valid
  cases whole : batch.events with
  | nil =>
    rw [whole] at links
    cases links
  | cons record records =>
    rw [whole] at links
    cases links with
    | cons this rest =>
      cases rest
      refine ⟨batch, made, record, whole, (this orderPairs ?_ ?_).1⟩
      · exact payloadEnvelope_attached ⟨distinct, named, plain⟩ kept List.mem_cons_self
      · intro pair member
        simp only [orderPairs, List.mem_cons, List.not_mem_nil, or_false] at member
        rcases member with rfl | rfl
        · exact .inr ⟨by decide, by decide⟩
        · exact .inl rfl

/-! ### Promises -/

/-- **What happens to the promise of a reference.** In every envelope, for every event with references,
the link of each has an instant that is not earlier than the one the object is to be kept until exactly
when that is before the end of what nanoseconds count in 64 bits; and it is the instant from which the
object may be collected. -/
theorem retention_promise_iff (envelope : Wire.Envelope) (delivery : Delivery)
    (valid : Wire.validate envelope = .ok ()) :
    ∃ batch, normalize envelope delivery = .ok batch ∧
      List.Forall₂ (fun record event => ∀ pairs, Attached pairs event → ∀ pair ∈ pairs,
        ∃ link ∈ record.payloads, link.role = pair.1 ∧
          (pair.2.retainUntil ≤ link.ref.retainUntil ↔ pair.2.retainUntil < 2 ^ 63) ∧
          (pair.2.retainUntil ≠ zeroTime → ∀ (engine : Retention.Engine) (v : Retention.Event),
            engine.payloadExpiry v ⟨link.role, link.ref⟩ = some link.ref.retainUntil))
        batch.events envelope.events := by
  obtain ⟨batch, made, links⟩ := normalize_payloads valid delivery
  refine ⟨batch, made, links.imp ?_⟩
  intro record event each pairs attached pair member
  have here : receivedLink pair ∈ record.payloads :=
    (each pairs attached).1.mem_iff.mpr (List.mem_map_of_mem member)
  refine ⟨receivedLink pair, here, rfl, retainUntil_le_received pair.2, ?_⟩
  intro promised engine v
  have set : (received pair.2).retainUntil ≠ zeroTime := by
    have least := Int64.le_toInt (Int64.ofInt pair.2.retainUntil)
    have early : zeroTime < -2 ^ 63 := by decide
    unfold received
    dsimp only
    rw [if_neg promised]
    exact ne_of_gt (lt_of_lt_of_le early least)
  unfold Retention.Engine.payloadExpiry
  exact if_pos set

/-- The promises of the references of the order are kept. -/
theorem retention_promise_iff_order :
    ∃ batch, normalize (payloadEnvelope orderPairs) {} = .ok batch ∧ ∃ record, batch.events = [record] ∧
      ∃ link ∈ record.payloads, requestRef.retainUntil ≤ link.ref.retainUntil := by
  obtain ⟨valid, distinct, named, plain, kept⟩ := orderPairs_checked
  obtain ⟨batch, made, links⟩ := retention_promise_iff (payloadEnvelope orderPairs) {} valid
  cases whole : batch.events with
  | nil =>
    rw [whole] at links
    cases links
  | cons record records =>
    rw [whole] at links
    cases links with
    | cons this rest =>
      cases rest
      have attached := payloadEnvelope_attached ⟨distinct, named, plain⟩ kept List.mem_cons_self
      obtain ⟨link, member, _, promise, _⟩ := this orderPairs attached _ List.mem_cons_self
      exact ⟨batch, made, record, whole, link, member, promise.mpr (by decide)⟩

/-- An object that is to be kept until the year 2300. -/
def foreverRef : Ref where
  store := ascii "s3"
  key := ascii "k1"
  retainUntil := 10413792000000000000

theorem foreverRef_checked :
    Wire.validate (payloadEnvelope [(ascii "request", foreverRef)]) = .ok () ∧
      46 ∉ ascii "request" ∧ (received foreverRef).retainUntil = -8032952073709551616 := by
  decide

/-- The object may be collected from an instant of the year 1715 on. -/
theorem promise_folds_over :
    ∃ batch, normalize (payloadEnvelope [(ascii "request", foreverRef)]) {} = .ok batch ∧
      ∃ record, batch.events = [record] ∧ ∃ link, record.payloads = [link] ∧
        link.ref.retainUntil < foreverRef.retainUntil ∧
        ∀ (engine : Retention.Engine) (v : Retention.Event),
          engine.payloadExpiry v ⟨link.role, link.ref⟩ = some (-8032952073709551616) := by
  obtain ⟨valid, plain, folded⟩ := foreverRef_checked
  have roles : Roles [(ascii "request", foreverRef)] := by
    refine ⟨List.nodup_singleton _, ?_, ?_⟩
    · exact List.forall_mem_singleton.mpr (by decide)
    · exact List.forall_mem_singleton.mpr plain
  have kept : ∀ pair ∈ [(ascii "request", foreverRef)], pair.2.store ≠ [] ∨ pair.2.key ≠ [] :=
    List.forall_mem_singleton.mpr (.inl (by decide))
  obtain ⟨batch, made, links⟩ := normalize_payloads valid {}
  cases whole : batch.events with
  | nil =>
    rw [whole] at links
    cases links
  | cons record records =>
    rw [whole] at links
    cases links with
    | cons this rest =>
      cases rest
      have only := (this _ (payloadEnvelope_attached roles kept List.mem_cons_self)).1
      refine ⟨batch, made, record, whole, _, List.perm_singleton.mp only, ?_, ?_⟩
      · show (received foreverRef).retainUntil < foreverRef.retainUntil
        rw [folded]
        decide
      · intro engine v
        unfold Retention.Engine.payloadExpiry
        show (if (received foreverRef).retainUntil ≠ zeroTime then
          some (received foreverRef).retainUntil else _) = _
        rw [folded]
        exact if_pos (by decide)

end Trail.Storage
