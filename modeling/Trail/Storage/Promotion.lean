/-
**What the fields of an event promote.**

`normalizeEvent` goes over the fields of an event once. A field with a conventional key sets one attribute
of the record, a field of a payload sets one part of the link of its role, and any other field of the
type `error` marks the record.

* `foldl_applyField`: every attribute is that of the last field with its key.
* `setPayload_comm`: different parts of a link are set in any order.
* `lookup_links`: the link of a role, from the fields of the role.
* `promotion_by_key`: the record depends on the history of each key only.
-/

import Trail.Library.Histories
import Trail.Storage.PayloadFields
import Trail.Storage.ReadBack

namespace Trail.Storage

open Library Payload

/-! ### Attributes -/

/-- The attributes that fields set. -/
inductive Attribute
  | flowStatus
  | executionStatus
  | executionKind
  | retentionClass
  | provider
  | method
  | scheme
  | host
  | path
  | statusCode
  | duration
  | success
  | requestSize
  | responseSize
  | requestPreview
  | responsePreview
  deriving DecidableEq, Repr

namespace Attribute

def all : List Attribute :=
  [flowStatus, executionStatus, executionKind, retentionClass, provider, method, scheme, host, path,
    statusCode, duration, success, requestSize, responseSize, requestPreview, responsePreview]

theorem mem_all (target : Attribute) : target ∈ all := by
  cases target <;> decide

/-- The key of the fields that set the attribute. -/
def key : Attribute → GoString
  | flowStatus => ascii "trail.flow.status"
  | executionStatus => ascii "trail.execution.status"
  | executionKind => ascii "trail.execution.kind"
  | retentionClass => ascii "trail.retention.class"
  | provider => ascii "provider"
  | method => ascii "http.method"
  | scheme => ascii "http.scheme"
  | host => ascii "http.host"
  | path => ascii "http.path"
  | statusCode => ascii "http.status_code"
  | duration => ascii "http.duration"
  | success => ascii "http.success"
  | requestSize => ascii "http.request_size"
  | responseSize => ascii "http.response_size"
  | requestPreview => ascii "http.request_preview"
  | responsePreview => ascii "http.response_preview"

theorem key_inj {first second : Attribute} (same : first.key = second.key) : first = second := by
  have each : ∀ first ∈ all, ∀ second ∈ all, first.key = second.key → first = second := by
    decide +kernel
  exact each first (mem_all first) second (mem_all second) same

/-- What a field with the key of the attribute does to the record. -/
def set (record : EventRecord) (field : Wire.Field) : Attribute → EventRecord
  | flowStatus => { record with flowStatus := field.text }
  | executionStatus => { record with executionStatus := field.text }
  | executionKind => { record with executionKind := field.text }
  | retentionClass => { record with retentionClass := field.text }
  | provider => { record with provider := field.text }
  | method => { record with http := { record.http with method := field.text } }
  | scheme => { record with http := { record.http with scheme := field.text } }
  | host => { record with http := { record.http with host := field.text } }
  | path => { record with http := { record.http with path := field.text } }
  | statusCode => { record with http := { record.http with statusCode := field.num.toInt64 } }
  | duration => { record with http := { record.http with duration := field.num.toInt64 } }
  | success => { record with http := { record.http with success := decide (field.num ≠ 0) } }
  | requestSize => { record with http := { record.http with requestSize := field.num.toInt64 } }
  | responseSize => { record with http := { record.http with responseSize := field.num.toInt64 } }
  | requestPreview => { record with http := { record.http with requestPreview := field.text } }
  | responsePreview => { record with http := { record.http with responsePreview := field.text } }

end Attribute

/-- A field that marks the record: of the type `error`, and without a conventional key. -/
def marks (field : Wire.Field) : Bool :=
  field.type = ascii "error" ∧ ∀ target ∈ Attribute.all, field.key ≠ target.key

section Fields

/-- The `switch` of `normalizeEvent`, over the attributes. -/
theorem applyField_eq (state : EventRecord × Table GoString PayloadLink) (field : Wire.Field)
    (target : Attribute) (named : field.key = target.key) :
    applyField state field = (target.set state.1 field, state.2) := by
  have same : ∀ other : Attribute, (field.key = other.key) = (target = other) := fun other =>
    propext ⟨fun keys => Attribute.key_inj (named.symm.trans keys), fun one => one ▸ named⟩
  have flowStatus : (field.key = ascii "trail.flow.status") = (target = .flowStatus) :=
    same .flowStatus
  have executionStatus : (field.key = ascii "trail.execution.status") = (target = .executionStatus) :=
    same .executionStatus
  have executionKind : (field.key = ascii "trail.execution.kind") = (target = .executionKind) :=
    same .executionKind
  have retentionClass : (field.key = ascii "trail.retention.class") = (target = .retentionClass) :=
    same .retentionClass
  have provider : (field.key = ascii "provider") = (target = .provider) := same .provider
  have method : (field.key = ascii "http.method") = (target = .method) := same .method
  have scheme : (field.key = ascii "http.scheme") = (target = .scheme) := same .scheme
  have host : (field.key = ascii "http.host") = (target = .host) := same .host
  have path : (field.key = ascii "http.path") = (target = .path) := same .path
  have statusCode : (field.key = ascii "http.status_code") = (target = .statusCode) :=
    same .statusCode
  have duration : (field.key = ascii "http.duration") = (target = .duration) := same .duration
  have success : (field.key = ascii "http.success") = (target = .success) := same .success
  have requestSize : (field.key = ascii "http.request_size") = (target = .requestSize) :=
    same .requestSize
  have responseSize : (field.key = ascii "http.response_size") = (target = .responseSize) :=
    same .responseSize
  have requestPreview : (field.key = ascii "http.request_preview") = (target = .requestPreview) :=
    same .requestPreview
  have responsePreview : (field.key = ascii "http.response_preview") = (target = .responsePreview) :=
    same .responsePreview
  unfold applyField
  simp only [flowStatus, executionStatus, executionKind, retentionClass, provider, method, scheme, host,
    path, statusCode, duration, success, requestSize, responseSize, requestPreview, responsePreview]
  cases target <;> rfl

theorem applyField_other (state : EventRecord × Table GoString PayloadLink) (field : Wire.Field)
    (other : ∀ target : Attribute, field.key ≠ target.key) :
    (applyField state field).1 =
      { state.1 with hasError := state.1.hasError || decide (field.type = ascii "error") } := by
  have skip : ∀ {record : EventRecord} {condition : Prop} [Decidable condition]
      {yes no : EventRecord × Table GoString PayloadLink},
      ¬ condition → no.1 = record → (if condition then yes else no).1 = record := by
    intro record condition _ yes no absent rest
    rw [if_neg absent, rest]
  unfold applyField
  refine skip (other .flowStatus) ?_
  refine skip (other .executionStatus) ?_
  refine skip (other .executionKind) ?_
  refine skip (other .retentionClass) ?_
  refine skip (other .provider) ?_
  refine skip (other .method) ?_
  refine skip (other .scheme) ?_
  refine skip (other .host) ?_
  refine skip (other .path) ?_
  refine skip (other .statusCode) ?_
  refine skip (other .duration) ?_
  refine skip (other .success) ?_
  refine skip (other .requestSize) ?_
  refine skip (other .responseSize) ?_
  refine skip (other .requestPreview) ?_
  refine skip (other .responsePreview) ?_
  by_cases failed : field.type = ascii "error"
  · rw [if_pos failed, decide_eq_true failed, Bool.or_true]
    split <;> rfl
  · rw [if_neg failed, decide_eq_false failed, Bool.or_false]
    split <;> rfl

end Fields

/-! ### The last field of each key -/

section Latest

/-- The text of the last field with the key of an attribute. -/
def latestText (fields : List Wire.Field) (target : Attribute) : GoString :=
  ((latest Wire.Field.key fields target.key).map Wire.Field.text).getD []

/-- The number of the last field with the key of an attribute. -/
def latestNum (fields : List Wire.Field) (target : Attribute) : UInt64 :=
  ((latest Wire.Field.key fields target.key).map Wire.Field.num).getD 0

/-- **A record with the attributes of the last field of each key**, and the mark of a field of the type
`error`. -/
def promote (record : EventRecord) (fields : List Wire.Field) : EventRecord :=
  { record with
    flowStatus := latestText fields .flowStatus
    executionStatus := latestText fields .executionStatus
    executionKind := latestText fields .executionKind
    retentionClass := latestText fields .retentionClass
    provider := latestText fields .provider
    hasError := fields.any marks
    http :=
      { method := latestText fields .method
        scheme := latestText fields .scheme
        host := latestText fields .host
        path := latestText fields .path
        statusCode := (latestNum fields .statusCode).toInt64
        duration := (latestNum fields .duration).toInt64
        success := decide (latestNum fields .success ≠ 0)
        requestSize := (latestNum fields .requestSize).toInt64
        responseSize := (latestNum fields .responseSize).toInt64
        requestPreview := latestText fields .requestPreview
        responsePreview := latestText fields .responsePreview } }

variable {fields : List Wire.Field} {field : Wire.Field} {target : Attribute}

theorem latestText_concat : latestText (fields ++ [field]) target =
    if field.key = target.key then field.text else latestText fields target := by
  unfold latestText
  rw [latest_concat]
  split <;> rfl

theorem latestNum_concat : latestNum (fields ++ [field]) target =
    if field.key = target.key then field.num else latestNum fields target := by
  unfold latestNum
  rw [latest_concat]
  split <;> rfl

theorem promote_concat (record : EventRecord) (links : Table GoString PayloadLink) :
    (applyField (promote record fields, links) field).1 = promote record (fields ++ [field]) := by
  by_cases conventional : ∃ target : Attribute, field.key = target.key
  · obtain ⟨target, named⟩ := conventional
    have same : ∀ other : Attribute, (target.key = other.key) = (target = other) := fun other =>
      propext ⟨Attribute.key_inj, congrArg Attribute.key⟩
    have unmarked : marks field = false := by
      refine decide_eq_false fun marked => ?_
      exact marked.2 target (Attribute.mem_all target) named
    rw [applyField_eq _ _ target named]
    simp only [promote, latestText_concat, latestNum_concat, named, same, List.any_append,
      List.any_cons, List.any_nil, unmarked, Bool.or_false]
    cases target <;> rfl
  · have other : ∀ target : Attribute, field.key ≠ target.key := fun target named =>
      conventional ⟨target, named⟩
    have marked : marks field = decide (field.type = ascii "error") := by
      unfold marks
      simp [other]
    rw [applyField_other _ _ other]
    simp only [promote, latestText_concat, latestNum_concat, other, if_false, List.any_append,
      List.any_cons, List.any_nil, marked, Bool.or_false]

/-- **Every attribute is that of the last field with its key.** -/
theorem foldl_applyField (event : Wire.Event) (metadata : Metadata) (batchID : EventID)
    (delivery : Delivery) (fields : List Wire.Field) :
    (fields.foldl applyField (newRecord event metadata batchID delivery, ∅)).1 =
      promote (newRecord event metadata batchID delivery) fields := by
  induction fields using List.reverseRecOn with
  | nil => rfl
  | append_singleton fields field ih =>
    rw [List.foldl_append, List.foldl_cons, List.foldl_nil, ← promote_concat, ← ih]

end Latest

/-! ### The parts of a link -/

/-- What follows the role in the key of a field: a part of the reference, or of the capture. -/
inductive LinkPart
  | ref (part : Part)
  | originalSize
  | capturedSize
  | truncated
  | error
  deriving DecidableEq, Repr

namespace LinkPart

def text : LinkPart → GoString
  | ref part => part.text
  | originalSize => ascii "original_size"
  | capturedSize => ascii "captured_size"
  | truncated => ascii "truncated"
  | error => ascii "error"

/-- The digest of a field, and the old one when the field has none. -/
def sum (field : Wire.Field) (old : Bytes 32) : Bytes 32 :=
  match Hex.decodeString field.text with
  | none => old
  | some decoded => if size : decoded.length = 32 then ⟨decoded, size⟩ else old

/-- What a field does to the link of its role, by the part. -/
def set (link : PayloadLink) (field : Wire.Field) : LinkPart → PayloadLink
  | ref .sha256 => { link with ref := { link.ref with sha256 := sum field link.ref.sha256 } }
  | ref part => part.set link field
  | originalSize => { link with originalSize := field.num.toInt64 }
  | capturedSize => { link with capturedSize := field.num.toInt64 }
  | truncated => { link with truncated := decide (field.num ≠ 0) }
  | error => { link with error := field.text }

theorem set_ref (link : PayloadLink) (field : Wire.Field) (part : Part) :
    (ref part).set link field = part.set link field := by
  cases part with
  | sha256 =>
    unfold set Part.set sum
    cases Hex.decodeString field.text with
    | none => rfl
    | some decoded =>
      dsimp only
      split <;> rfl
  | _ => rfl

theorem set_comm {first second : LinkPart} (differ : first ≠ second) (link : PayloadLink)
    (one two : Wire.Field) :
    second.set (first.set link one) two = first.set (second.set link two) one := by
  cases first with
  | ref first =>
    cases second with
    | ref second =>
      cases first <;> cases second <;> first | rfl | exact absurd rfl differ
    | _ => cases first <;> rfl
  | _ =>
    cases second with
    | ref second => cases second <;> rfl
    | _ => first | rfl | exact absurd rfl differ

end LinkPart

theorem setPayload_part (link : PayloadLink) (part : LinkPart) (field : Wire.Field) :
    setPayload link part.text field = part.set link field := by
  cases part with
  | ref part =>
    rw [LinkPart.set_ref]
    exact setPayload_text link part field
  | _ => rfl

theorem setPayload_other {text : GoString} (other : ∀ part : LinkPart, text ≠ part.text)
    (link : PayloadLink) (field : Wire.Field) : setPayload link text field = link := by
  have skip : ∀ {condition : Prop} [Decidable condition] {yes no : PayloadLink},
      ¬ condition → no = link → (if condition then yes else no) = link := by
    intro condition _ yes no absent rest
    rw [if_neg absent, rest]
  unfold setPayload
  refine skip (other (.ref .store)) ?_
  refine skip (other (.ref .key)) ?_
  refine skip (other (.ref .contentType)) ?_
  refine skip (other (.ref .size)) ?_
  refine skip (other (.ref .storedSize)) ?_
  refine skip (other (.ref .sha256)) ?_
  refine skip (other (.ref .compression)) ?_
  refine skip (other (.ref .retainUntil)) ?_
  refine skip (other (.ref .retentionClass)) ?_
  refine skip (other .originalSize) ?_
  refine skip (other .capturedSize) ?_
  refine skip (other .truncated) ?_
  exact skip (other .error) rfl

/-- **Different parts of a link are set in any order.** -/
theorem setPayload_comm {first second : GoString} (differ : first ≠ second) (link : PayloadLink)
    (one two : Wire.Field) :
    setPayload (setPayload link first one) second two =
      setPayload (setPayload link second two) first one := by
  by_cases left : ∃ part : LinkPart, first = part.text
  · by_cases right : ∃ part : LinkPart, second = part.text
    · obtain ⟨part, rfl⟩ := left
      obtain ⟨part', rfl⟩ := right
      simp only [setPayload_part]
      exact LinkPart.set_comm (fun same => differ (congrArg LinkPart.text same)) link one two
    · have other : ∀ part : LinkPart, second ≠ part.text := fun part same => right ⟨part, same⟩
      rw [setPayload_other other, setPayload_other other]
  · have other : ∀ part : LinkPart, first ≠ part.text := fun part same => left ⟨part, same⟩
    rw [setPayload_other other, setPayload_other other]

theorem setPayload_role (link : PayloadLink) (text : GoString) (field : Wire.Field) :
    (setPayload link text field).role = link.role := by
  by_cases known : ∃ part : LinkPart, text = part.text
  · obtain ⟨part, rfl⟩ := known
    rw [setPayload_part]
    cases part with
    | ref part => cases part <;> rfl
    | _ => rfl
  · rw [setPayload_other fun part same => known ⟨part, same⟩]

/-! ### The links of an event -/

section Links

/-- The role and the part in the key of a field of a payload. -/
def rolePart (key : GoString) : Option (GoString × GoString) :=
  match splitDot (trimPrefix key (ascii "payload.")) with
  | [role, part] => if role = [] then none else some (role, part)
  | _ => none

/-- The parts that the fields of a role set. -/
def partsOf (role : GoString) (fields : List Wire.Field) : List (GoString × Wire.Field) :=
  fields.filterMap fun field =>
    if isPayload field then
      (rolePart field.key).bind fun found => if found.1 = role then some (found.2, field) else none
    else none

/-- The link that the fields of a role make. -/
def linkOf (role : GoString) (parts : List (GoString × Wire.Field)) : PayloadLink :=
  parts.foldl (fun link part => setPayload link part.1 part.2) { role := role }

theorem applyPayloadField_none {field : Wire.Field} (plain : rolePart field.key = none)
    (links : Table GoString PayloadLink) : applyPayloadField links field = links := by
  unfold rolePart at plain
  unfold applyPayloadField
  split
  · rename_i role part found
    rw [found] at plain
    dsimp only at plain
    split at plain
    · rename_i empty
      exact if_pos empty
    · cases plain
  · rfl

theorem rolePart_eq_some {key role part : GoString} (parsed : rolePart key = some (role, part)) :
    splitDot (trimPrefix key (ascii "payload.")) = [role, part] ∧ role ≠ [] := by
  unfold rolePart at parsed
  split at parsed
  · rename_i found
    split at parsed
    · cases parsed
    · rename_i named
      cases parsed
      exact ⟨found, named⟩
  · cases parsed

theorem applyPayloadField_some {field : Wire.Field} {role part : GoString}
    (parsed : rolePart field.key = some (role, part)) (links : Table GoString PayloadLink) :
    applyPayloadField links field =
      links.insert role (setPayload ((links.lookup role).getD { role := role }) part field) := by
  obtain ⟨found, named⟩ := rolePart_eq_some parsed
  unfold applyPayloadField
  rw [found]
  exact if_neg named

theorem splitDot_eq {text first second : GoString} (split : splitDot text = [first, second]) :
    text = first ++ 46 :: second := by
  unfold splitDot at split
  cases found : text.idxOf? 46 with
  | none =>
    rw [found] at split
    cases split
  | some position =>
    rw [found] at split
    cases split
    obtain ⟨bound, here, _⟩ := List.idxOf?_eq_some_iff.mp found
    rw [← here, ← List.drop_eq_getElem_cons bound, List.take_append_drop]

theorem key_of_rolePart {field : Wire.Field} {role part : GoString} (payload : isPayload field = true)
    (parsed : rolePart field.key = some (role, part)) :
    field.key = ascii "payload." ++ (role ++ 46 :: part) := by
  obtain ⟨rest, same⟩ := List.isPrefixOf_iff_prefix.mp payload
  have found := (rolePart_eq_some parsed).1
  rw [← same, trimPrefix_append] at found
  rw [← same, splitDot_eq found]

theorem partsOf_concat (role : GoString) (fields : List Wire.Field) (field : Wire.Field) :
    partsOf role (fields ++ [field]) = partsOf role fields ++ partsOf role [field] :=
  List.filterMap_append

/-- **The link of a role**, from the fields of the role. -/
theorem lookup_links (fields : List Wire.Field) (role : GoString) :
    ((fields.filter isPayload).foldl applyPayloadField ∅).lookup role =
      if partsOf role fields = [] then none else some (linkOf role (partsOf role fields)) := by
  induction fields using List.reverseRecOn with
  | nil => rfl
  | append_singleton fields field ih =>
    rw [partsOf_concat, List.filter_append, List.foldl_append]
    by_cases payload : isPayload field = true
    · have mine : [field].filter isPayload = [field] := List.filter_eq_self.mpr (by simpa using payload)
      rw [mine, List.foldl_cons, List.foldl_nil]
      cases parsed : rolePart field.key with
      | none =>
        have nothing : partsOf role [field] = [] := by simp [partsOf, parsed]
        rw [applyPayloadField_none parsed, nothing, List.append_nil, ih]
      | some found =>
        obtain ⟨role', part⟩ := found
        rw [applyPayloadField_some parsed]
        by_cases same : role' = role
        · subst same
          have one : partsOf role' [field] = [(part, field)] := by simp [partsOf, parsed, payload]
          rw [AList.lookup_insert, one, if_neg (by simp), ih]
          unfold linkOf
          rw [List.foldl_append, List.foldl_cons, List.foldl_nil]
          by_cases first : partsOf role' fields = []
          · rw [if_pos first, first]
            rfl
          · rw [if_neg first]
            rfl
        · have nothing : partsOf role [field] = [] := by simp [partsOf, parsed, same]
          rw [AList.lookup_insert_ne (Ne.symm same), nothing, List.append_nil, ih]
    · have nothing : partsOf role [field] = [] := by simp [partsOf, payload]
      have other : [field].filter isPayload = [] := by simpa using payload
      rw [other, List.foldl_nil, nothing, List.append_nil, ih]

/-- **The link of a role depends on the history of each key only.** -/
theorem lookup_links_congr {first second : List Wire.Field}
    (same : SameHistories Wire.Field.key first second) (role : GoString) :
    ((first.filter isPayload).foldl applyPayloadField ∅).lookup role =
      ((second.filter isPayload).foldl applyPayloadField ∅).lookup role := by
  have parts : SameHistories Prod.fst (partsOf role first) (partsOf role second) := by
    have made : ∀ (field : Wire.Field) (one : GoString × Wire.Field),
        (if isPayload field then (rolePart field.key).bind fun found =>
          if found.1 = role then some (found.2, field) else none else none) = some one →
        field.key = ascii "payload." ++ (role ++ 46 :: one.1) := by
      intro field one set
      split at set
      · rename_i payload
        obtain ⟨found, parsed, set⟩ := Option.bind_eq_some_iff.mp set
        split at set
        · rename_i named
          cases set
          subst named
          exact key_of_rolePart payload parsed
        · cases set
      · cases set
    refine same.filterMap (fun part => ascii "payload." ++ (role ++ 46 :: part)) made ?_
    intro field one part set named
    have keys := (made field one set).symm.trans named
    exact (List.cons.inj (List.append_cancel_left (List.append_cancel_left keys))).2
  have links : linkOf role (partsOf role first) = linkOf role (partsOf role second) :=
    parts.foldl (fun link one two differ => setPayload_comm differ link one.2 two.2) _
  have none : partsOf role first = [] ↔ partsOf role second = [] := by
    simp only [List.eq_nil_iff_forall_not_mem, parts.mem_iff]
  rw [lookup_links, lookup_links, links]
  simp only [none]

theorem sorted_keys (links : Table GoString PayloadLink) :
    (links.keys.insertionSort (· ≤ ·)).Pairwise (· < ·) := by
  have weak : (links.keys.insertionSort (· ≤ ·)).Pairwise (· ≤ ·) := List.pairwise_insertionSort _ _
  have unequal : (links.keys.insertionSort (· ≤ ·)).Nodup :=
    (List.perm_insertionSort _ _).nodup_iff.mpr links.nodupKeys
  exact (weak.and unequal).imp fun both => (List.le_iff_lt_or_eq.mp both.1).resolve_right both.2

theorem payloadsOf_congr {first second : Table GoString PayloadLink}
    (same : ∀ role, first.lookup role = second.lookup role) : payloadsOf first = payloadsOf second := by
  have keys : first.keys.Perm second.keys := by
    refine (List.perm_ext_iff_of_nodup first.nodupKeys second.nodupKeys).mpr fun role => ?_
    show role ∈ first ↔ role ∈ second
    rw [← AList.lookup_isSome, ← AList.lookup_isSome, same]
  have sorted : first.keys.insertionSort (· ≤ ·) = second.keys.insertionSort (· ≤ ·) := by
    refine List.Perm.eq_of_pairwise (fun one two _ _ less more => absurd less (List.lt_asymm more))
      (sorted_keys first) (sorted_keys second) ?_
    exact (List.perm_insertionSort _ _).trans (keys.trans (List.perm_insertionSort _ _).symm)
  unfold payloadsOf
  rw [sorted, List.filterMap_congr fun role _ => same role]

/-- **The links are in the order of their roles**, each role once. -/
theorem payloadsOf_sorted {links : Table GoString PayloadLink}
    (named : ∀ role link, links.lookup role = some link → link.role = role) :
    (payloadsOf links).Pairwise fun one two => one.role < two.role := by
  refine List.Pairwise.filter _ ?_
  rw [List.pairwise_filterMap]
  refine (sorted_keys links).imp ?_
  intro role role' less link here link' here'
  rw [named role link here, named role' link' here']
  exact less

theorem linkOf_role (role : GoString) (parts : List (GoString × Wire.Field)) :
    (linkOf role parts).role = role := by
  unfold linkOf
  induction parts using List.reverseRecOn with
  | nil => rfl
  | append_singleton parts part ih =>
    rw [List.foldl_append, List.foldl_cons, List.foldl_nil, setPayload_role, ih]

end Links

/-! ### Rearranged fields -/

/-- Two events that agree but for the order of their fields, and in the fields of each key. -/
structure Rearranged (first second : Wire.Event) : Prop where
  rest : { first with fields := [] } = { second with fields := [] }
  fields : SameHistories Wire.Field.key first.fields second.fields

section Rearranged

variable {first second : Wire.Event}

theorem promote_congr (same : SameHistories Wire.Field.key first.fields second.fields)
    (record : EventRecord) : promote record first.fields = promote record second.fields := by
  have latest : ∀ target : Attribute, latest Wire.Field.key first.fields target.key =
      latest Wire.Field.key second.fields target.key := fun target =>
    congrArg List.getLast? (same target.key)
  have marked : first.fields.any marks = second.fields.any marks := by
    rw [Bool.eq_iff_iff, List.any_eq_true, List.any_eq_true]
    simp only [same.mem_iff]
  have text : latestText first.fields = latestText second.fields := funext fun target =>
    congrArg (fun field => (Option.map Wire.Field.text field).getD []) (latest target)
  have num : latestNum first.fields = latestNum second.fields := funext fun target =>
    congrArg (fun field => (Option.map Wire.Field.num field).getD 0) (latest target)
  unfold promote
  rw [text, num, marked]

theorem recordOf_eq (event : Wire.Event) (metadata : Metadata) (batchID : EventID)
    (delivery : Delivery) :
    recordOf event metadata batchID delivery =
      { promote (newRecord event metadata batchID delivery) event.fields with
        payloads := payloadsOf ((event.fields.filter isPayload).foldl applyPayloadField ∅) } := by
  unfold recordOf
  dsimp only
  rw [foldl_applyField, foldl_applyField_links]

theorem recordOf_promote (event : Wire.Event) (metadata : Metadata) (batchID : EventID)
    (delivery : Delivery) :
    recordOf event metadata batchID delivery =
      { promote (newRecord event metadata batchID delivery) event.fields with
        payloads := (recordOf event metadata batchID delivery).payloads } := by
  rw [recordOf_eq]

theorem recordOf_sorted (event : Wire.Event) (metadata : Metadata) (batchID : EventID)
    (delivery : Delivery) :
    (recordOf event metadata batchID delivery).payloads.Pairwise fun one two =>
      one.role < two.role := by
  rw [recordOf_eq]
  refine payloadsOf_sorted fun role link here => ?_
  rw [lookup_links] at here
  split at here
  · cases here
  · cases here
    exact linkOf_role role _

/-- **The record of an event depends on the history of each key only**, its fields apart. -/
theorem recordOf_congr (same : Rearranged first second) (metadata : Metadata) (batchID : EventID)
    (delivery : Delivery) :
    { recordOf first metadata batchID delivery with fields := [] } =
      { recordOf second metadata batchID delivery with fields := [] } := by
  have base : { newRecord first metadata batchID delivery with fields := [] } =
      { newRecord second metadata batchID delivery with fields := [] } :=
    congrArg (fun event : Wire.Event => newRecord event metadata batchID delivery) same.rest
  rw [recordOf_eq, recordOf_eq, promote_congr same.fields, payloadsOf_congr (lookup_links_congr same.fields)]
  exact congrArg (fun record => { promote record second.fields with
    payloads := payloadsOf ((second.fields.filter isPayload).foldl applyPayloadField ∅) }) base

/-- **Promotion depends only on the history of each key.** Valid envelopes whose events agree but for
the order of fields with different keys get records that agree but for their fields; every promoted
attribute is that of the last field with its key, and the links have different roles in order. -/
theorem promotion_by_key {envelope envelope' : Wire.Envelope}
    (rest : { envelope with events := [] } = { envelope' with events := [] })
    (events : List.Forall₂ Rearranged envelope.events envelope'.events)
    (valid : Wire.validate envelope = .ok ()) (valid' : Wire.validate envelope' = .ok ())
    (delivery : Delivery) :
    ∃ batch batch', normalize envelope delivery = .ok batch ∧
      normalize envelope' delivery = .ok batch' ∧
      { batch with events := [] } = { batch' with events := [] } ∧
      List.Forall₂ (fun record record' : EventRecord =>
        { record with fields := [] } = { record' with fields := [] }) batch.events batch'.events ∧
      List.Forall₂ (fun (record : EventRecord) event =>
        record = { promote (newRecord event envelope.metadata (parsedID envelope.batchID) delivery)
          event.fields with payloads := record.payloads } ∧
        record.payloads.Pairwise fun one two => one.role < two.role) batch.events envelope.events := by
  obtain ⟨version, batchID, metadata, listed⟩ := envelope
  obtain ⟨version', batchID', metadata', listed'⟩ := envelope'
  obtain ⟨rfl, rfl, rfl, _⟩ := Wire.Envelope.mk.inj rest
  refine ⟨_, _, normalize_eq.mpr ⟨valid, rfl⟩, normalize_eq.mpr ⟨valid', rfl⟩, rfl, ?_, ?_⟩
  · refine List.forall₂_map_left_iff.mpr (List.forall₂_map_right_iff.mpr (events.imp ?_))
    intro first second same
    exact recordOf_congr same metadata (parsedID batchID) delivery
  · refine List.forall₂_map_left_iff.mpr (List.forall₂_same.mpr fun event _ => ⟨?_, ?_⟩)
    · exact recordOf_promote event metadata (parsedID batchID) delivery
    · exact recordOf_sorted event metadata (parsedID batchID) delivery

end Rearranged

/-! ### A call with two providers -/

/-- The fields of a call, in the order in which they were logged. -/
def callFields : List Wire.Field :=
  [⟨ascii "provider", ascii "string", ascii "first", 0⟩,
   ⟨ascii "http.method", ascii "string", ascii "GET", 0⟩,
   ⟨ascii "provider", ascii "string", ascii "second", 0⟩]

/-- The same fields, the method before the providers. -/
def methodFirst : List Wire.Field :=
  [⟨ascii "http.method", ascii "string", ascii "GET", 0⟩,
   ⟨ascii "provider", ascii "string", ascii "first", 0⟩,
   ⟨ascii "provider", ascii "string", ascii "second", 0⟩]

def callEnvelope (fields : List Wire.Field) : Wire.Envelope where
  schemaVersion := 1
  batchID := encodeID (Bytes.zero 16)
  metadata := ⟨ascii "shop", [], []⟩
  events :=
    [{ eventID := encodeID (Bytes.zero 16), timestampUnixNano := 1000, kind := ascii "call",
       level := ascii "info", fields := fields }]

theorem callFields_histories : SameHistories Wire.Field.key callFields methodFirst := by
  have keys : ∀ field ∈ callFields ++ methodFirst,
      field.key = ascii "provider" ∨ field.key = ascii "http.method" := by
    decide +kernel
  intro key
  by_cases provider : key = ascii "provider"
  · subst provider
    decide +kernel
  by_cases method : key = ascii "http.method"
  · subst method
    decide +kernel
  have other : ∀ field ∈ callFields ++ methodFirst, field.key ≠ key := by
    rintro field member rfl
    exact (keys field member).elim provider method
  rw [history_eq_nil fun field member => other field (List.mem_append_left _ member),
    history_eq_nil fun field member => other field (List.mem_append_right _ member)]

/-- The two orders are different, and give the same record but for its fields. -/
theorem promotion_call :
    callFields ≠ methodFirst ∧
    ∃ batch batch', normalize (callEnvelope callFields) {} = .ok batch ∧
      normalize (callEnvelope methodFirst) {} = .ok batch' ∧
      List.Forall₂ (fun record record' : EventRecord =>
        { record with fields := [] } = { record' with fields := [] }) batch.events batch'.events ∧
      List.Forall₂ (fun (record : EventRecord) event =>
        record.provider = latestText event.fields .provider) batch.events
        (callEnvelope callFields).events ∧
      latestText callFields .provider = ascii "second" := by
  obtain ⟨batch, batch', first, second, _, same, promoted⟩ :=
    @promotion_by_key (callEnvelope callFields) (callEnvelope methodFirst) rfl
      (.cons ⟨rfl, callFields_histories⟩ .nil) (by decide +kernel) (by decide +kernel) {}
  refine ⟨by decide +kernel, batch, batch', first, second, same, promoted.imp ?_, by decide +kernel⟩
  rintro record event ⟨made, _⟩
  exact congrArg EventRecord.provider made

end Trail.Storage
