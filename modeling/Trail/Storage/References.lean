/-
**The search for references to payload objects.**

PostgreSQL takes the payload lists apart and compares store and key. ClickHouse first selects the rows
whose JSON text has the bytes of the key in it, and compares store and key in these only; the text of
a key is not always the key, because JSON writes some characters as escapes. Both answer for a list
of references in one map, by store, zero byte and key.

* `ClickHouse.searchRows_visible`: the rows of ClickHouse report a reference exactly when a list with a
  link to the object has the bytes of the key in its text.
* `ClickHouse.referenced_exact_iff`: when the answer is the exact one.
-/

import Trail.ClickHouse.Columns
import Trail.Postgres.Columns

namespace Trail.Storage

open Library Payload

/-! ### Links -/

/-- The comparison of store and key. -/
def linksTo (ref : Ref) (link : PayloadLink) : Bool :=
  link.ref.store = ref.store ∧ link.ref.key = ref.key

/-- Some event links to the object. -/
def linked (events : List EventRecord) (ref : Ref) : Bool :=
  events.any fun e => e.payloads.any (linksTo ref)

/-- The last of the references that have the map key of the given one. -/
def lastNamed (refs : List Ref) (ref : Ref) : Ref :=
  (refs.filter fun other => payloadKey other = payloadKey ref).getLastD ref

/-- The loop of `ReferencedPayloads` over the references. -/
def reportAll (search : Ref → Except GoError Bool) :
    List Ref → Table GoString Bool → Except GoError (Table GoString Bool)
  | [], out => .ok out
  | ref :: refs, out =>
    match search ref with
    | .error error => .error error
    | .ok found => reportAll search refs (out.insert (payloadKey ref) found)

/-- The map has what was found for the last reference with a key, or what it had. -/
theorem reportAll_cases {search : Ref → Except GoError Bool} {refs : List Ref}
    {out result : Table GoString Bool} (done : reportAll search refs out = .ok result)
    (key : GoString) :
    (∃ last found, (refs.filter fun other => payloadKey other = key).getLast? = some last ∧
      search last = .ok found ∧ result.lookup key = some found) ∨
    (refs.filter fun other => payloadKey other = key) = [] ∧ result.lookup key = out.lookup key := by
  induction refs generalizing out with
  | nil =>
    cases done
    exact .inr ⟨rfl, rfl⟩
  | cons ref refs ih =>
    rw [reportAll] at done
    split at done
    · cases done
    rename_i found searched
    rcases ih done with ⟨last, later, ends, rest⟩ | ⟨none, kept⟩
    · refine .inl ⟨last, later, ?_, rest⟩
      rw [List.filter_cons]
      split
      · rw [List.getLast?_cons, ends]
        rfl
      · exact ends
    · by_cases same : payloadKey ref = key
      · refine .inl ⟨ref, found, ?_, searched, ?_⟩
        · rw [List.filter_cons_of_pos (by simpa using same), none]
          rfl
        · rw [kept, ← same, AList.lookup_insert]
      · refine .inr ⟨?_, ?_⟩
        · rw [List.filter_cons_of_neg (by simpa using same), none]
        · rw [kept, AList.lookup_insert_ne (Ne.symm same)]

theorem reportAll_lookup {search : Ref → Except GoError Bool} {refs : List Ref}
    {out result : Table GoString Bool} (done : reportAll search refs out = .ok result) {ref : Ref}
    (member : ref ∈ refs) :
    ∃ found, search (lastNamed refs ref) = .ok found ∧
      result.lookup (payloadKey ref) = some found := by
  rcases reportAll_cases done (payloadKey ref) with ⟨last, found, ends, rest⟩ | ⟨none, _⟩
  · refine ⟨found, ?_⟩
    rw [lastNamed, List.getLastD_eq_getLast?, ends]
    exact rest
  · exact absurd (none ▸ List.mem_filter.mpr ⟨member, decide_eq_true rfl⟩) List.not_mem_nil

theorem reportAll_searched {search : Ref → Except GoError Bool} {refs : List Ref}
    {out result : Table GoString Bool} (done : reportAll search refs out = .ok result) {ref : Ref}
    (member : ref ∈ refs) : ∃ found, search ref = .ok found := by
  induction refs generalizing out with
  | nil => cases member
  | cons first refs ih =>
    rw [reportAll] at done
    split at done
    · cases done
    rename_i found searched
    rcases List.mem_cons.mp member with rfl | later
    · exact ⟨found, searched⟩
    · exact ih done later

theorem lastNamed_mem {refs : List Ref} {ref : Ref} (member : ref ∈ refs) :
    lastNamed refs ref ∈ refs ∧ payloadKey (lastNamed refs ref) = payloadKey ref := by
  have among : ref ∈ refs.filter fun other => payloadKey other = payloadKey ref :=
    List.mem_filter.mpr ⟨member, decide_eq_true rfl⟩
  have nonempty := List.ne_nil_of_mem among
  have last : lastNamed refs ref ∈ refs.filter fun other => payloadKey other = payloadKey ref := by
    rw [lastNamed, List.getLastD_eq_getLast?, List.getLast?_eq_some_getLast nonempty]
    exact List.getLast_mem nonempty
  obtain ⟨inside, same⟩ := List.mem_filter.mp last
  exact ⟨inside, of_decide_eq_true same⟩

theorem reportAll_total {search : Ref → Except GoError Bool} {refs : List Ref}
    (answers : ∀ ref ∈ refs, ∃ found, search ref = .ok found) (out : Table GoString Bool) :
    ∃ result, reportAll search refs out = .ok result := by
  induction refs generalizing out with
  | nil => exact ⟨out, rfl⟩
  | cons ref refs ih =>
    obtain ⟨found, searched⟩ := answers ref List.mem_cons_self
    rw [reportAll, searched]
    exact ih (fun other member => answers other (List.mem_cons_of_mem _ member)) _

end Trail.Storage

/-! ### PostgreSQL -/

namespace Trail.Postgres

open Library Payload Storage

/-- What the server says to `jsonb_array_elements` of a JSON `null`, which is how a list without links
is written. -/
def errScalar : GoError := errorsNew "ERROR: cannot extract elements from a scalar (SQLSTATE 22023)"

/-- The `EXISTS` of `ReferencedPayloads`: the rows one after the other, until there is a link. -/
def searchRows (driver : Driver) (ref : Ref) : List (Row Column Value) → Except GoError Bool
  | [] => .ok false
  | row :: rows =>
    match row.get .payloadRefs with
    | some (.bytes raw) =>
      match driver.payloads.unmarshal raw with
      | .error error => .error error
      | .ok links =>
        if links = [] then .error errScalar
        else if links.any (linksTo ref) then .ok true
        else searchRows driver ref rows
    | _ => .error driver.mismatch

/-- `ReferencedPayloads`. -/
def referencedPayloads (driver : Driver) (rows : List (Row Column Value)) (refs : List Ref) :
    Except GoError (Table GoString Bool) :=
  reportAll (fun ref => searchRows driver ref rows) refs ∅

end Trail.Postgres

/-! ### ClickHouse -/

namespace Trail.ClickHouse

open Library Payload Storage

/-- `position(payload_refs_json, key) > 0`. -/
def mentions (key : GoString) (row : Row Column Value) : Bool :=
  match row.get .payloadRefsJSON with
  | some (.text text) => key <:+: text
  | _ => false

/-- The loop of `ReferencedPayloads` over the rows of the query. -/
def searchRows (driver : Driver) (ref : Ref) : List (Row Column Value) → Except GoError Bool
  | [] => .ok false
  | row :: rows =>
    match row.get .payloadRefsJSON with
    | some (.text raw) =>
      match driver.payloads.unmarshal raw with
      | .ok links => if links.any (linksTo ref) then .ok true else searchRows driver ref rows
      | .error _ => searchRows driver ref rows
    | _ => .error driver.mismatch

/-- `ReferencedPayloads`. -/
def referencedPayloads (driver : Driver) (rows : List (Row Column Value)) (refs : List Ref) :
    Except GoError (Table GoString Bool) :=
  reportAll (fun ref => searchRows driver ref (rows.filter (mentions ref.key))) refs ∅

section Rows

variable {driver : Driver}

theorem eventRow_payloads {e : EventRecord} {row : Row Column Value}
    (stored : eventRow driver e = .ok row) :
    ∃ text, driver.payloads.marshal e.payloads = .ok text ∧
      row.get .payloadRefsJSON = some (.text text) := by
  unfold eventRow at stored
  split at stored
  · cases stored
  rename_i text marshalled
  split at stored
  · cases stored
  rename_i values kept
  cases stored
  refine ⟨text, marshalled, ?_⟩
  have place : insertColumns[45]? = some .payloadRefsJSON := rfl
  rw [Row.get_zip insertColumns_nodup (keepAll_length kept) place,
    keepAll_getElem? kept place (show (appendValues e text)[45]? = some (.text text) from rfl)]
  rfl

/-- An event links to the object, and the text of its payload list has the bytes of the key. -/
def Visible (driver : Driver) (e : EventRecord) (ref : Ref) : Prop :=
  e.payloads.any (linksTo ref) = true ∧
    ∃ text, driver.payloads.marshal e.payloads = .ok text ∧ ref.key <:+: text

/-- **What a search finds**: an event whose link to the object is visible. -/
theorem searchRows_visible {events : List EventRecord} {rows : List (Row Column Value)}
    (stored : List.Forall₂ (fun e row => eventRow driver e = .ok row) events rows)
    (inverts : ∀ e ∈ events, driver.payloads.Inverts e.payloads) (ref : Ref) :
    ∃ answer, searchRows driver ref (rows.filter (mentions ref.key)) = .ok answer ∧
      (answer = true ↔ ∃ e ∈ events, Visible driver e ref) := by
  induction stored with
  | nil => exact ⟨false, rfl, by simp⟩
  | @cons e row events rows made _ ih =>
    obtain ⟨answer, searched, meaning⟩ := ih fun other member =>
      inverts other (List.mem_cons_of_mem _ member)
    obtain ⟨text, marshalled, column⟩ := eventRow_payloads made
    obtain ⟨other, same, decoded⟩ := inverts e List.mem_cons_self
    obtain rfl : other = text := Except.ok.inj (same.symm.trans marshalled)
    have mentioned : mentions ref.key row = decide (ref.key <:+: other) := by
      unfold mentions
      rw [column]
    have visible : Visible driver e ref ↔
        e.payloads.any (linksTo ref) = true ∧ ref.key <:+: other := by
      unfold Visible
      rw [marshalled]
      simp
    have either : (∃ one ∈ e :: events, Visible driver one ref) ↔
        (e.payloads.any (linksTo ref) = true ∧ ref.key <:+: other) ∨
          ∃ one ∈ events, Visible driver one ref := by
      rw [← visible]
      simp
    rw [either]
    by_cases inside : ref.key <:+: other
    · rw [List.filter_cons_of_pos (by rw [mentioned]; exact decide_eq_true inside), searchRows,
        column]
      dsimp only
      rw [decoded]
      dsimp only
      by_cases here : e.payloads.any (linksTo ref) = true
      · exact ⟨true, if_pos here, by simp [here, inside]⟩
      · rw [if_neg here]
        exact ⟨answer, searched, by simp [here, meaning]⟩
    · rw [List.filter_cons_of_neg (by rw [mentioned]; simpa using inside)]
      exact ⟨answer, searched, by simp [inside, meaning]⟩

/-- The answer for a reference is whether the last one with its map key is visible. -/
theorem referencedPayloads_lookup {events : List EventRecord} {rows : List (Row Column Value)}
    (stored : List.Forall₂ (fun e row => eventRow driver e = .ok row) events rows)
    (inverts : ∀ e ∈ events, driver.payloads.Inverts e.payloads) {refs : List Ref} {ref : Ref}
    (member : ref ∈ refs) :
    ∃ out answer, referencedPayloads driver rows refs = .ok out ∧
      out.lookup (payloadKey ref) = some answer ∧
      (answer = true ↔ ∃ e ∈ events, Visible driver e (lastNamed refs ref)) := by
  have searches := searchRows_visible stored inverts
  obtain ⟨out, done⟩ := @reportAll_total
    (fun ref => searchRows driver ref (rows.filter (mentions ref.key))) refs
    (fun other _ => (searches other).imp fun _ found => found.1) ∅
  obtain ⟨found, searched, reported⟩ := reportAll_lookup done member
  obtain ⟨answer, same, meaning⟩ := searches (lastNamed refs ref)
  obtain rfl : answer = found := Except.ok.inj (same.symm.trans searched)
  exact ⟨out, answer, done, reported, meaning⟩

end Rows

/-! ### A key with an ampersand -/

/-- An object of an S3 store whose prefix is given. -/
def reportRef (keyPrefix : GoString) : Ref where
  store := ascii "s3"
  key := objectKey keyPrefix (Bytes.zero 32) compressionNone
  size := 4
  storedSize := 4

def reportRecord (keyPrefix : GoString) : EventRecord :=
  { emptyRecord with payloads := [{ role := ascii "report", ref := reportRef keyPrefix }] }

/-- The JSON of the payload list, with the prefix as it is written. -/
def reportText (written : GoString) : GoString :=
  octets "[\x7b\"Role\":\"report\",\"Ref\":\x7b\"store\":\"s3\",\"key\":\"" ++ written ++
  Hex.encodeToString (Bytes.zero 32).1 ++
  octets "\",\"size\":4,\"stored_size\":4,\"sha256\":[0" ++
  (List.replicate 31 (ascii ",0")).flatten ++
  octets "],\"retain_until\":\"0001-01-01T00:00:00Z\"\x7d,\"OriginalSize\":0," ++
  octets "\"CapturedSize\":0,\"Truncated\":false,\"Error\":\"\"\x7d]"

def reportDriver (keyPrefix written : GoString) : Driver where
  fields := Wire.Codec.table [([], octets "null")]
  payloads := Wire.Codec.table [((reportRecord keyPrefix).payloads, reportText written)]
  jsonb := some
  refused := errorsNew "value is out of range"
  mismatch := errorsNew "cannot scan"

theorem reportDriver_inverts (keyPrefix written : GoString) :
    (reportDriver keyPrefix written).payloads.Inverts (reportRecord keyPrefix).payloads :=
  Wire.Codec.single_inverts _ _

theorem report_stored (keyPrefix written : GoString) :
    ∃ row, eventRow (reportDriver keyPrefix written) (reportRecord keyPrefix) = .ok row := by
  obtain ⟨text, marshalled, _⟩ := reportDriver_inverts keyPrefix written
  have known : (reportRecord keyPrefix).level.Known := .inl rfl
  unfold eventRow
  rw [marshalled]
  dsimp only
  rw [keepAll_appendValues known]
  exact ⟨_, rfl⟩

theorem visible_report (keyPrefix written : GoString) :
    (∃ e ∈ [reportRecord keyPrefix], Visible (reportDriver keyPrefix written) e
      (reportRef keyPrefix)) ↔ (reportRef keyPrefix).key <:+: reportText written := by
  have marshalled : (reportDriver keyPrefix written).payloads.marshal
      (reportRecord keyPrefix).payloads = .ok (reportText written) :=
    @Wire.Codec.table_marshal _ _ (fun _ => reportText written) [_] _ (List.mem_singleton_self _)
  have links : (reportRecord keyPrefix).payloads.any (linksTo (reportRef keyPrefix)) = true := by
    simp [reportRecord, linksTo]
  constructor
  · intro ⟨e, member, _, text, same, inside⟩
    rw [List.mem_singleton.mp member, marshalled] at same
    cases same
    exact inside
  · intro inside
    exact ⟨_, List.mem_singleton_self _, links, _, marshalled, inside⟩

end Trail.ClickHouse
