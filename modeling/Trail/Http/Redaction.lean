/-
**Redaction: what a log call shows of secrets.**

Two exchanges differ in secrets when they have the same headers and query parameters, with the same
values outside the sensitive sets. What is logged of them is the same up to the order of header fields,
if an empty raw query is not compared with one that has no parameters.

* `headerFields_perm`: what is logged of the headers does not depend on sensitive values.
* `redactQuery_lookup`, `requestPath_same`: nor does what is logged of the query.
* `logged_same`: two exchanges that differ in secrets log the same.
* `empty_query_logged`: an empty query and `&` do not.
-/

import Mathlib.Data.List.Perm.Basic
import Trail.Http.Transport

namespace Trail.Http

open Library

/-! ### Exchanges that differ in secrets -/

/-- The list is a range over the set: its members, once each. -/
def Ranges (names : List GoString) (members : GoString → Prop) : Prop :=
  names.Nodup ∧ ∀ name, name ∈ names ↔ members name

section Secrets

variable (net : Net) (c : Config)

/-- The same headers, with the same values where they are not sensitive and for the content type. -/
def SameHeader (first second : Values) : Prop :=
  ∀ name, (name ∈ first ↔ name ∈ second) ∧
    (name ∉ c.headerSensitive ∨ name = ascii "Content-Type" → first.lookup name = second.lookup name)

/-- Queries with the same keys, and the same values where the key is not sensitive. -/
def SameQuery (first second : Values) : Prop :=
  ∀ key, (key ∈ first ↔ key ∈ second) ∧
    (net.toLower key ∉ c.querySensitive → first.lookup key = second.lookup key)

/-- Requests that differ in sensitive headers and query values only. -/
structure SameRequest (first second : Request) : Prop where
  method : first.method = second.method
  scheme : first.url.scheme = second.url.scheme
  host : first.url.host = second.url.host
  escapedPath : first.url.escapedPath = second.url.escapedPath
  query : SameQuery net c (net.parseQuery first.url.rawQuery) (net.parseQuery second.url.rawQuery)
  header : SameHeader c first.header second.header
  contentLength : first.contentLength = second.contentLength

/-- Responses that differ in sensitive headers only. -/
structure SameResponse (first second : Response) : Prop where
  statusCode : first.statusCode = second.statusCode
  header : SameHeader c first.header second.header
  contentLength : first.contentLength = second.contentLength

/-- **Exchanges that differ in secrets only.** -/
structure SameExchange (first second : Exchange) : Prop where
  request : SameRequest net c first.request second.request
  response : Option.Rel (SameResponse c) first.response second.response
  correlation : first.correlation = second.correlation
  duration : first.duration = second.duration
  requestCapture : first.requestCapture = second.requestCapture
  responseCapture : first.responseCapture = second.responseCapture
  transportErr : first.transportErr = second.transportErr

variable {net c}

theorem SameHeader.contentType {first second : Values} (same : SameHeader c first second) :
    contentType first = contentType second := by
  unfold Http.contentType
  rw [(same _).2 (.inr rfl)]

theorem SameHeader.headerField {first second : Values} (same : SameHeader c first second)
    (start name : GoString) :
    headerField net c start first name = headerField net c start second name := by
  unfold Http.headerField
  by_cases sensitive : name ∈ c.headerSensitive
  · simp only [if_pos sensitive]
    cases here : first.lookup name with
    | none =>
      have missing : second.lookup name = none := by
        rw [AList.lookup_eq_none, ← (same name).1, ← AList.lookup_eq_none]
        exact here
      rw [missing]
    | some values =>
      obtain ⟨others, there⟩ := Table.lookup_of_mem ((same name).1.mp (Table.mem_of_lookup here))
      rw [there, Option.map_some, Option.map_some]
  · rw [(same name).2 (.inl sensitive)]

/-- **What is logged of the headers**, whatever the order of the ranges. -/
theorem headerFields_perm {names names' : List GoString} (orders : names.Perm names')
    {first second : Values} (same : SameHeader c first second) (start : GoString) :
    (headerFields net c names start first).Perm (headerFields net c names' start second) := by
  unfold headerFields
  rw [show headerField net c start first = headerField net c start second from
    funext fun name => same.headerField start name]
  exact orders.filterMap _

theorem redactQuery_lookup (keys : List GoString) (query : Values) (key : GoString) :
    (redactQuery net c keys query).lookup key =
      if key ∈ keys ∧ net.toLower key ∈ c.querySensitive then some [redacted]
      else query.lookup key := by
  induction keys generalizing query with
  | nil => simp [redactQuery]
  | cons other keys ih =>
    unfold redactQuery at ih ⊢
    rw [List.foldl_cons, ih]
    by_cases same : key = other
    · subst same
      by_cases sensitive : net.toLower key ∈ c.querySensitive <;> simp [sensitive]
    · have kept : ∀ values : List GoString, (query.insert other values).lookup key =
          query.lookup key := fun values => AList.lookup_insert_ne same
      by_cases sensitive : net.toLower other ∈ c.querySensitive <;> simp [sensitive, same, kept]

/-- **The redacted query does not depend on sensitive values.** -/
theorem redactQuery_same {keys keys' : List GoString} {first second : Values}
    (range : Ranges keys (· ∈ first)) (range' : Ranges keys' (· ∈ second))
    (same : SameQuery net c first second) (key : GoString) :
    (redactQuery net c keys first).lookup key = (redactQuery net c keys' second).lookup key := by
  rw [redactQuery_lookup, redactQuery_lookup]
  simp only [range.2, range'.2, (same key).1]
  by_cases sensitive : net.toLower key ∈ c.querySensitive
  · by_cases here : key ∈ second
    · simp [sensitive, here]
    · have missing : key ∉ first := fun there => here ((same key).1.mp there)
      simp only [here, false_and, if_false]
      rw [AList.lookup_eq_none.mpr here, AList.lookup_eq_none.mpr missing]
  · simp only [sensitive, and_false, if_false]
    exact (same key).2 sensitive

/-- **The logged path**, when a query that is logged is empty in both requests or in neither. -/
theorem requestPath_same {keys keys' : List GoString} {first second : Request}
    (same : SameRequest net c first second)
    (range : Ranges keys (· ∈ net.parseQuery first.url.rawQuery))
    (range' : Ranges keys' (· ∈ net.parseQuery second.url.rawQuery))
    (raw : c.includeQuery = true → (first.url.rawQuery = [] ↔ second.url.rawQuery = [])) :
    requestPath net c keys first.url = requestPath net c keys' second.url := by
  have encoded := net.encode_map _ _ (redactQuery_same range range' same.query)
  unfold requestPath
  dsimp only
  rw [same.escapedPath, encoded]
  by_cases included : c.includeQuery = true
  · simp only [ne_eq, raw included]
  · rw [if_neg fun both => included both.1, if_neg fun both => included both.1]

/-! ### Noninterference -/

/-- Fields of headers under the given start of their keys. -/
def HeaderFields (start : String) (options : List LogOption) : Prop :=
  ∀ option ∈ options, ∃ name value, option = .string (ascii start ++ name) value

/-- **Equal up to the order of header fields.** -/
def SameUpToHeaders (first second : List LogOption) : Prop :=
  ∃ before requests requests' responses responses' after,
    first = before ++ requests ++ responses ++ after ∧
    second = before ++ requests' ++ responses' ++ after ∧
    requests.Perm requests' ∧ HeaderFields "http.request.header." requests ∧
    responses.Perm responses' ∧ HeaderFields "http.response.header." responses

/-- What is logged of two exchanges, by a job for the spooler or without one. -/
structure SameLogged (first second : Prepared) : Prop where
  kind : first.kind = second.kind
  options : SameUpToHeaders first.options second.options
  refused : SameUpToHeaders first.refused second.refused
  job : Option.Rel (fun job job' => job.kind = job'.kind ∧ SameUpToHeaders job.options job'.options ∧
    job.request = job'.request ∧ job.response = job'.response) first.job second.job

theorem SameUpToHeaders.append {first second : List LogOption} (same : SameUpToHeaders first second)
    (more : List LogOption) : SameUpToHeaders (first ++ more) (second ++ more) := by
  obtain ⟨before, requests, requests', responses, responses', after, rfl, rfl, rest⟩ := same
  exact ⟨before, requests, requests', responses, responses', after ++ more,
    List.append_assoc .., List.append_assoc .., rest⟩

theorem SameUpToHeaders.perm {first second : List LogOption} (same : SameUpToHeaders first second) :
    first.Perm second := by
  obtain ⟨before, requests, requests', responses, responses', after, rfl, rfl, left, _, right, _⟩ :=
    same
  exact ((left.append_left before).append right).append_right after

theorem headerFields_keys (names : List GoString) (start : String) (header : Values) :
    HeaderFields start (headerFields net c names (ascii start) header) := by
  intro option member
  obtain ⟨name, _, field⟩ := List.mem_filterMap.mp member
  obtain ⟨values, _, rfl⟩ := Option.map_eq_some_iff.mp field
  exact ⟨_, _, rfl⟩

section Same

variable {first second : Exchange}

theorem SameExchange.response_cases (same : SameExchange net c first second) :
    first.response = none ∧ second.response = none ∨
      ∃ one two, first.response = some one ∧ second.response = some two ∧ SameResponse c one two := by
  have related := same.response
  generalize first.response = one at related ⊢
  generalize second.response = two at related ⊢
  cases related with
  | none => exact .inl ⟨rfl, rfl⟩
  | some alike => exact .inr ⟨_, _, rfl, rfl, alike⟩

theorem SameExchange.leadingOptions {keys keys' : List GoString}
    (same : SameExchange net c first second)
    (path : requestPath net c keys first.request.url = requestPath net c keys' second.request.url) :
    leadingOptions net c keys first = leadingOptions net c keys' second := by
  have outcome : outcomeOptions c first = outcomeOptions c second := by
    unfold outcomeOptions
    rw [same.transportErr, same.responseCapture]
    rcases same.response_cases with ⟨left, right⟩ | ⟨one, two, left, right, alike⟩
    · rw [left, right]
    · rw [left, right]
      cases second.transportErr with
      | some text => rfl
      | none =>
        dsimp only
        rw [alike.statusCode, alike.contentLength]
  unfold Http.leadingOptions requestFields
  rw [outcome, path, same.request.method, same.request.scheme, same.request.host,
    same.request.contentLength, same.duration, same.requestCapture, same.correlation]

theorem SameExchange.previewOptions (same : SameExchange net c first second) :
    previewOptions c first = previewOptions c second := by
  unfold Http.previewOptions previewField
  rw [same.requestCapture, same.responseCapture, same.request.header.contentType]
  rcases same.response_cases with ⟨left, right⟩ | ⟨one, two, left, right, alike⟩
  · rw [left, right]
  · rw [left, right]
    cases second.responseCapture with
    | none => rfl
    | some capture =>
      dsimp only
      rw [alike.header.contentType]

theorem SameExchange.spoolBodies (same : SameExchange net c first second) :
    spoolBodies c first = spoolBodies c second := by
  unfold Http.spoolBodies
  rw [same.requestCapture, same.responseCapture, same.request.header.contentType]
  rcases same.response_cases with ⟨left, right⟩ | ⟨one, two, left, right, alike⟩
  · rw [left, right]
  · rw [left, right]
    cases second.responseCapture with
    | none => rfl
    | some capture =>
      dsimp only
      rw [alike.header.contentType]

theorem SameExchange.logOptions {keys keys' names names' others others' : List GoString}
    (same : SameExchange net c first second)
    (path : requestPath net c keys first.request.url = requestPath net c keys' second.request.url)
    (orders : names.Perm others) (orders' : names'.Perm others') :
    SameUpToHeaders (logOptions net c keys names names' first)
      (logOptions net c keys' others others' second) := by
  unfold Http.logOptions
  rw [same.leadingOptions path, same.previewOptions]
  refine ⟨_, _, _, _, _, _, rfl, rfl, headerFields_perm orders same.request.header _,
    headerFields_keys _ _ _, ?_, ?_⟩
  · rcases same.response_cases with ⟨left, right⟩ | ⟨one, two, left, right, alike⟩
    · rw [left, right]
    · rw [left, right]
      exact headerFields_perm orders' alike.header _
  · cases first.response with
    | none => exact fun _ none => absurd none List.not_mem_nil
    | some response => exact headerFields_keys _ _ _

end Same

end Secrets

/-- **Redaction noninterference.** Under every option set, two exchanges that differ in sensitive header
and query values log the same up to the order of header fields, if their raw queries, when queries are
logged, are both empty or both not. -/
theorem logged_same (net : Net) (options : List Setting) (first second : Exchange)
    (same : SameExchange net (wrap net options) first second)
    (raw : (wrap net options).includeQuery = true →
      (first.request.url.rawQuery = [] ↔ second.request.url.rawQuery = []))
    (keys keys' names names' others others' : List GoString)
    (queries : Ranges keys (· ∈ net.parseQuery first.request.url.rawQuery) ∧
      Ranges keys' (· ∈ net.parseQuery second.request.url.rawQuery))
    (headers : ∀ order ∈ [names, names', others, others'],
      Ranges order (· ∈ (wrap net options).headerAllow)) :
    SameLogged (prepare net (wrap net options) keys names names' first)
      (prepare net (wrap net options) keys' others others' second) := by
  have ranged : ∀ one ∈ [names, names', others, others'], ∀ two ∈ [names, names', others, others'],
      one.Perm two := fun one here two there =>
    (List.perm_ext_iff_of_nodup (headers one here).1 (headers two there).1).mpr fun name =>
      ((headers one here).2 name).trans ((headers two there).2 name).symm
  have logged := same.logOptions (requestPath_same same.request queries.1 queries.2 raw)
    (ranged names (by simp) others (by simp)) (ranged names' (by simp) others' (by simp))
  refine ⟨rfl, logged, logged.append _, ?_⟩
  unfold prepare
  dsimp only
  rw [same.spoolBodies]
  cases spoolBodies (wrap net options) second with
  | none => exact .none
  | some bodies => exact .some ⟨rfl, logged, rfl, rfl⟩

/-! ### Tokens, and queries without parameters -/

section Tokens

/-- The parameters of a query without escapes. -/
def splitQuery (raw : GoString) : Values :=
  (raw.splitOn 38).foldl (fun query pair =>
    if pair = [] then query
    else
      let name := pair.takeWhile (· ≠ 61)
      query.insert name ((query.lookup name).getD [] ++ [(pair.dropWhile (· ≠ 61)).drop 1])) ∅

/-- Queries without escapes of the parameters `q` and `token`. -/
def plainNet : Net where
  canonicalHeaderKey := id
  toLower text := text.map toLower
  parseQuery := splitQuery
  encode query := (ascii "&").intercalate ((["q", "token"].map ascii).flatMap fun name =>
    ((query.lookup name).getD []).map fun value => name ++ ascii "=" ++ value)
  encode_map first second same := by simp only [same]

def orderRequest (rawQuery token : GoString) : Request where
  method := ascii "GET"
  url := ⟨ascii "https", ascii "api", ascii "/orders", rawQuery⟩
  header := AList.insert (ascii "Authorization") [token] ∅
  contentLength := 0

def orderExchange (rawQuery token : GoString) : Exchange where
  request := orderRequest rawQuery token
  response := none
  correlation := {}
  duration := 5
  requestCapture := newCapture 0 0
  responseCapture := none
  transportErr := some (ascii "timeout")

def tokenSettings : List Setting :=
  [.includeQuery true, .captureHeaders [ascii "Authorization"]]

theorem sameHeader_insert {c : Config} {name : GoString} (sensitive : name ∈ c.headerSensitive)
    (other : name ≠ ascii "Content-Type") (header : Values) (values values' : List GoString) :
    SameHeader c (header.insert name values) (header.insert name values') := by
  intro key
  refine ⟨by rw [AList.mem_insert, AList.mem_insert], fun plain => ?_⟩
  have differs : key ≠ name := by
    rintro rfl
    exact plain.elim (fun unlisted => unlisted sensitive) other
  rw [AList.lookup_insert_ne differs, AList.lookup_insert_ne differs]

theorem sameQuery_insert {net : Net} {c : Config} {name : GoString}
    (sensitive : net.toLower name ∈ c.querySensitive) (query : Values)
    (values values' : List GoString) :
    SameQuery net c (query.insert name values) (query.insert name values') := by
  intro key
  refine ⟨by rw [AList.mem_insert, AList.mem_insert], fun plain => ?_⟩
  have differs : key ≠ name := by
    rintro rfl
    exact plain sensitive
  rw [AList.lookup_insert_ne differs, AList.lookup_insert_ne differs]

theorem sameExchange_of_query {rawQuery rawQuery' : GoString} (token token' : GoString)
    (query : SameQuery plainNet (wrap plainNet tokenSettings) (splitQuery rawQuery)
      (splitQuery rawQuery')) :
    SameExchange plainNet (wrap plainNet tokenSettings) (orderExchange rawQuery token)
      (orderExchange rawQuery' token') where
  request := {
    method := rfl
    scheme := rfl
    host := rfl
    escapedPath := rfl
    query := query
    header := sameHeader_insert (by decide +kernel) (by decide) _ _ _
    contentLength := rfl }
  response := .none
  correlation := rfl
  duration := rfl
  requestCapture := rfl
  responseCapture := rfl
  transportErr := rfl

/-- **An empty query and one without parameters** have the same values, and the second is logged with a
question mark. -/
theorem empty_query_logged :
    SameExchange plainNet (wrap plainNet tokenSettings) (orderExchange [] (ascii "a"))
      (orderExchange (ascii "&") (ascii "a")) ∧
    ¬ SameLogged
      (prepare plainNet (wrap plainNet tokenSettings) [] [ascii "Authorization"]
        [ascii "Authorization"] (orderExchange [] (ascii "a")))
      (prepare plainNet (wrap plainNet tokenSettings) [] [ascii "Authorization"]
        [ascii "Authorization"] (orderExchange (ascii "&") (ascii "a"))) := by
  refine ⟨sameExchange_of_query _ _ fun key => ⟨Iff.rfl, fun _ => rfl⟩, fun same => ?_⟩
  have logged : LogOption.string (ascii "http.path") (ascii "/orders") ∈
      (prepare plainNet (wrap plainNet tokenSettings) [] [ascii "Authorization"]
        [ascii "Authorization"] (orderExchange [] (ascii "a"))).options := by decide +kernel
  have missing : LogOption.string (ascii "http.path") (ascii "/orders") ∉
      (prepare plainNet (wrap plainNet tokenSettings) [] [ascii "Authorization"]
        [ascii "Authorization"] (orderExchange (ascii "&") (ascii "a"))).options := by decide +kernel
  exact missing (same.options.perm.mem_iff.mp logged)

/-- Two tokens, in the query and in a header. -/
theorem tokens_redacted :
    SameLogged
      (prepare plainNet (wrap plainNet tokenSettings) [ascii "token"] [ascii "Authorization"]
        [ascii "Authorization"] (orderExchange (ascii "token=a") (ascii "a")))
      (prepare plainNet (wrap plainNet tokenSettings) [ascii "token"] [ascii "Authorization"]
        [ascii "Authorization"] (orderExchange (ascii "token=b") (ascii "b"))) := by
  have one : ∀ value, Ranges [ascii "token"]
      (· ∈ (AList.insert (ascii "token") [value] ∅ : Values)) := by
    refine fun value => ⟨by decide, fun key => ?_⟩
    dsimp only
    rw [List.mem_singleton, AList.mem_insert]
    simp [AList.notMem_empty]
  have headers : Ranges [ascii "Authorization"] (· ∈ (wrap plainNet tokenSettings).headerAllow) := by
    refine ⟨by decide, fun name => ?_⟩
    have allowed : (wrap plainNet tokenSettings).headerAllow = {ascii "Authorization"} := by
      decide +kernel
    rw [allowed]
    simp
  refine logged_same plainNet tokenSettings _ _
    (sameExchange_of_query _ _ (sameQuery_insert (by decide +kernel) ∅ [ascii "a"] [ascii "b"]))
    (fun _ => by decide) _ _ _ _ _ _ ⟨one (ascii "a"), one (ascii "b")⟩ ?_
  intro order member
  simp only [List.mem_cons, List.not_mem_nil, or_false] at member
  rcases member with rfl | rfl | rfl | rfl <;> exact headers

end Tokens

end Trail.Http
