/-
**The Explorer API.**

The handlers of the listings and details over a store, with the request as its query parameters and path
values. An answer is a status with the value that is written as JSON; headers are left out.

The codecs of cursors and times are those of the standard library: `base64.RawURLEncoding`,
`encoding/json` at `Cursor`, and `time.Parse`.

* `respond_eq_ok`: a value is answered when the store has it.
* `of_page`: the limit, the cursor and the order of a request.
* `of_listed`, `listed_of`: a listing answers a page of the store.
-/

import Trail.ClickHouse.Listings
import Trail.Payload.Store
import Trail.Postgres.Listings
import Trail.Wire.Decimal

namespace Trail.Explorer

open Library Storage

/-! ### Requests -/

/-- The query parameters of a request. -/
structure Query where
  values : List (GoString × GoString)

/-- `url.Values.Get`. -/
def Query.get (q : Query) (name : String) : GoString :=
  ((q.values.find? fun entry => entry.1 = ascii name).map Prod.snd).getD []

/-- What the handlers use of the standard library; the empty text is no time. -/
structure Codecs where
  encodeBase64 : List UInt8 → GoString
  decodeBase64 : GoString → Option (List UInt8)
  cursor : Wire.Codec Cursor
  parseTime : GoString → Option Time
  parseTime_nil : parseTime [] = none

theorem parse_none : (fun _ : GoString => (none : Option Time)) [] = none := rfl

/-- `ErrInvalidCursor`. -/
def errInvalidCursor : GoError :=
  { text := ascii "trail/storage: invalid cursor", wraps := [.storageInvalidCursor] }

/-- `strconv.Atoi`: the number, or the nearest one, and whether the text is one. -/
def atoi (text : GoString) : Int64 × Bool :=
  match Wire.digitsValue (Wire.signed text).2 with
  | none => (0, false)
  | some value =>
    if (Wire.signed text).1 then
      if 2 ^ 63 < value then (Int64.minValue, false) else (Int64.ofInt (-value), true)
    else if 2 ^ 63 ≤ value then (Int64.maxValue, false) else (Int64.ofInt value, true)

/-- `strconv.ParseBool`. -/
def parseBool (text : GoString) : Option Bool :=
  if text ∈ ["1", "t", "T", "true", "TRUE", "True"].map ascii then some true
  else if text ∈ ["0", "f", "F", "false", "FALSE", "False"].map ascii then some false
  else none

section Requests

variable (codecs : Codecs)

/-- `decodeCursor`. -/
def decodeCursor (raw : GoString) : Except GoError Cursor :=
  if raw = [] then .ok {}
  else
    match codecs.decodeBase64 raw with
    | none => .error errInvalidCursor
    | some data =>
      match codecs.cursor.unmarshal data with
      | .error _ => .error errInvalidCursor
      | .ok c => .ok c

/-- `encodeCursor`; the error of `json.Marshal` is dropped. -/
def encodeCursor (c : Cursor) : GoString :=
  if c.id = [] then []
  else
    match codecs.cursor.marshal c with
    | .error _ => codecs.encodeBase64 []
    | .ok data => codecs.encodeBase64 data

/-- `page`. -/
def page (q : Query) : Except GoError PageRequest :=
  let raw := q.get "limit"
  let n := atoi raw
  if raw ≠ [] ∧ (¬ n.2 ∨ n.1 < 1 ∨ 500 < n.1) then
    .error (errorsNew "limit must be between 1 and 500")
  else
    let limit := if raw = [] then 100 else n.1
    (decodeCursor codecs (q.get "cursor")).map fun c =>
      ⟨limit, c, q.get "order" ≠ ascii "asc"⟩

/-- `timeRange`; a text that is no time is the zero time. -/
def timeRange (q : Query) : TimeRange :=
  ⟨(codecs.parseTime (q.get "from")).getD zeroTime, (codecs.parseTime (q.get "to")).getD zeroTime⟩

end Requests

/-- `scopeFilter`. -/
def scopeFilter (q : Query) : Scope := ⟨q.get "scope_type", q.get "scope_id"⟩

/-- `scopeAllowed`. -/
def scopeAllowed (requested actual : Scope) : Bool := isZero requested ∨ requested = actual

/-- An identifier of a filter; one that cannot be read is the zero identifier. -/
def filterID (text : GoString) : Bytes 16 :=
  if text = [] then Bytes.zero 16
  else
    match decodeID text with
    | .error _ => Bytes.zero 16
    | .ok id => id

/-- `parseLevel`. -/
def parseLevel (text : GoString) : Level :=
  if text = ascii "debug" then Level.debug
  else if text = ascii "warn" then Level.warn
  else if text = ascii "error" then Level.error
  else Level.info

section Filters

variable (codecs : Codecs) (q : Query)

/-- `flowFilter`. -/
def flowFilter : FlowFilter where
  time := timeRange codecs q
  service := q.get "service"
  environment := q.get "environment"
  status := q.get "status"
  entityType := q.get "entity_type"
  entityID := q.get "entity_id"
  scope := scopeFilter q
  executionID := filterID (q.get "execution_id")

/-- `executionFilter`. -/
def executionFilter : ExecutionFilter where
  time := timeRange codecs q
  service := q.get "service"
  environment := q.get "environment"
  status := q.get "status"
  source := q.get "source"
  kind := q.get "kind"
  scope := scopeFilter q

/-- `entityFilter`. -/
def entityFilter : EntityFilter where
  time := timeRange codecs q
  service := q.get "service"
  environment := q.get "environment"
  entityType := q.get "entity_type"
  idPrefix := q.get "q"
  scope := scopeFilter q

/-- `eventFilter`. -/
def eventFilter : EventFilter where
  time := timeRange codecs q
  service := q.get "service"
  environment := q.get "environment"
  kind := q.get "kind"
  scope := scopeFilter q
  httpMethod := q.get "http_method"
  provider := q.get "provider"
  entityType := q.get "entity_type"
  entityID := q.get "entity_id"
  httpStatusClass := if q.get "http_status_class" = [] then 0 else (atoi (q.get "http_status_class")).1
  level := if q.get "level" = [] then none else some (parseLevel (q.get "level"))
  httpStatus := if q.get "http_status" = [] then 0 else (atoi (q.get "http_status")).1
  hasError := if q.get "has_error" = [] then none else parseBool (q.get "has_error")
  flowID := filterID (q.get "flow_id")
  executionID := filterID (q.get "execution_id")

end Filters

/-! ### Answers -/

/-- What is answered: a value with status 200, or an error. -/
inductive Answer (Value : Type)
  | ok (value : Value)
  | refused (status : Nat) (code message : GoString)
  deriving DecidableEq, Repr

/-- A page as it is written. -/
structure PageBody (T : Type) where
  items : List T
  nextCursor : GoString
  hasMore : Bool
  deriving DecidableEq, Repr

section Answers

variable {Value T : Type}

/-- `bad`. -/
def bad (error : GoError) : Answer Value := .refused 400 (ascii "invalid_request") error.text

/-- `respond`. -/
def respond : Except GoError Value → Answer Value
  | .ok value => .ok value
  | .error error =>
    if error.is .storageNotFound ∨ error.is .payloadNotFound then
      .refused 404 (ascii "not_found") (ascii "resource not found")
    else if error.is .storageInvalidCursor then bad error
    else .refused 500 (ascii "internal_error") (ascii "request failed")

/-- `respondPage`. -/
def respondPage (codecs : Codecs) (page : Except GoError (Page T)) : Answer (PageBody T) :=
  respond (page.map fun p => ⟨p.items, encodeCursor codecs p.nextCursor, p.hasMore⟩)

/-- A detail whose scope is not the requested one is not found. -/
def checkScope (q : Query) (scope : Value → Scope) (found : Except GoError Value) :
    Except GoError Value :=
  match found with
  | .error error => .error error
  | .ok value => if scopeAllowed (scopeFilter q) (scope value) then .ok value else .error errNotFound

/-- What follows the reading of an identifier of the path. -/
def withID (text : GoString) (next : Bytes 16 → Answer Value) : Answer Value :=
  match decodeID text with
  | .error error => bad error
  | .ok id => next id

/-- A listing: the page of the request, then the page of the store. -/
def listed (codecs : Codecs) (q : Query) (list : PageRequest → Except GoError (Page T)) :
    Answer (PageBody T) :=
  match page codecs q with
  | .error error => bad error
  | .ok p => respondPage codecs (list p)

end Answers

/-! ### The handlers -/

/-- The readers of `ExplorerStore`, the overview apart. -/
structure ExplorerStore where
  listFlows : FlowFilter → PageRequest → Except GoError (Page FlowSummary)
  getFlow : FlowID → Except GoError FlowDetail
  listFlowEvents : FlowID → EventFilter → PageRequest → Except GoError (Page EventRecord)
  listExecutions : ExecutionFilter → PageRequest → Except GoError (Page ExecutionSummary)
  getExecution : ExecutionID → Except GoError ExecutionSummary
  listExecutionFlows : ExecutionID → FlowFilter → PageRequest → Except GoError (Page FlowSummary)
  getRetryChain : ExecutionID → Except GoError (List ExecutionSummary)
  searchEntities : EntityFilter → PageRequest → Except GoError (Page EntitySummary)
  getEntity : EntityKey → Except GoError EntitySummary
  listEntityFlows : EntityKey → FlowFilter → PageRequest → Except GoError (Page FlowSummary)
  listEvents : EventFilter → PageRequest → Except GoError (Page EventRecord)
  getEvent : EventID → Except GoError EventRecord

section Handlers

variable (codecs : Codecs) (store : ExplorerStore) (q : Query)

/-- `GET /flows`. -/
def flows : Answer (PageBody FlowSummary) := listed codecs q (store.listFlows (flowFilter codecs q))

/-- `GET /flows/{id}`. -/
def flow (id : GoString) : Answer FlowDetail :=
  withID id fun id => respond (checkScope q (·.scope) (store.getFlow id))

/-- `GET /flows/{id}/events`. -/
def flowEvents (id : GoString) : Answer (PageBody EventRecord) :=
  withID id fun id => listed codecs q (store.listFlowEvents id (eventFilter codecs q))

/-- `GET /executions`. -/
def executions : Answer (PageBody ExecutionSummary) :=
  listed codecs q (store.listExecutions (executionFilter codecs q))

/-- `GET /executions/{id}`. -/
def execution (id : GoString) : Answer ExecutionSummary :=
  withID id fun id => respond (checkScope q (·.scope) (store.getExecution id))

/-- `GET /executions/{id}/flows`. -/
def executionFlows (id : GoString) : Answer (PageBody FlowSummary) :=
  withID id fun id => listed codecs q
    (store.listExecutionFlows id { flowFilter codecs q with executionID := id })

/-- `GET /executions/{id}/retries`. -/
def retries (id : GoString) : Answer (List ExecutionSummary) :=
  withID id fun id => respond <|
    match store.getRetryChain id with
    | .error error => .error error
    | .ok chain =>
      if chain.all fun execution => scopeAllowed (scopeFilter q) execution.scope then .ok chain
      else .error errNotFound

/-- `GET /entities`. -/
def entities : Answer (PageBody EntitySummary) :=
  listed codecs q (store.searchEntities (entityFilter codecs q))

/-- `GET /entities/{type}/{id}`. -/
def entity (type id : GoString) : Answer EntitySummary :=
  if type = [] ∨ id = [] then bad (errorsNew "entity type and ID are required")
  else respond (store.getEntity ⟨scopeFilter q, type, id⟩)

/-- `GET /entities/{type}/{id}/flows`. -/
def entityFlows (type id : GoString) : Answer (PageBody FlowSummary) :=
  listed codecs q (store.listEntityFlows ⟨scopeFilter q, type, id⟩ (flowFilter codecs q))

/-- `GET /events`. -/
def events : Answer (PageBody EventRecord) := listed codecs q (store.listEvents (eventFilter codecs q))

/-- `GET /events/{id}`. -/
def event (id : GoString) : Answer EventRecord :=
  withID id fun id => respond (checkScope q (·.scope) (store.getEvent id))

/-- The payload stores of the configuration, by name, and the read limit. -/
structure PayloadAccess where
  open_ : GoString → Option (Payload.Ref → Except GoError Payload.Stream)
  maxPayloadBytes : Nat

/-- `GET /events/{event}/payloads/{role}`: the bytes that are copied. -/
def eventPayload (access : PayloadAccess) (id role : GoString) : Answer (List UInt8) :=
  withID id fun id =>
    match checkScope q (·.scope) (store.getEvent id) with
    | .error error => respond (.error error)
    | .ok event =>
      match event.payloads.find? fun link => link.role = role with
      | none => respond (.error errNotFound)
      | some link =>
        match access.open_ link.ref.store with
        | none => .refused 404 (ascii "payload_store_unavailable")
            (ascii "payload store is not configured")
        | some openRef =>
          if (access.maxPayloadBytes : Int) < link.ref.size.toInt then
            .refused 413 (ascii "payload_too_large")
              (ascii "payload exceeds Explorer read limit")
          else respond ((openRef link.ref).map fun stream =>
            stream.bytes.take access.maxPayloadBytes)

end Handlers

/-! ### What is answered -/

section Specs

variable {Value T : Type} {codecs : Codecs} {q q' : Query}

theorem respond_eq_ok {found : Except GoError Value} {value : Value} :
    respond found = .ok value ↔ found = .ok value := by
  cases found with
  | ok other =>
    unfold respond
    rw [Answer.ok.injEq, Except.ok.injEq]
  | error error =>
    refine iff_of_false (fun same => ?_) fun same => by cases same
    unfold respond bad at same
    dsimp only at same
    split_ifs at same

/-- **The page of a request**: its limit, the cursor it decodes to, and its order. -/
theorem of_page {p : PageRequest} (asked : page codecs q = .ok p) :
    p.Limited ∧ decodeCursor codecs (q.get "cursor") = .ok p.cursor ∧
      p.desc = decide (q.get "order" ≠ ascii "asc") := by
  unfold page at asked
  dsimp only at asked
  by_cases wrong : q.get "limit" ≠ [] ∧ (¬ (atoi (q.get "limit")).2 ∨ (atoi (q.get "limit")).1 < 1 ∨
      500 < (atoi (q.get "limit")).1)
  · rw [if_pos wrong] at asked
    cases asked
  · rw [if_neg wrong] at asked
    cases decoded : decodeCursor codecs (q.get "cursor") with
    | error error =>
      rw [decoded] at asked
      cases asked
    | ok c =>
      rw [decoded] at asked
      cases asked
      refine ⟨?_, rfl, rfl⟩
      by_cases empty : q.get "limit" = []
      · unfold PageRequest.Limited
        rw [if_pos empty]
        exact ⟨(by decide : (0 : Int64) < 100), (by decide : (100 : Int64) < Int64.maxValue)⟩
      · unfold PageRequest.Limited
        dsimp only
        rw [if_neg empty]
        have fits : ¬ (atoi (q.get "limit")).1 < 1 ∧ ¬ 500 < (atoi (q.get "limit")).1 :=
          ⟨fun low => wrong ⟨empty, .inr (.inl low)⟩, fun high => wrong ⟨empty, .inr (.inr high)⟩⟩
        exact ⟨Int64.lt_of_lt_of_le (by decide : (0 : Int64) < 1) (Int64.not_lt.mp fits.1),
          Int64.lt_of_le_of_lt (Int64.not_lt.mp fits.2) (by decide : (500 : Int64) < Int64.maxValue)⟩

theorem of_listed {list : PageRequest → Except GoError (Page T)} {body : PageBody T}
    (answered : listed codecs q list = .ok body) :
    ∃ p result, page codecs q = .ok p ∧ list p = .ok result ∧ body.items = result.items := by
  unfold listed at answered
  split at answered
  · cases answered
  · rename_i p asked
    have read := respond_eq_ok.mp answered
    cases page : list p with
    | error error =>
      rw [page] at read
      cases read
    | ok result =>
      rw [page] at read
      cases read
      exact ⟨p, result, asked, page, rfl⟩

theorem listed_of {list : PageRequest → Except GoError (Page T)} {p : PageRequest} {result : Page T}
    (asked : page codecs q = .ok p) (read : list p = .ok result) :
    listed codecs q list =
      .ok ⟨result.items, encodeCursor codecs result.nextCursor, result.hasMore⟩ := by
  unfold listed
  rw [asked]
  dsimp only
  rw [read]
  rfl

theorem withID_encodeID (id : Bytes 16) (next : Bytes 16 → Answer Value) :
    withID (encodeID id) next = next id := by
  unfold withID
  rw [decodeID_encodeID]

theorem checkScope_of {scope : Value → Scope} {value : Value} (same : scope value = scopeFilter q) :
    checkScope q scope (.ok value) = .ok value := by
  have allowed : scopeAllowed (scopeFilter q) (scope value) = true := decide_eq_true (.inr same.symm)
  exact if_pos allowed

theorem checkScope_unset {scope : Value → Scope} {value : Value} (asked : ¬ isZero (scopeFilter q))
    (unset : scope value = ⟨[], []⟩) : checkScope q scope (.ok value) = .error errNotFound := by
  have other : ¬ scopeAllowed (scopeFilter q) (scope value) = true := by
    intro allowed
    rcases of_decide_eq_true allowed with zero | same
    · exact asked zero
    · rw [unset] at same
      exact asked (same ▸ ⟨rfl, rfl⟩)
  exact if_neg other

end Specs

/-! ### The stores -/

/-- The readers of PostgreSQL. -/
def postgres (table : Postgres.Events) (collation : Collation) (order order' : RowOrder) :
    ExplorerStore where
  listFlows := table.listFlows order
  getFlow := table.getFlow order
  listFlowEvents id f p := .ok (table.listEvents order f p (some id))
  listExecutions := table.listExecutions order
  getExecution := table.getExecution order
  listExecutionFlows := table.listExecutionFlows order
  getRetryChain := table.getRetryChain order order'
  searchEntities f p := .ok (table.searchEntities order collation f p)
  getEntity := table.getEntity
  listEntityFlows := table.listEntityFlows order
  listEvents f p := .ok (table.listEvents order f p none)
  getEvent := table.getEvent order

/-- The readers of ClickHouse. -/
def clickhouse (tables : Warehouse.Tables) (order order' : RowOrder) : ExplorerStore where
  listFlows f p := .ok (tables.listFlows order order' f p)
  getFlow := tables.getFlow order
  listFlowEvents id f p := .ok (tables.listCHEvents order f p (some id))
  listExecutions f p := .ok (tables.listExecutions order f p)
  getExecution := tables.getExecution order
  listExecutionFlows id f p := .ok (tables.listExecutionFlows order order' id f p)
  getRetryChain := tables.getRetryChain order order'
  searchEntities f p := .ok (tables.searchEntities order f p)
  getEntity := tables.getEntity
  listEntityFlows key f p := .ok (tables.listEntityFlows order order' key f p)
  listEvents f p := .ok (tables.listCHEvents order f p none)
  getEvent := tables.getEvent order

end Trail.Explorer
