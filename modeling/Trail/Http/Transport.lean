/-
**The HTTP transport: what it logs of an exchange.**

`Wrap` takes options to a configuration, and `log` makes the options of a log call from an exchange:
method, URL, timing and sizes, the correlation, the outcome, the headers that are captured, and previews
of the bodies. Header values of the sensitive set and values of sensitive query parameters are replaced
by a mark. A job for the spooler comes with it when there are payload bytes.

The ranges over maps take their order from the run: `names` lists the captured headers in the order the
range has, and `keys` the keys of the query.

`wrap` is the configuration and `prepare` what is logged.
-/

import Mathlib.Data.Finset.Dedup
import Mathlib.Data.Finset.Insert
import Trail.Core.Event
import Trail.Http.Capture
import Trail.Library.Table

namespace Trail.Http

open Library

/-! ### Configuration -/

/-- `http.Header` and `url.Values`. -/
abbrev Values := Table GoString (List GoString)

/-- What the transport uses of `net/http`, `net/url` and `strings`. `Encode` sorts by key, so it is a
function of the map. -/
structure Net where
  canonicalHeaderKey : GoString → GoString
  toLower : GoString → GoString
  parseQuery : GoString → Values
  encode : Values → GoString
  encode_map : ∀ first second : Values, (∀ key, first.lookup key = second.lookup key) →
    encode first = encode second

/-- `config`; of the spooler, whether there is one. -/
structure Config where
  kind : GoString
  previewBytes : Int
  includeQuery : Bool
  headerAllow : Finset GoString
  headerSensitive : Finset GoString
  querySensitive : Finset GoString
  redactor : Option PreviewRedactor
  success : Int64 → Bool
  spooler : Bool
  payloadBytes : Int
  fields : List LogOption
  pathNormalizer : Option (GoString → GoString)

/-- `Option`. -/
inductive Setting
  | eventKind (kind : GoString)
  | bodyPreview (limit : Int)
  | includeQuery (includes : Bool)
  | normalizePath (normalizer : Option (GoString → GoString))
  | captureHeaders (names : List GoString)
  | sensitiveHeaders (names : List GoString)
  | sensitiveQueryParameters (names : List GoString)
  | redactPreview (redactor : Option PreviewRedactor)
  | classifySuccess (classifier : Option (Int64 → Bool))
  | fields (options : List LogOption)
  /-- `PayloadSpooling`, with the capture limit of the spooler. -/
  | payloadSpooling (maxCaptureBytes : Option Int)

def maxPreviewBytes : Int := 65536

/-- The names of a set, with those that are not empty, changed by `change`. -/
def withNames (change : GoString → GoString) (set : Finset GoString) (names : List GoString) :
    Finset GoString :=
  names.foldl (fun set name => if name ≠ [] then insert (change name) set else set) set

section Wrap

variable (net : Net)

/-- What an option does. -/
def Setting.apply (c : Config) : Setting → Config
  | .eventKind kind => if kind ≠ [] then { c with kind := kind } else c
  | .bodyPreview limit => { c with previewBytes := min (max limit 0) maxPreviewBytes }
  | .includeQuery includes => { c with includeQuery := includes }
  | .normalizePath normalizer => { c with pathNormalizer := normalizer }
  | .captureHeaders names =>
    { c with headerAllow := withNames net.canonicalHeaderKey c.headerAllow names }
  | .sensitiveHeaders names =>
    { c with headerSensitive := withNames net.canonicalHeaderKey c.headerSensitive names }
  | .sensitiveQueryParameters names =>
    { c with querySensitive := withNames net.toLower c.querySensitive names }
  | .redactPreview redactor => { c with redactor := redactor }
  | .classifySuccess classifier => { c with success := classifier.getD c.success }
  | .fields options => { c with fields := c.fields ++ options }
  | .payloadSpooling none => { c with spooler := false }
  | .payloadSpooling (some limit) => { c with spooler := true, payloadBytes := limit }

/-- The configuration before the options. -/
def defaultConfig : Config where
  kind := ascii "provider.http"
  previewBytes := 0
  includeQuery := false
  headerAllow := ∅
  headerSensitive := (["Authorization", "Proxy-Authorization", "Cookie", "Set-Cookie", "X-Api-Key",
    "X-Auth-Token"].map ascii).toFinset
  querySensitive := (["access_token", "api_key", "key", "password", "secret", "signature",
    "token"].map ascii).toFinset
  redactor := none
  success code := 200 ≤ code ∧ code < 400
  spooler := false
  payloadBytes := 0
  fields := []
  pathNormalizer := none

/-- `Wrap`. -/
def wrap (options : List Setting) : Config := options.foldl (Setting.apply net) defaultConfig

end Wrap

/-! ### Exchanges -/

/-- `url.URL`, of which the escaped path and the raw query are read. -/
structure URL where
  scheme : GoString
  host : GoString
  escapedPath : GoString
  rawQuery : GoString

structure Request where
  method : GoString
  url : URL
  header : Values
  contentLength : Int64

structure Response where
  statusCode : Int64
  header : Values
  contentLength : Int64

/-- `Correlation`. -/
structure Correlation where
  flowID : FlowID := Bytes.zero 16
  executionID : ExecutionID := Bytes.zero 16
  scope : Scope := ⟨[], []⟩
  entityType : GoString := []
  entityID : GoString := []

/-- What `log` is called with, and the time since the start. -/
structure Exchange where
  request : Request
  response : Option Response
  correlation : Correlation
  duration : Int64
  requestCapture : Capture
  responseCapture : Option Capture
  transportErr : Option GoString

/-- `spoolJob`. -/
structure SpoolJob where
  kind : GoString
  options : List LogOption
  request : SpoolBody
  response : SpoolBody
  deriving DecidableEq

/-- What `log` makes of an exchange: the log call, and the job when there is one for the spooler. -/
structure Prepared where
  kind : GoString
  options : List LogOption
  job : Option SpoolJob

/-- `header.Get("Content-Type")`. -/
def contentType (header : Values) : GoString :=
  ((header.lookup (ascii "Content-Type")).bind List.head?).getD []

/-- `strings.Join(values, ", ")`. -/
def joinValues (values : List GoString) : GoString := (ascii ", ").intercalate values

def redacted : GoString := ascii "[REDACTED]"

section Log

variable (net : Net) (c : Config)

/-- The field of one captured header. -/
def headerField (start : GoString) (header : Values) (name : GoString) : Option LogOption :=
  (header.lookup name).map fun values =>
    LogOption.string (start ++ net.toLower name)
      (if name ∈ c.headerSensitive then redacted else joinValues values)

/-- `headerFields`, over the captured headers in the order of the range. -/
def headerFields (names : List GoString) (start : GoString) (header : Values) : List LogOption :=
  names.filterMap (headerField net c start header)

/-- The loop of `requestPath` over the keys of the query. -/
def redactQuery (keys : List GoString) (query : Values) : Values :=
  keys.foldl (fun query key =>
    if net.toLower key ∈ c.querySensitive then query.insert key [redacted] else query) query

/-- `requestPath`, with the keys of the query in the order of the range. -/
def requestPath (keys : List GoString) (url : URL) : GoString :=
  let path := (c.pathNormalizer.getD id) url.escapedPath
  if c.includeQuery = true ∧ url.rawQuery ≠ [] then
    path ++ ascii "?" ++ net.encode (redactQuery net c keys (net.parseQuery url.rawQuery))
  else path

/-- `redact`. -/
def redact (contentType : GoString) (preview : List UInt8) : List UInt8 :=
  match c.redactor with
  | none => preview
  | some redactor => (redactor contentType preview).take maxPreviewBytes.toNat

/-- A size: what was counted, or else the announced length. -/
def bodySize (contentLength : Int64) (n : Nat) : Int64 :=
  if n ≠ 0 then Int64.ofNat n else contentLength

/-- The fields of a request before its headers. -/
def requestFields (keys : List GoString) (x : Exchange) : List LogOption :=
  [ .string (ascii "http.method") x.request.method,
    .string (ascii "http.scheme") x.request.url.scheme,
    .string (ascii "http.host") x.request.url.host,
    .string (ascii "http.path") (requestPath net c keys x.request.url),
    .duration (ascii "http.duration") x.duration,
    .int64 (ascii "http.request_size") (bodySize x.request.contentLength x.requestCapture.n) ]

/-- The options of a correlation. -/
def correlationOptions (correlation : Correlation) : List LogOption :=
  (if isZeroID correlation.flowID then [] else [.flow correlation.flowID]) ++
  (if isZeroID correlation.executionID then [] else [.execution correlation.executionID]) ++
  (if correlation.scope.type = [] ∧ correlation.scope.id = [] then []
    else [.scope correlation.scope.type correlation.scope.id]) ++
  (if correlation.entityType ≠ [] ∨ correlation.entityID ≠ [] then
    [.entity correlation.entityType correlation.entityID] else [])

/-- The options of an outcome. -/
def outcomeOptions (x : Exchange) : List LogOption :=
  match x.transportErr, x.response with
  | some text, _ =>
    [.bool (ascii "http.success") false, .error (some text), .level Level.error]
  | none, some response =>
    [ .int (ascii "http.status_code") response.statusCode,
      .bool (ascii "http.success") (c.success response.statusCode),
      .int64 (ascii "http.response_size")
        (bodySize response.contentLength ((x.responseCapture.map Capture.n).getD 0)) ] ++
    if c.success response.statusCode then [] else [.level Level.warn]
  | none, none => []

/-- The options before the headers. -/
def leadingOptions (keys : List GoString) (x : Exchange) : List LogOption :=
  requestFields net c keys x ++ c.fields ++ correlationOptions x.correlation ++ outcomeOptions c x

/-- The field of a preview, when bytes were kept for one. -/
def previewField (key : GoString) (header : Values) (capture : Capture) : List LogOption :=
  if capture.data = [] then []
  else [.string key (redact c (contentType header) capture.data)]

/-- The options after the headers. -/
def previewOptions (x : Exchange) : List LogOption :=
  previewField c (ascii "http.request_preview") x.request.header x.requestCapture ++
    match x.response, x.responseCapture with
    | some response, some capture =>
      previewField c (ascii "http.response_preview") response.header capture
    | _, _ => []

/-- The options of an exchange. The captured headers are in the order of the two ranges. -/
def logOptions (keys names names' : List GoString) (x : Exchange) : List LogOption :=
  leadingOptions net c keys x ++
    headerFields net c names (ascii "http.request.header.") x.request.header ++
    (match x.response with
      | some response => headerFields net c names' (ascii "http.response.header.") response.header
      | none => []) ++
    previewOptions c x

/-- The bodies that are spooled, when there are payload bytes. -/
def spoolBodies (x : Exchange) : Option (SpoolBody × SpoolBody) :=
  let body := spoolBody c.redactor c.payloadBytes
  if c.spooler = true ∧ (x.requestCapture.payload ≠ [] ∨
      ((x.responseCapture.map Capture.payload).getD []) ≠ []) then
    some (body (ascii "request") (contentType x.request.header) (some x.requestCapture),
      match x.response, x.responseCapture with
      | some response, some capture =>
        body (ascii "response") (contentType response.header) (some capture)
      | _, _ => {})
  else none

/-- `log` up to the hand-over. -/
def prepare (keys names names' : List GoString) (x : Exchange) : Prepared where
  kind := c.kind
  options := logOptions net c keys names names' x
  job := (spoolBodies c x).map fun bodies =>
    ⟨c.kind, logOptions net c keys names names' x, bodies.1, bodies.2⟩

/-- The options when the spooler refuses the job. -/
def Prepared.refused (prepared : Prepared) : List LogOption :=
  prepared.options ++ [.string (ascii "payload.error") (ascii "spool queue full")]

end Log

end Trail.Http
