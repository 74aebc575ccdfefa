import CubeOperator.Lib.Program
import Mathlib.Algebra.Order.Ring.Int
import Mathlib.Algebra.Ring.Rat
import Mathlib.Data.List.Perm.Basic

/-! # The execution API

    `internal/telemetry/executions.go`: the spans that agents report, `validate`,
    `ServeHTTP` and the retention loop of `RunExecutions`.

    What the service asks of others is a call: the clock, the order in which a map
    is iterated over, the database.  Two functions of the standard library are
    parameters (`Library`): the digest of a credential, and what the JSON decoder
    makes of a request body. -/

namespace CubeOperator.Telemetry

open Interaction

/-! ## Times -/

/-- A `time.Time`: the nanoseconds since the Unix epoch, and the seconds its zone is
    ahead of UTC. -/
structure Time where
  unixNano : ℤ
  offset : ℤ
  deriving DecidableEq, Repr

namespace Time

def utc (t : Time) : Time := { t with offset := 0 }

/-- The first instant of the year 1, the zero value of a `time.Time`. -/
def zero : ℤ := -62135596800 * 10 ^ 9

def isZero (t : Time) : Bool := t.unixNano = zero

def before (t u : Time) : Bool := t.unixNano < u.unixNano

def after (t u : Time) : Bool := u.unixNano < t.unixNano

/-- A `time.Duration` is a signed 64-bit number of nanoseconds. -/
def add (t : Time) (d : ℤ) : Time := { t with unixNano := t.unixNano + d }

/-- `Sub` stops at the ends of the range of a duration. -/
def sub (t u : Time) : ℤ := max (-2 ^ 63) (min (2 ^ 63 - 1) (t.unixNano - u.unixNano))

/-- The years that `MarshalJSON` can write, 0 to 9999. -/
def marshals (t : Time) : Bool :=
  -62167219200 * 10 ^ 9 ≤ t.unixNano + t.offset * 10 ^ 9 ∧
    t.unixNano + t.offset * 10 ^ 9 < 253402300800 * 10 ^ 9

end Time

/-! ## Text -/

/-- `unicode.IsSpace`. -/
def isSpace (c : Char) : Bool :=
  let n := c.toNat
  (9 ≤ n && n ≤ 13) || n == 0x20 || n == 0x85 || n == 0xA0 || n == 0x1680 ||
    (0x2000 ≤ n && n ≤ 0x200A) || n == 0x2028 || n == 0x2029 || n == 0x202F || n == 0x205F ||
    n == 0x3000

/-- `strings.TrimSpace`. -/
def trimSpace (s : String) : String :=
  String.ofList ((s.toList.dropWhile isSpace).reverse.dropWhile isSpace).reverse

/-! ## Executions -/

/-- `Execution`.  The cost is the shortest decimal that reads back as the float. -/
structure Execution where
  eventId : String := ""
  startedAt : Time := ⟨Time.zero, 0⟩
  endedAt : Time := ⟨Time.zero, 0⟩
  tenantId : String := ""
  cluster : String := ""
  ns : String := ""
  traceId : String := ""
  runId : String := ""
  parentId : String := ""
  agent : String := ""
  kind : String := ""
  name : String := ""
  status : String := ""
  skillVersion : String := ""
  tool : String := ""
  targetAgent : String := ""
  artifactUri : String := ""
  artifactType : String := ""
  validation : String := ""
  model : String := ""
  provider : String := ""
  inputTokens : ℤ := 0
  outputTokens : ℤ := 0
  costUsd : ℚ := 0
  errorType : String := ""
  deriving DecidableEq

/-- The keys of the map of required fields. -/
inductive Required where
  | eventId | tenantId | cluster | ns | traceId | runId | agent | kind | name | status
  deriving DecidableEq, Repr

namespace Required

def all : List Required :=
  [eventId, tenantId, cluster, ns, traceId, runId, agent, kind, name, status]

def key : Required → String
  | eventId => "eventId"
  | tenantId => "tenantId"
  | cluster => "cluster"
  | ns => "namespace"
  | traceId => "traceId"
  | runId => "runId"
  | agent => "agent"
  | kind => "kind"
  | name => "name"
  | status => "status"

def value (e : Execution) : Required → String
  | eventId => e.eventId
  | tenantId => e.tenantId
  | cluster => e.cluster
  | ns => e.ns
  | traceId => e.traceId
  | runId => e.runId
  | agent => e.agent
  | kind => e.kind
  | name => e.name
  | status => e.status

end Required

/-- An order in which the map of required fields may be iterated over. -/
abbrev FieldOrder : Type := { fields : List Required // fields.Perm Required.all }

namespace Execution

/-- The part of `validate` that depends on the kind. -/
def kindError (e : Execution) : Option String :=
  if e.kind = "run" then none
  else if e.kind = "skill" then
    if e.skillVersion = "" then some "skill requires skillVersion" else none
  else if e.kind = "tool" then
    if e.tool = "" then some "tool requires tool" else none
  else if e.kind = "handoff" then
    if e.targetAgent = "" then some "handoff requires targetAgent" else none
  else if e.kind = "artifact" then
    if e.artifactUri = "" ∨ e.artifactType = "" then
      some "artifact requires artifactUri and artifactType"
    else none
  else if e.kind = "validation" then
    if e.validation ≠ "passed" ∧ e.validation ≠ "failed" ∧ e.validation ≠ "skipped" then
      some "validation requires passed, failed, or skipped validation"
    else none
  else if e.kind = "model" then
    if e.model = "" ∨ e.provider = "" then some "model requires model and provider" else none
  else some "kind must be run, skill, tool, handoff, artifact, validation, or model"

/-- `validate`: the error, if there is one. -/
def validate (e : Execution) (order : FieldOrder) (now : Time) (retention : ℤ) : Option String :=
  match order.val.find? fun field => trimSpace (field.value e) = "" with
  | some field => some (field.key ++ " is required")
  | none =>
    if e.startedAt.isZero ∨ e.endedAt.isZero ∨ e.endedAt.before e.startedAt ∨
        e.endedAt.after (now.add (5 * 60 * 10 ^ 9)) ∨ e.endedAt.before (now.add (-retention)) then
      some "timestamps must be ordered, within retention, and not in the future (5m clock tolerance)"
    else if e.status ≠ "succeeded" ∧ e.status ≠ "failed" ∧ e.status ≠ "cancelled" then
      some "status must be succeeded, failed, or cancelled"
    else if e.inputTokens < 0 ∨ e.outputTokens < 0 ∨ e.costUsd < 0 then
      some "tokens and cost must be nonnegative"
    else if e.parentId = e.eventId then
      some "parentId cannot reference the event itself"
    else match e.kindError with
      | some message => some message
      | none =>
        if e.kind ≠ "model" ∧ (e.inputTokens ≠ 0 ∨ e.outputTokens ≠ 0 ∨ e.costUsd ≠ 0) then
          some "only model spans may report tokens/cost; do not double-count run totals"
        else none

/-- The event with its times in UTC. -/
def utc (e : Execution) : Execution :=
  { e with startedAt := e.startedAt.utc, endedAt := e.endedAt.utc }

end Execution

/-! ## Payloads -/

/-- A member of a payload.  A time is written as its RFC 3339 text, with nanoseconds and
    the offset of its zone. -/
inductive Scalar where
  | text (s : String)
  | number (q : ℚ)
  | time (t : Time)
  deriving DecidableEq

/-- The `payload` column.  All payloads have the same keys in the same order, so that
    `jsonb` values are equal when these lists are. -/
abbrev Payload : Type := List (String × Scalar)

/-- The JSON object of an event. -/
def Execution.members (e : Execution) : Payload :=
  [("eventId", .text e.eventId), ("startedAt", .time e.startedAt), ("endedAt", .time e.endedAt),
    ("tenantId", .text e.tenantId), ("cluster", .text e.cluster), ("namespace", .text e.ns),
    ("traceId", .text e.traceId), ("runId", .text e.runId), ("parentId", .text e.parentId),
    ("agent", .text e.agent), ("kind", .text e.kind), ("name", .text e.name),
    ("status", .text e.status), ("skillVersion", .text e.skillVersion), ("tool", .text e.tool),
    ("targetAgent", .text e.targetAgent), ("artifactUri", .text e.artifactUri),
    ("artifactType", .text e.artifactType), ("validation", .text e.validation),
    ("model", .text e.model), ("provider", .text e.provider),
    ("inputTokens", .number e.inputTokens), ("outputTokens", .number e.outputTokens),
    ("costUsd", .number e.costUsd), ("errorType", .text e.errorType)]

/-- `json.Marshal`, which fails on a year it cannot write. -/
def Execution.marshal (e : Execution) : Option Payload :=
  if e.startedAt.marshals ∧ e.endedAt.marshals then some e.members else none

/-! ## Statements -/

/-- The columns that the insert names, with the values `$1` to `$18`.  The duration is
    taken before it is rounded to a double. -/
structure Columns where
  eventId : String
  startedAt : ℤ
  endedAt : ℤ
  tenantId : String
  clusterName : String
  ns : String
  traceId : String
  runId : String
  parentId : String
  agentName : String
  kind : String
  name : String
  status : String
  durationMs : ℚ
  inputTokens : ℤ
  outputTokens : ℤ
  costUsd : ℚ
  payload : Payload
  deriving DecidableEq

/-- The arguments of the insert for an event and its payload. -/
def Execution.columns (e : Execution) (payload : Payload) : Columns where
  eventId := e.eventId
  startedAt := e.startedAt.unixNano
  endedAt := e.endedAt.unixNano
  tenantId := e.tenantId
  clusterName := e.cluster
  ns := e.ns
  traceId := e.traceId
  runId := e.runId
  parentId := e.parentId
  agentName := e.agent
  kind := e.kind
  name := e.name
  status := e.status
  durationMs := (e.endedAt.sub e.startedAt : ℚ) / 10 ^ 6
  inputTokens := e.inputTokens
  outputTokens := e.outputTokens
  costUsd := e.costUsd
  payload := payload

/-- The statements the service sends to the database. -/
inductive Statement where
  /-- `INSERT … ON CONFLICT (event_id) DO UPDATE … RETURNING payload = $18::jsonb`. -/
  | insert (columns : Columns)
  /-- `DELETE … WHERE ended_at < $1`. -/
  | prune (before : ℤ)
  deriving DecidableEq

/-- What a statement returns. -/
@[reducible] def Statement.Result : Statement → Type
  | .insert _ => Bool
  | .prune _ => Unit

/-! ## The service -/

inductive Call where
  /-- `time.Now()`. -/
  | now
  /-- The iteration over the map of required fields. -/
  | fieldOrder
  /-- `database.Ping`. -/
  | ping
  /-- `database.QueryRow` and `database.Exec`. -/
  | query (statement : Statement)

/-- The answer to a call.  A query that fails has none. -/
@[reducible] def Answer : Call → Type
  | .now => Time
  | .fieldOrder => FieldOrder
  | .ping => Bool
  | .query statement => Option statement.Result

abbrev Exchange : Type := Event Answer

abbrev Service : Type → Type := Program Call Answer

abbrev timeNow : Service Time := Program.perform Call.now

abbrev rangeFields : Service FieldOrder := Program.perform Call.fieldOrder

abbrev ping : Service Bool := Program.perform Call.ping

abbrev query (statement : Statement) : Service (Option statement.Result) :=
  Program.perform (Call.query statement)

structure Request where
  method : String
  path : String
  /-- The `Authorization` header, empty when there is none. -/
  authorization : String
  body : String

structure Response where
  status : ℕ
  body : String := ""
  allow : Option String := none
  deriving DecidableEq, Repr

/-- `http.Error`. -/
def httpError (message : String) (status : ℕ) : Response :=
  { status := status, body := message ++ "\n" }

/-- What becomes of a request body. -/
inductive Decoded where
  /-- The first `Decode` fails, on a body that is too long as well. -/
  | malformed
  /-- Something follows the first value. -/
  | trailing
  | single (event : Execution)

/-- What the service takes from the standard library. -/
structure Library where
  sha256 : String → BitVec 256
  decode : String → Decoded

structure ExecutionAPI where
  token : String
  /-- In nanoseconds. -/
  retention : ℤ

variable (lib : Library)

/-- The end of `ServeHTTP`: the answer to what the insert returned. -/
def respond : Option Bool → Response
  | none => httpError "storage unavailable" 503
  | some false => httpError "eventId already exists with a different payload" 409
  | some true => { status := 204 }

/-- `ServeHTTP` from the insert on. -/
def persist (e : Execution) (payload : Payload) : Service Response := do
  let result ← query (.insert (e.columns payload))
  return respond result

/-- `ServeHTTP` from the validation of the decoded event on. -/
def record (a : ExecutionAPI) (event : Execution) : Service Response := do
  let now ← timeNow
  let order ← rangeFields
  match event.validate order now a.retention with
  | some message => return httpError message 400
  | none =>
    match event.utc.marshal with
    | none => return httpError "invalid execution" 400
    | some payload => persist event.utc payload

/-- `ServeHTTP`. -/
def serveHTTP (a : ExecutionAPI) (r : Request) : Service Response :=
  if r.method = "GET" ∧ r.path = "/readyz" then do
    let up ← ping
    return if up then { status := 200 } else httpError "database unavailable" 503
  else if r.path ≠ "/v1/executions" then
    return httpError "404 page not found" 404
  else if r.method ≠ "POST" then
    return { httpError "POST required" 405 with allow := some "POST" }
  else if a.token = "" ∨ lib.sha256 r.authorization ≠ lib.sha256 ("Bearer " ++ a.token) then
    return httpError "unauthorized" 401
  else
    match lib.decode r.body with
    | .malformed => return httpError "invalid execution JSON (maximum 64 KiB)" 400
    | .trailing => return httpError "expected one JSON object" 400
    | .single event => record a event

/-- One tick of the loop in `RunExecutions`.  A failure is only logged. -/
def prune (retention : ℤ) : Service Unit := do
  let now ← timeNow
  let _ ← query (.prune (now.add (-retention)).unixNano)
  return ()

end CubeOperator.Telemetry
