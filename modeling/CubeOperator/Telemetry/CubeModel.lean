import CubeOperator.Lib.DataModel
import CubeOperator.Telemetry.Recording

/-! # The data model of the executions

    `demo/kind/model/AgentExecutions.yml`, and Cube as the reader of the table: a query is
    answered from the table by the data model, when Cube has got an answer. -/

namespace CubeOperator.Telemetry

open Interaction DataModel

/-! ## The data model -/

/-- `payload->>'name'` for a member that is a text. -/
def payloadText (name : String) (row : Row) : Value :=
  match row.payload.lookup name with
  | some (.text s) => .text s
  | _ => .null

/-- `AgentExecutions.yml` -/
def agentExecutions : Model Row where
  name := "AgentExecutions"
  measures :=
    [("count", { type := .count }),
      ("runs", { type := .count, filters := [fun row => row.kind = "run"] }),
      ("failedRuns", { type := .count, filters := [fun row => row.kind = "run" ∧ row.status = "failed"] }),
      ("failedValidations", { type := .count, filters :=
        [fun row => row.kind = "validation" ∧ payloadText "validation" row = .text "failed"] }),
      ("averageRunDurationMs",
        { type := .avg fun row => row.durationMs, filters := [fun row => row.kind = "run"] }),
      ("inputTokens", { type := .sum fun row => row.inputTokens }),
      ("outputTokens", { type := .sum fun row => row.outputTokens }),
      ("costUsd", { type := .sum fun row => row.costUsd })]
  dimensions :=
    [("eventId", fun row => .text row.eventId), ("startedAt", fun row => .time row.startedAt),
      ("endedAt", fun row => .time row.endedAt), ("recordedAt", fun row => .time row.recordedAt),
      ("tenantId", fun row => .text row.tenantId), ("cluster", fun row => .text row.clusterName),
      ("namespace", fun row => .text row.ns), ("traceId", fun row => .text row.traceId),
      ("runId", fun row => .text row.runId), ("parentId", fun row => .text row.parentId),
      ("agent", fun row => .text row.agentName), ("kind", fun row => .text row.kind),
      ("name", fun row => .text row.name), ("status", fun row => .text row.status),
      ("durationMs", fun row => .number row.durationMs), ("skillVersion", payloadText "skillVersion"),
      ("tool", payloadText "tool"), ("targetAgent", payloadText "targetAgent"),
      ("artifactUri", payloadText "artifactUri"), ("artifactType", payloadText "artifactType"),
      ("validation", payloadText "validation"), ("model", payloadText "model"),
      ("provider", payloadText "provider"), ("errorType", payloadText "errorType")]

/-! ## Reading a query -/

/-- An array of texts.  One that is left out is empty. -/
def readTexts : Option Json → Option (List String)
  | none => some []
  | some (.arr items) => items.mapM fun item =>
    match item with
    | .str s => some s
    | _ => none
  | some _ => none

def readFilter (filter : Json) : Option (String × List String) :=
  match filter.get? "member", filter.get? "operator" with
  | some (.str member), some (.str "equals") =>
    (readTexts (filter.get? "values")).map fun values => (member, values)
  | _, _ => none

def readFilters : Option Json → Option (List (String × List String))
  | none => some []
  | some (.arr filters) => filters.mapM readFilter
  | some _ => none

def readLimit : Option Json → Option ℕ
  | none => some 10000
  | some (.num limit) => if limit.den = 1 ∧ 0 ≤ limit then some limit.num.toNat else none
  | some _ => none

/-- The query in the body of a request to `/cubejs-api/v1/load`. -/
def readQuery (body : Json) : Option Query := do
  let query ← body.get? "query"
  let dimensions ← readTexts (query.get? "dimensions")
  let measures ← readTexts (query.get? "measures")
  let filters ← readFilters (query.get? "filters")
  let limit ← readLimit (query.get? "limit")
  pure { dimensions, measures, filters, limit }

/-! ## Answers -/

/-- How values are written that are neither texts nor null. -/
structure Rendering where
  number : ℚ → Json
  time : ℤ → Json

def Rendering.json (render : Rendering) : Value → Json
  | .null => .null
  | .text s => .str s
  | .number q => render.number q
  | .time n => render.time n

/-- An object with the values of a line. -/
def Rendering.Writes (render : Rendering) (line : Line) (row : Json) : Prop :=
  ∃ fs, row = .obj fs ∧ ∀ value ∈ line, Json.lookup value.1 fs = some (render.json value.2)

/-- What Cube may answer a request with: that it is not ready, the data that the model
    gives, another status, or no response. -/
inductive Loads (render : Rendering) (table : List Row) (body : Json) :
    Verification.CubeResponse → Prop where
  | waiting {fs : List (String × Json)} :
      Json.lookup "error" fs = some (.str "Continue wait") →
      Loads render table body (.response 200 (some (.obj fs)))
  | data {query : Query} {select : Select Row} {lines : List Line} {fs : List (String × Json)}
      {items : List Json} : readQuery body = some query → agentExecutions.select query = some select →
      select.Answers table lines → List.Forall₂ render.Writes lines items →
      Json.lookup "error" fs = none → Json.lookup "data" fs = some (.arr items) →
      Loads render table body (.response 200 (some (.obj fs)))
  | failed {status : ℕ} (content : Option Json) : ¬(200 ≤ status ∧ status < 300) →
      Loads render table body (.response status content)
  | raised : Loads render table body .raised

end CubeOperator.Telemetry
