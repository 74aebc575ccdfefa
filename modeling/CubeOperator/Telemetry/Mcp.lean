import CubeOperator.Lib.Rfc3339
import CubeOperator.Telemetry.Verification

/-! # The execution of an MCP tool

    `execute` in `demo/mcp_execution.py`: a session with an MCP server in which one tool is
    called, and the spans that report it.

    Every call may raise, and so may the end of the `async with` statements.  What an
    `except Exception` clause does not catch is `Raised.other`. -/

namespace CubeOperator.Telemetry.Mcp

open Interaction Verification

/-! ## Times -/

/-- `isoformat` of a time in UTC, given in microseconds: the fraction of a second is left
    out when it is zero. -/
def isoformat (micros : ℤ) : String :=
  let nanos := (Rfc3339.localNanos (micros * 1000) 0).toNat
  String.ofList <| Rfc3339.writeDate (.ofNumber (nanos / (86400 * 10 ^ 9))) ++ 'T' ::
    (Rfc3339.writeClock (nanos / 10 ^ 9 % 86400) ++
      ((if nanos % 10 ^ 9 = 0 then [] else '.' :: Rfc3339.digits 6 (nanos % 10 ^ 9 / 1000)) ++
        "+00:00".toList))

/-! ## Calls -/

/-- The arguments of the command line that `execute` reads. -/
structure Args where
  agent : String := "weather"
  tool : String := "weather_current"
  arguments : Json := .obj [("location", .str "Reykjavik")]
  tenant : String := "local"
  cluster : String := "local-host"
  ns : String := "demo"
  output : String
  command : List String

inductive Raised where
  /-- An `Exception`, with the name of its type. -/
  | exception (name : String)
  /-- Another `BaseException`. -/
  | other
  deriving DecidableEq

/-- What `call_tool` returns. -/
structure ToolResult where
  isError : Bool
  content : Json

inductive Call where
  | uuid4
  | now
  /-- `Path(args.output).resolve()` -/
  | resolve (path : String)
  | mkdir (path : String)
  /-- Both `async with` statements are entered. -/
  | enter (command : List String)
  | greet
  | listTools
  | callTool (name : String) (arguments : Json)
  | writeResult (path : String) (result : ToolResult)
  /-- Both `async with` statements are left, with or without an exception. -/
  | leave (raised : Option Raised)
  | writeEvents (path : String) (events : List PublishedEvent)

@[reducible] def Answer : Call → Type
  | .uuid4 => String
  | .now => ℤ
  | .resolve _ => Except Raised String
  | .mkdir _ => Except Raised Unit
  | .enter _ => Except Raised Unit
  | .greet => Except Raised Unit
  | .listTools => Except Raised (List String)
  | .callTool _ _ => Except Raised ToolResult
  | .writeResult _ _ => Except Raised Unit
  -- An exception is passed on, or another one is raised in its place.
  | .leave (some _) => Raised
  | .leave none => Option Raised
  | .writeEvents _ _ => Except Raised Unit

abbrev Op : Type → Type := Program Call Answer

abbrev OpE : Type → Type := Attempt Call Answer Raised

abbrev Exchange : Type := Event Answer

/-- `now()` -/
def now : Op String := .call .now fun (micros : ℤ) => .ret (isoformat micros)

/-- A call that may raise. -/
def attempt {α : Type} (c : Call) (h : Answer c = Except Raised α) : OpE α :=
  ExceptT.mk (.call c fun r => .ret (cast h r))

/-! ## Spans -/

/-- `event[key] = value` -/
def set (event : PublishedEvent) (key value : String) : PublishedEvent :=
  if event.any (fun m => m.1 = key) then event.map fun m => if m.1 = key then (key, value) else m
  else event ++ [(key, value)]

/-- `event.update(fields)` -/
def update (event fields : PublishedEvent) : PublishedEvent :=
  fields.foldl (fun event m => set event m.1 m.2) event

/-- The dictionary of a span that ends at `stop`. -/
def spanEvent (args : Args) (trace kind start stop status : String) (fields : PublishedEvent) :
    PublishedEvent :=
  update
    [("eventId", trace ++ "-" ++ kind), ("traceId", trace), ("runId", trace ++ "-run"),
      ("parentId", if kind = "run" then "" else trace ++ "-run"),
      ("tenantId", args.tenant), ("cluster", args.cluster), ("namespace", args.ns),
      ("agent", args.agent), ("kind", kind), ("name", args.tool),
      ("status", status), ("startedAt", start), ("endedAt", stop)]
    fields

/-- The variables that `span` and the `except` clause share with the rest. -/
structure Progress where
  events : List PublishedEvent := []
  toolStarted : Option String := none

def span (args : Args) (trace kind start status : String) (fields : PublishedEvent) (p : Progress) :
    Op Progress := do
  let stop ← now
  pure { p with events := p.events ++ [spanEvent args trace kind start stop status fields] }

/-! ## The session -/

section execute

variable (asUri : String → String) (args : Args) (trace artifact : String)

/-- After the tool has returned. -/
def report (started : String) (result : ToolResult) (p : Progress) :
    Op (Progress × Option Raised) := do
  let p ← span args trace "tool" started "succeeded" [("tool", args.tool)] p
  let p := { p with toolStarted := none }
  let artifactStarted ← now
  match ← Program.perform (Call.writeResult artifact result) with
  | .error raised => pure (p, some raised)
  | .ok () =>
    let p ← span args trace "artifact" artifactStarted "succeeded"
      [("artifactUri", asUri artifact), ("artifactType", "application/json")] p
    pure (p, none)

/-- The body of the `async with` statements. -/
def session (p : Progress) : Op (Progress × Option Raised) := do
  match ← Program.perform Call.greet with
  | .error raised => pure (p, some raised)
  | .ok () =>
    match ← Program.perform Call.listTools with
    | .error raised => pure (p, some raised)
    | .ok tools =>
      if args.tool ∉ tools then pure (p, some (.exception "ValueError"))
      else do
        let started ← now
        let p := { p with toolStarted := some started }
        match ← Program.perform (Call.callTool args.tool args.arguments) with
        | .error raised => pure (p, some raised)
        | .ok result =>
          if result.isError then pure (p, some (.exception "RuntimeError"))
          else report asUri args trace artifact started result p

/-- The `async with` statements. -/
def withSession (p : Progress) : Op (Progress × Option Raised) := do
  match ← Program.perform (Call.enter args.command) with
  | .error raised => pure (p, some raised)
  | .ok () =>
    match ← session asUri args trace artifact p with
    | (p, some raised) =>
      let raised ← Program.perform (Call.leave (some raised))
      pure (p, some raised)
    | (p, none) =>
      let raised ← Program.perform (Call.leave none)
      pure (p, raised)

/-- The `except` clause, with the value of `error`. -/
def handle (p : Progress) : Option Raised → OpE (Progress × Option String)
  | none => pure (p, none)
  | some .other => throw .other
  | some (.exception error) => do
    match p.toolStarted with
    | none => pure (p, some error)
    | some started =>
      let p ← ExceptT.lift
        (span args trace "tool" started "failed" [("tool", args.tool), ("errorType", error)] p)
      pure (p, some error)

/-- `error` as a condition. -/
def truthy (error : Option String) : Bool := error.any (· ≠ "")

/-- What `execute` returns. -/
structure Executed where
  trace : String
  events : List PublishedEvent
  artifact : String
  eventPath : String
  error : Option String

end execute

def execute (asUri : String → String) (args : Args) : OpE Executed := do
  let hex ← ExceptT.lift (Program.perform Call.uuid4)
  let trace := "mcp-" ++ hex
  let output ← attempt (.resolve args.output) rfl
  attempt (.mkdir output) rfl
  let artifact := output ++ "/" ++ trace ++ ".result.json"
  let started ← ExceptT.lift now
  let (p, raised) ← ExceptT.lift (withSession asUri args trace artifact {})
  let (p, error) ← handle args trace p raised
  let fields := if truthy error then [("errorType", error.getD "")] else []
  let p ← ExceptT.lift
    (span args trace "run" started (if truthy error then "failed" else "succeeded") fields p)
  let eventPath := output ++ "/" ++ trace ++ ".executions.json"
  attempt (.writeEvents eventPath p.events) rfl
  pure ⟨trace, p.events, artifact, eventPath, error⟩

end CubeOperator.Telemetry.Mcp
