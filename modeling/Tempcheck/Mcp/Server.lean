import Tempcheck.Audit
import Tempcheck.Collector.Model
import Tempcheck.Library.Json
import Tempcheck.Library.Program
import Tempcheck.Storage.Model

/-!
# The MCP tools

The model of `mcp/server.rs`.  A tool handler is a program, and what it asks is what it
does outside itself: it draws a correlation id, reads the clock, writes an event to a sink,
calls the collector, queries the store (`Op`).  The surroundings give the answers, so the
store and the collector of the service are not among its fields.  `Host` has the answers
of a store with given contents.

The two handlers share the events around their work, `audited`, and the end of that work,
`respond`.

`Encoders` stands for the texts that other crates produce: the JSON of the answers and the
`Display` of an error.
-/

namespace Tempcheck

open Program (Prog Surroundings compute perform query)
open RustStr (OsString)

/-! ## Errors and results -/

/-- `McpError`, of which the tools use the code and the message. -/
structure McpError where
  code : Int
  message : String
deriving DecidableEq

/-- `McpError::invalid_params`. -/
def McpError.invalidParams (message : String) : McpError := ⟨-32602, message⟩

/-- `McpError::internal_error`. -/
def McpError.internalError (message : String) : McpError := ⟨-32603, message⟩

/-- `Content`. -/
inductive Content where
  | text (text : String)
deriving DecidableEq

/-- `CallToolResult`. -/
structure CallToolResult where
  content : List Content
  isError : Bool
deriving DecidableEq

/-- `CallToolResult::success`. -/
def CallToolResult.success (content : List Content) : CallToolResult := ⟨content, false⟩

/-- The bytes of the text of a result. -/
def CallToolResult.bytes (result : CallToolResult) : Nat :=
  (result.content.map fun | .text text => text.utf8ByteSize).sum

/-- Texts of other crates. -/
class Encoders where
  /-- `serde_json::to_string` of readings. -/
  readingsJson : List SensorReading → Except String String
  /-- `serde_json::to_string` of analysis results. -/
  analysisJson : List AnalysisResult → Except String String
  /-- `to_string` of an error. -/
  errorText : McpError → String

export Encoders (readingsJson analysisJson errorText)

/-! ## Parameters -/

/-- `GetCurrentTemperatureParams`. -/
structure GetCurrentTemperatureParams where
  authToken : Option String
deriving DecidableEq

/-- `AnalyzeTemperatureParams`. -/
structure AnalyzeTemperatureParams where
  fromText : Option String
  toText : Option String
  sensor : Option String
  authToken : Option String
deriving DecidableEq

/-- `serde_json::to_string` of the parameters, which cannot fail. -/
def GetCurrentTemperatureParams.toJson (params : GetCurrentTemperatureParams) : String :=
  Json.object [("auth_token", Json.nullable params.authToken)]

/-- `serde_json::to_string` of the parameters, which cannot fail. -/
def AnalyzeTemperatureParams.toJson (params : AnalyzeTemperatureParams) : String :=
  Json.object [("from", Json.nullable params.fromText), ("to", Json.nullable params.toText),
    ("sensor", Json.nullable params.sensor), ("auth_token", Json.nullable params.authToken)]

/-! ## Programs -/

/-- What a handler asks its surroundings. -/
inductive Op where
  /-- `Uuid::new_v4().to_string()`. -/
  | newUuid
  /-- `Utc::now()` in `AuditEvent::invoke`. -/
  | eventTime
  /-- `Utc::now()` in `analyze_temperature`. -/
  | now
  /-- `emit` of one of the sinks, by its place. -/
  | emit (sink : Nat) (event : AuditEvent)
  /-- `collect` of the collector. -/
  | collect
  /-- `analyze` of the store. -/
  | analyze (sensor : Option String) (fromAt toAt : DateTime)
deriving DecidableEq

/-- What a handler gets back. -/
@[reducible] def Op.Answer : Op → Type
  | .newUuid => String
  | .eventTime => DateTime
  | .now => DateTime
  | .emit _ _ => Unit
  | .collect => Except CollectorError (List SensorReading)
  | .analyze _ _ _ => Except StoreError (List AnalysisResult)

/-- A handler. -/
abbrev Handler : Type → Type := Prog Op Op.Answer

/-- The body of a handler, with `?`. -/
abbrev Attempt : Type → Type := ExceptT McpError Handler

/-- `MultiAuditSink`, with the number of its sinks. -/
structure MultiAuditSink where
  sinks : Nat

/-- `MultiAuditSink::emit`. -/
def MultiAuditSink.emit (audit : MultiAuditSink) (event : AuditEvent) : Handler Unit :=
  forM (List.range audit.sinks) fun sink => query (Op.emit sink event)

/-! ## The service -/

/-- `TemperatureMcpService`. -/
structure TemperatureMcpService where
  audit : MultiAuditSink
  expectedToken : Option String

/-- The environment of a process. -/
abbrev Environment := String → Option OsString

/-- `std::env::VarError`. -/
inductive VarError where
  | notPresent
  | notUnicode (value : OsString)

/-- `std::env::var`. -/
def envVar (env : Environment) (key : String) : Except VarError String :=
  match env key with
  | none => .error .notPresent
  | some value => value.toStr?.elim (.error (.notUnicode value)) .ok

/-- `anyhow::Error`: a context and its cause. -/
structure ContextError where
  context : String
  cause : String

/-- `TemperatureMcpService::new`, with what opening the database gave, and opening the
audit log if there is one. -/
def TemperatureMcpService.new (env : Environment) (db : Except String Unit)
    (auditLog : Option (Except String Unit)) : Except ContextError TemperatureMcpService := do
  db.mapError fun cause => ⟨"failed to open temperature database", cause⟩
  let expectedToken := (envVar env defaultMcpTokenEnv).toOption
  match auditLog with
  | none => return ⟨⟨1⟩, expectedToken⟩
  | some opened =>
      opened.mapError fun cause => ⟨"failed to open audit log", cause⟩
      return ⟨⟨2⟩, expectedToken⟩

/-- `TOOL_GET_CURRENT`. -/
def toolGetCurrent : String := "get_current_temperature"

/-- `TOOL_GET_CURRENT_VERSION`. -/
def toolGetCurrentVersion : String := "1"

/-- `TOOL_ANALYZE`. -/
def toolAnalyze : String := "analyze_temperature"

/-- `TOOL_ANALYZE_VERSION`. -/
def toolAnalyzeVersion : String := "1"

/-- The error of a call without the token. -/
def insufficientScope : McpError :=
  .invalidParams "insufficient scope: valid auth_token required"

/-- `cap_response`. -/
def capResponse (json : String) : Except McpError String :=
  if json.utf8ByteSize > maxResponseBytes then
    .error (.internalError ("response exceeds " ++ maxResponseBytes.repr ++ " byte cap"))
  else .ok json

/-- The closure that maps an error of `analyze`. -/
def mapAnalyzeError (e : StoreError) : McpError :=
  let msg := e.toString
  if RustStr.contains msg "invalid time range" || RustStr.contains msg "row limit" then
    .invalidParams msg
  else .internalError msg

section

variable [Chrono]

/-- `parse_time`. -/
def parseTime (s : String) : Except McpError DateTime :=
  (parseFromRfc3339 s).mapError fun _ => .invalidParams "invalid ISO-8601 timestamp"

/-- The `match` for `to`. -/
def toTime : Option String → Attempt DateTime
  | some s => compute (parseTime s)
  | none => perform (query Op.now)

/-- The `match` for `from`. -/
def fromTime (toAt : DateTime) : Option String → Except McpError DateTime
  | some s => parseTime s
  | none => .ok (toAt.subHours 24)

/-- The check of the range. -/
def checkRange (fromAt toAt : DateTime) : Except McpError (DateTime × DateTime) :=
  if fromAt ≥ toAt then .error (.invalidParams "from must be before to")
  else .ok (fromAt, toAt)

/-- The range that `analyze_temperature` asks for. -/
def timeRange (params : AnalyzeTemperatureParams) : Attempt (DateTime × DateTime) := do
  let toAt ← toTime params.toText
  let fromAt ← compute (fromTime toAt params.fromText)
  compute (checkRange fromAt toAt)

namespace TemperatureMcpService

variable (service : TemperatureMcpService)

/-- `authorize`. -/
def authorize (token : Option String) : Except McpError Unit :=
  match service.expectedToken with
  | none => .ok ()
  | some expected =>
      match token with
      | some t => if t = expected then .ok () else .error insufficientScope
      | none => .error insufficientScope

/-- `audit_invoke`. -/
def auditInvoke (tool version params : String) : Handler AuditEvent := do
  let correlationId ← query Op.newUuid
  let now ← query Op.eventTime
  let event := AuditEvent.invoke now tool version "mcp-client" "temperature:read" params
    correlationId
  service.audit.emit event
  return event

/-- `audit_result`. -/
def auditResult (event : AuditEvent) (status : String) (bytes : Nat) (err : Option String) :
    Handler Unit :=
  service.audit.emit (event.withResult status bytes err)

variable [Encoders]

/-- The end of the body of a handler, with the JSON of its answer. -/
def respond (event : AuditEvent) (json : Except String String) : Attempt CallToolResult := do
  let payload ← compute (json.mapError .internalError)
  let payload ← compute (capResponse payload)
  perform (service.auditResult event "success" payload.utf8ByteSize none)
  return .success [.text payload]

/-- The event after a body that failed. -/
def auditFailure (event : AuditEvent) : Except McpError CallToolResult → Handler Unit
  | .error e => service.auditResult event "error" 0 (some (errorText e))
  | .ok _ => return ()

/-- A handler: the event before its body, and the one after a body that failed. -/
def audited (tool version params : String) (body : AuditEvent → Attempt CallToolResult) :
    Handler (Except McpError CallToolResult) := do
  let event ← service.auditInvoke tool version params
  let result ← (body event).run
  service.auditFailure event result
  return result

/-- The `async` block of `get_current_temperature`. -/
def currentBody (params : GetCurrentTemperatureParams) (event : AuditEvent) :
    Attempt CallToolResult := do
  compute (service.authorize params.authToken)
  let collected ← perform (query Op.collect)
  let readings ← compute (collected.mapError fun e => .internalError e.toString)
  service.respond event (readingsJson readings)

/-- The `async` block of `analyze_temperature`. -/
def analyzeBody (params : AnalyzeTemperatureParams) (event : AuditEvent) :
    Attempt CallToolResult := do
  compute (service.authorize params.authToken)
  let range ← timeRange params
  let analyzed ← perform (query (Op.analyze params.sensor range.1 range.2))
  let analysis ← compute (analyzed.mapError mapAnalyzeError)
  service.respond event (analysisJson analysis)

/-- `get_current_temperature`. -/
def getCurrentTemperature (params : GetCurrentTemperatureParams) :
    Handler (Except McpError CallToolResult) :=
  service.audited toolGetCurrent toolGetCurrentVersion params.toJson
    (service.currentBody params)

/-- `analyze_temperature`. -/
def analyzeTemperature (params : AnalyzeTemperatureParams) :
    Handler (Except McpError CallToolResult) :=
  service.audited toolAnalyze toolAnalyzeVersion params.toJson (service.analyzeBody params)

end TemperatureMcpService

/-! ## Calls -/

/-- A call of a tool. -/
inductive ToolCall where
  | getCurrent (params : GetCurrentTemperatureParams)
  | analyze (params : AnalyzeTemperatureParams)
deriving DecidableEq

/-- The token that a call presents. -/
def ToolCall.authToken : ToolCall → Option String
  | .getCurrent params => params.authToken
  | .analyze params => params.authToken

/-- The handler of a call. -/
def TemperatureMcpService.serve [Encoders] (service : TemperatureMcpService) :
    ToolCall → Handler (Except McpError CallToolResult)
  | .getCurrent params => service.getCurrentTemperature params
  | .analyze params => service.analyzeTemperature params

/-- What is around one call: a store with its contents and faults, the outcome of the
collector, and what the clock and the generator of ids give. -/
structure Host where
  io : Faults
  db : Db
  collected : Except CollectorError (List SensorReading)
  correlationId : String
  eventTime : DateTime
  now : DateTime

/-- The answers of a host. -/
def Host.answer [Sqlite] (host : Host) : Surroundings Op Op.Answer
  | .newUuid => host.correlationId
  | .eventTime => host.eventTime
  | .now => host.now
  | .emit _ _ => ()
  | .collect => host.collected
  | .analyze sensor fromAt toAt => Tempcheck.analyze host.io host.db sensor fromAt toAt

end

/-! ## Reference texts -/

/-- The text of a number that has at most three decimals and fifteen digits, as temperatures
have that are read in thousandths.  Of other numbers there is no reference text. -/
def decimalText (q : Rat) : Except String String :=
  let milli := (q * 1000).num.natAbs
  let sign := if q < 0 then "-" else ""
  let digits := (DecimalText.fixed 3 (milli % 1000)).rdropWhile (· = '0')
  if (q * 1000).den = 1 ∧ milli < 10 ^ 15 then
    .ok (sign ++ (milli / 1000).repr ++ "." ++ if digits = [] then "0" else String.ofList digits)
  else .error "no reference text"

/-- `serde_json` of an `f64`, which has no number for `NaN`. -/
def f64Json : F64 → Except String String
  | .exact q => decimalText q
  | .nan => .ok "null"

/-- `Serialize` of an instant: its text with `Z` for the offset. -/
def dateTimeJson (t : DateTime) : String :=
  let text := Rfc3339.render t
  Json.quote (String.ofList (text.take (text.length - 6) ++ ['Z']))

/-- `Serialize` of a reading. -/
def SensorReading.toJson (r : SensorReading) : Except String String := do
  let temperatureC ← f64Json r.temperatureC
  return Json.object [("sensor_name", Json.quote r.sensorName),
    ("temperature_c", temperatureC), ("recorded_at", dateTimeJson r.recordedAt)]

/-- `Serialize` of an analysis result. -/
def AnalysisResult.toJson (r : AnalysisResult) : Except String String := do
  let minC ← f64Json r.minC
  let maxC ← f64Json r.maxC
  let avgC ← f64Json r.avgC
  let latestC ← f64Json r.latestC
  return Json.object [("sensor_name", Json.quote r.sensorName), ("count", r.count.repr),
    ("min_c", minC), ("max_c", maxC), ("avg_c", avgC), ("latest_c", latestC),
    ("from", dateTimeJson r.fromAt), ("to", dateTimeJson r.toAt)]

/-- Encoders that print what has a reference text as the crates do. -/
instance Encoders.reference : Encoders where
  readingsJson readings := do return Json.array (← readings.mapM SensorReading.toJson)
  analysisJson analysis := do return Json.array (← analysis.mapM AnalysisResult.toJson)
  errorText e := toString e.code ++ ": " ++ e.message

end Tempcheck
