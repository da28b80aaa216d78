import Tempcheck.Library.Shared
import Tempcheck.Mcp.Server
import Tempcheck.Storage.Analyze
import Tempcheck.Web.Model

/-!
# The processes on one database file

The daemon, the web server, the MCP server and `tempcheck once` run as processes of their
own and open the same file.  What one of them does for a tick, a request, a tool call or a
snapshot is a `Task`, and a task is a thread.

A task is written twice.  Its program asks its store, its collector and its clock as a whole
(`Call`, and `Op` for the tools), as the source does through its traits.  `Call.statements`
replaces a call to the store by the statements that `SqliteStore` executes, and these are
what the threads of all processes interleave at.  The mutex of a connection only takes
interleavings away.

`Serves` is the file.  A statement sees the table as it is, and may fail for reasons of the
engine at any time.  A collector and a clock may answer anything.
-/

namespace Tempcheck

namespace Deployment

open Program (Prog compute perform query)
open Shared (Exchange Object)

/-! ## Statements -/

/-- What a process asks of the file and of its surroundings. -/
inductive Statement where
  /-- `SqliteStore::open`. -/
  | open
  /-- `self.conn.lock()`. -/
  | lock
  /-- `conn.execute` of the `INSERT` with a reading. -/
  | insert (reading : SensorReading)
  /-- `conn.query_row` of the `COUNT`. -/
  | count (sensor : Option String) (lo hi : String)
  /-- `conn.prepare`. -/
  | prepare
  /-- `stmt.query_map` of the aggregation. -/
  | aggregate (sensor : Option String) (lo hi : String)
  /-- `stmt.query_map` of the most recent rows. -/
  | recent (sensor : Option String) (limit : Int64)
  /-- `collector.collect()`. -/
  | collect
  /-- `Utc::now()`. -/
  | now
  /-- `println!`. -/
  | print (text : String)
  /-- `Uuid::new_v4().to_string()`. -/
  | newUuid
  /-- `emit` of one of the sinks, by its place. -/
  | emit (sink : Nat) (event : AuditEvent)

/-- What a statement returns. -/
@[reducible] def Statement.Answer : Statement → Type
  | .open => Except String Unit
  | .lock => Except String Unit
  | .insert _ => Except String Unit
  | .count _ _ _ => Except String Nat
  | .prepare => Except String Unit
  | .aggregate _ _ _ => Except String (List AggRow)
  | .recent _ _ => Except String (List Row)
  | .collect => Except CollectorError (List SensorReading)
  | .now => DateTime
  | .print _ => Unit
  | .newUuid => String
  | .emit _ _ => Unit

instance : ∀ o : Statement, Nonempty o.Answer
  | .open => ⟨.ok ()⟩
  | .lock => ⟨.ok ()⟩
  | .insert _ => ⟨.ok ()⟩
  | .count _ _ _ => ⟨.ok 0⟩
  | .prepare => ⟨.ok ()⟩
  | .aggregate _ _ _ => ⟨.ok []⟩
  | .recent _ _ => ⟨.ok []⟩
  | .collect => ⟨.ok []⟩
  | .now => ⟨default⟩
  | .print _ => ⟨()⟩
  | .newUuid => ⟨""⟩
  | .emit _ _ => ⟨()⟩

/-- A program of statements. -/
abbrev Session : Type → Type := Prog Statement Statement.Answer

/-- A statement and its answer. -/
abbrev Executed : Type := Exchange Statement Statement.Answer

section

variable [Chrono] [Sqlite]

/-- The table under one statement. -/
inductive Serves : Object Db Statement Statement.Answer where
  | opened {db : Db} {r : Except String Unit} : Serves db ⟨.open, r⟩ db
  | locked {db : Db} {r : Except String Unit} : Serves db ⟨.lock, r⟩ db
  | inserted {db db' : Db} {reading : SensorReading} :
      insertSql none db reading.sensorName reading.temperatureC
        (toRfc3339 reading.recordedAt) = .ok db' →
      Serves db ⟨.insert reading, .ok ()⟩ db'
  | notInserted {db : Db} {reading : SensorReading} {e : String} :
      Serves db ⟨.insert reading, .error e⟩ db
  | counted {db : Db} {sensor : Option String} {lo hi : String} :
      Serves db ⟨.count sensor lo hi, .ok (windowRows db sensor lo hi).length⟩ db
  | notCounted {db : Db} {sensor : Option String} {lo hi e : String} :
      Serves db ⟨.count sensor lo hi, .error e⟩ db
  | prepared {db : Db} {r : Except String Unit} : Serves db ⟨.prepare, r⟩ db
  | aggregated {db : Db} {sensor : Option String} {lo hi : String} :
      Serves db ⟨.aggregate sensor lo hi, .ok (analyzeSql db sensor lo hi)⟩ db
  | notAggregated {db : Db} {sensor : Option String} {lo hi e : String} :
      Serves db ⟨.aggregate sensor lo hi, .error e⟩ db
  | read {db : Db} {sensor : Option String} {limit : Int64} :
      Serves db ⟨.recent sensor limit, .ok (recentSql db sensor limit)⟩ db
  | notRead {db : Db} {sensor : Option String} {limit : Int64} {e : String} :
      Serves db ⟨.recent sensor limit, .error e⟩ db
  | collected {db : Db} {r : Except CollectorError (List SensorReading)} :
      Serves db ⟨.collect, r⟩ db
  | told {db : Db} {now : DateTime} : Serves db ⟨.now, now⟩ db
  | printed {db : Db} {text : String} : Serves db ⟨.print text, ()⟩ db
  | drawn {db : Db} {id : String} : Serves db ⟨.newUuid, id⟩ db
  | emitted {db : Db} {sink : Nat} {event : AuditEvent} : Serves db ⟨.emit sink event, ()⟩ db

end

/-! ## SqliteStore -/

/-- A body of the store, with `?`. -/
abbrev StoreBody : Type → Type := ExceptT StoreError Session

/-- A statement, with `map_err(|e| StoreError::Db(e.to_string()))`. -/
def dbCall {α : Type} (p : Session (Except String α)) : StoreBody α :=
  ExceptT.mk (p >>= fun r => .ret (r.mapError .db))

namespace SqliteStore

section

variable [Chrono]

/-- The loop of `insert_readings`, with `count` rows inserted. -/
def insertLoop : List SensorReading → Nat → StoreBody Nat
  | [], count => pure count
  | reading :: readings, count => do
      dbCall (query (Statement.insert reading))
      insertLoop readings (count + 1)

/-- `insert_readings`. -/
def insertReadings (readings : List SensorReading) : StoreBody Nat := do
  dbCall (query Statement.lock)
  insertLoop readings 0

/-- `analyze`. -/
def analyze (sensor : Option String) (fromAt toAt : DateTime) :
    StoreBody (List AnalysisResult) := do
  compute (if fromAt ≥ toAt then .error .invalidRange else .ok ())
  dbCall (query Statement.lock)
  let count ← dbCall (query (Statement.count sensor (toRfc3339 fromAt) (toRfc3339 toAt)))
  compute (if count > maxAnalysisRows then .error .rowLimitExceeded else .ok ())
  dbCall (query Statement.prepare)
  let rows ← dbCall (query (Statement.aggregate sensor (toRfc3339 fromAt) (toRfc3339 toAt)))
  compute (collectRows mapRow rows)

/-- `recent_readings`. -/
def recentReadings (sensor : Option String) (limit : UInt64) :
    StoreBody (List SensorReading) := do
  dbCall (query Statement.lock)
  dbCall (query Statement.prepare)
  let rows ← dbCall (query (Statement.recent sensor limit.toInt64))
  compute (collectRows mapRowReading rows)

end

end SqliteStore

/-! ## Calls -/

/-- What the daemon, the web server and `once` ask. -/
inductive Call where
  | open
  | insertReadings (readings : List SensorReading)
  | analyze (sensor : Option String) (fromAt toAt : DateTime)
  | recentReadings (sensor : Option String) (limit : UInt64)
  | collect
  | now
  | print (text : String)

/-- What a call returns. -/
@[reducible] def Call.Answer : Call → Type
  | .open => Except StoreError Unit
  | .insertReadings _ => Except StoreError Nat
  | .analyze _ _ _ => Except StoreError (List AnalysisResult)
  | .recentReadings _ _ => Except StoreError (List SensorReading)
  | .collect => Except CollectorError (List SensorReading)
  | .now => DateTime
  | .print _ => Unit

/-- A program of calls. -/
abbrev Handler : Type → Type := Prog Call Call.Answer

section

variable [Chrono]

/-- What a call executes. -/
def Call.statements : (c : Call) → Session c.Answer
  | .open => (dbCall (query Statement.open)).run
  | .insertReadings readings => (SqliteStore.insertReadings readings).run
  | .analyze sensor fromAt toAt => (SqliteStore.analyze sensor fromAt toAt).run
  | .recentReadings sensor limit => (SqliteStore.recentReadings sensor limit).run
  | .collect => query Statement.collect
  | .now => query Statement.now
  | .print text => query (Statement.print text)

/-- What a question of a tool executes. -/
def opStatements : (o : Op) → Session o.Answer
  | .newUuid => query Statement.newUuid
  | .eventTime => query Statement.now
  | .now => query Statement.now
  | .emit sink event => query (Statement.emit sink event)
  | .collect => query Statement.collect
  | .analyze sensor fromAt toAt => (SqliteStore.analyze sensor fromAt toAt).run

end

/-! ## The daemon -/

/-- What a tick of `run_daemon` logs. -/
inductive TickLog where
  | noSensors
  | stored (count : Nat)
  | notStored (e : StoreError)
  | notCollected (e : CollectorError)

/-- What it logs about its call to the store. -/
def TickLog.ofInsert : Except StoreError Nat → TickLog
  | .ok n => .stored n
  | .error e => .notStored e

/-- The arms of the `match` on a collection, in a tick of `run_daemon`. -/
def afterCollect : Except CollectorError (List SensorReading) → Handler TickLog
  | .ok readings =>
      if readings.isEmpty then
        return .noSensors
      else do
        let stored ← query (Call.insertReadings readings)
        return .ofInsert stored
  | .error e => return .notCollected e

/-- A tick of `run_daemon`. -/
def tick : Handler TickLog := do afterCollect (← query Call.collect)

/-! ## The web server -/

/-- `latest_sensor_readings`. -/
def latestSensorReadings (rowLimit : UInt64) :
    Handler (Except StoreError (List SensorReading)) := do
  let recent ← query (Call.recentReadings none rowLimit)
  return recent.map fun recent => sortByName (latestLoop recent [] [])

/-- The fallback of `get_current`, in web-only mode. -/
def currentFallback : Handler (Except ApiError (List SensorReading)) := do
  match ← query Call.collect with
  | .error e => return .error (.internal e.toString)
  | .ok readings =>
      if !readings.isEmpty then
        match ← query (Call.insertReadings readings) with
        | .error e => return .error (mapStoreError e)
        | .ok _ => return .ok readings
      else return .ok readings

/-- `get_current`. -/
def getCurrent : Handler (Except ApiError (List SensorReading)) := do
  match ← latestSensorReadings 512 with
  | .error e => return .error (mapStoreError e)
  | .ok readings => if readings.isEmpty then currentFallback else return .ok readings

/-- `get_history`. -/
def getHistory (q : HistoryQuery) : Handler (Except ApiError (List AnalysisResult)) := do
  let hours := q.hours.getD 24
  if ¬ (1 ≤ hours ∧ hours ≤ 24 * 30) then
    return .error (.badRequest "hours must be between 1 and 720")
  else
    let toAt ← query Call.now
    let fromAt := toAt.subHours hours
    let out ← query (Call.analyze q.sensor fromAt toAt)
    return out.mapError mapStoreError

/-! ## Snapshots -/

/-- The text that a snapshot prints. -/
class PrettyEncoder where
  /-- `serde_json::to_string_pretty` of readings. -/
  readingsPretty : List SensorReading → Except String String

export PrettyEncoder (readingsPretty)

/-- The lines of a reading. -/
def prettyJson (r : SensorReading) : Except String String := do
  let temperatureC ← f64Json r.temperatureC
  return "  \x7b\n    \"sensor_name\": " ++ Json.quote r.sensorName ++
    ",\n    \"temperature_c\": " ++ temperatureC ++
    ",\n    \"recorded_at\": " ++ dateTimeJson r.recordedAt ++ "\n  \x7d"

/-- The encoder that prints what has a reference text as the crate does. -/
instance PrettyEncoder.reference : PrettyEncoder where
  readingsPretty readings :=
    if readings.isEmpty then .ok "[]"
    else do return "[\n" ++ ",\n".intercalate (← readings.mapM prettyJson) ++ "\n]"

/-- The arm of `run` for `Command::Once`, with the text of its error. -/
def once [PrettyEncoder] (save : Bool) : Handler (Except String Unit) := do
  match ← query Call.collect with
  | .error e => return .error e.toString
  | .ok readings =>
      match readingsPretty readings with
      | .error e => return .error e
      | .ok json =>
          query (Call.print json)
          if save then
            match ← query Call.open with
            | .error e => return .error e.toString
            | .ok _ =>
                match ← query (Call.insertReadings readings) with
                | .error e => return .error e.toString
                | .ok _ => return .ok ()
          else return .ok ()

/-! ## Tasks -/

/-- What a thread of one of the processes does. -/
inductive Task where
  | tick
  | current
  | history (q : HistoryQuery)
  | tool (service : TemperatureMcpService) (call : ToolCall)
  | once (save : Bool)

/-- What it ends with. -/
inductive Outcome where
  | tick (log : TickLog)
  | current (response : Except ApiError (List SensorReading))
  | history (response : Except ApiError (List AnalysisResult))
  | tool (response : Except McpError CallToolResult)
  | once (res : Except String Unit)

/-- The statements of a task. -/
def Task.session [Chrono] [Encoders] [PrettyEncoder] : Task → Session Outcome
  | .tick => Shared.refine Call.statements (Outcome.tick <$> Deployment.tick)
  | .current => Shared.refine Call.statements (Outcome.current <$> getCurrent)
  | .history q => Shared.refine Call.statements (Outcome.history <$> getHistory q)
  | .tool service call => Shared.refine opStatements (Outcome.tool <$> service.serve call)
  | .once save => Shared.refine Call.statements (Outcome.once <$> Deployment.once save)

end Deployment

end Tempcheck
