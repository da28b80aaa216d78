import Tempcheck.Collector.Model
import Tempcheck.Storage.Model

/-!
# The web handlers

The model of the JSON handlers of `web.rs`.  A handler takes the store's table and what
its surroundings answer: the faults of each call to the store, the outcome of the
collector, and the time.  `getCurrent` returns the table it leaves, since its fallback
inserts what it collected.

The encoding of the response is left out.  A response is the value that is encoded, or the
status and message of the error.
-/

namespace Tempcheck

/-- `ApiError`. -/
structure ApiError where
  status : Nat
  message : String
deriving DecidableEq

/-- `ApiError::bad_request`. -/
def ApiError.badRequest (message : String) : ApiError := ⟨400, message⟩

/-- `ApiError::internal`. -/
def ApiError.internal (message : String) : ApiError := ⟨500, message⟩

/-- `map_store_error`. -/
def mapStoreError : StoreError → ApiError
  | .invalidRange => .badRequest StoreError.invalidRange.toString
  | .rowLimitExceeded => .badRequest StoreError.rowLimitExceeded.toString
  | .db msg => .internal msg

/-- `HistoryQuery`. -/
structure HistoryQuery where
  sensor : Option String
  hours : Option Int

/-- The loop of `latest_sensor_readings`. -/
def latestLoop : List SensorReading → List String → List SensorReading → List SensorReading
  | [], _, latest => latest
  | reading :: recent, seen, latest =>
      if reading.sensorName ∈ seen then latestLoop recent seen latest
      else latestLoop recent (reading.sensorName :: seen) (latest ++ [reading])

section

variable [Chrono] [Sqlite]

/-- `latest_sensor_readings`. -/
def latestSensorReadings (io : Faults) (db : Db) (rowLimit : UInt64) :
    Except StoreError (List SensorReading) := do
  let recent ← recentReadings io db none rowLimit
  return sortByName (latestLoop recent [] [])

/-- The faults of the two calls of `get_current` to the store. -/
structure CurrentFaults where
  recent : Faults
  insert : Faults

/-- `get_current`. -/
def getCurrent (io : CurrentFaults) (db : Db)
    (collect : Except CollectorError (List SensorReading)) :
    Db × Except ApiError (List SensorReading) :=
  match latestSensorReadings io.recent db 512 with
  | .error e => (db, .error (mapStoreError e))
  | .ok readings =>
      if readings.isEmpty then
        -- the fallback, which also inserts
        match collect with
        | .error e => (db, .error (.internal e.toString))
        | .ok readings =>
            if !readings.isEmpty then
              match insertReadings io.insert db readings with
              | (db, .error e) => (db, .error (mapStoreError e))
              | (db, .ok _) => (db, .ok readings)
            else (db, .ok readings)
      else (db, .ok readings)

/-- `get_history`. -/
def getHistory (io : Faults) (db : Db) (now : DateTime) (query : HistoryQuery) :
    Except ApiError (List AnalysisResult) :=
  let hours := query.hours.getD 24
  if ¬ (1 ≤ hours ∧ hours ≤ 24 * 30) then
    .error (.badRequest "hours must be between 1 and 720")
  else
    let toAt := now
    let fromAt := toAt.subHours hours
    (analyze io db query.sensor fromAt toAt).mapError mapStoreError

end

end Tempcheck
