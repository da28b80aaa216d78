import Tempcheck.Chrono.Rfc3339
import Tempcheck.Collector.Reading
import Tempcheck.Config
import Tempcheck.Library.Relational
import Mathlib.Data.String.Basic

/-!
# The SQLite store

The model of `storage.rs`.  A `Db` is the table `temperature_readings` with the row
counter that `AUTOINCREMENT` keeps, and its invariant is that ids grow along the table
and never pass the counter.  An `INSERT` outside a transaction commits on its own, so
`insertLoop` passes the table on from row to row and an error leaves the rows already
inserted.

Each SQL text of the source is a definition of its own, with the parameters in the order
of its `?1`, `?2`, `?3`.  The engine is free where SQL leaves a choice, and `Sqlite` holds
the choices: the order among equal timestamps and the order of groups.  `Faults` says what
fails outside the program: the lock, and each statement by its number within the call.

Timestamps are compared as text.  SQLite compares bytes and `String` compares
characters, which is the same order for UTF-8.
-/

namespace Tempcheck

open Relational (OrderDesc GroupBy)

/-! ## The table -/

/-- A row of `temperature_readings`. -/
structure Row where
  id : Nat
  sensorName : String
  temperatureC : Rat
  recordedAt : String
deriving DecidableEq

/-- The largest rowid, `i64::MAX`. -/
abbrev maxRowid : Nat := 2 ^ 63 - 1

/-- The table and the counter of its ids. -/
structure Db where
  rows : List Row
  seq : Nat
  ids : rows.Pairwise fun a b => a.id < b.id
  ids_le : ∀ r ∈ rows, 1 ≤ r.id ∧ r.id ≤ seq
  seq_le : seq ≤ maxRowid

/-- The table `init_schema` creates. -/
def Db.empty : Db where
  rows := []
  seq := 0
  ids := List.Pairwise.nil
  ids_le := by simp
  seq_le := by decide

/-- The table with one more row, if the counter is not exhausted. -/
def Db.push (db : Db) (name : String) (temp : Rat) (recordedAt : String)
    (h : db.seq < maxRowid) : Db where
  rows := db.rows ++ [⟨db.seq + 1, name, temp, recordedAt⟩]
  seq := db.seq + 1
  ids := by
    refine List.pairwise_append.mpr ⟨db.ids, List.pairwise_singleton .., fun a ha b hb => ?_⟩
    have := (db.ids_le a ha).2
    rw [List.mem_singleton.mp hb]
    exact Nat.lt_succ_of_le this
  ids_le := by
    intro r hr
    rcases List.mem_append.mp hr with hr | hr
    · have := db.ids_le r hr
      omega
    · rw [List.mem_singleton.mp hr]
      exact ⟨Nat.succ_pos _, Nat.le_refl _⟩
  seq_le := h

/-! ## Errors and faults -/

/-- `StoreError`. -/
inductive StoreError where
  | db (msg : String)
  | invalidRange
  | rowLimitExceeded
deriving DecidableEq

/-- The text of a `StoreError`. -/
def StoreError.toString : StoreError → String
  | .db msg => "database error: " ++ msg
  | .invalidRange => "invalid time range: start must be before end"
  | .rowLimitExceeded => "row limit exceeded (max " ++ maxAnalysisRows.repr ++ ")"

/-- What fails in one call to the store, each with its error text. -/
structure Faults where
  lock : Option String
  stmt : Nat → Option String

/-- Nothing fails. -/
def Faults.none : Faults := ⟨Option.none, fun _ => Option.none⟩

/-- A fault as the error that `map_err` makes of it. -/
def checkFault : Option String → Except StoreError Unit
  | some e => .error (.db e)
  | Option.none => .ok ()

/-! ## insert_readings -/

/-- `INSERT INTO temperature_readings (..) VALUES (?1, ?2, ?3)`.  SQLite stores `NaN` as
NULL, which the column does not allow. -/
def insertSql (fault : Option String) (db : Db) (p1 : String) (p2 : F64) (p3 : String) :
    Except String Db :=
  match fault with
  | some e => .error e
  | Option.none =>
      match p2 with
      | .nan => .error "NOT NULL constraint failed: temperature_readings.temperature_c"
      | .exact q =>
          if h : db.seq < maxRowid then .ok (db.push p1 q p3 h)
          else .error "database or disk is full"

section

variable [Chrono]

/-- The loop of `insert_readings`, with `count` rows inserted. -/
def insertLoop (io : Faults) : List SensorReading → Db → Nat → Db × Except StoreError Nat
  | [], db, count => (db, .ok count)
  | reading :: readings, db, count =>
      match insertSql (io.stmt count) db reading.sensorName reading.temperatureC
          (toRfc3339 reading.recordedAt) with
      | .error e => (db, .error (.db e))
      | .ok db => insertLoop io readings db (count + 1)

/-- `insert_readings`. -/
def insertReadings (io : Faults) (db : Db) (readings : List SensorReading) :
    Db × Except StoreError Nat :=
  match io.lock with
  | some e => (db, .error (.db e))
  | Option.none => insertLoop io readings db 0

end

/-! ## Queries -/

/-- The two forms of every query: with a sensor, and for all sensors. -/
inductive Variant where
  | sensor
  | all
deriving DecidableEq

/-- The choices of the query engine, for each form of a query. -/
class Sqlite where
  /-- `ORDER BY t2.recorded_at DESC` in the subquery of `analyze`. -/
  latestOrder : Variant → OrderDesc Row Row.recordedAt
  /-- `GROUP BY sensor_name` in `analyze`. -/
  groups : Variant → GroupBy Row Row.sensorName
  /-- `ORDER BY recorded_at DESC` in `recent_readings`. -/
  recentOrder : Variant → OrderDesc Row Row.recordedAt

/-- An engine that sorts by insertion and lists each group once. -/
instance Sqlite.reference : Sqlite where
  latestOrder _ := .insertion _
  groups _ := .dedup _
  recentOrder _ := .insertion _

/-- `recorded_at >= lo AND recorded_at <= hi`. -/
def Row.within (lo hi : String) (r : Row) : Bool := lo ≤ r.recordedAt && r.recordedAt ≤ hi

/-- `SELECT COUNT(*) .. WHERE sensor_name = ?1 AND recorded_at >= ?2 AND recorded_at <= ?3`. -/
def countSensorSql (db : Db) (p1 p2 p3 : String) : Nat :=
  (db.rows.filter fun r => r.sensorName = p1 && r.within p2 p3).length

/-- `SELECT COUNT(*) .. WHERE recorded_at >= ?1 AND recorded_at <= ?2`. -/
def countAllSql (db : Db) (p1 p2 : String) : Nat :=
  (db.rows.filter fun r => r.within p1 p2).length

/-- A result row of the aggregation, whose columns may be NULL. -/
structure AggRow where
  sensorName : String
  cnt : Nat
  minC : Option Rat
  maxC : Option Rat
  avgC : Option Rat
  latestC : Option Rat
  fromTs : Option String
  toTs : Option String

/-- The aggregates of the rows `l` of sensor `name`, with the subquery's answer. -/
def aggregate (name : String) (l : List Row) (latestC : Option Rat) : AggRow where
  sensorName := name
  cnt := l.length
  minC := (l.map Row.temperatureC).min?
  maxC := (l.map Row.temperatureC).max?
  avgC := Relational.avg? (l.map Row.temperatureC)
  latestC := latestC
  fromTs := (l.map Row.recordedAt).min?
  toTs := (l.map Row.recordedAt).max?

section

variable [Sqlite]

/-- `(SELECT temperature_c .. WHERE t2.sensor_name = t1.sensor_name AND
t2.recorded_at >= lo AND t2.recorded_at <= hi ORDER BY t2.recorded_at DESC LIMIT 1)`. -/
def latestSql (v : Variant) (db : Db) (name lo hi : String) : Option Rat :=
  let rows := db.rows.filter fun r => r.sensorName = name && r.within lo hi
  ((Relational.limit 1 ((Sqlite.latestOrder v).run rows)).head?).map Row.temperatureC

/-- The aggregation for one sensor: `WHERE sensor_name = ?1 AND recorded_at >= ?2 AND
recorded_at <= ?3 GROUP BY sensor_name`. -/
def analyzeSensorSql (db : Db) (p1 p2 p3 : String) : List AggRow :=
  let rows := db.rows.filter fun r => r.sensorName = p1 && r.within p2 p3
  ((Sqlite.groups .sensor).keys rows).map fun name =>
    aggregate name (Relational.group Row.sensorName rows name) (latestSql .sensor db name p2 p3)

/-- The aggregation for all sensors: `WHERE recorded_at >= ?1 AND recorded_at <= ?2
GROUP BY sensor_name`. -/
def analyzeAllSql (db : Db) (p1 p2 : String) : List AggRow :=
  let rows := db.rows.filter fun r => r.within p1 p2
  ((Sqlite.groups .all).keys rows).map fun name =>
    aggregate name (Relational.group Row.sensorName rows name) (latestSql .all db name p1 p2)

/-- `SELECT .. WHERE sensor_name = ?1 ORDER BY recorded_at DESC LIMIT ?2`. -/
def recentSensorSql (db : Db) (p1 : String) (p2 : Int64) : List Row :=
  Relational.limit p2.toInt
    ((Sqlite.recentOrder .sensor).run (db.rows.filter fun r => r.sensorName = p1))

/-- `SELECT .. ORDER BY recorded_at DESC LIMIT ?1`. -/
def recentAllSql (db : Db) (p1 : Int64) : List Row :=
  Relational.limit p1.toInt ((Sqlite.recentOrder .all).run db.rows)

end

/-! ## analyze and recent_readings -/

/-- `AnalysisResult`. -/
structure AnalysisResult where
  sensorName : String
  count : Nat
  minC : F64
  maxC : F64
  avgC : F64
  latestC : F64
  fromAt : DateTime
  toAt : DateTime
deriving DecidableEq

/-- `row.get(index)` of a column that must not be NULL. -/
def getColumn {α : Type} (index name : String) : Option α → Except String α
  | some v => .ok v
  | Option.none =>
      .error ("Invalid column type Null at index: " ++ index ++ ", name: " ++ name)

section

variable [Chrono]

/-- The closure `map_row` of `analyze`. -/
def mapRow (row : AggRow) : Except String AnalysisResult := do
  let fromStr ← getColumn "6" "from_ts" row.fromTs
  let toStr ← getColumn "7" "to_ts" row.toTs
  let minC ← getColumn "2" "min_c" row.minC
  let maxC ← getColumn "3" "max_c" row.maxC
  let avgC ← getColumn "4" "avg_c" row.avgC
  let latestC ← getColumn "5" "latest_c" row.latestC
  let fromAt ← parseFromRfc3339 fromStr
  let toAt ← parseFromRfc3339 toStr
  return {
    sensorName := row.sensorName
    count := row.cnt
    minC := .exact minC
    maxC := .exact maxC
    avgC := .exact avgC
    latestC := .exact latestC
    fromAt := fromAt
    toAt := toAt }

/-- `map_row_reading`. -/
def mapRowReading (row : Row) : Except String SensorReading := do
  let recordedAt ← parseFromRfc3339 row.recordedAt
  return ⟨row.sensorName, .exact row.temperatureC, recordedAt⟩

/-- `.collect::<Result<Vec<_>, _>>().map_err(..)` over mapped rows. -/
def collectRows {α β : Type} (f : α → Except String β) (rows : List α) :
    Except StoreError (List β) :=
  (rows.mapM f).mapError .db

/-- The first statement of `analyze` and the check of its answer. -/
def analyzeCount (io : Faults) (db : Db) (sensor : Option String) (fromAt toAt : DateTime) :
    Except StoreError Unit := do
  checkFault (io.stmt 0)
  let count := match sensor with
    | some name => countSensorSql db name (toRfc3339 fromAt) (toRfc3339 toAt)
    | Option.none => countAllSql db (toRfc3339 fromAt) (toRfc3339 toAt)
  if count > maxAnalysisRows then .error .rowLimitExceeded else .ok ()

variable [Sqlite]

/-- The second statement of `analyze`: prepared, run and mapped. -/
def analyzeSelect (io : Faults) (db : Db) (sensor : Option String) (fromAt toAt : DateTime) :
    Except StoreError (List AnalysisResult) := do
  checkFault (io.stmt 1)
  checkFault (io.stmt 2)
  match sensor with
  | some name =>
      collectRows mapRow (analyzeSensorSql db name (toRfc3339 fromAt) (toRfc3339 toAt))
  | Option.none => collectRows mapRow (analyzeAllSql db (toRfc3339 fromAt) (toRfc3339 toAt))

/-- `analyze`. -/
def analyze (io : Faults) (db : Db) (sensor : Option String) (fromAt toAt : DateTime) :
    Except StoreError (List AnalysisResult) := do
  if fromAt ≥ toAt then
    throw .invalidRange
  checkFault io.lock
  analyzeCount io db sensor fromAt toAt
  analyzeSelect io db sensor fromAt toAt

/-- `recent_readings`. -/
def recentReadings (io : Faults) (db : Db) (sensor : Option String) (limit : UInt64) :
    Except StoreError (List SensorReading) := do
  checkFault io.lock
  checkFault (io.stmt 0)
  checkFault (io.stmt 1)
  match sensor with
  | some name => collectRows mapRowReading (recentSensorSql db name limit.toInt64)
  | Option.none => collectRows mapRowReading (recentAllSql db limit.toInt64)

end

end Tempcheck
