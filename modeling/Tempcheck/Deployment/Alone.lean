import Tempcheck.Chrono.Parser
import Tempcheck.Daemon.Model
import Tempcheck.Deployment.Model

/-!
# A process by itself

With the file to itself the statements of a call do what the model of the store says the
call does (`alone_insertReadings`, `alone_analyze`, `alone_recentReadings`).  What the engine
fails at is in the answers here and in `Faults` there, so one side can be chosen to match the
other.  The handlers of the web server ask for nothing but calls, so they are the handlers
of `Tempcheck.Web.Model` then (`alone_getCurrent`, `alone_getHistory`).  A tick is a pass of
the daemon that collects the same and logs the same (`tick_alone`).
-/

namespace Tempcheck

namespace Deployment

open Program (compute query)
open Shared (Alone Object Yields alone_attempt alone_bind alone_compute alone_map alone_pure
  alone_query alone_refine atomic exists_alone_ask)
open Transition (Run)

section

variable [Chrono] [Sqlite] {db db' : Db}

/-! ## Statements -/

theorem alone_dbCall {α : Type} {p : Session (Except String α)} {r : Except StoreError α} :
    Alone Serves (dbCall p).run db db' r ↔
      ∃ a, Alone Serves p db db' a ∧ r = a.mapError .db := by
  refine alone_bind.trans ⟨?_, ?_⟩
  · rintro ⟨a, u, hp, hret⟩
    obtain ⟨rfl, rfl⟩ := alone_pure.mp hret
    exact ⟨a, hp, rfl⟩
  · rintro ⟨a, hp, rfl⟩
    exact ⟨a, db', hp, alone_pure.mpr ⟨rfl, rfl⟩⟩

/-- A statement that answers `v`, or fails, and leaves the table. -/
def Reads {α : Type} (db : Db) (p : Session (Except String α)) (v : α) : Prop :=
  ∀ db' a, Alone Serves p db db' a ↔ db' = db ∧ (a = .ok v ∨ ∃ e, a = .error e)

/-- After such a statement the body goes on with the answer. -/
theorem Reads.bind {α β : Type} {p : Session (Except String α)} {v : α} (hp : Reads db p v)
    {f : α → StoreBody β} {res : Except StoreError β} :
    Alone Serves (dbCall p >>= f).run db db' res ↔
      (db' = db ∧ ∃ e, res = .error (.db e)) ∨ Alone Serves (f v).run db db' res := by
  refine alone_attempt.trans ⟨?_, ?_⟩
  · rintro (⟨e, hfail, rfl⟩ | ⟨a, u, hok, hrest⟩)
    · obtain ⟨r, hr, he⟩ := alone_dbCall.mp hfail
      obtain ⟨rfl, rfl | ⟨msg, rfl⟩⟩ := (hp _ _).mp hr
      · cases he
      · cases he
        exact Or.inl ⟨rfl, msg, rfl⟩
    · obtain ⟨r, hr, he⟩ := alone_dbCall.mp hok
      obtain ⟨rfl, rfl | ⟨msg, rfl⟩⟩ := (hp _ _).mp hr
      · cases he
        exact Or.inr hrest
      · cases he
  · rintro (⟨rfl, e, rfl⟩ | hrest)
    · exact Or.inl ⟨.db e, alone_dbCall.mpr
        ⟨.error e, (hp _ _).mpr ⟨rfl, Or.inr ⟨e, rfl⟩⟩, rfl⟩, rfl⟩
    · exact Or.inr ⟨v, db, alone_dbCall.mpr
        ⟨.ok v, (hp _ _).mpr ⟨rfl, Or.inl rfl⟩, rfl⟩, hrest⟩

theorem reads_lock : Reads db (query Statement.lock) () := by
  intro db' a
  rw [alone_query]
  constructor
  · rintro ⟨⟩
    cases a with
    | ok u => exact ⟨rfl, Or.inl rfl⟩
    | error e => exact ⟨rfl, Or.inr ⟨e, rfl⟩⟩
  · rintro ⟨rfl, -⟩
    exact .locked

theorem reads_prepare : Reads db (query Statement.prepare) () := by
  intro db' a
  rw [alone_query]
  constructor
  · rintro ⟨⟩
    cases a with
    | ok u => exact ⟨rfl, Or.inl rfl⟩
    | error e => exact ⟨rfl, Or.inr ⟨e, rfl⟩⟩
  · rintro ⟨rfl, -⟩
    exact .prepared

theorem reads_count (sensor : Option String) (lo hi : String) :
    Reads db (query (Statement.count sensor lo hi)) (windowRows db sensor lo hi).length := by
  intro db' a
  rw [alone_query]
  constructor
  · intro h
    cases h with
    | counted => exact ⟨rfl, Or.inl rfl⟩
    | notCounted => exact ⟨rfl, Or.inr ⟨_, rfl⟩⟩
  · rintro ⟨rfl, rfl | ⟨e, rfl⟩⟩
    · exact .counted
    · exact .notCounted

theorem reads_aggregate (sensor : Option String) (lo hi : String) :
    Reads db (query (Statement.aggregate sensor lo hi)) (analyzeSql db sensor lo hi) := by
  intro db' a
  rw [alone_query]
  constructor
  · intro h
    cases h with
    | aggregated => exact ⟨rfl, Or.inl rfl⟩
    | notAggregated => exact ⟨rfl, Or.inr ⟨_, rfl⟩⟩
  · rintro ⟨rfl, rfl | ⟨e, rfl⟩⟩
    · exact .aggregated
    · exact .notAggregated

theorem reads_recent (sensor : Option String) (limit : Int64) :
    Reads db (query (Statement.recent sensor limit)) (recentSql db sensor limit) := by
  intro db' a
  rw [alone_query]
  constructor
  · intro h
    cases h with
    | read => exact ⟨rfl, Or.inl rfl⟩
    | notRead => exact ⟨rfl, Or.inr ⟨_, rfl⟩⟩
  · rintro ⟨rfl, rfl | ⟨e, rfl⟩⟩
    · exact .read
    · exact .notRead

/-! ## Reading calls -/

theorem alone_recentReadings {sensor : Option String} {limit : UInt64}
    {res : Except StoreError (List SensorReading)} :
    Alone Serves (SqliteStore.recentReadings sensor limit).run db db' res ↔
      db' = db ∧ ∃ io, Tempcheck.recentReadings io db sensor limit = res := by
  have hmodel : (∃ io, Tempcheck.recentReadings io db sensor limit = res) ↔
      (∃ e, res = .error (.db e)) ∨
        res = collectRows mapRowReading (recentSql db sensor limit.toInt64) := by
    constructor
    · rintro ⟨⟨lock, stmt⟩, rfl⟩
      rw [recentReadings_eq]
      cases lock with
      | some e => exact Or.inl ⟨e, rfl⟩
      | none =>
          cases h0 : stmt 0 with
          | some e => exact Or.inl ⟨e, by simp only [h0]; rfl⟩
          | none =>
              cases h1 : stmt 1 with
              | some e => exact Or.inl ⟨e, by simp only [h0, h1]; rfl⟩
              | none => exact Or.inr (by simp only [h0, h1]; rfl)
    · rintro (⟨e, rfl⟩ | rfl)
      · exact ⟨⟨some e, fun _ => none⟩, recentReadings_eq ..⟩
      · exact ⟨Faults.none, recentReadings_eq ..⟩
  rw [hmodel, SqliteStore.recentReadings, reads_lock.bind, reads_prepare.bind,
    (reads_recent sensor limit.toInt64).bind, alone_compute]
  tauto

/-- What an analysis of a valid range can answer. -/
theorem exists_analyze_iff {sensor : Option String} {fromAt toAt : DateTime}
    (hlt : ¬ fromAt ≥ toAt) {res : Except StoreError (List AnalysisResult)} :
    (∃ io, Tempcheck.analyze io db sensor fromAt toAt = res) ↔ (∃ e, res = .error (.db e)) ∨
      res = if (windowRows db sensor (toRfc3339 fromAt) (toRfc3339 toAt)).length > maxAnalysisRows
        then .error .rowLimitExceeded
        else collectRows mapRow (analyzeSql db sensor (toRfc3339 fromAt) (toRfc3339 toAt)) := by
  have heq : ∀ io, Tempcheck.analyze io db sensor fromAt toAt = (do
      checkFault io.lock
      checkFault (io.stmt 0)
      if (windowRows db sensor (toRfc3339 fromAt) (toRfc3339 toAt)).length > maxAnalysisRows
      then .error .rowLimitExceeded else do
        checkFault (io.stmt 1)
        checkFault (io.stmt 2)
        collectRows mapRow (analyzeSql db sensor (toRfc3339 fromAt) (toRfc3339 toAt))) := by
    intro io
    rw [Tempcheck.analyze, if_neg hlt, analyzeCount_eq, analyzeSelect_eq]
    cases checkFault io.lock with
    | error e => rfl
    | ok u =>
        cases checkFault (io.stmt 0) with
        | error e => rfl
        | ok u =>
            split
            · rfl
            · rfl
  constructor
  · rintro ⟨⟨lock, stmt⟩, rfl⟩
    rw [heq]
    cases lock with
    | some e => exact Or.inl ⟨e, rfl⟩
    | none =>
        cases h0 : stmt 0 with
        | some e => exact Or.inl ⟨e, by simp only [h0]; rfl⟩
        | none =>
            simp only [h0, checkFault]
            split
            next hmany => exact Or.inr rfl
            next hfew =>
              cases h1 : stmt 1 with
              | some e => exact Or.inl ⟨e, rfl⟩
              | none =>
                  cases h2 : stmt 2 with
                  | some e => exact Or.inl ⟨e, rfl⟩
                  | none => exact Or.inr rfl
  · rintro (⟨e, rfl⟩ | rfl)
    · exact ⟨⟨some e, fun _ => none⟩, heq _⟩
    · refine ⟨Faults.none, (heq _).trans ?_⟩
      simp only [Faults.none, checkFault]
      split
      · rfl
      · rfl

theorem alone_analyze {sensor : Option String} {fromAt toAt : DateTime}
    {res : Except StoreError (List AnalysisResult)} :
    Alone Serves (SqliteStore.analyze sensor fromAt toAt).run db db' res ↔
      db' = db ∧ ∃ io, Tempcheck.analyze io db sensor fromAt toAt = res := by
  rw [SqliteStore.analyze]
  by_cases hrange : fromAt ≥ toAt
  · have heq : ∀ io, Tempcheck.analyze io db sensor fromAt toAt = .error .invalidRange := by
      intro io
      rw [Tempcheck.analyze, if_pos hrange]
      rfl
    rw [if_pos hrange, Shared.compute_error_bind, alone_compute]
    refine and_congr_right fun _ => ⟨?_, ?_⟩
    · rintro rfl
      exact ⟨Faults.none, heq _⟩
    · rintro ⟨io, rfl⟩
      exact heq io
  · rw [exists_analyze_iff hrange, if_neg hrange, Shared.compute_ok_bind, reads_lock.bind,
      (reads_count sensor _ _).bind]
    split
    next hmany =>
      rw [Shared.compute_error_bind, alone_compute]
      tauto
    next hfew =>
      rw [Shared.compute_ok_bind, reads_prepare.bind, (reads_aggregate sensor _ _).bind,
        alone_compute]
      tauto

/-! ## Inserting calls -/

theorem alone_insert {reading : SensorReading} {r : Except StoreError Unit} :
    Alone Serves (dbCall (query (Statement.insert reading))).run db db' r ↔
      (r = .ok () ∧ insertSql none db reading.sensorName reading.temperatureC
        (toRfc3339 reading.recordedAt) = .ok db') ∨ ∃ e, r = .error (.db e) ∧ db' = db := by
  rw [alone_dbCall]
  constructor
  · rintro ⟨a, hq, rfl⟩
    cases alone_query.mp hq with
    | inserted h => exact Or.inl ⟨rfl, h⟩
    | @notInserted _ _ e => exact Or.inr ⟨e, rfl, rfl⟩
  · rintro (⟨rfl, h⟩ | ⟨e, rfl, rfl⟩)
    · exact ⟨.ok (), alone_query.mpr (.inserted h), rfl⟩
    · exact ⟨.error e, alone_query.mpr .notInserted, rfl⟩

omit [Sqlite] in
/-- Faults before the next statement do not matter to the rest of a batch. -/
theorem insertLoop_congr {io io' : Faults} : ∀ {readings : List SensorReading} {db : Db}
    {count : Nat}, (∀ k, count ≤ k → io.stmt k = io'.stmt k) →
    Tempcheck.insertLoop io readings db count = Tempcheck.insertLoop io' readings db count
  | [], _, _, _ => rfl
  | r :: readings, db, count, h => by
      have hrest : ∀ db, Tempcheck.insertLoop io readings db (count + 1) =
          Tempcheck.insertLoop io' readings db (count + 1) := fun db =>
        insertLoop_congr fun k hk => h k (Nat.le_of_succ_le hk)
      rw [Tempcheck.insertLoop, Tempcheck.insertLoop, h count (Nat.le_refl count)]
      simp only [hrest]

theorem alone_insertLoop : ∀ {readings : List SensorReading} {db db' : Db} {count : Nat}
    {res : Except StoreError Nat},
    Alone Serves (SqliteStore.insertLoop readings count).run db db' res ↔
      ∃ io, Tempcheck.insertLoop io readings db count = (db', res)
  | [], db, db', count, res => by
      refine alone_pure.trans ⟨?_, ?_⟩
      · rintro ⟨rfl, rfl⟩
        exact ⟨Faults.none, rfl⟩
      · rintro ⟨io, h⟩
        cases h
        exact ⟨rfl, rfl⟩
  | r :: readings, db, db', count, res => by
      have ih : ∀ {u : Db} {n : Nat},
          Alone Serves (SqliteStore.insertLoop readings n).run u db' res ↔
            ∃ io, Tempcheck.insertLoop io readings u n = (db', res) := alone_insertLoop
      rw [SqliteStore.insertLoop, alone_attempt]
      simp only [alone_insert, ih]
      constructor
      · rintro (⟨e, ⟨h, -⟩ | ⟨msg, he, rfl⟩, rfl⟩ | ⟨_, u, ⟨-, hinsert⟩ | ⟨_, h, -⟩, io, hio⟩)
        · cases h
        · cases he
          exact ⟨⟨none, fun _ => some msg⟩, rfl⟩
        · let io' : Faults := ⟨none, fun k => if k = count then none else io.stmt k⟩
          have hnow : io'.stmt count = none := if_pos rfl
          refine ⟨io', ?_⟩
          rw [Tempcheck.insertLoop, hnow, hinsert, ← hio]
          refine insertLoop_congr fun k hk => if_neg ?_
          omega
        · cases h
      · rintro ⟨io, hio⟩
        rw [Tempcheck.insertLoop] at hio
        cases hstmt : io.stmt count with
        | some msg =>
            rw [hstmt] at hio
            cases hio
            exact Or.inl ⟨.db msg, Or.inr ⟨msg, rfl, rfl⟩, rfl⟩
        | none =>
            rw [hstmt] at hio
            cases hinsert : insertSql none db r.sensorName r.temperatureC
                (toRfc3339 r.recordedAt) with
            | error msg =>
                rw [hinsert] at hio
                cases hio
                exact Or.inl ⟨.db msg, Or.inr ⟨msg, rfl, rfl⟩, rfl⟩
            | ok u =>
                rw [hinsert] at hio
                exact Or.inr ⟨(), u, Or.inl ⟨trivial, rfl⟩, io, hio⟩

/-- The statements of a batch, by themselves, are `insert_readings`. -/
theorem alone_insertReadings {readings : List SensorReading} {res : Except StoreError Nat} :
    Alone Serves (SqliteStore.insertReadings readings).run db db' res ↔
      ∃ io, Tempcheck.insertReadings io db readings = (db', res) := by
  rw [SqliteStore.insertReadings, reads_lock.bind, alone_insertLoop]
  constructor
  · rintro (⟨rfl, e, rfl⟩ | ⟨io, hio⟩)
    · exact ⟨⟨some e, fun _ => none⟩, rfl⟩
    · exact ⟨⟨none, io.stmt⟩, hio ▸ insertLoop_congr fun _ _ => rfl⟩
  · rintro ⟨⟨lock, stmt⟩, hio⟩
    cases lock with
    | some e =>
        cases hio
        exact Or.inl ⟨rfl, e, rfl⟩
    | none => exact Or.inr ⟨⟨none, stmt⟩, hio⟩

/-! ## Handlers -/

/-- The file, one call at a time. -/
abbrev ServesCalls : Object Db Call Call.Answer := atomic Call.statements Serves

theorem servesCalls_collect {r : Except CollectorError (List SensorReading)} :
    ServesCalls db ⟨.collect, r⟩ db' ↔ db' = db := by
  refine alone_query.trans ⟨?_, ?_⟩
  · rintro ⟨⟩
    rfl
  · rintro rfl
    exact .collected

theorem servesCalls_now {now : DateTime} : ServesCalls db ⟨.now, now⟩ db' ↔ db' = db := by
  refine alone_query.trans ⟨?_, ?_⟩
  · rintro ⟨⟩
    rfl
  · rintro rfl
    exact .told

theorem alone_latestSensorReadings {rowLimit : UInt64}
    {res : Except StoreError (List SensorReading)} :
    Alone ServesCalls (latestSensorReadings rowLimit) db db' res ↔
      db' = db ∧ ∃ io, Tempcheck.latestSensorReadings io db rowLimit = res := by
  have hmodel : ∀ io, Tempcheck.latestSensorReadings io db rowLimit =
      (Tempcheck.recentReadings io db none rowLimit).map
        fun recent => sortByName (latestLoop recent [] []) := by
    intro io
    rw [Tempcheck.latestSensorReadings]
    cases Tempcheck.recentReadings io db none rowLimit with
    | error e => rfl
    | ok recent => rfl
  refine alone_bind.trans ⟨?_, ?_⟩
  · rintro ⟨recent, u, hrecent, hret⟩
    obtain ⟨rfl, rfl⟩ := alone_pure.mp hret
    obtain ⟨rfl, io, rfl⟩ := alone_recentReadings.mp (alone_query.mp hrecent)
    exact ⟨rfl, io, hmodel io⟩
  · rintro ⟨rfl, io, rfl⟩
    exact ⟨_, db', alone_query.mpr (alone_recentReadings.mpr ⟨rfl, io, rfl⟩),
      alone_pure.mpr ⟨rfl, hmodel io⟩⟩

/-- The answer of `get_current` after a scan, as the model gives it. -/
def afterScan (io : Faults) (db : Db) (collect : Except CollectorError (List SensorReading)) :
    Except StoreError (List SensorReading) → Db × Except ApiError (List SensorReading)
  | .error e => (db, .error (mapStoreError e))
  | .ok [] =>
      match collect with
      | .error e => (db, .error (.internal e.toString))
      | .ok [] => (db, .ok [])
      | .ok (r :: readings) =>
          match insertReadings io db (r :: readings) with
          | (db, .error e) => (db, .error (mapStoreError e))
          | (db, .ok _) => (db, .ok (r :: readings))
  | .ok (r :: readings) => (db, .ok (r :: readings))

theorem getCurrent_eq (io : CurrentFaults) (db : Db)
    (collect : Except CollectorError (List SensorReading)) :
    Tempcheck.getCurrent io db collect =
      afterScan io.insert db collect (Tempcheck.latestSensorReadings io.recent db 512) := by
  unfold Tempcheck.getCurrent
  cases Tempcheck.latestSensorReadings io.recent db 512 with
  | error e => rfl
  | ok readings =>
      cases readings with
      | cons r readings => rfl
      | nil =>
          cases collect with
          | error e => rfl
          | ok readings => cases readings <;> rfl

theorem alone_fallback {res : Except ApiError (List SensorReading)} :
    Alone ServesCalls currentFallback db db' res ↔
      ∃ io collect, afterScan io db collect (.ok []) = (db', res) := by
  refine alone_bind.trans ⟨?_, ?_⟩
  · rintro ⟨collect, u, hcollect, hrest⟩
    obtain rfl := servesCalls_collect.mp (alone_query.mp hcollect)
    cases collect with
    | error e =>
        obtain ⟨rfl, rfl⟩ := alone_pure.mp hrest
        exact ⟨Faults.none, .error e, rfl⟩
    | ok readings =>
        cases readings with
        | nil =>
            obtain ⟨rfl, rfl⟩ := alone_pure.mp hrest
            exact ⟨Faults.none, .ok [], rfl⟩
        | cons r readings =>
            obtain ⟨n, u', hinsert, hret⟩ := alone_bind.mp hrest
            obtain ⟨io, hio⟩ := alone_insertReadings.mp (alone_query.mp hinsert)
            refine ⟨io, .ok (r :: readings), ?_⟩
            simp only [afterScan, hio]
            cases n with
            | error e =>
                obtain ⟨rfl, rfl⟩ := alone_pure.mp hret
                rfl
            | ok n =>
                obtain ⟨rfl, rfl⟩ := alone_pure.mp hret
                rfl
  · rintro ⟨io, collect, h⟩
    refine ⟨collect, db, alone_query.mpr (servesCalls_collect.mpr rfl), ?_⟩
    cases collect with
    | error e =>
        cases h
        exact alone_pure.mpr ⟨rfl, rfl⟩
    | ok readings =>
        cases readings with
        | nil =>
            cases h
            exact alone_pure.mpr ⟨rfl, rfl⟩
        | cons r readings =>
            cases hinsert : insertReadings io db (r :: readings) with
            | mk u n =>
                refine alone_bind.mpr ⟨n, u, alone_query.mpr
                  (alone_insertReadings.mpr ⟨io, hinsert⟩), ?_⟩
                simp only [afterScan, hinsert] at h
                cases n with
                | error e =>
                    cases h
                    exact alone_pure.mpr ⟨rfl, rfl⟩
                | ok n =>
                    cases h
                    exact alone_pure.mpr ⟨rfl, rfl⟩

/-- `get_current` by itself is that of the model. -/
theorem alone_getCurrent {res : Except ApiError (List SensorReading)} :
    Alone Serves (Shared.refine Call.statements getCurrent) db db' res ↔
      ∃ io collect, Tempcheck.getCurrent io db collect = (db', res) := by
  rw [alone_refine, getCurrent]
  simp only [getCurrent_eq]
  refine alone_bind.trans ⟨?_, ?_⟩
  · rintro ⟨scanned, u, hscan, hrest⟩
    obtain ⟨rfl, io, rfl⟩ := alone_latestSensorReadings.mp hscan
    cases hlatest : Tempcheck.latestSensorReadings io u 512 with
    | error e =>
        rw [hlatest] at hrest
        obtain ⟨rfl, rfl⟩ := alone_pure.mp hrest
        exact ⟨⟨io, Faults.none⟩, .ok [], by rw [hlatest]; rfl⟩
    | ok readings =>
        rw [hlatest] at hrest
        cases readings with
        | cons r readings =>
            obtain ⟨rfl, rfl⟩ := alone_pure.mp hrest
            exact ⟨⟨io, Faults.none⟩, .ok [], by rw [hlatest]; rfl⟩
        | nil =>
            obtain ⟨io', collect, h⟩ := alone_fallback.mp hrest
            exact ⟨⟨io, io'⟩, collect, by rw [hlatest]; exact h⟩
  · rintro ⟨io, collect, h⟩
    refine ⟨_, db, alone_latestSensorReadings.mpr ⟨rfl, io.recent, rfl⟩, ?_⟩
    cases hlatest : Tempcheck.latestSensorReadings io.recent db 512 with
    | error e =>
        rw [hlatest] at h
        cases h
        exact alone_pure.mpr ⟨rfl, rfl⟩
    | ok readings =>
        rw [hlatest] at h
        cases readings with
        | cons r readings =>
            cases h
            exact alone_pure.mpr ⟨rfl, rfl⟩
        | nil => exact alone_fallback.mpr ⟨io.insert, collect, h⟩

/-- `get_history` by itself is that of the model. -/
theorem alone_getHistory {q : HistoryQuery} {res : Except ApiError (List AnalysisResult)} :
    Alone Serves (Shared.refine Call.statements (getHistory q)) db db' res ↔
      db' = db ∧ ∃ io now, Tempcheck.getHistory io db now q = res := by
  rw [alone_refine, getHistory]
  by_cases hhours : 1 ≤ q.hours.getD 24 ∧ q.hours.getD 24 ≤ 24 * 30
  · have hmodel : ∀ io now, Tempcheck.getHistory io db now q =
        (Tempcheck.analyze io db q.sensor (now.subHours (q.hours.getD 24)) now).mapError
          mapStoreError := fun io now => if_neg (not_not.mpr hhours)
    simp only [hmodel, if_neg (not_not.mpr hhours)]
    refine alone_bind.trans ⟨?_, ?_⟩
    · rintro ⟨now, u, hnow, hrest⟩
      obtain rfl := servesCalls_now.mp (alone_query.mp hnow)
      obtain ⟨out, u', hanalyze, hret⟩ := alone_bind.mp hrest
      obtain ⟨rfl, rfl⟩ := alone_pure.mp hret
      obtain ⟨rfl, io, rfl⟩ := alone_analyze.mp (alone_query.mp hanalyze)
      exact ⟨rfl, io, now, rfl⟩
    · rintro ⟨rfl, io, now, rfl⟩
      refine ⟨now, db', alone_query.mpr (servesCalls_now.mpr rfl), alone_bind.mpr ?_⟩
      exact ⟨_, db', alone_query.mpr (alone_analyze.mpr ⟨rfl, io, rfl⟩),
        alone_pure.mpr ⟨rfl, rfl⟩⟩
  · have hmodel : ∀ io now, Tempcheck.getHistory io db now q =
        .error (.badRequest "hours must be between 1 and 720") := fun io now => if_pos hhours
    simp only [hmodel, if_pos hhours]
    refine alone_pure.trans (and_congr_right fun _ => ⟨?_, ?_⟩)
    · rintro rfl
      exact ⟨Faults.none, default, rfl⟩
    · rintro ⟨-, -, rfl⟩
      rfl

/-! ## Tasks -/

/-- A pass of `run_daemon` after its tick, with what is logged. -/
def pass (io : Faults) (db : Db) :
    Except CollectorError (List SensorReading) → Db × TickLog
  | .error e => (db, .notCollected e)
  | .ok [] => (db, .noSensors)
  | .ok (r :: readings) =>
      ((insertReadings io db (r :: readings)).1,
        .ofInsert (insertReadings io db (r :: readings)).2)

/-- The daemon of the model goes from its tick back to `select!` with a collection, and makes
the call that is logged, or none. -/
inductive PassesTo (d : Daemon Db) :
    Except CollectorError (List SensorReading) → Daemon Db → TickLog → Prop
  | failed {e : CollectorError} {d' : Daemon Db} :
      d.step (.collect (.error e)) = some d' → d'.phase = .selecting →
      PassesTo d (.error e) d' (.notCollected e)
  | idle {readings : List SensorReading} {d' : Daemon Db} :
      d.step (.collect (.ok readings)) = some d' → d'.phase = .selecting →
      PassesTo d (.ok readings) d' .noSensors
  | called {readings : List SensorReading} {d₁ d' : Daemon Db} {io : Faults}
      {res : Except StoreError Nat} :
      d.step (.collect (.ok readings)) = some d₁ → d₁.step (.insert io) = some d' →
      d'.calls = d.calls ++ [(readings, res)] →
      PassesTo d (.ok readings) d' (.ofInsert res)

omit [Sqlite] in
/-- A pass is what the daemon of the model does until it is back in `select!`. -/
theorem exists_passesTo_iff {d : Daemon Db} (hd : d.phase = .collecting)
    {collected : Except CollectorError (List SensorReading)} {log : TickLog} :
    (∃ d', PassesTo d collected d' log ∧ d'.store = db') ↔
      ∃ io, pass io d.store collected = (db', log) := by
  have hstep : d.step (.collect collected) =
      some (d.goOn (Daemon.afterCollect collected)) := by
    simp only [Daemon.step, hd]
  constructor
  · rintro ⟨d', hpass, rfl⟩
    cases hpass with
    | failed h _ =>
        rw [hstep] at h
        cases h
        exact ⟨Faults.none, rfl⟩
    | @idle readings _ h hphase =>
        rw [hstep] at h
        cases h
        cases readings with
        | nil => exact ⟨Faults.none, rfl⟩
        | cons r readings => cases hphase
    | @called readings _ _ io res h h' hcalls =>
        rw [hstep] at h
        cases h
        cases readings with
        | nil => cases h'
        | cons r readings =>
            cases h'
            have hres : [(r :: readings, (insertReadings io d.store (r :: readings)).2)] =
                [(r :: readings, res)] := List.append_cancel_left hcalls
            cases hres
            exact ⟨io, rfl⟩
  · rintro ⟨io, h⟩
    match collected with
    | .error e =>
        cases h
        exact ⟨_, .failed hstep rfl, rfl⟩
    | .ok [] =>
        cases h
        exact ⟨_, .idle hstep rfl, rfl⟩
    | .ok (r :: readings) =>
        cases h
        have hcalled : (d.goOn (Daemon.afterCollect (.ok (r :: readings)))).step (.insert io) =
            some _ := rfl
        exact ⟨_, .called hstep hcalled rfl, rfl⟩

theorem alone_afterCollect {collected : Except CollectorError (List SensorReading)}
    {log : TickLog} : Alone ServesCalls (afterCollect collected) db db' log ↔
      ∃ io, pass io db collected = (db', log) := by
  match collected with
  | .error e =>
      refine alone_pure.trans ⟨?_, ?_⟩
      · rintro ⟨rfl, rfl⟩
        exact ⟨Faults.none, rfl⟩
      · rintro ⟨io, h⟩
        cases h
        exact ⟨rfl, rfl⟩
  | .ok [] =>
      refine alone_pure.trans ⟨?_, ?_⟩
      · rintro ⟨rfl, rfl⟩
        exact ⟨Faults.none, rfl⟩
      · rintro ⟨io, h⟩
        cases h
        exact ⟨rfl, rfl⟩
  | .ok (r :: readings) =>
      refine alone_bind.trans ⟨?_, ?_⟩
      · rintro ⟨res, u, hinsert, hret⟩
        obtain ⟨rfl, rfl⟩ := alone_pure.mp hret
        obtain ⟨io, hio⟩ := alone_insertReadings.mp (alone_query.mp hinsert)
        exact ⟨io, by rw [pass, hio]⟩
      · rintro ⟨io, h⟩
        cases h
        exact ⟨_, _, alone_query.mpr (alone_insertReadings.mpr ⟨io, rfl⟩),
          alone_pure.mpr ⟨rfl, rfl⟩⟩

variable [Encoders] [PrettyEncoder]

/-- The statements of a tick that collects these readings are a pass of the daemon that
collects them, with the same log. -/
theorem tick_alone {d : Daemon Db} (hd : d.phase = .collecting)
    {collected : Except CollectorError (List SensorReading)} {log : TickLog} :
    (∃ es, Yields Task.tick.session (⟨.collect, collected⟩ :: es) (.tick log) ∧
        Run Serves d.store (⟨.collect, collected⟩ :: es) db') ↔
      ∃ d', PassesTo d collected d' log ∧ d'.store = db' := by
  rw [exists_passesTo_iff hd, ← alone_afterCollect]
  refine Iff.trans exists_alone_ask ⟨?_, ?_⟩
  · rintro ⟨u, hserves, h⟩
    cases hserves
    obtain ⟨log', hlog, heq⟩ := alone_map.mp ((alone_refine _).mp h)
    cases heq
    exact hlog
  · intro h
    exact ⟨d.store, .collected, (alone_refine _).mpr (alone_map.mpr ⟨log, h, rfl⟩)⟩

theorem alone_session_current {res : Except ApiError (List SensorReading)} :
    Alone Serves Task.current.session db db' (.current res) ↔
      Alone Serves (Shared.refine Call.statements getCurrent) db db' res := by
  rw [Task.session, alone_refine, alone_refine, alone_map]
  constructor
  · rintro ⟨res', h, heq⟩
    cases heq
    exact h
  · exact fun h => ⟨res, h, rfl⟩

/-- A request for current readings by itself is that of the model. -/
theorem current_alone {res : Except ApiError (List SensorReading)} :
    Alone Serves Task.current.session db db' (.current res) ↔
      ∃ io collect, Tempcheck.getCurrent io db collect = (db', res) :=
  alone_session_current.trans alone_getCurrent

/-- A request for the history by itself is that of the model. -/
theorem history_alone {q : HistoryQuery} {res : Except ApiError (List AnalysisResult)} :
    Alone Serves (Task.history q).session db db' (.history res) ↔
      db' = db ∧ ∃ io now, Tempcheck.getHistory io db now q = res := by
  rw [← alone_getHistory, Task.session, alone_refine, alone_refine, alone_map]
  constructor
  · rintro ⟨res', h, heq⟩
    cases heq
    exact h
  · exact fun h => ⟨res, h, rfl⟩

end

/-- A daemon that has just got its first tick. -/
def tickedDaemon : Daemon Db :=
  { Daemon.start (.every 1 0 Nat.one_pos) Db.empty with phase := .collecting }

/-- It stores the reading of one sensor. -/
theorem tick_alone_ticked : ∃ es db',
    Yields Task.tick.session (⟨.collect, .ok [⟨"cpu", .exact 40, default⟩]⟩ :: es)
      (.tick (.stored 1)) ∧
    Run Serves Db.empty (⟨.collect, .ok [⟨"cpu", .exact 40, default⟩]⟩ :: es) db' ∧
    db'.stored = [⟨"cpu", .exact 40, default⟩] := by
  obtain ⟨db', hdb'⟩ := insertReadings_isOk_iff.mpr
    (show Db.empty.Fits [⟨"cpu", .exact 40, default⟩] from ⟨by decide, by decide⟩)
  have hpass : pass Faults.none Db.empty (.ok [⟨"cpu", .exact 40, default⟩]) =
      (db', .stored 1) := by
    rw [pass, hdb']
    rfl
  obtain ⟨es, hyields, hrun⟩ := (tick_alone (d := tickedDaemon) rfl).mpr
    ((exists_passesTo_iff rfl).mpr ⟨Faults.none, hpass⟩)
  exact ⟨es, db', hyields, hrun, (insertReadings_ok hdb').2.stored (by decide)⟩

end Deployment

end Tempcheck
