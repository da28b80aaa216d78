import Tempcheck.Web.Latest

/-!
# Current readings without a daemon

In web-only mode the only writer is `get_current` itself.  On an empty store it falls back
to the collector and inserts what it collected.  From then on the store is not empty, so
the fallback is never taken again, and every later answer consists of readings of the first
request (`latestSensorReadings_mem`).

`currentRun_live_iff` says for runs of any length what follows: each request is answered
with the readings collected at that request exactly if there is one request, and its
readings can be inserted.
-/

namespace Tempcheck

section

variable [Chrono] [Sqlite]

/-! ## Runs of requests -/

/-- Successive requests with what the collector returns at each, and the answers. -/
def runCurrent : List (List SensorReading) → Db → Db × List (Except ApiError (List SensorReading))
  | [], db => (db, [])
  | readings :: rounds, db =>
      let first := getCurrent ⟨Faults.none, Faults.none⟩ db (.ok readings)
      let rest := runCurrent rounds first.1
      (rest.1, first.2 :: rest.2)

/-! ## The first request -/

theorem latestSensorReadings_empty (rowLimit : UInt64) :
    latestSensorReadings Faults.none Db.empty rowLimit = .ok [] := by
  obtain ⟨out, hout, hlatest⟩ := latestSensorReadings_spec Db.empty_wellTimed rowLimit
  have hnil : out = [] := List.eq_nil_iff_forall_not_mem.mpr fun _ hx => nomatch hlatest.mem hx
  rw [hout, hnil]

/-- The fallback inserts what it returns. -/
theorem getCurrent_empty {readings : List SensorReading} (hne : readings ≠ []) :
    getCurrent ⟨Faults.none, Faults.none⟩ Db.empty (.ok readings) =
      match insertReadings Faults.none Db.empty readings with
      | (db, .error e) => (db, .error (mapStoreError e))
      | (db, .ok _) => (db, .ok readings) := by
  unfold getCurrent
  rw [latestSensorReadings_empty]
  cases readings with
  | nil => exact absurd rfl hne
  | cons r rest => rfl

theorem getCurrent_empty_fits {readings : List SensorReading} (hne : readings ≠ [])
    (hfits : Db.empty.Fits readings) :
    ∃ db, getCurrent ⟨Faults.none, Faults.none⟩ Db.empty (.ok readings) = (db, .ok readings) ∧
      Appends Db.empty db readings := by
  obtain ⟨db, hdb⟩ := insertReadings_isOk_iff.mpr hfits
  refine ⟨db, ?_, (insertReadings_ok hdb).2⟩
  rw [getCurrent_empty hne, hdb]

theorem getCurrent_empty_not_fits {readings : List SensorReading} (hne : readings ≠ [])
    (hfits : ¬ Db.empty.Fits readings) :
    (getCurrent ⟨Faults.none, Faults.none⟩ Db.empty (.ok readings)).2 ≠ .ok readings := by
  rw [getCurrent_empty hne]
  cases hres : insertReadings Faults.none Db.empty readings with
  | mk db res =>
      cases res with
      | error e => exact (nomatch ·)
      | ok n => exact absurd ((insertLoop_isOk_iff 0).mp ⟨db, n, hres⟩) hfits

/-! ## Later requests -/

omit [Sqlite] in
/-- A row that holds a reading is mapped back to it, or to nothing. -/
theorem Row.Holds.eq_of_mapRowReading {row : Row} {r x : SensorReading} (h : row.Holds r)
    (hx : mapRowReading row = .ok x) : x = r := by
  rw [mapRowReading, h.recordedAt] at hx
  by_cases hy : r.recordedAt.FourDigitYear
  · rw [parse_toRfc3339 hy] at hx
    cases hx
    obtain ⟨name, temp, recordedAt⟩ := r
    obtain ⟨rfl, rfl, -⟩ := h
    rfl
  · obtain ⟨e, he⟩ := parse_toRfc3339_error hy
    rw [he] at hx
    cases hx

/-- On a store that holds some readings, the scan returns some of these and no others. -/
theorem latestSensorReadings_mem {db : Db} {stored out : List SensorReading}
    (happ : Appends Db.empty db stored) (hne : stored ≠ []) {rowLimit : UInt64}
    (hlimit : 0 < rowLimit.toNat)
    (hout : latestSensorReadings Faults.none db rowLimit = .ok out) :
    out ≠ [] ∧ ∀ x ∈ out, x ∈ stored := by
  obtain ⟨-, new, hrows, hholds⟩ := happ
  obtain ⟨recent, hrecent, h⟩ := Fallible.bind_eq_ok.mp hout
  cases h
  rw [recentReadings_eq] at hrecent
  have hall := Fallible.mapM_eq_ok.mp (Fallible.mapError_eq_ok.mp hrecent)
  have htop := recentSql_isTop db none rowLimit
  have hmem : ∀ x ∈ recent, x ∈ stored := by
    intro x hx
    obtain ⟨row, hrow, hmap⟩ := Fallible.exists_mem_of_forall₂ hall hx
    have hnew : row ∈ new := by
      have := List.mem_of_mem_filter (htop.mem_of_mem hrow)
      rwa [hrows] at this
    obtain ⟨r, hr, hrow⟩ := Fallible.exists_mem_of_forall₂ hholds.flip hnew
    rwa [hrow.eq_of_mapRowReading hmap]
  have hrecentNe : recent ≠ [] := by
    have hrowsNe : (db.rows.filter fun r => passes none r.sensorName) ≠ [] := by
      rw [filter_passes_none, hrows, ← List.length_pos_iff]
      have := List.length_pos_iff.mpr hne
      rw [← hholds.length_eq] at this
      exact this
    rw [← List.length_pos_iff, ← hall.length_eq, List.length_pos_iff]
    exact htop.ne_nil hlimit hrowsNe
  exact ⟨scan_ne_nil hrecentNe, fun x hx => hmem x (scan_subset recent hx)⟩

/-- On such a store no later collection is answered with. -/
theorem getCurrent_stored_ne {db : Db} {stored readings : List SensorReading}
    (happ : Appends Db.empty db stored) (hne : stored ≠ [])
    (hlater : ∀ x ∈ stored, ∀ y ∈ readings, x.recordedAt < y.recordedAt) :
    (getCurrent ⟨Faults.none, Faults.none⟩ db (.ok readings)).2 ≠ .ok readings := by
  intro hanswer
  cases hout : latestSensorReadings Faults.none db 512 with
  | error e =>
      unfold getCurrent at hanswer
      rw [hout] at hanswer
      cases hanswer
  | ok out =>
      obtain ⟨houtNe, hmem⟩ := latestSensorReadings_mem happ hne (by decide) hout
      rw [getCurrent_stored hout houtNe] at hanswer
      obtain ⟨x, hx⟩ := List.exists_mem_of_ne_nil out houtNe
      have hxr : x ∈ readings := Except.ok.inj hanswer ▸ hx
      exact lt_irrefl _ (hlater x (hmem x hx) x hxr)

/-! ## All requests -/

/-- The first two requests are not both answered live. -/
theorem runCurrent_second_ne {readings second : List SensorReading}
    (rounds : List (List SensorReading)) (hne : readings ≠ [])
    (hlater : ∀ x ∈ readings, ∀ y ∈ second, x.recordedAt < y.recordedAt) :
    (runCurrent (readings :: second :: rounds) Db.empty).2 ≠
      (readings :: second :: rounds).map .ok := by
  intro h
  obtain ⟨hfirst, hrest⟩ := List.cons_eq_cons.mp h
  have hfits : Db.empty.Fits readings :=
    not_not.mp fun hfits => getCurrent_empty_not_fits hne hfits hfirst
  obtain ⟨db, hdb, happ⟩ := getCurrent_empty_fits hne hfits
  have hsecond := (List.cons_eq_cons.mp hrest).1
  rw [hdb] at hsecond
  exact getCurrent_stored_ne happ hne hlater hsecond

/-- Every request is answered with the readings collected at it exactly if there is one
request, and its readings can be inserted. -/
theorem currentRun_live_iff {rounds : List (List SensorReading)} (hne : rounds ≠ [])
    (hcollected : ∀ readings ∈ rounds, readings ≠ [])
    (hlater : rounds.Pairwise fun earlier later =>
      ∀ x ∈ earlier, ∀ y ∈ later, x.recordedAt < y.recordedAt) :
    (runCurrent rounds Db.empty).2 = rounds.map .ok ↔
      ∃ readings, rounds = [readings] ∧ Db.empty.Fits readings := by
  cases rounds with
  | nil => exact absurd rfl hne
  | cons readings rounds =>
      have hreadings := hcollected readings (List.mem_cons_self ..)
      constructor
      · intro h
        cases rounds with
        | nil =>
            have hfirst := (List.cons_eq_cons.mp h).1
            exact ⟨readings, rfl,
              not_not.mp fun hfits => getCurrent_empty_not_fits hreadings hfits hfirst⟩
        | cons second rounds =>
            have hfresh := (List.pairwise_cons.mp hlater).1 second (List.mem_cons_self ..)
            exact absurd h (runCurrent_second_ne rounds hreadings hfresh)
      · rintro ⟨_, heq, hfits⟩
        cases heq
        obtain ⟨db, hdb, -⟩ := getCurrent_empty_fits hreadings hfits
        rw [runCurrent, hdb]
        rfl

end

/-- One sensor that warms up between two requests. -/
def warmingUp : List (List SensorReading) :=
  [[⟨"cpu", .exact 40, tick 0⟩], [⟨"cpu", .exact 41, tick 1⟩]]

/-- The second request is answered with the first reading. -/
theorem currentRun_stale :
    ¬ ∀ rounds : List (List SensorReading), rounds ≠ [] → (∀ readings ∈ rounds,
        readings ≠ [] ∧ (readings.map SensorReading.sensorName).Nodup ∧
          readings.Pairwise fun a b => a.sensorName ≤ b.sensorName) →
      (rounds.Pairwise fun earlier later =>
        ∀ x ∈ earlier, ∀ y ∈ later, x.recordedAt < y.recordedAt) →
      (runCurrent rounds Db.empty).2 = rounds.map .ok := by
  intro hall
  have hanswers := hall warmingUp (List.cons_ne_nil _ _) (by decide) (by decide)
  exact runCurrent_second_ne [] (List.cons_ne_nil _ _) (by decide) hanswers

/-- A single request is answered live. -/
theorem currentRun_live_once :
    (runCurrent [[⟨"cpu", .exact 40, tick 0⟩]] Db.empty).2 =
      [.ok [⟨"cpu", .exact 40, tick 0⟩]] :=
  (currentRun_live_iff (List.cons_ne_nil _ _) (by decide) (List.pairwise_singleton ..)).mpr
    ⟨_, rfl, by decide, by decide⟩

end Tempcheck
