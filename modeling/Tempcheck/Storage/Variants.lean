import Tempcheck.Storage.Analyze

/-!
# The two forms of an analysis

`analyze` has its statements twice, for one sensor and for all of them.  Where the analysis
of all sensors is answered, that of one sensor is answered too, with the results of that
sensor (`analyze_sensor_of_all`).  Both take a latest row, but the statements do not promise
the same choice, so its temperature may be another one if several rows are latest.
-/

namespace Tempcheck

open Relational (GroupBy group)

section

variable [Sqlite] (db : Db) (sensor lo hi : String)

omit [Sqlite] in
theorem windowRows_sensor :
    windowRows db (some sensor) lo hi = group Row.sensorName (windowRows db none lo hi) sensor :=
  filter_windowRows db (show passes none sensor = true from rfl)

/-- The result rows of one sensor are those of all sensors that are its, up to the choice of
the latest row. -/
theorem analyzeSql_sensor : analyzeSql db (some sensor) lo hi =
    ((analyzeSql db none lo hi).filter fun row => row.sensorName = sensor).map fun row =>
      { row with latestC := latestSql .sensor db sensor lo hi } := by
  rw [analyzeSql, analyzeSql, windowRows_sensor, List.filter_map, List.map_map,
    GroupBy.keys_group _ (Sqlite.groups .all)]
  refine List.map_congr_left fun name hname => ?_
  obtain rfl : name = sensor := of_decide_eq_true (List.mem_filter.mp hname).2
  rw [Relational.group_group]
  rfl

end

section

variable [Chrono]

omit [Chrono] in
theorem getColumn_eq_ok {α : Type} {index name : String} {x : Option α} {v : α} :
    getColumn index name x = .ok v ↔ x = some v := by
  cases x with
  | none => simp [getColumn]
  | some a => simp [getColumn]

/-- The latest temperature of a row that is mapped, which has no part in the rest. -/
theorem mapRow_latest {row : AggRow} {res : AnalysisResult} (h : mapRow row = .ok res) :
    res.sensorName = row.sensorName ∧
      ∃ latest, row.latestC = some latest ∧ res.latestC = .exact latest ∧
        ∀ v, mapRow { row with latestC := some v } = .ok { res with latestC := .exact v } := by
  obtain ⟨fromTs, hfromTs, h⟩ := Fallible.bind_eq_ok.mp h
  obtain ⟨toTs, htoTs, h⟩ := Fallible.bind_eq_ok.mp h
  obtain ⟨minC, hminC, h⟩ := Fallible.bind_eq_ok.mp h
  obtain ⟨maxC, hmaxC, h⟩ := Fallible.bind_eq_ok.mp h
  obtain ⟨avgC, havgC, h⟩ := Fallible.bind_eq_ok.mp h
  obtain ⟨latest, hlatest, h⟩ := Fallible.bind_eq_ok.mp h
  obtain ⟨fromAt, hfromAt, h⟩ := Fallible.bind_eq_ok.mp h
  obtain ⟨toAt, htoAt, h⟩ := Fallible.bind_eq_ok.mp h
  cases h
  refine ⟨rfl, latest, getColumn_eq_ok.mp hlatest, rfl, fun v => ?_⟩
  exact Fallible.bind_eq_ok.mpr ⟨fromTs, hfromTs, Fallible.bind_eq_ok.mpr ⟨toTs, htoTs,
    Fallible.bind_eq_ok.mpr ⟨minC, hminC, Fallible.bind_eq_ok.mpr ⟨maxC, hmaxC,
      Fallible.bind_eq_ok.mpr ⟨avgC, havgC, Fallible.bind_eq_ok.mpr ⟨v, rfl,
        Fallible.bind_eq_ok.mpr ⟨fromAt, hfromAt, Fallible.bind_eq_ok.mpr ⟨toAt, htoAt,
          rfl⟩⟩⟩⟩⟩⟩⟩⟩

variable [Sqlite]

/-- An analysis that is answered. -/
theorem analyze_eq_ok {io : Faults} {db : Db} {sensor : Option String} {fromAt toAt : DateTime}
    {out : List AnalysisResult} : analyze io db sensor fromAt toAt = .ok out ↔
      fromAt < toAt ∧ checkFault io.lock = .ok () ∧ checkFault (io.stmt 0) = .ok () ∧
      (windowRows db sensor (toRfc3339 fromAt) (toRfc3339 toAt)).length ≤ maxAnalysisRows ∧
      checkFault (io.stmt 1) = .ok () ∧ checkFault (io.stmt 2) = .ok () ∧
      collectRows mapRow (analyzeSql db sensor (toRfc3339 fromAt) (toRfc3339 toAt)) = .ok out := by
  rw [analyze, analyzeCount_eq, analyzeSelect_eq]
  constructor
  · intro h
    by_cases hrange : fromAt ≥ toAt
    · rw [if_pos hrange] at h
      cases h
    · rw [if_neg hrange] at h
      obtain ⟨_, hlock, h⟩ := Fallible.bind_eq_ok.mp h
      obtain ⟨_, hcheck, h⟩ := Fallible.bind_eq_ok.mp h
      obtain ⟨_, hcount, hfew⟩ := Fallible.bind_eq_ok.mp hcheck
      obtain ⟨_, hprepare, h⟩ := Fallible.bind_eq_ok.mp h
      obtain ⟨_, hselect, hrows⟩ := Fallible.bind_eq_ok.mp h
      split at hfew
      · cases hfew
      next hmany =>
        exact ⟨not_le.mp hrange, hlock, hcount, not_lt.mp hmany, hprepare, hselect, hrows⟩
  · rintro ⟨hlt, h₁, h₂, h₃, h₄, h₅, h₆⟩
    rw [if_neg (not_le.mpr hlt), h₁, h₂, if_neg (not_lt.mpr h₃), h₄, h₅]
    exact h₆

/-- The rows of one sensor are mapped to its results. -/
theorem forall₂_sensor {db : Db} {lo hi : String} {all : List AnalysisResult}
    (h : collectRows mapRow (analyzeSql db none lo hi) = .ok all) (sensor : String) :
    List.Forall₂ (fun row res => mapRow row = .ok res)
      ((analyzeSql db none lo hi).filter fun row => row.sensorName = sensor)
      (all.filter fun res => res.sensorName = sensor) := by
  have hall := Fallible.mapM_eq_ok.mp (Fallible.mapError_eq_ok.mp h)
  refine List.rel_filter (fun row res hrow => ?_) hall
  simp only [decide_eq_true_iff, (mapRow_latest hrow).1]

omit [Chrono] in
/-- A sensor without rows in the window has no result row. -/
theorem filter_analyzeSql_eq_nil {db : Db} {lo hi sensor : String}
    (h : sensor ∉ (windowRows db none lo hi).map Row.sensorName) :
    ((analyzeSql db none lo hi).filter fun row => row.sensorName = sensor) = [] := by
  refine List.filter_eq_nil_iff.mpr fun row hrow hname => h ?_
  obtain ⟨name, hname', rfl⟩ := List.mem_map.mp hrow
  obtain rfl : name = sensor := of_decide_eq_true hname
  exact ((Sqlite.groups .all).mem _ _).mp hname'

omit [Chrono] in
/-- If a sensor has no two rows of one instant in the window, the two forms choose the same
latest row. -/
theorem latestSql_eq {db : Db} {lo hi sensor : String}
    (hmem : sensor ∈ (windowRows db none lo hi).map Row.sensorName)
    (hnodup : ((windowRows db (some sensor) lo hi).map Row.recordedAt).Nodup) :
    latestSql .sensor db sensor lo hi = latestSql .all db sensor lo hi := by
  obtain ⟨r, hr, hlatest, hlast⟩ := latestSql_last .sensor db hmem
  obtain ⟨r', hr', hlatest', hlast'⟩ := latestSql_last .all db hmem
  rw [windowRows_sensor] at hnodup
  have heq := List.inj_on_of_nodup_map hnodup hr hr' ((hlast' r hr).antisymm (hlast r' hr'))
  rw [hlatest, hlatest', heq]

/-- The results are the same, but the second one has the temperature of any of the latest
rows. -/
def SameUpToLatest (rows : List Row) (res res' : AnalysisResult) : Prop :=
  ∃ r ∈ rows, (∀ r' ∈ rows, r'.recordedAt ≤ r.recordedAt) ∧
    res' = { res with latestC := .exact r.temperatureC }

/-- Where the analysis of all sensors is answered, that of one sensor is answered with its
results, up to the choice of a latest row of it in the window.  If these rows have different
instants there is no choice. -/
theorem analyze_sensor_of_all {io : Faults} {db : Db} {fromAt toAt : DateTime}
    {all : List AnalysisResult} (h : analyze io db none fromAt toAt = .ok all) (sensor : String) :
    (∃ out, analyze io db (some sensor) fromAt toAt = .ok out ∧
      List.Forall₂
        (SameUpToLatest (windowRows db (some sensor) (toRfc3339 fromAt) (toRfc3339 toAt)))
        (all.filter fun res => res.sensorName = sensor) out) ∧
    (((windowRows db (some sensor) (toRfc3339 fromAt) (toRfc3339 toAt)).map
        Row.recordedAt).Nodup →
      analyze io db (some sensor) fromAt toAt =
        .ok (all.filter fun res => res.sensorName = sensor)) := by
  obtain ⟨hlt, hlock, hcount, hfew, hprepare, hselect, hrows⟩ := analyze_eq_ok.mp h
  generalize hlo : toRfc3339 fromAt = lo at *
  generalize hhi : toRfc3339 toAt = hi at *
  have hanswer : ∀ {out}, (analyzeSql db (some sensor) lo hi).mapM mapRow = .ok out →
      analyze io db (some sensor) fromAt toAt = .ok out := by
    intro out hout
    refine analyze_eq_ok.mpr ⟨hlt, hlock, hcount, ?_, hprepare, hselect, ?_⟩
    · rw [hlo, hhi, windowRows_sensor]
      exact (List.length_filter_le ..).trans hfew
    · rw [hlo, hhi]
      exact Fallible.mapError_eq_ok.mpr hout
  have hsensor := forall₂_sensor hrows sensor
  by_cases hmem : sensor ∈ (windowRows db none lo hi).map Row.sensorName
  · obtain ⟨r, hr, hlatest, hlast⟩ := latestSql_last .sensor db hmem
    rw [← windowRows_sensor] at hr hlast
    refine ⟨⟨(all.filter fun res => res.sensorName = sensor).map fun res =>
        { res with latestC := .exact r.temperatureC }, hanswer ?_,
      List.forall₂_map_right_iff.mpr (List.forall₂_same.mpr fun res _ => ⟨r, hr, hlast, rfl⟩)⟩,
      fun hnodup => hanswer ?_⟩
    · rw [analyzeSql_sensor, hlatest]
      refine Fallible.mapM_eq_ok.mpr (List.forall₂_map_left_iff.mpr
        (List.forall₂_map_right_iff.mpr (hsensor.imp fun row res hrow => ?_)))
      obtain ⟨-, latest, -, -, hreplace⟩ := mapRow_latest hrow
      exact hreplace r.temperatureC
    · have hsame : analyzeSql db (some sensor) lo hi =
          (analyzeSql db none lo hi).filter fun row => row.sensorName = sensor := by
        rw [analyzeSql_sensor]
        refine (List.map_congr_left fun row hrow => ?_).trans (List.map_id _)
        obtain ⟨name, -, rfl⟩ := List.mem_map.mp (List.mem_of_mem_filter hrow)
        obtain rfl : name = sensor := of_decide_eq_true (List.mem_filter.mp hrow).2
        rw [latestSql_eq hmem (hnodup)]
        rfl
      rw [hsame]
      exact Fallible.mapM_eq_ok.mpr hsensor
  · rw [filter_analyzeSql_eq_nil hmem] at hsensor
    have hnil : analyzeSql db (some sensor) lo hi = [] := by
      rw [analyzeSql_sensor, filter_analyzeSql_eq_nil hmem, List.map_nil]
    rw [List.forall₂_nil_left_iff.mp hsensor]
    have hout : analyze io db (some sensor) fromAt toAt = .ok [] := hanswer (by rw [hnil]; rfl)
    exact ⟨⟨[], hout, .nil⟩, fun _ => hout⟩

end

/-- A table with two newest readings of one sensor, and another sensor. -/
theorem analyze_sensor_of_all_tie :
    let later : DateTime := ⟨0, 0, 500000000, by decide, by decide, by decide⟩
    let rs : List SensorReading :=
      [⟨"cpu", .exact 40, default⟩, ⟨"cpu", .exact 50, default⟩, ⟨"gpu", .exact 60, later⟩]
    let db := (runInserts [⟨Faults.none, rs⟩] Db.empty).1
    ∃ all out, analyze Faults.none db none default later = .ok all ∧ Analyses all rs ∧
      analyze Faults.none db (some "cpu") default later = .ok out ∧
      List.Forall₂
        (SameUpToLatest (windowRows db (some "cpu") (toRfc3339 default) (toRfc3339 later)))
        (all.filter fun res => res.sensorName = "cpu") out := by
  intro later rs db
  have hok : ∀ res ∈ (runInserts [⟨Faults.none, rs⟩] Db.empty).2, ∃ n, res = .ok n := by
    intro res hres
    have hrun : (runInserts [⟨Faults.none, rs⟩] Db.empty).2 = [.ok 3] := rfl
    rw [hrun] at hres
    exact ⟨3, List.mem_singleton.mp hres⟩
  have hto : later.FourDigitYear := by decide
  obtain ⟨hstored, hdb⟩ := runInserts_stored hok (by decide)
  have hwindow : inWindow db.stored none default later = rs := by rw [hstored]; decide
  have hresult := analyze_stored hdb none default hto
  rw [hwindow] at hresult
  rcases hresult with ⟨hle, -⟩ | ⟨-, hmany, -⟩ | ⟨-, -, all, hanswer, hspec⟩
  · exact absurd hle (by decide)
  · exact absurd hmany (by decide)
  · obtain ⟨out, hout, hsame⟩ := (analyze_sensor_of_all hanswer "cpu").1
    exact ⟨all, out, hanswer, hspec, hout, hsame⟩

end Tempcheck
