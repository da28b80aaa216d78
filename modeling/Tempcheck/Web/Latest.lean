import Tempcheck.Collector.Names
import Tempcheck.Storage.Analyze
import Tempcheck.Web.Model

/-!
# The latest readings

`latest_sensor_readings` scans a limited number of the newest readings and keeps the first
of each sensor.  What it keeps of a sensor is the newest of all its stored readings
(`LatestOf.newest`), since the readings scanned are the top of the store.  Whether it keeps
any depends on how many readings of other sensors are newer (`LatestOf.mem_of_count_le`,
`LatestOf.not_mem_of_le_count`).

The history page computes the latest reading of each sensor of a window in SQL.
`history_current` compares the two for a window that ends after every reading: where the
scan reaches a sensor, it keeps what the history shows.
-/

namespace Tempcheck

open Relational (IsTop distinctOn)

/-! ## The scan -/

theorem latestLoop_eq : ∀ (recent : List SensorReading) (seen : List String)
    (latest : List SensorReading), latestLoop recent seen latest =
      latest ++ distinctOn SensorReading.sensorName seen recent
  | [], _, latest => (List.append_nil latest).symm
  | r :: recent, seen, latest => by
      rw [latestLoop, distinctOn]
      split
      · exact latestLoop_eq recent seen latest
      · rw [latestLoop_eq recent, List.append_assoc, List.singleton_append]

theorem scan_perm (recent : List SensorReading) :
    (sortByName (latestLoop recent [] [])).Perm
      (distinctOn SensorReading.sensorName [] recent) := by
  rw [latestLoop_eq, List.nil_append]
  exact sortByName_perm _

theorem scan_subset (recent : List SensorReading) :
    sortByName (latestLoop recent [] []) ⊆ recent := fun _ hx =>
  (Relational.distinctOn_sublist _ _ _).subset ((scan_perm recent).mem_iff.mp hx)

/-- A sensor is kept exactly if it was scanned. -/
theorem scan_names (recent : List SensorReading) (name : String) :
    name ∈ (sortByName (latestLoop recent [] [])).map SensorReading.sensorName ↔
      name ∈ recent.map SensorReading.sensorName := by
  constructor
  · intro h
    obtain ⟨x, hx, rfl⟩ := List.mem_map.mp h
    exact List.mem_map_of_mem (scan_subset recent hx)
  · intro h
    obtain ⟨y, hy, rfl⟩ := List.mem_map.mp h
    obtain ⟨x, hx, hname⟩ := Relational.exists_mem_distinctOn SensorReading.sensorName [] recent
      y hy List.not_mem_nil
    rw [← hname]
    exact List.mem_map_of_mem ((scan_perm recent).mem_iff.mpr hx)

theorem scan_ne_nil {recent : List SensorReading} (h : recent ≠ []) :
    sortByName (latestLoop recent [] []) ≠ [] := by
  obtain ⟨r, hr⟩ := List.exists_mem_of_ne_nil recent h
  intro hnil
  have hname := (scan_names recent r.sensorName).mpr (List.mem_map_of_mem hr)
  rw [hnil] at hname
  cases hname

/-- What is kept is in strict order of the names. -/
theorem scan_sorted (recent : List SensorReading) :
    (sortByName (latestLoop recent [] [])).Pairwise fun a b => a.sensorName < b.sensorName := by
  have hnodup : ((sortByName (latestLoop recent [] [])).map SensorReading.sensorName).Nodup :=
    ((scan_perm recent).map SensorReading.sensorName).nodup_iff.mpr
      (Relational.distinctOn_nodup SensorReading.sensorName [] recent)
  refine ((sortByName_sorted _).and (List.pairwise_map.mp hnodup)).imp ?_
  rintro a b ⟨hle, hne⟩
  exact lt_of_le_of_ne hle hne

/-- `out` is the first reading of each sensor in a top choice of `k` of the readings. -/
def LatestOf (k : Nat) (all out : List SensorReading) : Prop :=
  ∃ recent, IsTop SensorReading.recordedAt k all recent ∧
    out = sortByName (latestLoop recent [] [])

section

variable {k : Nat} {all out : List SensorReading}

theorem LatestOf.mem (h : LatestOf k all out) {x : SensorReading} (hx : x ∈ out) : x ∈ all := by
  obtain ⟨recent, htop, rfl⟩ := h
  exact htop.mem_of_mem (scan_subset recent hx)

/-- A reading that is kept is the newest of all readings of its sensor. -/
theorem LatestOf.newest (h : LatestOf k all out) {x y : SensorReading} (hx : x ∈ out)
    (hy : y ∈ all) (hname : y.sensorName = x.sensorName) : y.recordedAt ≤ x.recordedAt := by
  obtain ⟨recent, htop, rfl⟩ := h
  have hxr := scan_subset recent hx
  by_contra hlt
  -- a newer reading would have been scanned, and the one kept is the newest scanned
  have hyr := htop.mem_of_lt hy hxr (not_le.mp hlt)
  exact hlt (Relational.distinctOn_greatest _ (fun _ => le_rfl) [] recent htop.sorted x
    ((scan_perm recent).mem_iff.mp hx) y hyr hname)

/-- A sensor is kept if few readings are as new as one of its readings. -/
theorem LatestOf.mem_of_count_le (h : LatestOf k all out) {y : SensorReading} (hy : y ∈ all)
    (hc : all.countP (fun z => y.recordedAt ≤ z.recordedAt) ≤ k) :
    ∃ x ∈ out, x.sensorName = y.sensorName := by
  obtain ⟨recent, htop, rfl⟩ := h
  exact List.mem_map.mp ((scan_names recent y.sensorName).mpr
    (List.mem_map_of_mem (htop.mem_of_count_le hy hc)))

/-- A sensor is left out if as many readings as are scanned are newer than all of its. -/
theorem LatestOf.not_mem_of_le_count (h : LatestOf k all out) {name : String} (t : DateTime)
    (ht : ∀ y ∈ all, y.sensorName = name → y.recordedAt ≤ t)
    (hc : k ≤ all.countP (fun z => t < z.recordedAt)) : ∀ x ∈ out, x.sensorName ≠ name := by
  intro x hx hname
  have hxall := h.mem hx
  obtain ⟨recent, htop, rfl⟩ := h
  have hxr := scan_subset recent hx
  have hcount : k ≤ all.countP (fun z => x.recordedAt < z.recordedAt) :=
    hc.trans (List.countP_mono_left fun z _ hz =>
      decide_eq_true ((ht x hxall hname).trans_lt (of_decide_eq_true hz)))
  exact htop.not_mem_of_le_count hcount x hxr rfl

theorem LatestOf.ne_nil (h : LatestOf k all out) (hk : 0 < k) (hall : all ≠ []) : out ≠ [] := by
  obtain ⟨recent, htop, rfl⟩ := h
  exact scan_ne_nil (htop.ne_nil hk hall)

end

/-! ## The latest reading of an analysis -/

/-- In a window that ends after every reading, the latest reading of the analysis is the
newest of all readings of its sensor. -/
theorem Analyses.newest {rs : List AnalysisResult} {stored : List SensorReading}
    {sensor : Option String} {fromAt now : DateTime}
    (h : Analyses rs (inWindow stored sensor fromAt now))
    (hpast : ∀ x ∈ stored, x.recordedAt ≤ now) {r : AnalysisResult} (hr : r ∈ rs) :
    ∃ y ∈ stored, y.sensorName = r.sensorName ∧ y.recordedAt = r.toAt ∧
      y.temperatureC = r.latestC ∧
      ∀ z ∈ stored, z.sensorName = r.sensorName → z.recordedAt ≤ r.toAt := by
  obtain ⟨y, hy, hyAt, hyC⟩ := (h.summary r hr).latestC
  obtain ⟨hyWindow, hyName⟩ := Relational.mem_group.mp hy
  obtain ⟨hyStored, hyPasses⟩ := List.mem_filter.mp hyWindow
  simp only [Bool.and_eq_true, decide_eq_true_eq] at hyPasses
  obtain ⟨hpasses, hfrom, -⟩ := hyPasses
  refine ⟨y, hyStored, hyName, hyAt, hyC, fun z hz hzName => ?_⟩
  rcases le_or_gt fromAt z.recordedAt with hin | hbefore
  · refine (h.summary r hr).toAt.2 (List.mem_map_of_mem (Relational.mem_group.mpr ⟨?_, hzName⟩))
    refine List.mem_filter.mpr ⟨hz, ?_⟩
    simp only [Bool.and_eq_true, decide_eq_true_eq]
    exact ⟨by rwa [hzName, ← hyName], hin, hpast z hz⟩
  · exact hbefore.le.trans (hfrom.trans hyAt.le)

/-! ## The handlers -/

section

variable [Chrono] [Sqlite]

/-- On a table of four-digit years the handler scans a top choice of the readings. -/
theorem latestSensorReadings_scan {db : Db} (hdb : db.WellTimed) (rowLimit : UInt64) :
    ∃ recent, recentReadings Faults.none db none rowLimit = .ok recent ∧
      IsTop SensorReading.recordedAt rowLimit.toNat db.stored recent ∧
      latestSensorReadings Faults.none db rowLimit =
        .ok (sortByName (latestLoop recent [] [])) := by
  obtain ⟨recent, hrecent, htop⟩ := recentReadings_isTop hdb none rowLimit
  rw [Db.matching, filter_passes_none] at htop
  refine ⟨recent, hrecent, htop, ?_⟩
  rw [latestSensorReadings, hrecent]
  rfl

theorem latestSensorReadings_spec {db : Db} (hdb : db.WellTimed) (rowLimit : UInt64) :
    ∃ out, latestSensorReadings Faults.none db rowLimit = .ok out ∧
      LatestOf rowLimit.toNat db.stored out := by
  obtain ⟨recent, -, htop, hout⟩ := latestSensorReadings_scan hdb rowLimit
  exact ⟨_, hout, recent, htop, rfl⟩

/-- The answer is in strict order of the names and has the newest stored reading of each
sensor that was scanned, which is every sensor if the limit leaves out no reading. -/
theorem latestSensorReadings_newest {db : Db} (hdb : db.WellTimed) (rowLimit : UInt64) :
    ∃ recent out, recentReadings Faults.none db none rowLimit = .ok recent ∧
      latestSensorReadings Faults.none db rowLimit = .ok out ∧
      out.Pairwise (fun a b => a.sensorName < b.sensorName) ∧
      (∀ x ∈ out, x ∈ db.stored ∧
        ∀ y ∈ db.stored, y.sensorName = x.sensorName → y.recordedAt ≤ x.recordedAt) ∧
      (∀ name, name ∈ out.map SensorReading.sensorName ↔
        name ∈ recent.map SensorReading.sensorName) ∧
      (db.stored.length ≤ rowLimit.toNat → ∀ name,
        name ∈ out.map SensorReading.sensorName ↔
          name ∈ db.stored.map SensorReading.sensorName) := by
  obtain ⟨recent, hrecent, htop, hout⟩ := latestSensorReadings_scan hdb rowLimit
  have hlatest : LatestOf rowLimit.toNat db.stored (sortByName (latestLoop recent [] [])) :=
    ⟨recent, htop, rfl⟩
  refine ⟨recent, _, hrecent, hout, scan_sorted recent, fun x hx => ?_, scan_names recent,
    fun hfew name => ?_⟩
  · exact ⟨hlatest.mem hx, fun y hy hname => hlatest.newest hx hy hname⟩
  · have hall := (htop.perm_of_length_le hfew).map SensorReading.sensorName
    rw [scan_names, hall.mem_iff]

theorem getHistory_admitted {io : Faults} {db : Db} {now : DateTime} {query : HistoryQuery}
    (h : 1 ≤ query.hours.getD 24 ∧ query.hours.getD 24 ≤ 24 * 30) :
    getHistory io db now query = (analyze io db query.sensor
      (now.subHours (query.hours.getD 24)) now).mapError mapStoreError :=
  if_neg (not_not_intro h)

/-- An admitted history is the analysis of a window that ends now, or has too many readings
there. -/
theorem getHistory_stored {db : Db} (hdb : db.WellTimed) {now : DateTime}
    (hnow : now.FourDigitYear) {query : HistoryQuery}
    (h : 1 ≤ query.hours.getD 24 ∧ query.hours.getD 24 ≤ 24 * 30) :
    let window := inWindow db.stored query.sensor (now.subHours (query.hours.getD 24)) now
    (maxAnalysisRows < window.length ∧
      getHistory Faults.none db now query = .error (mapStoreError .rowLimitExceeded)) ∨
    (window.length ≤ maxAnalysisRows ∧
      ∃ out, getHistory Faults.none db now query = .ok out ∧ Analyses out window) := by
  intro window
  have hlt : now.subHours (query.hours.getD 24) < now :=
    DateTime.subHours_lt now (Int.lt_of_lt_of_le Int.zero_lt_one h.1)
  rw [getHistory_admitted h]
  rcases analyze_stored hdb query.sensor (now.subHours (query.hours.getD 24)) hnow with
    ⟨hle, -⟩ | ⟨-, hmany, herror⟩ | ⟨-, hfew, out, hout, hspec⟩
  · exact absurd hlt (not_lt.mpr hle)
  · rw [herror]
    exact Or.inl ⟨hmany, rfl⟩
  · exact Or.inr ⟨hfew, out, Fallible.mapError_eq_ok.mpr hout, hspec⟩

/-- A history that is answered is the analysis of a window that ends now. -/
theorem getHistory_ok {db : Db} (hdb : db.WellTimed) {now : DateTime}
    (hnow : now.FourDigitYear) {query : HistoryQuery} {rs : List AnalysisResult}
    (h : getHistory Faults.none db now query = .ok rs) :
    ∃ fromAt, fromAt < now ∧ Analyses rs (inWindow db.stored query.sensor fromAt now) := by
  by_cases hhours : 1 ≤ query.hours.getD 24 ∧ query.hours.getD 24 ≤ 24 * 30
  · refine ⟨now.subHours (query.hours.getD 24),
      DateTime.subHours_lt now (Int.lt_of_lt_of_le Int.zero_lt_one hhours.1), ?_⟩
    rcases getHistory_stored hdb hnow hhours with ⟨-, herror⟩ | ⟨-, out, hout, hspec⟩
    · rw [herror] at h
      cases h
    · rw [hout] at h
      cases h
      exact hspec
  · rw [getHistory, if_pos hhours] at h
    cases h

/-- The two read paths of the page, on a store in which no sensor has two readings at one
instant and no reading is later than now. -/
theorem history_latest {db : Db} (hdb : db.WellTimed)
    (hdistinct : (db.stored.map fun r => (r.sensorName, r.recordedAt)).Nodup)
    {now : DateTime} (hnow : now.FourDigitYear) (hpast : ∀ x ∈ db.stored, x.recordedAt ≤ now)
    {query : HistoryQuery} {rs : List AnalysisResult}
    (h : getHistory Faults.none db now query = .ok rs) {k : Nat} {out : List SensorReading}
    (hout : LatestOf k db.stored out) {r : AnalysisResult} (hr : r ∈ rs) :
    (∀ x ∈ out, x.sensorName = r.sensorName →
      x.temperatureC = r.latestC ∧ x.recordedAt = r.toAt) ∧
    (db.stored.countP (fun z => r.toAt ≤ z.recordedAt) ≤ k →
      ∃ x ∈ out, x.sensorName = r.sensorName) ∧
    (k ≤ db.stored.countP (fun z => r.toAt < z.recordedAt) →
      ∀ x ∈ out, x.sensorName ≠ r.sensorName) := by
  obtain ⟨fromAt, -, hspec⟩ := getHistory_ok hdb hnow h
  obtain ⟨y, hy, hyName, hyAt, hyC, hnewest⟩ := hspec.newest hpast hr
  refine ⟨fun x hx hname => ?_, fun hcount => ?_, fun hcount => ?_⟩
  · have hxAt : x.recordedAt = y.recordedAt := by
      refine le_antisymm ?_ (hout.newest hx hy (hyName.trans hname.symm))
      rw [hyAt]
      exact hnewest x (hout.mem hx) hname
    have hxy : x = y := List.inj_on_of_nodup_map hdistinct (hout.mem hx) hy
      (Prod.ext (hname.trans hyName.symm) hxAt)
    rw [hxy]
    exact ⟨hyC, hyAt⟩
  · rw [← hyName]
    rw [← hyAt] at hcount
    exact hout.mem_of_count_le hy hcount
  · exact hout.not_mem_of_le_count r.toAt hnewest hcount

/-- A store that has readings answers without the fallback. -/
theorem getCurrent_stored {db : Db} {out : List SensorReading}
    (hout : latestSensorReadings Faults.none db 512 = .ok out) (hne : out ≠ [])
    (collect : Except CollectorError (List SensorReading)) :
    getCurrent ⟨Faults.none, Faults.none⟩ db collect = (db, .ok out) := by
  unfold getCurrent
  rw [hout]
  exact if_neg (mt List.isEmpty_iff.mp hne)

/-- Each reading that the current page keeps of a sensor of the history is the latest
reading of the history.  A sensor of the history is kept if at most 512 stored readings are
as new as its latest, and left out if at least 512 are newer. -/
theorem history_current {db : Db} (hdb : db.WellTimed)
    (hdistinct : (db.stored.map fun r => (r.sensorName, r.recordedAt)).Nodup)
    {now : DateTime} (hnow : now.FourDigitYear) (hpast : ∀ x ∈ db.stored, x.recordedAt ≤ now)
    {query : HistoryQuery} {rs : List AnalysisResult}
    (h : getHistory Faults.none db now query = .ok rs)
    (collect : Except CollectorError (List SensorReading)) :
    ∃ out, latestSensorReadings Faults.none db 512 = .ok out ∧
      (rs ≠ [] → getCurrent ⟨Faults.none, Faults.none⟩ db collect = (db, .ok out)) ∧
      ∀ r ∈ rs,
        (db.stored.countP (fun z => r.toAt ≤ z.recordedAt) ≤ 512 →
          ∃ x ∈ out, x.sensorName = r.sensorName ∧ x.temperatureC = r.latestC ∧
            x.recordedAt = r.toAt) ∧
        (∀ x ∈ out, x.sensorName = r.sensorName →
          x.temperatureC = r.latestC ∧ x.recordedAt = r.toAt) ∧
        (512 ≤ db.stored.countP (fun z => r.toAt < z.recordedAt) →
          ∀ x ∈ out, x.sensorName ≠ r.sensorName) := by
  obtain ⟨out, hout, hlatest⟩ := latestSensorReadings_spec hdb 512
  refine ⟨out, hout, fun hne => ?_, fun r hr => ?_⟩
  · obtain ⟨r, hr⟩ := List.exists_mem_of_ne_nil rs hne
    obtain ⟨fromAt, -, hspec⟩ := getHistory_ok hdb hnow h
    obtain ⟨y, hy, -⟩ := hspec.newest hpast hr
    exact getCurrent_stored hout (hlatest.ne_nil (by decide) (List.ne_nil_of_mem hy)) collect
  · obtain ⟨hagree, hkept, hleft⟩ := history_latest hdb hdistinct hnow hpast h hlatest hr
    refine ⟨fun hcount => ?_, hagree, hleft⟩
    obtain ⟨x, hx, hname⟩ := hkept hcount
    exact ⟨x, hx, hname, hagree x hx hname⟩

end

/-! ## A silent sensor -/

/-- The second `k` of the first day. -/
def tick (k : Nat) : DateTime :=
  { (default : DateTime) with
    secs := k % 86400
    secs_lt := Nat.mod_lt k (by decide)
    leap := fun h => nomatch h }

theorem tick_fourDigitYear (k : Nat) : (tick k).FourDigitYear :=
  show (tick 0).FourDigitYear by decide

theorem tick_lt {j k : Nat} (hk : k < 86400) (h : j < k) : tick j < tick k := by
  rw [DateTime.lt_iff]
  refine Or.inr ⟨rfl, Or.inl ?_⟩
  change j % 86400 < k % 86400
  rwa [Nat.mod_eq_of_lt hk, Nat.mod_eq_of_lt (h.trans hk)]

/-- One reading of one sensor, then 512 of another. -/
def silentThenChatty : List SensorReading :=
  ⟨"silent", .exact 40, tick 0⟩ ::
    (List.range 512).map fun k => ⟨"chatty", .exact 50, tick (k + 1)⟩

theorem mem_silentThenChatty {x : SensorReading} (hx : x ∈ silentThenChatty) :
    x = ⟨"silent", .exact 40, tick 0⟩ ∨ ∃ k < 512, x = ⟨"chatty", .exact 50, tick (k + 1)⟩ := by
  rcases List.mem_cons.mp hx with rfl | hx
  · exact Or.inl rfl
  · obtain ⟨k, hk, rfl⟩ := List.mem_map.mp hx
    exact Or.inr ⟨k, List.mem_range.mp hk, rfl⟩

theorem silentThenChatty_nodup :
    (silentThenChatty.map fun r => (r.sensorName, r.recordedAt)).Nodup := by
  rw [silentThenChatty, List.map_cons, List.map_map, List.nodup_cons]
  constructor
  · intro h
    obtain ⟨k, -, heq⟩ := List.mem_map.mp h
    have hname : "chatty" = "silent" := congrArg Prod.fst heq
    exact absurd hname (by decide)
  · refine List.Nodup.map_on (fun j hj k hk heq => ?_) List.nodup_range
    rw [List.mem_range] at hj hk
    have htick : tick (j + 1) = tick (k + 1) := congrArg Prod.snd heq
    rcases lt_trichotomy j k with hlt | heq | hlt
    · exact absurd htick (tick_lt (by omega) (by omega)).ne
    · exact heq
    · exact absurd htick (tick_lt (by omega) (by omega)).ne'

theorem silentThenChatty_newer :
    silentThenChatty.countP (fun z => tick 0 < z.recordedAt) = 512 := by
  rw [silentThenChatty, List.countP_cons_of_neg (by simp), List.countP_eq_length.mpr ?_,
    List.length_map, List.length_range]
  intro z hz
  obtain ⟨k, hk, rfl⟩ := List.mem_map.mp hz
  rw [List.mem_range] at hk
  exact decide_eq_true (tick_lt (by omega) (by omega))

/-- The store with these readings. -/
def silentStore : Db := (insertReadings Faults.none Db.empty silentThenChatty).1

theorem silentStore_spec : silentStore.stored = silentThenChatty ∧ silentStore.WellTimed := by
  have hyears : ∀ r ∈ silentThenChatty, r.recordedAt.FourDigitYear := by
    intro r hr
    rcases mem_silentThenChatty hr with rfl | ⟨k, -, rfl⟩
    · exact tick_fourDigitYear 0
    · exact tick_fourDigitYear (k + 1)
  have hfits : Db.empty.Fits silentThenChatty := by
    refine ⟨fun r hr => ?_, ?_⟩
    · rcases mem_silentThenChatty hr with rfl | ⟨k, -, rfl⟩ <;> exact F64.noConfusion
    · rw [silentThenChatty, List.length_cons, List.length_map, List.length_range]
      decide
  obtain ⟨db, hdb⟩ := insertReadings_isOk_iff.mpr hfits
  have happ := (insertReadings_ok hdb).2
  rw [silentStore, hdb]
  exact ⟨happ.stored hyears, happ.wellTimed hyears Db.empty_wellTimed⟩

theorem silentStore_past : ∀ x ∈ silentStore.stored, x.recordedAt ≤ tick 1000 := by
  intro x hx
  rw [silentStore_spec.1] at hx
  rcases mem_silentThenChatty hx with rfl | ⟨k, hk, rfl⟩
  · exact (tick_lt (by decide) (by decide)).le
  · exact (tick_lt (by decide) (by omega)).le

/-- The current page of this store, whose readings are more than the page scans. -/
theorem latestSensorReadings_newest_silent :
    ∃ out, latestSensorReadings Faults.none silentStore 512 = .ok out ∧
      out.Pairwise (fun a b => a.sensorName < b.sensorName) ∧
      ∀ x ∈ out, ∀ y ∈ silentStore.stored, y.sensorName = x.sensorName →
        y.recordedAt ≤ x.recordedAt := by
  obtain ⟨_, out, -, hout, hsorted, hnewest, -⟩ :=
    latestSensorReadings_newest silentStore_spec.2 512
  exact ⟨out, hout, hsorted, fun x hx => (hnewest x hx).2⟩

/-- The history of the day has a result for the silent sensor. -/
theorem history_silent : ∃ rs,
    getHistory Faults.none silentStore (tick 1000) ⟨none, none⟩ = .ok rs ∧
      "silent" ∈ rs.map AnalysisResult.sensorName := by
  obtain ⟨hstored, hdb⟩ := silentStore_spec
  have hlen : silentThenChatty.length = 513 := by
    rw [silentThenChatty, List.length_cons, List.length_map, List.length_range]
  rcases analyze_stored hdb none ((tick 1000).subHours 24) (tick_fourDigitYear 1000) with
    ⟨hle, -⟩ | ⟨-, hmany, -⟩ | ⟨-, -, rs, hrs, hspec⟩
  · exact absurd (DateTime.subHours_lt (tick 1000) (by decide)) (not_lt.mpr hle)
  · have hle := length_inWindow_le silentStore.stored none ((tick 1000).subHours 24) (tick 1000)
    have hlt := hmany.trans_le hle
    rw [hstored, hlen] at hlt
    exact absurd hlt (by decide)
  · refine ⟨rs, ?_, (hspec.names "silent").mpr ?_⟩
    · rw [getHistory_admitted (by decide)]
      exact Fallible.mapError_eq_ok.mpr hrs
    · rw [hstored]
      have hmem : ⟨"silent", .exact 40, tick 0⟩ ∈ inWindow silentThenChatty none
          ((tick 1000).subHours 24) (tick 1000) :=
        List.mem_filter.mpr ⟨List.mem_cons_self .., by decide⟩
      exact List.mem_map_of_mem hmem

/-- The silent sensor is in the history of the day and not on the current page. -/
theorem history_current_silent :
    ¬ ∀ (db : Db) (now : DateTime) (query : HistoryQuery) (rs : List AnalysisResult)
      (out : List SensorReading), db.WellTimed →
      (db.stored.map fun r => (r.sensorName, r.recordedAt)).Nodup → now.FourDigitYear →
      (∀ x ∈ db.stored, x.recordedAt ≤ now) → getHistory Faults.none db now query = .ok rs →
      latestSensorReadings Faults.none db 512 = .ok out →
      ∀ r ∈ rs, ∃ x ∈ out, x.sensorName = r.sensorName ∧ x.temperatureC = r.latestC ∧
        x.recordedAt = r.toAt := by
  intro hall
  obtain ⟨hstored, hdb⟩ := silentStore_spec
  have hdistinct := silentThenChatty_nodup
  rw [← hstored] at hdistinct
  obtain ⟨rs, hrs, hnames⟩ := history_silent
  obtain ⟨r, hr, hname⟩ := List.mem_map.mp hnames
  obtain ⟨out, hout, hlatest⟩ := latestSensorReadings_spec hdb 512
  obtain ⟨x, hx, hxName, -⟩ := hall silentStore (tick 1000) ⟨none, none⟩ rs out hdb hdistinct
    (tick_fourDigitYear 1000) silentStore_past hrs hout r hr
  -- it is left out of the current page, since 512 readings are newer
  refine hlatest.not_mem_of_le_count (tick 0) (fun y hy hyName => ?_) ?_ x hx
    (hxName.trans hname)
  · rw [hstored] at hy
    rcases mem_silentThenChatty hy with rfl | ⟨k, -, rfl⟩
    · exact le_rfl
    · exact absurd (show "chatty" = "silent" from hyName) (by decide)
  · rw [hstored, silentThenChatty_newer]
    exact Nat.le_refl 512

/-- On this store the pages agree on every sensor that both show. -/
theorem history_current_chatty :
    ∃ rs out, getHistory Faults.none silentStore (tick 1000) ⟨none, none⟩ = .ok rs ∧
      getCurrent ⟨Faults.none, Faults.none⟩ silentStore (.ok []) = (silentStore, .ok out) ∧
      ∀ r ∈ rs, ∀ x ∈ out, x.sensorName = r.sensorName →
        x.temperatureC = r.latestC ∧ x.recordedAt = r.toAt := by
  obtain ⟨rs, hrs, hnames⟩ := history_silent
  have hdistinct := silentThenChatty_nodup
  rw [← silentStore_spec.1] at hdistinct
  obtain ⟨out, -, hcurrent, hagree⟩ := history_current silentStore_spec.2 hdistinct
    (tick_fourDigitYear 1000) silentStore_past hrs (.ok [])
  refine ⟨rs, out, hrs, hcurrent ?_, fun r hr => (hagree r hr).2.1⟩
  rintro rfl
  cases hnames

end Tempcheck
