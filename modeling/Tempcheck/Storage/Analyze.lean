import Tempcheck.Storage.Recent

/-!
# The analysis of a window

The purpose of `analyze` is stated over instants: `inWindow` is the list of readings of
the window, and `Analyses` says that a list of results has one result for each sensor of
the window, with the count, the extreme and mean temperatures, the first and last instant
and a temperature read at the last instant.

The SQL compares text instead.  `windowRows` is what each of its `WHERE` clauses selects,
in both forms of the query and in the count.  On a table of four-digit years it is the
window (`map_windowRows`), the least and greatest text are those of the least and greatest
instant (`mapRow_aggregate`), and the row of the subquery is a last one
(`latestSql_last`).  `analyze_stored` puts these together for every such table, and
`analyze_of_inserts` for every run of inserts.
-/

namespace Tempcheck

open Relational (IsTop group)

/-! ## What an analysis is -/

/-- The readings that pass the filter at an instant of the window. -/
def inWindow (rs : List SensorReading) (sensor : Option String) (fromAt toAt : DateTime) :
    List SensorReading :=
  rs.filter fun r => passes sensor r.sensorName && (fromAt ≤ r.recordedAt && r.recordedAt ≤ toAt)

theorem length_inWindow_le (rs : List SensorReading) (sensor : Option String)
    (fromAt toAt : DateTime) : (inWindow rs sensor fromAt toAt).length ≤ rs.length :=
  List.length_filter_le _ rs

/-- A result describes the readings `l`. -/
structure Summarises (res : AnalysisResult) (l : List SensorReading) : Prop where
  count : res.count = l.length
  minC : ∃ q, res.minC = .exact q ∧ IsLeast {d | d ∈ l.map SensorReading.degrees} q
  maxC : ∃ q, res.maxC = .exact q ∧ IsGreatest {d | d ∈ l.map SensorReading.degrees} q
  avgC : res.avgC = .exact ((l.map SensorReading.degrees).sum / l.length)
  fromAt : IsLeast {t | t ∈ l.map SensorReading.recordedAt} res.fromAt
  toAt : IsGreatest {t | t ∈ l.map SensorReading.recordedAt} res.toAt
  latestC : ∃ r ∈ l, r.recordedAt = res.toAt ∧ r.temperatureC = res.latestC

/-- One result for each sensor among the readings `l`. -/
structure Analyses (out : List AnalysisResult) (l : List SensorReading) : Prop where
  nodup : (out.map AnalysisResult.sensorName).Nodup
  names : ∀ n, n ∈ out.map AnalysisResult.sensorName ↔ n ∈ l.map SensorReading.sensorName
  summary : ∀ res ∈ out, Summarises res (group SensorReading.sensorName l res.sensorName)

/-- Only the analysis of no readings is empty. -/
theorem analyses_nil_iff {l : List SensorReading} : Analyses [] l ↔ l = [] := by
  constructor
  · intro h
    refine List.eq_nil_iff_forall_not_mem.mpr fun r hr => ?_
    cases (h.names r.sensorName).mpr (List.mem_map_of_mem hr)
  · rintro rfl
    exact ⟨List.nodup_nil, fun n => Iff.rfl, List.forall_mem_nil _⟩

/-! ## What the queries select -/

/-- The rows that the `WHERE` clauses select. -/
def windowRows (db : Db) (sensor : Option String) (lo hi : String) : List Row :=
  db.rows.filter fun r => passes sensor r.sensorName && r.within lo hi

/-- The form of a query for a filter. -/
def variantOf : Option String → Variant
  | some _ => .sensor
  | none => .all

/-- The subquery of a sensor that passes the filter reads the group of that sensor. -/
theorem filter_windowRows (db : Db) {sensor : Option String} {name lo hi : String}
    (h : passes sensor name = true) :
    (db.rows.filter fun r => r.sensorName = name && r.within lo hi) =
      group Row.sensorName (windowRows db sensor lo hi) name := by
  rw [group, windowRows, List.filter_filter]
  refine List.filter_congr fun r _ => ?_
  by_cases hn : r.sensorName = name
  · rw [hn, h, Bool.true_and]
  · simp only [hn, decide_false, Bool.false_and]

theorem passes_of_mem_windowRows {db : Db} {sensor : Option String} {lo hi : String} {r : Row}
    (h : r ∈ windowRows db sensor lo hi) : passes sensor r.sensorName = true := by
  have := (List.mem_filter.mp h).2
  rw [Bool.and_eq_true] at this
  exact this.1

section

variable [Chrono]

theorem analyzeCount_eq (io : Faults) (db : Db) (sensor : Option String)
    (fromAt toAt : DateTime) :
    analyzeCount io db sensor fromAt toAt = (do
      checkFault (io.stmt 0)
      if (windowRows db sensor (toRfc3339 fromAt) (toRfc3339 toAt)).length > maxAnalysisRows
      then .error .rowLimitExceeded else .ok ()) := by
  cases sensor <;> rfl

variable [Sqlite]

/-- The result rows of the aggregation, in either form. -/
def analyzeSql (db : Db) (sensor : Option String) (lo hi : String) : List AggRow :=
  let rows := windowRows db sensor lo hi
  ((Sqlite.groups (variantOf sensor)).keys rows).map fun name =>
    aggregate name (group Row.sensorName rows name) (latestSql (variantOf sensor) db name lo hi)

omit [Chrono] in
theorem analyzeSensorSql_eq (db : Db) (name lo hi : String) :
    analyzeSensorSql db name lo hi = analyzeSql db (some name) lo hi := rfl

omit [Chrono] in
theorem analyzeAllSql_eq (db : Db) (lo hi : String) :
    analyzeAllSql db lo hi = analyzeSql db none lo hi := rfl

theorem analyzeSelect_eq (io : Faults) (db : Db) (sensor : Option String)
    (fromAt toAt : DateTime) :
    analyzeSelect io db sensor fromAt toAt = (do
      checkFault (io.stmt 1)
      checkFault (io.stmt 2)
      collectRows mapRow (analyzeSql db sensor (toRfc3339 fromAt) (toRfc3339 toAt))) := by
  cases sensor with
  | none => simp only [analyzeSelect, analyzeAllSql_eq]
  | some name => simp only [analyzeSelect, analyzeSensorSql_eq]

end

/-! ## The window of text is the window of instants -/

section

variable [Chrono]

/-- The upper end needs four digits, since it is compared with the texts from above.  A
lower end of a negative year is below them, as the instant is. -/
theorem Row.WellTimed.within_iff {r : Row} (h : r.WellTimed) {fromAt toAt : DateTime}
    (hlt : fromAt < toAt) (hto : toAt.FourDigitYear) :
    r.within (toRfc3339 fromAt) (toRfc3339 toAt) =
      (decide (fromAt ≤ r.reading.recordedAt) && decide (r.reading.recordedAt ≤ toAt)) := by
  have hfrom : fromAt.year ≤ 9999 := (DateTime.year_mono hlt.le).trans hto.2
  rw [within, h.text_eq, decide_eq_decide.mpr (toRfc3339_le_iff hfrom h.fourDigitYear),
    decide_eq_decide.mpr (toRfc3339_le_iff h.fourDigitYear.2 hto)]

/-- The selected rows denote the readings of the window. -/
theorem map_windowRows {db : Db} (hdb : db.WellTimed) (sensor : Option String)
    {fromAt toAt : DateTime} (hlt : fromAt < toAt) (hto : toAt.FourDigitYear) :
    (windowRows db sensor (toRfc3339 fromAt) (toRfc3339 toAt)).map Row.reading =
      inWindow db.stored sensor fromAt toAt := by
  rw [inWindow, Db.stored, List.filter_map, windowRows]
  congr 1
  refine List.filter_congr fun r hr => ?_
  rw [(hdb r hr).within_iff hlt hto]
  rfl

theorem length_windowRows {db : Db} (hdb : db.WellTimed) (sensor : Option String)
    {fromAt toAt : DateTime} (hlt : fromAt < toAt) (hto : toAt.FourDigitYear) :
    (windowRows db sensor (toRfc3339 fromAt) (toRfc3339 toAt)).length =
      (inWindow db.stored sensor fromAt toAt).length := by
  rw [← map_windowRows hdb sensor hlt hto, List.length_map]

/-- A text of a column denotes an instant of the column, and compares with the other texts
as the instant with theirs. -/
theorem parse_recordedAt {l : List Row} (hl : ∀ r ∈ l, r.WellTimed) {s : String}
    (hs : s ∈ l.map Row.recordedAt) :
    ∃ t ∈ (l.map Row.reading).map SensorReading.recordedAt, parseFromRfc3339 s = .ok t ∧
      ∀ u ∈ (l.map Row.reading).map SensorReading.recordedAt,
        ∃ s' ∈ l.map Row.recordedAt, (s ≤ s' → t ≤ u) ∧ (s' ≤ s → u ≤ t) := by
  obtain ⟨r, hr, rfl⟩ := List.mem_map.mp hs
  refine ⟨r.reading.recordedAt, List.mem_map_of_mem (List.mem_map_of_mem hr), ?_, ?_⟩
  · rw [(hl r hr).text_eq, parse_toRfc3339 (hl r hr).fourDigitYear]
  · intro u hu
    obtain ⟨_, hx, rfl⟩ := List.mem_map.mp hu
    obtain ⟨r', hr', rfl⟩ := List.mem_map.mp hx
    exact ⟨r'.recordedAt, List.mem_map_of_mem hr', (wellTimed_le_iff (hl r hr) (hl r' hr')).mp,
      (wellTimed_le_iff (hl r' hr') (hl r hr)).mp⟩

/-- The least text of a column is that of the least instant. -/
theorem min?_recordedAt {l : List Row} (hl : ∀ r ∈ l, r.WellTimed) (hne : l ≠ []) :
    ∃ s t, (l.map Row.recordedAt).min? = some s ∧ parseFromRfc3339 s = .ok t ∧
      IsLeast {t | t ∈ (l.map Row.reading).map SensorReading.recordedAt} t := by
  obtain ⟨s, hs, hmem, hle⟩ :=
    Relational.exists_min? (mt (List.map_eq_nil_iff (f := Row.recordedAt)).mp hne)
  obtain ⟨t, ht, hparse, hcmp⟩ := parse_recordedAt hl hmem
  refine ⟨s, t, hs, hparse, ht, ?_⟩
  intro u hu
  obtain ⟨s', hs', hleft, -⟩ := hcmp u hu
  exact hleft (hle hs')

/-- The greatest text of a column is that of the greatest instant. -/
theorem max?_recordedAt {l : List Row} (hl : ∀ r ∈ l, r.WellTimed) (hne : l ≠ []) :
    ∃ s t, (l.map Row.recordedAt).max? = some s ∧ parseFromRfc3339 s = .ok t ∧
      IsGreatest {t | t ∈ (l.map Row.reading).map SensorReading.recordedAt} t := by
  obtain ⟨s, hs, hmem, hle⟩ :=
    Relational.exists_max? (mt (List.map_eq_nil_iff (f := Row.recordedAt)).mp hne)
  obtain ⟨t, ht, hparse, hcmp⟩ := parse_recordedAt hl hmem
  refine ⟨s, t, hs, hparse, ht, ?_⟩
  intro u hu
  obtain ⟨s', hs', -, hright⟩ := hcmp u hu
  exact hright (hle hs')

theorem map_degrees (l : List Row) :
    (l.map Row.reading).map SensorReading.degrees = l.map Row.temperatureC := by
  rw [List.map_map]
  rfl

/-! ## One group -/

/-- The aggregates of a nonempty group, with the temperature of a last row of it, are
mapped to a result that describes the group. -/
theorem mapRow_aggregate (name : String) {l : List Row} (hl : ∀ r ∈ l, r.WellTimed)
    {r : Row} (hr : r ∈ l) (hlast : ∀ r' ∈ l, r'.recordedAt ≤ r.recordedAt) :
    ∃ res, mapRow (aggregate name l (some r.temperatureC)) = .ok res ∧
      res.sensorName = name ∧ Summarises res (l.map Row.reading) := by
  have hne : l ≠ [] := List.ne_nil_of_mem hr
  obtain ⟨fromTs, fromAt, hfromTs, hfromAt, hleast⟩ := min?_recordedAt hl hne
  obtain ⟨toTs, toAt, htoTs, htoAt, hgreatest⟩ := max?_recordedAt hl hne
  have htemps : l.map Row.temperatureC ≠ [] := mt List.map_eq_nil_iff.mp hne
  obtain ⟨minC, hmin, hminLeast⟩ := Relational.exists_min? htemps
  obtain ⟨maxC, hmax, hmaxGreatest⟩ := Relational.exists_max? htemps
  refine ⟨⟨name, l.length, .exact minC, .exact maxC,
    .exact ((l.map Row.temperatureC).sum / l.length), .exact r.temperatureC, fromAt, toAt⟩,
    ?_, rfl, ?_⟩
  · rw [mapRow, aggregate]
    simp only [hfromTs, htoTs, hmin, hmax, Relational.avg?, if_neg htemps, getColumn]
    simp only [bind, Except.bind, hfromAt, htoAt, List.length_map]
    rfl
  · constructor
    · exact (List.length_map _).symm
    · exact ⟨minC, rfl, map_degrees l ▸ hminLeast⟩
    · exact ⟨maxC, rfl, map_degrees l ▸ hmaxGreatest⟩
    · rw [map_degrees, List.length_map]
    · exact hleast
    · exact hgreatest
    · refine ⟨r.reading, List.mem_map_of_mem hr, le_antisymm ?_ ?_, rfl⟩
      · exact hgreatest.2 (List.mem_map_of_mem (List.mem_map_of_mem hr))
      · obtain ⟨_, hx, heq⟩ := List.mem_map.mp hgreatest.1
        obtain ⟨r', hr', rfl⟩ := List.mem_map.mp hx
        rw [← heq]
        exact (wellTimed_le_iff (hl r' hr') (hl r hr)).mp (hlast r' hr')

end

section

variable [Sqlite]

/-- The subquery of a sensor of the window answers with a last row of its group. -/
theorem latestSql_last (v : Variant) (db : Db) {sensor : Option String} {name lo hi : String}
    (hname : name ∈ (windowRows db sensor lo hi).map Row.sensorName) :
    ∃ r ∈ group Row.sensorName (windowRows db sensor lo hi) name,
      latestSql v db name lo hi = some r.temperatureC ∧
      ∀ r' ∈ group Row.sensorName (windowRows db sensor lo hi) name,
        r'.recordedAt ≤ r.recordedAt := by
  obtain ⟨r₀, hr₀, rfl⟩ := List.mem_map.mp hname
  rw [latestSql, filter_windowRows db (passes_of_mem_windowRows hr₀)]
  generalize hg : group Row.sensorName (windowRows db sensor lo hi) r₀.sensorName = g
  have hmem : r₀ ∈ g := hg ▸ Relational.mem_group.mpr ⟨hr₀, rfl⟩
  have htop : IsTop Row.recordedAt 1 g (Relational.limit 1 ((Sqlite.latestOrder v).run g)) :=
    (Sqlite.latestOrder v).isTop_limit g (Or.inl rfl)
  cases hout : Relational.limit 1 ((Sqlite.latestOrder v).run g) with
  | nil =>
      have hlen := htop.length_eq
      have hpos : 0 < g.length := List.length_pos_of_mem hmem
      rw [hout, List.length_nil] at hlen
      omega
  | cons r out =>
      rw [hout] at htop
      exact ⟨r, htop.mem_of_mem (List.mem_cons_self ..), rfl, htop.head_greatest rfl⟩

end

/-! ## All groups -/

section

variable [Chrono] [Sqlite]

omit [Sqlite] in
theorem map_group (l : List Row) (name : String) :
    (group Row.sensorName l name).map Row.reading =
      group SensorReading.sensorName (l.map Row.reading) name := by
  rw [group, group, List.filter_map]
  rfl

/-- The aggregation of a window is mapped to its analysis. -/
theorem collectRows_analyzeSql {db : Db} (hdb : db.WellTimed) (sensor : Option String)
    {fromAt toAt : DateTime} (hlt : fromAt < toAt) (hto : toAt.FourDigitYear) :
    ∃ out, collectRows mapRow (analyzeSql db sensor (toRfc3339 fromAt) (toRfc3339 toAt)) =
        .ok out ∧
      Analyses out (inWindow db.stored sensor fromAt toAt) := by
  rw [← map_windowRows hdb sensor hlt hto, analyzeSql]
  generalize hrows : windowRows db sensor (toRfc3339 fromAt) (toRfc3339 toAt) = rows
  generalize hkeys : (Sqlite.groups (variantOf sensor)).keys rows = keys
  have hmem : ∀ n, n ∈ keys ↔ n ∈ rows.map Row.sensorName := by
    intro n
    rw [← hkeys]
    exact (Sqlite.groups (variantOf sensor)).mem rows n
  have hgroup : ∀ name ∈ keys, ∃ res,
      mapRow (aggregate name (group Row.sensorName rows name)
        (latestSql (variantOf sensor) db name (toRfc3339 fromAt) (toRfc3339 toAt))) = .ok res ∧
      res.sensorName = name ∧
      Summarises res (group SensorReading.sensorName (rows.map Row.reading) name) := by
    intro name hname
    rw [hmem, ← hrows] at hname
    obtain ⟨r, hr, hlatest, hlast⟩ := latestSql_last (variantOf sensor) db hname
    rw [hrows] at hr hlast
    rw [hlatest, ← map_group]
    refine mapRow_aggregate name (fun r hr => hdb r ?_) hr hlast
    exact List.mem_of_mem_filter (hrows ▸ List.mem_of_mem_filter hr)
  obtain ⟨out, hout, hall⟩ := Fallible.exists_mapM_ok (f := mapRow)
    (R := fun a b =>
      Summarises b (group SensorReading.sensorName (rows.map Row.reading) b.sensorName) ∧
        a.sensorName = b.sensorName)
    (l := keys.map fun name => aggregate name (group Row.sensorName rows name)
      (latestSql (variantOf sensor) db name (toRfc3339 fromAt) (toRfc3339 toAt)))
    (by
      intro a ha
      obtain ⟨name, hname, rfl⟩ := List.mem_map.mp ha
      obtain ⟨res, hres, rfl, hsum⟩ := hgroup name hname
      exact ⟨res, hres, hsum, rfl⟩)
  obtain ⟨hsum, hnames⟩ := (List.forall₂_and_left _ _).mp hall.flip
  have hkeysOut : out.map AnalysisResult.sensorName = keys := by
    rw [Fallible.map_eq_map_of_forall₂ (hnames.imp fun _ _ h => h.symm), List.map_map]
    exact List.map_id keys
  refine ⟨out, Fallible.mapError_eq_ok.mpr hout, ?_, ?_, hsum⟩
  · rw [hkeysOut, ← hkeys]
    exact (Sqlite.groups (variantOf sensor)).nodup rows
  · intro n
    rw [hkeysOut, hmem, List.map_map]
    rfl

/-- `analyze` on a table of four-digit years. -/
theorem analyze_stored {db : Db} (hdb : db.WellTimed) (sensor : Option String)
    (fromAt : DateTime) {toAt : DateTime} (hto : toAt.FourDigitYear) :
    (toAt ≤ fromAt ∧ analyze Faults.none db sensor fromAt toAt = .error .invalidRange) ∨
    (fromAt < toAt ∧ maxAnalysisRows < (inWindow db.stored sensor fromAt toAt).length ∧
      analyze Faults.none db sensor fromAt toAt = .error .rowLimitExceeded) ∨
    (fromAt < toAt ∧ (inWindow db.stored sensor fromAt toAt).length ≤ maxAnalysisRows ∧
      ∃ out, analyze Faults.none db sensor fromAt toAt = .ok out ∧
        Analyses out (inWindow db.stored sensor fromAt toAt)) := by
  rcases le_or_gt toAt fromAt with hle | hlt
  · refine Or.inl ⟨hle, ?_⟩
    rw [analyze, if_pos hle]
    rfl
  · obtain ⟨out, hout, hspec⟩ := collectRows_analyzeSql hdb sensor hlt hto
    right
    rcases Nat.lt_or_ge maxAnalysisRows (inWindow db.stored sensor fromAt toAt).length
      with hmany | hfew
    · refine Or.inl ⟨hlt, hmany, ?_⟩
      rw [analyze, if_neg (not_le.mpr hlt), analyzeCount_eq, length_windowRows hdb sensor hlt hto,
        if_pos hmany]
      rfl
    · refine Or.inr ⟨hlt, hfew, out, ?_, hspec⟩
      rw [analyze, if_neg (not_le.mpr hlt), analyzeCount_eq, length_windowRows hdb sensor hlt hto,
        if_neg (not_lt.mpr hfew), analyzeSelect_eq, hout]
      rfl

/-- After a run of successful inserts on an empty store, `analyze` rejects exactly the
empty ranges and the windows of too many readings, and answers every other query with the
analysis of the inserted readings of the window. -/
theorem analyze_of_inserts (calls : List InsertCall)
    (hok : ∀ res ∈ (runInserts calls Db.empty).2, ∃ n, res = .ok n)
    (hy : ∀ r ∈ calls.flatMap InsertCall.readings, r.recordedAt.FourDigitYear)
    (sensor : Option String) (fromAt toAt : DateTime) (hto : toAt.FourDigitYear) :
    let window := inWindow (calls.flatMap InsertCall.readings) sensor fromAt toAt
    let result := analyze Faults.none (runInserts calls Db.empty).1 sensor fromAt toAt
    (result = .error .invalidRange ↔ toAt ≤ fromAt) ∧
    (result = .error .rowLimitExceeded ↔ fromAt < toAt ∧ maxAnalysisRows < window.length) ∧
    (fromAt < toAt → window.length ≤ maxAnalysisRows →
      ∃ out, result = .ok out ∧ Analyses out window) := by
  intro window result
  obtain ⟨hstored, hdb⟩ := runInserts_stored hok hy
  have hresult := analyze_stored hdb sensor fromAt hto
  rw [hstored] at hresult
  change (_ ∧ result = _) ∨ (_ ∧ _ ∧ result = _) ∨ (_ ∧ _ ∧ ∃ out, result = _ ∧ _) at hresult
  rcases hresult with ⟨hle, heq⟩ | ⟨hlt, hmany, heq⟩ | ⟨hlt, hfew, out, heq, hspec⟩
  · rw [heq]
    refine ⟨⟨fun _ => hle, fun _ => rfl⟩, ⟨(nomatch ·), fun h => ?_⟩, fun h => ?_⟩
    · exact absurd h.1 (not_lt.mpr hle)
    · exact absurd h (not_lt.mpr hle)
  · rw [heq]
    refine ⟨⟨(nomatch ·), fun h => ?_⟩, ⟨fun _ => ⟨hlt, hmany⟩, fun _ => rfl⟩, fun _ h => ?_⟩
    · exact absurd hlt (not_lt.mpr h)
    · exact absurd hmany (not_lt.mpr h)
  · rw [heq]
    refine ⟨⟨(nomatch ·), fun h => ?_⟩, ⟨(nomatch ·), fun h => ?_⟩, fun _ _ => ⟨out, rfl, hspec⟩⟩
    · exact absurd hlt (not_lt.mpr h)
    · exact absurd h.2 (not_lt.mpr hfew)

end

/-- The analysis of two readings of one sensor, the second with a fraction of a second. -/
theorem analyze_of_inserts_fraction :
    let later : DateTime := ⟨0, 0, 500000000, by decide, by decide, by decide⟩
    let rs : List SensorReading := [⟨"cpu", .exact 40, default⟩, ⟨"cpu", .exact 50, later⟩]
    ∃ out, analyze Faults.none (runInserts [⟨Faults.none, rs⟩] Db.empty).1 none default
      later = .ok out ∧ Analyses out rs := by
  intro later rs
  obtain ⟨-, -, h⟩ := analyze_of_inserts [⟨Faults.none, rs⟩]
    (by
      intro res hres
      have hrun : (runInserts [⟨Faults.none, rs⟩] Db.empty).2 = [.ok 2] := rfl
      rw [hrun] at hres
      exact ⟨2, List.mem_singleton.mp hres⟩)
    (by decide) none default later (by decide)
  exact h (by decide) (by decide)

end Tempcheck
