import Tempcheck.Deployment.Alone
import Tempcheck.Deployment.Rows
import Tempcheck.Web.Latest

/-!
# What the requests see

A request for current readings that is answered begins with one scan, and the table it scans
is the one of that moment.  So later requests see later readings (`current_monotonic`), also
if rows are inserted in between, and also across the fallback, and what a task has stored is
seen from then on (`current_fresh`).  The web server inserts only if it found the table empty
(`current_inserts`).

An analysis looks at the table twice (`AnalysedIn`).  If it is answered, there were not too
many rows in its window at the first look, and the answer is the analysis of the rows at the
second look (`history_analyses`).
-/

namespace Tempcheck

namespace Deployment

open Relational (IsTop)
open Transition (Run)
open Program (Prog compute doneBy query)
open Shared (Follows Implements Yields yields_attempt yields_bind yields_compute yields_map
  yields_pure yields_query yields_query_bind yields_refine)

/-! ## The statements of a read -/

section

variable {α β : Type} {es : List Executed}

/-- A statement that did not fail, and what follows. -/
theorem yields_dbCall_bind_ok {p : Session (Except String α)} {f : α → StoreBody β} {b : β}
    (h : Yields (dbCall p >>= f).run es (.ok b)) :
    ∃ a es₁ es₂, es = es₁ ++ es₂ ∧ Yields p es₁ (.ok a) ∧ Yields (f a).run es₂ (.ok b) := by
  rcases yields_attempt.mp h with ⟨e, -, he⟩ | ⟨a, es₁, es₂, rfl, hp, hf⟩
  · cases he
  · obtain ⟨r, hr, hra⟩ := yields_dbCall.mp hp
    cases r with
    | error e => cases hra
    | ok a' =>
        cases hra
        exact ⟨a, es₁, es₂, rfl, hr, hf⟩

/-- A check that passed, and what follows. -/
theorem yields_compute_bind_ok {x : Except StoreError α} {f : α → StoreBody β} {b : β}
    (h : Yields (compute x >>= f).run es (.ok b)) :
    ∃ a, x = .ok a ∧ Yields (f a).run es (.ok b) := by
  rcases yields_attempt.mp h with ⟨e, -, he⟩ | ⟨a, es₁, es₂, rfl, hx, hf⟩
  · cases he
  · obtain ⟨rfl, hxa⟩ := yields_compute.mp hx
    exact ⟨a, hxa.symm, hf⟩

end

section

variable [Chrono] {es : List Executed}

/-- A scan that is answered. -/
theorem yields_recentReadings_ok {sensor : Option String} {limit : UInt64}
    {recent : List SensorReading}
    (h : Yields (SqliteStore.recentReadings sensor limit).run es (.ok recent)) :
    ∃ rows, collectRows mapRowReading rows = .ok recent ∧
      es = [⟨.lock, .ok ()⟩, ⟨.prepare, .ok ()⟩, ⟨.recent sensor limit.toInt64, .ok rows⟩] := by
  obtain ⟨u, es₁, rest, rfl, hlock, h₁⟩ := yields_dbCall_bind_ok h
  obtain ⟨u', es₂, rest, rfl, hprepare, h₂⟩ := yields_dbCall_bind_ok h₁
  obtain ⟨rows, es₃, rest, rfl, hrecent, h₃⟩ := yields_dbCall_bind_ok h₂
  obtain ⟨rfl, hrows⟩ := yields_compute.mp h₃
  rw [yields_query.mp hlock, yields_query.mp hprepare, yields_query.mp hrecent]
  exact ⟨rows, hrows.symm, rfl⟩

/-- An analysis that is answered. -/
theorem yields_analyze_ok {sensor : Option String} {fromAt toAt : DateTime}
    {out : List AnalysisResult}
    (h : Yields (SqliteStore.analyze sensor fromAt toAt).run es (.ok out)) :
    fromAt < toAt ∧ ∃ n rows, n ≤ maxAnalysisRows ∧ collectRows mapRow rows = .ok out ∧
      es = [⟨.lock, .ok ()⟩, ⟨.count sensor (toRfc3339 fromAt) (toRfc3339 toAt), .ok n⟩,
        ⟨.prepare, .ok ()⟩,
        ⟨.aggregate sensor (toRfc3339 fromAt) (toRfc3339 toAt), .ok rows⟩] := by
  obtain ⟨u, hrange, h₁⟩ := yields_compute_bind_ok h
  obtain ⟨u₁, es₁, rest, rfl, hlock, h₂⟩ := yields_dbCall_bind_ok h₁
  obtain ⟨n, es₂, rest, rfl, hcount, h₃⟩ := yields_dbCall_bind_ok h₂
  obtain ⟨u₂, hmany, h₄⟩ := yields_compute_bind_ok h₃
  obtain ⟨u₃, es₃, rest, rfl, hprepare, h₅⟩ := yields_dbCall_bind_ok h₄
  obtain ⟨rows, es₄, rest, rfl, haggregate, h₆⟩ := yields_dbCall_bind_ok h₅
  obtain ⟨rfl, hrows⟩ := yields_compute.mp h₆
  rw [yields_query.mp hlock, yields_query.mp hcount, yields_query.mp hprepare,
    yields_query.mp haggregate]
  split at hrange
  · cases hrange
  next hlt =>
    split at hmany
    · cases hmany
    next hfew => exact ⟨not_le.mp hlt, n, rows, not_lt.mp hfew, hrows.symm, rfl⟩

/-- The statements of `get_current` before it scans. -/
def beforeScan : List Executed := [⟨.lock, .ok ()⟩, ⟨.prepare, .ok ()⟩]

/-- The scan of `get_current`, with the rows it gave. -/
def scan (rows : List Row) : Executed := ⟨.recent none (UInt64.toInt64 512), .ok rows⟩

theorem collectRows_eq_nil {rows : List Row} (h : collectRows mapRowReading rows = .ok []) :
    rows = [] := by
  cases Fallible.mapM_eq_ok.mp (Fallible.mapError_eq_ok.mp h)
  rfl

variable [Encoders] [PrettyEncoder]

/-- A request for current readings stores something only after a scan without rows. -/
theorem current_of_yields {outcome : Outcome} (h : Yields Task.current.session es outcome) :
    inserts es = [] ∨ ∃ rest, es = beforeScan ++ scan [] :: rest := by
  obtain ⟨xs, hxs, himpl⟩ := yields_refine.mp h
  obtain ⟨res, hres, -⟩ := yields_map.mp hxs
  rcases yields_getCurrent hres with ⟨e, rfl, -⟩ | ⟨recent, -, rfl, -⟩ |
    ⟨recent, xs', hempty, rfl, -⟩
  · exact Or.inl (inserts_eq_nil (implements_readOnly himpl (by simp)))
  · exact Or.inl (inserts_eq_nil (implements_readOnly himpl (by simp)))
  · cases himpl with
    | @cons _ _ es₁ es₂ _ hscan _ =>
        obtain ⟨rows, hrows, rfl⟩ := yields_recentReadings_ok hscan
        obtain rfl : recent = [] := by
          by_contra hne
          exact scan_ne_nil hne hempty
        rw [collectRows_eq_nil hrows]
        exact Or.inr ⟨es₂, rfl⟩

/-- A request that is answered with readings has scanned them, or has scanned no rows and
has stored them. -/
theorem current_of_yields_ok {readings : List SensorReading}
    (h : Yields Task.current.session es (.current (.ok readings))) :
    ∃ rows recent rest, es = beforeScan ++ scan rows :: rest ∧
      collectRows mapRowReading rows = .ok recent ∧
      ((rest = [] ∧ readings = sortByName (latestLoop recent [] [])) ∨
        rows = [] ∧ inserts rest = readings) := by
  obtain ⟨xs, hxs, himpl⟩ := yields_refine.mp h
  obtain ⟨res, hres, heq⟩ := yields_map.mp hxs
  obtain rfl : Except.ok readings = res := Outcome.current.inj heq
  rcases yields_getCurrent hres with ⟨e, -, herror⟩ | ⟨recent, -, rfl, hanswer⟩ |
    ⟨recent, xs', hempty, rfl, hrest⟩
  · cases herror
  · cases himpl with
    | cons hscan hnil =>
        cases hnil
        obtain ⟨rows, hrows, rfl⟩ := yields_recentReadings_ok hscan
        exact ⟨rows, recent, [], rfl, hrows, Or.inl ⟨rfl, Except.ok.inj hanswer⟩⟩
  · cases himpl with
    | @cons _ _ es₁ es₂ _ hscan himpl' =>
        obtain ⟨rows, hrows, rfl⟩ := yields_recentReadings_ok hscan
        obtain rfl : recent = [] := by
          by_contra hne
          exact scan_ne_nil hne hempty
        refine ⟨rows, [], es₂, rfl, hrows, Or.inr ⟨collectRows_eq_nil hrows, ?_⟩⟩
        rcases yields_fallback hrest with ⟨e, -, herror⟩ | ⟨rfl, hanswer⟩ |
          ⟨collected, n, -, hanswer, rfl⟩
        · cases herror
        · rw [Except.ok.inj hanswer]
          exact inserts_eq_nil (implements_readOnly himpl' (by simp))
        · cases n with
          | error e => exact nomatch hanswer
          | ok n =>
              rw [Except.ok.inj hanswer, inserts_of_implements himpl' (by simp [Unfailing])]
              simp [Called.inserted]

/-- A request for the history that is answered has looked at the table twice. -/
theorem history_of_yields_ok {q : HistoryQuery} {out : List AnalysisResult}
    (h : Yields (Task.history q).session es (.history (.ok out))) :
    ∃ now n rows, now.subHours (q.hours.getD 24) < now ∧ n ≤ maxAnalysisRows ∧
      collectRows mapRow rows = .ok out ∧
      es = [⟨.now, now⟩, ⟨.lock, .ok ()⟩] ++
        ⟨.count q.sensor (toRfc3339 (now.subHours (q.hours.getD 24))) (toRfc3339 now), .ok n⟩ ::
        ([⟨.prepare, .ok ()⟩] ++
          ⟨.aggregate q.sensor (toRfc3339 (now.subHours (q.hours.getD 24))) (toRfc3339 now),
            .ok rows⟩ :: []) := by
  obtain ⟨xs, hxs, himpl⟩ := yields_refine.mp h
  obtain ⟨res, hres, heq⟩ := yields_map.mp hxs
  obtain rfl : Except.ok out = res := Outcome.history.inj heq
  rcases yields_getHistory hres with ⟨-, herror⟩ | ⟨now, answer, hanswer, rfl⟩
  · cases herror
  · cases himpl with
    | cons hnow himpl' =>
        cases himpl' with
        | cons hanalyze hnil =>
            cases hnil
            obtain rfl : answer = .ok out := Fallible.mapError_eq_ok.mp hanswer.symm
            obtain ⟨hlt, n, rows, hn, hrows, rfl⟩ := yields_analyze_ok hanalyze
            rw [yields_query.mp hnow]
            exact ⟨now, n, rows, hlt, hn, hrows, rfl⟩

end

/-! ## The table of the moment -/

section

variable [Chrono] [Sqlite] {db db' : Db}

theorem serves_recent {sensor : Option String} {limit : Int64} {rows : List Row}
    (h : Serves db ⟨.recent sensor limit, .ok rows⟩ db') :
    db' = db ∧ rows = recentSql db sensor limit := by
  cases h with
  | read => exact ⟨rfl, rfl⟩

theorem serves_count {sensor : Option String} {lo hi : String} {n : Nat}
    (h : Serves db ⟨.count sensor lo hi, .ok n⟩ db') :
    db' = db ∧ n = (windowRows db sensor lo hi).length := by
  cases h with
  | counted => exact ⟨rfl, rfl⟩

theorem serves_aggregate {sensor : Option String} {lo hi : String} {rows : List AggRow}
    (h : Serves db ⟨.aggregate sensor lo hi, .ok rows⟩ db') :
    db' = db ∧ rows = analyzeSql db sensor lo hi := by
  cases h with
  | aggregated => exact ⟨rfl, rfl⟩

omit [Chrono] in
/-- A scan without rows is a scan of an empty table. -/
theorem rows_eq_nil_of_scan (h : recentSql db none (UInt64.toInt64 512) = []) : db.rows = [] := by
  have htop := recentSql_isTop db none 512
  rw [h, filter_passes_none] at htop
  by_contra hne
  exact htop.ne_nil (by decide) hne rfl

/-- What a scan gives is the latest of the stored readings. -/
theorem latestOf_scan (hdb : db.WellTimed) {recent : List SensorReading}
    (h : collectRows mapRowReading (recentSql db none (UInt64.toInt64 512)) = .ok recent) :
    LatestOf 512 db.stored (sortByName (latestLoop recent [] [])) := by
  obtain ⟨out, hout, htop⟩ := recentReadings_isTop hdb none 512
  have heq : recentReadings Faults.none db none 512 =
      collectRows mapRowReading (recentSql db none (UInt64.toInt64 512)) := recentReadings_eq ..
  rw [heq, h] at hout
  cases hout
  rw [Db.matching, filter_passes_none] at htop
  exact ⟨recent, htop, rfl⟩

/-! ## Runs -/

/-- Every collection of a history has instants of four-digit years. -/
def Dated {ι : Type} (history : List (ι × Executed)) : Prop :=
  ∀ x ∈ history, ∀ r ∈ collected x.2, r.recordedAt.FourDigitYear

variable [Encoders] [PrettyEncoder] {ι : Type} [DecidableEq ι] {tasks : ι → Task}
  {ts : ι → Session Outcome} {history : List (ι × Executed)}

/-- What is stored has been collected before. -/
theorem dated_inserts
    (h : Run (Shared.Step Serves) (db, fun i => (tasks i).session) history (db', ts))
    (hdated : Dated history) :
    ∀ r ∈ inserts (history.map Prod.snd), r.recordedAt.FourDigitYear := by
  intro r hr
  obtain ⟨x, hx, hstored⟩ := List.mem_filterMap.mp hr
  obtain ⟨⟨i, x⟩, hmem, rfl⟩ := List.mem_map.mp hx
  have hinserted : r ∈ inserts (doneBy i history) :=
    List.mem_filterMap.mpr ⟨x, Program.mem_doneBy hmem, hstored⟩
  obtain ⟨y, hy, hcollected⟩ :=
    List.mem_flatMap.mp ((honest_of_run h i _ List.prefix_rfl).subset hinserted)
  exact hdated _ (Shared.mem_of_mem_doneBy hy) r hcollected

omit [Encoders] [PrettyEncoder] in
theorem run_stored {es : List Executed} (h : Run Serves db es db')
    (hy : ∀ r ∈ inserts es, r.recordedAt.FourDigitYear) : db'.stored = db.stored ++ inserts es :=
  (run_appends h).stored hy

/-- The web server stores readings only if nobody had stored any before its scan. -/
theorem current_inserts
    (h : Run (Shared.Step Serves) (db, fun i => (tasks i).session) history (db', ts)) {i : ι}
    (hi : tasks i = .current) (hinserts : inserts (doneBy i history) ≠ []) :
    db.rows = [] ∧ ∃ pre post,
      history = pre ++ (i, scan []) :: post ∧
      inserts (pre.map Prod.snd) = [] := by
  have hscan : inserts (doneBy i history) = [] ∨
      ∃ rest, doneBy i history = beforeScan ++ scan [] :: rest := by
    refine Shared.Run.always h
      (P := fun es => inserts es = [] ∨ ∃ rest, es = beforeScan ++ scan [] :: rest)
      (fun es es' hall => ?_) fun es outcome hes => ?_
    · rcases hall with hnil | ⟨rest, heq⟩
      · rw [inserts_append] at hnil
        exact Or.inl (List.append_eq_nil_iff.mp hnil).1
      · rw [List.append_cons] at heq
        rcases List.append_eq_append_iff.mp heq with ⟨as, hes, -⟩ | ⟨bs, hes, -⟩
        · -- the thread is still in the scan
          have hnil : inserts (beforeScan ++ [scan []]) = [] := rfl
          rw [hes, inserts_append] at hnil
          exact Or.inl (List.append_eq_nil_iff.mp hnil).1
        · exact Or.inr ⟨bs, by rw [hes, ← List.append_cons]⟩
    · change Yields (tasks i).session es outcome at hes
      rw [hi] at hes
      exact current_of_yields hes
  obtain ⟨rest, hrest⟩ := hscan.resolve_left hinserts
  obtain ⟨pre, post, s, t, rfl, -, -, hpre, hread, -⟩ := Shared.Run.moment h hrest
  obtain ⟨rfl, hrows⟩ := serves_recent hread
  have hempty := rows_eq_nil_of_scan hrows.symm
  obtain ⟨-, new, hnew, hholds⟩ := run_appends hpre
  rw [hempty] at hnew
  obtain ⟨hdb, rfl⟩ := List.append_eq_nil_iff.mp hnew.symm
  exact ⟨hdb, pre, post, rfl, List.forall₂_nil_left_iff.mp hholds⟩

/-- The readings of an answered request are in the table when it returns. -/
theorem current_stored
    (h : Run (Shared.Step Serves) (db, fun i => (tasks i).session) history (db', ts))
    (hdb : db.WellTimed) (hdated : Dated history) {i : ι} (hi : tasks i = .current)
    {readings : List SensorReading} (hret : ts i = .ret (.current (.ok readings))) :
    ∀ r ∈ readings, r ∈ db'.stored := by
  intro r hr
  have hdates := dated_inserts h hdated
  have hyields : Yields (tasks i).session (doneBy i history) (.current (.ok readings)) := by
    have hfollows : Follows (tasks i).session (doneBy i history) (ts i) := Shared.Run.follows h i
    rwa [hret] at hfollows
  rw [hi] at hyields
  obtain ⟨rows, recent, rest, heq, hrows, hanswer⟩ := current_of_yields_ok hyields
  obtain ⟨pre, post, s, t, rfl, hpre, hpost, hbefore, hread, hafter⟩ := Shared.Run.moment h heq
  obtain ⟨rfl, rfl⟩ := serves_recent hread
  rw [List.map_append, List.map_cons, inserts_append] at hdates
  obtain ⟨hdatesPre, hdatesPost⟩ := List.forall_mem_append.mp hdates
  have hs := run_stored hafter hdatesPost
  rw [hs]
  rcases hanswer with ⟨-, rfl⟩ | ⟨-, rfl⟩
  · have hwell := (run_appends hbefore).wellTimed hdatesPre hdb
    exact List.mem_append_left _ ((latestOf_scan hwell hrows).mem hr)
  · refine List.mem_append_right _ ?_
    obtain ⟨x, hx, hstored⟩ := List.mem_filterMap.mp hr
    rw [← hpost] at hx
    exact List.mem_filterMap.mpr
      ⟨x, List.mem_map_of_mem (Shared.mem_of_mem_doneBy hx), hstored⟩

section

variable {dbMid : Db} {tsMid : ι → Session Outcome} {before after : List (ι × Executed)}

/-- A request that starts when a reading is in the table sees no older reading of its sensor,
and some reading of it if few readings are as new. -/
theorem current_after
    (h : Run (Shared.Step Serves) (db, fun i => (tasks i).session) before (dbMid, tsMid))
    (h' : Run (Shared.Step Serves) (dbMid, tsMid) after (db', ts)) (hdb : db.WellTimed)
    (hdated : Dated (before ++ after)) {j : ι} (hj : tasks j = .current)
    (hstart : doneBy j before = []) {readings : List SensorReading}
    (hret : ts j = .ret (.current (.ok readings))) {r : SensorReading} (hr : r ∈ dbMid.stored) :
    (∀ x ∈ readings, r.sensorName = x.sensorName → r.recordedAt ≤ x.recordedAt) ∧
      (db'.stored.countP (fun x => r.recordedAt ≤ x.recordedAt) ≤ 512 →
        ∃ x ∈ readings, x.sensorName = r.sensorName) := by
  have hdates := dated_inserts (h.append h') hdated
  have hsession : tsMid j = (tasks j).session := by
    have hfollows : Follows (tasks j).session (doneBy j before) (tsMid j) :=
      Shared.Run.follows h j
    rw [hstart] at hfollows
    exact hfollows.eq_of_nil
  have hyields : Yields (tasks j).session (doneBy j after) (.current (.ok readings)) := by
    have hfollows : Follows (tsMid j) (doneBy j after) (ts j) := Shared.Run.follows h' j
    rwa [hret, hsession] at hfollows
  rw [hj] at hyields
  obtain ⟨rows, recent, rest, heq, hrows, hanswer⟩ := current_of_yields_ok hyields
  obtain ⟨pre, post, s, t, rfl, -, -, hbefore, hread, hafter⟩ := Shared.Run.moment h' heq
  obtain ⟨rfl, rfl⟩ := serves_recent hread
  rw [List.map_append, List.map_append, inserts_append, inserts_append] at hdates
  obtain ⟨hdatesBefore, hdatesAfter⟩ := List.forall_mem_append.mp hdates
  obtain ⟨hdatesPre, hdatesPost⟩ := List.forall_mem_append.mp hdatesAfter
  have hwellMid := (run_appends (Shared.Run.object h)).wellTimed hdatesBefore hdb
  have hwell := (run_appends hbefore).wellTimed hdatesPre hwellMid
  have hstored : r ∈ t.stored := by
    rw [run_stored hbefore hdatesPre]
    exact List.mem_append_left _ hr
  have hgrown : t.stored <+: db'.stored := by
    rw [run_stored hafter hdatesPost]
    exact List.prefix_append _ _
  rcases hanswer with ⟨-, rfl⟩ | ⟨hnil, -⟩
  · have hlatest := latestOf_scan hwell hrows
    exact ⟨fun x hx hname => hlatest.newest hx hstored hname, fun hfew =>
      hlatest.mem_of_count_le hstored (hgrown.sublist.countP_le.trans hfew)⟩
  · -- the scan would have found the reading
    rw [Db.stored, rows_eq_nil_of_scan hnil] at hstored
    cases hstored

/-- A request that starts after another one was answered sees no older readings. -/
theorem current_monotonic
    (h : Run (Shared.Step Serves) (db, fun i => (tasks i).session) before (dbMid, tsMid))
    (h' : Run (Shared.Step Serves) (dbMid, tsMid) after (db', ts)) (hdb : db.WellTimed)
    (hdated : Dated (before ++ after)) {i j : ι} (hi : tasks i = .current)
    (hj : tasks j = .current) (hstart : doneBy j before = []) {first second : List SensorReading}
    (hfirst : tsMid i = .ret (.current (.ok first)))
    (hsecond : ts j = .ret (.current (.ok second))) :
    ∀ a ∈ first, ∀ b ∈ second, a.sensorName = b.sensorName → a.recordedAt ≤ b.recordedAt := by
  intro a ha
  have hmid : a ∈ dbMid.stored :=
    current_stored h hdb (fun x hx => hdated x (List.mem_append_left _ hx)) hi hfirst a ha
  exact (current_after h h' hdb hdated hj hstart hsecond hmid).1

/-- A request that starts after a task has stored what it collected shows every sensor of it,
at least as new, as long as few readings are as new as those of the task. -/
theorem current_fresh
    (h : Run (Shared.Step Serves) (db, fun i => (tasks i).session) before (dbMid, tsMid))
    (h' : Run (Shared.Step Serves) (dbMid, tsMid) after (db', ts)) (hdb : db.WellTimed)
    (hdated : Dated (before ++ after)) {i j : ι} (hi : (tasks i).Writes) {outcome : Outcome}
    (hdone : outcome.Succeeded) (hfirst : tsMid i = .ret outcome) (hj : tasks j = .current)
    (hstart : doneBy j before = []) {readings : List SensorReading}
    (hret : ts j = .ret (.current (.ok readings))) :
    ∀ r ∈ collections (doneBy i before),
      db'.stored.countP (fun x => r.recordedAt ≤ x.recordedAt) ≤ 512 →
        ∃ x ∈ readings, x.sensorName = r.sensorName ∧ r.recordedAt ≤ x.recordedAt := by
  intro r hr hfew
  have hyields : Yields (tasks i).session (doneBy i before) outcome := by
    have hfollows : Follows (tasks i).session (doneBy i before) (tsMid i) := Shared.Run.follows h i
    rwa [hfirst] at hfollows
  rw [← complete_of_yields hyields hi hdone] at hr
  have hinserted : r ∈ inserts (before.map Prod.snd) := by
    obtain ⟨x, hx, hxr⟩ := List.mem_filterMap.mp hr
    exact List.mem_filterMap.mpr
      ⟨x, List.mem_map_of_mem (Shared.mem_of_mem_doneBy hx), hxr⟩
  have hmid : r ∈ dbMid.stored := by
    rw [run_stored (Shared.Run.object h) (dated_inserts h fun x hx =>
      hdated x (List.mem_append_left _ hx))]
    exact List.mem_append_right _ hinserted
  obtain ⟨hnewer, hsome⟩ := current_after h h' hdb hdated hj hstart hret hmid
  obtain ⟨x, hx, hname⟩ := hsome hfew
  exact ⟨x, hx, hname, hnewer x hx hname.symm⟩

end

/-- A thread has counted the rows of a window and then aggregated them, with no other look at
the table in between.  There were not too many rows in the window of the table that it
counted, and `out` is the analysis of the window of the table that it aggregated. -/
def AnalysedIn (db : Db) (history : List (ι × Executed)) (i : ι) (sensor : Option String)
    (fromAt toAt : DateTime) (out : List AnalysisResult) : Prop :=
  ∃ pre mid post n rows dbCount dbRead,
    history = pre ++ (i, ⟨.count sensor (toRfc3339 fromAt) (toRfc3339 toAt), .ok n⟩) ::
      (mid ++ (i, ⟨.aggregate sensor (toRfc3339 fromAt) (toRfc3339 toAt), .ok rows⟩) :: post) ∧
    doneBy i mid = [⟨.prepare, .ok ()⟩] ∧
    Run Serves db (pre.map Prod.snd) dbCount ∧ Run Serves dbCount (mid.map Prod.snd) dbRead ∧
    (inWindow dbCount.stored sensor fromAt toAt).length ≤ maxAnalysisRows ∧
    Analyses out (inWindow dbRead.stored sensor fromAt toAt)

/-- The two looks of an analysis at the table. -/
theorem analysedIn_of_doneBy
    (h : Run (Shared.Step Serves) (db, fun i => (tasks i).session) history (db', ts))
    (hdb : db.WellTimed) (hdated : Dated history) {i : ι} {sensor : Option String}
    {fromAt toAt : DateTime} {n : Nat} {rows : List AggRow} {es es' : List Executed}
    (heq : doneBy i history = es ++
      ⟨.count sensor (toRfc3339 fromAt) (toRfc3339 toAt), .ok n⟩ :: ([⟨.prepare, .ok ()⟩] ++
        ⟨.aggregate sensor (toRfc3339 fromAt) (toRfc3339 toAt), .ok rows⟩ :: es'))
    (hlt : fromAt < toAt) (hyear : toAt.FourDigitYear) (hn : n ≤ maxAnalysisRows)
    {out : List AnalysisResult} (hrows : collectRows mapRow rows = .ok out) :
    AnalysedIn db history i sensor fromAt toAt out := by
  have hdates := dated_inserts h hdated
  obtain ⟨pre, rest, dbCount, t, rfl, -, hrest, hbefore, hcount, hafter⟩ :=
    Shared.Run.moment h heq
  obtain ⟨mid, post, rfl, hprepare, -⟩ := Shared.exists_of_doneBy hrest
  rw [List.map_append, List.map_cons] at hafter
  obtain ⟨dbRead, u, hmid, hread, -⟩ := hafter.split_cons
  obtain ⟨rfl, rfl⟩ := serves_count hcount
  obtain ⟨-, rfl⟩ := serves_aggregate hread
  rw [List.append_cons, ← List.append_assoc, List.map_append, List.map_append, List.map_append,
    inserts_append, inserts_append, inserts_append] at hdates
  obtain ⟨hdatesMid, -⟩ := List.forall_mem_append.mp hdates
  obtain ⟨hdatesCount, hdatesRead⟩ := List.forall_mem_append.mp hdatesMid
  obtain ⟨hdatesPre, -⟩ := List.forall_mem_append.mp hdatesCount
  have hwellCount := (run_appends hbefore).wellTimed hdatesPre hdb
  have hwellRead := (run_appends hmid).wellTimed hdatesRead hwellCount
  obtain ⟨out', hout, hanalyses⟩ := collectRows_analyzeSql hwellRead sensor hlt hyear
  rw [hrows] at hout
  cases hout
  rw [length_windowRows hwellCount sensor hlt hyear] at hn
  exact ⟨pre, mid, post, _, _, t, dbRead, rfl, hprepare, hbefore, hmid, hn, hanalyses⟩

/-- An answered request for the history is the analysis of the window in the table that its
aggregation has read, and in the table that its count has read before there were not too many
rows. -/
theorem history_analyses
    (h : Run (Shared.Step Serves) (db, fun i => (tasks i).session) history (db', ts))
    (hdb : db.WellTimed) (hdated : Dated history) {i : ι} {q : HistoryQuery}
    (hi : tasks i = .history q) {out : List AnalysisResult}
    (hret : ts i = .ret (.history (.ok out))) :
    ∃ now, ⟨.now, now⟩ ∈ doneBy i history ∧ (now.FourDigitYear →
      AnalysedIn db history i q.sensor (now.subHours (q.hours.getD 24)) now out) := by
  have hyields : Yields (tasks i).session (doneBy i history) (.history (.ok out)) := by
    have hfollows : Follows (tasks i).session (doneBy i history) (ts i) := Shared.Run.follows h i
    rwa [hret] at hfollows
  rw [hi] at hyields
  obtain ⟨now, n, rows, hlt, hn, hrows, heq⟩ := history_of_yields_ok hyields
  exact ⟨now, heq ▸ List.mem_cons_self .., fun hnow =>
    analysedIn_of_doneBy h hdb hdated heq hlt hnow hn hrows⟩

end

/-! ## Two requests -/

/-- The first request to an empty store, of two. -/
def firstRequest : List (Bool × Executed) :=
  (beforeScan ++ scan [] :: [⟨.collect, .ok [readingOf false]⟩, ⟨.lock, .ok ()⟩,
    ⟨.insert (readingOf false), .ok ()⟩]).map (Prod.mk false)

theorem run_firstRequest : ∃ db ts, Run (Shared.Step Serves)
    (Db.empty, fun _ : Bool => Task.current.session) firstRequest (db, ts) ∧
      ts false = .ret (.current (.ok [readingOf false])) ∧ ts true = Task.current.session := by
  have hseq : Db.empty.seq < maxRowid := by decide
  obtain ⟨db, hdb⟩ := (insertSql_isOk_iff Db.empty (readingOf false).sensorName
    (readingOf false).temperatureC (toRfc3339 (readingOf false).recordedAt)).mpr ⟨nofun, hseq⟩
  have hscan : Serves Db.empty (scan []) Db.empty := .read
  exact ⟨db, _, .cons (.ask rfl .locked) (.cons (.ask rfl .prepared) (.cons (.ask rfl hscan)
    (.cons (.ask rfl .collected) (.cons (.ask rfl .locked)
      (.cons (.ask rfl (.inserted hdb)) .nil))))), rfl, rfl⟩

theorem current_inserts_first : ∃ db ts, Run (Shared.Step Serves)
    (Db.empty, fun _ : Bool => Task.current.session) firstRequest (db, ts) ∧
      ∃ pre post, firstRequest = pre ++ (false, scan []) :: post ∧
        inserts (pre.map Prod.snd) = [] := by
  obtain ⟨db, ts, hrun, -⟩ := run_firstRequest
  exact ⟨db, ts, hrun, (current_inserts (i := false) hrun rfl (List.cons_ne_nil _ _)).2⟩

/-- The second request finds the reading that the first one stored. -/
theorem exists_secondRequest {db : Db} {ts : Bool → Session Outcome} (hdb : db.WellTimed)
    (hne : db.rows ≠ []) (hts : ts true = Task.current.session) :
    ∃ (es : List Executed) (ts' : Bool → Session Outcome) (second : List SensorReading),
      Run (Shared.Step Serves) (db, ts) (es.map (Prod.mk true)) (db, ts') ∧
      ts' true = .ret (.current (.ok second)) ∧ (∀ x ∈ es, collected x = []) ∧ second ≠ [] := by
  obtain ⟨out, hout, hlatest⟩ := latestSensorReadings_spec hdb 512
  have hstored : db.stored ≠ [] := fun h => hne (List.map_eq_nil_iff.mp h)
  have hout' : out ≠ [] := hlatest.ne_nil (by decide) hstored
  obtain ⟨es, hyields, hobject⟩ := alone_session_current.mpr
    (alone_getCurrent.mpr ⟨_, _, getCurrent_stored hout hout' (.ok [])⟩)
  refine ⟨es, _, out, Shared.run_alone hyields hobject hts, Function.update_self .., ?_, hout'⟩
  obtain ⟨rows, recent, rest, rfl, -, hrest⟩ := current_of_yields_ok hyields
  rcases hrest with ⟨rfl, -⟩ | ⟨rfl, -⟩
  · intro x hx
    simp only [beforeScan, scan, List.cons_append, List.nil_append, List.mem_cons,
      List.not_mem_nil, or_false] at hx
    rcases hx with rfl | rfl | rfl <;> rfl
  · obtain ⟨s, t, hbefore, hread, -⟩ := hobject.split_cons
    obtain ⟨-, hrows⟩ := serves_recent hread
    cases hbefore with
    | cons h₁ hbefore =>
        cases hbefore with
        | cons h₂ hnil =>
            cases hnil
            cases h₁
            cases h₂
            exact absurd (rows_eq_nil_of_scan hrows.symm) hne

theorem dated_append_blind {before : List (Bool × Executed)} (h : Dated before)
    {es : List Executed} (hblind : ∀ x ∈ es, collected x = []) (i : Bool) :
    Dated (before ++ es.map (Prod.mk i)) := by
  intro x hx r hr
  rcases List.mem_append.mp hx with hx | hx
  · exact h x hx r hr
  · obtain ⟨y, hy, rfl⟩ := List.mem_map.mp hx
    rw [hblind y hy] at hr
    cases hr

theorem dated_firstRequest : Dated firstRequest := by
  intro x hx r hr
  have hreading : ∀ x ∈ firstRequest, collected x.2 ⊆ [readingOf false] := by
    simp [firstRequest, beforeScan, scan, collected]
  rw [List.mem_singleton.mp (hreading x hx hr)]
  decide

/-- Two requests to an empty store, one after the other. -/
theorem current_monotonic_two : ∃ dbMid db' tsMid ts after first second,
    Run (Shared.Step Serves) (Db.empty, fun _ : Bool => Task.current.session) firstRequest
      (dbMid, tsMid) ∧
    Run (Shared.Step Serves) (dbMid, tsMid) after (db', ts) ∧
    tsMid false = .ret (.current (.ok first)) ∧ ts true = .ret (.current (.ok second)) ∧
    first ≠ [] ∧ second ≠ [] ∧
    ∀ a ∈ first, ∀ b ∈ second, a.sensorName = b.sensorName → a.recordedAt ≤ b.recordedAt := by
  obtain ⟨db, ts, hrun, hfirst, hwaiting⟩ := run_firstRequest
  have happends := run_appends (Shared.Run.object hrun)
  have hwell : db.WellTimed := happends.wellTimed
    (dated_inserts hrun dated_firstRequest) Db.empty_wellTimed
  have hne : db.rows ≠ [] := fun h => List.cons_ne_nil _ _ (happends.rows_eq_iff.mp h)
  obtain ⟨es, ts', second, hrun', hsecond, hblind, hsecondNe⟩ :=
    exists_secondRequest hwell hne hwaiting
  exact ⟨db, db, ts, ts', _, _, second, hrun, hrun', hfirst, hsecond, List.cons_ne_nil _ _,
    hsecondNe, current_monotonic (i := false) (j := true) hrun hrun' Db.empty_wellTimed
      (dated_append_blind dated_firstRequest hblind true) rfl rfl rfl hfirst hsecond⟩

/-! ## After a tick -/

/-- A tick of the daemon and another task. -/
def tickAnd (task : Task) (i : Bool) : Task := if i then task else .tick

/-- The tick. -/
def oneTick : List (Bool × Executed) :=
  ([⟨.collect, .ok [readingOf false]⟩, ⟨.lock, .ok ()⟩,
    ⟨.insert (readingOf false), .ok ()⟩] : List Executed).map (Prod.mk false)

/-- The table that it leaves. -/
def tickedDb : Db := Db.empty.push "cpu" 40 (toRfc3339 default) (by decide)

theorem run_oneTick (task : Task) : ∃ ts, Run (Shared.Step Serves)
    (Db.empty, fun i => (tickAnd task i).session) oneTick (tickedDb, ts) ∧
      ts false = .ret (.tick (.stored 1)) ∧ ts true = task.session := by
  have hinsert : Serves Db.empty ⟨.insert (readingOf false), .ok ()⟩ tickedDb := .inserted rfl
  exact ⟨_, .cons (.ask rfl .collected) (.cons (.ask rfl .locked)
    (.cons (.ask rfl hinsert) .nil)), rfl, rfl⟩

theorem dated_oneTick : Dated oneTick := by
  intro x hx r hr
  have hreading : ∀ x ∈ oneTick, collected x.2 ⊆ [readingOf false] := by
    simp [oneTick, collected]
  rw [List.mem_singleton.mp (hreading x hx hr)]
  decide

theorem tickedDb_stored : tickedDb.WellTimed ∧ tickedDb.stored = [readingOf false] := by
  obtain ⟨ts, hrun, -⟩ := run_oneTick .tick
  have hdates := dated_inserts hrun dated_oneTick
  exact ⟨(run_appends (Shared.Run.object hrun)).wellTimed hdates Db.empty_wellTimed,
    run_stored (Shared.Run.object hrun) hdates⟩

theorem current_fresh_tick : ∃ ts after db' ts' readings,
    Run (Shared.Step Serves) (Db.empty, fun i => (tickAnd .current i).session) oneTick
      (tickedDb, ts) ∧
    Run (Shared.Step Serves) (tickedDb, ts) after (db', ts') ∧
    ts false = .ret (.tick (.stored 1)) ∧ ts' true = .ret (.current (.ok readings)) ∧
    ∃ x ∈ readings, x.sensorName = (readingOf false).sensorName ∧
      (readingOf false).recordedAt ≤ x.recordedAt := by
  obtain ⟨ts, hrun, hfirst, hwaiting⟩ := run_oneTick .current
  obtain ⟨hwell, hstored⟩ := tickedDb_stored
  obtain ⟨es, ts', readings, hrun', hsecond, hblind, -⟩ :=
    exists_secondRequest hwell (List.cons_ne_nil _ _) hwaiting
  have hdone : (Outcome.tick (.stored 1)).Succeeded := Or.inr ⟨1, rfl⟩
  refine ⟨ts, _, _, ts', readings, hrun, hrun', hfirst, hsecond, current_fresh (i := false)
    (j := true) hrun hrun' Db.empty_wellTimed (dated_append_blind dated_oneTick hblind true)
    trivial hdone hfirst rfl rfl hsecond _ (List.mem_singleton_self _) ?_⟩
  rw [hstored]
  exact List.countP_le_length.trans (by decide)

/-- A request for a day of history. -/
def dayQuery : HistoryQuery := ⟨none, some 24⟩

/-- An hour after the tick. -/
def hourLater : DateTime := DateTime.addSeconds default 3600

/-- What a request for the history after the tick executes. -/
def historyAfterTick (rows : List AggRow) : List Executed :=
  [⟨.now, hourLater⟩, ⟨.lock, .ok ()⟩,
    ⟨.count none (toRfc3339 (hourLater.subHours 24)) (toRfc3339 hourLater), .ok 1⟩,
    ⟨.prepare, .ok ()⟩,
    ⟨.aggregate none (toRfc3339 (hourLater.subHours 24)) (toRfc3339 hourLater), .ok rows⟩]

theorem yields_historyAfterTick {rows : List AggRow} {out : List AnalysisResult}
    (hrows : collectRows mapRow rows = .ok out) :
    Yields (Task.history dayQuery).session (historyAfterTick rows) (.history (.ok out)) := by
  have hyields : Yields (Task.history dayQuery).session (historyAfterTick rows)
      (.history ((collectRows mapRow rows).mapError mapStoreError)) :=
    .cons (.cons (.cons (.cons (.cons .nil))))
  rwa [hrows] at hyields

/-- The request finds the reading of the tick. -/
theorem history_analyses_ticked : ∃ rows ts out,
    Run (Shared.Step Serves) (Db.empty, fun i => (tickAnd (.history dayQuery) i).session)
      (oneTick ++ (historyAfterTick rows).map (Prod.mk true)) (tickedDb, ts) ∧
    ts true = .ret (.history (.ok out)) ∧ out ≠ [] ∧
    AnalysedIn Db.empty (oneTick ++ (historyAfterTick rows).map (Prod.mk true)) true none
      (hourLater.subHours 24) hourLater out := by
  obtain ⟨ts, hrun, -, hwaiting⟩ := run_oneTick (.history dayQuery)
  obtain ⟨hwell, hstored⟩ := tickedDb_stored
  have hlt : hourLater.subHours 24 < hourLater := by decide
  obtain ⟨out, hout, hanalyses⟩ := collectRows_analyzeSql hwell none hlt (by decide)
  have hlength : (windowRows tickedDb none (toRfc3339 (hourLater.subHours 24))
      (toRfc3339 hourLater)).length = 1 := by
    rw [length_windowRows hwell none hlt (by decide), hstored]
    decide
  rw [hstored] at hanalyses
  have hcount : Serves tickedDb ⟨.count none (toRfc3339 (hourLater.subHours 24))
      (toRfc3339 hourLater), .ok 1⟩ tickedDb := by
    rw [← hlength]
    exact .counted
  have hobject : Run Serves tickedDb (historyAfterTick _) tickedDb := .cons .told
    (.cons .locked (.cons hcount (.cons .prepared (.cons .aggregated .nil))))
  have hall := hrun.append (Shared.run_alone (yields_historyAfterTick hout) hobject hwaiting)
  have hdated : Dated (oneTick ++ (historyAfterTick (analyzeSql tickedDb none
      (toRfc3339 (hourLater.subHours 24)) (toRfc3339 hourLater))).map (Prod.mk true)) :=
    dated_append_blind dated_oneTick (by simp [historyAfterTick, collected]) true
  obtain ⟨now, hnow, hanalysed⟩ := history_analyses (i := true) (q := dayQuery) hall
    Db.empty_wellTimed hdated rfl (Function.update_self ..)
  obtain rfl : now = hourLater := by
    simpa [oneTick, historyAfterTick, doneBy] using hnow
  refine ⟨_, _, out, hall, Function.update_self .., ?_, hanalysed (by decide)⟩
  rintro rfl
  exact absurd (analyses_nil_iff.mp hanalyses) (by decide)

end Deployment

end Tempcheck
