import Tempcheck.Config
import Tempcheck.Daemon.Rate
import Tempcheck.Web.Latest

/-!
# The history of the daemon's readings

What the history page answers from a table that only the daemon has written.  A run whose
calls succeed leaves its batches in the table (`Daemon.appends_calls`), so the page answers
with the readings of its window exactly if they are not more than the row limit.  The hours
that the page admits do not bound them: at the default interval a single sensor passes the
limit in less than four days (`history_refused`).

On a steady clock the number of readings per tick, the interval and the hours give a bound
(`Daemon.countP_window_le`), and with it a condition that is known beforehand
(`history_of_daemon`).
-/

namespace Tempcheck

open Transition (Run)

theorem nanosPerSec_pos : 0 < nanosPerSec := by decide

/-- The ticker of the daemon at its configured interval. -/
def Config.ticker (config : Config) (startAt : Nat) : Interval :=
  .every (config.interval * nanosPerSec) startAt (Nat.mul_pos config.interval_pos nanosPerSec_pos)

/-- What a steady clock shows. -/
def steadyClock (epoch : Int) (t : Nat) : DateTime := .ofNanos (epoch + t)

section

variable [Chrono]

/-! ## The table -/

/-- A run whose calls succeed appends the batches that were stored. -/
theorem Daemon.appends_calls {ticker : Interval} {db : Db} {es : List (Daemon.Event Faults)}
    {d : Daemon Db} (hrun : Daemon.RunsTo (.start ticker db) es d) :
    (∀ call ∈ d.calls, ∃ n, call.2 = .ok n) →
      Appends db d.store (d.calls.map Prod.fst).flatten := by
  refine hrun.invariant (P := fun d => (∀ call ∈ d.calls, ∃ n, call.2 = .ok n) →
    Appends db d.store (d.calls.map Prod.fst).flatten) ?_ fun _ => Appends.refl db
  intro d e d' ih hstep hok
  rcases (Daemon.step_cases hstep).store_cases with
    ⟨hsame, hcalls⟩ | ⟨io, readings, result, hinsert, hcalls⟩
  · rw [hsame, hcalls]
    exact ih (hcalls ▸ hok)
  · rw [hcalls, List.forall_mem_append, List.forall_mem_singleton] at hok
    obtain ⟨hearlier, n, rfl⟩ := hok
    rw [hcalls, List.map_append, List.flatten_append]
    have hlast := (insertReadings_ok hinsert).2
    exact (ih hearlier).trans (by simpa using hlast)

/-- The table of such a run has the readings of its calls. -/
theorem Daemon.stored_calls {ticker : Interval} {es : List (Daemon.Event Faults)} {d : Daemon Db}
    (hrun : Daemon.RunsTo (.start ticker Db.empty) es d)
    (hstored : ∀ call ∈ d.calls, ∃ n, call.2 = .ok n)
    (hyears : ∀ r ∈ (d.calls.map Prod.fst).flatten, r.recordedAt.FourDigitYear) :
    d.store.stored = (d.calls.map Prod.fst).flatten ∧ d.store.WellTimed := by
  have happ := Daemon.appends_calls hrun hstored
  exact ⟨happ.stored hyears, happ.wellTimed hyears Db.empty_wellTimed⟩

/-! ## The window -/

omit [Chrono] in
/-- The readings of a window of whole hours on a steady clock. -/
theorem mem_hours_iff {epoch : Int} {hours : Int} (hhours : 0 < hours) {q v : Nat} :
    ((steadyClock epoch q).subHours hours ≤ steadyClock epoch v ∧
      steadyClock epoch v ≤ steadyClock epoch q) ↔
        q - hours.toNat * 3600 * nanosPerSec ≤ v ∧ v ≤ q := by
  rw [steadyClock, steadyClock, DateTime.subHours_ofNanos _ hhours, DateTime.ofNanos_le_iff,
    DateTime.ofNanos_le_iff]
  simp only [nanosPerSec]
  omega

omit [Chrono] in
theorem Config.ticker_due (config : Config) (startAt : Nat) :
    (config.ticker startAt).Due (config.interval * nanosPerSec) startAt 0 :=
  ⟨rfl, by rw [Nat.zero_mul, Nat.add_zero]; rfl⟩

omit [Chrono] in
/-- The readings of the calls are among those of the batches. -/
theorem Daemon.countP_calls_le {σ φ : Type} [TemperatureStore σ φ] {ticker : Interval} {store : σ}
    {es : List (Daemon.Event φ)} {d : Daemon σ} (hrun : Daemon.RunsTo (.start ticker store) es d)
    (p : SensorReading → Bool) :
    (d.calls.map Prod.fst).flatten.countP p ≤ (Daemon.batches es).flatten.countP p := by
  rw [← Daemon.calls_eq_batches hrun, List.flatten_append, List.countP_append]
  exact Nat.le_add_right _ _

omit [Chrono] in
/-- The calls of a run on a steady clock have few readings of the last hours. -/
theorem Daemon.length_hours_le {σ φ : Type} [TemperatureStore σ φ] {config : Config}
    {startAt q s : Nat} {epoch hours : Int} {store : σ} {es : List (Daemon.Event φ)} {d : Daemon σ}
    (hrun : Daemon.RunsTo (.start (config.ticker startAt) store) es d)
    (hrate : ∀ readings, Daemon.Event.collect (.ok readings) ∈ es → readings.length ≤ s)
    (htimed : Daemon.Timed (steadyClock epoch) startAt es q) (hhours : 0 < hours) :
    (inWindow (d.calls.map Prod.fst).flatten none ((steadyClock epoch q).subHours hours)
      (steadyClock epoch q)).length ≤ s * (hours.toNat * 3600 / config.interval + 3) := by
  rw [inWindow, ← List.countP_eq_length_filter]
  refine (Daemon.countP_calls_le hrun _).trans ?_
  have hperiod : 0 < config.interval * nanosPerSec :=
    Nat.mul_pos config.interval_pos nanosPerSec_pos
  have hpasses : ∀ (r : SensorReading) v, r.recordedAt = steadyClock epoch v →
      (passes none r.sensorName && ((steadyClock epoch q).subHours hours ≤ r.recordedAt &&
        r.recordedAt ≤ steadyClock epoch q)) = true →
      q - hours.toNat * 3600 * nanosPerSec ≤ v ∧ v ≤ q := by
    intro r v hat hpasses
    simp only [passes, Bool.true_and, Bool.and_eq_true, decide_eq_true_eq, hat] at hpasses
    exact (mem_hours_iff hhours).mp hpasses
  have hcount := Daemon.countP_window_le hpasses htimed hrun hrate (config.ticker_due startAt)
  refine hcount.trans (Nat.mul_le_mul_left s ?_)
  have hslots := slot_le_add hperiod startAt q (hours.toNat * 3600 * nanosPerSec)
  rw [Nat.mul_div_mul_right _ _ nanosPerSec_pos] at hslots
  generalize hours.toNat * 3600 / config.interval = w at hslots ⊢
  omega

end

/-! ## A steady run -/

/-- The new year of 2024. -/
def steadyStart : Int := 738885 * 86400 * nanosPerSec

/-- What one sensor shows at a time. -/
def steadyReading (t : Nat) : SensorReading :=
  ⟨"cpu", .exact 40, steadyClock steadyStart t⟩

/-- The daemon at the default interval. -/
def steadyConfig : Config :=
  ⟨"temps.db", defaultIntervalSecs, none, defaultWebHost, defaultWebPort, defaultIntervalSecs_pos⟩

theorem steadyConfig_fromCli : Config.fromCli (.daemon "temps.db" 30) = .ok steadyConfig := rfl

/-- `n` ticks in time, from the `k`th on, each of which stores one reading. -/
def steadyRun (period : Nat) : Nat → Nat → List (Daemon.Event Faults)
  | _, 0 => []
  | k, n + 1 =>
      .tick (k * period) :: .collect (.ok [steadyReading (k * period)]) :: .insert Faults.none ::
        steadyRun period (k + 1) n

theorem steadyRun_timed (period : Nat) : ∀ (n : Nat) {k t u : Nat}, t ≤ k * period →
    (k + n) * period ≤ u → Daemon.Timed (steadyClock steadyStart) t (steadyRun period k n) u
  | 0, _, _, _, ht, hu => .done (ht.trans hu)
  | n + 1, k, t, u, ht, hu => by
      have hnext : k * period ≤ (k + 1) * period := Nat.mul_le_mul_right period (Nat.le_succ k)
      have hlast : (k + 1 + n) * period ≤ u := by rwa [Nat.add_right_comm, Nat.add_assoc]
      refine .tick ht (.collect ?_ hnext (.other rfl rfl (steadyRun_timed period n le_rfl hlast)))
      intro r hr
      rw [List.mem_singleton.mp hr]
      exact ⟨k * period, le_rfl, hnext, rfl⟩

theorem steadyRun_rate {period : Nat} : ∀ (n : Nat) {k : Nat}
    {collected : Except CollectorError (List SensorReading)},
    Daemon.Event.collect collected ∈ steadyRun period k n →
      ∃ readings, collected = .ok readings ∧ readings.length = 1
  | n + 1, k, collected, h => by
      simp only [steadyRun, List.mem_cons, reduceCtorEq, false_or, Daemon.Event.collect.injEq] at h
      rcases h with rfl | h
      · exact ⟨_, rfl, rfl⟩
      · exact steadyRun_rate n h

/-- A steady run can happen, and each of its calls succeeds. -/
theorem steadyRun_runs [Chrono] {period : Nat} (hperiod : 0 < period) : ∀ (n : Nat) {k : Nat}
    {d : Daemon Db}, d.phase = .selecting → d.ticker.Due period 0 k →
    d.store.seq + n ≤ maxRowid →
    ∃ d', Daemon.RunsTo d (steadyRun period k n) d' ∧ d'.calls =
      d.calls ++ (List.range' k n).map fun j => ([steadyReading (j * period)], .ok 1)
  | 0, _, d, _, _, _ => ⟨d, .nil, (List.append_nil _).symm⟩
  | n + 1, k, d, hphase, hdue, hseq => by
      obtain ⟨ticker, htick⟩ : ∃ ticker, d.ticker.tick (k * period) = some ticker := by
        refine ⟨_, if_pos ?_⟩
        rw [hdue.deadline_eq, Nat.zero_add]
      have hdue' := (hdue.tick htick).2
      rw [slot, Nat.sub_zero, Nat.mul_div_cancel k hperiod] at hdue'
      have hfits : d.store.Fits [steadyReading (k * period)] := by
        refine ⟨fun r hr => List.mem_singleton.mp hr ▸ F64.noConfusion, ?_⟩
        rw [List.length_singleton]
        omega
      obtain ⟨store, hinsert⟩ := insertReadings_isOk_iff.mpr hfits
      have hseq' : store.seq = d.store.seq + 1 := (insertReadings_ok hinsert).2.1
      let d₁ : Daemon Db := { d with phase := .collecting, ticker := ticker }
      let d₂ : Daemon Db := d₁.goOn (.storing [steadyReading (k * period)])
      let d₃ : Daemon Db := { d₂ with
        store := store
        calls := d.calls ++ [([steadyReading (k * period)], Except.ok 1)] }.goOn .selecting
      have hfirst : d.step (.tick (k * period)) = some d₁ := by
        simp only [Daemon.step, hphase, htick, Option.map_some, d₁]
      have hsecond : d₁.step (.collect (.ok [steadyReading (k * period)])) = some d₂ := rfl
      have hthird : d₂.step (.insert Faults.none) = some d₃ := by
        have hcall : TemperatureStore.insertReadings Faults.none d₂.store
          [steadyReading (k * period)] = (store, .ok 1) := hinsert
        simp only [Daemon.step, d₃, d₂, Daemon.phase_goOn, hcall]
        rfl
      obtain ⟨d', hrun, hcalls⟩ := steadyRun_runs hperiod n (k := k + 1) (d := d₃) rfl hdue'
        (by rw [Daemon.store_goOn, hseq']; omega)
      refine ⟨d', .cons hfirst (.cons hsecond (.cons hthird hrun)), ?_⟩
      rw [hcalls, List.range'_succ, List.map_cons, Daemon.calls_goOn, List.append_assoc]
      rfl

theorem steadyClock_fourDigitYear {t : Nat} (h : t ≤ 720 * 3600 * nanosPerSec) :
    (steadyClock steadyStart t).FourDigitYear := by
  have hfirst : (DateTime.ofNanos steadyStart).year = 2024 := by decide +kernel
  have hlast : (DateTime.ofNanos (steadyStart + 720 * 3600 * nanosPerSec)).year = 2024 := by
    decide +kernel
  have hlower : DateTime.ofNanos steadyStart ≤ steadyClock steadyStart t :=
    DateTime.ofNanos_le_iff.mpr (by omega)
  have hupper : steadyClock steadyStart t ≤
      DateTime.ofNanos (steadyStart + 720 * 3600 * nanosPerSec) :=
    DateTime.ofNanos_le_iff.mpr (by omega)
  have h₁ := DateTime.year_mono hlower
  have h₂ := DateTime.year_mono hupper
  exact ⟨by omega, by omega⟩

/-- The daemon after `n` ticks at its default interval. -/
theorem steadyRun_stored {n : Nat} (hn : n ≤ maxRowid) : ∃ d : Daemon Db,
    Daemon.RunsTo (.start (steadyConfig.ticker 0) Db.empty)
      (steadyRun (30 * nanosPerSec) 0 n) d ∧
    (∀ call ∈ d.calls, ∃ n, call.2 = .ok n) ∧
    (d.calls.map Prod.fst).flatten =
      (List.range n).map fun j => steadyReading (j * (30 * nanosPerSec)) := by
  obtain ⟨d, hrun, hcalls⟩ := steadyRun_runs (show 0 < 30 * nanosPerSec by decide) n
    (d := .start (steadyConfig.ticker 0) Db.empty) rfl (steadyConfig.ticker_due 0)
    (by rw [show (Daemon.start (steadyConfig.ticker 0) Db.empty).store.seq = 0 from rfl]; omega)
  rw [show (Daemon.start (steadyConfig.ticker 0) Db.empty).calls = [] from rfl, List.nil_append,
    ← List.range_eq_range'] at hcalls
  refine ⟨d, hrun, fun call hcall => ?_, ?_⟩
  · rw [hcalls] at hcall
    obtain ⟨j, -, rfl⟩ := List.mem_map.mp hcall
    exact ⟨1, rfl⟩
  · rw [hcalls, List.map_map, ← List.flatMap_def, List.map_eq_flatMap]
    rfl

theorem steadyRun_years {n : Nat} (hn : n * (30 * nanosPerSec) ≤ 720 * 3600 * nanosPerSec) :
    ∀ r ∈ (List.range n).map fun j => steadyReading (j * (30 * nanosPerSec)),
      r.recordedAt.FourDigitYear := by
  intro r hr
  obtain ⟨j, hj, rfl⟩ := List.mem_map.mp hr
  have hle : j * (30 * nanosPerSec) ≤ n * (30 * nanosPerSec) :=
    Nat.mul_le_mul_right _ (List.mem_range.mp hj).le
  exact steadyClock_fourDigitYear (hle.trans hn)

/-- All readings of a steady run of less than thirty days are in its last thirty days. -/
theorem steadyRun_window {n : Nat} (hn : n * (30 * nanosPerSec) ≤ 720 * 3600 * nanosPerSec) :
    (inWindow ((List.range n).map fun j => steadyReading (j * (30 * nanosPerSec))) none
      ((steadyClock steadyStart (n * (30 * nanosPerSec))).subHours 720)
      (steadyClock steadyStart (n * (30 * nanosPerSec)))).length = n := by
  rw [inWindow, ← List.countP_eq_length_filter, List.countP_eq_length.mpr, List.length_map,
    List.length_range]
  intro r hr
  obtain ⟨j, hj, rfl⟩ := List.mem_map.mp hr
  have hle : j * (30 * nanosPerSec) ≤ n * (30 * nanosPerSec) :=
    Nat.mul_le_mul_right _ (List.mem_range.mp hj).le
  simp only [passes, Bool.true_and, Bool.and_eq_true, decide_eq_true_eq]
  refine (mem_hours_iff (show (0 : Int) < 720 by decide)).mpr ⟨?_, hle⟩
  rw [show Int.toNat 720 = 720 from rfl]
  omega

/-! ## The history -/

/-- The hours that the page admits do not bound the readings of a run. -/
theorem history_refused : ¬ ∀ (db : String) (intervalSecs : UInt64) (config : Config)
    (s startAt q : Nat) (epoch : Int) (es : List (Daemon.Event Faults)) (d : Daemon Db)
    (query : HistoryQuery), 1 ≤ s → defaultIntervalSecs ≤ intervalSecs.toNat →
    Config.fromCli (.daemon db intervalSecs) = .ok config →
    Daemon.RunsTo (.start (config.ticker startAt) Db.empty) es d →
    (∀ collected, Daemon.Event.collect collected ∈ es →
      ∃ readings, collected = .ok readings ∧ readings.length = s) →
    (∀ call ∈ d.calls, ∃ n, call.2 = .ok n) →
    (∀ r ∈ (d.calls.map Prod.fst).flatten, r.recordedAt.FourDigitYear) →
    Daemon.Timed (steadyClock epoch) startAt es q → (steadyClock epoch q).FourDigitYear →
    query.sensor = none → 1 ≤ query.hours.getD 24 ∧ query.hours.getD 24 ≤ 24 * 30 →
    ∃ out, getHistory Faults.none d.store (steadyClock epoch q) query = .ok out := by
  intro hclaim
  have hdays : 10001 * (30 * nanosPerSec) ≤ 720 * 3600 * nanosPerSec := by decide
  have hhours : 1 ≤ (HistoryQuery.mk none (some 720)).hours.getD 24 ∧
      (HistoryQuery.mk none (some 720)).hours.getD 24 ≤ 24 * 30 := by decide
  obtain ⟨d, hrun, hok, hreadings⟩ := steadyRun_stored (n := 10001) (by decide)
  have hyears : ∀ r ∈ (d.calls.map Prod.fst).flatten, r.recordedAt.FourDigitYear := by
    rw [hreadings]
    exact steadyRun_years hdays
  have hnow := steadyClock_fourDigitYear hdays
  have htimed : Daemon.Timed (steadyClock steadyStart) 0 (steadyRun (30 * nanosPerSec) 0 10001)
      (10001 * (30 * nanosPerSec)) :=
    steadyRun_timed _ _ (Nat.zero_le _) (by rw [Nat.zero_add])
  obtain ⟨out, hout⟩ := hclaim "temps.db" 30 steadyConfig 1 0 _ steadyStart _ d ⟨none, some 720⟩
    le_rfl (by decide) steadyConfig_fromCli hrun (fun _ => steadyRun_rate _) hok hyears htimed hnow
    rfl hhours
  obtain ⟨hstored, hdb⟩ := Daemon.stored_calls hrun hok hyears
  rcases getHistory_stored hdb hnow hhours with
    ⟨-, herror⟩ | ⟨hfew, -⟩
  · rw [herror] at hout
    cases hout
  · rw [hstored, hreadings, Option.getD_some] at hfew
    change (inWindow _ none _ _).length ≤ maxAnalysisRows at hfew
    rw [steadyRun_window hdays] at hfew
    exact Nat.not_succ_le_self maxAnalysisRows hfew

section

variable [Chrono] [Sqlite]

/-- The history after a run of the daemon whose calls succeeded, as the only writer.  It has
the readings of the window exactly if these are not more than the row limit, which is so on a
steady clock if the ticks of the window cannot take more. -/
theorem history_of_daemon {db : String} {intervalSecs : UInt64} {config : Config}
    (hconfig : Config.fromCli (.daemon db intervalSecs) = .ok config) {startAt s : Nat}
    {es : List (Daemon.Event Faults)} {d : Daemon Db}
    (hrun : Daemon.RunsTo (.start (config.ticker startAt) Db.empty) es d)
    (hrate : ∀ collected, Daemon.Event.collect collected ∈ es →
      ∃ readings, collected = .ok readings ∧ readings.length = s)
    (hstored : ∀ call ∈ d.calls, ∃ n, call.2 = .ok n)
    (hyears : ∀ r ∈ (d.calls.map Prod.fst).flatten, r.recordedAt.FourDigitYear)
    {now : DateTime} (hnow : now.FourDigitYear) {query : HistoryQuery}
    (hsensor : query.sensor = none)
    (hhours : 1 ≤ query.hours.getD 24 ∧ query.hours.getD 24 ≤ 24 * 30) :
    let window := inWindow (d.calls.map Prod.fst).flatten none
      (now.subHours (query.hours.getD 24)) now
    (window.length ≤ maxAnalysisRows →
      ∃ out, getHistory Faults.none d.store now query = .ok out ∧ Analyses out window) ∧
    (maxAnalysisRows < window.length → getHistory Faults.none d.store now query =
      .error (.badRequest "row limit exceeded (max 10000)")) ∧
    ∀ epoch q, Daemon.Timed (steadyClock epoch) startAt es q → now = steadyClock epoch q →
      s * ((query.hours.getD 24).toNat * 3600 / intervalSecs.toNat + 3) ≤ maxAnalysisRows →
      window.length ≤ maxAnalysisRows := by
  intro window
  obtain ⟨hreadings, hdb⟩ := Daemon.stored_calls hrun hstored hyears
  have hanswer := getHistory_stored hdb hnow hhours
  rw [hreadings, hsensor] at hanswer
  refine ⟨fun hfew => ?_, fun hmany => ?_, ?_⟩
  · rcases hanswer with ⟨hmany, -⟩ | ⟨-, hout⟩
    · exact absurd hfew (not_le.mpr hmany)
    · exact hout
  · rcases hanswer with ⟨-, herror⟩ | ⟨hfew, -⟩
    · exact herror
    · exact absurd hfew (not_le.mpr hmany)
  · rintro epoch q htimed rfl hlimit
    rw [← Config.fromCli_daemon hconfig] at hlimit
    refine (Daemon.length_hours_le hrun (fun readings hmem => ?_) htimed
      (Int.lt_of_lt_of_le Int.zero_lt_one hhours.1)).trans hlimit
    obtain ⟨_, heq, hlength⟩ := hrate _ hmem
    cases heq
    exact hlength.le

end

/-- The history of the first minute of a steady run. -/
theorem history_of_daemon_steady : ∃ d : Daemon Db, ∃ out,
    Daemon.RunsTo (.start (steadyConfig.ticker 0) Db.empty)
      (steadyRun (30 * nanosPerSec) 0 2) d ∧
    getHistory Faults.none d.store (steadyClock steadyStart (2 * (30 * nanosPerSec)))
      ⟨none, none⟩ = .ok out ∧
    Analyses out (inWindow (d.calls.map Prod.fst).flatten none
      ((steadyClock steadyStart (2 * (30 * nanosPerSec))).subHours 24)
      (steadyClock steadyStart (2 * (30 * nanosPerSec)))) := by
  have hdays : 2 * (30 * nanosPerSec) ≤ 720 * 3600 * nanosPerSec := by decide
  have hhours : 1 ≤ (HistoryQuery.mk none none).hours.getD 24 ∧
      (HistoryQuery.mk none none).hours.getD 24 ≤ 24 * 30 := by decide
  obtain ⟨d, hrun, hok, hreadings⟩ := steadyRun_stored (n := 2) (by decide)
  obtain ⟨hanswer, -, hlimit⟩ := history_of_daemon steadyConfig_fromCli hrun
    (s := 1) (fun _ => steadyRun_rate _) hok (hreadings ▸ steadyRun_years hdays)
    (steadyClock_fourDigitYear hdays) rfl hhours
  obtain ⟨out, hout, hspec⟩ := hanswer (hlimit steadyStart _
    (steadyRun_timed _ _ (Nat.zero_le _) (by rw [Nat.zero_add])) rfl (by decide))
  exact ⟨d, out, hrun, hout, hspec⟩

end Tempcheck
