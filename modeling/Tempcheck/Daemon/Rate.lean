import Tempcheck.Chrono.DateTime
import Tempcheck.Daemon.Trace

/-!
# The rate of the daemon

How many readings a run records in a stretch of time.  The ticker is due at multiples of its
period, and a tick moves it beyond the period that the tick is in (`Interval.Due.tick`).  So
no two ticks are in one period, however late they come.

`Timed` places the events of a run on a steady clock, the readings of a collection between
its tick and what follows.  From any state the readings up to a time are then paid for by the
periods that are left until it (`countP_le_budget`).  The readings of a window are those of
the ticks in its periods, and of one tick before it (`countP_window_le`).
-/

namespace Tempcheck

/-! ## Periods -/

/-- The period that a time is in, from the start of the ticker. -/
def slot (period startAt t : Nat) : Nat := (t - startAt) / period

theorem slot_mono {period startAt t u : Nat} (h : t ≤ u) :
    slot period startAt t ≤ slot period startAt u :=
  Nat.div_le_div_right (Nat.sub_le_sub_right h startAt)

/-- The periods that a stretch of time touches. -/
theorem slot_le_add {period : Nat} (hperiod : 0 < period) (startAt t width : Nat) :
    slot period startAt t ≤ slot period startAt (t - width) + width / period + 1 := by
  have hle : t - startAt ≤ (t - width - startAt) + width := by omega
  refine (Nat.div_le_div_right hle).trans ?_
  rw [Nat.add_div hperiod, slot]
  split
  · exact Nat.le_refl _
  · exact Nat.le_succ _

/-- The ticker is due at the start of a period. -/
structure Interval.Due (ticker : Interval) (period startAt m : Nat) : Prop where
  period_eq : ticker.period = period
  deadline_eq : ticker.deadline = startAt + m * period

/-- A tick is in a period that is due, and the next period is due then. -/
theorem Interval.Due.tick {ticker ticker' : Interval} {period startAt m now : Nat}
    (h : ticker.Due period startAt m) (htick : ticker.tick now = some ticker') :
    m ≤ slot period startAt now ∧
      ticker'.Due period startAt (slot period startAt now + 1) := by
  have hperiod : 0 < period := h.period_eq ▸ ticker.period_pos
  rw [Interval.tick] at htick
  split at htick
  next hdue =>
    cases htick
    rw [h.deadline_eq] at hdue
    have hslot : slot period startAt now = (now - (startAt + m * period)) / period + m := by
      rw [slot, ← Nat.add_mul_div_right _ _ hperiod]
      congr 1
      omega
    refine ⟨hslot ▸ Nat.le_add_left _ _, h.period_eq, ?_⟩
    simp only [h.deadline_eq, h.period_eq, hslot]
    ring
  next => cases htick

namespace Daemon

section

variable {φ : Type}

/-! ## Runs on a clock -/

/-- The events happen between two times, where `wall` is what the clock shows.  A tick is at
its time, and the readings of a collection are taken one after the other before it ends. -/
inductive Timed (wall : Nat → DateTime) : Nat → List (Event φ) → Nat → Prop where
  | done {t u : Nat} : t ≤ u → Timed wall t [] u
  | tick {t now u : Nat} {es : List (Event φ)} : t ≤ now → Timed wall now es u →
      Timed wall t (.tick now :: es) u
  | collect {t t' u : Nat} {readings : List SensorReading} {es : List (Event φ)} :
      (∀ r ∈ readings, ∃ v, t ≤ v ∧ v ≤ t' ∧ r.recordedAt = wall v) → t ≤ t' →
      Timed wall t' es u → Timed wall t (.collect (.ok readings) :: es) u
  | other {t u : Nat} {e : Event φ} {es : List (Event φ)} : e.isTick = false →
      e.batch? = none → Timed wall t es u → Timed wall t (e :: es) u

theorem batches_cons (e : Event φ) (es : List (Event φ)) :
    batches (e :: es) = e.batch?.toList ++ batches es := by
  rw [← List.singleton_append, batches_append, batches_singleton]

theorem flatten_batches_collect (readings : List SensorReading) (es : List (Event φ)) :
    (batches (.collect (.ok readings) :: es)).flatten = readings ++ (batches es).flatten := by
  rw [batches_cons, List.flatten_append]
  cases readings with
  | nil => rfl
  | cons r readings => simp [Event.batch?]

/-- The readings of a collection are counted, unless none of them is. -/
theorem countP_collect_of_none {p : SensorReading → Bool} {readings : List SensorReading}
    (h : ¬ ∃ r ∈ readings, p r = true) (es : List (Event φ)) :
    (batches (.collect (.ok readings) :: es)).flatten.countP p =
      (batches es).flatten.countP p := by
  have hnone : readings.countP p = 0 :=
    List.countP_eq_zero.mpr fun r hr hpr => h ⟨r, hr, hpr⟩
  rw [flatten_batches_collect, List.countP_append, hnone, Nat.zero_add]

/-- A collection takes at most its own share. -/
theorem countP_collect_le {p : SensorReading → Bool} {readings : List SensorReading} {s n : Nat}
    (hlength : readings.length ≤ s) {es : List (Event φ)}
    (hrest : (batches es).flatten.countP p ≤ s * n) :
    (batches (.collect (.ok readings) :: es)).flatten.countP p ≤ s * (n + 1) := by
  rw [flatten_batches_collect, List.countP_append, Nat.mul_add, Nat.mul_one, Nat.add_comm]
  exact Nat.add_le_add hrest (List.countP_le_length.trans hlength)

theorem batches_other {e : Event φ} (he : e.batch? = none) (es : List (Event φ)) :
    batches (e :: es) = batches es := by
  rw [batches_cons, he]
  rfl

end

variable {σ φ : Type} [TemperatureStore σ φ]

/-! ## The ticker along a run -/

theorem step_tick {d d' : Daemon σ} {now : Nat} (h : d.step (.tick (φ := φ) now) = some d') :
    d.phase = .selecting ∧ d'.phase = .collecting ∧ d.ticker.tick now = some d'.ticker := by
  cases step_cases h with
  | tick hphase htick => exact ⟨hphase, rfl, htick⟩

theorem step_collect {d d' : Daemon σ} {collected : Except CollectorError (List SensorReading)}
    (h : d.step (.collect (φ := φ) collected) = some d') :
    d.phase = .collecting ∧ d'.phase ≠ .collecting ∧ d'.ticker = d.ticker := by
  cases step_cases h with
  | collect hphase =>
      refine ⟨hphase, ?_, rfl⟩
      rcases collected with _ | _ | _ <;> exact Phase.noConfusion

/-- Only a tick moves the ticker and starts a collection. -/
theorem step_other {d d' : Daemon σ} {e : Event φ} (he : e.isTick = false)
    (h : d.step e = some d') :
    d'.ticker = d.ticker ∧ (d'.phase = .collecting → d.phase = .collecting) := by
  cases step_cases h with
  | tick _ _ => cases he
  | collect hphase => exact ⟨rfl, fun _ => hphase⟩
  | insert _ _ => exact ⟨rfl, nofun⟩
  | notified _ _ => exact ⟨rfl, nofun⟩
  | spin _ _ _ => exact ⟨rfl, nofun⟩
  | borrow _ =>
      refine ⟨rfl, fun hphase => ?_⟩
      rw [phase_goOn] at hphase
      split at hphase <;> cases hphase
  | send _ _ => exact ⟨rfl, id⟩
  | sendLate _ _ => exact ⟨rfl, id⟩
  | dropSender _ => exact ⟨rfl, id⟩

/-! ## Counting readings -/

/-- The collections that can still take readings until `hi`, in a state that is due in the
period `m` at the time `t`. -/
def budget (d : Daemon σ) (period startAt hi m t : Nat) : Nat :=
  if d.phase = .collecting then slot period startAt hi + 2 - m
  else slot period startAt hi + 1 - max m (slot period startAt t)

variable {wall : Nat → DateTime} {p : SensorReading → Bool} {period startAt lo hi s t u m : Nat}
  {es : List (Event φ)} {d d' : Daemon σ}

/-- The readings of a run until `hi` are paid for by the periods until then. -/
theorem countP_le_budget (hp : ∀ r v, r.recordedAt = wall v → p r = true → v ≤ hi)
    (htimed : Timed wall t es u) (hrun : RunsTo d es d')
    (hrate : ∀ readings, Event.collect (.ok readings) ∈ es → readings.length ≤ s)
    (hdue : d.ticker.Due period startAt m)
    (hm : d.phase = .collecting → m ≤ slot period startAt t + 1) :
    (batches es).flatten.countP p ≤ s * d.budget period startAt hi m t := by
  induction htimed generalizing d m with
  | done _ => exact Nat.zero_le _
  | @tick t now u es htick _ ih =>
      cases hrun with
      | cons hstep hrest =>
          obtain ⟨hphase, hphase', hticker⟩ := step_tick hstep
          obtain ⟨hslot, hdue'⟩ := hdue.tick hticker
          have hcount := ih hrest (fun readings h => hrate readings (List.mem_cons_of_mem _ h))
            hdue' fun _ => Nat.le_refl _
          have ht : slot period startAt t ≤ slot period startAt now := slot_mono htick
          refine hcount.trans (Nat.mul_le_mul_left s ?_)
          simp only [budget, hphase, hphase', if_true, reduceCtorEq, if_false]
          omega
  | @collect t t' u readings es htimes htt' _ ih =>
      cases hrun with
      | cons hstep hrest =>
          obtain ⟨hphase, hphase', hticker⟩ := step_collect hstep
          have hcount := ih hrest (fun readings h => hrate readings (List.mem_cons_of_mem _ h))
            (hticker ▸ hdue) fun h => absurd h hphase'
          rw [budget, if_neg hphase'] at hcount
          rw [budget, if_pos hphase]
          by_cases hany : ∃ r ∈ readings, p r = true
          · -- a reading until `hi` is taken, so the period of the tick is not later
            obtain ⟨r, hr, hpr⟩ := hany
            obtain ⟨v, htv, -, hat⟩ := htimes r hr
            have ht : slot period startAt t ≤ slot period startAt hi :=
              slot_mono (htv.trans (hp r v hat hpr))
            have hm := hm hphase
            have hpaid : slot period startAt hi + 2 - m = (slot period startAt hi + 1 - m) + 1 := by
              omega
            rw [hpaid]
            refine countP_collect_le (hrate readings (List.mem_cons_self ..))
              (hcount.trans (Nat.mul_le_mul_left s ?_))
            omega
          · rw [countP_collect_of_none hany]
            refine hcount.trans (Nat.mul_le_mul_left s ?_)
            omega
  | @other t u e es htick hbatch _ ih =>
      cases hrun with
      | cons hstep hrest =>
          obtain ⟨hticker, hphase⟩ := step_other htick hstep
          have hcount := ih hrest (fun readings h => hrate readings (List.mem_cons_of_mem _ h))
            (hticker ▸ hdue) fun h => hm (hphase h)
          rw [batches_other hbatch]
          refine hcount.trans (Nat.mul_le_mul_left s ?_)
          rw [budget, budget]
          split
          next hcollecting => rw [if_pos (hphase hcollecting)]
          next =>
            split
            · omega
            · exact Nat.le_refl _

/-- The readings of a window are those of its periods, and of one tick before it. -/
theorem countP_window_le (hp : ∀ r v, r.recordedAt = wall v → p r = true → lo ≤ v ∧ v ≤ hi)
    (htimed : Timed wall t es u) (hrun : RunsTo d es d')
    (hrate : ∀ readings, Event.collect (.ok readings) ∈ es → readings.length ≤ s)
    (hdue : d.ticker.Due period startAt m) :
    (batches es).flatten.countP p ≤
      s * (slot period startAt hi + 2 - slot period startAt lo) := by
  induction htimed generalizing d m with
  | done _ => exact Nat.zero_le _
  | @tick t now u es htick _ ih =>
      cases hrun with
      | cons hstep hrest =>
          obtain ⟨-, hdue'⟩ := hdue.tick (step_tick hstep).2.2
          exact ih hrest (fun readings h => hrate readings (List.mem_cons_of_mem _ h)) hdue'
  | @collect t t' u readings es htimes htt' htimed ih =>
      cases hrun with
      | cons hstep hrest =>
          obtain ⟨-, hphase', hticker⟩ := step_collect hstep
          have hrate' : ∀ readings, Event.collect (.ok readings) ∈ es → readings.length ≤ s :=
            fun readings h => hrate readings (List.mem_cons_of_mem _ h)
          by_cases hany : ∃ r ∈ readings, p r = true
          · -- what follows is in the window or after it
            obtain ⟨r, hr, hpr⟩ := hany
            obtain ⟨v, -, hvt', hat⟩ := htimes r hr
            obtain ⟨hlo, hhi⟩ := hp r v hat hpr
            have hafter := countP_le_budget (fun r v hat hpr => (hp r v hat hpr).2) htimed hrest
              hrate' (hticker ▸ hdue) fun h => absurd h hphase'
            have hslot : slot period startAt lo ≤ slot period startAt t' :=
              slot_mono (hlo.trans hvt')
            have hle : slot period startAt lo ≤ slot period startAt hi :=
              slot_mono (hlo.trans hhi)
            have hpaid : slot period startAt hi + 2 - slot period startAt lo =
                (slot period startAt hi + 1 - slot period startAt lo) + 1 := by omega
            rw [budget, if_neg hphase'] at hafter
            rw [hpaid]
            refine countP_collect_le (hrate readings (List.mem_cons_self ..))
              (hafter.trans (Nat.mul_le_mul_left s ?_))
            omega
          · rw [countP_collect_of_none hany]
            exact ih hrest hrate' (hticker ▸ hdue)
  | @other t u e es htick hbatch _ ih =>
      cases hrun with
      | cons hstep hrest =>
          rw [batches_other hbatch]
          exact ih hrest (fun readings h => hrate readings (List.mem_cons_of_mem _ h))
            ((step_other htick hstep).1 ▸ hdue)

end Daemon

end Tempcheck
