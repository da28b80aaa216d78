import Tempcheck.Daemon.Trace

/-!
# Passes of the daemon's loop

Every pass through the loop should be owed to a tick or to a value on the shutdown channel.
The unread values and the pass under way are what is left of them, so the bound is a
potential that no event but one increases (`iterations_le`).

The one is a change notification of a channel whose sender is gone.  It is always ready and
changes nothing, so from then on the loop turns as often as it likes (`spin_replicate`).  It
cannot happen while a `true` is unread, as `true` is the last value that is read.  Hence the
owner of the channel decides: the bound holds in all runs with an owner exactly if that
owner drops the sender only after a last `true` (`iterations_le_iff`).
-/

namespace Tempcheck

open Transition (Run)

namespace Daemon

section

variable {φ : Type}

/-- The owner sends a value. -/
def Event.isSend : Event φ → Bool
  | .send _ => true
  | _ => false

/-- The event is one of the shutdown branch of the loop. -/
def Event.ofLoop : Event φ → Bool
  | .changed => true
  | .borrow => true
  | _ => false

theorem Event.ofLoop_spec (e : Event φ) (h : e.ofLoop = true) :
    e.isOwner = false ∧ e.isTick = false ∧ e.isSend = false := by
  cases e with
  | changed => exact ⟨rfl, rfl, rfl⟩
  | borrow => exact ⟨rfl, rfl, rfl⟩
  | tick now => cases h
  | collect collected => cases h
  | insert io => cases h
  | send value => cases h
  | dropSender => cases h

theorem Event.isSend_spec (e : Event φ) (h : e.isSend = true) :
    e.isOwner = true ∧ e.isTick = false := by
  cases e with
  | send value => exact ⟨rfl, rfl⟩
  | tick now => cases h
  | collect collected => cases h
  | insert io => cases h
  | changed => cases h
  | borrow => cases h
  | dropSender => cases h

/-- Only the owner changes the value of the channel. -/
theorem lastSent_filter (es : List (Event φ)) :
    lastSent (es.filter Event.isOwner) = lastSent es := by
  induction es using List.reverseRecOn with
  | nil => rfl
  | append_singleton es e ih =>
      rw [List.filter_append, lastSent_concat]
      cases e with
      | send value => exact lastSent_concat _ _
      | dropSender => exact (lastSent_concat _ _).trans ih
      | tick now => simpa [Event.isOwner] using ih
      | collect collected => simpa [Event.isOwner] using ih
      | insert io => simpa [Event.isOwner] using ih
      | changed => simpa [Event.isOwner] using ih
      | borrow => simpa [Event.isOwner] using ih

end

variable {σ φ : Type} [TemperatureStore σ φ] {ticker : Interval} {store : σ}
  {es : List (Event φ)} {d : Daemon σ}

/-! ## The bound -/

/-- A `true` in the channel is unread, or about to be read. -/
theorem unread_of_value (h : RunsTo (start ticker store) es d) :
    d.shutdown.value = true → d.phase ≠ .exited → d.phase ≠ .notified →
      0 < d.shutdown.unread := by
  refine h.invariant (P := fun d => d.shutdown.value = true → d.phase ≠ .exited →
    d.phase ≠ .notified → 0 < d.shutdown.unread) ?_ (nomatch ·)
  intro d e d' ih hstep hvalue hexited hnotified
  cases step_cases hstep with
  | tick hphase _ => exact ih hvalue (by simp [hphase]) (by simp [hphase])
  | collect hphase => exact ih hvalue (by simp [hphase]) (by simp [hphase])
  | insert hphase _ => exact ih hvalue (by simp [hphase]) (by simp [hphase])
  | notified _ _ => exact absurd rfl hnotified
  | spin hphase _ _ => exact ih hvalue (by simp [hphase]) (by simp [hphase])
  | borrow hphase =>
      rw [shutdown_goOn] at hvalue
      exact absurd (by rw [phase_goOn, if_pos hvalue]) hexited
  | send _ _ => simp
  | sendLate _ hphase => exact absurd hphase hexited
  | dropSender _ => exact ih hvalue hexited hnotified

/-- A sender that is dropped only after a last `true` leaves it in the channel. -/
theorem value_of_closed (h : RunsTo (start ticker store) es d) :
    (∀ pre post, es = pre ++ .dropSender :: post → lastSent pre = true) →
      d.phase ≠ .exited → d.shutdown.closed = true → d.shutdown.value = true := by
  refine h.trace_invariant (P := fun es d =>
    (∀ pre post, es = pre ++ .dropSender :: post → lastSent pre = true) →
      d.phase ≠ .exited → d.shutdown.closed = true → d.shutdown.value = true) ?_
    fun _ _ h => nomatch h
  intro es d e d' hrun ih hstep hdrop hexited hclosed
  have ih := ih fun pre post he => hdrop pre (post ++ [e]) (by rw [he, List.append_assoc]; rfl)
  cases step_cases hstep with
  | tick hphase _ => exact ih (by simp [hphase]) hclosed
  | collect hphase => exact ih (by simp [hphase]) hclosed
  | insert hphase _ => exact ih (by simp [hphase]) hclosed
  | notified hphase _ => exact ih (by simp [hphase]) hclosed
  | spin hphase _ _ => exact ih (by simp [hphase]) hclosed
  | borrow hphase => exact ih (by simp [hphase]) hclosed
  | send hopen _ => exact absurd (hopen.symm.trans hclosed) Bool.false_ne_true
  | sendLate hopen _ => exact absurd (hopen.symm.trans hclosed) Bool.false_ne_true
  | dropSender _ => exact (value_eq_lastSent hrun hexited).trans (hdrop es [] rfl)

/-- The pass under way, which a tick or a value has paid for. -/
def underWay (d : Daemon σ) : Nat := if d.phase = .selecting then 0 else 1

omit [TemperatureStore σ φ] in
theorem iterations_goOn (d : Daemon σ) (phase : Phase) :
    (d.goOn phase).iterations + (d.goOn phase).underWay = d.iterations + 1 := by
  rw [underWay, goOn]
  by_cases h : phase = .selecting
  · simp [h]
  · simp [h]

/-- One event pays for what it adds, unless it is the notification of a closed channel. -/
theorem Step.potential_le {d d' : Daemon σ} {e : Event φ} (h : Step d e d')
    (hspin : d.phase = .selecting → d.shutdown.closed = true → 0 < d.shutdown.unread) :
    d'.iterations + d'.underWay + d'.shutdown.unread ≤
      d.iterations + d.underWay + d.shutdown.unread +
        ((if e.isTick then 1 else 0) + if e.isSend then 1 else 0) := by
  cases h with
  | tick hphase _ => simp [underWay, hphase, Event.isTick, Event.isSend]; omega
  | collect hphase =>
      rw [iterations_goOn, shutdown_goOn]
      simp [underWay, hphase]
  | insert hphase _ =>
      rw [iterations_goOn, shutdown_goOn]
      simp [underWay, hphase]
  | notified hphase hunread =>
      simp [underWay, hphase]
      omega
  | spin hphase hunread hclosed => exact absurd (hspin hphase hclosed) (by simp [hunread])
  | borrow hphase =>
      rw [iterations_goOn, shutdown_goOn]
      simp [underWay, hphase]
  | send _ _ =>
      rw [Watch.unread_send]
      simp [underWay, Event.isTick, Event.isSend, Nat.add_assoc]
  | sendLate _ _ => exact Nat.le_add_right _ _
  | dropSender _ => exact Nat.le_add_right _ _

/-- If the sender is dropped only after a last `true`, every pass but the first is paid
for. -/
theorem iterations_le (h : RunsTo (start ticker store) es d)
    (hdrop : ∀ pre post, es = pre ++ .dropSender :: post → lastSent pre = true) :
    d.iterations + d.underWay + d.shutdown.unread ≤
      es.countP Event.isTick + es.countP Event.isSend + 1 := by
  refine h.trace_invariant (P := fun es d =>
    (∀ pre post, es = pre ++ .dropSender :: post → lastSent pre = true) →
      d.iterations + d.underWay + d.shutdown.unread ≤
        es.countP Event.isTick + es.countP Event.isSend + 1) ?_ (fun _ => Nat.le_refl 1) hdrop
  intro es d e d' hrun ih hstep hdrop
  have hdrop' : ∀ pre post, es = pre ++ .dropSender :: post → lastSent pre = true :=
    fun pre post he => hdrop pre (post ++ [e]) (by rw [he, List.append_assoc]; rfl)
  have hone := (step_cases hstep).potential_le fun hphase hclosed =>
    unread_of_value hrun (value_of_closed hrun hdrop' (by simp [hphase]) hclosed)
      (by simp [hphase]) (by simp [hphase])
  have hrest := ih hdrop'
  rw [List.countP_append, List.countP_append, List.countP_singleton, List.countP_singleton]
  omega

/-! ## Spinning -/

/-- With the sender gone and nothing unread, the loop turns as often as it likes. -/
theorem spin_replicate (n : Nat) : ∀ {d : Daemon σ}, d.phase = .selecting →
    d.shutdown.closed = true → d.shutdown.unread = 0 →
    ∃ d', RunsTo d (List.replicate n (.changed (φ := φ))) d' ∧
      d'.iterations = d.iterations + n := by
  induction n with
  | zero => exact fun {d} _ _ _ => ⟨d, .nil, rfl⟩
  | succ n ih =>
      intro d hphase hclosed hunread
      have hchanged := Watch.changed_eq_error (e := .closed).mpr ⟨hunread, hclosed⟩
      have hstep : d.step (.changed (φ := φ)) = some (d.goOn .selecting) := by
        simp [step, hphase, hchanged]
      obtain ⟨d', hrun, hiterations⟩ := ih (d := d.goOn .selecting) rfl hclosed hunread
      refine ⟨d', .cons hstep hrun, ?_⟩
      rw [hiterations, goOn, if_pos rfl, Nat.add_assoc, Nat.add_comm 1]

/-- Values are sent while the loop waits. -/
theorem sends_run : ∀ (pre : List (Event φ)) {d : Daemon σ}, d.phase = .selecting →
    d.shutdown.closed = false → (∀ e ∈ pre, e.isSend = true) →
    ∃ d', RunsTo d pre d' ∧ d'.phase = .selecting ∧ d'.shutdown.closed = false ∧
      d'.iterations = d.iterations
  | [], d, hphase, hopen, _ => ⟨d, .nil, hphase, hopen, rfl⟩
  | e :: pre, d, hphase, hopen, hall => by
      obtain ⟨hsend, hpre⟩ := List.forall_mem_cons.mp hall
      cases e with
      | send value =>
          have hstep : d.step (.send (φ := φ) value) =
              some { d with shutdown := d.shutdown.send value } := by
            simp [step, hphase, hopen]
          obtain ⟨d', hrun, hrest⟩ :=
            sends_run pre (d := { d with shutdown := d.shutdown.send value }) hphase hopen hpre
          exact ⟨d', .cons hstep hrun, hrest⟩
      | tick now => cases hsend
      | collect collected => cases hsend
      | insert io => cases hsend
      | changed => cases hsend
      | borrow => cases hsend
      | dropSender => cases hsend

/-- Once the sender is gone and the value is false, the loop can go on to spin. -/
theorem reach_spin {d : Daemon σ} (hphase : d.phase = .selecting)
    (hclosed : d.shutdown.closed = true) (hvalue : d.shutdown.value = false) :
    ∃ es d', RunsTo d es d' ∧ (∀ e ∈ es, Event.ofLoop (φ := φ) e = true) ∧
      d'.phase = .selecting ∧ d'.shutdown.closed = true ∧ d'.shutdown.unread = 0 := by
  rcases Nat.eq_zero_or_pos d.shutdown.unread with hzero | hpos
  · exact ⟨[], d, .nil, List.forall_mem_nil _, hphase, hclosed, hzero⟩
  · have hchanged := Watch.changed_eq_ok.mpr ⟨hpos, rfl⟩
    have hnotify : d.step (.changed (φ := φ)) =
        some { d with phase := .notified, shutdown := d.shutdown.markSeen } := by
      simp [step, hphase, hchanged]
    have hborrow : step { d with phase := .notified, shutdown := d.shutdown.markSeen }
        (.borrow (φ := φ)) =
        some (goOn { d with phase := .notified, shutdown := d.shutdown.markSeen } .selecting) := by
      simp [step, hvalue]
    exact ⟨[.changed, .borrow], _, .cons hnotify (.cons hborrow .nil), by simp [Event.ofLoop],
      rfl, hclosed, Watch.unread_markSeen _⟩

/-! ## The owner decides -/

/-- A last `false` before the sender is dropped can be followed by any number of passes. -/
theorem spin_of_owner (ticker : Interval) (store : σ) {pre : List (Event φ)}
    (hpre : ∀ e ∈ pre, e.isSend = true) (hvalue : lastSent pre = false) (n : Nat) :
    ∃ es d, RunsTo (start ticker store) (pre ++ .dropSender :: es) d ∧
      (∀ e ∈ es, e.ofLoop = true) ∧ n ≤ d.iterations := by
  obtain ⟨d₁, hsends, hphase, hopen, -⟩ :=
    sends_run pre (d := start ticker store) rfl rfl hpre
  have hdrop : d₁.step (.dropSender (φ := φ)) =
      some { d₁ with shutdown := d₁.shutdown.close } := by
    simp [step, hopen]
  have hfalse : d₁.shutdown.value = false := by
    rw [value_eq_lastSent hsends (by simp [hphase]), hvalue]
  obtain ⟨es, d₂, hreach, hes, hphase₂, hclosed, hunread⟩ :=
    reach_spin (φ := φ) (d := { d₁ with shutdown := d₁.shutdown.close }) hphase rfl hfalse
  obtain ⟨d, hspin, hiterations⟩ := spin_replicate (φ := φ) n hphase₂ hclosed hunread
  refine ⟨es ++ List.replicate n .changed, d,
    hsends.append (.cons hdrop (hreach.append hspin)), fun e he => ?_,
    by rw [hiterations]; exact Nat.le_add_left _ _⟩
  rcases List.mem_append.mp he with he | he
  · exact hes e he
  · rw [List.eq_of_mem_replicate he]
    rfl

omit [TemperatureStore σ φ] in
/-- An owner that only drops the sender at its end sends values before. -/
theorem sends_of_owner {owner pre post : List (Event φ)} (howner : ∀ e ∈ owner, e.isOwner = true)
    (hlast : ∀ pre post, owner = pre ++ .dropSender :: post → post = [])
    (h : owner = pre ++ .dropSender :: post) : ∀ e ∈ pre, e.isSend = true := by
  intro e he
  have he' := howner e (h ▸ List.mem_append_left _ he)
  cases e with
  | send value => rfl
  | dropSender =>
      obtain ⟨s, t, rfl⟩ := List.append_of_mem he
      rw [List.append_assoc] at h
      cases t <;> cases hlast _ _ h
  | tick now => cases he'
  | collect collected => cases he'
  | insert io => cases he'
  | changed => cases he'
  | borrow => cases he'

omit [TemperatureStore σ φ] in
/-- What a run has of its owner, of ticks and of values, if it spins after the last value. -/
theorem spin_counts {pre es : List (Event φ)} (hpre : ∀ e ∈ pre, e.isSend = true)
    (hes : ∀ e ∈ es, e.ofLoop = true) :
    (pre ++ .dropSender :: es).filter Event.isOwner = pre ++ [.dropSender] ∧
      (pre ++ .dropSender :: es).countP Event.isTick = 0 ∧
      (pre ++ .dropSender :: es).countP Event.isSend = pre.length := by
  refine ⟨?_, List.countP_eq_zero.mpr fun e he => ?_, ?_⟩
  · rw [List.filter_append, List.filter_cons_of_pos rfl,
      List.filter_eq_self.mpr fun e he => (e.isSend_spec (hpre e he)).1,
      List.filter_eq_nil_iff.mpr fun e he => by simp [e.ofLoop_spec (hes e he)]]
  · rcases List.mem_append.mp he with hmem | hmem
    · simp [e.isSend_spec (hpre e hmem)]
    · rcases List.mem_cons.mp hmem with rfl | hmem
      · exact Bool.false_ne_true
      · simp [e.ofLoop_spec (hes e hmem)]
  · rw [List.countP_append, List.countP_eq_length.mpr hpre,
      List.countP_cons_of_neg Bool.false_ne_true,
      List.countP_eq_zero.mpr fun e he => by simp [e.ofLoop_spec (hes e he)], Nat.add_zero]

/-- The passes of every run with an owner are at most the ticks, the values sent and one,
exactly if that owner drops the sender only after a last `true`. -/
theorem iterations_le_iff (ticker : Interval) (store : σ) {owner : List (Event φ)}
    (howner : ∀ e ∈ owner, e.isOwner = true)
    (hlast : ∀ pre post, owner = pre ++ .dropSender :: post → post = []) :
    (∀ es d, RunsTo (start ticker store) es d → es.filter Event.isOwner <+: owner →
      d.iterations ≤ es.countP Event.isTick + es.countP Event.isSend + 1) ↔
      ∀ pre post, owner = pre ++ .dropSender :: post → lastSent pre = true := by
  constructor
  · intro hbound pre post howner'
    by_contra hvalue
    have hsends := sends_of_owner howner hlast howner'
    obtain ⟨es, d, hrun, hes, hn⟩ := spin_of_owner ticker store hsends
      (Bool.eq_false_iff.mpr hvalue) (pre.length + 2)
    obtain ⟨hfilter, hticks, hvalues⟩ := spin_counts hsends hes
    have hle := hbound _ d hrun (by rw [hfilter, howner']; exact ⟨post, by simp⟩)
    omega
  · intro htrue es d hrun hprefix
    have hdrop : ∀ pre post, es = pre ++ .dropSender :: post → lastSent pre = true := by
      rintro pre post rfl
      obtain ⟨rest, hrest⟩ := hprefix
      rw [← lastSent_filter]
      refine htrue _ (post.filter Event.isOwner ++ rest) ?_
      rw [← hrest, List.filter_append, List.append_assoc]
      rfl
    have hpaid := iterations_le hrun hdrop
    omega

end Daemon

/-- The owner that could not install its signal handler drops the sender at once. -/
def orphaned : List (Daemon.Event Faults) := [.dropSender, .changed, .changed]

theorem orphaned_spins :
    ¬ ∀ (ticker : Interval) (store : Db) (es : List (Daemon.Event Faults)) (d : Daemon Db),
      Daemon.RunsTo (.start ticker store) es d →
      d.iterations ≤ es.countP Daemon.Event.isTick + es.countP Daemon.Event.isSend + 1 := by
  intro hbound
  have hle := hbound _ _ _ _ (Daemon.runsTo_of_after (show
    (Daemon.start (.every 30 0 (by decide)) Db.empty).after orphaned = some _ from rfl))
  exact absurd hle (by decide)

/-- The owner that gets its signal sends `true` before it goes. -/
def signalled : List (Daemon.Event Faults) := [.send true, .changed, .borrow, .dropSender]

theorem iterations_le_signal : ∃ d : Daemon Db,
    Daemon.RunsTo (.start (.every 30 0 (by decide)) Db.empty) signalled d ∧ d.iterations ≤ 2 := by
  have hcut : ∀ pre post, [.send true, .dropSender] =
      pre ++ (Daemon.Event.dropSender : Daemon.Event Faults) :: post →
      pre = [.send true] ∧ post = [] := by
    intro pre post h
    rcases pre with _ | ⟨e, _ | ⟨e', pre⟩⟩
    · cases h
    · cases h
      exact ⟨rfl, rfl⟩
    · cases pre <;> cases h
  have hbound := (Daemon.iterations_le_iff (.every 30 0 (by decide)) Db.empty (by decide)
    fun pre post h => (hcut pre post h).2).mpr fun pre post h => by
      rw [(hcut pre post h).1]
      rfl
  have hrun := Daemon.runsTo_of_after (show
    (Daemon.start (.every 30 0 (by decide)) Db.empty).after signalled = some _ from rfl)
  exact ⟨_, hrun, hbound _ _ hrun List.prefix_rfl⟩

end Tempcheck
