import Tempcheck.Collector.Model
import Tempcheck.Library.Transition
import Tempcheck.Library.Watch
import Tempcheck.Storage.Model

/-!
# The daemon

The model of `daemon.rs`.  `run_daemon` is a loop around `select!`, and `Daemon.step` is
what one event does to it.  The events are those of the daemon itself, with what its
collector and its store answer, and those of the owner of the shutdown channel.  An event
that cannot happen in a state has no successor, and where `select!` finds both branches
ready either event has one.

The ticker is `tokio`'s with `MissedTickBehavior::Skip`: it is due at multiples of the
period, and a tick that comes late is followed by the next multiple.  Times are
nanoseconds of the monotonic clock.

`Daemon` also counts the passes through the loop and keeps the calls to the store with
what they returned.
-/

namespace Tempcheck

open Transition (Run)

/-! ## The ticker -/

/-- `time::Interval` with `MissedTickBehavior::Skip`. -/
structure Interval where
  period : Nat
  deadline : Nat
  period_pos : 0 < period

/-- `time::interval`, whose first tick is due at once. -/
def Interval.every (period now : Nat) (h : 0 < period) : Interval := ⟨period, now, h⟩

/-- `tick` at the time `now`, once it is due. -/
def Interval.tick (ticker : Interval) (now : Nat) : Option Interval :=
  if ticker.deadline ≤ now then
    some { ticker with
      deadline := ticker.deadline +
        ((now - ticker.deadline) / ticker.period + 1) * ticker.period }
  else none

/-! ## The loop -/

/-- The part of `TemperatureStore` that the daemon uses.  A call is given what fails around
it. -/
class TemperatureStore (σ : Type) (φ : outParam Type) where
  insertReadings : φ → σ → List SensorReading → σ × Except StoreError Nat

/-- `SqliteStore` as a `TemperatureStore`. -/
instance sqliteStore [Chrono] : TemperatureStore Db Faults := ⟨insertReadings⟩

namespace Daemon

/-- Where `run_daemon` stands. -/
inductive Phase where
  /-- In `select!`. -/
  | selecting
  /-- After a tick, before `collector.collect()`. -/
  | collecting
  /-- Before `store.insert_readings(&readings)`. -/
  | storing (readings : List SensorReading)
  /-- After `changed` was `Ok`, before `shutdown.borrow()`. -/
  | notified
  | exited
deriving DecidableEq

/-- What happens next. -/
inductive Event (φ : Type) where
  | tick (now : Nat)
  | collect (collected : Except CollectorError (List SensorReading))
  | insert (io : φ)
  | changed
  | borrow
  | send (value : Bool)
  | dropSender

/-- The event is one of the owner of the shutdown channel. -/
def Event.isOwner {φ : Type} : Event φ → Bool
  | .send _ => true
  | .dropSender => true
  | _ => false

end Daemon

/-- The state of `run_daemon`. -/
structure Daemon (σ : Type) where
  phase : Daemon.Phase
  ticker : Interval
  shutdown : Watch Bool
  store : σ
  /-- The calls to the store. -/
  calls : List (List SensorReading × Except StoreError Nat)
  /-- The passes through the loop that have begun. -/
  iterations : Nat

/-- `shutdown_channel`. -/
def shutdownChannel : Watch Bool := .channel false

namespace Daemon

variable {σ φ : Type}

/-- The `match` on the collection: what is left to do in this pass. -/
def afterCollect : Except CollectorError (List SensorReading) → Phase
  | .ok readings => if readings.isEmpty then .selecting else .storing readings
  | .error _ => .selecting

/-- `run_daemon` when it enters its loop. -/
def start (ticker : Interval) (store : σ) : Daemon σ where
  phase := .selecting
  ticker := ticker
  shutdown := shutdownChannel
  store := store
  calls := []
  iterations := 1

/-- The daemon goes on in a phase, in the next pass if that is `select!`. -/
def goOn (d : Daemon σ) (phase : Phase) : Daemon σ :=
  { d with
    phase := phase
    iterations := if phase = .selecting then d.iterations + 1 else d.iterations }

@[simp] theorem phase_goOn (d : Daemon σ) (phase : Phase) : (d.goOn phase).phase = phase := rfl

@[simp] theorem shutdown_goOn (d : Daemon σ) (phase : Phase) :
    (d.goOn phase).shutdown = d.shutdown := rfl

@[simp] theorem store_goOn (d : Daemon σ) (phase : Phase) :
    (d.goOn phase).store = d.store := rfl

@[simp] theorem calls_goOn (d : Daemon σ) (phase : Phase) :
    (d.goOn phase).calls = d.calls := rfl

/-- One event. -/
def step [TemperatureStore σ φ] (d : Daemon σ) : Event φ → Option (Daemon σ)
  | .tick now =>
      match d.phase with
      | .selecting => (d.ticker.tick now).map fun ticker =>
          { d with phase := .collecting, ticker := ticker }
      | _ => none
  | .collect collected =>
      match d.phase with
      | .collecting => some (d.goOn (afterCollect collected))
      | _ => none
  | .insert io =>
      match d.phase with
      | .storing readings =>
          -- `Ok` and `Err` are only logged
          let (store, result) := TemperatureStore.insertReadings io d.store readings
          some ({ d with store := store, calls := d.calls ++ [(readings, result)] }.goOn
            .selecting)
      | _ => none
  | .changed =>
      match d.phase with
      | .selecting =>
          match d.shutdown.changed with
          | some (.ok shutdown) => some { d with phase := .notified, shutdown := shutdown }
          -- `changed.is_ok()` is false, and the loop goes on
          | some (.error _) => some (d.goOn .selecting)
          | none => none
      | _ => none
  | .borrow =>
      match d.phase with
      | .notified => some (d.goOn (if d.shutdown.value then .exited else .selecting))
      | _ => none
  | .send value =>
      if d.shutdown.closed then none
      else match d.phase with
        -- the receiver is gone, and `send` fails
        | .exited => some d
        | _ => some { d with shutdown := d.shutdown.send value }
  | .dropSender =>
      if d.shutdown.closed then none else some { d with shutdown := d.shutdown.close }

/-- The runs of `run_daemon`. -/
abbrev RunsTo [TemperatureStore σ φ] (d : Daemon σ) (es : List (Event φ)) (d' : Daemon σ) : Prop :=
  Run (fun (d : Daemon σ) (e : Event φ) d' => d.step e = some d') d es d'

/-- The state after the events, if they can happen. -/
def after [TemperatureStore σ φ] (d : Daemon σ) : List (Event φ) → Option (Daemon σ)
  | [] => some d
  | e :: es =>
      match d.step e with
      | some d => d.after es
      | none => none

theorem runsTo_of_after [TemperatureStore σ φ] : ∀ {es : List (Event φ)} {d d' : Daemon σ},
    d.after es = some d' → RunsTo d es d'
  | [], d, d', h => by
      cases h
      exact .nil
  | e :: es, d, d', h => by
      rw [after] at h
      cases hstep : d.step e with
      | none => rw [hstep] at h; cases h
      | some d₁ =>
          rw [hstep] at h
          exact .cons hstep (runsTo_of_after h)

end Daemon

end Tempcheck
