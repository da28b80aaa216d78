import Tempcheck.Deployment.Model

/-!
# What the handlers ask

A handler asks few questions, and its answer is read off theirs.  The theorems here list the
questions of a tick, of a request for current readings and of a snapshot, with the answers,
one case for each way through the handler.
-/

namespace Tempcheck

namespace Deployment

open Program (query)
open Shared (Exchange Yields yields_bind yields_map yields_pure yields_query yields_query_bind)

/-- A call and its answer. -/
abbrev Called : Type := Exchange Call Call.Answer

variable {xs : List Called}

/-! ## The daemon -/

/-- A tick collects, and stores what it collected if there is anything. -/
theorem yields_tick {log : TickLog} (h : Yields tick xs log) :
    (∃ e, xs = [⟨.collect, .error e⟩] ∧ log = .notCollected e) ∨
    (xs = [⟨.collect, .ok []⟩] ∧ log = .noSensors) ∨
    ∃ readings res, readings ≠ [] ∧ log = .ofInsert res ∧
      xs = [⟨.collect, .ok readings⟩, ⟨.insertReadings readings, res⟩] := by
  obtain ⟨collected, xs', rfl, h₁⟩ := yields_query_bind.mp h
  cases collected with
  | error e =>
      obtain ⟨rfl, rfl⟩ := yields_pure.mp h₁
      exact Or.inl ⟨e, rfl, rfl⟩
  | ok readings =>
      cases readings with
      | nil =>
          obtain ⟨rfl, rfl⟩ := yields_pure.mp h₁
          exact Or.inr (Or.inl ⟨rfl, rfl⟩)
      | cons r readings =>
          obtain ⟨res, xs', rfl, h₂⟩ := yields_query_bind.mp h₁
          obtain ⟨rfl, rfl⟩ := yields_pure.mp h₂
          exact Or.inr (Or.inr ⟨r :: readings, res, List.cons_ne_nil _ _, rfl, rfl⟩)

/-! ## The web server -/

theorem yields_latestSensorReadings {rowLimit : UInt64}
    {res : Except StoreError (List SensorReading)}
    (h : Yields (latestSensorReadings rowLimit) xs res) :
    ∃ recent, xs = [⟨.recentReadings none rowLimit, recent⟩] ∧
      res = recent.map fun recent => sortByName (latestLoop recent [] []) := by
  obtain ⟨recent, xs', rfl, h₁⟩ := yields_query_bind.mp h
  obtain ⟨rfl, rfl⟩ := yields_pure.mp h₁
  exact ⟨recent, rfl, rfl⟩

/-- The fallback of `get_current`, which collects and stores. -/
theorem yields_fallback {res : Except ApiError (List SensorReading)}
    (h : Yields currentFallback xs res) :
    (∃ e, xs = [⟨.collect, .error e⟩] ∧ res = .error (.internal e.toString)) ∨
    (xs = [⟨.collect, .ok []⟩] ∧ res = .ok []) ∨
    ∃ readings n, readings ≠ [] ∧ res = (n.map fun _ => readings).mapError mapStoreError ∧
      xs = [⟨.collect, .ok readings⟩, ⟨.insertReadings readings, n⟩] := by
  obtain ⟨collected, xs', rfl, h₁⟩ := yields_query_bind.mp h
  cases collected with
  | error e =>
      obtain ⟨rfl, rfl⟩ := yields_pure.mp h₁
      exact Or.inl ⟨e, rfl, rfl⟩
  | ok readings =>
      cases readings with
      | nil =>
          obtain ⟨rfl, rfl⟩ := yields_pure.mp h₁
          exact Or.inr (Or.inl ⟨rfl, rfl⟩)
      | cons r readings =>
          obtain ⟨n, xs', rfl, h₂⟩ := yields_query_bind.mp h₁
          refine Or.inr (Or.inr ⟨r :: readings, n, List.cons_ne_nil _ _, ?_⟩)
          cases n with
          | ok n =>
              obtain ⟨rfl, rfl⟩ := yields_pure.mp h₂
              exact ⟨rfl, rfl⟩
          | error e =>
              obtain ⟨rfl, rfl⟩ := yields_pure.mp h₂
              exact ⟨rfl, rfl⟩

/-- A request for current readings is answered from the scan, unless this is empty. -/
theorem yields_getCurrent {res : Except ApiError (List SensorReading)}
    (h : Yields getCurrent xs res) :
    (∃ e, xs = [⟨.recentReadings none 512, .error e⟩] ∧ res = .error (mapStoreError e)) ∨
    (∃ recent, sortByName (latestLoop recent [] []) ≠ [] ∧
      xs = [⟨.recentReadings none 512, .ok recent⟩] ∧
      res = .ok (sortByName (latestLoop recent [] []))) ∨
    ∃ recent xs', sortByName (latestLoop recent [] []) = [] ∧
      xs = ⟨.recentReadings none 512, .ok recent⟩ :: xs' ∧ Yields currentFallback xs' res := by
  obtain ⟨scanned, xs₁, xs₂, rfl, hscan, h₁⟩ := yields_bind.mp h
  obtain ⟨recent, rfl, rfl⟩ := yields_latestSensorReadings hscan
  cases recent with
  | error e =>
      obtain ⟨rfl, rfl⟩ := yields_pure.mp h₁
      exact Or.inl ⟨e, rfl, rfl⟩
  | ok recent =>
      cases hlatest : sortByName (latestLoop recent [] []) with
      | nil =>
          simp only [Except.map, hlatest] at h₁
          exact Or.inr (Or.inr ⟨recent, xs₂, hlatest, rfl, h₁⟩)
      | cons r rest =>
          simp only [Except.map, hlatest] at h₁
          obtain ⟨rfl, rfl⟩ := yields_pure.mp h₁
          exact Or.inr (Or.inl ⟨recent, hlatest ▸ List.cons_ne_nil _ _, rfl,
            congrArg Except.ok hlatest.symm⟩)

/-- A request for the history asks the clock and then the store, if its hours are valid. -/
theorem yields_getHistory {q : HistoryQuery} {res : Except ApiError (List AnalysisResult)}
    (h : Yields (getHistory q) xs res) :
    (xs = [] ∧ res = .error (.badRequest "hours must be between 1 and 720")) ∨
    ∃ now out, res = out.mapError mapStoreError ∧
      xs = [⟨.now, now⟩, ⟨.analyze q.sensor (now.subHours (q.hours.getD 24)) now, out⟩] := by
  rw [getHistory] at h
  by_cases hhours : ¬ (1 ≤ q.hours.getD 24 ∧ q.hours.getD 24 ≤ 24 * 30)
  · simp only [if_pos hhours] at h
    exact Or.inl (yields_pure.mp h)
  · simp only [if_neg hhours] at h
    obtain ⟨now, xs', rfl, h₁⟩ := yields_query_bind.mp h
    obtain ⟨out, xs', rfl, h₂⟩ := yields_query_bind.mp h₁
    obtain ⟨rfl, rfl⟩ := yields_pure.mp h₂
    exact Or.inr ⟨now, out, rfl, rfl⟩

/-! ## Snapshots -/

/-- A snapshot is printed before it is saved. -/
theorem yields_once [PrettyEncoder] {save : Bool} {res : Except String Unit}
    (h : Yields (once save) xs res) :
    (∃ e, xs = [⟨.collect, .error e⟩] ∧ res = .error e.toString) ∨
    (∃ readings e, xs = [⟨.collect, .ok readings⟩] ∧ res = .error e) ∨
    ∃ readings json, readingsPretty readings = .ok json ∧
      ((save = false ∧ xs = [⟨.collect, .ok readings⟩, ⟨.print json, ()⟩] ∧ res = .ok ()) ∨
      (∃ e, xs = [⟨.collect, .ok readings⟩, ⟨.print json, ()⟩, ⟨.open, .error e⟩] ∧
        res = .error e.toString) ∨
      ∃ n, save = true ∧ res = (n.map fun _ => ()).mapError StoreError.toString ∧
        xs = [⟨.collect, .ok readings⟩, ⟨.print json, ()⟩, ⟨.open, .ok ()⟩,
          ⟨.insertReadings readings, n⟩]) := by
  obtain ⟨collected, xs', rfl, h₁⟩ := yields_query_bind.mp h
  cases collected with
  | error e =>
      obtain ⟨rfl, rfl⟩ := yields_pure.mp h₁
      exact Or.inl ⟨e, rfl, rfl⟩
  | ok readings =>
      cases hjson : readingsPretty readings with
      | error e =>
          simp only [hjson] at h₁
          obtain ⟨rfl, rfl⟩ := yields_pure.mp h₁
          exact Or.inr (Or.inl ⟨readings, e, rfl, rfl⟩)
      | ok json =>
          simp only [hjson] at h₁
          obtain ⟨printed, xs', rfl, h₂⟩ := yields_query_bind.mp h₁
          refine Or.inr (Or.inr ⟨readings, json, hjson, ?_⟩)
          cases save with
          | false =>
              obtain ⟨rfl, rfl⟩ := yields_pure.mp h₂
              exact Or.inl ⟨rfl, rfl, rfl⟩
          | true =>
              obtain ⟨opened, xs', rfl, h₃⟩ := yields_query_bind.mp h₂
              cases opened with
              | error e =>
                  obtain ⟨rfl, rfl⟩ := yields_pure.mp h₃
                  exact Or.inr (Or.inl ⟨e, rfl, rfl⟩)
              | ok u =>
                  obtain ⟨n, xs', rfl, h₄⟩ := yields_query_bind.mp h₃
                  refine Or.inr (Or.inr ⟨n, rfl, ?_⟩)
                  cases n with
                  | ok n =>
                      obtain ⟨rfl, rfl⟩ := yields_pure.mp h₄
                      exact ⟨rfl, rfl⟩
                  | error e =>
                      obtain ⟨rfl, rfl⟩ := yields_pure.mp h₄
                      exact ⟨rfl, rfl⟩

end Deployment

end Tempcheck
