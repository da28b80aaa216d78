import Tempcheck.Library.Fallible
import Tempcheck.Storage.Insert
import Mathlib.Data.List.Perm.Subperm

/-!
# The most recent readings

`recent_readings` orders rows by their text and maps them back to readings.  On a table
of four-digit years the text order is the order of the instants (`wellTimed_le_iff`) and
every row maps back (`mapRowReading_ok`), so the answer is the top of the stored readings
by instant (`recentReadings_isTop`).

`limit as i64` is negative from `2 ^ 63` on, which SQLite reads as no limit.  That is the
same answer, since a table never has that many rows (`Db.length_le`).
-/

namespace Tempcheck

open Relational (IsTop)

/-! ## The size of a table -/

/-- The ids are distinct and at most the counter, so they bound the number of rows. -/
theorem Db.length_le (db : Db) : db.rows.length ≤ maxRowid := by
  have hnodup : (db.rows.map Row.id).Nodup :=
    List.pairwise_map.mpr (db.ids.imp fun h => Nat.ne_of_lt h)
  have hsub : db.rows.map Row.id ⊆ List.range' 1 db.seq := by
    intro n hn
    obtain ⟨r, hr, rfl⟩ := List.mem_map.mp hn
    have := db.ids_le r hr
    rw [List.mem_range'_1]
    omega
  have hlen := (List.subperm_of_subset hnodup hsub).length_le
  rw [List.length_map, List.length_range'] at hlen
  exact hlen.trans db.seq_le

/-- `limit as i64` is the limit itself, or negative when the limit exceeds every table. -/
theorem toInt_toInt64 (limit : UInt64) {n : Nat} (hn : n ≤ maxRowid) :
    limit.toInt64.toInt = limit.toNat ∨ limit.toInt64.toInt < 0 ∧ n ≤ limit.toNat := by
  have hlt : limit.toNat < 2 ^ 64 := limit.toNat_lt
  have hcast : limit.toInt64.toInt =
      if 2 * limit.toNat < 2 ^ 64 then (limit.toNat : Int) else limit.toNat - (2 ^ 64 : Nat) :=
    BitVec.toInt_eq_toNat_cond limit.toBitVec
  have hmax : maxRowid = 2 ^ 63 - 1 := rfl
  rw [hmax] at hn
  rw [hcast]
  split
  next => exact Or.inl rfl
  next h => exact Or.inr ⟨by omega, by omega⟩

/-! ## The query -/

/-- The sensor filter of a query. -/
def passes (sensor : Option String) (name : String) : Bool :=
  match sensor with
  | some n => name = n
  | none => true

theorem filter_passes_none {α : Type} (name : α → String) (l : List α) :
    (l.filter fun a => passes none (name a)) = l :=
  List.filter_eq_self.mpr fun _ _ => rfl

section

variable [Sqlite]

/-- The rows that a query of either form returns. -/
def recentSql (db : Db) (sensor : Option String) (limit : Int64) : List Row :=
  match sensor with
  | some name => recentSensorSql db name limit
  | none => recentAllSql db limit

/-- Both forms of the query return the top of the rows that pass the filter. -/
theorem recentSql_isTop (db : Db) (sensor : Option String) (limit : UInt64) :
    IsTop Row.recordedAt limit.toNat (db.rows.filter fun r => passes sensor r.sensorName)
      (recentSql db sensor limit.toInt64) := by
  have hle : (db.rows.filter fun r => passes sensor r.sensorName).length ≤ maxRowid :=
    (List.length_filter_le _ _).trans db.length_le
  cases sensor with
  | some name => exact (Sqlite.recentOrder .sensor).isTop_limit _ (toInt_toInt64 limit hle)
  | none =>
      rw [filter_passes_none] at hle ⊢
      exact (Sqlite.recentOrder .all).isTop_limit _ (toInt_toInt64 limit hle)

end

section

variable [Chrono]

/-! ## Rows in text order -/

theorem Row.WellTimed.text_eq {r : Row} (h : r.WellTimed) :
    r.recordedAt = toRfc3339 r.reading.recordedAt := by
  obtain ⟨t, hy, ht⟩ := h
  rw [Row.reading, ht, instantOf_toRfc3339 hy]

theorem Row.WellTimed.fourDigitYear {r : Row} (h : r.WellTimed) :
    r.reading.recordedAt.FourDigitYear := by
  obtain ⟨t, hy, ht⟩ := h
  rw [Row.reading, ht, instantOf_toRfc3339 hy]
  exact hy

/-- Text order of rows is instant order of readings. -/
theorem wellTimed_le_iff {a b : Row} (ha : a.WellTimed) (hb : b.WellTimed) :
    a.recordedAt ≤ b.recordedAt ↔ a.reading.recordedAt ≤ b.reading.recordedAt := by
  rw [ha.text_eq, hb.text_eq, toRfc3339_le_iff ha.fourDigitYear.2 hb.fourDigitYear]

theorem mapRowReading_ok {r : Row} (h : r.WellTimed) : mapRowReading r = .ok r.reading := by
  rw [mapRowReading, h.text_eq, parse_toRfc3339 h.fourDigitYear]
  rfl

/-- The stored readings that pass the filter. -/
def Db.matching (db : Db) (sensor : Option String) : List SensorReading :=
  db.stored.filter fun r => passes sensor r.sensorName

theorem Db.matching_eq (db : Db) (sensor : Option String) :
    db.matching sensor =
      (db.rows.filter fun r => passes sensor r.sensorName).map Row.reading := by
  rw [matching, stored, List.filter_map]
  rfl

/-! ## The answer -/

variable [Sqlite]

theorem recentReadings_eq (io : Faults) (db : Db) (sensor : Option String) (limit : UInt64) :
    recentReadings io db sensor limit = (do
      checkFault io.lock
      checkFault (io.stmt 0)
      checkFault (io.stmt 1)
      collectRows mapRowReading (recentSql db sensor limit.toInt64)) := by
  cases sensor <;> rfl

/-- `recent_readings` on a table of four-digit years returns the top of the stored
readings by instant. -/
theorem recentReadings_isTop {db : Db} (hdb : db.WellTimed) (sensor : Option String)
    (limit : UInt64) :
    ∃ out, recentReadings Faults.none db sensor limit = .ok out ∧
      IsTop SensorReading.recordedAt limit.toNat (db.matching sensor) out := by
  have htop := recentSql_isTop db sensor limit
  have hmem : ∀ r ∈ db.rows.filter fun r => passes sensor r.sensorName, r.WellTimed :=
    fun r hr => hdb r (List.mem_of_mem_filter hr)
  refine ⟨(recentSql db sensor limit.toInt64).map Row.reading, ?_, ?_⟩
  · rw [recentReadings_eq]
    have hrows := Fallible.mapM_ok (f := mapRowReading) (l := recentSql db sensor limit.toInt64)
      fun r hr => mapRowReading_ok (hmem r (htop.mem_of_mem hr))
    simp only [Faults.none, checkFault, collectRows, hrows]
    rfl
  · have hmap : IsTop SensorReading.recordedAt _ _ _ := htop.map Row.reading
      fun a ha b hb h => (wellTimed_le_iff (hmem a ha) (hmem b hb)).mp h
    rwa [Db.matching_eq]

/-- After a run of successful inserts on an empty store, every call has returned the
length of its batch, and `recent_readings` returns as many of the matching readings as
the limit allows, unchanged, newest first, leaving out none that is newer. -/
theorem recentReadings_of_inserts (calls : List InsertCall)
    (hok : ∀ res ∈ (runInserts calls Db.empty).2, ∃ n, res = .ok n)
    (hy : ∀ r ∈ calls.flatMap InsertCall.readings, r.recordedAt.FourDigitYear)
    (sensor : Option String) (limit : UInt64) :
    (runInserts calls Db.empty).2 = calls.map (fun c => .ok c.readings.length) ∧
    ∃ out, recentReadings Faults.none (runInserts calls Db.empty).1 sensor limit = .ok out ∧
      out.length = min limit.toNat ((calls.flatMap InsertCall.readings).filter
        fun r => passes sensor r.sensorName).length ∧
      out.Pairwise (fun a b => b.recordedAt ≤ a.recordedAt) ∧
      ∃ left, ((calls.flatMap InsertCall.readings).filter
          fun r => passes sensor r.sensorName).Perm (out ++ left) ∧
        ∀ x ∈ left, ∀ y ∈ out, x.recordedAt ≤ y.recordedAt := by
  obtain ⟨hstored, hdb⟩ := runInserts_stored hok hy
  obtain ⟨out, hout, htop⟩ := recentReadings_isTop hdb sensor limit
  rw [Db.matching, hstored] at htop
  exact ⟨(runInserts_ok hok).1, out, hout, htop.length_eq, htop.sorted, htop.rest⟩

end

/-- Two batches, with a limit above `i64::MAX`. -/
theorem recentReadings_of_inserts_unlimited :
    let calls : List InsertCall :=
      [⟨Faults.none, [⟨"cpu", .exact 40, default⟩, ⟨"gpu", .exact 50, default⟩]⟩,
        ⟨Faults.none, [⟨"cpu", .exact 41, default⟩]⟩]
    ∃ out, recentReadings Faults.none (runInserts calls Db.empty).1 (some "cpu")
      18446744073709551615 = .ok out ∧ out.length = 2 := by
  intro calls
  obtain ⟨-, out, hout, hlen, -⟩ := recentReadings_of_inserts calls
    (by
      intro res hres
      have hrun : (runInserts calls Db.empty).2 = [.ok 2, .ok 1] := rfl
      rw [hrun] at hres
      rcases List.mem_pair.mp hres with rfl | rfl
      · exact ⟨2, rfl⟩
      · exact ⟨1, rfl⟩)
    (by decide) (some "cpu") 18446744073709551615
  exact ⟨out, hout, hlen.trans (by decide)⟩

end Tempcheck
