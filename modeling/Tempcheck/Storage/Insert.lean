import Tempcheck.Chrono.Parser
import Tempcheck.Storage.Model

/-!
# Inserting readings

The abstract store is the list of readings inserted so far.  `Db.stored` reads it off the
table and `Db.WellTimed` is the invariant that makes the reading faithful: every
timestamp is the rendering of an instant of a four-digit year.

One `INSERT` appends one row that holds its reading (`insertSql_ok`), so a call that
succeeds appends its batch and returns its length (`insertLoop_ok`).  A call that fails
stops at one reading, and what it leaves is what a successful call with the readings
before that one would have left (`insertLoop_error`).  Nothing is rolled back.

Over a run of successful calls the abstract store is the concatenation of the batches
(`runInserts_stored`).
-/

namespace Tempcheck

section

variable [Chrono]

/-! ## The abstract store -/

/-- The instant a timestamp denotes. -/
def instantOf (s : String) : DateTime :=
  match parseFromRfc3339 s with
  | .ok t => t
  | .error _ => default

theorem instantOf_toRfc3339 {t : DateTime} (h : t.FourDigitYear) :
    instantOf (toRfc3339 t) = t := by
  rw [instantOf, parse_toRfc3339 h]

/-- The reading a row denotes. -/
def Row.reading (r : Row) : SensorReading :=
  ⟨r.sensorName, .exact r.temperatureC, instantOf r.recordedAt⟩

/-- The readings of the table, oldest row first. -/
def Db.stored (db : Db) : List SensorReading := db.rows.map Row.reading

/-- The timestamp is the rendering of an instant of a four-digit year. -/
def Row.WellTimed (r : Row) : Prop := ∃ t : DateTime, t.FourDigitYear ∧ r.recordedAt = toRfc3339 t

/-- Every timestamp of the table is. -/
def Db.WellTimed (db : Db) : Prop := ∀ r ∈ db.rows, r.WellTimed

/-- The row holds the reading, column by column. -/
structure Row.Holds (row : Row) (r : SensorReading) : Prop where
  sensorName : row.sensorName = r.sensorName
  temperatureC : r.temperatureC = .exact row.temperatureC
  recordedAt : row.recordedAt = toRfc3339 r.recordedAt

/-- A row that holds a reading of a four-digit year denotes it. -/
theorem Row.Holds.reading_eq {row : Row} {r : SensorReading} (h : row.Holds r)
    (hy : r.recordedAt.FourDigitYear) : row.reading = r := by
  obtain ⟨name, temp, recordedAt⟩ := r
  obtain ⟨hname, htemp, hat⟩ := h
  simp only [Row.reading, hname, hat, instantOf_toRfc3339 hy, ← htemp]

theorem Row.Holds.wellTimed {row : Row} {r : SensorReading} (h : row.Holds r)
    (hy : r.recordedAt.FourDigitYear) : row.WellTimed := ⟨r.recordedAt, hy, h.recordedAt⟩

/-- The table has new rows at its end that hold the readings, and has counted them. -/
def Appends (db db' : Db) (readings : List SensorReading) : Prop :=
  db'.seq = db.seq + readings.length ∧
    ∃ new, db'.rows = db.rows ++ new ∧ List.Forall₂ Row.Holds new readings

theorem Appends.refl (db : Db) : Appends db db [] :=
  ⟨rfl, [], (List.append_nil _).symm, List.Forall₂.nil⟩

theorem Appends.trans {db₁ db₂ db₃ : Db} {rs₁ rs₂ : List SensorReading}
    (h₁ : Appends db₁ db₂ rs₁) (h₂ : Appends db₂ db₃ rs₂) :
    Appends db₁ db₃ (rs₁ ++ rs₂) := by
  obtain ⟨hseq₁, new₁, he₁, hh₁⟩ := h₁
  obtain ⟨hseq₂, new₂, he₂, hh₂⟩ := h₂
  refine ⟨?_, new₁ ++ new₂, by rw [he₂, he₁, List.append_assoc], List.rel_append hh₁ hh₂⟩
  rw [hseq₂, hseq₁, List.length_append, Nat.add_assoc]

/-- The rows are unchanged exactly if nothing was appended. -/
theorem Appends.rows_eq_iff {db db' : Db} {rs : List SensorReading} (h : Appends db db' rs) :
    db'.rows = db.rows ↔ rs = [] := by
  obtain ⟨-, new, he, hh⟩ := h
  have hlen := hh.length_eq
  rw [he]
  constructor
  · intro hnew
    have hnil : new = [] := List.append_right_eq_self.mp hnew
    rw [hnil] at hlen
    exact List.length_eq_zero_iff.mp hlen.symm
  · intro hrs
    rw [hrs] at hlen
    rw [List.length_eq_zero_iff.mp hlen, List.append_nil]

theorem Appends.stored {db db' : Db} {rs : List SensorReading} (h : Appends db db' rs)
    (hy : ∀ r ∈ rs, r.recordedAt.FourDigitYear) : db'.stored = db.stored ++ rs := by
  obtain ⟨-, new, he, hh⟩ := h
  rw [Db.stored, he, List.map_append]
  congr 1
  clear he
  induction hh with
  | nil => rfl
  | cons hrow _ ih =>
      rw [List.map_cons, hrow.reading_eq (hy _ (List.mem_cons_self ..)),
        ih fun r hr => hy r (List.mem_cons_of_mem _ hr)]

theorem Appends.wellTimed {db db' : Db} {rs : List SensorReading} (h : Appends db db' rs)
    (hy : ∀ r ∈ rs, r.recordedAt.FourDigitYear) (hdb : db.WellTimed) : db'.WellTimed := by
  obtain ⟨-, new, he, hh⟩ := h
  intro row hrow
  rw [he] at hrow
  rcases List.mem_append.mp hrow with hold | hnew
  · exact hdb row hold
  · clear he hrow
    induction hh with
    | nil => cases hnew
    | cons hhead _ ih =>
        rcases List.mem_cons.mp hnew with rfl | htail
        · exact hhead.wellTimed (hy _ (List.mem_cons_self ..))
        · exact ih (fun r hr => hy r (List.mem_cons_of_mem _ hr)) htail

/-! ## One statement -/

/-- What a successful `INSERT` does. -/
theorem insertSql_ok {fault : Option String} {db db' : Db} {r : SensorReading}
    (h : insertSql fault db r.sensorName r.temperatureC (toRfc3339 r.recordedAt) = .ok db') :
    Appends db db' [r] := by
  cases fault with
  | some e => cases h
  | none =>
      cases ht : r.temperatureC with
      | nan => rw [ht] at h; cases h
      | exact q =>
          rw [ht, insertSql] at h
          by_cases hseq : db.seq < maxRowid
          · simp only [dif_pos hseq] at h
            cases h
            exact ⟨rfl, _, rfl, .cons ⟨rfl, ht, rfl⟩ .nil⟩
          · simp only [dif_neg hseq] at h
            cases h

/-! ## The loop -/

/-- A batch that succeeds appends all its readings and counts them. -/
theorem insertLoop_ok {io : Faults} : ∀ {readings : List SensorReading} {db db' : Db}
    {count n : Nat}, insertLoop io readings db count = (db', .ok n) →
    n = count + readings.length ∧ Appends db db' readings
  | [], db, db', count, n, h => by
      rw [insertLoop] at h
      cases h
      exact ⟨rfl, Appends.refl db⟩
  | r :: readings, db, db', count, n, h => by
      rw [insertLoop] at h
      cases hsql : insertSql (io.stmt count) db r.sensorName r.temperatureC
          (toRfc3339 r.recordedAt) with
      | error e => rw [hsql] at h; cases h
      | ok db₁ =>
          rw [hsql] at h
          obtain ⟨hn, happ⟩ := insertLoop_ok h
          refine ⟨by rw [hn, List.length_cons]; omega, ?_⟩
          exact (insertSql_ok hsql).trans happ

/-- A batch that fails stops at one reading.  The readings before it are in the table,
as after a call with only those. -/
theorem insertLoop_error {io : Faults} : ∀ {readings : List SensorReading} {db db' : Db}
    {count : Nat} {e : StoreError}, insertLoop io readings db count = (db', .error e) →
    ∃ pre r post msg, readings = pre ++ r :: post ∧ e = .db msg ∧
      insertLoop io pre db count = (db', .ok (count + pre.length)) ∧
      insertSql (io.stmt (count + pre.length)) db' r.sensorName r.temperatureC
        (toRfc3339 r.recordedAt) = .error msg
  | [], _, _, _, _, h => by cases h
  | r :: readings, db, db', count, e, h => by
      rw [insertLoop] at h
      cases hsql : insertSql (io.stmt count) db r.sensorName r.temperatureC
          (toRfc3339 r.recordedAt) with
      | error msg =>
          rw [hsql] at h
          cases h
          exact ⟨[], r, readings, msg, rfl, rfl, rfl, hsql⟩
      | ok db₁ =>
          rw [hsql] at h
          obtain ⟨pre, r', post, msg, hreadings, he, hpre, hr'⟩ := insertLoop_error h
          have hlen : count + 1 + pre.length = count + (r :: pre).length := by
            rw [List.length_cons]
            omega
          refine ⟨r :: pre, r', post, msg, by rw [hreadings]; rfl, he, ?_, ?_⟩
          · rw [insertLoop, hsql, ← hlen]
            exact hpre
          · rw [← hlen]
            exact hr'

/-- A call that succeeds returns the length of its batch and appends it. -/
theorem insertReadings_ok {io : Faults} {db db' : Db} {readings : List SensorReading} {n : Nat}
    (h : insertReadings io db readings = (db', .ok n)) :
    n = readings.length ∧ Appends db db' readings := by
  rw [insertReadings] at h
  cases hlock : io.lock with
  | some e => rw [hlock] at h; cases h
  | none =>
      rw [hlock] at h
      obtain ⟨hn, happ⟩ := insertLoop_ok h
      exact ⟨by rw [hn, Nat.zero_add], happ⟩

/-! ## Calls that succeed -/

/-- The readings fit into the table. -/
def Db.Fits (db : Db) (readings : List SensorReading) : Prop :=
  (∀ r ∈ readings, r.temperatureC ≠ .nan) ∧ db.seq + readings.length ≤ maxRowid

omit [Chrono] in
theorem insertSql_isOk_iff (db : Db) (name : String) (temp : F64) (at_ : String) :
    (∃ db', insertSql none db name temp at_ = .ok db') ↔ temp ≠ .nan ∧ db.seq < maxRowid := by
  cases temp with
  | nan => exact ⟨fun ⟨_, h⟩ => (nomatch h), fun h => absurd rfl h.1⟩
  | exact q =>
      rcases Nat.lt_or_ge db.seq maxRowid with hlt | hge
      · refine ⟨fun _ => ⟨F64.noConfusion, hlt⟩, fun _ => ⟨db.push name q at_ hlt, ?_⟩⟩
        simp only [insertSql, dif_pos hlt]
      · refine ⟨fun ⟨_, h⟩ => ?_, fun h => absurd h.2 (not_lt.mpr hge)⟩
        simp only [insertSql, dif_neg (not_lt.mpr hge)] at h
        cases h

theorem insertLoop_isOk_iff : ∀ {readings : List SensorReading} {db : Db} (count : Nat),
    (∃ db' n, insertLoop Faults.none readings db count = (db', .ok n)) ↔ db.Fits readings
  | [], db, count => by
      refine ⟨fun _ => ⟨fun _ h => (nomatch h), db.seq_le⟩, fun _ => ⟨db, count, rfl⟩⟩
  | r :: readings, db, count => by
      have hiff := insertSql_isOk_iff db r.sensorName r.temperatureC (toRfc3339 r.recordedAt)
      rw [insertLoop]
      cases hsql : insertSql none db r.sensorName r.temperatureC (toRfc3339 r.recordedAt) with
      | error e =>
          rw [show (Faults.none.stmt count) = none from rfl, hsql]
          refine ⟨fun ⟨_, _, h⟩ => (nomatch h), fun ⟨hnan, hlen⟩ => ?_⟩
          rw [List.length_cons] at hlen
          obtain ⟨_, hok⟩ := hiff.mpr ⟨hnan r (List.mem_cons_self ..), by omega⟩
          rw [hsql] at hok
          cases hok
      | ok db₁ =>
          rw [show (Faults.none.stmt count) = none from rfl, hsql]
          have hseq : db₁.seq = db.seq + 1 := (insertSql_ok hsql).1
          have hnan := (hiff.mp ⟨db₁, hsql⟩).1
          refine (insertLoop_isOk_iff (count + 1)).trans ?_
          rw [Db.Fits, Db.Fits, List.forall_mem_cons, List.length_cons, hseq]
          constructor
          · rintro ⟨hrest, hlen⟩
            exact ⟨⟨hnan, hrest⟩, by omega⟩
          · rintro ⟨⟨-, hrest⟩, hlen⟩
            exact ⟨hrest, by omega⟩

/-- Without faults a call succeeds exactly if its batch fits. -/
theorem insertReadings_isOk_iff {readings : List SensorReading} {db : Db} :
    (∃ db', insertReadings Faults.none db readings = (db', .ok readings.length)) ↔
      db.Fits readings := by
  rw [← insertLoop_isOk_iff 0]
  constructor
  · rintro ⟨db', h⟩
    exact ⟨db', _, h⟩
  · rintro ⟨db', n, h⟩
    obtain ⟨hn, -⟩ := insertReadings_ok
      (show insertReadings Faults.none db readings = (db', .ok n) from h)
    exact ⟨db', hn ▸ h⟩

/-! ## Failed calls -/

/-- A call that fails at the lock changes nothing.  A call that fails at a reading leaves
the table as a successful call with the readings before it would have, so the table is
unchanged exactly if the first reading failed. -/
theorem insertReadings_error_prefix {io : Faults} {db db' : Db}
    {readings : List SensorReading} {e : StoreError}
    (h : insertReadings io db readings = (db', .error e)) :
    (∃ msg, io.lock = some msg ∧ e = .db msg ∧ db' = db) ∨
    ∃ pre r post msg, readings = pre ++ r :: post ∧ e = .db msg ∧
      insertSql (io.stmt pre.length) db' r.sensorName r.temperatureC
        (toRfc3339 r.recordedAt) = .error msg ∧
      insertReadings io db pre = (db', .ok pre.length) ∧
      Appends db db' pre ∧ (db'.rows = db.rows ↔ pre = []) := by
  rw [insertReadings] at h
  cases hlock : io.lock with
  | some msg =>
      rw [hlock] at h
      cases h
      exact Or.inl ⟨msg, rfl, rfl, rfl⟩
  | none =>
      rw [hlock] at h
      obtain ⟨pre, r, post, msg, hreadings, he, hpre, hr⟩ := insertLoop_error h
      rw [Nat.zero_add] at hpre hr
      have happ := (insertLoop_ok hpre).2
      refine Or.inr ⟨pre, r, post, msg, hreadings, he, hr, ?_, happ, happ.rows_eq_iff⟩
      rw [insertReadings, hlock]
      exact hpre

end

/-- Two readings, the second of which is not a number. -/
def halfBatch : List SensorReading :=
  [⟨"cpu", .exact 40, default⟩, ⟨"gpu", .nan, default⟩]

/-- The first reading stays in the table when the second one fails. -/
theorem insertReadings_not_atomic :
    ¬ ∀ (io : Faults) (db db' : Db) (readings : List SensorReading) (e : StoreError),
      insertReadings io db readings = (db', .error e) → db'.rows = db.rows := by
  intro hatomic
  have hrows := hatomic Faults.none Db.empty _ halfBatch _ rfl
  have hlen := congrArg List.length hrows
  cases hlen

/-- The call with `halfBatch` leaves the readings before the failing one. -/
theorem insertReadings_error_prefix_halfBatch :
    ∃ pre r post, halfBatch = pre ++ r :: post ∧
      Appends Db.empty (insertReadings Faults.none Db.empty halfBatch).1 pre := by
  have hprefix := insertReadings_error_prefix
    (show insertReadings Faults.none Db.empty halfBatch = (_, .error _) from rfl)
  rcases hprefix with ⟨_, hlock, -⟩ | ⟨pre, r, post, _, hsplit, -, -, -, happ, -⟩
  · cases hlock
  · exact ⟨pre, r, post, hsplit, happ⟩

section

variable [Chrono]

/-! ## Runs of calls -/

/-- One call of `insert_readings`. -/
structure InsertCall where
  io : Faults
  readings : List SensorReading

/-- A run of calls, with what each returned. -/
def runInserts : List InsertCall → Db → Db × List (Except StoreError Nat)
  | [], db => (db, [])
  | call :: calls, db =>
      let first := insertReadings call.io db call.readings
      let rest := runInserts calls first.1
      (rest.1, first.2 :: rest.2)

/-- In a run without errors every call returns the length of its batch, and the table
grows by the batches in order. -/
theorem runInserts_ok : ∀ {calls : List InsertCall} {db : Db},
    (∀ res ∈ (runInserts calls db).2, ∃ n, res = .ok n) →
    (runInserts calls db).2 = calls.map (fun c => .ok c.readings.length) ∧
      Appends db (runInserts calls db).1 (calls.flatMap InsertCall.readings)
  | [], db, _ => ⟨rfl, Appends.refl db⟩
  | call :: calls, db, h => by
      simp only [runInserts, List.forall_mem_cons] at h
      obtain ⟨⟨n, hn⟩, hrest⟩ := h
      obtain ⟨hlen, happ⟩ := insertReadings_ok
        (show insertReadings call.io db call.readings = (_, .ok n) by rw [← hn])
      obtain ⟨hmap, happ'⟩ := runInserts_ok hrest
      refine ⟨?_, ?_⟩
      · simp only [runInserts, List.map_cons, hmap, hn, hlen]
      · rw [List.flatMap_cons]
        exact happ.trans happ'

theorem Db.empty_wellTimed : Db.empty.WellTimed := by
  intro r hr
  cases hr

/-- The abstract store after a run without errors on an empty table. -/
theorem runInserts_stored {calls : List InsertCall}
    (h : ∀ res ∈ (runInserts calls Db.empty).2, ∃ n, res = .ok n)
    (hy : ∀ r ∈ calls.flatMap InsertCall.readings, r.recordedAt.FourDigitYear) :
    (runInserts calls Db.empty).1.stored = calls.flatMap InsertCall.readings ∧
      (runInserts calls Db.empty).1.WellTimed :=
  ⟨(runInserts_ok h).2.stored hy, (runInserts_ok h).2.wellTimed hy Db.empty_wellTimed⟩

end

end Tempcheck
