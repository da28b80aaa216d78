import Tempcheck.Library.Transition
import Tempcheck.Storage.Analyze

/-!
# An analysis next to other writers

The mutex of the store keeps out the callers of one connection.  Other processes write to
the same file through their own connections, and `analyze` opens no transaction, so their
inserts may commit between its two statements.

The model is a step relation on the table and the phase of one call.  A step is an insert
committed elsewhere, or the next statement of the call on the table as it then is.  Without
inserts in between the steps are `analyze` (`run_analyze`).

The count is checked in one statement and the rows are aggregated in the next, so the
bound holds for the rows that are there at the second one (`analyze_bound_iff`).
-/

namespace Tempcheck

open Transition (Run)

section

variable [Chrono] [Sqlite]

/-! ## The rows an analysis counts -/

omit [Sqlite] in
theorem mapRow_count {a : AggRow} {res : AnalysisResult} (h : mapRow a = .ok res) :
    res.count = a.cnt := by
  simp only [mapRow, Fallible.bind_eq_ok] at h
  obtain ⟨_, _, _, _, _, _, _, _, _, _, _, _, _, _, _, _, h⟩ := h
  cases h
  rfl

/-- The counts of the results add up to the rows of the window. -/
theorem sum_count_analyzeSelect {io : Faults} {db : Db} {sensor : Option String}
    {fromAt toAt : DateTime} {rs : List AnalysisResult}
    (h : analyzeSelect io db sensor fromAt toAt = .ok rs) :
    (rs.map AnalysisResult.count).sum =
      (windowRows db sensor (toRfc3339 fromAt) (toRfc3339 toAt)).length := by
  rw [analyzeSelect_eq] at h
  simp only [Fallible.bind_eq_ok] at h
  obtain ⟨_, -, _, -, h⟩ := h
  have hall := Fallible.mapM_eq_ok.mp (Fallible.mapError_eq_ok.mp h)
  have hcounts : (analyzeSql db sensor (toRfc3339 fromAt) (toRfc3339 toAt)).map AggRow.cnt =
      rs.map AnalysisResult.count :=
    Fallible.map_eq_map_of_forall₂ (hall.imp fun _ _ hres => (mapRow_count hres).symm)
  rw [← hcounts, analyzeSql, List.map_map]
  exact (Sqlite.groups (variantOf sensor)).sum_length _

/-! ## Steps -/

/-- A call of `analyze`. -/
structure AnalyzeCall where
  io : Faults
  sensor : Option String
  fromAt : DateTime
  toAt : DateTime

/-- What the call has done so far. -/
inductive Phase where
  | called
  | locked
  | counted
  | returned (res : Except StoreError (List AnalysisResult))

/-- The next statement of the call, on the table as it is. -/
def AnalyzeCall.next (call : AnalyzeCall) (db : Db) : Phase → Phase
  | .called =>
      if call.fromAt ≥ call.toAt then .returned (.error .invalidRange)
      else match checkFault call.io.lock with
        | .error e => .returned (.error e)
        | .ok () => .locked
  | .locked =>
      match analyzeCount call.io db call.sensor call.fromAt call.toAt with
      | .error e => .returned (.error e)
      | .ok () => .counted
  | .counted => .returned (analyzeSelect call.io db call.sensor call.fromAt call.toAt)
  | .returned res => .returned res

/-- What happens in one step. -/
inductive Event where
  | inserted (r : SensorReading)
  | statement

/-- The table and the phase of the call. -/
structure World where
  db : Db
  phase : Phase

/-- Another connection inserts, or the call takes its next step. -/
inductive Step (call : AnalyzeCall) : World → Event → World → Prop where
  | inserted {db db' : Db} {phase : Phase} {r : SensorReading} :
      insertSql none db r.sensorName r.temperatureC (toRfc3339 r.recordedAt) = .ok db' →
      Step call ⟨db, phase⟩ (.inserted r) ⟨db', phase⟩
  | statement {db : Db} {phase : Phase} :
      (∀ res, phase ≠ .returned res) →
      Step call ⟨db, phase⟩ .statement ⟨db, call.next db phase⟩

/-! ## Runs -/

/-- The steps of the call alone are `analyze`. -/
theorem run_analyze (call : AnalyzeCall) (db : Db) :
    ∃ n, Run (Step call) ⟨db, .called⟩ (List.replicate n .statement)
      ⟨db, .returned (analyze call.io db call.sensor call.fromAt call.toAt)⟩ := by
  have hcalled : Step call ⟨db, .called⟩ .statement ⟨db, call.next db .called⟩ :=
    .statement nofun
  have hlocked : Step call ⟨db, .locked⟩ .statement ⟨db, call.next db .locked⟩ :=
    .statement nofun
  have hcounted : Step call ⟨db, .counted⟩ .statement ⟨db, call.next db .counted⟩ :=
    .statement nofun
  simp only [AnalyzeCall.next] at hcalled hlocked hcounted
  rw [analyze]
  by_cases hrange : call.fromAt ≥ call.toAt
  · rw [if_pos hrange] at hcalled ⊢
    exact ⟨1, .cons hcalled .nil⟩
  rw [if_neg hrange] at hcalled ⊢
  cases hlock : checkFault call.io.lock with
  | error e =>
      rw [hlock] at hcalled
      exact ⟨1, .cons hcalled .nil⟩
  | ok u =>
      rw [hlock] at hcalled
      cases hcount : analyzeCount call.io db call.sensor call.fromAt call.toAt with
      | error e =>
          rw [hcount] at hlocked
          exact ⟨2, .cons hcalled (.cons hlocked .nil)⟩
      | ok u =>
          rw [hcount] at hlocked
          exact ⟨3, .cons hcalled (.cons hlocked (.cons hcounted .nil))⟩

theorem run_returned {call : AnalyzeCall} {w w' : World} {es : List Event}
    (h : Run (Step call) w es w') {res : Except StoreError (List AnalysisResult)}
    (hw : w.phase = .returned res) : w'.phase = .returned res := by
  refine h.invariant (P := fun w => w.phase = .returned res) (fun hs hstep => ?_) hw
  cases hstep with
  | inserted _ => exact hs
  | statement hrunning => exact absurd hs (hrunning res)

/-! ## The bound -/

omit [Sqlite] in
/-- The reading passes the filter and the window of the call. -/
def AnalyzeCall.selects (call : AnalyzeCall) (r : SensorReading) : Bool :=
  passes call.sensor r.sensorName && (toRfc3339 call.fromAt ≤ toRfc3339 r.recordedAt &&
    toRfc3339 r.recordedAt ≤ toRfc3339 call.toAt)

/-- The number of rows of the window. -/
def AnalyzeCall.rows (call : AnalyzeCall) (db : Db) : Nat :=
  (windowRows db call.sensor (toRfc3339 call.fromAt) (toRfc3339 call.toAt)).length

/-- The inserts before the `n`-th statement of the call. -/
def insertedBefore : Nat → List Event → List SensorReading
  | 0, _ => []
  | _ + 1, [] => []
  | n + 1, .inserted r :: es => r :: insertedBefore (n + 1) es
  | n + 1, .statement :: es => insertedBefore n es

/-- The statements the call still makes if none fails. -/
def Phase.left : Phase → Nat
  | .called => 3
  | .locked => 2
  | .counted => 1
  | .returned _ => 0

omit [Sqlite] in
/-- An insert adds one row to the window, or none. -/
theorem rows_inserted (call : AnalyzeCall) {db db' : Db} {r : SensorReading}
    (h : insertSql none db r.sensorName r.temperatureC (toRfc3339 r.recordedAt) = .ok db') :
    call.rows db' = call.rows db + if call.selects r then 1 else 0 := by
  obtain ⟨-, new, hnew, hholds⟩ := insertSql_ok h
  obtain ⟨row, _, hrow, hnil, rfl⟩ := List.forall₂_cons_right_iff.mp hholds
  rw [List.forall₂_nil_right_iff.mp hnil] at hnew
  have hsel : (passes call.sensor row.sensorName &&
      row.within (toRfc3339 call.fromAt) (toRfc3339 call.toAt)) = call.selects r := by
    rw [AnalyzeCall.selects, Row.within, hrow.sensorName, hrow.recordedAt]
  rw [AnalyzeCall.rows, AnalyzeCall.rows, windowRows, windowRows, hnew, List.filter_append,
    List.length_append, ← List.countP_eq_length_filter, ← List.countP_eq_length_filter,
    List.countP_singleton, hsel]

omit [Chrono] [Sqlite] in
theorem insertedBefore_zero (es : List Event) : insertedBefore 0 es = [] := by
  cases es <;> rfl

omit [Chrono] [Sqlite] in
theorem insertedBefore_inserted {phase : Phase} (h : ∀ res, phase ≠ .returned res)
    (r : SensorReading) (es : List Event) :
    insertedBefore phase.left (.inserted r :: es) = r :: insertedBefore phase.left es := by
  cases phase with
  | called => rfl
  | locked => rfl
  | counted => rfl
  | returned res => exact absurd rfl (h res)

theorem next_called (call : AnalyzeCall) (db : Db) :
    call.next db .called = .locked ∨ ∃ e, call.next db .called = .returned (.error e) := by
  simp only [AnalyzeCall.next]
  split
  · exact Or.inr ⟨_, rfl⟩
  · cases checkFault call.io.lock with
    | error e => exact Or.inr ⟨e, rfl⟩
    | ok u => exact Or.inl rfl

theorem next_locked (call : AnalyzeCall) (db : Db) :
    call.next db .locked = .counted ∨ ∃ e, call.next db .locked = .returned (.error e) := by
  simp only [AnalyzeCall.next]
  cases analyzeCount call.io db call.sensor call.fromAt call.toAt with
  | error e => exact Or.inr ⟨e, rfl⟩
  | ok u => exact Or.inl rfl

theorem not_ok_of_returned_error {call : AnalyzeCall} {db : Db} {phase : Phase} {w : World}
    {es : List Event} (h : Run (Step call) ⟨db, phase⟩ es w) {e : StoreError}
    (hphase : phase = .returned (.error e)) {rs : List AnalysisResult} :
    w.phase ≠ .returned (.ok rs) := by
  rw [run_returned h hphase]
  exact (nomatch ·)

/-- The results of a call count the rows of the window at its last statement.  The
induction is on the run, and the phase tells which statements are still to come. -/
theorem run_sum {call : AnalyzeCall} {w w' : World} {es : List Event}
    (h : Run (Step call) w es w') {rs : List AnalysisResult}
    (hw' : w'.phase = .returned (.ok rs)) (hw : ∀ res, w.phase ≠ .returned res) :
    (rs.map AnalysisResult.count).sum =
      call.rows w.db + (insertedBefore w.phase.left es).countP call.selects := by
  induction h with
  | nil => exact absurd hw' (hw _)
  | @cons _ _ _ _ es hstep hrest ih =>
      cases hstep with
      | inserted hinsert =>
          rw [ih hw' hw, rows_inserted call hinsert, insertedBefore_inserted hw,
            List.countP_cons]
          exact (Nat.add_right_comm _ _ _).trans (Nat.add_assoc _ _ _)
      | @statement db phase hrunning =>
          cases phase with
          | returned res => exact absurd rfl (hw res)
          | called =>
              rcases next_called call db with hnext | ⟨e, hnext⟩
              · rw [hnext] at ih
                exact ih hw' nofun
              · exact absurd hw' (not_ok_of_returned_error hrest hnext)
          | locked =>
              rcases next_locked call db with hnext | ⟨e, hnext⟩
              · rw [hnext] at ih
                exact ih hw' nofun
              · exact absurd hw' (not_ok_of_returned_error hrest hnext)
          | counted =>
              have hres := run_returned hrest rfl
              rw [hw', Phase.returned.injEq] at hres
              have hnone : insertedBefore 1 (.statement :: es) = [] := insertedBefore_zero es
              rw [sum_count_analyzeSelect hres.symm, Phase.left, hnone]
              rfl

/-- An analysis that succeeds keeps the bound exactly if the rows of the window, with
those inserted before its last statement, do. -/
theorem analyze_bound_iff {call : AnalyzeCall} {db db' : Db} {es : List Event}
    {rs : List AnalysisResult}
    (h : Run (Step call) ⟨db, .called⟩ es ⟨db', .returned (.ok rs)⟩) :
    (rs.map AnalysisResult.count).sum ≤ maxAnalysisRows ↔
      call.rows db + (insertedBefore 3 es).countP call.selects ≤ maxAnalysisRows := by
  rw [run_sum h rfl nofun]
  exact Iff.rfl

end

/-! ## A full window -/

/-- As many readings as an analysis admits. -/
def fullWindow : List SensorReading := List.replicate maxAnalysisRows ⟨"cpu", .exact 40, default⟩

/-- The store with these readings. -/
def fullStore : Db := (insertReadings Faults.none Db.empty fullWindow).1

theorem fullStore_appends : Appends Db.empty fullStore fullWindow := by
  have hfits : Db.empty.Fits fullWindow := by
    refine ⟨fun r hr => ?_, ?_⟩
    · rw [List.eq_of_mem_replicate hr]
      exact F64.noConfusion
    · rw [fullWindow, List.length_replicate]
      decide
  obtain ⟨db, hdb⟩ := insertReadings_isOk_iff.mpr hfits
  rw [fullStore, hdb]
  exact (insertReadings_ok hdb).2

/-- The call that asks for all of them. -/
def fullCall : AnalyzeCall :=
  ⟨Faults.none, none, default, { (default : DateTime) with dayNumber := 1 }⟩

theorem fullCall_rows {db : Db} {readings : List SensorReading} (h : Appends Db.empty db readings)
    (hall : ∀ r ∈ readings, r = ⟨"cpu", .exact 40, default⟩) :
    db.WellTimed ∧ fullCall.rows db = readings.length := by
  have hyears : ∀ r ∈ readings, r.recordedAt.FourDigitYear := by
    intro r hr
    rw [hall r hr]
    decide
  have hdb := h.wellTimed hyears Db.empty_wellTimed
  refine ⟨hdb, ?_⟩
  have hwindow : inWindow db.stored none fullCall.fromAt fullCall.toAt = readings := by
    rw [h.stored hyears]
    refine List.filter_eq_self.mpr fun r hr => ?_
    rw [hall r hr]
    decide
  rw [AnalyzeCall.rows, fullCall, length_windowRows hdb none (by decide) (by decide)]
  exact congrArg List.length hwindow

theorem fullCall_called (db : Db) : fullCall.next db .called = .locked := by
  simp only [AnalyzeCall.next]
  exact if_neg (by decide)

theorem fullCall_locked {db : Db} (h : fullCall.rows db ≤ maxAnalysisRows) :
    fullCall.next db .locked = .counted := by
  have hcount : analyzeCount fullCall.io db fullCall.sensor fullCall.fromAt fullCall.toAt =
      .ok () := by
    rw [analyzeCount_eq]
    exact if_neg (not_lt.mpr h)
  simp only [AnalyzeCall.next, hcount]

theorem fullCall_counted {db : Db} (h : db.WellTimed) :
    ∃ rs, fullCall.next db .counted = .returned (.ok rs) := by
  obtain ⟨rs, hrs, -⟩ := collectRows_analyzeSql h none
    (show fullCall.fromAt < fullCall.toAt by decide) (by decide)
  refine ⟨rs, congrArg Phase.returned ?_⟩
  rw [analyzeSelect_eq]
  exact hrs

/-- The call passes its check and prepares the second statement. -/
theorem fullCall_admitted {db : Db} (hrows : fullCall.rows db ≤ maxAnalysisRows) :
    Run (Step fullCall) ⟨db, .called⟩ [.statement, .statement] ⟨db, .counted⟩ := by
  refine .cons (.statement nofun) ?_
  rw [fullCall_called]
  refine .cons (.statement nofun) ?_
  rw [fullCall_locked hrows]
  exact .nil

/-- Its second statement succeeds. -/
theorem fullCall_answered {db : Db} (hdb : db.WellTimed) :
    ∃ rs, Run (Step fullCall) ⟨db, .counted⟩ [.statement] ⟨db, .returned (.ok rs)⟩ := by
  obtain ⟨rs, hrs⟩ := fullCall_counted hdb
  refine ⟨rs, .cons (.statement nofun) ?_⟩
  rw [hrs]
  exact .nil

/-- The reading another process adds. -/
def lateReading : SensorReading := ⟨"cpu", .exact 40, default⟩

/-- An insert between the two statements is counted with the rows that were there. -/
theorem fullCall_overtaken {db db' : Db} (hrows : fullCall.rows db ≤ maxAnalysisRows)
    (hdb' : db'.WellTimed)
    (hinsert : insertSql none db lateReading.sensorName lateReading.temperatureC
      (toRfc3339 lateReading.recordedAt) = .ok db') :
    ∃ es rs, Run (Step fullCall) ⟨db, .called⟩ es ⟨db', .returned (.ok rs)⟩ ∧
      (rs.map AnalysisResult.count).sum = fullCall.rows db + 1 := by
  obtain ⟨rs, hanswered⟩ := fullCall_answered hdb'
  have hrun := (fullCall_admitted hrows).append (.cons (.inserted hinsert) hanswered)
  have hone : (insertedBefore 3 [.statement, .statement, .inserted lateReading,
      .statement]).countP fullCall.selects = 1 := by decide
  have hsum := run_sum hrun rfl nofun
  exact ⟨_, rs, hrun, hsum.trans (congrArg (fullCall.rows db + ·) hone)⟩

/-- One insert between the statements exceeds the bound. -/
theorem analyze_unbounded :
    ¬ ∀ (call : AnalyzeCall) (db db' : Db) (es : List Event) (rs : List AnalysisResult),
      call.fromAt < call.toAt →
      Run (Step call) ⟨db, .called⟩ es ⟨db', .returned (.ok rs)⟩ →
      (rs.map AnalysisResult.count).sum ≤ maxAnalysisRows := by
  intro hall
  obtain ⟨-, hrows⟩ := fullCall_rows fullStore_appends fun r hr => List.eq_of_mem_replicate hr
  have hseq : fullStore.seq < maxRowid := by
    rw [fullStore_appends.1, fullWindow, List.length_replicate]
    decide
  rw [fullWindow, List.length_replicate] at hrows
  obtain ⟨db, hinsert⟩ := (insertSql_isOk_iff fullStore lateReading.sensorName
    lateReading.temperatureC (toRfc3339 lateReading.recordedAt)).mpr ⟨F64.noConfusion, hseq⟩
  obtain ⟨hdb, -⟩ := fullCall_rows (fullStore_appends.trans (insertSql_ok hinsert))
    fun r hr => by
      rcases List.mem_append.mp hr with hr | hr
      · exact List.eq_of_mem_replicate hr
      · exact List.mem_singleton.mp hr
  obtain ⟨es, rs, hrun, hsum⟩ := fullCall_overtaken hrows.le hdb hinsert
  have hbound := hall fullCall fullStore db es rs (by decide) hrun
  rw [hsum, hrows] at hbound
  exact absurd hbound (Nat.not_succ_le_self _)

/-- The analysis of the full window alone keeps the bound. -/
theorem analyze_bound_full :
    ∃ n rs, Run (Step fullCall) ⟨fullStore, .called⟩ (List.replicate n .statement)
        ⟨fullStore, .returned (.ok rs)⟩ ∧
      ((rs.map AnalysisResult.count).sum ≤ maxAnalysisRows ↔
        fullCall.rows fullStore + (insertedBefore 3 (List.replicate n .statement)).countP
          fullCall.selects ≤ maxAnalysisRows) := by
  obtain ⟨hdb, hrows⟩ := fullCall_rows fullStore_appends fun r hr => List.eq_of_mem_replicate hr
  rw [fullWindow, List.length_replicate] at hrows
  obtain ⟨rs, hanswered⟩ := fullCall_answered hdb
  have hrun := (fullCall_admitted hrows.le).append hanswered
  exact ⟨3, rs, hrun, analyze_bound_iff hrun⟩

end Tempcheck
