import Tempcheck.Chrono.Parser
import Tempcheck.Deployment.Handlers

/-!
# The rows of all processes

Whatever the processes do, the file only grows, by one row for each `INSERT` that succeeded
(`run_appends`).  So the history of a run is a log of the table.

A task stores what its own collection gave and nothing else, in order, up to where it fails
(`Honest`).  A tick, a snapshot that is saved and a request for current readings that ends
without an error have stored all of it (`complete_of_yields`).  `deployment_rows` puts this
together: the rows that a run adds are an interleaving of what its tasks store.
-/

namespace Tempcheck

namespace Deployment

open Transition (Run)
open Program (Prog doneBy query)
open Shared (Asks Exchange Follows Implements Yields asks_query yields_bind yields_map
  yields_pure yields_query yields_refine)

/-! ## What a statement stores and what it collects -/

/-- The reading that a statement has put into the table. -/
def stored? : Executed → Option SensorReading
  | ⟨.insert reading, .ok _⟩ => some reading
  | _ => none

/-- The readings that a statement has collected. -/
def collected : Executed → List SensorReading
  | ⟨.collect, .ok readings⟩ => readings
  | _ => []

/-- The readings that some statements have put into the table. -/
def inserts (es : List Executed) : List SensorReading := es.filterMap stored?

/-- The readings that some statements have collected. -/
def collections (es : List Executed) : List SensorReading := es.flatMap collected

@[simp] theorem inserts_append (es es' : List Executed) :
    inserts (es ++ es') = inserts es ++ inserts es' := List.filterMap_append

@[simp] theorem collections_append (es es' : List Executed) :
    collections (es ++ es') = collections es ++ collections es' := List.flatMap_append

/-- The statement inserts nothing. -/
def Statement.ReadOnly : Statement → Prop
  | .insert _ => False
  | _ => True

/-- The statement collects nothing. -/
def Statement.Blind : Statement → Prop
  | .collect => False
  | _ => True

theorem inserts_eq_nil {es : List Executed} (h : ∀ x ∈ es, x.1.ReadOnly) : inserts es = [] := by
  refine List.filterMap_eq_nil_iff.mpr fun x hx => ?_
  obtain ⟨o, a⟩ := x
  cases o with
  | insert reading => exact absurd (h _ hx) id
  | _ => rfl

theorem collections_eq_nil {es : List Executed} (h : ∀ x ∈ es, x.1.Blind) :
    collections es = [] := by
  refine List.flatMap_eq_nil_iff.mpr fun x hx => ?_
  obtain ⟨o, a⟩ := x
  cases o with
  | collect => exact absurd (h _ hx) id
  | _ => rfl

/-! ## The table is a log -/

section

variable [Chrono] [Sqlite] {db db' : Db}

/-- A statement appends what it stores. -/
theorem Serves.appends {x : Executed} (h : Serves db x db') :
    Appends db db' (stored? x).toList := by
  cases h with
  | inserted hinsert => exact insertSql_ok hinsert
  | _ => exact Appends.refl db

theorem run_appends {es : List Executed} (h : Run Serves db es db') :
    Appends db db' (inserts es) := by
  induction h with
  | nil => exact Appends.refl _
  | @cons _ _ _ x es hstep _ ih =>
      have heq : inserts (x :: es) = (stored? x).toList ++ inserts es := by
        rw [inserts, List.filterMap_cons]
        cases stored? x <;> rfl
      rw [heq]
      exact (Serves.appends hstep).trans ih

end

/-! ## What the calls store -/

section

variable [Chrono]

omit [Chrono] in
theorem asks_dbCall {C : Statement → Prop} {α : Type} {p : Session (Except String α)}
    (hp : Asks C p) : Asks C (dbCall p).run := hp.bind fun _ => trivial

theorem asks_analyze {C : Statement → Prop} (hlock : C .lock) (hprepare : C .prepare)
    (hcount : ∀ sensor lo hi, C (.count sensor lo hi))
    (haggregate : ∀ sensor lo hi, C (.aggregate sensor lo hi)) (sensor : Option String)
    (fromAt toAt : DateTime) : Asks C (SqliteStore.analyze sensor fromAt toAt).run := by
  refine Asks.attempt trivial fun _ => ?_
  refine Asks.attempt (asks_dbCall (asks_query hlock)) fun _ => ?_
  refine Asks.attempt (asks_dbCall (asks_query (hcount ..))) fun _ => ?_
  refine Asks.attempt trivial fun _ => ?_
  refine Asks.attempt (asks_dbCall (asks_query hprepare)) fun _ => ?_
  exact Asks.attempt (asks_dbCall (asks_query (haggregate ..))) fun _ => trivial

theorem asks_recentReadings {C : Statement → Prop} (hlock : C .lock) (hprepare : C .prepare)
    (hrecent : ∀ sensor limit, C (.recent sensor limit)) (sensor : Option String)
    (limit : UInt64) : Asks C (SqliteStore.recentReadings sensor limit).run := by
  refine Asks.attempt (asks_dbCall (asks_query hlock)) fun _ => ?_
  refine Asks.attempt (asks_dbCall (asks_query hprepare)) fun _ => ?_
  exact Asks.attempt (asks_dbCall (asks_query (hrecent ..))) fun _ => trivial

omit [Chrono] in
theorem asks_insertReadings {C : Statement → Prop} (hlock : C .lock)
    (hinsert : ∀ reading, C (.insert reading)) (readings : List SensorReading) :
    Asks C (SqliteStore.insertReadings readings).run := by
  refine Asks.attempt (asks_dbCall (asks_query hlock)) fun _ => ?_
  generalize 0 = count
  induction readings generalizing count with
  | nil => trivial
  | cons r readings ih =>
      exact Asks.attempt (asks_dbCall (asks_query (hinsert r))) fun _ => ih (count + 1)

/-- Only `insert_readings` inserts. -/
theorem asks_readOnly : ∀ c : Call, (∀ readings, c ≠ .insertReadings readings) →
    Asks Statement.ReadOnly c.statements
  | .open, _ => asks_dbCall (asks_query trivial)
  | .insertReadings readings, h => absurd rfl (h readings)
  | .analyze _ _ _, _ =>
      asks_analyze trivial trivial (fun _ _ _ => trivial) (fun _ _ _ => trivial) ..
  | .recentReadings _ _, _ => asks_recentReadings trivial trivial (fun _ _ => trivial) ..
  | .collect, _ => asks_query trivial
  | .now, _ => asks_query trivial
  | .print _, _ => asks_query trivial

/-- Only `collect` collects. -/
theorem asks_blind : ∀ c : Call, c ≠ .collect → Asks Statement.Blind c.statements
  | .open, _ => asks_dbCall (asks_query trivial)
  | .insertReadings readings, _ => asks_insertReadings trivial (fun _ => trivial) readings
  | .analyze _ _ _, _ =>
      asks_analyze trivial trivial (fun _ _ _ => trivial) (fun _ _ _ => trivial) ..
  | .recentReadings _ _, _ => asks_recentReadings trivial trivial (fun _ _ => trivial) ..
  | .collect, h => absurd rfl h
  | .now, _ => asks_query trivial
  | .print _, _ => asks_query trivial

omit [Chrono] in
/-- The exchange of a statement with `?`. -/
theorem yields_dbCall {α : Type} {p : Session (Except String α)} {r : Except StoreError α}
    {es : List Executed} :
    Yields (dbCall p).run es r ↔ ∃ a, Yields p es a ∧ r = a.mapError .db := by
  refine yields_bind.trans ⟨?_, ?_⟩
  · rintro ⟨a, es₁, es₂, rfl, hp, hret⟩
    obtain ⟨rfl, rfl⟩ := yields_pure.mp hret
    exact ⟨a, by rwa [List.append_nil], rfl⟩
  · rintro ⟨a, hp, rfl⟩
    exact ⟨a, es, [], (List.append_nil es).symm, hp, yields_pure.mpr ⟨rfl, rfl⟩⟩

omit [Chrono] in
/-- A call that has stored nothing yet. -/
theorem prefix_of_inserts_eq_nil {readings : List SensorReading} {es : List Executed}
    (h : inserts es = []) : inserts es <+: readings := by
  rw [h]
  exact List.nil_prefix

omit [Chrono] in
/-- A batch stores its readings up to where it fails. -/
theorem inserts_insertLoop : ∀ {readings : List SensorReading} {count : Nat}
    {es : List Executed} {res : Except StoreError Nat},
    Yields (SqliteStore.insertLoop readings count).run es res →
    inserts es <+: readings ∧
      ∀ n, res = .ok n → inserts es = readings ∧ n = count + readings.length
  | [], count, es, res, h => by
      obtain ⟨rfl, rfl⟩ := yields_pure.mp h
      refine ⟨List.prefix_rfl, fun n hn => ⟨rfl, ?_⟩⟩
      cases hn
      rfl
  | r :: readings, count, es, res, h => by
      rcases Shared.yields_attempt.mp h with ⟨e, hfail, rfl⟩ | ⟨u, es₁, es₂, rfl, hok, hrest⟩
      · obtain ⟨a, ha, he⟩ := yields_dbCall.mp hfail
        rw [yields_query.mp ha]
        cases a with
        | ok u => cases he
        | error msg => exact ⟨prefix_of_inserts_eq_nil rfl, fun n hn => nomatch hn⟩
      · obtain ⟨a, ha, he⟩ := yields_dbCall.mp hok
        rw [yields_query.mp ha]
        cases a with
        | error msg => cases he
        | ok u =>
            obtain ⟨hinit, hall⟩ := inserts_insertLoop hrest
            rw [inserts_append]
            refine ⟨List.cons_prefix_cons.mpr ⟨rfl, hinit⟩, fun n hn => ?_⟩
            obtain ⟨heq, hcount⟩ := hall n hn
            refine ⟨congrArg (r :: ·) heq, ?_⟩
            rw [hcount, List.length_cons]
            omega

omit [Chrono] in
theorem inserts_insertReadings {readings : List SensorReading} {es : List Executed}
    {res : Except StoreError Nat}
    (h : Yields (SqliteStore.insertReadings readings).run es res) :
    inserts es <+: readings ∧ ∀ n, res = .ok n → inserts es = readings ∧ n = readings.length := by
  rcases Shared.yields_attempt.mp h with ⟨e, hfail, rfl⟩ | ⟨u, es₁, es₂, rfl, hok, hrest⟩
  · obtain ⟨a, ha, -⟩ := yields_dbCall.mp hfail
    rw [yields_query.mp ha]
    exact ⟨prefix_of_inserts_eq_nil rfl, fun n hn => nomatch hn⟩
  · obtain ⟨a, ha, -⟩ := yields_dbCall.mp hok
    rw [yields_query.mp ha, inserts_append]
    obtain ⟨hinit, hall⟩ := inserts_insertLoop hrest
    refine ⟨hinit, fun n hn => ?_⟩
    obtain ⟨heq, hcount⟩ := hall n hn
    exact ⟨heq, hcount.trans (Nat.zero_add _)⟩

/-! ## What the handlers store -/

/-- The calls of a handler end with the insertion of what it collected, or insert nothing. -/
def Deposits (xs : List Called) : Prop :=
  (∀ x ∈ xs, ∀ readings, x.1 ≠ .insertReadings readings) ∨
    ∃ pre mid readings res, xs = pre ++ ⟨.collect, .ok readings⟩ ::
        (mid ++ [⟨.insertReadings readings, res⟩]) ∧
      ∀ x ∈ pre ++ mid, x.1 ≠ .collect ∧ ∀ readings, x.1 ≠ .insertReadings readings

/-- At no time more is stored than was collected, and that is stored in order. -/
def Honest (es : List Executed) : Prop := ∀ pre, pre <+: es → inserts pre <+: collections pre

omit [Chrono] in
theorem Honest.of_inserts {es : List Executed} (h : inserts es = []) : Honest es := by
  intro pre hpre
  have hnil : inserts pre <+: inserts es := hpre.filterMap stored?
  rw [h] at hnil
  rw [List.prefix_nil.mp hnil]
  exact List.nil_prefix

omit [Chrono] in
/-- After a collection its readings may be stored. -/
theorem Honest.of_collect {es es' : List Executed} {readings : List SensorReading}
    (hes : inserts es = []) (hblind : collections es = []) (hes' : inserts es' <+: readings) :
    Honest (es ++ ⟨.collect, .ok readings⟩ :: es') := by
  rintro pre ⟨post, h⟩
  rcases List.append_eq_append_iff.mp h with ⟨as, hpre, -⟩ | ⟨bs, rfl, hrest⟩
  · exact Honest.of_inserts hes pre ⟨as, hpre.symm⟩
  cases bs with
  | nil =>
      rw [List.append_nil, hes]
      exact List.nil_prefix
  | cons x bs =>
      obtain ⟨rfl, rfl⟩ := List.cons_eq_cons.mp hrest
      have hstored : inserts (es ++ ⟨.collect, .ok readings⟩ :: bs) = inserts bs := by
        rw [inserts_append, hes]
        rfl
      have hcollected : collections (es ++ ⟨.collect, .ok readings⟩ :: bs) =
          readings ++ collections bs := by
        rw [collections_append, hblind]
        rfl
      change inserts (bs ++ post) <+: readings at hes'
      rw [inserts_append] at hes'
      rw [hstored, hcollected]
      exact ((List.prefix_append _ _).trans hes').trans (List.prefix_append _ _)

theorem implements_readOnly {xs : List Called} {es : List Executed}
    (h : Implements Call.statements xs es)
    (hxs : ∀ x ∈ xs, ∀ readings, x.1 ≠ .insertReadings readings) :
    ∀ e ∈ es, e.1.ReadOnly := by
  intro e he
  obtain ⟨x, hx, es', hes', hmem⟩ := h.exists_mem he
  exact (asks_readOnly x.1 (hxs x hx)).follows hes' e hmem

theorem implements_blind {xs : List Called} {es : List Executed}
    (h : Implements Call.statements xs es) (hxs : ∀ x ∈ xs, x.1 ≠ .collect) :
    ∀ e ∈ es, e.1.Blind := by
  intro e he
  obtain ⟨x, hx, es', hes', hmem⟩ := h.exists_mem he
  exact (asks_blind x.1 (hxs x hx)).follows hes' e hmem

theorem Deposits.honest {xs : List Called} {es : List Executed} (h : Deposits xs)
    (himpl : Implements Call.statements xs es) : Honest es := by
  rcases h with hnone | ⟨pre, mid, readings, res, rfl, hquiet⟩
  · exact .of_inserts (inserts_eq_nil (implements_readOnly himpl hnone))
  obtain ⟨es₁, es₂, es₃, rfl, hpre, hcollect, hrest⟩ := himpl.split
  obtain ⟨es₄, es₅, es₆, rfl, hmid, hinsert, hnil⟩ := hrest.split
  cases hnil
  obtain rfl := yields_query.mp hcollect
  have hpreRead := inserts_eq_nil (implements_readOnly hpre fun x hx =>
    (hquiet x (List.mem_append_left _ hx)).2)
  have hpreBlind := collections_eq_nil (implements_blind hpre fun x hx =>
    (hquiet x (List.mem_append_left _ hx)).1)
  have hmidRead := inserts_eq_nil (implements_readOnly hmid fun x hx =>
    (hquiet x (List.mem_append_right _ hx)).2)
  have hinserts : inserts (es₄ ++ es₅) = inserts es₅ := by rw [inserts_append, hmidRead]; rfl
  rw [List.append_nil, List.append_assoc, List.singleton_append]
  exact .of_collect hpreRead hpreBlind (hinserts ▸ (inserts_insertReadings hinsert).1)

/-- What a call collects, and what it stores if it does not fail. -/
def Called.collected : Called → List SensorReading
  | ⟨.collect, .ok readings⟩ => readings
  | _ => []

/-- The readings that a call is to insert. -/
def Called.inserted : Called → List SensorReading
  | ⟨.insertReadings readings, _⟩ => readings
  | _ => []

/-- No insertion fails. -/
def Unfailing (xs : List Called) : Prop :=
  ∀ x ∈ xs, ∀ readings e, x ≠ ⟨.insertReadings readings, .error e⟩

theorem collections_of_implements {xs : List Called} {es : List Executed}
    (h : Implements Call.statements xs es) : collections es = xs.flatMap Called.collected := by
  induction h with
  | nil => rfl
  | @cons c a es es' xs hcall _ ih =>
      rw [collections_append, ih, List.flatMap_cons]
      congr 1
      cases c with
      | collect =>
          rw [yields_query.mp hcall]
          cases a with
          | ok readings => exact List.append_nil readings
          | error e => rfl
      | _ => exact collections_eq_nil ((asks_blind _ (by nofun)).follows hcall)

theorem inserts_of_implements {xs : List Called} {es : List Executed}
    (h : Implements Call.statements xs es) (hok : Unfailing xs) :
    inserts es = xs.flatMap Called.inserted := by
  induction h with
  | nil => rfl
  | @cons c a es es' xs hcall _ ih =>
      rw [inserts_append, ih fun x hx => hok x (List.mem_cons_of_mem _ hx), List.flatMap_cons]
      congr 1
      cases c with
      | insertReadings readings =>
          cases a with
          | ok n => exact ((inserts_insertReadings hcall).2 n rfl).1
          | error e => exact absurd rfl (hok _ (List.mem_cons_self ..) readings e)
      | _ => exact inserts_eq_nil ((asks_readOnly _ (by nofun)).follows hcall)

/-! ## What the tasks store -/

omit [Chrono] in
theorem yields_tick_deposits {xs : List Called} {log : TickLog} (h : Yields tick xs log) :
    Deposits xs := by
  rcases yields_tick h with ⟨e, rfl, -⟩ | ⟨rfl, -⟩ | ⟨readings, res, -, -, rfl⟩
  · exact Or.inl (by simp)
  · exact Or.inl (by simp)
  · exact Or.inr ⟨[], [], readings, res, rfl, by simp⟩

omit [Chrono] in
theorem yields_getCurrent_deposits {xs : List Called}
    {res : Except ApiError (List SensorReading)} (h : Yields getCurrent xs res) :
    Deposits xs := by
  rcases yields_getCurrent h with ⟨e, rfl, -⟩ | ⟨recent, -, rfl, -⟩ | ⟨recent, xs', -, rfl, h'⟩
  · exact Or.inl (by simp)
  · exact Or.inl (by simp)
  · rcases yields_fallback h' with ⟨e, rfl, -⟩ | ⟨rfl, -⟩ | ⟨readings, n, -, -, rfl⟩
    · exact Or.inl (by simp)
    · exact Or.inl (by simp)
    · exact Or.inr ⟨[⟨.recentReadings none 512, .ok recent⟩], [], readings, n, rfl, by simp⟩

omit [Chrono] in
theorem yields_once_deposits [PrettyEncoder] {save : Bool} {xs : List Called}
    {res : Except String Unit} (h : Yields (once save) xs res) : Deposits xs := by
  rcases yields_once h with ⟨e, rfl, -⟩ | ⟨readings, e, rfl, -⟩ | ⟨readings, json, -, h⟩
  · exact Or.inl (by simp)
  · exact Or.inl (by simp)
  · rcases h with ⟨-, rfl, -⟩ | ⟨e, rfl, -⟩ | ⟨n, -, -, rfl⟩
    · exact Or.inl (by simp)
    · exact Or.inl (by simp)
    · exact Or.inr ⟨[], [⟨.print json, ()⟩, ⟨.open, .ok ()⟩], readings, n, rfl, by simp⟩

/-- The task is one that stores what it collects. -/
def Task.Writes : Task → Prop
  | .tick => True
  | .current => True
  | .once save => save = true
  | .history _ => False
  | .tool _ _ => False

/-- The task has ended without an error. -/
def Outcome.Succeeded : Outcome → Prop
  | .tick log => log = .noSensors ∨ ∃ n, log = .stored n
  | .current response => ∃ readings, response = .ok readings
  | .history response => ∃ analysis, response = .ok analysis
  | .tool response => ∃ result, response = .ok result
  | .once res => res = .ok ()

variable [Encoders] [PrettyEncoder] {task : Task} {es : List Executed} {outcome : Outcome}

omit [Encoders] [PrettyEncoder] in
theorem asks_history (q : HistoryQuery) : Asks Statement.ReadOnly
    (Shared.refine Call.statements (Outcome.history <$> getHistory q)) := by
  have hcalls : Asks (fun c => ∀ readings, c ≠ Call.insertReadings readings)
      (Outcome.history <$> getHistory q) := by
    refine Asks.bind ?_ fun _ => trivial
    rw [getHistory]
    by_cases hhours : ¬ (1 ≤ q.hours.getD 24 ∧ q.hours.getD 24 ≤ 24 * 30)
    · simp only [if_pos hhours]
      trivial
    · simp only [if_neg hhours]
      exact ⟨fun _ => Call.noConfusion, fun _ => ⟨fun _ => Call.noConfusion, fun _ => trivial⟩⟩
  exact hcalls.refine fun c hc => asks_readOnly c hc

omit [PrettyEncoder] in
theorem asks_tool (service : TemperatureMcpService) (call : ToolCall) :
    Asks Statement.ReadOnly (Shared.refine opStatements (Outcome.tool <$> service.serve call)) := by
  refine (Shared.asks_any _).refine fun o _ => ?_
  cases o with
  | analyze sensor fromAt toAt =>
      exact asks_analyze trivial trivial (fun _ _ _ => trivial) (fun _ _ _ => trivial) ..
  | _ => exact asks_query trivial

/-- What a thread stores is at no time more than it collected. -/
theorem honest_of_yields (h : Yields task.session es outcome) : Honest es := by
  cases task with
  | tick =>
      obtain ⟨xs, hxs, himpl⟩ := yields_refine.mp h
      obtain ⟨log, hlog, -⟩ := yields_map.mp hxs
      exact (yields_tick_deposits hlog).honest himpl
  | current =>
      obtain ⟨xs, hxs, himpl⟩ := yields_refine.mp h
      obtain ⟨res, hres, -⟩ := yields_map.mp hxs
      exact (yields_getCurrent_deposits hres).honest himpl
  | once save =>
      obtain ⟨xs, hxs, himpl⟩ := yields_refine.mp h
      obtain ⟨res, hres, -⟩ := yields_map.mp hxs
      exact (yields_once_deposits hres).honest himpl
  | history q => exact .of_inserts (inserts_eq_nil ((asks_history q).follows h))
  | tool service call => exact .of_inserts (inserts_eq_nil ((asks_tool service call).follows h))

/-- A task that does not write stores nothing. -/
theorem readOnly_of_yields (h : Yields task.session es outcome) (hwrites : ¬ task.Writes) :
    inserts es = [] := by
  cases task with
  | tick => exact absurd trivial hwrites
  | current => exact absurd trivial hwrites
  | history q => exact inserts_eq_nil ((asks_history q).follows h)
  | tool service call => exact inserts_eq_nil ((asks_tool service call).follows h)
  | once save =>
      obtain ⟨xs, hxs, himpl⟩ := yields_refine.mp h
      obtain ⟨res, hres, -⟩ := yields_map.mp hxs
      refine inserts_eq_nil (implements_readOnly himpl ?_)
      rcases yields_once hres with ⟨e, rfl, -⟩ | ⟨readings, e, rfl, -⟩ | ⟨readings, json, -, h⟩
      · simp
      · simp
      · rcases h with ⟨-, rfl, -⟩ | ⟨e, rfl, -⟩ | ⟨n, hsave, -, -⟩
        · simp
        · simp
        · exact absurd hsave hwrites

/-- A task that has succeeded has stored all it collected. -/
theorem complete_of_yields (h : Yields task.session es outcome) (hwrites : task.Writes)
    (hdone : outcome.Succeeded) : inserts es = collections es := by
  cases task with
  | tool service call => exact absurd hwrites id
  | history q => exact absurd hwrites id
  | tick =>
      obtain ⟨xs, hxs, himpl⟩ := yields_refine.mp h
      obtain ⟨log, hlog, rfl⟩ := yields_map.mp hxs
      rw [collections_of_implements himpl]
      rcases yields_tick hlog with ⟨e, rfl, rfl⟩ | ⟨rfl, rfl⟩ | ⟨readings, res, -, rfl, rfl⟩
      · simp [Outcome.Succeeded] at hdone
      · exact inserts_of_implements himpl (by simp [Unfailing])
      · cases res with
        | error e => simp [Outcome.Succeeded, TickLog.ofInsert] at hdone
        | ok n =>
            rw [inserts_of_implements himpl (by simp [Unfailing])]
            simp [Called.inserted, Called.collected]
  | current =>
      obtain ⟨xs, hxs, himpl⟩ := yields_refine.mp h
      obtain ⟨res, hres, rfl⟩ := yields_map.mp hxs
      obtain ⟨answer, rfl⟩ := hdone
      rw [collections_of_implements himpl]
      rcases yields_getCurrent hres with ⟨e, -, herror⟩ | ⟨recent, -, rfl, -⟩ |
        ⟨recent, xs', -, rfl, hrest⟩
      · cases herror
      · exact inserts_of_implements himpl (by simp [Unfailing])
      · rcases yields_fallback hrest with ⟨e, -, herror⟩ | ⟨rfl, -⟩ |
          ⟨readings, n, -, hanswer, rfl⟩
        · cases herror
        · exact inserts_of_implements himpl (by simp [Unfailing])
        · cases n with
          | error e => exact nomatch hanswer
          | ok n =>
              rw [inserts_of_implements himpl (by simp [Unfailing])]
              simp [Called.inserted, Called.collected]
  | once save =>
      obtain ⟨xs, hxs, himpl⟩ := yields_refine.mp h
      obtain ⟨res, hres, rfl⟩ := yields_map.mp hxs
      obtain rfl : res = .ok () := hdone
      obtain rfl : save = true := hwrites
      rw [collections_of_implements himpl]
      rcases yields_once hres with ⟨e, -, herror⟩ | ⟨readings, e, -, herror⟩ |
        ⟨readings, json, -, h⟩
      · cases herror
      · cases herror
      · rcases h with ⟨hsave, -, -⟩ | ⟨e, -, herror⟩ | ⟨n, -, hanswer, rfl⟩
        · cases hsave
        · cases herror
        · cases n with
          | error e => exact nomatch hanswer
          | ok n =>
              rw [inserts_of_implements himpl (by simp [Unfailing])]
              simp [Called.inserted, Called.collected]

/-! ## Runs -/

variable [Sqlite] {ι : Type} [DecidableEq ι] {tasks : ι → Task} {db db' : Db}
  {ts : ι → Session Outcome} {history : List (ι × Executed)}

/-- A thread has stored no more than it collected, also before it is done. -/
theorem honest_of_run
    (h : Run (Shared.Step Serves) (db, fun i => (tasks i).session) history (db', ts)) (i : ι) :
    Honest (doneBy i history) :=
  Shared.Run.always h (fun es es' hall pre hpre => hall pre (hpre.trans (es.prefix_append es')))
    fun _ _ hes => honest_of_yields hes

/-- The rows that a run adds are an interleaving of what its tasks store.  A task stores
what it collected, in order, or a part up to where it is now or has failed. -/
theorem deployment_rows
    (h : Run (Shared.Step Serves) (db, fun i => (tasks i).session) history (db', ts)) :
    ∃ rows : List (ι × SensorReading), Appends db db' (rows.map Prod.snd) ∧
      ∀ i, doneBy i rows <+: collections (doneBy i history) ∧
        (¬ (tasks i).Writes → doneBy i rows = []) ∧
        ∀ outcome, ts i = .ret outcome → (tasks i).Writes → outcome.Succeeded →
          doneBy i rows = collections (doneBy i history) := by
  refine ⟨Shared.tagged stored? history, ?_, fun i => ?_⟩
  · rw [Shared.map_snd_tagged]
    exact run_appends (Shared.Run.object h)
  rw [Shared.doneBy_tagged]
  have hfollows : Follows (tasks i).session (doneBy i history) (ts i) :=
    Shared.Run.follows h i
  refine ⟨?_, fun hwrites => ?_, fun outcome hret hwrites hdone => ?_⟩
  · exact honest_of_run h i _ List.prefix_rfl
  · refine Shared.Run.always h (P := fun es => inserts es = []) (fun es es' hall => ?_)
      fun _ _ hes => readOnly_of_yields hes hwrites
    rw [inserts_append] at hall
    exact (List.append_eq_nil_iff.mp hall).1
  · rw [hret] at hfollows
    exact complete_of_yields hfollows hwrites hdone

end

/-- A reading of one of two machines. -/
def readingOf (i : Bool) : SensorReading := ⟨if i then "gpu" else "cpu", .exact 40, default⟩

/-- Two ticks that take turns. -/
def twoTicks : List (Bool × Executed) :=
  [(false, ⟨.collect, .ok [readingOf false]⟩), (true, ⟨.collect, .ok [readingOf true]⟩),
    (true, ⟨.lock, .ok ()⟩), (false, ⟨.lock, .ok ()⟩), (false, ⟨.insert (readingOf false), .ok ()⟩),
    (true, ⟨.insert (readingOf true), .ok ()⟩)]

theorem run_twoTicks : ∃ db' ts,
    Run (Shared.Step Serves) (Db.empty, fun _ => Task.tick.session) twoTicks (db', ts) ∧
      ∀ i, ts i = .ret (.tick (.stored 1)) := by
  have hseq : Db.empty.seq < maxRowid := by decide
  obtain ⟨db, hdb⟩ := (insertSql_isOk_iff Db.empty (readingOf false).sensorName
    (readingOf false).temperatureC (toRfc3339 (readingOf false).recordedAt)).mpr ⟨nofun, hseq⟩
  have hseq' : db.seq < maxRowid := by
    rw [(insertSql_ok hdb).1]
    decide
  obtain ⟨db', hdb'⟩ := (insertSql_isOk_iff db (readingOf true).sensorName
    (readingOf true).temperatureC (toRfc3339 (readingOf true).recordedAt)).mpr ⟨nofun, hseq'⟩
  refine ⟨db', _, .cons (.ask rfl .collected) (.cons (.ask rfl .collected)
    (.cons (.ask rfl .locked) (.cons (.ask rfl .locked) (.cons (.ask rfl (.inserted hdb))
      (.cons (.ask rfl (.inserted hdb')) .nil))))), ?_⟩
  rintro (_ | _) <;> rfl

theorem deployment_rows_twoTicks : ∃ db' ts rows,
    Run (Shared.Step Serves) (Db.empty, fun _ => Task.tick.session) twoTicks (db', ts) ∧
      Appends Db.empty db' (rows.map Prod.snd) ∧
      ∀ i, doneBy i rows = collections (doneBy i twoTicks) := by
  obtain ⟨db', ts, hrun, hts⟩ := run_twoTicks
  obtain ⟨rows, happends, hrows⟩ := deployment_rows hrun
  exact ⟨db', ts, rows, hrun, happends, fun i =>
    (hrows i).2.2 _ (hts i) trivial (Or.inr ⟨1, rfl⟩)⟩

end Deployment

end Tempcheck
