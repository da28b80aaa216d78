import Tempcheck.Deployment.Reads

/-!
# What a snapshot prints and saves

`tempcheck once --save` prints the readings it collected and then stores them, row by row.
If it ends without an error, the text that it has printed is that of the rows it has stored,
in their order, whatever the other processes do to the file in the meantime (`once_prints`).
-/

namespace Tempcheck

namespace Deployment

open Transition (Run)
open Program (Prog doneBy)
open Shared (Follows Implements Yields yields_map yields_query yields_refine)

section

variable [Chrono] [Sqlite] [Encoders] [PrettyEncoder] {db db' : Db}

omit [Sqlite] in
/-- A snapshot that was saved has been printed, and all of it is stored. -/
theorem once_of_yields_ok {es : List Executed}
    (h : Yields (Task.once true).session es (.once (.ok ()))) :
    ∃ json, readingsPretty (collections es) = .ok json ∧ ⟨.print json, ()⟩ ∈ es := by
  obtain ⟨xs, hxs, himpl⟩ := yields_refine.mp h
  obtain ⟨res, hres, heq⟩ := yields_map.mp hxs
  obtain rfl : Except.ok () = res := Outcome.once.inj heq
  rcases yields_once hres with ⟨e, -, herror⟩ | ⟨readings, e, -, herror⟩ |
    ⟨readings, json, hjson, h⟩
  · cases herror
  · cases herror
  · have hcollected : collections es = readings := by
      rw [collections_of_implements himpl]
      rcases h with ⟨-, rfl, -⟩ | ⟨e, rfl, -⟩ | ⟨n, -, -, rfl⟩
      all_goals simp [Called.collected]
    rw [hcollected]
    refine ⟨json, hjson, ?_⟩
    obtain ⟨pre, post, rfl⟩ : ∃ pre post, xs = pre ++ ⟨.print json, ()⟩ :: post := by
      rcases h with ⟨-, rfl, -⟩ | ⟨e, rfl, -⟩ | ⟨n, -, -, rfl⟩
      all_goals exact ⟨[⟨.collect, .ok readings⟩], _, rfl⟩
    obtain ⟨es₁, es₂, es₃, rfl, -, hprint, -⟩ := himpl.split
    rw [yields_query.mp hprint]
    exact List.mem_append_left _ (List.mem_append_right _ (List.mem_singleton_self _))

variable {ι : Type} [DecidableEq ι] {tasks : ι → Task} {ts : ι → Session Outcome}
  {history : List (ι × Executed)}

/-- A snapshot that was saved has printed the text of the rows that it has stored, whatever
else happened to the file. -/
theorem once_prints
    (h : Run (Shared.Step Serves) (db, fun i => (tasks i).session) history (db', ts))
    {i : ι} (hi : tasks i = .once true) (hret : ts i = .ret (.once (.ok ()))) :
    ∃ json, readingsPretty (inserts (doneBy i history)) = .ok json ∧
      ⟨.print json, ()⟩ ∈ doneBy i history := by
  have hyields : Yields (tasks i).session (doneBy i history) (.once (.ok ())) := by
    have hfollows : Follows (tasks i).session (doneBy i history) (ts i) := Shared.Run.follows h i
    rwa [hret] at hfollows
  rw [hi] at hyields
  have hstored : inserts (doneBy i history) = collections (doneBy i history) :=
    complete_of_yields hyields rfl rfl
  rw [hstored]
  exact once_of_yields_ok hyields

end

/-- The text that a snapshot of one sensor prints. -/
def snapshotJson : String :=
  "[\n  \x7b\n    \"sensor_name\": \"gpu\",\n    \"temperature_c\": 40.0,\n" ++
    "    \"recorded_at\": \"0001-01-01T00:00:00Z\"\n  \x7d\n]"

theorem readingsPretty_snapshot : readingsPretty [readingOf true] = .ok snapshotJson := by
  decide +kernel

/-- The snapshot collects and prints. -/
def snapshotPrinted : List Executed :=
  [⟨.collect, .ok [readingOf true]⟩, ⟨.print snapshotJson, ()⟩]

/-- Then it saves. -/
def snapshotSaved : List Executed :=
  [⟨.open, .ok ()⟩, ⟨.lock, .ok ()⟩, ⟨.insert (readingOf true), .ok ()⟩]

theorem yields_snapshot :
    Yields (Task.once true).session (snapshotPrinted ++ snapshotSaved) (.once (.ok ())) := by
  have hcalls : Yields (once true) [⟨.collect, .ok [readingOf true]⟩, ⟨.print snapshotJson, ()⟩,
      ⟨.open, .ok ()⟩, ⟨.insertReadings [readingOf true], .ok 1⟩] (.ok ()) := by
    refine Shared.yields_query_bind.mpr ⟨_, _, rfl, ?_⟩
    simp only [readingsPretty_snapshot]
    exact .cons (.cons (.cons .nil))
  refine yields_refine.mpr ⟨_, yields_map.mpr ⟨.ok (), hcalls, rfl⟩, ?_⟩
  have hinsert : Implements Call.statements [⟨.insertReadings [readingOf true], .ok 1⟩]
      ([⟨.lock, .ok ()⟩, ⟨.insert (readingOf true), .ok ()⟩] ++ []) :=
    .cons (.cons (.cons .nil)) .nil
  have hopen : Implements Call.statements
      [⟨.open, .ok ()⟩, ⟨.insertReadings [readingOf true], .ok 1⟩] ([⟨.open, .ok ()⟩] ++ _) :=
    .cons (.cons .nil) hinsert
  have hprint : Implements Call.statements (⟨.print snapshotJson, ()⟩ :: _)
      ([⟨.print snapshotJson, ()⟩] ++ _) := .cons (yields_query.mpr rfl) hopen
  have hall : Implements Call.statements (⟨.collect, .ok [readingOf true]⟩ :: _)
      ([⟨.collect, .ok [readingOf true]⟩] ++ _) := .cons (yields_query.mpr rfl) hprint
  exact hall

/-- What the two processes do, with the tick between the two parts of the snapshot. -/
def tickedSnapshot : List (Bool × Executed) :=
  snapshotPrinted.map (Prod.mk true) ++ (oneTick ++ snapshotSaved.map (Prod.mk true))

theorem run_tickedSnapshot : ∃ db ts, Run (Shared.Step Serves)
    (Db.empty, fun i => (tickAnd (.once true) i).session) tickedSnapshot (db, ts) ∧
      ts true = .ret (.once (.ok ())) := by
  obtain ⟨db, hdb⟩ := (insertSql_isOk_iff tickedDb (readingOf true).sensorName
    (readingOf true).temperatureC (toRfc3339 (readingOf true).recordedAt)).mpr ⟨nofun, by decide⟩
  obtain ⟨p, hprinted, hsaved⟩ := yields_snapshot.split
  have htick : Yields Task.tick.session [⟨.collect, .ok [readingOf false]⟩, ⟨.lock, .ok ()⟩,
      ⟨.insert (readingOf false), .ok ()⟩] (.tick (.stored 1)) := .cons (.cons (.cons .nil))
  have hfirst : Run Serves Db.empty snapshotPrinted Db.empty :=
    .cons .collected (.cons .printed .nil)
  have hsecond : Run Serves Db.empty [⟨.collect, .ok [readingOf false]⟩, ⟨.lock, .ok ()⟩,
      ⟨.insert (readingOf false), .ok ()⟩] tickedDb :=
    .cons .collected (.cons .locked (.cons (.inserted rfl) .nil))
  have hthird : Run Serves tickedDb snapshotSaved db :=
    .cons .opened (.cons .locked (.cons (.inserted hdb) .nil))
  have hrun : Run (Shared.Step Serves) (Db.empty, fun i => (tickAnd (.once true) i).session)
      (snapshotPrinted.map (Prod.mk true)) (Db.empty, _) :=
    Shared.run_alone hprinted hfirst rfl
  have hrun' := hrun.append (Shared.run_alone (i := false) htick hsecond
    (Function.update_of_ne Bool.false_ne_true ..))
  have hrun'' := hrun'.append (Shared.run_alone (i := true) hsaved hthird
    ((Function.update_of_ne (Ne.symm Bool.false_ne_true) ..).trans (Function.update_self ..)))
  exact ⟨db, _, List.append_assoc .. ▸ hrun'', Function.update_self ..⟩

/-- The tick of another process stores its row before the snapshot does. -/
theorem once_prints_saved : ∃ db ts json,
    Run (Shared.Step Serves) (Db.empty, fun i => (tickAnd (.once true) i).session)
      tickedSnapshot (db, ts) ∧
    ts true = .ret (.once (.ok ())) ∧
    inserts (doneBy true tickedSnapshot) = [readingOf true] ∧
    readingsPretty (inserts (doneBy true tickedSnapshot)) = .ok json ∧
    ⟨.print json, ()⟩ ∈ doneBy true tickedSnapshot := by
  obtain ⟨db, ts, hrun, hret⟩ := run_tickedSnapshot
  obtain ⟨json, hjson, hprinted⟩ := once_prints (i := true) hrun rfl hret
  exact ⟨db, ts, json, hrun, hret, rfl, hjson, hprinted⟩

end Deployment

end Tempcheck
