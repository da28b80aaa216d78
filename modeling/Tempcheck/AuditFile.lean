import Tempcheck.Audit
import Tempcheck.Library.Json
import Tempcheck.Library.LineLog

/-!
# The audit log file

The model of `FileAuditSink` of `audit.rs`.  An emit writes the JSON of the event and then a
line feed, each with a `write` of its own to a file that is open for appending.  The mutex of
a sink lets one emit in at a time, so a process is a thread that emits its events one after
the other (`emitAll`).  It does not keep other processes away.

The file is to have one event on each line.  After all processes have emitted their events
it does exactly if no process wrote between the two writes of an emit (`auditFile_jsonl_iff`),
as when there is only one (`auditFile_jsonl_alone`).  Of the JSON it only matters that it is a
line (`EventEncoder`).
-/

namespace Tempcheck

open Transition (Run)
open Program (Prog Surroundings Step query play doneBy)
open LineLog (IsLine Wrote Unbroken)

/-! ## The sink -/

/-- The texts of events. -/
class EventEncoder where
  /-- `serde_json::to_string` of an event, which cannot fail. -/
  eventJson : AuditEvent → String
  /-- The text is compact, and control characters in it are escaped. -/
  isLine_eventJson : ∀ event, IsLine '\n' (eventJson event).toList

export EventEncoder (eventJson isLine_eventJson)

/-- What a process asks of the log file: to write some text at its end. -/
abbrev FileWrite : Type := List Char

/-- A process is told nothing. -/
@[reducible] def FileWrite.Answer (_ : FileWrite) : Type := Unit

/-- A program that writes to the log file. -/
abbrev FileProg : Type → Type := Prog FileWrite FileWrite.Answer

section

variable [EventEncoder]

/-- `FileAuditSink::emit`. -/
def FileAuditSink.emit (event : AuditEvent) : FileProg PUnit := do
  -- the two parts of `writeln!`
  query (eventJson event).toList
  query ['\n']

/-- A process that emits events through its sink. -/
def emitAll (events : List AuditEvent) : FileProg PUnit := forM events FileAuditSink.emit

variable {ι : Type} [DecidableEq ι]

/-- The file after the writes of all processes. -/
def fileAfter (initial : List Char) (history : List (ι × FileWrite)) : List Char :=
  initial ++ (history.map Prod.snd).flatten

/-- Every line that was added is one event, and every event is on one of them, those of each
process in its order. -/
def IsJsonl (initial content : List Char) (events : ι → List AuditEvent) : Prop :=
  ∃ order : List (ι × AuditEvent),
    content = initial ++ order.flatMap (fun x => (eventJson x.2).toList ++ ['\n']) ∧
      ∀ i, doneBy i order = events i

/-! ## Processes -/

variable {w : ι → Surroundings FileWrite FileWrite.Answer} {events : ι → List AuditEvent}
  {history : List (ι × FileWrite)} {ts : ι → FileProg PUnit}

/-- A process that is done has written both parts of each of its events. -/
theorem wrote_of_done (hrun : Run (Step w) (fun i => emitAll (events i)) history ts)
    (hdone : ∀ i, ts i = .ret ⟨⟩) :
    Wrote '\n' (fun event : AuditEvent => (eventJson event).toList) events history := by
  intro i
  obtain ⟨-, htrace⟩ := Program.Run.trace_eq hrun i
  rw [hdone i, Prog.trace, List.append_nil, emitAll, Program.trace_forM] at htrace
  exact htrace.symm

/-- The lines that are added are a log of the events. -/
theorem isJsonl_iff {initial : List Char} :
    IsJsonl initial (fileAfter initial history) events ↔
      LineLog.IsLog '\n' (fun event : AuditEvent => (eventJson event).toList) events
        (history.map Prod.snd).flatten := by
  simp only [IsJsonl, fileAfter, List.append_cancel_left_eq, LineLog.IsLog, LineLog.text,
    List.flatMap_map]

/-- After all processes have emitted their events, the file has the events on lines of their
own exactly if no process wrote between the two writes of an emit. -/
theorem auditFile_jsonl_iff (hrun : Run (Step w) (fun i => emitAll (events i)) history ts)
    (hdone : ∀ i, ts i = .ret ⟨⟩) (initial : List Char) :
    IsJsonl initial (fileAfter initial history) events ↔
      ∀ pre i data post, history = pre ++ (i, data) :: post → data ≠ ['\n'] →
        post.head? = some (i, ['\n']) :=
  isJsonl_iff.trans (LineLog.isLog_iff_unbroken isLine_eventJson (wrote_of_done hrun hdone))

/-- For one process the mutex is enough. -/
theorem auditFile_jsonl_alone [Subsingleton ι]
    (hrun : Run (Step w) (fun i => emitAll (events i)) history ts)
    (hdone : ∀ i, ts i = .ret ⟨⟩) (initial : List Char) :
    IsJsonl initial (fileAfter initial history) events :=
  (isJsonl_iff.trans (LineLog.isLog_iff_unbroken isLine_eventJson (wrote_of_done hrun hdone))).mpr
    ((wrote_of_done hrun hdone).unbroken isLine_eventJson)

end

/-! ## Two processes -/

/-- The members of an event in the order of its fields, without the error if there is none. -/
instance EventEncoder.reference : EventEncoder where
  eventJson event := Json.object ([("timestamp", Json.quote event.timestamp),
    ("event_type", Json.quote event.eventType), ("tool_name", Json.quote event.toolName),
    ("tool_version", Json.quote event.toolVersion),
    ("caller_identity", Json.quote event.callerIdentity),
    ("authorization_scope", Json.quote event.authorizationScope),
    ("params_fingerprint", Json.quote event.paramsFingerprint),
    ("result_status", Json.quote event.resultStatus),
    ("result_bytes", event.resultBytes.repr),
    ("correlation_id", Json.quote event.correlationId)] ++
    event.error.toList.map fun e => ("error", Json.quote e))
  isLine_eventJson event :=
    { ne_nil := mt String.toList_eq_nil_iff.mp (Json.object_ne_empty _)
      not_mem := by
        refine Json.oneLine_object (List.forall_mem_append.mpr ⟨?_, fun m hm => ?_⟩)
        · simp [Json.oneLine_quote, Json.oneLine_repr]
        · obtain ⟨e, -, rfl⟩ := List.mem_map.mp hm
          exact Json.oneLine_quote e }

/-- An event of a tool call, by its correlation id. -/
def callEvent (correlationId : String) : AuditEvent where
  timestamp := "2024-01-01T00:00:00+00:00"
  eventType := "mcp.tool.invoke"
  toolName := "get_current_temperature"
  toolVersion := "1"
  callerIdentity := "mcp-client"
  authorizationScope := "temperature:read"
  paramsFingerprint := "00"
  resultStatus := "pending"
  resultBytes := 0
  correlationId := correlationId
  error := none

/-- One event of each of two processes. -/
def twoEvents (i : Bool) : List AuditEvent := [callEvent (if i then "id-1" else "id-0")]

/-- The processes take turns by a schedule. -/
def twoProcesses (schedule : List Bool) : List (Bool × FileWrite) × (Bool → FileProg PUnit) :=
  play (fun _ _ => ()) schedule fun i => emitAll (twoEvents i)

theorem run_twoProcesses (schedule : List Bool) :
    Run (Step fun _ _ => ()) (fun i => emitAll (twoEvents i)) (twoProcesses schedule).1
      (twoProcesses schedule).2 := Program.run_play schedule _

theorem auditFile_jsonl_turns : IsJsonl ['\n'] (fileAfter ['\n']
    (twoProcesses [true, true, false, false]).1) twoEvents := by
  have hdone : ∀ i, ((twoProcesses [true, true, false, false]).2 i).returned? = some ⟨⟩ := by
    decide
  have hrun := run_twoProcesses [true, true, false, false]
  have hret := fun i => Program.eq_ret_of_returned? (hdone i)
  have hhistory : (twoProcesses [true, true, false, false]).1 =
      [(true, (eventJson (callEvent "id-1")).toList), (true, ['\n']),
        (false, (eventJson (callEvent "id-0")).toList), (false, ['\n'])] := rfl
  have hpieces : (twoProcesses [true, true, false, false]).1.map Prod.snd =
      [callEvent "id-1", callEvent "id-0"].flatMap
        (LineLog.pieces '\n' fun event => (eventJson event).toList) := by
    simp only [hhistory, LineLog.pieces, List.flatMap_cons, List.flatMap_nil, List.map_cons,
      List.map_nil, List.cons_append, List.nil_append]
  exact (auditFile_jsonl_iff hrun hret ['\n']).mpr
    (LineLog.unbroken_of_pieces isLine_eventJson (wrote_of_done hrun hret) hpieces)

/-- The second process writes its event before the line of the first one is ended. -/
theorem auditFile_torn :
    ¬ ∀ (ι : Type) [DecidableEq ι] (w : ι → Surroundings FileWrite FileWrite.Answer)
        (events : ι → List AuditEvent) (history : List (ι × FileWrite)) (ts : ι → FileProg PUnit)
        (initial : List Char),
      Run (Step w) (fun i => emitAll (events i)) history ts → (∀ i, ts i = .ret ⟨⟩) →
      IsJsonl initial (fileAfter initial history) events := by
  intro hall
  have hdone : ∀ i, ((twoProcesses [true, false, true, false]).2 i).returned? = some ⟨⟩ := by
    decide
  have hrun := run_twoProcesses [true, false, true, false]
  have hret := fun i => Program.eq_ret_of_returned? (hdone i)
  have hjsonl := hall Bool _ twoEvents _ _ [] hrun hret
  have hunbroken := (LineLog.isLog_iff_unbroken isLine_eventJson (wrote_of_done hrun hret)).mp
    (isJsonl_iff.mp hjsonl)
  have hnext := hunbroken [] true (eventJson (callEvent "id-1")).toList _ rfl
    (isLine_eventJson _).ne_sep
  cases hnext

end Tempcheck
