import Tempcheck.AuditFile
import Tempcheck.Library.JsonNumber
import Tempcheck.Library.JsonText
import Tempcheck.Library.LineReader

/-!
# Reading the audit log

A reader of the audit log takes each complete line for the text of one event (`EventReader`).
At any time it finds the events whose emit is complete, in the order of each process, unless
a process writes between the two writes of another one (`readEvents_fileAfter`).

The reader at the end takes a line for a JSON object, and its members for the fields of an
event.  Texts that callers choose are inside quoted strings, so they cannot end a line or add
a member.
-/

namespace Tempcheck

open Transition (Run)
open Program (Surroundings Step doneBy)
open Json (Literal Spells SpellsMember Value readNat?)

/-- A reader of the texts of events. -/
class EventReader extends EventEncoder where
  /-- The event of a text. -/
  readEvent : List Char → Option AuditEvent
  /-- It finds the event that was written. -/
  readEvent_eventJson : ∀ event, readEvent (eventJson event).toList = some event

export EventReader (readEvent readEvent_eventJson)

section

variable [EventReader]

/-- The events of a log. -/
def readEvents (content : List Char) : Option (List AuditEvent) :=
  (LineLog.lines '\n' content).mapM readEvent

/-- The text of a log with these events. -/
def logText (events : List AuditEvent) : List Char :=
  LineLog.text '\n' (fun event : AuditEvent => (eventJson event).toList) events

theorem readEvents_logText (events : List AuditEvent) {part : List Char} (h : '\n' ∉ part) :
    readEvents (logText events ++ part) = some events := by
  rw [readEvents, logText, LineLog.lines_text isLine_eventJson h]
  induction events with
  | nil => rfl
  | cons event events ih =>
      rw [List.map_cons, List.mapM_cons, readEvent_eventJson, ih]
      rfl

/-! ## Processes -/

variable {ι : Type} [DecidableEq ι] {w : ι → Surroundings FileWrite FileWrite.Answer}
  {events : ι → List AuditEvent} {history : List (ι × FileWrite)} {ts : ι → FileProg PUnit}

/-- At any time a process has written a part of what it writes for its events. -/
theorem writes_of_run (hrun : Run (Step w) (fun i => emitAll (events i)) history ts) :
    LineLog.Writes '\n' (fun event : AuditEvent => (eventJson event).toList) events history := by
  intro i
  obtain ⟨-, htrace⟩ := Program.Run.trace_eq hrun i
  rw [emitAll, Program.trace_forM] at htrace
  exact ⟨_, htrace.symm⟩

/-- At any time a log that is read gives the events it had before and those that have been
emitted completely, in the order of each process, if no process writes between the two
writes of another one. -/
theorem readEvents_fileAfter (hrun : Run (Step w) (fun i => emitAll (events i)) history ts)
    (hcontiguous : LineLog.Contiguous '\n' history) (before : List AuditEvent) :
    ∃ order : List (ι × AuditEvent),
      readEvents (fileAfter (logText before) history) = some (before ++ order.map Prod.snd) ∧
      ∀ i, doneBy i order = (events i).take ((doneBy i history).countP (· = ['\n'])) := by
  obtain ⟨order, part, hpart, hcontent, horder⟩ :=
    (writes_of_run hrun).exists_order isLine_eventJson hcontiguous
  refine ⟨order, ?_, horder⟩
  have htext : fileAfter (logText before) history =
      logText (before ++ order.map Prod.snd) ++ part := by
    rw [fileAfter, hcontent, logText, logText, LineLog.text, LineLog.text, LineLog.text,
      List.flatMap_append, List.append_assoc]
  rw [htext, readEvents_logText _ hpart]

end

/-! ## A reader of JSON -/

/-- The value of an event. -/
def AuditEvent.toValue (event : AuditEvent) : Value :=
  .object ([("timestamp", .string event.timestamp), ("event_type", .string event.eventType),
    ("tool_name", .string event.toolName), ("tool_version", .string event.toolVersion),
    ("caller_identity", .string event.callerIdentity),
    ("authorization_scope", .string event.authorizationScope),
    ("params_fingerprint", .string event.paramsFingerprint),
    ("result_status", .string event.resultStatus),
    ("result_bytes", .literal ⟨event.resultBytes.repr.toList, Json.isLiteral_repr _⟩),
    ("correlation_id", .string event.correlationId)] ++
    event.error.toList.map fun e => ("error", .string e))

theorem AuditEvent.spells_eventJson (event : AuditEvent) :
    Spells (EventEncoder.reference.eventJson event) event.toValue := by
  have hquote : ∀ name s, SpellsMember (name, Json.quote s) (name, .string s) := fun _ s =>
    ⟨rfl, Json.spells_quote s⟩
  refine Json.spells_object (List.rel_append ?_ ?_)
  · refine .cons (hquote ..) (.cons (hquote ..) (.cons (hquote ..) (.cons (hquote ..)
      (.cons (hquote ..) (.cons (hquote ..) (.cons (hquote ..) (.cons (hquote ..)
        (.cons ⟨rfl, ?_⟩ (.cons (hquote ..) .nil)))))))))
    exact Json.spells_literal (Json.isLiteral_repr event.resultBytes)
  · cases event.error with
    | none => exact .nil
    | some e => exact .cons (hquote ..) .nil

/-- The member of this name, if there is just one. -/
def member? (name : String) (ms : List (String × Value)) : Option Value :=
  match ms.filter fun m => m.1 = name with
  | [m] => some m.2
  | _ => none

/-- The text of a string. -/
def stringOf? : Value → Option String
  | .string s => some s
  | _ => none

/-- The number of a literal. -/
def natOf? : Value → Option Nat
  | .literal l => readNat? l.text
  | _ => none

/-- The event of an object. -/
def AuditEvent.ofValue? : Value → Option AuditEvent
  | .object ms => do
      let field := fun name => (member? name ms).bind stringOf?
      let timestamp ← field "timestamp"
      let eventType ← field "event_type"
      let toolName ← field "tool_name"
      let toolVersion ← field "tool_version"
      let callerIdentity ← field "caller_identity"
      let authorizationScope ← field "authorization_scope"
      let paramsFingerprint ← field "params_fingerprint"
      let resultStatus ← field "result_status"
      let resultBytes ← (member? "result_bytes" ms).bind natOf?
      let correlationId ← field "correlation_id"
      return {
        timestamp, eventType, toolName, toolVersion, callerIdentity, authorizationScope,
        paramsFingerprint, resultStatus, resultBytes, correlationId
        error := field "error" }
  | _ => none

theorem AuditEvent.ofValue?_toValue (event : AuditEvent) : ofValue? event.toValue = some event := by
  obtain ⟨timestamp, eventType, toolName, toolVersion, callerIdentity, authorizationScope,
    paramsFingerprint, resultStatus, resultBytes, correlationId, error⟩ := event
  have hbytes : readNat? resultBytes.repr.toList = some resultBytes := Json.readNat?_repr _
  cases error with
  | none => simp [toValue, ofValue?, member?, stringOf?, natOf?, hbytes, -Nat.toList_repr]
  | some e => simp [toValue, ofValue?, member?, stringOf?, natOf?, hbytes, -Nat.toList_repr]

/-- A line is one object. -/
instance EventReader.reference : EventReader where
  readEvent l := (Json.parse l).bind AuditEvent.ofValue?
  readEvent_eventJson event := by
    rw [event.spells_eventJson.parse_eq, Option.bind_some, event.ofValue?_toValue]

/-- One event is complete, and of the other only its text is written. -/
theorem readEvents_twoProcesses :
    ∃ order : List (Bool × AuditEvent),
      readEvents (fileAfter (logText [callEvent "id"]) (twoProcesses [true, true, false]).1) =
        some ([callEvent "id"] ++ order.map Prod.snd) ∧
      ∀ i, doneBy i order = (twoEvents i).take
        ((doneBy i (twoProcesses [true, true, false]).1).countP (· = ['\n'])) := by
  refine readEvents_fileAfter (run_twoProcesses [true, true, false]) ?_ [callEvent "id"]
  intro pre i l j l' post h hl
  have hhistory : (twoProcesses [true, true, false]).1 =
      [(true, (eventJson (callEvent "id-1")).toList), (true, ['\n']),
        (false, (eventJson (callEvent "id-0")).toList)] := rfl
  rw [hhistory] at h
  match pre with
  | [] => cases h; rfl
  | [x] => cases h; exact absurd rfl hl
  | [x, y] => cases h
  | x :: y :: z :: pre => simp at h

end Tempcheck
