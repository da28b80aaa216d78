import Tempcheck.Chrono.Parser
import Tempcheck.Mcp.Events

/-!
# The audit log of concurrent calls

Handlers run as threads, each with surroundings of its own, and the sinks are shared.  A
handler writes to one sink at a time, so the events of different calls mix in a log.  The
correlation id tells them apart, and for a call that has returned the log of every sink
has its two events, in order (`audit_pairing`).
-/

namespace Tempcheck

open Transition (Run)
open Program (Prog Surroundings Step entries log play)

section

variable [Chrono] [Encoders]

omit [Chrono] in
/-- The events `first` and `second` of a call that returned `res`. -/
structure AuditPair (first second : AuditEvent) (res : Except McpError CallToolResult) :
    Prop where
  invoke : first.eventType = "mcp.tool.invoke" ∧ first.resultStatus = "pending"
  result : second.eventType = "mcp.tool.result"
  sameCall : second.toolName = first.toolName ∧ second.toolVersion = first.toolVersion ∧
    second.callerIdentity = first.callerIdentity ∧
    second.authorizationScope = first.authorizationScope ∧
    second.paramsFingerprint = first.paramsFingerprint
  success_iff : second.resultStatus = "success" ↔ ∃ result, res = .ok result
  success : ∀ result, res = .ok result → second.error = none ∧
    ∃ text, result = .success [.text text] ∧ second.resultBytes = text.utf8ByteSize ∧
      text.utf8ByteSize ≤ maxResponseBytes
  failure_iff : second.resultStatus = "error" ↔ ∃ e, res = .error e
  failure : ∀ e, res = .error e → second.error = some (errorText e) ∧ second.resultBytes = 0

theorem auditPair_finish (service : TemperatureMcpService) (call : ToolCall)
    (w : Surroundings Op Op.Answer) :
    AuditPair (call.event w) ((call.event w).finish (service.outcome w call))
      (service.outcome w call) := by
  cases hout : service.outcome w call with
  | ok result =>
      obtain ⟨text, htext, hbytes, hcap⟩ := outcome_ok hout
      exact {
        invoke := ⟨rfl, rfl⟩
        result := rfl
        sameCall := ⟨rfl, rfl, rfl, rfl, rfl⟩
        success_iff := ⟨fun _ => ⟨result, rfl⟩, fun _ => rfl⟩
        success := by
          rintro _ ⟨⟩
          exact ⟨rfl, text, htext, hbytes, hcap⟩
        failure_iff := ⟨fun h => absurd h (by decide : "success" ≠ "error"), nofun⟩
        failure := nofun }
  | error e =>
      exact {
        invoke := ⟨rfl, rfl⟩
        result := rfl
        sameCall := ⟨rfl, rfl, rfl, rfl, rfl⟩
        success_iff := ⟨fun h => absurd h (by decide : "error" ≠ "success"), nofun⟩
        success := nofun
        failure_iff := ⟨fun _ => ⟨e, rfl⟩, fun _ => rfl⟩
        failure := by
          rintro _ ⟨⟩
          exact ⟨rfl, rfl⟩ }

/-- What a call writes has its correlation id. -/
theorem correlationId_of_mem {service : TemperatureMcpService} {call : ToolCall}
    {w : Surroundings Op Op.Answer} {sink : Nat} (hsink : sink < service.audit.sinks) {o : Op}
    (ho : o ∈ (service.serve call).trace w) {event : AuditEvent}
    (hevent : event ∈ eventAt sink o) : event.correlationId = w .newUuid := by
  have hmem : event ∈ entries (eventAt sink) ((service.serve call).trace w) :=
    List.mem_filterMap.mpr ⟨o, ho, hevent⟩
  rw [events_serve hsink] at hmem
  rcases List.mem_cons.mp hmem with rfl | hmem
  · rfl
  · rw [List.mem_singleton.mp hmem]
    cases service.outcome w call with
    | ok result => rfl
    | error e => rfl

/-- In every run of concurrent calls with different correlation ids, every sink has exactly
two events with the id of a call that has returned: its invocation and its result. -/
theorem audit_pairing {ι : Type} [DecidableEq ι] {audit : MultiAuditSink}
    {tokens : ι → Option String} {calls : ι → ToolCall}
    {w : ι → Surroundings Op Op.Answer}
    (hids : Function.Injective fun i => w i .newUuid) {history : List (ι × Op)}
    {ts : ι → Handler (Except McpError CallToolResult)}
    (hrun : Run (Step w) (fun i => TemperatureMcpService.serve ⟨audit, tokens i⟩ (calls i))
      history ts)
    {i : ι} {res : Except McpError CallToolResult} (hret : ts i = .ret res) {sink : Nat}
    (hsink : sink < audit.sinks) :
    ∃ first second, (log (eventAt sink) history).filter
        (fun event => event.correlationId = w i .newUuid) = [first, second] ∧
      AuditPair first second res := by
  obtain ⟨hres, hlog⟩ := Program.Run.log_eq hrun hids
    (fun j o ho event hevent => correlationId_of_mem hsink ho hevent) hret
  rw [run_serve] at hres
  rw [events_serve hsink] at hlog
  refine ⟨_, _, hlog, ?_⟩
  rw [← hres]
  exact auditPair_finish _ (calls i) (w i)

end

/-! ## Two calls that take turns -/

/-- Hosts with an empty store, one sensor and different ids. -/
def pairingHost (i : Bool) : Host where
  io := Faults.none
  db := Db.empty
  collected := .ok [⟨"cpu", .exact 40, default⟩]
  correlationId := if i then "id-1" else "id-0"
  eventTime := default
  now := default

/-- One call presents the token, and the other one nothing. -/
def pairingCall (i : Bool) : ToolCall := .getCurrent ⟨if i then some "s3cret" else none⟩

/-- The two calls on one service with two sinks. -/
def pairingThread (i : Bool) : Handler (Except McpError CallToolResult) :=
  TemperatureMcpService.serve ⟨⟨2⟩, some "s3cret"⟩ (pairingCall i)

/-- The call that takes each step. -/
def pairingSchedule : List Bool :=
  [true, false, true, false, false, true, true, false, true, false, true, false, true, false]

/-- The answer to the call with the token. -/
def pairingAnswer : CallToolResult :=
  .success [.text ("[\x7b\"sensor_name\":\"cpu\",\"temperature_c\":40.0," ++
    "\"recorded_at\":\"0001-01-01T00:00:00Z\"\x7d]")]

/-- The second sink has the two events of the call that was answered. -/
theorem audit_pairing_interleaved :
    ∃ first second, (log (eventAt 1) (play (fun i => (pairingHost i).answer) pairingSchedule
        pairingThread).1).filter (fun event => event.correlationId = "id-1") =
          [first, second] ∧
      AuditPair first second (.ok pairingAnswer) := by
  have hids : ∀ i j, (pairingHost i).answer .newUuid = (pairingHost j).answer .newUuid →
      i = j := by decide
  have hret : ((play (fun i => (pairingHost i).answer) pairingSchedule pairingThread).2
      true).returned? = some (.ok pairingAnswer) := by decide +kernel
  exact audit_pairing hids (Program.run_play ..) (Program.eq_ret_of_returned? hret) (by decide)

end Tempcheck
