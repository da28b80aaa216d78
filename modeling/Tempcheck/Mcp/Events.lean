import Tempcheck.Library.Fallible
import Tempcheck.Mcp.Server

/-!
# The events of a call

What a handler answers is computed by `outcome`, from the answers of its surroundings
alone: the correlation id and the time of the event have no part in it.  What it writes to
a sink is the event before the body and its completion with that outcome
(`events_serve`).

The body of a handler writes the event of a success and no other (`Reports`).  A step that
writes nothing can stand before a body that reports (`Reports.bind`), so the two bodies
report because `respond` does.
-/

namespace Tempcheck

open Program (Prog Surroundings compute perform query entries exec trail)

section

variable [Chrono] [Encoders]

/-! ## Outcomes -/

/-- The outcome of a body that got the JSON of its answer. -/
def respondOutcome (json : Except String String) : Except McpError CallToolResult := do
  let payload ← json.mapError .internalError
  let payload ← capResponse payload
  return .success [.text payload]

omit [Encoders] in
/-- The range of `analyze_temperature` at the instant `now`. -/
def rangeAt (now : DateTime) (params : AnalyzeTemperatureParams) :
    Except McpError (DateTime × DateTime) := do
  let toAt ← params.toText.elim (.ok now) parseTime
  let fromAt ← fromTime toAt params.fromText
  checkRange fromAt toAt

/-- What a call is answered once it is authorised. -/
def ToolCall.granted (w : Surroundings Op Op.Answer) :
    ToolCall → Except McpError CallToolResult
  | .getCurrent _ => do
      let readings ← (w .collect).mapError fun e => .internalError e.toString
      respondOutcome (readingsJson readings)
  | .analyze params => do
      let range ← rangeAt (w .now) params
      let analysis ← (w (.analyze params.sensor range.1 range.2)).mapError mapAnalyzeError
      respondOutcome (analysisJson analysis)

/-- What a call is answered. -/
def TemperatureMcpService.outcome (service : TemperatureMcpService)
    (w : Surroundings Op Op.Answer) (call : ToolCall) : Except McpError CallToolResult := do
  service.authorize call.authToken
  call.granted w

/-! ## Events -/

/-- The event that a question writes to a sink. -/
def eventAt (sink : Nat) : Op → Option AuditEvent
  | .emit i event => if i = sink then some event else none
  | _ => none

/-- The name, the version and the parameters of the tool of a call. -/
def ToolCall.tool : ToolCall → String
  | .getCurrent _ => toolGetCurrent
  | .analyze _ => toolAnalyze

/-- The version of the tool. -/
def ToolCall.version : ToolCall → String
  | .getCurrent _ => toolGetCurrentVersion
  | .analyze _ => toolAnalyzeVersion

/-- The text of the parameters, whose hash is logged. -/
def ToolCall.paramsJson : ToolCall → String
  | .getCurrent params => params.toJson
  | .analyze params => params.toJson

/-- The event before the body of a call. -/
def ToolCall.event (call : ToolCall) (w : Surroundings Op Op.Answer) : AuditEvent :=
  .invoke (w .eventTime) call.tool call.version "mcp-client" "temperature:read"
    call.paramsJson (w .newUuid)

/-- The event that completes a call. -/
def AuditEvent.finish (event : AuditEvent) : Except McpError CallToolResult → AuditEvent
  | .ok result => event.withResult "success" result.bytes none
  | .error e => event.withResult "error" 0 (some (errorText e))

variable {w : Surroundings Op Op.Answer} {service : TemperatureMcpService} {sink : Nat}

/-! ## Writing to all sinks -/

omit [Chrono] [Encoders] in
theorem entries_emits (event : AuditEvent) : ∀ n : Nat,
    entries (eventAt sink) ((List.range n).map fun i => Op.emit i event) =
      if sink < n then [event] else []
  | 0 => rfl
  | n + 1 => by
      rw [List.range_succ, List.map_append, Program.entries_append, entries_emits event n,
        List.map_singleton, Program.entries_cons, eventAt]
      rcases Nat.lt_trichotomy sink n with h | rfl | h
      · rw [if_pos h, if_pos (Nat.lt_succ_of_lt h), if_neg (Nat.ne_of_gt h)]
        rfl
      · rw [if_neg (Nat.lt_irrefl sink), if_pos (Nat.lt_succ_self sink), if_pos rfl]
        rfl
      · rw [if_neg (Nat.lt_asymm h), if_neg (Nat.not_lt.mpr h), if_neg (Nat.ne_of_lt h)]
        rfl

omit [Chrono] [Encoders] in
/-- Every sink gets the event once. -/
theorem entries_emit {audit : MultiAuditSink} (hsink : sink < audit.sinks)
    (event : AuditEvent) : entries (eventAt sink) ((audit.emit event).trace w) = [event] := by
  have htrace : (audit.emit event).trace w =
      (List.range audit.sinks).map fun i => Op.emit i event := by
    rw [MultiAuditSink.emit, Program.trace_forM]
    exact List.map_eq_flatMap.symm
  rw [htrace, entries_emits, if_pos hsink]

/-! ## Bodies -/

/-- A body writes the event of its success, if it succeeds, and no other. -/
def Reports (w : Surroundings Op Op.Answer) (sink : Nat) (event : AuditEvent)
    (x : Attempt CallToolResult) : Prop :=
  entries (eventAt sink) (trail w x) = match exec w x with
    | .ok result => [event.withResult "success" result.bytes none]
    | .error _ => []

omit [Chrono] [Encoders] in
/-- A step that writes nothing can stand before a body that reports. -/
theorem Reports.bind {α : Type} {event : AuditEvent} {x : Attempt α}
    {f : α → Attempt CallToolResult} (hquiet : entries (eventAt sink) (trail w x) = [])
    (h : ∀ a, Reports w sink event (f a)) : Reports w sink event (x >>= f) := by
  rw [Reports, Program.trail_bind, Program.exec_bind, Program.entries_append, hquiet]
  cases exec w x with
  | ok a => exact h a
  | error e => rfl

omit [Chrono] [Encoders] in
theorem Reports.respond (hsink : sink < service.audit.sinks) (event : AuditEvent)
    (json : Except String String) : Reports w sink event (service.respond event json) := by
  refine .bind rfl fun payload => .bind rfl fun payload => ?_
  rw [Reports, Program.trail_bind, Program.trail_perform, Program.exec_bind,
    Program.exec_perform, Program.entries_append, TemperatureMcpService.auditResult,
    entries_emit hsink]
  rfl

omit [Chrono] in
theorem Reports.current (hsink : sink < service.audit.sinks)
    (params : GetCurrentTemperatureParams) (event : AuditEvent) :
    Reports w sink event (service.currentBody params event) :=
  .bind rfl fun _ => .bind rfl fun _ => .bind rfl fun _ => .respond hsink event _

omit [Encoders] in
/-- The clock is the only question about the range. -/
theorem trail_timeRange (params : AnalyzeTemperatureParams) :
    trail w (timeRange params) = if params.toText = none then [.now] else [] := by
  have hrest : ∀ toAt, trail w (compute (fromTime toAt params.fromText) >>= fun fromAt =>
      (compute (checkRange fromAt toAt) : Attempt _)) = [] := fun toAt =>
    Program.trail_compute_bind w _ _ fun fromAt => rfl
  rw [timeRange, Program.trail_bind]
  cases params.toText with
  | none => exact congrArg ([Op.now] ++ ·) (hrest _)
  | some s =>
      rw [toTime, Program.trail_compute, Program.exec_compute, if_neg (nomatch ·)]
      cases parseTime s with
      | ok toAt => exact hrest toAt
      | error e => rfl

omit [Encoders] in
theorem entries_timeRange (params : AnalyzeTemperatureParams) :
    entries (eventAt sink) (trail w (timeRange params)) = [] := by
  rw [trail_timeRange]
  split
  · rfl
  · rfl

theorem Reports.analyze (hsink : sink < service.audit.sinks)
    (params : AnalyzeTemperatureParams) (event : AuditEvent) :
    Reports w sink event (service.analyzeBody params event) :=
  .bind rfl fun _ => .bind (entries_timeRange params) fun _ => .bind rfl fun _ =>
    .bind rfl fun _ => .respond hsink event _

/-! ## Outcomes of bodies -/

omit [Chrono] [Encoders] in
theorem exec_respond (event : AuditEvent) (json : Except String String) :
    exec w (service.respond event json) = respondOutcome json := by
  rw [TemperatureMcpService.respond, respondOutcome]
  simp only [Program.exec_bind, Program.exec_compute, Program.exec_perform, Program.exec_pure]
  rfl

omit [Encoders] in
theorem exec_timeRange (params : AnalyzeTemperatureParams) :
    exec w (timeRange params) = rangeAt (w .now) params := by
  simp only [timeRange, rangeAt, Program.exec_bind, Program.exec_compute]
  cases params.toText with
  | none => rfl
  | some s => rfl

/-! ## Calls -/

/-- The body of a call. -/
def TemperatureMcpService.body (service : TemperatureMcpService) :
    ToolCall → AuditEvent → Attempt CallToolResult
  | .getCurrent params => service.currentBody params
  | .analyze params => service.analyzeBody params

theorem serve_eq (call : ToolCall) : service.serve call =
    service.audited call.tool call.version call.paramsJson (service.body call) := by
  cases call with
  | getCurrent params => rfl
  | analyze params => rfl

theorem exec_body (call : ToolCall) (event : AuditEvent) :
    exec w (service.body call event) = service.outcome w call := by
  cases call with
  | getCurrent params =>
      simp only [TemperatureMcpService.body, TemperatureMcpService.currentBody,
        Program.exec_bind, Program.exec_compute, Program.exec_perform, exec_respond]
      rfl
  | analyze params =>
      simp only [TemperatureMcpService.body, TemperatureMcpService.analyzeBody,
        Program.exec_bind, Program.exec_compute, Program.exec_perform, exec_respond,
        exec_timeRange]
      rfl

theorem Reports.body (hsink : sink < service.audit.sinks) (call : ToolCall)
    (event : AuditEvent) : Reports w sink event (service.body call event) := by
  cases call with
  | getCurrent params => exact .current hsink params event
  | analyze params => exact .analyze hsink params event

theorem run_serve (call : ToolCall) :
    (service.serve call).run w = service.outcome w call := by
  rw [serve_eq, TemperatureMcpService.audited]
  simp only [Program.run_bind, Program.run_pure]
  exact exec_body call _

/-- A call draws its id and reads the clock, writes its event, runs its body, and writes
again if the body failed. -/
theorem trace_serve (call : ToolCall) : (service.serve call).trace w =
    [.newUuid, .eventTime] ++ (service.audit.emit (call.event w)).trace w ++
      trail w (service.body call (call.event w)) ++
      (service.auditFailure (call.event w) (service.outcome w call)).trace w := by
  have hout : (service.body call (call.event w)).run.run w = service.outcome w call :=
    exec_body call (call.event w)
  have hevent : (service.auditInvoke call.tool call.version call.paramsJson).run w =
      call.event w := by
    simp only [TemperatureMcpService.auditInvoke, Program.run_bind, Program.run_query,
      Program.run_pure]
    rfl
  have hinvoke : (service.auditInvoke call.tool call.version call.paramsJson).trace w =
      [.newUuid, .eventTime] ++ (service.audit.emit (call.event w)).trace w := by
    simp only [TemperatureMcpService.auditInvoke, Program.trace_bind, Program.run_query,
      Program.trace_query, Program.trace_pure, List.append_nil]
    rfl
  rw [serve_eq, TemperatureMcpService.audited]
  simp only [Program.trace_bind, Program.trace_pure, hevent, hout, hinvoke, List.append_nil,
    List.append_assoc]
  rfl

/-- A call writes two events to a sink, one before its body and its completion with the
outcome. -/
theorem events_serve (hsink : sink < service.audit.sinks) (call : ToolCall) :
    entries (eventAt sink) ((service.serve call).trace w) =
      [call.event w, (call.event w).finish (service.outcome w call)] := by
  have hbody : Reports w sink _ _ := .body hsink call (call.event w)
  rw [Reports, exec_body] at hbody
  rw [trace_serve, Program.entries_append, Program.entries_append, Program.entries_append,
    entries_emit hsink, hbody]
  cases service.outcome w call with
  | ok result => rfl
  | error e => exact congrArg ([call.event w] ++ ·) (entries_emit hsink _)

omit [Chrono] [Encoders] in
/-- An answer is the JSON in one text, within the cap. -/
theorem respondOutcome_eq_ok {json : Except String String} {result : CallToolResult} :
    respondOutcome json = .ok result ↔ ∃ text, json = .ok text ∧
      text.utf8ByteSize ≤ maxResponseBytes ∧ result = .success [.text text] := by
  constructor
  · intro h
    obtain ⟨payload, hjson, h⟩ := Fallible.bind_eq_ok.mp h
    obtain ⟨capped, hcap, h⟩ := Fallible.bind_eq_ok.mp h
    cases h
    rw [capResponse] at hcap
    split at hcap
    · cases hcap
    next hfits =>
      cases hcap
      exact ⟨_, Fallible.mapError_eq_ok.mp hjson, not_lt.mp hfits, rfl⟩
  · rintro ⟨text, rfl, hfits, rfl⟩
    exact Fallible.bind_eq_ok.mpr ⟨text, rfl, Fallible.bind_eq_ok.mpr
      ⟨text, if_neg (not_lt.mpr hfits), rfl⟩⟩

/-- An answered call has one text within the cap. -/
theorem outcome_ok {call : ToolCall} {result : CallToolResult}
    (h : service.outcome w call = .ok result) : ∃ text, result = .success [.text text] ∧
      result.bytes = text.utf8ByteSize ∧ text.utf8ByteSize ≤ maxResponseBytes := by
  have hrespond : ∃ json, respondOutcome json = .ok result := by
    obtain ⟨_, -, h⟩ := Fallible.bind_eq_ok.mp h
    cases call with
    | getCurrent params =>
        obtain ⟨_, -, h⟩ := Fallible.bind_eq_ok.mp h
        exact ⟨_, h⟩
    | analyze params =>
        obtain ⟨_, -, h⟩ := Fallible.bind_eq_ok.mp h
        obtain ⟨_, -, h⟩ := Fallible.bind_eq_ok.mp h
        exact ⟨_, h⟩
  obtain ⟨json, hjson⟩ := hrespond
  obtain ⟨text, -, hsize, rfl⟩ := respondOutcome_eq_ok.mp hjson
  exact ⟨text, rfl, Nat.add_zero _, hsize⟩

end

end Tempcheck
