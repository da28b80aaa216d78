import Tempcheck.Chrono.Parser
import Tempcheck.Mcp.Events

/-!
# Secrets and the audit log

Two statements about pairs of runs.  A call without the token is denied before it asks the
collector or the store, so neither its answer nor its events tell anything about them
(`denied_call`).

The token itself should not reach the log.  But the fingerprint is a hash of all
parameters, with the token among them, and no other part of an event depends on it
(`sessionRun_anonymous_eq_iff`).  So two sessions that differ in the token leave the same
log exactly if none of their calls is authorised (`audit_token_free_iff`).
-/

namespace Tempcheck

open Program (Prog Surroundings compute entries exec trail)

section

variable [Chrono] [Encoders] {audit : MultiAuditSink} {w w' : Surroundings Op Op.Answer}

/-! ## Authorisation -/

omit [Chrono] [Encoders] in
theorem authorize_denied (audit : MultiAuditSink) {expected : String}
    {token : Option String} (h : token ≠ some expected) :
    TemperatureMcpService.authorize ⟨audit, some expected⟩ token = .error insufficientScope := by
  cases token with
  | none => rfl
  | some t => exact if_neg fun heq => h (congrArg some heq)

omit [Chrono] [Encoders] in
theorem authorize_granted (expected : String) :
    TemperatureMcpService.authorize ⟨audit, some expected⟩ (some expected) = .ok () :=
  if_pos rfl

theorem outcome_denied {expected : String} {call : ToolCall}
    (h : call.authToken ≠ some expected) :
    TemperatureMcpService.outcome ⟨audit, some expected⟩ w call = .error insufficientScope := by
  rw [TemperatureMcpService.outcome, authorize_denied audit h]
  rfl

/-- The body of a denied call asks nothing. -/
theorem trail_body_denied {expected : String} {call : ToolCall}
    (h : call.authToken ≠ some expected) (event : AuditEvent) :
    trail w (TemperatureMcpService.body ⟨audit, some expected⟩ call event) = [] := by
  cases call with
  | getCurrent params =>
      have hauth := authorize_denied audit (show params.authToken ≠ _ from h)
      rw [TemperatureMcpService.body, TemperatureMcpService.currentBody, hauth,
        Program.trail_bind]
      rfl
  | analyze params =>
      have hauth := authorize_denied audit (show params.authToken ≠ _ from h)
      rw [TemperatureMcpService.body, TemperatureMcpService.analyzeBody, hauth,
        Program.trail_bind]
      rfl

/-! ## Denied calls -/

/-- The questions whose answers the token guards. -/
def Op.Guarded : Op → Prop
  | .collect => True
  | .analyze _ _ _ => True
  | _ => False

omit [Chrono] [Encoders] in
theorem not_guarded_emit (event : AuditEvent) {o : Op}
    (ho : o ∈ (audit.emit event).trace w) : ¬ o.Guarded := by
  rw [MultiAuditSink.emit, Program.trace_forM, List.mem_flatMap] at ho
  obtain ⟨sink, -, ho⟩ := ho
  rw [List.mem_singleton.mp ho]
  exact id

omit [Chrono] in
theorem not_guarded_auditFailure {service : TemperatureMcpService} (event : AuditEvent)
    (res : Except McpError CallToolResult) {o : Op}
    (ho : o ∈ (service.auditFailure event res).trace w) : ¬ o.Guarded := by
  cases res with
  | ok result => exact absurd ho List.not_mem_nil
  | error e => exact not_guarded_emit _ ho

omit [Chrono] in
/-- Completing an event keeps its timestamp and its correlation id. -/
theorem AuditEvent.anonymous_finish (event : AuditEvent)
    (res : Except McpError CallToolResult) :
    (event.finish res).anonymous = event.anonymous.finish res := by
  cases res with
  | ok result => rfl
  | error e => rfl

/-- The call is answered with the error of a call without the token, and asks neither the
collector nor the store. -/
def Denied (service : TemperatureMcpService) (w : Surroundings Op Op.Answer) (call : ToolCall) :
    Prop :=
  (service.serve call).run w = .error insufficientScope ∧
    ∀ o ∈ (service.serve call).trace w, ¬ o.Guarded

theorem denied_of_ne {expected : String} {call : ToolCall}
    (h : call.authToken ≠ some expected) : Denied ⟨audit, some expected⟩ w call := by
  refine ⟨(run_serve call).trans (outcome_denied h), ?_⟩
  rw [trace_serve, trail_body_denied h, List.append_nil, List.forall_mem_append,
    List.forall_mem_append]
  refine ⟨⟨?_, fun o => not_guarded_emit _⟩, fun o => not_guarded_auditFailure _ _⟩
  exact List.forall_mem_cons.mpr ⟨id, List.forall_mem_singleton.mpr id⟩

/-- A call without the token is denied, asks neither the collector nor the store, and is
answered and recorded in the same way in any other surroundings, up to the timestamp and
the correlation id of its events. -/
theorem denied_call {expected : String} {call : ToolCall}
    (h : call.authToken ≠ some expected) (w w' : Surroundings Op Op.Answer) :
    let handler := TemperatureMcpService.serve ⟨audit, some expected⟩ call
    handler.run w = .error insufficientScope ∧
      (∀ o ∈ handler.trace w, ¬ o.Guarded) ∧
      handler.run w' = handler.run w ∧
      ∀ sink < audit.sinks, (entries (eventAt sink) (handler.trace w')).map AuditEvent.anonymous =
        (entries (eventAt sink) (handler.trace w)).map AuditEvent.anonymous := by
  intro handler
  obtain ⟨hrun, htrace⟩ : Denied ⟨audit, some expected⟩ w call := denied_of_ne h
  obtain ⟨hrun', -⟩ : Denied ⟨audit, some expected⟩ w' call := denied_of_ne h
  refine ⟨hrun, htrace, hrun'.trans hrun.symm, ?_⟩
  intro sink hsink
  have hevent : (call.event w').anonymous = (call.event w).anonymous :=
    AuditEvent.anonymous_invoke_eq_iff.mpr rfl
  rw [events_serve hsink, events_serve hsink, outcome_denied h, outcome_denied h]
  simp only [List.map_cons, List.map_nil, AuditEvent.anonymous_finish, hevent]

end

/-- A host whose collector and store answer. -/
def openHost : Host where
  io := Faults.none
  db := (insertReadings Faults.none Db.empty [⟨"cpu", .exact 40, default⟩]).1
  collected := .ok [⟨"cpu", .exact 41, default⟩]
  correlationId := "id-1"
  eventTime := default
  now := default

/-- A host with an empty store whose lock fails, and no sensors. -/
def brokenHost : Host where
  io := ⟨some "mutex poisoned", fun _ => none⟩
  db := Db.empty
  collected := .error (.sysfsMissing "/sys/class/thermal")
  correlationId := "id-2"
  eventTime := { (default : DateTime) with dayNumber := 1 }
  now := default

/-- A call with a wrong token, whose timestamps are not even well formed. -/
def guessingCall : ToolCall := .analyze ⟨some "yesterday", some "now", none, some "guess"⟩

theorem denied_call_guessing :
    let handler := TemperatureMcpService.serve ⟨⟨2⟩, some "s3cret"⟩ guessingCall
    handler.run openHost.answer = .error insufficientScope ∧
      (∀ o ∈ handler.trace openHost.answer, ¬ o.Guarded) ∧
      handler.run brokenHost.answer = handler.run openHost.answer ∧
      ∀ sink < 2, (entries (eventAt sink) (handler.trace brokenHost.answer)).map
          AuditEvent.anonymous =
        (entries (eventAt sink) (handler.trace openHost.answer)).map AuditEvent.anonymous :=
  denied_call (by decide) openHost.answer brokenHost.answer

section

variable [Chrono] [Encoders] {audit : MultiAuditSink} {w : Surroundings Op Op.Answer}

/-! ## Sessions -/

/-- The call with another token. -/
def ToolCall.withToken (token : Option String) : ToolCall → ToolCall
  | .getCurrent params => .getCurrent { params with authToken := token }
  | .analyze params => .analyze { params with authToken := token }

/-- A call of a session in two runs that differ in the expected token.  The surroundings
differ at most in the ids and the times of events. -/
structure SessionCall where
  call : ToolCall
  authorised : Bool
  first : Surroundings Op Op.Answer
  second : Surroundings Op Op.Answer
  same : ∀ o, o ≠ .newUuid → o ≠ .eventTime → first o = second o

/-- The call in the run with the token `t`. -/
def SessionCall.presenting (c : SessionCall) (t : String) : ToolCall :=
  if c.authorised then c.call.withToken (some t) else c.call

/-- The events of some calls, one after the other. -/
def sessionLog (service : TemperatureMcpService) (sink : Nat) :
    List (ToolCall × Surroundings Op Op.Answer) → List AuditEvent
  | [] => []
  | (call, w) :: rest =>
      entries (eventAt sink) ((service.serve call).trace w) ++ sessionLog service sink rest

/-- The run of a session with the token `t`, in the surroundings that `side` selects. -/
def sessionRun (audit : MultiAuditSink) (sink : Nat) (t : String)
    (side : SessionCall → Surroundings Op Op.Answer) (calls : List SessionCall) :
    List AuditEvent :=
  sessionLog ⟨audit, some t⟩ sink (calls.map fun c => (c.presenting t, side c))

/-- The parameters that are hashed in one of the two runs. -/
def paramStrings (t₁ t₂ : String) (calls : List SessionCall) : List String :=
  calls.flatMap fun c => [(c.presenting t₁).paramsJson, (c.presenting t₂).paramsJson]

/-- The other surroundings give a call the same answer. -/
theorem granted_same (c : SessionCall) (call : ToolCall) :
    call.granted c.first = call.granted c.second := by
  have hcollect := c.same .collect (nomatch ·) (nomatch ·)
  have hnow := c.same .now (nomatch ·) (nomatch ·)
  have hanalyze := fun sensor fromAt toAt =>
    c.same (.analyze sensor fromAt toAt) (nomatch ·) (nomatch ·)
  cases call with
  | getCurrent params => simp only [ToolCall.granted, hcollect]
  | analyze params => simp only [ToolCall.granted, hnow, hanalyze]

theorem granted_withToken (token : Option String) (call : ToolCall) :
    (call.withToken token).granted w = call.granted w := by
  cases call with
  | getCurrent params => rfl
  | analyze params => rfl

/-- A call of a session has the same outcome in both runs. -/
theorem outcome_presenting (audit : MultiAuditSink) {t₁ t₂ : String} (c : SessionCall)
    (hdenied : c.authorised = false → c.call.authToken ≠ some t₁ ∧ c.call.authToken ≠ some t₂) :
    TemperatureMcpService.outcome ⟨audit, some t₁⟩ c.first (c.presenting t₁) =
      TemperatureMcpService.outcome ⟨audit, some t₂⟩ c.second (c.presenting t₂) := by
  have htoken : ∀ t, (c.call.withToken (some t)).authToken = some t := by
    intro t
    cases c.call with
    | getCurrent params => rfl
    | analyze params => rfl
  rw [SessionCall.presenting, SessionCall.presenting]
  cases hauth : c.authorised with
  | false =>
      obtain ⟨h₁, h₂⟩ := hdenied hauth
      exact (outcome_denied h₁).trans (outcome_denied h₂).symm
  | true =>
      rw [if_pos rfl, if_pos rfl, TemperatureMcpService.outcome, TemperatureMcpService.outcome,
        htoken, htoken, authorize_granted, authorize_granted, granted_withToken,
        granted_withToken, granted_same]

omit [Encoders] in
/-- The token only changes what is hashed. -/
theorem anonymous_event_presenting {t₁ t₂ : String} (c : SessionCall) :
    ((c.presenting t₁).event c.first).anonymous =
        ((c.presenting t₂).event c.second).anonymous ↔
      sha256 (c.presenting t₁).paramsJson = sha256 (c.presenting t₂).paramsJson := by
  have htool : ∀ t, (c.presenting t).tool = c.call.tool ∧
      (c.presenting t).version = c.call.version := by
    intro t
    rw [SessionCall.presenting]
    cases c.authorised with
    | false => exact ⟨rfl, rfl⟩
    | true =>
        cases c.call with
        | getCurrent params => exact ⟨rfl, rfl⟩
        | analyze params => exact ⟨rfl, rfl⟩
  rw [ToolCall.event, ToolCall.event, (htool t₁).1, (htool t₁).2, (htool t₂).1, (htool t₂).2]
  exact AuditEvent.anonymous_invoke_eq_iff

/-- The logs of the two runs agree exactly if the hashes of all parameters do. -/
theorem sessionRun_anonymous_eq_iff (t₁ t₂ : String) {sink : Nat} (hsink : sink < audit.sinks) :
    ∀ {calls : List SessionCall},
      (∀ c ∈ calls, c.authorised = false →
        c.call.authToken ≠ some t₁ ∧ c.call.authToken ≠ some t₂) →
      ((sessionRun audit sink t₁ SessionCall.first calls).map AuditEvent.anonymous =
          (sessionRun audit sink t₂ SessionCall.second calls).map AuditEvent.anonymous ↔
        ∀ c ∈ calls, sha256 (c.presenting t₁).paramsJson = sha256 (c.presenting t₂).paramsJson)
  | [], _ => iff_of_true rfl (List.forall_mem_nil _)
  | c :: calls, hdenied => by
      have hrest := sessionRun_anonymous_eq_iff t₁ t₂ hsink
        fun c hc => hdenied c (List.mem_cons_of_mem _ hc)
      have hout := outcome_presenting audit c (hdenied c (List.mem_cons_self ..))
      rw [sessionRun, sessionRun] at hrest ⊢
      rw [List.map_cons, List.map_cons, sessionLog, sessionLog, events_serve hsink,
        events_serve hsink, List.map_append, List.map_append, List.forall_mem_cons,
        ← anonymous_event_presenting c, ← hrest, hout]
      simp only [List.map_cons, List.map_nil, AuditEvent.anonymous_finish, List.cons_append,
        List.nil_append, List.cons.injEq]
      constructor
      · rintro ⟨hevent, -, htail⟩
        exact ⟨hevent, htail⟩
      · rintro ⟨hevent, htail⟩
        exact ⟨hevent, by rw [hevent], htail⟩

omit [Chrono] [Encoders] in
/-- The parameters of an authorised call determine the token. -/
theorem paramsJson_withToken_injective {t₁ t₂ : String} {call : ToolCall}
    (h : (call.withToken (some t₁)).paramsJson = (call.withToken (some t₂)).paramsJson) :
    t₁ = t₂ := by
  cases call with
  | getCurrent params =>
      exact Option.some.inj (Json.nullable_injective (Json.object_last [] h))
  | analyze params =>
      exact Option.some.inj (Json.nullable_injective (Json.object_last
        [("from", _), ("to", _), ("sensor", _)] h))

/-- If the hash does not collide on the parameters of a session, the logs of its two runs
agree exactly if the tokens do or no call is authorised. -/
theorem audit_token_free_iff {t₁ t₂ : String} {sink : Nat} (hsink : sink < audit.sinks)
    {calls : List SessionCall}
    (hdenied : ∀ c ∈ calls, c.authorised = false →
      c.call.authToken ≠ some t₁ ∧ c.call.authToken ≠ some t₂)
    (hhash : ∀ s ∈ paramStrings t₁ t₂ calls, ∀ s' ∈ paramStrings t₁ t₂ calls,
      sha256 s = sha256 s' → s = s') :
    (sessionRun audit sink t₁ SessionCall.first calls).map AuditEvent.anonymous =
        (sessionRun audit sink t₂ SessionCall.second calls).map AuditEvent.anonymous ↔
      t₁ = t₂ ∨ ∀ c ∈ calls, c.authorised = false := by
  rw [sessionRun_anonymous_eq_iff t₁ t₂ hsink hdenied]
  constructor
  · intro hall
    by_cases ht : t₁ = t₂
    · exact Or.inl ht
    refine Or.inr fun c hc => Bool.eq_false_iff.mpr fun hauth => ht ?_
    have hmem : ∀ s ∈ [(c.presenting t₁).paramsJson, (c.presenting t₂).paramsJson],
        s ∈ paramStrings t₁ t₂ calls := fun s hs => List.mem_flatMap.mpr ⟨c, hc, hs⟩
    have hparams := hhash _ (hmem _ (List.mem_cons_self ..)) _
      (hmem _ (List.mem_cons_of_mem _ (List.mem_cons_self ..))) (hall c hc)
    rw [SessionCall.presenting, SessionCall.presenting, if_pos hauth, if_pos hauth] at hparams
    exact paramsJson_withToken_injective hparams
  · rintro (rfl | hnone) c hc
    · rfl
    · rw [SessionCall.presenting, SessionCall.presenting,
        if_neg (Bool.eq_false_iff.mp (hnone c hc)), if_neg (Bool.eq_false_iff.mp (hnone c hc))]

end

/-- An authorised call of the current temperature, and one with a wrong token. -/
def twoCalls : List SessionCall := [
  { call := .getCurrent ⟨none⟩
    authorised := true
    first := openHost.answer
    second := openHost.answer
    same := fun _ _ _ => rfl },
  { call := guessingCall
    authorised := false
    first := brokenHost.answer
    second := brokenHost.answer
    same := fun _ _ _ => rfl }]

theorem twoCalls_denied : ∀ c ∈ twoCalls, c.authorised = false →
    c.call.authToken ≠ some "s3cret" ∧ c.call.authToken ≠ some "hunter2" := by decide

/-- The hash tells the parameters of the two calls apart. -/
theorem twoCalls_hash : ∀ s ∈ paramStrings "s3cret" "hunter2" twoCalls,
    ∀ s' ∈ paramStrings "s3cret" "hunter2" twoCalls, sha256 s = sha256 s' → s = s' := by
  decide +kernel

/-- The log tells the tokens apart. -/
theorem audit_token_leaks :
    ¬ ∀ (t₁ t₂ : String) (audit : MultiAuditSink) (sink : Nat) (calls : List SessionCall),
      sink < audit.sinks →
      (∀ c ∈ calls, c.authorised = false →
        c.call.authToken ≠ some t₁ ∧ c.call.authToken ≠ some t₂) →
      (∀ s ∈ paramStrings t₁ t₂ calls, ∀ s' ∈ paramStrings t₁ t₂ calls,
        sha256 s = sha256 s' → s = s') →
      (sessionRun audit sink t₁ SessionCall.first calls).map AuditEvent.anonymous =
        (sessionRun audit sink t₂ SessionCall.second calls).map AuditEvent.anonymous := by
  intro hall
  have hlogs := hall "s3cret" "hunter2" ⟨1⟩ 0 twoCalls (by decide) twoCalls_denied twoCalls_hash
  have hhash := (sessionRun_anonymous_eq_iff "s3cret" "hunter2" (by decide)
    twoCalls_denied).mp hlogs _ (List.mem_cons_self ..)
  have hparams : ((ToolCall.getCurrent ⟨none⟩).withToken (some "s3cret")).paramsJson =
      ((ToolCall.getCurrent ⟨none⟩).withToken (some "hunter2")).paramsJson :=
    twoCalls_hash _ (by decide) _ (by decide) hhash
  have htokens : "s3cret" = "hunter2" := paramsJson_withToken_injective hparams
  exact absurd htokens (by decide)

theorem audit_token_free_twoCalls :
    (sessionRun ⟨1⟩ 0 "s3cret" SessionCall.first twoCalls).map AuditEvent.anonymous =
        (sessionRun ⟨1⟩ 0 "hunter2" SessionCall.second twoCalls).map AuditEvent.anonymous ↔
      "s3cret" = "hunter2" ∨ ∀ c ∈ twoCalls, c.authorised = false :=
  audit_token_free_iff (by decide) twoCalls_denied twoCalls_hash

end Tempcheck
