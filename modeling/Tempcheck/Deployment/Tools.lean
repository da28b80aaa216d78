import Tempcheck.Deployment.Reads
import Tempcheck.Mcp.Secrecy
import Tempcheck.Mcp.Window

/-!
# The tools on the shared file

A call of a tool asks nothing twice, up to writing to a sink, so what it is answered can be
taken for fixed surroundings (`asksOnce_serve`).  What is known of calls in surroundings is
then known of calls on the shared file.  A call that has the file to itself is the call on a
`Host` (`tool_alone`).

In any company, a call looks at the sensors or at the file only after it was authorised and
every sink has its event (`tool_audited`), and an answered analysis is the analysis of the
rows that its own aggregation has read (`tool_analyses`).
-/

namespace Tempcheck

namespace Deployment

open Transition (Run)
open Program (Prog Surroundings doneBy exec query trail)
open Shared (Alone Asks AsksOnce Exchange Follows Implements Object Yields alone_map alone_query
  alone_refine asks_query asksOnce_query atomic yields_map yields_query yields_refine)

instance : ∀ o : Op, Nonempty o.Answer
  | .newUuid => ⟨""⟩
  | .eventTime => ⟨default⟩
  | .now => ⟨default⟩
  | .emit _ _ => ⟨()⟩
  | .collect => ⟨.ok []⟩
  | .analyze _ _ _ => ⟨.ok []⟩

section

variable [Chrono] [Encoders] {service : TemperatureMcpService} {asked : Op → Prop}
  {call : ToolCall}

/-! ## Questions of a call -/

omit [Chrono] [Encoders] in
theorem asks_emit (audit : MultiAuditSink) (event : AuditEvent) :
    Asks (fun o => ∃ sink, o = .emit sink event) (audit.emit event) :=
  Asks.forM (fun sink => asks_query ⟨sink, rfl⟩) _

omit [Chrono] [Encoders] in
/-- A sink gives no answer that could differ. -/
theorem asksOnce_emit (audit : MultiAuditSink) (event : AuditEvent) :
    AsksOnce asked (audit.emit event) := by
  refine ((asks_emit audit event).mono ?_).asksOnce
  rintro _ ⟨sink, rfl⟩
  exact inferInstanceAs (Subsingleton Unit)

omit [Chrono] [Encoders] in
theorem asksOnce_respond (event : AuditEvent) (json : Except String String) :
    AsksOnce asked (service.respond event json).run := by
  refine .attempt (C := fun _ => False) trivial trivial fun payload => ?_
  refine .attempt (C := fun _ => False) trivial trivial fun payload => ?_
  exact .attempt (.perform (asksOnce_emit ..)) (Shared.asks_any _) fun _ => trivial

omit [Chrono] in
theorem asksOnce_currentBody (params : GetCurrentTemperatureParams) (event : AuditEvent)
    (hcollect : ¬ asked .collect) : AsksOnce asked (service.currentBody params event).run := by
  refine .attempt (C := fun _ => False) trivial trivial fun _ => ?_
  refine .attempt (C := (· = .collect)) (.perform (asksOnce_query ?_))
    (Asks.perform (asks_query rfl)) fun collected => ?_
  · rintro (h | h)
    · exact h
    · exact hcollect h
  refine .attempt (C := fun _ => False) trivial trivial fun readings => ?_
  exact asksOnce_respond event _

omit [Encoders] in
/-- Only the clock is asked about the range. -/
theorem asks_timeRange (params : AnalyzeTemperatureParams) :
    Asks (· = Op.now) (timeRange params).run := by
  refine Asks.attempt ?_ fun toAt => Asks.attempt trivial fun fromAt => trivial
  cases params.toText with
  | none => exact Asks.perform (asks_query rfl)
  | some s => trivial

omit [Encoders] in
theorem asksOnce_timeRange (params : AnalyzeTemperatureParams) (hnow : ¬ asked .now) :
    AsksOnce asked (timeRange params).run := by
  refine .attempt (C := fun _ => True) ?_ (Shared.asks_any _) fun toAt =>
    .attempt (C := fun _ => False) trivial trivial fun fromAt => trivial
  cases params.toText with
  | none => exact .perform (asksOnce_query hnow)
  | some s => trivial

theorem asksOnce_analyzeBody (params : AnalyzeTemperatureParams) (event : AuditEvent)
    (hnow : ¬ asked .now) (hanalyze : ∀ sensor fromAt toAt, ¬ asked (.analyze sensor fromAt toAt)) :
    AsksOnce asked (service.analyzeBody params event).run := by
  refine .attempt (C := fun _ => False) trivial trivial fun _ => ?_
  refine .attempt (asksOnce_timeRange params ?_) (asks_timeRange params) fun range => ?_
  · rintro (h | h)
    · exact h
    · exact hnow h
  refine .attempt (.perform (asksOnce_query ?_)) (Shared.asks_any _) fun analyzed => ?_
  · rintro (h | h | h)
    · cases h
    · exact h
    · exact hanalyze _ _ _ h
  refine .attempt (C := fun _ => False) trivial trivial fun analysis => ?_
  exact asksOnce_respond event _

/-- Nothing is asked twice in a call, but of the sinks. -/
theorem asksOnce_serve (call : ToolCall) : AsksOnce (fun _ => False) (service.serve call) := by
  have hopening : Asks (fun o => o = .newUuid ∨ o = .eventTime ∨ ∃ sink event, o = .emit sink event)
      (service.auditInvoke call.tool call.version call.paramsJson) := by
    refine ⟨Or.inl rfl, fun id => ⟨Or.inr (Or.inl rfl), fun now => ?_⟩⟩
    exact ((asks_emit ..).mono fun o ⟨sink, ho⟩ => Or.inr (Or.inr ⟨sink, _, ho⟩)).bind
      fun _ => trivial
  rw [serve_eq, TemperatureMcpService.audited]
  refine .bind ?_ hopening fun event => .bind ?_ (Shared.asks_any _) fun result =>
    .bind ?_ (Shared.asks_any _) fun _ => trivial
  · refine ⟨Or.inr id, fun id => ⟨Or.inr (by simp), fun now => ?_⟩⟩
    exact (asksOnce_emit ..).bind (Shared.asks_any _) fun _ => trivial
  · cases call with
    | getCurrent params => exact asksOnce_currentBody params event (by simp)
    | analyze params => exact asksOnce_analyzeBody params event (by simp) (by simp)
  · cases result with
    | ok result => trivial
    | error e => exact asksOnce_emit ..

/-- Nothing is collected for an analysis. -/
theorem asks_analyze_serve (params : AnalyzeTemperatureParams) :
    Asks (· ≠ Op.collect) (service.serve (.analyze params)) := by
  have hemit : ∀ event, Asks (· ≠ Op.collect) (service.audit.emit event) := fun event =>
    (asks_emit service.audit event).mono (by rintro _ ⟨sink, rfl⟩; simp)
  have hbody : ∀ event, Asks (· ≠ Op.collect) (service.analyzeBody params event).run := by
    refine fun event => .attempt trivial fun _ => .attempt ?_ fun range => ?_
    · refine (asks_timeRange params).mono ?_
      rintro _ rfl
      simp
    refine .attempt (.perform (asks_query (by simp))) fun analyzed =>
      .attempt trivial fun analysis => .attempt trivial fun payload => .attempt trivial
        fun payload => .attempt (.perform (hemit _)) fun _ => trivial
  rw [serve_eq, TemperatureMcpService.audited]
  refine .bind ⟨by simp, fun id => ⟨by simp, fun now => (hemit _).bind fun _ => trivial⟩⟩
    fun event => .bind (hbody event) fun result => .bind ?_ fun _ => trivial
  cases result with
  | ok result => trivial
  | error e => exact hemit _

/-- An analysis is asked for after the range. -/
theorem trail_analyzeBody {w : Surroundings Op Op.Answer} {params : AnalyzeTemperatureParams}
    {range : DateTime × DateTime} (hauth : service.authorize params.authToken = .ok ())
    (hrange : rangeAt (w .now) params = .ok range) (event : AuditEvent) :
    ∃ rest, trail w (service.analyzeBody params event) = trail w (timeRange params) ++
      Op.analyze params.sensor range.1 range.2 :: rest := by
  rw [TemperatureMcpService.analyzeBody, hauth, Shared.compute_ok_bind, Program.trail_bind,
    exec_timeRange, hrange]
  simp only [Program.trail_bind, Program.trail_perform, Program.trace_query]
  exact ⟨_, rfl⟩

theorem exists_trace_analyze {w : Surroundings Op Op.Answer} {params : AnalyzeTemperatureParams}
    {range : DateTime × DateTime} (hauth : service.authorize params.authToken = .ok ())
    (hrange : rangeAt (w .now) params = .ok range) :
    ∃ pre post, (service.serve (.analyze params)).trace w = pre ++ trail w (timeRange params) ++
      Op.analyze params.sensor range.1 range.2 :: post := by
  let event := ToolCall.event (.analyze params) w
  obtain ⟨rest, hrest⟩ := trail_analyzeBody hauth hrange event
  rw [trace_serve, TemperatureMcpService.body, hrest]
  refine ⟨[.newUuid, .eventTime] ++ (service.audit.emit event).trace w,
    rest ++ (service.auditFailure event (service.outcome w (.analyze params))).trace w, ?_⟩
  simp only [List.append_assoc, List.cons_append]
  rfl

/-! ## A call by itself -/

section

variable [Sqlite] {db db' : Db} {res : Except McpError CallToolResult}

/-- The file, one question of a tool at a time. -/
abbrev ServesOps : Object Db Op Op.Answer := atomic opStatements Serves

omit [Encoders] in
/-- It answers as a host with its table does. -/
theorem servesOps_iff {o : Op} {a : o.Answer} : ServesOps db ⟨o, a⟩ db' ↔
    db' = db ∧ ∃ host : Host, host.db = db ∧ host.answer o = a := by
  have hquery : ∀ {q : Statement} {a : q.Answer}, (∀ u, Serves db ⟨q, a⟩ u ↔ u = db) →
      ∀ {P : Prop}, P → (Alone Serves (query q) db db' a ↔ db' = db ∧ P) := by
    intro q a hq P hP
    rw [alone_query, hq]
    exact (and_iff_left hP).symm
  let host : Host := ⟨Faults.none, db, .ok [], "", default, default⟩
  cases o with
  | newUuid =>
      refine hquery (fun u => ⟨?_, ?_⟩) ⟨{ host with correlationId := a }, rfl, rfl⟩
      · rintro ⟨⟩
        rfl
      · rintro rfl
        exact .drawn
  | eventTime =>
      refine hquery (fun u => ⟨?_, ?_⟩) ⟨{ host with eventTime := a }, rfl, rfl⟩
      · rintro ⟨⟩
        rfl
      · rintro rfl
        exact .told
  | now =>
      refine hquery (fun u => ⟨?_, ?_⟩) ⟨{ host with now := a }, rfl, rfl⟩
      · rintro ⟨⟩
        rfl
      · rintro rfl
        exact .told
  | emit sink event =>
      refine hquery (fun u => ⟨?_, ?_⟩) ⟨host, rfl, rfl⟩
      · rintro ⟨⟩
        rfl
      · rintro rfl
        exact .emitted
  | collect =>
      refine hquery (fun u => ⟨?_, ?_⟩) ⟨{ host with collected := a }, rfl, rfl⟩
      · rintro ⟨⟩
        rfl
      · rintro rfl
        exact .collected
  | analyze sensor fromAt toAt =>
      refine alone_analyze.trans (and_congr_right fun _ => ⟨?_, ?_⟩)
      · rintro ⟨io, hio⟩
        exact ⟨{ host with io := io }, rfl, hio⟩
      · rintro ⟨found, rfl, hanswer⟩
        exact ⟨found.io, hanswer⟩

/-- Surroundings that answer each question as some host are one host to a call. -/
theorem exists_host {w : Surroundings Op Op.Answer}
    (h : ∀ o ∈ (service.serve call).trace w, ∃ host : Host, host.db = db ∧ host.answer o = w o) :
    ∃ host : Host, host.db = db ∧ service.outcome host.answer call = service.outcome w call := by
  cases call with
  | getCurrent params => exact ⟨⟨Faults.none, db, w .collect, "", default, default⟩, rfl, rfl⟩
  | analyze params =>
      have hasked : ∀ {range}, service.authorize params.authToken = .ok () →
          rangeAt (w .now) params = .ok range →
          ∃ io, analyze io db params.sensor range.1 range.2 =
            w (.analyze params.sensor range.1 range.2) := by
        intro range hauth hrange
        obtain ⟨pre, post, htrace⟩ := exists_trace_analyze hauth hrange
        obtain ⟨host, rfl, hanswer⟩ := h _
          (htrace ▸ List.mem_append_right _ (List.mem_cons_self ..))
        exact ⟨host.io, hanswer⟩
      have heq : ∀ w : Surroundings Op Op.Answer, service.outcome w (.analyze params) =
          service.authorize params.authToken >>= fun _ => rangeAt (w .now) params >>=
            fun range => (w (.analyze params.sensor range.1 range.2)).mapError mapAnalyzeError >>=
              fun analysis => respondOutcome (analysisJson analysis) := fun _ => rfl
      let host : Host := ⟨Faults.none, db, .ok [], "", default, w .now⟩
      cases hauth : service.authorize params.authToken with
      | error e => exact ⟨host, rfl, by rw [heq, heq, hauth]; rfl⟩
      | ok u =>
          cases hrange : rangeAt (w .now) params with
          | error e =>
              have hhost : rangeAt (host.answer .now) params = .error e := hrange
              exact ⟨host, rfl, by rw [heq, heq, hauth, hrange, hhost]; rfl⟩
          | ok range =>
              obtain ⟨io, hio⟩ := hasked hauth hrange
              have hhost : rangeAt (Host.answer { host with io := io } .now) params =
                  .ok range := hrange
              have hanalyze : Host.answer { host with io := io }
                  (.analyze params.sensor range.1 range.2) =
                    w (.analyze params.sensor range.1 range.2) := hio
              refine ⟨{ host with io := io }, rfl, ?_⟩
              rw [heq, heq, hrange, hhost]
              exact congrArg (service.authorize params.authToken >>= fun _ =>
                Except.mapError mapAnalyzeError · >>= fun analysis =>
                  respondOutcome (analysisJson analysis)) hanalyze

/-- A call by itself is a call on a host with the table of the file. -/
theorem alone_serve : Alone ServesOps (service.serve call) db db' res ↔
    db' = db ∧ ∃ host : Host, host.db = db ∧ (service.serve call).run host.answer = res := by
  rw [Shared.alone_iff_surroundings (asksOnce_serve call) fun h => (servesOps_iff.mp h).1]
  refine and_congr_right fun _ => ⟨?_, ?_⟩
  · rintro ⟨w, rfl, hserves⟩
    have hhosts : ∀ o ∈ (service.serve call).trace w,
        ∃ host : Host, host.db = db ∧ host.answer o = w o := fun o ho =>
      (servesOps_iff.mp (hserves o ho)).2
    obtain ⟨host, hdb, hout⟩ := exists_host hhosts
    exact ⟨host, hdb, by rw [run_serve, run_serve, hout]⟩
  · rintro ⟨host, rfl, rfl⟩
    exact ⟨host.answer, rfl, fun o _ => servesOps_iff.mpr ⟨rfl, host, rfl, rfl⟩⟩

/-- A tool call by itself is that of the model. -/
theorem tool_alone [PrettyEncoder] :
    Alone Serves (Task.tool service call).session db db' (.tool res) ↔
      db' = db ∧ ∃ host : Host, host.db = db ∧ (service.serve call).run host.answer = res := by
  rw [← alone_serve, Task.session, alone_refine, alone_map]
  constructor
  · rintro ⟨res', h, heq⟩
    cases heq
    exact h
  · exact fun h => ⟨res, h, rfl⟩

end

/-! ## Authorisation and events -/

/-- The statement looks at the sensors or at the file, or changes it. -/
def Statement.Guarded : Statement → Prop
  | .now => False
  | .newUuid => False
  | .print _ => False
  | .emit _ _ => False
  | _ => True

omit [Encoders] in
theorem asks_not_guarded : ∀ {o : Op}, ¬ o.Guarded →
    Asks (fun q => ¬ q.Guarded) (opStatements o)
  | .newUuid, _ => asks_query id
  | .eventTime, _ => asks_query id
  | .now, _ => asks_query id
  | .emit _ _, _ => asks_query id
  | .collect, h => absurd trivial h
  | .analyze _ _ _, h => absurd trivial h

omit [Encoders] in
theorem implements_not_guarded {xs : List (Exchange Op Op.Answer)} {es : List Executed}
    (h : Implements opStatements xs es) (hxs : ∀ x ∈ xs, ¬ x.1.Guarded) :
    ∀ e ∈ es, ¬ e.1.Guarded := by
  intro e he
  obtain ⟨x, hx, es', hes', hmem⟩ := h.exists_mem he
  exact (asks_not_guarded (hxs x hx)).follows hes' e hmem

/-- The call is authorised, and every sink has been written its event, with an id and a time
that have been asked for. -/
def Audited (service : TemperatureMcpService) (call : ToolCall) (es : List Executed) : Prop :=
  service.authorize call.authToken = .ok () ∧ ∃ now id, ⟨.newUuid, id⟩ ∈ es ∧ ⟨.now, now⟩ ∈ es ∧
    ∀ sink < service.audit.sinks, ⟨.emit sink (.invoke now call.tool call.version "mcp-client"
      "temperature:read" call.paramsJson id), ()⟩ ∈ es

omit [Encoders] in
theorem Audited.mono {es es' : List Executed} (h : Audited service call es) (hsub : es ⊆ es') :
    Audited service call es' := by
  obtain ⟨hauth, now, id, hid, hnow, hemit⟩ := h
  exact ⟨hauth, now, id, hsub hid, hsub hnow, fun sink hsink => hsub (hemit sink hsink)⟩

/-- The body of a call that is not authorised asks nothing. -/
theorem trail_body_error {w : Surroundings Op Op.Answer} {e : McpError}
    (hauth : service.authorize call.authToken = .error e) (event : AuditEvent) :
    trail w (service.body call event) = [] := by
  cases call with
  | getCurrent params =>
      rw [TemperatureMcpService.body, TemperatureMcpService.currentBody]
      change service.authorize params.authToken = _ at hauth
      rw [hauth, Program.trail_bind]
      rfl
  | analyze params =>
      rw [TemperatureMcpService.body, TemperatureMcpService.analyzeBody]
      change service.authorize params.authToken = _ at hauth
      rw [hauth, Program.trail_bind]
      rfl

omit [Encoders] in
/-- What a call executes before its body. -/
theorem implements_opening {w : Surroundings Op Op.Answer} {es : List Executed}
    (h : Implements opStatements (([Op.newUuid, Op.eventTime] ++
      (service.audit.emit (call.event w)).trace w).map fun o => ⟨o, w o⟩) es) :
    (∀ e ∈ es, ¬ e.1.Guarded) ∧ ⟨.newUuid, w .newUuid⟩ ∈ es ∧ ⟨.now, w .eventTime⟩ ∈ es ∧
      ∀ sink < service.audit.sinks, ⟨.emit sink (call.event w), ()⟩ ∈ es := by
  refine ⟨implements_not_guarded h fun x hx => ?_, ?_, ?_, fun sink hsink => ?_⟩
  · obtain ⟨o, ho, rfl⟩ := List.mem_map.mp hx
    rcases List.mem_append.mp ho with ho | ho
    · simp only [List.mem_cons, List.not_mem_nil, or_false] at ho
      rcases ho with rfl | rfl
      · exact id
      · exact id
    · exact not_guarded_emit _ ho
  · obtain ⟨es', hes', hsub⟩ := h.subset_of_mem (x := ⟨.newUuid, w .newUuid⟩) (by simp)
    rw [yields_query.mp hes'] at hsub
    exact hsub (List.mem_singleton_self _)
  · obtain ⟨es', hes', hsub⟩ := h.subset_of_mem (x := ⟨.eventTime, w .eventTime⟩) (by simp)
    rw [yields_query.mp hes'] at hsub
    exact hsub (List.mem_singleton_self _)
  · have hemit : Op.emit sink (call.event w) ∈ (service.audit.emit (call.event w)).trace w := by
      rw [MultiAuditSink.emit, Program.trace_forM]
      exact List.mem_flatMap.mpr ⟨sink, List.mem_range.mpr hsink, List.mem_singleton_self _⟩
    obtain ⟨es', hes', hsub⟩ := h.subset_of_mem
      (List.mem_map_of_mem (List.mem_append_right [Op.newUuid, Op.eventTime] hemit))
    rw [yields_query.mp hes'] at hsub
    exact hsub (List.mem_singleton_self _)

/-- A guarded statement of a call comes after its authorisation and its event. -/
theorem audited_of_yields [PrettyEncoder] {es : List Executed} {outcome : Outcome}
    (h : Yields (Task.tool service call).session es outcome) {pre post : List Executed}
    {x : Executed} (hes : es = pre ++ x :: post) (hguarded : x.1.Guarded) :
    Audited service call pre := by
  obtain ⟨xs, hxs, himpl⟩ := yields_refine.mp h
  obtain ⟨res, hres, -⟩ := yields_map.mp hxs
  obtain ⟨w, -, rfl⟩ := (Shared.yields_iff_surroundings (asksOnce_serve call)).mp hres
  rw [trace_serve, List.append_assoc, List.map_append] at himpl
  obtain ⟨opening, rest, rfl, hopening, hrest⟩ := himpl.split_append
  obtain ⟨hquiet, hid, hnow, hemit⟩ := implements_opening hopening
  have hauth : service.authorize call.authToken = .ok () := by
    cases hauth : service.authorize call.authToken with
    | ok u => rfl
    | error e =>
        -- then nothing at all is guarded
        have hfailure : ∀ e ∈ rest, ¬ e.1.Guarded := by
          refine implements_not_guarded hrest fun y hy => ?_
          obtain ⟨o, ho, rfl⟩ := List.mem_map.mp hy
          rw [trail_body_error hauth, List.nil_append] at ho
          exact not_guarded_auditFailure _ _ ho
        have hx : x ∈ opening ++ rest := hes ▸ List.mem_append_right _ (List.mem_cons_self ..)
        rcases List.mem_append.mp hx with hx | hx
        · exact absurd hguarded (hquiet x hx)
        · exact absurd hguarded (hfailure x hx)
  refine Audited.mono ⟨hauth, w .eventTime, w .newUuid, hid, hnow, hemit⟩ ?_
  rcases List.append_eq_append_iff.mp hes with ⟨as, rfl, -⟩ | ⟨bs, rfl, hbs⟩
  · exact List.subset_append_left _ _
  · cases bs with
    | nil =>
        rw [List.append_nil]
        exact List.Subset.refl pre
    | cons y bs =>
        obtain ⟨rfl, -⟩ := List.cons_eq_cons.mp hbs
        exact absurd hguarded
          (hquiet x (List.mem_append_right _ (List.mem_cons_self ..)))

/-! ## Analyses -/

/-- A call of `analyze_temperature` that is answered has asked for an analysis. -/
theorem analyze_of_outcome_ok {w : Surroundings Op Op.Answer} {params : AnalyzeTemperatureParams}
    {result : CallToolResult} (h : service.outcome w (.analyze params) = .ok result) :
    service.authorize params.authToken = .ok () ∧ ∃ range out,
      rangeAt (w .now) params = .ok range ∧ w (.analyze params.sensor range.1 range.2) = .ok out ∧
      respondOutcome (analysisJson out) = .ok result := by
  obtain ⟨u, hauth, h₁⟩ := Fallible.bind_eq_ok.mp h
  obtain ⟨range, hrange, h₂⟩ := Fallible.bind_eq_ok.mp h₁
  obtain ⟨out, hout, h₃⟩ := Fallible.bind_eq_ok.mp h₂
  exact ⟨hauth, range, out, hrange, Fallible.mapError_eq_ok.mp hout, h₃⟩

/-- What a call that is answered with an analysis has executed. -/
theorem tool_of_yields_ok [PrettyEncoder] {es : List Executed} {params : AnalyzeTemperatureParams}
    {result : CallToolResult}
    (h : Yields (Task.tool service (.analyze params)).session es (.tool (.ok result))) :
    ∃ now range out, (params.toText = none → ⟨.now, now⟩ ∈ es) ∧
      rangeAt now params = .ok range ∧ respondOutcome (analysisJson out) = .ok result ∧
      range.1 < range.2 ∧ ∃ pre post n rows, n ≤ maxAnalysisRows ∧
        collectRows mapRow rows = .ok out ∧ es = pre ++
          ⟨.count params.sensor (toRfc3339 range.1) (toRfc3339 range.2), .ok n⟩ ::
          ([⟨.prepare, .ok ()⟩] ++
            ⟨.aggregate params.sensor (toRfc3339 range.1) (toRfc3339 range.2), .ok rows⟩ ::
            post) := by
  obtain ⟨xs, hxs, himpl⟩ := yields_refine.mp h
  obtain ⟨res, hres, heq⟩ := yields_map.mp hxs
  obtain ⟨w, rfl, rfl⟩ := (Shared.yields_iff_surroundings (asksOnce_serve _)).mp hres
  have hout : service.outcome w (.analyze params) = .ok result := by
    rw [← run_serve]
    exact (Outcome.tool.inj heq).symm
  obtain ⟨hauth, range, out, hrange, hanalyze, hresult⟩ := analyze_of_outcome_ok hout
  obtain ⟨pre, post, htrace⟩ := exists_trace_analyze hauth hrange
  rw [htrace, List.map_append, List.map_cons] at himpl
  refine ⟨w .now, range, out, fun hto => ?_, hrange, hresult, ?_⟩
  · have hnow : Op.now ∈ pre ++ trail w (timeRange params) := by
      rw [trail_timeRange, if_pos hto]
      exact List.mem_append_right _ (List.mem_singleton_self _)
    obtain ⟨es', hes', hsub⟩ := himpl.subset_of_mem
      (List.mem_append_left _ (List.mem_map_of_mem hnow))
    rw [yields_query.mp hes'] at hsub
    exact hsub (List.mem_singleton_self _)
  · obtain ⟨es₁, es₂, es₃, rfl, -, hcall, -⟩ := himpl.split
    obtain ⟨hlt, n, rows, hn, hrows, rfl⟩ := yields_analyze_ok (hanalyze ▸ hcall)
    exact ⟨hlt, es₁ ++ [⟨.lock, .ok ()⟩], es₃, n, rows, hn, hrows, by simp⟩

/-! ## Runs -/

variable [Sqlite] [PrettyEncoder] {ι : Type} [DecidableEq ι] {tasks : ι → Task} {db db' : Db}
  {ts : ι → Session Outcome} {history : List (ι × Executed)}

/-- Whatever else happens, a call looks at the sensors or at the file only after it was
authorised and every sink has its event. -/
theorem tool_audited
    (h : Run (Shared.Step Serves) (db, fun i => (tasks i).session) history (db', ts)) {i : ι}
    (hi : tasks i = .tool service call) {pre post : List (ι × Executed)} {x : Executed}
    (hx : history = pre ++ (i, x) :: post) (hguarded : x.1.Guarded) :
    Audited service call (doneBy i pre) := by
  have halways : ∀ before after, doneBy i history = before ++ x :: after →
      Audited service call before := by
    refine Shared.Run.always h
      (P := fun es => ∀ before after, es = before ++ x :: after → Audited service call before)
      (fun es es' hall before after hes => ?_) fun es outcome hes before after heq => ?_
    · exact hall before (after ++ es') (by rw [hes, List.append_assoc, List.cons_append])
    · change Yields (tasks i).session es outcome at hes
      rw [hi] at hes
      exact audited_of_yields hes heq hguarded
  refine halways _ (doneBy i post) ?_
  rw [hx, Shared.doneBy_append, Program.doneBy_cons_self]

/-- An answered analysis is that of the range that the call asked for, in the table that its
aggregation has read. -/
theorem tool_analyses
    (h : Run (Shared.Step Serves) (db, fun i => (tasks i).session) history (db', ts))
    (hdb : db.WellTimed) (hdated : Dated history) {i : ι} {params : AnalyzeTemperatureParams}
    (hi : tasks i = .tool service (.analyze params)) {result : CallToolResult}
    (hret : ts i = .ret (.tool (.ok result))) :
    ∃ now range out, (params.toText = none → ⟨.now, now⟩ ∈ doneBy i history) ∧
      rangeAt now params = .ok range ∧ respondOutcome (analysisJson out) = .ok result ∧
      (range.2.FourDigitYear → AnalysedIn db history i params.sensor range.1 range.2 out) := by
  have hyields : Yields (tasks i).session (doneBy i history) (.tool (.ok result)) := by
    have hfollows : Follows (tasks i).session (doneBy i history) (ts i) := Shared.Run.follows h i
    rwa [hret] at hfollows
  rw [hi] at hyields
  obtain ⟨now, range, out, hnow, hrange, hresult, hlt, pre, post, n, rows, hn, hrows, heq⟩ :=
    tool_of_yields_ok hyields
  exact ⟨now, range, out, hnow, hrange, hresult, fun hyear =>
    analysedIn_of_doneBy h hdb hdated heq hlt hyear hn hrows⟩

end

/-! ## A call with a token -/

/-- A service with a token and two sinks. -/
def guardedService : TemperatureMcpService := ⟨⟨2⟩, some "s3cret"⟩

/-- A call with that token. -/
def guardedCall : ToolCall := .getCurrent ⟨some "s3cret"⟩

/-- The event of a call that is made at the default instant. -/
def openingEvent (call : ToolCall) : AuditEvent :=
  .invoke default call.tool call.version "mcp-client" "temperature:read" call.paramsJson "id"

/-- What the call executes before it collects. -/
def guardedOpening : List (Unit × Executed) :=
  ([⟨.newUuid, "id"⟩, ⟨.now, default⟩, ⟨.emit 0 (openingEvent guardedCall), ()⟩,
    ⟨.emit 1 (openingEvent guardedCall), ()⟩] : List Executed).map (Prod.mk ())

theorem run_guardedCall : ∃ ts, Run (Shared.Step Serves)
    (Db.empty, fun _ : Unit => (Task.tool guardedService guardedCall).session)
    (guardedOpening ++ [((), ⟨.collect, .ok []⟩)]) (Db.empty, ts) :=
  ⟨_, .cons (.ask rfl .drawn) (.cons (.ask rfl .told) (.cons (.ask rfl .emitted)
    (.cons (.ask rfl .emitted) (.cons (.ask rfl .collected) .nil))))⟩

theorem tool_audited_guardedCall :
    Audited guardedService guardedCall (doneBy () guardedOpening) := by
  obtain ⟨ts, hrun⟩ := run_guardedCall
  exact tool_audited (i := ()) hrun rfl rfl trivial

/-! ## After a tick -/

/-- A call of `analyze_temperature` leaves the sensors alone. -/
theorem collections_of_analyze {service : TemperatureMcpService}
    {params : AnalyzeTemperatureParams} {es : List Executed} {outcome : Outcome}
    (h : Yields (Task.tool service (.analyze params)).session es outcome) :
    collections es = [] := by
  have hasks : Asks (· ≠ Op.collect) (Outcome.tool <$> service.serve (.analyze params)) :=
    (asks_analyze_serve params).bind fun _ => trivial
  refine collections_eq_nil ((hasks.refine fun o ho => ?_).follows h)
  cases o with
  | collect => exact absurd rfl ho
  | analyze sensor fromAt toAt => exact asks_blind (.analyze sensor fromAt toAt) (by simp)
  | _ => exact asks_query trivial

/-- An open service with one sink. -/
def openService : TemperatureMcpService := ⟨⟨1⟩, none⟩

/-- A call about the first hour of the calendar, when the tick was. -/
def hourParams : AnalyzeTemperatureParams :=
  ⟨some "0001-01-01T00:00:00Z", some "0001-01-01T01:00:00Z", none, none⟩

/-- The text of its answer. -/
def hourJson : String :=
  "[\x7b\"sensor_name\":\"cpu\",\"count\":1,\"min_c\":40.0,\"max_c\":40.0,\"avg_c\":40.0," ++
    "\"latest_c\":40.0,\"from\":\"0001-01-01T00:00:00Z\"," ++
    "\"to\":\"0001-01-01T00:00:00Z\"\x7d]"

/-- A host with the table after the tick. -/
def tickedHost : Host where
  io := Faults.none
  db := tickedDb
  collected := .ok []
  correlationId := "id"
  eventTime := hourLater
  now := hourLater

theorem parseTime_default : parseTime "0001-01-01T00:00:00Z" = .ok default := by
  decide +kernel

theorem parseTime_hourLater : parseTime "0001-01-01T01:00:00Z" = .ok hourLater := by
  decide +kernel

theorem rangeAt_hourParams (now : DateTime) :
    rangeAt now hourParams = .ok (default, hourLater) := by
  have hlt : default < hourLater := by decide
  exact Fallible.bind_eq_ok.mpr ⟨hourLater, parseTime_hourLater, Fallible.bind_eq_ok.mpr
    ⟨default, parseTime_default, if_neg (not_le.mpr hlt)⟩⟩

theorem serve_hourParams : (openService.serve (.analyze hourParams)).run tickedHost.answer =
    .ok (.success [.text hourJson]) := by
  have hwindow : windowAnswer openService tickedHost none none "0001-01-01T00:00:00Z"
      "0001-01-01T01:00:00Z" = .ok (.success [.text hourJson]) := by
    refine (windowAnswer_eq_ok rfl rfl parseTime_default parseTime_hourLater (by decide)).mpr
      ⟨[⟨"cpu", 1, .exact 40, .exact 40, .exact 40, .exact 40, default, default⟩], ?_⟩
    exact ⟨by decide +kernel, by decide +kernel, by decide +kernel⟩
  exact hwindow

/-- The call finds the reading of the tick. -/
theorem tool_analyses_ticked : ∃ (es : List Executed) (ts : Bool → Session Outcome),
    Run (Shared.Step Serves)
      (Db.empty, fun i => (tickAnd (.tool openService (.analyze hourParams)) i).session)
      (oneTick ++ es.map (Prod.mk true)) (tickedDb, ts) ∧
    ts true = .ret (.tool (.ok (.success [.text hourJson]))) ∧
    ∃ out, respondOutcome (analysisJson out) = .ok (.success [.text hourJson]) ∧
      AnalysedIn Db.empty (oneTick ++ es.map (Prod.mk true)) true none default hourLater out := by
  obtain ⟨ts, hrun, -, hwaiting⟩ := run_oneTick (.tool openService (.analyze hourParams))
  obtain ⟨es, hyields, hobject⟩ := tool_alone.mpr ⟨rfl, tickedHost, rfl, serve_hourParams⟩
  have hall := hrun.append (Shared.run_alone hyields hobject hwaiting)
  have hdated := dated_append_blind dated_oneTick
    (List.flatMap_eq_nil_iff.mp (collections_of_analyze hyields)) true
  obtain ⟨now, range, out, -, hrange, hresult, hanalysed⟩ :=
    tool_analyses (i := true) hall Db.empty_wellTimed hdated rfl (Function.update_self ..)
  rw [rangeAt_hourParams] at hrange
  cases hrange
  exact ⟨es, _, hall, Function.update_self .., out, hresult, hanalysed (by decide)⟩

end Deployment

end Tempcheck
