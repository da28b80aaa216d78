import Tempcheck.Chrono.Parser
import Tempcheck.Mcp.Events
import Tempcheck.Web.Model

/-!
# One history, two interfaces

`get_history` and `analyze_temperature` ask the store for the same analysis, and both report
a wrong request apart from a failure of the server.  But the web looks at the error, and the
tool at words in its text.

The answers go with each other exactly if no message of the database has these words
(`surfaces_agree_iff`).  Their texts differ even then, by what the tool writes before a
message of the database (`MatchingError`).
-/

namespace Tempcheck

open RustStr (beginsNone contains contains_append)

/-- The error of the tool that goes with one of the web: the request is wrong, with the same
text, or the database failed.  Then the web sends the message of the database, and the tool
writes `database error: ` before it. -/
inductive MatchingError : ApiError → McpError → Prop
  | request (message : String) : MatchingError (.badRequest message) (.invalidParams message)
  | server (message : String) :
      MatchingError (.internal message) (.internalError ("database error: " ++ message))

section

variable [Encoders]

/-- The answer of the tool that goes with one of the web: the capped JSON of the analysis, or
the error that goes with the error. -/
inductive MatchingAnswer : Except ApiError (List AnalysisResult) →
    Except McpError CallToolResult → Prop
  | ok (out : List AnalysisResult) : MatchingAnswer (.ok out) (respondOutcome (analysisJson out))
  | error {e : ApiError} {e' : McpError} (h : MatchingError e e') :
      MatchingAnswer (.error e) (.error e')

/-- A message of the database that reads like one of the store. -/
def Misread (message : String) : Prop :=
  contains message "invalid time range" = true ∨ contains message "row limit" = true

omit [Encoders] in
theorem mapAnalyzeError_eq (e : StoreError) : mapAnalyzeError e =
    if contains e.toString "invalid time range" || contains e.toString "row limit" then
      .invalidParams e.toString
    else .internalError e.toString := by
  rw [mapAnalyzeError]

omit [Encoders] in
/-- The text before a message of the database is misread nowhere. -/
theorem misread_toString (message : String) :
    (contains (StoreError.toString (.db message)) "invalid time range" ||
      contains (StoreError.toString (.db message)) "row limit") = true ↔ Misread message := by
  have htext (pat : String)
      (h : beginsNone pat.toList "database error: ".toList = true) :
      contains (StoreError.toString (.db message)) pat = contains message pat :=
    contains_append h
  rw [htext "invalid time range" (by decide), htext "row limit" (by decide), Bool.or_eq_true,
    Misread]

omit [Encoders] in
/-- The tool classifies an error by its text, and the web by what it is. -/
theorem matchingError_iff (e : StoreError) :
    MatchingError (mapStoreError e) (mapAnalyzeError e) ↔
      ∀ message, e = .db message → ¬ Misread message := by
  rw [mapAnalyzeError_eq]
  cases e with
  | invalidRange =>
      rw [if_pos (by decide)]
      exact iff_of_true (.request _) fun message h => StoreError.noConfusion h
  | rowLimitExceeded =>
      rw [if_pos (by decide)]
      exact iff_of_true (.request _) fun message h => StoreError.noConfusion h
  | db message =>
      constructor
      · intro hmatch message' hmessage hmisread
        cases hmessage
        rw [if_pos ((misread_toString message).mpr hmisread)] at hmatch
        cases hmatch
      · intro hclear
        rw [if_neg fun h => hclear message rfl ((misread_toString message).mp h)]
        exact .server message

variable [Chrono] [Sqlite] {service : TemperatureMcpService} {host : Host}
  {query : HistoryQuery} {params : AnalyzeTemperatureParams}

/-- For the same window of the same table the answers of the two interfaces go with each other,
exactly if no message of the database is misread. -/
theorem surfaces_agree_iff (hauth : service.authorize params.authToken = .ok ())
    (hhours : 1 ≤ query.hours.getD 24 ∧ query.hours.getD 24 ≤ 24 * 30)
    (hsensor : params.sensor = query.sensor)
    (hrange : rangeAt host.now params =
      .ok (host.now.subHours (query.hours.getD 24), host.now)) :
    MatchingAnswer (getHistory host.io host.db host.now query)
        ((service.analyzeTemperature params).run host.answer) ↔
      ∀ message, analyze host.io host.db query.sensor
        (host.now.subHours (query.hours.getD 24)) host.now = .error (.db message) →
          ¬ Misread message := by
  have htool : (service.analyzeTemperature params).run host.answer =
      ((analyze host.io host.db params.sensor (host.now.subHours (query.hours.getD 24))
        host.now).mapError mapAnalyzeError >>= fun out => respondOutcome (analysisJson out)) := by
    refine (run_serve (.analyze params)).trans ?_
    rw [TemperatureMcpService.outcome, ToolCall.authToken, hauth]
    change (rangeAt host.now params >>= fun range =>
      (analyze host.io host.db params.sensor range.1 range.2).mapError mapAnalyzeError >>=
        fun out => respondOutcome (analysisJson out)) = _
    rw [hrange]
    rfl
  have hweb : getHistory host.io host.db host.now query =
      (analyze host.io host.db query.sensor (host.now.subHours (query.hours.getD 24))
        host.now).mapError mapStoreError := if_neg (not_not.mpr hhours)
  rw [htool, hweb, hsensor]
  cases analyze host.io host.db query.sensor (host.now.subHours (query.hours.getD 24))
    host.now with
  | ok out => exact iff_of_true (.ok out) fun message h => by cases h
  | error e =>
      refine Iff.trans ?_ ((matchingError_iff e).trans ?_)
      · constructor
        · intro h
          cases h
          assumption
        · exact .error
      · exact forall_congr' fun message => imp_congr_left (Except.error.injEq e _).symm.to_iff

end

/-- A host whose engine reports a limit of its own. -/
def limitedHost : Host where
  io := ⟨none, fun _ => some "too many columns: row limit"⟩
  db := Db.empty
  collected := .ok []
  correlationId := "id-1"
  eventTime := default
  now := default

/-- The web reports a failure of the server, and the tool a wrong request. -/
theorem surfaces_agree_limited : ¬ MatchingAnswer
    (getHistory limitedHost.io limitedHost.db limitedHost.now ⟨none, none⟩)
    ((TemperatureMcpService.analyzeTemperature ⟨⟨1⟩, none⟩ ⟨none, none, none, none⟩).run
      limitedHost.answer) := by
  intro hmatch
  have hclear := (surfaces_agree_iff rfl (by decide) rfl rfl).mp hmatch
  exact hclear "too many columns: row limit" (by decide) (Or.inr (by decide))

end Tempcheck
