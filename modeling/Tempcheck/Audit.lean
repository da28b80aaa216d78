import Tempcheck.Chrono.Rfc3339
import Tempcheck.Library.RustStr
import Tempcheck.Library.Sha256

/-!
# Audit events

The model of the events of `audit.rs`.  A tool call is recorded by two of them, `invoke`
before it runs and `withResult` of that event afterwards.  The second one keeps every
field that identifies the call, with its timestamp.

`AuditEvent.anonymous` forgets the two fields that differ from run to run by design.
-/

namespace Tempcheck

/-- `AuditEvent`. -/
structure AuditEvent where
  timestamp : String
  eventType : String
  toolName : String
  toolVersion : String
  callerIdentity : String
  authorizationScope : String
  paramsFingerprint : String
  resultStatus : String
  resultBytes : Nat
  correlationId : String
  error : Option String
deriving DecidableEq

/-- `Sha256::digest(data.as_bytes())`. -/
def sha256 (data : String) : List UInt8 := Sha256.digest (RustStr.asBytes data)

/-- `fingerprint`. -/
def fingerprint (data : String) : String := Sha256.hexEncode (sha256 data)

theorem fingerprint_eq_iff {data data' : String} :
    fingerprint data = fingerprint data' ↔ sha256 data = sha256 data' :=
  Sha256.hexEncode_injective.eq_iff

namespace AuditEvent

/-- `AuditEvent::invoke`, at the instant `now`. -/
def invoke [Chrono] (now : DateTime) (toolName toolVersion caller scope paramsJson
    correlationId : String) : AuditEvent where
  timestamp := toRfc3339 now
  eventType := "mcp.tool.invoke"
  toolName := toolName
  toolVersion := toolVersion
  callerIdentity := caller
  authorizationScope := scope
  paramsFingerprint := fingerprint paramsJson
  resultStatus := "pending"
  resultBytes := 0
  correlationId := correlationId
  error := none

/-- `AuditEvent::with_result`. -/
def withResult (event : AuditEvent) (status : String) (resultBytes : Nat)
    (error : Option String) : AuditEvent :=
  { event with
    eventType := "mcp.tool.result"
    resultStatus := status
    resultBytes := resultBytes
    error := error }

/-- The event without its timestamp and correlation id. -/
def anonymous (event : AuditEvent) : AuditEvent :=
  { event with timestamp := "", correlationId := "" }

/-- Events of one tool differ at most in the fingerprint, up to the forgotten fields. -/
theorem anonymous_invoke_eq_iff [Chrono] {now now' : DateTime} {toolName toolVersion caller
    scope paramsJson paramsJson' correlationId correlationId' : String} :
    (invoke now toolName toolVersion caller scope paramsJson correlationId).anonymous =
        (invoke now' toolName toolVersion caller scope paramsJson' correlationId').anonymous ↔
      sha256 paramsJson = sha256 paramsJson' := by
  rw [← fingerprint_eq_iff]
  constructor
  · intro h
    exact congrArg AuditEvent.paramsFingerprint h
  · intro h
    simp only [invoke, anonymous, h]

end AuditEvent

end Tempcheck
