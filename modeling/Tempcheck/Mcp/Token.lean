import Tempcheck.Chrono.Parser
import Tempcheck.Mcp.Secrecy

/-!
# The token in the environment

`TemperatureMcpService::new` reads the token with `env::var(..).ok()`, and a value that is
not UTF-8 is an error there as a variable that is not set is one.  So the service expects the
value if it is a text (`new_ofString`), and otherwise no token at all, and then even a call
without one is let through (`new_failClosed_iff`).
-/

namespace Tempcheck

open Program (Surroundings)
open RustStr (OsString)

section

variable {env : Environment} {db : Except String Unit} {auditLog : Option (Except String Unit)}
  {service : TemperatureMcpService} {value : OsString}

/-- The token of a service that was made. -/
theorem new_expectedToken (hnew : TemperatureMcpService.new env db auditLog = .ok service) :
    service.expectedToken = (envVar env defaultMcpTokenEnv).toOption := by
  obtain ⟨_, -, hnew⟩ := Fallible.bind_eq_ok.mp hnew
  cases auditLog with
  | none =>
      cases hnew
      rfl
  | some opened =>
      obtain ⟨_, -, hnew⟩ := Fallible.bind_eq_ok.mp hnew
      cases hnew
      rfl

/-- A variable that is set gives its value, if that is a text. -/
theorem envVar_toOption {key : String} (hset : env key = some value) :
    (envVar env key).toOption = value.toStr? := by
  simp only [envVar, hset]
  cases value.toStr? with
  | none => rfl
  | some text => rfl

variable [Chrono] [Encoders] {w : Surroundings Op Op.Answer}

/-- A service without a token lets a call through, and no error of the call is that of one
without the token. -/
theorem not_denied_getCurrent (hnone : service.expectedToken = none) :
    ¬ Denied service w (.getCurrent ⟨none⟩) := by
  have hinternal : ∀ msg, McpError.internalError msg ≠ insufficientScope := by
    intro msg h
    have hcode : (-32603 : Int) = -32602 := congrArg McpError.code h
    cases hcode
  rintro ⟨hrun, -⟩
  rw [run_serve, TemperatureMcpService.outcome, TemperatureMcpService.authorize, hnone] at hrun
  rcases Fallible.bind_eq_error.mp hrun with hauth | ⟨_, -, hgranted⟩
  · cases hauth
  rcases Fallible.bind_eq_error.mp hgranted with hcollect | ⟨readings, -, hrespond⟩
  · obtain ⟨e, -, he⟩ := Fallible.mapError_eq_error.mp hcollect
    exact hinternal _ he
  rcases Fallible.bind_eq_error.mp hrespond with hjson | ⟨payload, -, hrespond⟩
  · obtain ⟨e, -, he⟩ := Fallible.mapError_eq_error.mp hjson
    exact hinternal _ he
  rcases Fallible.bind_eq_error.mp hrespond with hcap | ⟨capped, -, hreturn⟩
  · rw [capResponse] at hcap
    split at hcap
    · exact hinternal _ (Except.error.inj hcap)
    · cases hcap
  · cases hreturn

/-- If the variable is set and the service is made, it denies every call that does not
present exactly the value, exactly if the value is a text. -/
theorem new_failClosed_iff (hset : env defaultMcpTokenEnv = some value)
    (hnew : TemperatureMcpService.new env db auditLog = .ok service) :
    (∀ call : ToolCall, (∀ token, call.authToken = some token → OsString.ofString token ≠ value) →
      Denied service w call) ↔ ∃ text, value = .ofString text := by
  have htoken := (new_expectedToken hnew).trans (envVar_toOption hset)
  constructor
  · intro hdenied
    cases htext : value.toStr? with
    | some text => exact ⟨text, OsString.toStr?_eq_some_iff.mp htext⟩
    | none =>
        have hopen := not_denied_getCurrent (w := w) (htoken.trans htext)
        exact absurd (hdenied (.getCurrent ⟨none⟩) nofun) hopen
  · rintro ⟨text, rfl⟩ call hcall
    rw [OsString.toStr?_eq_some_iff.mpr rfl] at htoken
    obtain ⟨audit, expectedToken⟩ := service
    cases htoken
    exact denied_of_ne fun htoken => hcall text htoken rfl

end

/-- An environment with only the token. -/
def tokenEnv (value : OsString) : Environment := fun key =>
  if key = defaultMcpTokenEnv then some value else none

theorem new_failClosed_guessing : ∃ service,
    TemperatureMcpService.new (tokenEnv (.ofString "s3cret")) (.ok ()) none = .ok service ∧
      Denied service openHost.answer guessingCall := by
  have hset : tokenEnv (.ofString "s3cret") defaultMcpTokenEnv = some (.ofString "s3cret") := rfl
  obtain ⟨service, hnew⟩ : ∃ service,
      TemperatureMcpService.new (tokenEnv (.ofString "s3cret")) (.ok ()) none = .ok service :=
    ⟨_, rfl⟩
  refine ⟨service, hnew, (new_failClosed_iff hset hnew).mpr ⟨"s3cret", rfl⟩ guessingCall ?_⟩
  rintro token ⟨⟩
  decide

/-- A token of one byte that is no text leaves the service open. -/
theorem new_misencoded_open :
    ¬ ∀ (env : Environment) (value : OsString) (db : Except String Unit)
        (auditLog : Option (Except String Unit)) (service : TemperatureMcpService)
        (w : Surroundings Op Op.Answer) (call : ToolCall),
      env defaultMcpTokenEnv = some value →
      TemperatureMcpService.new env db auditLog = .ok service →
      (∀ token, call.authToken = some token → OsString.ofString token ≠ value) →
      Denied service w call := by
  intro hall
  have hset : tokenEnv ⟨[0xFF]⟩ defaultMcpTokenEnv = some ⟨[0xFF]⟩ := rfl
  have hopen : (OsString.mk [0xFF]).toStr? = none := by decide +kernel
  exact not_denied_getCurrent ((envVar_toOption hset).trans hopen)
    (hall _ _ (.ok ()) none _ openHost.answer (.getCurrent ⟨none⟩) hset rfl nofun)

end Tempcheck
