/-!
# Configuration

The limits of `config.rs`, its commands and the configuration that the daemon and the web
server get.  `Config::from_cli` rejects an interval of zero, so every `Config` has a
positive one (`Config.interval_pos`).  The paths and the bind address are texts that no
modelled function reads further.
-/

namespace Tempcheck

/-- `DEFAULT_INTERVAL_SECS`. -/
def defaultIntervalSecs : Nat := 30

theorem defaultIntervalSecs_pos : 0 < defaultIntervalSecs := by decide

/-- `DEFAULT_WEB_HOST`. -/
def defaultWebHost : String := "127.0.0.1"

/-- `DEFAULT_WEB_PORT`. -/
def defaultWebPort : UInt16 := 8080

/-- `DEFAULT_MCP_TOKEN_ENV`. -/
def defaultMcpTokenEnv : String := "TEMPCHECK_MCP_TOKEN"

/-- `MAX_ANALYSIS_ROWS`. -/
def maxAnalysisRows : Nat := 10000

/-- `MAX_RESPONSE_BYTES`. -/
def maxResponseBytes : Nat := 256 * 1024

/-- `Command`. -/
inductive Command where
  | daemon (db : String) (intervalSecs : UInt64)
  | mcp (db : String) (auditLog : Option String)
  | once (db : String) (save : Bool)
  | web (db host : String) (port : UInt16)

/-- `Config`, with the interval in seconds. -/
structure Config where
  dbPath : String
  interval : Nat
  auditLog : Option String
  webHost : String
  webPort : UInt16
  interval_pos : 0 < interval

/-- `ConfigError`. -/
inductive ConfigError where
  | invalidInterval
deriving DecidableEq

/-- The text of a `ConfigError`. -/
def ConfigError.toString : ConfigError → String
  | .invalidInterval => "interval must be greater than zero"

/-- `Config::from_cli`. -/
def Config.fromCli : Command → Except ConfigError Config
  | .daemon db intervalSecs =>
      if h : intervalSecs.toNat = 0 then .error .invalidInterval
      else .ok ⟨db, intervalSecs.toNat, none, defaultWebHost, defaultWebPort,
        Nat.pos_of_ne_zero h⟩
  | .mcp db auditLog =>
      .ok ⟨db, defaultIntervalSecs, auditLog, defaultWebHost, defaultWebPort,
        defaultIntervalSecs_pos⟩
  | .once db _ =>
      .ok ⟨db, defaultIntervalSecs, none, defaultWebHost, defaultWebPort,
        defaultIntervalSecs_pos⟩
  | .web db host port => .ok ⟨db, defaultIntervalSecs, none, host, port, defaultIntervalSecs_pos⟩

/-- The daemon runs at the interval of its command line. -/
theorem Config.fromCli_daemon {db : String} {intervalSecs : UInt64} {config : Config} :
    fromCli (.daemon db intervalSecs) = .ok config → config.interval = intervalSecs.toNat := by
  intro h
  rw [fromCli] at h
  split at h
  · cases h
  · cases h
    rfl

end Tempcheck
