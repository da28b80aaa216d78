import Tempcheck.Library.DecimalText
import Tempcheck.Library.Calendar
import Tempcheck.Library.Relational
import Tempcheck.Library.Fallible
import Tempcheck.Library.RustStr
import Tempcheck.Library.Json
import Tempcheck.Library.Sha256
import Tempcheck.Library.Transition
import Tempcheck.Library.Watch
import Tempcheck.Library.Program
import Tempcheck.Library.LineLog
import Tempcheck.Library.Nearest
import Tempcheck.Library.Replace
import Tempcheck.Library.Scale
import Tempcheck.Library.Markup
import Tempcheck.Library.JsonValue
import Tempcheck.Library.JsonText
import Tempcheck.Library.JsonNumber
import Tempcheck.Library.LineReader
import Tempcheck.Library.Shared
import Tempcheck.Config
import Tempcheck.Chrono.DateTime
import Tempcheck.Chrono.Rfc3339
import Tempcheck.Chrono.Parser
import Tempcheck.Collector.Reading
import Tempcheck.Collector.Model
import Tempcheck.Collector.Inputs
import Tempcheck.Collector.Names
import Tempcheck.Collector.Nvidia
import Tempcheck.Collector.Order
import Tempcheck.Storage.Model
import Tempcheck.Storage.Insert
import Tempcheck.Storage.Recent
import Tempcheck.Storage.Analyze
import Tempcheck.Storage.Concurrent
import Tempcheck.Storage.Variants
import Tempcheck.Web.Model
import Tempcheck.Web.Latest
import Tempcheck.Web.Live
import Tempcheck.Web.Chart
import Tempcheck.Web.Axis
import Tempcheck.Web.Escape
import Tempcheck.Web.Markup
import Tempcheck.Web.Page
import Tempcheck.Audit
import Tempcheck.AuditFile
import Tempcheck.Mcp.Server
import Tempcheck.Mcp.Events
import Tempcheck.Mcp.Pairing
import Tempcheck.Mcp.Secrecy
import Tempcheck.Mcp.Token
import Tempcheck.Mcp.Window
import Tempcheck.Mcp.Surfaces
import Tempcheck.Daemon.Model
import Tempcheck.Daemon.Trace
import Tempcheck.Daemon.Spin
import Tempcheck.Daemon.Rate
import Tempcheck.Daemon.History
import Tempcheck.AuditLog
import Tempcheck.Deployment.Model
import Tempcheck.Deployment.Alone
import Tempcheck.Deployment.Handlers
import Tempcheck.Deployment.Rows
import Tempcheck.Deployment.Reads
import Tempcheck.Deployment.Snapshot
import Tempcheck.Deployment.Tools
