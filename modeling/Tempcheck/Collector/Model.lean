import Tempcheck.Collector.Reading
import Tempcheck.Library.RustStr
import Mathlib.Data.List.Sort
import Mathlib.Data.String.Basic

/-!
# The collectors

The model of `collector.rs`.  A backend reads a part of the system that the model is given
as data: a directory is what `is_dir`, `read_dir` and `read_to_string` answer in it, each
with the text of its error, and `nvidia-smi` is the outcome of running it.  `Clock` holds
the instants that `Utc::now` gives when an input is read.

The loops of `HwmonCollector` pass `out` on, as the source pushes to it, so that an early
return is the `Except` of the loop.  Paths occur in error texts only and are kept as the
text that `display` prints.

Temperatures are exact: `milli_c as f64 / 1000.0` is the quotient.
-/

namespace Tempcheck

open RustStr (OsString trim startsWith endsWith trimStartMatches trimEndMatches lines split
  parseI64)

/-! ## Errors -/

/-- `CollectorError`. -/
inductive CollectorError where
  | sysfsMissing (path : String)
  | io (msg : String)
  | invalidReading (path value : String)
deriving DecidableEq

/-- The text of a `CollectorError`. -/
def CollectorError.toString : CollectorError → String
  | .sysfsMissing path => "thermal sysfs path not found: " ++ path
  | .io msg => "failed to read thermal data: " ++ msg
  | .invalidReading path value => "invalid thermal reading in " ++ path ++ ": " ++ value

/-! ## The system -/

/-- The entries `read_dir` gives, any of which may be an error. -/
abbrev Entries := List (Except String OsString)

/-- A directory of files. -/
structure Dir where
  isDir : Bool
  readDir : Except String Entries
  readToString : OsString → Except String String

/-- A directory of directories, with the text of its path. -/
structure Root where
  path : String
  isDir : Bool
  readDir : Except String Entries
  dir : OsString → Dir

/-- What `Command::output` returns. -/
structure Output where
  success : Bool
  status : String
  /-- `String::from_utf8` of the bytes. -/
  stdout : Except String String

/-- The instants at which the inputs are read. -/
structure Clock where
  zone : OsString → DateTime
  input : OsString → OsString → DateTime
  gpu : Nat → DateTime

/-- `milli_c as f64 / 1000.0`. -/
def ofMilli (milliC : Int) : F64 := .exact (milliC / 1000)

/-! ## SysfsCollector -/

/-- The loop of `zone_dirs`. -/
def zoneDirsLoop : Entries → List OsString → Except CollectorError (List OsString)
  | [], zones => .ok zones
  | entry :: entries, zones => do
      let name ← entry.mapError .io
      if startsWith name.toStringLossy "thermal_zone" then
        zoneDirsLoop entries (zones ++ [name])
      else zoneDirsLoop entries zones

/-- `zone_dirs`, by the names of the zones in their directory. -/
def zoneDirs (root : Root) : Except CollectorError (List OsString) := do
  if !root.isDir then
    throw (.sysfsMissing root.path)
  let entries ← root.readDir.mapError fun e => .io ("read " ++ root.path ++ ": " ++ e)
  let zones ← zoneDirsLoop entries []
  return zones.insertionSort fun a b => a.bytes ≤ b.bytes

/-- `read_zone`. -/
def readZone (root : Root) (clock : Clock) (zone : OsString) :
    Except CollectorError SensorReading := do
  let zonePath := root.path ++ "/" ++ zone.toStringLossy
  let typePath := zonePath ++ "/type"
  let tempPath := zonePath ++ "/temp"
  let sensorType ← ((root.dir zone).readToString (OsString.ofString "type")).mapError
    fun e => CollectorError.io ("read " ++ typePath ++ ": " ++ e)
  let sensorType := trim sensorType
  let raw ← ((root.dir zone).readToString (OsString.ofString "temp")).mapError
    fun e => CollectorError.io ("read " ++ tempPath ++ ": " ++ e)
  let raw := trim raw
  let some milliC := parseI64 raw | .error (.invalidReading tempPath raw)
  let zoneName := zone.toStringLossy
  return ⟨zoneName ++ ":" ++ sensorType, ofMilli milliC, clock.zone zone⟩

/-- `SysfsCollector::collect`. -/
def sysfsCollect (root : Root) (clock : Clock) : Except CollectorError (List SensorReading) := do
  let zones ← zoneDirs root
  zones.mapM (readZone root clock)

/-! ## HwmonCollector -/

/-- A file's trimmed text, unless it cannot be read or is blank. -/
def readNonempty (dir : Dir) (file : OsString) : Option String :=
  ((dir.readToString file).toOption.map trim).filter fun s => !s.isEmpty

/-- `hwmon_name`. -/
def hwmonName (dir : Dir) (name : OsString) : String :=
  (readNonempty dir (OsString.ofString "name")).getD name.toStringLossy

/-- The file is a `temp*_input`. -/
def isInput (file : OsString) : Bool :=
  startsWith file.toStringLossy "temp" && endsWith file.toStringLossy "_input"

/-- `sensor_id`. -/
def sensorId (file : OsString) : String :=
  trimEndMatches (trimStartMatches file.toStringLossy "temp") "_input"

/-- `label`. -/
def inputLabel (dir : Dir) (file : OsString) : String :=
  (readNonempty dir (OsString.ofString ("temp" ++ sensorId file ++ "_label"))).getD
    ("temp" ++ sensorId file)

/-- The body of the loop over the files, for an input. -/
def readInput (dirPath : String) (dir : Dir) (clock : Clock) (name file : OsString) :
    Except CollectorError SensorReading := do
  let inputPath := dirPath ++ "/" ++ file.toStringLossy
  let raw ← (dir.readToString file).mapError
    fun e => CollectorError.io ("read " ++ inputPath ++ ": " ++ e)
  let raw := trim raw
  let some milliC := parseI64 raw | .error (.invalidReading inputPath raw)
  return ⟨"hwmon:" ++ hwmonName dir name ++ ":" ++ inputLabel dir file, ofMilli milliC,
    clock.input name file⟩

/-- The loop over the files of a directory. -/
def hwmonFilesLoop (dirPath : String) (dir : Dir) (clock : Clock) (name : OsString) :
    Entries → List SensorReading → Except CollectorError (List SensorReading)
  | [], out => .ok out
  | entry :: entries, out => do
      let file ← entry.mapError .io
      if isInput file then
        let reading ← readInput dirPath dir clock name file
        hwmonFilesLoop dirPath dir clock name entries (out ++ [reading])
      else hwmonFilesLoop dirPath dir clock name entries out

/-- The loop over the directories. -/
def hwmonDirsLoop (root : Root) (clock : Clock) :
    Entries → List SensorReading → Except CollectorError (List SensorReading)
  | [], out => .ok out
  | entry :: entries, out => do
      let name ← entry.mapError .io
      let dir := root.dir name
      if dir.isDir then
        let dirPath := root.path ++ "/" ++ name.toStringLossy
        let files ← dir.readDir.mapError fun e => .io ("read " ++ dirPath ++ ": " ++ e)
        let out ← hwmonFilesLoop dirPath dir clock name files out
        hwmonDirsLoop root clock entries out
      else hwmonDirsLoop root clock entries out

/-- `out.sort_by(|a, b| a.sensor_name.cmp(&b.sensor_name))`. -/
def sortByName (readings : List SensorReading) : List SensorReading :=
  readings.insertionSort fun a b => a.sensorName ≤ b.sensorName

/-- `HwmonCollector::collect`. -/
def hwmonCollect (root : Root) (clock : Clock) : Except CollectorError (List SensorReading) := do
  if !root.isDir then
    throw (.sysfsMissing root.path)
  let entries ← root.readDir.mapError fun e => .io ("read " ++ root.path ++ ": " ++ e)
  let out ← hwmonDirsLoop root clock entries []
  return sortByName out

/-! ## NvidiaSmiCollector -/

section

variable (parseF64 : String → Option F64)

/-- The loop over the trimmed lines that are not blank. -/
def nvidiaLoop (clock : Clock) :
    List String → List SensorReading → Except CollectorError (List SensorReading)
  | [], out => .ok out
  | line :: rest, out =>
      match (split line ',').map trim with
      | gpuIndex :: gpuName :: tempRaw :: _ =>
          match parseF64 tempRaw with
          | none => .error (.invalidReading "nvidia-smi stdout" line)
          | some temperatureC =>
              nvidiaLoop clock rest
                (out ++ [⟨"nvidia:" ++ gpuIndex ++ ":" ++ gpuName, temperatureC,
                  clock.gpu out.length⟩])
      | _ => .error (.invalidReading "nvidia-smi stdout" line)

/-- The lines of the output that count. -/
def gpuLines (stdout : String) : List String :=
  ((lines stdout).map trim).filter fun line => !line.isEmpty

/-- `NvidiaSmiCollector::collect`. -/
def nvidiaCollect (executable : String) (command : Except String Output) (clock : Clock) :
    Except CollectorError (List SensorReading) := do
  let output ← command.mapError fun e => CollectorError.io ("exec " ++ executable ++ ": " ++ e)
  if !output.success then
    throw (.io (executable ++ " exited with status " ++ output.status))
  let stdout ← output.stdout.mapError
    fun e => CollectorError.io ("parse nvidia-smi output: " ++ e)
  nvidiaLoop parseF64 clock (gpuLines stdout) []

/-! ## SystemTemperatureCollector -/

/-- What the three backends read. -/
structure System where
  thermal : Root
  hwmon : Root
  nvidiaSmi : Except String Output

/-- The loop over the backends. -/
def mergeLoop : List (Except CollectorError (List SensorReading)) →
    List SensorReading × List CollectorError → List SensorReading × List CollectorError
  | [], acc => acc
  | .ok readings :: rest, (all, errors) => mergeLoop rest (all ++ readings, errors)
  | .error e :: rest, (all, errors) => mergeLoop rest (all, errors ++ [e])

/-- `SystemTemperatureCollector::collect`. -/
def systemCollect (sys : System) (clock : Clock) : Except CollectorError (List SensorReading) :=
  let (all, errors) := mergeLoop
    [sysfsCollect sys.thermal clock, hwmonCollect sys.hwmon clock,
      nvidiaCollect parseF64 "nvidia-smi" sys.nvidiaSmi clock] ([], [])
  if !all.isEmpty then .ok (sortByName all)
  else if errors.isEmpty then .error (.io "no temperature sensors found")
  else .error (.io ("no sensor source succeeded: " ++
    " | ".intercalate (errors.map CollectorError.toString)))

end

end Tempcheck
