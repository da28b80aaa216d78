import Tempcheck.Collector.Model
import Tempcheck.Library.Fallible

/-!
# What the collectors read

The abstract side of a collector is the list of physical inputs it selects.  An `Input` is
what one thermal zone, one `temp*_input` file or one line of `nvidia-smi` contributes: the
two parts of its name, its temperature and when it was read.

`ThermalInputs`, `HwmonInputs` and `GpuInputs` say which list a backend selects, and that
there is one: the root is a directory or the command succeeded, every entry can be listed,
and every selected one is readable and a number.  Each collector returns a reading for each
of these inputs, or fails if there is no such list (`sysfsCollect_eq_ok`,
`hwmonCollect_eq_ok`, `nvidiaCollect_eq_ok`).

The merge of the backends is the union over those that succeed (`systemCollect_eq_ok`).
-/

namespace Tempcheck

open RustStr (OsString trim startsWith split parseI64)
open Fallible

/-! ## Inputs -/

/-- A physical input. -/
structure Input where
  first : String
  second : String
  temperatureC : F64
  readAt : DateTime

/-- The reading of an input, under the prefix of its backend. -/
def Input.reading (backend : String) (i : Input) : SensorReading :=
  ⟨backend ++ i.first ++ ":" ++ i.second, i.temperatureC, i.readAt⟩

/-- The files of a thermal zone give the input. -/
def IsZone (root : Root) (clock : Clock) (zone : OsString) (i : Input) : Prop :=
  ∃ type temp milliC, (root.dir zone).readToString (.ofString "type") = .ok type ∧
    (root.dir zone).readToString (.ofString "temp") = .ok temp ∧
    parseI64 (trim temp) = some milliC ∧
    i = ⟨zone.toStringLossy, trim type, ofMilli milliC, clock.zone zone⟩

/-- The entries of the thermal tree that are zones, in the order they are read. -/
def selectedZones (names : List OsString) : List OsString :=
  (names.filter fun name => startsWith name.toStringLossy "thermal_zone").insertionSort
    fun a b => a.bytes ≤ b.bytes

/-- The inputs of the thermal tree. -/
def ThermalInputs (root : Root) (clock : Clock) (l : List Input) : Prop :=
  root.isDir = true ∧ ∃ names : List OsString, root.readDir = .ok (names.map .ok) ∧
    List.Forall₂ (IsZone root clock) (selectedZones names) l

/-- A `temp*_input` file gives the input. -/
def IsHwmonInput (dir : Dir) (clock : Clock) (name file : OsString) (i : Input) : Prop :=
  ∃ raw milliC, dir.readToString file = .ok raw ∧ parseI64 (trim raw) = some milliC ∧
    i = ⟨hwmonName dir name, inputLabel dir file, ofMilli milliC, clock.input name file⟩

/-- The inputs of one directory of the hwmon tree. -/
def DirInputs (root : Root) (clock : Clock) (name : OsString) (l : List Input) : Prop :=
  ∃ files : List OsString, (root.dir name).readDir = .ok (files.map .ok) ∧
    List.Forall₂ (IsHwmonInput (root.dir name) clock name) (files.filter isInput) l

/-- The inputs of the hwmon tree. -/
def HwmonInputs (root : Root) (clock : Clock) (l : List Input) : Prop :=
  root.isDir = true ∧ ∃ (names : List OsString) (ls : List (List Input)),
    root.readDir = .ok (names.map .ok) ∧
    List.Forall₂ (DirInputs root clock) (names.filter fun name => (root.dir name).isDir) ls ∧
    l = ls.flatten

/-- A line of `nvidia-smi` gives the input. -/
def IsGpuLine (parseF64 : String → Option F64) (clock : Clock) (line : String × Nat)
    (i : Input) : Prop :=
  ∃ index name temp rest v, (split line.1 ',').map trim = index :: name :: temp :: rest ∧
    parseF64 temp = some v ∧ i = ⟨index, name, v, clock.gpu line.2⟩

/-- The inputs of `nvidia-smi`. -/
def GpuInputs (parseF64 : String → Option F64) (command : Except String Output)
    (clock : Clock) (l : List Input) : Prop :=
  ∃ output stdout, command = .ok output ∧ output.success = true ∧
    output.stdout = .ok stdout ∧
    List.Forall₂ (IsGpuLine parseF64 clock) (gpuLines stdout).zipIdx l

/-! ## SysfsCollector -/

theorem readZone_eq_ok {root : Root} {clock : Clock} {zone : OsString} {r : SensorReading} :
    readZone root clock zone = .ok r ↔ ∃ i, IsZone root clock zone i ∧ r = i.reading "" := by
  rw [readZone]
  simp only [bind_eq_ok, mapError_eq_ok]
  constructor
  · rintro ⟨type, htype, temp, htemp, h⟩
    cases hparse : parseI64 (trim temp) with
    | none => rw [hparse] at h; cases h
    | some milliC =>
        rw [hparse] at h
        cases h
        exact ⟨_, ⟨type, temp, milliC, htype, htemp, hparse, rfl⟩, by
          rw [Input.reading, String.empty_append]⟩
  · rintro ⟨i, ⟨type, temp, milliC, htype, htemp, hparse, rfl⟩, rfl⟩
    refine ⟨type, htype, temp, htemp, ?_⟩
    rw [hparse, Input.reading, String.empty_append]
    rfl

theorem zoneDirsLoop_eq (entries : Entries) (zones : List OsString) :
    zoneDirsLoop entries zones =
      selectLoop (fun name => startsWith name.toStringLossy "thermal_zone")
        (fun name => (Except.ok name).map fun b => [b])
        (entries.map fun e => e.mapError CollectorError.io) zones := by
  induction entries generalizing zones with
  | nil => rfl
  | cons entry entries ih =>
      simp only [zoneDirsLoop, List.map_cons, selectLoop, ih]
      rfl

theorem zoneDirs_eq_ok {root : Root} {zones : List OsString} :
    zoneDirs root = .ok zones ↔
      root.isDir = true ∧ ∃ names : List OsString, root.readDir = .ok (names.map .ok) ∧
        zones = selectedZones names := by
  rw [zoneDirs]
  cases hdir : root.isDir with
  | false => exact ⟨(nomatch ·), (nomatch ·.1)⟩
  | true =>
      simp only [Bool.not_true, Bool.false_eq_true, if_false, zoneDirsLoop_eq, bind_eq_ok,
        mapError_eq_ok, selectLoop_push_eq_ok, map_mapError_eq, true_and, List.nil_append,
        Except.ok.injEq, List.forall₂_eq_eq_eq]
      constructor
      · rintro ⟨entries, hentries, zones', ⟨names, new, rfl, rfl, rfl⟩, h⟩
        cases h
        exact ⟨names, hentries, rfl⟩
      · rintro ⟨names, hnames, rfl⟩
        exact ⟨_, hnames, _, ⟨names, _, rfl, rfl, rfl⟩, rfl⟩

/-- `SysfsCollector::collect` returns a reading for each input of the tree. -/
theorem sysfsCollect_eq_ok {root : Root} {clock : Clock} {rs : List SensorReading} :
    sysfsCollect root clock = .ok rs ↔
      ∃ l, ThermalInputs root clock l ∧ rs = l.map (Input.reading "") := by
  rw [sysfsCollect, bind_eq_ok]
  constructor
  · rintro ⟨zones, hzones, h⟩
    obtain ⟨hdir, names, hnames, rfl⟩ := zoneDirs_eq_ok.mp hzones
    obtain ⟨l, hl, rfl⟩ := forall₂_exists.mp
      ((mapM_eq_ok.mp h).imp fun _ _ => readZone_eq_ok.mp)
    exact ⟨l, ⟨hdir, names, hnames, hl⟩, rfl⟩
  · rintro ⟨l, ⟨hdir, names, hnames, hl⟩, rfl⟩
    refine ⟨_, zoneDirs_eq_ok.mpr ⟨hdir, names, hnames, rfl⟩, mapM_eq_ok.mpr ?_⟩
    exact (forall₂_exists.mpr ⟨l, hl, rfl⟩).imp fun _ _ => readZone_eq_ok.mpr

/-! ## HwmonCollector -/

theorem readInput_eq_ok {dirPath : String} {dir : Dir} {clock : Clock} {name file : OsString}
    {r : SensorReading} : readInput dirPath dir clock name file = .ok r ↔
      ∃ i, IsHwmonInput dir clock name file i ∧ r = i.reading "hwmon:" := by
  rw [readInput]
  simp only [bind_eq_ok, mapError_eq_ok]
  constructor
  · rintro ⟨raw, hraw, h⟩
    cases hparse : parseI64 (trim raw) with
    | none => rw [hparse] at h; cases h
    | some milliC =>
        rw [hparse] at h
        cases h
        exact ⟨_, ⟨raw, milliC, hraw, hparse, rfl⟩, rfl⟩
  · rintro ⟨i, ⟨raw, milliC, hraw, hparse, rfl⟩, rfl⟩
    refine ⟨raw, hraw, ?_⟩
    rw [hparse]
    rfl

theorem hwmonFilesLoop_eq (dirPath : String) (dir : Dir) (clock : Clock) (name : OsString)
    (entries : Entries) (out : List SensorReading) :
    hwmonFilesLoop dirPath dir clock name entries out =
      selectLoop isInput
        (fun file => (readInput dirPath dir clock name file).map fun b => [b])
        (entries.map fun e => e.mapError CollectorError.io) out := by
  induction entries generalizing out with
  | nil => rfl
  | cons entry entries ih =>
      simp only [hwmonFilesLoop, List.map_cons, selectLoop, ih]
      congr 1
      funext file
      cases readInput dirPath dir clock name file <;> rfl

/-- The body of the loop over the directories, for a directory. -/
def hwmonDir (root : Root) (clock : Clock) (name : OsString) :
    Except CollectorError (List SensorReading) := do
  let dirPath := root.path ++ "/" ++ name.toStringLossy
  let files ← (root.dir name).readDir.mapError
    fun e => CollectorError.io ("read " ++ dirPath ++ ": " ++ e)
  hwmonFilesLoop dirPath (root.dir name) clock name files []

theorem hwmonDir_eq_ok {root : Root} {clock : Clock} {name : OsString}
    {rs : List SensorReading} : hwmonDir root clock name = .ok rs ↔
      ∃ l, DirInputs root clock name l ∧ rs = l.map (Input.reading "hwmon:") := by
  simp only [hwmonDir, hwmonFilesLoop_eq, bind_eq_ok, mapError_eq_ok, selectLoop_push_eq_ok,
    map_mapError_eq, readInput_eq_ok, forall₂_exists, List.nil_append]
  constructor
  · rintro ⟨entries, hentries, files, rs, rfl, ⟨l, hl, rfl⟩, rfl⟩
    exact ⟨l, ⟨files, hentries, hl⟩, rfl⟩
  · rintro ⟨l, ⟨files, hfiles, hl⟩, rfl⟩
    exact ⟨_, hfiles, files, _, rfl, ⟨l, hl, rfl⟩, rfl⟩

theorem hwmonDirsLoop_eq (root : Root) (clock : Clock) (entries : Entries)
    (out : List SensorReading) :
    hwmonDirsLoop root clock entries out =
      selectLoop (fun name => (root.dir name).isDir) (hwmonDir root clock)
        (entries.map fun e => e.mapError CollectorError.io) out := by
  induction entries generalizing out with
  | nil => rfl
  | cons entry entries ih =>
      simp only [hwmonDirsLoop, List.map_cons, selectLoop, ih, hwmonDir, bind_assoc]
      congr 1
      funext name
      congr 2
      funext files
      rw [hwmonFilesLoop_eq, hwmonFilesLoop_eq, selectLoop_append]
      cases selectLoop isInput _ _ [] <;> rfl

/-- `HwmonCollector::collect` returns a reading for each input of the tree, by name. -/
theorem hwmonCollect_eq_ok {root : Root} {clock : Clock} {rs : List SensorReading} :
    hwmonCollect root clock = .ok rs ↔
      ∃ l, HwmonInputs root clock l ∧ rs = sortByName (l.map (Input.reading "hwmon:")) := by
  rw [hwmonCollect]
  cases hdir : root.isDir with
  | false => exact ⟨(nomatch ·), fun ⟨_, h, _⟩ => by rw [h.1] at hdir; cases hdir⟩
  | true =>
      simp only [Bool.not_true, Bool.false_eq_true, if_false, hwmonDirsLoop_eq, bind_eq_ok,
        mapError_eq_ok, selectLoop_eq_ok, map_mapError_eq, hwmonDir_eq_ok, forall₂_exists,
        List.nil_append]
      constructor
      · rintro ⟨entries, hentries, rs, ⟨names, news, rfl, ⟨ls, hls, rfl⟩, rfl⟩, h⟩
        cases h
        refine ⟨ls.flatten, ⟨hdir, names, ls, hentries, hls, rfl⟩, ?_⟩
        rw [List.map_flatten]
      · rintro ⟨l, ⟨-, names, ls, hnames, hls, rfl⟩, rfl⟩
        refine ⟨_, hnames, _, ⟨names, _, rfl, ⟨ls, hls, rfl⟩, rfl⟩, ?_⟩
        rw [List.map_flatten]
        rfl

/-! ## NvidiaSmiCollector -/

section

variable {parseF64 : String → Option F64}

/-- One pass of the loop. -/
theorem nvidiaLoop_cons {clock : Clock} {line : String} {rest : List String}
    {out out' : List SensorReading} :
    nvidiaLoop parseF64 clock (line :: rest) out = .ok out' ↔
      ∃ i, IsGpuLine parseF64 clock (line, out.length) i ∧
        nvidiaLoop parseF64 clock rest (out ++ [i.reading "nvidia:"]) = .ok out' := by
  rw [nvidiaLoop]
  constructor
  · intro h
    split at h
    next index name temp fields hfields =>
      cases hv : parseF64 temp with
      | none => rw [hv] at h; cases h
      | some v =>
          rw [hv] at h
          exact ⟨_, ⟨index, name, temp, fields, v, hfields, hv, rfl⟩, h⟩
    next => cases h
  · rintro ⟨i, ⟨index, name, temp, fields, v, hfields, hv, rfl⟩, h⟩
    simp only [hfields, hv]
    exact h

theorem nvidiaLoop_eq_ok {clock : Clock} : ∀ {lines : List String}
    {out out' : List SensorReading}, nvidiaLoop parseF64 clock lines out = .ok out' ↔
      ∃ l, List.Forall₂ (IsGpuLine parseF64 clock) (lines.zipIdx out.length) l ∧
        out' = out ++ l.map (Input.reading "nvidia:")
  | [], out, out' => by
      constructor
      · intro h
        cases h
        exact ⟨[], .nil, (List.append_nil out).symm⟩
      · rintro ⟨l, hl, rfl⟩
        rw [List.zipIdx_nil, List.forall₂_nil_left_iff] at hl
        rw [hl, List.map_nil, List.append_nil, nvidiaLoop]
  | line :: rest, out, out' => by
      rw [nvidiaLoop_cons, List.zipIdx_cons]
      constructor
      · rintro ⟨i, hi, h⟩
        obtain ⟨l, hl, rfl⟩ := nvidiaLoop_eq_ok.mp h
        rw [List.length_append, List.length_singleton] at hl
        exact ⟨i :: l, .cons hi hl, by rw [List.map_cons, List.append_assoc]; rfl⟩
      · rintro ⟨l, hl, rfl⟩
        obtain ⟨i, l, hi, hl, rfl⟩ := List.forall₂_cons_left_iff.mp hl
        refine ⟨i, hi, nvidiaLoop_eq_ok.mpr ⟨l, ?_, ?_⟩⟩
        · rwa [List.length_append, List.length_singleton]
        · rw [List.map_cons, List.append_assoc]
          rfl

/-- `NvidiaSmiCollector::collect` returns a reading for each line of the output. -/
theorem nvidiaCollect_eq_ok {executable : String} {command : Except String Output}
    {clock : Clock} {rs : List SensorReading} :
    nvidiaCollect parseF64 executable command clock = .ok rs ↔
      ∃ l, GpuInputs parseF64 command clock l ∧ rs = l.map (Input.reading "nvidia:") := by
  rw [nvidiaCollect]
  simp only [bind_eq_ok, mapError_eq_ok]
  constructor
  · rintro ⟨output, houtput, h⟩
    cases hsuccess : output.success with
    | false => rw [hsuccess] at h; cases h
    | true =>
        simp only [hsuccess, Bool.not_true, Bool.false_eq_true, if_false, bind_eq_ok,
          mapError_eq_ok, nvidiaLoop_eq_ok] at h
        obtain ⟨stdout, hstdout, l, hl, rfl⟩ := h
        exact ⟨l, ⟨output, stdout, houtput, hsuccess, hstdout, hl⟩, List.nil_append _⟩
  · rintro ⟨l, ⟨output, stdout, houtput, hsuccess, hstdout, hl⟩, rfl⟩
    refine ⟨output, houtput, ?_⟩
    simp only [hsuccess, Bool.not_true, Bool.false_eq_true, if_false, bind_eq_ok,
      mapError_eq_ok, nvidiaLoop_eq_ok]
    exact ⟨stdout, hstdout, l, hl, (List.nil_append _).symm⟩

end

/-! ## SystemTemperatureCollector -/

/-- The readings of a backend, none if it fails. -/
def readingsOf (res : Except CollectorError (List SensorReading)) : List SensorReading :=
  match res with
  | .ok readings => readings
  | .error _ => []

/-- The merge appends the readings of the backends that succeed. -/
theorem mergeLoop_fst : ∀ (results : List (Except CollectorError (List SensorReading)))
    (all : List SensorReading) (errors : List CollectorError),
    (mergeLoop results (all, errors)).1 = all ++ results.flatMap readingsOf
  | [], all, _ => (List.append_nil all).symm
  | .ok readings :: rest, all, errors => by
      rw [mergeLoop, mergeLoop_fst, List.flatMap_cons, readingsOf, List.append_assoc]
  | .error e :: rest, all, errors => by
      rw [mergeLoop, mergeLoop_fst, List.flatMap_cons, readingsOf, List.nil_append]

section

variable (parseF64 : String → Option F64)

/-- The union over the backends. -/
def allReadings (sys : System) (clock : Clock) : List SensorReading :=
  readingsOf (sysfsCollect sys.thermal clock) ++
    (readingsOf (hwmonCollect sys.hwmon clock) ++
      readingsOf (nvidiaCollect parseF64 "nvidia-smi" sys.nvidiaSmi clock))

/-- `SystemTemperatureCollector::collect` succeeds exactly if the union is not empty, and
returns it by name. -/
theorem systemCollect_eq_ok {sys : System} {clock : Clock} {rs : List SensorReading} :
    systemCollect parseF64 sys clock = .ok rs ↔
      allReadings parseF64 sys clock ≠ [] ∧ rs = sortByName (allReadings parseF64 sys clock) := by
  have hall := mergeLoop_fst [sysfsCollect sys.thermal clock, hwmonCollect sys.hwmon clock,
    nvidiaCollect parseF64 "nvidia-smi" sys.nvidiaSmi clock] [] []
  rw [List.nil_append, List.flatMap_cons, List.flatMap_cons, List.flatMap_cons,
    List.flatMap_nil, List.append_nil] at hall
  rw [systemCollect, allReadings, ← hall]
  generalize mergeLoop _ _ = merged
  obtain ⟨all, errors⟩ := merged
  cases all with
  | nil =>
      constructor
      · intro h
        cases errors with
        | nil => cases h
        | cons e errors => cases h
      · rintro ⟨h, -⟩
        exact absurd rfl h
  | cons r all =>
      constructor
      · intro h
        cases h
        exact ⟨List.cons_ne_nil r all, rfl⟩
      · rintro ⟨-, rfl⟩
        rfl

end

end Tempcheck
