import Tempcheck.Collector.Nvidia
import Tempcheck.Collector.Names
import Mathlib.Data.List.Perm.Basic

/-!
# The order of enumeration

`read_dir` lists a directory in any order.  `System.Reorders` says that two systems differ
only in the order in which their directories are listed, at both levels.  The inputs of a
backend in one of them are then a permutation of its inputs in the other, up to the
instants at which they are read (`thermalInputs_reorders`, `hwmonInputs_reorders`), and so
are the readings of the merge (`allReadings_reorders`).

What is merged is the union over the backends that succeed (`UnionOf`), and a backend
succeeds exactly if its root or command is there and all its selected entries can be read
(`ThermalReadable`, `HwmonReadable`, `GpuReadable`).
-/

namespace Tempcheck

open RustStr (OsString trim startsWith parseI64)

/-! ## Systems that differ in order -/

/-- Two listings of one directory. -/
inductive Relisted : Except String Entries → Except String Entries → Prop where
  | ok {l l' : Entries} : l.Perm l' → Relisted (.ok l) (.ok l')
  | error (e : String) : Relisted (.error e) (.error e)

/-- Two directories with the same contents, listed in any order. -/
structure Dir.Reorders (dir dir' : Dir) : Prop where
  isDir : dir.isDir = dir'.isDir
  readDir : Relisted dir.readDir dir'.readDir
  readToString : dir.readToString = dir'.readToString

/-- Two roots with the same contents, listed in any order. -/
structure Root.Reorders (root root' : Root) : Prop where
  path : root.path = root'.path
  isDir : root.isDir = root'.isDir
  readDir : Relisted root.readDir root'.readDir
  dir : ∀ name, (root.dir name).Reorders (root'.dir name)

/-- Two systems with the same contents. -/
structure System.Reorders (sys sys' : System) : Prop where
  thermal : sys.thermal.Reorders sys'.thermal
  hwmon : sys.hwmon.Reorders sys'.hwmon
  nvidiaSmi : sys.nvidiaSmi = sys'.nvidiaSmi

theorem Relisted.symm {r r' : Except String Entries} (h : Relisted r r') : Relisted r' r := by
  cases h with
  | ok h => exact .ok h.symm
  | error e => exact .error e

theorem Relisted.refl (r : Except String Entries) : Relisted r r := by
  cases r with
  | ok l => exact .ok (.refl l)
  | error e => exact .error e

theorem Dir.Reorders.refl (dir : Dir) : dir.Reorders dir := ⟨rfl, .refl _, rfl⟩

theorem Root.Reorders.refl (root : Root) : root.Reorders root :=
  ⟨rfl, rfl, .refl _, fun _ => .refl _⟩

/-- A tree whose root is listed in another order. -/
theorem Root.reorders_of_perm {root : Root} {l l' : Entries} (hl : root.readDir = .ok l)
    (h : l.Perm l') : root.Reorders { root with readDir := .ok l' } :=
  ⟨rfl, rfl, hl ▸ .ok h, fun _ => .refl _⟩

theorem Dir.Reorders.symm {dir dir' : Dir} (h : dir.Reorders dir') : dir'.Reorders dir :=
  ⟨h.isDir.symm, h.readDir.symm, h.readToString.symm⟩

theorem Root.Reorders.symm {root root' : Root} (h : root.Reorders root') :
    root'.Reorders root :=
  ⟨h.path.symm, h.isDir.symm, h.readDir.symm, fun name => (h.dir name).symm⟩

/-- A directory without errors is listed without errors in any order. -/
theorem Relisted.names {r r' : Except String Entries} (h : Relisted r r')
    {names : List OsString} (hr : r = .ok (names.map .ok)) :
    ∃ names' : List OsString, r' = .ok (names'.map .ok) ∧ names'.Perm names := by
  cases h with
  | error e => cases hr
  | @ok l l' hperm =>
      cases hr
      have hall : ∀ entry ∈ l', ∃ name : OsString, entry = .ok name := by
        intro entry hentry
        obtain ⟨name, -, rfl⟩ := List.mem_map.mp (hperm.mem_iff.mpr hentry)
        exact ⟨name, rfl⟩
      obtain ⟨names', hnames'⟩ := Fallible.exists_forall₂ hall
      have heq : l' = names'.map .ok := by
        have hmap : List.Forall₂ Eq l' (names'.map .ok) := List.forall₂_map_right_iff.mpr hnames'
        rwa [List.forall₂_eq_eq_eq] at hmap
      subst heq
      exact ⟨names', rfl, ((List.map_perm_map_iff fun _ _ => Except.ok.inj).mp hperm).symm⟩

/-! ## The same inputs -/

/-- An input without the instant at which it is read. -/
def Input.content (i : Input) : String × String × F64 := (i.first, i.second, i.temperatureC)

/-- Inputs with the same contents, in any order. -/
def SameInputs (l l' : List Input) : Prop := (l.map Input.content).Perm (l'.map Input.content)

theorem sameInputs_of_forall₂ {l l' : List Input}
    (h : List.Forall₂ (fun i j => i.content = j.content) l l') : SameInputs l l' := by
  rw [SameInputs, Fallible.map_eq_map_of_forall₂ h]

theorem IsZone.reorders {root root' : Root} (h : root.Reorders root') {clock : Clock}
    (clock' : Clock) {zone : OsString} {i : Input} (hi : IsZone root clock zone i) :
    ∃ j, IsZone root' clock' zone j ∧ i.content = j.content := by
  obtain ⟨type, temp, milliC, htype, htemp, hparse, rfl⟩ := hi
  rw [(h.dir zone).readToString] at htype htemp
  exact ⟨_, ⟨type, temp, milliC, htype, htemp, hparse, rfl⟩, rfl⟩

/-- The inputs of the thermal tree in another order. -/
theorem thermalInputs_reorders {root root' : Root} (h : root.Reorders root') {clock : Clock}
    (clock' : Clock) {l : List Input} (hl : ThermalInputs root clock l) :
    ∃ l', ThermalInputs root' clock' l' ∧ SameInputs l l' := by
  obtain ⟨hdir, names, hnames, hl⟩ := hl
  obtain ⟨names', hnames', hperm⟩ := h.readDir.names hnames
  obtain ⟨l₁, hl₁, hsame⟩ := Fallible.forall₂_replace hl
    fun zone i => IsZone.reorders h clock'
  have hzones : (selectedZones names').Perm (selectedZones names) :=
    (List.perm_insertionSort _ _).trans
      ((hperm.filter _).trans (List.perm_insertionSort _ _).symm)
  obtain ⟨l', hl', hperm'⟩ := List.perm_comp_forall₂ hzones hl₁
  refine ⟨l', ⟨h.isDir ▸ hdir, names', hnames', hl'⟩, ?_⟩
  exact (sameInputs_of_forall₂ hsame).trans (hperm'.symm.map Input.content)

theorem IsHwmonInput.reorders {dir dir' : Dir} (h : dir.Reorders dir') {clock : Clock}
    (clock' : Clock) {name file : OsString} {i : Input} (hi : IsHwmonInput dir clock name file i) :
    ∃ j, IsHwmonInput dir' clock' name file j ∧ i.content = j.content := by
  obtain ⟨raw, milliC, hraw, hparse, rfl⟩ := hi
  have hread := h.readToString
  refine ⟨_, ⟨raw, milliC, hread ▸ hraw, hparse, rfl⟩, ?_⟩
  simp only [Input.content, hwmonName, inputLabel, readNonempty, hread]

theorem DirInputs.reorders {root root' : Root} (h : root.Reorders root') {clock : Clock}
    (clock' : Clock) {name : OsString} {l : List Input} (hl : DirInputs root clock name l) :
    ∃ l', DirInputs root' clock' name l' ∧ SameInputs l l' := by
  obtain ⟨files, hfiles, hl⟩ := hl
  obtain ⟨files', hfiles', hperm⟩ := (h.dir name).readDir.names hfiles
  obtain ⟨l₁, hl₁, hsame⟩ := Fallible.forall₂_replace hl
    fun file i => IsHwmonInput.reorders (h.dir name) clock'
  obtain ⟨l', hl', hperm'⟩ := List.perm_comp_forall₂ (hperm.filter isInput) hl₁
  exact ⟨l', ⟨files', hfiles', hl'⟩,
    (sameInputs_of_forall₂ hsame).trans (hperm'.symm.map Input.content)⟩

/-- The inputs of the hwmon tree in another order, of the directories and of the files in
them. -/
theorem hwmonInputs_reorders {root root' : Root} (h : root.Reorders root') {clock : Clock}
    (clock' : Clock) {l : List Input} (hl : HwmonInputs root clock l) :
    ∃ l', HwmonInputs root' clock' l' ∧ SameInputs l l' := by
  obtain ⟨hdir, names, ls, hnames, hls, rfl⟩ := hl
  obtain ⟨names', hnames', hperm⟩ := h.readDir.names hnames
  obtain ⟨ls₁, hls₁, hsame⟩ := Fallible.forall₂_replace hls
    fun name l => DirInputs.reorders h clock'
  have hdirs : (names'.filter fun name => (root'.dir name).isDir).Perm
      (names.filter fun name => (root.dir name).isDir) := by
    have heq : (fun name => (root'.dir name).isDir) = fun name => (root.dir name).isDir :=
      funext fun name => (h.dir name).isDir.symm
    rw [heq]
    exact hperm.filter _
  obtain ⟨ls', hls', hperm'⟩ := List.perm_comp_forall₂ hdirs hls₁
  refine ⟨ls'.flatten, ⟨h.isDir ▸ hdir, names', ls', hnames', hls', rfl⟩, ?_⟩
  have hdirsSame : SameInputs ls.flatten ls₁.flatten := by
    rw [SameInputs, List.map_flatten, List.map_flatten]
    refine List.Perm.flatten_congr ?_
    rwa [List.forall₂_map_left_iff, List.forall₂_map_right_iff]
  exact hdirsSame.trans (hperm'.symm.flatten.map Input.content)

/-- `nvidia-smi` has one order. -/
theorem gpuInputs_reclock {parseF64 : String → Option F64} {command : Except String Output}
    {clock : Clock} (clock' : Clock) {l : List Input} (hl : GpuInputs parseF64 command clock l) :
    ∃ l', GpuInputs parseF64 command clock' l' ∧ SameInputs l l' := by
  obtain ⟨output, stdout, houtput, hsuccess, hstdout, hl⟩ := hl
  have hline : ∀ line i, IsGpuLine parseF64 clock line i →
      ∃ j, IsGpuLine parseF64 clock' line j ∧ i.content = j.content := by
    rintro line i ⟨index, name, temp, rest, v, hsplit, hv, rfl⟩
    exact ⟨_, ⟨index, name, temp, rest, v, hsplit, hv, rfl⟩, rfl⟩
  obtain ⟨l', hl', hsame⟩ := Fallible.forall₂_replace hl hline
  exact ⟨l', ⟨output, stdout, houtput, hsuccess, hstdout, hl'⟩, sameInputs_of_forall₂ hsame⟩

/-! ## The same readings -/

/-- What a reading says, without the instant at which it was taken. -/
def SensorReading.labelled (r : SensorReading) : String × F64 := (r.sensorName, r.temperatureC)

theorem SameInputs.labelled {l l' : List Input} (h : SameInputs l l') (backend : String) :
    ((l.map (Input.reading backend)).map SensorReading.labelled).Perm
      ((l'.map (Input.reading backend)).map SensorReading.labelled) := by
  have hcontent : ∀ l : List Input,
      (l.map (Input.reading backend)).map SensorReading.labelled =
        (l.map Input.content).map fun c => (backend ++ c.1 ++ ":" ++ c.2.1, c.2.2) := by
    intro l
    rw [List.map_map, List.map_map]
    rfl
  rw [hcontent, hcontent]
  exact h.map _

/-- Two runs of a backend whose inputs are the same. -/
theorem readingsOf_perm {res res' : Except CollectorError (List SensorReading)}
    {Inputs Inputs' : List Input → Prop} {backend : String}
    (order : List SensorReading → List SensorReading) (horder : ∀ l, (order l).Perm l)
    (h : ∀ rs, res = .ok rs ↔ ∃ l, Inputs l ∧ rs = order (l.map (Input.reading backend)))
    (h' : ∀ rs, res' = .ok rs ↔ ∃ l, Inputs' l ∧ rs = order (l.map (Input.reading backend)))
    (hto : ∀ l, Inputs l → ∃ l', Inputs' l' ∧ SameInputs l l')
    (hfrom : ∀ l', Inputs' l' → ∃ l, Inputs l) :
    ((readingsOf res).map SensorReading.labelled).Perm
      ((readingsOf res').map SensorReading.labelled) := by
  cases res with
  | ok rs =>
      obtain ⟨l, hl, rfl⟩ := (h rs).mp rfl
      obtain ⟨l', hl', hsame⟩ := hto l hl
      rw [(h' _).mpr ⟨l', hl', rfl⟩]
      exact ((horder _).map _).trans ((hsame.labelled backend).trans ((horder _).map _).symm)
  | error e =>
      cases res' with
      | error e' => exact .refl _
      | ok rs' =>
          obtain ⟨l', hl', -⟩ := (h' rs').mp rfl
          obtain ⟨l, hl⟩ := hfrom l' hl'
          exact nomatch (h _).mpr ⟨l, hl, rfl⟩

theorem sysfs_reorders {root root' : Root} (h : root.Reorders root') (clock clock' : Clock) :
    ((readingsOf (sysfsCollect root clock)).map SensorReading.labelled).Perm
      ((readingsOf (sysfsCollect root' clock')).map SensorReading.labelled) :=
  readingsOf_perm id (fun _ => .refl _) (fun _ => sysfsCollect_eq_ok)
    (fun _ => sysfsCollect_eq_ok) (fun _ => thermalInputs_reorders h clock') fun _ hl =>
      (thermalInputs_reorders h.symm clock hl).imp fun _ hl => hl.1

theorem hwmon_reorders {root root' : Root} (h : root.Reorders root') (clock clock' : Clock) :
    ((readingsOf (hwmonCollect root clock)).map SensorReading.labelled).Perm
      ((readingsOf (hwmonCollect root' clock')).map SensorReading.labelled) :=
  readingsOf_perm sortByName sortByName_perm (fun _ => hwmonCollect_eq_ok)
    (fun _ => hwmonCollect_eq_ok) (fun _ => hwmonInputs_reorders h clock') fun _ hl =>
      (hwmonInputs_reorders h.symm clock hl).imp fun _ hl => hl.1

section

variable (parseF64 : String → Option F64)

theorem nvidia_reclock (executable : String) (command : Except String Output)
    (clock clock' : Clock) :
    ((readingsOf (nvidiaCollect parseF64 executable command clock)).map
        SensorReading.labelled).Perm
      ((readingsOf (nvidiaCollect parseF64 executable command clock')).map
        SensorReading.labelled) :=
  readingsOf_perm id (fun _ => .refl _) (fun _ => nvidiaCollect_eq_ok)
    (fun _ => nvidiaCollect_eq_ok) (fun _ => gpuInputs_reclock clock') fun _ hl =>
      (gpuInputs_reclock clock hl).imp fun _ hl => hl.1

theorem allReadings_reorders {sys sys' : System} (h : sys.Reorders sys')
    (clock clock' : Clock) :
    ((allReadings parseF64 sys clock).map SensorReading.labelled).Perm
      ((allReadings parseF64 sys' clock').map SensorReading.labelled) := by
  simp only [allReadings, List.map_append, h.nvidiaSmi]
  exact (sysfs_reorders h.thermal clock clock').append
    ((hwmon_reorders h.hwmon clock clock').append
      (nvidia_reclock parseF64 "nvidia-smi" sys'.nvidiaSmi clock clock'))

/-! ## When a backend succeeds -/

/-- The thermal tree is there, and every zone of it can be read. -/
def ThermalReadable (root : Root) : Prop :=
  root.isDir = true ∧ ∃ names : List OsString, root.readDir = .ok (names.map .ok) ∧
    ∀ zone ∈ names, startsWith zone.toStringLossy "thermal_zone" = true →
      ∃ type temp milliC, (root.dir zone).readToString (.ofString "type") = .ok type ∧
        (root.dir zone).readToString (.ofString "temp") = .ok temp ∧
        parseI64 (trim temp) = some milliC

/-- The hwmon tree is there with its directories, and every input of them can be read. -/
def HwmonReadable (root : Root) : Prop :=
  root.isDir = true ∧ ∃ names : List OsString, root.readDir = .ok (names.map .ok) ∧
    ∀ name ∈ names, (root.dir name).isDir = true →
      ∃ files : List OsString, (root.dir name).readDir = .ok (files.map .ok) ∧
        ∀ file ∈ files, isInput file = true →
          ∃ raw milliC, (root.dir name).readToString file = .ok raw ∧
            parseI64 (trim raw) = some milliC

/-- `nvidia-smi` succeeded, and every line of its output reads as a GPU. -/
def GpuReadable (command : Except String Output) : Prop :=
  ∃ output stdout, command = .ok output ∧ output.success = true ∧
    output.stdout = .ok stdout ∧
    ∀ line ∈ gpuLines stdout, ∃ name temp, ReadsAs parseF64 line name temp

omit parseF64 in
theorem thermalInputs_iff (root : Root) (clock : Clock) :
    (∃ l, ThermalInputs root clock l) ↔ ThermalReadable root := by
  constructor
  · rintro ⟨l, hdir, names, hnames, hl⟩
    refine ⟨hdir, names, hnames, fun zone hzone hsel => ?_⟩
    have hmem : zone ∈ selectedZones names :=
      (List.mem_insertionSort _).mpr (List.mem_filter.mpr ⟨hzone, hsel⟩)
    obtain ⟨i, -, type, temp, milliC, htype, htemp, hparse, -⟩ :=
      Fallible.exists_mem_of_forall₂ hl.flip hmem
    exact ⟨type, temp, milliC, htype, htemp, hparse⟩
  · rintro ⟨hdir, names, hnames, hall⟩
    have hzones : ∀ zone ∈ selectedZones names, ∃ i, IsZone root clock zone i := by
      intro zone hzone
      obtain ⟨hmem, hsel⟩ := List.mem_filter.mp ((List.mem_insertionSort _).mp hzone)
      obtain ⟨type, temp, milliC, htype, htemp, hparse⟩ := hall zone hmem hsel
      exact ⟨_, type, temp, milliC, htype, htemp, hparse, rfl⟩
    obtain ⟨l, hl⟩ := Fallible.exists_forall₂ hzones
    exact ⟨l, hdir, names, hnames, hl⟩

omit parseF64 in
theorem dirInputs_iff (root : Root) (clock : Clock) (name : OsString) :
    (∃ l, DirInputs root clock name l) ↔
      ∃ files : List OsString, (root.dir name).readDir = .ok (files.map .ok) ∧
        ∀ file ∈ files, isInput file = true →
          ∃ raw milliC, (root.dir name).readToString file = .ok raw ∧
            parseI64 (trim raw) = some milliC := by
  constructor
  · rintro ⟨l, files, hfiles, hl⟩
    refine ⟨files, hfiles, fun file hfile hsel => ?_⟩
    obtain ⟨i, -, raw, milliC, hraw, hparse, -⟩ :=
      Fallible.exists_mem_of_forall₂ hl.flip (List.mem_filter.mpr ⟨hfile, hsel⟩)
    exact ⟨raw, milliC, hraw, hparse⟩
  · rintro ⟨files, hfiles, hall⟩
    have hinputs : ∀ file ∈ files.filter isInput,
        ∃ i, IsHwmonInput (root.dir name) clock name file i := by
      intro file hfile
      obtain ⟨hmem, hsel⟩ := List.mem_filter.mp hfile
      obtain ⟨raw, milliC, hraw, hparse⟩ := hall file hmem hsel
      exact ⟨_, raw, milliC, hraw, hparse, rfl⟩
    obtain ⟨l, hl⟩ := Fallible.exists_forall₂ hinputs
    exact ⟨l, files, hfiles, hl⟩

omit parseF64 in
theorem hwmonInputs_iff (root : Root) (clock : Clock) :
    (∃ l, HwmonInputs root clock l) ↔ HwmonReadable root := by
  constructor
  · rintro ⟨l, hdir, names, ls, hnames, hls, -⟩
    refine ⟨hdir, names, hnames, fun name hname hsub => ?_⟩
    obtain ⟨l, -, hl⟩ :=
      Fallible.exists_mem_of_forall₂ hls.flip (List.mem_filter.mpr ⟨hname, hsub⟩)
    exact (dirInputs_iff root clock name).mp ⟨l, hl⟩
  · rintro ⟨hdir, names, hnames, hall⟩
    have hdirs : ∀ name ∈ names.filter fun name => (root.dir name).isDir,
        ∃ l, DirInputs root clock name l := by
      intro name hname
      obtain ⟨hmem, hsub⟩ := List.mem_filter.mp hname
      exact (dirInputs_iff root clock name).mpr (hall name hmem hsub)
    obtain ⟨ls, hls⟩ := Fallible.exists_forall₂ hdirs
    exact ⟨ls.flatten, hdir, names, ls, hnames, hls, rfl⟩

theorem gpuInputs_iff (command : Except String Output) (clock : Clock) :
    (∃ l, GpuInputs parseF64 command clock l) ↔ GpuReadable parseF64 command := by
  have hiff : ∀ status stdout, (∃ rs, nvidiaCollect parseF64 "nvidia-smi"
      (.ok ⟨true, status, .ok stdout⟩) clock = .ok rs) ↔
      ∀ line ∈ gpuLines stdout, ∃ name temp, ReadsAs parseF64 line name temp :=
    fun status stdout => nvidiaCollect_isOk_iff _ _ _ _
  constructor
  · rintro ⟨l, ⟨success, status, out⟩, stdout, rfl, rfl, rfl, hl⟩
    refine ⟨_, stdout, rfl, rfl, rfl, (hiff status stdout).mp ?_⟩
    exact ⟨_, nvidiaCollect_eq_ok.mpr ⟨l, ⟨_, stdout, rfl, rfl, rfl, hl⟩, rfl⟩⟩
  · rintro ⟨⟨success, status, out⟩, stdout, rfl, rfl, rfl, hlines⟩
    obtain ⟨rs, hrs⟩ := (hiff status stdout).mpr hlines
    obtain ⟨l, hl, -⟩ := nvidiaCollect_eq_ok.mp hrs
    exact ⟨l, hl⟩

/-! ## The union -/

/-- The inputs of a backend, none if it fails. -/
def InputsOf (Inputs : List Input → Prop) (l : List Input) : Prop :=
  Inputs l ∨ (¬ ∃ l', Inputs l') ∧ l = []

/-- The union over the backends that succeed of one reading for each of their inputs. -/
def UnionOf (sys : System) (clock : Clock) (all : List SensorReading) : Prop :=
  ∃ thermal hwmon gpus,
    InputsOf (ThermalInputs sys.thermal clock) thermal ∧
    InputsOf (HwmonInputs sys.hwmon clock) hwmon ∧
    InputsOf (GpuInputs parseF64 sys.nvidiaSmi clock) gpus ∧
    all = thermal.map (Input.reading "") ++
      (hwmon.map (Input.reading "hwmon:") ++ gpus.map (Input.reading "nvidia:"))

omit parseF64 in
/-- The readings of a backend are those of its inputs. -/
theorem readingsOf_inputs {res : Except CollectorError (List SensorReading)}
    {Inputs : List Input → Prop} {backend : String}
    (order : List SensorReading → List SensorReading) (horder : ∀ l, (order l).Perm l)
    (h : ∀ rs, res = .ok rs ↔ ∃ l, Inputs l ∧ rs = order (l.map (Input.reading backend))) :
    ∃ l, InputsOf Inputs l ∧ (readingsOf res).Perm (l.map (Input.reading backend)) := by
  cases res with
  | ok rs =>
      obtain ⟨l, hl, rfl⟩ := (h rs).mp rfl
      exact ⟨l, Or.inl hl, horder _⟩
  | error e =>
      refine ⟨[], Or.inr ⟨?_, rfl⟩, .refl _⟩
      rintro ⟨l, hl⟩
      exact nomatch (h _).mpr ⟨l, hl, rfl⟩

theorem allReadings_union (sys : System) (clock : Clock) :
    ∃ all, UnionOf parseF64 sys clock all ∧ (allReadings parseF64 sys clock).Perm all := by
  obtain ⟨thermal, hthermal, ht⟩ := readingsOf_inputs id (fun _ => .refl _)
    fun rs => show sysfsCollect sys.thermal clock = .ok rs ↔ _ from sysfsCollect_eq_ok
  obtain ⟨hwmon, hhwmon, hh⟩ := readingsOf_inputs sortByName sortByName_perm
    fun rs => show hwmonCollect sys.hwmon clock = .ok rs ↔ _ from hwmonCollect_eq_ok
  obtain ⟨gpus, hgpus, hg⟩ := readingsOf_inputs id (fun _ => .refl _)
    fun rs => show nvidiaCollect parseF64 "nvidia-smi" sys.nvidiaSmi clock = .ok rs ↔ _ from
      nvidiaCollect_eq_ok
  exact ⟨_, ⟨thermal, hwmon, gpus, hthermal, hhwmon, hgpus, rfl⟩, ht.append (hh.append hg)⟩

theorem systemCollect_isOk_iff (sys : System) (clock : Clock) :
    (∃ rs, systemCollect parseF64 sys clock = .ok rs) ↔ allReadings parseF64 sys clock ≠ [] := by
  constructor
  · rintro ⟨rs, hrs⟩
    exact ((systemCollect_eq_ok parseF64).mp hrs).1
  · exact fun hne => ⟨_, (systemCollect_eq_ok parseF64).mpr ⟨hne, rfl⟩⟩

/-- `SystemTemperatureCollector::collect` does not depend on the order in which directories
are listed: it succeeds in both or fails in both, and returns the same readings by name.
They are those of the union, and it fails exactly if the union is empty. -/
theorem systemCollect_reorders {sys sys' : System} (h : sys.Reorders sys')
    (clock clock' : Clock) :
    ((∃ rs, systemCollect parseF64 sys clock = .ok rs) ↔
      ∃ rs', systemCollect parseF64 sys' clock' = .ok rs') ∧
    (∀ rs rs', systemCollect parseF64 sys clock = .ok rs →
      systemCollect parseF64 sys' clock' = .ok rs' →
      rs.Pairwise (fun a b => a.sensorName ≤ b.sensorName) ∧
      rs'.Pairwise (fun a b => a.sensorName ≤ b.sensorName) ∧
      (rs.map SensorReading.labelled).Perm (rs'.map SensorReading.labelled)) ∧
    (∃ all, UnionOf parseF64 sys clock all ∧
      (∀ rs, systemCollect parseF64 sys clock = .ok rs → rs.Perm all) ∧
      ((∃ e, systemCollect parseF64 sys clock = .error e) ↔ all = [])) ∧
    ((∃ l, ThermalInputs sys.thermal clock l) ↔ ThermalReadable sys.thermal) ∧
    ((∃ l, HwmonInputs sys.hwmon clock l) ↔ HwmonReadable sys.hwmon) ∧
    ((∃ l, GpuInputs parseF64 sys.nvidiaSmi clock l) ↔ GpuReadable parseF64 sys.nvidiaSmi) := by
  have hsame := allReadings_reorders parseF64 h clock clock'
  refine ⟨?_, ?_, ?_, thermalInputs_iff _ _, hwmonInputs_iff _ _, gpuInputs_iff _ _ _⟩
  · have hlen := hsame.length_eq
    rw [List.length_map, List.length_map] at hlen
    rw [systemCollect_isOk_iff, systemCollect_isOk_iff, ← List.length_pos_iff,
      ← List.length_pos_iff, hlen]
  · intro rs rs' hrs hrs'
    obtain ⟨-, rfl⟩ := (systemCollect_eq_ok parseF64).mp hrs
    obtain ⟨-, rfl⟩ := (systemCollect_eq_ok parseF64).mp hrs'
    exact ⟨sortByName_sorted _, sortByName_sorted _,
      ((sortByName_perm _).map _).trans (hsame.trans ((sortByName_perm _).map _).symm)⟩
  · obtain ⟨all, hunion, hperm⟩ := allReadings_union parseF64 sys clock
    refine ⟨all, hunion, fun rs hrs => ?_, ?_⟩
    · obtain ⟨-, rfl⟩ := (systemCollect_eq_ok parseF64).mp hrs
      exact (sortByName_perm _).trans hperm
    · have hnil : allReadings parseF64 sys clock = [] ↔ all = [] := by
        rw [← List.length_eq_zero_iff, ← List.length_eq_zero_iff, hperm.length_eq]
      rw [← hnil, ← not_iff_not, ← ne_eq (allReadings parseF64 sys clock),
        ← systemCollect_isOk_iff]
      cases systemCollect parseF64 sys clock with
      | ok rs => simp
      | error e => simp

end

/-- The two disks, with the second one listed first. -/
def disksBackwards : System :=
  { twoDisks with
    hwmon := { twoDisks.hwmon with
      readDir := .ok [.ok (.ofString "hwmon1"), .ok (.ofString "hwmon0")] } }

theorem twoDisks_reorders : twoDisks.Reorders disksBackwards := by
  have hswap : List.Perm [.ok (.ofString "hwmon0"), .ok (.ofString "hwmon1")]
      ([.ok (.ofString "hwmon1"), .ok (.ofString "hwmon0")] : Entries) := .swap _ _ _
  exact ⟨.refl _, Root.reorders_of_perm rfl hswap, rfl⟩

theorem systemCollect_disksBackwards : ∃ rs rs',
    systemCollect (fun _ => none) twoDisks stopped = .ok rs ∧
    systemCollect (fun _ => none) disksBackwards stopped = .ok rs' ∧
    (rs.map SensorReading.labelled).Perm (rs'.map SensorReading.labelled) := by
  obtain ⟨hiff, hperm, -⟩ :=
    systemCollect_reorders (fun _ => none) twoDisks_reorders stopped stopped
  have hok : systemCollect (fun _ => none) twoDisks stopped = .ok _ := rfl
  obtain ⟨rs', hrs'⟩ := hiff.mp ⟨_, hok⟩
  exact ⟨_, rs', hok, hrs', (hperm _ rs' hok hrs').2.2⟩

end Tempcheck
