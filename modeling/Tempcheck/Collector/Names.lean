import Tempcheck.Collector.Inputs

/-!
# Sensor names

The store groups by `sensor_name`, so a name should stand for one physical input.  The
name of an input is its two parts joined by `:` behind the prefix of its backend.  Two
inputs clash if their parts agree, or if one name splits at another `:` of the other
(`Input.Clash`).  Inputs of different backends never clash, since their names start with
different characters.

`sensorNames_nodup_iff` says that the collector reports distinct names exactly for the
systems in which no two inputs of a backend clash.  The directory of a hwmon input is not
part of its name, so two disks of one driver clash (`twoDisks`).
-/

namespace Tempcheck

open RustStr (OsString)

/-! ## Names of one backend -/

/-- The parts of two inputs join to one text. -/
def Input.Clash (i j : Input) : Prop :=
  (i.first = j.first ∧ i.second = j.second) ∨
    (∃ s, j.first = i.first ++ ":" ++ s ∧ i.second = s ++ ":" ++ j.second) ∨
    (∃ s, i.first = j.first ++ ":" ++ s ∧ j.second = s ++ ":" ++ i.second)

theorem reading_sensorName_eq_iff (backend : String) (i j : Input) :
    (i.reading backend).sensorName = (j.reading backend).sensorName ↔ i.Clash j := by
  have happend : ∀ k : Input, (k.reading backend).sensorName =
      backend ++ (k.first ++ ":" ++ k.second) := by
    intro k
    rw [Input.reading, String.append_assoc, String.append_assoc, String.append_assoc]
  rw [happend, happend, String.append_right_inj, RustStr.join_eq_iff rfl]
  rfl

/-- The readings of a backend have distinct names exactly if its inputs do not clash. -/
theorem nodup_readingsOf_iff {res : Except CollectorError (List SensorReading)}
    {Inputs : List Input → Prop} {backend : String}
    (order : List SensorReading → List SensorReading) (horder : ∀ l, (order l).Perm l)
    (h : ∀ rs, res = .ok rs ↔
      ∃ l, Inputs l ∧ rs = order (l.map (Input.reading backend))) :
    ((readingsOf res).map SensorReading.sensorName).Nodup ↔
      ∀ l, Inputs l → l.Pairwise fun i j => ¬ i.Clash j := by
  cases res with
  | error e =>
      constructor
      · intro _ l hl
        exact nomatch (h _).mpr ⟨l, hl, rfl⟩
      · intro _
        exact List.nodup_nil
  | ok rs =>
      have hkey : ∀ l, Inputs l → ((rs.map SensorReading.sensorName).Nodup ↔
          l.Pairwise fun i j => ¬ i.Clash j) := by
        intro l hl
        obtain rfl : rs = _ := Except.ok.inj ((h _).mpr ⟨l, hl, rfl⟩)
        rw [((horder _).map SensorReading.sensorName).nodup_iff, List.map_map, List.Nodup,
          List.pairwise_map]
        simp only [Function.comp_apply, ne_eq, reading_sensorName_eq_iff]
      constructor
      · intro hnodup l hl
        exact (hkey l hl).mp hnodup
      · intro hclash
        obtain ⟨l, hl, -⟩ := (h rs).mp rfl
        exact (hkey l hl).mpr (hclash l hl)

/-! ## Names of different backends -/

/-- The first character of the names of a backend. -/
def StartsWith (c : Char) (rs : List SensorReading) : Prop :=
  ∀ r ∈ rs, r.sensorName.toList.head? = some c

theorem startsWith_readingsOf {res : Except CollectorError (List SensorReading)}
    {Inputs : List Input → Prop} {backend : String}
    (order : List SensorReading → List SensorReading) (horder : ∀ l, (order l).Perm l)
    (h : ∀ rs, res = .ok rs ↔
      ∃ l, Inputs l ∧ rs = order (l.map (Input.reading backend))) {c : Char}
    (hc : ∀ l, Inputs l → ∀ i ∈ l, (backend ++ i.first).toList.head? = some c) :
    StartsWith c (readingsOf res) := by
  intro r hr
  cases res with
  | error e => cases hr
  | ok rs =>
      obtain ⟨l, hl, rfl⟩ := (h rs).mp rfl
      obtain ⟨i, hi, rfl⟩ := List.mem_map.mp ((horder _).mem_iff.mp hr)
      have hhead := hc l hl i hi
      rw [Input.reading, String.append_assoc, String.toList_append, List.head?_append, hhead]
      rfl

theorem StartsWith.ne {c d : Char} (hcd : c ≠ d) {rs rs' : List SensorReading}
    (h : StartsWith c rs) (h' : StartsWith d rs') :
    ∀ a ∈ rs.map SensorReading.sensorName, ∀ b ∈ rs'.map SensorReading.sensorName, a ≠ b := by
  intro a ha b hb heq
  obtain ⟨r, hr, rfl⟩ := List.mem_map.mp ha
  obtain ⟨r', hr', rfl⟩ := List.mem_map.mp hb
  have hhead := h r hr
  rw [heq, h' r' hr'] at hhead
  exact hcd (Option.some.inj hhead).symm

theorem sysfs_startsWith (root : Root) (clock : Clock) :
    StartsWith 't' (readingsOf (sysfsCollect root clock)) := by
  refine startsWith_readingsOf id (fun _ => .refl _)
    (fun rs => sysfsCollect_eq_ok) ?_
  rintro l ⟨-, names, -, hl⟩ i hi
  obtain ⟨zone, hzone, type, temp, milliC, -, -, -, rfl⟩ := Fallible.exists_mem_of_forall₂ hl hi
  have hsel := (List.mem_filter.mp ((List.mem_insertionSort _).mp hzone)).2
  obtain ⟨cs, hcs⟩ := List.isPrefixOf_iff_prefix.mp hsel
  rw [String.empty_append, ← hcs]
  rfl

theorem sortByName_perm (rs : List SensorReading) : (sortByName rs).Perm rs :=
  List.perm_insertionSort _ rs

theorem sortByName_sorted (rs : List SensorReading) :
    (sortByName rs).Pairwise fun a b => a.sensorName ≤ b.sensorName :=
  have : Std.Total fun a b : SensorReading => a.sensorName ≤ b.sensorName :=
    ⟨fun a b => le_total a.sensorName b.sensorName⟩
  have : IsTrans SensorReading fun a b => a.sensorName ≤ b.sensorName :=
    ⟨fun _ _ _ hab hbc => hab.trans hbc⟩
  List.pairwise_insertionSort _ rs

theorem hwmon_startsWith (root : Root) (clock : Clock) :
    StartsWith 'h' (readingsOf (hwmonCollect root clock)) := by
  refine startsWith_readingsOf sortByName sortByName_perm (fun rs => hwmonCollect_eq_ok) ?_
  intro l _ i _
  rw [String.toList_append]
  rfl

theorem nvidia_startsWith (parseF64 : String → Option F64) (executable : String)
    (command : Except String Output) (clock : Clock) :
    StartsWith 'n' (readingsOf (nvidiaCollect parseF64 executable command clock)) := by
  refine startsWith_readingsOf id (fun _ => .refl _)
    (fun rs => nvidiaCollect_eq_ok) ?_
  intro l _ i _
  rw [String.toList_append]
  rfl

/-! ## All names -/

/-- In no backend that succeeds do two inputs clash. -/
def System.Unambiguous (parseF64 : String → Option F64) (sys : System) (clock : Clock) :
    Prop :=
  (∀ l, ThermalInputs sys.thermal clock l → l.Pairwise fun i j => ¬ i.Clash j) ∧
  (∀ l, HwmonInputs sys.hwmon clock l → l.Pairwise fun i j => ¬ i.Clash j) ∧
  (∀ l, GpuInputs parseF64 sys.nvidiaSmi clock l → l.Pairwise fun i j => ¬ i.Clash j)

theorem nodup_allReadings_iff (parseF64 : String → Option F64) (sys : System)
    (clock : Clock) :
    ((allReadings parseF64 sys clock).map SensorReading.sensorName).Nodup ↔
      sys.Unambiguous parseF64 clock := by
  have hth := (sysfs_startsWith sys.thermal clock).ne (by decide)
    (hwmon_startsWith sys.hwmon clock)
  have htn := (sysfs_startsWith sys.thermal clock).ne (by decide)
    (nvidia_startsWith parseF64 "nvidia-smi" sys.nvidiaSmi clock)
  have hhn := (hwmon_startsWith sys.hwmon clock).ne (by decide)
    (nvidia_startsWith parseF64 "nvidia-smi" sys.nvidiaSmi clock)
  have hthermal := nodup_readingsOf_iff id (fun _ => .refl _)
    fun rs => show sysfsCollect sys.thermal clock = .ok rs ↔ _ from sysfsCollect_eq_ok
  have hhwmon := nodup_readingsOf_iff sortByName sortByName_perm
    fun rs => show hwmonCollect sys.hwmon clock = .ok rs ↔ _ from hwmonCollect_eq_ok
  have hgpu := nodup_readingsOf_iff id (fun _ => .refl _)
    fun rs => show nvidiaCollect parseF64 "nvidia-smi" sys.nvidiaSmi clock = .ok rs ↔ _ from
      nvidiaCollect_eq_ok
  rw [System.Unambiguous, ← hthermal, ← hhwmon, ← hgpu, allReadings, List.map_append,
    List.map_append, List.nodup_append, List.nodup_append]
  constructor
  · rintro ⟨ht, ⟨hh, hn, -⟩, -⟩
    exact ⟨ht, hh, hn⟩
  · rintro ⟨ht, hh, hn⟩
    refine ⟨ht, ⟨hh, hn, hhn⟩, fun a ha b hb => ?_⟩
    rcases List.mem_append.mp hb with hb | hb
    · exact hth a ha b hb
    · exact htn a ha b hb

/-- The collector reports distinct names exactly for the systems without a clash. -/
theorem sensorNames_nodup_iff (parseF64 : String → Option F64) (sys : System)
    (clock : Clock) :
    (∀ rs, systemCollect parseF64 sys clock = .ok rs →
      (rs.map SensorReading.sensorName).Nodup) ↔ sys.Unambiguous parseF64 clock := by
  rw [← nodup_allReadings_iff]
  have hperm := (sortByName_perm (allReadings parseF64 sys clock)).map SensorReading.sensorName
  constructor
  · intro h
    cases hall : allReadings parseF64 sys clock with
    | nil => exact List.nodup_nil
    | cons r rest =>
        rw [← hall, ← hperm.nodup_iff]
        refine h _ ((systemCollect_eq_ok parseF64).mpr ⟨?_, rfl⟩)
        rw [hall]
        exact List.cons_ne_nil r rest
  · intro h rs hrs
    obtain ⟨-, rfl⟩ := (systemCollect_eq_ok parseF64).mp hrs
    exact hperm.nodup_iff.mpr h

/-! ## Two disks -/

/-- The hwmon directory of a disk. -/
def disk : Dir where
  isDir := true
  readDir := .ok [.ok (.ofString "name"), .ok (.ofString "temp1_input"),
    .ok (.ofString "temp1_label")]
  readToString file :=
    if file = .ofString "name" then .ok "nvme\n"
    else if file = .ofString "temp1_input" then .ok "41850\n"
    else if file = .ofString "temp1_label" then .ok "Composite\n"
    else .error "No such file or directory (os error 2)"

/-- Two disks of one driver, without thermal zones and GPUs. -/
def twoDisks : System where
  thermal := ⟨"/sys/class/thermal", false, .ok [], fun _ => disk⟩
  hwmon := ⟨"/sys/class/hwmon", true, .ok [.ok (.ofString "hwmon0"), .ok (.ofString "hwmon1")],
    fun _ => disk⟩
  nvidiaSmi := .error "No such file or directory (os error 2)"

/-- A clock that stands still. -/
def stopped : Clock := ⟨fun _ => default, fun _ _ => default, fun _ => default⟩

/-- Both disks are reported under one name, whatever the GPUs. -/
theorem sensorNames_twoDisks :
    ¬ ∀ (parseF64 : String → Option F64) (sys : System) (clock : Clock),
      (∀ l, GpuInputs parseF64 sys.nvidiaSmi clock l → (l.map Input.first).Nodup) →
      ∀ rs, systemCollect parseF64 sys clock = .ok rs →
        (rs.map SensorReading.sensorName).Nodup := by
  intro hall
  have hgpus : ∀ l, GpuInputs (fun _ => none) twoDisks.nvidiaSmi stopped l →
      (l.map Input.first).Nodup := by
    rintro l ⟨output, stdout, houtput, -⟩
    cases houtput
  obtain ⟨rs, hrs, hnames⟩ : ∃ rs, systemCollect (fun _ => none) twoDisks stopped = .ok rs ∧
      rs.map SensorReading.sensorName = ["hwmon:nvme:Composite", "hwmon:nvme:Composite"] :=
    ⟨_, rfl, by decide⟩
  have hnodup := hall (fun _ => none) twoDisks stopped hgpus rs hrs
  rw [hnames] at hnodup
  exact absurd hnodup (by decide)

end Tempcheck
