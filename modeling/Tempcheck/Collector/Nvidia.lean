import Tempcheck.Collector.Inputs

/-!
# The output of nvidia-smi

A line of the output reads as a GPU if its fields are the index, the name and the
temperature, with anything after them (`ReadsAs`).  `NvidiaSmiCollector::collect` accepts
exactly the outputs whose lines do, blank lines apart, and returns what they read as.

`Gpu.line` is how `nvidia-smi` writes a GPU.  Its fields are texts that survive the
reading: trimmed, not empty, and free of the separators.  `outputText` is a whole output,
with either line end and blank lines anywhere.  Reading it gives the GPUs that were written
(`readings_outputText`), since the first line of a text is split off in front of any rest
(`gpuLines_append`).
-/

namespace Tempcheck

open RustStr (trim trimChars lines stripCr split isWhitespace)

section

variable (parseF64 : String → Option F64)

/-- A line reads as a name and a temperature. -/
def ReadsAs (line name : String) (temperatureC : F64) : Prop :=
  ∃ index gpu temp rest, split line ',' = index :: gpu :: temp :: rest ∧
    parseF64 (trim temp) = some temperatureC ∧
    name = "nvidia:" ++ trim index ++ ":" ++ trim gpu

variable {parseF64}

/-! ## What is accepted -/

theorem ReadsAs.unique {line name name' : String} {temp temp' : F64}
    (h : ReadsAs parseF64 line name temp) (h' : ReadsAs parseF64 line name' temp') :
    name = name' ∧ temp = temp' := by
  obtain ⟨index, gpu, raw, rest, hsplit, hraw, rfl⟩ := h
  obtain ⟨index', gpu', raw', rest', hsplit', hraw', rfl⟩ := h'
  obtain ⟨rfl, rfl, rfl, rfl⟩ : index = index' ∧ gpu = gpu' ∧ raw = raw' ∧ rest = rest' := by
    simpa [hsplit] using hsplit'
  exact ⟨rfl, Option.some.inj (hraw.symm.trans hraw')⟩

/-- The input of a line is what it reads as. -/
theorem isGpuLine_iff {clock : Clock} {line : String × Nat} {r : SensorReading} :
    (∃ i, IsGpuLine parseF64 clock line i ∧ r = i.reading "nvidia:") ↔
      ReadsAs parseF64 line.1 r.sensorName r.temperatureC ∧ r.recordedAt = clock.gpu line.2 := by
  constructor
  · rintro ⟨i, ⟨index, name, temp, rest, v, hsplit, hv, rfl⟩, rfl⟩
    obtain ⟨index', tail, hline, rfl, htail⟩ := List.map_eq_cons_iff.mp hsplit
    obtain ⟨name', tail', rfl, rfl, htail'⟩ := List.map_eq_cons_iff.mp htail
    obtain ⟨temp', tail, rfl, rfl, -⟩ := List.map_eq_cons_iff.mp htail'
    exact ⟨⟨index', name', temp', tail, hline, hv, rfl⟩, rfl⟩
  · rintro ⟨⟨index, gpu, temp, rest, hsplit, hv, hname⟩, hat⟩
    refine ⟨⟨trim index, trim gpu, r.temperatureC, clock.gpu line.2⟩,
      ⟨_, _, _, rest.map trim, _, by rw [hsplit]; rfl, hv, rfl⟩, ?_⟩
    obtain ⟨name, temperatureC, recordedAt⟩ := r
    simp only at hname hat
    rw [hname, hat]
    rfl

variable {executable status stdout : String} {clock : Clock} {rs : List SensorReading}

/-- The collector returns what the lines read as, one by one. -/
theorem nvidiaCollect_success :
    nvidiaCollect parseF64 executable (.ok ⟨true, status, .ok stdout⟩) clock = .ok rs ↔
      List.Forall₂ (fun line r => ReadsAs parseF64 line.1 r.sensorName r.temperatureC ∧
        r.recordedAt = clock.gpu line.2) (gpuLines stdout).zipIdx rs := by
  rw [nvidiaCollect_eq_ok]
  have hinputs : ∀ l, GpuInputs parseF64 (.ok ⟨true, status, .ok stdout⟩) clock l ↔
      List.Forall₂ (IsGpuLine parseF64 clock) (gpuLines stdout).zipIdx l := by
    intro l
    constructor
    · rintro ⟨output, text, houtput, -, htext, h⟩
      cases houtput
      cases htext
      exact h
    · exact fun h => ⟨_, _, rfl, rfl, rfl, h⟩
  simp only [hinputs, ← Fallible.forall₂_exists, isGpuLine_iff]

theorem readsAs_of_collect
    (h : nvidiaCollect parseF64 executable (.ok ⟨true, status, .ok stdout⟩) clock = .ok rs) :
    List.Forall₂ (fun line r => ReadsAs parseF64 line r.sensorName r.temperatureC)
      (gpuLines stdout) rs := by
  have hlines : List.Forall₂ (fun line r => ReadsAs parseF64 line r.sensorName r.temperatureC)
      ((gpuLines stdout).zipIdx.map Prod.fst) rs :=
    List.forall₂_map_left_iff.mpr ((nvidiaCollect_success.mp h).imp fun _ _ h => h.1)
  rwa [List.zipIdx_map_fst] at hlines

/-- The output is accepted exactly if every line that is not blank reads as a GPU. -/
theorem nvidiaCollect_isOk_iff (executable status stdout : String) (clock : Clock) :
    (∃ rs, nvidiaCollect parseF64 executable (.ok ⟨true, status, .ok stdout⟩) clock = .ok rs) ↔
      ∀ line ∈ gpuLines stdout, ∃ name temp, ReadsAs parseF64 line name temp := by
  constructor
  · rintro ⟨rs, h⟩ line hline
    obtain ⟨r, -, hr⟩ := Fallible.exists_mem_of_forall₂ (readsAs_of_collect h).flip hline
    exact ⟨_, _, hr⟩
  · intro h
    have heach : ∀ line ∈ (gpuLines stdout).zipIdx, ∃ r : SensorReading,
        ReadsAs parseF64 line.1 r.sensorName r.temperatureC ∧
          r.recordedAt = clock.gpu line.2 := by
      intro line hline
      obtain ⟨name, temp, hreads⟩ := h line.1 (List.fst_mem_of_mem_zipIdx hline)
      exact ⟨⟨name, temp, clock.gpu line.2⟩, hreads, rfl⟩
    obtain ⟨rs, hrs⟩ := Fallible.exists_forall₂ heach
    exact ⟨rs, nvidiaCollect_success.mpr hrs⟩

end

/-! ## What is written -/

/-- A text that can stand between two separators. -/
structure Field where
  text : String
  trimmed : trim text = text
  ne_empty : text ≠ ""
  noComma : ',' ∉ text.toList
  noBreak : '\n' ∉ text.toList

/-- A text without a visible character. -/
structure BlankLine where
  text : String
  blank : trim text = ""
  noBreak : '\n' ∉ text.toList

section

variable (parseF64 : String → Option F64)

/-- A GPU with its temperature and the text of it. -/
structure Gpu where
  index : Field
  name : Field
  temp : Field
  temperatureC : F64
  parses : parseF64 temp.text = some temperatureC

/-- A line of the output: that of a GPU, or a blank one. -/
inductive OutputLine where
  | gpu (g : Gpu parseF64)
  | blank (b : BlankLine)

/-- The end of a line. -/
inductive LineEnd where
  | lf
  | crlf

/-- The letters that end a line. -/
def LineEnd.text : LineEnd → String
  | .lf => "\n"
  | .crlf => "\r\n"

variable {parseF64}

/-- The line of a GPU. -/
def Gpu.line (g : Gpu parseF64) : String :=
  g.index.text ++ ", " ++ g.name.text ++ ", " ++ g.temp.text

/-- The letters of a line without its end. -/
def OutputLine.text : OutputLine parseF64 → String
  | .gpu g => g.line
  | .blank b => b.text

/-- The output with these lines. -/
def outputText : List (OutputLine parseF64 × LineEnd) → String
  | [] => ""
  | (line, lineEnd) :: rest => line.text ++ lineEnd.text ++ outputText rest

/-- The GPUs of an output. -/
def gpusOf : List (OutputLine parseF64 × LineEnd) → List (Gpu parseF64)
  | [] => []
  | (.gpu g, _) :: rest => g :: gpusOf rest
  | (.blank _, _) :: rest => gpusOf rest

/-! ## Reading what is written -/

/-- The ends of a field are not whitespace. -/
theorem Field.ends (f : Field) :
    (∀ c ∈ f.text.toList.head?, isWhitespace c = false) ∧
      ∀ c ∈ f.text.toList.getLast?, isWhitespace c = false := by
  have htrimmed := f.trimmed
  rw [trim, ← String.toList_inj, String.toList_ofList] at htrimmed
  exact RustStr.trimChars_eq_self_iff.mp htrimmed

/-- A field is read without the blank before it. -/
theorem Field.trim_blank (f : Field) : trim (String.ofList (' ' :: f.text.toList)) = f.text := by
  have hblank := RustStr.trimChars_cons (c := ' ') (by decide) f.text.toList
  rw [trim, String.toList_ofList, hblank]
  exact f.trimmed

theorem Field.noComma_blank (f : Field) : ',' ∉ ' ' :: f.text.toList := by
  simp [f.noComma]

theorem Gpu.toList_line (g : Gpu parseF64) : g.line.toList =
    g.index.text.toList ++ ',' :: (' ' :: g.name.text.toList ++ ',' ::
      (' ' :: g.temp.text.toList)) := by
  simp [line, String.toList_append]

/-- The line of a GPU reads as the GPU. -/
theorem Gpu.readsAs (g : Gpu parseF64) :
    ReadsAs parseF64 g.line ("nvidia:" ++ g.index.text ++ ":" ++ g.name.text) g.temperatureC := by
  refine ⟨g.index.text, String.ofList (' ' :: g.name.text.toList),
    String.ofList (' ' :: g.temp.text.toList), [], ?_, ?_, ?_⟩
  · rw [split, toList_line, List.splitOn_append_cons_self_of_not_mem g.index.noComma,
      List.splitOn_append_cons_self_of_not_mem g.name.noComma_blank,
      List.splitOn_eq_singleton g.temp.noComma_blank]
    simp
  · rw [g.temp.trim_blank, g.parses]
  · rw [g.index.trimmed, g.name.trim_blank]

theorem Gpu.trim_line (g : Gpu parseF64) : trim g.line = g.line := by
  have hindex : g.index.text.toList ≠ [] := by simp [g.index.ne_empty]
  have htemp : g.temp.text.toList ≠ [] := by simp [g.temp.ne_empty]
  have hends : trimChars g.line.toList = g.line.toList := by
    rw [RustStr.trimChars_eq_self_iff, toList_line]
    refine ⟨fun c hc => g.index.ends.1 c ?_, fun c hc => g.temp.ends.2 c ?_⟩
    · rwa [List.head?_append_of_ne_nil _ hindex] at hc
    · rw [show g.index.text.toList ++ ',' :: (' ' :: g.name.text.toList ++ ',' ::
          (' ' :: g.temp.text.toList)) = (g.index.text.toList ++ ',' ::
            (' ' :: g.name.text.toList ++ [',', ' '])) ++ g.temp.text.toList by simp] at hc
      rwa [List.getLast?_append_of_ne_nil _ htemp] at hc
  rw [trim, hends, String.ofList_toList]

theorem Gpu.noBreak (g : Gpu parseF64) : '\n' ∉ g.line.toList := by
  simp [toList_line, g.index.noBreak, g.name.noBreak, g.temp.noBreak]

/-- The first line of an output counts if it is not blank. -/
theorem gpuLines_append {line : String} (h : '\n' ∉ line.toList) (lineEnd : LineEnd)
    (rest : String) : gpuLines (line ++ lineEnd.text ++ rest) =
      (if trim line = "" then [] else [trim line]) ++ gpuLines rest := by
  have htrim : ∃ first, lines (line ++ lineEnd.text ++ rest) = first :: lines rest ∧
      trim first = trim line := by
    cases lineEnd with
    | lf =>
        refine ⟨String.ofList (stripCr line.toList), ?_, ?_⟩
        · rw [lines, lines, String.toList_append, String.toList_append, List.append_assoc]
          exact congrArg _ (RustStr.linesChars_append h rest.toList)
        · rw [trim, trim, String.toList_ofList, RustStr.trimChars_stripCr]
    | crlf =>
        refine ⟨String.ofList (stripCr (line.toList ++ ['\r'])), ?_, ?_⟩
        · have hcr : '\n' ∉ line.toList ++ ['\r'] := by simp [h]
          have hsplit : line.toList ++ LineEnd.crlf.text.toList ++ rest.toList =
              (line.toList ++ ['\r']) ++ '\n' :: rest.toList := by simp [LineEnd.text]
          rw [lines, lines, String.toList_append, String.toList_append, hsplit,
            RustStr.linesChars_append hcr, List.map_cons]
        · rw [trim, trim, String.toList_ofList, RustStr.trimChars_stripCr,
            RustStr.trimChars_concat (by decide)]
  obtain ⟨first, hlines, hfirst⟩ := htrim
  rw [gpuLines, gpuLines, hlines, List.map_cons, hfirst, List.filter_cons]
  by_cases hblank : trim line = ""
  · simp [hblank]
  · simp [hblank]

/-- The lines of an output that count are those of its GPUs. -/
theorem gpuLines_outputText : ∀ output : List (OutputLine parseF64 × LineEnd),
    gpuLines (outputText output) = (gpusOf output).map Gpu.line
  | [] => rfl
  | (.gpu g, lineEnd) :: rest => by
      have hne : g.line ≠ "" := by
        intro h
        have := congrArg String.toList h
        simp [Gpu.toList_line] at this
      rw [outputText, OutputLine.text, gpuLines_append g.noBreak, g.trim_line, if_neg hne,
        gpuLines_outputText rest]
      rfl
  | (.blank b, lineEnd) :: rest => by
      rw [outputText, OutputLine.text, gpuLines_append b.noBreak, b.blank, if_pos rfl,
        gpuLines_outputText rest]
      rfl

/-- Reading an output gives the GPUs that were written. -/
theorem collect_outputText (executable status : String) (clock : Clock)
    (output : List (OutputLine parseF64 × LineEnd)) :
    ∃ rs, nvidiaCollect parseF64 executable (.ok ⟨true, status, .ok (outputText output)⟩)
        clock = .ok rs ∧
      rs.map (fun r => (r.sensorName, r.temperatureC)) = (gpusOf output).map fun g =>
        ("nvidia:" ++ g.index.text ++ ":" ++ g.name.text, g.temperatureC) := by
  have hok : ∃ rs, nvidiaCollect parseF64 executable
      (.ok ⟨true, status, .ok (outputText output)⟩) clock = .ok rs := by
    refine (nvidiaCollect_isOk_iff _ _ _ _).mpr fun line hline => ?_
    rw [gpuLines_outputText] at hline
    obtain ⟨g, -, rfl⟩ := List.mem_map.mp hline
    exact ⟨_, _, g.readsAs⟩
  obtain ⟨rs, hrs⟩ := hok
  refine ⟨rs, hrs, ?_⟩
  have hreads := readsAs_of_collect hrs
  rw [gpuLines_outputText, List.forall₂_map_left_iff] at hreads
  refine (Fallible.map_eq_map_of_forall₂ (hreads.imp fun g r h => ?_)).symm
  obtain ⟨hname, htemp⟩ := g.readsAs.unique h
  rw [hname, htemp]

end

/-- `NvidiaSmiCollector::collect` on the output of a successful run: it accepts the output
exactly if every line that is not blank has three fields of which the third is a number,
returns what these lines read as, and reads every output of GPUs as those GPUs. -/
theorem nvidiaCollect_reads (parseF64 : String → Option F64) (executable status : String)
    (clock : Clock) :
    (∀ stdout, ((∃ rs, nvidiaCollect parseF64 executable (.ok ⟨true, status, .ok stdout⟩) clock =
        .ok rs) ↔
      ∀ line ∈ gpuLines stdout, ∃ name temp, ReadsAs parseF64 line name temp)) ∧
    (∀ stdout rs, nvidiaCollect parseF64 executable (.ok ⟨true, status, .ok stdout⟩) clock =
        .ok rs →
      List.Forall₂ (fun line r => ReadsAs parseF64 line r.sensorName r.temperatureC)
        (gpuLines stdout) rs) ∧
    ∀ output : List (OutputLine parseF64 × LineEnd), ∃ rs,
      nvidiaCollect parseF64 executable (.ok ⟨true, status, .ok (outputText output)⟩) clock =
        .ok rs ∧
      rs.map (fun r => (r.sensorName, r.temperatureC)) = (gpusOf output).map fun g =>
        ("nvidia:" ++ g.index.text ++ ":" ++ g.name.text, g.temperatureC) :=
  ⟨fun _ => nvidiaCollect_isOk_iff _ _ _ _, fun _ _ => readsAs_of_collect,
    collect_outputText executable status clock⟩

example : gpuLines "0, RTX 4090, 53\r\n \n1, RTX 4090, 55\n" =
    ["0, RTX 4090, 53", "1, RTX 4090, 55"] := by decide

end Tempcheck
