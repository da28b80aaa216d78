import Tempcheck.Library.Nearest
import Tempcheck.Library.Scale
import Mathlib.Data.Rat.Floor

/-!
# The chart of the page

The model of `renderHistory` and `bindChartHover`, the scripts of the page that lay out the
points of the history and show the one under the pointer.  Numbers are rationals.

The picture is stretched to its box on the screen, so positions on the screen and in the
picture determine each other (`ClientBox`).  The points lie between the margins, and so does
the overlay that gets the pointer.  But the handler takes the pointer's share of the overlay
for its share of the whole picture.  So what it looks for is the pointer only at one place
of the chart, and the point it shows is the nearest one exactly if no midpoint of two
neighbours separates the two (`mousemove_nearest_iff`).
-/

namespace Tempcheck

/-! ## The layout -/

/-- An item of the history that the page fetched. -/
structure HistoryItem where
  sensorName : String
  latestC : Rat
  minC : Rat
  maxC : Rat
  avgC : Rat
  count : Nat

/-- A point of `chartPoints`. -/
structure ChartPoint where
  x : Rat
  y : Rat
  sensor : String
  avg : Rat
  min : Rat
  max : Rat
  count : Nat

/-- A rectangle of the picture. -/
structure Rect where
  x : Rat
  y : Rat
  width : Rat
  height : Rat

/-- What `renderHistory` leaves for the pointer: `chartPoints` and the overlay. -/
structure Chart where
  points : List ChartPoint
  overlay : Option Rect

namespace Chart

/-- `left`. -/
def left : Rat := 54

/-- `right`. -/
def right : Rat := 20

/-- `top`. -/
def top : Rat := 18

/-- `bottom`. -/
def bottom : Rat := 42

/-- `width`. -/
def width : Rat := 600 - left - right

/-- `height`. -/
def height : Rat := 160 - top - bottom

/-- The place of the `i`-th of `n` points. -/
def px (n i : Nat) : Rat := left + (i / (Nat.max (n - 1) 1 : Nat)) * width

/-- `min`. -/
def least (item : HistoryItem) (items : List HistoryItem) : Rat :=
  (items.map HistoryItem.minC).foldl Min.min item.minC

/-- `max`. -/
def greatest (item : HistoryItem) (items : List HistoryItem) : Rat :=
  (items.map HistoryItem.maxC).foldl Max.max item.maxC

/-- `span`. -/
def span (item : HistoryItem) (items : List HistoryItem) : Rat :=
  Max.max (greatest item items - least item items) (1 / 2)

theorem span_pos (item : HistoryItem) (items : List HistoryItem) : 0 < span item items :=
  lt_max_of_lt_right one_half_pos

theorem height_pos : 0 < height := by
  rw [height, top, bottom]
  norm_num

/-- The scale of the averages: `top + (1 - (avg - min) / span) * height`. -/
def scale (item : HistoryItem) (items : List HistoryItem) : Scale Rat where
  least := least item items
  span := span item items
  top := top
  height := height
  span_pos := span_pos item items
  height_pos := height_pos

end Chart

open Chart in
/-- `renderHistory`. -/
def renderHistory : List HistoryItem → Chart
  | [] => ⟨[], none⟩
  | item :: items =>
      let all := item :: items
      { points := all.mapIdx fun i x => {
          x := px all.length i
          y := (scale item items).level x.avgC
          sensor := x.sensorName
          avg := x.avgC
          min := x.minC
          max := x.maxC
          count := x.count }
        overlay := some ⟨left, top, width, height⟩ }

/-! ## The pointer -/

/-- The place of the picture on the screen, from left to right. -/
structure ClientBox where
  left : Rat
  width : Rat
  width_pos : 0 < width

/-- The screen position of a place in the picture, whose width is 600 in `viewBox`. -/
def ClientBox.toClient (box : ClientBox) (x : Rat) : Rat := box.left + x / 600 * box.width

/-- The place in the picture at a screen position. -/
def ClientBox.toPicture (box : ClientBox) (clientX : Rat) : Rat :=
  (clientX - box.left) / box.width * 600

/-- What the pointer shows: the marker, the line and the readout. -/
structure Hover where
  markerX : Rat
  markerY : Rat
  lineX : Rat
  readout : String

/-- `fmt`: `toFixed(1)` of the exact value of a number, which is less than `10^21` in size.  Of two
nearest decimals it writes the one that is greater in size. -/
def fmt (n : Rat) : String :=
  let tenths := (|n| * 10 + 1 / 2).floor.toNat
  (if n < 0 then "-" else "") ++ (tenths / 10).repr ++ "." ++ (tenths % 10).repr

/-- What the handler sets for the nearest point. -/
def Hover.ofPoint (nearest : ChartPoint) : Hover where
  markerX := nearest.x
  markerY := nearest.y
  lineX := nearest.x
  readout := nearest.sensor ++ ": avg " ++ fmt nearest.avg ++ " C (min " ++ fmt nearest.min ++
    " C, max " ++ fmt nearest.max ++ " C, samples " ++ nearest.count.repr ++ ")"

/-- What the handler looks for: the share of the overlay, as a share of 600. -/
def pointerX (box : ClientBox) (overlay : Rect) (clientX : Rat) : Rat :=
  -- `getBoundingClientRect`
  let boundsLeft := box.toClient overlay.x
  let boundsWidth := box.toClient (overlay.x + overlay.width) - boundsLeft
  (clientX - boundsLeft) / boundsWidth * 600

/-- The handler of `mousemove` in `bindChartHover`. -/
def mousemove (chart : Chart) (box : ClientBox) (clientX : Rat) : Option Hover :=
  match chart.overlay, chart.points with
  | some overlay, first :: rest =>
      let x := pointerX box overlay clientX
      some (Hover.ofPoint (Nearest.scan ChartPoint.x x first (first :: rest)))
  | _, _ => none

/-- The handler shows a point that is nearest to the pointer. -/
def ShowsNearest (chart : Chart) (box : ClientBox) (clientX : Rat) : Prop :=
  ∃ point ∈ chart.points, mousemove chart box clientX = some (Hover.ofPoint point) ∧
    ∀ q ∈ chart.points, |point.x - box.toPicture clientX| ≤ |q.x - box.toPicture clientX|

/-! ## Places -/

theorem Chart.width_eq : width = 526 := by
  rw [width, left, right]
  norm_num

theorem px_strictMono (n : Nat) : StrictMono (Chart.px n) := by
  intro i j hij
  have hpos : (0 : Rat) < (Nat.max (n - 1) 1 : Nat) :=
    Nat.cast_pos.mpr (Nat.lt_of_lt_of_le Nat.one_pos (Nat.le_max_right _ _))
  have hwidth : 0 < Chart.width := by
    rw [Chart.width_eq]
    norm_num
  have hshare : (i : Rat) / (Nat.max (n - 1) 1 : Nat) < j / (Nat.max (n - 1) 1 : Nat) :=
    div_lt_div_of_pos_right (Nat.cast_lt.mpr hij) hpos
  exact add_lt_add_right (mul_lt_mul_of_pos_right hshare hwidth) Chart.left

/-- The points are at the places of their indices. -/
theorem x_of_getElem? {item : HistoryItem} {items : List HistoryItem} {i : Nat}
    {point : ChartPoint} (h : (renderHistory (item :: items)).points[i]? = some point) :
    point.x = Chart.px (items.length + 1) i := by
  rw [renderHistory, List.getElem?_mapIdx] at h
  obtain ⟨x, -, rfl⟩ := Option.map_eq_some_iff.mp h
  rfl

/-- What the handler looks for, from the place of the pointer. -/
theorem pointerX_eq (box : ClientBox) (clientX : Rat) :
    pointerX box ⟨Chart.left, Chart.top, Chart.width, Chart.height⟩ clientX =
      (box.toPicture clientX - Chart.left) / Chart.width * 600 := by
  have hbox := box.width_pos.ne'
  have hbounds : box.toClient (Chart.left + Chart.width) - box.toClient Chart.left =
      Chart.width / 600 * box.width := by
    rw [ClientBox.toClient, ClientBox.toClient]
    ring
  rw [pointerX, hbounds, ClientBox.toClient, ClientBox.toPicture, Chart.width_eq]
  field_simp
  ring

theorem length_points (item : HistoryItem) (items : List HistoryItem) :
    (renderHistory (item :: items)).points.length = items.length + 1 := by
  rw [renderHistory, List.length_mapIdx, List.length_cons]

/-! ## What the pointer shows -/

theorem mousemove_eq {chart : Chart} {overlay : Rect} {first : ChartPoint}
    {rest : List ChartPoint} (hoverlay : chart.overlay = some overlay)
    (hpoints : chart.points = first :: rest) (box : ClientBox) (clientX : Rat) :
    mousemove chart box clientX = some (Hover.ofPoint
      (Nearest.scan ChartPoint.x (pointerX box overlay clientX) first (first :: rest))) := by
  simp only [mousemove, hoverlay, hpoints]

/-- The handler shows the first point that is nearest to what it looks for. -/
theorem exists_mousemove (item : HistoryItem) (items : List HistoryItem) (box : ClientBox)
    (clientX : Rat) : ∃ k point, (renderHistory (item :: items)).points[k]? = some point ∧
      mousemove (renderHistory (item :: items)) box clientX = some (Hover.ofPoint point) ∧
      Nearest.FirstNearest (Chart.px (items.length + 1)) (items.length + 1)
        ((box.toPicture clientX - Chart.left) / Chart.width * 600) k := by
  have hplace : ∀ i point, (renderHistory (item :: items)).points[i]? = some point →
      point.x = Chart.px (items.length + 1) i := fun i point => x_of_getElem?
  have hlength := length_points item items
  cases hpoints : (renderHistory (item :: items)).points with
  | nil => rw [hpoints] at hlength; cases hlength
  | cons first rest =>
      rw [mousemove_eq rfl hpoints, pointerX_eq]
      rw [hpoints] at hplace hlength
      obtain ⟨k, hk, hget⟩ := Nearest.exists_firstNearest hplace
      rw [Nat.succ.inj hlength] at hk
      exact ⟨k, _, hget, rfl, hk⟩

/-- That point is the one whose distances to the pointer count. -/
theorem exists_showsNearest_iff (item : HistoryItem) (items : List HistoryItem)
    (box : ClientBox) (clientX : Rat) :
    ∃ k, Nearest.FirstNearest (Chart.px (items.length + 1)) (items.length + 1)
        ((box.toPicture clientX - Chart.left) / Chart.width * 600) k ∧
      (ShowsNearest (renderHistory (item :: items)) box clientX ↔ ∀ j < items.length + 1,
        |Chart.px (items.length + 1) k - box.toPicture clientX| ≤
          |Chart.px (items.length + 1) j - box.toPicture clientX|) := by
  obtain ⟨k, shown, hshown, hmove, hfirst⟩ := exists_mousemove item items box clientX
  refine ⟨k, hfirst, ?_⟩
  constructor
  · rintro ⟨point, -, hpoint, hnear⟩ j hj
    have hsame : point.x = shown.x :=
      congrArg Hover.markerX (Option.some.inj (hpoint.symm.trans hmove))
    obtain ⟨q, hq⟩ : ∃ q, (renderHistory (item :: items)).points[j]? = some q :=
      ⟨_, List.getElem?_eq_getElem (by rwa [length_points])⟩
    rw [← x_of_getElem? hshown, ← x_of_getElem? hq, ← hsame]
    exact hnear q (List.mem_of_getElem? hq)
  · intro hnear
    refine ⟨shown, List.mem_of_getElem? hshown, hmove, fun q hq => ?_⟩
    obtain ⟨j, hj⟩ := List.mem_iff_getElem?.mp hq
    have hlt := (List.getElem?_eq_some_iff.mp hj).1
    rw [length_points] at hlt
    rw [x_of_getElem? hshown, x_of_getElem? hj]
    exact hnear j hlt

/-- The handler shows a nearest point exactly if no midpoint of two neighbours separates what
it looks for from the pointer. -/
theorem mousemove_nearest_iff (item : HistoryItem) (items : List HistoryItem)
    (box : ClientBox) (clientX : Rat) :
    let p := box.toPicture clientX
    let x := (p - Chart.left) / Chart.width * 600
    let mid := fun j =>
      (Chart.px (items.length + 1) j + Chart.px (items.length + 1) (j + 1)) / 2
    ShowsNearest (renderHistory (item :: items)) box clientX ↔
      ∀ j < items.length, (x ≤ mid j → p ≤ mid j) ∧ (mid j < x → mid j ≤ p) := by
  intro p x mid
  obtain ⟨k, hfirst, hshows⟩ := exists_showsNearest_iff item items box clientX
  rw [hshows, hfirst.nearest_iff (px_strictMono _)]
  simp only [Nat.add_lt_add_iff_right]
  rfl

/-- Two sensors, whose points are at both ends of the chart. -/
def twoSensors : List HistoryItem :=
  [⟨"cpu", 41, 40, 42, 41, 3⟩, ⟨"gpu", 61, 60, 62, 61, 3⟩]

/-- The picture at its own size. -/
def unscaled : ClientBox := ⟨0, 600, by norm_num⟩

/-- A little to the right of the middle the left point is shown. -/
theorem mousemove_left :
    ¬ ∀ (items : List HistoryItem) (box : ClientBox) (clientX : Rat), items ≠ [] →
      Chart.left ≤ box.toPicture clientX →
      box.toPicture clientX ≤ Chart.left + Chart.width →
      ShowsNearest (renderHistory items) box clientX := by
  intro hall
  have hp : unscaled.toPicture 325 = 325 := by
    rw [ClientBox.toPicture, unscaled]
    norm_num
  have hplaces : Chart.px 2 0 = 54 ∧ Chart.px 2 1 = 580 := by
    rw [Chart.px, Chart.px, Chart.width_eq, Chart.left]
    norm_num
  have hshown := hall twoSensors unscaled 325 (List.cons_ne_nil _ _)
    (by rw [hp, Chart.left]; norm_num) (by rw [hp, Chart.width_eq, Chart.left]; norm_num)
  obtain ⟨k, hfirst, hshows⟩ := exists_showsNearest_iff _ _ unscaled 325
  have hmid := ((hfirst.nearest_iff (px_strictMono _)).mp (hshows.mp hshown) 0 (by decide)).1
  rw [show [HistoryItem.mk "gpu" 61 60 62 61 3].length + 1 = 2 from rfl, Nat.zero_add, hplaces.1,
    hplaces.2, hp, Chart.width_eq, Chart.left] at hmid
  exact absurd (hmid (by norm_num)) (by norm_num)

end Tempcheck
