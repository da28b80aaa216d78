import Mathlib.Data.Int.Order.Basic
import Mathlib.Tactic.Linarith

/-!
# The proleptic Gregorian calendar

Days are integers, and day `0` is 1 January of year 1.  `ofDay` gives the calendar date
of a day and `toDay` the day of a calendar date.  Both go through the year and the number
of the day within it, which starts at `0`.

`yearOf` divides by the length of 400, 100, 4 and 1 years in turn.  `daysBeforeYear`
counts by the leap rule.  The two agree (`daysBeforeYear_yearOf`), which is linear
arithmetic over the four quotients.  Within a year the months are walked one by one
(`walk`), so what is said of a month is by induction on the month lengths.

The results are `toDay_ofDay` and `ofDay_toDay`, that the two views of a day are inverse,
and `ofDay_lt`, that a later day has a lexicographically later date.
-/

namespace Calendar

/-! ## Years -/

/-- The Gregorian leap year rule. -/
def isLeap (y : Int) : Bool := y % 4 = 0 && (y % 100 ≠ 0 || y % 400 = 0)

/-- The number of days before 1 January of year `y`. -/
def daysBeforeYear (y : Int) : Int :=
  365 * (y - 1) + (y - 1) / 4 - (y - 1) / 100 + (y - 1) / 400

/-- The number of days of a year. -/
def yearLength (leap : Bool) : Nat := if leap then 366 else 365

theorem daysBeforeYear_succ (y : Int) :
    daysBeforeYear (y + 1) = daysBeforeYear y + yearLength (isLeap y) := by
  by_cases h4 : y % 4 = 0 <;> by_cases h100 : y % 100 = 0 <;> by_cases h400 : y % 400 = 0 <;>
    simp [daysBeforeYear, yearLength, isLeap, h4, h100, h400] <;> omega

/-- The year of a day.  The third and the last quotient are capped, since the last
century of a cycle and the last year of four hold one day more. -/
def yearOf (d : Int) : Int :=
  let cycle := d / 146097
  let r := d % 146097
  let century := min (r / 36524) 3
  let r := r - 36524 * century
  let four := r / 1461
  let r := r - 1461 * four
  400 * cycle + 100 * century + 4 * four + min (r / 365) 3 + 1

/-- The days before a year, from its place in the 400-year cycle. -/
theorem daysBeforeYear_cycle {c e f a : Int} (he : 0 ≤ e ∧ e ≤ 3) (hf : 0 ≤ f ∧ f ≤ 24)
    (ha : 0 ≤ a ∧ a ≤ 3) :
    daysBeforeYear (400 * c + 100 * e + 4 * f + a + 1) =
      146097 * c + 36524 * e + 1461 * f + 365 * a := by
  have h4 : (400 * c + 100 * e + 4 * f + a) / 4 = 100 * c + 25 * e + f := by omega
  have h100 : (400 * c + 100 * e + 4 * f + a) / 100 = 4 * c + e := by omega
  have h400 : (400 * c + 100 * e + 4 * f + a) / 400 = c := by omega
  rw [daysBeforeYear, Int.add_sub_cancel, h4, h100, h400]
  omega

/-- The leap rule, from the place in the 400-year cycle. -/
theorem isLeap_cycle {c e f a : Int} (he : 0 ≤ e ∧ e ≤ 3) (hf : 0 ≤ f ∧ f ≤ 24)
    (ha : 0 ≤ a ∧ a ≤ 3) :
    isLeap (400 * c + 100 * e + 4 * f + a + 1) = true ↔ a = 3 ∧ (f < 24 ∨ e = 3) := by
  simp only [isLeap, Bool.and_eq_true, Bool.or_eq_true, decide_eq_true_eq]
  omega

/-- A day lies in its year. -/
theorem daysBeforeYear_yearOf (d : Int) :
    daysBeforeYear (yearOf d) ≤ d ∧ d < daysBeforeYear (yearOf d + 1) := by
  obtain ⟨c, hc⟩ : ∃ c, c = d / 146097 := ⟨_, rfl⟩
  obtain ⟨r, hr⟩ : ∃ r, r = d % 146097 := ⟨_, rfl⟩
  obtain ⟨e, he⟩ : ∃ e, e = min (r / 36524) 3 := ⟨_, rfl⟩
  obtain ⟨f, hf⟩ : ∃ f, f = (r - 36524 * e) / 1461 := ⟨_, rfl⟩
  obtain ⟨a, ha⟩ : ∃ a, a = min ((r - 36524 * e - 1461 * f) / 365) 3 := ⟨_, rfl⟩
  have hy : yearOf d = 400 * c + 100 * e + 4 * f + a + 1 := by
    simp only [yearOf, ← hc, ← hr, ← he, ← hf, ← ha]
  have hd : d = 146097 * c + r := by omega
  have hr' : 0 ≤ r ∧ r < 146097 := by omega
  have he' : 0 ≤ e ∧ e ≤ 3 := by omega
  have hf' : 0 ≤ f ∧ f ≤ 24 := by omega
  have ha' : 0 ≤ a ∧ a ≤ 3 := by omega
  have hleap := isLeap_cycle (c := c) he' hf' ha'
  rw [daysBeforeYear_succ, hy, daysBeforeYear_cycle he' hf' ha', yearLength]
  refine ⟨by omega, ?_⟩
  -- only a leap year has a last day past 365, which the caps of the quotients keep in it
  split
  next => omega
  next hnot =>
    rw [hleap] at hnot
    omega

theorem daysBeforeYear_mono {y z : Int} (h : y ≤ z) : daysBeforeYear y ≤ daysBeforeYear z := by
  simp only [daysBeforeYear]
  omega

/-- A year is determined by one of its days. -/
theorem yearOf_eq {d y : Int} (hlo : daysBeforeYear y ≤ d) (hhi : d < daysBeforeYear (y + 1)) :
    yearOf d = y := by
  obtain ⟨hl, hh⟩ := daysBeforeYear_yearOf d
  rcases lt_trichotomy (yearOf d) y with hlt | heq | hgt
  · have := daysBeforeYear_mono (show yearOf d + 1 ≤ y by omega)
    omega
  · exact heq
  · have := daysBeforeYear_mono (show y + 1 ≤ yearOf d by omega)
    omega

theorem yearOf_mono {d e : Int} (h : d ≤ e) : yearOf d ≤ yearOf e := by
  by_contra hlt
  have hmono := daysBeforeYear_mono (show yearOf e + 1 ≤ yearOf d by omega)
  have hd := (daysBeforeYear_yearOf d).1
  have he := (daysBeforeYear_yearOf e).2
  omega

/-! ## Months -/

/-- The lengths of the months of a year. -/
def monthLengths (leap : Bool) : List Nat :=
  [31, if leap then 29 else 28, 31, 30, 31, 30, 31, 31, 30, 31, 30, 31]

/-- Walk `n` days into the months of lengths `ls`, the first of which is month `m`.  The
result is the month reached and the day of that month, counted from `1`. -/
def walk : Nat → List Nat → Nat → Nat × Nat
  | m, [], n => (m, n + 1)
  | m, l :: ls, n => if n < l then (m, n + 1) else walk (m + 1) ls (n - l)

/-- The number of days before day `day` of month `month`, for months of lengths `ls`
that start at month `m`. -/
def daysInto : Nat → List Nat → Nat → Nat → Nat
  | _, [], _, day => day - 1
  | m, l :: ls, month, day => if month = m then day - 1 else l + daysInto (m + 1) ls month day

theorem le_walk_fst : ∀ (ls : List Nat) (m n : Nat), m ≤ (walk m ls n).1
  | [], m, _ => Nat.le_refl m
  | l :: ls, m, n => by
      rw [walk]
      split
      · exact Nat.le_refl m
      · exact Nat.le_trans (Nat.le_succ m) (le_walk_fst ls (m + 1) (n - l))

theorem daysInto_walk : ∀ (ls : List Nat) (m n : Nat),
    daysInto m ls (walk m ls n).1 (walk m ls n).2 = n
  | [], _, _ => rfl
  | l :: ls, m, n => by
      by_cases h : n < l
      · simp [walk, daysInto, h]
      · have hm : (walk (m + 1) ls (n - l)).1 ≠ m := by
          have := le_walk_fst ls (m + 1) (n - l)
          omega
        have ih := daysInto_walk ls (m + 1) (n - l)
        simp only [walk, daysInto, if_neg h, if_neg hm, ih]
        omega

/-- Walking further reaches a later month, or a later day of the same month. -/
theorem walk_lt : ∀ (ls : List Nat) (m : Nat) {n n' : Nat}, n < n' →
    (walk m ls n).1 < (walk m ls n').1 ∨
      (walk m ls n).1 = (walk m ls n').1 ∧ (walk m ls n).2 < (walk m ls n').2
  | [], _, _, _, h => Or.inr ⟨rfl, Nat.succ_lt_succ h⟩
  | l :: ls, m, n, n', h => by
      by_cases hl : n < l
      · by_cases hl' : n' < l
        · simp [walk, hl, hl', h]
        · have := le_walk_fst ls (m + 1) (n' - l)
          simp only [walk, if_pos hl, if_neg hl']
          omega
      · have hl' : ¬ n' < l := by omega
        simp only [walk, if_neg hl, if_neg hl']
        exact walk_lt ls (m + 1) (by omega)

/-- A walk of less than the total length ends in one of the months, on one of its days. -/
theorem walk_spec : ∀ (ls : List Nat) (m : Nat) {n : Nat}, n < ls.sum →
    ∃ i l, ls[i]? = some l ∧ (walk m ls n).1 = m + i ∧ 1 ≤ (walk m ls n).2 ∧
      (walk m ls n).2 ≤ l
  | [], _, _, h => by simp at h
  | l :: ls, m, n, h => by
      by_cases hl : n < l
      · rw [walk, if_pos hl]
        exact ⟨0, l, rfl, rfl, Nat.succ_pos n, Nat.succ_le_of_lt hl⟩
      · rw [List.sum_cons] at h
        obtain ⟨i, l', hi, hm, h1, h2⟩ := walk_spec ls (m + 1) (n := n - l) (by omega)
        simp only [walk, if_neg hl]
        exact ⟨i + 1, l', by simpa using hi, by omega, h1, h2⟩

theorem daysInto_lt : ∀ (ls : List Nat) (m : Nat) {i l day : Nat}, ls[i]? = some l →
    1 ≤ day → day ≤ l → daysInto m ls (m + i) day < ls.sum
  | [], _, _, _, _, h, _, _ => by simp at h
  | l' :: ls, m, 0, l, day, h, h1, h2 => by
      have hl : l' = l := by simpa using h
      simp only [daysInto, Nat.add_zero, if_pos, List.sum_cons]
      omega
  | l' :: ls, m, i + 1, l, day, h, h1, h2 => by
      have ih := daysInto_lt ls (m + 1) (by simpa using h) h1 h2
      rw [show m + 1 + i = m + (i + 1) by omega] at ih
      rw [daysInto, if_neg (by omega), List.sum_cons]
      omega

/-- Walking to a day of a month reaches it. -/
theorem walk_daysInto : ∀ (ls : List Nat) (m : Nat) {i l day : Nat}, ls[i]? = some l →
    1 ≤ day → day ≤ l → walk m ls (daysInto m ls (m + i) day) = (m + i, day)
  | [], _, _, _, _, h, _, _ => by simp at h
  | l' :: ls, m, 0, l, day, h, h1, h2 => by
      have hl : l' = l := by simpa using h
      have hlt : day - 1 < l' := by omega
      simp only [daysInto, Nat.add_zero, if_pos, walk, if_pos hlt]
      congr 1
      omega
  | l' :: ls, m, i + 1, l, day, h, h1, h2 => by
      have hi : ls[i]? = some l := by simpa using h
      have hne : m + (i + 1) ≠ m := by omega
      have ih := walk_daysInto ls (m + 1) hi h1 h2
      rw [show m + 1 + i = m + (i + 1) by omega] at ih
      have hge : ¬ l' + daysInto (m + 1) ls (m + (i + 1)) day < l' := by omega
      rw [daysInto, if_neg hne, walk, if_neg hge, Nat.add_sub_cancel_left, ih]

theorem sum_monthLengths (leap : Bool) : (monthLengths leap).sum = yearLength leap := by
  cases leap <;> rfl

/-! ## Dates -/

/-- A calendar date. -/
structure Date where
  year : Int
  month : Nat
  day : Nat
deriving DecidableEq, Repr

/-- The length of a month, if the year has it. -/
def monthLength? (year : Int) (month : Nat) : Option Nat :=
  if month = 0 then none else (monthLengths (isLeap year))[month - 1]?

/-- The date exists. -/
def Date.Valid (t : Date) : Prop :=
  ∃ l ∈ monthLength? t.year t.month, 1 ≤ t.day ∧ t.day ≤ l

instance (t : Date) : Decidable t.Valid := by
  unfold Date.Valid
  infer_instance

/-- The date of a day. -/
def ofDay (d : Int) : Date :=
  let y := yearOf d
  let p := walk 1 (monthLengths (isLeap y)) (d - daysBeforeYear y).toNat
  ⟨y, p.1, p.2⟩

/-- The day of a date. -/
def toDay (t : Date) : Int :=
  daysBeforeYear t.year + daysInto 1 (monthLengths (isLeap t.year)) t.month t.day

/-- No month number and no day number has three digits. -/
theorem Date.month_day_lt {t : Date} (h : t.Valid) : t.month < 100 ∧ t.day < 100 := by
  obtain ⟨l, hl, -, hle⟩ := h
  rw [Option.mem_def, monthLength?] at hl
  split at hl
  · cases hl
  · obtain ⟨hi, hget⟩ := List.getElem?_eq_some_iff.mp hl
    have h31 : ∀ leap, ∀ k ∈ monthLengths leap, k ≤ 31 := by decide
    have hl31 := h31 _ l (hget ▸ List.getElem_mem hi)
    have hlen : (monthLengths (isLeap t.year)).length = 12 := by
      cases isLeap t.year <;> rfl
    omega

theorem dayOfYear_lt (d : Int) :
    (d - daysBeforeYear (yearOf d)).toNat < yearLength (isLeap (yearOf d)) := by
  obtain ⟨hl, hh⟩ := daysBeforeYear_yearOf d
  rw [daysBeforeYear_succ] at hh
  omega

theorem ofDay_valid (d : Int) : (ofDay d).Valid := by
  have hlt := dayOfYear_lt d
  rw [← sum_monthLengths] at hlt
  obtain ⟨i, l, hi, hm, h1, h2⟩ := walk_spec _ 1 hlt
  refine ⟨l, ?_, h1, h2⟩
  rw [Option.mem_def, monthLength?, if_neg (by simp only [ofDay]; omega), ← hi]
  congr 1
  simp only [ofDay]
  omega

@[simp] theorem toDay_ofDay (d : Int) : toDay (ofDay d) = d := by
  have h := (daysBeforeYear_yearOf d).1
  simp only [toDay, ofDay, daysInto_walk]
  omega

theorem ofDay_toDay {t : Date} (h : t.Valid) : ofDay (toDay t) = t := by
  obtain ⟨l, hl, h1, h2⟩ := h
  obtain ⟨y, m, day⟩ := t
  simp only [Option.mem_def] at hl h1 h2
  have hm : m ≠ 0 := by
    intro hm
    rw [monthLength?, if_pos hm] at hl
    cases hl
  rw [monthLength?, if_neg hm] at hl
  have hw := walk_daysInto (monthLengths (isLeap y)) 1 hl h1 h2
  have hin := daysInto_lt (monthLengths (isLeap y)) 1 hl h1 h2
  rw [show 1 + (m - 1) = m by omega] at hw hin
  rw [sum_monthLengths] at hin
  have hy : yearOf (toDay ⟨y, m, day⟩) = y := by
    refine yearOf_eq ?_ ?_
    · simp only [toDay]
      omega
    · rw [daysBeforeYear_succ]
      simp only [toDay]
      omega
  simp only [ofDay, hy]
  simp only [toDay, add_sub_cancel_left, Int.toNat_natCast, hw]

/-- A later day has a later date. -/
theorem ofDay_lt {d e : Int} (h : d < e) :
    (ofDay d).year < (ofDay e).year ∨
      (ofDay d).year = (ofDay e).year ∧
        ((ofDay d).month < (ofDay e).month ∨
          (ofDay d).month = (ofDay e).month ∧ (ofDay d).day < (ofDay e).day) := by
  rcases lt_or_eq_of_le (yearOf_mono h.le) with hlt | heq
  · exact Or.inl hlt
  · refine Or.inr ⟨heq, ?_⟩
    simp only [ofDay, heq]
    refine walk_lt _ 1 ?_
    have := (daysBeforeYear_yearOf d).1
    rw [heq] at this
    omega

end Calendar
