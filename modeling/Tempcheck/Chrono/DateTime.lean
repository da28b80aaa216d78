import Tempcheck.Library.Calendar
import Mathlib.Data.Prod.Lex
import Mathlib.Order.Lattice

/-!
# Instants

`DateTime` is `chrono::DateTime<Utc>`: a day, a second of the day and a count of
nanoseconds.  A leap second is the nanosecond count running past one second, and only the
last second of a minute can hold one.  The order is chrono's, first by day, then by
second, then by nanoseconds.

The calendar fields are those chrono prints.  The leap second shows as second `60`.
`ofFields?` is the reading of the fields, and `ofFields?_fields` and `fields_of_ofFields?`
say that the two are inverse.
`lt_fields` says a later instant has lexicographically later fields, which is all the
text order needs.

`addSeconds` is the sum of an instant and a duration of whole seconds.  It moves a leap
second out of the leap second first, as chrono does.  The instants of a clock that has no
leap seconds are counted in nanoseconds (`ofNanos`).
-/

namespace Tempcheck

open Calendar (Date ofDay toDay)

/-- The nanoseconds of one second. -/
abbrev nanosPerSec : Nat := 1000000000

/-- `DateTime<Utc>`. -/
structure DateTime where
  /-- Days since 1 January of year 1. -/
  dayNumber : Int
  /-- Seconds since midnight. -/
  secs : Nat
  /-- Nanoseconds, `nanosPerSec` and more in a leap second. -/
  nano : Nat
  secs_lt : secs < 86400
  nano_lt : nano < 2 * nanosPerSec
  leap : nanosPerSec ≤ nano → secs % 60 = 59
deriving DecidableEq

instance : Inhabited DateTime := ⟨0, 0, 0, by decide, by decide, by decide⟩

namespace DateTime

/-! ## Order -/

/-- What the order compares. -/
def key (t : DateTime) : Int ×ₗ Nat ×ₗ Nat := toLex (t.dayNumber, toLex (t.secs, t.nano))

theorem key_injective : Function.Injective key := by
  intro t u h
  obtain ⟨d, s, n, _, _, _⟩ := t
  obtain ⟨d', s', n', _, _, _⟩ := u
  simp only [key, toLex_inj, Prod.mk.injEq] at h
  obtain ⟨rfl, rfl, rfl⟩ := h
  rfl

instance : LinearOrder DateTime := LinearOrder.lift' key key_injective

theorem lt_iff {t u : DateTime} : t < u ↔ t.dayNumber < u.dayNumber ∨
    t.dayNumber = u.dayNumber ∧ (t.secs < u.secs ∨ t.secs = u.secs ∧ t.nano < u.nano) := by
  change key t < key u ↔ _
  simp [key, Prod.Lex.toLex_lt_toLex]

/-! ## Calendar fields -/

/-- The calendar date. -/
def date (t : DateTime) : Date := ofDay t.dayNumber

/-- The year of the date. -/
def year (t : DateTime) : Int := t.date.year

/-- The hour of the day. -/
def hour (t : DateTime) : Nat := t.secs / 3600

/-- The minute of the hour. -/
def minute (t : DateTime) : Nat := t.secs / 60 % 60

/-- The second as it is printed, `60` in a leap second. -/
def second (t : DateTime) : Nat := t.secs % 60 + t.nano / nanosPerSec

/-- The nanoseconds within the printed second. -/
def subsec (t : DateTime) : Nat := t.nano % nanosPerSec

/-- The fields of a UTC date and time, as chrono checks and stores them. -/
def ofFields? (year : Int) (month day hour minute second nano : Nat) : Option DateTime :=
  if h : (Date.mk year month day).Valid ∧ hour < 24 ∧ minute < 60 ∧ second ≤ 60 ∧
      nano < nanosPerSec then
    some {
      dayNumber := toDay ⟨year, month, day⟩
      secs := hour * 3600 + minute * 60 + min second 59
      nano := if second = 60 then nanosPerSec + nano else nano
      secs_lt := by omega
      nano_lt := by split <;> omega
      leap := by split <;> omega }
  else none

theorem hour_lt (t : DateTime) : t.hour < 24 := by
  have := t.secs_lt
  simp only [hour]
  omega

theorem minute_lt (t : DateTime) : t.minute < 60 := Nat.mod_lt _ (by decide)

theorem second_le (t : DateTime) : t.second ≤ 60 := by
  have := t.nano_lt
  simp only [second, nanosPerSec] at *
  omega

theorem subsec_lt (t : DateTime) : t.subsec < nanosPerSec := Nat.mod_lt _ (by decide)

theorem date_valid (t : DateTime) : t.date.Valid := Calendar.ofDay_valid _

theorem secs_of_fields (t : DateTime) :
    t.hour * 3600 + t.minute * 60 + min t.second 59 = t.secs := by
  have hnano := t.nano_lt
  have hleap := t.leap
  simp only [hour, minute, second, nanosPerSec] at *
  omega

theorem nano_of_fields (t : DateTime) :
    (if t.second = 60 then nanosPerSec + t.subsec else t.subsec) = t.nano := by
  have hnano := t.nano_lt
  have hleap := t.leap
  by_cases h : t.second = 60
  · rw [if_pos h]
    simp only [second, subsec, nanosPerSec] at *
    omega
  · rw [if_neg h]
    simp only [second, subsec, nanosPerSec] at *
    omega

/-- Reading the fields of an instant gives the instant. -/
theorem ofFields?_fields (t : DateTime) : ofFields? t.year t.date.month t.date.day
    t.hour t.minute t.second t.subsec = some t := by
  have hvalid : (Date.mk t.year t.date.month t.date.day).Valid := t.date_valid
  have hday : toDay ⟨t.year, t.date.month, t.date.day⟩ = t.dayNumber :=
    Calendar.toDay_ofDay t.dayNumber
  rw [ofFields?, dif_pos ⟨hvalid, t.hour_lt, t.minute_lt, t.second_le, t.subsec_lt⟩]
  exact congrArg some (key_injective (by
    simp only [key, hday, t.secs_of_fields, t.nano_of_fields]))

/-- An instant has the fields it was read from. -/
theorem fields_of_ofFields? {year : Int} {month day hour minute second nano : Nat}
    {t : DateTime} (h : ofFields? year month day hour minute second nano = some t) :
    t.date = ⟨year, month, day⟩ ∧ t.hour = hour ∧ t.minute = minute ∧ t.second = second ∧
      t.subsec = nano := by
  rw [ofFields?] at h
  split at h
  next hok =>
    obtain ⟨hdate, hh, hm, hs, hn⟩ := hok
    obtain rfl := Option.some.inj h
    have hn' : nano < 1000000000 := hn
    refine ⟨Calendar.ofDay_toDay hdate, ?_⟩
    simp only [DateTime.hour, DateTime.minute, DateTime.second, subsec, nanosPerSec]
    by_cases hleap : second = 60
    · simp only [if_pos hleap]
      omega
    · simp only [if_neg hleap]
      omega
  next => cases h

/-- A later instant has later fields. -/
theorem lt_fields {t u : DateTime} (h : t < u) :
    t.year < u.year ∨ t.year = u.year ∧
      (t.date.month < u.date.month ∨ t.date.month = u.date.month ∧
        (t.date.day < u.date.day ∨ t.date.day = u.date.day ∧
          (t.hour < u.hour ∨ t.hour = u.hour ∧
            (t.minute < u.minute ∨ t.minute = u.minute ∧
              (t.second < u.second ∨ t.second = u.second ∧ t.subsec < u.subsec))))) := by
  rcases lt_iff.mp h with hd | ⟨hd, ht⟩
  · rcases Calendar.ofDay_lt hd with hy | ⟨hy, hm | ⟨hm, hday⟩⟩
    · exact Or.inl hy
    · exact Or.inr ⟨hy, Or.inl hm⟩
    · exact Or.inr ⟨hy, Or.inr ⟨hm, Or.inl hday⟩⟩
  · have hdate : t.date = u.date := congrArg ofDay hd
    refine Or.inr ⟨congrArg Date.year hdate, Or.inr ⟨congrArg Date.month hdate,
      Or.inr ⟨congrArg Date.day hdate, ?_⟩⟩⟩
    have htl := t.leap
    have htn := t.nano_lt
    have hun := u.nano_lt
    simp only [hour, minute, second, subsec, nanosPerSec] at *
    omega

theorem year_mono {t u : DateTime} (h : t ≤ u) : t.year ≤ u.year := by
  rcases lt_or_eq_of_le h with hlt | heq
  · rcases lt_fields hlt with hy | ⟨hy, -⟩
    · exact hy.le
    · exact hy.le
  · exact (congrArg year heq).le

/-! ## Durations -/

/-- The instant `s` seconds after the start of day `0`. -/
def ofTimestamp (s : Int) (nano : Nat) (h : nano < nanosPerSec) : DateTime where
  dayNumber := s / 86400
  secs := (s % 86400).toNat
  nano := nano
  secs_lt := by omega
  nano_lt := by simp only [nanosPerSec] at *; omega
  leap := by omega

/-- `t + Duration::seconds(s)`. -/
def addSeconds (t : DateTime) (s : Int) : DateTime :=
  if s = 0 then t
  else ofTimestamp (t.dayNumber * 86400 + t.secs +
    (if s < 0 then ((t.nano / nanosPerSec : Nat) : Int) else 0) + s) t.subsec t.subsec_lt

/-- `t - Duration::hours(h)`. -/
def subHours (t : DateTime) (h : Int) : DateTime := t.addSeconds (-(h * 3600))

theorem addSeconds_lt (t : DateTime) {s : Int} (hs : s < 0) : t.addSeconds s < t := by
  have hsecs := t.secs_lt
  have hnano := t.nano_lt
  rw [addSeconds, if_neg (by omega), if_pos hs, lt_iff]
  simp only [ofTimestamp, subsec, nanosPerSec] at *
  omega

theorem subHours_lt (t : DateTime) {h : Int} (hh : 0 < h) : t.subHours h < t :=
  t.addSeconds_lt (by omega)

/-- The instant `n` nanoseconds after the start of day `0`. -/
def ofNanos (n : Int) : DateTime :=
  ofTimestamp (n / nanosPerSec) (n % nanosPerSec).toNat (by simp only [nanosPerSec]; omega)

theorem ofNanos_lt_iff {n m : Int} : ofNanos n < ofNanos m ↔ n < m := by
  rw [lt_iff]
  simp only [ofNanos, ofTimestamp, nanosPerSec]
  omega

theorem ofNanos_le_iff {n m : Int} : ofNanos n ≤ ofNanos m ↔ n ≤ m := by
  rw [← not_lt, ofNanos_lt_iff, not_lt]

theorem subHours_ofNanos (n : Int) {h : Int} (hh : 0 < h) :
    (ofNanos n).subHours h = ofNanos (n - h * 3600 * nanosPerSec) := by
  apply key_injective
  rw [subHours, addSeconds, if_neg (by omega), if_pos (by omega)]
  simp only [key, ofNanos, ofTimestamp, subsec, nanosPerSec, toLex_inj, Prod.mk.injEq]
  omega

end DateTime

end Tempcheck
