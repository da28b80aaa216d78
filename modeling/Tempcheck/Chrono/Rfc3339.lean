import Tempcheck.Chrono.DateTime
import Tempcheck.Library.DecimalText

/-!
# RFC 3339 text

`DateTime::to_rfc3339` and `DateTime::parse_from_rfc3339` are library code, so they are a
parameter: `Chrono` holds the two functions and what chrono documents of them.  The
rendering is the RFC 3339 text of the calendar fields with 0, 3, 6 or 9 fractional
digits, the fewest that show the instant exactly.  A year outside `0..=9999` is written
with a sign.  The parser reads every UTC text of the grammar, whatever the number of
fractional digits, and rejects a signed year.

Two facts follow for any such `Chrono`.  `parse_toRfc3339` says that parsing undoes
rendering.  `toRfc3339_le_iff` says that the texts of two instants of years `0..=9999`
are ordered as the instants are.  The second rests on two comparisons of characters: the
offset sign is below the fraction point, and both are below every digit.

`Rfc3339.parse` is an executable parser that meets the laws.
-/

namespace Tempcheck

open Calendar (Date)
open DecimalText

namespace Rfc3339

/-! ## The text -/

/-- The year, with the sign that ISO 8601 asks for outside four digits. -/
def yearText (y : Int) : List Char :=
  if 0 ≤ y ∧ y ≤ 9999 then fixed 4 y.toNat
  else (if y < 0 then '-' else '+') ::
    (if y.natAbs < 10000 then fixed 4 y.natAbs else Nat.toDigits 10 y.natAbs)

/-- The fraction of a second, if any digit is written. -/
def fracText : List Char → List Char
  | [] => []
  | d :: ds => '.' :: d :: ds

/-- A UTC text of given fields, with the offset written as chrono writes it. -/
def fieldsText (year : List Char) (month day hour minute second : Nat) (frac : List Char) :
    List Char :=
  year ++ '-' :: (fixed 2 month ++ '-' :: (fixed 2 day ++ 'T' :: (fixed 2 hour ++
    ':' :: (fixed 2 minute ++ ':' :: (fixed 2 second ++ (fracText frac ++
      ['+', '0', '0', ':', '0', '0']))))))

/-- The fractional digits of `SecondsFormat::AutoSi`. -/
def autoSi (n : Nat) : List Char :=
  if n = 0 then []
  else if n % 1000000 = 0 then fixed 3 (n / 1000000)
  else if n % 1000 = 0 then fixed 6 (n / 1000)
  else fixed 9 n

/-- The text of an instant. -/
def render (t : DateTime) : List Char :=
  fieldsText (yearText t.year) t.date.month t.date.day t.hour t.minute t.second
    (autoSi t.subsec)

theorem isDigit_of_mem_autoSi {n : Nat} {c : Char} (h : c ∈ autoSi n) : IsDigit c := by
  rw [autoSi] at h
  split at h
  · cases h
  · split at h
    · exact isDigit_of_mem_fixed h
    · split at h <;> exact isDigit_of_mem_fixed h

/-- The fractional digits denote the nanoseconds. -/
theorem padded_autoSi {n : Nat} (h : n < nanosPerSec) : padded 9 (autoSi n) = n := by
  rw [nanosPerSec] at h
  rw [autoSi]
  split
  next h0 => rw [h0]; rfl
  next =>
    split
    next h6 =>
      rw [padded_fixed_of_le _ (by decide), Nat.mod_eq_of_lt (by omega)]
      omega
    next =>
      split
      next h3 =>
        rw [padded_fixed_of_le _ (by decide), Nat.mod_eq_of_lt (by omega)]
        omega
      next => exact padded_fixed_of_lt (by omega)

end Rfc3339

/-! ## The library interface -/

/-- `to_rfc3339`, and `parse_from_rfc3339` followed by `with_timezone(&Utc)`, which fails
with the text of its error. -/
class Chrono where
  toRfc3339 : DateTime → String
  parseFromRfc3339 : String → Except String DateTime
  /-- The rendering is the RFC 3339 text of the instant. -/
  toRfc3339_eq : ∀ t, toRfc3339 t = String.ofList (Rfc3339.render t)
  /-- A UTC text of four-digit year is read as its fields. -/
  parse_fields : ∀ {y month day hour minute second : Nat} {frac : List Char} {t : DateTime},
    y ≤ 9999 → (∀ c ∈ frac, IsDigit c) →
    DateTime.ofFields? y month day hour minute second (padded 9 frac) = some t →
    parseFromRfc3339 (String.ofList
      (Rfc3339.fieldsText (fixed 4 y) month day hour minute second frac)) = .ok t
  /-- A year starts with a digit. -/
  parse_signed : ∀ {c : Char} {cs : List Char}, c = '+' ∨ c = '-' →
    ∃ e, parseFromRfc3339 (String.ofList (c :: cs)) = .error e

export Chrono (toRfc3339 parseFromRfc3339)

/-- The years the text order and the parser cover. -/
def DateTime.FourDigitYear (t : DateTime) : Prop := 0 ≤ t.year ∧ t.year ≤ 9999

instance (t : DateTime) : Decidable t.FourDigitYear := inferInstanceAs (Decidable (_ ∧ _))

namespace Rfc3339

theorem yearText_of_fourDigit {y : Int} (h : 0 ≤ y ∧ y ≤ 9999) :
    yearText y = fixed 4 y.toNat := if_pos h

/-- Outside four digits the text starts with a sign. -/
theorem yearText_of_not_fourDigit {y : Int} (h : ¬ (0 ≤ y ∧ y ≤ 9999)) :
    ∃ c cs, (c = '+' ∨ c = '-') ∧ yearText y = c :: cs := by
  rw [yearText, if_neg h]
  by_cases hneg : y < 0
  · exact ⟨'-', _, Or.inr rfl, by rw [if_pos hneg]⟩
  · exact ⟨'+', _, Or.inl rfl, by rw [if_neg hneg]⟩

/-! ## The order of the texts -/

/-- The texts of two fractions of the same second. -/
theorem fracText_lt {n m : Nat} (hn : n < nanosPerSec) (hm : m < nanosPerSec) (h : n < m)
    (r r' : List Char) :
    fracText (autoSi n) ++ '+' :: r < fracText (autoSi m) ++ '+' :: r' := by
  have hpad : padded 9 (autoSi n) < padded 9 (autoSi m) := by
    rwa [padded_autoSi hn, padded_autoSi hm]
  have hdig : ∀ {k : Nat}, ∀ c ∈ autoSi k, IsDigit c := fun _ => isDigit_of_mem_autoSi
  have hlt := frac_append_lt (s := '+') (by decide) hdig hdig hpad r ('+' :: r')
  cases hm' : autoSi m with
  | nil => rw [hm', padded_nil] at hpad; omega
  | cons d ds =>
      cases hn' : autoSi n with
      | nil => exact List.cons_lt_cons_iff.mpr (Or.inl (by decide))
      | cons c cs =>
          rw [hn', hm'] at hlt
          exact List.cons_lt_cons_iff.mpr (Or.inr ⟨rfl, hlt⟩)

/-- Texts of four-digit years are strictly monotone in the instant. -/
theorem render_lt {t u : DateTime} (ht : t.FourDigitYear) (hu : u.FourDigitYear)
    (h : t < u) : render t < render u := by
  have htm := Calendar.Date.month_day_lt t.date_valid
  have hum := Calendar.Date.month_day_lt u.date_valid
  rw [render, render, yearText_of_fourDigit ht, yearText_of_fourDigit hu, fieldsText,
    fieldsText]
  obtain ⟨ht0, ht9⟩ := ht
  obtain ⟨hu0, hu9⟩ := hu
  -- the texts agree up to the first field that differs, and that field decides
  rcases DateTime.lt_fields h with hy | ⟨hy, h⟩
  · exact fixed_append_lt (by omega) (by omega) _ _
  rw [hy]
  refine append_lt_append_left (List.cons_lt_cons_iff.mpr (Or.inr ⟨rfl, ?_⟩)) _
  rcases h with hmo | ⟨hmo, h⟩
  · exact fixed_append_lt (by omega) hmo _ _
  rw [hmo]
  refine append_lt_append_left (List.cons_lt_cons_iff.mpr (Or.inr ⟨rfl, ?_⟩)) _
  rcases h with hd | ⟨hd, h⟩
  · exact fixed_append_lt (by omega) hd _ _
  rw [hd]
  refine append_lt_append_left (List.cons_lt_cons_iff.mpr (Or.inr ⟨rfl, ?_⟩)) _
  rcases h with hh | ⟨hh, h⟩
  · exact fixed_append_lt (u.hour_lt.trans (by decide)) hh _ _
  rw [hh]
  refine append_lt_append_left (List.cons_lt_cons_iff.mpr (Or.inr ⟨rfl, ?_⟩)) _
  rcases h with hmi | ⟨hmi, h⟩
  · exact fixed_append_lt (u.minute_lt.trans (by decide)) hmi _ _
  rw [hmi]
  refine append_lt_append_left (List.cons_lt_cons_iff.mpr (Or.inr ⟨rfl, ?_⟩)) _
  rcases h with hs | ⟨hs, h⟩
  · exact fixed_append_lt (u.second_le.trans_lt (by decide)) hs _ _
  rw [hs]
  exact append_lt_append_left (fracText_lt t.subsec_lt u.subsec_lt h _ _) _

/-- A signed year sorts before every four-digit year. -/
theorem render_lt_of_not_fourDigit {t u : DateTime} (ht : ¬ t.FourDigitYear)
    (hu : u.FourDigitYear) : render t < render u := by
  obtain ⟨c, cs, hc, heq⟩ := yearText_of_not_fourDigit ht
  rw [render, render, heq, yearText_of_fourDigit hu]
  refine List.cons_lt_cons_iff.mpr (Or.inl ?_)
  have hdigit := (isDigit_digit (u.year.toNat / 10 ^ 3)).1
  rw [char_lt_iff]
  rcases hc with rfl | rfl
  · exact Nat.lt_of_lt_of_le (by decide) hdigit
  · exact Nat.lt_of_lt_of_le (by decide) hdigit

end Rfc3339

section

variable [Chrono]

/-- Parsing undoes rendering on four-digit years. -/
theorem parse_toRfc3339 {t : DateTime} (h : t.FourDigitYear) :
    parseFromRfc3339 (toRfc3339 t) = .ok t := by
  rw [Chrono.toRfc3339_eq, Rfc3339.render, Rfc3339.yearText_of_fourDigit h]
  refine Chrono.parse_fields (by have := h.2; omega)
    (fun _ => Rfc3339.isDigit_of_mem_autoSi) ?_
  rw [Rfc3339.padded_autoSi t.subsec_lt, Int.toNat_of_nonneg h.1]
  exact t.ofFields?_fields

/-- Outside four-digit years the rendering is not read back. -/
theorem parse_toRfc3339_error {t : DateTime} (h : ¬ t.FourDigitYear) :
    ∃ e, parseFromRfc3339 (toRfc3339 t) = .error e := by
  obtain ⟨c, cs, hc, heq⟩ := Rfc3339.yearText_of_not_fourDigit h
  rw [Chrono.toRfc3339_eq, Rfc3339.render, heq]
  exact Chrono.parse_signed hc

/-- A text with a signed year is below every text of a four-digit year. -/
theorem toRfc3339_lt_of_not_fourDigit {t u : DateTime} (ht : ¬ t.FourDigitYear)
    (hu : u.FourDigitYear) : toRfc3339 t < toRfc3339 u := by
  rw [Chrono.toRfc3339_eq, Chrono.toRfc3339_eq, String.lt_iff_toList_lt, String.toList_ofList,
    String.toList_ofList]
  exact Rfc3339.render_lt_of_not_fourDigit ht hu

theorem toRfc3339_lt {t u : DateTime} (ht : t.year ≤ 9999) (hu : u.FourDigitYear)
    (h : t < u) : toRfc3339 t < toRfc3339 u := by
  by_cases h0 : 0 ≤ t.year
  · rw [Chrono.toRfc3339_eq, Chrono.toRfc3339_eq, String.lt_iff_toList_lt, String.toList_ofList,
      String.toList_ofList]
    exact Rfc3339.render_lt ⟨h0, ht⟩ hu h
  · exact toRfc3339_lt_of_not_fourDigit (fun h => h0 h.1) hu

/-- Text order is instant order.  The lower text may also be of a negative year. -/
theorem toRfc3339_le_iff {t u : DateTime} (ht : t.year ≤ 9999) (hu : u.FourDigitYear) :
    toRfc3339 t ≤ toRfc3339 u ↔ t ≤ u := by
  constructor
  · intro h
    by_contra hlt
    have hut : u < t := not_le.mp hlt
    have h0 : 0 ≤ t.year := hu.1.trans (DateTime.year_mono hut.le)
    exact absurd h (not_le.mpr (toRfc3339_lt hu.2 ⟨h0, ht⟩ hut))
  · intro h
    rcases lt_or_eq_of_le h with hlt | heq
    · exact (toRfc3339_lt ht hu hlt).le
    · rw [heq]

end

end Tempcheck
