import Tempcheck.Chrono.Rfc3339

/-!
# An RFC 3339 parser

An executable parser of the RFC 3339 grammar.  It reads the fields one by one, takes any
number of fractional digits, of which nine count, and subtracts the offset.  With
`Rfc3339.render` it meets the laws of `Chrono` (`Rfc3339.chrono`), so the laws are
consistent and the model can be run.
-/

namespace Tempcheck

open DecimalText

/-- A local time at an offset of whole minutes, as UTC. -/
def DateTime.subOffset (t : DateTime) (minutes : Int) : DateTime where
  dayNumber := (t.dayNumber * 86400 + t.secs - minutes * 60) / 86400
  secs := ((t.dayNumber * 86400 + t.secs - minutes * 60) % 86400).toNat
  nano := t.nano
  secs_lt := by omega
  nano_lt := t.nano_lt
  leap := by
    intro h
    have := t.leap h
    omega

theorem DateTime.subOffset_zero (t : DateTime) : t.subOffset 0 = t := by
  have hs := t.secs_lt
  have hday : (t.dayNumber * 86400 + t.secs - 0 * 60) / 86400 = t.dayNumber := by omega
  have hsecs : ((t.dayNumber * 86400 + t.secs - 0 * 60) % 86400).toNat = t.secs := by omega
  exact DateTime.key_injective (by simp only [DateTime.key, DateTime.subOffset, hday, hsecs])

namespace Rfc3339

/-! ## Fields -/

/-- A number of exactly `w` digits. -/
def number (w : Nat) (cs : List Char) : Option (Nat × List Char) :=
  if (cs.take w).length = w ∧ (cs.take w).all (IsDigit ·) then
    some (padded w (cs.take w), cs.drop w)
  else none

/-- One of the given characters. -/
def oneOf (expected : List Char) : List Char → Option (List Char)
  | [] => none
  | c :: cs => if c ∈ expected then some cs else none

/-- The longest run of digits. -/
def digits : List Char → List Char × List Char
  | [] => ([], [])
  | c :: cs => if IsDigit c then (c :: (digits cs).1, (digits cs).2) else ([], c :: cs)

/-- The fraction of a second, which may be absent but not empty. -/
def fraction : List Char → Option (List Char × List Char)
  | '.' :: cs => if (digits cs).1 = [] then none else some (digits cs)
  | cs => some ([], cs)

/-- Two numbers of two digits, separated by `sep`. -/
def pair (sep : Char) (cs : List Char) : Option ((Nat × Nat) × List Char) := do
  let (a, cs) ← number 2 cs
  let cs ← oneOf [sep] cs
  let (b, cs) ← number 2 cs
  some ((a, b), cs)

/-- The offset in minutes, up to the end of the text. -/
def offset : List Char → Option Int
  | [] => none
  | c :: cs =>
      if cs = [] ∧ (c = 'Z' ∨ c = 'z') then some 0
      else if c = '+' ∨ c = '-' then do
        let ((hours, minutes), cs) ← pair ':' cs
        if cs = [] ∧ hours < 24 ∧ minutes < 60 then
          some (if c = '-' then -(hours * 60 + minutes : Int) else hours * 60 + minutes)
        else none
      else none

/-- The instant of an RFC 3339 text. -/
def parse (cs : List Char) : Option DateTime := do
  let (year, cs) ← number 4 cs
  let cs ← oneOf ['-'] cs
  let ((month, day), cs) ← pair '-' cs
  let cs ← oneOf ['T', 't', ' '] cs
  let ((hour, minute), cs) ← pair ':' cs
  let cs ← oneOf [':'] cs
  let (second, cs) ← number 2 cs
  let (frac, cs) ← fraction cs
  let minutes ← offset cs
  let t ← DateTime.ofFields? year month day hour minute second (padded 9 frac)
  some (t.subOffset minutes)

/-! ## Reading what is written -/

theorem number_fixed {w n : Nat} (h : n < 10 ^ w) (r : List Char) :
    number w (fixed w n ++ r) = some (n, r) := by
  have htake : (fixed w n ++ r).take w = fixed w n := List.take_left' (length_fixed w n)
  have hdrop : (fixed w n ++ r).drop w = r := List.drop_left' (length_fixed w n)
  have hall : (fixed w n).all (IsDigit ·) = true :=
    List.all_eq_true.mpr fun _ hc => decide_eq_true (isDigit_of_mem_fixed hc)
  rw [number, htake, hdrop, if_pos ⟨length_fixed w n, hall⟩, padded_fixed_of_lt h]

theorem oneOf_cons {expected : List Char} {c : Char} (h : c ∈ expected) (cs : List Char) :
    oneOf expected (c :: cs) = some cs := if_pos h

theorem pair_fixed {a b : Nat} (ha : a < 10 ^ 2) (hb : b < 10 ^ 2) {sep : Char}
    (r : List Char) : pair sep (fixed 2 a ++ sep :: (fixed 2 b ++ r)) = some ((a, b), r) := by
  rw [pair, number_fixed ha]
  simp only [Option.bind_eq_bind, Option.bind_some, oneOf_cons (List.mem_cons_self ..)]
  rw [number_fixed hb]
  rfl

theorem digits_append {ds : List Char} (h : ∀ c ∈ ds, IsDigit c) {s : Char}
    (hs : ¬ IsDigit s) (r : List Char) : digits (ds ++ s :: r) = (ds, s :: r) := by
  induction ds with
  | nil => exact if_neg hs
  | cons c ds ih =>
      have hds := ih fun d hd => h d (List.mem_cons_of_mem _ hd)
      rw [List.cons_append, digits, if_pos (h c (List.mem_cons_self ..)), hds]

theorem fraction_fracText {frac : List Char} (h : ∀ c ∈ frac, IsDigit c) (r : List Char) :
    fraction (fracText frac ++ '+' :: r) = some (frac, '+' :: r) := by
  cases frac with
  | nil => rfl
  | cons d ds =>
      have hdig := digits_append h (s := '+') (by decide) r
      rw [fracText, List.cons_append, fraction, hdig]
      exact if_neg (List.cons_ne_nil d ds)

/-- Fields that make an instant have at most two digits each. -/
theorem field_bounds {year : Int} {month day hour minute second nano : Nat} {t : DateTime}
    (h : DateTime.ofFields? year month day hour minute second nano = some t) :
    month < 10 ^ 2 ∧ day < 10 ^ 2 ∧ hour < 10 ^ 2 ∧ minute < 10 ^ 2 ∧ second < 10 ^ 2 := by
  obtain ⟨hdate, rfl, rfl, rfl, -⟩ := DateTime.fields_of_ofFields? h
  obtain ⟨hmo, hd⟩ := Calendar.Date.month_day_lt t.date_valid
  have hh := t.hour_lt
  have hm := t.minute_lt
  have hs := t.second_le
  rw [hdate] at hmo hd
  exact ⟨hmo, hd, by omega, by omega, by omega⟩

theorem parse_fieldsText {y month day hour minute second : Nat} {frac : List Char}
    {t : DateTime} (hy : y ≤ 9999) (hfrac : ∀ c ∈ frac, IsDigit c)
    (h : DateTime.ofFields? y month day hour minute second (padded 9 frac) = some t) :
    parse (fieldsText (fixed 4 y) month day hour minute second frac) = some t := by
  obtain ⟨hmo, hd, hh, hm, hs⟩ := field_bounds h
  have hoff : offset ['+', '0', '0', ':', '0', '0'] = some 0 := by decide
  have hdash : '-' ∈ ['-'] := List.mem_cons_self ..
  have hsep : 'T' ∈ ['T', 't', ' '] := List.mem_cons_self ..
  have hcolon : ':' ∈ [':'] := List.mem_cons_self ..
  rw [parse, fieldsText, number_fixed (show y < 10 ^ 4 by omega)]
  simp only [Option.bind_eq_bind, Option.bind_some, oneOf_cons hdash]
  rw [pair_fixed hmo hd]
  simp only [Option.bind_some, oneOf_cons hsep]
  rw [pair_fixed hh hm]
  simp only [Option.bind_some, oneOf_cons hcolon]
  rw [number_fixed hs]
  simp only [Option.bind_some]
  rw [fraction_fracText hfrac]
  simp only [Option.bind_some, hoff, h, t.subOffset_zero]

theorem parse_sign {c : Char} {cs : List Char} (hc : c = '+' ∨ c = '-') :
    parse (c :: cs) = none := by
  have hdig : ¬ IsDigit c := by
    rcases hc with rfl | rfl <;> decide
  have hnum : number 4 (c :: cs) = none := by
    rw [number, if_neg]
    rintro ⟨-, hall⟩
    exact hdig (of_decide_eq_true (List.all_eq_true.mp hall c (by simp)))
  simp only [parse, hnum, Option.bind_eq_bind, Option.bind_none]

/-- Rendering and parsing by the grammar. -/
instance chrono : Chrono where
  toRfc3339 t := String.ofList (render t)
  parseFromRfc3339 s := (parse s.toList).elim (.error "input is out of range") .ok
  toRfc3339_eq _ := rfl
  parse_fields hy hfrac h := by rw [String.toList_ofList, parse_fieldsText hy hfrac h]; rfl
  parse_signed hc := ⟨_, by rw [String.toList_ofList, parse_sign hc]; rfl⟩

end Rfc3339

end Tempcheck
