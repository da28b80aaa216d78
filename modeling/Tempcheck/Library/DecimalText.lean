import Mathlib.Data.String.Basic
import Mathlib.Tactic.Ring

/-!
# Decimal digit text

Numbers written with a fixed number of decimal digits, and digit strings read as decimal
fractions.  A text is a list of characters, ordered character by character.

`fixed w n` writes the last `w` digits of `n`.  `padded k cs` reads the first `k` digits
of `cs`, padded with zeros on the right, so `padded k` reads a fraction in units of
`10 ^ (-k)`.  The two are inverse up to the padding (`padded_fixed`).

Two comparison rules carry the order of composite texts.  `fixed_append_lt` compares two
fields of equal width, whatever follows them.  `frac_append_lt` compares two digit
strings of any widths as the fractions they denote, when each is followed by a character
below every digit.
-/

namespace DecimalText

/-! ## Digits -/

/-- The character of a digit.  Only the last decimal place of `d` counts. -/
def digit (d : Nat) : Char := Nat.digitChar (d % 10)

/-- The value of a digit character. -/
def digitVal (c : Char) : Nat := c.toNat - 48

/-- A decimal digit character. -/
def IsDigit (c : Char) : Prop := 48 ≤ c.toNat ∧ c.toNat ≤ 57

instance (c : Char) : Decidable (IsDigit c) := inferInstanceAs (Decidable (_ ∧ _))

theorem digit_toNat (d : Nat) : (digit d).toNat = 48 + d % 10 :=
  Nat.toNat_digitChar_of_lt_ten (Nat.mod_lt d (by decide))

@[simp] theorem digitVal_digit (d : Nat) : digitVal (digit d) = d % 10 := by
  rw [digitVal, digit_toNat]
  omega

@[simp] theorem isDigit_digit (d : Nat) : IsDigit (digit d) := by
  rw [IsDigit, digit_toNat]
  omega

theorem char_lt_iff (c d : Char) : c < d ↔ c.toNat < d.toNat := by
  rw [Char.lt_def, UInt32.lt_iff_toNat_lt]
  rfl

theorem IsDigit.digitVal_lt {c : Char} (h : IsDigit c) : digitVal c < 10 := by
  obtain ⟨hlo, hhi⟩ := h
  rw [digitVal]
  omega

/-- Digits are ordered as their values. -/
theorem IsDigit.lt_iff {c d : Char} (hc : IsDigit c) (hd : IsDigit d) :
    c < d ↔ digitVal c < digitVal d := by
  obtain ⟨hc, -⟩ := hc
  obtain ⟨hd, -⟩ := hd
  rw [char_lt_iff, digitVal, digitVal]
  omega

theorem IsDigit.eq_of_val {c d : Char} (hc : IsDigit c) (hd : IsDigit d)
    (h : digitVal c = digitVal d) : c = d := by
  obtain ⟨hc, -⟩ := hc
  obtain ⟨hd, -⟩ := hd
  rw [digitVal, digitVal] at h
  exact Char.toNat_inj.mp (by omega)

/-! ## Writing and reading -/

/-- The last `w` decimal digits of `n`, most significant first. -/
def fixed : Nat → Nat → List Char
  | 0, _ => []
  | w + 1, n => digit (n / 10 ^ w) :: fixed w n

/-- The first `k` digits of a text as a number, padded with zeros on the right. -/
def padded : Nat → List Char → Nat
  | 0, _ => 0
  | _ + 1, [] => 0
  | k + 1, c :: cs => digitVal c * 10 ^ k + padded k cs

@[simp] theorem length_fixed : ∀ w n : Nat, (fixed w n).length = w
  | 0, _ => rfl
  | w + 1, n => by rw [fixed, List.length_cons, length_fixed w n]

theorem isDigit_of_mem_fixed : ∀ {w n : Nat} {c : Char}, c ∈ fixed w n → IsDigit c
  | 0, _, _, h => by cases h
  | w + 1, n, c, h => by
      cases List.mem_cons.mp h with
      | inl he => rw [he]; exact isDigit_digit _
      | inr hm => exact isDigit_of_mem_fixed hm

@[simp] theorem padded_nil : ∀ k : Nat, padded k [] = 0
  | 0 => rfl
  | _ + 1 => rfl

theorem padded_lt : ∀ (k : Nat) (cs : List Char), (∀ c ∈ cs, IsDigit c) → padded k cs < 10 ^ k
  | 0, _, _ => by simp [padded]
  | k + 1, [], _ => by simp
  | k + 1, c :: cs, h => by
      have hc := (h c (List.mem_cons_self ..)).digitVal_lt
      have ih := padded_lt k cs fun d hd => h d (List.mem_cons_of_mem _ hd)
      calc digitVal c * 10 ^ k + padded k cs
          < digitVal c * 10 ^ k + 10 ^ k := Nat.add_lt_add_left ih _
        _ = (digitVal c + 1) * 10 ^ k := by ring
        _ ≤ 10 * 10 ^ k := Nat.mul_le_mul_right _ hc
        _ = 10 ^ (k + 1) := by ring

/-- Reading `w` digits of `n` in a field of `k` places shifts them to the left end. -/
theorem padded_fixed_of_le : ∀ {w k : Nat} (n : Nat), w ≤ k →
    padded k (fixed w n) = n % 10 ^ w * 10 ^ (k - w)
  | 0, k, n, _ => by simp [fixed, Nat.mod_one]
  | w + 1, 0, _, h => by omega
  | w + 1, k + 1, n, h => by
      have hle : w ≤ k := by omega
      have hpow : 10 ^ k = 10 ^ w * 10 ^ (k - w) := by rw [← pow_add]; congr 1; omega
      have hmod : n % 10 ^ (w + 1) = n / 10 ^ w % 10 * 10 ^ w + n % 10 ^ w := by
        rw [pow_succ, Nat.mod_mul, Nat.add_comm, Nat.mul_comm]
      rw [fixed, padded, digitVal_digit, padded_fixed_of_le n hle, hmod, hpow,
        Nat.add_sub_add_right]
      ring

theorem padded_fixed (w n : Nat) : padded w (fixed w n) = n % 10 ^ w := by
  rw [padded_fixed_of_le n (Nat.le_refl w), Nat.sub_self, pow_zero, Nat.mul_one]

theorem padded_fixed_of_lt {w n : Nat} (h : n < 10 ^ w) : padded w (fixed w n) = n := by
  rw [padded_fixed, Nat.mod_eq_of_lt h]

/-! ## Order -/

/-- A common beginning does not change the order of two texts. -/
theorem append_lt_append_left {s t : List Char} (h : s < t) : ∀ p : List Char, p ++ s < p ++ t
  | [] => h
  | _ :: p => List.cons_lt_cons_iff.mpr (Or.inr ⟨rfl, append_lt_append_left h p⟩)

/-- Digit strings are ordered as the decimal fractions they denote, if the shorter one
is followed by a character below every digit.  The induction is on the number of places
read. -/
theorem padded_append_lt {r r' : List Char} : ∀ {k : Nat} {cs ds : List Char},
    (∀ c ∈ cs, IsDigit c) → (∀ d ∈ ds, IsDigit d) →
    (cs.length < ds.length → ∃ s t, r = s :: t ∧ s.toNat < 48) →
    padded k cs < padded k ds → cs ++ r < ds ++ r'
  | 0, _, _, _, _, _, h => by simp [padded] at h
  | _ + 1, _, [], _, _, _, h => by simp at h
  | _ + 1, [], d :: ds, _, hds, hend, _ => by
      obtain ⟨s, t, rfl, hs⟩ := hend (by simp)
      refine List.cons_lt_cons_iff.mpr (Or.inl ?_)
      have hd := (hds d (List.mem_cons_self ..)).1
      rw [char_lt_iff]
      omega
  | k + 1, c :: cs, d :: ds, hcs, hds, hend, h => by
      have hc := hcs c (List.mem_cons_self ..)
      have hd := hds d (List.mem_cons_self ..)
      have hds' : ∀ x ∈ ds, IsDigit x := fun x hx => hds x (List.mem_cons_of_mem _ hx)
      rw [List.cons_append, List.cons_append, List.cons_lt_cons_iff, hc.lt_iff hd]
      rw [padded, padded] at h
      rcases Nat.lt_trichotomy (digitVal c) (digitVal d) with hlt | heq | hgt
      · exact Or.inl hlt
      · refine Or.inr ⟨hc.eq_of_val hd heq, padded_append_lt (k := k)
          (fun x hx => hcs x (List.mem_cons_of_mem _ hx)) hds' (fun hl => ?_) ?_⟩
        · exact hend (by simpa using hl)
        · rw [heq] at h
          omega
      · -- the first digit decides: the rest of `ds` reads below one unit of its place
        have hrest := padded_lt k ds hds'
        have hmul : (digitVal d + 1) * 10 ^ k ≤ digitVal c * 10 ^ k :=
          Nat.mul_le_mul_right _ hgt
        rw [Nat.add_mul, Nat.one_mul] at hmul
        omega

/-- Digit strings that end at a character below every digit are ordered as the decimal
fractions they denote. -/
theorem frac_append_lt {k : Nat} {cs ds : List Char} {s : Char} (hs : s.toNat < 48)
    (hcs : ∀ c ∈ cs, IsDigit c) (hds : ∀ d ∈ ds, IsDigit d) (h : padded k cs < padded k ds)
    (r r' : List Char) : cs ++ s :: r < ds ++ r' :=
  padded_append_lt hcs hds (fun _ => ⟨s, r, rfl, hs⟩) h

/-- Fields of equal width are ordered as the numbers they hold. -/
theorem fixed_append_lt {w a b : Nat} (hb : b < 10 ^ w) (h : a < b) (r r' : List Char) :
    fixed w a ++ r < fixed w b ++ r' := by
  refine padded_append_lt (k := w) (fun _ => isDigit_of_mem_fixed)
    (fun _ => isDigit_of_mem_fixed) (fun hl => ?_) ?_
  · simp at hl
  · rwa [padded_fixed_of_lt hb, padded_fixed_of_lt (h.trans hb)]

end DecimalText
