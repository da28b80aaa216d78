import Tempcheck.Library.JsonValue

/-!
# The numbers of JSON

Reading the number of a literal that is a natural number.  Its digits are a literal, and it is
read back from them.
-/

namespace Json

open DecimalText (IsDigit)

/-! ## Natural numbers -/

/-- The number that some digits write. -/
def readNat? (cs : List Char) : Option Nat :=
  if cs ≠ [] ∧ cs.all (IsDigit ·) then some (Nat.ofDigitChars 10 cs 0) else none

theorem isDigit_iff {c : Char} : IsDigit c ↔ c.isDigit = true := by
  rw [Char.isDigit_iff_toNat]
  rfl

theorem isDigit_of_mem_repr {n : Nat} {c : Char} (h : c ∈ n.repr.toList) : IsDigit c := by
  rw [Nat.toList_repr] at h
  exact isDigit_iff.mpr (Nat.isDigit_of_mem_toDigits (by decide) (by decide) h)

theorem repr_ne_nil (n : Nat) : n.repr.toList ≠ [] := by
  rw [Nat.toList_repr]
  exact Nat.toDigits_ne_nil

theorem readNat?_digits {cs : List Char} (hne : cs ≠ []) (h : ∀ c ∈ cs, IsDigit c) :
    readNat? cs = some (Nat.ofDigitChars 10 cs 0) :=
  if_pos ⟨hne, List.all_eq_true.mpr fun c hc => decide_eq_true (h c hc)⟩

theorem readNat?_repr (n : Nat) : readNat? n.repr.toList = some n := by
  rw [readNat?_digits (repr_ne_nil n) fun _ => isDigit_of_mem_repr, Nat.toList_repr,
    Nat.ofDigitChars_ten_toDigits]

/-! ## Literals -/

theorem accepts_digits {at_ : NumberAt} (hat : ∀ c, IsDigit c → at_.next c = some at_) :
    ∀ {ds : List Char}, (∀ d ∈ ds, IsDigit d) → at_.accepts ds = at_.accepts []
  | [], _ => rfl
  | d :: ds, h => by
      obtain ⟨hd, hds⟩ := List.forall_mem_cons.mp h
      refine Eq.trans ?_ (accepts_digits hat hds)
      rw [NumberAt.accepts, hat d hd, Option.any_some]

/-- The first digit of a number is zero for zero only. -/
theorem repr_head (n : Nat) : n.repr.toList = ['0'] ∨
    ∃ c cs, n.repr.toList = c :: cs ∧ c ≠ '0' ∧ ∀ d ∈ c :: cs, IsDigit d := by
  induction n using Nat.strongRecOn with
  | ind n ih =>
      by_cases hn : n < 10
      · rw [Nat.repr_of_lt hn, String.toList_singleton]
        rcases Nat.eq_zero_or_pos n with rfl | hpos
        · exact Or.inl rfl
        · have hne : ∀ m < 10, 0 < m → Nat.digitChar m ≠ '0' ∧ IsDigit (Nat.digitChar m) := by
            decide
          obtain ⟨hzero, hdigit⟩ := hne n hn hpos
          exact Or.inr ⟨_, [], rfl, hzero, List.forall_mem_singleton.mpr hdigit⟩
      · have hge : 10 ≤ n := Nat.le_of_not_lt hn
        rcases ih (n / 10) (by omega) with hzero | ⟨c, cs, heq, hne, hall⟩
        · exact absurd (Option.some.inj ((readNat?_repr (n / 10)).symm.trans
            (congrArg readNat? hzero))) (by
              have hval : Nat.ofDigitChars 10 ['0'] 0 = 0 := rfl
              omega)
        · refine Or.inr ⟨c, cs ++ [Nat.digitChar (n % 10)], ?_, hne, ?_⟩
          · rw [Nat.repr_of_ge hge, String.toList_append, heq, String.toList_singleton]
            rfl
          · refine List.forall_mem_append.mpr ⟨hall, List.forall_mem_singleton.mpr ?_⟩
            have hdigit : ∀ m < 10, IsDigit (Nat.digitChar m) := by decide
            exact hdigit _ (Nat.mod_lt n (by decide))

theorem isNumber_repr (n : Nat) : isNumber n.repr.toList = true := by
  rcases repr_head n with heq | ⟨c, ds, heq, hne, hall⟩
  · rw [heq]
    rfl
  · obtain ⟨hc, hds⟩ := List.forall_mem_cons.mp hall
    have hminus : c ≠ '-' := by
      rintro rfl
      exact absurd hc (by decide)
    have hnext : NumberAt.start.next c = some .whole := by
      simp [NumberAt.next, hminus, hne, hc]
    have hwhole : NumberAt.whole.accepts ds = true :=
      accepts_digits (fun d hd => by simp [NumberAt.next, hd]) hds
    rw [heq, isNumber, NumberAt.accepts, hnext, Option.any_some, hwhole]

/-- The digits of a number are a literal. -/
theorem isLiteral_repr (n : Nat) : isLiteral n.repr.toList = true := by
  rw [isLiteral, isNumber_repr, Bool.or_true]

end Json
