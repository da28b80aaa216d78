import Mathlib.Algebra.Order.Field.Basic
import Mathlib.Tactic.Linarith

/-!
# Nearest points

Positions in increasing order are given by a function of the index.  A loop that keeps the
best point so far, and takes a later one only if it is strictly nearer, finds the first
nearest point (`FirstNearest`, with its rule `FirstNearest.step`).  It is the point whose
midpoints with the earlier points are below the target, and those with the later points not.

So the first nearest point of a target is nearest to another target exactly if no midpoint of
neighbours separates the two, where the midpoint itself counts as below
(`FirstNearest.nearest_iff`).
-/

namespace Nearest

variable {K : Type*} [Field K] [LinearOrder K] [IsStrictOrderedRing K]

/-! ## Midpoints -/

/-- The lower of two positions is as near as the upper one up to their midpoint. -/
theorem abs_sub_le_iff {a b x : K} (h : a < b) : |a - x| ≤ |b - x| ↔ x ≤ (a + b) / 2 := by
  constructor
  · intro hle
    by_contra hx
    have hbx : |b - x| < x - a := abs_lt.mpr ⟨by linarith, by linarith⟩
    have hax : x - a ≤ |a - x| := by
      rw [abs_sub_comm]
      exact le_abs_self _
    linarith
  · intro hx
    have hbx : b - x ≤ |b - x| := le_abs_self _
    have hax : |a - x| ≤ b - x := abs_le.mpr ⟨by linarith, by linarith⟩
    exact hax.trans hbx

/-- The upper one is strictly nearer beyond the midpoint. -/
theorem abs_sub_lt_iff {a b x : K} (h : a < b) : |b - x| < |a - x| ↔ (a + b) / 2 < x := by
  rw [← not_le, abs_sub_le_iff h, not_le]

/-- The upper one is as near from the midpoint on. -/
theorem abs_sub_ge_iff {a b x : K} (h : a < b) : |b - x| ≤ |a - x| ↔ (a + b) / 2 ≤ x := by
  constructor
  · intro hle
    by_contra hx
    have hax : |a - x| < b - x := abs_lt.mpr ⟨by linarith, by linarith⟩
    have hbx : b - x ≤ |b - x| := le_abs_self _
    linarith
  · intro hx
    have hax : x - a ≤ |a - x| := by
      rw [abs_sub_comm]
      exact le_abs_self _
    have hbx : |b - x| ≤ x - a := abs_le.mpr ⟨by linarith, by linarith⟩
    exact hbx.trans hax

/-! ## The first nearest point -/

/-- Among the first `n` positions the `k`-th is nearest to `x`, and no earlier one is. -/
structure FirstNearest (f : ℕ → K) (n : ℕ) (x : K) (k : ℕ) : Prop where
  lt : k < n
  before : ∀ i < k, |f k - x| < |f i - x|
  le : ∀ j < n, |f k - x| ≤ |f j - x|

variable {f : ℕ → K} {n k : ℕ} {x p : K}

omit [IsStrictOrderedRing K] in
theorem firstNearest_one : FirstNearest f 1 x 0 where
  lt := Nat.one_pos
  before := fun i hi => absurd hi (Nat.not_lt_zero i)
  le := fun j hj => by rw [Nat.lt_one_iff.mp hj]

omit [IsStrictOrderedRing K] in
/-- One more position is taken if it is strictly nearer. -/
theorem FirstNearest.step (h : FirstNearest f n x k) :
    FirstNearest f (n + 1) x (if |f n - x| < |f k - x| then n else k) := by
  split
  next hlt =>
    refine ⟨Nat.lt_succ_self n, fun i hi => hlt.trans_le (h.le i hi), fun j hj => ?_⟩
    rcases Nat.lt_succ_iff_lt_or_eq.mp hj with hj | rfl
    · exact (hlt.trans_le (h.le j hj)).le
    · exact le_rfl
  next hge =>
    refine ⟨h.lt.trans (Nat.lt_succ_self n), h.before, fun j hj => ?_⟩
    rcases Nat.lt_succ_iff_lt_or_eq.mp hj with hj | rfl
    · exact h.le j hj
    · exact not_lt.mp hge

/-! ## The loop -/

section

variable {α : Type*} (pos : α → K) (x : K)

/-- The loop over the points, with the best one so far. -/
def scan (best : α) : List α → α
  | [] => best
  | a :: as => scan (if |pos a - x| < |pos best - x| then a else best) as

variable {pos x}

omit [IsStrictOrderedRing K] in
theorem scan_mem : ∀ (best : α) (as : List α), scan pos x best as ∈ best :: as
  | best, [] => List.mem_singleton_self best
  | best, a :: as => by
      rcases List.mem_cons.mp (scan_mem (if |pos a - x| < |pos best - x| then a else best) as)
        with h | h
      · rw [scan, h]
        split
        · exact List.mem_cons_of_mem _ (List.mem_cons_self ..)
        · exact List.mem_cons_self ..
      · exact List.mem_cons_of_mem _ (List.mem_cons_of_mem _ h)

omit [IsStrictOrderedRing K] in
/-- From a first nearest of some points the loop finds one of all points. -/
theorem FirstNearest.scan {all : List α} (hpos : ∀ i a, all[i]? = some a → pos a = f i) :
    ∀ {rest init : List α} {best : α} {k : ℕ}, all = init ++ rest →
      FirstNearest f init.length x k → all[k]? = some best →
      ∃ k', FirstNearest f all.length x k' ∧ all[k']? = some (scan pos x best rest) := by
  intro rest
  induction rest with
  | nil =>
      intro init best k hall h hbest
      rw [hall, List.append_nil] at *
      exact ⟨k, h, hbest⟩
  | cons a as ih =>
      intro init best k hall h hbest
      have ha : all[init.length]? = some a := by simp [hall]
      have hnext : all = (init ++ [a]) ++ as := by rw [hall, List.append_cons]
      refine ih hnext (k := if |f init.length - x| < |f k - x| then init.length else k) ?_ ?_
      · rw [List.length_append, List.length_singleton]
        exact h.step
      · rw [hpos _ _ ha, hpos _ _ hbest]
        split
        · exact ha
        · exact hbest

omit [IsStrictOrderedRing K] in
/-- The loop that starts with the first point, and meets it again. -/
theorem exists_firstNearest {a : α} {as : List α}
    (hpos : ∀ i b, (a :: as)[i]? = some b → pos b = f i) :
    ∃ k, FirstNearest f (as.length + 1) x k ∧
      (a :: as)[k]? = some (scan pos x a (a :: as)) := by
  have hfirst : scan pos x a (a :: as) = scan pos x a as := by
    rw [scan, if_neg (lt_irrefl _)]
  rw [hfirst]
  exact FirstNearest.scan hpos (show a :: as = [a] ++ as from rfl) firstNearest_one rfl

end

/-! ## Two targets -/

/-- The target is above the midpoints with the earlier points. -/
theorem FirstNearest.lt_target (h : FirstNearest f n x k) (hf : StrictMono f) {i : ℕ}
    (hi : i < k) : (f i + f k) / 2 < x := (abs_sub_lt_iff (hf hi)).mp (h.before i hi)

/-- It is not above those with the later points. -/
theorem FirstNearest.target_le (h : FirstNearest f n x k) (hf : StrictMono f) {j : ℕ}
    (hj : k < j) (hn : j < n) : x ≤ (f k + f j) / 2 := (abs_sub_le_iff (hf hj)).mp (h.le j hn)

/-- A target up to a midpoint has its first nearest point before it. -/
theorem FirstNearest.le_of_le_midpoint (h : FirstNearest f n x k) (hf : StrictMono f) {j : ℕ}
    (hx : x ≤ (f j + f (j + 1)) / 2) : k ≤ j := by
  by_contra hlt
  have hjk : j < k := not_le.mp hlt
  have hmono : f (j + 1) ≤ f k := hf.monotone hjk
  have hmid := h.lt_target hf hjk
  linarith

/-- A target beyond a midpoint has it after it. -/
theorem FirstNearest.lt_of_midpoint_lt (h : FirstNearest f n x k) (hf : StrictMono f) {j : ℕ}
    (hj : j + 1 < n) (hx : (f j + f (j + 1)) / 2 < x) : j < k := by
  by_contra hge
  have hkj : k ≤ j := not_lt.mp hge
  have hmono : f k ≤ f j := hf.monotone hkj
  have hmid := h.target_le hf (Nat.lt_succ_of_le hkj) hj
  linarith

/-- The first nearest point of `x` is nearest to `p` exactly if no midpoint of neighbours
separates the two. -/
theorem FirstNearest.nearest_iff (h : FirstNearest f n x k) (hf : StrictMono f) :
    (∀ j < n, |f k - p| ≤ |f j - p|) ↔ ∀ j, j + 1 < n →
      (x ≤ (f j + f (j + 1)) / 2 → p ≤ (f j + f (j + 1)) / 2) ∧
        ((f j + f (j + 1)) / 2 < x → (f j + f (j + 1)) / 2 ≤ p) := by
  constructor
  · intro hnear j hj
    constructor
    · intro hx
      have hkj := h.le_of_le_midpoint hf hx
      have hp := (abs_sub_le_iff (hf (Nat.lt_succ_of_le hkj))).mp (hnear (j + 1) hj)
      have hmono : f k ≤ f j := hf.monotone hkj
      linarith
    · intro hx
      have hjk := h.lt_of_midpoint_lt hf hj hx
      have hp := (abs_sub_ge_iff (hf hjk)).mp (hnear j (Nat.lt_of_succ_lt hj))
      have hmono : f (j + 1) ≤ f k := hf.monotone hjk
      linarith
  · intro hsep j hj
    rcases Nat.lt_trichotomy k j with hkj | rfl | hjk
    · have hnext : k + 1 < n := Nat.lt_of_le_of_lt hkj hj
      have hp := (hsep k hnext).1 (h.target_le hf (Nat.lt_succ_self k) hnext)
      have hmono : f (k + 1) ≤ f j := hf.monotone hkj
      exact (abs_sub_le_iff (hf hkj)).mpr (by linarith)
    · exact le_rfl
    · obtain ⟨i, rfl⟩ : ∃ i, k = i + 1 := ⟨k - 1, by omega⟩
      have hp := (hsep i h.lt).2 (h.lt_target hf (Nat.lt_succ_self i))
      have hmono : f j ≤ f i := hf.monotone (Nat.lt_succ_iff.mp hjk)
      exact (abs_sub_ge_iff (hf hjk)).mpr (by linarith)

end Nearest
