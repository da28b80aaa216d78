import Mathlib.Data.List.Perm.Basic
import Mathlib.Data.List.Dedup
import Mathlib.Data.List.Sort
import Mathlib.Order.Bounds.Basic
import Mathlib.Algebra.BigOperators.Group.List.Basic
import Mathlib.Algebra.Order.BigOperators.Group.List
import Mathlib.Algebra.Order.Field.Rat

/-!
# Relational queries over lists of rows

A table is a list of rows.  A query engine is free in two places, and each is a structure
that holds the choice together with what the language promises of it: `OrderDesc` lists
rows by descending key, ties in any order, and `GroupBy` lists the group keys in any
order.  Everything else is a function of the rows.

`IsTop` is the answer of `ORDER BY key DESC LIMIT k`, up to ties.  It is all that a caller
may use: the length, the order, and that no row left out is above a row returned
(`OrderDesc.isTop_limit`).  A row is returned when few rows are at or above it
(`IsTop.mem_of_count_le`), and left out when many are strictly above it
(`IsTop.not_mem_of_le_count`).

`distinctOn` keeps the first row of every key.  On a descending list that row has the
greatest value of its key (`distinctOn_greatest`).
-/

namespace Relational

variable {α β κ ν : Type*}

/-! ## ORDER BY and LIMIT -/

/-- `ORDER BY key DESC`: the rows in descending order of the key. -/
structure OrderDesc (α : Type*) {κ : Type*} [LE κ] (key : α → κ) where
  run : List α → List α
  perm : ∀ l, (run l).Perm l
  sorted : ∀ l, (run l).Pairwise fun a b => key b ≤ key a

/-- The order that insertion sort gives, with ties in the order of the rows. -/
def OrderDesc.insertion [LinearOrder κ] (key : α → κ) : OrderDesc α key where
  run := List.insertionSort fun a b => key b ≤ key a
  perm := List.perm_insertionSort _
  sorted :=
    have : Std.Total fun a b => key b ≤ key a := ⟨fun a b => le_total (key b) (key a)⟩
    have : IsTrans α fun a b => key b ≤ key a := ⟨fun _ _ _ hab hbc => hbc.trans hab⟩
    List.pairwise_insertionSort _

/-- `LIMIT n`, where a negative `n` is no limit. -/
def limit (n : Int) (l : List α) : List α := if n < 0 then l else l.take n.toNat

/-- `out` is a choice of the `k` rows of `all` with the greatest keys, in descending
order. -/
structure IsTop [LE κ] (key : α → κ) (k : Nat) (all out : List α) : Prop where
  length_eq : out.length = min k all.length
  sorted : out.Pairwise fun a b => key b ≤ key a
  rest : ∃ left, all.Perm (out ++ left) ∧ ∀ x ∈ left, ∀ y ∈ out, key x ≤ key y

theorem isTop_take [LE κ] {key : α → κ} {all l : List α} (hp : l.Perm all)
    (hs : l.Pairwise fun a b => key b ≤ key a) (k : Nat) : IsTop key k all (l.take k) where
  length_eq := by rw [List.length_take, hp.length_eq]
  sorted := hs.sublist (List.take_sublist k l)
  rest := by
    have hsplit := List.pairwise_append.mp ((List.take_append_drop k l).symm ▸ hs)
    refine ⟨l.drop k, ?_, fun x hx y hy => hsplit.2.2 y hy x hx⟩
    rw [List.take_append_drop]
    exact hp.symm

/-- A descending order cut at a limit is a top choice, for any number of rows that the
limit leaves. -/
theorem OrderDesc.isTop_limit [LE κ] {key : α → κ} (o : OrderDesc α key) (all : List α)
    {n : Int} {k : Nat} (hk : n = k ∨ n < 0 ∧ all.length ≤ k) :
    IsTop key k all (limit n (o.run all)) := by
  rcases hk with rfl | ⟨hneg, hle⟩
  · rw [limit, if_neg (by omega), Int.toNat_natCast]
    exact isTop_take (o.perm all) (o.sorted all) k
  · rw [limit, if_pos hneg]
    have htop := isTop_take (o.perm all) (o.sorted all) k
    rwa [List.take_of_length_le (by rw [(o.perm all).length_eq]; exact hle)] at htop

/-- A top choice seen through a map that keeps the order of the keys. -/
theorem IsTop.map [LE κ] [LE ν] {key : α → κ} {key' : β → ν} {k : Nat} {all out : List α}
    (h : IsTop key k all out) (f : α → β)
    (hf : ∀ a ∈ all, ∀ b ∈ all, key a ≤ key b → key' (f a) ≤ key' (f b)) :
    IsTop key' k (all.map f) (out.map f) := by
  obtain ⟨hlen, hsorted, left, hperm, hleft⟩ := h
  have hout : ∀ a ∈ out, a ∈ all := fun a ha =>
    hperm.mem_iff.mpr (List.mem_append_left _ ha)
  have hrest : ∀ a ∈ left, a ∈ all := fun a ha =>
    hperm.mem_iff.mpr (List.mem_append_right _ ha)
  refine ⟨by simpa using hlen, ?_, left.map f, ?_, ?_⟩
  · refine List.pairwise_map.mpr (hsorted.imp_of_mem fun ha hb hle => ?_)
    exact hf _ (hout _ hb) _ (hout _ ha) hle
  · rw [← List.map_append]
    exact hperm.map f
  · intro x hx y hy
    obtain ⟨a, ha, rfl⟩ := List.mem_map.mp hx
    obtain ⟨b, hb, rfl⟩ := List.mem_map.mp hy
    exact hf a (hrest a ha) b (hout b hb) (hleft a ha b hb)

theorem IsTop.mem_of_mem [LE κ] {key : α → κ} {k : Nat} {all out : List α}
    (h : IsTop key k all out) {x : α} (hx : x ∈ out) : x ∈ all := by
  obtain ⟨left, hperm, -⟩ := h.rest
  exact hperm.mem_iff.mpr (List.mem_append_left _ hx)

/-- If there are at most `k` rows, all are returned. -/
theorem IsTop.perm_of_length_le [LE κ] {key : α → κ} {k : Nat} {all out : List α}
    (h : IsTop key k all out) (hk : all.length ≤ k) : out.Perm all := by
  obtain ⟨hlen, -, left, hperm, -⟩ := h
  rw [min_eq_right hk, hperm.length_eq, List.length_append] at hlen
  have hleft : left = [] := List.length_eq_zero_iff.mp (by omega)
  rw [hleft, List.append_nil] at hperm
  exact hperm.symm

theorem IsTop.ne_nil [LE κ] {key : α → κ} {k : Nat} {all out : List α}
    (h : IsTop key k all out) (hk : 0 < k) (hall : all ≠ []) : out ≠ [] := by
  have hpos := List.length_pos_iff.mpr hall
  rw [← List.length_pos_iff, h.length_eq]
  exact lt_min hk hpos

section LinearOrder

variable [LinearOrder κ] {key : α → κ} {k : Nat} {all out : List α}

/-- A row strictly above a returned row is returned. -/
theorem IsTop.mem_of_lt (h : IsTop key k all out) {x y : α} (hx : x ∈ all) (hy : y ∈ out)
    (hlt : key y < key x) : x ∈ out := by
  obtain ⟨left, hperm, hleft⟩ := h.rest
  rcases List.mem_append.mp (hperm.mem_iff.mp hx) with ho | hl
  · exact ho
  · exact absurd (hleft x hl y hy) (not_le.mpr hlt)

/-- A row with at most `k` rows at or above it is returned. -/
theorem IsTop.mem_of_count_le (h : IsTop key k all out) {x : α} (hx : x ∈ all)
    (hc : all.countP (fun y => key x ≤ key y) ≤ k) : x ∈ out := by
  obtain ⟨hlen, -, left, hperm, hleft⟩ := h
  by_contra hout
  have hl : x ∈ left := (List.mem_append.mp (hperm.mem_iff.mp hx)).resolve_left hout
  -- all returned rows are at or above `x`, and `x` itself was left out
  have hall : out.countP (fun y => key x ≤ key y) = out.length :=
    List.countP_eq_length.mpr fun y hy => by simpa using hleft x hl y hy
  have hone : 0 < left.countP (fun y => key x ≤ key y) :=
    List.countP_pos_iff.mpr ⟨x, hl, by simp⟩
  have hpos : 0 < left.length := List.length_pos_of_mem hl
  have htotal := hperm.length_eq
  rw [hperm.countP_eq, List.countP_append, hall] at hc
  rw [List.length_append] at htotal
  omega

/-- A row with `k` rows strictly above it is left out, up to equality of keys. -/
theorem IsTop.not_mem_of_le_count (h : IsTop key k all out) {x : α}
    (hc : k ≤ all.countP (fun y => key x < key y)) : ∀ y ∈ out, key y ≠ key x := by
  intro y hy heq
  obtain ⟨hlen, -, left, hperm, hleft⟩ := h
  have hnone : left.countP (fun z => key x < key z) = 0 := by
    refine List.countP_eq_zero.mpr fun z hz => ?_
    have hle := hleft z hz y hy
    simpa [heq] using hle
  have hlt : out.countP (fun z => key x < key z) < out.length := by
    refine lt_of_le_of_ne List.countP_le_length fun he => ?_
    have := List.countP_eq_length.mp he y hy
    simp [heq] at this
  rw [hperm.countP_eq, List.countP_append, hnone] at hc
  omega

/-- The first row of a top choice has the greatest key of all rows. -/
theorem IsTop.head_greatest (h : IsTop key k all out) {x : α} (hx : out.head? = some x) :
    ∀ y ∈ all, key y ≤ key x := by
  obtain ⟨-, hsorted, left, hperm, hleft⟩ := h
  cases out with
  | nil => cases hx
  | cons a out =>
      obtain rfl : a = x := by simpa using hx
      intro y hy
      rcases List.mem_append.mp (hperm.mem_iff.mp hy) with ho | hl
      · rcases List.mem_cons.mp ho with rfl | ho
        · exact le_rfl
        · exact (List.pairwise_cons.mp hsorted).1 y ho
      · exact hleft y hl a (List.mem_cons_self ..)

end LinearOrder

/-! ## DISTINCT ON -/

section Distinct

variable [DecidableEq ν]

/-- The first row of every value of `name` that is not in `seen`. -/
def distinctOn (name : α → ν) : List ν → List α → List α
  | _, [] => []
  | seen, a :: l =>
      if name a ∈ seen then distinctOn name seen l
      else a :: distinctOn name (name a :: seen) l

variable (name : α → ν)

theorem distinctOn_sublist : ∀ (seen : List ν) (l : List α), (distinctOn name seen l).Sublist l
  | _, [] => List.Sublist.slnil
  | seen, a :: l => by
      rw [distinctOn]
      split
      · exact (distinctOn_sublist seen l).cons a
      · exact (distinctOn_sublist (name a :: seen) l).cons_cons a

theorem name_not_mem_seen : ∀ (seen : List ν) (l : List α), ∀ a ∈ distinctOn name seen l,
    name a ∉ seen
  | _, [], _, h => by cases h
  | seen, b :: l, a, h => by
      rw [distinctOn] at h
      split at h
      next => exact name_not_mem_seen seen l a h
      next hb =>
        rcases List.mem_cons.mp h with rfl | h
        · exact hb
        · exact fun hs => name_not_mem_seen (name b :: seen) l a h (List.mem_cons_of_mem _ hs)

theorem distinctOn_nodup : ∀ (seen : List ν) (l : List α),
    ((distinctOn name seen l).map name).Nodup
  | _, [] => List.nodup_nil
  | seen, a :: l => by
      rw [distinctOn]
      split
      next => exact distinctOn_nodup seen l
      next =>
        rw [List.map_cons, List.nodup_cons]
        refine ⟨fun h => ?_, distinctOn_nodup (name a :: seen) l⟩
        obtain ⟨b, hb, he⟩ := List.mem_map.mp h
        exact name_not_mem_seen name (name a :: seen) l b hb (he ▸ List.mem_cons_self ..)

/-- Every value outside `seen` keeps a row. -/
theorem exists_mem_distinctOn : ∀ (seen : List ν) (l : List α), ∀ a ∈ l, name a ∉ seen →
    ∃ b ∈ distinctOn name seen l, name b = name a
  | _, [], _, h, _ => by cases h
  | seen, b :: l, a, h, hs => by
      rw [distinctOn]
      split
      next hb =>
        rcases List.mem_cons.mp h with rfl | h
        · exact absurd hb hs
        · exact exists_mem_distinctOn seen l a h hs
      next hb =>
        by_cases he : name b = name a
        · exact ⟨b, List.mem_cons_self .., he⟩
        · have ha : a ∈ l := (List.mem_cons.mp h).resolve_left fun hab => he (hab ▸ rfl)
          obtain ⟨c, hc, hca⟩ := exists_mem_distinctOn (name b :: seen) l a ha fun hm =>
            (List.mem_cons.mp hm).elim (fun h => he h.symm) hs
          exact ⟨c, List.mem_cons_of_mem _ hc, hca⟩

/-- On a descending list the row kept has the greatest key of its value. -/
theorem distinctOn_greatest [LE κ] {key : α → κ} (hrefl : ∀ a, key a ≤ key a) :
    ∀ (seen : List ν) (l : List α), l.Pairwise (fun a b => key b ≤ key a) →
      ∀ a ∈ distinctOn name seen l, ∀ b ∈ l, name b = name a → key b ≤ key a
  | _, [], _, _, h, _, _, _ => by cases h
  | seen, c :: l, hs, a, ha, b, hb, he => by
      obtain ⟨hc, hl⟩ := List.pairwise_cons.mp hs
      rw [distinctOn] at ha
      split at ha
      next hseen =>
        rcases List.mem_cons.mp hb with rfl | hb
        · exact absurd (he ▸ hseen) (name_not_mem_seen name seen l a ha)
        · exact distinctOn_greatest hrefl seen l hl a ha b hb he
      next =>
        rcases List.mem_cons.mp ha with rfl | ha
        · rcases List.mem_cons.mp hb with rfl | hb
          · exact hrefl b
          · exact hc b hb
        · rcases List.mem_cons.mp hb with rfl | hb
          · have hne := name_not_mem_seen name (name b :: seen) l a ha
            exact absurd (he ▸ List.mem_cons_self ..) hne
          · exact distinctOn_greatest hrefl (name c :: seen) l hl a ha b hb he

end Distinct

/-! ## GROUP BY and aggregates -/

/-- `GROUP BY key`: the values of the key, each once, in some order. -/
structure GroupBy (α : Type*) {ν : Type*} (key : α → ν) where
  keys : List α → List ν
  nodup : ∀ l, (keys l).Nodup
  mem : ∀ l n, n ∈ keys l ↔ n ∈ l.map key

section Group

variable [DecidableEq ν]

/-- The keys in the order of their last rows. -/
def GroupBy.dedup (key : α → ν) : GroupBy α key where
  keys l := (l.map key).dedup
  nodup l := List.nodup_dedup (l.map key)
  mem _ _ := List.mem_dedup

/-- The rows of one group. -/
def group (key : α → ν) (l : List α) (n : ν) : List α := l.filter fun a => key a = n

theorem mem_group {key : α → ν} {l : List α} {n : ν} {a : α} :
    a ∈ group key l n ↔ a ∈ l ∧ key a = n := by
  simp [group]

theorem group_group (key : α → ν) (l : List α) (n : ν) :
    group key (group key l n) n = group key l n := by
  rw [group, group, List.filter_filter]
  simp only [Bool.and_self]

/-- The keys of one group are those of all rows that are its key. -/
theorem GroupBy.keys_group {key : α → ν} (g g' : GroupBy α key) (l : List α) (n : ν) :
    g.keys (group key l n) = (g'.keys l).filter fun m => m = n := by
  have hperm : (g.keys (group key l n)).Perm ((g'.keys l).filter fun m => m = n) := by
    refine (List.perm_ext_iff_of_nodup (g.nodup _) ((g'.nodup l).filter _)).mpr fun m => ?_
    rw [g.mem, List.mem_filter, g'.mem, decide_eq_true_iff]
    constructor
    · intro h
      obtain ⟨a, ha, rfl⟩ := List.mem_map.mp h
      obtain ⟨hal, hkey⟩ := mem_group.mp ha
      exact ⟨List.mem_map_of_mem hal, hkey⟩
    · rintro ⟨h, rfl⟩
      obtain ⟨a, ha, rfl⟩ := List.mem_map.mp h
      exact List.mem_map_of_mem (mem_group.mpr ⟨ha, rfl⟩)
  rw [List.filter_eq] at hperm ⊢
  exact List.perm_replicate.mp hperm

theorem sum_indicator {ns : List ν} (hn : ns.Nodup) {n : ν} (h : n ∈ ns) :
    (ns.map fun m => if m = n then 1 else 0).sum = 1 := by
  have hcount : (ns.filter fun m => m = n).length = 1 := by
    rw [← List.count_eq_one_of_mem hn h, List.count_eq_length_filter]
    congr 1
  rw [List.sum_map_ite]
  simpa using hcount

/-- Distinct group keys that cover all rows count every row once.  The induction is on
the rows, and one row adds one to the group of its key. -/
theorem sum_length_group {key : α → ν} {ns : List ν} (hn : ns.Nodup) :
    ∀ l : List α, (∀ a ∈ l, key a ∈ ns) →
      (ns.map fun n => (group key l n).length).sum = l.length
  | [], _ => by
      induction ns with
      | nil => rfl
      | cons n ns ih => simp [group]
  | a :: l, hcover => by
      have ih := sum_length_group hn l fun b hb => hcover b (List.mem_cons_of_mem _ hb)
      have hstep : ∀ n, (group key (a :: l) n).length =
          (group key l n).length + if n = key a then 1 else 0 := by
        intro n
        rw [group, List.filter_cons]
        by_cases h : key a = n
        · simp [h, group]
        · simp [h, Ne.symm h, group]
      simp only [hstep, List.sum_map_add, ih, List.length_cons]
      rw [sum_indicator hn (hcover a (List.mem_cons_self ..))]

/-- The groups of a grouping count every row once. -/
theorem GroupBy.sum_length {key : α → ν} (g : GroupBy α key) (l : List α) :
    ((g.keys l).map fun n => (group key l n).length).sum = l.length :=
  sum_length_group (g.nodup l) l fun _ ha => (g.mem l _).mpr (List.mem_map_of_mem ha)

end Group

/-- `AVG`, which has no value on no rows. -/
def avg? (l : List Rat) : Option Rat := if l = [] then none else some (l.sum / l.length)

theorem cast_length_pos {l : List Rat} (h : l ≠ []) : (0 : Rat) < l.length :=
  Nat.cast_pos.mpr (List.length_pos_iff.mpr h)

/-- `AVG` of a nonempty column is at least what all its values are. -/
theorem le_avg {l : List Rat} (hne : l ≠ []) {b : Rat} (h : ∀ v ∈ l, b ≤ v) :
    b ≤ l.sum / l.length := by
  have hsum := List.card_nsmul_le_sum l b h
  rw [le_div_iff₀ (cast_length_pos hne), mul_comm, ← nsmul_eq_mul]
  exact hsum

/-- It is at most what all its values are. -/
theorem avg_le {l : List Rat} (hne : l ≠ []) {b : Rat} (h : ∀ v ∈ l, v ≤ b) :
    l.sum / l.length ≤ b := by
  have hsum := List.sum_le_card_nsmul l b h
  rw [div_le_iff₀ (cast_length_pos hne), mul_comm, ← nsmul_eq_mul]
  exact hsum

/-- `MIN` of a nonempty column is its least value. -/
theorem exists_min? [LinearOrder κ] {l : List κ} (h : l ≠ []) :
    ∃ m, l.min? = some m ∧ IsLeast {x | x ∈ l} m := by
  obtain ⟨m, hm⟩ := Option.ne_none_iff_exists'.mp (mt List.min?_eq_none_iff.mp h)
  exact ⟨m, hm, List.min?_eq_some_iff.mp hm⟩

/-- `MAX` of a nonempty column is its greatest value. -/
theorem exists_max? [LinearOrder κ] {l : List κ} (h : l ≠ []) :
    ∃ m, l.max? = some m ∧ IsGreatest {x | x ∈ l} m := by
  obtain ⟨m, hm⟩ := Option.ne_none_iff_exists'.mp (mt List.max?_eq_none_iff.mp h)
  exact ⟨m, hm, List.max?_eq_some_iff.mp hm⟩

end Relational
