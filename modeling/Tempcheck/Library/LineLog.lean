import Tempcheck.Library.Program
import Mathlib.Algebra.BigOperators.Group.Finset.Piecewise
import Mathlib.Data.List.Basic

/-!
# Logs of lines

A log has a record on each line, and a line is written in two pieces, the text of the record
and the separator (`pieces`).  When several writers append to one log, the pieces of
different writers can mix.

The text of a log determines its pieces, if these have at least as many separators as other
pieces: a line that is made of two pieces leaves too few for the other lines
(`eq_pieces_of_flatten`).  As many there are, since every writer writes both pieces
(`countP_eq_of_doneBy`).  So the writers leave a log of their records exactly if each
separator directly follows the text of its own record (`isLog_iff_unbroken`).
-/

namespace LineLog

open Program (doneBy doneBy_cons_self doneBy_cons_of_ne)

variable {α ρ ι : Type} [DecidableEq ι]

/-! ## Counting the pieces of all writers -/

/-- What all writers have done is what each has done. -/
theorem sum_countP_doneBy (p : α → Bool) (S : Finset ι) : ∀ {history : List (ι × α)},
    (∀ x ∈ history, x.1 ∈ S) →
      ∑ i ∈ S, (doneBy i history).countP p = (history.map Prod.snd).countP p
  | [], _ => by simp [doneBy]
  | (j, a) :: history, hS => by
      have hrest := sum_countP_doneBy p S fun x hx => hS x (List.mem_cons_of_mem _ hx)
      have hj : j ∈ S := hS (j, a) (List.mem_cons_self ..)
      have hcount : ∀ i, (doneBy i ((j, a) :: history)).countP p =
          (doneBy i history).countP p + if j = i then (if p a then 1 else 0) else 0 := by
        intro i
        by_cases hji : j = i
        · subst hji
          rw [doneBy_cons_self, if_pos rfl, List.countP_cons]
        · rw [doneBy_cons_of_ne hji, if_neg hji, Nat.add_zero]
      simp only [hcount, Finset.sum_add_distrib, Finset.sum_ite_eq, if_pos hj, hrest]
      rw [List.map_cons, List.countP_cons]

/-- Two kinds of pieces are as many if they are for every writer. -/
theorem countP_eq_of_doneBy {p q : α → Bool} {history : List (ι × α)}
    (h : ∀ i, (doneBy i history).countP p = (doneBy i history).countP q) :
    (history.map Prod.snd).countP p = (history.map Prod.snd).countP q := by
  have hS : ∀ x ∈ history, x.1 ∈ (history.map Prod.fst).toFinset := fun x hx =>
    List.mem_toFinset.mpr (List.mem_map_of_mem hx)
  rw [← sum_countP_doneBy p _ hS, ← sum_countP_doneBy q _ hS]
  exact Finset.sum_congr rfl fun i _ => h i

/-! ## Lines -/

variable (sep : α) (line : ρ → List α)

/-- A line is not empty and has no separator in it. -/
structure IsLine (l : List α) : Prop where
  ne_nil : l ≠ []
  not_mem : sep ∉ l

/-- What is written of a record. -/
def pieces (r : ρ) : List (List α) := [line r, [sep]]

/-- The text of a log. -/
def text (records : List ρ) : List α := records.flatMap fun r => line r ++ [sep]

variable {sep line}

theorem IsLine.ne_sep {l : List α} (h : IsLine sep l) : l ≠ [sep] := by
  rintro rfl
  exact h.not_mem (List.mem_singleton_self sep)

/-- A text is cut at its first separator. -/
theorem append_sep_inj : ∀ {l l' rest rest' : List α}, sep ∉ l → sep ∉ l' →
    l ++ sep :: rest = l' ++ sep :: rest' → l = l' ∧ rest = rest'
  | [], [], _, _, _, _, h => ⟨rfl, (List.cons_eq_cons.mp h).2⟩
  | [], a :: l', _, _, _, h', h =>
      absurd (List.mem_cons.mpr (Or.inl (List.cons_eq_cons.mp h).1)) h'
  | a :: l, [], _, _, hl, _, h =>
      absurd (List.mem_cons.mpr (Or.inl (List.cons_eq_cons.mp h).1.symm)) hl
  | a :: l, a' :: l', _, _, hl, h', h => by
      obtain ⟨rfl, htail⟩ := List.cons_eq_cons.mp h
      obtain ⟨rfl, hrest⟩ := append_sep_inj (fun hmem => hl (List.mem_cons_of_mem _ hmem))
        (fun hmem => h' (List.mem_cons_of_mem _ hmem)) htail
      exact ⟨rfl, hrest⟩

theorem text_cons (r : ρ) (records : List ρ) :
    text sep line (r :: records) = line r ++ sep :: text sep line records := by
  rw [text, List.flatMap_cons, List.append_assoc]
  rfl

theorem countP_pieces [DecidableEq α] (hline : ∀ r, IsLine sep (line r)) (records : List ρ) :
    (records.flatMap (pieces sep line)).countP (· ≠ [sep]) = records.length ∧
      (records.flatMap (pieces sep line)).countP (· = [sep]) = records.length := by
  induction records with
  | nil => exact ⟨rfl, rfl⟩
  | cons r records ih =>
      rw [List.flatMap_cons, List.countP_append, List.countP_append, ih.1, ih.2]
      simp [pieces, (hline r).ne_sep, Nat.add_comm]

/-- The first separator of some pieces is a piece of its own, and before it is a text. -/
theorem exists_first_sep : ∀ {ps : List (List α)}, (∀ p ∈ ps, p = [sep] ∨ IsLine sep p) →
    sep ∈ ps.flatten → ∃ init rest, ps = init ++ [sep] :: rest ∧
      (∀ p ∈ init, IsLine sep p) ∧ sep ∉ init.flatten
  | [], _, h => absurd h List.not_mem_nil
  | p :: ps, hps, h => by
      rcases hps p (List.mem_cons_self ..) with rfl | hp
      · exact ⟨[], ps, rfl, List.forall_mem_nil _, List.not_mem_nil⟩
      · rw [List.flatten_cons, List.mem_append] at h
        obtain ⟨init, rest, rfl, hinit, hsep⟩ := exists_first_sep
          (fun p' hp' => hps p' (List.mem_cons_of_mem _ hp')) (h.resolve_left hp.not_mem)
        refine ⟨p :: init, rest, rfl, List.forall_mem_cons.mpr ⟨hp, hinit⟩, ?_⟩
        rw [List.flatten_cons, List.mem_append]
        exact not_or.mpr ⟨hp.not_mem, hsep⟩

/-- The text of a log determines the pieces, if at least as many are separators as not. -/
theorem eq_pieces_of_flatten [DecidableEq α] (hline : ∀ r, IsLine sep (line r)) :
    ∀ {records : List ρ} {ps : List (List α)}, (∀ p ∈ ps, p = [sep] ∨ IsLine sep p) →
      ps.flatten = text sep line records →
      ps.countP (· ≠ [sep]) ≤ ps.countP (· = [sep]) →
      ps = records.flatMap (pieces sep line) := by
  intro records
  induction records with
  | nil =>
      intro ps hps htext _
      refine List.eq_nil_iff_forall_not_mem.mpr fun p hp => ?_
      have hnil : p = [] := List.flatten_eq_nil_iff.mp htext p hp
      rcases hps p hp with h | h
      · exact absurd (hnil.symm.trans h) (List.cons_ne_nil _ _).symm
      · exact h.ne_nil hnil
  | cons r records ih =>
      intro ps hps htext hcount
      rw [text_cons] at htext
      obtain ⟨init, rest, rfl, hinit, hsep⟩ := exists_first_sep hps
        (htext ▸ List.mem_append_right _ (List.mem_cons_self ..))
      have hps' : ∀ p ∈ rest, p = [sep] ∨ IsLine sep p := fun p hp =>
        hps p (List.mem_append_right _ (List.mem_cons_of_mem _ hp))
      rw [List.flatten_append, List.flatten_cons, List.singleton_append] at htext
      obtain ⟨hfirst, hrest⟩ := append_sep_inj hsep (hline r).not_mem htext
      have hlines : init.countP (· ≠ [sep]) = init.length :=
        List.countP_eq_length.mpr fun p hp => decide_eq_true (hinit p hp).ne_sep
      have hseps : init.countP (· = [sep]) = 0 :=
        List.countP_eq_zero.mpr fun p hp => by simpa using (hinit p hp).ne_sep
      rw [List.countP_append, List.countP_append, List.countP_cons_of_neg (by simp),
        List.countP_cons_of_pos (by simp), hlines, hseps] at hcount
      have hne : init.length ≠ 0 := by
        intro h
        rw [List.eq_nil_of_length_eq_zero h] at hfirst
        exact (hline r).ne_nil hfirst.symm
      have heq := ih hps' hrest (by omega)
      obtain ⟨hleft, hright⟩ := countP_pieces hline records
      rw [heq, hleft, hright] at hcount
      obtain ⟨p, rfl⟩ := List.length_eq_one_iff.mp (show init.length = 1 by omega)
      rw [List.flatten_singleton] at hfirst
      rw [heq, hfirst, List.flatMap_cons]
      rfl

/-! ## Several writers -/

variable (sep line)

/-- The writers have written their records, each in its order. -/
def Wrote (records : ι → List ρ) (history : List (ι × List α)) : Prop :=
  ∀ i, doneBy i history = (records i).flatMap (pieces sep line)

/-- A separator directly follows the text of its record. -/
def Unbroken (history : List (ι × List α)) : Prop :=
  ∀ pre i l post, history = pre ++ (i, l) :: post → l ≠ [sep] →
    post.head? = some (i, [sep])

/-- The text is a log of the records of all writers, those of each writer in its order. -/
def IsLog (records : ι → List ρ) (content : List α) : Prop :=
  ∃ order : List (ι × ρ), content = text sep line (order.map Prod.snd) ∧
    ∀ i, doneBy i order = records i

variable {sep line} {records : ι → List ρ} {history : List (ι × List α)}

/-- The first piece is the text of a record, and its writer still has the separator to
write. -/
theorem Wrote.first {i : ι} {l : List α} (h : Wrote sep line records ((i, l) :: history)) :
    ∃ r rs, records i = r :: rs ∧ l = line r ∧
      doneBy i history = [sep] :: rs.flatMap (pieces sep line) := by
  have hi := h i
  rw [doneBy_cons_self] at hi
  cases hrecords : records i with
  | nil => rw [hrecords] at hi; cases hi
  | cons r rs =>
      rw [hrecords] at hi
      obtain ⟨hl, hrest⟩ := List.cons_eq_cons.mp hi
      exact ⟨r, rs, rfl, hl, hrest⟩

/-- After both pieces of a record the writer has the others to write. -/
theorem Wrote.rest {i : ι} {r : ρ} {rs : List ρ}
    (h : Wrote sep line records ((i, line r) :: (i, [sep]) :: history))
    (hrecords : records i = r :: rs) :
    Wrote sep line (Function.update records i rs) history := by
  intro j
  have hj := h j
  by_cases hij : i = j
  · subst hij
    rw [doneBy_cons_self, doneBy_cons_self, hrecords] at hj
    rw [Function.update_self]
    exact (List.cons_eq_cons.mp (List.cons_eq_cons.mp hj).2).2
  · rw [doneBy_cons_of_ne hij, doneBy_cons_of_ne hij] at hj
    rw [Function.update_of_ne (Ne.symm hij), hj]

omit [DecidableEq ι] in
theorem Unbroken.rest {x y : ι × List α} (h : Unbroken sep (x :: y :: history)) :
    Unbroken sep history := fun pre i l post heq hl =>
  h (x :: y :: pre) i l post (by rw [heq]; rfl) hl

theorem isLog_of_unbroken : ∀ {history : List (ι × List α)} {records : ι → List ρ},
    (∀ r, IsLine sep (line r)) → Wrote sep line records history → Unbroken sep history →
      IsLog sep line records (history.map Prod.snd).flatten
  | [], records, _, hwrote, _ => by
      refine ⟨[], rfl, fun i => ?_⟩
      cases hrecords : records i with
      | nil => rfl
      | cons r rs =>
          have hi := hwrote i
          rw [hrecords] at hi
          cases hi
  | (i, l) :: history, records, hline, hwrote, hunbroken => by
      obtain ⟨r, rs, hrecords, rfl, -⟩ := hwrote.first
      obtain ⟨history, rfl⟩ := List.head?_eq_some_iff.mp
        (hunbroken [] i (line r) history rfl (hline r).ne_sep)
      obtain ⟨order, hcontent, horder⟩ :=
        isLog_of_unbroken hline (hwrote.rest hrecords) hunbroken.rest
      refine ⟨(i, r) :: order, ?_, fun j => ?_⟩
      · simp only [List.map_cons, List.flatten_cons, hcontent, text_cons]
        rfl
      · by_cases hij : i = j
        · subst hij
          rw [doneBy_cons_self, horder, Function.update_self, hrecords]
        · rw [doneBy_cons_of_ne hij, horder, Function.update_of_ne (Ne.symm hij)]

/-- If the pieces are those of some records one after the other, then so are the writers. -/
theorem unbroken_of_pieces (hline : ∀ r, IsLine sep (line r)) : ∀ {all : List ρ}
    {history : List (ι × List α)} {records : ι → List ρ}, Wrote sep line records history →
      history.map Prod.snd = all.flatMap (pieces sep line) → Unbroken sep history
  | [], history, _, _, hpieces => by
      rintro pre i l post rfl
      simp at hpieces
  | r :: all, [], _, _, hpieces => by cases hpieces
  | r :: all, [x], _, _, hpieces => by simp [pieces] at hpieces
  | r :: all, (i, l) :: (j, l') :: history, records, hwrote, hpieces => by
      obtain ⟨hline', hseps⟩ := List.cons_eq_cons.mp hpieces
      obtain ⟨hsep, hall⟩ := List.cons_eq_cons.mp hseps
      obtain rfl : l = line r := hline'
      obtain rfl : l' = [sep] := hsep
      obtain rfl : i = j := by
        by_contra hij
        have hj := hwrote j
        rw [doneBy_cons_of_ne hij, doneBy_cons_self] at hj
        cases hrecords : records j with
        | nil => rw [hrecords] at hj; cases hj
        | cons r' rs =>
            rw [hrecords] at hj
            exact (hline r').ne_sep (List.cons_eq_cons.mp hj).1.symm
      obtain ⟨r', rs, hrecords, hr', -⟩ := hwrote.first
      have hrest : Unbroken sep history := by
        refine unbroken_of_pieces hline (Wrote.rest ?_ hrecords) hall
        rw [← hr']
        exact hwrote
      intro pre i' l post heq hl
      match pre with
      | [] =>
          cases heq
          rfl
      | [x] =>
          cases heq
          exact absurd rfl hl
      | x :: y :: pre =>
          cases heq
          exact hrest pre i' l post rfl hl

/-- Every piece is a separator or the text of a record. -/
theorem Wrote.isLine (hline : ∀ r, IsLine sep (line r)) (h : Wrote sep line records history) :
    ∀ p ∈ history.map Prod.snd, p = [sep] ∨ IsLine sep p := by
  intro p hp
  obtain ⟨⟨i, p⟩, hx, rfl⟩ := List.mem_map.mp hp
  have hmem := Program.mem_doneBy hx
  rw [h i] at hmem
  obtain ⟨r, -, hr⟩ := List.mem_flatMap.mp hmem
  rcases List.mem_cons.mp hr with rfl | hr
  · exact Or.inr (hline r)
  · exact Or.inl (List.mem_singleton.mp hr)

/-- The writers leave a log of their records exactly if no record is broken. -/
theorem isLog_iff_unbroken [DecidableEq α] (hline : ∀ r, IsLine sep (line r))
    (hwrote : Wrote sep line records history) :
    IsLog sep line records (history.map Prod.snd).flatten ↔ Unbroken sep history := by
  constructor
  · rintro ⟨order, hcontent, -⟩
    refine unbroken_of_pieces hline hwrote
      (eq_pieces_of_flatten hline (hwrote.isLine hline) hcontent (le_of_eq ?_))
    refine countP_eq_of_doneBy fun i => ?_
    obtain ⟨hlines, hseps⟩ := countP_pieces hline (records i)
    rw [hwrote i, hlines, hseps]
  · exact isLog_of_unbroken hline hwrote

theorem doneBy_eq_map [Subsingleton ι] (i : ι) : ∀ history : List (ι × List α),
    doneBy i history = history.map Prod.snd
  | [] => rfl
  | (j, l) :: history => by
      rw [Subsingleton.elim j i, doneBy_cons_self, doneBy_eq_map i history, List.map_cons]

/-- A writer alone breaks no record. -/
theorem Wrote.unbroken [Subsingleton ι] (hline : ∀ r, IsLine sep (line r))
    (h : Wrote sep line records history) : Unbroken sep history := by
  cases history with
  | nil =>
      rintro pre i l post hnil
      cases pre <;> cases hnil
  | cons x history =>
      have hpieces := h x.1
      rw [doneBy_eq_map] at hpieces
      exact unbroken_of_pieces hline h hpieces

end LineLog
