import Tempcheck.Library.LineLog

/-!
# Reading a log that is being written

A reader of a log takes the lines that are complete.  Writers may be in the middle of their
work, but none comes between the two pieces of another's record (`Contiguous`).  Then the
reader finds the records that were completed, those of each writer in its order
(`Writes.exists_order`).
-/

namespace LineLog

open Program (doneBy doneBy_cons_self doneBy_cons_of_ne)

variable {α ρ ι : Type} [DecidableEq ι] [DecidableEq α] (sep : α) (line : ρ → List α)

/-- The lines of a text.  What is after the last separator is not a line yet. -/
def lines (content : List α) : List (List α) := (content.splitOn sep).dropLast

/-- Each writer has written some of its pieces. -/
def Writes (records : ι → List ρ) (history : List (ι × List α)) : Prop :=
  ∀ i, doneBy i history <+: (records i).flatMap (pieces sep line)

/-- No writer comes between the text of a record and its separator. -/
def Contiguous (history : List (ι × List α)) : Prop :=
  ∀ pre i l j l' post, history = pre ++ (i, l) :: (j, l') :: post → l ≠ [sep] → j = i

variable {sep line}

theorem lines_text (hline : ∀ r, IsLine sep (line r)) {part : List α} (hpart : sep ∉ part) :
    ∀ records : List ρ, lines sep (text sep line records ++ part) = records.map line
  | [] => by
      have hone : part.splitOn sep = [part] := by
        refine List.splitOnP_eq_singleton fun x hx => ?_
        exact beq_eq_false_iff_ne.mpr fun h => hpart (h ▸ hx)
      rw [lines, text, List.flatMap_nil, List.nil_append, hone]
      rfl
  | r :: records => by
      have hne : ∀ x ∈ line r, (x == sep) = false := fun x hx =>
        beq_eq_false_iff_ne.mpr fun h => (hline r).not_mem (h ▸ hx)
      have hsplit : (line r ++ sep :: (text sep line records ++ part)).splitOn sep =
          line r :: (text sep line records ++ part).splitOn sep :=
        List.splitOnP_append_cons_of_forall_mem hne sep (beq_self_eq_true sep) _
      have hrest := lines_text hline hpart records
      rw [lines] at hrest
      rw [lines, text_cons, List.append_assoc, List.cons_append, hsplit,
        List.dropLast_cons_of_ne_nil (List.splitOn_ne_nil _ _), hrest, List.map_cons]

omit [DecidableEq α] in
/-- The first piece is the text of a record, and what its writer has done besides is part of
the separator and the other records. -/
theorem Writes.first {records : ι → List ρ} {history : List (ι × List α)} {i : ι}
    {l : List α} (h : Writes sep line records ((i, l) :: history)) :
    ∃ r rs, records i = r :: rs ∧ l = line r ∧
      doneBy i history <+: [sep] :: rs.flatMap (pieces sep line) := by
  have hi := h i
  rw [doneBy_cons_self] at hi
  cases hrecords : records i with
  | nil =>
      rw [hrecords] at hi
      exact absurd (List.prefix_nil.mp hi) (List.cons_ne_nil _ _)
  | cons r rs =>
      rw [hrecords] at hi
      obtain ⟨hl, hrest⟩ := List.cons_prefix_cons.mp hi
      exact ⟨r, rs, rfl, hl, hrest⟩

omit [DecidableEq α] in
/-- After both pieces of a record the others are left. -/
theorem Writes.rest {records : ι → List ρ} {history : List (ι × List α)} {i : ι} {r : ρ}
    {rs : List ρ} (h : Writes sep line records ((i, line r) :: (i, [sep]) :: history))
    (hrecords : records i = r :: rs) :
    Writes sep line (Function.update records i rs) history := by
  intro j
  have hj := h j
  by_cases hij : i = j
  · subst hij
    rw [doneBy_cons_self, doneBy_cons_self, hrecords] at hj
    rw [Function.update_self]
    exact (List.cons_prefix_cons.mp (List.cons_prefix_cons.mp hj).2).2
  · rw [doneBy_cons_of_ne hij, doneBy_cons_of_ne hij] at hj
    rw [Function.update_of_ne (Ne.symm hij)]
    exact hj

/-- What uninterrupted writers have written is a log of the records they have completed, and
maybe the text of one more. -/
theorem Writes.exists_order (hline : ∀ r, IsLine sep (line r)) :
    ∀ {history : List (ι × List α)} {records : ι → List ρ}, Writes sep line records history →
      Contiguous sep history → ∃ (order : List (ι × ρ)) (part : List α), sep ∉ part ∧
        (history.map Prod.snd).flatten = text sep line (order.map Prod.snd) ++ part ∧
        ∀ i, doneBy i order = (records i).take ((doneBy i history).countP (· = [sep]))
  | [], records, _, _ => ⟨[], [], List.not_mem_nil, rfl, fun _ => rfl⟩
  | [(i, l)], records, hwrites, _ => by
      obtain ⟨r, rs, -, rfl, -⟩ := hwrites.first
      refine ⟨[], line r, (hline r).not_mem, List.append_nil _, fun j => ?_⟩
      by_cases hij : i = j
      · subst hij
        rw [doneBy_cons_self, List.countP_cons_of_neg (by simpa using (hline r).ne_sep)]
        rfl
      · rw [doneBy_cons_of_ne hij]
        rfl
  | (i, l) :: (j, l') :: history, records, hwrites, hcontiguous => by
      obtain ⟨r, rs, hrecords, rfl, hnext⟩ := hwrites.first
      obtain rfl : j = i := hcontiguous [] i (line r) j l' history rfl (hline r).ne_sep
      rw [doneBy_cons_self] at hnext
      obtain ⟨rfl, -⟩ := List.cons_prefix_cons.mp hnext
      have hrest : Contiguous sep history := fun pre i' m k m' post heq =>
        hcontiguous ((j, line r) :: (j, [sep]) :: pre) i' m k m' post (by rw [heq]; rfl)
      obtain ⟨order, part, hpart, hcontent, horder⟩ :=
        Writes.exists_order hline (hwrites.rest hrecords) hrest
      refine ⟨(j, r) :: order, part, hpart, ?_, fun k => ?_⟩
      · simp only [List.map_cons, List.flatten_cons, hcontent, text_cons, List.append_assoc,
          List.cons_append, List.nil_append]
      · by_cases hjk : j = k
        · subst hjk
          rw [doneBy_cons_self, doneBy_cons_self, doneBy_cons_self, horder,
            Function.update_self, hrecords,
            List.countP_cons_of_neg (by simpa using (hline r).ne_sep),
            List.countP_cons_of_pos (by simp), List.take_succ_cons]
        · rw [doneBy_cons_of_ne hjk, doneBy_cons_of_ne hjk, doneBy_cons_of_ne hjk, horder,
            Function.update_of_ne (Ne.symm hjk)]

end LineLog
