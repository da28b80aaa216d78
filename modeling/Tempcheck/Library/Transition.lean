/-!
# Labelled transition systems

A system is a relation `step s a t` between states, labelled with what happens in the
step.  `Run` is a finite sequence of steps with its trace.  An invariant of the steps is an
invariant of the runs (`Run.invariant`), also if it speaks of the trace so far
(`Run.trace_invariant`).  A run can be cut anywhere in its trace (`Run.split`).
-/

namespace Transition

universe u v

variable {σ : Type u} {α : Type v} {step : σ → α → σ → Prop}

/-- A sequence of steps with the trace of their labels. -/
inductive Run (step : σ → α → σ → Prop) : σ → List α → σ → Prop where
  | nil {s : σ} : Run step s [] s
  | cons {s t u : σ} {a : α} {as : List α} :
      step s a t → Run step t as u → Run step s (a :: as) u

theorem Run.append {s t u : σ} {as bs : List α} (h : Run step s as t)
    (h' : Run step t bs u) : Run step s (as ++ bs) u := by
  induction h with
  | nil => exact h'
  | cons hfirst _ ih => exact .cons hfirst (ih h')

/-- An invariant of the steps holds at the end of a run that starts in it. -/
theorem Run.invariant {P : σ → Prop} (hstep : ∀ {s a t}, P s → step s a t → P t)
    {s t : σ} {as : List α} (h : Run step s as t) (hs : P s) : P t := by
  induction h with
  | nil => exact hs
  | cons hfirst _ ih => exact ih (hstep hs hfirst)

/-- An invariant of the trace and the state after it holds along a run that starts in it. -/
theorem Run.trace_invariant {P : List α → σ → Prop} {s : σ}
    (hstep : ∀ {as t a u}, Run step s as t → P as t → step t a u → P (as ++ [a]) u) {t : σ}
    {as : List α} (h : Run step s as t) (hs : P [] s) : P as t := by
  have hgo : ∀ {t u : σ} {bs : List α}, Run step t bs u → ∀ as, Run step s as t → P as t →
      P (as ++ bs) u := by
    intro t u bs hrun
    induction hrun with
    | nil =>
        intro as _ has
        rwa [List.append_nil]
    | cons hfirst _ ih =>
        intro as hpre has
        rw [List.append_cons]
        exact ih _ (hpre.append (.cons hfirst .nil)) (hstep hpre has hfirst)
  exact hgo h [] .nil hs

/-- What the steps of a run keep. -/
theorem Run.kept {p : α → Prop} {P : σ → Prop}
    (hkeep : ∀ {s a t}, step s a t → ¬ p a → P s → P t) {s t : σ} {as : List α}
    (h : Run step s as t) (hnone : ∀ a ∈ as, ¬ p a) (hs : P s) : P t := by
  induction h with
  | nil => exact hs
  | cons hfirst _ ih =>
      obtain ⟨ha, hrest⟩ := List.forall_mem_cons.mp hnone
      exact ih hrest (hkeep hfirst ha hs)

/-- The last step of a kind, if there is one. -/
theorem exists_last (p : α → Prop) (as : List α) : (∀ a ∈ as, ¬ p a) ∨
    ∃ pre a post, as = pre ++ a :: post ∧ p a ∧ ∀ b ∈ post, ¬ p b := by
  induction as with
  | nil => exact Or.inl (List.forall_mem_nil _)
  | cons a as ih =>
      rcases ih with hnone | ⟨pre, b, post, rfl, hb, hpost⟩
      · by_cases ha : p a
        · exact Or.inr ⟨[], a, as, rfl, ha, hnone⟩
        · exact Or.inl (List.forall_mem_cons.mpr ⟨ha, hnone⟩)
      · exact Or.inr ⟨a :: pre, b, post, rfl, hb, hpost⟩

theorem Run.split {s u : σ} : ∀ {as bs : List α}, Run step s (as ++ bs) u →
    ∃ t, Run step s as t ∧ Run step t bs u := by
  intro as
  induction as generalizing s with
  | nil => exact fun h => ⟨s, .nil, h⟩
  | cons a as ih =>
      intro bs h
      cases h with
      | cons hfirst hrest =>
          obtain ⟨t, hleft, hright⟩ := ih hrest
          exact ⟨t, .cons hfirst hleft, hright⟩

/-- A run cut at one of its steps. -/
theorem Run.split_cons {s u : σ} {a : α} {as bs : List α} (h : Run step s (as ++ a :: bs) u) :
    ∃ t t', Run step s as t ∧ step t a t' ∧ Run step t' bs u := by
  obtain ⟨t, hleft, hright⟩ := h.split
  cases hright with
  | cons hfirst hrest => exact ⟨t, _, hleft, hfirst, hrest⟩

end Transition
