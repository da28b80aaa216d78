import Tempcheck.Library.Transition
import Mathlib.Logic.Function.Basic

/-!
# Programs that ask their surroundings

A `Prog` returns a value, or asks its surroundings and continues with the answer.  Asking
is all it can do beside computing: reading a clock, calling a service and writing to a log
are questions, the last with a trivial answer.  Under surroundings that answer every
question a program has a result (`Prog.run`) and the list of its questions
(`Prog.trace`), and both are computed along `>>=` (`run_bind`, `trace_bind`).

Programs that may fail are `ExceptT` over programs.  Their results compose as in `Except`
(`exec_bind`).  A failed step skips what follows, so the questions of the rest are asked
exactly if the step succeeds (`trail_bind`).

Several programs run together as threads, one question at a time in any order (`Step`).
What one thread does is a prefix of its trace, and all of it when it has returned
(`Run.trace_eq`).  Hence if the entries of a shared log carry a tag that tells the threads
apart, the entries with the tag of a thread that has returned are those of its own trace,
in its order (`Run.log_eq`).
-/

namespace Program

open Transition (Run)

/-! ## Programs -/

/-- A program with questions `o : Op` that are answered in `Ans o`. -/
inductive Prog (Op : Type) (Ans : Op → Type) (α : Type) where
  | ret (a : α)
  | ask (o : Op) (k : Ans o → Prog Op Ans α)

variable {Op : Type} {Ans : Op → Type} {α β : Type}

/-- The second program goes on with what the first one returns. -/
def Prog.bind : Prog Op Ans α → (α → Prog Op Ans β) → Prog Op Ans β
  | .ret a, f => f a
  | .ask o k, f => .ask o fun a => (k a).bind f

instance : Monad (Prog Op Ans) where
  pure := .ret
  bind := .bind

/-- The program that asks and returns the answer. -/
def query (o : Op) : Prog Op Ans (Ans o) := .ask o .ret

/-- Surroundings, with an answer to every question. -/
abbrev Surroundings (Op : Type) (Ans : Op → Type) : Type := (o : Op) → Ans o

/-- The result of a program. -/
def Prog.run (w : Surroundings Op Ans) : Prog Op Ans α → α
  | .ret a => a
  | .ask o k => (k (w o)).run w

/-- The questions a program asks, in order. -/
def Prog.trace (w : Surroundings Op Ans) : Prog Op Ans α → List Op
  | .ret _ => []
  | .ask o k => o :: (k (w o)).trace w

/-- The value of a program that has returned. -/
def Prog.returned? : Prog Op Ans α → Option α
  | .ret a => some a
  | .ask _ _ => none

theorem eq_ret_of_returned? {p : Prog Op Ans α} {a : α} (h : p.returned? = some a) :
    p = .ret a := by
  cases p with
  | ret b => rw [Option.some.inj h]
  | ask o k => cases h

section

variable (w : Surroundings Op Ans)

@[simp] theorem run_pure (a : α) : (pure a : Prog Op Ans α).run w = a := rfl

@[simp] theorem trace_pure (a : α) : (pure a : Prog Op Ans α).trace w = [] := rfl

@[simp] theorem run_query (o : Op) : (query o : Prog Op Ans (Ans o)).run w = w o := rfl

@[simp] theorem trace_query (o : Op) : (query o : Prog Op Ans (Ans o)).trace w = [o] := rfl

@[simp] theorem run_bind (p : Prog Op Ans α) (f : α → Prog Op Ans β) :
    (p >>= f).run w = (f (p.run w)).run w := by
  induction p with
  | ret a => rfl
  | ask o k ih => exact ih (w o)

@[simp] theorem trace_bind (p : Prog Op Ans α) (f : α → Prog Op Ans β) :
    (p >>= f).trace w = p.trace w ++ (f (p.run w)).trace w := by
  induction p with
  | ret a => rfl
  | ask o k ih => exact congrArg (o :: ·) (ih (w o))

/-- A loop asks the questions of its rounds. -/
@[simp] theorem trace_forM (f : β → Prog Op Ans PUnit) : ∀ l : List β,
    (forM l f).trace w = l.flatMap fun b => (f b).trace w
  | [] => rfl
  | b :: l => by
      rw [List.forM_cons, trace_bind, trace_forM f l, List.flatMap_cons]

end

/-! ## Programs that may fail -/

section

variable {ε : Type}

/-- The step that is computed without a question. -/
def compute (x : Except ε α) : ExceptT ε (Prog Op Ans) α := ExceptT.mk (.ret x)

/-- The step that does not fail. -/
def perform (p : Prog Op Ans α) : ExceptT ε (Prog Op Ans) α :=
  ExceptT.mk (p >>= fun a => .ret (.ok a))

variable (w : Surroundings Op Ans)

/-- The result of a program that may fail. -/
def exec (x : ExceptT ε (Prog Op Ans) α) : Except ε α := x.run.run w

/-- The questions of a program that may fail. -/
def trail (x : ExceptT ε (Prog Op Ans) α) : List Op := x.run.trace w

@[simp] theorem exec_pure (a : α) :
    exec w (pure a : ExceptT ε (Prog Op Ans) α) = .ok a := rfl

@[simp] theorem exec_compute (x : Except ε α) :
    exec w (compute x : ExceptT ε (Prog Op Ans) α) = x := rfl

@[simp] theorem trail_compute (x : Except ε α) :
    trail w (compute x : ExceptT ε (Prog Op Ans) α) = [] := rfl

@[simp] theorem exec_perform (p : Prog Op Ans α) :
    exec w (perform p : ExceptT ε (Prog Op Ans) α) = .ok (p.run w) :=
  run_bind w p fun a => .ret (.ok a : Except ε α)

@[simp] theorem trail_perform (p : Prog Op Ans α) :
    trail w (perform p : ExceptT ε (Prog Op Ans) α) = p.trace w :=
  (trace_bind w p fun a => .ret (.ok a : Except ε α)).trans (List.append_nil _)

/-- Results compose as in `Except`. -/
@[simp] theorem exec_bind (x : ExceptT ε (Prog Op Ans) α)
    (f : α → ExceptT ε (Prog Op Ans) β) :
    exec w (x >>= f) = exec w x >>= fun a => exec w (f a) := by
  refine (run_bind w x.run _).trans ?_
  change _ = x.run.run w >>= _
  cases x.run.run w with
  | ok a => rfl
  | error e => rfl

/-- The rest is asked exactly if the first step succeeds. -/
theorem trail_bind (x : ExceptT ε (Prog Op Ans) α) (f : α → ExceptT ε (Prog Op Ans) β) :
    trail w (x >>= f) = trail w x ++ match exec w x with
      | .ok a => trail w (f a)
      | .error _ => [] := by
  refine (trace_bind w x.run _).trans (congrArg (trail w x ++ ·) ?_)
  change _ = match x.run.run w with
    | .ok a => trail w (f a)
    | .error _ => []
  cases x.run.run w with
  | ok a => rfl
  | error e => rfl

/-- Computing asks nothing. -/
theorem trail_compute_bind (x : Except ε α) (f : α → ExceptT ε (Prog Op Ans) β)
    (h : ∀ a, trail w (f a) = []) : trail w (compute x >>= f) = [] := by
  rw [trail_bind, trail_compute, exec_compute]
  cases x with
  | ok a => exact h a
  | error e => rfl

end

/-! ## Threads -/

section

variable {ι : Type} [DecidableEq ι] (w : ι → Surroundings Op Ans)

/-- One thread asks its next question. -/
inductive Step : (ι → Prog Op Ans α) → ι × Op → (ι → Prog Op Ans α) → Prop where
  | ask {ts : ι → Prog Op Ans α} {i : ι} {o : Op} {k : Ans o → Prog Op Ans α} :
      ts i = .ask o k → Step ts (i, o) (Function.update ts i (k (w i o)))

/-- The questions of one thread in a history. -/
def doneBy (i : ι) : List (ι × Op) → List Op
  | [] => []
  | (j, o) :: history => if j = i then o :: doneBy i history else doneBy i history

@[simp] theorem doneBy_cons_self (i : ι) (o : Op) (history : List (ι × Op)) :
    doneBy i ((i, o) :: history) = o :: doneBy i history := if_pos rfl

theorem doneBy_cons_of_ne {i j : ι} (h : j ≠ i) (o : Op) (history : List (ι × Op)) :
    doneBy i ((j, o) :: history) = doneBy i history := if_neg h

theorem mem_doneBy {i : ι} {o : Op} :
    ∀ {history : List (ι × Op)}, (i, o) ∈ history → o ∈ doneBy i history
  | (j, o') :: history, h => by
      rcases List.mem_cons.mp h with heq | h
      · obtain ⟨rfl, rfl⟩ := Prod.mk.inj heq
        rw [doneBy_cons_self]
        exact List.mem_cons_self ..
      · by_cases hji : j = i
        · subst hji
          rw [doneBy_cons_self]
          exact List.mem_cons_of_mem _ (mem_doneBy h)
        · rw [doneBy_cons_of_ne hji]
          exact mem_doneBy h

variable {w} {ts ts' : ι → Prog Op Ans α} {history : List (ι × Op)}

/-- A step changes one thread, by one question of its trace. -/
theorem Step.trace_eq {x : ι × Op} (h : Step w ts x ts') (i : ι) :
    (ts i).run (w i) = (ts' i).run (w i) ∧
      (ts i).trace (w i) = doneBy i [x] ++ (ts' i).trace (w i) := by
  cases h with
  | @ask j o k hj =>
      by_cases hji : j = i
      · subst hji
        rw [hj, Function.update_self, doneBy_cons_self]
        exact ⟨rfl, rfl⟩
      · rw [Function.update_of_ne (Ne.symm hji), doneBy_cons_of_ne hji]
        exact ⟨rfl, rfl⟩

theorem doneBy_cons (i : ι) (x : ι × Op) (history : List (ι × Op)) :
    doneBy i (x :: history) = doneBy i [x] ++ doneBy i history := by
  by_cases hji : x.1 = i
  · subst hji
    rw [doneBy_cons_self, doneBy_cons_self]
    rfl
  · rw [doneBy_cons_of_ne hji, doneBy_cons_of_ne hji]
    rfl

/-- What a thread has done and what it still does are its trace. -/
theorem Run.trace_eq (h : Run (Step w) ts history ts') (i : ι) :
    (ts i).run (w i) = (ts' i).run (w i) ∧
      (ts i).trace (w i) = doneBy i history ++ (ts' i).trace (w i) := by
  induction h with
  | nil => exact ⟨rfl, rfl⟩
  | cons hstep _ ih =>
      obtain ⟨hrun, htrace⟩ := hstep.trace_eq i
      refine ⟨hrun.trans ih.1, ?_⟩
      rw [htrace, ih.2, ← List.append_assoc, ← doneBy_cons]

/-- The threads in the order of a schedule.  The turn of a thread that has returned is
skipped. -/
def play (w : ι → Surroundings Op Ans) :
    List ι → (ι → Prog Op Ans α) → List (ι × Op) × (ι → Prog Op Ans α)
  | [], ts => ([], ts)
  | i :: schedule, ts =>
      match ts i with
      | .ret _ => play w schedule ts
      | .ask o k =>
          let rest := play w schedule (Function.update ts i (k (w i o)))
          ((i, o) :: rest.1, rest.2)

/-- A schedule gives a run. -/
theorem run_play : ∀ (schedule : List ι) (ts : ι → Prog Op Ans α),
    Run (Step w) ts (play w schedule ts).1 (play w schedule ts).2
  | [], _ => .nil
  | i :: schedule, ts => by
      rw [play]
      cases h : ts i with
      | ret a => exact run_play schedule ts
      | ask o k => exact .cons (.ask h) (run_play schedule _)

/-! ## Shared logs -/

variable {ν κ : Type} [DecidableEq κ]

/-- The entries that some questions leave in a log, `entry` being what one adds. -/
def entries (entry : Op → Option ν) (ops : List Op) : List ν := ops.filterMap entry

theorem entries_cons (entry : Op → Option ν) (o : Op) (ops : List Op) :
    entries entry (o :: ops) = (entry o).toList ++ entries entry ops := by
  cases ho : entry o with
  | none => exact List.filterMap_cons_none ho
  | some v => exact List.filterMap_cons_some ho

@[simp] theorem entries_append (entry : Op → Option ν) (l l' : List Op) :
    entries entry (l ++ l') = entries entry l ++ entries entry l' := List.filterMap_append

/-- The log that all threads leave. -/
def log (entry : Op → Option ν) (history : List (ι × Op)) : List ν :=
  entries entry (history.map Prod.snd)

/-- The entries with the tag of one thread are those of its questions. -/
theorem log_filter {entry : Op → Option ν} {tag : ν → κ} {t : ι → κ}
    (ht : Function.Injective t) (i : ι) :
    ∀ {history : List (ι × Op)}, (∀ x ∈ history, ∀ v ∈ entry x.2, tag v = t x.1) →
      (log entry history).filter (fun v => tag v = t i) = entries entry (doneBy i history)
  | [], _ => rfl
  | (j, o) :: history, hown => by
      have hrest := log_filter ht i fun x hx => hown x (List.mem_cons_of_mem _ hx)
      have hhead : ∀ v ∈ (entry o).toList, tag v = t j := fun v hv =>
        hown (j, o) (List.mem_cons_self ..) v (Option.mem_toList.mp hv)
      rw [log] at hrest ⊢
      rw [List.map_cons, entries_cons, List.filter_append, hrest]
      by_cases hji : j = i
      · subst hji
        rw [doneBy_cons_self, entries_cons,
          List.filter_eq_self.mpr fun v hv => decide_eq_true (hhead v hv)]
      · rw [doneBy_cons_of_ne hji, List.filter_eq_nil_iff.mpr, List.nil_append]
        intro v hv h
        exact hji (ht ((hhead v hv).symm.trans (of_decide_eq_true h)))

/-- The entries with the tag of a thread that has returned are those of its trace. -/
theorem Run.log_eq (h : Run (Step w) ts history ts') {entry : Op → Option ν} {tag : ν → κ}
    {t : ι → κ} (ht : Function.Injective t)
    (hown : ∀ i, ∀ o ∈ (ts i).trace (w i), ∀ v ∈ entry o, tag v = t i) {i : ι} {a : α}
    (hret : ts' i = .ret a) :
    (ts i).run (w i) = a ∧ (log entry history).filter (fun v => tag v = t i) =
      entries entry ((ts i).trace (w i)) := by
  obtain ⟨hrun, htrace⟩ := Run.trace_eq h i
  rw [hret] at hrun htrace
  refine ⟨hrun, ?_⟩
  rw [htrace, Prog.trace, List.append_nil]
  refine log_filter ht i fun x hx v hv => hown x.1 x.2 ?_ v hv
  rw [(Run.trace_eq h x.1).2]
  exact List.mem_append_left _ (mem_doneBy hx)

end

end Program
