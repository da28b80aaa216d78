import Tempcheck.Library.Program

/-!
# Programs on a shared object

Threads that ask one object, which changes with the questions.  An `Exchange` is a question
with its answer.  The object is a relation: `serves s x t` says that it may answer so in the
state `s` and is in the state `t` then.  So it may also fail, or answer what it likes.

The history of a run is seen from two sides.  It is a run of the object by itself
(`Run.object`), and the exchanges of one thread in it are exchanges of its program
(`Run.follows`).  What is true of a program by itself, whatever it is answered, is hence true
in any company.

A program that returns has exchanged what its parts exchanged (`yields_bind`).  Any program
can be answered until it returns (`exists_yields`), so what holds of the prefixes of such
exchanges holds of a program that is still running.

`refine` replaces each question of a program by a program with other questions.  A program
that has the object to itself cannot tell whether it is refined (`alone_refine`).
-/

namespace Shared

open Transition (Run)
open Program (Prog Surroundings compute doneBy perform query)

/-! ## Exchanges -/

/-- A question with its answer. -/
abbrev Exchange (Op : Type) (Ans : Op → Type) : Type := (o : Op) × Ans o

variable {Op : Type} {Ans : Op → Type} {α β : Type}

/-- A program that has made some exchanges goes on as another one. -/
inductive Follows : Prog Op Ans α → List (Exchange Op Ans) → Prog Op Ans α → Prop where
  | nil {p : Prog Op Ans α} : Follows p [] p
  | cons {o : Op} {k : Ans o → Prog Op Ans α} {a : Ans o} {es : List (Exchange Op Ans)}
      {q : Prog Op Ans α} : Follows (k a) es q → Follows (.ask o k) (⟨o, a⟩ :: es) q

/-- A program that has made some exchanges returns. -/
abbrev Yields (p : Prog Op Ans α) (es : List (Exchange Op Ans)) (a : α) : Prop :=
  Follows p es (.ret a)

theorem Follows.append {p q r : Prog Op Ans α} {es es' : List (Exchange Op Ans)}
    (h : Follows p es q) (h' : Follows q es' r) : Follows p (es ++ es') r := by
  induction h with
  | nil => exact h'
  | cons _ ih => exact .cons (ih h')

theorem Follows.split {p r : Prog Op Ans α} : ∀ {es es' : List (Exchange Op Ans)},
    Follows p (es ++ es') r → ∃ q, Follows p es q ∧ Follows q es' r := by
  intro es
  induction es generalizing p with
  | nil => exact fun h => ⟨p, .nil, h⟩
  | cons x es ih =>
      intro es' h
      cases h with
      | cons h =>
          obtain ⟨q, hleft, hright⟩ := ih h
          exact ⟨q, .cons hleft, hright⟩

/-- Without an exchange it is still the same program. -/
theorem Follows.eq_of_nil {p q : Prog Op Ans α} (h : Follows p [] q) : q = p := by
  cases h
  rfl

/-- If every question has an answer, a program can be brought to return. -/
theorem exists_yields [∀ o, Nonempty (Ans o)] (p : Prog Op Ans α) : ∃ es a, Yields p es a := by
  induction p with
  | ret a => exact ⟨[], a, .nil⟩
  | ask o k ih =>
      obtain ⟨a⟩ := ‹∀ o, Nonempty (Ans o)› o
      obtain ⟨es, b, h⟩ := ih a
      exact ⟨⟨o, a⟩ :: es, b, .cons h⟩

/-! ## Programs that return -/

theorem yields_pure {a b : α} {es : List (Exchange Op Ans)} :
    Yields (pure a : Prog Op Ans α) es b ↔ es = [] ∧ b = a := by
  constructor
  · intro h
    cases h with
    | nil => exact ⟨rfl, rfl⟩
  · rintro ⟨rfl, rfl⟩
    exact .nil

theorem yields_query {o : Op} {a : Ans o} {es : List (Exchange Op Ans)} :
    Yields (query o) es a ↔ es = [⟨o, a⟩] := by
  constructor
  · intro h
    cases h with
    | cons hrest =>
        obtain ⟨rfl, rfl⟩ := yields_pure.mp hrest
        rfl
  · rintro rfl
    exact .cons .nil

/-- The exchanges of two programs in sequence. -/
theorem yields_bind {p : Prog Op Ans α} {f : α → Prog Op Ans β} {b : β} :
    ∀ {es : List (Exchange Op Ans)}, Yields (p >>= f) es b ↔
      ∃ a es₁ es₂, es = es₁ ++ es₂ ∧ Yields p es₁ a ∧ Yields (f a) es₂ b := by
  induction p with
  | ret a =>
      intro es
      constructor
      · intro h
        exact ⟨a, [], es, rfl, .nil, h⟩
      · rintro ⟨a', es₁, es₂, rfl, h₁, h₂⟩
        obtain ⟨rfl, rfl⟩ := yields_pure.mp h₁
        exact h₂
  | ask o k ih =>
      intro es
      constructor
      · intro h
        cases h with
        | cons hrest =>
            obtain ⟨a, es₁, es₂, rfl, h₁, h₂⟩ := (ih _).mp hrest
            exact ⟨a, ⟨o, _⟩ :: es₁, es₂, rfl, .cons h₁, h₂⟩
      · rintro ⟨a, es₁, es₂, rfl, h₁, h₂⟩
        cases h₁ with
        | cons hrest => exact .cons ((ih _).mpr ⟨a, _, es₂, rfl, hrest, h₂⟩)

theorem yields_map {f : α → β} {p : Prog Op Ans α} {b : β} {es : List (Exchange Op Ans)} :
    Yields (f <$> p) es b ↔ ∃ a, Yields p es a ∧ b = f a := by
  refine yields_bind.trans ⟨?_, ?_⟩
  · rintro ⟨a, es₁, es₂, rfl, hp, hret⟩
    obtain ⟨rfl, rfl⟩ := yields_pure.mp hret
    exact ⟨a, by rwa [List.append_nil], rfl⟩
  · rintro ⟨a, hp, rfl⟩
    exact ⟨a, es, [], (List.append_nil es).symm, hp, .nil⟩

/-- A program that asks first. -/
theorem yields_ask {o : Op} {k : Ans o → Prog Op Ans α} {b : α} {es : List (Exchange Op Ans)} :
    Yields (.ask o k) es b ↔ ∃ a es', es = ⟨o, a⟩ :: es' ∧ Yields (k a) es' b := by
  constructor
  · intro h
    cases h with
    | cons hrest => exact ⟨_, _, rfl, hrest⟩
  · rintro ⟨a, es', rfl, h⟩
    exact .cons h

theorem yields_query_bind {o : Op} {f : Ans o → Prog Op Ans β} {b : β}
    {es : List (Exchange Op Ans)} :
    Yields (query o >>= f) es b ↔ ∃ a es', es = ⟨o, a⟩ :: es' ∧ Yields (f a) es' b := yields_ask

/-! ## Programs that may fail -/

section

variable {ε : Type}

theorem yields_compute {x r : Except ε α} {es : List (Exchange Op Ans)} :
    Yields (compute x : ExceptT ε (Prog Op Ans) α).run es r ↔ es = [] ∧ r = x := yields_pure

theorem compute_ok_bind (a : α) (f : α → ExceptT ε (Prog Op Ans) β) :
    (compute (.ok a) >>= f : ExceptT ε (Prog Op Ans) β) = f a := rfl

theorem compute_error_bind (e : ε) (f : α → ExceptT ε (Prog Op Ans) β) :
    (compute (.error e) >>= f : ExceptT ε (Prog Op Ans) β) = compute (.error e) := rfl

/-- The second program is run if the first one succeeds. -/
theorem yields_attempt {x : ExceptT ε (Prog Op Ans) α} {f : α → ExceptT ε (Prog Op Ans) β}
    {r : Except ε β} {es : List (Exchange Op Ans)} :
    Yields (x >>= f).run es r ↔
      (∃ e, Yields x.run es (.error e) ∧ r = .error e) ∨
        ∃ a es₁ es₂, es = es₁ ++ es₂ ∧ Yields x.run es₁ (.ok a) ∧ Yields (f a).run es₂ r := by
  refine yields_bind.trans ⟨?_, ?_⟩
  · rintro ⟨res, es₁, es₂, rfl, h₁, h₂⟩
    cases res with
    | ok a => exact Or.inr ⟨a, es₁, es₂, rfl, h₁, h₂⟩
    | error e =>
        obtain ⟨rfl, rfl⟩ := yields_pure.mp h₂
        exact Or.inl ⟨e, by rwa [List.append_nil], rfl⟩
  · rintro (⟨e, h, rfl⟩ | ⟨a, es₁, es₂, rfl, h₁, h₂⟩)
    · exact ⟨.error e, es, [], (List.append_nil es).symm, h, .nil⟩
    · exact ⟨.ok a, es₁, es₂, rfl, h₁, h₂⟩

end

/-! ## Refinement -/

section

variable {Op' : Type} {Ans' : Op' → Type}

/-- The program with each question replaced by a program that answers it. -/
def refine (impl : (o : Op) → Prog Op' Ans' (Ans o)) : Prog Op Ans α → Prog Op' Ans' α
  | .ret a => .ret a
  | .ask o k => impl o >>= fun a => refine impl (k a)

/-- Exchanges, and what their implementations exchanged. -/
inductive Implements (impl : (o : Op) → Prog Op' Ans' (Ans o)) :
    List (Exchange Op Ans) → List (Exchange Op' Ans') → Prop where
  | nil : Implements impl [] []
  | cons {o : Op} {a : Ans o} {es es' : List (Exchange Op' Ans')} {xs : List (Exchange Op Ans)} :
      Yields (impl o) es a → Implements impl xs es' →
      Implements impl (⟨o, a⟩ :: xs) (es ++ es')

variable {impl : (o : Op) → Prog Op' Ans' (Ans o)}

theorem yields_refine {p : Prog Op Ans α} {a : α} : ∀ {es : List (Exchange Op' Ans')},
    Yields (refine impl p) es a ↔ ∃ xs, Yields p xs a ∧ Implements impl xs es := by
  induction p with
  | ret b =>
      intro es
      constructor
      · intro h
        obtain ⟨rfl, rfl⟩ := yields_pure.mp h
        exact ⟨[], .nil, .nil⟩
      · rintro ⟨xs, h, himpl⟩
        obtain ⟨rfl, rfl⟩ := yields_pure.mp h
        cases himpl
        exact .nil
  | ask o k ih =>
      intro es
      refine yields_bind.trans ⟨?_, ?_⟩
      · rintro ⟨b, es₁, es₂, rfl, h₁, h₂⟩
        obtain ⟨xs, h, himpl⟩ := (ih b).mp h₂
        exact ⟨⟨o, b⟩ :: xs, .cons h, .cons h₁ himpl⟩
      · rintro ⟨xs, h, himpl⟩
        cases h with
        | @cons _ _ b xs _ hrest =>
            cases himpl with
            | @cons _ _ es₁ es₂ _ h₁ h₂ =>
                exact ⟨b, es₁, es₂, rfl, h₁, (ih b).mpr ⟨xs, hrest, h₂⟩⟩

theorem Implements.split_append {xs ys : List (Exchange Op Ans)} :
    ∀ {es : List (Exchange Op' Ans')}, Implements impl (xs ++ ys) es →
      ∃ es₁ es₂, es = es₁ ++ es₂ ∧ Implements impl xs es₁ ∧ Implements impl ys es₂ := by
  induction xs with
  | nil => exact fun h => ⟨[], _, rfl, .nil, h⟩
  | cons x xs ih =>
      intro es h
      cases h with
      | cons hx hrest =>
          obtain ⟨es₁, es₂, rfl, hxs, hys⟩ := ih hrest
          exact ⟨_, es₂, (List.append_assoc ..).symm, .cons hx hxs, hys⟩

/-- The exchanges of one implementation among all. -/
theorem Implements.split {xs ys : List (Exchange Op Ans)} {x : Exchange Op Ans}
    {es : List (Exchange Op' Ans')} (h : Implements impl (xs ++ x :: ys) es) :
    ∃ es₁ es₂ es₃, es = es₁ ++ es₂ ++ es₃ ∧ Implements impl xs es₁ ∧
      Yields (impl x.1) es₂ x.2 ∧ Implements impl ys es₃ := by
  obtain ⟨es₁, rest, rfl, hxs, hrest⟩ := h.split_append
  cases hrest with
  | cons hx hys => exact ⟨es₁, _, _, (List.append_assoc ..).symm, hxs, hx, hys⟩

/-- What the implementation of one exchange exchanged is there below. -/
theorem Implements.subset_of_mem {xs : List (Exchange Op Ans)} {es : List (Exchange Op' Ans')}
    (h : Implements impl xs es) {x : Exchange Op Ans} (hx : x ∈ xs) :
    ∃ es', Yields (impl x.1) es' x.2 ∧ es' ⊆ es := by
  obtain ⟨pre, post, rfl⟩ := List.append_of_mem hx
  obtain ⟨es₁, es₂, es₃, rfl, -, hyields, -⟩ := h.split
  exact ⟨es₂, hyields, fun e he => List.mem_append_left _ (List.mem_append_right _ he)⟩

/-- An exchange below belongs to the implementation of one above. -/
theorem Implements.exists_mem {xs : List (Exchange Op Ans)} {es : List (Exchange Op' Ans')}
    (h : Implements impl xs es) {e : Exchange Op' Ans'} (he : e ∈ es) :
    ∃ x ∈ xs, ∃ es', Yields (impl x.1) es' x.2 ∧ e ∈ es' := by
  induction h with
  | nil => cases he
  | @cons o a es₁ _ _ h₁ _ ih =>
      rcases List.mem_append.mp he with he | he
      · exact ⟨⟨o, a⟩, List.mem_cons_self .., es₁, h₁, he⟩
      · obtain ⟨x, hx, es', hes', hmem⟩ := ih he
        exact ⟨x, List.mem_cons_of_mem _ hx, es', hes', hmem⟩

end

/-! ## What a program asks -/

/-- The program asks no other questions than those of `C`. -/
def Asks (C : Op → Prop) : Prog Op Ans α → Prop
  | .ret _ => True
  | .ask o k => C o ∧ ∀ a, Asks C (k a)

variable {C : Op → Prop}

theorem asks_any : ∀ p : Prog Op Ans α, Asks (fun _ => True) p
  | .ret _ => trivial
  | .ask _ k => ⟨trivial, fun a => asks_any (k a)⟩

theorem asks_query {o : Op} (h : C o) : Asks C (query o : Prog Op Ans (Ans o)) :=
  ⟨h, fun _ => trivial⟩

theorem Asks.mono {C' : Op → Prop} {p : Prog Op Ans α} (hp : Asks C p)
    (h : ∀ o, C o → C' o) : Asks C' p := by
  induction p with
  | ret a => trivial
  | ask o k ih => exact ⟨h o hp.1, fun a => ih a (hp.2 a)⟩

theorem Asks.bind {p : Prog Op Ans α} {f : α → Prog Op Ans β} (hp : Asks C p)
    (hf : ∀ a, Asks C (f a)) : Asks C (p >>= f) := by
  induction p with
  | ret a => exact hf a
  | ask o k ih => exact ⟨hp.1, fun a => ih a (hp.2 a)⟩

theorem Asks.attempt {ε : Type} {x : ExceptT ε (Prog Op Ans) α}
    {f : α → ExceptT ε (Prog Op Ans) β} (hx : Asks C x.run) (hf : ∀ a, Asks C (f a).run) :
    Asks C (x >>= f).run := by
  refine hx.bind fun r => ?_
  cases r with
  | ok a => exact hf a
  | error e => trivial

theorem Asks.perform {ε : Type} {p : Prog Op Ans α} (hp : Asks C p) :
    Asks C (perform p : ExceptT ε (Prog Op Ans) α).run := hp.bind fun _ => trivial

theorem Asks.forM {f : β → Prog Op Ans PUnit} (hf : ∀ b, Asks C (f b)) :
    ∀ l : List β, Asks C (forM l f)
  | [] => trivial
  | b :: l => by
      rw [List.forM_cons]
      exact (hf b).bind fun _ => Asks.forM hf l

theorem Asks.refine {Op' : Type} {Ans' : Op' → Type} {impl : (o : Op) → Prog Op' Ans' (Ans o)}
    {C' : Op' → Prop} {p : Prog Op Ans α} (hp : Asks C p)
    (himpl : ∀ o, C o → Asks C' (impl o)) : Asks C' (refine impl p) := by
  induction p with
  | ret a => trivial
  | ask o k ih => exact (himpl o hp.1).bind fun a => ih a (hp.2 a)

/-- So the exchanges of the program are about such questions. -/
theorem Asks.follows {p q : Prog Op Ans α} {es : List (Exchange Op Ans)} (hp : Asks C p)
    (h : Follows p es q) : ∀ x ∈ es, C x.1 := by
  induction h with
  | nil => exact fun _ hx => nomatch hx
  | cons _ ih => exact List.forall_mem_cons.mpr ⟨hp.1, ih (hp.2 _)⟩

/-! ## Questions that are asked once -/

/-- No question is asked that was asked before, unless it has one answer only. -/
def AsksOnce : (Op → Prop) → Prog Op Ans α → Prop
  | _, .ret _ => True
  | asked, .ask o k =>
      (Subsingleton (Ans o) ∨ ¬ asked o) ∧ ∀ a, AsksOnce (fun o' => o' = o ∨ asked o') (k a)

variable {asked : Op → Prop}

theorem AsksOnce.anti {p : Prog Op Ans α} {asked asked' : Op → Prop} (h : AsksOnce asked p)
    (hle : ∀ o, asked' o → asked o) : AsksOnce asked' p := by
  induction p generalizing asked asked' with
  | ret a => trivial
  | ask o k ih =>
      exact ⟨h.1.imp_right fun hnew ho => hnew (hle o ho),
        fun a => ih a (h.2 a) fun o' => Or.imp_right (hle o')⟩

theorem asksOnce_query {o : Op} (h : ¬ asked o) :
    AsksOnce asked (query o : Prog Op Ans (Ans o)) := ⟨Or.inr h, fun _ => trivial⟩

/-- Questions with one answer may be repeated. -/
theorem Asks.asksOnce {p : Prog Op Ans α} (h : Asks (fun o => Subsingleton (Ans o)) p) :
    AsksOnce asked p := by
  induction p generalizing asked with
  | ret a => trivial
  | ask o k ih => exact ⟨Or.inl h.1, fun a => ih a (h.2 a)⟩

theorem AsksOnce.bind {p : Prog Op Ans α} {f : α → Prog Op Ans β} (hp : AsksOnce asked p)
    (hC : Asks C p) (hf : ∀ a, AsksOnce (fun o => C o ∨ asked o) (f a)) :
    AsksOnce asked (p >>= f) := by
  induction p generalizing asked with
  | ret a => exact (hf a).anti fun o => Or.inr
  | ask o k ih =>
      refine ⟨hp.1, fun a => ih a (hp.2 a) (hC.2 a) fun b => (hf b).anti ?_⟩
      rintro o' (ho | rfl | ho)
      · exact Or.inl ho
      · exact Or.inl hC.1
      · exact Or.inr ho

theorem AsksOnce.attempt {ε : Type} {x : ExceptT ε (Prog Op Ans) α}
    {f : α → ExceptT ε (Prog Op Ans) β} (hx : AsksOnce asked x.run) (hC : Asks C x.run)
    (hf : ∀ a, AsksOnce (fun o => C o ∨ asked o) (f a).run) : AsksOnce asked (x >>= f).run := by
  refine hx.bind hC fun r => ?_
  cases r with
  | ok a => exact hf a
  | error e => trivial

theorem AsksOnce.perform {ε : Type} {p : Prog Op Ans α} (hp : AsksOnce asked p) :
    AsksOnce asked (perform p : ExceptT ε (Prog Op Ans) α).run :=
  hp.bind (asks_any p) fun _ => trivial

/-- Fixed surroundings are one way to answer. -/
theorem yields_run (w : Surroundings Op Ans) : ∀ p : Prog Op Ans α,
    Yields p ((p.trace w).map fun o => ⟨o, w o⟩) (p.run w)
  | .ret _ => .nil
  | .ask o k => .cons (yields_run w (k (w o)))

/-- A program that asks nothing twice cannot tell its answers from fixed surroundings. -/
theorem AsksOnce.exists_surroundings {p : Prog Op Ans α} {es : List (Exchange Op Ans)} {a : α}
    (hp : AsksOnce asked p) (h : Yields p es a) (w : Surroundings Op Ans) :
    ∃ w' : Surroundings Op Ans, (∀ o, asked o → w' o = w o) ∧ a = p.run w' ∧
      es = (p.trace w').map fun o => ⟨o, w' o⟩ := by
  classical
  induction p generalizing asked es w with
  | ret b =>
      obtain ⟨rfl, rfl⟩ := yields_pure.mp h
      exact ⟨w, fun _ _ => rfl, rfl, rfl⟩
  | ask o k ih =>
      cases h with
      | @cons _ _ b es _ hrest =>
          obtain ⟨w', hw', ha, hes⟩ := ih b (hp.2 b) hrest (Function.update w o b)
          have hb : w' o = b := (hw' o (Or.inl rfl)).trans (Function.update_self ..)
          refine ⟨w', fun o' ho' => ?_, ?_, ?_⟩
          · by_cases heq : o' = o
            · subst heq
              rcases hp.1 with hone | hnew
              · exact hone.elim _ _
              · exact absurd ho' hnew
            · rw [hw' o' (Or.inr ho'), Function.update_of_ne heq]
          · rw [ha, Prog.run, hb]
          · rw [hes, Prog.trace, List.map_cons, hb]

/-- The exchanges of such a program are those with fixed surroundings. -/
theorem yields_iff_surroundings [∀ o, Nonempty (Ans o)] {p : Prog Op Ans α}
    (hp : AsksOnce (fun _ => False) p) {es : List (Exchange Op Ans)} {a : α} :
    Yields p es a ↔ ∃ w : Surroundings Op Ans, a = p.run w ∧
      es = (p.trace w).map fun o => ⟨o, w o⟩ := by
  constructor
  · intro h
    obtain ⟨w, -, ha, hes⟩ := hp.exists_surroundings h fun o => Classical.choice inferInstance
    exact ⟨w, ha, hes⟩
  · rintro ⟨w, rfl, rfl⟩
    exact yields_run w p

/-! ## One program on an object -/

/-- An object: the answers it may give in a state, and the state after each. -/
abbrev Object (σ Op : Type) (Ans : Op → Type) : Type := σ → Exchange Op Ans → σ → Prop

section

variable {σ : Type}

/-- A program that has the object to itself returns `a` and leaves it in the state `t`. -/
def Alone (serves : Object σ Op Ans) (p : Prog Op Ans α) (s t : σ) (a : α) : Prop :=
  ∃ es, Yields p es a ∧ Run serves s es t

variable {serves : Object σ Op Ans} {s t : σ}

theorem alone_pure {a b : α} : Alone serves (pure a) s t b ↔ t = s ∧ b = a := by
  constructor
  · rintro ⟨es, h, hrun⟩
    obtain ⟨rfl, rfl⟩ := yields_pure.mp h
    cases hrun
    exact ⟨rfl, rfl⟩
  · rintro ⟨rfl, rfl⟩
    exact ⟨[], .nil, .nil⟩

theorem alone_query {o : Op} {a : Ans o} : Alone serves (query o) s t a ↔ serves s ⟨o, a⟩ t := by
  constructor
  · rintro ⟨es, h, hrun⟩
    rw [yields_query.mp h] at hrun
    cases hrun with
    | cons hserves hrest =>
        cases hrest
        exact hserves
  · intro h
    exact ⟨[⟨o, a⟩], yields_query.mpr rfl, .cons h .nil⟩

theorem alone_bind {p : Prog Op Ans α} {f : α → Prog Op Ans β} {b : β} :
    Alone serves (p >>= f) s t b ↔ ∃ a u, Alone serves p s u a ∧ Alone serves (f a) u t b := by
  constructor
  · rintro ⟨es, h, hrun⟩
    obtain ⟨a, es₁, es₂, rfl, h₁, h₂⟩ := yields_bind.mp h
    obtain ⟨u, hrun₁, hrun₂⟩ := hrun.split
    exact ⟨a, u, ⟨es₁, h₁, hrun₁⟩, ⟨es₂, h₂, hrun₂⟩⟩
  · rintro ⟨a, u, ⟨es₁, h₁, hrun₁⟩, ⟨es₂, h₂, hrun₂⟩⟩
    exact ⟨es₁ ++ es₂, yields_bind.mpr ⟨a, es₁, es₂, rfl, h₁, h₂⟩, hrun₁.append hrun₂⟩

/-- Alone, a program goes on after the first answer. -/
theorem exists_alone_ask {o : Op} {a : Ans o} {k : Ans o → Prog Op Ans α} {b : α} :
    (∃ es, Yields (.ask o k) (⟨o, a⟩ :: es) b ∧ Run serves s (⟨o, a⟩ :: es) t) ↔
      ∃ u, serves s ⟨o, a⟩ u ∧ Alone serves (k a) u t b := by
  constructor
  · rintro ⟨es, hyields, hrun⟩
    obtain ⟨a', es', heq, hrest⟩ := yields_ask.mp hyields
    cases heq
    cases hrun with
    | cons hserves hrest' => exact ⟨_, hserves, es, hrest, hrest'⟩
  · rintro ⟨u, hserves, es, hyields, hrun⟩
    exact ⟨es, yields_ask.mpr ⟨a, es, rfl, hyields⟩, .cons hserves hrun⟩

theorem alone_map {f : α → β} {p : Prog Op Ans α} {b : β} :
    Alone serves (f <$> p) s t b ↔ ∃ a, Alone serves p s t a ∧ b = f a := by
  refine alone_bind.trans ⟨?_, ?_⟩
  · rintro ⟨a, u, hp, hret⟩
    obtain ⟨rfl, rfl⟩ := alone_pure.mp hret
    exact ⟨a, hp, rfl⟩
  · rintro ⟨a, hp, rfl⟩
    exact ⟨a, t, hp, alone_pure.mpr ⟨rfl, rfl⟩⟩

theorem alone_compute {ε : Type} {x r : Except ε α} :
    Alone serves (compute x : ExceptT ε (Prog Op Ans) α).run s t r ↔ t = s ∧ r = x := alone_pure

theorem alone_attempt {ε : Type} {x : ExceptT ε (Prog Op Ans) α}
    {f : α → ExceptT ε (Prog Op Ans) β} {r : Except ε β} :
    Alone serves (x >>= f).run s t r ↔
      (∃ e, Alone serves x.run s t (.error e) ∧ r = .error e) ∨
        ∃ a u, Alone serves x.run s u (.ok a) ∧ Alone serves (f a).run u t r := by
  refine alone_bind.trans ⟨?_, ?_⟩
  · rintro ⟨res, u, hx, hrest⟩
    cases res with
    | ok a => exact Or.inr ⟨a, u, hx, hrest⟩
    | error e =>
        obtain ⟨rfl, rfl⟩ := alone_pure.mp hrest
        exact Or.inl ⟨e, hx, rfl⟩
  · rintro (⟨e, hx, rfl⟩ | ⟨a, u, hx, hrest⟩)
    · exact ⟨.error e, t, hx, alone_pure.mpr ⟨rfl, rfl⟩⟩
    · exact ⟨.ok a, u, hx, hrest⟩

/-- The object that runs the implementation of each question without a break. -/
def atomic {Op' : Type} {Ans' : Op' → Type} (impl : (o : Op) → Prog Op' Ans' (Ans o))
    (serves : Object σ Op' Ans') : Object σ Op Ans :=
  fun s x t => Alone serves (impl x.1) s t x.2

/-- Alone, a refined program is the program on the object of its implementations. -/
theorem alone_refine {Op' : Type} {Ans' : Op' → Type} {impl : (o : Op) → Prog Op' Ans' (Ans o)}
    {serves : Object σ Op' Ans'} {a : α} (p : Prog Op Ans α) : ∀ {s : σ},
    Alone serves (refine impl p) s t a ↔ Alone (atomic impl serves) p s t a := by
  induction p with
  | ret b => exact alone_pure.trans alone_pure.symm
  | ask o k ih =>
      intro s
      refine alone_bind.trans (Iff.trans ?_ (alone_bind (p := query o)).symm)
      refine exists_congr fun b => exists_congr fun u => and_congr ?_ (ih b)
      exact (alone_query.symm : atomic impl serves s ⟨o, b⟩ u ↔ _)

/-- An object that does not change, at work for some questions. -/
theorem run_unchanged_iff (hobject : ∀ {s x t}, serves s x t → t = s)
    {es : List (Exchange Op Ans)} : Run serves s es t ↔ t = s ∧ ∀ x ∈ es, serves s x s := by
  constructor
  · intro h
    induction h with
    | nil => exact ⟨rfl, List.forall_mem_nil _⟩
    | cons hstep _ ih =>
        obtain rfl := hobject hstep
        exact ⟨ih.1, List.forall_mem_cons.mpr ⟨hstep, ih.2⟩⟩
  · rintro ⟨rfl, hes⟩
    induction es with
    | nil => exact .nil
    | cons x es ih =>
        obtain ⟨hx, hrest⟩ := List.forall_mem_cons.mp hes
        exact .cons hx (ih hrest)

/-- On such an object a program that asks nothing twice runs as in surroundings that answer
as the object may. -/
theorem alone_iff_surroundings [∀ o, Nonempty (Ans o)] {p : Prog Op Ans α}
    (hp : AsksOnce (fun _ => False) p) (hobject : ∀ {s x t}, serves s x t → t = s) {a : α} :
    Alone serves p s t a ↔
      t = s ∧ ∃ w : Surroundings Op Ans, a = p.run w ∧ ∀ o ∈ p.trace w, serves s ⟨o, w o⟩ s := by
  constructor
  · rintro ⟨es, hes, hrun⟩
    obtain ⟨w, ha, rfl⟩ := (yields_iff_surroundings hp).mp hes
    obtain ⟨ht, hserves⟩ := (run_unchanged_iff hobject).mp hrun
    exact ⟨ht, w, ha, fun o ho => hserves _ (List.mem_map_of_mem ho)⟩
  · rintro ⟨ht, w, rfl, hserves⟩
    refine ⟨_, yields_run w p, (run_unchanged_iff hobject).mpr ⟨ht, fun x hx => ?_⟩⟩
    obtain ⟨o, ho, rfl⟩ := List.mem_map.mp hx
    exact hserves o ho

end

/-! ## Threads -/

section

variable {ι σ : Type} [DecidableEq ι]

/-- One thread asks the object. -/
inductive Step (serves : Object σ Op Ans) : σ × (ι → Prog Op Ans α) → ι × Exchange Op Ans →
    σ × (ι → Prog Op Ans α) → Prop where
  | ask {s s' : σ} {ts : ι → Prog Op Ans α} {i : ι} {o : Op} {k : Ans o → Prog Op Ans α}
      {a : Ans o} : ts i = .ask o k → serves s ⟨o, a⟩ s' →
      Step serves (s, ts) (i, ⟨o, a⟩) (s', Function.update ts i (k a))

theorem doneBy_append (i : ι) : ∀ pre post : List (ι × Op),
    doneBy i (pre ++ post) = doneBy i pre ++ doneBy i post
  | [], _ => rfl
  | x :: pre, post => by
      rw [List.cons_append, Program.doneBy_cons, doneBy_append i pre post, ← List.append_assoc,
        ← Program.doneBy_cons]

theorem mem_of_mem_doneBy {i : ι} {o : Op} : ∀ {history : List (ι × Op)},
    o ∈ doneBy i history → (i, o) ∈ history
  | (j, o') :: history, h => by
      by_cases hji : j = i
      · subst hji
        rw [Program.doneBy_cons_self] at h
        rcases List.mem_cons.mp h with rfl | h
        · exact List.mem_cons_self ..
        · exact List.mem_cons_of_mem _ (mem_of_mem_doneBy h)
      · rw [Program.doneBy_cons_of_ne hji] at h
        exact List.mem_cons_of_mem _ (mem_of_mem_doneBy h)

/-- Where a question of one thread stands in the history. -/
theorem exists_of_doneBy {i : ι} {o : Op} : ∀ {history : List (ι × Op)} {os os' : List Op},
    doneBy i history = os ++ o :: os' →
      ∃ pre post, history = pre ++ (i, o) :: post ∧ doneBy i pre = os ∧ doneBy i post = os'
  | [], os, os', h => by cases os <;> cases h
  | (j, o') :: history, os, os', h => by
      by_cases hji : j = i
      · subst hji
        rw [Program.doneBy_cons_self] at h
        cases os with
        | nil =>
            cases h
            exact ⟨[], history, rfl, rfl, rfl⟩
        | cons o'' os =>
            obtain ⟨rfl, htail⟩ := List.cons_eq_cons.mp h
            obtain ⟨pre, post, rfl, hpre, hpost⟩ := exists_of_doneBy htail
            refine ⟨(j, o') :: pre, post, rfl, ?_, hpost⟩
            rw [Program.doneBy_cons_self, hpre]
      · rw [Program.doneBy_cons_of_ne hji] at h
        obtain ⟨pre, post, rfl, hpre, hpost⟩ := exists_of_doneBy h
        refine ⟨(j, o') :: pre, post, rfl, ?_, hpost⟩
        rw [Program.doneBy_cons_of_ne hji, hpre]

/-- What the entries of a history leave, each with its thread. -/
def tagged {γ : Type} (f : Op → Option γ) (history : List (ι × Op)) : List (ι × γ) :=
  history.filterMap fun x => (f x.2).map (Prod.mk x.1)

omit [DecidableEq ι] in
theorem map_snd_tagged {γ : Type} (f : Op → Option γ) : ∀ history : List (ι × Op),
    (tagged f history).map Prod.snd = (history.map Prod.snd).filterMap f
  | [] => rfl
  | x :: history => by
      rw [List.map_cons, tagged, List.filterMap_cons, List.filterMap_cons]
      cases f x.2 with
      | none => exact map_snd_tagged f history
      | some c => exact congrArg (c :: ·) (map_snd_tagged f history)

theorem doneBy_tagged {γ : Type} (f : Op → Option γ) (i : ι) : ∀ history : List (ι × Op),
    doneBy i (tagged f history) = (doneBy i history).filterMap f
  | [] => rfl
  | (j, o) :: history => by
      have ih := doneBy_tagged f i history
      rw [tagged] at ih
      rw [tagged, List.filterMap_cons]
      by_cases hji : j = i
      · subst hji
        rw [Program.doneBy_cons_self, List.filterMap_cons]
        cases f o with
        | none => exact ih
        | some c => exact (Program.doneBy_cons_self ..).trans (congrArg (c :: ·) ih)
      · rw [Program.doneBy_cons_of_ne hji]
        cases f o with
        | none => exact ih
        | some c => exact (Program.doneBy_cons_of_ne hji ..).trans ih

variable {serves : Object σ Op Ans} {w w' : σ × (ι → Prog Op Ans α)}
  {history : List (ι × Exchange Op Ans)}

/-- The object sees a run of its own. -/
theorem Run.object (h : Run (Step serves) w history w') :
    Run serves w.1 (history.map Prod.snd) w'.1 := by
  induction h with
  | nil => exact .nil
  | cons hstep _ ih =>
      cases hstep with
      | ask _ hserves => exact .cons hserves ih

/-- A thread sees exchanges of its program. -/
theorem Run.follows (h : Run (Step serves) w history w') (i : ι) :
    Follows (w.2 i) (doneBy i history) (w'.2 i) := by
  induction h with
  | nil => exact .nil
  | cons hstep _ ih =>
      cases hstep with
      | @ask s s' ts j o k a hj _ =>
          change Follows (Function.update ts j (k a) i) _ _ at ih
          change Follows (ts i) _ _
          by_cases hji : j = i
          · subst hji
            rw [Function.update_self] at ih
            rw [Program.doneBy_cons_self, hj]
            exact .cons ih
          · rw [Function.update_of_ne (Ne.symm hji)] at ih
            rw [Program.doneBy_cons_of_ne hji]
            exact ih

/-- The object at one exchange of a thread. -/
theorem Run.moment (h : Run (Step serves) w history w') {i : ι} {x : Exchange Op Ans}
    {es es' : List (Exchange Op Ans)} (hi : doneBy i history = es ++ x :: es') :
    ∃ pre post s t, history = pre ++ (i, x) :: post ∧ doneBy i pre = es ∧ doneBy i post = es' ∧
      Run serves w.1 (pre.map Prod.snd) s ∧ serves s x t ∧
      Run serves t (post.map Prod.snd) w'.1 := by
  obtain ⟨pre, post, rfl, hpre, hpost⟩ := exists_of_doneBy hi
  have hobject := Run.object h
  rw [List.map_append, List.map_cons] at hobject
  obtain ⟨s, t, hs, hx, ht⟩ := hobject.split_cons
  exact ⟨pre, post, s, t, rfl, hpre, hpost, hs, hx, ht⟩

/-- What holds of the prefixes of the exchanges of a program that returns holds of those of
a thread. -/
theorem Run.always [∀ o, Nonempty (Ans o)] (h : Run (Step serves) w history w') {i : ι}
    {P : List (Exchange Op Ans) → Prop} (hinit : ∀ es es', P (es ++ es') → P es)
    (hP : ∀ es a, Yields (w.2 i) es a → P es) : P (doneBy i history) := by
  obtain ⟨es, a, hes⟩ := exists_yields (w'.2 i)
  exact hinit _ es (hP _ a ((Run.follows h i).append hes))

/-- A thread may be left to itself while the others wait. -/
theorem run_alone {p q : Prog Op Ans α} {es : List (Exchange Op Ans)} (h : Follows p es q) :
    ∀ {s t : σ} {ts : ι → Prog Op Ans α} {i : ι}, Run serves s es t → ts i = p →
      Run (Step serves) (s, ts) (es.map (Prod.mk i)) (t, Function.update ts i q) := by
  induction h with
  | nil =>
      rintro s t ts i hrun rfl
      cases hrun
      rw [Function.update_eq_self]
      exact .nil
  | @cons o k a es q hrest ih =>
      intro s t ts i hrun hi
      cases hrun with
      | @cons _ u _ _ _ hserves hrun =>
          have hlater := ih hrun (Function.update_self i (k a) ts)
          rw [Function.update_idem] at hlater
          exact .cons (.ask hi hserves) hlater

/-- The entries of a thread that is left to itself are its own. -/
theorem doneBy_map_mk (i j : ι) : ∀ es : List (Exchange Op Ans),
    doneBy j (es.map (Prod.mk i)) = if i = j then es else []
  | [] => by simp [doneBy]
  | e :: es => by
      by_cases hij : i = j
      · subst hij
        rw [List.map_cons, Program.doneBy_cons_self, doneBy_map_mk i i es, if_pos rfl, if_pos rfl]
      · rw [List.map_cons, Program.doneBy_cons_of_ne hij, doneBy_map_mk i j es, if_neg hij,
          if_neg hij]

end

end Shared
