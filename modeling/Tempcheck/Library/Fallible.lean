import Mathlib.Data.List.Forall2

/-!
# Fallible computations

Inversion rules for `Except`.  A sequence of fallible steps succeeds exactly if each step
succeeds (`bind_eq_ok`), and a fallible map over a list exactly if every element does
(`mapM_eq_ok`), the results being in the order of the elements.

`selectLoop` is the loop of a program that lists entries, skips some, and appends what the
others give to an accumulator, with an early return at the first error.  It succeeds
exactly if every entry can be listed and every selected one succeeds
(`selectLoop_eq_ok`).
-/

namespace Fallible

variable {ε ε' α β : Type}

theorem bind_eq_ok {x : Except ε α} {f : α → Except ε β} {b : β} :
    (x >>= f) = .ok b ↔ ∃ a, x = .ok a ∧ f a = .ok b := by
  cases x with
  | error e =>
      constructor
      · intro h
        cases h
      · rintro ⟨a, h, -⟩
        cases h
  | ok a =>
      constructor
      · intro h
        exact ⟨a, rfl, h⟩
      · rintro ⟨a', h, h'⟩
        cases h
        exact h'

/-- A step fails, or what follows it does. -/
theorem bind_eq_error {x : Except ε α} {f : α → Except ε β} {e : ε} :
    (x >>= f) = .error e ↔ x = .error e ∨ ∃ a, x = .ok a ∧ f a = .error e := by
  cases x with
  | error e' =>
      constructor
      · intro h
        cases h
        exact Or.inl rfl
      · rintro (h | ⟨a, h, -⟩)
        · cases h
          rfl
        · cases h
  | ok a =>
      constructor
      · intro h
        exact Or.inr ⟨a, rfl, h⟩
      · rintro (h | ⟨a', h, hf⟩)
        · cases h
        · cases h
          exact hf

theorem mapError_eq_error {x : Except ε α} {f : ε → ε'} {e : ε'} :
    x.mapError f = .error e ↔ ∃ e', x = .error e' ∧ f e' = e := by
  cases x with
  | error e' => simp [Except.mapError]
  | ok a => simp [Except.mapError]

theorem mapError_eq_ok {x : Except ε α} {f : ε → ε'} {a : α} :
    x.mapError f = .ok a ↔ x = .ok a := by
  cases x with
  | error e => exact ⟨(nomatch ·), (nomatch ·)⟩
  | ok b =>
      constructor
      · intro h
        cases h
        rfl
      · intro h
        cases h
        rfl

/-- Entries with renamed errors are all listed exactly if the entries are. -/
theorem map_mapError_eq {f : ε → ε'} : ∀ {l : List (Except ε α)} {as : List α},
    (l.map fun x => x.mapError f) = as.map .ok ↔ l = as.map .ok
  | [], [] => ⟨fun _ => rfl, fun _ => rfl⟩
  | [], _ :: _ => ⟨(nomatch ·), (nomatch ·)⟩
  | x :: l, [] => ⟨(nomatch ·), (nomatch ·)⟩
  | x :: l, a :: as => by
      simp only [List.map_cons, List.cons_eq_cons, mapError_eq_ok, map_mapError_eq]

/-- A fallible map succeeds exactly if every element does. -/
theorem mapM_eq_ok {f : α → Except ε β} : ∀ {l : List α} {out : List β},
    l.mapM f = .ok out ↔ List.Forall₂ (fun a b => f a = .ok b) l out
  | [], out => by
      rw [List.mapM_nil, List.forall₂_nil_left_iff]
      constructor
      · intro h
        cases h
        rfl
      · intro h
        rw [h]
        rfl
  | a :: l, out => by
      rw [List.mapM_cons, bind_eq_ok, List.forall₂_cons_left_iff]
      constructor
      · rintro ⟨b, hb, h⟩
        obtain ⟨bs, hbs, h⟩ := bind_eq_ok.mp h
        cases h
        exact ⟨b, bs, hb, mapM_eq_ok.mp hbs, rfl⟩
      · rintro ⟨b, bs, hb, hbs, rfl⟩
        exact ⟨b, hb, bind_eq_ok.mpr ⟨bs, mapM_eq_ok.mpr hbs, rfl⟩⟩

/-- A fallible map that fails on no element is a map. -/
theorem mapM_ok {f : α → Except ε β} {g : α → β} {l : List α}
    (h : ∀ a ∈ l, f a = .ok (g a)) : l.mapM f = .ok (l.map g) := by
  refine mapM_eq_ok.mpr (List.forall₂_map_right_iff.mpr ?_)
  exact List.forall₂_same.mpr h

/-- Elements that are each related to something are related to a list. -/
theorem exists_forall₂ {R : α → β → Prop} : ∀ {l : List α}, (∀ a ∈ l, ∃ b, R a b) →
    ∃ out, List.Forall₂ R l out
  | [], _ => ⟨[], .nil⟩
  | a :: l, h => by
      obtain ⟨b, hb⟩ := h a (List.mem_cons_self ..)
      obtain ⟨out, hout⟩ := exists_forall₂ fun a ha => h a (List.mem_cons_of_mem _ ha)
      exact ⟨b :: out, .cons hb hout⟩

/-- A fallible map whose elements succeed with results in `R` succeeds so. -/
theorem exists_mapM_ok {f : α → Except ε β} {R : α → β → Prop} {l : List α}
    (h : ∀ a ∈ l, ∃ b, f a = .ok b ∧ R a b) : ∃ out, l.mapM f = .ok out ∧ List.Forall₂ R l out := by
  obtain ⟨out, hout⟩ := exists_forall₂ h
  exact ⟨out, mapM_eq_ok.mpr (hout.imp fun _ _ h => h.1), hout.imp fun _ _ h => h.2⟩

theorem exists_mem_of_forall₂ {R : α → β → Prop} {l : List α} {out : List β}
    (h : List.Forall₂ R l out) {b : β} (hb : b ∈ out) : ∃ a ∈ l, R a b := by
  induction h with
  | nil => cases hb
  | cons hhead _ ih =>
      rcases List.mem_cons.mp hb with rfl | hb
      · exact ⟨_, List.mem_cons_self .., hhead⟩
      · obtain ⟨a, ha, hR⟩ := ih hb
        exact ⟨a, List.mem_cons_of_mem _ ha, hR⟩

/-- Elements related by `R` are related by `S` to elements that are in `T` to the old ones. -/
theorem forall₂_replace {γ : Type} {R : α → β → Prop} {S : α → γ → Prop} {T : β → γ → Prop}
    {l : List α} {out : List β} (h : List.Forall₂ R l out)
    (hex : ∀ a b, R a b → ∃ c, S a c ∧ T b c) :
    ∃ out', List.Forall₂ S l out' ∧ List.Forall₂ T out out' := by
  induction h with
  | nil => exact ⟨[], .nil, .nil⟩
  | cons hhead _ ih =>
      obtain ⟨c, hS, hT⟩ := hex _ _ hhead
      obtain ⟨out', hall, hrel⟩ := ih
      exact ⟨c :: out', .cons hS hall, .cons hT hrel⟩

/-- Lists whose elements have equal images have equal images. -/
theorem map_eq_map_of_forall₂ {γ : Type} {f : α → γ} {g : β → γ} {l : List α} {out : List β}
    (h : List.Forall₂ (fun a b => f a = g b) l out) : l.map f = out.map g := by
  have heq : List.Forall₂ Eq (l.map f) (out.map g) :=
    List.forall₂_map_left_iff.mpr (List.forall₂_map_right_iff.mpr h)
  rwa [List.forall₂_eq_eq_eq] at heq

/-- Elements related through a third one are the images of a list of such. -/
theorem forall₂_exists {γ : Type} {R : α → γ → Prop} {g : γ → β} :
    ∀ {l : List α} {out : List β},
      List.Forall₂ (fun a b => ∃ c, R a c ∧ b = g c) l out ↔
        ∃ cs, List.Forall₂ R l cs ∧ out = cs.map g := by
  intro l out
  constructor
  · intro h
    induction h with
    | nil => exact ⟨[], .nil, rfl⟩
    | cons hhead _ ih =>
        obtain ⟨c, hc, rfl⟩ := hhead
        obtain ⟨cs, hcs, rfl⟩ := ih
        exact ⟨c :: cs, .cons hc hcs, rfl⟩
  · rintro ⟨cs, hcs, rfl⟩
    exact List.forall₂_map_right_iff.mpr (hcs.imp fun _ c hc => ⟨c, hc, rfl⟩)

/-! ## Loops over entries -/

/-- A loop over fallible entries that skips those outside `sel`. -/
def selectLoop (sel : α → Bool) (body : α → Except ε (List β)) :
    List (Except ε α) → List β → Except ε (List β)
  | [], out => .ok out
  | entry :: entries, out => do
      let a ← entry
      if sel a then
        let new ← body a
        selectLoop sel body entries (out ++ new)
      else selectLoop sel body entries out

theorem selectLoop_skip {sel : α → Bool} {a : α} (h : sel a = false)
    (body : α → Except ε (List β)) (entries : List (Except ε α)) (out : List β) :
    selectLoop sel body (.ok a :: entries) out = selectLoop sel body entries out := by
  rw [selectLoop]
  exact if_neg (by rw [h]; exact Bool.false_ne_true)

theorem selectLoop_take {sel : α → Bool} {a : α} (h : sel a = true)
    (body : α → Except ε (List β)) (entries : List (Except ε α)) (out : List β) :
    selectLoop sel body (.ok a :: entries) out =
      (body a >>= fun new => selectLoop sel body entries (out ++ new)) := by
  rw [selectLoop]
  exact if_pos h

/-- The loop succeeds exactly if all entries can be listed and all selected ones succeed,
and appends their results in order.  The induction is on the entries. -/
theorem selectLoop_eq_ok {sel : α → Bool} {body : α → Except ε (List β)} :
    ∀ {entries : List (Except ε α)} {out out' : List β},
      selectLoop sel body entries out = .ok out' ↔
        ∃ (as : List α) (news : List (List β)), entries = as.map .ok ∧
          List.Forall₂ (fun a new => body a = .ok new) (as.filter sel) news ∧
          out' = out ++ news.flatten
  | [], out, out' => by
      rw [selectLoop]
      constructor
      · intro h
        cases h
        exact ⟨[], [], rfl, .nil, (List.append_nil out).symm⟩
      · rintro ⟨as, news, has, hnews, rfl⟩
        rw [List.map_eq_nil_iff.mp has.symm, List.filter_nil,
          List.forall₂_nil_left_iff] at hnews
        rw [hnews, List.flatten_nil, List.append_nil]
  | .error e :: entries, out, out' => by
      constructor
      · exact (nomatch ·)
      · rintro ⟨_ | ⟨a, as⟩, news, has, -, -⟩
        · cases has
        · cases has
  | .ok a :: entries, out, out' => by
      constructor
      · intro h
        cases hsel : sel a with
        | false =>
            rw [selectLoop_skip hsel, selectLoop_eq_ok] at h
            obtain ⟨as, news, rfl, hnews, rfl⟩ := h
            exact ⟨a :: as, news, rfl, by rwa [List.filter_cons_of_neg (by simp [hsel])], rfl⟩
        | true =>
            rw [selectLoop_take hsel, bind_eq_ok] at h
            obtain ⟨new, hnew, h⟩ := h
            obtain ⟨as, news, rfl, hnews, rfl⟩ := selectLoop_eq_ok.mp h
            refine ⟨a :: as, new :: news, rfl, ?_, by rw [List.flatten_cons, List.append_assoc]⟩
            rw [List.filter_cons_of_pos hsel]
            exact .cons hnew hnews
      · rintro ⟨as, news, has, hnews, rfl⟩
        cases as with
        | nil => cases has
        | cons a' as =>
            obtain ⟨heq, rfl⟩ := List.cons_eq_cons.mp has
            cases heq
            cases hsel : sel a with
            | false =>
                rw [List.filter_cons_of_neg (by simp [hsel])] at hnews
                rw [selectLoop_skip hsel]
                exact selectLoop_eq_ok.mpr ⟨as, news, rfl, hnews, rfl⟩
            | true =>
                rw [List.filter_cons_of_pos hsel, List.forall₂_cons_left_iff] at hnews
                obtain ⟨new, news, hnew, hnews, rfl⟩ := hnews
                rw [selectLoop_take hsel, bind_eq_ok]
                refine ⟨new, hnew, selectLoop_eq_ok.mpr ⟨as, news, rfl, hnews, ?_⟩⟩
                rw [List.flatten_cons, List.append_assoc]

/-- A loop that pushes one result for each selected entry. -/
theorem selectLoop_push_eq_ok {sel : α → Bool} {f : α → Except ε β}
    {entries : List (Except ε α)} {out out' : List β} :
    selectLoop sel (fun a => (f a).map fun b => [b]) entries out = .ok out' ↔
      ∃ (as : List α) (new : List β), entries = as.map .ok ∧
        List.Forall₂ (fun a b => f a = .ok b) (as.filter sel) new ∧ out' = out ++ new := by
  have hmap : ∀ (a : α) (l : List β), (f a).map (fun b => [b]) = .ok l ↔
      ∃ b, f a = .ok b ∧ l = [b] := by
    intro a l
    cases f a with
    | error e => exact ⟨(nomatch ·), fun ⟨_, h, _⟩ => nomatch h⟩
    | ok b =>
        constructor
        · intro h
          cases h
          exact ⟨b, rfl, rfl⟩
        · rintro ⟨b, h, rfl⟩
          cases h
          rfl
  rw [selectLoop_eq_ok]
  constructor
  · rintro ⟨as, news, has, hnews, rfl⟩
    obtain ⟨new, hnew, rfl⟩ := forall₂_exists.mp (hnews.imp fun _ _ => (hmap _ _).mp)
    exact ⟨as, new, has, hnew, by rw [← List.flatMap_def, List.flatMap_singleton']⟩
  · rintro ⟨as, new, has, hnew, rfl⟩
    refine ⟨as, _, has, (forall₂_exists.mpr ⟨new, hnew, rfl⟩).imp fun _ _ => (hmap _ _).mpr, ?_⟩
    rw [← List.flatMap_def, List.flatMap_singleton']

/-- The accumulator is only appended to. -/
theorem selectLoop_append (sel : α → Bool) (body : α → Except ε (List β)) :
    ∀ (entries : List (Except ε α)) (out : List β),
      selectLoop sel body entries out = (selectLoop sel body entries []).map (out ++ ·)
  | [], out => by rw [selectLoop, selectLoop, Except.map, List.append_nil]
  | .error e :: entries, out => rfl
  | .ok a :: entries, out => by
      cases hsel : sel a with
      | false =>
          rw [selectLoop_skip hsel, selectLoop_skip hsel]
          exact selectLoop_append sel body entries out
      | true =>
          rw [selectLoop_take hsel, selectLoop_take hsel]
          cases body a with
          | error e => rfl
          | ok new =>
              change selectLoop sel body entries (out ++ new) =
                (selectLoop sel body entries ([] ++ new)).map (out ++ ·)
              rw [selectLoop_append sel body entries (out ++ new),
                selectLoop_append sel body entries ([] ++ new)]
              cases selectLoop sel body entries [] with
              | error e => rfl
              | ok rest =>
                  simp only [Except.map, List.append_assoc, List.nil_append]

end Fallible
