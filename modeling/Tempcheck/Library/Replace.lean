import Mathlib.Data.List.Basic

/-!
# Replacing parts of a text

A text is a list of letters.  A rule replaces a part of it, and a pass goes through the text
once from left to right (`pass`).  Where a rule matches, it writes what the rule has for the
match and goes on after it.  Elsewhere it copies the letter.

Rules for single letters replace every letter by itself, so their pass is a `flatMap`
(`pass_letters`).  Passes for one letter each, one after the other, are one pass if no
letter of a later pass is in what an earlier one writes (`passes_eq`).

An `Escaping` writes some letters as a name after a marker.  The marker is one of these
letters and is escaped first, so the passes for its letters are one (`passes_eq_escape`).
No letter of a name is escaped.  So an escaped text has no such letter but the marker
(`not_mem_escape`), and every marker in it begins a name (`name_of_marker`).  No name begins
another one.  So one pass back gives the text again (`unescape_escape`).
-/

namespace Replace

universe u

variable {α : Type u}

/-! ## Passes -/

/-- The replacement of a part that is not empty. -/
structure Rule (α : Type u) where
  /-- The first letter of the part. -/
  first : α
  /-- The other letters of the part. -/
  more : List α
  /-- What is written for it. -/
  rep : List α

/-- The part that is replaced. -/
def Rule.part (r : Rule α) : List α := r.first :: r.more

/-- The rule for a single letter. -/
def letter (p : α × List α) : Rule α := ⟨p.1, [], p.2⟩

/-- What a letter is replaced by, the letter itself if the table does not have it. -/
def subst [DecidableEq α] (table : List (α × List α)) (c : α) : List α :=
  match table.find? fun p => p.1 = c with
  | some p => p.2
  | none => [c]

variable [DecidableEq α]

/-- The first rule that matches at the start of a text. -/
def rule? (rules : List (Rule α)) (s : List α) : Option (Rule α) :=
  rules.find? fun r => r.part <+: s

/-- A pass that still has some letters of a match to skip. -/
def passFrom (rules : List (Rule α)) : Nat → List α → List α
  | _, [] => []
  | skip + 1, _ :: s => passFrom rules skip s
  | 0, c :: s =>
      match rule? rules (c :: s) with
      | some r => r.rep ++ passFrom rules r.more.length s
      | none => c :: passFrom rules 0 s

/-- One pass from left to right. -/
def pass (rules : List (Rule α)) (s : List α) : List α := passFrom rules 0 s

theorem passFrom_append (rules : List (Rule α)) (l s : List α) :
    passFrom rules l.length (l ++ s) = pass rules s := by
  induction l with
  | nil => rfl
  | cons c l ih => simpa [passFrom] using ih

/-- A match is replaced. -/
theorem pass_append {rules : List (Rule α)} {r : Rule α} {s : List α}
    (h : rule? rules (r.part ++ s) = some r) :
    pass rules (r.part ++ s) = r.rep ++ pass rules s := by
  rw [Rule.part, List.cons_append] at *
  rw [pass, passFrom, h]
  simp only [passFrom_append]

/-- A letter that does not begin a match is copied. -/
theorem pass_cons {rules : List (Rule α)} {c : α} {s : List α}
    (h : rule? rules (c :: s) = none) : pass rules (c :: s) = c :: pass rules s := by
  rw [pass, passFrom, h]
  rfl

/-! ## Single letters -/

theorem rule?_letters (table : List (α × List α)) (c : α) (s : List α) :
    rule? (table.map letter) (c :: s) = (table.find? fun p => p.1 = c).map letter := by
  rw [rule?, List.find?_map]
  congr 2
  funext p
  refine decide_eq_decide.mpr ?_
  simp [letter, Rule.part, List.cons_prefix_cons]

theorem pass_letter_cons (table : List (α × List α)) (c : α) (s : List α) :
    pass (table.map letter) (c :: s) = subst table c ++ pass (table.map letter) s := by
  have hrule := rule?_letters table c s
  rw [subst]
  cases hfind : table.find? fun p => p.1 = c with
  | none =>
      rw [hfind] at hrule
      exact pass_cons hrule
  | some p =>
      have hfound := List.find?_some hfind
      obtain rfl : p.1 = c := of_decide_eq_true hfound
      rw [hfind] at hrule
      exact pass_append (r := letter p) hrule

/-- A pass for single letters replaces every letter by itself. -/
theorem pass_letters (table : List (α × List α)) (s : List α) :
    pass (table.map letter) s = s.flatMap (subst table) := by
  induction s with
  | nil => rfl
  | cons c s ih => rw [pass_letter_cons, ih, List.flatMap_cons]

theorem subst_cons (p : α × List α) (table : List (α × List α)) (c : α) :
    subst (p :: table) c = if p.1 = c then p.2 else subst table c := by
  by_cases h : p.1 = c
  · simp [subst, h]
  · simp [subst, h]

theorem subst_of_forall_ne {table : List (α × List α)} {c : α} (h : ∀ p ∈ table, p.1 ≠ c) :
    subst table c = [c] := by
  have hnone : table.find? (fun p => p.1 = c) = none := by simpa using h
  rw [subst, hnone]

/-- A text without the letters of the table is left as it is. -/
theorem flatMap_subst_of_not_mem {table : List (α × List α)} {s : List α}
    (h : ∀ p ∈ table, p.1 ∉ s) : s.flatMap (subst table) = s := by
  induction s with
  | nil => rfl
  | cons c s ih =>
      have hc : subst table c = [c] :=
        subst_of_forall_ne fun p hp heq => h p hp (heq ▸ List.mem_cons_self)
      rw [List.flatMap_cons, hc, ih fun p hp hs => h p hp (List.mem_cons_of_mem _ hs)]
      rfl

/-- Passes for one letter each are one pass, if no letter is in an earlier replacement. -/
theorem passes_eq {table : List (α × List α)} (h : table.Pairwise fun p q => q.1 ∉ p.2)
    (s : List α) :
    table.foldl (fun s p => pass [letter p] s) s = s.flatMap (subst table) := by
  induction table generalizing s with
  | nil => exact (flatMap_subst_of_not_mem (List.forall_mem_nil _)).symm
  | cons p table ih =>
      cases h with
      | cons hp htable =>
          have hfirst : pass [letter p] s = s.flatMap (subst [p]) := pass_letters [p] s
          rw [List.foldl_cons, hfirst, ih htable, List.flatMap_assoc]
          congr 1
          funext c
          rw [subst_cons, subst_cons]
          split
          next => exact flatMap_subst_of_not_mem hp
          next => exact List.flatMap_singleton ..

/-! ## Markers and names -/

/-- Letters that are written as a name after a marker, in the order of their passes. -/
structure Escaping (α : Type u) where
  marker : α
  /-- The letters with their names. -/
  names : List (α × List α)
  /-- The marker is escaped. -/
  marker_mem : marker ∈ names.map Prod.fst
  /-- The marker is escaped first. -/
  marker_first : names.Pairwise fun _ q => q.1 ≠ marker
  /-- No letter of a name is escaped. -/
  plain : ∀ p ∈ names, ∀ q ∈ names, q.1 ∉ p.2
  /-- No name begins another one. -/
  prefixFree : names.Pairwise fun p q => ¬ p.2 <+: q.2 ∧ ¬ q.2 <+: p.2

namespace Escaping

omit [DecidableEq α] in
/-- What is written for a letter that is escaped. -/
def entity (t : Escaping α) (p : α × List α) : List α := t.marker :: p.2

omit [DecidableEq α] in
/-- The replacements: each letter by its entity. -/
def table (t : Escaping α) : List (α × List α) := t.names.map fun p => (p.1, t.entity p)

/-- Every letter is escaped by itself. -/
def escape (t : Escaping α) (s : List α) : List α := s.flatMap (subst t.table)

omit [DecidableEq α] in
/-- The letter for what is written. -/
def back (t : Escaping α) (p : α × List α) : Rule α := ⟨t.marker, p.2, [p.1]⟩

/-- One pass back. -/
def unescape (t : Escaping α) (s : List α) : List α := pass (t.names.map t.back) s

variable {t : Escaping α}

/-- A letter is written as an entity or is left as it is. -/
theorem subst_cases (t : Escaping α) (c : α) :
    (∃ p ∈ t.names, p.1 = c ∧ subst t.table c = t.entity p) ∨
      (∀ p ∈ t.names, p.1 ≠ c) ∧ subst t.table c = [c] := by
  by_cases h : ∀ p ∈ t.names, p.1 ≠ c
  · refine Or.inr ⟨h, subst_of_forall_ne fun p hp => ?_⟩
    obtain ⟨q, hq, rfl⟩ := List.mem_map.mp hp
    exact h q hq
  · refine Or.inl ?_
    rw [subst, table, List.find?_map]
    cases hfind : t.names.find? ((fun p => decide (p.1 = c)) ∘ fun p => (p.1, t.entity p)) with
    | none => exact absurd (by simpa using hfind) h
    | some p =>
        have hfound := List.find?_some hfind
        exact ⟨p, List.mem_of_find?_eq_some hfind, of_decide_eq_true hfound, rfl⟩

/-- The passes for the letters are one. -/
theorem passes_eq_escape (t : Escaping α) (s : List α) :
    t.table.foldl (fun s p => pass [letter p] s) s = t.escape s := by
  refine passes_eq ?_ s
  rw [table, List.pairwise_map]
  refine t.marker_first.imp_of_mem fun {p q} hp hq hne hmem => ?_
  rcases List.mem_cons.mp hmem with heq | hmem
  · exact hne heq
  · exact t.plain p hp q hq hmem

/-- No escaped letter is left, but for the marker. -/
theorem not_mem_escape {q : α × List α} (hq : q ∈ t.names) (hne : q.1 ≠ t.marker)
    (s : List α) : q.1 ∉ t.escape s := by
  intro hmem
  obtain ⟨c, -, hc⟩ := List.mem_flatMap.mp hmem
  rcases t.subst_cases c with ⟨p, hp, -, heq⟩ | ⟨hall, heq⟩
  · rw [heq] at hc
    rcases List.mem_cons.mp hc with hmarker | hname
    · exact hne hmarker
    · exact t.plain p hp q hq hname
  · rw [heq, List.mem_singleton] at hc
    exact hall q hq hc

omit [DecidableEq α] in
theorem marker_not_mem {p : α × List α} (hp : p ∈ t.names) : t.marker ∉ p.2 := by
  obtain ⟨q, hq, hmarker⟩ := List.mem_map.mp t.marker_mem
  rw [← hmarker]
  exact t.plain p hp q hq

/-- A marker in what is written for one letter is before the name of that letter. -/
theorem name_of_marker_subst {c : α} {pre post : List α}
    (h : subst t.table c = pre ++ t.marker :: post) : ∃ p ∈ t.names, p.2 = post := by
  rcases t.subst_cases c with ⟨p, hp, -, heq⟩ | ⟨hall, heq⟩
  · rw [heq, entity] at h
    cases pre with
    | nil => exact ⟨p, hp, (List.cons_eq_cons.mp h).2⟩
    | cons a pre =>
        have hmem : t.marker ∈ p.2 := by
          rw [(List.cons_eq_cons.mp h).2]
          exact List.mem_append_right _ List.mem_cons_self
        exact absurd hmem (marker_not_mem hp)
  · have hmem : t.marker ∈ [c] := by
      rw [← heq, h]
      exact List.mem_append_right _ List.mem_cons_self
    obtain ⟨q, hq, hmarker⟩ := List.mem_map.mp t.marker_mem
    exact absurd (hmarker.trans (List.mem_singleton.mp hmem)) (hall q hq)

/-- A marker in an escaped text begins a name. -/
theorem name_of_marker {s pre post : List α} (h : t.escape s = pre ++ t.marker :: post) :
    ∃ p ∈ t.names, p.2 <+: post := by
  induction s generalizing pre with
  | nil => simp [escape] at h
  | cons c s ih =>
      rw [escape, List.flatMap_cons, List.append_eq_append_iff] at h
      rcases h with ⟨pre', -, h⟩ | ⟨rest, hsubst, h⟩
      · exact ih h
      · cases rest with
        | nil =>
            have hs : t.escape s = [] ++ t.marker :: post := h.symm
            exact ih hs
        | cons a rest =>
            obtain ⟨rfl, rfl⟩ := List.cons_eq_cons.mp h
            obtain ⟨p, hp, rfl⟩ := name_of_marker_subst hsubst
            exact ⟨p, hp, List.prefix_append _ _⟩

/-! ## Back -/

/-- Of rules that never match together the one that matches is found. -/
theorem rule?_of_pairwise {rules : List (Rule α)} {s : List α}
    (h : rules.Pairwise fun r r' => ¬ (r.part <+: s ∧ r'.part <+: s)) {r : Rule α}
    (hr : r ∈ rules) (hmatch : r.part <+: s) : rule? rules s = some r := by
  induction rules with
  | nil => cases hr
  | cons r' rules ih =>
      cases h with
      | cons hfirst hrest =>
          rw [rule?, List.find?_cons]
          rcases List.mem_cons.mp hr with rfl | hr
          · simp [hmatch]
          · have hno : ¬ r'.part <+: s := fun hmatch' => hfirst r hr ⟨hmatch', hmatch⟩
            simpa [hno, rule?] using ih hrest hr

/-- What is written for a letter is read as that letter. -/
theorem unescape_entity {p : α × List α} (hp : p ∈ t.names) (s : List α) :
    t.unescape (t.entity p ++ s) = p.1 :: t.unescape s := by
  refine pass_append (r := t.back p) (rule?_of_pairwise ?_ (List.mem_map_of_mem hp)
    (List.prefix_append _ _))
  rw [List.pairwise_map]
  refine t.prefixFree.imp fun {q q'} hfree hmatch => ?_
  obtain ⟨hq, hq'⟩ := hmatch
  rcases List.prefix_or_prefix_of_prefix hq hq' with h | h
  · exact hfree.1 (List.cons_prefix_cons.mp h).2
  · exact hfree.2 (List.cons_prefix_cons.mp h).2

/-- A letter that is not the marker is read as it is. -/
theorem unescape_cons {c : α} (hc : c ≠ t.marker) (s : List α) :
    t.unescape (c :: s) = c :: t.unescape s := by
  refine pass_cons (List.find?_eq_none.mpr fun r hr => ?_)
  obtain ⟨p, -, rfl⟩ := List.mem_map.mp hr
  simp [back, Rule.part, List.cons_prefix_cons, hc.symm]

theorem unescape_of_not_mem : ∀ {s : List α}, t.marker ∉ s → t.unescape s = s
  | [], _ => rfl
  | c :: s, h => by
      rw [List.mem_cons, not_or] at h
      rw [unescape_cons (Ne.symm h.1), unescape_of_not_mem h.2]

/-- Reading an escaped text gives the text. -/
theorem unescape_escape (t : Escaping α) (s : List α) : t.unescape (t.escape s) = s := by
  induction s with
  | nil => rfl
  | cons c s ih =>
      rw [escape, List.flatMap_cons]
      rw [escape] at ih
      rcases t.subst_cases c with ⟨p, hp, rfl, heq⟩ | ⟨hall, heq⟩
      · rw [heq, unescape_entity hp, ih]
      · obtain ⟨q, hq, hmarker⟩ := List.mem_map.mp t.marker_mem
        rw [heq, List.singleton_append, unescape_cons (hmarker ▸ (hall q hq).symm), ih]

end Escaping

end Replace
