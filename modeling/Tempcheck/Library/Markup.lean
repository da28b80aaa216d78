import Mathlib.Data.List.Basic

/-!
# Flat markup

A text with elements that have attributes and text, but no elements in them.  `Marks` has the
letters with a meaning, and `Reader.step` is the tokenizer: one letter leads from one state
to the next.  It reads the tag of an element up to `>`, its text up to `<`, and the closing
tag, which must have the same name.  Values are in quotes, and every other letter in them is
only a letter.  Between the elements there may be blanks.

The tokenizer goes over a text in parts (`run_append`), so every part of an element has one
lemma that says where it leads (`run_name`, `run_attributes`, `run_text`, `run_closing`).
Elements that are `WellFormed` are read back (`run_markup`).

Before the tokenizer a reader normalizes the line ends of a text.  Parts of it can be
normalized by themselves (`normalized_append`), and an escaping that leaves line ends alone
may come before or after (`normalized_flatMap`).
-/

namespace Markup

universe u

/-- The letters with a meaning in a markup. -/
structure Marks (α : Type u) where
  lt : α
  gt : α
  slash : α
  space : α
  newline : α
  equals : α
  quote : α
  space_ne_gt : space ≠ gt
  space_ne_lt : space ≠ lt
  newline_ne_lt : newline ≠ lt

/-- An element with its attributes and its text. -/
structure Element (α : Type u) where
  name : List α
  attributes : List (List α × List α)
  text : List α
deriving DecidableEq

/-- The state of the tokenizer. -/
inductive State (α : Type u) where
  | between
  | name (n : List α)
  | attr (n : List α) (done : List (List α × List α)) (a : List α)
  | equalled (n : List α) (done : List (List α × List α)) (a : List α)
  | value (n : List α) (done : List (List α × List α)) (a v : List α)
  | valued (n : List α) (done : List (List α × List α))
  | text (e : Element α)
  | opened (e : Element α)
  | closing (e : Element α) (n : List α)

variable {α : Type u}

/-- The elements that were read, and the state. -/
structure Reader (α : Type u) where
  elements : List (Element α)
  state : State α

variable [DecidableEq α] (m : Marks α)

/-- One letter is read. -/
def Reader.step (r : Reader α) (c : α) : Option (Reader α) :=
  match r.state with
  | .between =>
      if c = m.lt then some ⟨r.elements, .name []⟩
      else if c = m.space ∨ c = m.newline then some r
      else none
  | .name n =>
      if c = m.gt then some ⟨r.elements, .text ⟨n, [], []⟩⟩
      else if c = m.space then some ⟨r.elements, .attr n [] []⟩
      else some ⟨r.elements, .name (n ++ [c])⟩
  | .attr n done a =>
      if c = m.equals then some ⟨r.elements, .equalled n done a⟩
      else some ⟨r.elements, .attr n done (a ++ [c])⟩
  | .equalled n done a =>
      if c = m.quote then some ⟨r.elements, .value n done a []⟩ else none
  | .value n done a v =>
      if c = m.quote then some ⟨r.elements, .valued n (done ++ [(a, v)])⟩
      else some ⟨r.elements, .value n done a (v ++ [c])⟩
  | .valued n done =>
      if c = m.gt then some ⟨r.elements, .text ⟨n, done, []⟩⟩
      else if c = m.space then some ⟨r.elements, .attr n done []⟩
      else none
  | .text e =>
      if c = m.lt then some ⟨r.elements, .opened e⟩
      else some ⟨r.elements, .text { e with text := e.text ++ [c] }⟩
  | .opened e =>
      if c = m.slash then some ⟨r.elements, .closing e []⟩ else none
  | .closing e n =>
      if c = m.gt then
        if n = e.name then some ⟨r.elements ++ [e], .between⟩ else none
      else some ⟨r.elements, .closing e (n ++ [c])⟩

/-- The tokenizer reads a text. -/
def Reader.run (r : Reader α) (s : List α) : Option (Reader α) :=
  s.foldlM (Reader.step m) r

/-- The elements of a text. -/
def read (s : List α) : Option (List (Element α)) :=
  match Reader.run m ⟨[], .between⟩ s with
  | some ⟨elements, .between⟩ => some elements
  | _ => none

/-! ## Writing -/

/-- An attribute in the tag of an element. -/
def attr (a : List α × List α) : List α :=
  m.space :: a.1 ++ m.equals :: m.quote :: a.2 ++ [m.quote]

/-- The text of an element with its tags. -/
def Element.markup (e : Element α) : List α :=
  m.lt :: e.name ++ e.attributes.flatMap (attr m) ++ m.gt :: e.text ++
    m.lt :: m.slash :: e.name ++ [m.gt]

/-- No letter has a meaning where it stands. -/
structure Element.WellFormed (e : Element α) : Prop where
  name : m.gt ∉ e.name ∧ m.space ∉ e.name
  attributes : ∀ a ∈ e.attributes, m.equals ∉ a.1 ∧ m.quote ∉ a.2
  text : m.lt ∉ e.text

/-! ## Reading what was written -/

variable {m} {r : Reader α} {done : List (Element α)}

theorem run_append {s s' : List α} {r' : Reader α} (h : r.run m s = some r') :
    r.run m (s ++ s') = r'.run m s' := by
  rw [Reader.run, List.foldlM_append]
  rw [Reader.run] at h
  rw [h]
  rfl

theorem run_cons {c : α} {s : List α} {r' : Reader α} (h : r.step m c = some r') :
    r.run m (c :: s) = r'.run m s := by
  rw [Reader.run, List.foldlM_cons, h]
  rfl

/-- Letters that are only collected. -/
theorem run_collect (state : List α → State α) (mark : α → Prop)
    (hstep : ∀ acc c, ¬ mark c →
      Reader.step m ⟨done, state acc⟩ c = some ⟨done, state (acc ++ [c])⟩) :
    ∀ (s acc : List α), (∀ c ∈ s, ¬ mark c) →
      Reader.run m ⟨done, state acc⟩ s = some ⟨done, state (acc ++ s)⟩
  | [], acc, _ => by rw [List.append_nil]; rfl
  | c :: s, acc, h => by
      obtain ⟨hc, hs⟩ := List.forall_mem_cons.mp h
      rw [run_cons (hstep acc c hc), run_collect state mark hstep s (acc ++ [c]) hs,
        List.append_assoc, List.singleton_append]

theorem run_name {n : List α} (h : m.gt ∉ n ∧ m.space ∉ n) :
    Reader.run m ⟨done, .name []⟩ n = some ⟨done, .name n⟩ := by
  refine run_collect _ (fun c => c = m.gt ∨ c = m.space) (fun acc c hc => ?_) n [] ?_
  · obtain ⟨hgt, hspace⟩ := not_or.mp hc
    simp only [Reader.step, if_neg hgt, if_neg hspace]
  · rintro c hc (rfl | rfl)
    · exact h.1 hc
    · exact h.2 hc

/-- An attribute, from the space before it on. -/
theorem run_attr {n : List α} {as : List (List α × List α)} {a : List α × List α}
    (h : m.equals ∉ a.1 ∧ m.quote ∉ a.2) {state : State α}
    (hstate : Reader.step m ⟨done, state⟩ m.space = some ⟨done, .attr n as []⟩) :
    Reader.run m ⟨done, state⟩ (attr m a) = some ⟨done, .valued n (as ++ [a])⟩ := by
  have hname : Reader.run m ⟨done, .attr n as []⟩ a.1 = some ⟨done, .attr n as a.1⟩ := by
    refine run_collect _ (· = m.equals) (fun acc c hc => ?_) a.1 [] ?_
    · simp only [Reader.step, if_neg hc]
    · rintro c hc rfl
      exact h.1 hc
  have hvalue : Reader.run m ⟨done, .value n as a.1 []⟩ a.2 = some ⟨done, .value n as a.1 a.2⟩ := by
    refine run_collect _ (· = m.quote) (fun acc c hc => ?_) a.2 [] ?_
    · simp only [Reader.step, if_neg hc]
    · rintro c hc rfl
      exact h.2 hc
  have hequals : Reader.step m ⟨done, .attr n as a.1⟩ m.equals =
      some ⟨done, .equalled n as a.1⟩ := by
    simp only [Reader.step, if_true]
  have hopen : Reader.step m ⟨done, .equalled n as a.1⟩ m.quote =
      some ⟨done, .value n as a.1 []⟩ := by
    simp only [Reader.step, if_true]
  have hclose : Reader.step m ⟨done, .value n as a.1 a.2⟩ m.quote =
      some ⟨done, .valued n (as ++ [a])⟩ := by
    simp only [Reader.step, if_true]
  simp only [attr, List.cons_append, List.append_assoc]
  rw [run_cons hstate, run_append hname, run_cons hequals, run_cons hopen, run_append hvalue,
    run_cons hclose]
  rfl

/-- The state after the name and the attributes of a tag. -/
def tagState (n : List α) (as : List (List α × List α)) : State α :=
  if as = [] then .name n else .valued n as

theorem step_tagState_space (n : List α) (as : List (List α × List α)) :
    Reader.step m ⟨done, tagState n as⟩ m.space = some ⟨done, .attr n as []⟩ := by
  rw [tagState]
  split
  next h =>
    rw [h]
    simp only [Reader.step, if_neg m.space_ne_gt, if_true]
  next => simp only [Reader.step, if_neg m.space_ne_gt, if_true]

theorem step_tagState_gt (n : List α) (as : List (List α × List α)) :
    Reader.step m ⟨done, tagState n as⟩ m.gt = some ⟨done, .text ⟨n, as, []⟩⟩ := by
  rw [tagState]
  split
  next h =>
    rw [h]
    simp only [Reader.step, if_true]
  next => simp only [Reader.step, if_true]

theorem run_attributes {n : List α} :
    ∀ (as as' : List (List α × List α)), (∀ a ∈ as', m.equals ∉ a.1 ∧ m.quote ∉ a.2) →
      Reader.run m ⟨done, tagState n as⟩ (as'.flatMap (attr m)) =
        some ⟨done, tagState n (as ++ as')⟩
  | as, [], _ => by rw [List.append_nil]; rfl
  | as, a :: as', h => by
      obtain ⟨ha, has'⟩ := List.forall_mem_cons.mp h
      have hvalued : State.valued n (as ++ [a]) = tagState n (as ++ [a]) := by
        rw [tagState, if_neg (List.append_ne_nil_of_right_ne_nil _ (List.cons_ne_nil _ _))]
      rw [List.flatMap_cons, run_append (run_attr ha (step_tagState_space n as)), hvalued,
        run_attributes (as ++ [a]) as' has', List.append_assoc, List.singleton_append]

theorem run_text {n : List α} {as : List (List α × List α)} {s : List α} (h : m.lt ∉ s) :
    Reader.run m ⟨done, .text ⟨n, as, []⟩⟩ s = some ⟨done, .text ⟨n, as, s⟩⟩ := by
  refine run_collect (fun acc => .text ⟨n, as, acc⟩) (· = m.lt)
    (fun acc c hc => ?_) s [] ?_
  · simp only [Reader.step, if_neg hc]
  · rintro c hc rfl
    exact h hc

theorem run_closing {e : Element α} (h : m.gt ∉ e.name) :
    Reader.run m ⟨done, .closing e []⟩ (e.name ++ [m.gt]) = some ⟨done ++ [e], .between⟩ := by
  have hname : Reader.run m ⟨done, .closing e []⟩ e.name = some ⟨done, .closing e e.name⟩ := by
    refine run_collect _ (· = m.gt) (fun acc c hc => ?_) e.name [] ?_
    · simp only [Reader.step, if_neg hc]
    · rintro c hc rfl
      exact h hc
  have hend : Reader.step m ⟨done, .closing e e.name⟩ m.gt = some ⟨done ++ [e], .between⟩ := by
    simp only [Reader.step, if_true]
  rw [run_append hname, run_cons hend]
  rfl

/-- A well-formed element is read from its tags. -/
theorem run_markup {e : Element α} (h : e.WellFormed m) :
    Reader.run m ⟨done, .between⟩ (e.markup m) = some ⟨done ++ [e], .between⟩ := by
  have hbegin : Reader.step m ⟨done, .between⟩ m.lt = some ⟨done, .name []⟩ := by
    simp only [Reader.step, if_true]
  have hname : State.name e.name = tagState e.name [] := by rw [tagState, if_pos rfl]
  have hlt : Reader.step m ⟨done, .text e⟩ m.lt = some ⟨done, .opened e⟩ := by
    simp only [Reader.step, if_true]
  have hslash : Reader.step m ⟨done, .opened e⟩ m.slash = some ⟨done, .closing e []⟩ := by
    simp only [Reader.step, if_true]
  rw [Element.markup]
  simp only [List.append_assoc, List.cons_append]
  rw [run_cons hbegin, run_append (run_name h.name), hname,
    run_append (run_attributes [] e.attributes h.attributes), List.nil_append,
    run_cons (step_tagState_gt e.name e.attributes), run_append (run_text h.text),
    run_cons hlt, run_cons hslash, run_closing h.name.1]

/-- A text, outside of elements, is read as these elements. -/
def Writes (m : Marks α) (s : List α) (es : List (Element α)) : Prop :=
  ∀ done, Reader.run m ⟨done, .between⟩ s = some ⟨done ++ es, .between⟩

namespace Writes

variable {s s' : List α} {es es' : List (Element α)}

theorem nil : Writes m [] [] := fun done => by rw [List.append_nil]; rfl

theorem append (h : Writes m s es) (h' : Writes m s' es') : Writes m (s ++ s') (es ++ es') := by
  intro done
  rw [run_append (h done), h', List.append_assoc]

theorem element {e : Element α} (h : e.WellFormed m) : Writes m (e.markup m) [e] :=
  fun _ => run_markup h

theorem blank {c : α} (h : c = m.space ∨ c = m.newline) (hs : Writes m s es) :
    Writes m (c :: s) es := by
  intro done
  have hne : c ≠ m.lt := by
    rcases h with rfl | rfl
    · exact m.space_ne_lt
    · exact m.newline_ne_lt
  have hstep : Reader.step m ⟨done, .between⟩ c = some ⟨done, .between⟩ := by
    simp only [Reader.step, if_neg hne, if_pos h]
  rw [run_cons hstep, hs]

theorem flatMap {β : Type*} {f : β → List α} {g : β → Element α} :
    ∀ l : List β, (∀ b ∈ l, Writes m (f b) [g b]) → Writes m (l.flatMap f) (l.map g)
  | [], _ => nil
  | b :: l, h => by
      obtain ⟨hb, hl⟩ := List.forall_mem_cons.mp h
      exact hb.append (flatMap l hl)

theorem read_eq (h : Writes m s es) : read m s = some es := by
  rw [read, h []]
  rfl

end Writes

/-! ## Line ends -/

section

variable (cr lf : α)

/-- The text with one letter for the end of a line: `cr` alone and `cr lf` become `lf`. -/
def normalized : List α → List α
  | [] => []
  | c :: s =>
      if c = cr then if s.head? = some lf then normalized s else lf :: normalized s
      else c :: normalized s

variable {cr lf}

theorem normalized_cons (c : α) (s : List α) : normalized cr lf (c :: s) =
    if c = cr then if s.head? = some lf then normalized cr lf s else lf :: normalized cr lf s
    else c :: normalized cr lf s := rfl

theorem normalized_of_not_mem : ∀ {s : List α}, cr ∉ s → normalized cr lf s = s
  | [], _ => rfl
  | c :: s, h => by
      obtain ⟨hc, hs⟩ := not_or.mp (mt List.mem_cons.mpr h)
      rw [normalized, if_neg (Ne.symm hc), normalized_of_not_mem hs]

theorem mem_of_mem_normalized {c : α} :
    ∀ {s : List α}, c ∈ normalized cr lf s → c ∈ s ∨ c = lf
  | d :: s, h => by
      have hrest : c ∈ normalized cr lf s → c ∈ d :: s ∨ c = lf := fun h =>
        (mem_of_mem_normalized h).imp_left (List.mem_cons_of_mem d)
      rw [normalized] at h
      split at h
      · split at h
        · exact hrest h
        · exact (List.mem_cons.mp h).elim Or.inr hrest
      · exact (List.mem_cons.mp h).elim (fun h => Or.inl (h ▸ List.mem_cons_self ..)) hrest

/-- Only a `cr` at the end of a part can belong to the next part. -/
theorem normalized_append {s' : List α} : ∀ {s : List α},
    s.getLast? ≠ some cr ∨ s'.head? ≠ some lf →
      normalized cr lf (s ++ s') = normalized cr lf s ++ normalized cr lf s'
  | [], _ => rfl
  | [c], h => by
      rw [List.singleton_append, normalized, normalized]
      split
      next hc =>
        have hhead : s'.head? ≠ some lf := h.resolve_left fun h => h (by rw [hc]; rfl)
        rw [if_neg hhead, if_neg (by simp)]
        rfl
      · rfl
  | c :: d :: s, h => by
      have hrest : normalized cr lf (d :: s ++ s') =
          normalized cr lf (d :: s) ++ normalized cr lf s' :=
        normalized_append (h.imp_left fun h => by rwa [List.getLast?_cons_cons] at h)
      have hhead : (d :: s ++ s').head? = (d :: s).head? := rfl
      rw [List.cons_append, normalized_cons c, normalized_cons c, hhead, hrest]
      split
      · split
        · rfl
        · rfl
      · rfl

/-- An escaping that leaves line ends alone commutes with normalizing. -/
theorem normalized_flatMap {f : α → List α} (hne : cr ≠ lf) (hcr : f cr = [cr])
    (hlf : f lf = [lf]) (hmem : ∀ c, c ≠ cr → cr ∉ f c)
    (hhead : ∀ c, c ≠ lf → ∃ d s, f c = d :: s ∧ d ≠ lf) : ∀ s : List α,
    normalized cr lf (s.flatMap f) = (normalized cr lf s).flatMap f
  | [] => rfl
  | c :: s => by
      have hrest := normalized_flatMap hne hcr hlf hmem hhead s
      by_cases hc : c = cr
      · have hnext : (s.flatMap f).head? = some lf ↔ s.head? = some lf := by
          cases s with
          | nil => exact Iff.rfl
          | cons d s =>
              by_cases hd : d = lf
              · simp [hd, hlf]
              · obtain ⟨e, s', heq, he⟩ := hhead d hd
                simp [heq, hd, he]
        rw [hc, List.flatMap_cons, hcr, List.singleton_append, normalized, normalized, if_pos rfl,
          if_pos rfl, hrest]
        simp only [hnext]
        split
        · rfl
        · rw [List.flatMap_cons, hlf]
          rfl
      · have hlast : (f c).getLast? ≠ some cr := fun h =>
          hmem c hc (List.mem_of_getLast? h)
        rw [List.flatMap_cons, normalized_append (Or.inl hlast),
          normalized_of_not_mem (hmem c hc), hrest, normalized, if_neg hc, List.flatMap_cons]

/-- An element whose tags have no `cr` is normalized in its text. -/
theorem normalized_markup {m : Marks α} {e : Element α}
    (hopening : cr ∉ m.lt :: e.name ++ e.attributes.flatMap (attr m) ++ [m.gt])
    (hclosing : cr ∉ m.lt :: m.slash :: e.name ++ [m.gt]) :
    normalized cr m.newline (e.markup m) =
      ({ e with text := normalized cr m.newline e.text } : Element α).markup m := by
  have hparts : ∀ text : List α, ({ e with text := text } : Element α).markup m =
      (m.lt :: e.name ++ e.attributes.flatMap (attr m) ++ [m.gt]) ++
        (text ++ (m.lt :: m.slash :: e.name ++ [m.gt])) := by
    intro text
    simp only [Element.markup, List.append_assoc, List.cons_append, List.nil_append]
  have hlast : (m.lt :: e.name ++ e.attributes.flatMap (attr m) ++ [m.gt]).getLast? ≠ some cr :=
    fun h => hopening (List.mem_of_getLast? h)
  have hhead : (m.lt :: m.slash :: e.name ++ [m.gt]).head? ≠ some m.newline :=
    fun h => m.newline_ne_lt (Option.some.inj h).symm
  refine (congrArg _ (hparts e.text)).trans ?_
  rw [hparts, normalized_append (Or.inl hlast), normalized_append (Or.inr hhead),
    normalized_of_not_mem hopening, normalized_of_not_mem hclosing]

end

end Markup
