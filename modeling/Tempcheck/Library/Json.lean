import Mathlib.Data.String.Basic

/-!
# JSON text

The compact text of JSON values, as an encoder without a tree writes it: a value is given
by its text, and `array` and `object` put such texts together.  Strings are quoted with
the short escapes where JSON has one, and other control characters by their code.

A quoted string determines the string (`quote_injective`), since each escape can be read
back whatever follows it (`unescape_escape`).
-/

namespace Json

/-! ## Escapes -/

/-- The letter of a short escape, by the code of the character. -/
def shortEscape : Nat → Option Char
  | 0x08 => some 'b'
  | 0x09 => some 't'
  | 0x0A => some 'n'
  | 0x0C => some 'f'
  | 0x0D => some 'r'
  | 0x22 => some '"'
  | 0x5C => some '\\'
  | _ => none

/-- A character inside a quoted string. -/
def escape (c : Char) : List Char :=
  match shortEscape c.toNat with
  | some e => ['\\', e]
  | none =>
      if c.toNat < 0x20 then
        ['\\', 'u', '0', '0', Nat.digitChar (c.toNat / 16), Nat.digitChar (c.toNat % 16)]
      else [c]

/-- The code of a short escape. -/
def longEscape : Char → Option Nat
  | 'b' => some 0x08
  | 't' => some 0x09
  | 'n' => some 0x0A
  | 'f' => some 0x0C
  | 'r' => some 0x0D
  | '"' => some 0x22
  | '\\' => some 0x5C
  | _ => none

/-- The value of a hexadecimal digit in lower case. -/
def hexVal (c : Char) : Nat := if c.toNat < 0x3A then c.toNat - 0x30 else c.toNat - 0x57

/-- What follows the backslash of an escape, and the rest. -/
def readEscape : List Char → Option (Nat × List Char)
  | [] => none
  | e :: cs =>
      match longEscape e with
      | some n => some (n, cs)
      | none => some (hexVal (cs.getD 2 e) * 16 + hexVal (cs.getD 3 e), cs.drop 4)

/-- The first character of the inside of a quoted string, and the rest. -/
def unescape : List Char → Option (Char × List Char)
  | [] => none
  | c :: cs =>
      if c = '\\' then (readEscape cs).map fun x => (Char.ofNat x.1, x.2) else some (c, cs)

theorem longEscape_shortEscape {n : Nat} {e : Char} (h : shortEscape n = some e) :
    longEscape e = some n := by
  unfold shortEscape at h
  split at h
  all_goals cases h
  all_goals rfl

theorem hexVal_digitChar : ∀ d < 16, hexVal (Nat.digitChar d) = d := by decide

/-- An escape is read back, whatever follows. -/
theorem unescape_escape (c : Char) (cs : List Char) :
    unescape (escape c ++ cs) = some (c, cs) := by
  rw [escape]
  cases hc : shortEscape c.toNat with
  | some e =>
      have hread : readEscape (e :: cs) = some (c.toNat, cs) := by
        rw [readEscape, longEscape_shortEscape hc]
      change (readEscape (e :: cs)).map _ = _
      rw [hread, Option.map_some, Char.ofNat_toNat]
  | none =>
      by_cases hctl : c.toNat < 0x20
      · have hdigits : c.toNat / 16 * 16 + c.toNat % 16 = c.toNat := by omega
        simp only [if_pos hctl]
        change some (Char.ofNat (hexVal (Nat.digitChar (c.toNat / 16)) * 16 +
          hexVal (Nat.digitChar (c.toNat % 16))), cs) = _
        rw [hexVal_digitChar _ (by omega), hexVal_digitChar _ (by omega), hdigits,
          Char.ofNat_toNat]
      · have hne : c ≠ '\\' := by
          rintro rfl
          cases hc
        simp only [if_neg hctl]
        exact if_neg hne

theorem flatMap_escape_injective : ∀ {cs ds : List Char},
    cs.flatMap escape = ds.flatMap escape → cs = ds
  | [], [], _ => rfl
  | [], d :: ds, h => by
      have := unescape_escape d (ds.flatMap escape)
      rw [← List.flatMap_cons, ← h] at this
      cases this
  | c :: cs, [], h => by
      have := unescape_escape c (cs.flatMap escape)
      rw [← List.flatMap_cons, h] at this
      cases this
  | c :: cs, d :: ds, h => by
      have hc := unescape_escape c (cs.flatMap escape)
      rw [← List.flatMap_cons, h, List.flatMap_cons, unescape_escape] at hc
      obtain ⟨rfl, hrest⟩ := Prod.mk.inj (Option.some.inj hc)
      rw [flatMap_escape_injective hrest.symm]

/-! ## Values -/

/-- A string. -/
def quote (s : String) : String := "\"" ++ String.ofList (s.toList.flatMap escape) ++ "\""

/-- A string or `null`. -/
def nullable : Option String → String
  | none => "null"
  | some s => quote s

/-- Texts with commas between them. -/
def commas : List String → String
  | [] => ""
  | [v] => v
  | v :: vs => v ++ "," ++ commas vs

/-- An array of the values with these texts. -/
def array (values : List String) : String := "[" ++ commas values ++ "]"

/-- An object with the names and the texts of its members. -/
def object (members : List (String × String)) : String :=
  "\x7b" ++ commas (members.map fun m => quote m.1 ++ ":" ++ m.2) ++ "\x7d"

example : object [("name", quote "a\"b\n"), ("token", nullable none)] =
    "\x7b\"name\":\"a\\\"b\\n\",\"token\":null\x7d" := by decide

/-! ## Injectivity -/

theorem quote_injective : Function.Injective quote := by
  intro s t h
  rw [quote, quote, String.append_left_inj, String.append_right_inj] at h
  exact String.toList_inj.mp (flatMap_escape_injective (String.ofList_injective h))

theorem nullable_injective : Function.Injective nullable := by
  intro s t h
  have hne : ∀ s : String, quote s ≠ "null" := by
    intro s hs
    have := congrArg String.toList hs
    rw [quote, String.toList_append, String.toList_append] at this
    cases this
  cases s with
  | none =>
      cases t with
      | none => rfl
      | some t => exact absurd h.symm (hne t)
  | some s =>
      cases t with
      | none => exact absurd h (hne s)
      | some t => rw [quote_injective h]

theorem commas_last {v v' : String} : ∀ vs : List String,
    commas (vs ++ [v]) = commas (vs ++ [v']) → v = v'
  | [], h => h
  | [w], h => by
      simpa only [List.cons_append, List.nil_append, commas, String.append_right_inj] using h
  | w :: w' :: vs, h => by
      simp only [List.cons_append, commas, String.append_right_inj] at h
      exact commas_last (w' :: vs) h

/-- Two objects that differ at most in their last value differ there. -/
theorem object_last (members : List (String × String)) {name v v' : String}
    (h : object (members ++ [(name, v)]) = object (members ++ [(name, v')])) : v = v' := by
  rw [object, object, String.append_left_inj, String.append_right_inj, List.map_append,
    List.map_append] at h
  exact (String.append_right_inj _).mp (commas_last _ h)

theorem object_ne_empty (members : List (String × String)) : object members ≠ "" := by
  simp [object]

/-! ## One line -/

/-- A text without a line feed. -/
def OneLine (s : String) : Prop := '\n' ∉ s.toList

instance (s : String) : Decidable (OneLine s) := inferInstanceAs (Decidable (_ ∉ _))

theorem OneLine.append {s t : String} (hs : OneLine s) (ht : OneLine t) : OneLine (s ++ t) := by
  rw [OneLine, String.toList_append, List.mem_append]
  exact not_or.mpr ⟨hs, ht⟩

/-- An escape has no line feed, since that is escaped itself. -/
theorem newline_not_mem_escape (c : Char) : '\n' ∉ escape c := by
  have hdigit : ∀ d < 16, '\n' ≠ Nat.digitChar d := by decide
  rw [escape]
  cases hc : shortEscape c.toNat with
  | some e =>
      have he : '\n' ≠ e := by
        rintro rfl
        cases longEscape_shortEscape hc
      simp [he]
  | none =>
      by_cases hctl : c.toNat < 0x20
      · simp [hctl, hdigit (c.toNat / 16) (by omega), hdigit (c.toNat % 16) (by omega)]
      · have hne : '\n' ≠ c := by
          rintro rfl
          exact hctl (by decide)
        simp [hctl, hne]

theorem oneLine_quote (s : String) : OneLine (quote s) := by
  have hescaped : OneLine (String.ofList (s.toList.flatMap escape)) := by
    rw [OneLine, String.toList_ofList, List.mem_flatMap]
    rintro ⟨c, -, hc⟩
    exact newline_not_mem_escape c hc
  have hmark : OneLine "\"" := by decide
  exact (hmark.append hescaped).append hmark

theorem oneLine_repr (n : Nat) : OneLine n.repr := by
  rw [OneLine, Nat.repr, String.toList_ofList]
  intro h
  have hdigit := Nat.isDigit_of_mem_toDigits (by decide) (by decide) h
  cases hdigit

theorem oneLine_commas : ∀ {values : List String}, (∀ v ∈ values, OneLine v) →
    OneLine (commas values)
  | [], _ => List.not_mem_nil
  | [v], h => h v (List.mem_cons_self ..)
  | v :: v' :: vs, h => by
      have hcomma : OneLine "," := by decide
      have hv := h v (List.mem_cons_self ..)
      exact (hv.append hcomma).append
        (oneLine_commas fun u hu => h u (List.mem_cons_of_mem _ hu))

/-- An object is one line if its values are. -/
theorem oneLine_object {members : List (String × String)} (h : ∀ m ∈ members, OneLine m.2) :
    OneLine (object members) := by
  have hopen : OneLine "\x7b" := by decide
  have hclose : OneLine "\x7d" := by decide
  have hcolon : OneLine ":" := by decide
  refine (hopen.append (oneLine_commas fun v hv => ?_)).append hclose
  obtain ⟨m, hm, rfl⟩ := List.mem_map.mp hv
  exact ((oneLine_quote m.1).append hcolon).append (h m hm)

end Json
