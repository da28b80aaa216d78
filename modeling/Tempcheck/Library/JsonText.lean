import Tempcheck.Library.Json
import Tempcheck.Library.JsonValue

/-!
# The text of JSON values

The scanner cuts a text into tokens, one character at a time.  Between tokens there may be
white space, and two words need some between them (`Layout`).  Every layout of some tokens
is scanned as these (`Layout.scan`).

So how a value is laid out does not matter to a reader.  `compact` writes no white space, and
`parse` gives the value back (`parse_compact`).  The texts that `object` and `quote` put
together are compact texts.
-/

namespace Json

open DecimalText (IsDigit)

/-! ## Characters -/

/-- White space. -/
def isSpace (c : Char) : Bool := c = ' ' || c = '\n' || c = '\r' || c = '\t'

/-- The token that a character is by itself. -/
def structural? : Char → Option Token
  | '[' => some .openArray
  | ']' => some .closeArray
  | '\x7b' => some .openObject
  | '\x7d' => some .closeObject
  | ',' => some .comma
  | ':' => some .colon
  | _ => none

/-- The characters that no word has. -/
def delimiters : List Char :=
  [' ', '\n', '\r', '\t', '[', ']', '\x7b', '\x7d', ',', ':', '"']

/-- A character of a word. -/
def Plain (c : Char) : Prop := c ∉ delimiters

instance (c : Char) : Decidable (Plain c) := inferInstanceAs (Decidable (_ ∉ _))

theorem Plain.isSpace_eq {c : Char} (h : Plain c) : isSpace c = false := by
  by_contra hspace
  rw [Bool.not_eq_false, isSpace] at hspace
  refine h ?_
  simp only [Bool.or_eq_true, decide_eq_true_eq] at hspace
  rcases hspace with ((rfl | rfl) | rfl) | rfl
  all_goals decide

theorem Plain.structural?_eq {c : Char} (h : Plain c) : structural? c = none := by
  unfold structural?
  split
  all_goals first | rfl | exact absurd h (by decide)

theorem Plain.ne_quote {c : Char} (h : Plain c) : c ≠ '"' := by
  rintro rfl
  exact absurd h (by decide)

theorem plain_of_digit {c : Char} (h : IsDigit c) : Plain c := by
  have hdelimiters : delimiters.all (¬ IsDigit ·) = true := by decide
  exact fun hc => of_decide_eq_true (List.all_eq_true.mp hdelimiters c hc) h

theorem plain_of_next {c : Char} {at_ at' : NumberAt} (h : at_.next c = some at') :
    Plain c := by
  by_cases hdigit : IsDigit c
  · exact plain_of_digit hdigit
  have hzero : c ≠ '0' := by
    rintro rfl
    exact hdigit (by decide)
  have hsign : c = '-' ∨ c = '+' ∨ c = '.' ∨ c = 'e' ∨ c = 'E' := by
    by_contra hc
    obtain ⟨h₁, h₂, h₃, h₄, h₅⟩ : c ≠ '-' ∧ c ≠ '+' ∧ c ≠ '.' ∧ c ≠ 'e' ∧ c ≠ 'E' := by
      simpa only [not_or] using hc
    cases at_ <;> simp [NumberAt.next, hdigit, hzero, h₁, h₂, h₃, h₄, h₅] at h
  rcases hsign with rfl | rfl | rfl | rfl | rfl
  all_goals decide

theorem plain_of_accepts : ∀ {cs : List Char} {at_ : NumberAt}, at_.accepts cs = true →
    ∀ c ∈ cs, Plain c
  | [], _, _ => fun _ hc => nomatch hc
  | c :: cs, at_, h => by
      rw [NumberAt.accepts] at h
      obtain ⟨at', hnext, hrest⟩ := (Option.any_eq_true ..).mp h
      exact List.forall_mem_cons.mpr ⟨plain_of_next hnext, plain_of_accepts hrest⟩

theorem plain_of_all {cs : List Char} (h : cs.all (Plain ·) = true) : ∀ c ∈ cs, Plain c :=
  fun c hc => of_decide_eq_true (List.all_eq_true.mp h c hc)

/-- A literal is a word. -/
theorem Literal.plain (l : Literal) : l.text ≠ [] ∧ ∀ c ∈ l.text, Plain c := by
  obtain ⟨cs, h⟩ := l
  change cs ≠ [] ∧ ∀ c ∈ cs, Plain c
  simp only [isLiteral, Bool.or_eq_true, decide_eq_true_eq] at h
  rcases h with ((rfl | rfl) | rfl) | h
  · exact ⟨List.cons_ne_nil _ _, plain_of_all (by decide)⟩
  · exact ⟨List.cons_ne_nil _ _, plain_of_all (by decide)⟩
  · exact ⟨List.cons_ne_nil _ _, plain_of_all (by decide)⟩
  · refine ⟨?_, plain_of_accepts h⟩
    rintro rfl
    cases h

/-! ## The scanner -/

/-- The value of a hexadecimal digit. -/
def hexDigit? (c : Char) : Option Nat :=
  if IsDigit c then some (c.toNat - 0x30)
  else if 'a' ≤ c && c ≤ 'f' then some (c.toNat - 0x57)
  else if 'A' ≤ c && c ≤ 'F' then some (c.toNat - 0x37)
  else none

/-- Where the scanner is, with the characters of the token so far, the last one first. -/
inductive Mode where
  | between
  | word (acc : List Char)
  | string (acc : List Char)
  /-- After a backslash. -/
  | escape (acc : List Char)
  /-- In a code, with its value so far and the number of digits to come. -/
  | code (acc : List Char) (n digits : Nat)

/-- The tokens of a text.  The code of a surrogate is refused. -/
def scan : Mode → List Char → Option (List Token)
  | .between, [] => some []
  | .word acc, [] => some [.word acc.reverse]
  | .string _, [] => none
  | .escape _, [] => none
  | .code _ _ _, [] => none
  | .between, c :: cs =>
      if isSpace c then scan .between cs
      else match structural? c with
        | some t => (scan .between cs).map (t :: ·)
        | none => if c = '"' then scan (.string []) cs else scan (.word [c]) cs
  | .word acc, c :: cs =>
      if isSpace c then (scan .between cs).map (.word acc.reverse :: ·)
      else match structural? c with
        | some t => (scan .between cs).map (.word acc.reverse :: t :: ·)
        | none => if c = '"' then none else scan (.word (c :: acc)) cs
  | .string acc, c :: cs =>
      if c = '"' then (scan .between cs).map (.string (String.ofList acc.reverse) :: ·)
      else if c = '\\' then scan (.escape acc) cs
      else if c.toNat < 0x20 then none
      else scan (.string (c :: acc)) cs
  | .escape acc, c :: cs =>
      match longEscape c with
      | some n => scan (.string (Char.ofNat n :: acc)) cs
      | none =>
          if c = '/' then scan (.string ('/' :: acc)) cs
          else if c = 'u' then scan (.code acc 0 4) cs
          else none
  | .code acc n digits, c :: cs =>
      match hexDigit? c with
      | none => none
      | some d =>
          if 1 < digits then scan (.code acc (n * 16 + d) (digits - 1)) cs
          else if Nat.isValidChar (n * 16 + d) then
            scan (.string (Char.ofNat (n * 16 + d) :: acc)) cs
          else none

/-- The value of a text. -/
def parse (cs : List Char) : Option Value := (scan .between cs).bind readTokens

/-! ## Strings -/

theorem hexDigit?_digitChar : ∀ d < 16, hexDigit? (Nat.digitChar d) = some d := by decide

/-- An escaped character is read back. -/
theorem scan_escape (c : Char) (acc cs : List Char) :
    scan (.string acc) (escape c ++ cs) = scan (.string (c :: acc)) cs := by
  rw [escape]
  cases hc : shortEscape c.toNat with
  | some e =>
      have hletter : scan (.escape acc) (e :: cs) = scan (.string (c :: acc)) cs := by
        rw [scan]
        simp only [longEscape_shortEscape hc, Char.ofNat_toNat]
      exact hletter
  | none =>
      by_cases hctl : c.toNat < 0x20
      · have hvalue : c.toNat / 16 * 16 + c.toNat % 16 = c.toNat := by omega
        have hzero : hexDigit? '0' = some 0 := by decide
        have hvalid : Nat.isValidChar c.toNat := c.valid
        simp only [if_pos hctl, List.cons_append, List.nil_append]
        simp [scan, longEscape, hzero, hexDigit?_digitChar (c.toNat / 16) (by omega),
          hexDigit?_digitChar (c.toNat % 16) (by omega), hvalue, hvalid, Char.ofNat_toNat]
      · have hquote : c ≠ '"' := by
          rintro rfl
          cases hc
        have hback : c ≠ '\\' := by
          rintro rfl
          cases hc
        simp [scan, if_neg hctl, hquote, hback]

theorem scan_escapes : ∀ (s acc cs : List Char),
    scan (.string acc) (s.flatMap escape ++ cs) = scan (.string (s.reverse ++ acc)) cs
  | [], acc, cs => rfl
  | c :: s, acc, cs => by
      rw [List.flatMap_cons, List.append_assoc, scan_escape, scan_escapes s, List.reverse_cons,
        List.append_assoc, List.singleton_append]

theorem toList_quote (s : String) :
    (quote s).toList = '"' :: (s.toList.flatMap escape ++ ['"']) := by
  simp [quote, String.toList_append]

/-- A quoted string is scanned as its token. -/
theorem scan_quote (s : String) (cs : List Char) :
    scan .between ((quote s).toList ++ cs) = (scan .between cs).map (.string s :: ·) := by
  have hstart : scan .between ((quote s).toList ++ cs) =
      scan (.string []) (s.toList.flatMap escape ++ '"' :: cs) := by
    rw [toList_quote, List.cons_append, List.append_assoc, List.singleton_append]
    rfl
  have hend : scan (.string s.toList.reverse) ('"' :: cs) =
      (scan .between cs).map (.string s :: ·) := by
    rw [scan, if_pos rfl, List.reverse_reverse, String.ofList_toList]
  rw [hstart, scan_escapes, List.append_nil, hend]

/-! ## Layouts -/

/-- A text that has these tokens, with white space between them.  If a word comes right
before, another word and a string need some. -/
inductive Layout : Bool → List Token → List Char → Prop where
  | nil {word : Bool} : Layout word [] []
  | space {word : Bool} {c : Char} {ts : List Token} {cs : List Char} :
      isSpace c = true → Layout false ts cs → Layout word ts (c :: cs)
  | structural {word : Bool} {c : Char} {t : Token} {ts : List Token} {cs : List Char} :
      structural? c = some t → Layout false ts cs → Layout word (t :: ts) (c :: cs)
  | word {w : List Char} {ts : List Token} {cs : List Char} :
      w ≠ [] → (∀ c ∈ w, Plain c) → Layout true ts cs → Layout false (.word w :: ts) (w ++ cs)
  | string {s : String} {ts : List Token} {cs : List Char} :
      Layout false ts cs → Layout false (.string s :: ts) ((quote s).toList ++ cs)

variable {ts : List Token} {cs : List Char}

theorem Layout.weaken (h : Layout true ts cs) : Layout false ts cs := by
  cases h with
  | nil => exact .nil
  | space hc hrest => exact .space hc hrest
  | structural hc hrest => exact .structural hc hrest

theorem isSpace_of_structural {c : Char} {t : Token} (h : structural? c = some t) :
    isSpace c = false := by
  unfold structural? at h
  split at h
  all_goals first | rfl | cases h

theorem scan_word : ∀ (w acc : List Char) (cs : List Char), (∀ c ∈ w, Plain c) →
    scan (.word acc) (w ++ cs) = scan (.word (w.reverse ++ acc)) cs
  | [], acc, cs, _ => rfl
  | c :: w, acc, cs, h => by
      obtain ⟨hc, hw⟩ := List.forall_mem_cons.mp h
      rw [List.cons_append, scan]
      simp only [hc.isSpace_eq, hc.structural?_eq, if_neg hc.ne_quote, Bool.false_eq_true,
        if_false]
      rw [scan_word w (c :: acc) cs hw, List.reverse_cons, List.append_assoc,
        List.singleton_append]

/-- Every layout is scanned as its tokens. -/
theorem Layout.scan_eq {word : Bool} (h : Layout word ts cs) : scan .between cs = some ts ∧
    (word = true → ∀ acc, scan (.word acc) cs = some (.word acc.reverse :: ts)) := by
  induction h with
  | nil => exact ⟨rfl, fun _ acc => rfl⟩
  | space hc _ ih =>
      refine ⟨?_, fun _ acc => ?_⟩
      · rw [scan, if_pos hc, ih.1]
      · rw [scan, if_pos hc, ih.1, Option.map_some]
  | structural hc _ ih =>
      have hspace := isSpace_of_structural hc
      refine ⟨?_, fun _ acc => ?_⟩
      · rw [scan]
        simp only [hspace, hc, ih.1, Bool.false_eq_true, if_false, Option.map_some]
      · rw [scan]
        simp only [hspace, hc, ih.1, Bool.false_eq_true, if_false, Option.map_some]
  | @word w ts cs hne hw _ ih =>
      refine ⟨?_, nofun⟩
      obtain ⟨c, w, rfl⟩ := List.exists_cons_of_ne_nil hne
      obtain ⟨hc, hw⟩ := List.forall_mem_cons.mp hw
      rw [List.cons_append, scan]
      simp only [hc.isSpace_eq, hc.structural?_eq, if_neg hc.ne_quote, Bool.false_eq_true,
        if_false]
      rw [scan_word w [c] cs hw, ih.2 rfl, List.reverse_append, List.reverse_reverse,
        List.reverse_singleton, List.singleton_append]
  | @string s ts cs _ ih =>
      refine ⟨?_, nofun⟩
      rw [scan_quote, ih.1, Option.map_some]

/-- So a layout of the tokens of a value is read as the value. -/
theorem Layout.parse_eq {v : Value} (h : Layout false v.tokens cs) : parse cs = some v := by
  rw [parse, h.scan_eq.1, Option.bind_some, readTokens_tokens]

/-! ## The compact text -/

mutual

/-- The text of a value without white space. -/
def Value.compact : Value → List Char
  | .literal l => l.text
  | .string s => (quote s).toList
  | .array [] => ['[', ']']
  | .array (v :: vs) => '[' :: (v.compact ++ (compactItems vs ++ [']']))
  | .object [] => ['\x7b', '\x7d']
  | .object ((name, v) :: ms) =>
      '\x7b' :: ((quote name).toList ++ ':' :: (v.compact ++ (compactMembers ms ++ ['\x7d'])))

/-- The items after the first one of an array. -/
def compactItems : List Value → List Char
  | [] => []
  | v :: vs => ',' :: (v.compact ++ compactItems vs)

/-- The members after the first one of an object. -/
def compactMembers : List (String × Value) → List Char
  | [] => []
  | (name, v) :: ms =>
      ',' :: ((quote name).toList ++ ':' :: (v.compact ++ compactMembers ms))

end

/-- The name of a member, with its colon. -/
theorem Layout.name {name : String} (h : Layout false ts cs) :
    Layout false (.string name :: .colon :: ts) ((quote name).toList ++ ':' :: cs) :=
  .string (.structural rfl h)

mutual

theorem layout_compact : ∀ (v : Value) {ts : List Token} {cs : List Char},
    Layout true ts cs → Layout false (v.tokens ++ ts) (v.compact ++ cs)
  | .literal l, ts, cs, h => by
      rw [Value.tokens, Value.compact]
      exact .word l.plain.1 l.plain.2 h
  | .string s, ts, cs, h => by
      rw [Value.tokens, Value.compact]
      exact .string h.weaken
  | .array [], ts, cs, h => .structural rfl (.structural rfl h.weaken)
  | .array (v :: vs), ts, cs, h => by
      simp only [Value.tokens, Value.compact, List.cons_append, List.append_assoc,
        List.nil_append]
      exact .structural rfl (layout_compact v (layout_compactItems vs
        (.structural rfl h.weaken)))
  | .object [], ts, cs, h => .structural rfl (.structural rfl h.weaken)
  | .object ((name, v) :: ms), ts, cs, h => by
      simp only [Value.tokens, Value.compact, List.cons_append, List.append_assoc,
        List.nil_append]
      exact .structural rfl (Layout.name (layout_compact v (layout_compactMembers ms
        (.structural rfl h.weaken))))

theorem layout_compactItems : ∀ (vs : List Value) {ts : List Token} {cs : List Char},
    Layout true ts cs → Layout true (moreItems vs ++ ts) (compactItems vs ++ cs)
  | [], ts, cs, h => by
      rw [moreItems, compactItems]
      exact h
  | v :: vs, ts, cs, h => by
      simp only [moreItems, compactItems, List.cons_append, List.append_assoc]
      exact .structural rfl (layout_compact v (layout_compactItems vs h))

theorem layout_compactMembers : ∀ (ms : List (String × Value)) {ts : List Token}
    {cs : List Char}, Layout true ts cs →
    Layout true (moreMembers ms ++ ts) (compactMembers ms ++ cs)
  | [], ts, cs, h => by
      rw [moreMembers, compactMembers]
      exact h
  | (name, v) :: ms, ts, cs, h => by
      simp only [moreMembers, compactMembers, List.cons_append, List.append_assoc]
      exact .structural rfl (Layout.name (layout_compact v (layout_compactMembers ms h)))

end

/-- The compact text is read as the value. -/
theorem parse_compact (v : Value) : parse v.compact = some v := by
  have h : Layout false (v.tokens ++ []) (v.compact ++ []) := layout_compact v .nil
  rw [List.append_nil, List.append_nil] at h
  exact h.parse_eq

/-! ## Texts that are put together -/

/-- The compact text of a value. -/
def Spells (text : String) (v : Value) : Prop := text.toList = v.compact

theorem Spells.parse_eq {text : String} {v : Value} (h : Spells text v) :
    parse text.toList = some v := by
  rw [h]
  exact parse_compact v

theorem spells_quote (s : String) : Spells (quote s) (.string s) := rfl

theorem spells_literal {text : String} (h : isLiteral text.toList = true) :
    Spells text (.literal ⟨text.toList, h⟩) := rfl

theorem toList_commas (v : String) : ∀ vs : List String,
    (commas (v :: vs)).toList = v.toList ++ vs.flatMap fun w => ',' :: w.toList
  | [] => (List.append_nil _).symm
  | w :: vs => by
      have hcons : commas (v :: w :: vs) = v ++ "," ++ commas (w :: vs) := rfl
      rw [hcons, String.toList_append, String.toList_append, toList_commas w vs,
        List.flatMap_cons, List.append_assoc]
      rfl

/-- A member of an object and its text. -/
def SpellsMember (m : String × String) (m' : String × Value) : Prop :=
  m.1 = m'.1 ∧ Spells m.2 m'.2

theorem compactMembers_of_spells {members : List (String × String)}
    {ms : List (String × Value)} (h : List.Forall₂ SpellsMember members ms) :
    compactMembers ms =
      (members.map fun m => quote m.1 ++ ":" ++ m.2).flatMap fun w => ',' :: w.toList := by
  induction h with
  | nil => rfl
  | @cons m m' members ms hm _ ih =>
      obtain ⟨name, v⟩ := m'
      rw [compactMembers, ih, List.map_cons, List.flatMap_cons, String.toList_append,
        String.toList_append, hm.1, hm.2, List.cons_append, List.append_assoc, List.append_assoc]
      rfl

/-- An object of the texts of some members spells the object of these. -/
theorem spells_object {members : List (String × String)} {ms : List (String × Value)}
    (h : List.Forall₂ SpellsMember members ms) : Spells (object members) (.object ms) := by
  cases h with
  | nil => rfl
  | @cons m m' members ms hm hrest =>
      obtain ⟨name, v⟩ := m'
      rw [Spells, object, String.toList_append, String.toList_append, List.map_cons,
        toList_commas, Value.compact, compactMembers_of_spells hrest, String.toList_append,
        String.toList_append, hm.1, hm.2, List.append_assoc, List.append_assoc,
        List.append_assoc, List.append_assoc]
      rfl

end Json
