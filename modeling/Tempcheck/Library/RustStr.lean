import Tempcheck.Library.DecimalText
import Mathlib.Data.List.DropRight
import Mathlib.Data.List.Infix

/-!
# Text functions of the Rust standard library

The methods of `str` and `OsStr` that programs use to read small files and command output,
over characters and bytes.  The functions on `List Char` do the work, and the functions on
`String` have the names of the Rust methods.

`OsString.toStr?` is the text of the bytes that are UTF-8.  `OsString.toStringLossy` is the
decoder of `to_string_lossy`: each maximal part of a broken
sequence becomes one replacement character.  It reads one byte at a time, and `Pending` is
what it remembers inside a sequence.
-/

namespace RustStr

open DecimalText

/-! ## Whitespace -/

/-- `char::is_whitespace`, the Unicode property `White_Space`. -/
def isWhitespace (c : Char) : Bool :=
  let n := c.toNat
  n = 0x20 || (0x09 ≤ n && n ≤ 0x0D) || n = 0x85 || n = 0xA0 || n = 0x1680 ||
    (0x2000 ≤ n && n ≤ 0x200A) || n = 0x2028 || n = 0x2029 || n = 0x202F || n = 0x205F ||
    n = 0x3000

/-- `trim` on characters. -/
def trimChars (cs : List Char) : List Char :=
  (cs.dropWhile isWhitespace).rdropWhile isWhitespace

/-- `str::trim`. -/
def trim (s : String) : String := String.ofList (trimChars s.toList)

theorem trimChars_cons {c : Char} (hc : isWhitespace c = true) (cs : List Char) :
    trimChars (c :: cs) = trimChars cs := by
  rw [trimChars, List.dropWhile_cons_of_pos hc, trimChars]

theorem trimChars_concat {c : Char} (hc : isWhitespace c = true) (cs : List Char) :
    trimChars (cs ++ [c]) = trimChars cs := by
  rw [trimChars, trimChars, List.dropWhile_append]
  by_cases h : (cs.dropWhile isWhitespace).isEmpty
  · rw [if_pos h, List.isEmpty_iff.mp h, List.dropWhile_cons_of_pos hc]
    rfl
  · rw [if_neg h, List.rdropWhile_concat_pos _ _ _ hc]

/-- A text is trimmed if neither end is whitespace. -/
theorem trimChars_eq_self_iff {cs : List Char} : trimChars cs = cs ↔
    (∀ c ∈ cs.head?, isWhitespace c = false) ∧ ∀ c ∈ cs.getLast?, isWhitespace c = false := by
  have hboth : trimChars cs = cs ↔
      cs.dropWhile isWhitespace = cs ∧ cs.rdropWhile isWhitespace = cs := by
    constructor
    · intro h
      have hsuffix : cs.dropWhile isWhitespace <:+ cs := List.dropWhile_suffix _
      have hle := (List.rdropWhile_prefix isWhitespace (l := cs.dropWhile isWhitespace)).length_le
      change (trimChars cs).length ≤ _ at hle
      rw [h] at hle
      have hfirst := hsuffix.eq_of_length (Nat.le_antisymm hsuffix.length_le hle)
      rw [trimChars, hfirst] at h
      exact ⟨hfirst, h⟩
    · rintro ⟨hfirst, hlast⟩
      rw [trimChars, hfirst, hlast]
  rw [hboth, List.dropWhile_eq_self_iff, List.rdropWhile_eq_self_iff]
  cases cs with
  | nil => simp
  | cons c cs => simp [List.getLast?_eq_some_getLast]

/-! ## Parts of a text -/

/-- `str::starts_with`. -/
def startsWith (s pat : String) : Bool := pat.toList.isPrefixOf s.toList

/-- `str::ends_with`. -/
def endsWith (s pat : String) : Bool := pat.toList.isSuffixOf s.toList

/-- `str::contains`. -/
def contains (s pat : String) : Bool := s.toList.tails.any (pat.toList.isPrefixOf ·)

theorem contains_iff {s pat : String} : contains s pat = true ↔ pat.toList <:+: s.toList := by
  rw [contains, List.any_eq_true, List.infix_iff_prefix_suffix]
  constructor
  · rintro ⟨t, ht, hpat⟩
    exact ⟨t, List.isPrefixOf_iff_prefix.mp hpat, (List.mem_tails _ _).mp ht⟩
  · rintro ⟨t, hpat, ht⟩
    exact ⟨t, (List.mem_tails _ _).mpr ht, List.isPrefixOf_iff_prefix.mpr hpat⟩

/-- No copy of `pat` begins in `cs`, whatever follows it. -/
def beginsNone (pat : List Char) : List Char → Bool
  | [] => true
  | c :: cs => !(c :: cs).isPrefixOf pat && !pat.isPrefixOf (c :: cs) && beginsNone pat cs

theorem infix_append_iff {pat rest : List Char} : ∀ {cs : List Char}, beginsNone pat cs = true →
    (pat <:+: cs ++ rest ↔ pat <:+: rest)
  | [], _ => Iff.rfl
  | c :: cs, h => by
      rw [beginsNone, Bool.and_eq_true, Bool.and_eq_true, Bool.not_eq_true',
        Bool.not_eq_true'] at h
      obtain ⟨⟨hcs, hpat⟩, hlater⟩ := h
      rw [List.cons_append, List.infix_cons_iff, infix_append_iff hlater, or_iff_right]
      intro hbegin
      rcases List.prefix_or_prefix_of_prefix hbegin (List.prefix_append (c :: cs) rest) with h | h
      · rw [List.isPrefixOf_iff_prefix.mpr h] at hpat
        cases hpat
      · rw [List.isPrefixOf_iff_prefix.mpr h] at hcs
        cases hcs

theorem contains_append {text s pat : String} (h : beginsNone pat.toList text.toList = true) :
    contains (text ++ s) pat = contains s pat := by
  rw [Bool.eq_iff_iff, contains_iff, contains_iff, String.toList_append, infix_append_iff h]

/-- `str::as_bytes`. -/
def asBytes (s : String) : List UInt8 := s.toList.flatMap String.utf8EncodeChar

/-- The text without its leading copies of `pat`, at most `fuel` of them. -/
def dropCopies (pat : List Char) : Nat → List Char → List Char
  | 0, cs => cs
  | fuel + 1, cs =>
      match cs.dropPrefix? pat with
      | some rest => dropCopies pat fuel rest
      | none => cs

/-- `str::trim_start_matches` of a nonempty pattern. -/
def trimStartMatches (s pat : String) : String :=
  String.ofList (dropCopies pat.toList s.toList.length s.toList)

/-- `str::trim_end_matches` of a nonempty pattern. -/
def trimEndMatches (s pat : String) : String :=
  String.ofList (dropCopies pat.toList.reverse s.toList.length s.toList.reverse).reverse

/-! ## Lines and fields -/

/-- A line without the carriage return before its end. -/
def stripCr (line : List Char) : List Char :=
  if line.getLast? = some '\r' then line.dropLast else line

/-- `lines` on characters. -/
def linesChars (cs : List Char) : List (List Char) :=
  let parts := cs.splitOn '\n'
  let last := parts.getLastD []
  parts.dropLast.map stripCr ++ if last = [] then [] else [last]

/-- `str::lines`: an empty last line does not count, and a carriage return is dropped only
before a line feed. -/
def lines (s : String) : List String := (linesChars s.toList).map String.ofList

/-- `str::split` at a character. -/
def split (s : String) (sep : Char) : List String := (s.toList.splitOn sep).map String.ofList

theorem trimChars_stripCr (line : List Char) : trimChars (stripCr line) = trimChars line := by
  rw [stripCr]
  split
  next h =>
    obtain ⟨init, rfl⟩ := List.getLast?_eq_some_iff.mp h
    rw [List.dropLast_concat, trimChars_concat (by decide)]
  next => rfl

/-- The first line of a text. -/
theorem linesChars_append {line : List Char} (h : '\n' ∉ line) (rest : List Char) :
    linesChars (line ++ '\n' :: rest) = stripCr line :: linesChars rest := by
  rw [linesChars, List.splitOn_append_cons_self_of_not_mem h, linesChars]
  cases hrest : rest.splitOn '\n' with
  | nil => exact absurd hrest (List.splitOn_ne_nil _ _)
  | cons part parts => rfl

/-! ## Numbers -/

/-- The value of a nonempty run of digits. -/
def digitsValue (cs : List Char) : Option Nat :=
  if cs ≠ [] ∧ cs.all (IsDigit ·) then
    some (cs.foldl (fun n c => n * 10 + digitVal c) 0)
  else none

/-- An integer with its sign. -/
def intValue : List Char → Option Int
  | '-' :: cs => (digitsValue cs).map fun n => -(n : Int)
  | '+' :: cs => (digitsValue cs).map Nat.cast
  | cs => (digitsValue cs).map Nat.cast

/-- `str::parse::<i64>`. -/
def parseI64 (s : String) : Option Int := do
  let n ← intValue s.toList
  if -(2 : Int) ^ 63 ≤ n ∧ n < 2 ^ 63 then some n else none

/-! ## OS strings -/

/-- `OsString` on Unix: any bytes. -/
structure OsString where
  bytes : List UInt8
deriving DecidableEq

/-- The name with the given text. -/
def OsString.ofString (s : String) : OsString := ⟨asBytes s⟩

/-- A sequence that is not complete: the bytes it still needs, the range of the next one,
and the code point so far. -/
structure Pending where
  need : Nat
  lo : Nat
  hi : Nat
  code : Nat

/-- U+FFFD, for bytes that are no character. -/
def replacement : Char := Char.ofNat 0xFFFD

/-- The first byte of a sequence: a character, or what follows. -/
def firstByte (b : Nat) : Char ⊕ Pending :=
  if b < 0x80 then .inl (Char.ofNat b)
  else if 0xC2 ≤ b ∧ b ≤ 0xDF then .inr ⟨1, 0x80, 0xBF, b - 0xC0⟩
  else if b = 0xE0 then .inr ⟨2, 0xA0, 0xBF, 0⟩
  else if b = 0xED then .inr ⟨2, 0x80, 0x9F, 0xD⟩
  else if 0xE1 ≤ b ∧ b ≤ 0xEF then .inr ⟨2, 0x80, 0xBF, b - 0xE0⟩
  else if b = 0xF0 then .inr ⟨3, 0x90, 0xBF, 0⟩
  else if b = 0xF4 then .inr ⟨3, 0x80, 0x8F, 4⟩
  else if 0xF1 ≤ b ∧ b ≤ 0xF3 then .inr ⟨3, 0x80, 0xBF, b - 0xF0⟩
  else .inl replacement

/-- The characters of bytes, after a part of a character or none. -/
def decodeLossy : Option Pending → List UInt8 → List Char
  | none, [] => []
  | some _, [] => [replacement]
  | none, b :: bs =>
      match firstByte b.toNat with
      | .inl c => c :: decodeLossy none bs
      | .inr p => decodeLossy (some p) bs
  | some p, b :: bs =>
      if p.lo ≤ b.toNat ∧ b.toNat ≤ p.hi then
        let code := p.code * 64 + (b.toNat - 0x80)
        if p.need = 1 then Char.ofNat code :: decodeLossy none bs
        else decodeLossy (some ⟨p.need - 1, 0x80, 0xBF, code⟩) bs
      else
        -- the sequence is broken here, and the byte starts a new one
        replacement :: match firstByte b.toNat with
          | .inl c => c :: decodeLossy none bs
          | .inr p => decodeLossy (some p) bs

/-- `OsStr::to_string_lossy`. -/
def OsString.toStringLossy (s : OsString) : String := String.ofList (decodeLossy none s.bytes)

/-- `OsStr::to_str`, which fails on bytes that are not UTF-8. -/
def OsString.toStr? (s : OsString) : Option String := String.fromUTF8? s.bytes.toByteArray

theorem fromUTF8?_eq_some_iff {bytes : ByteArray} {t : String} :
    String.fromUTF8? bytes = some t ↔ t.toByteArray = bytes := by
  rw [String.fromUTF8?]
  constructor
  · intro h
    split at h
    · cases h
      rfl
    · cases h
  · rintro rfl
    exact dif_pos t.isValidUTF8

/-- The texts among the OS strings. -/
theorem OsString.toStr?_eq_some_iff {s : OsString} {t : String} :
    s.toStr? = some t ↔ s = .ofString t := by
  have hbytes : t.toByteArray = (asBytes t).toByteArray := String.utf8Encode_toList.symm
  rw [toStr?, fromUTF8?_eq_some_iff, hbytes]
  constructor
  · intro h
    have hlist := congrArg (fun b => b.data.toList) h
    rw [List.toList_data_toByteArray, List.toList_data_toByteArray] at hlist
    exact congrArg OsString.mk hlist.symm
  · rintro rfl
    rfl

/-! ## Joining at a separator -/

/-- Two lists joined at a separator are equal if their parts are, or if one of them splits
at another place of the other, where the separator occurs inside a part. -/
theorem append_cons_eq_iff {α : Type} {x : α} {a b c d : List α} :
    a ++ x :: b = c ++ x :: d ↔
      (a = c ∧ b = d) ∨ (∃ s, c = a ++ x :: s ∧ b = s ++ x :: d) ∨
        (∃ s, a = c ++ x :: s ∧ d = s ++ x :: b) := by
  rw [List.append_eq_append_iff]
  constructor
  · rintro (⟨s, hc, hb⟩ | ⟨s, ha, hd⟩)
    · cases s with
      | nil =>
          rw [List.append_nil] at hc
          exact Or.inl ⟨hc.symm, (List.cons_eq_cons.mp hb).2⟩
      | cons y s =>
          obtain ⟨rfl, rfl⟩ := List.cons_eq_cons.mp hb
          exact Or.inr (Or.inl ⟨s, hc, rfl⟩)
    · cases s with
      | nil =>
          rw [List.append_nil] at ha
          exact Or.inl ⟨ha, (List.cons_eq_cons.mp hd).2.symm⟩
      | cons y s =>
          obtain ⟨rfl, rfl⟩ := List.cons_eq_cons.mp hd
          exact Or.inr (Or.inr ⟨s, ha, rfl⟩)
  · rintro (⟨rfl, rfl⟩ | ⟨s, rfl, rfl⟩ | ⟨s, rfl, rfl⟩)
    · exact Or.inl ⟨[], (List.append_nil a).symm, rfl⟩
    · exact Or.inl ⟨x :: s, rfl, rfl⟩
    · exact Or.inr ⟨x :: s, rfl, rfl⟩

/-- The same for texts and a separator of one character. -/
theorem join_eq_iff {sep : String} {x : Char} (hsep : sep.toList = [x]) {a b c d : String} :
    a ++ sep ++ b = c ++ sep ++ d ↔
      (a = c ∧ b = d) ∨ (∃ s, c = a ++ sep ++ s ∧ b = s ++ sep ++ d) ∨
        (∃ s, a = c ++ sep ++ s ∧ d = s ++ sep ++ b) := by
  have hlist : ∀ s t : String, (s ++ sep ++ t).toList = s.toList ++ x :: t.toList := by
    intro s t
    rw [String.toList_append, String.toList_append, hsep, List.append_assoc,
      List.singleton_append]
  have hex : ∀ p : List Char → Prop, (∃ s : String, p s.toList) ↔ ∃ cs, p cs := fun p =>
    ⟨fun ⟨s, h⟩ => ⟨s.toList, h⟩, fun ⟨cs, h⟩ => ⟨String.ofList cs, by rwa [String.toList_ofList]⟩⟩
  simp only [← String.toList_inj, hlist, append_cons_eq_iff]
  rw [hex fun cs => c.toList = a.toList ++ x :: cs ∧ b.toList = cs ++ x :: d.toList,
    hex fun cs => a.toList = c.toList ++ x :: cs ∧ d.toList = cs ++ x :: b.toList]

example : (OsString.ofString "temp1_input").toStringLossy = "temp1_input" := by decide

end RustStr
