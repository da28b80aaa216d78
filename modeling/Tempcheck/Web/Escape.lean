import Tempcheck.Library.Replace

/-!
# Names in the markup of the page

The model of `esc`, the script of the page that writes sensor names into markup.  A text of
JavaScript is a list of UTF-16 code units, which need not be the encoding of any characters.

`esc` replaces five characters one after the other, and the ampersand first.  `references`
is the table of what it writes, and its laws say that these replacements are one escaping.
So an escaped text has no markup, and reading its references gives the text again
(`esc_lossless`).
-/

namespace Tempcheck

open Replace (Escaping pass letter subst)

/-! ## Texts of JavaScript -/

/-- A text of JavaScript, by its code units. -/
abbrev JsString := List UInt16

namespace JsString

/-- The code unit of a character of the basic plane. -/
def unit (c : Char) : UInt16 := c.toNat.toUInt16

/-- The code units of a character, which are two surrogates outside the basic plane. -/
def ofChar (c : Char) : JsString :=
  if c.toNat < 0x10000 then [unit c]
  else [(0xD800 + (c.toNat - 0x10000) / 0x400).toUInt16,
    (0xDC00 + (c.toNat - 0x10000) % 0x400).toUInt16]

/-- The code units of a text. -/
def ofString (s : String) : JsString := s.toList.flatMap ofChar

/-- `String.prototype.replaceAll` for texts, where the replacement has no `$`. -/
def replaceAll (s searchValue replaceValue : JsString) : JsString :=
  match searchValue with
  | [] => replaceValue ++ s.flatMap fun c => c :: replaceValue
  | c :: cs => pass [⟨c, cs, replaceValue⟩] s

end JsString

open JsString (unit ofChar ofString)

/-! ## esc -/

/-- `esc`. -/
def esc (text : JsString) : JsString :=
  ((((text.replaceAll (ofString "&") (ofString "&amp;")).replaceAll (ofString "<")
    (ofString "&lt;")).replaceAll (ofString ">") (ofString "&gt;")).replaceAll (ofString "\"")
    (ofString "&quot;")).replaceAll (ofString "'") (ofString "&#39;")

/-- The characters that `esc` replaces, with the names that it writes for them. -/
def referenceChars : List (Char × String) :=
  [('&', "amp;"), ('<', "lt;"), ('>', "gt;"), ('"', "quot;"), ('\'', "#39;")]

/-- They are as code units. -/
def referenceNames : List (UInt16 × JsString) :=
  referenceChars.map fun p => (unit p.1, ofString p.2)

theorem ampersand_mem : unit '&' ∈ referenceNames.map Prod.fst := by decide +kernel

theorem ampersand_first : referenceNames.Pairwise fun _ q => q.1 ≠ unit '&' := by decide +kernel

theorem referenceNames_plain :
    ∀ p ∈ referenceNames, ∀ q ∈ referenceNames, q.1 ∉ p.2 := by decide +kernel

theorem referenceNames_prefixFree :
    referenceNames.Pairwise fun p q => ¬ p.2 <+: q.2 ∧ ¬ q.2 <+: p.2 := by decide +kernel

/-- The character references that `esc` writes. -/
def references : Escaping UInt16 where
  marker := unit '&'
  names := referenceNames
  marker_mem := ampersand_mem
  marker_first := ampersand_first
  plain := referenceNames_plain
  prefixFree := referenceNames_prefixFree

/-- The five replacements are the passes for the references. -/
theorem esc_eq_passes (text : JsString) :
    esc text = references.table.foldl (fun s p => pass [letter p] s) text := by
  rfl

theorem esc_eq (text : JsString) : esc text = references.escape text :=
  (esc_eq_passes text).trans (references.passes_eq_escape text)

/-- `esc` escapes every code unit by itself.  What it returns has no markup, and every
ampersand in it begins one of the five references.  Reading them once from left to right
gives the text again. -/
theorem esc_lossless (text : JsString) :
    esc text = text.flatMap (subst references.table) ∧
    (∀ c ∈ ['<', '>', '"', '\''], unit c ∉ esc text) ∧
    (∀ pre post, esc text = pre ++ unit '&' :: post →
      ∃ reference ∈ ["&amp;", "&lt;", "&gt;", "&quot;", "&#39;"],
        ofString reference <+: unit '&' :: post) ∧
    references.unescape (esc text) = text := by
  rw [esc_eq]
  refine ⟨rfl, fun c hc => ?_, fun pre post h => ?_, references.unescape_escape text⟩
  · have hname : ∃ q ∈ references.names, q.1 = unit c ∧ q.1 ≠ references.marker := by
      simp only [List.mem_cons, List.not_mem_nil, or_false] at hc
      rcases hc with rfl | rfl | rfl | rfl <;> decide +kernel
    obtain ⟨q, hq, hunit, hne⟩ := hname
    rw [← hunit]
    exact Escaping.not_mem_escape hq hne text
  · obtain ⟨p, hp, hpre⟩ := Escaping.name_of_marker h
    have hreference : ∀ p ∈ references.names,
        ∃ reference ∈ ["&amp;", "&lt;", "&gt;", "&quot;", "&#39;"],
          ofString reference = references.entity p := by decide +kernel
    obtain ⟨reference, hmem, heq⟩ := hreference p hp
    refine ⟨reference, hmem, ?_⟩
    rw [heq]
    exact List.cons_prefix_cons.mpr ⟨rfl, hpre⟩

/-! ## Characters -/

theorem toNat_eq_of_unit_eq {k : Char} {n : Nat} (hk : k.toNat < 0x80) (hn : n < 0x10000)
    (h : unit k = n.toUInt16) : k.toNat = n := by
  have heq := congrArg UInt16.toNat h
  simp only [unit, Nat.toUInt16_eq, UInt16.toNat_ofNat'] at heq
  omega

/-- An ASCII character is a code unit of no other character. -/
theorem unit_not_mem_ofChar {k c : Char} (hk : k.toNat < 0x80) (hne : k ≠ c) :
    unit k ∉ ofChar c := by
  have hvalid : c.toNat < 0x110000 := by
    rcases c.valid with h | h
    · exact Nat.lt_trans h (by decide)
    · exact h.2
  intro hmem
  rw [ofChar] at hmem
  split at hmem
  next hbasic =>
    have heq := toNat_eq_of_unit_eq hk hbasic (List.mem_singleton.mp hmem)
    exact hne (Char.toNat_inj.mp heq)
  next =>
    -- a surrogate is not ASCII
    simp only [List.mem_cons, List.not_mem_nil, or_false] at hmem
    rcases hmem with h | h
    · have heq := toNat_eq_of_unit_eq hk (by omega) h
      omega
    · have heq := toNat_eq_of_unit_eq hk (by omega) h
      omega

end Tempcheck
