import Tempcheck.Library.Markup
import Tempcheck.Web.Axis
import Tempcheck.Web.Escape

/-!
# The markup of the page

The texts that `renderLive` and `renderHistory` assign to `innerHTML`, with the templates of
the source.  What the browser writes for a number, and for an instant, is its own
(`Browser`), but it is no markup.

A browser normalizes the line ends of such a text and reads it with its tokenizer.  Then it
reads the references in it as letters, and ignores or replaces U+0000 (`display`).  It finds
the elements of the template, and the text of a sensor's name is the text of one element
(`display_card`, `display_row`, `display_chart`).  The name is shown as it is if it has
neither a carriage return nor U+0000 (`displayedText_of_not_mem`).
-/

namespace Tempcheck

open JsString (unit ofString)
open Markup (Element Marks Writes normalized)

/-! ## What the browser reads -/

/-- No letter of the text has a meaning in a markup, and none is read as another one. -/
structure Plain (s : JsString) : Prop where
  lt : unit '<' ∉ s
  quote : unit '"' ∉ s
  ampersand : unit '&' ∉ s
  cr : unit '\r' ∉ s
  nul : unit '\x00' ∉ s

instance (s : JsString) : Decidable (Plain s) :=
  decidable_of_iff
    (unit '<' ∉ s ∧ unit '"' ∉ s ∧ unit '&' ∉ s ∧ unit '\r' ∉ s ∧ unit '\x00' ∉ s)
    ⟨fun h => ⟨h.1, h.2.1, h.2.2.1, h.2.2.2.1, h.2.2.2.2⟩,
      fun h => ⟨h.lt, h.quote, h.ampersand, h.cr, h.nul⟩⟩

/-- The letters of HTML. -/
def marks : Marks UInt16 where
  lt := unit '<'
  gt := unit '>'
  slash := unit '/'
  space := unit ' '
  newline := unit '\n'
  equals := unit '='
  quote := unit '"'
  space_ne_gt := by decide
  space_ne_lt := by decide
  newline_ne_lt := by decide

/-- Where an element is: in an element of HTML or in the chart, which is SVG. -/
inductive Context where
  | html
  | svg

/-- What the browser writes for U+0000 in the text of an element. -/
def Context.nul : Context → JsString
  | .html => []
  | .svg => [0xFFFD]

/-- The text with `nul` for U+0000. -/
def replaceNul (nul : JsString) (s : JsString) : JsString :=
  s.flatMap fun c => if c = unit '\x00' then nul else [c]

/-- The references of an element, read as letters, and without U+0000. -/
def decoded (context : Context) (e : Element UInt16) : Element UInt16 where
  name := e.name
  attributes := e.attributes.map fun a => (a.1, replaceNul [0xFFFD] (references.unescape a.2))
  text := replaceNul context.nul (references.unescape e.text)

/-- The elements that a browser finds in a markup. -/
def display (context : Context) (markup : JsString) : Option (List (Element UInt16)) :=
  (Markup.read marks (normalized (unit '\r') (unit '\n') markup)).map
    (List.map (decoded context))

/-- A text as a browser shows it. -/
def displayedText (context : Context) (s : JsString) : JsString :=
  replaceNul context.nul (normalized (unit '\r') (unit '\n') s)

theorem replaceNul_of_not_mem {nul s : JsString} (h : unit '\x00' ∉ s) :
    replaceNul nul s = s := by
  induction s with
  | nil => rfl
  | cons c s ih =>
      obtain ⟨hc, hs⟩ := not_or.mp (mt List.mem_cons.mpr h)
      rw [replaceNul, List.flatMap_cons, if_neg (Ne.symm hc)]
      exact congrArg (c :: ·) (ih hs)

/-- Other texts are shown as they are. -/
theorem displayedText_of_not_mem {context : Context} {s : JsString} (hcr : unit '\r' ∉ s)
    (hnul : unit '\x00' ∉ s) : displayedText context s = s := by
  rw [displayedText, Markup.normalized_of_not_mem hcr, replaceNul_of_not_mem hnul]

example : displayedText .html (ofString "a\r\nb\x00") = ofString "a\nb" := by decide +kernel
example : displayedText .svg (ofString "a\rb\x00") = ofString "a\nb\uFFFD" := by decide +kernel

/-- An element by the letters of its tag. -/
def element (name : String) (attributes : List (String × JsString)) (text : JsString) :
    Element UInt16 :=
  ⟨ofString name, attributes.map fun a => (ofString a.1, a.2), text⟩

/-- A tag whose name and attributes are no markup. -/
structure PlainTag (name : String) (attributes : List (String × JsString)) : Prop where
  name : unit '>' ∉ ofString name ∧ unit ' ' ∉ ofString name ∧ unit '\r' ∉ ofString name
  attributes : ∀ a ∈ attributes,
    (unit '=' ∉ ofString a.1 ∧ unit '\r' ∉ ofString a.1) ∧ Plain a.2

/-- A markup, which does not end within the end of a line, and the elements that are
displayed. -/
def Displays (context : Context) (markup : JsString) (es : List (Element UInt16)) : Prop :=
  markup.getLast? ≠ some (unit '\r') ∧
    ∃ raw, Writes marks (normalized (unit '\r') (unit '\n') markup) raw ∧
      raw.map (decoded context) = es

namespace Displays

variable {context : Context} {s s' : JsString} {es es' : List (Element UInt16)}

theorem display_eq (h : Displays context s es) : display context s = some es := by
  obtain ⟨-, raw, hraw, rfl⟩ := h
  rw [display, hraw.read_eq]
  rfl

theorem nil : Displays context [] [] := ⟨by simp, [], .nil, rfl⟩

theorem append (h : Displays context s es) (h' : Displays context s' es') :
    Displays context (s ++ s') (es ++ es') := by
  obtain ⟨hlast, raw, hraw, rfl⟩ := h
  obtain ⟨hlast', raw', hraw', rfl⟩ := h'
  refine ⟨?_, raw ++ raw', ?_, List.map_append⟩
  · rw [List.getLast?_append]
    intro h
    cases hs' : s'.getLast? with
    | none =>
        rw [hs'] at h
        exact hlast h
    | some c =>
        rw [hs'] at h hlast'
        exact hlast' h
  · rw [Markup.normalized_append (Or.inl hlast)]
    exact hraw.append hraw'

theorem flatMap {β : Type} {f : β → JsString} {g : β → Element UInt16} :
    ∀ {l : List β}, (∀ b ∈ l, Displays context (f b) [g b]) →
      Displays context (l.flatMap f) (l.map g)
  | [], _ => nil
  | b :: l, h => by
      obtain ⟨hb, hl⟩ := List.forall_mem_cons.mp h
      exact hb.append (flatMap hl)

/-- A line break of a template, with blanks. -/
theorem blanks {w : JsString} (hw : w.all fun c => c = unit ' ' || c = unit '\n') :
    Displays context w [] := by
  replace hw : ∀ c ∈ w, c = unit ' ' ∨ c = unit '\n' := fun c hc => by
    simpa using List.all_eq_true.mp hw c hc
  have hcr : unit '\r' ∉ w := by
    intro hmem
    rcases hw _ hmem with h | h
    · exact absurd h (by decide)
    · exact absurd h (by decide)
  refine ⟨fun h => hcr (List.mem_of_getLast? h), [], ?_, rfl⟩
  rw [Markup.normalized_of_not_mem hcr]
  clear hcr
  induction w with
  | nil => exact .nil
  | cons c w ih =>
      obtain ⟨hc, hrest⟩ := List.forall_mem_cons.mp hw
      exact .blank hc (ih hrest)

/-- The line break before a line of a template. -/
theorem indent (h : Displays context s es) :
    Displays context (ofString "\n    " ++ s) es := by
  have hblanks : (ofString "\n    ").all fun c => c = unit ' ' || c = unit '\n' := by decide
  exact (blanks hblanks).append h

end Displays

theorem unescape_plain {s : JsString} (h : Plain s) : references.unescape s = s :=
  Replace.Escaping.unescape_of_not_mem h.ampersand

theorem ofString_append (s t : String) : ofString (s ++ t) = ofString s ++ ofString t := by
  rw [ofString, String.toList_append, List.flatMap_append]
  rfl

/-- Neighbouring texts of a template are one text. -/
@[simp] theorem ofString_append_ofString (s t : String) :
    ofString s ++ ofString t = ofString (s ++ t) := (ofString_append s t).symm

@[simp] theorem ofString_join (s t : String) (rest : JsString) :
    ofString s ++ (ofString t ++ rest) = ofString (s ++ t) ++ rest := by
  rw [ofString_append, List.append_assoc]

/-- The markup of an element, as a template has it. -/
@[simp] theorem markup_element (name : String) (attributes : List (String × JsString))
    (text : JsString) : (element name attributes text).markup marks =
      ofString ("<" ++ name) ++ ((attributes.flatMap fun a =>
        ofString (" " ++ a.1 ++ "=\"") ++ (a.2 ++ ofString "\"")) ++
          (ofString ">" ++ (text ++ ofString ("</" ++ name ++ ">")))) := by
  rw [Element.markup, element, List.flatMap_map]
  simp only [Markup.attr, ofString_append, List.append_assoc, List.cons_append]
  rfl

/-- Only the text of a plain tag can have the end of a line. -/
theorem normalized_element {name : String} {attributes : List (String × JsString)}
    (htag : PlainTag name attributes) (text : JsString) :
    normalized (unit '\r') (unit '\n') ((element name attributes text).markup marks) =
      (element name attributes (normalized (unit '\r') (unit '\n') text)).markup marks := by
  have hmarks : unit '\r' ∉ [marks.lt, marks.gt, marks.slash, marks.space, marks.equals,
      marks.quote] := by decide
  simp only [List.mem_cons, List.not_mem_nil, or_false, not_or] at hmarks
  obtain ⟨hlt, hgt, hslash, hspace, hequals, hquote⟩ := hmarks
  refine Markup.normalized_markup ?_ ?_
  · simp only [element, Markup.attr, List.mem_append, List.mem_cons, List.mem_flatMap,
      List.mem_map, List.not_mem_nil, or_false, not_or, not_exists, not_and]
    refine ⟨⟨⟨hlt, htag.name.2.2⟩, ?_⟩, hgt⟩
    rintro _ ⟨b, hb, rfl⟩
    obtain ⟨⟨-, hname⟩, hplain⟩ := htag.attributes b hb
    exact ⟨⟨⟨hspace, hname⟩, hequals, hquote, hplain.cr⟩, hquote⟩
  · simp only [element, List.mem_append, List.mem_cons, List.not_mem_nil, or_false, not_or]
    exact ⟨⟨hlt, hslash, htag.name.2.2⟩, hgt⟩

theorem displays_element {context : Context} {name : String}
    {attributes : List (String × JsString)} {text : JsString} (htag : PlainTag name attributes)
    (htext : unit '<' ∉ text) :
    Displays context ((element name attributes text).markup marks)
      [element name attributes (replaceNul context.nul (references.unescape
        (normalized (unit '\r') (unit '\n') text)))] := by
  have hread : unit '<' ∉ normalized (unit '\r') (unit '\n') text := fun h =>
    (Markup.mem_of_mem_normalized h).elim htext (by decide)
  refine ⟨?_, [element name attributes (normalized (unit '\r') (unit '\n') text)], ?_, ?_⟩
  · rw [Element.markup, List.getLast?_concat]
    decide
  · rw [normalized_element htag]
    refine .element ⟨⟨htag.name.1, htag.name.2.1⟩, fun a ha => ?_, hread⟩
    obtain ⟨b, hb, rfl⟩ := List.mem_map.mp ha
    exact ⟨(htag.attributes b hb).1.1, (htag.attributes b hb).2.quote⟩
  · have hattributes : (attributes.map fun a => (ofString a.1, a.2)).map
        (fun a => (a.1, replaceNul [0xFFFD] (references.unescape a.2))) =
        attributes.map fun a => (ofString a.1, a.2) := by
      rw [List.map_map]
      refine List.map_congr_left fun a ha => congrArg (Prod.mk _) ?_
      have hplain := (htag.attributes a ha).2
      rw [unescape_plain hplain, replaceNul_of_not_mem hplain.nul]
    rw [List.map_singleton, decoded, element, hattributes]
    rfl

theorem displays_plain {context : Context} {name : String}
    {attributes : List (String × JsString)} {text : JsString} (htag : PlainTag name attributes)
    (htext : Plain text) :
    Displays context ((element name attributes text).markup marks)
      [element name attributes text] := by
  have h : Displays context _ _ := displays_element htag htext.lt
  rwa [Markup.normalized_of_not_mem htext.cr, unescape_plain htext,
    replaceNul_of_not_mem htext.nul] at h

theorem lt_not_mem_esc (text : JsString) : unit '<' ∉ esc text := by
  have hmem : (unit '<', ofString "lt;") ∈ references.names := by decide +kernel
  have hne : unit '<' ≠ references.marker := by decide +kernel
  rw [esc_eq]
  exact Replace.Escaping.not_mem_escape hmem hne text

/-- Escaping leaves the ends of lines alone. -/
theorem normalized_esc (text : JsString) :
    normalized (unit '\r') (unit '\n') (esc text) =
      esc (normalized (unit '\r') (unit '\n') text) := by
  have hplain : ∀ p ∈ references.names, p.1 ≠ unit '\r' ∧ p.1 ≠ unit '\n' ∧
      unit '\r' ∉ references.entity p := by decide +kernel
  have hmarker : references.marker ≠ unit '\n' := by decide
  rw [esc_eq, esc_eq]
  refine Markup.normalized_flatMap (by decide) ?_ ?_ (fun c hc => ?_) (fun c hc => ?_) text
  · rcases references.subst_cases (unit '\r') with ⟨p, hp, heq, -⟩ | ⟨-, h⟩
    · exact absurd heq (hplain p hp).1
    · exact h
  · rcases references.subst_cases (unit '\n') with ⟨p, hp, heq, -⟩ | ⟨-, h⟩
    · exact absurd heq (hplain p hp).2.1
    · exact h
  · rcases references.subst_cases c with ⟨p, hp, -, h⟩ | ⟨-, h⟩
    · rw [h]
      exact (hplain p hp).2.2
    · rw [h, List.mem_singleton]
      exact Ne.symm hc
  · rcases references.subst_cases c with ⟨p, hp, -, h⟩ | ⟨-, h⟩
    · exact ⟨_, _, h, hmarker⟩
    · exact ⟨_, _, h, hc⟩

/-- An escaped text is displayed as the text. -/
theorem displays_esc {context : Context} {name : String}
    {attributes : List (String × JsString)} (htag : PlainTag name attributes)
    (text : JsString) :
    Displays context ((element name attributes (esc text)).markup marks)
      [element name attributes (displayedText context text)] := by
  have h : Displays context _ _ := displays_element htag (lt_not_mem_esc text)
  have hback : references.unescape (normalized (unit '\r') (unit '\n') (esc text)) =
      normalized (unit '\r') (unit '\n') text := by
    rw [normalized_esc, esc_eq, Replace.Escaping.unescape_escape]
  rwa [hback] at h

/-! ## Texts without markup -/

theorem unit_not_mem_ofString {k : Char} (hk : k.toNat < 0x80) {s : String}
    (h : k ∉ s.toList) : unit k ∉ ofString s := by
  intro hmem
  obtain ⟨c, hc, hunit⟩ := List.mem_flatMap.mp hmem
  exact unit_not_mem_ofChar hk (fun heq => h (heq ▸ hc)) hunit

/-- The letters of what `fmt` writes. -/
def FmtText (s : String) : Prop := ∀ c ∈ s.toList, c.isDigit = true ∨ c ∈ ['-', '.', ' ', 'C']

theorem FmtText.plain {s : String} (h : FmtText s) : Plain (ofString s) := by
  have hnot : ∀ k : Char, k.toNat < 0x80 → ¬ (k.isDigit = true ∨ k ∈ ['-', '.', ' ', 'C']) →
      unit k ∉ ofString s := fun k hk hother => unit_not_mem_ofString hk (mt (h k) hother)
  exact ⟨hnot _ (by decide) (by decide), hnot _ (by decide) (by decide),
    hnot _ (by decide) (by decide), hnot _ (by decide) (by decide),
    hnot _ (by decide) (by decide)⟩

theorem FmtText.append {s s' : String} (h : FmtText s) (h' : FmtText s') : FmtText (s ++ s') := by
  intro c hc
  rw [String.toList_append] at hc
  exact (List.mem_append.mp hc).elim (h c) (h' c)

theorem fmtText_repr (n : Nat) : FmtText n.repr := by
  intro c hc
  rw [Nat.toList_repr] at hc
  exact Or.inl (Nat.isDigit_of_mem_toDigits (by decide) (by decide) hc)

theorem fmtText_sign (n : Rat) : FmtText (if n < 0 then "-" else "") := by
  split
  · simp [FmtText]
  · simp [FmtText]

theorem fmtText_fmt (n : Rat) : FmtText (fmt n) := by
  have hpoint : FmtText "." := by simp [FmtText]
  exact (((fmtText_sign n).append (fmtText_repr _)).append hpoint).append (fmtText_repr _)

/-! ## What the browser writes -/

/-- The texts that depend on the browser. -/
class Browser where
  /-- `String(n)` -/
  number : Rat → JsString
  /-- `new Date(text).toLocaleString()` -/
  toLocaleString : String → JsString
  number_plain : ∀ n, Plain (number n)
  toLocaleString_plain : ∀ text, Plain (toLocaleString text)

/-- A browser that writes one decimal of a fraction, and instants as they are sent. -/
instance Browser.reference : Browser where
  number n := ofString
    (if n.den = 1 then (if n < 0 then "-" else "") ++ n.num.natAbs.repr else fmt n)
  toLocaleString text := if Plain (ofString text) then ofString text else []
  number_plain n := by
    split
    · exact ((fmtText_sign n).append (fmtText_repr _)).plain
    · exact (fmtText_fmt n).plain
  toLocaleString_plain text := by
    split
    next h => exact h
    next => decide

/-- An item of the current readings that the page fetched. -/
structure LiveItem where
  sensorName : String
  temperatureC : Rat
  recordedAt : String

section

variable [Browser]

open Browser

/-! ## The templates -/

/-- The card of a reading. -/
def card (item : LiveItem) : JsString :=
  ofString "<div class=\"muted\">" ++ esc (ofString item.sensorName) ++
    ofString "</div><div class=\"metric\">" ++ ofString (fmt item.temperatureC) ++
    ofString " C</div><div class=\"muted\">" ++ toLocaleString item.recordedAt ++
    ofString "</div>"

omit [Browser] in
/-- What the script puts into an element: a text for `innerHTML`, or elements that it creates,
each with a text of its own for `innerHTML`. -/
inductive Inner where
  | html (markup : JsString)
  | children (tag : String) (className : Option String) (markups : List JsString)

omit [Browser] in
/-- The texts of the elements that are created. -/
def Inner.markups : Inner → List JsString
  | .html _ => []
  | .children _ _ markups => markups

/-- `renderLive`: what is put into `liveEl`. -/
def renderLive (items : List LiveItem) : Inner :=
  if items.isEmpty then
    .html (ofString ("<div class=\"card\"><div class=\"muted\">No live readings " ++
      "available.</div></div>"))
  else .children "div" (some "card") (items.map card)

omit [Browser] in
/-- A row of the table. -/
def row (item : HistoryItem) : JsString :=
  ofString "<td>" ++ esc (ofString item.sensorName) ++ ofString "</td><td>" ++
    ofString (fmt item.latestC) ++ ofString "</td><td>" ++ ofString (fmt item.minC) ++
    ofString "</td><td>" ++ ofString (fmt item.maxC) ++ ofString "</td><td>" ++
    ofString (fmt item.avgC) ++ ofString "</td><td>" ++ ofString item.count.repr ++
    ofString "</td>"

omit [Browser] in
/-- What `renderHistory` puts into `historyBody`. -/
def historyRows (items : List HistoryItem) : Inner :=
  if items.isEmpty then
    .html (ofString ("<tr><td colspan=\"6\" class=\"muted\">No historical data found for " ++
      "selected window.</td></tr>"))
  else .children "tr" none (items.map row)

/-- The circle of a point. -/
def circle (p : ChartPoint) : JsString :=
  ofString "<circle class=\"point\" cx=\"" ++ number p.x ++ ofString "\" cy=\"" ++ number p.y ++
    ofString "\" r=\"3\"></circle>"

open Chart in
/-- The label of a point under the x axis. -/
def xTick (p : ChartPoint) : JsString :=
  ofString "<text class=\"tick-label\" x=\"" ++ number p.x ++ ofString "\" y=\"" ++
    number (top + height + 16) ++ ofString "\" text-anchor=\"middle\">" ++
    esc (ofString p.sensor) ++ ofString "</text>"

/-- A label of the y axis. -/
def yTick (label : TickLabel) : JsString :=
  ofString "<text class=\"tick-label\" x=\"" ++ number label.x ++ ofString "\" y=\"" ++
    number label.y ++ ofString "\" text-anchor=\"end\">" ++ ofString (fmt label.value) ++
    ofString "</text>"

/-- The `points` of the line. -/
def linePoints (points : List ChartPoint) : JsString :=
  (ofString " ").intercalate (points.map fun p => number p.x ++ ofString "," ++ number p.y)

/-- The line through the points. -/
def polyline (points : List ChartPoint) : JsString :=
  ofString "<polyline class=\"line\" points=\"" ++ linePoints points ++
    ofString "\"></polyline>"

/-- The line of an axis. -/
def axisLine (x1 y1 x2 y2 : Rat) : JsString :=
  ofString "<line class=\"axis\" x1=\"" ++ number x1 ++ ofString "\" y1=\"" ++ number y1 ++
    ofString "\" x2=\"" ++ number x2 ++ ofString "\" y2=\"" ++ number y2 ++
    ofString "\"></line>"

open Chart in
/-- The title of the x axis. -/
def xTitle : JsString :=
  ofString "<text class=\"axis-label\" x=\"" ++ number (left + width / 2) ++
    ofString "\" y=\"156\" text-anchor=\"middle\">Sensor</text>"

open Chart in
/-- The title of the y axis. -/
def yTitle : JsString :=
  ofString "<text class=\"axis-label\" x=\"16\" y=\"" ++ number (top + height / 2) ++
    ofString "\" text-anchor=\"middle\" transform=\"rotate(-90 16 " ++
    number (top + height / 2) ++ ofString ")\">Avg temp (C)</text>"

open Chart in
/-- The line under the pointer, which is hidden at first. -/
def hoverLine : JsString :=
  ofString "<line id=\"hover-line\" class=\"hover-line\" x1=\"" ++ number left ++
    ofString "\" y1=\"" ++ number top ++ ofString "\" x2=\"" ++ number left ++
    ofString "\" y2=\"" ++ number (top + height) ++ ofString "\" style=\"display:none\"></line>"

open Chart in
/-- The marker of the nearest point, which is hidden at first. -/
def hoverMarker : JsString :=
  ofString "<circle id=\"hover-marker\" class=\"hover-marker\" cx=\"" ++ number left ++
    ofString "\" cy=\"" ++ number (top + height) ++
    ofString "\" r=\"4\" style=\"display:none\"></circle>"

open Chart in
/-- The area that the pointer is followed in. -/
def chartOverlay : JsString :=
  ofString "<rect id=\"chart-overlay\" class=\"chart-overlay\" x=\"" ++ number left ++
    ofString "\" y=\"" ++ number top ++ ofString "\" width=\"" ++ number width ++
    ofString "\" height=\"" ++ number height ++ ofString "\"></rect>"

open Chart in
/-- The `innerHTML` of the chart, line by line. -/
def chartMarkup : List HistoryItem → JsString
  | [] => []
  | item :: items =>
      let chartPoints := (renderHistory (item :: items)).points
      let line := ofString "\n    "
      line ++ axisLine left top left (top + height) ++
        (line ++ axisLine left (top + height) (left + width) (top + height)) ++
        (line ++ xTitle) ++ (line ++ yTitle) ++
        ((yTickLabels (item :: items)).flatMap fun label => line ++ yTick label) ++
        (line ++ polyline chartPoints) ++ (line ++ chartPoints.flatMap circle) ++
        (line ++ chartPoints.flatMap xTick) ++ (line ++ hoverLine) ++ (line ++ hoverMarker) ++
        (line ++ chartOverlay) ++ ofString "\n  "

/-! ## What is displayed -/

/-- The elements of a card. -/
def cardElements (item : LiveItem) : List (Element UInt16) :=
  [element "div" [("class", ofString "muted")]
      (displayedText .html (ofString item.sensorName)),
    element "div" [("class", ofString "metric")] (ofString (fmt item.temperatureC ++ " C")),
    element "div" [("class", ofString "muted")] (toLocaleString item.recordedAt)]

/-- The cells of a row. -/
def rowElements (item : HistoryItem) : List (Element UInt16) :=
  [element "td" [] (displayedText .html (ofString item.sensorName)),
    element "td" [] (ofString (fmt item.latestC)), element "td" [] (ofString (fmt item.minC)),
    element "td" [] (ofString (fmt item.maxC)), element "td" [] (ofString (fmt item.avgC)),
    element "td" [] (ofString item.count.repr)]

/-- The element of a circle. -/
def circleElement (p : ChartPoint) : Element UInt16 :=
  element "circle" [("class", ofString "point"), ("cx", number p.x), ("cy", number p.y),
    ("r", ofString "3")] []

open Chart in
/-- The element of a label under the x axis, with a text for the name. -/
def xTickElement (name : JsString) (p : ChartPoint) : Element UInt16 :=
  element "text" [("class", ofString "tick-label"), ("x", number p.x),
    ("y", number (top + height + 16)), ("text-anchor", ofString "middle")] name

/-- The element of a label of the y axis. -/
def yTickElement (label : TickLabel) : Element UInt16 :=
  element "text" [("class", ofString "tick-label"), ("x", number label.x),
    ("y", number label.y), ("text-anchor", ofString "end")] (ofString (fmt label.value))

/-- The element of an axis. -/
def axisElement (x1 y1 x2 y2 : Rat) : Element UInt16 :=
  element "line" [("class", ofString "axis"), ("x1", number x1), ("y1", number y1),
    ("x2", number x2), ("y2", number y2)] []

open Chart in
/-- The element of the title of the x axis. -/
def xTitleElement : Element UInt16 :=
  element "text" [("class", ofString "axis-label"), ("x", number (left + width / 2)),
    ("y", ofString "156"), ("text-anchor", ofString "middle")] (ofString "Sensor")

open Chart in
/-- The element of the title of the y axis. -/
def yTitleElement : Element UInt16 :=
  element "text" [("class", ofString "axis-label"), ("x", ofString "16"),
    ("y", number (top + height / 2)), ("text-anchor", ofString "middle"),
    ("transform", ofString "rotate(-90 16 " ++ number (top + height / 2) ++ ofString ")")]
    (ofString "Avg temp (C)")

/-- The element of the line through the points. -/
def polylineElement (points : List ChartPoint) : Element UInt16 :=
  element "polyline" [("class", ofString "line"), ("points", linePoints points)] []

open Chart in
/-- The element of the line under the pointer. -/
def hoverLineElement : Element UInt16 :=
  element "line" [("id", ofString "hover-line"), ("class", ofString "hover-line"),
    ("x1", number left), ("y1", number top), ("x2", number left), ("y2", number (top + height)),
    ("style", ofString "display:none")] []

open Chart in
/-- The element of the marker. -/
def hoverMarkerElement : Element UInt16 :=
  element "circle" [("id", ofString "hover-marker"), ("class", ofString "hover-marker"),
    ("cx", number left), ("cy", number (top + height)), ("r", ofString "4"),
    ("style", ofString "display:none")] []

open Chart in
/-- The element of the area of the pointer. -/
def overlayElement : Element UInt16 :=
  element "rect" [("id", ofString "chart-overlay"), ("class", ofString "chart-overlay"),
    ("x", number left), ("y", number top), ("width", number width), ("height", number height)] []

open Chart in
/-- The elements of the chart. -/
def chartElements : List HistoryItem → List (Element UInt16)
  | [] => []
  | item :: items =>
      let chartPoints := (renderHistory (item :: items)).points
      [axisElement left top left (top + height),
        axisElement left (top + height) (left + width) (top + height), xTitleElement,
        yTitleElement] ++ (yTickLabels (item :: items)).map yTickElement ++
        [polylineElement chartPoints] ++ chartPoints.map circleElement ++
        chartPoints.map (fun p => xTickElement (displayedText .svg (ofString p.sensor)) p) ++
        [hoverLineElement, hoverMarkerElement, overlayElement]

/-! ## The cards and the rows -/

omit [Browser] in
theorem tagNames_plain : ∀ name ∈ ["div", "td", "circle", "text", "line", "polyline", "rect"],
    unit '>' ∉ ofString name ∧ unit ' ' ∉ ofString name ∧ unit '\r' ∉ ofString name := by
  decide +kernel

omit [Browser] in
theorem texts_plain : ∀ s ∈ [" ", ",", "rotate(-90 16 ", ")", "Sensor", "Avg temp (C)"],
    Plain (ofString s) := by
  decide +kernel

/-- The card of a reading is displayed with the name of its sensor. -/
theorem display_card (item : LiveItem) :
    display .html (card item) = some (cardElements item) := by
  have hmuted : PlainTag "div" [("class", ofString "muted")] :=
    ⟨tagNames_plain "div" (by simp), by simp +decide⟩
  have hmetric : PlainTag "div" [("class", ofString "metric")] :=
    ⟨tagNames_plain "div" (by simp), by simp +decide⟩
  have htemp : FmtText (fmt item.temperatureC ++ " C") :=
    (fmtText_fmt _).append (by simp [FmtText])
  have hname : Displays .html _ _ := displays_esc hmuted (ofString item.sensorName)
  have hdisplays := hname.append ((displays_plain hmetric htemp.plain).append
    (displays_plain hmuted (toLocaleString_plain item.recordedAt)))
  refine Eq.trans (congrArg (display .html) ?_) hdisplays.display_eq
  rw [card, ofString_append]
  generalize ofString (fmt item.temperatureC) = temperature
  simp

omit [Browser] in
/-- The name of a sensor is the text of the first cell of its row. -/
theorem display_row (item : HistoryItem) :
    display .html (row item) = some (rowElements item) := by
  have htd : PlainTag "td" [] := ⟨tagNames_plain "td" (by simp), List.forall_mem_nil _⟩
  have hfmt : ∀ n, Plain (ofString (fmt n)) := fun n => (fmtText_fmt n).plain
  have hname : Displays .html _ _ := displays_esc htd (ofString item.sensorName)
  have hdisplays := hname.append ((displays_plain htd (hfmt item.latestC)).append
    ((displays_plain htd (hfmt item.minC)).append ((displays_plain htd (hfmt item.maxC)).append
      ((displays_plain htd (hfmt item.avgC)).append
        (displays_plain htd (fmtText_repr item.count).plain)))))
  refine Eq.trans (congrArg (display .html) ?_) hdisplays.display_eq
  rw [row]
  generalize ofString (fmt item.latestC) = latest, ofString (fmt item.minC) = least,
    ofString (fmt item.maxC) = greatest, ofString (fmt item.avgC) = average,
    ofString item.count.repr = count
  simp

/-! ## The chart -/

omit [Browser] in
theorem plain_nil : Plain [] := by decide

omit [Browser] in
theorem Plain.append {s s' : JsString} (h : Plain s) (h' : Plain s') : Plain (s ++ s') := by
  have hnot : ∀ c : UInt16, c ∉ s → c ∉ s' → c ∉ s ++ s' := fun c hc hc' =>
    mt List.mem_append.mp (not_or.mpr ⟨hc, hc'⟩)
  exact ⟨hnot _ h.lt h'.lt, hnot _ h.quote h'.quote, hnot _ h.ampersand h'.ampersand,
    hnot _ h.cr h'.cr, hnot _ h.nul h'.nul⟩

omit [Browser] in
theorem plain_intercalate {sep : JsString} (hsep : Plain sep) :
    ∀ {l : List JsString}, (∀ s ∈ l, Plain s) → Plain (sep.intercalate l)
  | [], _ => by simp +decide [List.intercalate]
  | [s], h => by simpa [List.intercalate] using h s
  | s :: s' :: l, h => by
      obtain ⟨hs, hl⟩ := List.forall_mem_cons.mp h
      rw [List.intercalate_cons_cons]
      exact (hs.append hsep).append (plain_intercalate hsep hl)

theorem plain_linePoints (points : List ChartPoint) : Plain (linePoints points) := by
  refine plain_intercalate (texts_plain " " (by simp)) fun s hs => ?_
  obtain ⟨p, -, rfl⟩ := List.mem_map.mp hs
  exact ((number_plain _).append (texts_plain "," (by simp))).append (number_plain _)

open Chart in
theorem plain_rotate :
    Plain (ofString "rotate(-90 16 " ++ (number (top + height / 2) ++ ofString ")")) :=
  (texts_plain "rotate(-90 16 " (by simp)).append
    ((number_plain _).append (texts_plain ")" (by simp)))

omit [Browser] in
/-- The markup of an element, letter by letter, is the template. -/
theorem displays_of_eq {context : Context} {s : JsString} {name : String}
    {attributes : List (String × JsString)} {text : JsString} (htag : PlainTag name attributes)
    (htext : Plain text) (hs : s = (element name attributes text).markup marks) :
    Displays context s [element name attributes text] := by
  rw [hs]
  exact displays_plain htag htext

theorem displays_circle (p : ChartPoint) : Displays .svg (circle p) [circleElement p] := by
  refine displays_of_eq ⟨tagNames_plain "circle" (by simp), ?_⟩ plain_nil ?_
  · simp +decide [number_plain]
  · simp [circle]

theorem displays_xTick (p : ChartPoint) : Displays .svg (xTick p)
    [xTickElement (displayedText .svg (ofString p.sensor)) p] := by
  have heq : xTick p = (xTickElement (esc (ofString p.sensor)) p).markup marks := by
    simp [xTick, xTickElement]
  rw [heq]
  exact displays_esc ⟨tagNames_plain "text" (by simp), by simp +decide [number_plain]⟩
    (ofString p.sensor)

theorem displays_yTick (label : TickLabel) :
    Displays .svg (yTick label) [yTickElement label] := by
  refine displays_of_eq ⟨tagNames_plain "text" (by simp), ?_⟩ (fmtText_fmt label.value).plain ?_
  · simp +decide [number_plain]
  · rw [yTick]
    generalize ofString (fmt label.value) = value
    simp

theorem displays_axisLine (x1 y1 x2 y2 : Rat) :
    Displays .svg (axisLine x1 y1 x2 y2) [axisElement x1 y1 x2 y2] := by
  refine displays_of_eq ⟨tagNames_plain "line" (by simp), ?_⟩ plain_nil ?_
  · simp +decide [number_plain]
  · simp [axisLine]

theorem displays_xTitle : Displays .svg xTitle [xTitleElement] := by
  refine displays_of_eq ⟨tagNames_plain "text" (by simp), ?_⟩
    (texts_plain "Sensor" (by simp)) ?_
  · simp +decide [number_plain]
  · simp [xTitle]

theorem displays_yTitle : Displays .svg yTitle [yTitleElement] := by
  refine displays_of_eq ⟨tagNames_plain "text" (by simp), ?_⟩
    (texts_plain "Avg temp (C)" (by simp)) ?_
  · simp +decide [number_plain, plain_rotate, -ofString_append_ofString, -ofString_join]
  · simp [yTitle]

theorem displays_polyline (points : List ChartPoint) :
    Displays .svg (polyline points) [polylineElement points] := by
  refine displays_of_eq ⟨tagNames_plain "polyline" (by simp), ?_⟩ plain_nil ?_
  · simp +decide [plain_linePoints]
  · simp [polyline]

theorem displays_hoverLine : Displays .svg hoverLine [hoverLineElement] := by
  refine displays_of_eq ⟨tagNames_plain "line" (by simp), ?_⟩ plain_nil ?_
  · simp +decide [number_plain]
  · simp [hoverLine]

theorem displays_hoverMarker : Displays .svg hoverMarker [hoverMarkerElement] := by
  refine displays_of_eq ⟨tagNames_plain "circle" (by simp), ?_⟩ plain_nil ?_
  · simp +decide [number_plain]
  · simp [hoverMarker]

theorem displays_overlay : Displays .svg chartOverlay [overlayElement] := by
  refine displays_of_eq ⟨tagNames_plain "rect" (by simp), ?_⟩ plain_nil ?_
  · simp +decide [number_plain]
  · simp [chartOverlay]

omit [Browser] in
/-- The line break before the last line of a template. -/
theorem displays_lineEnd {context : Context} : Displays context (ofString "\n  ") [] :=
  Displays.blanks (by decide)

theorem displays_yTicks (labels : List TickLabel) :
    Displays .svg (labels.flatMap fun label => ofString "\n    " ++ yTick label)
      (labels.map yTickElement) :=
  Displays.flatMap fun label _ => (displays_yTick label).indent

theorem displays_circles (points : List ChartPoint) :
    Displays .svg (points.flatMap circle) (points.map circleElement) :=
  Displays.flatMap fun p _ => displays_circle p

theorem displays_xTicks (points : List ChartPoint) :
    Displays .svg (points.flatMap xTick)
      (points.map fun p => xTickElement (displayedText .svg (ofString p.sensor)) p) :=
  Displays.flatMap fun p _ => displays_xTick p

open Chart in
/-- The chart is displayed with its axes, labels and points, and with the names of the
sensors. -/
theorem display_chart (items : List HistoryItem) :
    display .svg (chartMarkup items) = some (chartElements items) := by
  cases items with
  | nil => rfl
  | cons item items =>
      rw [chartMarkup, chartElements]
      generalize (renderHistory (item :: items)).points = points
      generalize yTickLabels (item :: items) = labels
      have hleft := displays_axisLine left top left (top + height)
      have hbottom := displays_axisLine left (top + height) (left + width) (top + height)
      have haxes := ((hleft.indent.append hbottom.indent).append displays_xTitle.indent).append
        displays_yTitle.indent
      have hline := (haxes.append (displays_yTicks labels)).append
        (displays_polyline points).indent
      have hpoints := (hline.append (displays_circles points).indent).append
        (displays_xTicks points).indent
      have hpointer := ((hpoints.append displays_hoverLine.indent).append
        displays_hoverMarker.indent).append displays_overlay.indent
      refine (hpointer.append displays_lineEnd).display_eq.trans (congrArg some ?_)
      simp only [List.append_assoc, List.cons_append, List.nil_append, List.append_nil]

theorem markups_renderLive (items : List LiveItem) :
    (renderLive items).markups = items.map card := by
  cases items with
  | nil => rfl
  | cons item items => rfl

omit [Browser] in
theorem markups_historyRows (items : List HistoryItem) :
    (historyRows items).markups = items.map row := by
  cases items with
  | nil => rfl
  | cons item items => rfl

omit [Browser] in
/-- A name with neither a carriage return nor U+0000 is shown as it is. -/
theorem displayedText_name (context : Context) {name : String} (hcr : '\r' ∉ name.toList)
    (hnul : '\x00' ∉ name.toList) : displayedText context (ofString name) = ofString name :=
  displayedText_of_not_mem (unit_not_mem_ofString (by decide) hcr)
    (unit_not_mem_ofString (by decide) hnul)

/-- Whatever the names of the sensors are, the page displays the elements of its templates,
with the text of each name as the text of one element.  It is the name, if that has neither a
carriage return nor U+0000. -/
theorem display_page (live : List LiveItem) (items : List HistoryItem) :
    (renderLive live).markups.map (display .html) =
        live.map (fun item => some (cardElements item)) ∧
      (historyRows items).markups.map (display .html) =
        items.map (fun item => some (rowElements item)) ∧
      display .svg (chartMarkup items) = some (chartElements items) ∧
      ∀ (context : Context) (name : String), '\r' ∉ name.toList → '\x00' ∉ name.toList →
        displayedText context (ofString name) = ofString name := by
  refine ⟨?_, ?_, display_chart items, fun context name => displayedText_name context⟩
  · simp only [markups_renderLive, List.map_map, Function.comp_def, display_card]
  · simp only [markups_historyRows, List.map_map, Function.comp_def, display_row]

end

end Tempcheck
