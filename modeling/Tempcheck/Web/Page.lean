import Tempcheck.Library.Shared
import Tempcheck.Web.Markup

/-!
# The page at work

The script of the page as threads on one object, the `Page`.  Every load and every move of
the pointer is a thread (`PageEvent`).  What a thread does between two `await`s is one
question, since the browser runs it without a break.  The answers of the server are free.

A page shows what one load has fetched, the one that rendered last (`page_shows`), and the
readout under the chart is of a point of that chart (`page_readout`).  Loads may overtake each
other.  So the page shows the selected window if the load that began last also rendered last
(`page_selected`), and else it may stay at another one (`page_overtaken`).
-/

namespace Tempcheck

open Program (Prog compute doneBy perform query)
open Shared (Exchange Object)
open Transition (Run)

/-! ## The page -/

/-- What the script keeps in the page, and `chartPoints`. -/
structure Page where
  /-- `hoursEl.value` -/
  hours : Nat
  live : Inner
  historyBody : Inner
  chartHtml : JsString
  /-- `chartPoints`, and the overlay of the chart. -/
  chart : Chart
  /-- The marker and the line, if they are displayed. -/
  hover : Option Hover
  chartReadout : String
  status : String

/-- The text under a chart that the pointer is not on. -/
def hoverHint : String := "Hover chart to inspect sensor avg values."

/-- The text under an empty chart. -/
def noTrend : String := "No trend data available for current selection."

namespace Page

/-- The page as it is sent. -/
def index : Page where
  hours := 24
  live := .html []
  historyBody := .html []
  chartHtml := []
  chart := ⟨[], none⟩
  hover := none
  chartReadout := hoverHint
  status := ""

/-- `setStatus`. -/
def setStatus (page : Page) (msg : String) : Page := { page with status := msg }

section

variable [Browser]

/-- `renderLive`. -/
def renderLive (page : Page) (items : List LiveItem) : Page :=
  { page with live := Tempcheck.renderLive items }

/-- `renderHistory`.  The marker and the line are new, and not displayed. -/
def renderHistory (page : Page) (items : List HistoryItem) : Page :=
  { page with
    historyBody := historyRows items
    chartHtml := chartMarkup items
    chart := Tempcheck.renderHistory items
    hover := none
    chartReadout := if items.isEmpty then noTrend else hoverHint }

end

/-- The handler of `mousemove`, which is bound to the overlay. -/
def mousemove (page : Page) (box : ClientBox) (clientX : Rat) : Page :=
  match Tempcheck.mousemove page.chart box clientX with
  | some hover => { page with hover := some hover, chartReadout := hover.readout }
  | none => page

/-- The handler of `mouseleave`, which is bound to the overlay. -/
def mouseleave (page : Page) : Page :=
  match page.chart.overlay with
  | some _ => { page with hover := none, chartReadout := hoverHint }
  | none => page

end Page

/-! ## The script -/

/-- What the script asks, with what it does to the page. -/
inductive PageOp where
  /-- The start of `loadAll`, after a change of the selection or without one. -/
  | begin (change : Option Nat)
  /-- The two requests of `Promise.all`, with `ok` of their responses. -/
  | fetch (hours : Nat)
  /-- `liveResp.json()`. -/
  | liveJson
  /-- `histResp.json()`. -/
  | historyJson
  /-- The end of `loadAll`, with the text of the time. -/
  | render (live : List LiveItem) (hist : List HistoryItem)
  /-- The handler of `catch`. -/
  | fail (message : String)
  | mousemove (box : ClientBox) (clientX : Rat)
  | mouseleave

/-- What the script gets back. -/
@[reducible] def PageOp.Answer : PageOp → Type
  | .begin _ => Nat
  | .fetch _ => Except String (Bool × Bool)
  | .liveJson => Except String (List LiveItem)
  | .historyJson => Except String (List HistoryItem)
  | .render _ _ => String
  | .fail _ => Unit
  | .mousemove _ _ => Unit
  | .mouseleave => Unit

instance : ∀ o : PageOp, Nonempty o.Answer
  | .begin _ => ⟨(0 : Nat)⟩
  | .fetch _ => ⟨.error ""⟩
  | .liveJson => ⟨.error ""⟩
  | .historyJson => ⟨.error ""⟩
  | .render _ _ => ⟨""⟩
  | .fail _ => ⟨()⟩
  | .mousemove _ _ => ⟨()⟩
  | .mouseleave => ⟨()⟩

/-- A script of the page. -/
abbrev Script : Type → Type := Prog PageOp PageOp.Answer

/-- `loadAll`. -/
def loadAll (change : Option Nat) : ExceptT String Script Unit := do
  let hours ← perform (query (PageOp.begin change))
  let (liveOk, histOk) ← ExceptT.mk (query (PageOp.fetch hours))
  compute (if !liveOk then .error "Failed to load live data" else .ok ())
  compute (if !histOk then .error "Failed to load history" else .ok ())
  let live ← ExceptT.mk (query PageOp.liveJson)
  let hist ← ExceptT.mk (query PageOp.historyJson)
  let _ ← perform (query (PageOp.render live hist))

/-- `loadAll().catch((e) => setStatus(e.message))`. -/
def load (change : Option Nat) : Script Unit := do
  match ← (loadAll change).run with
  | .ok _ => return ()
  | .error message => query (PageOp.fail message)

/-- What happens to the page.  A load is begun by the page itself, by the timer, by the button
or by a change of the selection. -/
inductive PageEvent where
  | load (change : Option Nat)
  | mousemove (box : ClientBox) (clientX : Rat)
  | mouseleave

/-- What the script does then. -/
def PageEvent.script : PageEvent → Script Unit
  | .load change => Tempcheck.load change
  | .mousemove box clientX => query (PageOp.mousemove box clientX)
  | .mouseleave => query PageOp.mouseleave

section

variable [Browser]

/-- What a question does to the page. -/
def Page.step (page : Page) : Exchange PageOp PageOp.Answer → Page
  | ⟨.begin change, _⟩ => { page with hours := change.getD page.hours }.setStatus "Loading..."
  | ⟨.fetch _, _⟩ => page
  | ⟨.liveJson, _⟩ => page
  | ⟨.historyJson, _⟩ => page
  | ⟨.render live hist, time⟩ =>
      ((page.renderLive live).renderHistory hist).setStatus ("Updated at " ++ time)
  | ⟨.fail message, _⟩ => page.setStatus message
  | ⟨.mousemove box clientX, _⟩ => page.mousemove box clientX
  | ⟨.mouseleave, _⟩ => page.mouseleave

/-- The page answers with its selection.  The other answers are free. -/
def Page.answers (page : Page) : Exchange PageOp PageOp.Answer → Prop
  | ⟨.begin change, hours⟩ => hours = change.getD page.hours
  | _ => True

/-- The page as the object that the threads share. -/
def Page.serves : Object Page PageOp PageOp.Answer :=
  fun page x page' => page.answers x ∧ page' = page.step x

/-! ## What the page shows -/

/-- The page has what a load fetched. -/
structure Page.Shows (page : Page) (live : List LiveItem) (hist : List HistoryItem) : Prop where
  live : page.live = Tempcheck.renderLive live
  historyBody : page.historyBody = historyRows hist
  chartHtml : page.chartHtml = chartMarkup hist
  chart : page.chart = Tempcheck.renderHistory hist

omit [Browser] in
/-- The page has no content yet. -/
structure Page.Blank (page : Page) : Prop where
  live : page.live = .html []
  historyBody : page.historyBody = .html []
  chartHtml : page.chartHtml = []
  chart : page.chart = ⟨[], none⟩

/-- The exchange is the end of a load. -/
def Renders (x : Exchange PageOp PageOp.Answer) : Prop := ∃ live hist, x.1 = .render live hist

/-- The exchange is the start of a load. -/
def Begins (x : Exchange PageOp PageOp.Answer) : Prop := ∃ change, x.1 = .begin change

variable {page page' : Page} {x : Exchange PageOp PageOp.Answer}

/-- Only the end of a load changes the content. -/
theorem Page.step_content (page : Page) (hx : ¬ Renders x) : (page.step x).live = page.live ∧
    (page.step x).historyBody = page.historyBody ∧ (page.step x).chartHtml = page.chartHtml ∧
    (page.step x).chart = page.chart := by
  obtain ⟨o, a⟩ := x
  cases o with
  | render live hist => exact absurd ⟨live, hist, rfl⟩ hx
  | mousemove box clientX =>
      rw [step, mousemove]
      split
      · exact ⟨rfl, rfl, rfl, rfl⟩
      · exact ⟨rfl, rfl, rfl, rfl⟩
  | mouseleave =>
      rw [step, mouseleave]
      split
      · exact ⟨rfl, rfl, rfl, rfl⟩
      · exact ⟨rfl, rfl, rfl, rfl⟩
  | _ => exact ⟨rfl, rfl, rfl, rfl⟩

theorem Page.Shows.step {live : List LiveItem} {hist : List HistoryItem}
    (h : page.Shows live hist) (hx : ¬ Renders x) : (page.step x).Shows live hist := by
  obtain ⟨hlive, hbody, hhtml, hchart⟩ := page.step_content hx
  exact ⟨hlive.trans h.live, hbody.trans h.historyBody, hhtml.trans h.chartHtml,
    hchart.trans h.chart⟩

theorem Page.Blank.step (h : page.Blank) (hx : ¬ Renders x) : (page.step x).Blank := by
  obtain ⟨hlive, hbody, hhtml, hchart⟩ := page.step_content hx
  exact ⟨hlive.trans h.live, hbody.trans h.historyBody, hhtml.trans h.chartHtml,
    hchart.trans h.chart⟩

/-- Only the start of a load changes the selection. -/
theorem Page.step_hours (hx : ¬ Begins x) : (page.step x).hours = page.hours := by
  obtain ⟨o, a⟩ := x
  cases o with
  | begin change => exact absurd ⟨change, rfl⟩ hx
  | mousemove box clientX =>
      rw [step, mousemove]
      split
      · rfl
      · rfl
  | mouseleave =>
      rw [step, mouseleave]
      split
      · rfl
      · rfl
  | _ => rfl

/-- The readout is of a point of the chart, if the pointer is on it. -/
def Page.Readout (page : Page) : Prop :=
  (page.hover = none ∧ page.chartReadout ∈ [hoverHint, noTrend]) ∨
    ∃ point ∈ page.chart.points, page.hover = some (Hover.ofPoint point) ∧
      page.chartReadout = (Hover.ofPoint point).readout

omit [Browser] in
/-- The handler shows a point of the chart. -/
theorem exists_point_of_mousemove {chart : Chart} {box : ClientBox} {clientX : Rat}
    {hover : Hover} (h : mousemove chart box clientX = some hover) :
    ∃ point ∈ chart.points, hover = Hover.ofPoint point := by
  rw [mousemove] at h
  split at h
  next overlay first rest _ hpoints =>
    have hmem : Nearest.scan ChartPoint.x (pointerX box overlay clientX) first (first :: rest) ∈
      first :: first :: rest := Nearest.scan_mem first (first :: rest)
    rw [hpoints]
    refine ⟨_, ?_, (Option.some.inj h).symm⟩
    rcases List.mem_cons.mp hmem with heq | hmem
    · rw [heq]
      exact List.mem_cons_self ..
    · exact hmem
  next => cases h

theorem Page.Readout.step (h : page.Readout) : (page.step x).Readout := by
  obtain ⟨o, a⟩ := x
  cases o with
  | render live hist =>
      refine Or.inl ⟨rfl, ?_⟩
      change (if hist.isEmpty then noTrend else hoverHint) ∈ _
      split
      · exact List.mem_cons_of_mem _ (List.mem_cons_self ..)
      · exact List.mem_cons_self ..
  | mousemove box clientX =>
      rw [Page.step, mousemove]
      split
      next hover hmove =>
        obtain ⟨point, hpoint, rfl⟩ := exists_point_of_mousemove hmove
        exact Or.inr ⟨point, hpoint, rfl, rfl⟩
      next => exact h
  | mouseleave =>
      rw [Page.step, mouseleave]
      split
      · exact Or.inl ⟨rfl, List.mem_cons_self ..⟩
      · exact h
  | _ => exact h

/-! ## What a load asks -/

/-- The exchanges of a load up to its end. -/
def fetched (change : Option Nat) (hours : Nat) (live : List LiveItem)
    (hist : List HistoryItem) : List (Exchange PageOp PageOp.Answer) :=
  [⟨.begin change, hours⟩, ⟨.fetch hours, .ok (true, true)⟩, ⟨.liveJson, .ok live⟩,
    ⟨.historyJson, .ok hist⟩]

/-- The exchanges of a load that has rendered. -/
def loaded (change : Option Nat) (hours : Nat) (live : List LiveItem)
    (hist : List HistoryItem) (time : String) : List (Exchange PageOp PageOp.Answer) :=
  fetched change hours live hist ++ [⟨.render live hist, time⟩]

omit [Browser] in
/-- What a load asks on its way: it begins with its start, and there is an end only after what
it fetched. -/
def LoadTrace (change : Option Nat) (es : List (Exchange PageOp PageOp.Answer)) : Prop :=
  ∃ hours rest, es = ⟨.begin change, hours⟩ :: rest ∧ (∀ x ∈ rest, ¬ Begins x) ∧
    ((∀ x ∈ rest, ¬ Renders x) ∨ ∃ live hist time, es = loaded change hours live hist time)

omit [Browser] in
/-- The other exchanges neither begin nor end a load. -/
theorem between {o : PageOp} (hbegin : ∀ change, o ≠ .begin change)
    (hrender : ∀ live hist, o ≠ .render live hist) (a : o.Answer) :
    ¬ Begins (⟨o, a⟩ : Exchange PageOp PageOp.Answer) ∧
      ¬ Renders (⟨o, a⟩ : Exchange PageOp PageOp.Answer) :=
  ⟨fun ⟨change, h⟩ => hbegin change h, fun ⟨live, hist, h⟩ => hrender live hist h⟩

omit [Browser] in
/-- A load that fails sets the status and does not render. -/
theorem loadTrace_fail {change : Option Nat} {hours : Nat} {message : String} {u : Unit}
    {asked es : List (Exchange PageOp PageOp.Answer)}
    (hasked : ∀ x ∈ asked, ¬ Begins x ∧ ¬ Renders x)
    (h : Shared.Yields (query (PageOp.fail message)) es u) :
    LoadTrace change (⟨.begin change, hours⟩ :: (asked ++ es)) := by
  obtain rfl := Shared.yields_query.mp h
  have hfail := between (o := .fail message) (fun _ h => by cases h) (fun _ _ h => by cases h) u
  have hrest := List.forall_mem_append.mpr ⟨hasked, List.forall_mem_singleton.mpr hfail⟩
  exact ⟨hours, _, rfl, fun x hx => (hrest x hx).1, Or.inl fun x hx => (hrest x hx).2⟩

omit [Browser] in
/-- A load step by step, with each way it may fail. -/
theorem loadTrace_of_yields {change : Option Nat} {es : List (Exchange PageOp PageOp.Answer)}
    {u : Unit} (h : Shared.Yields (load change) es u) : LoadTrace change es := by
  obtain ⟨hours, es₁, rfl, h₁⟩ := Shared.yields_ask.mp h
  obtain ⟨resps, es₂, rfl, h₂⟩ := Shared.yields_ask.mp h₁
  have hfetch : ∀ x ∈ [⟨.fetch hours, resps⟩], ¬ Begins x ∧ ¬ Renders x :=
    List.forall_mem_singleton.mpr (between (fun _ h => by cases h) (fun _ _ h => by cases h) _)
  rcases resps with e | ⟨_ | _, _ | _⟩
  · exact loadTrace_fail hfetch h₂
  · exact loadTrace_fail hfetch h₂
  · exact loadTrace_fail hfetch h₂
  · exact loadTrace_fail hfetch h₂
  -- both responses are there
  obtain ⟨live, es₃, rfl, h₃⟩ := Shared.yields_ask.mp h₂
  have hlive := List.forall_mem_append.mpr ⟨hfetch, List.forall_mem_singleton.mpr
    (between (o := .liveJson) (fun _ h => by cases h) (fun _ _ h => by cases h) live)⟩
  cases live with
  | error e => exact loadTrace_fail hlive h₃
  | ok live =>
      obtain ⟨hist, es₄, rfl, h₄⟩ := Shared.yields_ask.mp h₃
      have hhist := List.forall_mem_append.mpr ⟨hlive, List.forall_mem_singleton.mpr
        (between (o := .historyJson) (fun _ h => by cases h) (fun _ _ h => by cases h) hist)⟩
      cases hist with
      | error e => exact loadTrace_fail hhist h₄
      | ok hist =>
          obtain ⟨time, es₅, rfl, h₅⟩ := Shared.yields_ask.mp h₄
          obtain ⟨rfl, -⟩ := Shared.yields_pure.mp h₅
          have hend : ∀ x ∈ [⟨.render live hist, time⟩], ¬ Begins x :=
            List.forall_mem_singleton.mpr fun ⟨_, h⟩ => by cases h
          have hrest := List.forall_mem_append.mpr ⟨fun x hx => (hhist x hx).1, hend⟩
          exact ⟨hours, _, rfl, hrest, Or.inr ⟨live, hist, time, rfl⟩⟩

omit [Browser] in
/-- The exchanges of an event end with the end of a load only if they are those of a load that
fetched what it renders, and contain one start at most, at their beginning. -/
structure EventTrace (es : List (Exchange PageOp PageOp.Answer)) : Prop where
  renders : ∀ pre live hist time post, es = pre ++ ⟨.render live hist, time⟩ :: post →
    post = [] ∧ ∃ change hours, pre = fetched change hours live hist
  begins : ∀ pre change hours post, es = pre ++ ⟨.begin change, hours⟩ :: post → pre = []

omit [Browser] in
theorem EventTrace.init {es es' : List (Exchange PageOp PageOp.Answer)}
    (h : EventTrace (es ++ es')) : EventTrace es where
  renders := by
    rintro pre live hist time post rfl
    rw [List.append_assoc, List.cons_append] at h
    obtain ⟨hpost, hpre⟩ := h.renders _ _ _ _ _ rfl
    exact ⟨(List.append_eq_nil_iff.mp hpost).1, hpre⟩
  begins := by
    rintro pre change hours post rfl
    rw [List.append_assoc, List.cons_append] at h
    exact h.begins _ _ _ _ rfl

omit [Browser] in
/-- An event that is no load. -/
theorem eventTrace_of_not {es : List (Exchange PageOp PageOp.Answer)}
    (h : ∀ x ∈ es, ¬ Begins x ∧ ¬ Renders x) : EventTrace es where
  renders := by
    rintro pre live hist time post rfl
    exact absurd ⟨live, hist, rfl⟩ (h _ (List.mem_append_right _ (List.mem_cons_self ..))).2
  begins := by
    rintro pre change hours post rfl
    exact absurd ⟨change, rfl⟩ (h _ (List.mem_append_right _ (List.mem_cons_self ..))).1

omit [Browser] in
theorem not_renders_of_mem_fetched {change : Option Nat} {hours : Nat} {live : List LiveItem}
    {hist : List HistoryItem} : ∀ x ∈ fetched change hours live hist, ¬ Renders x := by
  simp [fetched, Renders]

omit [Browser] in
theorem LoadTrace.eventTrace {change : Option Nat}
    {es : List (Exchange PageOp PageOp.Answer)} (h : LoadTrace change es) : EventTrace es := by
  obtain ⟨hours, rest, rfl, hbegins, hrenders⟩ := h
  constructor
  · intro pre live hist time post heq
    rcases hrenders with hnone | ⟨live', hist', time', hend⟩
    · cases pre with
      | nil => cases heq
      | cons x pre =>
          obtain ⟨-, rfl⟩ := List.cons_eq_cons.mp heq
          exact absurd ⟨live, hist, rfl⟩
            (hnone _ (List.mem_append_right _ (List.mem_cons_self ..)))
    · rw [hend, loaded] at heq
      obtain ⟨hpre, hx, hpost⟩ := (List.append_cons_inj_of_notMem
        (fun hmem => not_renders_of_mem_fetched _ hmem ⟨live, hist, rfl⟩)
        (List.not_mem_nil)).mp heq
      cases hx
      exact ⟨hpost.symm, change, hours, hpre.symm⟩
  · intro pre change' hours' post heq
    cases pre with
    | nil => rfl
    | cons x pre =>
        obtain ⟨-, rfl⟩ := List.cons_eq_cons.mp heq
        exact absurd ⟨change', rfl⟩
          (hbegins _ (List.mem_append_right _ (List.mem_cons_self ..)))

omit [Browser] in
theorem eventTrace_of_yields {event : PageEvent}
    {es : List (Exchange PageOp PageOp.Answer)} {u : Unit}
    (h : Shared.Yields event.script es u) : EventTrace es := by
  cases event with
  | load change => exact (loadTrace_of_yields h).eventTrace
  | mousemove box clientX =>
      obtain rfl := Shared.yields_query.mp h
      exact eventTrace_of_not (List.forall_mem_singleton.mpr
        (between (fun _ h => by cases h) (fun _ _ h => by cases h) _))
  | mouseleave =>
      obtain rfl := Shared.yields_query.mp h
      exact eventTrace_of_not (List.forall_mem_singleton.mpr
        (between (fun _ h => by cases h) (fun _ _ h => by cases h) _))

/-! ## Runs -/

variable {ι : Type} [DecidableEq ι] {events : ι → PageEvent}
  {w : Page × (ι → Script Unit)} {history : List (ι × Exchange PageOp PageOp.Answer)}

/-- The page with its events, each of which has not begun. -/
def Page.start (events : ι → PageEvent) : Page × (ι → Script Unit) :=
  (Page.index, fun i => (events i).script)

theorem eventTrace_of_run (h : Run (Shared.Step Page.serves) (Page.start events) history w)
    (i : ι) : EventTrace (doneBy i history) :=
  Shared.Run.always h (fun _ _ => EventTrace.init) fun _ _ => eventTrace_of_yields

/-- The load of thread `i` has ended with what it fetched, and no other load has since. -/
def RenderedLast (history : List (ι × Exchange PageOp PageOp.Answer)) (i : ι)
    (change : Option Nat) (hours : Nat) (live : List LiveItem) (hist : List HistoryItem) : Prop :=
  ∃ pre time post, history = pre ++ (i, ⟨.render live hist, time⟩) :: post ∧
    doneBy i pre = fetched change hours live hist ∧ ∀ x ∈ post, ¬ Renders x.2

omit [Browser] in
/-- A load may fetch anything. -/
theorem yields_load (change : Option Nat) (hours : Nat) (live : List LiveItem)
    (hist : List HistoryItem) (time : String) :
    Shared.Yields (load change) (loaded change hours live hist time) () :=
  .cons (.cons (.cons (.cons (.cons .nil))))

/-- The page while a load fetches. -/
def Page.loading (page : Page) (change : Option Nat) : Page :=
  { page with hours := change.getD page.hours }.setStatus "Loading..."

theorem run_fetched (page : Page) (change : Option Nat) (live : List LiveItem)
    (hist : List HistoryItem) :
    Run Page.serves page (fetched change (change.getD page.hours) live hist)
      (page.loading change) :=
  .cons ⟨rfl, rfl⟩ (.cons ⟨trivial, rfl⟩ (.cons ⟨trivial, rfl⟩ (.cons ⟨trivial, rfl⟩ .nil)))

theorem run_render (page : Page) (live : List LiveItem) (hist : List HistoryItem)
    (time : String) : Run Page.serves page [⟨.render live hist, time⟩]
      (page.step ⟨.render live hist, time⟩) := .cons ⟨trivial, rfl⟩ .nil

omit [Browser] [DecidableEq ι] in
theorem script_load {i : ι} {change : Option Nat} (h : events i = .load change) :
    (Page.start events).2 i = load change := congrArg PageEvent.script h

theorem step_eq {s t : Page × (ι → Script Unit)} {a : ι × Exchange PageOp PageOp.Answer}
    (h : Shared.Step Page.serves s a t) : s.1.answers a.2 ∧ t.1 = s.1.step a.2 := by
  cases h with
  | ask _ hserves => exact hserves

/-- The load that rendered last is on the page. -/
theorem RenderedLast.shows (h : Run (Shared.Step Page.serves) (Page.start events) history w)
    {i : ι} {change : Option Nat} {hours : Nat} {live : List LiveItem} {hist : List HistoryItem}
    (hlast : RenderedLast history i change hours live hist) : w.1.Shows live hist := by
  obtain ⟨pre, time, post, rfl, -, hpost⟩ := hlast
  obtain ⟨s, t, -, hstep, hrest⟩ := h.split_cons
  have hshows : t.1.Shows live hist := by
    rw [(step_eq hstep).2]
    exact ⟨rfl, rfl, rfl, rfl⟩
  refine hrest.kept (P := fun w => w.1.Shows live hist) (fun {s a t} hstep ha hs => ?_) hpost hshows
  rw [(step_eq hstep).2]
  exact hs.step ha

/-- What the page shows is what one load has fetched, the last one that has rendered. -/
theorem page_shows (h : Run (Shared.Step Page.serves) (Page.start events) history w) :
    ((∀ x ∈ history, ¬ Renders x.2) ∧ w.1.Blank) ∨
      ∃ i change hours live hist, RenderedLast history i change hours live hist ∧
        w.1.Shows live hist := by
  rcases Transition.exists_last (fun x => Renders x.2) history
    with hnone | ⟨pre, ⟨i, o, time⟩, post, rfl, ⟨live, hist, ho⟩, hpost⟩
  · refine Or.inl ⟨hnone, h.kept (P := fun w => w.1.Blank) (fun {s a t} hstep ha hs => ?_) hnone
      ⟨rfl, rfl, rfl, rfl⟩⟩
    rw [(step_eq hstep).2]
    exact hs.step ha
  · obtain rfl : o = .render live hist := ho
    have htrace := eventTrace_of_run h i
    rw [Shared.doneBy_append, Program.doneBy_cons_self] at htrace
    obtain ⟨-, change, hours, hpre⟩ := htrace.renders _ _ _ _ _ rfl
    have hlast : RenderedLast _ i change hours live hist := ⟨pre, time, post, rfl, hpre, hpost⟩
    exact Or.inr ⟨i, change, hours, live, hist, hlast, hlast.shows h⟩

/-- The readout is of a point of the chart at any time. -/
theorem page_readout (h : Run (Shared.Step Page.serves) (Page.start events) history w) :
    w.1.Readout := by
  refine h.invariant (P := fun w => w.1.Readout) (fun {s a t} hs hstep => ?_)
    (Or.inl ⟨rfl, List.mem_cons_self ..⟩)
  rw [(step_eq hstep).2]
  exact hs.step

/-- Thread `i` has begun a load, and no other thread has since. -/
def BegunLast (history : List (ι × Exchange PageOp PageOp.Answer)) (i : ι) (hours : Nat) : Prop :=
  ∃ pre change post, history = pre ++ (i, ⟨.begin change, hours⟩) :: post ∧
    ∀ x ∈ post, ¬ Begins x.2

/-- The load that began last has the selected window. -/
theorem BegunLast.hours_eq (h : Run (Shared.Step Page.serves) (Page.start events) history w)
    {i : ι} {hours : Nat} (hlast : BegunLast history i hours) : w.1.hours = hours := by
  obtain ⟨pre, change, post, rfl, hpost⟩ := hlast
  obtain ⟨s, t, -, hstep, hrest⟩ := h.split_cons
  have hours_eq : t.1.hours = hours := by
    rw [(step_eq hstep).2]
    exact (step_eq hstep).1.symm
  refine hrest.kept (P := fun w => w.1.hours = hours) (fun {s a t} hstep ha hs => ?_) hpost hours_eq
  rw [(step_eq hstep).2, Page.step_hours ha, hs]

/-- If the load that began last has also rendered last, the page shows the window that is
selected. -/
theorem page_selected (h : Run (Shared.Step Page.serves) (Page.start events) history w)
    {i : ι} {change : Option Nat} {hours hours' : Nat} {live : List LiveItem}
    {hist : List HistoryItem} (hrendered : RenderedLast history i change hours live hist)
    (hbegun : BegunLast history i hours') :
    w.1.hours = hours ∧ w.1.Shows live hist := by
  refine ⟨?_, hrendered.shows h⟩
  rw [hbegun.hours_eq h]
  obtain ⟨pre, time, post, rfl, hpre, -⟩ := hrendered
  obtain ⟨pre', change', post', heq, -⟩ := hbegun
  have htrace := congrArg (doneBy i) heq
  rw [Shared.doneBy_append, Shared.doneBy_append, Program.doneBy_cons_self,
    Program.doneBy_cons_self, hpre] at htrace
  have hfirst := eventTrace_of_run h i
  rw [heq, Shared.doneBy_append, Program.doneBy_cons_self] at hfirst
  rw [hfirst.begins _ _ _ _ rfl] at htrace
  obtain ⟨hhead, -⟩ := List.cons_eq_cons.mp htrace
  cases hhead
  rfl

/-- What is drawn at a place of the picture is in the plot. -/
def InPlot (x y : Rat) : Prop :=
  (Chart.left ≤ x ∧ x ≤ Chart.left + Chart.width) ∧ Chart.top ≤ y ∧ y ≤ Chart.top + Chart.height

omit [Browser] in
/-- The points of a history that is an analysis. -/
theorem points_of_analyses {hist : List HistoryItem} {rs : List AnalysisResult}
    {l : List SensorReading} (hitems : List.Forall₂ HistoryItem.Shows hist rs)
    (hspec : Analyses rs l) :
    (∀ point ∈ (renderHistory hist).points, InPlot point.x point.y) ∧
      (renderHistory hist).points.Pairwise fun p q => p.x < q.x := by
  cases hist with
  | nil => exact ⟨List.forall_mem_nil _, .nil⟩
  | cons item items =>
      have hordered : ∀ a ∈ item :: items, a.minC ≤ a.avgC ∧ a.avgC ≤ a.maxC := by
        intro a ha
        obtain ⟨r, hr, hshows⟩ := Fallible.exists_mem_of_forall₂ hitems.flip ha
        exact (hspec.summary r hr).ordered hshows
      exact ⟨renderHistory_inside hordered, renderHistory_increasing⟩

/-- If every history that is fetched is an analysis of some readings, the points and the marker
are in the plot at any time, and the readout is of the point at the marker. -/
theorem page_inside (h : Run (Shared.Step Page.serves) (Page.start events) history w)
    (hserver : ∀ i hist, (i, ⟨.historyJson, .ok hist⟩) ∈ history →
      ∃ rs l, List.Forall₂ HistoryItem.Shows hist rs ∧ Analyses rs l) :
    (∀ point ∈ w.1.chart.points, InPlot point.x point.y) ∧
      (w.1.chart.points.Pairwise fun p q => p.x < q.x) ∧
      ∀ hover, w.1.hover = some hover → InPlot hover.markerX hover.markerY ∧
        ∃ point ∈ w.1.chart.points, hover = Hover.ofPoint point ∧
          w.1.chartReadout = hover.readout := by
  have hpoints : (∀ point ∈ w.1.chart.points, InPlot point.x point.y) ∧
      w.1.chart.points.Pairwise fun p q => p.x < q.x := by
    rcases page_shows h with ⟨-, hblank⟩ | ⟨i, change, hours, live, hist, hlast, hshows⟩
    · rw [hblank.chart]
      exact ⟨List.forall_mem_nil _, .nil⟩
    · obtain ⟨pre, time, post, rfl, hpre, -⟩ := hlast
      have hmem : (⟨.historyJson, .ok hist⟩ : Exchange PageOp PageOp.Answer) ∈ doneBy i pre := by
        rw [hpre]
        simp [fetched]
      obtain ⟨rs, l, hitems, hspec⟩ :=
        hserver i hist (List.mem_append_left _ (Shared.mem_of_mem_doneBy hmem))
      rw [hshows.chart]
      exact points_of_analyses hitems hspec
  refine ⟨hpoints.1, hpoints.2, fun hover hhover => ?_⟩
  rcases page_readout h with ⟨hnone, -⟩ | ⟨point, hpoint, hsome, hreadout⟩
  · rw [hnone] at hhover
    cases hhover
  · rw [hsome] at hhover
    obtain rfl := Option.some.inj hhover
    exact ⟨hpoints.1 point hpoint, point, hpoint, rfl, hreadout⟩

/-! ## Loads that overtake -/

/-- A load may overtake another one.  The one that begins last fetches and renders another
window, but the page stays at the window of the one that was overtaken. -/
theorem page_overtaken {i j : ι} (hij : i ≠ j) {change : Option Nat} {hours : Nat}
    (hi : events i = .load change) (hj : events j = .load (some hours))
    (live live' : List LiveItem) (hist hist' : List HistoryItem) :
    ∃ history w, Run (Shared.Step Page.serves) (Page.start events) history w ∧
      w.2 i = .ret () ∧ w.2 j = .ret () ∧ BegunLast history j hours ∧ w.1.hours = hours ∧
      (∃ time, doneBy j history = loaded (some hours) hours live' hist' time) ∧
      RenderedLast history i change (change.getD 24) live hist ∧ w.1.Shows live hist := by
  obtain ⟨q, hfetch, hend⟩ := (yields_load change (change.getD 24) live hist "").split
  let page := (Page.index.loading change).loading (some hours)
  have hrun₁ := Shared.run_alone hfetch (run_fetched Page.index change live hist) (script_load hi)
  have hrun₂ := Shared.run_alone (yields_load (some hours) hours live' hist' "")
    ((run_fetched (Page.index.loading change) (some hours) live' hist').append
      (run_render page live' hist' ""))
    ((Function.update_of_ne hij.symm q _).trans (script_load hj))
  have hwait : Function.update (Function.update (Page.start events).2 i q) j (.ret ()) i = q := by
    rw [Function.update_of_ne hij, Function.update_self]
  have hrun₃ := Shared.run_alone hend
    (run_render (page.step ⟨.render live' hist', ""⟩) live hist "") hwait
  have hrun := (hrun₁.append hrun₂).append hrun₃
  have hfetched : doneBy i ((fetched change (change.getD 24) live hist).map (Prod.mk i) ++
      (loaded (some hours) hours live' hist' "").map (Prod.mk j)) =
        fetched change (change.getD 24) live hist := by
    rw [Shared.doneBy_append, Shared.doneBy_map_mk, Shared.doneBy_map_mk, if_pos rfl,
      if_neg hij.symm, List.append_nil]
  have hrendered : RenderedLast _ i change (change.getD 24) live hist :=
    ⟨_, "", [], rfl, hfetched, List.forall_mem_nil _⟩
  refine ⟨_, _, hrun, Function.update_self .., ?_, ?_, rfl, ⟨"", ?_⟩, hrendered,
    hrendered.shows hrun⟩
  · exact (Function.update_of_ne hij.symm ..).trans (Function.update_self ..)
  · refine ⟨_, some hours, _, List.append_assoc .., ?_⟩
    simp [Begins]
  · rw [Shared.doneBy_append, Shared.doneBy_append, Shared.doneBy_map_mk, Shared.doneBy_map_mk,
      Shared.doneBy_map_mk, if_neg hij, if_pos rfl, List.nil_append, if_neg hij,
      List.append_nil]

end

/-- A change from a day to an hour, whose load is faster than the first one. -/
theorem page_overtaken_hour : ∃ history w, Run (Shared.Step Page.serves)
      (Page.start fun hour : Bool => .load (if hour then some 1 else none)) history w ∧
    w.2 false = .ret () ∧ w.2 true = .ret () ∧ BegunLast history true 1 ∧ w.1.hours = 1 ∧
    (∃ time, doneBy true history = loaded (some 1) 1 [] [⟨"cpu", 41, 41, 41, 41, 1⟩] time) ∧
    RenderedLast history false none 24 [] twoSensors ∧ w.1.Shows [] twoSensors :=
  page_overtaken Bool.false_ne_true rfl rfl [] [] twoSensors [⟨"cpu", 41, 41, 41, 41, 1⟩]

/-! ## A visit -/

/-- A page that is opened, then set to an hour, and pointed at. -/
inductive Visit where
  | opened
  | hour
  | pointed
deriving DecidableEq

/-- What happens then, with the pointer at the right end of the chart. -/
def Visit.event : Visit → PageEvent
  | .opened => .load none
  | .hour => .load (some 1)
  | .pointed => .mousemove unscaled 580

/-- The history of two sensors with one sample each. -/
def sampled (cpu gpu : Rat) : List HistoryItem :=
  [⟨"cpu", cpu, cpu, cpu, cpu, 1⟩, ⟨"gpu", gpu, gpu, gpu, gpu, 1⟩]

/-- The first load renders while the second one waits. -/
def visited : List (Visit × Exchange PageOp PageOp.Answer) :=
  (fetched none 24 [] (sampled 40 60)).map (Prod.mk .opened) ++
    (fetched (some 1) 1 [] (sampled 41 61)).map (Prod.mk .hour) ++
    [(.opened, ⟨.render [] (sampled 40 60), ""⟩), (.hour, ⟨.render [] (sampled 41 61), ""⟩),
      (.pointed, ⟨.mousemove unscaled 580, ()⟩)]

theorem run_visited : ∃ w, Run (Shared.Step Page.serves) (Page.start Visit.event) visited w ∧
    w.1.chart = renderHistory (sampled 41 61) ∧
      w.1.hover = mousemove (renderHistory (sampled 41 61)) unscaled 580 := by
  obtain ⟨q, hfetch, hend⟩ := (yields_load none 24 [] (sampled 40 60) "").split
  obtain ⟨q', hfetch', hend'⟩ := (yields_load (some 1) 1 [] (sampled 41 61) "").split
  have hopened := Shared.run_alone (i := Visit.opened) hfetch
    (run_fetched Page.index none [] (sampled 40 60))
    (script_load (rfl : Visit.opened.event = .load none))
  have hhour := hopened.append (Shared.run_alone (i := Visit.hour) hfetch'
    (run_fetched _ (some 1) [] (sampled 41 61)) rfl)
  have hday := hhour.append (Shared.run_alone (i := Visit.opened) hend
    (run_render _ [] (sampled 40 60) "") rfl)
  have hrender := hday.append (Shared.run_alone (i := Visit.hour) hend'
    (run_render _ [] (sampled 41 61) "") rfl)
  have hmove : Shared.Yields Visit.pointed.event.script [⟨.mousemove unscaled 580, ()⟩] () :=
    .cons .nil
  have hrun := hrender.append (Shared.run_alone (i := Visit.pointed) hmove
    (.cons ⟨trivial, rfl⟩ .nil) rfl)
  exact ⟨_, hrun, rfl, rfl⟩

theorem page_shows_visited :
    ∃ w, Run (Shared.Step Page.serves) (Page.start Visit.event) visited w ∧
      ∃ i change hours live hist, RenderedLast visited i change hours live hist ∧
        w.1.Shows live hist := by
  obtain ⟨w, hrun, -⟩ := run_visited
  refine ⟨w, hrun, (page_shows hrun).resolve_left fun h => ?_⟩
  exact h.1 (.hour, ⟨.render [] (sampled 41 61), ""⟩) (by simp [visited]) ⟨_, _, rfl⟩

theorem renderedLast_visited : RenderedLast visited .hour (some 1) 1 [] (sampled 41 61) := by
  refine ⟨(fetched none 24 [] (sampled 40 60)).map (Prod.mk .opened) ++
    (fetched (some 1) 1 [] (sampled 41 61)).map (Prod.mk .hour) ++
    [(.opened, ⟨.render [] (sampled 40 60), ""⟩)], "",
    [(.pointed, ⟨.mousemove unscaled 580, ()⟩)], rfl, rfl, ?_⟩
  simp [Renders]

theorem page_selected_visited :
    ∃ w, Run (Shared.Step Page.serves) (Page.start Visit.event) visited w ∧
      w.1.hours = 1 ∧ w.1.Shows [] (sampled 41 61) := by
  obtain ⟨w, hrun, -⟩ := run_visited
  have hbegun : BegunLast visited .hour 1 :=
    ⟨(fetched none 24 [] (sampled 40 60)).map (Prod.mk .opened), some 1, _, rfl,
      by simp [Begins]⟩
  exact ⟨w, hrun, page_selected hrun renderedLast_visited hbegun⟩

/-- The analysis of one reading of each sensor. -/
theorem analyses_sampled (cpu gpu : Rat) : ∃ rs l,
    List.Forall₂ HistoryItem.Shows (sampled cpu gpu) rs ∧ Analyses rs l := by
  refine ⟨[⟨"cpu", 1, .exact cpu, .exact cpu, .exact cpu, .exact cpu, default, default⟩,
    ⟨"gpu", 1, .exact gpu, .exact gpu, .exact gpu, .exact gpu, default, default⟩],
    [⟨"cpu", .exact cpu, default⟩, ⟨"gpu", .exact gpu, default⟩],
    .cons ⟨rfl, rfl, rfl, rfl, rfl, rfl⟩ (.cons ⟨rfl, rfl, rfl, rfl, rfl, rfl⟩ .nil), ?_⟩
  refine ⟨by simp, by simp, ?_⟩
  refine List.forall_mem_cons.mpr ⟨?_, List.forall_mem_singleton.mpr ?_⟩
  all_goals
    refine ⟨rfl, ⟨_, rfl, ?_⟩, ⟨_, rfl, ?_⟩, ?_, ?_, ?_, ?_⟩
    all_goals simp [Relational.group, SensorReading.degrees]

/-- The pointer is on one of two points. -/
theorem page_inside_visited :
    ∃ w, Run (Shared.Step Page.serves) (Page.start Visit.event) visited w ∧
      w.1.chart.points.length = 2 ∧ (∀ point ∈ w.1.chart.points, InPlot point.x point.y) ∧
      ∃ hover, w.1.hover = some hover ∧ InPlot hover.markerX hover.markerY ∧
        w.1.chartReadout = hover.readout := by
  obtain ⟨w, hrun, hchart, hhover⟩ := run_visited
  obtain ⟨hpoints, -, hmarker⟩ := page_inside hrun fun i hist hmem => by
    have hhist : (i = .opened ∧ hist = sampled 40 60) ∨ (i = .hour ∧ hist = sampled 41 61) := by
      simpa [visited, fetched] using hmem
    rcases hhist with ⟨-, rfl⟩ | ⟨-, rfl⟩
    · exact analyses_sampled 40 60
    · exact analyses_sampled 41 61
  obtain ⟨k, point, -, hmove, -⟩ := exists_mousemove ⟨"cpu", 41, 41, 41, 41, 1⟩
    [⟨"gpu", 61, 61, 61, 61, 1⟩] unscaled 580
  rw [sampled, hmove] at hhover
  obtain ⟨hinside, -, -, -, hreadout⟩ := hmarker _ hhover
  exact ⟨w, hrun, by rw [hchart]; rfl, hpoints, _, hhover, hinside, hreadout⟩

end Tempcheck
