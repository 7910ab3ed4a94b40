import Plughost.Lib.Runs
import Plughost.Lib.Mirror

/-! The size of an editor window, from `XCreateWindow` on: as the X server has it, as
`EditorWindow` remembers it, as the plugin was told, and as the host was told. The plugin may
call `resizeView` at any time, also while it is inside a call of the host; `RequestShow` may
give up before its show is answered, and a later show may not get as far as `RequestShow`. -/
namespace Plughost.Vst3.EditorGeometry
open Plughost.Runs Plughost.Mirror

/-- `int` width and height. -/
structure Size where
  width : Int
  height : Int
  deriving DecidableEq, Repr

def Size.positive (q : Size) : Bool := 0 < q.width && 0 < q.height

private theorem Size.positive_iff {q : Size} : q.positive ↔ 0 < q.width ∧ 0 < q.height := by simp [positive]

/-- The defensive default for a size that the view reports. -/
def Size.orDefault (q : Size) : Size :=
  ⟨if q.width ≤ 0 then 400 else q.width, if q.height ≤ 0 then 300 else q.height⟩

/-- A call into the plugin in progress on the GUI thread. -/
inductive Call where
  /-- `attached`, in the `Attach` that has created the window with this size. -/
  | attaching (size : Size)
  /-- `onSize`, in `HostPlugFrame::resizeView`. -/
  | resizing (newSize : Size)
  /-- `onSize`, in `OnEvent`. -/
  | configuring
  deriving DecidableEq, Repr

/-- The size that a call will leave behind. -/
def Call.size : Call → Option Size
  | .attaching q | .resizing q => some q
  | .configuring => none

/-- What the host is told about an editor's size. -/
inductive Word where
  /-- A `SlotShowEditorResult` of status 0, or an `EditorResized`. -/
  | size (q : Size)
  /-- A `SlotShowEditorResult` of another status, which says 0x0. -/
  | failed (status : BitVec 8)
  deriving DecidableEq, Repr

/-- Where the control thread stands in `RequestShow`. -/
inductive Show where
  | idle
  /-- It waits for the show that opens the window. -/
  | opening
  /-- It waits for a show behind that one, which will find the window open. -/
  | queued
  /-- It is back, with what it will send. -/
  | ready (w : Word)
  deriving DecidableEq, Repr

/-- The statuses of a later show that `controlReader` answers by itself: the slot is not loaded,
there is no view, or no GUI thread. -/
def refusals : List (BitVec 8) := [1, 2, 7]

/-- Whether the reply that the control thread has in hand says a size. -/
def Show.hasSize : Show → Bool
  | .ready (.size _) => true
  | _ => false

/-- One `EditorWindow`; `calls` has the innermost call first. -/
structure Editor where
  window : Remote Size
  cached : Size
  view : Size
  calls : List Call
  attached : Bool
  request : Show
  told : Option Word

inductive Act where
  /-- The plugin calls `resizeView`. -/
  | resizeView (newSize : Size)
  /-- The innermost `onSize` comes back. -/
  | onSizeReturns
  /-- `attached` comes back with success; `after` is what `getSize` then gives. -/
  | attachedReturns (after : Option Size)
  /-- The GUI thread takes the next `ConfigureNotify`. -/
  | configureNotify
  /-- The control thread calls `RequestShow` for the slot again. -/
  | requestShow
  /-- It answers a later show without calling `RequestShow`. -/
  | refuseShow (status : BitVec 8)
  /-- `HandleShow` finds the window open. -/
  | showAgain
  /-- A second has passed, and `RequestShow` has no reply. -/
  | giveUp
  /-- The control thread sends the `SlotShowEditorResult`. -/
  | sendReply
  /-- The server, with the window manager, gets to the oldest `XResizeWindow`. -/
  | grant (size : Size)
  | ignore
  /-- The window manager resizes the window by itself. -/
  | resize (size : Size)
  deriving DecidableEq, Repr

namespace Editor
variable (s : Editor)

/-- `Attach` after `XCreateWindow`, for a view that reports `reported`. -/
def opened (reported : Size) : Editor :=
  { window := ⟨reported.orDefault, [], []⟩, cached := ⟨0, 0⟩, view := reported,
    calls := [.attaching reported.orDefault], attached := false, request := .opening, told := none }

/-- `HostPlugFrame::resizeView`, up to the call of `onSize`. -/
def resizeView (newSize : Size) : Editor :=
  if newSize.positive then
    { s with window := s.window.ask newSize, view := newSize, calls := .resizing newSize :: s.calls }
  else s

/-- `EditorWindow::OnResized`. -/
def onResized (newSize : Size) : Editor := { s with cached :=
  ⟨if 0 < newSize.width then newSize.width else s.cached.width,
    if 0 < newSize.height then newSize.height else s.cached.height⟩ }

/-- `EditorResized` to the host, with `w` and `h` not below zero. -/
def sendResized : Editor := { s with told := some (.size ⟨max s.cached.width 0, max s.cached.height 0⟩) }

/-- `signalReply` of the show that opens the window; nobody reads it when the caller has
given up. -/
def answerOpening : Editor :=
  { s with request := if s.request = .opening then .ready (.size s.cached) else s.request }

/-- The rest of `Attach`, and of `HandleShow`. -/
def finishAttach (size : Size) (after : Option Size) : Editor :=
  let s := { s with view := after.getD s.view, calls := [], attached := true }
  match after with
  | some q =>
    if q.positive && q != size then { s with window := s.window.ask q, cached := q }.answerOpening
    else { s with cached := size }.answerOpening
  | none => { s with cached := size }.answerOpening

/-- `OnEvent` on a `ConfigureNotify`, up to the call of `onSize` or the end. -/
def onConfigure (size : Size) : Editor :=
  if size.positive && size != s.cached then
    { s with cached := size, view := size, calls := [.configuring] }
  else s.sendResized

def step : Act → Option Editor
  | .resizeView newSize => some (s.resizeView newSize)
  | .onSizeReturns =>
    match s.calls with
    | .resizing newSize :: rest => some ({ s with calls := rest }.onResized newSize)
    | .configuring :: rest => some { s with calls := rest }.sendResized
    | _ => none
  | .attachedReturns after =>
    match s.calls with
    | [.attaching size] => some (s.finishAttach size after)
    | _ => none
  | .configureNotify =>
    if s.calls = [] then s.window.read.map fun p => { s with window := p.2 }.onConfigure p.1 else none
  | .requestShow => if s.request = .idle then some { s with request := .queued } else none
  | .refuseShow status =>
    if s.request = .idle ∧ status ∈ refusals then some { s with request := .ready (.failed status) } else none
  | .showAgain =>
    if s.calls = [] ∧ s.request = .queued then some { s with request := .ready (.size s.cached) } else none
  | .giveUp =>
    if s.request = .opening ∨ s.request = .queued then some { s with request := .ready (.failed 5) } else none
  | .sendReply =>
    match s.request with
    | .ready w => some { s with request := .idle, told := some w }
    | _ => none
  | .grant size => if size.positive then (s.window.grant size).map fun window => { s with window } else none
  | .ignore => s.window.ignore.map fun window => { s with window }
  | .resize size => if size.positive then some { s with window := s.window.change size } else none

/-- No request, event, call or reply is under way. -/
def Settled : Prop := s.window.Settled ∧ s.calls = [] ∧ s.request = .idle

/-- The reply of a show is sent before the GUI thread takes the next `ConfigureNotify`. -/
def Prompt : Act → Prop
  | .configureNotify => ∀ q, s.request ≠ .ready (.size q)
  | _ => True

/-- The plugin resizes its view from no call of `onSize`, and reports a size once attached. -/
def Unnested : Act → Prop
  | .resizeView _ => ∀ c ∈ s.calls, ∃ size, c = .attaching size
  | .attachedReturns after => ∃ q, after = some q ∧ q.positive
  | _ => True

/-- What the server may do to the window behind the editor's back. -/
structure Served (w w' : Remote Size) : Prop where
  mirrored : ∀ {x}, w.Mirrored x → w'.Mirrored x
  reported : w.Reported → w'.Reported
  positive : w.value.positive → (∀ e ∈ w.notices, e.positive) → w'.value.positive ∧ ∀ e ∈ w'.notices, e.positive

/-- The steps, each with what it needs and what it leaves. -/
inductive Stepped (s : Editor) : Act → Editor → Prop
  | refused {q : Size} (h : ¬ q.positive) : Stepped s (.resizeView q) s
  | asks {q : Size} (h : q.positive) : Stepped s (.resizeView q)
      { s with window := s.window.ask q, view := q, calls := .resizing q :: s.calls }
  | resized {q : Size} {rest : List Call} (h : s.calls = .resizing q :: rest) :
      Stepped s .onSizeReturns ({ s with calls := rest }.onResized q)
  | configured {rest : List Call} (h : s.calls = .configuring :: rest) :
      Stepped s .onSizeReturns { s with calls := rest }.sendResized
  | attached {size : Size} {after : Option Size} (h : s.calls = [.attaching size]) :
      Stepped s (.attachedReturns after) (s.finishAttach size after)
  | configure {e : Size} {window : Remote Size} (h : s.calls = []) (hr : s.window.read = some (e, window)) :
      Stepped s .configureNotify ({ s with window }.onConfigure e)
  | requests (h : s.request = .idle) : Stepped s .requestShow { s with request := .queued }
  | again (h : s.calls = []) (hr : s.request = .queued) :
      Stepped s .showAgain { s with request := .ready (.size s.cached) }
  | refuses {status : BitVec 8} (h : s.request = .idle) :
      Stepped s (.refuseShow status) { s with request := .ready (.failed status) }
  | givesUp (h : s.request = .opening ∨ s.request = .queued) :
      Stepped s .giveUp { s with request := .ready (.failed 5) }
  | replied {w : Word} (h : s.request = .ready w) : Stepped s .sendReply { s with request := .idle, told := some w }
  | served {a : Act} {window : Remote Size} (h : Served s.window window) : Stepped s a { s with window }

private theorem served_notice {w : Remote Size} {size : Size} {rs : List Size} (h : size.positive) :
    Served w ⟨size, rs, w.notices ++ [size]⟩ where
  mirrored _ := Remote.mirrored_of_notice
  reported _ := Remote.reported_of_notice
  positive _ hn := ⟨h, fun e he => by
    rcases List.mem_append.mp he with hin | hin
    · exact hn e hin
    · rwa [List.mem_singleton.mp hin]⟩

variable {s} {t : Editor} {a : Act} {as : List Act} {reported : Size}

theorem step_cases (hs : s.step a = some t) : Stepped s a t := by
  cases a with
  | resizeView q =>
    cases hs
    unfold resizeView
    split
    · exact .asks ‹_›
    · exact .refused ‹_›
  | onSizeReturns =>
    simp only [step] at hs
    split at hs <;> cases hs
    · exact .resized ‹_›
    · exact .configured ‹_›
  | attachedReturns after =>
    simp only [step] at hs
    split at hs <;> cases hs
    exact .attached ‹_›
  | configureNotify =>
    simp only [step] at hs
    split at hs
    · obtain ⟨⟨e, window⟩, hr, rfl⟩ := Option.map_eq_some_iff.mp hs
      exact .configure ‹_› hr
    · cases hs
  | requestShow =>
    simp only [step] at hs
    split at hs <;> cases hs
    exact .requests ‹_›
  | refuseShow status =>
    simp only [step] at hs
    split at hs <;> cases hs
    rename_i h
    exact .refuses h.1
  | showAgain =>
    simp only [step] at hs
    split at hs <;> cases hs
    rename_i h
    exact .again h.1 h.2
  | giveUp =>
    simp only [step] at hs
    split at hs <;> cases hs
    exact .givesUp ‹_›
  | sendReply =>
    simp only [step] at hs
    split at hs <;> cases hs
    exact .replied ‹_›
  | grant q =>
    simp only [step] at hs
    split at hs
    · obtain ⟨window, hw, rfl⟩ := Option.map_eq_some_iff.mp hs
      obtain ⟨rs, rfl⟩ := Remote.grant_cases hw
      exact .served (served_notice ‹_›)
    · cases hs
  | ignore =>
    obtain ⟨window, hw, rfl⟩ := Option.map_eq_some_iff.mp hs
    obtain ⟨-, hvalue, hnotices⟩ := Remote.ignore_cases hw
    exact .served ⟨fun hm => hm.ignore hw, fun hm => hm.ignore hw, fun hv hn => by rw [hvalue, hnotices]; exact ⟨hv, hn⟩⟩
  | resize q =>
    simp only [step] at hs
    split at hs <;> cases hs
    exact .served (served_notice ‹_›)

private theorem onResized_cached {q : Size} (h : q.positive) : (s.onResized q).cached = q := by
  obtain ⟨hw, hh⟩ := Size.positive_iff.mp h
  simp [onResized, hw, hh]

private theorem sendResized_told (h : s.cached.positive) : s.sendResized.told = some (.size s.cached) := by
  obtain ⟨hw, hh⟩ := Size.positive_iff.mp h
  simp [sendResized, Int.max_eq_left (Int.le_of_lt hw), Int.max_eq_left (Int.le_of_lt hh)]

private theorem orDefault_positive (q : Size) : q.orDefault.positive := by
  rw [Size.positive_iff]
  unfold Size.orDefault
  constructor
  · dsimp only
    split <;> omega
  · dsimp only
    split <;> omega

/-- A `ConfigureNotify` is taken over, and handed on when it says something new. -/
private theorem onConfigure_cases {e : Size} (he : e.positive) :
    e ≠ s.cached ∧ s.onConfigure e = { s with cached := e, view := e, calls := [.configuring] } ∨
    e = s.cached ∧ s.onConfigure e = s.sendResized := by
  by_cases heq : e = s.cached
  · exact .inr ⟨heq, by simp [onConfigure, heq]⟩
  · exact .inl ⟨heq, by simp [onConfigure, he, heq]⟩

/-- The reply of the show that opens the window, if somebody waits for it. -/
def replyOf (q : Size) : Show := if s.request = .opening then .ready (.size q) else s.request

/-- What `Attach` ends with: the size it had, or the one it has just asked for. -/
private theorem finishAttach_cases (size : Size) (after : Option Size) :
    ∃ q, (s.finishAttach size after).cached = q ∧
      ((s.finishAttach size after).request = s.replyOf q ∧ (s.finishAttach size after).told = s.told) ∧
      (q = size ∧ (s.finishAttach size after).window = s.window ∨
        q.positive ∧ (s.finishAttach size after).window = s.window.ask q) ∧
      (∀ p, after = some p → p.positive → q = p ∧ (s.finishAttach size after).view = p) := by
  unfold finishAttach
  cases after with
  | none => exact ⟨size, rfl, ⟨rfl, rfl⟩, .inl ⟨rfl, rfl⟩, by simp⟩
  | some p =>
    dsimp only
    split
    · rename_i h
      rw [Bool.and_eq_true] at h
      exact ⟨p, rfl, ⟨rfl, rfl⟩, .inr ⟨h.1, rfl⟩, by rintro _ ⟨rfl⟩ _; exact ⟨rfl, rfl⟩⟩
    · rename_i h
      refine ⟨size, rfl, ⟨rfl, rfl⟩, .inl ⟨rfl, rfl⟩, ?_⟩
      rintro _ ⟨rfl⟩ hp
      simp only [hp, Bool.true_and, bne_iff_ne, ne_eq, not_not] at h
      exact ⟨h.symm, rfl⟩

private theorem finishAttach_calls (size : Size) (after : Option Size) :
    (s.finishAttach size after).calls = [] ∧ (s.finishAttach size after).attached = true := by
  unfold finishAttach
  cases after with
  | none => exact ⟨rfl, rfl⟩
  | some p =>
    dsimp only
    split
    · exact ⟨rfl, rfl⟩
    · exact ⟨rfl, rfl⟩

/-- The invariant: every size that the editor has or will have mirrors the window's. -/
structure Inv (s : Editor) : Prop where
  reported : s.window.Reported
  real : s.window.value.positive
  notices : ∀ e ∈ s.window.notices, e.positive
  calls : ∀ c ∈ s.calls, ∀ q, c.size = some q → s.window.Mirrored q ∧ q.positive
  opening : s.attached = false → ∃ size, s.calls.getLast? = some (.attaching size)
  handling : .configuring ∈ s.calls → s.attached = true
  cached : s.attached = true → s.window.Mirrored s.cached ∧ s.cached.positive

namespace Inv

theorem opened (reported : Size) : Inv (opened reported) where
  reported := by rintro e ⟨⟩
  real := orDefault_positive reported
  notices := by rintro e ⟨⟩
  calls := by
    intro c hc q hq
    rw [List.mem_singleton.mp hc] at hq
    cases hq
    exact ⟨fun _ _ => rfl, orDefault_positive reported⟩
  opening _ := ⟨_, rfl⟩
  handling := by simp [Editor.opened]
  cached := by rintro ⟨⟩

/-- After a read, with no call in progress, the size read is the only one left. -/
theorem read (h : Inv s) (hcalls : s.calls = []) {e : Size} {window : Remote Size}
    (hr : s.window.read = some (e, window)) :
    window.Reported ∧ window.value.positive ∧ (∀ d ∈ window.notices, d.positive) ∧ window.Mirrored e ∧
      e.positive ∧ s.attached = true := by
  obtain ⟨hnotices, hvalue, -⟩ := Remote.read_cases hr
  refine ⟨h.reported.read hr, by rw [hvalue]; exact h.real, fun d hd => ?_, Remote.mirrored_read h.reported hr, ?_, ?_⟩
  · exact h.notices d (by rw [hnotices]; exact List.mem_cons_of_mem e hd)
  · exact h.notices e (by rw [hnotices]; exact List.mem_cons_self)
  · cases hatt : s.attached with
    | true => rfl
    | false =>
      obtain ⟨size, hlast⟩ := h.opening hatt
      rw [hcalls] at hlast
      cases hlast

theorem pop (h : Inv s) {c : Call} {rest : List Call} (hcalls : s.calls = c :: rest) (hc : ∀ q, c ≠ .attaching q) :
    (∀ d ∈ rest, ∀ q, d.size = some q → s.window.Mirrored q ∧ q.positive) ∧
    (s.attached = false → ∃ size, rest.getLast? = some (.attaching size)) ∧
    (.configuring ∈ rest → s.attached = true) := by
  refine ⟨fun d hd => h.calls d (by rw [hcalls]; exact List.mem_cons_of_mem c hd), fun hatt => ?_, fun hin => ?_⟩
  · obtain ⟨size, hlast⟩ := h.opening hatt
    rw [hcalls] at hlast
    cases rest with
    | nil =>
      cases hlast
      exact absurd rfl (hc size)
    | cons d rest => exact ⟨size, by rwa [List.getLast?_cons_cons] at hlast⟩
  · exact h.handling (by rw [hcalls]; exact List.mem_cons_of_mem c hin)

theorem step (h : Inv s) (hs : s.step a = some t) : Inv t := by
  cases step_cases hs with
  | refused => exact h
  | @asks q hq =>
    refine ⟨h.reported, h.real, h.notices, fun c hc p hp => ?_, fun hatt => ?_, fun hin => ?_, fun hatt => ?_⟩
    · rcases List.mem_cons.mp hc with rfl | hin
      · cases hp
        exact ⟨Remote.mirrored_ask, hq⟩
      · exact ⟨(h.calls c hin p hp).1.ask, (h.calls c hin p hp).2⟩
    · obtain ⟨size, hlast⟩ := h.opening hatt
      refine ⟨size, ?_⟩
      dsimp only
      rw [List.getLast?_cons, hlast]
      rfl
    · exact h.handling ((List.mem_cons.mp hin).resolve_left (by simp))
    · exact ⟨(h.cached hatt).1.ask, (h.cached hatt).2⟩
  | @resized q rest hcalls =>
    obtain ⟨hmirror, hpos⟩ := h.calls _ (by rw [hcalls]; exact List.mem_cons_self) q rfl
    obtain ⟨hrest, hopening, hhandling⟩ := h.pop hcalls (by simp)
    refine ⟨h.reported, h.real, h.notices, hrest, hopening, hhandling, fun _ => ?_⟩
    rw [onResized_cached hpos]
    exact ⟨hmirror, hpos⟩
  | configured hcalls =>
    obtain ⟨hrest, hopening, hhandling⟩ := h.pop hcalls (by simp)
    exact ⟨h.reported, h.real, h.notices, hrest, hopening, hhandling, h.cached⟩
  | @attached size after hcalls =>
    obtain ⟨hmirror, hpos⟩ := h.calls _ (by rw [hcalls]; exact List.mem_cons_self) size rfl
    obtain ⟨q, hcached, -, hwindow, -⟩ := finishAttach_cases (s := s) size after
    obtain ⟨hnone, hatt⟩ := finishAttach_calls (s := s) size after
    refine ⟨?_, ?_, ?_, by simp [hnone], by simp [hatt], by simp [hnone], fun _ => ?_⟩
    · rcases hwindow with ⟨-, hw⟩ | ⟨-, hw⟩ <;> rw [hw] <;> exact h.reported
    · rcases hwindow with ⟨-, hw⟩ | ⟨-, hw⟩ <;> rw [hw] <;> exact h.real
    · rcases hwindow with ⟨-, hw⟩ | ⟨-, hw⟩ <;> rw [hw] <;> exact h.notices
    · rw [hcached]
      rcases hwindow with ⟨rfl, hw⟩ | ⟨hq, hw⟩
      · rw [hw]
        exact ⟨hmirror, hpos⟩
      · rw [hw]
        exact ⟨Remote.mirrored_ask, hq⟩
  | configure hcalls hr =>
    obtain ⟨hreported, hreal, hnotices, hmirror, hpos, hatt⟩ := h.read hcalls hr
    rcases onConfigure_cases (s := { s with window := _ }) hpos with ⟨-, heq⟩ | ⟨hsame, heq⟩ <;> rw [heq]
    · exact ⟨hreported, hreal, hnotices, by simp [Call.size], by simp [hatt], fun _ => hatt, fun _ => ⟨hmirror, hpos⟩⟩
    · refine ⟨hreported, hreal, hnotices, by simp [sendResized, hcalls], by simp [sendResized, hatt],
        fun _ => hatt, fun _ => ?_⟩
      simp only [sendResized]
      rw [← hsame]
      exact ⟨hmirror, hpos⟩
  | requests | refuses | again | givesUp | replied =>
    exact ⟨h.reported, h.real, h.notices, h.calls, h.opening, h.handling, h.cached⟩
  | served hw =>
    obtain ⟨hreal, hnotices⟩ := hw.positive h.real h.notices
    refine ⟨hw.reported h.reported, hreal, hnotices, fun c hc q hq => ?_, h.opening, h.handling, fun hatt => ?_⟩
    · exact ⟨hw.mirrored (h.calls c hc q hq).1, (h.calls c hc q hq).2⟩
    · exact ⟨hw.mirrored (h.cached hatt).1, (h.cached hatt).2⟩

end Inv

/-- What the host has been told last once the control thread is back from `RequestShow`. -/
def lastWord : Option Word :=
  match s.request with
  | .ready w => some w
  | _ => s.told

/-- A word that is no size, or one that mirrors the window's. -/
def Right (w : Remote Size) (word : Option Word) : Prop :=
  (∃ status, word = some (.failed status)) ∨ ∃ q, word = some (.size q) ∧ w.Mirrored q

theorem Right.mono {w w' : Remote Size} {word : Option Word} (h : Right w word)
    (hw : ∀ q, w.Mirrored q → w'.Mirrored q) : Right w' word :=
  h.imp_right fun ⟨q, hq, hm⟩ => ⟨q, hq, hw q hm⟩

/-- With no size of a show to be sent, the host is told the remembered size, or 0x0 after it. -/
private theorem right_sendResized (hr : ∀ q, s.request ≠ .ready (.size q)) (hm : s.window.Mirrored s.cached)
    (hpos : s.cached.positive) : Right s.window s.sendResized.lastWord := by
  have htold := sendResized_told hpos
  unfold lastWord
  rw [show s.sendResized.request = s.request from rfl]
  cases hreq : s.request with
  | ready w =>
    cases w with
    | failed status => exact .inl ⟨status, rfl⟩
    | size q => exact absurd hreq (hr q)
  | _ => exact .inr ⟨s.cached, htold, hm⟩

/-- What the host was told last, or is about to be told, is right; while the window is being
opened it is told of nothing else than shows that fail. -/
structure HostKnows (s : Editor) : Prop where
  opening : s.attached = false → s.request = .opening ∨ ∃ status, s.lastWord = some (.failed status)
  answered : s.attached = true → s.request ≠ .opening
  handling : .configuring ∈ s.calls → ∀ q, s.request ≠ .ready (.size q)
  told : s.attached = true → .configuring ∉ s.calls → Right s.window s.lastWord

/-- The request and what the host was told last stay; the other parts may not forget. -/
theorem HostKnows.frame (h : HostKnows s) (hatt : t.attached = s.attached) (hreq : t.request = s.request)
    (htold : t.told = s.told) (hcalls : .configuring ∈ t.calls ↔ .configuring ∈ s.calls)
    (hw : ∀ q, s.window.Mirrored q → t.window.Mirrored q) : HostKnows t := by
  have hword : t.lastWord = s.lastWord := by
    unfold lastWord
    rw [hreq, htold]
  refine ⟨?_, ?_, ?_, ?_⟩
  · rw [hatt, hreq, hword]
    exact h.opening
  · rw [hatt, hreq]
    exact h.answered
  · rw [hcalls, hreq]
    exact h.handling
  · rw [hatt, hcalls, hword]
    exact fun ha hc => (h.told ha hc).mono hw

theorem HostKnows.step (h : HostKnows s) (hi : Inv s) (hok : s.Prompt a) (hs : s.step a = some t) : HostKnows t := by
  have hnext := hi.step hs
  cases step_cases hs with
  | refused => exact h
  | asks => exact h.frame rfl rfl rfl (by simp) fun q hm => hm.ask
  | resized hcalls => exact h.frame rfl rfl rfl (by rw [hcalls]; simp [onResized]) fun q hm => hm
  | configured hcalls =>
    have hin : .configuring ∈ s.calls := by rw [hcalls]; exact List.mem_cons_self
    have hatt := hi.handling hin
    obtain ⟨hm, hpos⟩ := hi.cached hatt
    refine ⟨fun hnot => ?_, fun _ => h.answered hatt, fun _ => h.handling hin, fun _ _ => ?_⟩
    · rw [show s.attached = false from hnot] at hatt
      cases hatt
    · exact right_sendResized (s := { s with calls := _ }) (h.handling hin) hm hpos
  | @attached size after hcalls =>
    obtain ⟨q, hcached, ⟨hreq, htold⟩, hwindow, -⟩ := finishAttach_cases (s := s) size after
    obtain ⟨hnone, hatt⟩ := finishAttach_calls (s := s) size after
    have hmirror := (hnext.cached hatt).1
    rw [hcached] at hmirror
    refine ⟨by simp [hatt], fun _ => ?_, by simp [hnone], fun _ _ => ?_⟩
    · rw [hreq]
      unfold replyOf
      split <;> simp [*]
    · by_cases hopening : s.request = .opening
      · refine .inr ⟨q, ?_, hmirror⟩
        simp [lastWord, hreq, replyOf, hopening]
      · have hword : (s.finishAttach size after).lastWord = s.lastWord := by
          rw [lastWord, hreq, htold, replyOf, if_neg hopening, lastWord]
        rw [hword]
        cases hbefore : s.attached with
        | false => exact .inl ((h.opening hbefore).resolve_left hopening)
        | true =>
          refine (h.told hbefore (by simp [hcalls])).mono fun p hm => ?_
          rcases hwindow with ⟨-, hw⟩ | ⟨-, hw⟩ <;> rw [hw]
          · exact hm
          · exact hm.ask
  | configure hcalls hr =>
    have hreply : ∀ q, s.request ≠ .ready (.size q) := hok
    obtain ⟨-, -, -, hmirror, hpos, hatt⟩ := hi.read hcalls hr
    rcases onConfigure_cases (s := { s with window := _ }) hpos with ⟨-, heq⟩ | ⟨hsame, heq⟩ <;> rw [heq]
    · refine ⟨fun hnot => ?_, fun _ => h.answered hatt, fun _ => hreply, fun _ hnot => absurd List.mem_cons_self hnot⟩
      rw [show s.attached = false from hnot] at hatt
      cases hatt
    · rw [hsame] at hmirror hpos
      refine ⟨fun hnot => ?_, fun _ => h.answered hatt, fun _ => hreply, fun _ _ => ?_⟩
      · rw [show s.attached = false from hnot] at hatt
        cases hatt
      · exact right_sendResized (s := { s with window := _ }) hreply hmirror hpos
  | requests hidle =>
    have hword : (({ s with request := .queued } : Editor)).lastWord = s.lastWord := by
      unfold lastWord
      rw [hidle]
    refine ⟨fun hatt => .inr ?_, fun _ => nofun, fun _ => nofun, fun hatt hc => ?_⟩
    · rw [hword]
      exact (h.opening hatt).resolve_left (by rw [hidle]; nofun)
    · rw [hword]
      exact h.told hatt hc
  | again hcalls =>
    refine ⟨fun hnot => ?_, fun _ => nofun, fun hin => ?_, fun hatt _ => .inr ⟨s.cached, rfl, (hi.cached hatt).1⟩⟩
    · obtain ⟨size, hlast⟩ := hi.opening hnot
      rw [hcalls] at hlast
      cases hlast
    · rw [show s.calls = [] from hcalls] at hin
      cases hin
  | refuses | givesUp => exact ⟨fun _ => .inr ⟨_, rfl⟩, fun _ => nofun, fun _ => nofun, fun _ _ => .inl ⟨_, rfl⟩⟩
  | @replied w hready =>
    have hword : (({ s with request := .idle, told := some w } : Editor)).lastWord = s.lastWord := by
      unfold lastWord
      rw [hready]
    refine ⟨fun hatt => .inr ?_, fun _ => nofun, fun _ => nofun, fun hatt hc => ?_⟩
    · rw [hword]
      exact (h.opening hatt).resolve_left (by rw [hready]; nofun)
    · rw [hword]
      exact h.told hatt hc
  | served hw => exact h.frame rfl rfl rfl Iff.rfl fun q hm => hw.mirrored hm

/-- What the plugin was told last, or said itself, against what the editor has or will have. -/
def ViewKnows (s : Editor) : Prop := s.attached = true →
  match s.calls with
  | [] | [.configuring] => s.view = s.cached
  | [.resizing q] => s.view = q
  | _ => False

theorem ViewKnows.step (h : ViewKnows s) (hi : Inv s) (hok : s.Unnested a) (hs : s.step a = some t) : ViewKnows t := by
  cases step_cases hs with
  | refused => exact h
  | @asks q hq =>
    intro hatt
    have hnow := h hatt
    cases hcalls : s.calls with
    | nil => rfl
    | cons c rest =>
      obtain ⟨size, rfl⟩ := hok c (by rw [hcalls]; exact List.mem_cons_self)
      rw [hcalls] at hnow
      exact hnow.elim
  | @resized q rest hcalls =>
    intro hatt
    have hpos := (hi.calls _ (by rw [hcalls]; exact List.mem_cons_self) q rfl).2
    have hnow := h hatt
    rw [hcalls] at hnow
    cases rest with
    | nil => exact hnow.trans (onResized_cached hpos).symm
    | cons c rest => exact hnow.elim
  | @configured rest hcalls =>
    intro hatt
    have hnow := h hatt
    rw [hcalls] at hnow
    cases rest with
    | nil => exact hnow
    | cons c rest => exact hnow.elim
  | @attached size after hcalls =>
    intro _
    obtain ⟨p, rfl, hp⟩ := hok
    obtain ⟨q, hcached, -, -, hview⟩ := finishAttach_cases (s := s) size (some p)
    obtain ⟨rfl, hview⟩ := hview p rfl hp
    rw [(finishAttach_calls (s := s) size _).1]
    exact hview.trans hcached.symm
  | configure hcalls hr =>
    obtain ⟨-, -, -, -, hpos, hatt⟩ := hi.read hcalls hr
    have hnow := h hatt
    rw [hcalls] at hnow
    rcases onConfigure_cases (s := { s with window := _ }) hpos with ⟨-, heq⟩ | ⟨-, heq⟩ <;> rw [heq]
    · exact fun _ => rfl
    · intro _
      simp only [sendResized, hcalls]
      exact hnow
  | requests | refuses | again | givesUp | replied | served => exact h

instance (s : Editor) : DecidablePred s.Prompt
  | .configureNotify => decidable_of_iff (s.request.hasSize = false) (by
    cases hreq : s.request with
    | ready w => cases w <;> simp [Prompt, hreq, Show.hasSize]
    | _ => simp [Prompt, hreq, Show.hasSize])
  | .resizeView _ | .onSizeReturns | .attachedReturns _ | .requestShow | .refuseShow _ | .showAgain | .giveUp | .sendReply
  | .grant _ | .ignore | .resize _ => inferInstanceAs (Decidable True)

/-- A show reply that is sent after the `ConfigureNotify` it should have come before. -/
example : (exec step (opened ⟨400, 300⟩) [.attachedReturns none, .resize ⟨600, 400⟩, .configureNotify, .onSizeReturns,
    .sendReply]).map (fun s => (s.window.value, s.told)) = some (⟨600, 400⟩, some (.size ⟨400, 300⟩)) := by
  decide +kernel

/-- A plugin that is attached for longer than `RequestShow` waits: the host has no size until it asks again. -/
example : (exec step (opened ⟨400, 300⟩) [.giveUp, .sendReply, .attachedReturns none]).map (·.told) =
      some (some (.failed 5)) ∧
    (exec step (opened ⟨400, 300⟩) [.giveUp, .sendReply, .requestShow, .attachedReturns none, .showAgain,
      .sendReply]).map (·.told) = some (some (.size ⟨400, 300⟩)) := by decide +kernel

end Editor
end Plughost.Vst3.EditorGeometry
