import Plughost.Vst3.RequestQueue

/-! The control thread's editor, load and unload requests against `GuiThread::ThreadMain`,
from `Start` on. Window sizes and titles, which decide nothing here, are left out. -/
namespace Plughost.Vst3.Editor
open Plughost.Runs Plughost.Simulation
open Plughost.Vst3.Requests (Asked RequestKind RequestQueue)

abbrev Slot := Fin kMaxSlots

def slotOf (b : BitVec 8) : Option Slot := if h : b.toNat < kMaxSlots then some ⟨b.toNat, h⟩ else none

def slotByte (i : Slot) : BitVec 8 := BitVec.ofNat 8 i.val

/-- `GuiThread::Request`. Editor objects go by number; `id` stands for the addresses
of the caller's reply cells, which no other request shares. -/
structure Request extends Asked where
  view : Option Nat
  idlePump : Option Nat
  id : Nat
  deriving DecidableEq, Repr

/-- The view and the pump of an attached `EditorWindow`. -/
structure EditorWindow where
  view : Option Nat
  idlePump : Option Nat
  deriving DecidableEq, Repr

/-- What `EditorWindow::Attach` reports for a view that is not null. -/
inductive Attached where
  | ok | unsupported | noSize | noWindow | refused
  deriving DecidableEq, Repr

def Attached.status : Attached → BitVec 8
  | .ok => 0
  | .unsupported => 3
  | .noSize | .noWindow => 5
  | .refused => 4

/-- The editor frames the sidecar sends, by slot byte and status. -/
inductive Frame where
  | showEditorResult (slot status : BitVec 8)
  | hideEditorResult (slot status : BitVec 8)
  | editorClosed (slot : BitVec 8)
  | editorResized (slot : BitVec 8)
  deriving DecidableEq, Repr

/-- A request frame; a load carries the format that `DetectFormat` finds. `LoadPlugin` and
`UnloadPlugin` are the forms for slot 0. -/
inductive HostRequest where
  | showEditor (slot : BitVec 8)
  | hideEditor (slot : BitVec 8)
  | loadSlot (slot : BitVec 8) (f : SlotFormat)
  | unloadSlot (slot : BitVec 8)
  /-- `SlotShowEditor` or `SlotHideEditor` with a payload that is not one byte. -/
  | badShow | badHide
  deriving DecidableEq, Repr

/-- Which handler calls `RequestHide`. -/
inductive Why where
  | hideEditor
  | loadSlot (f : SlotFormat)
  | unloadSlot
  deriving DecidableEq, Repr

/-- Where the control thread stands in a handler: the statement that comes next. -/
inductive Control where
  | idle
  | showLoaded (i : Slot) | showStart (i : Slot) | showAcquire (i : Slot)
  /-- The view is in hand; `AcquireEditorIdlePump` is next. -/
  | showPump (i : Slot) (v : Nat)
  | showEnqueue (i : Slot) (v : Nat) (p : Option Nat)
  /-- In `wait_for`, with the request in the queue or beyond. -/
  | showWait (q : Request)
  | showRelease (i : Slot) (st : BitVec 8)
  | showSend (i : Slot) (st : BitVec 8)
  | hideRunning (i : Slot) (why : Why) | hideEnqueue (i : Slot) (why : Why)
  | hideWait (q : Request) (why : Why)
  | hideRelease (i : Slot) (why : Why)
  /-- The editor was open: report it closed. -/
  | hideSend (i : Slot) (why : Why)
  /-- `SlotHideEditorResult` with status 1. -/
  | hideMissed (i : Slot)
  /-- `PluginChain::LoadSlot` or `UnloadSlot`. -/
  | chain (i : Slot) (why : Why)
  deriving DecidableEq, Repr

/-- The request whose reply the control thread waits for. -/
def Control.showing : Control → Option Request
  | .showWait q => some q
  | _ => none

def Control.hiding : Control → Option Request
  | .hideWait q _ => some q
  | _ => none

/-- What follows when `RequestHide` has returned false. -/
def Why.missed (i : Slot) : Why → Control
  | .hideEditor => .hideMissed i
  | why => .chain i why

/-- What follows once the close has been reported. -/
def Why.reported (i : Slot) : Why → Control
  | .hideEditor => .idle
  | why => .chain i why

def Why.report (i : Slot) : Why → Frame
  | .hideEditor => .hideEditorResult (slotByte i) 0
  | _ => .editorClosed (slotByte i)

/-- Where the GUI thread stands in its loop. -/
inductive Gui where
  /-- `DrainRequests` swaps the queue out. -/
  | top
  | drain
  /-- In `EditorWindow::Attach`, calling the view. -/
  | attach (r : Request)
  /-- In `EditorWindow::Detach`, for a hide request or for the window manager. -/
  | detach (i : Slot) (r : Option Request)
  /-- `*showReply = …`; `opened` if this request made the window. -/
  | writeShow (r : Request) (st : BitVec 8) (opened : Bool)
  | writeHide (r : Request) (wasOpen : Bool)
  | setReady (r : Request) (opened : Bool)
  | events
  /-- In the view's `onSize`. -/
  | onSize (i : Slot)
  | sendResized (i : Slot)
  /-- The `EditorClosed` callback: `ReleaseEditorView`, then the frame. -/
  | callbackRelease (i : Slot) | callbackSend (i : Slot)
  /-- The idle loop, at the window of this index. -/
  | tick (n : Nat)
  /-- In the pump's `Idle`. -/
  | idleCall (i : Slot)
  deriving DecidableEq, Repr

/-- The request taken off the queue and not yet answered. -/
def Gui.busy : Gui → Option Request
  | .attach r | .detach _ (some r) | .writeShow r _ _ | .writeHide r _ | .setReady r _ => some r
  | _ => none

/-- The show request whose window is being made. -/
def Gui.attaching : Gui → Option Request
  | .attach r => some r
  | _ => none

/-- The hide request whose window is being taken down. -/
def Gui.detaching : Gui → Option Request
  | .detach _ r => r
  | _ => none

/-- The show request that has made a window and is not yet answered. -/
def Gui.opened : Gui → Option Request
  | .writeShow r _ true | .setReady r true => some r
  | _ => none

/-- The hide request that has closed a window and whose reply is not yet written. -/
def Gui.closed : Gui → Option Request
  | .writeHide r true => some r
  | _ => none

/-- The slot whose `EditorClosed` callback is running. -/
def Gui.callback : Gui → Option Slot
  | .callbackRelease i | .callbackSend i => some i
  | _ => none

/-- The slot whose `EditorClosed` frame is next. -/
def Gui.reporting : Gui → Option Slot
  | .callbackSend i => some i
  | _ => none

/-- An X event for the window of slot `i`; `resized` if it brings a new size. -/
inductive XEvent where
  | close (i : Slot)
  | configure (i : Slot) (resized : Bool)
  deriving DecidableEq, Repr

inductive Act where
  | request (f : HostRequest)
  /-- The control thread steps; `ok` is whether `Start`, `createView` or `Load` succeeds. -/
  | control (ok : Bool)
  /-- The second of `wait_for` is over. -/
  | timeout
  | gui
  | attach (out : Attached)
  | xEvent (e : XEvent)
  deriving DecidableEq, Repr

/-- The chain's editor objects, the GUI thread's members, the reply cells, the two
threads, and the frames sent so far. `released` marks the objects that
`ReleaseEditorView` or an unload has let go. -/
structure Sidecar where
  loaded : Slot → Bool
  format : Slot → SlotFormat
  editorView : Slot → Option Nat
  nextObject : Nat
  released : Nat → Bool
  running : Bool
  queue : List Request
  batch : List Request
  windows : Slot → Option EditorWindow
  showReply : Nat → BitVec 8
  hideReply : Nat → Bool
  replyReady : Nat → Bool
  nextRequest : Nat
  control : Control
  gui : Gui
  wire : List Frame

namespace Sidecar

/-- Before the first request. -/
def initial : Sidecar :=
  { loaded := fun _ => false, format := fun _ => .empty, editorView := fun _ => none, nextObject := 0,
    released := fun _ => false, running := false, queue := [], batch := [], windows := fun _ => none,
    showReply := fun _ => 7, hideReply := fun _ => false, replyReady := fun _ => false, nextRequest := 0,
    control := .idle, gui := .top, wire := [] }

def send (s : Sidecar) (f : Frame) : Sidecar := { s with wire := s.wire ++ [f] }

/-- `PluginChain::AcquireEditorView`: the slot's object, made now if there is none. -/
def acquireEditorView (s : Sidecar) (i : Slot) (ok : Bool) : Sidecar × Option Nat :=
  if s.loaded i then
    match s.editorView i with
    | some o => (s, some o)
    | none =>
      if ok then ({ s with editorView := Function.update s.editorView i (some s.nextObject),
                           nextObject := s.nextObject + 1 }, some s.nextObject)
      else (s, none)
  else (s, none)

/-- The VST2 and CLAP wrappers are their own pumps. -/
def acquireEditorIdlePump (s : Sidecar) (i : Slot) (ok : Bool) : Sidecar × Option Nat :=
  match s.format i with
  | .vst2 | .clap => s.acquireEditorView i ok
  | .vst3 | .empty => (s, none)

def releaseEditorView (s : Sidecar) (i : Slot) : Sidecar :=
  { s with
    editorView := Function.update s.editorView i none,
    released := fun o => s.released o || s.editorView i = some o }

/-- `UnloadSlot`, and what `LoadSlot` does first: the object goes with its plugin. -/
def unloadSlot (s : Sidecar) (i : Slot) : Sidecar :=
  { s.releaseEditorView i with
    loaded := Function.update s.loaded i false, format := Function.update s.format i .empty }

def loadSlot (s : Sidecar) (i : Slot) (f : SlotFormat) (ok : Bool) : Sidecar :=
  if ok ∧ f ≠ .empty then { s.unloadSlot i with
    loaded := Function.update s.loaded i true, format := Function.update s.format i f }
  else s.unloadSlot i

def newRequest (s : Sidecar) (kind : RequestKind) (i : Slot) (view idlePump : Option Nat) : Request :=
  { kind, slotIdx := i, view, idlePump, id := s.nextRequest }

/-- The request goes into the queue, and its caller into `wait_for`. -/
def enqueue (s : Sidecar) (q : Request) (c : Control) : Sidecar :=
  { s with queue := s.queue ++ [q], nextRequest := s.nextRequest + 1, control := c }

/-- The control thread takes the next request frame. -/
def receive (s : Sidecar) : HostRequest → Sidecar
  | .showEditor b => match slotOf b with
    | some i => { s with control := .showLoaded i }
    | none => s.send (.showEditorResult b 6)
  | .hideEditor b => match slotOf b with
    | some i => { s with control := .hideRunning i .hideEditor }
    | none => s.send (.hideEditorResult b 6)
  | .loadSlot b f => match slotOf b with
    | some i => { s with control := .hideRunning i (.loadSlot f) }
    | none => s
  | .unloadSlot b => match slotOf b with
    | some i => { s with control := .hideRunning i .unloadSlot }
    | none => s
  | .badShow => s.send (.showEditorResult 0xFF 5)
  | .badHide => s.send (.hideEditorResult 0xFF 5)

/-- `RequestHide` returns what it finds in the reply cell, with or without a reply. -/
def hideReturns (s : Sidecar) (q : Request) (why : Why) : Sidecar :=
  { s with control := if s.hideReply q.id then .hideRelease q.slotIdx why else why.missed q.slotIdx }

/-- The control thread's next statement. -/
def controlStep (s : Sidecar) (ok : Bool) : Option Sidecar :=
  match s.control with
  | .idle => none
  | .showLoaded i => some { s with control := if s.loaded i then .showStart i else .showSend i 1 }
  | .showStart i =>
    if s.running || ok then some { s with running := true, control := .showAcquire i }
    else some { s with control := .showSend i 7 }
  | .showAcquire i => match s.acquireEditorView i ok with
    | (s, some v) => some { s with control := .showPump i v }
    | (s, none) => some { s with control := .showSend i 2 }
  | .showPump i v => match s.acquireEditorIdlePump i ok with
    | (s, p) => some { s with control := .showEnqueue i v p }
  | .showEnqueue i v p =>
    if s.running then
      let q := s.newRequest .requestShow i (some v) p
      some (s.enqueue q (.showWait q))
    else some { s with control := .showRelease i 7 }
  | .showWait q =>
    if s.replyReady q.id then some { s with
      control := if s.showReply q.id = 0 then .showSend q.slotIdx 0
        else .showRelease q.slotIdx (s.showReply q.id) }
    else none
  | .showRelease i st => some { s.releaseEditorView i with control := .showSend i st }
  | .showSend i st => some { s.send (.showEditorResult (slotByte i) st) with control := .idle }
  | .hideRunning i why => some { s with control := if s.running then .hideEnqueue i why else why.missed i }
  | .hideEnqueue i why =>
    let q := s.newRequest .requestHide i none none
    some (s.enqueue q (.hideWait q why))
  | .hideWait q why => if s.replyReady q.id then some (s.hideReturns q why) else none
  | .hideRelease i why => some { s.releaseEditorView i with control := .hideSend i why }
  | .hideSend i why => some { s.send (why.report i) with control := why.reported i }
  | .hideMissed i => some { s.send (.hideEditorResult (slotByte i) 1) with control := .idle }
  | .chain i why => match why with
    | .loadSlot f => some { s.loadSlot i f ok with control := .idle }
    | .hideEditor | .unloadSlot => some { s.unloadSlot i with control := .idle }

/-- `wait_for` returns with its predicate still false. -/
def timeoutStep (s : Sidecar) : Option Sidecar :=
  match s.control with
  | .showWait q => if s.replyReady q.id then none else some { s with control := .showRelease q.slotIdx 5 }
  | .hideWait q why => if s.replyReady q.id then none else some (s.hideReturns q why)
  | _ => none

/-- `HandleShow` and `HandleHide`, up to the call into the view or the reply. -/
def handleRequest (s : Sidecar) (r : Request) : Gui :=
  match r.kind with
  | .requestShow =>
    if (s.windows r.slotIdx).isSome then .writeShow r 0 false
    else if r.view.isNone then .writeShow r 2 false
    else .attach r
  | .requestHide =>
    if (s.windows r.slotIdx).isSome then .detach r.slotIdx (some r) else .writeHide r false

/-- The idle loop at index `n`: `OnIdleTick` where there is a window with a pump. -/
def idleLoop (s : Sidecar) (n : Nat) : Gui :=
  if h : n < kMaxSlots then
    match (s.windows ⟨n, h⟩).bind (·.idlePump) with
    | some _ => .idleCall ⟨n, h⟩
    | none => .tick (n + 1)
  else .top

/-- The GUI thread's next statement. A reply that comes too late is written to cells
that nothing reads any more. -/
def guiStep (s : Sidecar) : Option Sidecar :=
  match s.gui with
  | .top => some { s with batch := s.queue, queue := [], gui := .drain }
  | .drain => match s.batch with
    | [] => some { s with gui := .events }
    | r :: rest => some { s with batch := rest, gui := s.handleRequest r }
  | .attach _ => none
  | .detach i r => some { s with
      windows := Function.update s.windows i none,
      gui := match r with
        | some r => .writeHide r true
        | none => .callbackRelease i }
  | .writeShow r st opened => some { s with
      showReply := Function.update s.showReply r.id st, gui := .setReady r opened }
  | .writeHide r wasOpen => some { s with
      hideReply := Function.update s.hideReply r.id wasOpen, gui := .setReady r false }
  | .setReady r _ => some { s with replyReady := Function.update s.replyReady r.id true, gui := .drain }
  | .events => some { s with gui := .tick 0 }
  | .onSize i => some { s with gui := .sendResized i }
  | .sendResized i => some { s.send (.editorResized (slotByte i)) with gui := .events }
  | .callbackRelease i => some { s.releaseEditorView i with gui := .callbackSend i }
  | .callbackSend i => some { s.send (.editorClosed (slotByte i)) with gui := .events }
  | .tick n => some { s with gui := s.idleLoop n }
  | .idleCall i => some { s with gui := .tick (i.val + 1) }

/-- `EditorWindow::Attach` returns. -/
def attachStep (s : Sidecar) (out : Attached) : Option Sidecar :=
  match s.gui with
  | .attach r =>
    if out = .ok then some { s with
      windows := Function.update s.windows r.slotIdx (some { view := r.view, idlePump := r.idlePump }),
      gui := .writeShow r 0 true }
    else some { s with gui := .writeShow r out.status false }
  | _ => none

/-- One event of `DispatchPendingXEvents`; one that matches no window is ignored. -/
def xEventStep (s : Sidecar) (e : XEvent) : Option Sidecar :=
  if s.gui = .events then
    match e with
    | .close i => some { s with gui := if (s.windows i).isSome then .detach i none else .events }
    | .configure i resized => some { s with
        gui := if (s.windows i).isNone then .events else if resized then .onSize i else .sendResized i }
  else none

def step (s : Sidecar) : Act → Option Sidecar
  | .request f => if s.control = .idle then some (s.receive f) else none
  | .control ok => s.controlStep ok
  | .timeout => s.timeoutStep
  | .gui => if s.running then s.guiStep else none
  | .attach out => if s.running then s.attachStep out else none
  | .xEvent e => if s.running then s.xEventStep e else none

/-- What a step is, thread by thread. -/
theorem step_cases {s t : Sidecar} {a : Act} (hs : s.step a = some t) :
    match a with
    | .request f => s.control = .idle ∧ s.receive f = t
    | .control ok => s.controlStep ok = some t
    | .timeout => s.timeoutStep = some t
    | .gui => s.guiStep = some t
    | .attach out => s.attachStep out = some t
    | .xEvent e => s.xEventStep e = some t := by
  cases a with
  | request f =>
    obtain ⟨hc, heq⟩ := Option.ite_none_right_eq_some.mp hs
    exact ⟨hc, Option.some.inj heq⟩
  | control ok => exact hs
  | timeout => exact hs
  | gui => exact (Option.ite_none_right_eq_some.mp hs).2
  | attach out => exact (Option.ite_none_right_eq_some.mp hs).2
  | xEvent e => exact (Option.ite_none_right_eq_some.mp hs).2

/-- A VST2 plugin is loaded into slot 0 and its editor requested, up to the wait. -/
def showFirst : List Act :=
  .request (.loadSlot 0 .vst2) :: List.replicate 2 (.control true) ++
    .request (.showEditor 0) :: List.replicate 5 (.control true)

/-- The GUI thread takes a show request up and answers it. -/
def answerShow : List Act := [.gui, .gui, .attach .ok, .gui, .gui, .gui]

/-- Shown, resized, closed by the window manager, shown again and unloaded, with the
replies in time. -/
def session : List Act :=
  showFirst ++ answerShow ++ [.control true, .control true] ++
    [.xEvent (.configure 0 true), .gui, .gui, .xEvent (.close 0), .gui, .gui, .gui] ++ List.replicate 10 .gui ++
    .request (.showEditor 0) :: List.replicate 5 (.control true) ++ answerShow ++ [.control true, .control true] ++
    List.replicate 11 .gui ++ .request (.unloadSlot 0) :: List.replicate 2 (.control true) ++
    List.replicate 5 .gui ++ List.replicate 4 (.control true)

end Sidecar
end Plughost.Vst3.Editor
