import Plughost.Main.Replies

/-! `controlReader`'s handlers: a payload is checked and read, and the request in it is
performed on the chain and the GUI thread. -/
namespace Plughost.Main
open Plughost.Ipc.ControlPipe Plughost.Vst3

structure ShowResult where
  ok : Bool
  status : Byte
  width : BitVec 32
  height : BitVec 32

/-- `GuiThread` as the control thread uses it, on its state `G`. -/
structure GuiThread (G V : Type) where
  isRunning : G → Bool
  start : G → Bool × G
  requestShow : G → Int → V → Option V → List Byte → ShowResult × G
  requestHide : G → Int → Bool × G

/-- What the loader and the plugins answer while one request is handled. -/
structure Plugins (P V : Type) where
  loader : Loader P
  createView : P → Option V
  listParams : P → List ParamInfo
  setParam : P → BitVec 32 → BitVec 64 → BitVec 64 × P

/-- A call of the control thread into the chain or the GUI thread. -/
inductive Called where
  | isRunning
  | start
  | requestShow (slotIdx : Int)
  | requestHide (slotIdx : Int)
  | isSlotLoaded (slotIdx : Int)
  | acquireEditorView (slotIdx : Int)
  | acquireEditorIdlePump (slotIdx : Int)
  | releaseEditorView (slotIdx : Int)
  | loadSlot (slotIdx : Int) (path : Path)
  | unloadSlot (slotIdx : Int)
  | setSlotBypass (slotIdx : Int) (bypass : Bool)
  | setChainEnabled (enabled : Bool)
  | listParams (slotIdx : Int)
  | setParam (slotIdx : Int) (paramId : BitVec 32) (normalized : BitVec 64)
  deriving DecidableEq

/-- What a request asks for, once its payload is read. -/
inductive Request where
  | loadPlugin (path : Path)
  | unloadPlugin
  | slotLoadPlugin (slot : Byte) (path : Path)
  | slotUnloadPlugin (slot : Byte)
  | slotSetBypass (slot : Byte) (bypass : Bool)
  | setChainEnabled (enabled : Bool)
  | slotListParams (slot : Byte)
  | slotSetParam (slot : Byte) (paramId : BitVec 32) (normalized : BitVec 64)
  | slotShowEditor (slot : Byte)
  | slotHideEditor (slot : Byte)
  deriving DecidableEq

/-- The control thread between two requests: the chain and the GUI thread, its calls
into them and the frames it has handed to `sendFrame`. -/
structure Control (P V C α G : Type) where
  chain : SlotTable P V C α
  gui : G
  calls : List Called
  sent : List Frame

/-- Undefined behaviour of the control thread. -/
inductive Fault (P V C α G : Type) where
  /-- A byte outside the payload is read. -/
  | outside
  /-- `Load` builds a string from a null pointer; `t` is how far the handler has come. -/
  | crash (t : Control P V C α G)

abbrev Outcome (P V C α G : Type) := Except (Fault P V C α G) (Control P V C α G)

def loadReply : LoadResult → Frame
  | .ok info => loadResult 0 info.name info.vendor info.version []
  | .error e => loadResult e.status [] [] [] e.message

def slotLoadReply (slot : Byte) : LoadResult → Frame
  | .ok info => slotLoadResult slot 0 info.name info.vendor info.version []
  | .error e => slotLoadResult slot e.status [] [] [] e.message

namespace Control
variable {P V C α G : Type}

def sendFrame (t : Control P V C α G) (f : Frame) : Control P V C α G := { t with sent := t.sent ++ [f] }

def called (t : Control P V C α G) (c : Called) : Control P V C α G := { t with calls := t.calls ++ [c] }

/-- The auto-close before a load or an unload. -/
def closeEditor (g : GuiThread G V) (slot : Byte) (t : Control P V C α G) : Control P V C α G :=
  let t := t.called .isRunning
  if g.isRunning t.gui && decide (slot.toNat < kMaxSlots) then
    let (wasOpen, gui) := g.requestHide t.gui slot.toNat
    let t := { t.called (.requestHide slot.toNat) with gui }
    if wasOpen then
      let t := { t.called (.releaseEditorView slot.toNat) with chain := t.chain.releaseEditorView slot.toNat }
      t.sendFrame (editorClosed slot)
    else t
  else t

def load (g : GuiThread G V) (w : Plugins P V) (slot : Byte) (path : Path) (reply : LoadResult → Frame)
    (t : Control P V C α G) : Outcome P V C α G :=
  let t := t.closeEditor g slot
  let called := t.called (.loadSlot slot.toNat path)
  match t.chain.loadSlot w.loader slot.toNat path with
  | none => .error (.crash called)
  | some (r, chain) => .ok ({ called with chain }.sendFrame (reply r))

def unload (g : GuiThread G V) (slot : Byte) (reply : Byte → Frame) (t : Control P V C α G) : Control P V C α G :=
  let t := t.closeEditor g slot
  let (st, chain) := t.chain.unloadSlot slot.toNat
  { t.called (.unloadSlot slot.toNat) with chain }.sendFrame (reply st)

def setBypass (slot : Byte) (bypass : Bool) (t : Control P V C α G) : Control P V C α G :=
  let (st, chain) := t.chain.setSlotBypass slot.toNat bypass
  { t.called (.setSlotBypass slot.toNat bypass) with chain }.sendFrame (slotBypassResult slot st)

def setEnabled (enabled : Bool) (t : Control P V C α G) : Control P V C α G :=
  { t.called (.setChainEnabled enabled) with
    chain := t.chain.setChainEnabled enabled }.sendFrame (chainEnabledResult 0)

def listParams (w : Plugins P V) (slot : Byte) (t : Control P V C α G) : Control P V C α G :=
  let (st, params) := t.chain.listParams w.listParams slot.toNat
  (t.called (.listParams slot.toNat)).sendFrame (slotParamListResult slot st params)

def setParam (w : Plugins P V) (slot : Byte) (paramId : BitVec 32) (normalized : BitVec 64)
    (t : Control P V C α G) : Control P V C α G :=
  let (st, actual, chain) := t.chain.setParam w.setParam slot.toNat paramId normalized
  { t.called (.setParam slot.toNat paramId normalized) with
    chain }.sendFrame (slotSetParamResult slot paramId st actual)

def editorTitle (slot : Byte) : List Byte := text "Plugin Editor — slot " ++ text (toString slot.toNat)

/-- The second half of `SlotShowEditor`, with the view in hand. -/
def showView (g : GuiThread G V) (w : Plugins P V) (slot : Byte) (view : V) (t : Control P V C α G) :
    Control P V C α G :=
  let (idlePump, chain) := t.chain.acquireEditorIdlePump w.createView slot.toNat
  let t := { t.called (.acquireEditorIdlePump slot.toNat) with chain }
  let (rsp, gui) := g.requestShow t.gui slot.toNat view idlePump (editorTitle slot)
  let t := { t.called (.requestShow slot.toNat) with gui }
  if !rsp.ok then
    let t := { t.called (.releaseEditorView slot.toNat) with chain := t.chain.releaseEditorView slot.toNat }
    t.sendFrame (slotShowEditorResult slot rsp.status 0 0)
  else t.sendFrame (slotShowEditorResult slot 0 rsp.width rsp.height)

def showEditor (g : GuiThread G V) (w : Plugins P V) (slot : Byte) (t : Control P V C α G) : Control P V C α G :=
  if kMaxSlots ≤ slot.toNat then t.sendFrame (slotShowEditorResult slot 6 0 0)
  else
    let t := t.called (.isSlotLoaded slot.toNat)
    if !t.chain.isSlotLoaded slot.toNat then t.sendFrame (slotShowEditorResult slot 1 0 0)
    else
      let (started, gui) := g.start t.gui
      let t := { t.called .start with gui }
      if !started then t.sendFrame (slotShowEditorResult slot 7 0 0)
      else
        let (view, chain) := t.chain.acquireEditorView w.createView slot.toNat
        let t := { t.called (.acquireEditorView slot.toNat) with chain }
        match view with
        | none => t.sendFrame (slotShowEditorResult slot 2 0 0)
        | some view => t.showView g w slot view

def hideEditor (g : GuiThread G V) (slot : Byte) (t : Control P V C α G) : Control P V C α G :=
  if kMaxSlots ≤ slot.toNat then t.sendFrame (slotHideEditorResult slot 6)
  else
    let t := t.called .isRunning
    if !g.isRunning t.gui then t.sendFrame (slotHideEditorResult slot 1)
    else
      let (wasOpen, gui) := g.requestHide t.gui slot.toNat
      let t := { t.called (.requestHide slot.toNat) with gui }
      if wasOpen then
        let t := { t.called (.releaseEditorView slot.toNat) with chain := t.chain.releaseEditorView slot.toNat }
        t.sendFrame (slotHideEditorResult slot 0)
      else t.sendFrame (slotHideEditorResult slot 1)

/-- What each handler does with a payload that passed its checks. -/
def perform (g : GuiThread G V) (w : Plugins P V) (r : Request) (t : Control P V C α G) :
    Outcome P V C α G :=
  match r with
  | .loadPlugin path => t.load g w 0 path loadReply
  | .unloadPlugin => .ok (t.unload g 0 unloadResult)
  | .slotLoadPlugin slot path => t.load g w slot path (slotLoadReply slot)
  | .slotUnloadPlugin slot => .ok (t.unload g slot (slotUnloadResult slot))
  | .slotSetBypass slot bypass => .ok (t.setBypass slot bypass)
  | .setChainEnabled enabled => .ok (t.setEnabled enabled)
  | .slotListParams slot => .ok (t.listParams w slot)
  | .slotSetParam slot paramId normalized => .ok (t.setParam w slot paramId normalized)
  | .slotShowEditor slot => .ok (t.showEditor g w slot)
  | .slotHideEditor slot => .ok (t.hideEditor g slot)

end Control

/-- `pathLen` at `off`, its check, and the path behind it. `none` when a byte outside
`p` is read, `some none` when the sizes do not match; their sum is one of `uint32_t`. -/
def readPath (p : List Byte) (off : Nat) : Option (Option Path) :=
  match readU32Le p off with
  | none => none
  | some pathLen =>
    if p.length ≠ (BitVec.ofNat 32 (off + 4) + pathLen).toNat then some none
    else if p.length < off + 4 + pathLen.toNat then none
    else some (some ((p.drop (off + 4)).take pathLen.toNat))

section
variable {P V C α G : Type} (g : GuiThread G V) (w : Plugins P V) (p : List Byte) (t : Control P V C α G)

def onLoadPlugin : Outcome P V C α G :=
  if p.length < 4 then .ok (t.sendFrame (loadResult 5 [] [] [] (text "LoadPlugin payload truncated")))
  else match readPath p 0 with
    | none => .error .outside
    | some none => .ok (t.sendFrame (loadResult 5 [] [] [] (text "LoadPlugin payload size mismatch")))
    | some (some path) => t.perform g w (.loadPlugin path)

def onSlotLoadPlugin : Outcome P V C α G :=
  if p.length < 5 then
    .ok (t.sendFrame (slotLoadResult 0xFF 5 [] [] [] (text "SlotLoadPlugin payload truncated")))
  else match p[0]?, readPath p 1 with
    | some slot, some none =>
      .ok (t.sendFrame (slotLoadResult slot 5 [] [] [] (text "SlotLoadPlugin payload size mismatch")))
    | some slot, some (some path) => t.perform g w (.slotLoadPlugin slot path)
    | _, _ => .error .outside

/-- The handlers whose payload is a slot byte and no more. -/
def onSlot (malformed : Frame) (request : Byte → Request) : Outcome P V C α G :=
  if p.length ≠ 1 then .ok (t.sendFrame malformed)
  else match p[0]? with
    | none => .error .outside
    | some slot => t.perform g w (request slot)

def onSlotUnloadPlugin : Outcome P V C α G :=
  onSlot g w p t (slotUnloadResult 0xFF 5) .slotUnloadPlugin

def onSlotSetBypass : Outcome P V C α G :=
  if p.length ≠ 2 then .ok (t.sendFrame (slotBypassResult 0xFF 5))
  else match p[0]?, p[1]? with
    | some slot, some b => t.perform g w (.slotSetBypass slot (b != 0))
    | _, _ => .error .outside

def onSetChainEnabled : Outcome P V C α G :=
  onSlot g w p t (chainEnabledResult 5) fun b => .setChainEnabled (b != 0)

def onSlotListParams : Outcome P V C α G :=
  onSlot g w p t (slotParamListResult 0xFF 5 []) .slotListParams

def onSlotSetParam : Outcome P V C α G :=
  if p.length ≠ 13 then .ok (t.sendFrame (slotSetParamResult 0xFF 0 5 0))
  else match p[0]?, readU32Le p 1, readF64Le p 5 with
    | some slot, some paramId, some normalized => t.perform g w (.slotSetParam slot paramId normalized)
    | _, _, _ => .error .outside

def onSlotShowEditor : Outcome P V C α G :=
  onSlot g w p t (slotShowEditorResult 0xFF 5 0 0) .slotShowEditor

def onSlotHideEditor : Outcome P V C α G :=
  onSlot g w p t (slotHideEditorResult 0xFF 5) .slotHideEditor

/-- The dispatch of `controlReader` on the tag of a request, in the build with a GUI. -/
def handle (tag : RequestTag) : Outcome P V C α G :=
  match tag with
  | .loadPlugin => onLoadPlugin g w p t
  | .unloadPlugin => t.perform g w .unloadPlugin
  | .slotLoadPlugin => onSlotLoadPlugin g w p t
  | .slotUnloadPlugin => onSlotUnloadPlugin g w p t
  | .slotSetBypass => onSlotSetBypass g w p t
  | .setChainEnabled => onSetChainEnabled g w p t
  | .slotListParams => onSlotListParams g w p t
  | .slotSetParam => onSlotSetParam g w p t
  | .slotShowEditor => onSlotShowEditor g w p t
  | .slotHideEditor => onSlotHideEditor g w p t

end

/-- The grammar of the payloads: which bytes make up which request. -/
inductive Encodes : RequestTag → List Byte → Request → Prop where
  | loadPlugin (n : BitVec 32) (path : Path) (h : path.length = n.toNat) :
    Encodes .loadPlugin (lengthBytes n ++ path) (.loadPlugin path)
  | slotLoadPlugin (slot : Byte) (n : BitVec 32) (path : Path) (h : path.length = n.toNat) :
    Encodes .slotLoadPlugin (slot :: (lengthBytes n ++ path)) (.slotLoadPlugin slot path)
  | slotUnloadPlugin (slot : Byte) : Encodes .slotUnloadPlugin [slot] (.slotUnloadPlugin slot)
  | slotSetBypass (slot b : Byte) : Encodes .slotSetBypass [slot, b] (.slotSetBypass slot (b != 0))
  | setChainEnabled (b : Byte) : Encodes .setChainEnabled [b] (.setChainEnabled (b != 0))
  | slotListParams (slot : Byte) : Encodes .slotListParams [slot] (.slotListParams slot)
  | slotSetParam (slot : Byte) (paramId : BitVec 32) (normalized : BitVec 64) :
    Encodes .slotSetParam (appendF64Le (appendU32Le [slot] paramId) normalized)
      (.slotSetParam slot paramId normalized)
  | slotShowEditor (slot : Byte) : Encodes .slotShowEditor [slot] (.slotShowEditor slot)
  | slotHideEditor (slot : Byte) : Encodes .slotHideEditor [slot] (.slotHideEditor slot)

/-- The slot byte of a request. -/
def Request.slot : Request → Option Byte
  | .slotLoadPlugin slot _ | .slotUnloadPlugin slot | .slotSetBypass slot _ | .slotListParams slot
  | .slotSetParam slot _ _ | .slotShowEditor slot | .slotHideEditor slot => some slot
  | .loadPlugin _ | .unloadPlugin | .setChainEnabled _ => none

end Plughost.Main
