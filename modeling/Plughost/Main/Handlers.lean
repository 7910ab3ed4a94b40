import Plughost.Lib.Scripts
import Plughost.Main.Messages
import Plughost.Main.RequestParsing

/-! The handlers step by step. `main` takes the lock of the chain anew for each call and the lock
of the socket anew for each frame, so a handler is a script that others may run in between;
with nobody in between it is the handler as a whole. -/
namespace Plughost.Main
open Plughost.Ipc.ControlPipe Plughost.Vst3 Plughost.Scripts

/-- `GuiThread::AsyncEventTag`. -/
inductive AsyncEventTag where
  | editorClosed | editorResized
  deriving DecidableEq

/-- A size on its way to the host. -/
def clamped (n : Int) : BitVec 32 := BitVec.ofInt 32 (if n < 0 then 0 else n)

/-- What the handlers call into: the chain, and the GUI thread. -/
structure Machine (P V C α G : Type) where
  chain : SlotTable P V C α
  gui : G

abbrev Handler (P V C α G : Type) := Script (Machine P V C α G) Frame

namespace Handler
variable {P V C α G : Type} (g : GuiThread G V) (w : Plugins P V)

def isRunning (next : Bool → Handler P V C α G) : Handler P V C α G := .ask (fun m => g.isRunning m.gui) next

def requestHide (slotIdx : Int) (next : Bool → Handler P V C α G) : Handler P V C α G :=
  .run (fun m => ((g.requestHide m.gui slotIdx).1, { m with gui := (g.requestHide m.gui slotIdx).2 })) next

def releaseEditorView (slotIdx : Int) (next : Handler P V C α G) : Handler P V C α G :=
  .act (fun m => { m with chain := m.chain.releaseEditorView slotIdx }) next

/-- The auto-close before a load or an unload. -/
def closeEditor (slot : Byte) (next : Handler P V C α G) : Handler P V C α G :=
  isRunning g fun running =>
    if running && decide (slot.toNat < kMaxSlots) then
      requestHide g slot.toNat fun wasOpen =>
        if wasOpen then releaseEditorView slot.toNat (.send (editorClosed slot) next) else next
    else next

def load (slot : Byte) (path : Path) (reply : LoadResult → Frame) : Handler P V C α G :=
  closeEditor g slot <| .call (fun m => (m.chain.loadSlot w.loader slot.toNat path).map fun (r, chain) =>
    (r, { m with chain })) fun r => .send (reply r) .done

def unload (slot : Byte) (reply : Byte → Frame) : Handler P V C α G :=
  closeEditor g slot <| .run (fun m => ((m.chain.unloadSlot slot.toNat).1,
    { m with chain := (m.chain.unloadSlot slot.toNat).2 })) fun st => .send (reply st) .done

def setBypass (slot : Byte) (bypass : Bool) : Handler P V C α G :=
  .run (fun m => ((m.chain.setSlotBypass slot.toNat bypass).1,
    { m with chain := (m.chain.setSlotBypass slot.toNat bypass).2 })) fun st => .send (slotBypassResult slot st) .done

def setEnabled (enabled : Bool) : Handler P V C α G :=
  .act (fun m => { m with chain := m.chain.setChainEnabled enabled }) (.send (chainEnabledResult 0) .done)

def listParams (slot : Byte) : Handler P V C α G :=
  .ask (fun m => m.chain.listParams w.listParams slot.toNat) fun (st, params) =>
    .send (slotParamListResult slot st params) .done

def setParam (slot : Byte) (paramId : BitVec 32) (normalized : BitVec 64) : Handler P V C α G :=
  .run (fun m => let (st, actual, chain) := m.chain.setParam w.setParam slot.toNat paramId normalized
    ((st, actual), { m with chain })) fun (st, actual) => .send (slotSetParamResult slot paramId st actual) .done

/-- The second half of `SlotShowEditor`, with the view in hand. -/
def showView (slot : Byte) (view : V) : Handler P V C α G :=
  .run (fun m => ((m.chain.acquireEditorIdlePump w.createView slot.toNat).1,
    { m with chain := (m.chain.acquireEditorIdlePump w.createView slot.toNat).2 })) fun idlePump =>
  .run (fun m => ((g.requestShow m.gui slot.toNat view idlePump (Control.editorTitle slot)).1,
    { m with gui := (g.requestShow m.gui slot.toNat view idlePump (Control.editorTitle slot)).2 })) fun rsp =>
  if !rsp.ok then releaseEditorView slot.toNat (.send (slotShowEditorResult slot rsp.status 0 0) .done)
  else .send (slotShowEditorResult slot 0 rsp.width rsp.height) .done

def showEditor (slot : Byte) : Handler P V C α G :=
  if kMaxSlots ≤ slot.toNat then .send (slotShowEditorResult slot 6 0 0) .done
  else
    .ask (fun m => m.chain.isSlotLoaded slot.toNat) fun loaded =>
    if !loaded then .send (slotShowEditorResult slot 1 0 0) .done
    else
      .run (fun m => ((g.start m.gui).1, { m with gui := (g.start m.gui).2 })) fun started =>
      if !started then .send (slotShowEditorResult slot 7 0 0) .done
      else
        .run (fun m => ((m.chain.acquireEditorView w.createView slot.toNat).1,
          { m with chain := (m.chain.acquireEditorView w.createView slot.toNat).2 })) fun view =>
        match view with
        | none => .send (slotShowEditorResult slot 2 0 0) .done
        | some view => showView g w slot view

def hideEditor (slot : Byte) : Handler P V C α G :=
  if kMaxSlots ≤ slot.toNat then .send (slotHideEditorResult slot 6) .done
  else
    isRunning g fun running =>
    if !running then .send (slotHideEditorResult slot 1) .done
    else
      requestHide g slot.toNat fun wasOpen =>
      if wasOpen then releaseEditorView slot.toNat (.send (slotHideEditorResult slot 0) .done)
      else .send (slotHideEditorResult slot 1) .done

/-- What each handler does with a payload that passed its checks. -/
def perform : Request → Handler P V C α G
  | .loadPlugin path => load g w 0 path loadReply
  | .unloadPlugin => unload g 0 unloadResult
  | .slotLoadPlugin slot path => load g w slot path (slotLoadReply slot)
  | .slotUnloadPlugin slot => unload g slot (slotUnloadResult slot)
  | .slotSetBypass slot bypass => setBypass slot bypass
  | .setChainEnabled enabled => setEnabled enabled
  | .slotListParams slot => listParams w slot
  | .slotSetParam slot paramId normalized => setParam w slot paramId normalized
  | .slotShowEditor slot => showEditor g w slot
  | .slotHideEditor slot => hideEditor g slot

/-- The callback that `main` installs on the GUI thread. -/
def onAsyncEvent (tag : AsyncEventTag) (slotIdx w h : Int) : Handler P V C α G :=
  if slotIdx < 0 ∨ 0xFF < slotIdx then .done
  else
    let slotByte := BitVec.ofInt 8 slotIdx
    match tag with
    | .editorClosed => releaseEditorView slotIdx (.send (editorClosed slotByte) .done)
    | .editorResized => .send (editorResized slotByte (clamped w) (clamped h)) .done

end Handler

/-- The payload of a slot byte and no more. -/
def readSlot (p : List Byte) (malformed : Frame) (request : Byte → Request) : Option (Except Frame Request) :=
  if p.length ≠ 1 then some (.error malformed) else p[0]?.map fun slot => .ok (request slot)

/-- The request in a payload, or the frame that refuses it; none when a byte outside is read. -/
def readRequest (p : List Byte) : RequestTag → Option (Except Frame Request)
  | .loadPlugin =>
    if p.length < 4 then some (.error (loadResult 5 [] [] [] (text "LoadPlugin payload truncated")))
    else (readPath p 0).map fun
      | none => .error (loadResult 5 [] [] [] (text "LoadPlugin payload size mismatch"))
      | some path => .ok (.loadPlugin path)
  | .unloadPlugin => some (.ok .unloadPlugin)
  | .slotLoadPlugin =>
    if p.length < 5 then some (.error (slotLoadResult 0xFF 5 [] [] [] (text "SlotLoadPlugin payload truncated")))
    else match p[0]?, readPath p 1 with
      | some slot, some none => some (.error (slotLoadResult slot 5 [] [] [] (text "SlotLoadPlugin payload size mismatch")))
      | some slot, some (some path) => some (.ok (.slotLoadPlugin slot path))
      | _, _ => none
  | .slotUnloadPlugin => readSlot p (slotUnloadResult 0xFF 5) .slotUnloadPlugin
  | .slotSetBypass =>
    if p.length ≠ 2 then some (.error (slotBypassResult 0xFF 5))
    else match p[0]?, p[1]? with
      | some slot, some b => some (.ok (.slotSetBypass slot (b != 0)))
      | _, _ => none
  | .setChainEnabled => readSlot p (chainEnabledResult 5) fun b => .setChainEnabled (b != 0)
  | .slotListParams => readSlot p (slotParamListResult 0xFF 5 []) .slotListParams
  | .slotSetParam =>
    if p.length ≠ 13 then some (.error (slotSetParamResult 0xFF 0 5 0))
    else match p[0]?, readU32Le p 1, readF64Le p 5 with
      | some slot, some paramId, some normalized => some (.ok (.slotSetParam slot paramId normalized))
      | _, _, _ => none
  | .slotShowEditor => readSlot p (slotShowEditorResult 0xFF 5 0 0) .slotShowEditor
  | .slotHideEditor => readSlot p (slotHideEditorResult 0xFF 5) .slotHideEditor

namespace Handler
variable {P V C α G : Type} {g : GuiThread G V} {w : Plugins P V} {p : List Byte} {tag : RequestTag}
  {t : Control P V C α G} {slot : Byte}

/-- A script of a request, of a refusal, or of a read outside the payload, which is no more. -/
def ofRead (g : GuiThread G V) (w : Plugins P V) : Option (Except Frame Request) → Handler P V C α G
  | some (.ok r) => perform g w r
  | some (.error f) => .send f .done
  | none => .call (fun _ => none) fun _ : Unit => .done

/-- What an outcome of the reading is to the handler as a whole. -/
def outcome (g : GuiThread G V) (w : Plugins P V) (t : Control P V C α G) :
    Option (Except Frame Request) → Outcome P V C α G
  | some (.ok r) => t.perform g w r
  | some (.error f) => .ok (t.sendFrame f)
  | none => .error .outside

private theorem outcome_readSlot (malformed : Frame) (request : Byte → Request) :
    outcome g w t (readSlot p malformed request) = onSlot g w p t malformed request := by
  unfold readSlot onSlot
  split
  · rfl
  · cases p[0]? <;> rfl

/-- The handlers read their payload first. -/
private theorem outcome_readRequest : outcome g w t (readRequest p tag) = handle g w p t tag := by
  cases tag with
  | unloadPlugin => rfl
  | slotUnloadPlugin | setChainEnabled | slotListParams | slotShowEditor | slotHideEditor => exact outcome_readSlot _ _
  | loadPlugin =>
    dsimp only [readRequest, handle, onLoadPlugin]
    split
    · rfl
    · match readPath p 0 with
      | none => rfl
      | some none => rfl
      | some (some path) => rfl
  | slotLoadPlugin =>
    dsimp only [readRequest, handle, onSlotLoadPlugin]
    split
    · rfl
    · match p[0]?, readPath p 1 with
      | none, _ => rfl
      | some slot, none => rfl
      | some slot, some none => rfl
      | some slot, some (some path) => rfl
  | slotSetBypass =>
    dsimp only [readRequest, handle, onSlotSetBypass]
    split
    · rfl
    · match p[0]?, p[1]? with
      | none, _ => rfl
      | some slot, none => rfl
      | some slot, some b => rfl
  | slotSetParam =>
    dsimp only [readRequest, handle, onSlotSetParam]
    split
    · rfl
    · match p[0]?, readU32Le p 1, readF64Le p 5 with
      | none, _, _ => rfl
      | some slot, none, _ => rfl
      | some slot, some paramId, none => rfl
      | some slot, some paramId, some normalized => rfl

/-- The script, run alone, comes to what the handler as a whole comes to. -/
def Comes (t : Control P V C α G) : Outcome P V C α G → Option (List Frame × Machine P V C α G) → Prop
  | .ok t', some (fs, m) => t'.sent = t.sent ++ fs ∧ m = ⟨t'.chain, t'.gui⟩
  | .error _, none => True
  | _, _ => False

/-- The auto-close, and then the rest. -/
private theorem alone_closeEditor (g : GuiThread G V) (t : Control P V C α G) (slot : Byte) (next : Handler P V C α G) :
    ∃ closed,
    (t.closeEditor g slot).sent = t.sent ++ closed ∧
    (closeEditor g slot next).alone ⟨t.chain, t.gui⟩ =
      (next.alone ⟨(t.closeEditor g slot).chain, (t.closeEditor g slot).gui⟩).map fun p => (closed ++ p.1, p.2) := by
  have hnone : ∀ o : Option (List Frame × Machine P V C α G), o = o.map fun p => ([] ++ p.1, p.2) := by
    intro o
    cases o <;> rfl
  rcases hhide : g.requestHide t.gui slot.toNat with ⟨wasOpen, gui⟩
  unfold closeEditor Control.closeEditor
  cases hrun : g.isRunning t.gui && decide (slot.toNat < kMaxSlots) with
  | false =>
    simp only [isRunning, Script.ask, Script.alone, Option.bind_some, Control.called, hrun, Bool.false_eq_true, if_false]
    exact ⟨[], (List.append_nil _).symm, hnone _⟩
  | true =>
    simp only [isRunning, requestHide, Script.ask, Script.run, Script.alone, Option.bind_some, Control.called, hrun, hhide,
      if_true]
    cases wasOpen with
    | true => exact ⟨[editorClosed slot], rfl, rfl⟩
    | false => exact ⟨[], (List.append_nil _).symm, hnone _⟩

private theorem alone_load {path : Path} {reply : LoadResult → Frame} :
    Comes t (t.load g w slot path reply) ((load g w slot path reply).alone ⟨t.chain, t.gui⟩) := by
  unfold load Control.load
  obtain ⟨closed, hsent, halone⟩ := alone_closeEditor g t slot (.call (fun m =>
    (m.chain.loadSlot w.loader slot.toNat path).map fun (r, chain) => (r, { m with chain })) fun r => .send (reply r) .done)
  rw [halone]
  dsimp only [Script.alone]
  cases (t.closeEditor g slot).chain.loadSlot w.loader slot.toNat path with
  | none => trivial
  | some p =>
    refine ⟨?_, rfl⟩
    change (t.closeEditor g slot).sent ++ [reply p.1] = _
    rw [hsent, List.append_assoc]

private theorem alone_unload {reply : Byte → Frame} :
    Comes t (.ok (t.unload g slot reply)) ((unload g slot reply).alone ⟨t.chain, t.gui⟩) := by
  unfold unload
  obtain ⟨closed, hsent, halone⟩ := alone_closeEditor g t slot (.run (fun m =>
    ((m.chain.unloadSlot slot.toNat).1, { m with chain := (m.chain.unloadSlot slot.toNat).2 })) fun st =>
      .send (reply st) .done)
  rw [halone]
  refine ⟨?_, rfl⟩
  change (t.closeEditor g slot).sent ++ [_] = _
  rw [hsent, List.append_assoc]
  rfl

private theorem alone_showView (view : V) :
    Comes t (.ok (t.showView g w slot view)) ((showView g w slot view).alone ⟨t.chain, t.gui⟩) := by
  rcases hpump : t.chain.acquireEditorIdlePump w.createView slot.toNat with ⟨idlePump, chain⟩
  rcases hshow : g.requestShow t.gui slot.toNat view idlePump (Control.editorTitle slot) with ⟨rsp, gui⟩
  unfold showView Control.showView
  simp only [Script.run, Script.alone, Option.bind_some, Control.called, hpump, hshow]
  cases hok : !rsp.ok with
  | true => exact ⟨rfl, rfl⟩
  | false => exact ⟨rfl, rfl⟩

private theorem alone_showEditor :
    Comes t (.ok (t.showEditor g w slot)) ((showEditor g w slot).alone ⟨t.chain, t.gui⟩) := by
  unfold showEditor Control.showEditor
  by_cases hslot : kMaxSlots ≤ slot.toNat
  · rw [if_pos hslot, if_pos hslot]
    exact ⟨rfl, rfl⟩
  rw [if_neg hslot, if_neg hslot]
  rcases hstart : g.start t.gui with ⟨started, gui⟩
  rcases hview : t.chain.acquireEditorView w.createView slot.toNat with ⟨view, chain⟩
  cases hloaded : !t.chain.isSlotLoaded slot.toNat with
  | true =>
    simp only [Script.ask, Script.alone, Option.bind_some, Control.called, hloaded, if_true]
    exact ⟨rfl, rfl⟩
  | false =>
    simp only [Script.ask, Script.run, Script.alone, Option.bind_some, Control.called, hloaded, hstart, hview,
      Bool.false_eq_true, if_false]
    cases !started with
    | true => exact ⟨rfl, rfl⟩
    | false =>
      simp only [Bool.false_eq_true, if_false, Script.alone, Option.bind_some, hview]
      cases view with
      | none => exact ⟨rfl, rfl⟩
      | some view => exact alone_showView (t := ⟨chain, gui, _, t.sent⟩) view

private theorem alone_hideEditor :
    Comes t (.ok (t.hideEditor g slot)) ((hideEditor g slot).alone ⟨t.chain, t.gui⟩) := by
  unfold hideEditor Control.hideEditor
  by_cases hslot : kMaxSlots ≤ slot.toNat
  · rw [if_pos hslot, if_pos hslot]
    exact ⟨rfl, rfl⟩
  rw [if_neg hslot, if_neg hslot]
  rcases hhide : g.requestHide t.gui slot.toNat with ⟨wasOpen, gui⟩
  cases hrun : !g.isRunning t.gui with
  | true =>
    simp only [isRunning, Script.ask, Script.alone, Option.bind_some, Control.called, hrun, if_true]
    exact ⟨rfl, rfl⟩
  | false =>
    simp only [isRunning, requestHide, Script.ask, Script.run, Script.alone, Option.bind_some, Control.called, hrun, hhide,
      Bool.false_eq_true, if_false]
    cases wasOpen with
    | true => exact ⟨rfl, rfl⟩
    | false => exact ⟨rfl, rfl⟩

private theorem alone_perform (r : Request) : Comes t (t.perform g w r) ((perform g w r).alone ⟨t.chain, t.gui⟩) := by
  cases r with
  | loadPlugin | slotLoadPlugin => exact alone_load
  | unloadPlugin | slotUnloadPlugin => exact alone_unload
  | slotSetBypass | setChainEnabled | slotListParams | slotSetParam => exact ⟨rfl, rfl⟩
  | slotShowEditor => exact alone_showEditor
  | slotHideEditor => exact alone_hideEditor

/-- With nobody in between, the script of a message is the handler of `controlReader`. -/
theorem alone_handle : Comes t (handle g w p t tag) ((ofRead g w (readRequest p tag)).alone ⟨t.chain, t.gui⟩) := by
  rw [← outcome_readRequest]
  cases readRequest p tag with
  | none => trivial
  | some o =>
    cases o with
    | error f => exact ⟨rfl, rfl⟩
    | ok r => exact alone_perform r

end Handler

/-- A request is read from the bytes that it is encoded in. -/
theorem readRequest_of_encodes {tag : RequestTag} {p : List Byte} {r : Request} (h : Encodes tag p r)
    (hp : p.length < 2 ^ 32) : readRequest p tag = some (.ok r) := by
  cases h with
  | loadPlugin n path hlen =>
    have hread := readPath_append [] (Nat.zero_le 1) n path
    rw [List.nil_append, List.length_nil, if_pos ⟨hlen, hp⟩] at hread
    rw [readRequest, if_neg (by simp), hread]
    rfl
  | slotLoadPlugin slot n path hlen =>
    have hread := readPath_append [slot] (le_refl 1) n path
    rw [List.singleton_append, List.length_singleton, if_pos ⟨hlen, hp⟩] at hread
    rw [readRequest, if_neg (by simp), hread]
    rfl
  | slotSetParam slot paramId normalized =>
    have hslot : (appendF64Le (appendU32Le [slot] paramId) normalized)[0]? = some slot := rfl
    have hid := readU32Le_appendU32Le [slot] paramId ((List.range 8).map (f64Byte normalized))
    have hvalue := readF64Le_appendF64Le (appendU32Le [slot] paramId) normalized []
    rw [List.append_nil, length_appendU32Le] at hvalue
    change readU32Le (appendF64Le _ normalized) 1 = _ at hid
    change readF64Le _ 5 = _ at hvalue
    rw [readRequest, if_neg (by simp), hslot, hid, hvalue]
  | slotUnloadPlugin | slotSetBypass | setChainEnabled | slotListParams | slotShowEditor | slotHideEditor => rfl

end Plughost.Main
