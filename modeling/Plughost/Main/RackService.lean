import Plughost.Main.Handlers
import Plughost.Main.ReplySizes
import Plughost.Vst3.Rack

/-! What `controlReader` is for: a service on the rack that takes a request and answers in
messages. The handlers follow it, call for call and frame for message. -/
namespace Plughost.Main
open Plughost.Ipc.ControlPipe Plughost.Vst3 Plughost.Simulation Plughost.Scripts

/-- The rack and the GUI thread, as the service sees them. -/
structure Studio (P V C G : Type) where
  rack : Rack P V C
  gui : G

/-- What the service has left to do for a request, or for a notice. -/
abbrev Errand (P V C G : Type) := Script (Studio P V C G) Message

namespace Errand
variable {P V C G : Type} (g : GuiThread G V) (w : Plugins P V)

def isRunning (next : Bool → Errand P V C G) : Errand P V C G := .ask (fun s => g.isRunning s.gui) next

def requestHide (slotIdx : Int) (next : Bool → Errand P V C G) : Errand P V C G :=
  .run (fun s => ((g.requestHide s.gui slotIdx).1, { s with gui := (g.requestHide s.gui slotIdx).2 })) next

def releaseEditorView (slotIdx : Int) (next : Errand P V C G) : Errand P V C G :=
  .act (fun s => { s with rack := s.rack.releaseEditorView slotIdx }) next

/-- A plugin's editor is closed before the plugin goes, and the host is told. -/
def closeEditor (slot : Byte) (next : Errand P V C G) : Errand P V C G :=
  isRunning g fun running =>
    if running && decide (slot.toNat < kMaxSlots) then
      requestHide g slot.toNat fun wasOpen =>
        if wasOpen then releaseEditorView slot.toNat (.send (.editorClosed slot) next) else next
    else next

def load (sampleRate : BitVec 64) (maxBlockSize : Int) (slot : Byte) (path : Path) (reply : LoadResult → Message) :
    Errand P V C G :=
  closeEditor g slot <| .call (fun s => (s.rack.loadSlot sampleRate maxBlockSize w.loader slot.toNat path).map
    fun (r, rack) => (r, { s with rack })) fun r => .send (reply r) .done

def unload (slot : Byte) (reply : Byte → Message) : Errand P V C G :=
  closeEditor g slot <| .run (fun s => ((s.rack.unloadSlot slot.toNat).1,
    { s with rack := (s.rack.unloadSlot slot.toNat).2 })) fun st => .send (reply st) .done

/-- An editor is shown in a slot with a plugin that offers a view, on a GUI thread that runs. -/
def showEditor (slot : Byte) : Errand P V C G :=
  if kMaxSlots ≤ slot.toNat then .send (.slotShowEditor slot 6 0 0) .done
  else
    .ask (fun s => s.rack.isSlotLoaded slot.toNat) fun loaded =>
    if !loaded then .send (.slotShowEditor slot 1 0 0) .done
    else
      .run (fun s => ((g.start s.gui).1, { s with gui := (g.start s.gui).2 })) fun started =>
      if !started then .send (.slotShowEditor slot 7 0 0) .done
      else
        .run (fun s => ((s.rack.acquireEditorView w.createView slot.toNat).1,
          { s with rack := (s.rack.acquireEditorView w.createView slot.toNat).2 })) fun view =>
        match view with
        | none => .send (.slotShowEditor slot 2 0 0) .done
        | some view =>
          .run (fun s => ((s.rack.acquireEditorIdlePump w.createView slot.toNat).1,
            { s with rack := (s.rack.acquireEditorIdlePump w.createView slot.toNat).2 })) fun idlePump =>
          .run (fun s => ((g.requestShow s.gui slot.toNat view idlePump (Control.editorTitle slot)).1,
            { s with gui := (g.requestShow s.gui slot.toNat view idlePump (Control.editorTitle slot)).2 })) fun rsp =>
          if !rsp.ok then releaseEditorView slot.toNat (.send (.slotShowEditor slot rsp.status 0 0) .done)
          else .send (.slotShowEditor slot 0 rsp.width rsp.height) .done

def hideEditor (slot : Byte) : Errand P V C G :=
  if kMaxSlots ≤ slot.toNat then .send (.slotHideEditor slot 6) .done
  else
    isRunning g fun running =>
    if !running then .send (.slotHideEditor slot 1) .done
    else
      requestHide g slot.toNat fun wasOpen =>
      if wasOpen then releaseEditorView slot.toNat (.send (.slotHideEditor slot 0) .done)
      else .send (.slotHideEditor slot 1) .done

/-- How the service serves a request. -/
def serve (sampleRate : BitVec 64) (maxBlockSize : Int) : Request → Errand P V C G
  | .loadPlugin path => load g w sampleRate maxBlockSize 0 path .loadPlugin
  | .unloadPlugin => unload g 0 .unloadPlugin
  | .slotLoadPlugin slot path => load g w sampleRate maxBlockSize slot path (.slotLoadPlugin slot)
  | .slotUnloadPlugin slot => unload g slot (.slotUnloadPlugin slot)
  | .slotSetBypass slot bypass =>
    .run (fun s => ((s.rack.setSlotBypass slot.toNat bypass).1,
      { s with rack := (s.rack.setSlotBypass slot.toNat bypass).2 })) fun st => .send (.slotBypass slot st) .done
  | .setChainEnabled enabled =>
    .act (fun s => { s with rack := s.rack.setChainEnabled enabled }) (.send (.chainEnabled 0) .done)
  | .slotListParams slot =>
    .ask (fun s => s.rack.listParams w.listParams slot.toNat) fun (st, params) =>
      .send (.slotParamList slot st params) .done
  | .slotSetParam slot paramId normalized =>
    .run (fun s => let (st, actual, rack) := s.rack.setParam w.setParam slot.toNat paramId normalized
      ((st, actual), { s with rack })) fun (st, actual) => .send (.slotSetParam slot paramId st actual) .done
  | .slotShowEditor slot => showEditor g w slot
  | .slotHideEditor slot => hideEditor g slot

/-- What the GUI thread has the host told on its own account. -/
def notice (tag : AsyncEventTag) (slotIdx w h : Int) : Errand P V C G :=
  if slotIdx < 0 ∨ 0xFF < slotIdx then .done
  else
    let slot := BitVec.ofInt 8 slotIdx
    match tag with
    | .editorClosed => releaseEditorView slotIdx (.send (.editorClosed slot) .done)
    | .editorResized => .send (.editorResized slot (clamped w) (clamped h)) .done

end Errand

/-- The machine's chain stands for the rack. -/
structure Machine.Stands {P V C α G : Type} (sampleRate : BitVec 64) (maxBlockSize : Int) (m : Machine P V C α G)
    (s : Studio P V C G) : Prop where
  chain : SlotTable.Stands sampleRate maxBlockSize m.chain s.rack
  gui : m.gui = s.gui

/-- The frame is put together from the message, and the message can be read back from it. -/
def Tells (f : Frame) (m : Message) : Prop := f = m.frame ∧ m.Proper

namespace Handler
variable {P V C α G : Type} {sampleRate : BitVec 64} {maxBlockSize : Int} {g : GuiThread G V} {w : Plugins P V}
  {slot : Byte}

/-- A handler serves as the service does. -/
abbrev Serves (sampleRate : BitVec 64) (maxBlockSize : Int) (k : Handler P V C α G) (e : Errand P V C G) : Prop :=
  Script.Follows (Machine.Stands sampleRate maxBlockSize) Tells k e

/-- The last message, and no more. -/
private theorem serves_send {f : Frame} {m : Message} (hframe : f = m.frame) (hm : m.Proper) :
    Serves sampleRate maxBlockSize (.send f .done : Handler P V C α G) (.send m .done : Errand P V C G) :=
  .send ⟨hframe, hm⟩ .done

private theorem serves_isRunning {next : Bool → Handler P V C α G} {next' : Bool → Errand P V C G}
    (h : ∀ b, Serves sampleRate maxBlockSize (next b) (next' b)) :
    Serves sampleRate maxBlockSize (isRunning g next) (Errand.isRunning g next') :=
  .ask (fun hR => by rw [hR.gui]) fun _ => h _

private theorem serves_requestHide {slotIdx : Int} {next : Bool → Handler P V C α G} {next' : Bool → Errand P V C G}
    (h : ∀ b, Serves sampleRate maxBlockSize (next b) (next' b)) :
    Serves sampleRate maxBlockSize (requestHide g slotIdx next) (Errand.requestHide g slotIdx next') := by
  refine .run (fun {m s} hR => ?_) fun _ _ => h _
  rw [hR.gui]
  exact .intro ⟨hR.chain, rfl⟩

private theorem serves_releaseEditorView {slotIdx : Int} {k : Handler P V C α G} {e : Errand P V C G}
    (h : Serves sampleRate maxBlockSize k e) :
    Serves sampleRate maxBlockSize (releaseEditorView slotIdx k) (Errand.releaseEditorView slotIdx e) :=
  .act (fun hR => ⟨hR.chain.releaseEditorView slotIdx, hR.gui⟩) h

private theorem serves_closeEditor {k : Handler P V C α G} {e : Errand P V C G}
    (h : Serves sampleRate maxBlockSize k e) :
    Serves sampleRate maxBlockSize (closeEditor g slot k) (Errand.closeEditor g slot e) := by
  refine serves_isRunning fun running => ?_
  split
  · refine serves_requestHide fun wasOpen => ?_
    split
    · exact serves_releaseEditorView (.send ⟨rfl, trivial⟩ h)
    · exact h
  · exact h

private theorem serves_load (path : Path) {reply : LoadResult → Frame} {message : LoadResult → Message}
    (hframe : ∀ r, reply r = (message r).frame)
    (hproper : ∀ r, (∀ e, r = .error e → e.status ≠ 0) → (message r).Proper) :
    Serves sampleRate maxBlockSize (load g w slot path reply : Handler P V C α G)
      (Errand.load g w sampleRate maxBlockSize slot path message) := by
  refine serves_closeEditor (.call (fun {m s} hR => ?_) fun {m s r m' s'} hR hm hs => ?_)
  · have halike := hR.chain.loadSlot w.loader slot.toNat path
    dsimp only
    generalize m.chain.loadSlot w.loader slot.toNat path = o at halike
    generalize s.rack.loadSlot sampleRate maxBlockSize w.loader slot.toNat path = o' at halike
    cases halike with
    | none => exact .none
    | some hp => exact .some ⟨hp.1, hp.2, hR.gui⟩
  · have hsettles := SlotTable.settles_loadSlot (le_refl 100) w.loader m.chain slot.toNat path
    obtain ⟨⟨r', chain⟩, hload, heq⟩ := Option.map_eq_some_iff.mp hm
    cases heq
    rw [hload] at hsettles
    exact serves_send (hframe r) (hproper r hsettles.2)

private theorem serves_unload {reply : Byte → Frame} {message : Byte → Message}
    (hframe : ∀ st, reply st = (message st).frame)
    (hproper : ∀ st, (message st).Proper) :
    Serves sampleRate maxBlockSize (unload g slot reply : Handler P V C α G) (Errand.unload g slot message) := by
  refine serves_closeEditor (.run (fun {m s} hR => ?_) fun _ _ => serves_send (hframe _) (hproper _))
  obtain ⟨hst, hstands⟩ := hR.chain.unloadSlot slot.toNat
  exact ⟨hst, hstands, hR.gui⟩

private theorem serves_showEditor :
    Serves sampleRate maxBlockSize (showEditor g w slot : Handler P V C α G) (Errand.showEditor g w slot) := by
  have hfail : ∀ st : Byte, (Message.slotShowEditor slot st 0 0).Proper := fun _ _ => ⟨rfl, rfl⟩
  unfold showEditor Errand.showEditor
  split
  · exact serves_send rfl (hfail 6)
  refine .ask (fun hR => hR.chain.isSlotLoaded slot.toNat) fun _ => ?_
  split
  · exact serves_send rfl (hfail 1)
  refine .run (fun {m s} hR => ?_) fun _ _ => ?_
  · rw [hR.gui]
    exact .intro ⟨hR.chain, rfl⟩
  split
  · exact serves_send rfl (hfail 7)
  refine .run (fun {m s} hR => ?_) fun {m s} _ _ => ?_
  · obtain ⟨hview, hviewed⟩ := hR.chain.acquireEditorView w.createView slot.toNat
    exact ⟨hview, hviewed, hR.gui⟩
  cases (m.chain.acquireEditorView w.createView slot.toNat).1 with
  | none => exact serves_send rfl (hfail 2)
  | some view =>
    refine .run (fun {m s} hR => ?_) fun _ _ => .run (fun {m s} hR => ?_) fun _ _ => ?_
    · obtain ⟨hpump, hpumped⟩ := hR.chain.acquireEditorIdlePump w.createView slot.toNat
      exact ⟨hpump, hpumped, hR.gui⟩
    · rw [hR.gui]
      exact .intro ⟨hR.chain, rfl⟩
    · split
      · exact serves_releaseEditorView (serves_send rfl (hfail _))
      · exact serves_send rfl fun hne => absurd rfl hne

private theorem serves_hideEditor :
    Serves sampleRate maxBlockSize (hideEditor g slot : Handler P V C α G) (Errand.hideEditor g slot) := by
  unfold hideEditor Errand.hideEditor
  split
  · exact serves_send rfl trivial
  refine serves_isRunning fun running => ?_
  split
  · exact serves_send rfl trivial
  refine serves_requestHide fun wasOpen => ?_
  split
  · exact serves_releaseEditorView (serves_send rfl trivial)
  · exact serves_send rfl trivial

/-- Every handler serves its request as the service does. -/
theorem serves_perform (r : Request) : Serves sampleRate maxBlockSize (perform g w r : Handler P V C α G)
    (Errand.serve g w sampleRate maxBlockSize r) := by
  cases r with
  | loadPlugin path =>
    refine serves_load path (fun r => rfl) fun r hr => ?_
    cases r with
    | ok info => trivial
    | error e => exact hr e rfl
  | unloadPlugin => exact serves_unload (fun st => rfl) fun st => trivial
  | slotLoadPlugin slot path =>
    refine serves_load path (fun r => rfl) fun r hr => ?_
    cases r with
    | ok info => trivial
    | error e => exact hr e rfl
  | slotUnloadPlugin slot => exact serves_unload (fun st => rfl) fun st => trivial
  | slotSetBypass slot bypass =>
    refine .run (fun {m s} hR => ?_) fun _ _ => serves_send rfl trivial
    obtain ⟨hst, hstands⟩ := hR.chain.setSlotBypass slot.toNat bypass
    exact ⟨hst, hstands, hR.gui⟩
  | setChainEnabled enabled =>
    refine .act (fun {m s} hR => ?_) (serves_send rfl trivial)
    exact ⟨⟨hR.chain.slots, hR.chain.bypass, rfl, hR.chain.members⟩, hR.gui⟩
  | slotListParams slot =>
    refine .ask (fun {m s} hR => hR.chain.listParams w.listParams slot.toNat) fun {m s} hR => serves_send rfl ?_
    have hlist := hR.chain.listParams w.listParams slot.toNat
    change (Message.slotParamList slot (m.chain.listParams w.listParams slot.toNat).1
      (m.chain.listParams w.listParams slot.toNat).2).Proper
    rw [hlist]
    exact Rack.listParams_failed w.listParams s.rack slot.toNat
  | slotSetParam slot paramId normalized =>
    refine .run (fun {m s} hR => ?_) fun _ _ => serves_send rfl trivial
    obtain ⟨hst, hactual, hstands⟩ := hR.chain.setParam w.setParam slot.toNat paramId normalized
    exact ⟨Prod.ext hst hactual, hstands, hR.gui⟩
  | slotShowEditor slot => exact serves_showEditor
  | slotHideEditor slot => exact serves_hideEditor

/-- So does the callback, in frames that always fit. -/
theorem serves_onAsyncEvent (tag : AsyncEventTag) (slotIdx w h : Int) :
    Script.Follows (Machine.Stands sampleRate maxBlockSize) (fun f m => Tells f m ∧ f.fits = true)
      (onAsyncEvent tag slotIdx w h : Handler P V C α G) (Errand.notice tag slotIdx w h) := by
  unfold onAsyncEvent Errand.notice
  split
  · exact .done
  cases tag with
  | editorClosed =>
    exact .act (fun hR => ⟨hR.chain.releaseEditorView slotIdx, hR.gui⟩) (.send ⟨⟨rfl, trivial⟩, rfl⟩ .done)
  | editorResized => exact .send ⟨⟨rfl, trivial⟩, rfl⟩ .done

end Handler
end Plughost.Main
