import Plughost.Ipc.SendStream
import Plughost.Main.Requests
import Plughost.Main.ResultDecoding

/-! What the sidecar tells the host, message by message, and how the host gets the messages
back from the bytes of their frames. -/
namespace Plughost.Main
open Plughost.Ipc.ControlPipe Plughost.Vst3 Plughost.Decoding

/-- `ControlMessageTag::EditorResized`. -/
abbrev editorResizedTag : Byte := 0x35

def editorResized (slot : Byte) (width height : BitVec 32) : Frame :=
  ⟨editorResizedTag, appendU32Le (appendU32Le [slot] width) height⟩

/-- A result, or a notice that the host has not asked for. -/
inductive Message where
  | loadPlugin (r : LoadResult)
  | unloadPlugin (status : Byte)
  | slotLoadPlugin (slot : Byte) (r : LoadResult)
  | slotUnloadPlugin (slot status : Byte)
  | slotBypass (slot status : Byte)
  | chainEnabled (status : Byte)
  | slotParamList (slot status : Byte) (params : List ParamInfo)
  | slotSetParam (slot : Byte) (paramId : BitVec 32) (status : Byte) (actual : BitVec 64)
  | slotShowEditor (slot status : Byte) (width height : BitVec 32)
  | slotHideEditor (slot status : Byte)
  | editorClosed (slot : Byte)
  | editorResized (slot : Byte) (width height : BitVec 32)
  | paramChanged (slot : Byte) (paramId : BitVec 32) (normalizedValue : BitVec 64)

namespace Message

/-- The frame that the send helper puts together. -/
def frame : Message → Frame
  | .loadPlugin r => loadReply r
  | .unloadPlugin status => unloadResult status
  | .slotLoadPlugin slot r => slotLoadReply slot r
  | .slotUnloadPlugin slot status => slotUnloadResult slot status
  | .slotBypass slot status => slotBypassResult slot status
  | .chainEnabled status => chainEnabledResult status
  | .slotParamList slot status params => slotParamListResult slot status params
  | .slotSetParam slot paramId status actual => slotSetParamResult slot paramId status actual
  | .slotShowEditor slot status width height => slotShowEditorResult slot status width height
  | .slotHideEditor slot status => slotHideEditorResult slot status
  | .editorClosed slot => Main.editorClosed slot
  | .editorResized slot width height => Main.editorResized slot width height
  | .paramChanged slot paramId normalizedValue => paramChangedFrame slot paramId normalizedValue

/-- The request that the message answers. -/
def answers : Message → Option RequestTag
  | .loadPlugin _ => some .loadPlugin
  | .unloadPlugin _ => some .unloadPlugin
  | .slotLoadPlugin _ _ => some .slotLoadPlugin
  | .slotUnloadPlugin _ _ => some .slotUnloadPlugin
  | .slotBypass _ _ => some .slotSetBypass
  | .chainEnabled _ => some .setChainEnabled
  | .slotParamList _ _ _ => some .slotListParams
  | .slotSetParam _ _ _ _ => some .slotSetParam
  | .slotShowEditor _ _ _ _ => some .slotShowEditor
  | .slotHideEditor _ _ => some .slotHideEditor
  | .editorClosed _ | .editorResized _ _ _ | .paramChanged _ _ _ => none

/-- A failure has a status, and no values come with it. -/
def Proper : Message → Prop
  | .loadPlugin (.error e) | .slotLoadPlugin _ (.error e) => e.status ≠ 0
  | .slotParamList _ status params => status ≠ 0 → params = []
  | .slotShowEditor _ status width height => status ≠ 0 → width = 0 ∧ height = 0
  | _ => True

end Message

/-- The result that the strings of a load result stand for. -/
def loadOutcome (status : Byte) : List (List Byte) → Option LoadResult
  | [name, vendor, version] => some (.ok ⟨name, vendor, version⟩)
  | [message] => some (.error ⟨status, message⟩)
  | _ => none

def takeLoad : Decoder Byte LoadResult := do
  let result ← takeLoadResult
  StateT.lift (loadOutcome result.1 result.2)

def takeSlotStatus : Decoder Byte (Byte × Byte) := do
  let slot ← item
  let status ← item
  pure (slot, status)

/-- No size comes with a failure. -/
def takeSlotShowEditorResult : Decoder Byte Message := do
  let slot ← item
  let status ← item
  if status = 0 then
    let width ← takeU32Le
    let height ← takeU32Le
    pure (.slotShowEditor slot status width height)
  else pure (.slotShowEditor slot status 0 0)

/-- The body of the result of a request. -/
def takeBody : RequestTag → Decoder Byte Message
  | .loadPlugin => do
    let r ← takeLoad
    pure (.loadPlugin r)
  | .unloadPlugin => do
    let status ← item
    pure (.unloadPlugin status)
  | .slotLoadPlugin => do
    let slot ← item
    let r ← takeLoad
    pure (.slotLoadPlugin slot r)
  | .slotUnloadPlugin => do
    let p ← takeSlotStatus
    pure (.slotUnloadPlugin p.1 p.2)
  | .slotSetBypass => do
    let p ← takeSlotStatus
    pure (.slotBypass p.1 p.2)
  | .setChainEnabled => do
    let status ← item
    pure (.chainEnabled status)
  | .slotListParams => do
    let p ← takeSlotParamListResult
    pure (.slotParamList p.1 p.2.1 p.2.2)
  | .slotSetParam => do
    let p ← takeSlotSetParamResult
    pure (.slotSetParam p.1 p.2.1 p.2.2.1 p.2.2.2)
  | .slotShowEditor => takeSlotShowEditorResult
  | .slotHideEditor => do
    let p ← takeSlotStatus
    pure (.slotHideEditor p.1 p.2)

def RequestTag.all : List RequestTag :=
  [.loadPlugin, .unloadPlugin, .slotLoadPlugin, .slotUnloadPlugin, .slotSetBypass, .setChainEnabled, .slotListParams,
    .slotSetParam, .slotShowEditor, .slotHideEditor]

/-- The request that a result with this tag byte answers. -/
def RequestTag.ofResult (tag : Byte) : Option RequestTag := all.find? fun request => request.result == tag

def takeEditorResized : Decoder Byte Message := do
  let slot ← item
  let width ← takeU32Le
  let height ← takeU32Le
  pure (.editorResized slot width height)

/-- What the host makes of a frame. -/
def readMessage (f : Frame) : Option Message :=
  if f.tag = editorClosedTag then decode (item >>= fun slot => pure (.editorClosed slot)) f.payload
  else if f.tag = editorResizedTag then decode takeEditorResized f.payload
  else if f.tag = paramChangedTag then
    decode (takeParamChanged >>= fun p => pure (.paramChanged p.1 p.2.1 p.2.2)) f.payload
  else (RequestTag.ofResult f.tag).bind fun request => decode (takeBody request) f.payload

/-- A frame off the front of the stream: its length, its tag, and its payload. -/
def takeFrame : Decoder Byte Frame := do
  let length ← takeU32Le
  let tag ← item
  let payload ← items (length.toNat - 1)
  pure ⟨tag, payload⟩

def takeMessage : Decoder Byte Message := do
  let f ← takeFrame
  StateT.lift (readMessage f)

private theorem reads_takeLoad {r : LoadResult} (hstatus : ∀ e, r = .error e → e.status ≠ 0)
    (hfits : (loadReply r).fits = true) : Reads takeLoad (loadReply r).payload r := by
  have hlift : ∀ {status strings}, loadOutcome status strings = some r →
      Reads (StateT.lift (loadOutcome status strings) : Decoder Byte LoadResult) [] r := by
    intro status strings h rest
    rw [h]
    rfl
  have hlen := of_decide_eq_true hfits
  cases r with
  | ok info =>
    have hread := reads_takeLoadResult 0 info.name info.vendor info.version [] hlen
    have hall := hread.bind (f := fun result => StateT.lift (loadOutcome result.1 result.2)) (hlift rfl)
    rwa [List.append_nil] at hall
  | error e =>
    have hread := reads_takeLoadResult e.status [] [] [] e.message hlen
    have hstrings : loadStrings e.status [] [] [] e.message = [e.message] := if_neg (hstatus e rfl)
    rw [hstrings] at hread
    have hall := hread.bind (f := fun result => StateT.lift (loadOutcome result.1 result.2)) (hlift rfl)
    rwa [List.append_nil] at hall

/-- The slot goes before what the old reply has. -/
private theorem payload_slotLoadReply (slot : Byte) (r : LoadResult) :
    (slotLoadReply slot r).payload = [slot] ++ (loadReply r).payload := by
  cases r with
  | ok info =>
    change appendLoadResult [slot, 0] 0 info.name info.vendor info.version [] =
      [slot] ++ appendLoadResult [0] 0 info.name info.vendor info.version []
    rw [appendLoadResult_eq, appendLoadResult_eq]
    rfl
  | error e =>
    change appendLoadResult [slot, e.status] e.status [] [] [] e.message =
      [slot] ++ appendLoadResult [e.status] e.status [] [] [] e.message
    rw [appendLoadResult_eq, appendLoadResult_eq]
    rfl

private theorem reads_takeSlotStatus (slot status : Byte) : Reads takeSlotStatus [slot, status] (slot, status) :=
  (reads_item slot).bind ((reads_item status).bind_pure (slot, ·))

private theorem reads_takeSlotShowEditorResult {slot status : Byte} {width height : BitVec 32}
    (h : status ≠ 0 → width = 0 ∧ height = 0) : Reads takeSlotShowEditorResult
      (slotShowEditorResult slot status width height).payload (.slotShowEditor slot status width height) := by
  unfold slotShowEditorResult
  by_cases hstatus : status = 0
  · simp only [if_pos hstatus, appendU32Le, List.append_assoc]
    apply (reads_item slot).bind
    apply (reads_item status).bind
    rw [if_pos hstatus]
    apply (reads_takeU32Le width).bind
    exact (reads_takeU32Le height).bind_pure fun height => Message.slotShowEditor slot status width height
  · obtain ⟨rfl, rfl⟩ := h hstatus
    simp only [if_neg hstatus]
    apply (reads_item slot).bind
    apply (reads_item status).bind
    rw [if_neg hstatus]
    exact Reads.pure _

private theorem reads_takeEditorResized (slot : Byte) (width height : BitVec 32) :
    Reads takeEditorResized (editorResized slot width height).payload (.editorResized slot width height) := by
  simp only [editorResized, appendU32Le, List.append_assoc]
  apply (reads_item slot).bind
  apply (reads_takeU32Le width).bind
  exact (reads_takeU32Le height).bind_pure fun height => Message.editorResized slot width height

private theorem ofResult_result (tag : RequestTag) : RequestTag.ofResult tag.result = some tag := by
  cases tag <;> rfl

private theorem tag_frame {m : Message} {tag : RequestTag} (h : m.answers = some tag) : m.frame.tag = tag.result := by
  cases m with
  | loadPlugin r | slotLoadPlugin slot r =>
    cases h
    cases r <;> rfl
  | editorClosed | editorResized | paramChanged => cases h
  | _ =>
    cases h
    rfl

/-- Each result's body is read back. -/
private theorem reads_takeBody {m : Message} {tag : RequestTag} (h : m.answers = some tag) (hm : m.Proper)
    (hfits : m.frame.fits = true) : Reads (takeBody tag) m.frame.payload m := by
  have hlen := of_decide_eq_true hfits
  cases m with
  | loadPlugin r =>
    cases h
    refine (reads_takeLoad (fun e he => ?_) hfits).bind_pure _
    subst he
    exact hm
  | unloadPlugin status =>
    cases h
    exact (reads_item status).bind_pure _
  | slotLoadPlugin slot r =>
    cases h
    have hpayload : (Message.slotLoadPlugin slot r).frame.payload = [slot] ++ (loadReply r).payload :=
      payload_slotLoadReply slot r
    rw [hpayload, List.length_append] at hlen
    rw [hpayload]
    refine (reads_item slot).bind ((reads_takeLoad (fun e he => ?_) (decide_eq_true (by omega))).bind_pure _)
    subst he
    exact hm
  | slotUnloadPlugin slot status | slotBypass slot status | slotHideEditor slot status =>
    cases h
    exact (reads_takeSlotStatus slot status).bind_pure _
  | chainEnabled status =>
    cases h
    exact (reads_item status).bind_pure _
  | slotParamList slot status params =>
    cases h
    have hread := reads_takeSlotParamListResult slot status params hlen
    have hlist : (if status = 0 then params else []) = params := by
      split
      · rfl
      · exact (hm ‹_›).symm
    rw [hlist] at hread
    exact hread.bind_pure fun p => Message.slotParamList p.1 p.2.1 p.2.2
  | slotSetParam slot paramId status actual =>
    cases h
    exact (reads_takeSlotSetParamResult slot paramId status actual).bind_pure _
  | slotShowEditor slot status width height =>
    cases h
    exact reads_takeSlotShowEditorResult hm
  | editorClosed | editorResized | paramChanged => cases h

/-- The host reads the message that a frame was put together from. -/
private theorem readMessage_frame {m : Message} (hm : m.Proper) (hfits : m.frame.fits = true) :
    readMessage m.frame = some m := by
  cases ha : m.answers with
  | some tag =>
    have hne : tag.result ≠ editorClosedTag ∧ tag.result ≠ editorResizedTag ∧ tag.result ≠ paramChangedTag := by
      cases tag <;> decide
    rw [readMessage, tag_frame ha, if_neg hne.1, if_neg hne.2.1, if_neg hne.2.2, ofResult_result]
    exact (reads_takeBody ha hm hfits).decode
  | none =>
    cases m with
    | editorClosed slot => exact ((reads_item slot).bind_pure Message.editorClosed).decode
    | editorResized slot width height => exact (reads_takeEditorResized slot width height).decode
    | paramChanged slot paramId value =>
      exact ((reads_takeParamChanged slot paramId value).bind_pure fun p => Message.paramChanged p.1 p.2.1 p.2.2).decode
    | _ => cases ha

private theorem reads_takeFrame {f : Frame} (h : f.fits = true) : Reads takeFrame f.bytes f := by
  have hlen := of_decide_eq_true h
  have hmax : kMaxPayloadBytes < 2 ^ 32 - 1 := by decide
  have hfield : f.field.toNat - 1 = f.payload.length := by
    rw [Frame.field, BitVec.toNat_ofNat, Nat.mod_eq_of_lt (by omega)]
    omega
  have hpayload := reads_items f.payload
  rw [← hfield] at hpayload
  rw [Frame.bytes_eq]
  apply (reads_takeU32Le f.field).bind
  apply (reads_item f.tag).bind
  exact hpayload.bind_pure fun payload => (⟨f.tag, payload⟩ : Frame)

private theorem reads_takeMessage {m : Message} (hm : m.Proper) (hfits : m.frame.fits = true) :
    Reads takeMessage m.frame.bytes m := by
  have hlift : Reads (StateT.lift (readMessage m.frame) : Decoder Byte Message) [] m := by
    intro rest
    rw [readMessage_frame hm hfits]
    rfl
  have hall := (reads_takeFrame hfits).bind (f := fun f => StateT.lift (readMessage f)) hlift
  rwa [List.append_nil] at hall

/-- A stream of frames is read back as the messages they were put together from. -/
theorem decode_messages {ms : List Message} (hm : ∀ m ∈ ms, m.Proper ∧ m.frame.fits = true) :
    decode (times takeMessage ms.length) (ms.flatMap fun m => m.frame.bytes) = some ms :=
  (reads_times fun m hmem => reads_takeMessage (hm m hmem).1 (hm m hmem).2).decode

end Plughost.Main
