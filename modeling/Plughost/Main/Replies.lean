import Plughost.Main.Wire
import Plughost.Vst3.SlotTable

/-! The result frames of the control thread, as `main`'s send helpers put them together. -/
namespace Plughost.Main
open Plughost.Ipc.ControlPipe Plughost.Vst3

/-- The requests that `controlReader` answers. -/
inductive RequestTag where
  | loadPlugin | unloadPlugin | slotLoadPlugin | slotUnloadPlugin | slotSetBypass | setChainEnabled
  | slotListParams | slotSetParam | slotShowEditor | slotHideEditor
  deriving DecidableEq, Repr

/-- The `ControlMessageTag` of the result. -/
def RequestTag.result : RequestTag → Byte
  | .loadPlugin => 0x11
  | .unloadPlugin => 0x13
  | .slotLoadPlugin => 0x15
  | .slotUnloadPlugin => 0x17
  | .slotSetBypass => 0x19
  | .setChainEnabled => 0x1B
  | .slotListParams => 0x21
  | .slotSetParam => 0x23
  | .slotShowEditor => 0x31
  | .slotHideEditor => 0x33

abbrev editorClosedTag : Byte := 0x34

/-- What follows the slot, if any, and the status in a load result. -/
def appendLoadResult (body : List Byte) (status : Byte) (name vendor version errorMessage : List Byte) : List Byte :=
  if status = 0 then appendString (appendString (appendString body name) vendor) version
  else appendString body errorMessage

def loadResult (status : Byte) (name vendor version errorMessage : List Byte) : Frame :=
  ⟨RequestTag.loadPlugin.result, appendLoadResult [status] status name vendor version errorMessage⟩

def unloadResult (status : Byte) : Frame := ⟨RequestTag.unloadPlugin.result, [status]⟩

def slotLoadResult (slot status : Byte) (name vendor version errorMessage : List Byte) : Frame :=
  ⟨RequestTag.slotLoadPlugin.result, appendLoadResult [slot, status] status name vendor version errorMessage⟩

def slotUnloadResult (slot status : Byte) : Frame := ⟨RequestTag.slotUnloadPlugin.result, [slot, status]⟩

def slotBypassResult (slot status : Byte) : Frame := ⟨RequestTag.slotSetBypass.result, [slot, status]⟩

def chainEnabledResult (status : Byte) : Frame := ⟨RequestTag.setChainEnabled.result, [status]⟩

def appendParam (body : List Byte) (p : ParamInfo) : List Byte :=
  appendU32Le (appendF64Le (appendF64Le (appendString (appendString (appendU32Le body p.id) p.name) p.units)
    p.defaultValue) p.currentValue) p.stepCount ++ [p.flags]

def slotParamListResult (slot status : Byte) (params : List ParamInfo) : Frame :=
  ⟨RequestTag.slotListParams.result,
    if status = 0 then params.foldl appendParam (appendU32Le [slot, status] (BitVec.ofNat 32 params.length))
    else [slot, status]⟩

def slotSetParamResult (slot : Byte) (paramId : BitVec 32) (status : Byte) (actual : BitVec 64) : Frame :=
  ⟨RequestTag.slotSetParam.result, appendF64Le (appendU32Le [slot] paramId ++ [status]) actual⟩

def slotShowEditorResult (slot status : Byte) (width height : BitVec 32) : Frame :=
  ⟨RequestTag.slotShowEditor.result,
    if status = 0 then appendU32Le (appendU32Le [slot, status] width) height else [slot, status]⟩

def slotHideEditorResult (slot status : Byte) : Frame := ⟨RequestTag.slotHideEditor.result, [slot, status]⟩

def editorClosed (slot : Byte) : Frame := ⟨editorClosedTag, [slot]⟩

namespace RequestTag

/-- Where the status byte of the result is. -/
def statusAt : RequestTag → Nat
  | .loadPlugin | .unloadPlugin | .setChainEnabled => 0
  | .slotSetParam => 5
  | _ => 1

/-- The requests and results that name a slot, in their first byte. -/
def namesSlot : RequestTag → Bool
  | .loadPlugin | .unloadPlugin | .setChainEnabled => false
  | _ => true

/-- A result with this status, and with this slot byte when it has one. -/
structure Reports (tag : RequestTag) (f : Frame) (slot status : Byte) : Prop where
  result : f.tag = tag.result
  status : f.payload[tag.statusAt]? = some status
  slot : tag.namesSlot = true → f.payload[0]? = some slot

end RequestTag

/-- The bytes a parameter takes in a list. -/
def paramBytes (p : ParamInfo) : Nat := 33 + p.name.length + p.units.length

private theorem prefix_appendLoadResult (body : List Byte) (status : Byte)
    (name vendor version errorMessage : List Byte) :
    body <+: appendLoadResult body status name vendor version errorMessage := by
  unfold appendLoadResult
  split
  · simp only [appendString, appendU32Le, List.append_assoc]
    exact List.prefix_append _ _
  · simp only [appendString, appendU32Le, List.append_assoc]
    exact List.prefix_append _ _

theorem length_appendLoadResult (body : List Byte) (status : Byte) (name vendor version errorMessage : List Byte) :
    (appendLoadResult body status name vendor version errorMessage).length = body.length +
      if status = 0 then 12 + name.length + vendor.length + version.length else 4 + errorMessage.length := by
  unfold appendLoadResult
  split
  · simp only [length_appendString]
    omega
  · simp only [length_appendString]
    omega

private theorem prefix_appendParam (body : List Byte) (p : ParamInfo) : body <+: appendParam body p := by
  simp only [appendParam, appendString, appendU32Le, appendF64Le, List.append_assoc]
  exact List.prefix_append _ _

theorem length_appendParam (body : List Byte) (p : ParamInfo) :
    (appendParam body p).length = body.length + paramBytes p := by
  simp only [appendParam, paramBytes, List.length_append, length_appendU32Le, length_appendF64Le,
    length_appendString, List.length_singleton]
  omega

private theorem prefix_foldl_appendParam (params : List ParamInfo) (body : List Byte) :
    body <+: params.foldl appendParam body := by
  induction params generalizing body with
  | nil => exact List.prefix_rfl
  | cons p params ih => exact (prefix_appendParam body p).trans (ih _)

theorem length_foldl_appendParam (params : List ParamInfo) (body : List Byte) :
    (params.foldl appendParam body).length = body.length + (params.map paramBytes).sum := by
  induction params generalizing body with
  | nil => rfl
  | cons p params ih => rw [List.foldl_cons, ih, length_appendParam, List.map_cons, List.sum_cons, Nat.add_assoc]

/-- Most results start with the slot and the status. -/
theorem reports_of_front {tag : RequestTag} {slot status : Byte} {payload : List Byte}
    (h : [slot, status] <+: payload) (hat : tag.statusAt = 1) : tag.Reports ⟨tag.result, payload⟩ slot status := by
  obtain ⟨tail, rfl⟩ := h
  exact ⟨rfl, by rw [hat]; rfl, fun _ => rfl⟩

theorem reports_loadResult (slot status : Byte) (name vendor version errorMessage : List Byte) :
    RequestTag.loadPlugin.Reports (loadResult status name vendor version errorMessage) slot status := by
  obtain ⟨tail, htail⟩ := prefix_appendLoadResult [status] status name vendor version errorMessage
  refine ⟨rfl, ?_, nofun⟩
  rw [loadResult, ← htail]
  rfl

theorem reports_slotLoadResult (slot status : Byte) (name vendor version errorMessage : List Byte) :
    RequestTag.slotLoadPlugin.Reports (slotLoadResult slot status name vendor version errorMessage) slot status :=
  reports_of_front (prefix_appendLoadResult _ _ _ _ _ _) rfl

theorem reports_slotParamListResult (slot status : Byte) (params : List ParamInfo) :
    RequestTag.slotListParams.Reports (slotParamListResult slot status params) slot status := by
  unfold slotParamListResult
  split
  · refine reports_of_front (List.IsPrefix.trans ?_ (prefix_foldl_appendParam params _)) rfl
    exact List.prefix_append _ _
  · exact reports_of_front List.prefix_rfl rfl

theorem reports_slotSetParamResult (slot : Byte) (paramId : BitVec 32) (status : Byte) (actual : BitVec 64) :
    RequestTag.slotSetParam.Reports (slotSetParamResult slot paramId status actual) slot status :=
  ⟨rfl, rfl, fun _ => rfl⟩

theorem reports_slotShowEditorResult (slot status : Byte) (width height : BitVec 32) :
    RequestTag.slotShowEditor.Reports (slotShowEditorResult slot status width height) slot status := by
  unfold slotShowEditorResult
  split
  · refine reports_of_front ?_ rfl
    simp only [appendU32Le, List.append_assoc]
    exact List.prefix_append _ _
  · exact reports_of_front List.prefix_rfl rfl

end Plughost.Main
