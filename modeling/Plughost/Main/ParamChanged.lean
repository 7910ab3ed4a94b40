import Plughost.Ipc.FrameRoundTrip
import Plughost.Lib.BoundedQueue
import Plughost.Main.Wire
import Plughost.Vst3.PluginChain

/-! Parameter notifications from the chain-level callback to the host: each is one
non-blocking send, and a frame that finds no room is dropped for good. -/
namespace Plughost.Main
open Plughost.Ipc.ControlPipe Plughost.BoundedQueue Plughost.Vst3

/-- One call of a slot's wrapped callback; the slot is the one it was bound for. -/
structure Notification where
  slot : Fin kMaxSlots
  paramId : BitVec 32
  value : BitVec 64
  deriving DecidableEq

/-- What `TrySendNonBlocking` hears from the kernel: the probe, and its one `::send`. -/
structure Socket where
  inFlight : Option Int
  sndBuf : Option Int
  answer : Sent
  deriving DecidableEq

/-- `ControlMessageTag::ParamChanged`. -/
abbrev paramChangedTag : Byte := 0x36

def paramChangedFrame (slot : Byte) (paramId : BitVec 32) (normalizedValue : BitVec 64) : Frame :=
  ⟨paramChangedTag, appendF64Le (appendU32Le [slot] paramId) normalizedValue⟩

def sendParamChanged (slot : Byte) (paramId : BitVec 32) (normalizedValue : BitVec 64) (k : Socket) :
    List Byte × Bool :=
  trySendNonBlocking true (paramChangedFrame slot paramId normalizedValue) k.inFlight k.sndBuf k.answer

/-- The callback `main` installs on the chain. -/
def onParamChanged (slotIdx : Int) (paramId : BitVec 32) (normalizedValue : BitVec 64) (k : Socket) :
    List Byte × Bool :=
  if slotIdx < 0 ∨ 0xFF < slotIdx then ([], false)
  else sendParamChanged (BitVec.ofInt 8 slotIdx) paramId normalizedValue k

/-- A notification with the socket as its send finds it. -/
abbrev Call := Notification × Socket

/-- The bytes that a sequence of notifications leaves on the socket. -/
def wire (calls : List Call) : List Byte :=
  calls.flatMap fun c => (onParamChanged c.1.slot.val c.1.paramId c.1.value c.2).1

/-- The host's reading of a `ParamChanged` payload. -/
def parseParamChanged (f : Frame) : Option ((Byte × BitVec 32) × BitVec 64) :=
  if f.tag = paramChangedTag ∧ f.payload.length = 13 then
    match f.payload[0]?, readU32Le f.payload 1, readF64Le f.payload 5 with
    | some slot, some paramId, some value => some ((slot, paramId), value)
    | _, _, _ => none
  else none

/-- What the host has received once it has read everything on the socket. -/
def received (calls : List Call) : List ((Byte × BitVec 32) × BitVec 64) :=
  (messagesOf (wire calls).length (wire calls)).filterMap parseParamChanged

/-- The notification under the key the host files it by. -/
def Notification.entry (n : Notification) : (Byte × BitVec 32) × BitVec 64 :=
  ((BitVec.ofNat 8 n.slot.val, n.paramId), n.value)

/-- The frame is sent: the probe reports room for its 18 bytes, or fails, and `::send` takes them all. -/
def HasRoom (k : Socket) : Bool :=
  !wouldBlock k.inFlight k.sndBuf 18 && match k.answer with
    | .accepted n => 18 ≤ n
    | .eintr | .error => false

/-- Back-pressure that drops frames and does not cut them. -/
def DropsWhole (k : Socket) : Prop := ∀ n, k.answer = .accepted n → n = 0 ∨ 18 ≤ n

theorem length_paramChangedFrame (slot : Byte) (paramId : BitVec 32) (value : BitVec 64) :
    (paramChangedFrame slot paramId value).payload.length = 13 := by
  simp [paramChangedFrame]

private theorem parse_paramChangedFrame (slot : Byte) (paramId : BitVec 32) (value : BitVec 64) :
    parseParamChanged (paramChangedFrame slot paramId value) = some ((slot, paramId), value) := by
  have hid : readU32Le (appendF64Le (appendU32Le [slot] paramId) value) 1 = some paramId :=
    readU32Le_appendU32Le [slot] paramId _
  have hvalue : readF64Le (appendF64Le (appendU32Le [slot] paramId) value) 5 = some value := by
    have h := readF64Le_appendF64Le (appendU32Le [slot] paramId) value []
    rw [List.append_nil] at h
    exact h
  rw [parseParamChanged, if_pos ⟨rfl, length_paramChangedFrame slot paramId value⟩]
  simp only [paramChangedFrame, hid, hvalue]
  rfl

/-- A slot's callback always passes the range check, and its byte is the slot's number. -/
private theorem onParamChanged_slot (n : Notification) (k : Socket) :
    onParamChanged n.slot.val n.paramId n.value k =
      sendParamChanged (BitVec.ofNat 8 n.slot.val) n.paramId n.value k := by
  have hlt : n.slot.val < 8 := n.slot.isLt
  rw [onParamChanged, if_neg (by omega)]
  rfl

/-- A notification puts its whole frame on the socket when there is room, and nothing otherwise. -/
private theorem sent_or_dropped (n : Notification) {k : Socket} (h : DropsWhole k) :
    (onParamChanged n.slot.val n.paramId n.value k).1 =
      if HasRoom k then (paramChangedFrame (BitVec.ofNat 8 n.slot.val) n.paramId n.value).bytes else [] := by
  rw [onParamChanged_slot, sendParamChanged, trySendNonBlocking, length_paramChangedFrame]
  have hfit : ¬ kMaxPayloadBytes < 13 := by decide
  rw [if_neg (by decide), if_neg hfit]
  dsimp only
  cases hblock : wouldBlock k.inFlight k.sndBuf (5 + 13) with
  | true => simp [HasRoom, hblock]
  | false =>
    simp only [HasRoom, hblock, Bool.false_eq_true, if_false, Bool.not_false, Bool.true_and]
    cases hanswer : k.answer with
    | eintr | error => rfl
    | accepted m =>
      rcases h m hanswer with rfl | hle
      · rfl
      · have htake : (paramChangedFrame (BitVec.ofNat 8 n.slot.val) n.paramId n.value).bytes.length ≤ m := by
          rw [length_bytes, length_paramChangedFrame]
          exact hle
        simp [hle, List.take_of_length_le htake]

/-- The frames that get through. -/
def delivered (calls : List Call) : List Frame :=
  (calls.filter fun c => HasRoom c.2).map fun c =>
    paramChangedFrame (BitVec.ofNat 8 c.1.slot.val) c.1.paramId c.1.value

private theorem wire_eq {calls : List Call} (h : ∀ c ∈ calls, DropsWhole c.2) :
    wire calls = (delivered calls).flatMap Frame.bytes := by
  induction calls with
  | nil => rfl
  | cons c calls ih =>
    rw [List.forall_mem_cons] at h
    have hrest : wire (c :: calls) = (onParamChanged c.1.slot.val c.1.paramId c.1.value c.2).1 ++ wire calls := rfl
    have hcons : delivered (c :: calls) = (if HasRoom c.2 then
        [paramChangedFrame (BitVec.ofNat 8 c.1.slot.val) c.1.paramId c.1.value] else []) ++ delivered calls := by
      rw [delivered, List.filter_cons]
      cases HasRoom c.2 <;> rfl
    rw [hrest, hcons, sent_or_dropped c.1 h.1, ih h.2, List.flatMap_append]
    cases HasRoom c.2 <;> simp

/-- The host receives the notifications that found room, in order. -/
theorem received_eq {calls : List Call} (h : ∀ c ∈ calls, DropsWhole c.2) :
    received calls = (calls.filter fun c => HasRoom c.2).map fun c => c.1.entry := by
  have hwf : ∀ f ∈ delivered calls, f.WellFormed := by
    intro f hf
    obtain ⟨c, -, rfl⟩ := List.mem_map.mp hf
    rw [Frame.WellFormed, length_paramChangedFrame]
    decide
  have hcount : (delivered calls).length ≤ (wire calls).length := by
    rw [wire_eq h]
    exact length_le_flatMap_bytes _
  have hmessages : messagesOf (wire calls).length (wire calls) = delivered calls := by
    have hall := messagesOf_bytes hwf hcount
    rw [← wire_eq h] at hall
    exact hall
  rw [received, hmessages, delivered, List.filterMap_map]
  apply List.filterMap_eq_map_iff_forall_eq_some.mpr
  intro c _
  exact parse_paramChangedFrame _ _ _

/-- The host ends on every parameter's last value exactly when each parameter's last
notification finds room or repeats the value last let through. -/
theorem last_value_received_iff (calls : List Call) (hdrops : ∀ c ∈ calls, DropsWhole c.2) :
    (∀ key, lastValue key (received calls) = lastValue key (calls.map fun c => c.1.entry)) ↔
      ∀ key, AtLast (fun c => c.1.entry.1 = key) (fun front c => HasRoom c.2 = true ∨
        lastValue key ((front.filter fun c => HasRoom c.2).map fun c => c.1.entry) = some c.1.entry.2) calls := by
  rw [received_eq hdrops]
  apply forall_congr'
  intro key
  exact lastValue_filter_iff (fun c : Call => c.1.entry) (fun c => HasRoom c.2) key calls

/-- A socket with room, and one whose send queue is full. -/
def roomy : Socket := ⟨some 0, some 212992, .accepted 18⟩
def full : Socket := ⟨some 106496, some 212992, .error⟩

/-- Of three notifications the middle one is dropped, and its parameter's next one gets through. -/
theorem last_value_received_iff_caught_up :
    let calls : List Call := [(⟨0, 7, 0x3FD0000000000000⟩, roomy), (⟨0, 7, 0x3FE0000000000000⟩, full),
      (⟨0, 7, 0x3FE8000000000000⟩, roomy)]
    HasRoom full = false ∧
      ∀ key, lastValue key (received calls) = lastValue key (calls.map fun c => c.1.entry) := by
  intro calls
  have hdrops : ∀ c ∈ calls, DropsWhole c.2 := by
    simp [calls, DropsWhole, roomy, full]
  refine ⟨by decide, (last_value_received_iff calls hdrops).mpr fun key => ?_⟩
  by_cases hkey : (0, 7) = key
  · have hcalls : calls = [(⟨0, 7, 0x3FD0000000000000⟩, roomy), (⟨0, 7, 0x3FE0000000000000⟩, full)] ++
        [(⟨0, 7, 0x3FE8000000000000⟩, roomy)] := rfl
    rw [hcalls, ← hkey]
    refine (atLast_concat (p := fun c : Call => c.1.entry.1 = (0, 7)) rfl).mpr ?_
    exact .inl (by decide)
  · have hkeys : ∀ c ∈ calls, c.1.entry.1 = (0, 7) := by
      simp [calls, Notification.entry]
    exact atLast_of_not fun c hc h => hkey ((hkeys c hc).symm.trans h)

/-- A knob moves from 0.25 to 0.75 while the host is behind: the second frame is
dropped, and nothing ever tells the host. -/
theorem last_value_dropped :
    let calls : List Call := [(⟨0, 7, 0x3FD0000000000000⟩, roomy), (⟨0, 7, 0x3FE8000000000000⟩, full)]
    (∀ c ∈ calls, DropsWhole c.2) ∧ lastValue (0, 7) (received calls) = some 0x3FD0000000000000 ∧
      ¬ ∀ key, lastValue key (received calls) = lastValue key (calls.map fun c => c.1.entry) := by
  intro calls
  have hdrops : ∀ c ∈ calls, DropsWhole c.2 := by
    simp [calls, DropsWhole, roomy, full]
  have hreceived := received_eq hdrops
  have hfirst : lastValue (0, 7) (received calls) = some 0x3FD0000000000000 := by
    rw [hreceived]
    decide
  refine ⟨hdrops, hfirst, fun h => ?_⟩
  have hlast := h (0, 7)
  rw [hfirst] at hlast
  exact absurd hlast (by decide)

end Plughost.Main
