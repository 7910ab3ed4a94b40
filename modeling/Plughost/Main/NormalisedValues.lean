import Plughost.Lib.Runs
import Plughost.Main.Requests
import Plughost.Vst3.ParamAccess

/-! `SlotSetParam` frames and `Process` calls in any order: the values that the VST3 and VST2 hosts
hand to the plugins because of a frame, and the replies. -/
namespace Plughost.Main.NormalisedValues
open Plughost.Runs Plughost.Ieee Plughost.BoundedQueue Plughost.Vst3 Plughost.Vst3.ParamAccess Plughost.Ipc.ControlPipe

/-- The control thread and its chain, what the hosts have handed over, and the changes that came
out of the plugins' own `performEdit`. -/
structure Session (C E K V Cb α G : Type) where
  control : Control (Plugin C E K) V Cb α G
  handed : List Handed
  edits : List (ParamID × BitVec 64)

inductive Act (C E K V Cb : Type) where
  /-- A `SlotSetParam` frame comes in. -/
  | slotSetParam (payload : List Byte)
  /-- A block on a slot; `locked` is whether `try_lock` succeeds. -/
  | process (i : Fin kMaxSlots) (locked : Bool) (hasQueue : ParamID → Bool)
  /-- A `performEdit` that passes the filter. -/
  | performEdit (i : Fin kMaxSlots) (paramId : ParamID) (value : BitVec 64)
  /-- A slot as a load, an unload or the plugin itself leaves it. -/
  | slot (i : Fin kMaxSlots) (s : Slot (Plugin C E K) V Cb)

/-- What `onSlotSetParam` reads of the payload. -/
def arguments (p : List Byte) : Option (Byte × ParamID × BitVec 64) :=
  if p.length ≠ 13 then none
  else match p[0]?, readU32Le p 1, readF64Le p 5 with
    | some slot, some paramId, some normalized => some (slot, paramId, normalized)
    | _, _, _ => none

section
variable {C E K V Cb α G : Type}

/-- What waits for the plugin of a host object. -/
def waiting (o : Option (SlotHost (Plugin C E K) V Cb)) : List (ParamID × BitVec 64) :=
  match o.bind SlotHost.active with
  | none => []
  | some p => p.waiting

/-- What a frame makes the host hand over. -/
def handedBy (code : Code C E K) (ch : SlotTable (Plugin C E K) V Cb α) (payload : List Byte) : List Handed :=
  match arguments payload with
  | none => []
  | some (slot, paramId, normalized) => match reached ch slot.toNat with
    | none => []
    | some (_, _, p) => (p.setParam code paramId normalized).2.2

/-- The slot's members, all at once. -/
def put (ch : SlotTable (Plugin C E K) V Cb α) (i : Fin kMaxSlots) (s : Slot (Plugin C E K) V Cb) :
    SlotTable (Plugin C E K) V Cb α :=
  { ch with
    format := Function.update ch.format i s.format, loaded := Function.update ch.loaded i s.loaded,
    bypass := Function.update ch.bypass i s.bypass, slotsVst3 := Function.update ch.slotsVst3 i (s.pointer .vst3),
    slotsVst2 := Function.update ch.slotsVst2 i (s.pointer .vst2),
    slotsClap := Function.update ch.slotsClap i (s.pointer .clap) }

namespace Session
variable (code : Code C E K) (g : GuiThread G V) (loader : Loader (Plugin C E K)) (createView : Plugin C E K → Option V)

def initial (sampleRate : BitVec 64) (maxBlockSize : Int) (zero : α) (gui : G) : Session C E K V Cb α G :=
  ⟨⟨SlotTable.initial sampleRate maxBlockSize zero, gui, [], []⟩, [], []⟩

/-- The chain with another plugin where `reached` found one. -/
def onPlugin (s : Session C E K V Cb α G) (i : Fin kMaxSlots) (host : SlotHost (Plugin C E K) V Cb) (p : Plugin C E K) :
    Session C E K V Cb α G :=
  { s with control := { s.control with
      chain := s.control.chain.setPointer (s.control.chain.format i) i (some { host with active := some p }) } }

def step (s : Session C E K V Cb α G) : Act C E K V Cb → Option (Session C E K V Cb α G)
  | .slotSetParam payload =>
    match onSlotSetParam g ⟨loader, createView, Plugin.listParams code, Plugin.set code⟩ payload s.control with
    | .error _ => none
    | .ok control => some { s with control, handed := s.handed ++ handedBy code s.control.chain payload }
  | .process i locked hasQueue => match reached s.control.chain i.val with
    | none => some s
    | some (j, host, p) =>
      if locked then
        some { s.onPlugin j host (p.drain hasQueue).1 with handed := s.handed ++ (p.drain hasQueue).2 }
      else some s
  | .performEdit i paramId value => match reached s.control.chain i.val with
    | some (j, host, .vst3 a) => some { s.onPlugin j host (.vst3 { a with
        pendingChanges := push kPendingCap a.pendingChanges (paramId, value) }) with
          edits := (paramId, value) :: s.edits }
    | _ => none
  | .slot i slot =>
    -- a fresh plugin has nothing waiting, and a plugin's own doings leave what waits alone
    if [SlotFormat.vst3, .vst2, .clap].all fun f => waiting (slot.pointer f) = [] ∨
        waiting (slot.pointer f) = waiting (s.control.chain.pointer f i) then
      some { s with control := { s.control with chain := put s.control.chain i slot } }
    else none

end Session

/-- A value as the host may hand it over: in `[0, 1]`, or the plugin's own. -/
def Fit (edits : List (ParamID × BitVec 64)) : Handed → Prop
  | .setParamNormalized _ value => binary64.Unit value.toNat
  | .inputParameterChange paramId value => binary64.Unit value.toNat ∨ (paramId, value) ∈ edits
  | .setParameter _ value => binary32.Unit value.toNat

/-- A `SlotSetParamResult` with status 0 carries a number. -/
def Numeric (f : Frame) : Prop :=
  f.tag = RequestTag.slotSetParam.result → f.payload[5]? = some 0 →
    ∀ actual, readF64Le f.payload 6 = some actual → isNaN actual = false

structure Normal (s : Session C E K V Cb α G) : Prop where
  handed : ∀ h ∈ s.handed, Fit s.edits h
  replies : ∀ f ∈ s.control.sent, Numeric f

/-- The host hands nothing over for that id. -/
def Deaf (code : Code C E K) (paramId : ParamID) : Plugin C E K → Prop
  | .vst3 a => a.controller.isNone
  | .vst2 e => code.effect.numParams e ≤ paramId
  | .clap _ => True

instance (code : Code C E K) (paramId : ParamID) : (p : Plugin C E K) → Decidable (Deaf code paramId p)
  | .vst3 a => inferInstanceAs (Decidable (a.controller.isNone = true))
  | .vst2 e => inferInstanceAs (Decidable (code.effect.numParams e ≤ paramId))
  | .clap _ => inferInstanceAs (Decidable True)

/-- A frame's value is a number, or no plugin is handed it. -/
def Permits (code : Code C E K) (s : Session C E K V Cb α G) : Act C E K V Cb → Prop
  | .slotSetParam payload => ∀ a ∈ arguments payload, isNaN a.2.2 →
      ∀ r ∈ reached s.control.chain a.1.toNat, Deaf code a.2.1 r.2.2
  | _ => True

instance (code : Code C E K) (s : Session C E K V Cb α G) : (act : Act C E K V Cb) → Decidable (Permits code s act)
  -- by the frame, not by trying every pattern
  | .slotSetParam payload => Option.decidableForallMem (arguments payload)
  | .process .. | .performEdit .. | .slot .. => inferInstanceAs (Decidable True)

/-- What waits for a VST3 plugin may be handed over too. -/
structure Sound (s : Session C E K V Cb α G) : Prop where
  normal : Normal s
  waiting : ∀ f i, ∀ pc ∈ waiting (s.control.chain.pointer f i), binary64.Unit pc.2.toNat ∨ pc ∈ s.edits

variable {code : Code C E K} {paramId : ParamID} {normalized : BitVec 64} {p : Plugin C E K}
  {edits : List (ParamID × BitVec 64)}

private theorem unit_clamp_iff : binary64.Unit (clamp normalized).toNat ↔ isNaN normalized = false := by
  refine ⟨fun h => Bool.eq_false_iff.mpr fun hnan => ?_, unit_clamp⟩
  rw [clamp_of_nan hnan] at h
  exact not_unit_of_nan ((isNaN_iff normalized).mp hnan) h

private theorem unit_toFloat_clamp_iff :
    binary32.Unit (toFloat (clamp normalized)).toNat ↔ isNaN normalized = false := by
  refine ⟨fun h => Bool.eq_false_iff.mpr fun hnan => ?_, fun h => unit_toFloat (unit_clamp h)⟩
  rw [clamp_of_nan hnan] at h
  exact not_unit_toFloat hnan h

/-- What a call hands over is fit just when its value is a number or the host is deaf. -/
private theorem handed_fit_iff : (∀ h ∈ (p.setParam code paramId normalized).2.2, Fit edits h) ↔
    (isNaN normalized → Deaf code paramId p) := by
  cases p with
  | vst3 a =>
    obtain ⟨controller, q⟩ := a
    cases controller with
    | none => exact ⟨fun _ _ => rfl, fun _ => List.forall_mem_nil _⟩
    | some c =>
      refine (List.forall_mem_singleton (p := Fit edits)).trans (unit_clamp_iff.trans ?_)
      cases isNaN normalized <;> simp [Deaf]
  | vst2 e =>
    by_cases hid : code.effect.numParams e ≤ paramId
    · simp only [Plugin.setParam, if_pos hid]
      exact ⟨fun _ _ => hid, fun _ => List.forall_mem_nil _⟩
    · simp only [Plugin.setParam, if_neg hid]
      refine (List.forall_mem_singleton (p := Fit edits)).trans (unit_toFloat_clamp_iff.trans ?_)
      cases isNaN normalized <;> simp [Deaf, hid]
  | clap a => exact ⟨fun _ _ => trivial, fun _ => List.forall_mem_nil _⟩

/-- What then waits is fit to be handed over, or waited before. -/
private theorem waiting_setParam (h : isNaN normalized → Deaf code paramId p) :
    ∀ pc ∈ (p.setParam code paramId normalized).2.1.waiting, binary64.Unit pc.2.toNat ∨ pc ∈ p.waiting := by
  cases p with
  | vst3 a =>
    obtain ⟨controller, q⟩ := a
    cases controller with
    | none => exact fun pc hpc => .inr hpc
    | some c =>
      intro pc hpc
      rcases mem_of_mem_push hpc with hold | rfl
      · exact .inr hold
      · refine .inl (unit_clamp (Bool.eq_false_iff.mpr fun hnan => ?_))
        cases h hnan
  | vst2 e =>
    by_cases hid : code.effect.numParams e ≤ paramId
    · simp only [Plugin.setParam, if_pos hid]
      exact fun pc hpc => .inr hpc
    · simp only [Plugin.setParam, if_neg hid]
      exact fun pc hpc => nomatch hpc
  | clap a => exact fun pc hpc => nomatch hpc

/-- A block is handed what waited, and then nothing waits. -/
private theorem fit_drain (hasQueue : ParamID → Bool) (h : ∀ pc ∈ p.waiting, binary64.Unit pc.2.toNat ∨ pc ∈ edits) :
    (∀ x ∈ (p.drain hasQueue).2, Fit edits x) ∧ (p.drain hasQueue).1.waiting = [] := by
  cases p with
  | vst3 a =>
    refine ⟨fun x hx => ?_, rfl⟩
    obtain ⟨pc, hpc, rfl⟩ := List.mem_map.mp hx
    exact h pc (List.mem_filter.mp hpc).1
  | vst2 | clap => exact ⟨nofun, rfl⟩

theorem Fit.mono {edits' : List (ParamID × BitVec 64)} (he : edits ⊆ edits') {x : Handed} (h : Fit edits x) :
    Fit edits' x := by
  cases x with
  | inputParameterChange paramId value => exact h.imp_right fun hmem => he hmem
  | _ => exact h

private theorem numeric_result {slot status : Byte} {actual : BitVec 64} (h : status = 0 → isNaN actual = false) :
    Numeric (slotSetParamResult slot paramId status actual) := by
  intro _ hstatus value hvalue
  have hread := readF64Le_appendF64Le (appendU32Le [slot] paramId ++ [status]) actual []
  rw [List.append_nil, List.length_append, length_appendU32Le] at hread
  rw [slotSetParamResult] at hvalue
  cases hread.symm.trans hvalue
  refine h ?_
  have hbyte : (slotSetParamResult slot paramId status actual).payload[5]? = some status := by
    rw [slotSetParamResult, appendF64Le, List.getElem?_append_left (by simp), List.getElem?_append_right (by simp)]
    simp
  exact Option.some.inj (hbyte.symm.trans hstatus)

private theorem onSlotSetParam_cases {g : GuiThread G V} {w : Plugins (Plugin C E K) V} {payload : List Byte}
    {t t' : Control (Plugin C E K) V Cb α G} (h : onSlotSetParam g w payload t = .ok t') :
    (arguments payload = none ∧ t' = t.sendFrame (slotSetParamResult 0xFF 0 5 0)) ∨
      ∃ slot paramId normalized, arguments payload = some (slot, paramId, normalized) ∧
        t' = t.setParam w slot paramId normalized := by
  unfold onSlotSetParam at h
  split at h
  · rename_i hlen
    cases h
    exact .inl ⟨by rw [arguments, if_pos hlen], rfl⟩
  · rename_i hlen
    split at h
    · rename_i slot paramId normalized hslot hid hvalue
      cases h
      refine .inr ⟨slot, paramId, normalized, ?_, rfl⟩
      rw [arguments, if_neg hlen, hslot, hid, hvalue]
    · cases h

section Waiting
variable {ch : SlotTable (Plugin C E K) V Cb α} {slotIdx : Int} {i : Fin kMaxSlots} {host : SlotHost (Plugin C E K) V Cb}
  {q : Plugin C E K} {Q : ParamID × BitVec 64 → Prop}

private theorem waiting_reached (hr : reached ch slotIdx = some (i, host, p)) :
    waiting (ch.pointer (ch.format i) i) = p.waiting := by
  obtain ⟨-, -, -, hpointer, hactive⟩ := reached_cases hr
  rw [hpointer, waiting, Option.bind_some, hactive]

/-- A property of all that waits outlives a change of one plugin that adds nothing without it. -/
private theorem waiting_setPointer (h : ∀ f i, ∀ pc ∈ waiting (ch.pointer f i), Q pc)
    (hr : reached ch slotIdx = some (i, host, p)) (hq : ∀ pc ∈ q.waiting, Q pc ∨ pc ∈ p.waiting) (f : SlotFormat)
    (j : Fin kMaxSlots) :
    ∀ pc ∈ waiting ((ch.setPointer (ch.format i) i (some { host with active := some q })).pointer f j), Q pc := by
  have hformat := (reached_cases hr).2.2.1
  by_cases hj : j = i
  · subst hj
    rw [SlotTable.pointer_setPointer ch _ f j _ hformat]
    split
    · intro pc hpc
      rcases hq pc hpc with hnew | hold
      · exact hnew
      · exact h (ch.format j) j pc (waiting_reached hr ▸ hold)
    · exact h f j
  · have hslot := congrArg (fun s => s.pointer f) (SlotTable.slot_setPointer_ne ch (ch.format i)
      (some { host with active := some q }) hj)
    rw [show (ch.setPointer (ch.format i) i (some { host with active := some q })).pointer f j = ch.pointer f j from hslot]
    exact h f j

private theorem waiting_put {s : Slot (Plugin C E K) V Cb} (h : ∀ f i, ∀ pc ∈ waiting (ch.pointer f i), Q pc)
    (hs : [SlotFormat.vst3, .vst2, .clap].all fun f => waiting (s.pointer f) = [] ∨
      waiting (s.pointer f) = waiting (ch.pointer f i)) (f : SlotFormat) (j : Fin kMaxSlots) :
    ∀ pc ∈ waiting ((put ch i s).pointer f j), Q pc := by
  have hslot : ∀ f ∈ [SlotFormat.vst3, .vst2, .clap], ∀ pc ∈ waiting (s.pointer f), Q pc := by
    intro f hf pc hpc
    rcases of_decide_eq_true (List.all_eq_true.mp hs f hf) with hempty | hsame
    · rw [hempty] at hpc
      cases hpc
    · exact h f i pc (hsame ▸ hpc)
  by_cases hj : j = i
  · subst hj
    cases f with
    | empty => exact fun pc hpc => nomatch hpc
    | vst3 => simpa only [put, SlotTable.pointer, Function.update_self] using hslot .vst3 (by simp)
    | vst2 => simpa only [put, SlotTable.pointer, Function.update_self] using hslot .vst2 (by simp)
    | clap => simpa only [put, SlotTable.pointer, Function.update_self] using hslot .clap (by simp)
  · have hput : (put ch i s).pointer f j = ch.pointer f j := by
      cases f <;> simp only [put, SlotTable.pointer, Function.update_of_ne hj]
    rw [hput]
    exact h f j

/-- The chain answers with status 0 only where it has a number. -/
private theorem isNaN_of_status (h : (ch.setParam (Plugin.set code) slotIdx paramId normalized).1 = 0) :
    isNaN (ch.setParam (Plugin.set code) slotIdx paramId normalized).2.1 = false := by
  cases hr : reached ch slotIdx with
  | none => exact absurd h (setParam_of_unreached _ hr paramId normalized).1
  | some r =>
    obtain ⟨i, host, p⟩ := r
    have hcall := setParam_of_reached (Plugin.set code) hr paramId normalized
    dsimp only at hcall
    rw [hcall] at h ⊢
    dsimp only at h ⊢
    split at h
    · cases h
    · rename_i hnan
      rw [if_neg hnan]
      exact Bool.eq_false_iff.mpr hnan

end Waiting

namespace Session
variable {g : GuiThread G V} {loader : Loader (Plugin C E K)} {createView : Plugin C E K → Option V}
  {s t : Session C E K V Cb α G} {act : Act C E K V Cb}

private theorem sound_initial (sampleRate : BitVec 64) (maxBlockSize : Int) (zero : α) (gui : G) :
    Sound (initial sampleRate maxBlockSize zero gui : Session C E K V Cb α G) := by
  refine ⟨⟨nofun, nofun⟩, fun f i pc hpc => ?_⟩
  cases f <;> cases hpc

private theorem handedBy_of_reached {payload : List Byte} {slot : Byte} {i : Fin kMaxSlots}
    {host : SlotHost (Plugin C E K) V Cb} (ha : arguments payload = some (slot, paramId, normalized))
    (hr : reached s.control.chain slot.toNat = some (i, host, p)) :
    handedBy code s.control.chain payload = (p.setParam code paramId normalized).2.2 := by
  simp only [handedBy, ha, hr]

/-- A frame that may come in. -/
private theorem sound_setParam {payload : List Byte} (h : Sound s) (hok : Permits code s (.slotSetParam payload))
    (hs : s.step code g loader createView (.slotSetParam payload) = some t) : Sound t := by
  simp only [step] at hs
  split at hs <;> cases hs
  rename_i hcall
  rcases onSlotSetParam_cases hcall with ⟨ha, rfl⟩ | ⟨slot, paramId, normalized, ha, rfl⟩
  · refine ⟨⟨?_, List.forall_mem_append.mpr ⟨h.normal.replies, List.forall_mem_singleton.mpr (numeric_result nofun)⟩⟩,
      h.waiting⟩
    simp only [handedBy, ha, List.append_nil]
    exact h.normal.handed
  · have hreplies : ∀ f ∈ s.control.sent ++ [slotSetParamResult slot paramId
        (s.control.chain.setParam (Plugin.set code) slot.toNat paramId normalized).1
        (s.control.chain.setParam (Plugin.set code) slot.toNat paramId normalized).2.1], Numeric f :=
      List.forall_mem_append.mpr ⟨h.normal.replies, List.forall_mem_singleton.mpr (numeric_result isNaN_of_status)⟩
    cases hr : reached s.control.chain slot.toNat with
    | none =>
      have hchain := (setParam_of_unreached (Plugin.set code) hr paramId normalized).2
      refine ⟨⟨?_, hreplies⟩, ?_⟩
      · simp only [handedBy, ha, hr, List.append_nil]
        exact h.normal.handed
      · change ∀ f i, ∀ pc ∈ waiting ((s.control.chain.setParam (Plugin.set code) slot.toNat paramId normalized).2.2.pointer
          f i), _
        rw [hchain]
        exact h.waiting
    | some r =>
      obtain ⟨i, host, p⟩ := r
      have hdeaf : isNaN normalized → Deaf code paramId p := fun hnan => hok _ ha hnan _ hr
      have hcall := setParam_of_reached (Plugin.set code) hr paramId normalized
      refine ⟨⟨?_, hreplies⟩, ?_⟩
      · dsimp only
        rw [handedBy_of_reached ha hr]
        exact List.forall_mem_append.mpr ⟨h.normal.handed, handed_fit_iff.mpr hdeaf⟩
      · change ∀ f i, ∀ pc ∈ waiting ((s.control.chain.setParam (Plugin.set code) slot.toNat paramId normalized).2.2.pointer
          f i), _
        rw [hcall]
        refine waiting_setPointer h.waiting hr fun pc hpc => ?_
        rcases waiting_setParam hdeaf pc hpc with hunit | hold
        · exact .inl (.inl hunit)
        · exact .inr hold

theorem Sound.keep (h : Sound s) (hok : Permits code s act) (hs : s.step code g loader createView act = some t) :
    Sound t := by
  cases act with
  | slotSetParam payload => exact sound_setParam h hok hs
  | process i locked hasQueue =>
    simp only [step] at hs
    split at hs
    · cases hs
      exact h
    · rename_i j host p hr
      have hwaiting : ∀ pc ∈ p.waiting, binary64.Unit pc.2.toNat ∨ pc ∈ s.edits := fun pc hpc =>
        h.waiting _ _ pc (waiting_reached hr ▸ hpc)
      have hdrain := fit_drain hasQueue hwaiting
      split at hs <;> cases hs
      · refine ⟨⟨List.forall_mem_append.mpr ⟨h.normal.handed, ?_⟩, h.normal.replies⟩,
          waiting_setPointer h.waiting hr ?_⟩
        · exact hdrain.1
        · rw [hdrain.2]
          exact fun pc hpc => nomatch hpc
      · exact h
  | performEdit i paramId value =>
    simp only [step] at hs
    split at hs <;> cases hs
    rename_i j host a hr
    have hsub : s.edits ⊆ (paramId, value) :: s.edits := List.subset_cons_self _ _
    refine ⟨⟨fun x hx => (h.normal.handed x hx).mono hsub, h.normal.replies⟩, waiting_setPointer
      (fun f i pc hpc => (h.waiting f i pc hpc).imp_right fun hmem => hsub hmem) hr fun pc hpc => ?_⟩
    rcases mem_of_mem_push hpc with hold | rfl
    · exact .inr hold
    · exact .inl (.inr List.mem_cons_self)
  | slot i slot =>
    simp only [step] at hs
    split at hs <;> cases hs
    exact ⟨⟨h.normal.handed, h.normal.replies⟩, waiting_put h.waiting ‹_›⟩

/-- A step into a normal state is permitted. -/
private theorem permits_of_normal (hs : s.step code g loader createView act = some t) (h : Normal t) :
    Permits code s act := by
  cases act with
  | slotSetParam payload =>
    rintro ⟨slot, paramId, normalized⟩ ha hnan ⟨i, host, p⟩ hr
    simp only [step] at hs
    split at hs <;> cases hs
    have hnew := (List.forall_mem_append.mp h.handed).2
    rw [handedBy_of_reached ha hr] at hnew
    exact handed_fit_iff.mp hnew hnan
  | process | performEdit | slot => trivial

/-- In a run of frames, blocks, edits and loads only numbers in `[0, 1]` are handed over because of a
frame, and only numbers reported, exactly when no frame with a NaN reaches a plugin's parameter. -/
theorem normal_iff {sampleRate : BitVec 64} {maxBlockSize : Int} {zero : α} {gui : G} {acts : List (Act C E K V Cb)}
    (he : exec (step code g loader createView) (initial sampleRate maxBlockSize zero gui) acts = some t) :
    Always (step code g loader createView) Normal (initial sampleRate maxBlockSize zero gui) acts ↔
      Meets (step code g loader createView) (Permits code) (initial sampleRate maxBlockSize zero gui) acts :=
  always_iff_meets Sound Sound.keep Sound.normal (fun _ hs h => permits_of_normal hs h)
    (sound_initial sampleRate maxBlockSize zero gui) he

end Session
end

/-- A VST3 plugin whose one parameter is what it was last set to. -/
def keeper : Code (BitVec 64) Unit Unit where
  controller := ⟨fun _ => 1, fun _ _ => some ⟨7, [], [], 0, 0, 0⟩, fun c _ => c, fun _ _ value => value⟩
  effect := ⟨fun _ => 0, fun _ _ => [], fun _ _ => [], fun _ _ => 0, fun _ _ _ => ()⟩
  params := ⟨fun _ => 0, fun _ _ => none, fun _ _ => none⟩

def keeperSlot : Slot (Plugin (BitVec 64) Unit Unit) Unit Unit :=
  ⟨.vst3, true, false, fun f => if f = .vst3 then some ⟨some (.vst3 ⟨some 0, []⟩), none, none⟩ else none⟩

def idleGui : GuiThread Unit Unit :=
  ⟨fun _ => false, fun _ => (false, ()), fun _ _ _ _ _ => (⟨false, 7, 0, 0⟩, ()), fun _ _ => (false, ())⟩

def noLoader : Loader (Plugin (BitVec 64) Unit Unit) :=
  ⟨fun _ => false, fun _ _ _ => .noAudioEffect, fun _ _ _ => .noEntry, fun _ _ _ => .noEntry⟩

namespace Session

abbrev keeperStart : Session (BitVec 64) Unit Unit Unit Unit Unit Unit := initial 0 64 () ()

/-- Parameter 7 is set to 2, the plugin edits it, and a NaN is meant for an empty slot. -/
theorem normal_keeper : Always (step keeper idleGui noLoader fun _ => none) Normal keeperStart
    [.slot 0 keeperSlot, .slotSetParam [0, 7, 0, 0, 0, 0, 0, 0, 0, 0, 0, 0, 0x40], .performEdit 0 7 5,
      .process 0 true fun _ => true, .slotSetParam [1, 7, 0, 0, 0, 0, 0, 0, 0, 0, 0, 0xF8, 0x7F]] := by
  have hrun : (exec (step keeper idleGui noLoader fun _ => none) keeperStart
    [.slot 0 keeperSlot, .slotSetParam [0, 7, 0, 0, 0, 0, 0, 0, 0, 0, 0, 0, 0x40], .performEdit 0 7 5,
      .process 0 true fun _ => true, .slotSetParam [1, 7, 0, 0, 0, 0, 0, 0, 0, 0, 0, 0xF8, 0x7F]]).isSome := by
    decide +kernel
  obtain ⟨t, ht⟩ := Option.isSome_iff_exists.mp hrun
  exact (normal_iff ht).mpr (meets_of_checks (by decide +kernel))

/-- Parameter 7 is set to NaN. -/
theorem normal_fails : ¬ Always (step keeper idleGui noLoader fun _ => none) Normal keeperStart
    [.slot 0 keeperSlot, .slotSetParam [0, 7, 0, 0, 0, 0, 0, 0, 0, 0, 0, 0xF8, 0x7F]] := by
  intro h
  obtain ⟨t, ht, hhanded⟩ := Option.map_eq_some_iff.mp (show
    (exec (step keeper idleGui noLoader fun _ => none) keeperStart
      [.slot 0 keeperSlot, .slotSetParam [0, 7, 0, 0, 0, 0, 0, 0, 0, 0, 0, 0xF8, 0x7F]]).map Session.handed =
        some [.setParamNormalized 7 quietNaN] by decide +kernel)
  have hfit := (h.end ht).handed (.setParamNormalized 7 quietNaN) (by rw [hhanded]; exact List.mem_cons_self)
  exact not_unit_of_nan ((isNaN_iff quietNaN).mp (by decide)) hfit

end Session
end Plughost.Main.NormalisedValues
