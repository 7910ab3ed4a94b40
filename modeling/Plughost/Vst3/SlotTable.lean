import Plughost.Lib.Runs
import Plughost.Vst3.PluginLoad

/-! The slot table of `PluginChain` under the control calls: for each slot a format,
three pointers and two flags, which together stand for one plugin or none. -/
namespace Plughost.Vst3
open Plughost.Runs Plughost.Ipc.ControlPipe

/-- The chain, with the members that only the control calls read. -/
structure SlotTable (P V C α : Type) extends PluginChain (SlotHost P V C) α where
  sampleRate : BitVec 64
  paramChangedCb : Option C

/-- One slot of the arrays. -/
structure Slot (P V C : Type) where
  format : SlotFormat
  loaded : Bool
  bypass : Bool
  pointer : SlotFormat → Option (SlotHost P V C)

/-- The range check that the calls begin with. -/
def slotIndex (slotIdx : Int) : Option (Fin kMaxSlots) :=
  if h : slotIdx < 0 ∨ kMaxSlots ≤ slotIdx then none else some ⟨slotIdx.toNat, by omega⟩

namespace SlotTable
variable {P V C α : Type}

/-- The pointer of one format's array. -/
def pointer (ch : SlotTable P V C α) (f : SlotFormat) (i : Fin kMaxSlots) : Option (SlotHost P V C) :=
  match f with
  | .empty => none
  | .vst3 => ch.slotsVst3 i
  | .vst2 => ch.slotsVst2 i
  | .clap => ch.slotsClap i

def setPointer (ch : SlotTable P V C α) (f : SlotFormat) (i : Fin kMaxSlots) (o : Option (SlotHost P V C)) :
    SlotTable P V C α :=
  match f with
  | .empty => ch
  | .vst3 => { ch with slotsVst3 := Function.update ch.slotsVst3 i o }
  | .vst2 => { ch with slotsVst2 := Function.update ch.slotsVst2 i o }
  | .clap => { ch with slotsClap := Function.update ch.slotsClap i o }

def setLoaded (ch : SlotTable P V C α) (i : Fin kMaxSlots) (b : Bool) : SlotTable P V C α :=
  { ch with loaded := Function.update ch.loaded i b }

def setFormat (ch : SlotTable P V C α) (i : Fin kMaxSlots) (f : SlotFormat) : SlotTable P V C α :=
  { ch with format := Function.update ch.format i f }

def slot (ch : SlotTable P V C α) (i : Fin kMaxSlots) : Slot P V C :=
  ⟨ch.format i, ch.loaded i, ch.bypass i, fun f => ch.pointer f i⟩

/-- `PluginChain::PluginChain`; `zero` is what the scratch buffers are filled with. -/
def initial (sampleRate : BitVec 64) (maxBlockSize : Int) (zero : α) : SlotTable P V C α :=
  { format := fun _ => .empty, slotsVst3 := fun _ => none, slotsVst2 := fun _ => none, slotsClap := fun _ => none,
    bypass := fun _ => false, loaded := fun _ => false, masterEnabled := false, maxBlockSize,
    scratchA := fun _ => zero, scratchB := fun _ => zero, sampleRate, paramChangedCb := none }

/-- The first half of `LoadSlot`, and all that `UnloadSlot` does: the flag first, then
the pointer that the format names, then the format. -/
def tearDown (ch : SlotTable P V C α) (i : Fin kMaxSlots) : SlotTable P V C α :=
  ((ch.setLoaded i false).setPointer (ch.format i) i none).setFormat i .empty

/-- The chain-level callback as slot `i` gets it. -/
def wrap (i : Fin kMaxSlots) (cb : Option C) : Option (Wrapped C) := cb.map fun c => ⟨i.val, c⟩

/-- `none` when `Load` crashes. -/
def loadSlot (l : Loader P) (ch : SlotTable P V C α) (slotIdx : Int) (path : Path) :
    Option (LoadResult × SlotTable P V C α) :=
  match slotIndex slotIdx with
  | none => some (.error ⟨6, text "invalid slot index"⟩, ch)
  | some i =>
    let ch := ch.tearDown i
    let fmt := detectFormat l.probeIsVst2 path
    if fmt = .empty then
      some (.error ⟨2, text "unrecognised plugin format (expected .vst3 / .so / .clap)"⟩, ch)
    else
      (SlotHost.fresh.load l fmt path ch.sampleRate ch.maxBlockSize).map fun (r, host) =>
        let ch := ch.setPointer fmt i (some host)
        match r with
        | .ok info =>
          let ch := (ch.setFormat i fmt).setLoaded i true
          match wrap i ch.paramChangedCb with
          | some w => (.ok info, ch.setPointer fmt i (some (host.setParamChangedCallback (some w))))
          | none => (.ok info, ch)
        | .error e => (.error e, ch.setPointer fmt i none)

/-- The loop body of `SetParamChangedCallback`. -/
def install (ch : SlotTable P V C α) (i : Fin kMaxSlots) : SlotTable P V C α :=
  match ch.pointer (ch.format i) i with
  | none => ch
  | some host => ch.setPointer (ch.format i) i (some (host.setParamChangedCallback (wrap i ch.paramChangedCb)))

def setParamChangedCallback (ch : SlotTable P V C α) (cb : Option C) : SlotTable P V C α :=
  (List.finRange kMaxSlots).foldl install { ch with paramChangedCb := cb }

def unloadSlot (ch : SlotTable P V C α) (slotIdx : Int) : Byte × SlotTable P V C α :=
  match slotIndex slotIdx with
  | none => (6, ch)
  | some i => (if ch.loaded i then 0 else 1, ch.tearDown i)

def setSlotBypass (ch : SlotTable P V C α) (slotIdx : Int) (bypass : Bool) : Byte × SlotTable P V C α :=
  match slotIndex slotIdx with
  | none => (6, ch)
  | some i => (0, { ch with bypass := Function.update ch.bypass i bypass })

def setChainEnabled (ch : SlotTable P V C α) (enabled : Bool) : SlotTable P V C α :=
  { ch with masterEnabled := enabled }

def isSlotLoaded (ch : SlotTable P V C α) (slotIdx : Int) : Bool :=
  match slotIndex slotIdx with
  | none => false
  | some i => ch.loaded i

/-- `create` is the view that a plugin without one offers. -/
def acquireEditorView (create : P → Option V) (ch : SlotTable P V C α) (slotIdx : Int) :
    Option V × SlotTable P V C α :=
  match slotIndex slotIdx with
  | none => (none, ch)
  | some i =>
    if !ch.loaded i then (none, ch)
    else match ch.pointer (ch.format i) i with
      | none => (none, ch)
      | some host =>
        let (view, host) := host.acquireEditorView create
        (view, ch.setPointer (ch.format i) i (some host))

def releaseEditorView (ch : SlotTable P V C α) (slotIdx : Int) : SlotTable P V C α :=
  match slotIndex slotIdx with
  | none => ch
  | some i => match ch.pointer (ch.format i) i with
    | none => ch
    | some host => ch.setPointer (ch.format i) i (some host.releaseEditorView)

/-- The VST2 and CLAP views are their own idle pumps. -/
def acquireEditorIdlePump (create : P → Option V) (ch : SlotTable P V C α) (slotIdx : Int) :
    Option V × SlotTable P V C α :=
  match slotIndex slotIdx with
  | none => (none, ch)
  | some i =>
    if !ch.loaded i then (none, ch)
    else match ch.format i with
      | .vst3 | .empty => (none, ch)
      | .vst2 | .clap => match ch.pointer (ch.format i) i with
        | none => (none, ch)
        | some host =>
          let (view, host) := host.acquireEditorView create
          (view, ch.setPointer (ch.format i) i (some host))

def listParams (params : P → List ParamInfo) (ch : SlotTable P V C α) (slotIdx : Int) : Byte × List ParamInfo :=
  match slotIndex slotIdx with
  | none => (6, [])
  | some i =>
    if !ch.loaded i then (1, [])
    else if ch.format i = .empty then (1, [])
    else
      let list := match ch.pointer (ch.format i) i with
        | none => []
        | some host => host.listParams params
      if list.isEmpty then (7, []) else (0, list)

/-- The status, `outActual` and the chain. -/
def setParam (set : P → BitVec 32 → BitVec 64 → BitVec 64 × P) (ch : SlotTable P V C α) (slotIdx : Int)
    (paramId : BitVec 32) (normalized : BitVec 64) : Byte × BitVec 64 × SlotTable P V C α :=
  match slotIndex slotIdx with
  | none => (6, quietNaN, ch)
  | some i =>
    if !ch.loaded i then (1, quietNaN, ch)
    else if ch.format i = .empty then (1, quietNaN, ch)
    else
      let (v, ch) := match ch.pointer (ch.format i) i with
        | none => (quietNaN, ch)
        | some host =>
          let (v, host) := host.setParam set paramId normalized
          (v, ch.setPointer (ch.format i) i (some host))
      if isNaN v then (7, quietNaN, ch) else (0, v, ch)

end SlotTable

/-- A plugin in a slot: its format, and the object that holds it. -/
structure Plugged (P V C : Type) where
  format : SlotFormat
  occupied : format ≠ .empty
  host : SlotHost P V C
  loaded : host.isLoaded = true

namespace Slot
variable {P V C : Type}

/-- The slot's fields stand for this plugin, or for none. -/
structure Shows (s : Slot P V C) (q : Option (Plugged P V C)) : Prop where
  format : s.format = q.elim .empty Plugged.format
  loaded : s.loaded = q.isSome
  pointer : ∀ f, s.pointer f = q.bind fun q => if f = q.format then some q.host else none

/-- The invariant of a slot in terms of its fields. -/
structure Ok (s : Slot P V C) : Prop where
  loaded_iff : s.loaded = true ↔ s.format ≠ .empty
  one_pointer : s.format ≠ .empty ↔ ∃! f, s.pointer f ≠ none
  named : s.format ≠ .empty → ∃ host, s.pointer s.format = some host ∧ host.isLoaded = true
  otherwise : s.format = .empty → ∀ f, s.pointer f = none

/-- A slot is in order just when there is a plugin, or none, that it stands for. -/
private theorem ok_iff (s : Slot P V C) : s.Ok ↔ ∃ q, s.Shows q := by
  constructor
  · intro h
    by_cases hf : s.format = .empty
    · refine ⟨none, hf, ?_, fun f => h.otherwise hf f⟩
      have hno : ¬ s.loaded = true := fun hl => h.loaded_iff.mp hl hf
      simpa using hno
    · obtain ⟨host, hhost, hloaded⟩ := h.named hf
      obtain ⟨g, -, honly⟩ := h.one_pointer.mp hf
      have hformat : s.format = g := honly _ (by simp [hhost])
      refine ⟨some ⟨s.format, hf, host, hloaded⟩, rfl, h.loaded_iff.mpr hf, fun f => ?_⟩
      by_cases hfg : f = s.format
      · simp [hfg, hhost]
      · have hnull : s.pointer f = none := by
          by_contra hne
          exact hfg ((honly f hne).trans hformat.symm)
        simp [hfg, hnull]
  · rintro ⟨q, h⟩
    have hf := h.format
    have hl := h.loaded
    have hp := h.pointer
    cases q with
    | none =>
      simp only [Option.elim_none, Option.isSome_none, Option.bind_none] at hf hl hp
      constructor
      · simp [hl, hf]
      · simp [hf, hp]
      · intro hne
        exact absurd hf hne
      · intro _ f
        exact hp f
    | some q =>
      simp only [Option.elim_some, Option.isSome_some, Option.bind_some] at hf hl hp
      have hocc : s.format ≠ .empty := by
        rw [hf]
        exact q.occupied
      refine ⟨⟨fun _ => hocc, fun _ => hl⟩, ⟨fun _ => ?_, fun _ => hocc⟩, fun _ => ?_, fun he => absurd he hocc⟩
      · refine ⟨q.format, by simp [hp], fun f hne => ?_⟩
        by_contra hfg
        exact hne (by simp [hp, hfg])
      · exact ⟨q.host, by simp [hp, hf], q.loaded⟩

/-- At most one plugin can be what a slot stands for. -/
theorem Shows.host {s : Slot P V C} {q : Option (Plugged P V C)} (h : s.Shows q) :
    s.pointer s.format = q.map Plugged.host := by
  rw [h.pointer, h.format]
  cases q <;> simp

end Slot

/-- An object that was called in its slot, still loaded. -/
def Plugged.withHost {P V C : Type} (q : Plugged P V C) (host : SlotHost P V C)
    (h : host.isLoaded = q.host.isLoaded) : Plugged P V C :=
  { q with host, loaded := h.trans q.loaded }

namespace SlotTable
variable {P V C α : Type} {ch : SlotTable P V C α} {i j : Fin kMaxSlots} {q : Option (Plugged P V C)}

theorem pointer_setPointer (ch : SlotTable P V C α) (f g : SlotFormat) (i : Fin kMaxSlots)
    (o : Option (SlotHost P V C)) (hf : f ≠ .empty) :
    (ch.setPointer f i o).pointer g i = if g = f then o else ch.pointer g i := by
  cases f <;> cases g <;> simp [setPointer, pointer] at hf ⊢

@[simp] theorem pointer_setLoaded (ch : SlotTable P V C α) (i j : Fin kMaxSlots) (b : Bool) (f : SlotFormat) :
    (ch.setLoaded i b).pointer f j = ch.pointer f j := by
  cases f <;> rfl

@[simp] theorem slot_setPointer_ne (ch : SlotTable P V C α) (f : SlotFormat) (o : Option (SlotHost P V C))
    (h : j ≠ i) : (ch.setPointer f i o).slot j = ch.slot j := by
  cases f with
  | empty => rfl
  | vst3 | vst2 | clap =>
    simp only [slot, setPointer, Slot.mk.injEq, true_and]
    funext g
    cases g <;> simp [pointer, h]

@[simp] theorem slot_setLoaded_ne (ch : SlotTable P V C α) (b : Bool) (h : j ≠ i) :
    (ch.setLoaded i b).slot j = ch.slot j := by
  simp only [slot, setLoaded, Function.update_of_ne h]
  rfl

@[simp] theorem slot_setFormat_ne (ch : SlotTable P V C α) (f : SlotFormat) (h : j ≠ i) :
    (ch.setFormat i f).slot j = ch.slot j := by
  simp only [slot, setFormat, Function.update_of_ne h]
  rfl

@[simp] theorem slot_setLoaded (ch : SlotTable P V C α) (i : Fin kMaxSlots) (b : Bool) :
    (ch.setLoaded i b).slot i = { ch.slot i with loaded := b } := by
  simp only [slot, setLoaded, Function.update_self]
  rfl

@[simp] theorem slot_setFormat (ch : SlotTable P V C α) (i : Fin kMaxSlots) (f : SlotFormat) :
    (ch.setFormat i f).slot i = { ch.slot i with format := f } := by
  simp only [slot, setFormat, Function.update_self]
  rfl

theorem slot_setPointer (ch : SlotTable P V C α) {f : SlotFormat} (i : Fin kMaxSlots)
    (o : Option (SlotHost P V C)) (hf : f ≠ .empty) : (ch.setPointer f i o).slot i =
      { ch.slot i with pointer := fun g => if g = f then o else ch.pointer g i } := by
  have hp : (fun g => (ch.setPointer f i o).pointer g i) = fun g => if g = f then o else ch.pointer g i := by
    funext g
    exact pointer_setPointer ch f g i o hf
  unfold slot
  rw [hp]
  cases f <;> first | exact absurd rfl hf | rfl

/-- Only slot `i`, if any, is touched, and no flag that has a setter of its own. -/
structure Keeps (i : Option (Fin kMaxSlots)) (ch ch' : SlotTable P V C α) : Prop where
  slots : ∀ j, i ≠ some j → ch'.slot j = ch.slot j
  bypass : ch'.bypass = ch.bypass
  masterEnabled : ch'.masterEnabled = ch.masterEnabled

theorem Keeps.refl (i : Option (Fin kMaxSlots)) (ch : SlotTable P V C α) : Keeps i ch ch :=
  ⟨fun _ _ => rfl, rfl, rfl⟩

theorem Keeps.trans {o : Option (Fin kMaxSlots)} {ch ch' ch'' : SlotTable P V C α} (h : Keeps o ch ch')
    (h' : Keeps o ch' ch'') : Keeps o ch ch'' :=
  ⟨fun j hj => (h'.slots j hj).trans (h.slots j hj), h'.bypass.trans h.bypass, h'.masterEnabled.trans h.masterEnabled⟩

theorem keeps_setPointer (ch : SlotTable P V C α) (f : SlotFormat) (i : Fin kMaxSlots)
    (o : Option (SlotHost P V C)) : Keeps (some i) ch (ch.setPointer f i o) := by
  refine ⟨fun j hj => slot_setPointer_ne ch f o fun h => hj (by rw [h]), ?_, ?_⟩
  · cases f <;> rfl
  · cases f <;> rfl

theorem keeps_setLoaded (ch : SlotTable P V C α) (i : Fin kMaxSlots) (b : Bool) :
    Keeps (some i) ch (ch.setLoaded i b) :=
  ⟨fun _ hj => slot_setLoaded_ne ch b fun h => hj (by rw [h]), rfl, rfl⟩

theorem keeps_setFormat (ch : SlotTable P V C α) (i : Fin kMaxSlots) (f : SlotFormat) :
    Keeps (some i) ch (ch.setFormat i f) :=
  ⟨fun _ hj => slot_setFormat_ne ch f fun h => hj (by rw [h]), rfl, rfl⟩

theorem keeps_tearDown (ch : SlotTable P V C α) (i : Fin kMaxSlots) : Keeps (some i) ch (ch.tearDown i) :=
  ((keeps_setLoaded ch i false).trans (keeps_setPointer _ _ i none)).trans (keeps_setFormat _ i .empty)

/-- Whatever stood in the slot, nothing does afterwards. -/
theorem shows_tearDown (h : (ch.slot i).Shows q) : ((ch.tearDown i).slot i).Shows none := by
  have hf : ch.format i = q.elim .empty Plugged.format := h.format
  have hp := h.pointer
  unfold tearDown
  rw [slot_setFormat]
  by_cases hempty : ch.format i = .empty
  · rw [hempty]
    refine ⟨rfl, by simp [setPointer], fun f => ?_⟩
    cases q with
    | none => exact hp f
    | some q => exact absurd (hf.symm.trans hempty) q.occupied
  · rw [slot_setPointer _ _ _ hempty]
    refine ⟨rfl, by simp, fun f => ?_⟩
    cases q with
    | none => exact absurd hf hempty
    | some q =>
      by_cases hfq : f = ch.format i
      · simp [hfq]
      · have hrest : ch.pointer f i = none := by
          rw [show ch.pointer f i = _ from hp f]
          exact if_neg fun he => hfq (he.trans hf.symm)
        simpa [hfq] using hrest

/-- A loaded object put into an empty slot, its format and its flag. -/
theorem shows_plugged {f : SlotFormat} {host : SlotHost P V C} (h : (ch.slot i).Shows none) (hf : f ≠ .empty)
    (hl : host.isLoaded = true) :
    ((((ch.setPointer f i (some host)).setFormat i f).setLoaded i true).slot i).Shows
      (some ⟨f, hf, host, hl⟩) := by
  rw [slot_setLoaded, slot_setFormat, slot_setPointer _ _ _ hf]
  refine ⟨rfl, rfl, fun g => ?_⟩
  have hp : ch.pointer g i = none := h.pointer g
  by_cases hg : g = f <;> simp [hg, hp]

/-- An object that is called stays in its slot. -/
theorem shows_called {q : Plugged P V C} {host : SlotHost P V C} (h : (ch.slot i).Shows (some q))
    (hl : host.isLoaded = q.host.isLoaded) :
    ((ch.setPointer q.format i (some host)).slot i).Shows (some (q.withHost host hl)) := by
  rw [slot_setPointer _ _ _ q.occupied]
  refine ⟨h.format, h.loaded, fun g => ?_⟩
  have hp : ch.pointer g i = _ := h.pointer g
  by_cases hg : g = q.format
  · simp [hg, Plugged.withHost]
  · simp [hg, hp, Plugged.withHost]

/-- A pointer that is set and cleared again leaves the slot as it was. -/
theorem shows_dropped {f : SlotFormat} {host : Option (SlotHost P V C)} (h : (ch.slot i).Shows none)
    (hf : f ≠ .empty) : (((ch.setPointer f i host).setPointer f i none).slot i).Shows none := by
  rw [slot_setPointer _ _ _ hf, slot_setPointer _ _ _ hf]
  refine ⟨h.format, h.loaded, fun g => ?_⟩
  have hp : ch.pointer g i = none := h.pointer g
  by_cases hg : g = f <;> simp [pointer_setPointer _ _ _ _ _ hf, hg, hp]

theorem cb_setPointer (ch : SlotTable P V C α) (f : SlotFormat) (i : Fin kMaxSlots) (o : Option (SlotHost P V C)) :
    (ch.setPointer f i o).paramChangedCb = ch.paramChangedCb := by
  cases f <;> rfl

theorem cb_tearDown (ch : SlotTable P V C α) (i : Fin kMaxSlots) :
    (ch.tearDown i).paramChangedCb = ch.paramChangedCb :=
  cb_setPointer (ch.setLoaded i false) (ch.format i) i none

/-- The torn-down slot with a new object, its format and its flag. -/
def plugged (ch : SlotTable P V C α) (i : Fin kMaxSlots) (f : SlotFormat) (host : SlotHost P V C) : SlotTable P V C α :=
  (((ch.tearDown i).setPointer f i (some host)).setFormat i f).setLoaded i true

theorem cb_plugged (ch : SlotTable P V C α) (i : Fin kMaxSlots) (f : SlotFormat) (host : SlotHost P V C) :
    (ch.plugged i f host).paramChangedCb = ch.paramChangedCb :=
  (cb_setPointer (ch.tearDown i) f i (some host)).trans (cb_tearDown ch i)

/-- All that `LoadSlot` can do to a slot of the table. -/
inductive SlotLoads (ch : SlotTable P V C α) (i : Fin kMaxSlots) : LoadResult → SlotTable P V C α → Prop
  | unrecognised (e : LoadError) : SlotLoads ch i (.error e) (ch.tearDown i)
  | failed {f : SlotFormat} (hf : f ≠ .empty) (host : SlotHost P V C) (e : LoadError) :
    SlotLoads ch i (.error e) (((ch.tearDown i).setPointer f i (some host)).setPointer f i none)
  | unwrapped {f : SlotFormat} {host : SlotHost P V C} (hf : f ≠ .empty) (hl : host.isLoaded = true)
    (hfresh : host.paramChangedCallback = none) (hw : wrap i ch.paramChangedCb = none) (info : LoadInfo) :
    SlotLoads ch i (.ok info) (ch.plugged i f host)
  | wrapped {f : SlotFormat} {host : SlotHost P V C} {w : Wrapped C} (hf : f ≠ .empty) (hl : host.isLoaded = true)
    (hw : wrap i ch.paramChangedCb = some w) (info : LoadInfo) :
    SlotLoads ch i (.ok info)
      ((ch.plugged i f host).setPointer f i (some (host.setParamChangedCallback (some w))))

theorem loadSlot_of_none {l : Loader P} {slotIdx : Int} {path : Path} (hi : slotIndex slotIdx = none) :
    ch.loadSlot l slotIdx path = some (.error ⟨6, text "invalid slot index"⟩, ch) := by
  rw [loadSlot, hi]

theorem slotLoads_of_loadSlot {l : Loader P} {slotIdx : Int} {path : Path} {r : LoadResult} {ch' : SlotTable P V C α}
    (hi : slotIndex slotIdx = some i) (hl : ch.loadSlot l slotIdx path = some (r, ch')) : SlotLoads ch i r ch' := by
  unfold loadSlot at hl
  rw [hi] at hl
  dsimp only at hl
  split at hl
  · cases hl
    exact .unrecognised _
  · rename_i hfmt
    obtain ⟨⟨r', host⟩, hload, heq⟩ := Option.map_eq_some_iff.mp hl
    have hloaded := SlotHost.isLoaded_load hload
    have hcb : (((((ch.tearDown i).setPointer (detectFormat l.probeIsVst2 path) i (some host)).setFormat i
        (detectFormat l.probeIsVst2 path)).setLoaded i true).paramChangedCb) = ch.paramChangedCb :=
      cb_plugged ch i (detectFormat l.probeIsVst2 path) host
    cases r' with
    | error e =>
      cases heq
      exact .failed hfmt host e
    | ok info =>
      dsimp only at heq
      rw [hcb] at heq
      split at heq
      · rename_i w hw
        cases heq
        exact .wrapped hfmt hloaded hw info
      · rename_i hw
        cases heq
        exact .unwrapped hfmt hloaded (SlotHost.callback_load hload) hw info

/-- `LoadSlot` on a slot in order: a plugin stands in it afterwards exactly on success. -/
private theorem loadSlot_shows {l : Loader P} {slotIdx : Int} {path : Path} {r : LoadResult} {ch' : SlotTable P V C α}
    (hi : slotIndex slotIdx = some i) (h : (ch.slot i).Shows q)
    (hl : ch.loadSlot l slotIdx path = some (r, ch')) :
    Keeps (some i) ch ch' ∧ ∃ q', (ch'.slot i).Shows q' ∧ q'.isSome = r.isOk := by
  have hdown := shows_tearDown h
  have hkeep := keeps_tearDown ch i
  have hplug : ∀ f host, Keeps (some i) ch (ch.plugged i f host) := fun f host =>
    ((hkeep.trans (keeps_setPointer _ f i (some host))).trans (keeps_setFormat _ i f)).trans (keeps_setLoaded _ i true)
  cases slotLoads_of_loadSlot hi hl with
  | unrecognised e => exact ⟨hkeep, none, hdown, rfl⟩
  | @failed f hf host e =>
    refine ⟨?_, none, shows_dropped hdown hf, rfl⟩
    exact (hkeep.trans (keeps_setPointer _ f i (some host))).trans (keeps_setPointer _ f i none)
  | @unwrapped f host hf hloaded hfresh hw info => exact ⟨hplug f host, _, shows_plugged hdown hf hloaded, rfl⟩
  | @wrapped f host w hf hloaded hw info =>
    exact ⟨(hplug f host).trans (keeps_setPointer _ f i _), _,
      shows_called (shows_plugged hdown hf hloaded) (by simp), rfl⟩

end SlotTable

/-- The slot with a parameter callback installed in the object that its format names. -/
def Slot.rewrap {P V C : Type} (s : Slot P V C) (w : Option (Wrapped C)) : Slot P V C :=
  { s with pointer := fun f =>
      if f = s.format then (s.pointer f).map (·.setParamChangedCallback w) else s.pointer f }

namespace SlotTable
variable {P V C α : Type} {ch : SlotTable P V C α} {i : Fin kMaxSlots} {q : Option (Plugged P V C)}

private theorem slot_install (ch : SlotTable P V C α) (i : Fin kMaxSlots) :
    (ch.install i).slot i = (ch.slot i).rewrap (wrap i ch.paramChangedCb) := by
  have hnone : ch.pointer (ch.format i) i = none → ch.slot i = (ch.slot i).rewrap (wrap i ch.paramChangedCb) := by
    intro hp
    have hsame : (fun f => ch.pointer f i) = fun f => if f = ch.format i then
        (ch.pointer f i).map (·.setParamChangedCallback (wrap i ch.paramChangedCb)) else ch.pointer f i := by
      funext f
      by_cases hf : f = ch.format i
      · simp [hf, hp]
      · simp [hf]
    exact congrArg (fun p => { ch.slot i with pointer := p }) hsame
  unfold install
  cases hp : ch.pointer (ch.format i) i with
  | none => exact hnone hp
  | some host =>
    have hf : ch.format i ≠ .empty := by
      intro he
      rw [he] at hp
      cases hp
    dsimp only
    rw [slot_setPointer _ _ _ hf]
    have hsame : (fun g => if g = ch.format i then
          some (host.setParamChangedCallback (wrap i ch.paramChangedCb)) else ch.pointer g i) =
        fun f => if f = ch.format i then
          (ch.pointer f i).map (·.setParamChangedCallback (wrap i ch.paramChangedCb)) else ch.pointer f i := by
      funext f
      by_cases hf : f = ch.format i
      · simp [hf, hp]
      · simp [hf]
    exact congrArg (fun p => { ch.slot i with pointer := p }) hsame

private theorem keeps_install (ch : SlotTable P V C α) (i : Fin kMaxSlots) : Keeps (some i) ch (ch.install i) := by
  unfold install
  split
  · exact Keeps.refl _ _
  · exact keeps_setPointer _ _ _ _

theorem paramChangedCb_install (ch : SlotTable P V C α) (i : Fin kMaxSlots) :
    (ch.install i).paramChangedCb = ch.paramChangedCb := by
  unfold install
  split
  · rfl
  · cases ch.format i <;> rfl

/-- The loop of `SetParamChangedCallback`, over slots that are visited once each. -/
private theorem foldl_install (is : List (Fin kMaxSlots)) (hnodup : is.Nodup) (ch : SlotTable P V C α) :
    (∀ j, (is.foldl install ch).slot j =
      if j ∈ is then (ch.slot j).rewrap (wrap j ch.paramChangedCb) else ch.slot j) ∧
    (is.foldl install ch).bypass = ch.bypass ∧ (is.foldl install ch).masterEnabled = ch.masterEnabled := by
  induction is generalizing ch with
  | nil => exact ⟨fun j => by simp, rfl, rfl⟩
  | cons i is ih =>
    obtain ⟨hi, hnodup⟩ := List.nodup_cons.mp hnodup
    obtain ⟨hslots, hbypass, hmaster⟩ := ih hnodup (ch.install i)
    have hkeep := keeps_install ch i
    refine ⟨fun j => ?_, hbypass.trans hkeep.bypass, hmaster.trans hkeep.masterEnabled⟩
    rw [List.foldl_cons, hslots, paramChangedCb_install]
    by_cases hj : j = i
    · subst hj
      rw [if_neg hi, if_pos List.mem_cons_self]
      exact slot_install ch j
    · rw [hkeep.slots j fun h => hj (Option.some.inj h).symm]
      simp [hj]

theorem setParamChangedCallback_slot (ch : SlotTable P V C α) (cb : Option C) (j : Fin kMaxSlots) :
    (ch.setParamChangedCallback cb).slot j = (ch.slot j).rewrap (wrap j cb) := by
  unfold setParamChangedCallback
  rw [(foldl_install _ (List.nodup_finRange _) _).1, if_pos (List.mem_finRange j)]
  rfl

theorem setParamChangedCallback_rest (ch : SlotTable P V C α) (cb : Option C) :
    (ch.setParamChangedCallback cb).bypass = ch.bypass ∧
      (ch.setParamChangedCallback cb).masterEnabled = ch.masterEnabled :=
  (foldl_install _ (List.nodup_finRange _) { ch with paramChangedCb := cb }).2

theorem shows_rewrap {s : Slot P V C} {q : Option (Plugged P V C)} (h : s.Shows q) (w : Option (Wrapped C)) :
    (s.rewrap w).Shows (q.map fun q => q.withHost (q.host.setParamChangedCallback w) rfl) := by
  have hf := h.format
  have hp := h.pointer
  refine ⟨?_, ?_, fun f => ?_⟩
  · rw [show (s.rewrap w).format = s.format from rfl, hf]
    cases q <;> rfl
  · rw [show (s.rewrap w).loaded = s.loaded from rfl, h.loaded]
    cases q <;> rfl
  · simp only [Slot.rewrap, hp, hf]
    cases q with
    | none => simp only [Option.bind_none, Option.map_none, ite_self]
    | some q => by_cases hfq : f = q.format <;> simp [hfq, Plugged.withHost]

/-- `UnloadSlot` on a slot in order. -/
theorem unloadSlot_shows {slotIdx : Int} (hi : slotIndex slotIdx = some i) (h : (ch.slot i).Shows q) :
    ((ch.unloadSlot slotIdx).2.slot i).Shows none ∧ Keeps (some i) ch (ch.unloadSlot slotIdx).2 := by
  unfold unloadSlot
  rw [hi]
  exact ⟨shows_tearDown h, keeps_tearDown ch i⟩

theorem acquireEditorView_keeps (create : P → Option V) (ch : SlotTable P V C α) (slotIdx : Int) :
    Keeps (slotIndex slotIdx) ch (ch.acquireEditorView create slotIdx).2 := by
  unfold acquireEditorView
  cases slotIndex slotIdx with
  | none => exact Keeps.refl _ _
  | some i =>
    dsimp only
    split
    · exact Keeps.refl _ _
    · split
      · exact Keeps.refl _ _
      · exact keeps_setPointer _ _ _ _

theorem releaseEditorView_keeps (ch : SlotTable P V C α) (slotIdx : Int) :
    Keeps (slotIndex slotIdx) ch (ch.releaseEditorView slotIdx) := by
  unfold releaseEditorView
  cases slotIndex slotIdx with
  | none => exact Keeps.refl _ _
  | some i =>
    dsimp only
    split
    · exact Keeps.refl _ _
    · exact keeps_setPointer _ _ _ _

/-- The object that a slot's format names, called with any effect that leaves it loaded. -/
private theorem shows_object {host host' : SlotHost P V C} (h : (ch.slot i).Shows q)
    (hp : ch.pointer (ch.format i) i = some host) (hl : host'.isLoaded = host.isLoaded) :
    ∃ q', ((ch.setPointer (ch.format i) i (some host')).slot i).Shows q' := by
  have hhost := h.host
  rw [show (ch.slot i).pointer (ch.slot i).format = ch.pointer (ch.format i) i from rfl, hp] at hhost
  obtain ⟨q, rfl, rfl⟩ := Option.map_eq_some_iff.mp hhost.symm
  rw [show ch.format i = q.format from h.format]
  exact ⟨_, shows_called h hl⟩

private theorem acquireEditorView_shows (create : P → Option V) {slotIdx : Int} (hi : slotIndex slotIdx = some i)
    (h : (ch.slot i).Shows q) : ∃ q', ((ch.acquireEditorView create slotIdx).2.slot i).Shows q' := by
  unfold acquireEditorView
  rw [hi]
  dsimp only
  split
  · exact ⟨q, h⟩
  · split
    · exact ⟨q, h⟩
    · exact shows_object h ‹_› (by simp)

private theorem releaseEditorView_shows {slotIdx : Int} (hi : slotIndex slotIdx = some i) (h : (ch.slot i).Shows q) :
    ∃ q', ((ch.releaseEditorView slotIdx).slot i).Shows q' := by
  unfold releaseEditorView
  rw [hi]
  dsimp only
  split
  · exact ⟨q, h⟩
  · exact shows_object h ‹_› (by simp)

end SlotTable

/-- The calls that change the table, with what the loader and the plugin answer. -/
inductive ControlCall (P V C : Type) where
  | loadSlot (l : Loader P) (slotIdx : Int) (path : Path)
  | unloadSlot (slotIdx : Int)
  | setSlotBypass (slotIdx : Int) (bypass : Bool)
  | setChainEnabled (enabled : Bool)
  | setParamChangedCallback (cb : Option C)
  | acquireEditorView (create : P → Option V) (slotIdx : Int)
  | releaseEditorView (slotIdx : Int)

/-- The slot that a call names. -/
def ControlCall.slot {P V C : Type} : ControlCall P V C → Option (Fin kMaxSlots)
  | .loadSlot _ slotIdx _ | .unloadSlot slotIdx | .setSlotBypass slotIdx _ | .acquireEditorView _ slotIdx
  | .releaseEditorView slotIdx => slotIndex slotIdx
  | .setChainEnabled _ | .setParamChangedCallback _ => none

def Slot.withBypass {P V C : Type} (s : Slot P V C) (b : Bool) : Slot P V C := { s with bypass := b }

namespace SlotTable
variable {P V C α : Type}

/-- One call; there is no table after a crash. -/
def step (ch : SlotTable P V C α) : ControlCall P V C → Option (SlotTable P V C α)
  | .loadSlot l slotIdx path => (ch.loadSlot l slotIdx path).map Prod.snd
  | .unloadSlot slotIdx => some (ch.unloadSlot slotIdx).2
  | .setSlotBypass slotIdx bypass => some (ch.setSlotBypass slotIdx bypass).2
  | .setChainEnabled enabled => some (ch.setChainEnabled enabled)
  | .setParamChangedCallback cb => some (ch.setParamChangedCallback cb)
  | .acquireEditorView create slotIdx => some (ch.acquireEditorView create slotIdx).2
  | .releaseEditorView slotIdx => some (ch.releaseEditorView slotIdx)

/-- What a call leaves alone. Installing a callback names no slot: it reaches the
object of every loaded one, and nothing else in it. -/
structure Framed (c : ControlCall P V C) (ch ch' : SlotTable P V C α) : Prop where
  slots : (∀ cb, c ≠ .setParamChangedCallback cb) → ∀ j, c.slot ≠ some j → ch'.slot j = ch.slot j
  callback : ∀ cb, c = .setParamChangedCallback cb → ∀ j, ch'.slot j = (ch.slot j).rewrap (wrap j cb)
  bypass : (∀ slotIdx b, c ≠ .setSlotBypass slotIdx b) → ch'.bypass = ch.bypass
  bypassOnly : ∀ slotIdx b, c = .setSlotBypass slotIdx b → ∀ j,
    ch'.slot j = (ch.slot j).withBypass ((ch'.slot j).bypass)
  masterEnabled : (∀ b, c ≠ .setChainEnabled b) → ch'.masterEnabled = ch.masterEnabled

private theorem Keeps.framed {c : ControlCall P V C} {ch ch' : SlotTable P V C α} (h : Keeps c.slot ch ch')
    (hcb : ∀ cb, c ≠ .setParamChangedCallback cb) (hby : ∀ slotIdx b, c ≠ .setSlotBypass slotIdx b) :
    Framed c ch ch' :=
  ⟨fun _ j hj => h.slots j hj, fun cb he => absurd he (hcb cb), fun _ => h.bypass,
    fun slotIdx b he => absurd he (hby slotIdx b), fun _ => h.masterEnabled⟩

/-- Every slot stands for one plugin or for none. -/
def Inv (ch : SlotTable P V C α) : Prop := ∀ i, ∃ q, (ch.slot i).Shows q

/-- A call that changes no slot but one keeps the invariant if that one is in order. -/
theorem Keeps.inv {o : Option (Fin kMaxSlots)} {ch ch' : SlotTable P V C α} (h : Keeps o ch ch') (hi : ch.Inv)
    (hshows : ∀ i, o = some i → ∃ q, (ch'.slot i).Shows q) : ch'.Inv := by
  intro j
  by_cases hj : o = some j
  · exact hshows j hj
  · rw [h.slots j hj]
    exact hi j

theorem loadSlot_keeps {ch ch' : SlotTable P V C α} {l : Loader P} {slotIdx : Int} {path : Path} {r : LoadResult}
    (hinv : ch.Inv) (hl : ch.loadSlot l slotIdx path = some (r, ch')) : Keeps (slotIndex slotIdx) ch ch' := by
  cases hi : slotIndex slotIdx with
  | none =>
    rw [loadSlot_of_none hi] at hl
    cases hl
    exact Keeps.refl _ _
  | some i =>
    obtain ⟨q, hq⟩ := hinv i
    exact (loadSlot_shows hi hq hl).1

theorem unloadSlot_keeps {ch : SlotTable P V C α} (slotIdx : Int) :
    Keeps (slotIndex slotIdx) ch (ch.unloadSlot slotIdx).2 := by
  unfold unloadSlot
  cases slotIndex slotIdx with
  | none => exact Keeps.refl _ _
  | some i => exact keeps_tearDown ch i

theorem setSlotBypass_slot (ch : SlotTable P V C α) (slotIdx : Int) (b : Bool) (j : Fin kMaxSlots) :
    (ch.setSlotBypass slotIdx b).2.slot j =
      (ch.slot j).withBypass (if slotIndex slotIdx = some j then b else ch.bypass j) := by
  unfold setSlotBypass
  cases slotIndex slotIdx with
  | none => rfl
  | some i =>
    by_cases hj : i = j
    · subst hj
      simp only [slot, Function.update_self, if_true]
      rfl
    · simp only [slot, Function.update_of_ne (Ne.symm hj), Option.some.injEq, hj, if_false]
      rfl

theorem inv_step {ch ch' : SlotTable P V C α} {c : ControlCall P V C} (h : ch.Inv) (hs : ch.step c = some ch') :
    ch'.Inv ∧ Framed c ch ch' := by
  cases c with
  | loadSlot l slotIdx path =>
    obtain ⟨⟨r, _⟩, hl, rfl⟩ := Option.map_eq_some_iff.mp hs
    have hk : Keeps (ControlCall.loadSlot l slotIdx path : ControlCall P V C).slot ch _ := loadSlot_keeps h hl
    refine ⟨hk.inv h fun i hi => ?_, Keeps.framed hk (by simp) (by simp)⟩
    obtain ⟨q, hq⟩ := h i
    obtain ⟨-, q', hq', -⟩ := loadSlot_shows hi hq hl
    exact ⟨q', hq'⟩
  | unloadSlot slotIdx =>
    cases hs
    have hk : Keeps (ControlCall.unloadSlot slotIdx : ControlCall P V C).slot ch _ := unloadSlot_keeps slotIdx
    refine ⟨hk.inv h fun i hi => ?_, Keeps.framed hk (by simp) (by simp)⟩
    obtain ⟨q, hq⟩ := h i
    exact ⟨none, (unloadSlot_shows hi hq).1⟩
  | setSlotBypass slotIdx b =>
    cases hs
    have hslot := setSlotBypass_slot ch slotIdx b
    refine ⟨fun j => ?_, fun _ j hj => ?_, by simp, by simp, fun slotIdx' b' he j => ?_, fun _ => ?_⟩
    · obtain ⟨q, hq⟩ := h j
      rw [hslot]
      exact ⟨q, hq.format, hq.loaded, hq.pointer⟩
    · rw [hslot, if_neg (show slotIndex slotIdx ≠ some j from hj)]
      rfl
    · rw [hslot]
      rfl
    · unfold setSlotBypass
      split <;> rfl
  | setChainEnabled b =>
    cases hs
    exact ⟨h, fun _ _ _ => rfl, by simp, fun _ => rfl, by simp, fun hne => absurd rfl (hne b)⟩
  | setParamChangedCallback cb =>
    cases hs
    have hslot := setParamChangedCallback_slot ch cb
    obtain ⟨hbypass, hmaster⟩ := setParamChangedCallback_rest ch cb
    refine ⟨fun j => ?_, fun hne => absurd rfl (hne cb), fun cb' he j => ?_, fun _ => hbypass, by simp, fun _ => hmaster⟩
    · obtain ⟨q, hq⟩ := h j
      rw [hslot]
      exact ⟨_, shows_rewrap hq _⟩
    · cases he
      exact hslot j
  | acquireEditorView create slotIdx =>
    cases hs
    have hk : Keeps (ControlCall.acquireEditorView create slotIdx : ControlCall P V C).slot ch _ :=
      acquireEditorView_keeps create ch slotIdx
    refine ⟨hk.inv h fun i hi => ?_, Keeps.framed hk (by simp) (by simp)⟩
    obtain ⟨q, hq⟩ := h i
    exact acquireEditorView_shows create hi hq
  | releaseEditorView slotIdx =>
    cases hs
    have hk : Keeps (ControlCall.releaseEditorView slotIdx : ControlCall P V C).slot ch _ :=
      releaseEditorView_keeps ch slotIdx
    refine ⟨hk.inv h fun i hi => ?_, Keeps.framed hk (by simp) (by simp)⟩
    obtain ⟨q, hq⟩ := h i
    exact releaseEditorView_shows hi hq

theorem inv_initial (sampleRate : BitVec 64) (maxBlockSize : Int) (zero : α) :
    (initial sampleRate maxBlockSize zero : SlotTable P V C α).Inv := by
  intro i
  refine ⟨none, rfl, rfl, fun f => ?_⟩
  cases f <;> rfl

/-- After every sequence of control calls each slot is in order; each further call
leaves alone what it does not name, a load that fails leaves its slot empty, and an
unload reports 0 exactly for a loaded slot. -/
theorem slot_table_invariant (sampleRate : BitVec 64) (maxBlockSize : Int) (zero : α)
    (calls : List (ControlCall P V C)) (ch : SlotTable P V C α)
    (he : exec step (initial sampleRate maxBlockSize zero) calls = some ch) :
    (∀ i, (ch.slot i).Ok) ∧
    (∀ c ch', ch.step c = some ch' → (∀ i, (ch'.slot i).Ok) ∧ Framed c ch ch') ∧
    (∀ l slotIdx path e ch' i, ch.loadSlot l slotIdx path = some (.error e, ch') → slotIndex slotIdx = some i →
      (ch'.slot i).format = .empty ∧ (ch'.slot i).loaded = false ∧ ∀ f, (ch'.slot i).pointer f = none) ∧
    (∀ slotIdx, (ch.unloadSlot slotIdx).1 = 0 ↔ ch.isSlotLoaded slotIdx = true) := by
  have hinv : ch.Inv := invariant_of_step Inv (fun h hs => (inv_step h hs).1)
    (inv_initial sampleRate maxBlockSize zero) he
  refine ⟨fun i => (Slot.ok_iff _).mpr (hinv i), fun c ch' hs => ?_, fun l slotIdx path e ch' i hl hi => ?_,
    fun slotIdx => ?_⟩
  · obtain ⟨hinv', hframed⟩ := inv_step hinv hs
    exact ⟨fun i => (Slot.ok_iff _).mpr (hinv' i), hframed⟩
  · obtain ⟨q, hq⟩ := hinv i
    obtain ⟨-, q', hq', hok⟩ := loadSlot_shows hi hq hl
    cases q' with
    | none => exact ⟨hq'.format, hq'.loaded, hq'.pointer⟩
    | some q' => cases hok
  · unfold unloadSlot isSlotLoaded
    cases slotIndex slotIdx with
    | none => simp
    | some i => cases h : ch.loaded i <;> simp [h]

/-- A VST3 plugin is loaded into slot 3; then a CLAP file without an entry is loaded
over it, and leaves the slot empty. -/
theorem slot_table_invariant_reload :
    ∃ (l : Loader Unit) (ch ch' : SlotTable Unit Unit Unit Unit) (e : LoadError),
      ch.isSlotLoaded 3 = true ∧ ch.loadSlot l 3 (text "a.clap") = some (.error e, ch') ∧
      (ch'.slot 3).format = .empty ∧ (ch.unloadSlot 3).1 = 0 := by
  let l : Loader Unit :=
    { probeIsVst2 := fun _ => false, vst3 := fun _ _ _ => .activated () ⟨[], [], []⟩,
      vst2 := fun _ _ _ => .noEntry, clap := fun _ _ _ => .noEntry }
  let calls : List (ControlCall Unit Unit Unit) :=
    [.setParamChangedCallback (some ()), .loadSlot l 3 (text "a.vst3"), .setSlotBypass 3 true]
  obtain ⟨ch, hch, hview⟩ := Option.map_eq_some_iff.mp
    (show (exec step (initial 0 256 ()) calls).map (fun ch => (ch.isSlotLoaded 3,
      (ch.loadSlot l 3 (text "a.clap")).map fun r => r.1.isOk)) = some (true, some false) by decide +kernel)
  simp only [Prod.mk.injEq] at hview
  obtain ⟨hloaded, hfails⟩ := hview
  obtain ⟨⟨r, ch'⟩, hload, hr⟩ := Option.map_eq_some_iff.mp hfails
  cases r with
  | ok info => cases hr
  | error e =>
    obtain ⟨-, -, hfailed, hunload⟩ := slot_table_invariant 0 256 () calls ch hch
    exact ⟨l, ch, ch', e, hloaded, hload, (hfailed l 3 _ e ch' 3 hload rfl).1, (hunload 3).mpr hloaded⟩

end SlotTable
end Plughost.Vst3
