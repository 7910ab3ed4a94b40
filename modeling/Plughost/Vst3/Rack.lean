import Plughost.Lib.Simulation
import Plughost.Vst3.SlotTable

/-! What the chain is for: a rack of eight slots, each with one mounted plugin or none.
The table of formats, flags and pointers answers every call as the rack does. -/
namespace Plughost.Vst3
open Plughost.Runs Plughost.Pipeline Plughost.Simulation Plughost.Ipc.ControlPipe

/-- A plugin in the rack, and its editor view while there is one. -/
structure Mounted (P V : Type) where
  format : SlotFormat
  occupied : format ≠ .empty
  plugin : P
  view : Option V

structure Rack (P V C : Type) where
  slots : Fin kMaxSlots → Option (Mounted P V)
  bypass : Fin kMaxSlots → Bool
  enabled : Bool
  callback : Option C

/-- A call into the chain, with what the loader and the plugins answer to it. -/
inductive ChainCall (P V C α : Type) where
  | control (c : ControlCall P V C)
  | isSlotLoaded (slotIdx : Int)
  | acquireEditorIdlePump (create : P → Option V) (slotIdx : Int)
  | listParams (params : P → List ParamInfo) (slotIdx : Int)
  | setParam (set : P → BitVec 32 → BitVec 64 → BitVec 64 × P) (slotIdx : Int) (paramId : BitVec 32)
    (normalized : BitVec 64)
  | process (proc : SlotFormat → Processor P α) (input out : Buffer α) (frames : Int)

/-- What a call returns, or leaves in `out`. -/
inductive ChainAnswer (V α : Type) where
  | done
  | loaded (r : LoadResult)
  | status (st : Byte)
  | flag (b : Bool)
  | view (v : Option V)
  | params (st : Byte) (list : List ParamInfo)
  | value (st : Byte) (actual : BitVec 64)
  | samples (out : Buffer α)

/-- `Process` of the object around a plugin: it fails while none is active. -/
def Processor.hosted {P α : Type} (V C : Type) (proc : Processor P α) : Processor (SlotHost P V C) α where
  process h x := match h.active with
    | none => (none, h)
    | some p => ((proc.process p x).1, { h with active := some (proc.process p x).2 })
  leaves h x dst := match h.active with
    | none => dst
    | some p => proc.leaves p x dst
  full h x y hy := by
    cases hp : h.active with
    | none => simp [hp] at hy
    | some p => exact proc.full p x y (by simpa [hp] using hy)

namespace SlotTable
variable {P V C α : Type}

/-- The table with the chain's arrays new. -/
def withChain (ch : SlotTable P V C α) (c : PluginChain (SlotHost P V C) α) : SlotTable P V C α :=
  { ch with toPluginChain := c }

/-- `out` and the table after a block. -/
def processed (ch : SlotTable P V C α) (proc : SlotFormat → Processor P α) (input out : Buffer α) (frames : Int) :
    Buffer α × SlotTable P V C α :=
  let r := ch.toPluginChain.process (fun f => (proc f).hosted V C) input out frames
  (r.out, ch.withChain r.chain)

/-- The table under a call; there is none after a crash. -/
def call (ch : SlotTable P V C α) :
    ChainCall P V C α → Option (ChainAnswer V α × SlotTable P V C α)
  | .control (.loadSlot l slotIdx path) => (ch.loadSlot l slotIdx path).map fun p => (.loaded p.1, p.2)
  | .control (.unloadSlot slotIdx) => some (.status (ch.unloadSlot slotIdx).1, (ch.unloadSlot slotIdx).2)
  | .control (.setSlotBypass slotIdx b) =>
    some (.status (ch.setSlotBypass slotIdx b).1, (ch.setSlotBypass slotIdx b).2)
  | .control (.setChainEnabled b) => some (.done, ch.setChainEnabled b)
  | .control (.setParamChangedCallback cb) => some (.done, ch.setParamChangedCallback cb)
  | .control (.acquireEditorView create slotIdx) =>
    some (.view (ch.acquireEditorView create slotIdx).1, (ch.acquireEditorView create slotIdx).2)
  | .control (.releaseEditorView slotIdx) => some (.done, ch.releaseEditorView slotIdx)
  | .isSlotLoaded slotIdx => some (.flag (ch.isSlotLoaded slotIdx), ch)
  | .acquireEditorIdlePump create slotIdx =>
    some (.view (ch.acquireEditorIdlePump create slotIdx).1, (ch.acquireEditorIdlePump create slotIdx).2)
  | .listParams params slotIdx =>
    some (.params (ch.listParams params slotIdx).1 (ch.listParams params slotIdx).2, ch)
  | .setParam set slotIdx paramId normalized =>
    some (.value (ch.setParam set slotIdx paramId normalized).1 (ch.setParam set slotIdx paramId normalized).2.1,
      (ch.setParam set slotIdx paramId normalized).2.2)
  | .process proc input out frames =>
    some (.samples (ch.processed proc input out frames).1, (ch.processed proc input out frames).2)

end SlotTable

/-- What is behind a path: nothing that loads, or a plugin ready to be mounted. -/
def Loader.find {P : Type} (V C : Type) (l : Loader P) (path : Path) (sampleRate : BitVec 64) (maxBlockSize : Int) :
    Option (Except LoadError (LoadInfo × Mounted P V)) :=
  if h : detectFormat l.probeIsVst2 path = .empty then
    some (.error ⟨2, text "unrecognised plugin format (expected .vst3 / .so / .clap)"⟩)
  else
    match (SlotHost.fresh : SlotHost P V C).load l (detectFormat l.probeIsVst2 path) path sampleRate maxBlockSize with
    | none => none
    | some (.error e, _) => some (.error e)
    | some (.ok info, host) => host.active.map fun plugin => .ok (info, ⟨_, h, plugin, none⟩)

section Activated
variable {P V C : Type} {l : Loader P} {h : SlotHost P V C} {path : Path} {sampleRate : BitVec 64} {maxBlockSize : Int}
  {info : LoadInfo}

/-- `Load` takes in what the format's loader has activated. -/
private theorem SlotHost.activated_of_load {fmt : SlotFormat} {host : SlotHost P V C}
    (hl : h.load l fmt path sampleRate maxBlockSize = some (.ok info, host)) :
    ∃ plugin, host.active = some plugin ∧ (l.vst3 path sampleRate maxBlockSize = .activated plugin info ∨
      l.vst2 path sampleRate maxBlockSize = .activated plugin info ∨
      l.clap path sampleRate maxBlockSize = .activated plugin info) := by
  unfold SlotHost.load at hl
  cases fmt with
  | empty => cases hl
  | vst3 =>
    cases hm : l.vst3 path sampleRate maxBlockSize <;> simp only [hm, SlotHost.loadVst3] at hl
    case notCreated errorString opens => split at hl <;> cases hl
    case activated plugin found =>
      cases hl
      exact ⟨plugin, rfl, .inl rfl⟩
    all_goals cases hl
  | vst2 =>
    cases hm : l.vst2 path sampleRate maxBlockSize <;> simp only [hm, SlotHost.loadVst2] at hl
    case notOpened opens pending =>
      split at hl
      · obtain ⟨_, -, heq⟩ := Option.map_eq_some_iff.mp hl
        cases heq
      · cases hl
    case activated plugin found =>
      cases hl
      exact ⟨plugin, rfl, .inr (.inl rfl)⟩
    all_goals cases hl
  | clap =>
    cases hm : l.clap path sampleRate maxBlockSize <;> simp only [hm, SlotHost.loadClap] at hl
    case notOpened pending =>
      obtain ⟨_, -, heq⟩ := Option.map_eq_some_iff.mp hl
      cases heq
    case activated plugin found =>
      cases hl
      exact ⟨plugin, rfl, .inr (.inr rfl)⟩
    all_goals cases hl

theorem Loader.activated_of_find {m : Mounted P V}
    (h : l.find V C path sampleRate maxBlockSize = some (.ok (info, m))) :
    l.vst3 path sampleRate maxBlockSize = .activated m.plugin info ∨
    l.vst2 path sampleRate maxBlockSize = .activated m.plugin info ∨
    l.clap path sampleRate maxBlockSize = .activated m.plugin info := by
  unfold Loader.find at h
  split at h
  · cases h
  · split at h
    · cases h
    · cases h
    · rename_i found host hl
      obtain ⟨plugin, hactive, hfound⟩ := SlotHost.activated_of_load hl
      rw [hactive] at h
      cases h
      exact hfound

end Activated

namespace Rack
variable {P V C α : Type} (rk : Rack P V C)

def initial : Rack P V C := ⟨fun _ => none, fun _ => false, false, none⟩

def put (i : Fin kMaxSlots) (m : Option (Mounted P V)) : Rack P V C :=
  { rk with slots := Function.update rk.slots i m }

@[simp] theorem slots_put_self (i : Fin kMaxSlots) (m : Option (Mounted P V)) : (rk.put i m).slots i = m :=
  Function.update_self ..

@[simp] theorem slots_put_ne {i j : Fin kMaxSlots} (h : j ≠ i) (m : Option (Mounted P V)) :
    (rk.put i m).slots j = rk.slots j := Function.update_of_ne h ..

@[simp] theorem callback_put (i : Fin kMaxSlots) (m : Option (Mounted P V)) : (rk.put i m).callback = rk.callback := rfl

/-- What stands at a place that a call names. -/
def at? (slotIdx : Int) : Option (Fin kMaxSlots × Mounted P V) :=
  (slotIndex slotIdx).bind fun i => (rk.slots i).map (i, ·)

/-- The status of a call that needs a plugin in the slot and finds none. -/
def absent (slotIdx : Int) : Byte := if slotIndex slotIdx = none then 6 else 1

/-- In a chain of this sample rate and block size. -/
def loadSlot (sampleRate : BitVec 64) (maxBlockSize : Int) (l : Loader P) (rk : Rack P V C) (slotIdx : Int)
    (path : Path) : Option (LoadResult × Rack P V C) :=
  match slotIndex slotIdx with
  | none => some (.error ⟨6, text "invalid slot index"⟩, rk)
  | some i => (l.find V C path sampleRate maxBlockSize).map fun
    | .error e => (.error e, rk.put i none)
    | .ok (info, m) => (.ok info, rk.put i (some m))

def unloadSlot (slotIdx : Int) : Byte × Rack P V C :=
  match slotIndex slotIdx with
  | none => (6, rk)
  | some i => (if (rk.slots i).isSome then 0 else 1, rk.put i none)

def setSlotBypass (slotIdx : Int) (b : Bool) : Byte × Rack P V C :=
  match slotIndex slotIdx with
  | none => (6, rk)
  | some i => (0, { rk with bypass := Function.update rk.bypass i b })

def setChainEnabled (b : Bool) : Rack P V C := { rk with enabled := b }

def setParamChangedCallback (cb : Option C) : Rack P V C := { rk with callback := cb }

def isSlotLoaded (slotIdx : Int) : Bool := (rk.at? slotIdx).isSome

def view (create : P → Option V) (i : Fin kMaxSlots) (m : Mounted P V) : Option V × Rack P V C :=
  match m.view with
  | some v => (some v, rk)
  | none => match create m.plugin with
    | none => (none, rk)
    | some v => (some v, rk.put i (some { m with view := some v }))

def acquireEditorView (create : P → Option V) (rk : Rack P V C) (slotIdx : Int) : Option V × Rack P V C :=
  match rk.at? slotIdx with
  | none => (none, rk)
  | some (i, m) => rk.view create i m

def releaseEditorView (slotIdx : Int) : Rack P V C :=
  match rk.at? slotIdx with
  | none => rk
  | some (i, m) => rk.put i (some { m with view := none })

def acquireEditorIdlePump (create : P → Option V) (rk : Rack P V C) (slotIdx : Int) : Option V × Rack P V C :=
  match rk.at? slotIdx with
  | none => (none, rk)
  | some (i, m) => if m.format = .vst3 then (none, rk) else rk.view create i m

def listParams (params : P → List ParamInfo) (rk : Rack P V C) (slotIdx : Int) : Byte × List ParamInfo :=
  match rk.at? slotIdx with
  | none => (absent slotIdx, [])
  | some (_, m) => if (params m.plugin).isEmpty then (7, []) else (0, params m.plugin)

/-- No list comes with a failure. -/
theorem listParams_failed (params : P → List ParamInfo) (rk : Rack P V C) (slotIdx : Int)
    (h : (rk.listParams params slotIdx).1 ≠ 0) : (rk.listParams params slotIdx).2 = [] := by
  unfold listParams at h ⊢
  split
  · rfl
  · split
    · rfl
    · rename_i hat hlist
      simp [hat, hlist] at h

def setParam (set : P → BitVec 32 → BitVec 64 → BitVec 64 × P) (rk : Rack P V C) (slotIdx : Int)
    (paramId : BitVec 32) (normalized : BitVec 64) : Byte × BitVec 64 × Rack P V C :=
  match rk.at? slotIdx with
  | none => (absent slotIdx, quietNaN, rk)
  | some (i, m) =>
    let rk := rk.put i (some { m with plugin := (set m.plugin paramId normalized).2 })
    if isNaN (set m.plugin paramId normalized).1 then (7, quietNaN, rk)
    else (0, (set m.plugin paramId normalized).1, rk)

/-- What a place of the rack makes of samples: nothing while it is empty or bypassed. -/
def played (proc : SlotFormat → Processor P α) (i : Fin kMaxSlots) (rk : Rack P V C) (x : List α) :
    Option (List α) × Rack P V C :=
  match rk.slots i with
  | none => (none, rk)
  | some m =>
    if rk.bypass i then (none, rk)
    else (((proc m.format).process m.plugin x).1,
      rk.put i (some { m with plugin := ((proc m.format).process m.plugin x).2 }))

/-- A block through the rack. -/
def play (proc : SlotFormat → Processor P α) (x : List α) : Rack P V C × List α :=
  if rk.enabled then through (played proc) (List.finRange kMaxSlots) (rk, x) else (rk, x)

/-- A block keeps its length. -/
theorem length_play (proc : SlotFormat → Processor P α) (x : List α) : (rk.play proc x).2.length = x.length := by
  unfold play
  split
  · refine through_keeps (P := fun p : Rack P V C × List α => p.2.length = x.length) (fun i p hp => ?_) _ rfl
    obtain ⟨now, y⟩ := p
    unfold stage played
    dsimp only at hp ⊢
    cases now.slots i with
    | none => exact hp
    | some m =>
      dsimp only
      split
      · exact hp
      · dsimp only
        cases hy : ((proc m.format).process m.plugin y).1 with
        | none => exact hp
        | some z => exact ((proc m.format).full m.plugin y z hy).trans hp
  · rfl

/-- What a block leaves in `out`. -/
def process (proc : SlotFormat → Processor P α) (maxBlockSize : Int) (input out : Buffer α) (frames : Int) :
    Buffer α × Rack P V C :=
  if frames ≤ 0 then (out, rk)
  else
    let (rk, y) := rk.play proc (window (min frames maxBlockSize).toNat input)
    (fun i => y[i]?.getD (out i), rk)

/-- The rack under a call. -/
def call (sampleRate : BitVec 64) (maxBlockSize : Int) :
    ChainCall P V C α → Option (ChainAnswer V α × Rack P V C)
  | .control (.loadSlot l slotIdx path) =>
    (rk.loadSlot sampleRate maxBlockSize l slotIdx path).map fun p => (.loaded p.1, p.2)
  | .control (.unloadSlot slotIdx) => some (.status (rk.unloadSlot slotIdx).1, (rk.unloadSlot slotIdx).2)
  | .control (.setSlotBypass slotIdx b) =>
    some (.status (rk.setSlotBypass slotIdx b).1, (rk.setSlotBypass slotIdx b).2)
  | .control (.setChainEnabled b) => some (.done, rk.setChainEnabled b)
  | .control (.setParamChangedCallback cb) => some (.done, rk.setParamChangedCallback cb)
  | .control (.acquireEditorView create slotIdx) =>
    some (.view (rk.acquireEditorView create slotIdx).1, (rk.acquireEditorView create slotIdx).2)
  | .control (.releaseEditorView slotIdx) => some (.done, rk.releaseEditorView slotIdx)
  | .isSlotLoaded slotIdx => some (.flag (rk.isSlotLoaded slotIdx), rk)
  | .acquireEditorIdlePump create slotIdx =>
    some (.view (rk.acquireEditorIdlePump create slotIdx).1, (rk.acquireEditorIdlePump create slotIdx).2)
  | .listParams params slotIdx =>
    some (.params (rk.listParams params slotIdx).1 (rk.listParams params slotIdx).2, rk)
  | .setParam set slotIdx paramId normalized =>
    some (.value (rk.setParam set slotIdx paramId normalized).1 (rk.setParam set slotIdx paramId normalized).2.1,
      (rk.setParam set slotIdx paramId normalized).2.2)
  | .process proc input out frames =>
    some (.samples (rk.process proc maxBlockSize input out frames).1,
      (rk.process proc maxBlockSize input out frames).2)

/-- Every plugin in the rack has a property. -/
def All (R : P → Prop) (rk : Rack P V C) : Prop := ∀ i m, rk.slots i = some m → R m.plugin

/-- A call that mounts only plugins with a property and, where it changes one, keeps it. -/
def Respects (R : P → Prop) (sampleRate : BitVec 64) (maxBlockSize : Int) : ChainCall P V C α → Prop
  | .control (.loadSlot l _ path) =>
    ∀ info m, l.find V C path sampleRate maxBlockSize = some (.ok (info, m)) → R m.plugin
  | .setParam set _ paramId normalized => ∀ p, R p → R (set p paramId normalized).2
  | .process proc _ _ _ => ∀ f p x, R p → R ((proc f).process p x).2
  | _ => True

section All
variable {rk : Rack P V C} {R : P → Prop} {i : Fin kMaxSlots}

theorem All.put (h : rk.All R) {m : Option (Mounted P V)} (hm : ∀ m', m = some m' → R m'.plugin) :
    (rk.put i m).All R := by
  intro j m' hj
  by_cases hij : j = i
  · subst hij
    rw [slots_put_self] at hj
    exact hm m' hj
  · rw [slots_put_ne rk hij] at hj
    exact h j m' hj

private theorem All.at? (h : rk.All R) {slotIdx : Int} {m : Mounted P V} (hat : rk.at? slotIdx = some (i, m)) :
    R m.plugin := by
  obtain ⟨j, -, hj⟩ := Option.bind_eq_some_iff.mp hat
  obtain ⟨m', hm', heq⟩ := Option.map_eq_some_iff.mp hj
  cases heq
  exact h _ _ hm'

theorem All.view (h : rk.All R) (create : P → Option V) {m : Mounted P V} (hm : R m.plugin) :
    (rk.view create i m).2.All R := by
  unfold Rack.view
  split
  · exact h
  · split
    · exact h
    · exact h.put fun m' heq => by cases heq; exact hm

theorem All.played (h : rk.All R) {proc : SlotFormat → Processor P α}
    (hproc : ∀ f p x, R p → R ((proc f).process p x).2) (x : List α) :
    ((played proc i rk x).2).All R := by
  unfold Rack.played
  split
  · exact h
  · rename_i m hm
    split
    · exact h
    · exact h.put fun m' heq => by cases heq; exact hproc _ _ _ (h i m hm)

theorem All.play (h : rk.All R) {proc : SlotFormat → Processor P α}
    (hproc : ∀ f p x, R p → R ((proc f).process p x).2) (x : List α) : (rk.play proc x).1.All R := by
  unfold Rack.play
  split
  · exact through_keeps (P := fun p : Rack P V C × List α => p.1.All R) (fun i p hp => All.played hp hproc p.2) _ h
  · exact h

/-- A call that respects a property keeps it of all plugins. -/
theorem All.call {sampleRate : BitVec 64} {maxBlockSize : Int} {c : ChainCall P V C α} {r : ChainAnswer V α}
    {rk' : Rack P V C} (h : rk.All R) (hc : Respects R sampleRate maxBlockSize c)
    (he : rk.call sampleRate maxBlockSize c = some (r, rk')) : rk'.All R := by
  cases c with
  | control c =>
    cases c with
    | loadSlot l slotIdx path =>
      obtain ⟨⟨result, after⟩, hload, heq⟩ := Option.map_eq_some_iff.mp he
      cases heq
      unfold Rack.loadSlot at hload
      split at hload
      · cases hload
        exact h
      · obtain ⟨found, hfound, heq⟩ := Option.map_eq_some_iff.mp hload
        cases found with
        | error e =>
          cases heq
          exact h.put fun m' hm => by cases hm
        | ok p =>
          obtain ⟨info, m⟩ := p
          cases heq
          exact h.put fun m' hm => by cases hm; exact hc info m hfound
    | unloadSlot slotIdx =>
      cases he
      unfold Rack.unloadSlot
      split
      · exact h
      · exact h.put fun m' hm => by cases hm
    | setSlotBypass slotIdx b =>
      cases he
      unfold Rack.setSlotBypass
      split <;> exact h
    | setChainEnabled b =>
      cases he
      exact h
    | setParamChangedCallback cb =>
      cases he
      exact h
    | acquireEditorView create slotIdx =>
      cases he
      unfold Rack.acquireEditorView
      split
      · exact h
      · rename_i hat
        exact h.view create (h.at? hat)
    | releaseEditorView slotIdx =>
      cases he
      unfold Rack.releaseEditorView
      split
      · exact h
      · rename_i hat
        have hplugin := h.at? hat
        exact h.put fun m' hm => by cases hm; exact hplugin
  | isSlotLoaded slotIdx =>
    cases he
    exact h
  | acquireEditorIdlePump create slotIdx =>
    cases he
    unfold Rack.acquireEditorIdlePump
    split
    · exact h
    · rename_i hat
      split
      · exact h
      · exact h.view create (h.at? hat)
  | listParams params slotIdx =>
    cases he
    exact h
  | setParam set slotIdx paramId normalized =>
    cases he
    unfold Rack.setParam
    split
    · exact h
    · rename_i hat
      dsimp only
      split <;> exact h.put fun m' hm => by cases hm; exact hc _ (h.at? hat)
  | process proc input out frames =>
    cases he
    unfold Rack.process
    split
    · exact h
    · exact h.play hc _

end All

end Rack

/-- The object that holds a mounted plugin in slot `i`, the chain's callback installed. -/
def Mounted.host {P V C : Type} (m : Mounted P V) (i : Fin kMaxSlots) (cb : Option C) : SlotHost P V C :=
  ⟨some m.plugin, m.view, SlotTable.wrap i cb⟩

def Mounted.plugged {P V C : Type} (m : Mounted P V) (i : Fin kMaxSlots) (cb : Option C) : Plugged P V C :=
  ⟨m.format, m.occupied, m.host i cb, rfl⟩

namespace SlotTable
variable {P V C α : Type} {ch ch' : SlotTable P V C α} {rk : Rack P V C} {sampleRate : BitVec 64} {maxBlockSize : Int}
  {i : Fin kMaxSlots} {m : Mounted P V}

/-- The members that belong to no slot and have no flag of their own. -/
def members (ch : SlotTable P V C α) : Option C × BitVec 64 × Int :=
  (ch.paramChangedCb, ch.sampleRate, ch.maxBlockSize)

/-- The table stands for the rack. -/
structure Stands (sampleRate : BitVec 64) (maxBlockSize : Int) (ch : SlotTable P V C α) (rk : Rack P V C) : Prop where
  slots : ∀ i, (ch.slot i).Shows ((rk.slots i).map fun m => m.plugged i rk.callback)
  bypass : ch.bypass = rk.bypass
  enabled : ch.masterEnabled = rk.enabled
  members : ch.members = (rk.callback, sampleRate, maxBlockSize)

theorem stands_initial (sampleRate : BitVec 64) (maxBlockSize : Int) (zero : α) :
    Stands sampleRate maxBlockSize (initial sampleRate maxBlockSize zero : SlotTable P V C α) Rack.initial where
  slots i := ⟨rfl, rfl, fun f => by cases f <;> rfl⟩
  bypass := rfl
  enabled := rfl
  members := rfl

@[simp] theorem members_setPointer (ch : SlotTable P V C α) (f : SlotFormat) (i : Fin kMaxSlots)
    (o : Option (SlotHost P V C)) : (ch.setPointer f i o).members = ch.members := by
  cases f <;> rfl

@[simp] theorem members_setLoaded (ch : SlotTable P V C α) (i : Fin kMaxSlots) (b : Bool) :
    (ch.setLoaded i b).members = ch.members := rfl

@[simp] theorem members_setFormat (ch : SlotTable P V C α) (i : Fin kMaxSlots) (f : SlotFormat) :
    (ch.setFormat i f).members = ch.members := rfl

@[simp] theorem members_tearDown (ch : SlotTable P V C α) (i : Fin kMaxSlots) :
    (ch.tearDown i).members = ch.members := members_setPointer (ch.setLoaded i false) _ _ _

namespace Stands

theorem callback (h : Stands sampleRate maxBlockSize ch rk) : ch.paramChangedCb = rk.callback :=
  congrArg Prod.fst h.members

private theorem rate (h : Stands sampleRate maxBlockSize ch rk) : ch.sampleRate = sampleRate :=
  congrArg (·.2.1) h.members

theorem block (h : Stands sampleRate maxBlockSize ch rk) : ch.maxBlockSize = maxBlockSize :=
  congrArg (·.2.2) h.members

theorem empty (h : Stands sampleRate maxBlockSize ch rk) (hr : rk.slots i = none) :
    ch.format i = .empty ∧ ch.loaded i = false ∧ ∀ f, ch.pointer f i = none := by
  have hs := h.slots i
  rw [hr] at hs
  exact ⟨hs.format, hs.loaded, hs.pointer⟩

theorem mounted (h : Stands sampleRate maxBlockSize ch rk) (hr : rk.slots i = some m) :
    ch.format i = m.format ∧ ch.loaded i = true ∧ ch.pointer (ch.format i) i = some (m.host i rk.callback) := by
  have hs := h.slots i
  rw [hr] at hs
  exact ⟨hs.format, hs.loaded, hs.host⟩

/-- A call that changes one slot of the table, and of the rack. -/
theorem of_keeps {m : Option (Mounted P V)} (h : Stands sampleRate maxBlockSize ch rk) (hk : Keeps (some i) ch ch')
    (hm : ch'.members = ch.members) (hs : (ch'.slot i).Shows (m.map fun m => m.plugged i rk.callback)) :
    Stands sampleRate maxBlockSize ch' (rk.put i m) := by
  refine ⟨fun j => ?_, hk.bypass.trans h.bypass, hk.masterEnabled.trans h.enabled, hm.trans h.members⟩
  by_cases hj : j = i
  · subst hj
    rw [Rack.slots_put_self]
    exact hs
  · rw [hk.slots j fun he => hj (Option.some.inj he).symm, Rack.slots_put_ne rk hj]
    exact h.slots j

/-- A call on the object in a slot. -/
theorem called (h : Stands sampleRate maxBlockSize ch rk) (hr : rk.slots i = some m) (plugin : P) (view : Option V) :
    Stands sampleRate maxBlockSize
      (ch.setPointer (ch.format i) i (some (({ m with plugin, view } : Mounted P V).host i rk.callback)))
      (rk.put i (some { m with plugin, view })) := by
  have hs := h.slots i
  rw [hr] at hs
  refine h.of_keeps (keeps_setPointer _ _ _ _) (members_setPointer _ _ _ _) ?_
  rw [(h.mounted hr).1]
  exact @shows_called P V C α ch i _ (({ m with plugin, view } : Mounted P V).host i rk.callback) hs rfl

private theorem torn (h : Stands sampleRate maxBlockSize ch rk) (i : Fin kMaxSlots) :
    Stands sampleRate maxBlockSize (ch.tearDown i) (rk.put i none) :=
  h.of_keeps (keeps_tearDown ch i) (members_tearDown ch i) (shows_tearDown (h.slots i))

/-- What a load that fails leaves. -/
theorem dropped (h : Stands sampleRate maxBlockSize ch rk) (i : Fin kMaxSlots) {fmt : SlotFormat} (hf : fmt ≠ .empty)
    (host : SlotHost P V C) : Stands sampleRate maxBlockSize
      (((ch.tearDown i).setPointer fmt i (some host)).setPointer fmt i none) (rk.put i none) := by
  refine h.of_keeps ?_ (by simp) (shows_dropped (shows_tearDown (h.slots i)) hf)
  exact ((keeps_tearDown ch i).trans (keeps_setPointer _ _ _ _)).trans (keeps_setPointer _ _ _ _)

/-- What a load that succeeds leaves: the callback is installed if there is one. -/
private theorem mounts (h : Stands sampleRate maxBlockSize ch rk) (i : Fin kMaxSlots) {fmt : SlotFormat}
    (hf : fmt ≠ .empty)
    (plugin : P) : Stands sampleRate maxBlockSize
      (match wrap i ch.paramChangedCb with
        | some w => (ch.plugged i fmt (SlotHost.fresh.swapIn plugin)).setPointer fmt i
            (some ((SlotHost.fresh.swapIn plugin).setParamChangedCallback (some w)))
        | none => ch.plugged i fmt (SlotHost.fresh.swapIn plugin))
      (rk.put i (some ⟨fmt, hf, plugin, none⟩)) := by
  have hkeeps : Keeps (some i) ch (ch.plugged i fmt (SlotHost.fresh.swapIn plugin)) :=
    (((keeps_tearDown ch i).trans (keeps_setPointer _ _ _ _)).trans (keeps_setFormat _ _ _)).trans
      (keeps_setLoaded _ _ _)
  have hmembers : (ch.plugged i fmt (SlotHost.fresh.swapIn plugin)).members = ch.members := by simp [plugged]
  have hshows := @shows_plugged P V C α (ch.tearDown i) i fmt (SlotHost.fresh.swapIn plugin)
    (shows_tearDown (h.slots i)) hf rfl
  rw [h.callback]
  cases hw : wrap i rk.callback with
  | none =>
    refine h.of_keeps hkeeps hmembers ?_
    have hplugged : (⟨fmt, hf, plugin, none⟩ : Mounted P V).plugged i rk.callback =
        ⟨fmt, hf, SlotHost.fresh.swapIn plugin, rfl⟩ := by
      simp [Mounted.plugged, Mounted.host, hw, SlotHost.swapIn, SlotHost.fresh]
    rw [Option.map_some, hplugged]
    exact hshows
  | some w =>
    refine h.of_keeps (hkeeps.trans (keeps_setPointer _ _ _ _)) (by simpa using hmembers) ?_
    have hplugged : (⟨fmt, hf, plugin, none⟩ : Mounted P V).plugged i rk.callback =
        ⟨fmt, hf, (SlotHost.fresh.swapIn plugin).setParamChangedCallback (some w), rfl⟩ := by
      simp [Mounted.plugged, Mounted.host, hw, SlotHost.swapIn, SlotHost.fresh, SlotHost.setParamChangedCallback]
    rw [Option.map_some, hplugged]
    exact @shows_called P V C α _ i _ ((SlotHost.fresh.swapIn plugin).setParamChangedCallback (some w)) hshows rfl

end Stands

private theorem members_install (ch : SlotTable P V C α) (i : Fin kMaxSlots) : (ch.install i).members = ch.members := by
  unfold install
  split
  · rfl
  · exact members_setPointer _ _ _ _

private theorem members_foldl_install (is : List (Fin kMaxSlots)) (ch : SlotTable P V C α) :
    (is.foldl install ch).members = ch.members := by
  induction is generalizing ch with
  | nil => rfl
  | cons i is ih => exact (ih _).trans (members_install ch i)

theorem Stands.setParamChangedCallback (h : Stands sampleRate maxBlockSize ch rk) (cb : Option C) :
    Stands sampleRate maxBlockSize (ch.setParamChangedCallback cb) (rk.setParamChangedCallback cb) := by
  obtain ⟨hbypass, hmaster⟩ := setParamChangedCallback_rest ch cb
  refine ⟨fun i => ?_, hbypass.trans h.bypass, hmaster.trans h.enabled, ?_⟩
  · rw [setParamChangedCallback_slot]
    have hs := shows_rewrap (h.slots i) (wrap i cb)
    unfold Rack.setParamChangedCallback
    cases hr : rk.slots i with
    | none => simpa [hr] using hs
    | some m =>
      rw [hr] at hs
      exact hs
  · rw [SlotTable.setParamChangedCallback, members_foldl_install]
    exact congrArg (fun p => (cb, p.2)) h.members

theorem Stands.setSlotBypass (h : Stands sampleRate maxBlockSize ch rk) (slotIdx : Int) (b : Bool) :
    Matches (Stands sampleRate maxBlockSize) (ch.setSlotBypass slotIdx b) (rk.setSlotBypass slotIdx b) := by
  have hslot := setSlotBypass_slot ch slotIdx b
  unfold SlotTable.setSlotBypass Rack.setSlotBypass at *
  cases hi : slotIndex slotIdx with
  | none => exact .intro h
  | some i =>
    rw [hi] at hslot
    refine .intro ⟨fun j => ?_, by rw [h.bypass], h.enabled, h.members⟩
    rw [hslot]
    exact ⟨(h.slots j).format, (h.slots j).loaded, (h.slots j).pointer⟩

theorem Stands.loadSlot (h : Stands sampleRate maxBlockSize ch rk) (l : Loader P) (slotIdx : Int) (path : Path) :
    Alike (Stands sampleRate maxBlockSize) (ch.loadSlot l slotIdx path)
      (rk.loadSlot sampleRate maxBlockSize l slotIdx path) := by
  unfold Rack.loadSlot
  cases hi : slotIndex slotIdx with
  | none =>
    rw [loadSlot_of_none hi]
    exact .intro h
  | some i =>
    unfold SlotTable.loadSlot Loader.find
    rw [hi]
    dsimp only
    by_cases hf : detectFormat l.probeIsVst2 path = .empty
    · rw [if_pos hf, dif_pos hf]
      exact .intro (h.torn i)
    · rw [if_neg hf, dif_neg hf, (h.torn i).rate, (h.torn i).block]
      generalize hl : (SlotHost.fresh : SlotHost P V C).load l (detectFormat l.probeIsVst2 path) path sampleRate
        maxBlockSize = result
      cases result with
      | none => exact .none
      | some p =>
        obtain ⟨r, host⟩ := p
        cases SlotHost.loads_of_load hl with
        | failed e => exact .intro (h.dropped i hf _)
        | swapped plugin info =>
          have hmounts := h.mounts i hf plugin
          dsimp only [Option.map_some]
          rw [show (((((ch.tearDown i).setPointer (detectFormat l.probeIsVst2 path) i
              (some (SlotHost.fresh.swapIn plugin))).setFormat i (detectFormat l.probeIsVst2 path)).setLoaded i
              true).paramChangedCb) = ch.paramChangedCb from cb_plugged ch i _ _]
          cases hw : wrap i ch.paramChangedCb with
          | none =>
            rw [hw] at hmounts
            exact .intro hmounts
          | some w =>
            rw [hw] at hmounts
            exact .intro hmounts

theorem Stands.unloadSlot (h : Stands sampleRate maxBlockSize ch rk) (slotIdx : Int) :
    Matches (Stands sampleRate maxBlockSize) (ch.unloadSlot slotIdx) (rk.unloadSlot slotIdx) := by
  unfold SlotTable.unloadSlot Rack.unloadSlot
  cases slotIndex slotIdx with
  | none => exact .intro h
  | some i =>
    have hloaded : ch.loaded i = (rk.slots i).isSome := (h.slots i).loaded.trans (Option.isSome_map ..)
    dsimp only
    rw [hloaded]
    exact .intro (h.torn i)

/-- The three ways in which a call finds a place. -/
inductive Finds (ch : SlotTable P V C α) (rk : Rack P V C) (slotIdx : Int) :
    Option (Fin kMaxSlots × Mounted P V) → Prop
  | outside (hi : slotIndex slotIdx = none) : Finds ch rk slotIdx none
  | empty (i : Fin kMaxSlots) (hi : slotIndex slotIdx = some i) (hloaded : ch.loaded i = false)
    (hpointer : ∀ f, ch.pointer f i = none) : Finds ch rk slotIdx none
  | mounted (i : Fin kMaxSlots) (m : Mounted P V) (hi : slotIndex slotIdx = some i) (hr : rk.slots i = some m)
    (hformat : ch.format i = m.format) (hloaded : ch.loaded i = true)
    (hpointer : ch.pointer (ch.format i) i = some (m.host i rk.callback)) : Finds ch rk slotIdx (some (i, m))

private theorem Stands.finds (h : Stands sampleRate maxBlockSize ch rk) {slotIdx : Int}
    {place : Option (Fin kMaxSlots × Mounted P V)} (hplace : rk.at? slotIdx = place) : Finds ch rk slotIdx place := by
  subst hplace
  unfold Rack.at?
  cases hi : slotIndex slotIdx with
  | none => exact .outside hi
  | some i =>
    cases hr : rk.slots i with
    | none =>
      obtain ⟨-, hloaded, hpointer⟩ := h.empty hr
      simpa [hr] using Finds.empty i hi hloaded hpointer
    | some m =>
      obtain ⟨hformat, hloaded, hpointer⟩ := h.mounted hr
      simpa [hr] using Finds.mounted i m hi hr hformat hloaded hpointer

/-- The view of a mounted plugin, created if there is none yet. -/
theorem Stands.view (h : Stands sampleRate maxBlockSize ch rk) (create : P → Option V) {i : Fin kMaxSlots}
    {m : Mounted P V} (hr : rk.slots i = some m) :
    Matches (Stands sampleRate maxBlockSize) (((m.host i rk.callback).acquireEditorView create).1,
      ch.setPointer (ch.format i) i (some ((m.host i rk.callback).acquireEditorView create).2))
      (rk.view create i m) := by
  have hsame : rk.put i (some m) = rk := by
    rw [Rack.put, ← hr, Function.update_eq_self]
  have hkept := h.called hr m.plugin m.view
  rw [show ({ m with plugin := m.plugin, view := m.view } : Mounted P V) = m from rfl, hsame] at hkept
  unfold SlotHost.acquireEditorView Rack.view Mounted.host
  dsimp only
  cases hv : m.view with
  | some v =>
    rw [Mounted.host, hv] at hkept
    exact ⟨rfl, hkept⟩
  | none =>
    dsimp only
    cases hc : create m.plugin with
    | none =>
      rw [Mounted.host, hv] at hkept
      exact ⟨rfl, hkept⟩
    | some v => exact ⟨rfl, h.called hr m.plugin (some v)⟩

theorem Stands.acquireEditorView (h : Stands sampleRate maxBlockSize ch rk) (create : P → Option V) (slotIdx : Int) :
    Matches (Stands sampleRate maxBlockSize) (ch.acquireEditorView create slotIdx)
      (rk.acquireEditorView create slotIdx) := by
  unfold SlotTable.acquireEditorView Rack.acquireEditorView
  generalize hplace : rk.at? slotIdx = place
  cases h.finds hplace with
  | outside hi =>
    rw [hi]
    exact .intro h
  | empty i hi hloaded hpointer =>
    simp only [hi, hloaded]
    exact .intro h
  | mounted i m hi hr hformat hloaded hpointer =>
    simp only [hi, hloaded, hpointer, Bool.not_true, Bool.false_eq_true, if_false]
    exact h.view create hr

theorem Stands.acquireEditorIdlePump (h : Stands sampleRate maxBlockSize ch rk) (create : P → Option V)
    (slotIdx : Int) : Matches (Stands sampleRate maxBlockSize) (ch.acquireEditorIdlePump create slotIdx)
      (rk.acquireEditorIdlePump create slotIdx) := by
  unfold SlotTable.acquireEditorIdlePump Rack.acquireEditorIdlePump
  generalize hplace : rk.at? slotIdx = place
  cases h.finds hplace with
  | outside hi =>
    rw [hi]
    exact .intro h
  | empty i hi hloaded hpointer =>
    simp only [hi, hloaded]
    exact .intro h
  | mounted i m hi hr hformat hloaded hpointer =>
    have hview := h.view create hr
    simp only [hi, hloaded, Bool.not_true, Bool.false_eq_true, if_false]
    rw [hformat] at hpointer hview ⊢
    cases hm : m.format with
    | empty => exact absurd hm m.occupied
    | vst3 => exact .intro h
    | vst2 | clap =>
      rw [hm] at hpointer hview
      simp only [hpointer]
      exact hview

theorem Stands.releaseEditorView (h : Stands sampleRate maxBlockSize ch rk) (slotIdx : Int) :
    Stands sampleRate maxBlockSize (ch.releaseEditorView slotIdx) (rk.releaseEditorView slotIdx) := by
  unfold SlotTable.releaseEditorView Rack.releaseEditorView
  generalize hplace : rk.at? slotIdx = place
  cases h.finds hplace with
  | outside hi =>
    rw [hi]
    exact h
  | empty i hi hloaded hpointer =>
    simp only [hi, hpointer]
    exact h
  | mounted i m hi hr hformat hloaded hpointer =>
    simp only [hi, hpointer]
    exact h.called hr m.plugin none

theorem Stands.isSlotLoaded (h : Stands sampleRate maxBlockSize ch rk) (slotIdx : Int) :
    ch.isSlotLoaded slotIdx = rk.isSlotLoaded slotIdx := by
  unfold SlotTable.isSlotLoaded Rack.isSlotLoaded
  generalize hplace : rk.at? slotIdx = place
  cases h.finds hplace with
  | outside hi => rw [hi]; rfl
  | empty i hi hloaded hpointer => simp only [hi, hloaded]; rfl
  | mounted i m hi hr hformat hloaded hpointer => simp only [hi, hloaded]; rfl

theorem Stands.listParams (h : Stands sampleRate maxBlockSize ch rk) (params : P → List ParamInfo) (slotIdx : Int) :
    ch.listParams params slotIdx = rk.listParams params slotIdx := by
  unfold SlotTable.listParams Rack.listParams
  generalize hplace : rk.at? slotIdx = place
  cases h.finds hplace with
  | outside hi => simp only [hi, Rack.absent]; rfl
  | empty i hi hloaded hpointer => simp only [hi, hloaded, Rack.absent]; rfl
  | mounted i m hi hr hformat hloaded hpointer =>
    have hlist : (m.host i rk.callback).listParams params = params m.plugin := rfl
    have hocc : ch.format i ≠ .empty := hformat ▸ m.occupied
    simp only [hi, hloaded, Bool.not_true, Bool.false_eq_true, if_false, if_neg hocc, hpointer, hlist]

theorem Stands.setParam (h : Stands sampleRate maxBlockSize ch rk)
    (set : P → BitVec 32 → BitVec 64 → BitVec 64 × P) (slotIdx : Int) (paramId : BitVec 32)
    (normalized : BitVec 64) :
    (ch.setParam set slotIdx paramId normalized).1 = (rk.setParam set slotIdx paramId normalized).1 ∧
    (ch.setParam set slotIdx paramId normalized).2.1 = (rk.setParam set slotIdx paramId normalized).2.1 ∧
    Stands sampleRate maxBlockSize (ch.setParam set slotIdx paramId normalized).2.2
      (rk.setParam set slotIdx paramId normalized).2.2 := by
  unfold SlotTable.setParam Rack.setParam
  generalize hplace : rk.at? slotIdx = place
  cases h.finds hplace with
  | outside hi =>
    simp only [hi, Rack.absent, true_and, if_true]
    exact h
  | empty i hi hloaded hpointer =>
    simp only [hi, hloaded, Rack.absent]
    exact ⟨rfl, rfl, h⟩
  | mounted i m hi hr hformat hloaded hpointer =>
    have hocc : ch.format i ≠ .empty := hformat ▸ m.occupied
    have hstands := h.called hr (set m.plugin paramId normalized).2 m.view
    simp only [hi, hloaded, Bool.not_true, Bool.false_eq_true, if_false, if_neg hocc, hpointer, SlotHost.setParam,
      Mounted.host] at hstands ⊢
    split <;> exact ⟨rfl, rfl, hstands⟩

end SlotTable

/-- A rack whose plugins' state may have moved, but nothing else. -/
structure Rack.Moved {P V C : Type} (rk rk' : Rack P V C) : Prop where
  formats : ∀ i, (rk'.slots i).map Mounted.format = (rk.slots i).map Mounted.format
  bypass : rk'.bypass = rk.bypass
  enabled : rk'.enabled = rk.enabled
  callback : rk'.callback = rk.callback

/-- The objects that hold the plugins of a rack. -/
def Rack.objects {P V C : Type} (rk : Rack P V C) (i : Fin kMaxSlots) : Option (SlotHost P V C) :=
  (rk.slots i).map fun m => m.host i rk.callback

theorem Rack.Moved.refl {P V C : Type} (rk : Rack P V C) : Rack.Moved rk rk := ⟨fun _ => rfl, rfl, rfl, rfl⟩

theorem Rack.Moved.put {P V C : Type} {rk rk' : Rack P V C} (h : Rack.Moved rk rk') {i : Fin kMaxSlots}
    {m : Mounted P V} (hm : rk'.slots i = some m) (plugin : P) :
    Rack.Moved rk (rk'.put i (some { m with plugin })) := by
  refine ⟨fun j => ?_, h.bypass, h.enabled, h.callback⟩
  by_cases hj : j = i
  · subst hj
    rw [Rack.slots_put_self, ← h.formats j, hm]
    rfl
  · rw [Rack.slots_put_ne _ hj]
    exact h.formats j

/-- What the rack plays as the chain computes its composition. -/
def Rack.Tracks {P V C α : Type} (rk : Rack P V C) (l : Rack P V C × List α)
    (p : (Fin kMaxSlots → Option (SlotHost P V C)) × List α) : Prop :=
  Rack.Moved rk l.1 ∧ p = (l.1.objects, l.2)

private theorem Rack.objects_put {P V C : Type} (rk : Rack P V C) (i : Fin kMaxSlots) (m : Mounted P V) :
    (rk.put i (some m)).objects = Function.update rk.objects i (some (m.host i rk.callback)) := by
  funext j
  by_cases hj : j = i
  · subst hj
    simp [Rack.objects]
  · simp [Rack.objects, hj]

namespace SlotTable
variable {P V C α : Type} {ch : SlotTable P V C α} {rk : Rack P V C} {sampleRate : BitVec 64} {maxBlockSize : Int}

private theorem object_eq_pointer (ch : SlotTable P V C α) (i : Fin kMaxSlots) :
    ch.object i = ch.pointer (ch.format i) i := by
  unfold PluginChain.object pointer
  cases ch.format i <;> rfl

theorem Stands.objects (h : Stands sampleRate maxBlockSize ch rk) : ch.object = rk.objects := by
  funext i
  rw [object_eq_pointer, Rack.objects]
  have hs := (h.slots i).host
  rw [Option.map_map] at hs
  exact hs

/-- One slot of the composition, and one place of the rack. -/
theorem Stands.stage (h : Stands sampleRate maxBlockSize ch rk) (proc : SlotFormat → Processor P α)
    {l : Rack P V C × List α} {p : (Fin kMaxSlots → Option (SlotHost P V C)) × List α} (i : Fin kMaxSlots)
    (hp : rk.Tracks l p) : rk.Tracks (stage (Rack.played proc) i l)
      (stage (PluginChain.slotStage (fun f => (proc f).hosted V C) ch.toPluginChain) i p) := by
  obtain ⟨now, x⟩ := l
  obtain ⟨hm, rfl⟩ := hp
  dsimp only at hm
  unfold Rack.Tracks Pipeline.stage PluginChain.slotStage Rack.played
  dsimp only
  rw [h.bypass, ← hm.bypass]
  have hformats := hm.formats i
  cases hnow : now.slots i with
  | none =>
    rw [hnow] at hformats
    have hempty := (h.empty (Option.map_eq_none_iff.mp hformats.symm)).2.1
    simpa [hempty] using hm
  | some m =>
    rw [hnow] at hformats
    obtain ⟨m₀, hr, hf⟩ := Option.map_eq_some_iff.mp hformats.symm
    obtain ⟨hformat, hloaded, -⟩ := h.mounted hr
    have hobject : now.objects i = some (m.host i now.callback) := by rw [Rack.objects, hnow]; rfl
    cases hb : now.bypass i with
    | true => simpa [hloaded] using hm
    | false =>
      simp only [hloaded, Bool.not_false, Bool.and_self, if_true, hobject, hformat, hf, Bool.false_eq_true, if_false]
      exact ⟨hm.put hnow _, by rw [Rack.objects_put]; rfl⟩

/-- The chain's outcome is the rack's. -/
theorem Stands.outcome (h : Stands sampleRate maxBlockSize ch rk) (proc : SlotFormat → Processor P α) (x : List α) :
    rk.Tracks (rk.play proc x) (PluginChain.outcome (fun f => (proc f).hosted V C) ch.toPluginChain x) := by
  have hstart : rk.Tracks (rk, x) (ch.object, x) := ⟨Rack.Moved.refl rk, by rw [h.objects]⟩
  unfold PluginChain.outcome Rack.play
  rw [h.enabled]
  split
  · exact loop_follows (fun i hp => h.stage proc i hp) _ hstart
  · exact hstart

private theorem pointer_setPointer_of_ne (ch : SlotTable P V C α) {f g : SlotFormat} {i j : Fin kMaxSlots}
    (o : Option (SlotHost P V C)) (h : j = i → g ≠ f) : (ch.setPointer f i o).pointer g j = ch.pointer g j := by
  by_cases hj : j = i
  · subst hj
    have hg := h rfl
    cases f <;> cases g <;> simp [setPointer, pointer] at hg ⊢
  · exact congrFun (congrArg Slot.pointer (slot_setPointer_ne ch f o hj)) g

/-- What a block leaves alone in the arrays. -/
structure Others (ch : SlotTable P V C α) (c : PluginChain (SlotHost P V C) α) : Prop where
  format : c.format = ch.format
  pointer : ∀ f i, f ≠ ch.format i → (ch.withChain c).pointer f i = ch.pointer f i

theorem Others.refl (ch : SlotTable P V C α) : Others ch ch.toPluginChain := ⟨rfl, fun _ _ _ => rfl⟩

private theorem withChain_setObject (ch : SlotTable P V C α) (c : PluginChain (SlotHost P V C) α) (i : Fin kMaxSlots)
    (o : SlotHost P V C) : ch.withChain (c.setObject i o) = (ch.withChain c).setPointer (c.format i) i (some o) := by
  unfold PluginChain.setObject setPointer
  cases c.format i <;> rfl

theorem Others.visit {w : Walk (SlotHost P V C) α} (h : Others ch w.chain)
    (proc : SlotFormat → Processor (SlotHost P V C) α) (input : Buffer α) (frames : Nat) (i : Fin kMaxSlots) :
    Others ch (w.visit proc input frames i).chain := by
  have hcall : ∀ dst o, Others ch ((w.chain.setScratch w.which dst).setObject i o) := by
    intro dst o
    have hscratch : Others ch (w.chain.setScratch w.which dst) := by
      cases w.which <;> exact ⟨h.format, h.pointer⟩
    generalize w.chain.setScratch w.which dst = c at hscratch
    refine ⟨?_, fun f j hf => ?_⟩
    · unfold PluginChain.setObject
      cases c.format i <;> exact hscratch.format
    · rw [withChain_setObject, ← hscratch.pointer f j hf, hscratch.format]
      exact pointer_setPointer_of_ne _ _ fun hj => hj ▸ hf
  unfold Walk.visit
  split
  · exact h
  · split
    · exact h
    · split
      · exact h
      · dsimp only
        split <;> exact hcall _ _

/-- A block moves the plugins' state and the scratch buffers, nothing else in the arrays. -/
private theorem others_process (ch : SlotTable P V C α) (proc : SlotFormat → Processor (SlotHost P V C) α)
    (input out : Buffer α) (frames : Int) : Others ch (ch.toPluginChain.process proc input out frames).chain := by
  have hloop : ∀ (n : Nat) (is : List (Fin kMaxSlots)) (w : Walk (SlotHost P V C) α), Others ch w.chain →
      Others ch (is.foldl (Walk.visit proc input n) w).chain := by
    intro n is
    induction is with
    | nil => exact fun w h => h
    | cons i is ih => exact fun w h => ih _ (h.visit proc input n i)
  unfold PluginChain.process
  split
  · exact Others.refl ch
  · dsimp only
    generalize (if frames > ch.maxBlockSize then ch.maxBlockSize else frames).toNat = n
    have hwalk := hloop n (List.finRange kMaxSlots) ⟨ch.toPluginChain, .input, false, false, []⟩ (Others.refl ch)
    split
    · exact Others.refl ch
    · split <;> exact hwalk

theorem memcpy_eq_window {α : Type} (n : Nat) (dst src : Buffer α) :
    memcpy n dst src = fun i => (window n src)[i]?.getD (dst i) := by
  funext i
  by_cases hi : i < n
  · simp [memcpy, window, hi]
  · simp [memcpy, window, hi]

/-- `Process` in terms of what the chain is to compute, for every number of frames. -/
private theorem process_outcome (proc : SlotFormat → Processor (SlotHost P V C) α) (ch : PluginChain (SlotHost P V C) α)
    (input out : Buffer α) {frames : Int} (hpos : ¬ frames ≤ 0) :
    let n := (min frames ch.maxBlockSize).toNat
    let r := ch.process proc input out frames
    r.chain.object = (PluginChain.outcome proc ch (window n input)).1 ∧ PluginChain.SameSetup ch r.chain ∧
      r.out = fun i => (PluginChain.outcome proc ch (window n input)).2[i]?.getD (out i) := by
  have hclamp : (if frames > ch.maxBlockSize then ch.maxBlockSize else frames) = min frames ch.maxBlockSize := by
    split <;> omega
  simp only [PluginChain.process, if_neg hpos, hclamp]
  generalize (min frames ch.maxBlockSize).toNat = n
  cases hm : ch.masterEnabled with
  | false =>
    have hout : PluginChain.outcome proc ch (window n input) = (ch.object, window n input) := by
      simp [PluginChain.outcome, hm]
    rw [hout]
    exact ⟨rfl, PluginChain.SameSetup.refl ch, memcpy_eq_window n out input⟩
  | true =>
    have hout : PluginChain.outcome proc ch (window n input) = PluginChain.composition proc ch (window n input) := by
      simp [PluginChain.outcome, hm]
    have hw := PluginChain.loop_follows_composition proc ch input n
    rw [hout, ← hw.samples, ← hw.objects]
    simp only [Bool.not_true, Bool.false_eq_true, if_false]
    split
    · exact ⟨rfl, hw.setup, memcpy_eq_window n out _⟩
    · rename_i ht
      rw [Walk.read, hw.untouched (by simpa using ht)]
      exact ⟨rfl, hw.setup, memcpy_eq_window n out input⟩

/-- The table stands for the rack that played the block. -/
theorem Stands.moved (h : Stands sampleRate maxBlockSize ch rk) {rk' : Rack P V C} (hm : Rack.Moved rk rk')
    {c : PluginChain (SlotHost P V C) α} (hobject : c.object = rk'.objects)
    (hsetup : PluginChain.SameSetup ch.toPluginChain c) (hothers : Others ch c) :
    Stands sampleRate maxBlockSize (ch.withChain c) rk' := by
  refine ⟨fun i => ?_, ?_, ?_, ?_⟩
  · have hslot : ((ch.withChain c).slot i).format = ch.format i := congrFun hsetup.format i
    have hloaded : ((ch.withChain c).slot i).loaded = ch.loaded i := congrFun hsetup.loaded i
    have hnamed : (ch.withChain c).pointer (ch.format i) i = rk'.objects i := by
      rw [← hobject, ← congrFun hsetup.format i]
      exact (object_eq_pointer (ch.withChain c) i).symm
    have hformats := hm.formats i
    cases hr : rk'.slots i with
    | none =>
      rw [hr] at hformats
      obtain ⟨hformat, hfree, hpointer⟩ := h.empty (Option.map_eq_none_iff.mp hformats.symm)
      refine ⟨hslot.trans hformat, hloaded.trans hfree, fun f => ?_⟩
      by_cases hf : f = ch.format i
      · rw [hf]
        exact hnamed.trans (by simp [Rack.objects, hr])
      · exact (hothers.pointer f i hf).trans (hpointer f)
    | some m =>
      rw [hr] at hformats
      obtain ⟨m₀, hr₀, hformat₀⟩ := Option.map_eq_some_iff.mp hformats.symm
      obtain ⟨hformat, htaken, -⟩ := h.mounted hr₀
      have hm₀ : ch.format i = m.format := hformat.trans hformat₀
      refine ⟨hslot.trans hm₀, hloaded.trans htaken, fun f => ?_⟩
      by_cases hf : f = ch.format i
      · rw [hf]
        exact hnamed.trans (by simp [Rack.objects, hr, Mounted.plugged, hm₀])
      · have hp := (h.slots i).pointer f
        rw [hr₀] at hp
        refine (hothers.pointer f i hf).trans (Eq.trans hp ?_)
        simp [Mounted.plugged, ← hm₀, ← hformat, hf]
  · exact hsetup.bypass.trans (h.bypass.trans hm.bypass.symm)
  · exact hsetup.masterEnabled.trans (h.enabled.trans hm.enabled.symm)
  · rw [hm.callback, ← h.members]
    exact congrArg (fun n => (ch.paramChangedCb, ch.sampleRate, n)) hsetup.maxBlockSize

theorem Stands.process (h : Stands sampleRate maxBlockSize ch rk) (proc : SlotFormat → Processor P α)
    (input out : Buffer α) (frames : Int) : Matches (Stands sampleRate maxBlockSize)
      (ch.processed proc input out frames) (rk.process proc maxBlockSize input out frames) := by
  unfold processed Rack.process
  by_cases hpos : frames ≤ 0
  · simp only [PluginChain.process, if_pos hpos]
    exact .intro h
  · rw [if_neg hpos]
    obtain ⟨hobject, hsetup, hout⟩ := process_outcome (fun f => (proc f).hosted V C) ch.toPluginChain input out hpos
    obtain ⟨hm, houtcome⟩ := h.outcome proc (window (min frames maxBlockSize).toNat input)
    rw [h.block, houtcome] at hobject hout
    exact ⟨hout, h.moved hm hobject hsetup (others_process _ _ _ _ _)⟩

/-- Each call is answered as the rack answers it. -/
theorem Stands.call (h : Stands sampleRate maxBlockSize ch rk) (c : ChainCall P V C α) :
    Alike (Stands sampleRate maxBlockSize) (ch.call c) (rk.call sampleRate maxBlockSize c) := by
  cases c with
  | control c =>
    cases c with
    | loadSlot l slotIdx path => exact (h.loadSlot l slotIdx path).map _
    | unloadSlot slotIdx => exact (h.unloadSlot slotIdx).alike _
    | setSlotBypass slotIdx b => exact (h.setSlotBypass slotIdx b).alike _
    | setChainEnabled b => exact .intro ⟨h.slots, h.bypass, rfl, h.members⟩
    | setParamChangedCallback cb => exact .intro (h.setParamChangedCallback cb)
    | acquireEditorView create slotIdx => exact (h.acquireEditorView create slotIdx).alike _
    | releaseEditorView slotIdx => exact .intro (h.releaseEditorView slotIdx)
  | isSlotLoaded slotIdx => exact .some ⟨congrArg _ (h.isSlotLoaded slotIdx), h⟩
  | acquireEditorIdlePump create slotIdx => exact (h.acquireEditorIdlePump create slotIdx).alike _
  | listParams params slotIdx =>
    have hlist := h.listParams params slotIdx
    simp only [SlotTable.call, Rack.call, hlist]
    exact .intro h
  | setParam set slotIdx paramId normalized =>
    obtain ⟨hstatus, hactual, hstands⟩ := h.setParam set slotIdx paramId normalized
    simp only [SlotTable.call, Rack.call, hstatus, hactual]
    exact .intro hstands
  | process proc input out frames => exact (h.process proc input out frames).alike _

/-- The slot table is a rack: whatever is called in whatever order, blocks of samples in
between, a caller gets the rack's answers, and a crash just where loading crashes. -/
theorem table_answers_as_rack (sampleRate : BitVec 64) (maxBlockSize : Int) (zero : α)
    (calls : List (ChainCall P V C α)) :
    Alike (Stands sampleRate maxBlockSize)
      (answers call (initial sampleRate maxBlockSize zero) calls)
      (answers (fun rk c => rk.call sampleRate maxBlockSize c) Rack.initial calls) :=
  alike_answers (fun c h => h.call c) (stands_initial sampleRate maxBlockSize zero) calls

end SlotTable
end Plughost.Vst3
