import Plughost.Lib.Runs
import Plughost.Vst3.PluginChain

/-! The channel pointers that the three formats' `Process` hand to a plugin, against the
bus arrangement that `Load` leaves it with. -/
namespace Plughost.Vst3.Channels
open Plughost.Runs

/-- What a `float*` points at: so many samples. -/
structure Channel (α : Type) where
  size : Nat
  data : Buffer α

/-- One call of the plugin's process function: an array of channel pointers for each side. -/
structure ProcessCall (α : Type) where
  inputs : List (Channel α)
  outputs : List (Channel α)
  frames : Int

/-- One call of `Process`. `plugin` is what the plugin makes of a call: whether it
reports success, and what each output channel then holds. -/
structure Block (α : Type) where
  input : Channel α
  output : Channel α
  frames : Int
  plugin : ProcessCall α → Bool × (Nat → Buffer α)

/-- What `Process` returns, what `out` then holds, and the calls it has made. -/
structure Processed (α : Type) where
  ok : Bool
  output : Buffer α
  calls : List (ProcessCall α)

/-- The channels on each side of a plugin. -/
structure Buses where
  numInputs : Int
  numOutputs : Int
  deriving DecidableEq, Repr

abbrev Buses.mono : Buses := ⟨1, 1⟩

abbrev Buses.stereo : Buses := ⟨2, 2⟩

/-- What the host can serve. -/
def Buses.Served (b : Buses) : Prop := b = .mono ∨ b = .stereo

/-- A VST3 component: the channels of its first buses, 0 for a side without one, and
whether it takes up `setBusArrangements(mono, mono)`. -/
structure Vst3Component where
  kept : Buses
  acceptsMono : Bool

/-- `arrangement` is the plugin's own: the host keeps no note of it. -/
structure ActivePlugin where
  maxBlockSize : Nat
  arrangement : Buses

/-- `InstantiateAndActivate`, which does not look at the result of `setBusArrangements`. -/
def instantiateAndActivate (c : Vst3Component) (maxBlockSize : Nat) : ActivePlugin :=
  { maxBlockSize, arrangement := if c.acceptsMono then .mono else c.kept }

/-- `canReplacing` stands for the flag and a `processReplacing` that is not null. -/
structure AEffect where
  canReplacing : Bool
  buses : Buses

/-- The scratch buffers of the VST2 and CLAP hosts. -/
structure Scratch (α : Type) where
  inL : Channel α
  inR : Channel α
  outL : Channel α
  outR : Channel α

/-- The four `assign(cap, 0.0f)`; without them the vectors are empty. -/
def Scratch.assign {α : Type} (zero : α) (cap : Nat) : Scratch α :=
  let channel : Channel α := ⟨cap, fun _ => zero⟩
  ⟨channel, channel, channel, channel⟩

structure ActiveVst2 (α : Type) where
  effect : AEffect
  maxBlockSize : Nat
  scratch : Scratch α

/-- `Vst2Plugin::Load`. -/
def loadVst2 {α : Type} (zero : α) (effect : AEffect) (maxBlockSize : Nat) : ActiveVst2 α :=
  { effect, maxBlockSize
    scratch := .assign zero (if effect.buses.numInputs = 2 ∨ effect.buses.numOutputs = 2 then maxBlockSize else 0) }

/-- One side's ports as the `clap.audio-ports` extension describes them, none without
it; `get` is whether its function of that name succeeds for port 0. -/
structure ClapPorts where
  channels : List Nat
  get : Bool

/-- The count that the host takes for the side's. -/
def ClapPorts.first (p : ClapPorts) : Int := if p.get then (p.channels.head?.getD 0 : Nat) else 0

def ClapPorts.total (p : ClapPorts) : Int := (p.channels.sum : Nat)

/-- `inputs` and `outputs` are the plugin's own; `queried` is what the host found. -/
structure ActiveClap (α : Type) where
  inputs : ClapPorts
  outputs : ClapPorts
  queried : Buses
  maxBlockSize : Nat
  scratch : Scratch α

/-- `ClapPlugin::Load`. -/
def loadClap {α : Type} (zero : α) (inputs outputs : ClapPorts) (maxBlockSize : Nat) : ActiveClap α :=
  { inputs, outputs, maxBlockSize, queried := ⟨inputs.first, outputs.first⟩
    scratch := .assign zero (if inputs.first = 2 ∨ outputs.first = 2 then maxBlockSize else 0) }

section Process
variable {α : Type}

/-- `return false` before the plugin is called. -/
def Block.bypass (b : Block α) : Processed α := ⟨false, b.output.data, []⟩

/-- The caller's own pointers, one on each side. -/
def Block.monoCall (b : Block α) : ProcessCall α := ⟨[b.input], [b.output], b.frames⟩

/-- The fast path of VST2 and CLAP, where the plugin's result is not looked at. -/
def Block.callMono (b : Block α) : Processed α := ⟨true, (b.plugin b.monoCall).2 0, [b.monoCall]⟩

/-- `PluginHost::Process`. -/
def ActivePlugin.process (a : ActivePlugin) (b : Block α) : Processed α :=
  if b.frames ≤ 0 ∨ a.maxBlockSize < b.frames then b.bypass
  else ⟨(b.plugin b.monoCall).1, (b.plugin b.monoCall).2 0, [b.monoCall]⟩

/-- The mono input on both channels. -/
def Scratch.upmix (s : Scratch α) (b : Block α) : Scratch α :=
  { s with
    inL := { s.inL with data := memcpy b.frames.toNat s.inL.data b.input.data }
    inR := { s.inR with data := memcpy b.frames.toNat s.inR.data b.input.data } }

def Scratch.call (s : Scratch α) (b : Block α) : ProcessCall α :=
  ⟨[(s.upmix b).inL, (s.upmix b).inR], [s.outL, s.outR], b.frames⟩

/-- The stereo path of VST2 and CLAP; `average l r` is `0.5f * (l + r)`. -/
def Scratch.callStereo (average : α → α → α) (s : Scratch α) (b : Block α) : Processed α × Scratch α :=
  let outs := (b.plugin (s.call b)).2
  (⟨true, fun i => if i < b.frames.toNat then average (outs 0 i) (outs 1 i) else b.output.data i, [s.call b]⟩,
    { s.upmix b with outL := { s.outL with data := outs 0 }, outR := { s.outR with data := outs 1 } })

/-- `Vst2Plugin::Process`. -/
def ActiveVst2.process (average : α → α → α) (a : ActiveVst2 α) (b : Block α) : Processed α × ActiveVst2 α :=
  if b.frames ≤ 0 ∨ a.maxBlockSize < b.frames then (b.bypass, a)
  else if !a.effect.canReplacing then (b.bypass, a)
  else if a.effect.buses = .mono then (b.callMono, a)
  else if a.effect.buses = .stereo ∧ b.frames ≤ a.scratch.inL.size ∧ b.frames ≤ a.scratch.outL.size then
    let (result, scratch) := a.scratch.callStereo average b
    (result, { a with scratch })
  else (b.bypass, a)

/-- `ClapPlugin::Process`. -/
def ActiveClap.process (average : α → α → α) (a : ActiveClap α) (b : Block α) : Processed α × ActiveClap α :=
  if b.frames ≤ 0 ∨ a.maxBlockSize < b.frames then (b.bypass, a)
  else if a.queried = .mono then (b.callMono, a)
  else if a.queried = .stereo then
    if a.scratch.inL.size < b.frames ∨ a.scratch.outL.size < b.frames then (b.bypass, a)
    else
      let (result, scratch) := a.scratch.callStereo average b
      (result, { a with scratch })
  else (b.bypass, a)

end Process

/-- A loaded plugin, of one of the formats. -/
inductive Active (α : Type) where
  | vst3 (a : ActivePlugin)
  | vst2 (a : ActiveVst2 α)
  | clap (a : ActiveClap α)

/-- What there is to load. -/
inductive PluginModule where
  | vst3 (c : Vst3Component)
  | vst2 (effect : AEffect)
  | clap (inputs outputs : ClapPorts)

namespace Active
variable {α : Type}

def load (zero : α) (maxBlockSize : Nat) : PluginModule → Active α
  | .vst3 c => .vst3 (instantiateAndActivate c maxBlockSize)
  | .vst2 effect => .vst2 (loadVst2 zero effect maxBlockSize)
  | .clap inputs outputs => .clap (loadClap zero inputs outputs maxBlockSize)

/-- `Process`. -/
def process (average : α → α → α) (p : Active α) (b : Block α) : Processed α × Active α :=
  match p with
  | .vst3 a => (a.process b, .vst3 a)
  | .vst2 a => let (result, a) := a.process average b; (result, .vst2 a)
  | .clap a => let (result, a) := a.process average b; (result, .clap a)

def step (average : α → α → α) (p : Active α) (b : Block α) : Option (Active α) := some (p.process average b).2

/-- The plugin's channels. -/
def buses : Active α → Buses
  | .vst3 a => a.arrangement
  | .vst2 a => a.effect.buses
  | .clap a => ⟨a.inputs.total, a.outputs.total⟩

def maxBlockSize : Active α → Nat
  | .vst3 a => a.maxBlockSize
  | .vst2 a => a.maxBlockSize
  | .clap a => a.maxBlockSize

/-- Plugins with only the accumulating `process` are not called. -/
def callable : Active α → Bool
  | .vst2 a => a.effect.canReplacing
  | .vst3 _ | .clap _ => true

end Active

/-- What a plugin may expect of a call of `Process`, by its channels. -/
structure Fits {α : Type} (average : α → α → α) (p : Active α) (b : Block α) (r : Processed α) : Prop where
  counts : ∀ call ∈ r.calls, call.inputs.length = p.buses.numInputs ∧ call.outputs.length = p.buses.numOutputs
  sizes : ∀ call ∈ r.calls, call.frames = b.frames ∧ ∀ c ∈ call.inputs ++ call.outputs, b.frames ≤ c.size
  stereo : p.buses = .stereo → ∀ call ∈ r.calls,
    (∀ c ∈ call.inputs, window b.frames.toNat c.data = window b.frames.toNat b.input.data) ∧
    ∀ i < b.frames.toNat, r.output i = average ((b.plugin call).2 0 i) ((b.plugin call).2 1 i)
  called : p.buses.Served → p.callable = true → 0 < b.frames → b.frames ≤ p.maxBlockSize → ∃ call, r.calls = [call]
  bypassed : ¬ p.buses.Served → r.ok = false ∧ r.calls = []

/-- The block is refused by its length, or the host goes by the plugin's own channels. -/
def Negotiated {α : Type} (p : Active α) (b : Block α) : Prop :=
  b.frames ≤ 0 ∨ p.maxBlockSize < b.frames ∨ match p with
    | .vst3 a => a.arrangement = .mono
    | .vst2 _ => True
    | .clap a => a.queried.Served ∨ p.buses.Served → a.queried = p.buses

/-- All four buffers have this many samples. -/
def Scratch.Sized {α : Type} (s : Scratch α) (n : Nat) : Prop :=
  s.inL.size = n ∧ s.inR.size = n ∧ s.outL.size = n ∧ s.outR.size = n

/-- Where the host takes the stereo path, the scratch buffers hold a whole block. -/
def Allocated {α : Type} : Active α → Prop
  | .vst3 _ => True
  | .vst2 a => a.effect.buses = .stereo → a.scratch.Sized a.maxBlockSize
  | .clap a => a.queried = .stereo → a.scratch.Sized a.maxBlockSize

section Fits
variable {α : Type} {average : α → α → α} {b : Block α} {p t : Active α}

private theorem Scratch.sized_assign (zero : α) (n : Nat) : (Scratch.assign zero n).Sized n := ⟨rfl, rfl, rfl, rfl⟩

theorem allocated_load (zero : α) (maxBlockSize : Nat) (m : PluginModule) :
    Allocated (Active.load zero maxBlockSize m) := by
  cases m with
  | vst3 c => trivial
  | vst2 effect =>
    intro hstereo
    have hstereo : effect.buses = .stereo := hstereo
    simp only [loadVst2, hstereo]
    exact Scratch.sized_assign zero maxBlockSize
  | clap inputs outputs =>
    intro hstereo
    have hin : inputs.first = 2 := congrArg Buses.numInputs hstereo
    simp only [loadClap, hin]
    exact Scratch.sized_assign zero maxBlockSize

private theorem allocated_step (h : Allocated p) (hs : p.step average b = some t) : Allocated t := by
  cases hs
  cases p with
  | vst3 a => trivial
  | vst2 a =>
    simp only [Active.process, ActiveVst2.process]
    split
    · exact h
    · split
      · exact h
      · split
        · exact h
        · split <;> exact h
  | clap a =>
    simp only [Active.process, ActiveClap.process]
    split
    · exact h
    · split
      · exact h
      · split
        · split <;> exact h
        · exact h

/-- A plugin that is not called gets nothing that does not fit, unless it was to be called. -/
private theorem fits_bypass (h : p.buses.Served → p.callable = true → 0 < b.frames → ¬ b.frames ≤ p.maxBlockSize) :
    Fits average p b b.bypass :=
  ⟨by simp [Block.bypass], by simp [Block.bypass], by simp [Block.bypass],
    fun hserved hcall hpos hle => absurd hle (h hserved hcall hpos), fun _ => ⟨rfl, rfl⟩⟩

private theorem fits_refused (h : b.frames ≤ 0 ∨ p.maxBlockSize < b.frames) : Fits average p b b.bypass := by
  apply fits_bypass
  intro _ _ hpos hle
  omega

/-- The caller's own pointers fit a mono plugin. -/
private theorem fits_mono {r : Processed α} (hin : b.frames ≤ b.input.size) (hout : b.frames ≤ b.output.size)
    (hmono : p.buses = .mono) (hcalls : r.calls = [b.monoCall]) : Fits average p b r := by
  refine ⟨fun call hc => ?_, fun call hc => ?_, fun hstereo => ?_, fun _ _ _ _ => ⟨_, hcalls⟩,
    fun hserved => absurd (.inl hmono) hserved⟩
  · rw [hcalls, List.mem_singleton] at hc
    rw [hc, hmono]
    exact ⟨rfl, rfl⟩
  · rw [hcalls, List.mem_singleton] at hc
    subst hc
    refine ⟨rfl, fun c hc => ?_⟩
    simp only [Block.monoCall, List.singleton_append, List.mem_cons, List.not_mem_nil, or_false] at hc
    rcases hc with rfl | rfl
    · exact hin
    · exact hout
  · rw [hmono] at hstereo
    cases hstereo

/-- The scratch buffers fit a stereo plugin. -/
private theorem fits_stereo {s : Scratch α} (hsized : s.Sized p.maxBlockSize) (hle : b.frames ≤ p.maxBlockSize)
    (hstereo : p.buses = .stereo) : Fits average p b (s.callStereo average b).1 := by
  obtain ⟨hinL, hinR, houtL, houtR⟩ := hsized
  have hcalls : (s.callStereo average b).1.calls = [s.call b] := rfl
  refine ⟨fun call hc => ?_, fun call hc => ?_, fun _ call hc => ?_, fun _ _ _ _ => ⟨_, hcalls⟩,
    fun hserved => absurd (.inr hstereo) hserved⟩
  · rw [hcalls, List.mem_singleton] at hc
    rw [hc, hstereo]
    exact ⟨rfl, rfl⟩
  · rw [hcalls, List.mem_singleton] at hc
    subst hc
    refine ⟨rfl, fun c hc => ?_⟩
    simp only [Scratch.call, Scratch.upmix, List.cons_append, List.nil_append, List.mem_cons, List.not_mem_nil,
      or_false] at hc
    rcases hc with rfl | rfl | rfl | rfl
    · change b.frames ≤ s.inL.size
      omega
    · change b.frames ≤ s.inR.size
      omega
    · omega
    · omega
  · rw [hcalls, List.mem_singleton] at hc
    subst hc
    refine ⟨fun c hc => ?_, fun i hi => ?_⟩
    · simp only [Scratch.call, Scratch.upmix, List.mem_cons, List.not_mem_nil, or_false] at hc
      rcases hc with rfl | rfl <;> exact window_memcpy _ _ _
    · exact if_pos hi

/-- The VST3 host always passes one pointer on each side. -/
private theorem fits_vst3_iff {a : ActivePlugin} (hin : b.frames ≤ b.input.size) (hout : b.frames ≤ b.output.size) :
    Fits average (.vst3 a) b (a.process b) ↔ Negotiated (.vst3 a) b := by
  unfold ActivePlugin.process Negotiated
  split
  · rename_i hframes
    refine ⟨fun _ => ?_, fun _ => fits_refused hframes⟩
    rcases hframes with h | h
    · exact .inl h
    · exact .inr (.inl h)
  · rename_i hframes
    constructor
    · intro h
      obtain ⟨hinputs, houtputs⟩ := h.counts b.monoCall (List.mem_singleton.mpr rfl)
      refine .inr (.inr ?_)
      have hbuses : (⟨((1 : Nat) : Int), ((1 : Nat) : Int)⟩ : Buses) = a.arrangement := by
        cases harr : a.arrangement with
        | mk numInputs numOutputs =>
          simp only [Active.buses, harr] at hinputs houtputs
          rw [← hinputs, ← houtputs]
          rfl
      exact hbuses.symm
    · rintro (h | h | hmono)
      · exact absurd (.inl h) hframes
      · exact absurd (.inr h) hframes
      · exact fits_mono hin hout hmono rfl

private theorem fits_vst2 {a : ActiveVst2 α} (ha : Allocated (.vst2 a)) (hin : b.frames ≤ b.input.size)
    (hout : b.frames ≤ b.output.size) : Fits average (.vst2 a) b (a.process average b).1 := by
  unfold ActiveVst2.process
  split
  · exact fits_refused ‹_›
  · rename_i hframes
    have hle : b.frames ≤ a.maxBlockSize := by omega
    split
    · rename_i hreplacing
      have hno : a.effect.canReplacing = false := by simpa using hreplacing
      exact fits_bypass fun _ hcall _ => absurd (hno.symm.trans hcall) (by decide)
    · split
      · exact fits_mono hin hout ‹_› rfl
      · rename_i hmono
        split
        · rename_i hstereo
          exact fits_stereo (p := .vst2 a) (ha hstereo.1) hle hstereo.1
        · rename_i hneither
          refine fits_bypass fun hserved _ _ => ?_
          rcases hserved with heq | heq
          · exact absurd heq hmono
          · obtain ⟨hinL, -, houtL, -⟩ := ha heq
            exact absurd ⟨heq, by omega, by omega⟩ hneither

/-- The CLAP host passes what it found at the first ports. -/
private theorem fits_clap_iff {a : ActiveClap α} (ha : Allocated (.clap a)) (hin : b.frames ≤ b.input.size)
    (hout : b.frames ≤ b.output.size) :
    Fits average (.clap a) b (a.process average b).1 ↔ Negotiated (.clap a) b := by
  have hcounts : ∀ r : Processed α, ∀ call ∈ r.calls, Fits average (.clap a) b r →
      (⟨(call.inputs.length : Int), (call.outputs.length : Int)⟩ : Buses) = (Active.clap a).buses := by
    intro r call hc h
    obtain ⟨hinputs, houtputs⟩ := h.counts call hc
    rw [hinputs, houtputs]
  unfold ActiveClap.process Negotiated
  split
  · rename_i hframes
    refine ⟨fun _ => ?_, fun _ => fits_refused hframes⟩
    rcases hframes with h | h
    · exact .inl h
    · exact .inr (.inl h)
  · rename_i hframes
    have hpos : 0 < b.frames := by omega
    have hle : b.frames ≤ a.maxBlockSize := by omega
    have hkeep : ∀ q : Prop, (b.frames ≤ 0 ∨ (Active.clap a).maxBlockSize < b.frames ∨ q) ↔ q := by
      intro q
      constructor
      · rintro (h | h | h)
        · exact absurd (.inl h) hframes
        · exact absurd (.inr h) hframes
        · exact h
      · exact fun h => .inr (.inr h)
    rw [hkeep]
    split
    · rename_i hmono
      constructor
      · intro h _
        rw [hmono]
        exact hcounts _ b.monoCall (List.mem_singleton.mpr rfl) h
      · intro h
        exact fits_mono hin hout ((h (.inl (.inl hmono))).symm.trans hmono) rfl
    · rename_i hmono
      split
      · rename_i hstereo
        have hsized : a.scratch.Sized a.maxBlockSize := ha hstereo
        have hlarge : ¬ (a.scratch.inL.size < b.frames ∨ a.scratch.outL.size < b.frames) := by
          obtain ⟨hinL, -, houtL, -⟩ := hsized
          omega
        rw [if_neg hlarge]
        constructor
        · intro h _
          rw [hstereo]
          exact hcounts _ (a.scratch.call b) (List.mem_singleton.mpr rfl) h
        · intro h
          exact fits_stereo (p := .clap a) hsized hle ((h (.inl (.inr hstereo))).symm.trans hstereo)
      · rename_i hstereo
        have hqueried : ¬ a.queried.Served := by
          rintro (h | h)
          · exact hmono h
          · exact hstereo h
        constructor
        · rintro h (hserved | hserved)
          · exact absurd hserved hqueried
          · obtain ⟨call, hcall⟩ := h.called hserved rfl hpos hle
            cases hcall
        · intro h
          refine fits_bypass fun hserved _ _ => ?_
          have heq := h (.inr hserved)
          rw [← heq] at hserved
          exact absurd hserved hqueried

/-- After any calls of `Process`, the next one hands the plugin buffers that fit its
channels exactly when the host goes by these: a VST3 plugin has been left in mono, the
first ports of a CLAP plugin are all it has, or the length of the block is refused. -/
theorem buffers_fit_iff (average : α → α → α) (zero : α) (maxBlockSize : Nat) (m : PluginModule)
    (blocks : List (Block α)) (p : Active α)
    (he : exec (Active.step average) (Active.load zero maxBlockSize m) blocks = some p) (b : Block α)
    (hin : b.frames ≤ b.input.size) (hout : b.frames ≤ b.output.size) :
    Fits average p b (p.process average b).1 ↔ Negotiated p b := by
  have hallocated : Allocated p :=
    invariant_of_step Allocated (fun h hs => allocated_step h hs) (allocated_load zero maxBlockSize m) he
  cases p with
  | vst3 a => exact fits_vst3_iff hin hout
  | vst2 a => exact ⟨fun _ => .inr (.inr trivial), fun _ => fits_vst2 hallocated hin hout⟩
  | clap a => exact fits_clap_iff hallocated hin hout

end Fits

/-- A plugin that copies its first channel to every output. -/
def copying (frames : Int) : Block Int :=
  { input := ⟨4, fun i => i⟩, output := ⟨4, fun _ => 0⟩, frames
    plugin := fun call => (true, fun _ => (call.inputs.head?.map Channel.data).getD fun _ => 0) }

/-- A stereo CLAP plugin, a block after the first. -/
theorem buffers_fit_iff_stereo :
    ∃ p, exec (Active.step fun l r : Int => (l + r) / 2) (Active.load 0 4 (.clap ⟨[2], true⟩ ⟨[2], true⟩))
        [copying 4] = some p ∧
      p.buses = .stereo ∧
      Fits (fun l r : Int => (l + r) / 2) p (copying 3) (p.process (fun l r : Int => (l + r) / 2) (copying 3)).1 :=
  ⟨_, rfl, rfl, (buffers_fit_iff _ 0 4 _ [copying 4] _ rfl (copying 3) (by decide) (by decide)).mpr
    (.inr (.inr fun _ => rfl))⟩

/-- A VST3 plugin that stays stereo is called with arrays of one channel. -/
theorem stereo_plugin_called_with_one_channel :
    ∃ a : ActivePlugin, Active.load (0 : Int) 4 (.vst3 ⟨.stereo, false⟩) = .vst3 a ∧ a.arrangement = .stereo ∧
      (a.process (copying 3)).ok = true ∧ ((a.process (copying 3)).calls.map fun c => c.inputs.length) = [1] ∧
      ¬ Fits (fun l r : Int => (l + r) / 2) (.vst3 a) (copying 3) (a.process (copying 3)) := by
  refine ⟨_, rfl, rfl, rfl, rfl, fun h => ?_⟩
  obtain ⟨hinputs, -⟩ := h.counts (copying 3).monoCall (List.mem_singleton.mpr rfl)
  exact absurd hinputs (by decide)

end Plughost.Vst3.Channels
