import Plughost.Lib.IeeeArith
import Plughost.Vst3.ChannelBuffers
import Plughost.Vst3.Rack

/-! Samples through the slots' own `Process`: plugins of one channel get the caller's buffers, for
plugins of two the input is doubled and the outputs are averaged, others are passed by. -/
namespace Plughost.Vst3.StereoPath
open Plughost.Pipeline Plughost.Simulation Plughost.Ieee Channels

/-- A `float`, by its bits. -/
abbrev Sample := BitVec 32

/-- `0.5f * (l + r)`; the processor says which NaN an operation gives. -/
def average (nans : binary32.Nans) (l r : Sample) : Sample := .ofNat 32 (binary32.mean nans l.toNat r.toNat)

/-- The mean of a sample with itself. It overflows from `2 ^ 127` on. -/
def folded (nans : binary32.Nans) (x : Sample) : Sample :=
  match binary32.decode x.toNat with
  | .nan => .ofNat 32 (nans.pick binary32.half (nans.pick x.toNat x.toNat))
  | .infinite _ => x
  | .finite n =>
    if 2 * n.natAbs < binary32.ceiling then x
    else .ofNat 32 (binary32.signed (binary32.isNegative x.toNat) binary32.infinity)

/-- A sample that is a NaN. -/
def IsNan (x : Sample) : Prop := binary32.decode x.toNat = .nan

section Folded
variable {nans : binary32.Nans} {x : Sample}

private theorem average_self (x : Sample) : average nans x x = folded nans x := by
  have hx : x.toNat < binary32.signUnit * 2 := x.isLt
  have hself : BitVec.ofNat 32 x.toNat = x := BitVec.ofNat_toNat .. |>.trans (BitVec.setWidth_eq x)
  unfold average folded
  rw [Format.mean_self (by decide) hx]
  cases binary32.decode x.toNat with
  | nan => rfl
  | infinite s => exact hself
  | finite n =>
    dsimp only
    split_ifs
    · exact hself
    · rfl

private theorem isNan_folded (h : IsNan x) : IsNan (folded nans x) := by
  rw [folded, show binary32.decode x.toNat = .nan from h]
  exact (Format.decode_mod binary32 _).trans (nans.isNan _ _)

/-- A number that has been averaged with itself stays what it is. -/
private theorem folded_folded (h : ¬ IsNan x) : folded nans (folded nans x) = folded nans x := by
  cases hd : binary32.decode x.toNat with
  | nan => exact absurd hd h
  | infinite s => simp only [folded, hd]
  | finite n =>
    by_cases hn : 2 * n.natAbs < binary32.ceiling
    · simp only [folded, hd, if_pos hn]
    · have hinf : ∀ s, binary32.decode (BitVec.ofNat 32 (binary32.signed s binary32.infinity)).toNat = .infinite s := by
        decide
      simp only [folded, hd, if_neg hn, hinf]

private theorem isNan_iterate (h : IsNan x) (k : Nat) : IsNan ((folded nans)^[k] x) := by
  induction k with
  | zero => exact h
  | succ k ih =>
    rw [Function.iterate_succ_apply']
    exact isNan_folded ih

private theorem iterate_folded (h : ¬ IsNan x) (k : Nat) : (folded nans)^[k + 1] x = folded nans x := by
  induction k with
  | zero => rfl
  | succ k ih => rw [Function.iterate_succ_apply', ih, folded_folded h]

private theorem iterate_map {α : Type} (f : α → α) (k : Nat) (xs : List α) : (List.map f)^[k] xs = xs.map f^[k] := by
  induction k generalizing xs with
  | zero => exact (List.map_id xs).symm
  | succ k ih => rw [Function.iterate_succ_apply, ih, List.map_map, Function.iterate_succ]

end Folded

/-- A number of at most so many units. -/
def Within (bound : Nat) (x : Sample) : Prop :=
  ∃ n : Int, binary32.decode x.toNat = .finite n ∧ n.natAbs ≤ bound

theorem Within.average {nans : binary32.Nans} {bound : Nat} {l r : Sample} (hbound : 2 * bound < binary32.ceiling)
    (hl : Within bound l) (hr : Within bound r) : Within bound (average nans l r) := by
  obtain ⟨m, hm, hmb⟩ := hl
  obtain ⟨n, hn, hnb⟩ := hr
  obtain ⟨v, hv, hlow, hhigh⟩ := Format.mean_between (F := binary32) (by decide) hm hn (by omega) (by omega)
  refine ⟨v, ?_, by omega⟩
  rw [← hv]
  exact Format.decode_mod binary32 _

/-- A plugin's own code: what it answers and what it writes on each output, from its state and
the samples on its inputs. -/
structure Plugin (S : Type) where
  answer : S → List (List Sample) → Bool
  render : S → List (List Sample) → Nat → Buffer Sample
  next : S → List (List Sample) → S

/-- What a call of the plugin's process function lets it read. -/
def heard (call : ProcessCall Sample) : List (List Sample) :=
  call.inputs.map fun c => window call.frames.toNat c.data

/-- A plugin, and what the host keeps for it. -/
structure Hosted (S : Type) where
  plugin : Plugin S
  state : S
  active : Active Sample

namespace Hosted
variable {S : Type} (h : Hosted S)

/-- The plugin writes so many samples on each output as the call says. -/
def block (cur dst : Buffer Sample) (frames : Nat) : Block Sample where
  input := ⟨frames, cur⟩
  output := ⟨frames, dst⟩
  frames
  plugin call := (h.plugin.answer h.state (heard call), fun c =>
    memcpy call.frames.toNat ((call.outputs[c]?.map Channel.data).getD dst) (h.plugin.render h.state (heard call) c))

/-- `Process`: the flag, `out`, and the plugin afterwards. -/
def process (nans : binary32.Nans) (cur dst : Buffer Sample) (frames : Nat) : Bool × Buffer Sample × Hosted S :=
  let (r, active) := h.active.process (average nans) (h.block cur dst frames)
  (r.ok, r.output, { h with
    active, state := r.calls.foldl (fun s call => h.plugin.next s (heard call)) h.state })

end Hosted

/-- The ways through `Process`. -/
inductive Course where
  | skip
  | mono
  | stereo
  deriving DecidableEq

/-- The way a block of an admitted length takes. -/
def course : Active Sample → Course
  | .vst3 _ => .mono
  | .vst2 a =>
    if !a.effect.canReplacing then .skip
    else if a.effect.buses = .mono then .mono else if a.effect.buses = .stereo then .stereo else .skip
  | .clap a => if a.queried = .mono then .mono else if a.queried = .stereo then .stereo else .skip

/-- Only a VST3 plugin's own answer counts. -/
def heeds : Active Sample → Bool → Bool
  | .vst3 _, ok => ok
  | .vst2 _, _ | .clap _, _ => true

/-- The scratch buffers after a block. -/
def fill (n : Nat) (x : List Sample) (outs : Nat → Buffer Sample) (s : Scratch Sample) : Scratch Sample where
  inL := ⟨s.inL.size, fun i => x[i]?.getD (s.inL.data i)⟩
  inR := ⟨s.inR.size, fun i => x[i]?.getD (s.inR.data i)⟩
  outL := ⟨s.outL.size, memcpy n s.outL.data (outs 0)⟩
  outR := ⟨s.outR.size, memcpy n s.outR.data (outs 1)⟩

/-- The scratch buffers; a VST3 plugin has none. -/
def scratch : Active Sample → Scratch Sample
  | .vst3 _ => .assign 0 0
  | .vst2 a => a.scratch
  | .clap a => a.scratch

def withScratch (scratch : Scratch Sample) : Active Sample → Active Sample
  | .vst3 a => .vst3 a
  | .vst2 a => .vst2 { a with scratch }
  | .clap a => .clap { a with scratch }

def filled (n : Nat) (x : List Sample) (outs : Nat → Buffer Sample) : Active Sample → Active Sample
  | .vst3 a => .vst3 a
  | .vst2 a => .vst2 { a with scratch := fill n x outs a.scratch }
  | .clap a => .clap { a with scratch := fill n x outs a.scratch }

private theorem withScratch_fill (n : Nat) (x : List Sample) (outs : Nat → Buffer Sample) (p : Active Sample) :
    withScratch (fill n x outs (scratch p)) p = filled n x outs p := by
  cases p <;> rfl

section Course
variable {nans : binary32.Nans} {p : Active Sample} {b : Block Sample}

private theorem process_refused (h : b.frames ≤ 0 ∨ p.maxBlockSize < b.frames) :
    p.process (average nans) b = (b.bypass, p) := by
  cases p with
  | vst3 a =>
    simp only [Active.maxBlockSize] at h
    simp only [Active.process, ActivePlugin.process, if_pos h]
  | vst2 a =>
    simp only [Active.maxBlockSize] at h
    simp only [Active.process, ActiveVst2.process, if_pos h]
  | clap a =>
    simp only [Active.maxBlockSize] at h
    simp only [Active.process, ActiveClap.process, if_pos h]

/-- A block of an admitted length. Of the host's own data only the scratch buffers change. -/
private theorem process_course (hframes : ¬ (b.frames ≤ 0 ∨ p.maxBlockSize < b.frames)) (ha : Allocated p) :
    p.process (average nans) b = match course p with
      | .skip => (b.bypass, p)
      | .mono => (⟨heeds p (b.plugin b.monoCall).1, (b.plugin b.monoCall).2 0, [b.monoCall]⟩, p)
      | .stereo => (((scratch p).callStereo (average nans) b).1, withScratch ((scratch p).callStereo (average nans) b).2 p) := by
  cases p with
  | vst3 a =>
    simp only [Active.maxBlockSize] at hframes
    simp only [Active.process, ActivePlugin.process, if_neg hframes]
    rfl
  | vst2 a =>
    simp only [Active.maxBlockSize] at hframes
    simp only [Active.process, ActiveVst2.process, if_neg hframes, course]
    by_cases hcan : (!a.effect.canReplacing) = true
    · simp only [if_pos hcan]
    by_cases hmono : a.effect.buses = .mono
    · simp only [if_neg hcan, if_pos hmono]
      rfl
    by_cases hstereo : a.effect.buses = .stereo
    · obtain ⟨hinL, -, houtL, -⟩ := ha hstereo
      have hroom : a.effect.buses = .stereo ∧ b.frames ≤ a.scratch.inL.size ∧ b.frames ≤ a.scratch.outL.size :=
        ⟨hstereo, by omega, by omega⟩
      simp only [if_neg hcan, if_neg hmono, if_pos hroom, if_pos hstereo]
      rfl
    · simp only [if_neg hcan, if_neg hmono, hstereo, false_and, if_false]
  | clap a =>
    simp only [Active.maxBlockSize] at hframes
    simp only [Active.process, ActiveClap.process, if_neg hframes, course]
    by_cases hmono : a.queried = .mono
    · simp only [if_pos hmono]
      rfl
    by_cases hstereo : a.queried = .stereo
    · obtain ⟨hinL, -, houtL, -⟩ := ha hstereo
      have hroom : ¬ (a.scratch.inL.size < b.frames ∨ a.scratch.outL.size < b.frames) := by omega
      simp only [if_neg hmono, if_pos hstereo, if_neg hroom]
      rfl
    · simp only [if_neg hmono, if_neg hstereo]

end Course

namespace Hosted
variable {S : Type} {nans : binary32.Nans} {h : Hosted S} {n : Nat} (cur dst : Buffer Sample)

/-- A call with the caller's own buffers. -/
private theorem heard_mono : heard (h.block cur dst n).monoCall = [window n cur] := by
  simp [heard, block, Block.monoCall]

private theorem plugin_mono : (h.block cur dst n).plugin (h.block cur dst n).monoCall =
    (h.plugin.answer h.state [window n cur], fun c => memcpy n dst (h.plugin.render h.state [window n cur] c)) := by
  have hheard := heard_mono (h := h) (n := n) cur dst
  simp only [block] at hheard ⊢
  rw [hheard]
  congr 1
  funext c
  cases c <;> rfl

/-- A call with the scratch buffers. -/
private theorem heard_stereo (s : Scratch Sample) :
    heard (s.call (h.block cur dst n)) = [window n cur, window n cur] := by
  simp [heard, block, Scratch.call, Scratch.upmix]

private theorem callStereo_eq (s : Scratch Sample) : s.callStereo (average nans) (h.block cur dst n) =
    (⟨true, fun i => if i < n then average nans (h.plugin.render h.state [window n cur, window n cur] 0 i)
        (h.plugin.render h.state [window n cur, window n cur] 1 i) else dst i, [s.call (h.block cur dst n)]⟩,
      fill n (window n cur) (h.plugin.render h.state [window n cur, window n cur]) s) := by
  have hheard := heard_stereo (h := h) (n := n) cur dst s
  have hleft : ((h.block cur dst n).plugin (s.call (h.block cur dst n))).2 0 =
      memcpy n s.outL.data (h.plugin.render h.state [window n cur, window n cur] 0) := by
    rw [← hheard]
    rfl
  have hright : ((h.block cur dst n).plugin (s.call (h.block cur dst n))).2 1 =
      memcpy n s.outR.data (h.plugin.render h.state [window n cur, window n cur] 1) := by
    rw [← hheard]
    rfl
  simp only [Scratch.callStereo]
  rw [hleft, hright]
  congr 1
  · congr 1
    funext i
    change (if i < n then _ else _) = _
    split_ifs with hi
    · simp only [memcpy, if_pos hi]
    · rfl
  · unfold fill Scratch.upmix
    simp only [SlotTable.memcpy_eq_window]
    rfl

/-- The way a block of this length takes. -/
def route (h : Hosted S) (n : Nat) : Course :=
  if n = 0 ∨ h.active.maxBlockSize < n then .skip else course h.active

/-- What `Process` does, in terms of the samples it reads. -/
private theorem process_eq (ha : Allocated h.active) : h.process nans cur dst n =
    let x := window n cur
    match h.route n with
    | .skip => (false, dst, h)
    | .mono => (heeds h.active (h.plugin.answer h.state [x]), memcpy n dst (h.plugin.render h.state [x] 0),
        { h with state := h.plugin.next h.state [x] })
    | .stereo => (true, fun i => if i < n then average nans (h.plugin.render h.state [x, x] 0 i)
          (h.plugin.render h.state [x, x] 1 i) else dst i,
        { h with
          state := h.plugin.next h.state [x, x]
          active := filled n x (h.plugin.render h.state [x, x]) h.active }) := by
  have hlength : (h.block cur dst n).frames = n := rfl
  unfold process route
  split_ifs with hrefused
  · rw [process_refused (by omega)]
    rfl
  · have hframes : ¬ ((h.block cur dst n).frames ≤ 0 ∨ h.active.maxBlockSize < (h.block cur dst n).frames) := by
      omega
    rw [process_course hframes ha]
    cases course h.active with
    | skip => rfl
    | mono =>
      dsimp only
      rw [plugin_mono]
      simp only [List.foldl_cons, List.foldl_nil, heard_mono]
    | stereo =>
      dsimp only
      rw [callStereo_eq]
      simp only [List.foldl_cons, List.foldl_nil, heard_stereo, withScratch_fill]

end Hosted

section Slot
variable {S : Type} {nans : binary32.Nans} {h : Hosted S} {x : List Sample}

/-- Samples as a buffer. -/
def sampled (x : List Sample) : Buffer Sample := fun i => x[i]?.getD 0

@[simp] theorem window_sampled (x : List Sample) : window x.length (sampled x) = x := by
  apply List.ext_getElem
  · exact window_length ..
  · intro i hi hx
    simp [window, sampled, List.getElem?_eq_getElem hx]

/-- A slot's `Process`, as the chain sees it. -/
def slot (nans : binary32.Nans) (S : Type) : Processor (Hosted S) Sample where
  process h x :=
    let (ok, out, h) := h.process nans (sampled x) (fun _ => 0) x.length
    (if ok then some (window x.length out) else none, h)
  leaves h x dst := (h.process nans (sampled x) dst x.length).2.1
  full h x y hy := by
    dsimp only at hy
    split at hy
    · cases hy
      exact window_length ..
    · cases hy

/-- Only the samples that the block has are read. -/
private theorem process_sampled (ha : Allocated h.active) (cur dst : Buffer Sample) (n : Nat) :
    h.process nans (sampled (window n cur)) dst n = h.process nans cur dst n := by
  have hwindow := window_sampled (window n cur)
  rw [window_length] at hwindow
  rw [Hosted.process_eq _ _ ha, Hosted.process_eq _ _ ha, hwindow]

/-- The flag, the samples written and the plugin afterwards do not depend on what `out` held. -/
private theorem process_out (ha : Allocated h.active) (cur dst dst' : Buffer Sample) (n : Nat) :
    (h.process nans cur dst n).1 = (h.process nans cur dst' n).1 ∧ (h.process nans cur dst n).2.2 = (h.process nans cur dst' n).2.2 ∧
    ((h.process nans cur dst n).1 = true → window n (h.process nans cur dst n).2.1 = window n (h.process nans cur dst' n).2.1) := by
  rw [Hosted.process_eq _ _ ha, Hosted.process_eq _ _ ha]
  dsimp only
  cases h.route n with
  | skip => exact ⟨rfl, rfl, fun h => absurd h Bool.false_ne_true⟩
  | mono =>
    refine ⟨rfl, rfl, fun _ => ?_⟩
    rw [window_memcpy, window_memcpy]
  | stereo =>
    refine ⟨rfl, rfl, fun _ => window_congr fun i hi => ?_⟩
    simp only [if_pos hi]

/-- The chain's view of a slot is the slot's own `Process`. -/
theorem slot_run (ha : Allocated h.active) (cur dst : Buffer Sample) (n : Nat) :
    (slot nans S).run h cur dst n = h.process nans cur dst n := by
  obtain ⟨hok, hafter, hwindow⟩ := process_out ha cur dst (fun _ => 0) n
  simp only [Processor.run, slot, window_length, process_sampled ha]
  rw [← hok, ← hafter]
  cases hflag : (h.process nans cur dst n).1 with
  | false =>
    simp only [Bool.false_eq_true, if_false]
    rw [← hflag]
  | true =>
    simp only [if_true]
    rw [← hwindow hflag, ← SlotTable.memcpy_eq_window]
    have hself : memcpy n (h.process nans cur dst n).2.1 (h.process nans cur dst n).2.1 = (h.process nans cur dst n).2.1 := by
      funext i
      simp [memcpy]
    rw [hself, ← hflag]

/-- A slot's `Process`, by the way that the block takes. -/
private theorem slot_process (ha : Allocated h.active) : (slot nans S).process h x = match h.route x.length with
    | .skip => (none, h)
    | .mono => (if heeds h.active (h.plugin.answer h.state [x]) then
          some (window x.length (h.plugin.render h.state [x] 0)) else none,
        { h with state := h.plugin.next h.state [x] })
    | .stereo => (some (window x.length fun i => average nans (h.plugin.render h.state [x, x] 0 i)
          (h.plugin.render h.state [x, x] 1 i)),
        { h with
          state := h.plugin.next h.state [x, x]
          active := filled x.length x (h.plugin.render h.state [x, x]) h.active }) := by
  simp only [slot]
  rw [Hosted.process_eq _ _ ha, window_sampled]
  cases h.route x.length with
  | skip => rfl
  | mono =>
    dsimp only
    rw [window_memcpy]
  | stereo =>
    dsimp only
    rw [if_pos rfl]
    refine Prod.ext (congrArg some (window_congr fun i hi => ?_)) rfl
    simp only [if_pos hi]

/-- A plugin of a kind, set up for blocks of up to `maxBlockSize` samples. -/
structure Sound (Kind : Plugin S → Prop) (maxBlockSize : Nat) (h : Hosted S) : Prop where
  kind : Kind h.plugin
  allocated : Allocated h.active
  size : h.active.maxBlockSize = maxBlockSize

private theorem allocated_filled {n : Nat} {outs : Nat → Buffer Sample} {p : Active Sample} (ha : Allocated p) :
    Allocated (filled n x outs p) := by
  cases p with
  | vst3 a => trivial
  | vst2 a => exact ha
  | clap a => exact ha

variable {Kind : Plugin S → Prop} {maxBlockSize : Nat}

/-- A block leaves the plugin sound, and called with as many channels as before. -/
theorem Sound.process (hs : Sound Kind maxBlockSize h) : Sound Kind maxBlockSize ((slot nans S).process h x).2 ∧
    course ((slot nans S).process h x).2.active = course h.active := by
  rw [slot_process hs.allocated]
  cases h.route x.length with
  | skip => exact ⟨hs, rfl⟩
  | mono => exact ⟨⟨hs.kind, hs.allocated, hs.size⟩, rfl⟩
  | stereo =>
    refine ⟨⟨hs.kind, allocated_filled hs.allocated, Eq.trans ?_ hs.size⟩, ?_⟩
    · dsimp only
      cases h.active <;> rfl
    · dsimp only
      cases h.active <;> rfl

/-- A plugin that copies each input to the output of the same number. -/
def Through (p : Plugin S) : Prop :=
  ∀ s xs c x, xs[c]? = some x → window x.length (p.render s xs c) = x

/-- A plugin that makes nothing larger than so many units of what is no larger. -/
def Bounded (bound : Nat) (p : Plugin S) : Prop :=
  ∀ s xs, (∀ x ∈ xs, ∀ v ∈ x, Within bound v) → ∀ c x, xs[c]? = some x →
    ∀ v ∈ window x.length (p.render s xs c), Within bound v

private theorem window_average {n : Nat} {l r : Buffer Sample} (hl : window n l = x) (hr : window n r = x) :
    window n (fun i => average nans (l i) (r i)) = x.map (folded nans) := by
  have hsame := List.map_inj_left.mp (hl.trans hr.symm)
  rw [← hl, window, window, List.map_map]
  refine List.map_congr_left fun i hi => ?_
  rw [← hsame i hi, average_self]
  rfl

private theorem slot_through (hs : Sound Through maxBlockSize h) (hx : x.length ≤ maxBlockSize) :
    ((slot nans S).process h x).1.getD x = if course h.active = .stereo then x.map (folded nans) else x := by
  rw [slot_process hs.allocated]
  by_cases hnil : x = []
  · subst hnil
    simp [Hosted.route]
  · have hroute : h.route x.length = course h.active := by
      unfold Hosted.route
      rw [hs.size, if_neg]
      rintro (h | h)
      · exact hnil (List.length_eq_zero_iff.mp h)
      · omega
    rw [hroute]
    cases hc : course h.active with
    | skip => rfl
    | mono =>
      dsimp only
      rw [hs.kind h.state [x] 0 x rfl]
      split <;> rfl
    | stereo =>
      dsimp only
      rw [window_average (hs.kind h.state [x, x] 0 x rfl) (hs.kind h.state [x, x] 1 x rfl)]
      rfl

private theorem slot_bounded {bound : Nat} (hbound : 2 * bound < binary32.ceiling)
    (hs : Sound (Bounded bound) maxBlockSize h) (hx : ∀ v ∈ x, Within bound v) :
    ∀ v ∈ ((slot nans S).process h x).1.getD x, Within bound v := by
  rw [slot_process hs.allocated]
  cases h.route x.length with
  | skip => exact hx
  | mono =>
    have hbounded := hs.kind h.state [x] (by simpa using hx) 0 x rfl
    dsimp only
    split
    · exact hbounded
    · exact hx
  | stereo =>
    have hheard : ∀ y ∈ [x, x], ∀ v ∈ y, Within bound v := by simpa using hx
    have hleft := hs.kind h.state [x, x] hheard 0 x rfl
    have hright := hs.kind h.state [x, x] hheard 1 x rfl
    intro v hv
    obtain ⟨i, hi, rfl⟩ := List.mem_map.mp hv
    exact Within.average hbound (hleft _ (List.mem_map_of_mem hi)) (hright _ (List.mem_map_of_mem hi))

end Slot

section Rack
variable {S V C : Type} {nans : binary32.Nans} {Kind : Plugin S → Prop} {maxBlockSize : Nat} {rk : Rack (Hosted S) V C} {x : List Sample}

/-- A place whose plugin is called with two channels on each side. -/
def stereoAt (rk : Rack (Hosted S) V C) (i : Fin kMaxSlots) : Bool :=
  match rk.slots i with
  | none => false
  | some m => !rk.bypass i && course m.plugin.active = .stereo

/-- The number of such places, if the rack is on. -/
def stereoCount (rk : Rack (Hosted S) V C) : Nat :=
  if rk.enabled then (List.finRange kMaxSlots).countP (stereoAt rk) else 0

/-- One place: its plugin stays sound, and no place's way changes. -/
private theorem stage_sound (hall : rk.All (Sound Kind maxBlockSize)) (i : Fin kMaxSlots) (x : List Sample) :
    ((stage (Rack.played fun _ => slot nans S) i (rk, x)).1).All (Sound Kind maxBlockSize) ∧
    ∀ j, stereoAt (stage (Rack.played fun _ => slot nans S) i (rk, x)).1 j = stereoAt rk j := by
  refine ⟨hall.played (fun _ _ _ hs => hs.process.1) x, fun j => ?_⟩
  unfold stage Rack.played
  dsimp only
  cases hm : rk.slots i with
  | none => rfl
  | some m =>
    dsimp only
    split
    · rfl
    · unfold stereoAt
      by_cases hij : j = i
      · subst hij
        rw [Rack.slots_put_self, hm]
        dsimp only
        rw [(hall j m hm).process.2]
        rfl
      · rw [Rack.slots_put_ne _ hij]
        rfl

variable (nans) in
private theorem stage_through (hall : rk.All (Sound Through maxBlockSize)) (hx : x.length ≤ maxBlockSize)
    (i : Fin kMaxSlots) :
    (stage (Rack.played fun _ => slot nans S) i (rk, x)).2 = if stereoAt rk i then x.map (folded nans) else x := by
  unfold stage Rack.played stereoAt
  dsimp only
  cases hm : rk.slots i with
  | none => rfl
  | some m =>
    dsimp only
    split
    · rename_i hb
      rw [hb]
      rfl
    · rename_i hb
      dsimp only
      rw [slot_through (hall i m hm) hx]
      simp only [Bool.not_eq_true] at hb
      simp only [hb, Bool.not_false, Bool.true_and, decide_eq_true_eq]

private theorem play_through (hall : rk.All (Sound Through maxBlockSize)) (hx : x.length ≤ maxBlockSize) :
    (rk.play (fun _ => slot nans S) x).2 = x.map (folded nans)^[stereoCount rk] := by
  unfold Rack.play stereoCount
  cases rk.enabled with
  | false => exact (List.map_id x).symm
  | true =>
    refine (through_marks (P := fun p : Rack (Hosted S) V C × List Sample =>
      p.1.All (Sound Through maxBlockSize) ∧ p.2.length ≤ maxBlockSize ∧ ∀ j, stereoAt p.1 j = stereoAt rk j)
      (fun i p hp => ?_) _ ⟨hall, hx, fun _ => rfl⟩).trans (iterate_map _ _ x)
    obtain ⟨now, y⟩ := p
    obtain ⟨hnow, hy, hsame⟩ := hp
    obtain ⟨hafter, hway⟩ := stage_sound hnow i y
    have hvalue := stage_through nans hnow hy i
    rw [hsame i] at hvalue
    refine ⟨⟨hafter, ?_, fun j => (hway j).trans (hsame j)⟩, hvalue⟩
    rw [hvalue]
    split
    · rw [List.length_map]
      exact hy
    · exact hy

variable (nans) in
private theorem play_bounded {bound : Nat} (hbound : 2 * bound < binary32.ceiling)
    (hall : rk.All (Sound (Bounded bound) maxBlockSize)) (hx : ∀ v ∈ x, Within bound v) :
    ∀ v ∈ (rk.play (fun _ => slot nans S) x).2, Within bound v := by
  unfold Rack.play
  split
  · refine (through_keeps (P := fun p : Rack (Hosted S) V C × List Sample =>
      p.1.All (Sound (Bounded bound) maxBlockSize) ∧ ∀ v ∈ p.2, Within bound v) (fun i p hp => ?_) _ ⟨hall, hx⟩).2
    obtain ⟨now, y⟩ := p
    obtain ⟨hnow, hy⟩ := hp
    refine ⟨(stage_sound hnow i y).1, ?_⟩
    unfold stage Rack.played
    dsimp only
    cases hm : now.slots i with
    | none => exact hy
    | some m =>
      dsimp only
      split
      · exact hy
      · exact slot_bounded hbound (hnow i m hm) hy
  · exact hx

end Rack

section Table
variable {S V C : Type} {nans : binary32.Nans} {Kind : Plugin S → Prop} {sampleRate : BitVec 64} {maxBlockSize : Nat}

/-- A call of the chain whose plugins are of a kind, and freshly activated when loaded; setting a
parameter changes their state only. -/
def Ordinary (nans : binary32.Nans) (Kind : Plugin S → Prop) (sampleRate : BitVec 64) (maxBlockSize : Nat) :
    ChainCall (Hosted S) V C Sample → Prop
  | .control (.loadSlot l _ path) => ∀ h info, (l.vst3 path sampleRate maxBlockSize = .activated h info ∨
      l.vst2 path sampleRate maxBlockSize = .activated h info ∨
      l.clap path sampleRate maxBlockSize = .activated h info) →
      Kind h.plugin ∧ ∃ m, h.active = Active.load 0 maxBlockSize m
  | .setParam set _ paramId normalized =>
    ∀ h, (set h paramId normalized).2.plugin = h.plugin ∧ (set h paramId normalized).2.active = h.active
  | .process proc _ _ _ => proc = fun _ => slot nans S
  | _ => True

private theorem maxBlockSize_load (m : PluginModule) :
    (Active.load (0 : Sample) maxBlockSize m).maxBlockSize = maxBlockSize := by
  cases m <;> rfl

private theorem Ordinary.respects {c : ChainCall (Hosted S) V C Sample}
    (h : Ordinary nans Kind sampleRate maxBlockSize c) :
    Rack.Respects (Sound Kind maxBlockSize) sampleRate maxBlockSize c := by
  unfold Rack.Respects
  split
  · intro info m hfind
    obtain ⟨hkind, module, hactive⟩ := h m.plugin info (Loader.activated_of_find hfind)
    exact ⟨hkind, hactive ▸ allocated_load 0 maxBlockSize module, hactive ▸ maxBlockSize_load module⟩
  · intro p hp
    obtain ⟨hplugin, hactive⟩ := h p
    exact ⟨hplugin ▸ hp.kind, hactive ▸ hp.allocated, hactive ▸ hp.size⟩
  · intro f p x hp
    cases h
    exact hp.process.1
  · trivial

variable {calls : List (ChainCall (Hosted S) V C Sample)} {answered : List (ChainAnswer V Sample)}
  {ch : SlotTable (Hosted S) V C Sample}

/-- After any ordinary calls the table stands for a rack of sound plugins. -/
private theorem stands_sound (hcalls : ∀ c ∈ calls, Ordinary nans Kind sampleRate maxBlockSize c)
    (he : answers SlotTable.call (SlotTable.initial sampleRate maxBlockSize 0) calls = some (answered, ch)) :
    ∃ rk, SlotTable.Stands sampleRate maxBlockSize ch rk ∧ rk.All (Sound Kind maxBlockSize) := by
  have halike := alike_answers (fun c h => SlotTable.Stands.call h c)
    (SlotTable.stands_initial sampleRate maxBlockSize 0) calls
  rw [he] at halike
  generalize hrack : answers (fun rk c => Rack.call rk sampleRate maxBlockSize c) Rack.initial calls = result
    at halike
  cases halike with
  | some hmatch =>
    refine ⟨_, hmatch.2, answers_keep (fun rk : Rack (Hosted S) V C => rk.All (Sound Kind maxBlockSize))
      (fun hall hc hcall => hall.call hc hcall) ?_ (fun c hc => (hcalls c hc).respects) hrack⟩
    intro i m hm
    cases hm

/-- The loaded slots that are not bypassed, whose plugin is called with two channels on each side,
if the master is on. -/
def tableStereoCount (ch : SlotTable (Hosted S) V C Sample) : Nat :=
  if ch.masterEnabled then (List.finRange kMaxSlots).countP fun i =>
    ch.loaded i && !ch.bypass i && ((ch.object i).bind SlotHost.active).any fun h => course h.active = .stereo
  else 0

private theorem tableStereoCount_eq {rk : Rack (Hosted S) V C} (h : SlotTable.Stands sampleRate maxBlockSize ch rk) :
    tableStereoCount ch = stereoCount rk := by
  unfold tableStereoCount stereoCount
  rw [h.enabled, h.bypass, h.objects]
  congr 2
  funext i
  unfold stereoAt Rack.objects
  cases hr : rk.slots i with
  | none => simp
  | some m => simp [(h.mounted hr).2.1, Mounted.host]

/-- A sample that is no NaN, and finite only below `2 ^ 127`. -/
def Plain (x : Sample) : Prop :=
  ¬ IsNan x ∧ ∀ n, binary32.decode x.toNat = .finite n → 2 * n.natAbs < binary32.ceiling

private theorem folded_plain {x : Sample} (h : Plain x) : folded nans x = x := by
  unfold folded
  cases hd : binary32.decode x.toNat with
  | nan => exact absurd hd h.1
  | infinite s => rfl
  | finite n => exact if_pos (h.2 n hd)

private theorem getElem?_window (n : Nat) (f g : Buffer Sample) (i : Nat) :
    (window n f)[i]?.getD (g i) = if i < n then f i else g i :=
  (congrFun (SlotTable.memcpy_eq_window n g f) i).symm

/-- `out` after a block, for any frame count. -/
private theorem process_samples (rk : Rack (Hosted S) V C) (input out : Buffer Sample) (frames : Int) (i : Nat) :
    (rk.process (fun _ => slot nans S) maxBlockSize input out frames).1 i =
      (rk.play (fun _ => slot nans S) (window (min frames maxBlockSize).toNat input)).2[i]?.getD (out i) := by
  unfold Rack.process
  split
  · rename_i hframes
    have hlength := rk.length_play (fun _ => slot nans S) (window (min frames maxBlockSize).toNat input)
    rw [window_length] at hlength
    rw [List.getElem?_eq_none (by omega)]
    rfl
  · rfl

/-- Plugins that copy their inputs, of any formats and in any slots: after any ordinary calls a
block leaves in `out` its input, each sample averaged with itself once for every stereo plugin that
plays. Once is as good as often for a number, a NaN stays one, and a plain sample is not changed. -/
theorem table_passes_audio (hcalls : ∀ c ∈ calls, Ordinary nans Through sampleRate maxBlockSize c)
    (he : answers SlotTable.call (SlotTable.initial sampleRate maxBlockSize 0) calls = some (answered, ch))
    (input out : Buffer Sample) (frames : Int) :
    let n := (min frames maxBlockSize).toNat
    let after := (ch.processed (fun _ => slot nans S) input out frames).1
    (after = fun i => if i < n then (folded nans)^[tableStereoCount ch] (input i) else out i) ∧
      ∀ i < n, (¬ IsNan (input i) → after i = if tableStereoCount ch = 0 then input i else folded nans (input i)) ∧
        (IsNan (input i) → IsNan (after i)) ∧ (Plain (input i) → after i = input i) := by
  obtain ⟨rk, hstands, hall⟩ := stands_sound hcalls he
  have hafter := (hstands.process (fun _ => slot nans S) input out frames).1
  dsimp only
  have hwhole : (ch.processed (fun _ => slot nans S) input out frames).1 = fun i =>
      if i < (min frames maxBlockSize).toNat then (folded nans)^[tableStereoCount ch] (input i) else out i := by
    funext i
    rw [hafter, tableStereoCount_eq hstands, process_samples,
      play_through hall ((window_length ..).trans_le (by omega))]
    have hmap : (window (min frames maxBlockSize).toNat input).map (folded nans)^[stereoCount rk] =
        window (min frames maxBlockSize).toNat ((folded nans)^[stereoCount rk] ∘ input) := List.map_map ..
    rw [hmap]
    exact getElem?_window _ ((folded nans)^[stereoCount rk] ∘ input) out i
  have hnumber : ∀ x, ¬ IsNan x →
      (folded nans)^[tableStereoCount ch] x = if tableStereoCount ch = 0 then x else folded nans x := by
    intro x hx
    cases tableStereoCount ch with
    | zero => rfl
    | succ k => exact iterate_folded hx k
  refine ⟨hwhole, fun i hi => ?_⟩
  rw [hwhole]
  dsimp only
  rw [if_pos hi]
  refine ⟨hnumber _, fun hnan => isNan_iterate hnan _, fun hplain => ?_⟩
  rw [hnumber _ hplain.1]
  split
  · rfl
  · exact folded_plain hplain

/-- A plugin that copies its inputs, as a stereo VST2 effect. -/
def copier : Hosted Unit where
  plugin :=
    { answer := fun _ _ => true
      render := fun _ xs c => ((xs[c]?).map sampled).getD fun _ => 0
      next := fun s _ => s }
  state := ()
  active := .load 0 4 (.vst2 ⟨true, .stereo⟩)

/-- Every NaN is the same. -/
def oneNan : binary32.Nans := .constant (by decide)

/-- It is loaded from a file `a.so` into slot 0, and a block of ones goes through it. -/
def copierCalls : List (ChainCall (Hosted Unit) Unit Unit Sample) :=
  [.control (.loadSlot ⟨fun _ => true, fun _ _ _ => .noAudioEffect, fun _ _ _ => .activated copier ⟨[], [], []⟩,
      fun _ _ _ => .noEntry⟩ 0 (text "a.so")),
    .control (.setChainEnabled true), .process (fun _ => slot oneNan Unit) (fun _ => 0x3F800000) (fun _ => 0) 4]

private theorem copier_through : Through copier.plugin := by
  intro s xs c x hx
  have hrender : copier.plugin.render s xs c = sampled x := by
    change ((xs[c]?).map sampled).getD _ = _
    rw [hx]
    rfl
  rw [hrender, window_sampled]

private theorem copierCalls_ordinary {Kind : Plugin Unit → Prop} (h : Kind copier.plugin) :
    ∀ c ∈ copierCalls, Ordinary oneNan Kind 0 4 c := by
  intro c hc
  simp only [copierCalls, List.mem_cons, List.not_mem_nil, or_false] at hc
  rcases hc with rfl | rfl | rfl
  · rintro found info (hfound | hfound | hfound)
    · cases hfound
    · cases hfound
      exact ⟨h, .vst2 ⟨true, .stereo⟩, rfl⟩
    · cases hfound
  · trivial
  · rfl

private theorem copierCalls_run : ∃ answered ch,
    answers SlotTable.call (SlotTable.initial 0 4 0 : SlotTable (Hosted Unit) Unit Unit Sample) copierCalls =
      some (answered, ch) ∧ tableStereoCount ch = 1 := by
  obtain ⟨⟨answered, ch⟩, he, hcount⟩ := Option.map_eq_some_iff.mp
    (show (answers SlotTable.call (SlotTable.initial 0 4 0 : SlotTable (Hosted Unit) Unit Unit Sample)
      copierCalls).map (fun p => tableStereoCount p.2) = some 1 by decide +kernel)
  exact ⟨answered, ch, he, hcount⟩

/-- From `2 ^ 127` on it is turned into infinity. -/
theorem table_passes_audio_overflow : ∃ answered ch,
    answers SlotTable.call (SlotTable.initial 0 4 0) copierCalls = some (answered, ch) ∧
    (ch.processed (fun _ => slot oneNan Unit) (fun _ => 0x7F000000) (fun _ => 0) 3).1 =
      fun i => if i < 3 then 0x7F800000 else 0 := by
  obtain ⟨answered, ch, he, hcount⟩ := copierCalls_run
  have hinf : folded oneNan 0x7F000000 = 0x7F800000 := by decide
  refine ⟨answered, ch, he, (table_passes_audio (copierCalls_ordinary copier_through) he _ _ 3).1.trans ?_⟩
  simp only [hcount, Function.iterate_one, hinf]
  rfl

/-- Plugins that make nothing larger than a bound below `2 ^ 127`: after any ordinary calls neither
does the chain, the averaging of two channels included. -/
theorem table_keeps_bound {bound : Nat} (hbound : 2 * bound < binary32.ceiling)
    (hcalls : ∀ c ∈ calls, Ordinary nans (Bounded bound) sampleRate maxBlockSize c)
    (he : answers SlotTable.call (SlotTable.initial sampleRate maxBlockSize 0) calls = some (answered, ch))
    (input out : Buffer Sample) (frames : Int)
    (hinput : ∀ i < (min frames maxBlockSize).toNat, Within bound (input i)) :
    let after := (ch.processed (fun _ => slot nans S) input out frames).1
    (∀ i < (min frames maxBlockSize).toNat, Within bound (after i)) ∧
      ∀ i, (min frames maxBlockSize).toNat ≤ i → after i = out i := by
  obtain ⟨rk, hstands, hall⟩ := stands_sound hcalls he
  have hafter := (hstands.process (fun _ => slot nans S) input out frames).1
  have hlength := rk.length_play (fun _ => slot nans S) (window (min frames maxBlockSize).toNat input)
  rw [window_length] at hlength
  have hsamples : ∀ v ∈ window (min frames maxBlockSize).toNat input, Within bound v := by
    intro v hv
    obtain ⟨i, hi, rfl⟩ := List.mem_map.mp hv
    exact hinput i (List.mem_range.mp hi)
  have hplayed := play_bounded nans hbound hall hsamples
  dsimp only
  rw [hafter]
  refine ⟨fun i hi => ?_, fun i hi => ?_⟩
  · rw [process_samples, List.getElem?_eq_getElem (by omega)]
    exact hplayed _ (List.getElem_mem _)
  · rw [process_samples, List.getElem?_eq_none (by omega)]
    rfl

private theorem copier_bounded (bound : Nat) : Bounded bound copier.plugin := by
  intro s xs hxs c x hx
  rw [copier_through s xs c x hx]
  exact hxs x (List.mem_of_getElem? hx)

/-- Ones and minus ones, through a stereo plugin. -/
theorem table_keeps_bound_copier : ∃ answered ch,
    answers SlotTable.call (SlotTable.initial 0 4 0) copierCalls = some (answered, ch) ∧
    ∀ i < 4, Within (2 ^ 149) ((ch.processed (fun _ => slot oneNan Unit)
      (fun i => if i % 2 = 0 then 0x3F800000 else 0xBF800000) (fun _ => 0) 5).1 i) := by
  obtain ⟨answered, ch, he, -⟩ := copierCalls_run
  refine ⟨answered, ch, he, (table_keeps_bound (show 2 * 2 ^ 149 < binary32.ceiling by decide)
    (copierCalls_ordinary (copier_bounded _)) he _ _ 5 fun i _ => ?_).1⟩
  split
  · exact ⟨2 ^ 149, by decide, by decide⟩
  · exact ⟨-2 ^ 149, by decide, by decide⟩

end Table
end Plughost.Vst3.StereoPath
