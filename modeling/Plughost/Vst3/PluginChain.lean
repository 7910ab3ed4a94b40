import Mathlib.Algebra.GroupWithZero.Nat
import Mathlib.Data.Fin.VecNotation
import Mathlib.Data.List.FinRange
import Mathlib.Logic.Function.Basic
import Plughost.Lib.Pipeline

/-! `PluginChain::Process`: the eight slots in order, ping-ponging between two
scratch buffers. Samples are opaque, so equal means equal bit for bit. -/
namespace Plughost.Vst3
open Plughost.Pipeline

/-- A buffer is what a `float*` points at, by sample index. -/
abbrev Buffer (α : Type*) := Nat → α

/-- The first `n` samples. -/
def window {α : Type*} (n : Nat) (b : Buffer α) : List α := (List.range n).map b

def memcpy {α : Type*} (n : Nat) (dst src : Buffer α) : Buffer α :=
  fun i => if i < n then src i else dst i

theorem window_congr {α : Type*} {n : Nat} {a b : Buffer α} (h : ∀ i < n, a i = b i) :
    window n a = window n b := List.map_congr_left fun i hi => h i (List.mem_range.mp hi)

@[simp] theorem window_length {α : Type*} (n : Nat) (b : Buffer α) : (window n b).length = n := by
  simp [window]

@[simp] theorem window_memcpy {α : Type*} (n : Nat) (dst src : Buffer α) :
    window n (memcpy n dst src) = window n src := window_congr fun i hi => by simp [memcpy, hi]

theorem memcpy_beyond {α : Type*} {n i : Nat} (h : n ≤ i) (dst src : Buffer α) :
    memcpy n dst src i = dst i := by simp [memcpy, Nat.not_lt.mpr h]

/-- The `Process` of one format's slot object: it reads the samples it is given
and its own state. On success `process` is what the destination starts with;
`leaves` is whatever else it writes there, on success or before failing. -/
structure Processor (O α : Type*) where
  process : O → List α → Option (List α) × O
  leaves : O → List α → Buffer α → Buffer α
  full : ∀ o x y, (process o x).1 = some y → y.length = x.length

/-- `slot->Process(cur, dst, frames)`: the flag, the destination, the object. -/
def Processor.run {O α : Type*} (p : Processor O α) (o : O) (cur dst : Buffer α) (frames : Nat) :
    Bool × Buffer α × O :=
  let x := window frames cur
  match p.process o x with
  | (some y, o') => (true, fun i => y[i]?.getD (p.leaves o x dst i), o')
  | (none, o') => (false, p.leaves o x dst, o')

private theorem Processor.run_flag {O α : Type*} (p : Processor O α) (o : O) (cur dst : Buffer α) (n : Nat) :
    (p.run o cur dst n).1 = (p.process o (window n cur)).1.isSome := by
  simp only [Processor.run]
  split <;> rename_i h <;> rw [h] <;> rfl

private theorem Processor.run_object {O α : Type*} (p : Processor O α) (o : O) (cur dst : Buffer α) (n : Nat) :
    (p.run o cur dst n).2.2 = (p.process o (window n cur)).2 := by
  simp only [Processor.run]
  split <;> rename_i h <;> rw [h]

/-- On success the destination starts with the samples produced, whatever it held. -/
private theorem Processor.run_window {O α : Type*} (p : Processor O α) (o : O) (cur dst : Buffer α)
    {n : Nat} {y : List α} (h : (p.process o (window n cur)).1 = some y) :
    window n (p.run o cur dst n).2.1 = y := by
  have hlen : y.length = n := by rw [p.full _ _ _ h, window_length]
  simp only [Processor.run]
  split <;> rename_i hp <;> rw [hp] at h <;> cases h
  apply List.ext_getElem
  · rw [window_length, hlen]
  · intro i hi hy
    simp [window, List.getElem?_eq_getElem hy]

inductive SlotFormat where
  | empty | vst3 | vst2 | clap
  deriving DecidableEq, Repr

abbrev kMaxSlots : Nat := 8

instance : NeZero kMaxSlots := ⟨Nat.succ_ne_zero 7⟩

/-- The chain as `Process` sees it. The three arrays hold the slot objects. -/
structure PluginChain (O α : Type*) where
  format : Fin kMaxSlots → SlotFormat
  slotsVst3 : Fin kMaxSlots → Option O
  slotsVst2 : Fin kMaxSlots → Option O
  slotsClap : Fin kMaxSlots → Option O
  bypass : Fin kMaxSlots → Bool
  loaded : Fin kMaxSlots → Bool
  masterEnabled : Bool
  maxBlockSize : Int
  scratchA : Buffer α
  scratchB : Buffer α

namespace PluginChain
variable {O α : Type*}

/-- The object the format switch of slot `i` finds, if its pointer is set. -/
def object (ch : PluginChain O α) (i : Fin kMaxSlots) : Option O :=
  match ch.format i with
  | .empty => none
  | .vst3 => ch.slotsVst3 i
  | .vst2 => ch.slotsVst2 i
  | .clap => ch.slotsClap i

/-- The object of slot `i` after a call on it. -/
def setObject (ch : PluginChain O α) (i : Fin kMaxSlots) (o : O) : PluginChain O α :=
  match ch.format i with
  | .empty => ch
  | .vst3 => { ch with slotsVst3 := Function.update ch.slotsVst3 i (some o) }
  | .vst2 => { ch with slotsVst2 := Function.update ch.slotsVst2 i (some o) }
  | .clap => { ch with slotsClap := Function.update ch.slotsClap i (some o) }

/-- `scratch[which]`. -/
def scratch (ch : PluginChain O α) (which : Bool) : Buffer α := if which then ch.scratchB else ch.scratchA

def setScratch (ch : PluginChain O α) (which : Bool) (b : Buffer α) : PluginChain O α :=
  if which then { ch with scratchB := b } else { ch with scratchA := b }

end PluginChain

/-- What `cur` and `dst` may point at inside the loop. -/
inductive Pointer where
  | input
  | scratch (which : Bool)
  deriving DecidableEq, Repr

/-- The locals of the loop, and the pointers each slot was called with. -/
structure Walk (O α : Type*) where
  chain : PluginChain O α
  cur : Pointer
  which : Bool
  touched : Bool
  calls : List (Fin kMaxSlots × Pointer × Pointer)

namespace Walk
variable {O α : Type*}

def read (w : Walk O α) (input : Buffer α) : Buffer α :=
  match w.cur with
  | .input => input
  | .scratch b => w.chain.scratch b

/-- The loop body for slot `i`. -/
def visit (proc : SlotFormat → Processor O α) (input : Buffer α) (frames : Nat) (w : Walk O α)
    (i : Fin kMaxSlots) : Walk O α :=
  if !w.chain.loaded i then w
  else if w.chain.bypass i then w
  else
    match w.chain.object i with
    | none => w
    | some o =>
      let (ok, dst, o') :=
        (proc (w.chain.format i)).run o (w.read input) (w.chain.scratch w.which) frames
      let w' := { w with
        chain := (w.chain.setScratch w.which dst).setObject i o'
        calls := w.calls ++ [(i, w.cur, .scratch w.which)] }
      if !ok then w'
      else { w' with cur := .scratch w.which, which := !w.which, touched := true }

end Walk

/-- The chain afterwards, the caller's `out`, and the pointers passed to slots. -/
structure ProcessResult (O α : Type*) where
  chain : PluginChain O α
  out : Buffer α
  calls : List (Fin kMaxSlots × Pointer × Pointer)

namespace PluginChain
variable {O α : Type*}

/-- `PluginChain::Process`. -/
def process (proc : SlotFormat → Processor O α) (ch : PluginChain O α) (input out : Buffer α)
    (frames : Int) : ProcessResult O α :=
  if frames ≤ 0 then ⟨ch, out, []⟩
  else
    let n := (if frames > ch.maxBlockSize then ch.maxBlockSize else frames).toNat
    if !ch.masterEnabled then ⟨ch, memcpy n out input, []⟩
    else
      let w := (List.finRange kMaxSlots).foldl (Walk.visit proc input n) ⟨ch, .input, false, false, []⟩
      if w.touched then ⟨w.chain, memcpy n out (w.read input), w.calls⟩
      else ⟨w.chain, memcpy n out input, w.calls⟩

/-- What slot `i` makes of the running samples, given the objects of all slots:
identity unless it is loaded, not bypassed, has an object and reports success. -/
def slotStage (proc : SlotFormat → Processor O α) (ch : PluginChain O α) (i : Fin kMaxSlots)
    (objects : Fin kMaxSlots → Option O) (x : List α) :
    Option (List α) × (Fin kMaxSlots → Option O) :=
  if ch.loaded i && !ch.bypass i then
    match objects i with
    | none => (none, objects)
    | some o =>
      let (y, o') := (proc (ch.format i)).process o x
      (y, Function.update objects i (some o'))
  else (none, objects)

/-- The chain's purpose: the slots in order, each acting on what the last left. -/
def composition (proc : SlotFormat → Processor O α) (ch : PluginChain O α) (x : List α) :
    (Fin kMaxSlots → Option O) × List α :=
  through (slotStage proc ch) (List.finRange kMaxSlots) (ch.object, x)

/-- Everything but the objects and the scratch contents agrees. -/
structure SameSetup (ch ch' : PluginChain O α) : Prop where
  format : ch'.format = ch.format
  bypass : ch'.bypass = ch.bypass
  loaded : ch'.loaded = ch.loaded
  masterEnabled : ch'.masterEnabled = ch.masterEnabled
  maxBlockSize : ch'.maxBlockSize = ch.maxBlockSize

theorem SameSetup.refl (ch : PluginChain O α) : SameSetup ch ch := ⟨rfl, rfl, rfl, rfl, rfl⟩

@[simp] theorem object_setScratch (ch : PluginChain O α) (w : Bool) (b : Buffer α) :
    (ch.setScratch w b).object = ch.object := by cases w <;> rfl

@[simp] theorem scratch_setScratch (ch : PluginChain O α) (w : Bool) (b : Buffer α) :
    (ch.setScratch w b).scratch w = b := by cases w <;> rfl

@[simp] theorem scratch_setScratch_not (ch : PluginChain O α) (w : Bool) (b : Buffer α) :
    (ch.setScratch w b).scratch (!w) = ch.scratch (!w) := by cases w <;> rfl

@[simp] theorem scratch_setObject (ch : PluginChain O α) (i : Fin kMaxSlots) (o : O) (w : Bool) :
    (ch.setObject i o).scratch w = ch.scratch w := by
  unfold setObject
  split <;> rfl

private theorem object_setObject (ch : PluginChain O α) {i : Fin kMaxSlots} (o : O) {p : O}
    (h : ch.object i = some p) : (ch.setObject i o).object = Function.update ch.object i (some o) := by
  funext j
  by_cases hj : j = i
  · subst hj
    unfold setObject object at *
    cases hf : ch.format j <;> simp_all
  · unfold setObject object
    cases hf : ch.format i <;> cases hg : ch.format j <;> simp_all

theorem SameSetup.call {ch ch' : PluginChain O α} (h : SameSetup ch ch') (w : Bool) (b : Buffer α)
    (i : Fin kMaxSlots) (o : O) : SameSetup ch ((ch'.setScratch w b).setObject i o) := by
  have hs : SameSetup ch (ch'.setScratch w b) := by
    cases w <;> exact ⟨h.format, h.bypass, h.loaded, h.masterEnabled, h.maxBlockSize⟩
  unfold setObject
  split
  · exact hs
  all_goals exact ⟨hs.format, hs.bypass, hs.loaded, hs.masterEnabled, hs.maxBlockSize⟩

end PluginChain

/-- The loop invariant: `cur` shows the composition so far and is never the
scratch buffer the next slot will write. -/
structure Walk.Follows {O α : Type*} (ch : PluginChain O α) (input : Buffer α) (n : Nat)
    (w : Walk O α) (p : (Fin kMaxSlots → Option O) × List α) : Prop where
  setup : PluginChain.SameSetup ch w.chain
  objects : w.chain.object = p.1
  samples : window n (w.read input) = p.2
  apart : w.cur ≠ .scratch w.which
  untouched : w.touched = false → w.cur = .input
  calls : ∀ call ∈ w.calls, call.2.1 ≠ call.2.2

namespace Walk.Follows
variable {O α : Type*} {proc : SlotFormat → Processor O α} {ch : PluginChain O α} {input : Buffer α}
  {n : Nat} {w : Walk O α} {p : (Fin kMaxSlots → Option O) × List α}

/-- `cur` still reads the same samples after a write to the other buffer. -/
private theorem read_apart (w : Walk O α) (input dst : Buffer α) (i : Fin kMaxSlots) (o : O)
    (h : w.cur ≠ .scratch w.which) (w' : Walk O α)
    (hc : w'.chain = (w.chain.setScratch w.which dst).setObject i o) (hcur : w'.cur = w.cur) :
    w'.read input = w.read input := by
  unfold Walk.read
  rw [hcur, hc]
  cases hb : w.cur with
  | input => rfl
  | scratch b =>
    have hne : b = !w.which := by
      cases hbw : b <;> cases hww : w.which <;> simp_all
    simp [hne]

theorem visit (h : w.Follows ch input n p) (i : Fin kMaxSlots) :
    (w.visit proc input n i).Follows ch input n (stage (PluginChain.slotStage proc ch) i p) := by
  obtain ⟨objs, x⟩ := p
  have hobj := h.objects
  have hx := h.samples
  dsimp only at hobj hx
  unfold Walk.visit stage PluginChain.slotStage
  rw [h.setup.loaded, h.setup.bypass, h.setup.format]
  cases hl : ch.loaded i
  · simpa using h
  cases hb : ch.bypass i
  swap
  · simpa using h
  simp only [Bool.not_true, Bool.false_eq_true, if_false, Bool.not_false, Bool.and_self, if_true]
  rw [← hobj]
  cases ho : w.chain.object i with
  | none => simpa [hobj] using h
  | some o =>
    have hflag := (proc (ch.format i)).run_flag o (w.read input) (w.chain.scratch w.which) n
    have hnew := (proc (ch.format i)).run_object o (w.read input) (w.chain.scratch w.which) n
    have hout := fun y => (proc (ch.format i)).run_window o (w.read input) (w.chain.scratch w.which)
      (n := n) (y := y)
    rw [hx] at hflag hnew hout
    rcases hrun : (proc (ch.format i)).run o (w.read input) (w.chain.scratch w.which) n
      with ⟨ok, dst, o'⟩
    rcases hp : (proc (ch.format i)).process o x with ⟨y, o''⟩
    simp only [hrun, hp] at hflag hnew hout ⊢
    subst hflag hnew
    have hsetup := h.setup.call w.which dst i o'
    have hobjs : ((w.chain.setScratch w.which dst).setObject i o').object =
        Function.update w.chain.object i (some o') := by
      rw [PluginChain.object_setObject (p := o) _ _ (by simpa using ho), PluginChain.object_setScratch]
    have hcalls : ∀ call ∈ w.calls ++ [(i, w.cur, Pointer.scratch w.which)], call.2.1 ≠ call.2.2 := by
      intro call hc
      rcases List.mem_append.mp hc with hc | hc
      · exact h.calls call hc
      · rw [List.mem_singleton.mp hc]
        exact h.apart
    cases y with
    | none =>
      refine ⟨hsetup, hobjs, ?_, h.apart, h.untouched, hcalls⟩
      have hsame := read_apart w input dst i o' h.apart { w with
        chain := (w.chain.setScratch w.which dst).setObject i o'
        calls := w.calls ++ [(i, w.cur, .scratch w.which)] } rfl rfl
      exact (congrArg (window n) hsame).trans hx
    | some z =>
      refine ⟨hsetup, hobjs, ?_, by simp, by simp, hcalls⟩
      simpa [Walk.read] using hout z rfl

end Walk.Follows

namespace PluginChain
variable {O α : Type*} {proc : SlotFormat → Processor O α} {ch : PluginChain O α}
  {input out : Buffer α} {frames : Int}

/-- The samples `Process` is to leave in `out`, with the objects it is to leave behind. -/
def outcome (proc : SlotFormat → Processor O α) (ch : PluginChain O α) (x : List α) :
    (Fin kMaxSlots → Option O) × List α :=
  if ch.masterEnabled then composition proc ch x else (ch.object, x)

/-- The whole loop follows the composition, by the pipeline's loop rule. -/
theorem loop_follows_composition (proc : SlotFormat → Processor O α) (ch : PluginChain O α)
    (input : Buffer α) (n : Nat) :
    ((List.finRange kMaxSlots).foldl (Walk.visit proc input n) ⟨ch, .input, false, false, []⟩).Follows
      ch input n (composition proc ch (window n input)) :=
  loop_follows (R := fun w p => Walk.Follows ch input n w p) (fun i h => h.visit i) _
    ⟨SameSetup.refl ch, rfl, rfl, by simp, fun _ => rfl, by simp⟩

/-- What one call with an admissible block size does, as a whole. -/
structure Processed (proc : SlotFormat → Processor O α) (ch : PluginChain O α) (input out : Buffer α)
    (n : Nat) (r : ProcessResult O α) : Prop where
  samples : window n r.out = (outcome proc ch (window n input)).2
  objects : r.chain.object = (outcome proc ch (window n input)).1
  setup : SameSetup ch r.chain
  beyond : ∀ i, n ≤ i → r.out i = out i
  calls : ∀ call ∈ r.calls, call.2.1 ≠ call.2.2

variable (proc ch input out) in
theorem processed (h1 : 1 ≤ frames) (h2 : frames ≤ ch.maxBlockSize) :
    Processed proc ch input out frames.toNat (ch.process proc input out frames) := by
  have hpos : ¬ frames ≤ 0 := by omega
  have hfit : ¬ frames > ch.maxBlockSize := by omega
  simp only [process, if_neg hpos, if_neg hfit]
  cases hm : ch.masterEnabled with
  | false =>
    simp only [Bool.not_false, if_true]
    refine ⟨?_, ?_, SameSetup.refl ch, fun i hi => memcpy_beyond hi _ _, by simp⟩
    all_goals simp [outcome, hm]
  | true =>
    simp only [Bool.not_true, Bool.false_eq_true, if_false]
    have hw := loop_follows_composition proc ch input frames.toNat
    have hout : outcome proc ch (window frames.toNat input) =
        composition proc ch (window frames.toNat input) := by simp [outcome, hm]
    split
    · refine ⟨?_, ?_, hw.setup, fun i hi => memcpy_beyond hi _ _, hw.calls⟩
      · rw [window_memcpy, hw.samples, hout]
      · rw [hout]
        exact hw.objects
    · rename_i ht
      refine ⟨?_, ?_, hw.setup, fun i hi => memcpy_beyond hi _ _, hw.calls⟩
      · rw [window_memcpy, hout, ← hw.samples, Walk.read, hw.untouched (by simpa using ht)]
      · rw [hout]
        exact hw.objects

/-- For any frame count `Process` overwrites the clamped number of samples of `out`
and nothing behind them, and keeps the block size. -/
theorem process_overwrites (proc : SlotFormat → Processor O α) (ch : PluginChain O α)
    (input : Buffer α) (frames : Int) : ∃ (ch' : PluginChain O α) (y : Buffer α),
      ch'.maxBlockSize = ch.maxBlockSize ∧ ∀ out,
        (ch.process proc input out frames).chain = ch' ∧
        (ch.process proc input out frames).out = memcpy (min frames ch.maxBlockSize).toNat out y := by
  by_cases hpos : frames ≤ 0
  · refine ⟨ch, input, rfl, fun out => ?_⟩
    have hnone : (min frames ch.maxBlockSize).toNat = 0 := by omega
    rw [hnone]
    simp only [process, if_pos hpos, true_and]
    funext i
    exact (memcpy_beyond (Nat.zero_le i) _ _).symm
  have hclamp : (if frames > ch.maxBlockSize then ch.maxBlockSize else frames) =
      min frames ch.maxBlockSize := by
    split <;> omega
  cases hm : ch.masterEnabled with
  | false =>
    refine ⟨ch, input, rfl, fun out => ?_⟩
    simp [process, hpos, hm, hclamp]
  | true =>
    have hw := loop_follows_composition proc ch input (min frames ch.maxBlockSize).toNat
    generalize hloop : (List.finRange kMaxSlots).foldl (Walk.visit proc input (min frames ch.maxBlockSize).toNat)
      ⟨ch, .input, false, false, []⟩ = w at hw
    cases ht : w.touched with
    | false =>
      refine ⟨w.chain, input, hw.setup.maxBlockSize, fun out => ?_⟩
      simp [process, hpos, hm, hclamp, hloop, ht]
    | true =>
      refine ⟨w.chain, w.read input, hw.setup.maxBlockSize, fun out => ?_⟩
      simp [process, hpos, hm, hclamp, hloop, ht]

/-- The scratch contents take no part in what the chain is to compute. -/
private theorem outcome_scratch (proc : SlotFormat → Processor O α) (ch : PluginChain O α) (a b : Buffer α)
    (x : List α) : outcome proc { ch with scratchA := a, scratchB := b } x = outcome proc ch x := rfl

/-- A slot's call changes no other slot's object, so failures leave the input. -/
private theorem composition_of_failures {x : List α} (hfail : ∀ i o, ch.loaded i = true → ch.bypass i = false →
    ch.object i = some o → ((proc (ch.format i)).process o x).1 = none) :
    (composition proc ch x).2 = x := by
  refine through_refused (Q := fun is objects => is.Nodup ∧ ∀ j ∈ is, objects j = ch.object j)
    (fun i is objects hq => ?_) ⟨List.nodup_finRange _, fun _ _ => rfl⟩
  obtain ⟨hnodup, hobj⟩ := hq
  obtain ⟨hi, hnodup⟩ := List.nodup_cons.mp hnodup
  have hkeep : ∀ objects' : Fin kMaxSlots → Option O, (∀ j, j ≠ i → objects' j = objects j) →
      ∀ j ∈ is, objects' j = ch.object j := by
    intro objects' h j hj
    rw [h j (fun he => hi (he ▸ hj)), hobj j (by simp [hj])]
  unfold slotStage
  split
  · rename_i hrun
    simp only [Bool.and_eq_true, Bool.not_eq_true'] at hrun
    cases ho : objects i with
    | none => exact ⟨rfl, hnodup, hkeep _ fun _ _ => rfl⟩
    | some o =>
      have hf := hfail i o hrun.1 hrun.2 (by rw [← hobj i (by simp), ho])
      exact ⟨hf, hnodup, hkeep _ fun j hj => Function.update_of_ne hj _ _⟩
  · exact ⟨rfl, hnodup, hkeep _ fun _ _ => rfl⟩

/-- `Process` leaves in `out` the left-to-right composition of the slots that
are loaded, not bypassed and succeed; the input itself when the master is off
or every slot fails; neither scratch nor `out` nor aliasing has any part in it. -/
theorem process_composes (proc : SlotFormat → Processor O α) (ch : PluginChain O α)
    (input out : Buffer α) (frames : Int) (h1 : 1 ≤ frames) (h2 : frames ≤ ch.maxBlockSize) :
    let n := frames.toNat
    let r := ch.process proc input out frames
    (ch.masterEnabled = true → window n r.out = (composition proc ch (window n input)).2 ∧
      r.chain.object = (composition proc ch (window n input)).1) ∧
    (ch.masterEnabled = false → window n r.out = window n input ∧ r.chain.object = ch.object) ∧
    ((∀ i o, ch.loaded i = true → ch.bypass i = false → ch.object i = some o →
        ((proc (ch.format i)).process o (window n input)).1 = none) →
      window n r.out = window n input) ∧
    (∀ a b out',
      let r' := process proc { ch with scratchA := a, scratchB := b } input out' frames
      window n r'.out = window n r.out ∧ r'.chain.object = r.chain.object) ∧
    (∀ i, n ≤ i → r.out i = out i) ∧
    (∀ call ∈ r.calls, call.2.1 ≠ call.2.2) := by
  have h := processed proc ch input out h1 h2
  refine ⟨fun hm => ?_, fun hm => ?_, fun hfail => ?_, fun a b out' => ?_, h.beyond, h.calls⟩
  · have hs := h.samples
    have ho := h.objects
    rw [outcome, if_pos hm] at hs ho
    exact ⟨hs, ho⟩
  · have hs := h.samples
    have ho := h.objects
    rw [outcome, if_neg (by simp [hm])] at hs ho
    exact ⟨hs, ho⟩
  · rw [h.samples, outcome]
    split
    · exact composition_of_failures hfail
    · rfl
  · have h' := processed proc { ch with scratchA := a, scratchB := b } input out' h1 h2
    exact ⟨by rw [h'.samples, h.samples, outcome_scratch], by rw [h'.objects, h.objects, outcome_scratch]⟩

/-- Slot 1 fails after scribbling over the scratch buffer that slot 3 then fills;
slot 2 is bypassed. The two successes compose: 5 + 1 + 2. -/
theorem process_composes_around_failure :
    ∃ (proc : SlotFormat → Processor Nat Nat) (ch : PluginChain Nat Nat),
      window 2 (ch.process proc (fun _ => 5) (fun _ => 77) 2).out = [8, 8] := by
  let adder : Processor Nat Nat :=
    { process := fun o x => (if o = 0 then none else some (x.map (· + o)), o)
      leaves := fun _ _ _ _ => 99
      full := by
        intro o x y h
        by_cases h0 : o = 0 <;> simp only [h0, if_true, if_false] at h <;> cases h
        exact List.length_map _ }
  let ch : PluginChain Nat Nat :=
    { format := ![.vst3, .clap, .vst3, .vst2, .empty, .empty, .empty, .empty]
      slotsVst3 := fun _ => some 1, slotsVst2 := fun _ => some 2, slotsClap := fun _ => some 0
      bypass := ![false, false, true, false, false, false, false, false]
      loaded := ![true, true, true, true, false, false, false, false]
      masterEnabled := true, maxBlockSize := 256, scratchA := fun _ => 31, scratchB := fun _ => 41 }
  have h := process_composes (fun _ => adder) ch (fun _ => 5) (fun _ => 77) 2 (by decide) (by decide)
  exact ⟨fun _ => adder, ch, (h.1 rfl).1.trans (by decide)⟩

end PluginChain
end Plughost.Vst3
