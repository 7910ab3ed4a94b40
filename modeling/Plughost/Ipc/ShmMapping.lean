import Plughost.Ipc.ShmRing

/-! `ShmRingMapping::OpenExisting`: what it checks of a region it attaches to, and
what that says of the slots addressed afterwards. -/
namespace Plughost.Ipc

/-- `sizeof(RingControlBlock)`. -/
abbrev controlBytes : Nat := 160

/-- `BlockBytes(frames, channels)`, in `std::size_t`. -/
def blockBytes (frames channels : BitVec 32) : BitVec 64 :=
  64 + frames.setWidth 64 * channels.setWidth 64 * 4

/-- The geometry fields at the start of the region. -/
structure RingControlBlock where
  slotCount : BitVec 32
  slotBytes : BitVec 32
  frames : BitVec 32
  channels : BitVec 32
  sampleRate : BitVec 32
  deriving DecidableEq, Repr

/-- An existing shared-memory object: its `st_size` and what its first bytes say. -/
structure Region where
  size : BitVec 64
  control : RingControlBlock
  deriving DecidableEq, Repr

/-- Which of the system calls succeed. -/
structure OpenCalls where
  shmOpen : Bool
  fstat : Bool
  mmap : Bool
  deriving DecidableEq, Repr

inductive OpenError where
  | name | slotCount | shmOpen | fstat | tooSmall | mmap | geometryMismatch
  deriving DecidableEq, Repr

/-- A mapping that `OpenExisting` returned. -/
structure ShmRingMapping where
  name : String
  mappingBytes : BitVec 64
  ring : RingGeometry

/-- `OpenExisting`, with the sizes of the mappings the process holds before and after. -/
def openExisting (name : String) (expectedFrames expectedChannels expectedSampleRate expectedSlotCount : BitVec 32)
    (calls : OpenCalls) (region : Region) (mapped : List (BitVec 64)) :
    Except OpenError ShmRingMapping × List (BitVec 64) :=
  if name.toList.head? ≠ some '/' then (.error .name, mapped)
  else if hpow : isPowerOfTwo expectedSlotCount then
    if !calls.shmOpen then (.error .shmOpen, mapped)
    else if !calls.fstat then (.error .fstat, mapped)
    else
      let totalBytes := region.size
      if totalBytes.toNat < controlBytes then (.error .tooSmall, mapped)
      else if !calls.mmap then (.error .mmap, mapped)
      else
        let mapped' := totalBytes :: mapped
        if hsame : region.control.slotCount = expectedSlotCount ∧ region.control.frames = expectedFrames ∧
            region.control.channels = expectedChannels ∧ region.control.sampleRate = expectedSampleRate then
          (.ok ⟨name, totalBytes, ⟨region.control.slotCount, region.control.slotBytes, hsame.1 ▸ hpow⟩⟩, mapped')
        else (.error .geometryMismatch, mapped'.erase totalBytes)
  else (.error .slotCount, mapped)

/-- The bytes of the mapping from `SlotAt(index)` on that a block takes up. -/
def ShmRingMapping.block (m : ShmRingMapping) (frames channels : BitVec 32) (index : BitVec 64) : Nat × Nat :=
  (controlBytes + m.ring.slotOffset index, controlBytes + m.ring.slotOffset index + (blockBytes frames channels).toNat)

/-- Every slot's block lies in the mapping behind the control block, apart from the other slots' blocks. -/
structure ShmRingMapping.BoundsSafe (m : ShmRingMapping) (frames channels : BitVec 32) : Prop where
  inside : ∀ index, controlBytes ≤ (m.block frames channels index).1 ∧
    (m.block frames channels index).2 ≤ m.mappingBytes.toNat
  apart : ∀ i j : BitVec 64, i.toNat % m.ring.slotCount.toNat ≠ j.toNat % m.ring.slotCount.toNat →
    (m.block frames channels i).2 ≤ (m.block frames channels j).1 ∨
      (m.block frames channels j).2 ≤ (m.block frames channels i).1

/-- What `OpenExisting` does not look at: the stride holds a block, unless there is
only one slot, and the region holds the slots up to the end of the last block. -/
def Region.Fits (r : Region) (frames channels : BitVec 32) : Prop :=
  (r.control.slotCount = 1 ∨ (blockBytes frames channels).toNat ≤ r.control.slotBytes.toNat) ∧
    controlBytes + (r.control.slotCount.toNat - 1) * r.control.slotBytes.toNat + (blockBytes frames channels).toNat ≤
      r.size.toNat

/-- The conditions under which the attach succeeds. -/
def Attaches (name : String) (expectedFrames expectedChannels expectedSampleRate expectedSlotCount : BitVec 32)
    (calls : OpenCalls) (region : Region) : Prop :=
  name.toList.head? = some '/' ∧ isPowerOfTwo expectedSlotCount = true ∧ calls = ⟨true, true, true⟩ ∧
    controlBytes ≤ region.size.toNat ∧ region.control.slotCount = expectedSlotCount ∧
    region.control.frames = expectedFrames ∧ region.control.channels = expectedChannels ∧
    region.control.sampleRate = expectedSampleRate

/-- Either the attach fails with nothing mapped, or what it maps is bounds-safe. -/
def AttachIsSafe (frames channels : BitVec 32) (mapped : List (BitVec 64)) :
    Except OpenError ShmRingMapping × List (BitVec 64) → Prop
  | (.ok m, mapped') => mapped' = m.mappingBytes :: mapped ∧ m.BoundsSafe frames channels
  | (.error _, mapped') => mapped' = mapped

section OpenExisting
variable {name : String} {ef ec es en : BitVec 32} {calls : OpenCalls} {region : Region} {mapped : List (BitVec 64)}

/-- The mapping that an attach returns is the region as it stands. -/
structure ShmRingMapping.Of (m : ShmRingMapping) (region : Region) : Prop where
  mappingBytes : m.mappingBytes = region.size
  slotCount : m.ring.slotCount = region.control.slotCount
  slotBytes : m.ring.slotBytes = region.control.slotBytes

theorem openExisting_of_attaches (mapped : List (BitVec 64)) (h : Attaches name ef ec es en calls region) :
    ∃ m, m.Of region ∧ openExisting name ef ec es en calls region mapped = (.ok m, m.mappingBytes :: mapped) := by
  obtain ⟨hname, hpow, rfl, hsize, hsame⟩ := h
  unfold openExisting
  rw [if_neg (by simpa using hname), dif_pos hpow, if_neg (by simp), if_neg (by simp)]
  dsimp only
  rw [if_neg (Nat.not_lt.mpr hsize), if_neg (by simp), dif_pos hsame]
  exact ⟨_, ⟨rfl, rfl, rfl⟩, rfl⟩

/-- Every other attach fails, and unmaps what it had mapped. -/
private theorem openExisting_of_not_attaches (mapped : List (BitVec 64))
    (h : ¬ Attaches name ef ec es en calls region) :
    ∃ e, openExisting name ef ec es en calls region mapped = (.error e, mapped) := by
  unfold openExisting
  by_cases hname : name.toList.head? ≠ some '/'
  · rw [if_pos hname]
    exact ⟨_, rfl⟩
  rw [if_neg hname]
  by_cases hpow : isPowerOfTwo en = true
  swap
  · rw [dif_neg hpow]
    exact ⟨_, rfl⟩
  rw [dif_pos hpow]
  by_cases hshm : (!calls.shmOpen) = true
  · rw [if_pos hshm]
    exact ⟨_, rfl⟩
  rw [if_neg hshm]
  by_cases hfstat : (!calls.fstat) = true
  · rw [if_pos hfstat]
    exact ⟨_, rfl⟩
  rw [if_neg hfstat]
  dsimp only
  by_cases hsize : region.size.toNat < controlBytes
  · rw [if_pos hsize]
    exact ⟨_, rfl⟩
  rw [if_neg hsize]
  by_cases hmmap : (!calls.mmap) = true
  · rw [if_pos hmmap]
    exact ⟨_, rfl⟩
  rw [if_neg hmmap, dif_neg]
  · rw [List.erase_cons_head]
    exact ⟨_, rfl⟩
  · intro hsame
    have hcalls : calls = ⟨true, true, true⟩ := by
      obtain ⟨a, b, c⟩ := calls
      simp_all
    exact h ⟨not_not.mp hname, hpow, hcalls, Nat.not_lt.mp hsize, hsame⟩

end OpenExisting

namespace ShmRingMapping
variable {m : ShmRingMapping} {frames channels : BitVec 32}

/-- The last slot is the one that reaches furthest. -/
private theorem slotOffset_le (g : RingGeometry) (index : BitVec 64) :
    g.slotOffset index ≤ (g.slotCount.toNat - 1) * g.slotBytes.toNat := by
  have hpos := g.slotCount_pos
  have hlt : g.slotAt index < g.slotCount.toNat := by
    rw [g.slotAt_eq]
    exact Nat.mod_lt _ hpos
  exact Nat.mul_le_mul_right _ (by omega)

private theorem slotOffset_ofNat (g : RingGeometry) {i : Nat} (hi : i < g.slotCount.toNat) :
    g.slotOffset (BitVec.ofNat 64 i) = i * g.slotBytes.toNat := by
  have hlt := g.slotCount.isLt
  have hfit : (BitVec.ofNat 64 i).toNat = i := by
    rw [BitVec.toNat_ofNat]
    omega
  rw [RingGeometry.slotOffset, g.slotAt_eq, hfit, Nat.mod_eq_of_lt hi]

/-- Distinct slots are at least one stride apart. -/
private theorem slotOffset_apart (g : RingGeometry) {i j : BitVec 64}
    (h : i.toNat % g.slotCount.toNat ≠ j.toNat % g.slotCount.toNat) :
    g.slotOffset i + g.slotBytes.toNat ≤ g.slotOffset j ∨ g.slotOffset j + g.slotBytes.toNat ≤ g.slotOffset i := by
  rw [← g.slotAt_eq, ← g.slotAt_eq] at h
  rcases Nat.lt_or_gt_of_ne h with hlt | hlt
  · exact .inl (g.slotOffset_disjoint hlt)
  · exact .inr (g.slotOffset_disjoint hlt)

/-- The two conditions are what bounds safety needs: the last slot and the first two decide. -/
theorem boundsSafe_iff (m : ShmRingMapping) (frames channels : BitVec 32) : m.BoundsSafe frames channels ↔
    (m.ring.slotCount = 1 ∨ (blockBytes frames channels).toNat ≤ m.ring.slotBytes.toNat) ∧
      controlBytes + (m.ring.slotCount.toNat - 1) * m.ring.slotBytes.toNat + (blockBytes frames channels).toNat ≤
        m.mappingBytes.toNat := by
  have hpos := m.ring.slotCount_pos
  constructor
  · intro h
    constructor
    · by_cases hone : m.ring.slotCount = 1
      · exact .inl hone
      · have htwo : 1 < m.ring.slotCount.toNat := by
          by_contra hle
          have hval : m.ring.slotCount.toNat = 1 := by omega
          exact hone (BitVec.eq_of_toNat_eq hval)
        have hne : (BitVec.ofNat 64 0).toNat % m.ring.slotCount.toNat ≠
            (BitVec.ofNat 64 1).toNat % m.ring.slotCount.toNat := by
          have hsmall : 1 % 2 ^ 64 = 1 := rfl
          rw [BitVec.toNat_ofNat, BitVec.toNat_ofNat, Nat.zero_mod, hsmall, Nat.mod_eq_of_lt htwo]
          exact Nat.zero_ne_one
        have hapart := h.apart _ _ hne
        simp only [block, slotOffset_ofNat m.ring hpos, slotOffset_ofNat m.ring htwo] at hapart
        omega
    · have hlast := (h.inside (BitVec.ofNat 64 (m.ring.slotCount.toNat - 1))).2
      rw [block, slotOffset_ofNat m.ring (by omega)] at hlast
      exact hlast
  · rintro ⟨hstride, hroom⟩
    refine ⟨fun index => ⟨Nat.le_add_right _ _, ?_⟩, fun i j hij => ?_⟩
    · have hle := slotOffset_le m.ring index
      dsimp only [block]
      omega
    · rcases hstride with hone | hstride
      · have hval : m.ring.slotCount.toNat = 1 := by
          rw [hone]
          rfl
        rw [hval, Nat.mod_one, Nat.mod_one] at hij
        exact absurd rfl hij
      · have hapart := slotOffset_apart m.ring hij
        dsimp only [block]
        omega

end ShmRingMapping

/-- Attaching is safe exactly when it is refused or the region fits the blocks. -/
theorem attach_is_safe_iff (name : String) (ef ec es en : BitVec 32) (calls : OpenCalls) (region : Region)
    (mapped : List (BitVec 64)) :
    AttachIsSafe ef ec mapped (openExisting name ef ec es en calls region mapped) ↔
      (Attaches name ef ec es en calls region → region.Fits ef ec) := by
  by_cases hattach : Attaches name ef ec es en calls region
  · obtain ⟨m, hof, heq⟩ := openExisting_of_attaches mapped hattach
    have hsafe := m.boundsSafe_iff ef ec
    rw [hof.slotCount, hof.slotBytes, hof.mappingBytes] at hsafe
    rw [heq]
    constructor
    · exact fun hs _ => hsafe.mp hs.2
    · exact fun hfits => ⟨rfl, hsafe.mpr (hfits hattach)⟩
  · obtain ⟨e, heq⟩ := openExisting_of_not_attaches mapped hattach
    rw [heq]
    exact ⟨fun _ h => absurd h hattach, fun _ => rfl⟩

/-- The creator strides its slots by 576 bytes where a block of 256 frames takes
1088: the attach succeeds, and each block runs into the next slot. -/
theorem stride_drift_accepted : ∃ m, openExisting "/zeus-plughost-x-h2s" 256 1 48000 8 ⟨true, true, true⟩
    ⟨12288, ⟨8, 576, 256, 1, 48000⟩⟩ [] = (.ok m, [12288]) ∧
    (m.block 256 1 0).2 > (m.block 256 1 1).1 ∧
    ¬ AttachIsSafe 256 1 [] (openExisting "/zeus-plughost-x-h2s" 256 1 48000 8 ⟨true, true, true⟩
      ⟨12288, ⟨8, 576, 256, 1, 48000⟩⟩ []) := by
  refine ⟨⟨"/zeus-plughost-x-h2s", 12288, ⟨8, 576, by decide⟩⟩, rfl, by decide, ?_⟩
  rintro ⟨-, hsafe⟩
  exact absurd ((ShmRingMapping.boundsSafe_iff _ 256 1).mp hsafe).1 (by decide)

end Plughost.Ipc
