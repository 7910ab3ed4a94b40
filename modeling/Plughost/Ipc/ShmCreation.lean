import Plughost.Ipc.ShmMapping

/-! `ShmRingMapping::CreateNew`: the sizes it computes in `std::size_t`, what it
writes into the control block, and the slots that result. -/
namespace Plughost.Ipc

/-- Rounding up to a power of two, by a mask. -/
def roundUp (unit n : BitVec 64) : BitVec 64 := (n + unit - 1) &&& ~~~(unit - 1)

def roundUpToCacheLine (n : BitVec 64) : BitVec 64 := roundUp 64 n

/-- `kPageBytes` is 4096. -/
def roundUpToPage (n : BitVec 64) : BitVec 64 := roundUp 4096 n

/-- Which of the system calls succeed, and where `mmap` puts the region. -/
structure CreateCalls where
  shmOpen : Bool
  ftruncate : Bool
  mmap : Option (BitVec 64)
  deriving DecidableEq, Repr

inductive CreateError where
  | slotCount | name | shmOpen | ftruncate | mmap
  deriving DecidableEq, Repr

/-- A mapping that `CreateNew` returned, its address and what is now in its control block. -/
structure Created where
  mapping : ShmRingMapping
  raw : BitVec 64
  control : RingControlBlock

def createNew (name : String) (frames channels sampleRate slotCount : BitVec 32) (calls : CreateCalls) :
    Except CreateError Created :=
  if hpow : isPowerOfTwo slotCount then
    if name.toList.head? ≠ some '/' then .error .name
    else
      let slotBytes := roundUpToCacheLine (blockBytes frames channels)
      let logicalBytes := BitVec.ofNat 64 controlBytes + slotBytes * slotCount.setWidth 64
      let totalBytes := roundUpToPage logicalBytes
      if !calls.shmOpen then .error .shmOpen
      else if !calls.ftruncate then .error .ftruncate
      else match calls.mmap with
        | none => .error .mmap
        | some raw =>
          let slotBytes := slotBytes.setWidth 32
          .ok { mapping := ⟨name, totalBytes, ⟨slotCount, slotBytes, hpow⟩⟩, raw
                control := { slotCount, slotBytes, frames, channels, sampleRate } }
  else .error .slotCount

namespace Created
variable (c : Created)

/-- The address that `SlotAt(index)` points to. -/
def slotAddress (index : BitVec 64) : Nat := c.raw.toNat + controlBytes + c.mapping.ring.slotOffset index

/-- The region as `OpenExisting` finds it. -/
def region : Region := { size := c.mapping.mappingBytes, control := c.control }

/-- The sizes are those of the same computation without a bound on the numbers. -/
structure Exact (frames channels slotCount : BitVec 32) : Prop where
  block : (blockBytes frames channels).toNat = 64 + frames.toNat * channels.toNat * 4
  stride : c.control.slotBytes.toNat = (64 + frames.toNat * channels.toNat * 4 + 63) / 64 * 64
  total : c.mapping.mappingBytes.toNat = (controlBytes + c.control.slotBytes.toNat * slotCount.toNat + 4095) / 4096 * 4096

/-- `OpenExisting` with the same geometry finds each slot at the same offset. -/
def Reopens (name : String) (frames channels sampleRate slotCount : BitVec 32) : Prop :=
  ∀ mapped, ∃ m, openExisting name frames channels sampleRate slotCount ⟨true, true, true⟩ c.region mapped =
      (.ok m, m.mappingBytes :: mapped) ∧
    ∀ index, m.block frames channels index = c.mapping.block frames channels index

/-- All slots lie in the mapping, a stride apart, and hold a block; nothing is cut off, and a reopened ring agrees. -/
structure LaidOut (name : String) (frames channels sampleRate slotCount : BitVec 32) : Prop where
  exact : c.Exact frames channels slotCount
  stride : c.mapping.ring.slotBytes = c.control.slotBytes ∧ (blockBytes frames channels).toNat ≤ c.control.slotBytes.toNat
  count : c.mapping.ring.slotCount = slotCount
  safe : c.mapping.BoundsSafe frames channels
  reopens : c.Reopens name frames channels sampleRate slotCount

/-- `alignas(64)` of `BlockHeader`. -/
def Aligned : Prop := ∀ index, c.slotAddress index % 64 = 0

end Created

/-- Masking off the low bits rounds down. -/
private theorem toNat_and_not_mask (x : BitVec 64) {k : Nat} (hk : k < 64) :
    (x &&& ~~~(BitVec.ofNat 64 (2 ^ k - 1))).toNat = x.toNat / 2 ^ k * 2 ^ k := by
  have hmask : (x &&& BitVec.ofNat 64 (2 ^ k - 1)).toNat = x.toNat % 2 ^ k := by
    have hpow : 2 ^ k < 2 ^ 64 := Nat.pow_lt_pow_right (by omega) hk
    rw [BitVec.toNat_and, BitVec.toNat_ofNat, Nat.mod_eq_of_lt (by omega), Nat.and_two_pow_sub_one_eq_mod]
  have hapart : (x &&& ~~~(BitVec.ofNat 64 (2 ^ k - 1))) &&& (x &&& BitVec.ofNat 64 (2 ^ k - 1)) = 0 := by
    ext i hi
    simp only [BitVec.getElem_and, BitVec.getElem_not, BitVec.ofNat_eq_ofNat, BitVec.getElem_zero]
    cases x[i] <;> simp
  have hjoin : (x &&& ~~~(BitVec.ofNat 64 (2 ^ k - 1))) ||| (x &&& BitVec.ofNat 64 (2 ^ k - 1)) = x := by
    ext i hi
    simp only [BitVec.getElem_or, BitVec.getElem_and, BitVec.getElem_not]
    cases x[i] <;> simp
  have hsum := congrArg BitVec.toNat (BitVec.add_eq_or_of_and_eq_zero _ _ hapart)
  rw [hjoin, BitVec.toNat_add_of_and_eq_zero hapart, hmask] at hsum
  have hdiv := Nat.div_add_mod x.toNat (2 ^ k)
  rw [Nat.mul_comm] at hdiv
  omega

private theorem unit_sub_one {k : Nat} (hk : k < 64) : BitVec.ofNat 64 (2 ^ k) - 1 = BitVec.ofNat 64 (2 ^ k - 1) := by
  have hpos : 0 < 2 ^ k := Nat.two_pow_pos k
  have hpow : 2 ^ k < 2 ^ 64 := Nat.pow_lt_pow_right (by omega) hk
  apply BitVec.eq_of_toNat_eq
  rw [BitVec.toNat_sub]
  simp only [BitVec.toNat_ofNat, BitVec.ofNat_eq_ofNat]
  omega

/-- Rounding up, as long as there is room above. -/
private theorem toNat_roundUp {k : Nat} (hk : k < 64) {n : BitVec 64} (h : n.toNat + 2 ^ k ≤ 2 ^ 64) :
    (roundUp (BitVec.ofNat 64 (2 ^ k)) n).toNat = (n.toNat + (2 ^ k - 1)) / 2 ^ k * 2 ^ k := by
  have hpos : 0 < 2 ^ k := Nat.two_pow_pos k
  have hpow : 2 ^ k < 2 ^ 64 := Nat.pow_lt_pow_right (by omega) hk
  have hsum : (n + BitVec.ofNat 64 (2 ^ k) - 1).toNat = n.toNat + (2 ^ k - 1) := by
    rw [BitVec.toNat_sub, BitVec.toNat_add]
    simp only [BitVec.toNat_ofNat, BitVec.ofNat_eq_ofNat]
    omega
  rw [roundUp, unit_sub_one hk, toNat_and_not_mask _ hk, hsum]

/-- A multiple of the unit in any case. -/
private theorem toNat_roundUp_mod {k : Nat} (hk : k < 64) (n : BitVec 64) :
    (roundUp (BitVec.ofNat 64 (2 ^ k)) n).toNat % 2 ^ k = 0 := by
  rw [roundUp, unit_sub_one hk, toNat_and_not_mask _ hk, Nat.mul_mod_left]

section CreateNew
variable {name : String} {frames channels sampleRate slotCount : BitVec 32} {calls : CreateCalls} {c : Created}

/-- What `CreateNew` returns when it does. -/
private theorem createNew_ok (h : createNew name frames channels sampleRate slotCount calls = .ok c) :
    isPowerOfTwo slotCount = true ∧ name.toList.head? = some '/' ∧ c.mapping.name = name ∧
      c.mapping.ring.slotCount = slotCount ∧ c.mapping.ring.slotBytes = c.control.slotBytes ∧
      c.control = ⟨slotCount, (roundUpToCacheLine (blockBytes frames channels)).setWidth 32, frames, channels, sampleRate⟩ ∧
      c.mapping.mappingBytes = roundUpToPage (BitVec.ofNat 64 controlBytes +
        roundUpToCacheLine (blockBytes frames channels) * slotCount.setWidth 64) := by
  unfold createNew at h
  split at h
  swap
  · cases h
  rename_i hpow
  split at h
  · cases h
  rename_i hname
  dsimp only at h
  split at h
  · cases h
  split at h
  · cases h
  split at h
  · cases h
  · cases h
    exact ⟨hpow, not_not.mp hname, rfl, rfl, rfl, rfl, rfl⟩

private theorem slotCount_le (h : isPowerOfTwo slotCount = true) : slotCount.toNat ≤ 2 ^ 31 := by
  obtain ⟨k, hk, heq⟩ := (isPowerOfTwo_iff slotCount).mp h
  rw [heq]
  exact Nat.pow_le_pow_right (by omega) (by omega)

/-- The stride, cut off or not, is a multiple of 64. -/
private theorem slotBytes_mod (h : createNew name frames channels sampleRate slotCount calls = .ok c) :
    c.control.slotBytes.toNat % 64 = 0 := by
  obtain ⟨-, -, -, -, -, hcontrol, -⟩ := createNew_ok h
  have hmod := toNat_roundUp_mod (k := 6) (by omega) (blockBytes frames channels)
  change (roundUpToCacheLine (blockBytes frames channels)).toNat % 64 = 0 at hmod
  rw [hcontrol, BitVec.toNat_setWidth]
  omega

private theorem toNat_blockBytes (h : frames.toNat * channels.toNat ≤ 2 ^ 30 - 32) :
    (blockBytes frames channels).toNat = 64 + frames.toNat * channels.toNat * 4 := by
  have hf : frames.toNat % 2 ^ 64 = frames.toNat := Nat.mod_eq_of_lt (by have := frames.isLt; omega)
  have hc : channels.toNat % 2 ^ 64 = channels.toNat := Nat.mod_eq_of_lt (by have := channels.isLt; omega)
  have hsixtyfour : (64 : BitVec 64).toNat = 64 := rfl
  have hfour : (4 : BitVec 64).toNat = 4 := rfl
  rw [blockBytes, BitVec.toNat_add, BitVec.toNat_mul, BitVec.toNat_mul, BitVec.toNat_setWidth, BitVec.toNat_setWidth,
    hf, hc, hsixtyfour, hfour]
  omega

/-- Below the bound neither the cast nor the products lose anything. -/
private theorem exact_of_le (h : createNew name frames channels sampleRate slotCount calls = .ok c)
    (hle : frames.toNat * channels.toNat ≤ 2 ^ 30 - 32) : c.Exact frames channels slotCount := by
  obtain ⟨hpow, -, -, -, -, hcontrol, htotal⟩ := createNew_ok h
  have hblock := toNat_blockBytes hle
  have hline : (roundUpToCacheLine (blockBytes frames channels)).toNat =
      (64 + frames.toNat * channels.toNat * 4 + 63) / 64 * 64 := by
    have hup := toNat_roundUp (k := 6) (by omega) (n := blockBytes frames channels) (by omega)
    rw [hblock] at hup
    exact hup
  have hstride : c.control.slotBytes.toNat = (64 + frames.toNat * channels.toNat * 4 + 63) / 64 * 64 := by
    rw [hcontrol, BitVec.toNat_setWidth, hline]
    omega
  refine ⟨hblock, hstride, ?_⟩
  have hcount := slotCount_le hpow
  have hproduct : c.control.slotBytes.toNat * slotCount.toNat ≤ 2 ^ 32 * 2 ^ 31 :=
    Nat.mul_le_mul (by omega) hcount
  have hlogical : (BitVec.ofNat 64 controlBytes + roundUpToCacheLine (blockBytes frames channels) *
      slotCount.setWidth 64).toNat = controlBytes + c.control.slotBytes.toNat * slotCount.toNat := by
    rw [BitVec.toNat_add, BitVec.toNat_mul, BitVec.toNat_setWidth, hline, ← hstride]
    simp only [BitVec.toNat_ofNat, controlBytes]
    rw [Nat.mod_eq_of_lt (a := slotCount.toNat) (by omega)]
    omega
  have hup := toNat_roundUp (k := 12) (by omega) (n := BitVec.ofNat 64 controlBytes +
    roundUpToCacheLine (blockBytes frames channels) * slotCount.setWidth 64) (by rw [hlogical, controlBytes]; omega)
  rw [htotal, roundUpToPage]
  rw [hlogical] at hup
  exact hup

/-- A ring that was reopened has its slots where the creator has them. -/
private theorem reopens (h : createNew name frames channels sampleRate slotCount calls = .ok c)
    (hsize : controlBytes ≤ c.mapping.mappingBytes.toNat) : c.Reopens name frames channels sampleRate slotCount := by
  obtain ⟨hpow, hname, -, hcount, hbytes, hcontrol, -⟩ := createNew_ok h
  intro mapped
  have hattaches : Attaches name frames channels sampleRate slotCount ⟨true, true, true⟩ c.region :=
    ⟨hname, hpow, rfl, hsize, by rw [Created.region, hcontrol], by rw [Created.region, hcontrol],
      by rw [Created.region, hcontrol], by rw [Created.region, hcontrol]⟩
  obtain ⟨m, hof, hopen⟩ := openExisting_of_attaches mapped hattaches
  refine ⟨m, hopen, fun index => ?_⟩
  have hoffset : m.ring.slotOffset index = c.mapping.ring.slotOffset index := by
    simp only [RingGeometry.slotOffset, RingGeometry.slotAt, hof.slotCount, hof.slotBytes, Created.region, hcount, hbytes]
    rw [hcontrol]
  rw [ShmRingMapping.block, ShmRingMapping.block, hoffset]

/-- Apart from the alignment the layout is right exactly when the stride fits its 32 bits. -/
private theorem laidOut_iff (h : createNew name frames channels sampleRate slotCount calls = .ok c) :
    c.LaidOut name frames channels sampleRate slotCount ↔ frames.toNat * channels.toNat ≤ 2 ^ 30 - 32 := by
  obtain ⟨hpow, -, -, hcount, hbytes, -, -⟩ := createNew_ok h
  constructor
  · intro hlaid
    have hstride := hlaid.exact.stride
    have hlt := c.control.slotBytes.isLt
    omega
  · intro hle
    have hexact := exact_of_le h hle
    have hstride : (blockBytes frames channels).toNat ≤ c.control.slotBytes.toNat := by
      rw [hexact.block, hexact.stride]
      omega
    have hpos := c.mapping.ring.slotCount_pos
    rw [hcount] at hpos
    have hroom : controlBytes + c.control.slotBytes.toNat * slotCount.toNat ≤ c.mapping.mappingBytes.toNat := by
      rw [hexact.total]
      omega
    refine ⟨hexact, ⟨hbytes, hstride⟩, hcount, ?_, reopens h (by omega)⟩
    rw [ShmRingMapping.boundsSafe_iff, hcount, hbytes]
    refine ⟨.inr hstride, ?_⟩
    have hlast : (slotCount.toNat - 1) * c.control.slotBytes.toNat + c.control.slotBytes.toNat =
        c.control.slotBytes.toNat * slotCount.toNat := by
      obtain ⟨n, hn⟩ := Nat.exists_eq_succ_of_ne_zero hpos.ne'
      rw [hn, Nat.succ_sub_one, Nat.mul_succ, Nat.mul_comm]
    omega

/-- Every slot begins half a cache line past an aligned address. -/
private theorem slotAddress_mod (h : createNew name frames channels sampleRate slotCount calls = .ok c)
    (hpage : c.raw.toNat % 4096 = 0) (index : BitVec 64) : c.slotAddress index % 64 = 32 := by
  obtain ⟨-, -, -, -, hbytes, -, -⟩ := createNew_ok h
  have hstride := slotBytes_mod h
  have hoffset : c.mapping.ring.slotOffset index % 64 = 0 := by
    rw [RingGeometry.slotOffset, hbytes, Nat.mul_mod, hstride, Nat.mul_zero, Nat.zero_mod]
  rw [Created.slotAddress]
  simp only [controlBytes]
  omega

end CreateNew

/-- No ring that `CreateNew` makes is laid out as its types ask: each block header
lies 32 bytes off the alignment of its type. The rest of the layout, and the size
arithmetic, are right exactly when the rounded block size fits into 32 bits. -/
theorem creation_never_aligned (name : String) (frames channels sampleRate slotCount : BitVec 32) (calls : CreateCalls)
    (c : Created) (h : createNew name frames channels sampleRate slotCount calls = .ok c)
    (hpage : c.raw.toNat % 4096 = 0) :
    ¬ (c.LaidOut name frames channels sampleRate slotCount ∧ c.Aligned) ∧
      (∀ index, c.slotAddress index % 64 = 32) ∧
      (c.LaidOut name frames channels sampleRate slotCount ↔ frames.toNat * channels.toNat ≤ 2 ^ 30 - 32) := by
  refine ⟨fun hboth => ?_, slotAddress_mod h hpage, laidOut_iff h⟩
  have hzero := hboth.2 0
  rw [slotAddress_mod h hpage 0] at hzero
  cases hzero

/-- The ring of the fixed format: 256 frames, one channel, eight slots. -/
theorem creation_never_aligned_phase1 : ∃ c, createNew "/zeus-plughost-x-h2s" 256 1 48000 8
      ⟨true, true, some 0x7F0000000000⟩ = .ok c ∧ (∀ index, c.slotAddress index % 64 = 32) ∧
    c.LaidOut "/zeus-plughost-x-h2s" 256 1 48000 8 := by
  refine ⟨_, rfl, ?_⟩
  have hall := creation_never_aligned "/zeus-plughost-x-h2s" 256 1 48000 8 ⟨true, true, some 0x7F0000000000⟩ _ rfl
    (by decide)
  exact ⟨hall.2.1, hall.2.2.mpr (by decide)⟩

/-- In the ring of the fixed format slot 0 begins at address ..A0. And with blocks of
2^30 samples the recorded stride is 64 bytes, so that the slots overlap as well. -/
theorem phase1_slot_misaligned :
    (∃ c, createNew "/zeus-plughost-x-h2s" 256 1 48000 8 ⟨true, true, some 0x7F0000000000⟩ = .ok c ∧
      c.slotAddress 0 = 0x7F00000000A0 ∧ ¬ (c.LaidOut "/zeus-plughost-x-h2s" 256 1 48000 8 ∧ c.Aligned)) ∧
    ∃ c, createNew "/zeus-plughost-x-h2s" 0x40000000 1 48000 2 ⟨true, true, some 0x7F0000000000⟩ = .ok c ∧
      c.control.slotBytes = 64 ∧ c.mapping.mappingBytes = 0x200001000 ∧ ¬ c.mapping.BoundsSafe 0x40000000 1 := by
  constructor
  · refine ⟨_, rfl, by decide, fun hboth => ?_⟩
    exact absurd (hboth.2 0) (by decide)
  · refine ⟨_, rfl, by decide, by decide, fun hsafe => ?_⟩
    exact absurd ((ShmRingMapping.boundsSafe_iff _ 0x40000000 1).mp hsafe).1 (by decide)

end Plughost.Ipc
