import Mathlib.Data.BitVec
import Mathlib.Data.List.Forall2
import Mathlib.Tactic.Ring
import Plughost.Lib.Runs

/-! The shared-memory ring. Each counter load, counter store and slot access is
one step, so a run is any interleaving of the two sides. -/
namespace Plughost.Ipc

def isPowerOfTwo (v : BitVec 32) : Bool := v != 0 && (v &&& (v - 1)) == 0

/-- The constant part of the control block. `slotCount` passed `isPowerOfTwo`
in `CreateNew` / `OpenExisting` before any ring existed. -/
structure RingGeometry where
  slotCount : BitVec 32
  slotBytes : BitVec 32
  powerOfTwo : isPowerOfTwo slotCount = true

namespace RingGeometry
variable (g : RingGeometry)

/-- Number of the slot that `SlotAt(index)` points to. -/
def slotAt (index : BitVec 64) : Nat :=
  let mask := g.slotCount - 1
  (index &&& mask.setWidth 64).toNat

/-- Byte offset of that slot from `slots_`. -/
def slotOffset (index : BitVec 64) : Nat := g.slotAt index * g.slotBytes.toNat

/-- The test of `Acquire`, on the counters it loaded. -/
def full (head tail : BitVec 64) : Bool := g.slotCount.setWidth 64 ≤ head - tail

end RingGeometry

theorem isPowerOfTwo_iff (v : BitVec 32) : isPowerOfTwo v = true ↔ ∃ k < 32, v.toNat = 2^k := by
  have hnat : isPowerOfTwo v = true ↔ v.toNat ≠ 0 ∧ v.toNat &&& (v.toNat - 1) = 0 := by
    simp only [isPowerOfTwo, Bool.and_eq_true, bne_iff_ne, beq_iff_eq]
    constructor
    · rintro ⟨hne, hand⟩
      have h0 : v.toNat ≠ 0 := fun h => hne (BitVec.eq_of_toNat_eq h)
      have hsub : (v - 1).toNat = v.toNat - 1 := by
        have := v.isLt
        rw [BitVec.toNat_sub]
        simp only [BitVec.ofNat_eq_ofNat, BitVec.toNat_ofNat]
        omega
      refine ⟨h0, ?_⟩
      rw [← hsub, ← BitVec.toNat_and, hand]
      rfl
    · rintro ⟨h0, hand⟩
      refine ⟨fun h => h0 (by rw [h]; rfl), BitVec.eq_of_toNat_eq ?_⟩
      have hsub : (v - 1).toNat = v.toNat - 1 := by
        have := v.isLt
        rw [BitVec.toNat_sub]
        simp only [BitVec.ofNat_eq_ofNat, BitVec.toNat_ofNat]
        omega
      rw [BitVec.toNat_and, hsub, hand]
      rfl
  rw [hnat, Nat.ne_zero_and_sub_one_eq_zero_iff_isPowerOfTwo]
  constructor
  · rintro ⟨k, hk⟩
    refine ⟨k, ?_, hk⟩
    by_contra hge
    have := Nat.pow_le_pow_right (n := 2) (by omega) (Nat.le_of_not_lt hge)
    have := v.isLt
    omega
  · rintro ⟨k, _, hk⟩
    exact ⟨k, hk⟩

namespace RingGeometry
variable (g : RingGeometry)

private theorem slotCount_pow : ∃ k < 32, g.slotCount.toNat = 2^k := (isPowerOfTwo_iff _).mp g.powerOfTwo

theorem slotCount_pos : 0 < g.slotCount.toNat := by
  obtain ⟨k, _, hk⟩ := g.slotCount_pow
  rw [hk]
  exact Nat.two_pow_pos k

private theorem slotCount_dvd : g.slotCount.toNat ∣ 2^64 := by
  obtain ⟨k, hk, he⟩ := g.slotCount_pow
  rw [he]
  exact Nat.pow_dvd_pow 2 (by omega)

/-- Masking is reduction modulo the slot count. -/
theorem slotAt_eq (index : BitVec 64) : g.slotAt index = index.toNat % g.slotCount.toNat := by
  obtain ⟨k, hk, he⟩ := g.slotCount_pow
  have hmask : (g.slotCount - 1).toNat = 2^k - 1 := by
    have := g.slotCount.isLt
    have := g.slotCount_pos
    rw [BitVec.toNat_sub]
    simp only [BitVec.ofNat_eq_ofNat, BitVec.toNat_ofNat]
    omega
  have hlt : 2^k - 1 < 2^64 := by
    have := Nat.pow_lt_pow_right (a := 2) (by omega) (show k < 64 by omega)
    omega
  rw [slotAt, BitVec.toNat_and, BitVec.toNat_setWidth, hmask, Nat.mod_eq_of_lt hlt,
    Nat.and_two_pow_sub_one_eq_mod, he]

/-- Counters that wrap at 2^64 still name slots modulo the slot count. -/
private theorem slotAt_add (c : BitVec 64) (i : Nat) :
    g.slotAt (c + BitVec.ofNat 64 i) = (c.toNat + i) % g.slotCount.toNat := by
  rw [slotAt_eq, BitVec.toNat_add, BitVec.toNat_ofNat, Nat.add_mod_mod,
    Nat.mod_mod_of_dvd _ g.slotCount_dvd]

/-- Indices less than a full turn apart have different slots. -/
theorem slotAt_add_ne (c : BitVec 64) {i j : Nat} (hlt : i < j) (hnear : j < i + g.slotCount.toNat) :
    g.slotAt (c + BitVec.ofNat 64 i) ≠ g.slotAt (c + BitVec.ofNat 64 j) := by
  rw [slotAt_add, slotAt_add]
  intro heq
  have hmod : (c.toNat + i) ≡ (c.toNat + j) [MOD g.slotCount.toNat] := heq
  have hd := (Nat.modEq_iff_dvd' (by omega)).mp hmod
  have := Nat.le_of_dvd (by omega) hd
  omega

/-- Slots of different numbers share no byte. -/
theorem slotOffset_disjoint {i j : BitVec 64} (h : g.slotAt i < g.slotAt j) :
    g.slotOffset i + g.slotBytes.toNat ≤ g.slotOffset j := by
  rw [slotOffset, slotOffset, ← Nat.succ_mul]
  exact Nat.mul_le_mul_right _ h

theorem full_iff {head tail : BitVec 64} :
    g.full head tail = true ↔ g.slotCount.toNat ≤ (head - tail).toNat := by
  have hlt : g.slotCount.toNat < 2^64 := g.slotCount.isLt.trans (by decide)
  simp only [full, decide_eq_true_eq, BitVec.le_def, BitVec.toNat_setWidth, Nat.mod_eq_of_lt hlt]

end RingGeometry

/-- The distance of two counters that started together, as long as it fits. -/
theorem toNat_sub_of_counts (c : BitVec 64) {p q : Nat} (hle : q ≤ p) (hfit : p - q < 2^64) :
    (c + BitVec.ofNat 64 p - (c + BitVec.ofNat 64 q)).toNat = p - q := by
  have heq : c + BitVec.ofNat 64 p - (c + BitVec.ofNat 64 q) = BitVec.ofNat 64 (p - q) := by
    obtain ⟨d, rfl⟩ := Nat.exists_eq_add_of_le hle
    rw [Nat.add_sub_cancel_left, BitVec.ofNat_add]
    simp only [BitVec.sub_eq_add_neg, BitVec.neg_add]
    ring
  rw [heq, BitVec.toNat_ofNat, Nat.mod_eq_of_lt hfit]

end Plughost.Ipc
