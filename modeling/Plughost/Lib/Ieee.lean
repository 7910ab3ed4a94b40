import Mathlib.Data.Nat.Log
import Mathlib.Order.Monotone.Basic
import Mathlib.Tactic.Ring

/-! Binary interchange formats: what a bit pattern stands for, comparison, and conversion between
formats with rounding to nearest, ties to even. Nothing here names a program. -/
namespace Plughost.Ieee

structure Format where
  expBits : Nat
  fracBits : Nat

def binary32 : Format := ⟨8, 23⟩

def binary64 : Format := ⟨11, 52⟩

/-- What a pattern stands for; finite numbers in units of the format's least positive one. -/
inductive Datum where
  | nan
  | infinite (negative : Bool)
  | finite (n : Int)
  deriving DecidableEq, Repr

/-- `a < b`: false when either is no number. -/
def Datum.lt : Datum → Datum → Bool
  | .finite m, .finite n => m < n
  | .infinite a, .finite _ => a
  | .finite _, .infinite b => !b
  | .infinite a, .infinite b => a && !b
  | .nan, _ | _, .nan => false

namespace Format
variable (F G : Format)

/-- The sign bit's weight. -/
def signUnit : Nat := 2 ^ (F.expBits + F.fracBits)

/-- The pattern of infinity, without its sign. -/
def infinity : Nat := (2 ^ F.expBits - 1) * 2 ^ F.fracBits

/-- `1` is `2 ^ oneExp` units. -/
def oneExp : Nat := F.fracBits + (2 ^ (F.expBits - 1) - 2)

def one : Nat := 2 ^ F.oneExp

/-- A pattern without its sign, below that of infinity: an exponent and a fraction, with a leading
bit unless the exponent is zero. -/
def scaled (magnitude : Nat) : Nat :=
  if magnitude / 2 ^ F.fracBits = 0 then magnitude
  else (2 ^ F.fracBits + magnitude % 2 ^ F.fracBits) * 2 ^ (magnitude / 2 ^ F.fracBits - 1)

def decode (bits : Nat) : Datum :=
  let magnitude := bits % F.signUnit
  let negative := decide (bits / F.signUnit % 2 = 1)
  if F.infinity < magnitude then .nan
  else if magnitude = F.infinity then .infinite negative
  else .finite (if negative then -(F.scaled magnitude : Int) else F.scaled magnitude)

/-- `a / b`, to nearest, ties to even. -/
def divEven (a b : Nat) : Nat :=
  if b < 2 * (a % b) ∨ (2 * (a % b) = b ∧ a / b % 2 = 1) then a / b + 1 else a / b

/-- The pattern, without its sign, nearest to `x / 2 ^ k` units. A carry out of the fraction
moves the exponent up by itself. -/
def round (x k : Nat) : Nat :=
  let e := Nat.log2 x - (k + F.fracBits)
  min (e * 2 ^ F.fracBits + divEven x (2 ^ (k + e))) F.infinity

/-- A conversion keeps the sign, and makes a NaN quiet. -/
def convert (bits : Nat) : Nat :=
  let magnitude := bits % F.signUnit
  bits / F.signUnit % 2 * G.signUnit +
    if F.infinity < magnitude then
      G.infinity + (magnitude % 2 ^ F.fracBits * 2 ^ G.fracBits / 2 ^ F.fracBits ||| 2 ^ (G.fracBits - 1))
    else if magnitude = F.infinity then G.infinity
    else G.round (F.scaled magnitude * 2 ^ (G.oneExp - F.oneExp)) (F.oneExp - G.oneExp)

/-- Bits above the sign do not count. -/
theorem decode_mod (bits : Nat) : F.decode (bits % (F.signUnit * 2)) = F.decode bits := by
  unfold decode
  rw [Nat.mod_mul_right_mod, Nat.mod_mul_right_div_self, Nat.mod_mod]

/-- A number in `[0, 1]`. -/
def Unit (bits : Nat) : Prop := ∃ n : Int, F.decode bits = .finite n ∧ 0 ≤ n ∧ n ≤ F.one

variable {F G}

/-- The order of the patterns is the order of what they stand for. -/
theorem scaled_mono : Monotone F.scaled := by
  refine monotone_nat_of_le_succ fun n => ?_
  unfold scaled
  generalize hP : 2 ^ F.fracBits = P
  have hpos : 0 < P := hP ▸ Nat.two_pow_pos _
  have hdiv := Nat.div_add_mod n P
  have hmod := Nat.mod_lt n hpos
  by_cases hcarry : n % P + 1 = P
  · -- the fraction overflows into the exponent
    have hn : n + 1 = P * (n / P + 1) := by rw [Nat.mul_succ]; omega
    have hq : (n + 1) / P = n / P + 1 := by rw [hn, Nat.mul_div_cancel_left _ hpos]
    have hr : (n + 1) % P = 0 := by rw [hn, Nat.mul_mod_right]
    rw [hq, hr, if_neg (Nat.succ_ne_zero _), Nat.add_sub_cancel, Nat.add_zero]
    split
    · rename_i h0
      rw [h0, Nat.pow_zero, Nat.mul_one]
      rw [h0, Nat.mul_zero] at hdiv
      omega
    · rename_i h0
      obtain ⟨e, he⟩ := Nat.exists_eq_succ_of_ne_zero h0
      rw [he, Nat.succ_sub_one, Nat.pow_succ, Nat.mul_comm _ 2, ← Nat.mul_assoc]
      exact Nat.mul_le_mul_right _ (by omega)
  · have hlt : n % P + 1 < P := by omega
    have hq : (n + 1) / P = n / P := by
      rw [← hdiv, Nat.add_assoc, Nat.mul_add_div hpos, Nat.mul_add_div hpos, Nat.div_eq_of_lt hlt,
        Nat.div_eq_of_lt hmod]
    have hr : (n + 1) % P = n % P + 1 := by
      conv_lhs => rw [← hdiv, Nat.add_assoc, Nat.mul_add_mod, Nat.mod_eq_of_lt hlt]
    rw [hq, hr]
    split
    · omega
    · exact Nat.mul_le_mul_right _ (by omega)

theorem divEven_le {a b : Nat} : divEven a b ≤ a / b + 1 := by
  unfold divEven
  split <;> omega

/-- What is at most a power of two is rounded to at most its pattern. -/
private theorem round_le {x k j : Nat} (hj : F.fracBits < j) (hx : x ≤ 2 ^ (k + j)) :
    F.round x k ≤ (j - F.fracBits + 1) * 2 ^ F.fracBits := by
  refine (Nat.min_le_left _ _).trans ?_
  generalize hm : F.fracBits = m at hj
  rcases Nat.eq_or_lt_of_le hx with rfl | hlt
  · -- the power itself is represented
    rw [Nat.log2_two_pow]
    have he : k + (k + j - (k + m)) = k + j - m := by omega
    have hdvd : 2 ^ (k + j) = 2 ^ m * 2 ^ (k + j - m) := by rw [← Nat.pow_add]; congr 1; omega
    have hexact : divEven (2 ^ (k + j)) (2 ^ (k + j - m)) = 2 ^ m := by
      rw [divEven, hdvd, Nat.mul_mod_left, Nat.mul_div_cancel _ (Nat.two_pow_pos _)]
      have := Nat.two_pow_pos (k + j - m)
      rw [if_neg (by omega)]
    rw [he, hexact, show k + j - (k + m) = j - m by omega, Nat.succ_mul]
  · have hlog : x ≠ 0 → Nat.log2 x < k + j := fun h0 => (Nat.log2_lt h0).mpr hlt
    generalize he : Nat.log2 x - (k + m) = e
    have hq : x / 2 ^ (k + e) < 2 ^ (m + 1) := by
      rw [Nat.div_lt_iff_lt_mul (Nat.two_pow_pos _), ← Nat.pow_add]
      exact Nat.lt_log2_self.trans_le (Nat.pow_le_pow_right (by decide) (by omega))
    have hround : divEven x (2 ^ (k + e)) ≤ 2 ^ (m + 1) := divEven_le.trans hq
    have hle : e + 2 ≤ j - m + 1 := by
      rcases Nat.eq_zero_or_pos x with rfl | hx0
      · rw [Nat.log2_zero] at he
        omega
      · have := hlog hx0.ne'
        omega
    calc
      e * 2 ^ m + divEven x (2 ^ (k + e)) ≤ e * 2 ^ m + 2 ^ (m + 1) := Nat.add_le_add_left hround _
      _ = (e + 2) * 2 ^ m := by ring
      _ ≤ _ := Nat.mul_le_mul_right _ hle

/-- `1`, as a pattern. -/
private theorem scaled_one (hm : 2 ≤ F.expBits) : F.scaled ((2 ^ (F.expBits - 1) - 1) * 2 ^ F.fracBits) = F.one := by
  have hpos := Nat.two_pow_pos F.fracBits
  have hexp : 2 ≤ 2 ^ (F.expBits - 1) := Nat.pow_le_pow_right (n := 2) (i := 1) (by decide) (by omega)
  rw [scaled, Nat.mul_div_cancel _ hpos, Nat.mul_mod_left, if_neg (by omega), Nat.add_zero, ← Nat.pow_add, one,
    oneExp, Nat.sub_sub]

@[simp] theorem scaled_zero : F.scaled 0 = 0 := by
  simp [scaled]

/-- Infinity, and the NaNs above it, still leave room for the sign. -/
theorem infinity_add : F.infinity + 2 ^ F.fracBits = F.signUnit := by
  rw [infinity, signUnit, Nat.pow_add, Nat.sub_mul, Nat.one_mul,
    Nat.sub_add_cancel (Nat.le_mul_of_pos_left _ (Nat.two_pow_pos _))]

theorem one_lt_infinity (he : 2 ≤ F.expBits) : (2 ^ (F.expBits - 1) - 1) * 2 ^ F.fracBits < F.infinity := by
  refine Nat.mul_lt_mul_of_pos_right ?_ (Nat.two_pow_pos _)
  have hlt : 2 ^ (F.expBits - 1) < 2 ^ F.expBits := Nat.pow_lt_pow_right (by decide) (by omega)
  have := Nat.two_pow_pos (F.expBits - 1)
  omega

/-- A pattern put together from its sign and the rest. -/
private theorem decode_signed {s magnitude : Nat} (hs : s < 2) (h : magnitude < F.signUnit) :
    F.decode (s * F.signUnit + magnitude) =
      if F.infinity < magnitude then .nan
      else if magnitude = F.infinity then .infinite (s = 1)
      else .finite (if s = 1 then -(F.scaled magnitude : Int) else F.scaled magnitude) := by
  have hpos : 0 < F.signUnit := Nat.two_pow_pos _
  have hmod : (s * F.signUnit + magnitude) % F.signUnit = magnitude := by
    rw [Nat.mul_comm, Nat.mul_add_mod, Nat.mod_eq_of_lt h]
  have hdiv : (s * F.signUnit + magnitude) / F.signUnit = s := by
    rw [Nat.mul_comm, Nat.mul_add_div hpos, Nat.div_eq_of_lt h, Nat.add_zero]
  simp only [decode, hmod, hdiv, Nat.mod_eq_of_lt hs, decide_eq_true_eq]

private theorem unit_signed {s magnitude : Nat} (he : 2 ≤ F.expBits) (hs : s < 2)
    (h : magnitude ≤ (2 ^ (F.expBits - 1) - 1) * 2 ^ F.fracBits) (hneg : s = 1 → magnitude = 0) :
    F.Unit (s * F.signUnit + magnitude) := by
  have hlt := h.trans_lt (one_lt_infinity he)
  have hscaled : F.scaled magnitude ≤ F.one := (scaled_mono h).trans_eq (scaled_one he)
  have hroom : magnitude < F.signUnit := hlt.trans_le (infinity_add ▸ Nat.le_add_right _ _)
  refine ⟨F.scaled magnitude, ?_, Int.natCast_nonneg _, by exact_mod_cast hscaled⟩
  rw [decode_signed hs hroom, if_neg (by omega), if_neg (by omega)]
  split
  · rename_i hs1
    rw [hneg hs1, scaled_zero]
    rfl
  · rfl

private theorem unit_cases {bits : Nat} (h : F.Unit bits) : bits % F.signUnit < F.infinity ∧
    F.scaled (bits % F.signUnit) ≤ F.one ∧ (bits / F.signUnit % 2 = 1 → F.scaled (bits % F.signUnit) = 0) := by
  obtain ⟨n, hn, hn0, hn1⟩ := h
  unfold decode at hn
  dsimp only at hn
  split at hn
  · cases hn
  · split at hn
    · cases hn
    · cases hn
      refine ⟨by omega, ?_, fun hneg => ?_⟩
      · by_cases hneg : bits / F.signUnit % 2 = 1
        · rw [if_pos (decide_eq_true hneg)] at hn0
          omega
        · rw [if_neg (by simpa using hneg)] at hn1
          exact_mod_cast hn1
      · rw [if_pos (decide_eq_true hneg)] at hn0
        omega

theorem round_zero (k : Nat) : F.round 0 k = 0 := by
  simp [round, divEven]

/-- A conversion takes `[0, 1]` to `[0, 1]`. -/
theorem convert_unit {bits : Nat} (he : 2 < G.expBits) (h : F.Unit bits) : G.Unit (F.convert G bits) := by
  obtain ⟨hfin, hone, hneg⟩ := unit_cases h
  unfold convert
  dsimp only
  rw [if_neg (by omega), if_neg (by omega)]
  refine unit_signed (by omega) (Nat.mod_lt _ (by decide)) ?_ fun hs => ?_
  · have hexp : 4 ≤ 2 ^ (G.expBits - 1) := Nat.pow_le_pow_right (n := 2) (i := 2) (by decide) (by omega)
    refine (round_le (j := G.oneExp) (by rw [oneExp]; omega) ?_).trans_eq ?_
    · calc
        _ ≤ F.one * 2 ^ (G.oneExp - F.oneExp) := Nat.mul_le_mul_right _ hone
        _ = 2 ^ (F.oneExp + (G.oneExp - F.oneExp)) := (Nat.pow_add ..).symm
        _ = _ := by congr 1; omega
    · rw [oneExp, Nat.add_sub_cancel_left]
      congr 1
      omega
  · rw [hneg hs, Nat.zero_mul, round_zero]

/-- A NaN stays one. -/
theorem convert_nan {bits : Nat} (hm : 0 < G.fracBits) (h : F.decode bits = .nan) :
    G.decode (F.convert G bits) = .nan := by
  have hlt : F.infinity < bits % F.signUnit := by
    unfold decode at h
    dsimp only at h
    split at h
    · assumption
    · split at h <;> cases h
  unfold convert
  dsimp only
  rw [if_pos hlt]
  generalize hp : bits % F.signUnit % 2 ^ F.fracBits * 2 ^ G.fracBits / 2 ^ F.fracBits = payload
  have hpayload : payload < 2 ^ G.fracBits := by
    rw [← hp, Nat.div_lt_iff_lt_mul (Nat.two_pow_pos _), Nat.mul_comm (2 ^ G.fracBits)]
    exact Nat.mul_lt_mul_of_pos_right (Nat.mod_lt _ (Nat.two_pow_pos _)) (Nat.two_pow_pos _)
  have hquiet : payload ||| 2 ^ (G.fracBits - 1) < 2 ^ G.fracBits :=
    Nat.or_lt_two_pow hpayload (Nat.pow_lt_pow_right (by decide) (by omega))
  have hpos : 0 < payload ||| 2 ^ (G.fracBits - 1) := (Nat.two_pow_pos _).trans_le Nat.right_le_or
  rw [decode_signed (Nat.mod_lt _ (by decide)) (infinity_add ▸ Nat.add_lt_add_left hquiet _),
    if_pos (Nat.lt_add_of_pos_right hpos)]

end Format
end Plughost.Ieee
