import Plughost.Lib.Ieee

/-! Addition and multiplication on bit patterns, rounded to nearest, ties to even; and the mean of
two numbers that is computed as half of their sum. Nothing here names a program. -/
namespace Plughost.Ieee
namespace Format
variable (F : Format)

def isNegative (bits : Nat) : Bool := decide (bits / F.signUnit % 2 = 1)

def signed (negative : Bool) (magnitude : Nat) : Nat := negative.toNat * F.signUnit + magnitude

/-- Which NaN an operation gives for its operands. The standard leaves that open. -/
structure Nans where
  pick : Nat → Nat → Nat
  isNan : ∀ a b, F.decode (pick a b) = .nan

/-- The NaN of an empty payload. -/
def quiet : Nat := F.infinity + 2 ^ (F.fracBits - 1)

/-- The sign of `z = l + r`: an exact zero is negative only if both numbers are. -/
def sumSign (l r : Nat) (z : Int) : Bool := if z = 0 then F.isNegative l && F.isNegative r else decide (z < 0)

def add (nans : F.Nans) (a b : Nat) : Nat :=
  match F.decode a, F.decode b with
  | .nan, _ | _, .nan => nans.pick a b
  | .infinite s, .infinite t => if s = t then F.signed s F.infinity else nans.pick a b
  | .infinite s, .finite _ => F.signed s F.infinity
  | .finite _, .infinite t => F.signed t F.infinity
  | .finite m, .finite n => F.signed (F.sumSign a b (m + n)) (F.round (m + n).natAbs 0)

def mul (nans : F.Nans) (a b : Nat) : Nat :=
  let negative := F.isNegative a != F.isNegative b
  match F.decode a, F.decode b with
  | .nan, _ | _, .nan => nans.pick a b
  | .infinite _, .infinite _ => F.signed negative F.infinity
  | .infinite _, .finite n | .finite n, .infinite _ => if n = 0 then nans.pick a b else F.signed negative F.infinity
  | .finite m, .finite n => F.signed negative (F.round (m.natAbs * n.natAbs) F.oneExp)

/-- `0.5` -/
def half : Nat := (2 ^ (F.expBits - 1) - 2) * 2 ^ F.fracBits

/-- `0.5 * (l + r)` -/
def mean (nans : F.Nans) (l r : Nat) : Nat := F.mul nans F.half (F.add nans l r)

/-- The units of a sum of two equal numbers, from which on it overflows. -/
def ceiling : Nat := F.scaled F.infinity

variable {F}

private theorem divEven_mul {a b : Nat} (hb : 0 < b) : divEven (a * b) b = a := by
  rw [divEven, Nat.mul_mod_left, Nat.mul_div_cancel _ hb, if_neg (by omega)]

private theorem divEven_mono {a b c : Nat} (h : a ≤ b) : divEven a c ≤ divEven b c := by
  have hquot : a / c ≤ b / c := Nat.div_le_div_right h
  have hb : b / c ≤ divEven b c := by
    unfold divEven
    split <;> omega
  rcases Nat.eq_or_lt_of_le hquot with heq | hlt
  · have ha := Nat.div_add_mod a c
    have hb' := Nat.div_add_mod b c
    rw [heq] at ha
    have hrest : a % c ≤ b % c := by omega
    unfold divEven
    rw [heq]
    split
    · rename_i hup
      rw [if_pos (by omega)]
    · split <;> omega
  · exact divEven_le.trans (Nat.succ_le_of_lt hlt |>.trans hb)

private theorem divEven_scale {a b c : Nat} (hc : 0 < c) : divEven (a * c) (b * c) = divEven a b := by
  have hscale : 2 * (a * c % (b * c)) = 2 * (a % b) * c := by
    rw [Nat.mul_mod_mul_right, Nat.mul_assoc]
  unfold divEven
  rw [hscale, Nat.mul_div_mul_right _ _ hc]
  simp only [Nat.mul_lt_mul_right hc, Nat.mul_left_inj hc.ne']

private theorem log2_mul_two_pow {x : Nat} (hx : x ≠ 0) (j : Nat) : Nat.log2 (x * 2 ^ j) = Nat.log2 x + j := by
  induction j with
  | zero => rw [Nat.pow_zero, Nat.mul_one, Nat.add_zero]
  | succ j ih =>
    rw [Nat.pow_succ, ← Nat.mul_assoc, Nat.mul_comm _ 2,
      Nat.log2_two_mul (Nat.mul_ne_zero hx (Nat.two_pow_pos j).ne'), ih]
    rfl

private theorem log2_mono {x y : Nat} (h : x ≤ y) : Nat.log2 x ≤ Nat.log2 y := by
  rw [Nat.log2_eq_log_two, Nat.log2_eq_log_two]
  exact Nat.log_mono_right h

/-- Rounding keeps the order. -/
private theorem round_mono (k : Nat) : Monotone fun x => F.round x k := by
  intro x y h
  refine min_le_min_right _ ?_
  have hlog := log2_mono h
  generalize hm : F.fracBits = m
  generalize hex : Nat.log2 x - (k + m) = ex
  generalize hey : Nat.log2 y - (k + m) = ey
  rcases Nat.eq_or_lt_of_le (show ex ≤ ey by omega) with rfl | hlt
  · exact Nat.add_le_add_left (divEven_mono h) _
  · -- `x` is rounded to at most the least number with the exponent of `y`
    have hx : x / 2 ^ (k + ex) < 2 ^ (m + 1) := by
      rw [Nat.div_lt_iff_lt_mul (Nat.two_pow_pos _), ← Nat.pow_add]
      exact Nat.lt_log2_self.trans_le (Nat.pow_le_pow_right (by decide) (by omega))
    have hy : 2 ^ m ≤ y / 2 ^ (k + ey) := by
      rw [Nat.le_div_iff_mul_le (Nat.two_pow_pos _), ← Nat.pow_add, show m + (k + ey) = Nat.log2 y by omega]
      refine Nat.log2_self_le fun h0 => ?_
      rw [h0, Nat.log2_zero] at hey
      omega
    have hround : divEven x (2 ^ (k + ex)) ≤ 2 ^ (m + 1) := divEven_le.trans hx
    have hkeep : y / 2 ^ (k + ey) ≤ divEven y (2 ^ (k + ey)) := by
      unfold divEven
      split <;> omega
    calc
      ex * 2 ^ m + divEven x (2 ^ (k + ex)) ≤ ex * 2 ^ m + 2 ^ (m + 1) := Nat.add_le_add_left hround _
      _ = (ex + 1) * 2 ^ m + 2 ^ m := by ring
      _ ≤ ey * 2 ^ m + 2 ^ m := Nat.add_le_add_right (Nat.mul_le_mul_right _ hlt) _
      _ ≤ _ := Nat.add_le_add_left (hy.trans hkeep) _

/-- A number that has a pattern is rounded to it. -/
private theorem round_scaled (p k : Nat) : F.round (F.scaled p * 2 ^ k) k = min p F.infinity := by
  unfold round
  dsimp only
  congr 1
  generalize hm : F.fracBits = m
  unfold scaled
  rw [hm]
  have hpos : 0 < 2 ^ m := Nat.two_pow_pos m
  have hdiv := Nat.div_add_mod p (2 ^ m)
  have hmod := Nat.mod_lt p hpos
  split
  · rename_i h0
    have hp : p < 2 ^ m := by
      rw [h0, Nat.mul_zero] at hdiv
      omega
    have hlog : Nat.log2 (p * 2 ^ k) - (k + m) = 0 := by
      rcases Nat.eq_zero_or_pos p with rfl | hp0
      · simp
      · have hlt : p * 2 ^ k < 2 ^ (k + m) := by
          rw [Nat.add_comm, Nat.pow_add]
          exact Nat.mul_lt_mul_of_pos_right hp (Nat.two_pow_pos k)
        have := (Nat.log2_lt (Nat.mul_pos hp0 (Nat.two_pow_pos k)).ne').mpr hlt
        omega
    rw [hlog, Nat.zero_mul, Nat.zero_add, Nat.add_zero, divEven_mul (Nat.two_pow_pos k)]
  · rename_i h0
    obtain ⟨q, hq⟩ := Nat.exists_eq_succ_of_ne_zero h0
    rw [hq] at hdiv ⊢
    rw [Nat.succ_sub_one]
    generalize hf : 2 ^ m + p % 2 ^ m = f
    have hf0 : f ≠ 0 := by omega
    have hlogf : Nat.log2 f = m := by
      refine (Nat.log2_eq_iff hf0).mpr ⟨by omega, ?_⟩
      rw [Nat.pow_succ]
      omega
    have hlog : Nat.log2 (f * 2 ^ (q + k)) = m + (q + k) := by
      rw [log2_mul_two_pow hf0, hlogf]
    have he : m + (q + k) - (k + m) = q := by omega
    rw [Nat.mul_assoc, ← Nat.pow_add, hlog, he, Nat.add_comm q k, divEven_mul (Nat.two_pow_pos _), ← hf]
    rw [Nat.mul_succ, Nat.mul_comm] at hdiv
    omega

/-- A product with a power of two, at that scale. -/
private theorem round_shift (x k j : Nat) : F.round (x * 2 ^ j) (k + j) = F.round x k := by
  rcases Nat.eq_zero_or_pos x with rfl | hx
  · rw [Nat.zero_mul, round_zero, round_zero]
  · have he : Nat.log2 (x * 2 ^ j) - (k + j + F.fracBits) = Nat.log2 x - (k + F.fracBits) := by
      rw [log2_mul_two_pow hx.ne']
      omega
    unfold round
    dsimp only
    rw [he, Nat.add_right_comm k j, Nat.pow_add, divEven_scale (Nat.two_pow_pos j)]

variable (F) in
/-- The pattern of twice the number. -/
def twice (p : Nat) : Nat := if p < 2 ^ F.fracBits then 2 * p else p + 2 ^ F.fracBits

private theorem scaled_twice (p : Nat) : F.scaled (F.twice p) = 2 * F.scaled p := by
  unfold twice scaled
  generalize hP : 2 ^ F.fracBits = P
  have hpos : 0 < P := hP ▸ Nat.two_pow_pos _
  by_cases hp : p < P
  · rw [if_pos hp, Nat.div_eq_of_lt hp, if_pos rfl]
    by_cases h2 : 2 * p < P
    · rw [Nat.div_eq_of_lt h2, if_pos rfl]
    · -- doubling the fraction brings in the leading bit
      have hsplit : 2 * p = 2 * p - P + P := by omega
      have hlt : 2 * p - P < P := by omega
      have hq : 2 * p / P = 1 := by
        rw [hsplit, Nat.add_div_right _ hpos, Nat.div_eq_of_lt hlt]
      have hr : 2 * p % P = 2 * p - P := by
        conv_lhs => rw [hsplit, Nat.add_mod_right, Nat.mod_eq_of_lt hlt]
      rw [hq, hr, if_neg (by decide), Nat.sub_self, Nat.pow_zero]
      omega
  · have hq0 : p / P ≠ 0 := (Nat.div_pos (by omega) hpos).ne'
    obtain ⟨q, hq⟩ := Nat.exists_eq_succ_of_ne_zero hq0
    rw [if_neg hp, Nat.add_div_right _ hpos, Nat.add_mod_right, if_neg (Nat.succ_ne_zero _), if_neg hq0, hq,
      Nat.succ_sub_one, Nat.succ_sub_one, Nat.pow_succ]
    ring

private theorem scaled_lt_ceiling {p : Nat} : F.scaled p < F.ceiling ↔ p < F.infinity := by
  constructor
  · intro h
    by_contra hle
    exact absurd (scaled_mono (Nat.le_of_not_lt hle)) (Nat.not_le_of_lt h)
  · intro h
    refine (scaled_mono h.le).lt_of_ne fun heq => ?_
    have hp := round_scaled (F := F) p 0
    rw [heq, round_scaled, Nat.min_self, Nat.min_eq_left h.le] at hp
    exact h.ne hp.symm

private theorem round_le_infinity (x k : Nat) : F.round x k ≤ F.infinity := Nat.min_le_right _ _

private theorem infinity_lt : F.infinity < F.signUnit :=
  infinity_add (F := F) ▸ Nat.lt_add_of_pos_right (Nat.two_pow_pos _)

section Signed
variable {s : Bool} {p bits : Nat}

private theorem signed_parts (hp : p < F.signUnit) :
    F.isNegative (F.signed s p) = s ∧ F.signed s p % F.signUnit = p := by
  have hpos : 0 < F.signUnit := Nat.two_pow_pos _
  unfold isNegative signed
  rw [Nat.mul_comm, Nat.mul_add_mod, Nat.mul_add_div hpos, Nat.div_eq_of_lt hp, Nat.mod_eq_of_lt hp]
  cases s <;> exact ⟨rfl, rfl⟩

/-- A pattern is its sign and the rest. -/
private theorem signed_self (h : bits < F.signUnit * 2) : F.signed (F.isNegative bits) (bits % F.signUnit) = bits := by
  have hdiv := Nat.div_add_mod bits F.signUnit
  have hlt : bits / F.signUnit < 2 := Nat.div_lt_of_lt_mul h
  have hsign : (F.isNegative bits).toNat = bits / F.signUnit := by
    unfold isNegative
    rw [Nat.mod_eq_of_lt hlt]
    by_cases hone : bits / F.signUnit = 1
    · rw [hone]
      rfl
    · rw [decide_eq_false hone]
      exact (Nat.lt_one_iff.mp (by omega)).symm
  rw [signed, hsign, Nat.mul_comm]
  exact hdiv

/-- A magnitude with its sign. -/
def withSign (s : Bool) (x : Nat) : Int := if s then -x else x

private theorem decode_eq (bits : Nat) : F.decode bits =
    if F.infinity < bits % F.signUnit then .nan
    else if bits % F.signUnit = F.infinity then .infinite (F.isNegative bits)
    else .finite (withSign (F.isNegative bits) (F.scaled (bits % F.signUnit))) := rfl

private theorem decode_finite {n : Int} (h : F.decode bits = .finite n) :
    bits % F.signUnit < F.infinity ∧ n = withSign (F.isNegative bits) (F.scaled (bits % F.signUnit)) := by
  rw [decode_eq] at h
  split at h
  · cases h
  · split at h
    · cases h
    · cases h
      exact ⟨by omega, rfl⟩

private theorem decode_signed_infinity : F.decode (F.signed s F.infinity) = .infinite s := by
  obtain ⟨hneg, hmag⟩ := signed_parts (s := s) (infinity_lt (F := F))
  rw [decode_eq, hneg, hmag, if_neg (Nat.lt_irrefl _), if_pos rfl]

private theorem decode_signed_finite (hp : p < F.infinity) :
    F.decode (F.signed s p) = .finite (withSign s (F.scaled p)) := by
  obtain ⟨hneg, hmag⟩ := signed_parts (s := s) (hp.trans (infinity_lt (F := F)))
  rw [decode_eq, hneg, hmag, if_neg (by omega), if_neg (by omega)]

private theorem decode_quiet (hf : 0 < F.fracBits) : F.decode F.quiet = .nan := by
  have hlt : 2 ^ (F.fracBits - 1) < 2 ^ F.fracBits := Nat.pow_lt_pow_right (by decide) (by omega)
  have hpos := Nat.two_pow_pos (F.fracBits - 1)
  have hroom := infinity_add (F := F)
  have hmag : F.quiet % F.signUnit = F.quiet := Nat.mod_eq_of_lt (by rw [quiet]; omega)
  rw [decode_eq, hmag, if_pos (by rw [quiet]; omega)]

/-- One NaN for everything. -/
def Nans.constant (hf : 0 < F.fracBits) : F.Nans := ⟨fun _ _ => F.quiet, fun _ _ => decode_quiet hf⟩

@[simp] theorem natAbs_withSign (s : Bool) (x : Nat) : (withSign s x).natAbs = x := by
  cases s <;> simp [withSign]

end Signed

/-- `0.5` is a half of `1`. -/
private theorem decode_half (he : 3 ≤ F.expBits) : F.decode F.half = .finite (2 ^ (F.oneExp - 1) : Nat) ∧
    F.isNegative F.half = false := by
  have hexp : 4 ≤ 2 ^ (F.expBits - 1) := Nat.pow_le_pow_right (n := 2) (i := 2) (by decide) (by omega)
  have hpos := Nat.two_pow_pos F.fracBits
  have hlt : F.half < F.infinity :=
    (Nat.mul_lt_mul_of_pos_right (by omega) hpos).trans (one_lt_infinity (F := F) (by omega))
  have hself : F.signed false F.half = F.half := by rw [signed, Bool.toNat_false, Nat.zero_mul, Nat.zero_add]
  have hscaled : F.scaled F.half = 2 ^ (F.oneExp - 1) := by
    rw [scaled, half, Nat.mul_div_cancel _ hpos, Nat.mul_mod_left, if_neg (by omega), Nat.add_zero, ← Nat.pow_add,
      oneExp]
    congr 1
    omega
  obtain ⟨hneg, -⟩ := signed_parts (F := F) (s := false) (hlt.trans infinity_lt)
  have hdecode := decode_signed_finite (s := false) hlt
  rw [hself] at hneg hdecode
  rw [hscaled] at hdecode
  exact ⟨hdecode, hneg⟩

/-- Half of a number keeps its sign. -/
private theorem mul_half (he : 3 ≤ F.expBits) (nans : F.Nans) (bits : Nat) : F.mul nans F.half bits =
    match F.decode bits with
    | .nan => nans.pick F.half bits
    | .infinite _ => F.signed (F.isNegative bits) F.infinity
    | .finite n => F.signed (F.isNegative bits) (F.round n.natAbs 1) := by
  obtain ⟨hhalf, hneg⟩ := decode_half he
  have hsign : (false != F.isNegative bits) = F.isNegative bits := Bool.false_bne _
  have hexp : F.oneExp = 1 + (F.oneExp - 1) := by
    have hexp : 4 ≤ 2 ^ (F.expBits - 1) := Nat.pow_le_pow_right (n := 2) (i := 2) (by decide) (by omega)
    unfold oneExp
    omega
  unfold mul
  rw [hhalf, hneg, hsign]
  cases F.decode bits with
  | nan => rfl
  | infinite t => exact if_neg (by exact_mod_cast (Nat.two_pow_pos _).ne')
  | finite n =>
    change F.signed _ (F.round (2 ^ (F.oneExp - 1) * n.natAbs) F.oneExp) = _
    rw [Nat.mul_comm]
    conv_lhs => rw [hexp, Nat.add_sub_cancel_left, round_shift]

variable (F) in
/-- The mean's magnitude, from the sum's: it is rounded twice. -/
def halved (x : Nat) : Nat := F.round (F.scaled (F.round x 0)) 1

private theorem halved_mono : Monotone F.halved := fun _ _ h => round_mono 1 (scaled_mono (round_mono 0 h))

/-- Half of twice a number is that number, unless twice the number overflows. -/
private theorem halved_twice {p : Nat} (h : 2 * F.scaled p < F.ceiling) :
    F.round (2 * F.scaled p) 0 < F.infinity ∧ F.halved (2 * F.scaled p) = p := by
  have htwice : F.twice p < F.infinity := by
    rw [← scaled_twice] at h
    exact scaled_lt_ceiling.mp h
  have hp : p ≤ F.infinity := by
    refine (scaled_lt_ceiling.mp ?_).le
    omega
  have hround : F.round (2 * F.scaled p) 0 = F.twice p := by
    have hexact := round_scaled (F := F) (F.twice p) 0
    rw [Nat.pow_zero, Nat.mul_one, scaled_twice, Nat.min_eq_left htwice.le] at hexact
    exact hexact
  refine ⟨hround ▸ htwice, ?_⟩
  rw [halved, hround, scaled_twice, Nat.mul_comm]
  exact (round_scaled p 1).trans (Nat.min_eq_left hp)

private theorem halved_overflow {p : Nat} (h : F.ceiling ≤ 2 * F.scaled p) :
    F.round (2 * F.scaled p) 0 = F.infinity := by
  have hround := round_scaled (F := F) (F.twice p) 0
  rw [Nat.pow_zero, Nat.mul_one, scaled_twice] at hround
  rw [hround]
  refine Nat.min_eq_right (Nat.le_of_not_lt fun hlt => ?_)
  have := scaled_lt_ceiling.mpr hlt
  rw [scaled_twice] at this
  omega

section Mean
variable {l r x : Nat} {m n : Int} {nans : F.Nans}

private theorem halved_lt {x : Nat} (h : F.round x 0 < F.infinity) : F.halved x < F.infinity := by
  refine lt_of_le_of_lt ?_ h
  calc
    F.halved x ≤ F.round (F.scaled (F.round x 0) * 2 ^ 1) 1 := round_mono 1 (Nat.le_mul_of_pos_right _ (by decide))
    _ = min (F.round x 0) F.infinity := round_scaled _ 1
    _ ≤ F.round x 0 := Nat.min_le_left _ _

private theorem mean_finite (he : 3 ≤ F.expBits) (hl : F.decode l = .finite m) (hr : F.decode r = .finite n) :
    F.mean nans l r = F.signed (F.sumSign l r (m + n))
      (if F.round (m + n).natAbs 0 < F.infinity then F.halved (m + n).natAbs else F.infinity) := by
  have hadd : F.add nans l r = F.signed (F.sumSign l r (m + n)) (F.round (m + n).natAbs 0) := by
    rw [add, hl, hr]
  rw [mean, hadd, mul_half he]
  split_ifs with hlt
  · rw [decode_signed_finite hlt, (signed_parts (hlt.trans infinity_lt)).1]
    simp only [natAbs_withSign]
    rfl
  · have htop : F.round (m + n).natAbs 0 = F.infinity := (round_le_infinity _ _).antisymm (Nat.le_of_not_lt hlt)
    rw [htop, decode_signed_infinity, (signed_parts infinity_lt).1]

variable (F) in
/-- The mean, as a number, from the sum. -/
def meanOf (z : Int) : Int := withSign (decide (z < 0)) (F.scaled (F.halved z.natAbs))

/-- A larger sum has no smaller mean. -/
private theorem meanOf_le {a b : Int} (h : a ≤ b) : F.meanOf a ≤ F.meanOf b := by
  have hmono {x y : Nat} (hxy : x ≤ y) : F.scaled (F.halved x) ≤ F.scaled (F.halved y) :=
    scaled_mono (halved_mono hxy)
  unfold meanOf withSign
  by_cases ha : a < 0
  · by_cases hb : b < 0
    · rw [decide_eq_true ha, decide_eq_true hb, if_pos rfl, if_pos rfl]
      have := hmono (show b.natAbs ≤ a.natAbs by omega)
      exact Int.neg_le_neg (by exact_mod_cast this)
    · rw [decide_eq_true ha, decide_eq_false hb, if_pos rfl, if_neg (by decide)]
      omega
  · have hb : ¬ b < 0 := by omega
    rw [decide_eq_false ha, decide_eq_false hb, if_neg (by decide), if_neg (by decide)]
    have := hmono (show a.natAbs ≤ b.natAbs by omega)
    exact_mod_cast this

private theorem meanOf_twice (hl : F.decode l = .finite m) (hm : 2 * m.natAbs < F.ceiling) : F.meanOf (m + m) = m := by
  obtain ⟨-, heq⟩ := decode_finite hl
  have habs : m.natAbs = F.scaled (l % F.signUnit) := by rw [heq, natAbs_withSign]
  have htwice : (m + m).natAbs = 2 * F.scaled (l % F.signUnit) := by omega
  rw [habs] at hm
  rw [meanOf, htwice, (halved_twice hm).2, ← habs]
  unfold withSign
  split_ifs with hneg
  · have := of_decide_eq_true hneg
    omega
  · have : ¬ m + m < 0 := of_decide_eq_false (Bool.not_eq_true _ ▸ hneg)
    omega

private theorem round_twice_lt (hl : F.decode l = .finite m) (hm : 2 * m.natAbs < F.ceiling) :
    F.round (2 * m.natAbs) 0 < F.infinity := by
  obtain ⟨-, heq⟩ := decode_finite hl
  have habs : m.natAbs = F.scaled (l % F.signUnit) := by rw [heq, natAbs_withSign]
  rw [habs] at hm ⊢
  exact (halved_twice hm).1

/-- The mean of two numbers lies between them, if their doubles do not overflow. -/
theorem mean_between (he : 3 ≤ F.expBits) (hl : F.decode l = .finite m) (hr : F.decode r = .finite n)
    (hm : 2 * m.natAbs < F.ceiling) (hn : 2 * n.natAbs < F.ceiling) :
    ∃ v, F.decode (F.mean nans l r) = .finite v ∧ min m n ≤ v ∧ v ≤ max m n := by
  have hsum : F.round (m + n).natAbs 0 < F.infinity := by
    rcases Nat.le_total m.natAbs n.natAbs with hle | hle
    · exact (round_mono 0 (show (m + n).natAbs ≤ 2 * n.natAbs by omega)).trans_lt (round_twice_lt hr hn)
    · exact (round_mono 0 (show (m + n).natAbs ≤ 2 * m.natAbs by omega)).trans_lt (round_twice_lt hl hm)
  have hlow : F.meanOf (min m n + min m n) = min m n := by
    rcases min_choice m n with h | h
    · rw [h, meanOf_twice hl hm]
    · rw [h, meanOf_twice hr hn]
  have hhigh : F.meanOf (max m n + max m n) = max m n := by
    rcases max_choice m n with h | h
    · rw [h, meanOf_twice hl hm]
    · rw [h, meanOf_twice hr hn]
  refine ⟨F.meanOf (m + n), ?_, ?_, ?_⟩
  · rw [mean_finite he hl hr, if_pos hsum, decode_signed_finite (halved_lt hsum)]
    congr 1
    unfold sumSign meanOf
    split_ifs with hzero
    · -- the sign of a zero does not count
      rw [hzero]
      have h0 : F.scaled (F.halved 0) = 0 := by rw [halved, round_zero, scaled_zero, round_zero, scaled_zero]
      cases F.isNegative l && F.isNegative r <;> simp [withSign, h0]
    · rfl
  · exact hlow.symm.le.trans (meanOf_le (by omega))
  · exact (meanOf_le (by omega)).trans hhigh.le

/-- The mean of a number and itself. -/
theorem mean_self (he : 3 ≤ F.expBits) (hx : x < F.signUnit * 2) : F.mean nans x x =
    match F.decode x with
    | .nan => nans.pick F.half (nans.pick x x)
    | .infinite _ => x
    | .finite n => if 2 * n.natAbs < F.ceiling then x else F.signed (F.isNegative x) F.infinity := by
  cases hd : F.decode x with
  | nan =>
    have hadd : F.add nans x x = nans.pick x x := by rw [add, hd]
    rw [mean, hadd, mul_half he, nans.isNan]
  | infinite s =>
    have hself : F.signed s F.infinity = x := by
      rw [decode_eq] at hd
      split at hd
      · cases hd
      · split at hd
        · rename_i hmag
          cases hd
          conv_rhs => rw [← signed_self hx, hmag]
        · cases hd
    have hadd : F.add nans x x = F.signed s F.infinity := by
      rw [add, hd]
      exact if_pos rfl
    rw [mean, hadd, mul_half he, decode_signed_infinity, (signed_parts infinity_lt).1]
    exact hself
  | finite n =>
    obtain ⟨hfin, heq⟩ := decode_finite hd
    have habs : n.natAbs = F.scaled (x % F.signUnit) := by rw [heq, natAbs_withSign]
    have hsum : (n + n).natAbs = 2 * F.scaled (x % F.signUnit) := by omega
    have hsign : F.sumSign x x (n + n) = F.isNegative x := by
      unfold sumSign
      split_ifs with hzero
      · exact Bool.and_self _
      · rw [heq] at hzero ⊢
        cases hneg : F.isNegative x
        · refine decide_eq_false ?_
          simp only [withSign, Bool.false_eq_true, if_false]
          omega
        · rw [hneg] at hzero
          refine decide_eq_true ?_
          simp only [withSign, if_true] at hzero ⊢
          omega
    rw [mean_finite he hd hd, hsum, hsign]
    dsimp only
    rw [habs]
    split_ifs with hround htwice htwice
    · rw [(halved_twice htwice).2, signed_self hx]
    · exact absurd (halved_overflow (Nat.le_of_not_lt htwice)) hround.ne
    · exact absurd (halved_twice htwice).1 hround
    · rfl

end Mean
end Format
end Plughost.Ieee
