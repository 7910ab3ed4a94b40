import Plughost.Ipc.ControlPipe

/-! The little-endian appenders and readers that `main` builds and parses payloads
with. A double is its 64 bits. -/
namespace Plughost.Main
open Plughost.Ipc.ControlPipe

def appendU32Le (body : List Byte) (v : BitVec 32) : List Byte := body ++ lengthBytes v

/-- Byte `i` of the double, low byte first. -/
def f64Byte (bits : BitVec 64) (i : Nat) : Byte := (bits >>> (i * 8) &&& 0xFF).setWidth 8

def appendF64Le (body : List Byte) (bits : BitVec 64) : List Byte := body ++ (List.range 8).map (f64Byte bits)

/-- The size goes on the wire as a `uint32_t`. -/
def appendString (body : List Byte) (s : List Byte) : List Byte :=
  appendU32Le body (BitVec.ofNat 32 s.length) ++ s

/-- `none` when one of the four bytes lies outside `p`. -/
def readU32Le (p : List Byte) (off : Nat) : Option (BitVec 32) :=
  match p[off]?, p[off + 1]?, p[off + 2]?, p[off + 3]? with
  | some b0, some b1, some b2, some b3 => some (lengthOf [b0, b1, b2, b3])
  | _, _, _, _ => none

/-- The loop of `readF64Le`, from byte `i` on. -/
def readF64From (p : List Byte) (off : Nat) : List Nat → BitVec 64 → Option (BitVec 64)
  | [], bits => some bits
  | i :: is, bits => match p[off + i]? with
    | some b => readF64From p off is (bits ||| b.setWidth 64 <<< (i * 8))
    | none => none

def readF64Le (p : List Byte) (off : Nat) : Option (BitVec 64) := readF64From p off (List.range 8) 0

@[simp] theorem length_appendU32Le (body : List Byte) (v : BitVec 32) :
    (appendU32Le body v).length = body.length + 4 := by
  simp [appendU32Le]

@[simp] theorem length_appendF64Le (body : List Byte) (bits : BitVec 64) :
    (appendF64Le body bits).length = body.length + 8 := by
  simp [appendF64Le]

@[simp] theorem length_appendString (body s : List Byte) :
    (appendString body s).length = body.length + 4 + s.length := by
  simp [appendString]

/-- Four bytes inside `p` read as their little-endian value. -/
private theorem readU32Le_append (front : List Byte) (b0 b1 b2 b3 : Byte) (back : List Byte) :
    readU32Le (front ++ b0 :: b1 :: b2 :: b3 :: back) front.length = some (lengthOf [b0, b1, b2, b3]) := by
  simp [readU32Le]

/-- What `appendU32Le` writes, `readU32Le` reads. -/
theorem readU32Le_appendU32Le (front : List Byte) (v : BitVec 32) (back : List Byte) :
    readU32Le (appendU32Le front v ++ back) front.length = some v := by
  have hbytes : appendU32Le front v ++ back = front ++ (lengthBytes v ++ back) := by
    rw [appendU32Le, List.append_assoc]
  rw [hbytes, lengthBytes]
  refine (readU32Le_append front _ _ _ _ back).trans ?_
  exact congrArg some (lengthOf_lengthBytes v)

private theorem getElem?_appendF64Le (front : List Byte) (bits : BitVec 64) (back : List Byte) {i : Nat} (hi : i < 8) :
    (appendF64Le front bits ++ back)[front.length + i]? = some (f64Byte bits i) := by
  rw [appendF64Le, List.append_assoc, List.getElem?_append_right (Nat.le_add_right _ _), Nat.add_sub_cancel_left,
    List.getElem?_append_left (by simpa using hi), List.getElem?_map, List.getElem?_range hi]
  rfl

/-- The loop only looks at the bytes it names. -/
private theorem readF64From_eq {p : List Byte} {off : Nat} {g : Nat → Byte} {is : List Nat} (bits : BitVec 64)
    (h : ∀ i ∈ is, p[off + i]? = some (g i)) :
    readF64From p off is bits = some (is.foldl (fun bits i => bits ||| (g i).setWidth 64 <<< (i * 8)) bits) := by
  induction is generalizing bits with
  | nil => rfl
  | cons i is ih =>
    rw [List.forall_mem_cons] at h
    rw [readF64From, h.1]
    exact ih _ h.2

private theorem getLsbD_f64Byte (bits : BitVec 64) (i : Nat) {m : Nat} (hm : m < 8) :
    (f64Byte bits i).getLsbD m = bits.getLsbD (i * 8 + m) := by
  have hmask : (0xFF : BitVec 64).getLsbD m = true := by
    have h : ∀ m < 8, (0xFF : BitVec 64).getLsbD m = true := by decide
    exact h m hm
  rw [f64Byte, BitVec.getLsbD_setWidth, BitVec.getLsbD_and, BitVec.getLsbD_ushiftRight, hmask]
  simp [hm]

/-- Each byte of the loop lands on its own eight bits. -/
private theorem getLsbD_foldl_bytes (g : Nat → Byte) (is : List Nat) (bits : BitVec 64) {k : Nat} (hk : k < 64) :
    (is.foldl (fun bits i => bits ||| (g i).setWidth 64 <<< (i * 8)) bits).getLsbD k =
      (bits.getLsbD k || is.any fun i => decide (i * 8 ≤ k) && (g i).getLsbD (k - i * 8)) := by
  induction is generalizing bits with
  | nil => simp
  | cons i is ih =>
    have hbyte : ((g i).setWidth 64 <<< (i * 8)).getLsbD k = (decide (i * 8 ≤ k) && (g i).getLsbD (k - i * 8)) := by
      rw [BitVec.getLsbD_shiftLeft, BitVec.getLsbD_setWidth]
      by_cases hle : i * 8 ≤ k
      · simp [hk, hle, Nat.lt_of_le_of_lt (Nat.sub_le k (i * 8)) hk]
      · simp [hle, not_le.mp hle]
    rw [List.foldl_cons, ih, BitVec.getLsbD_or, hbyte, List.any_cons, Bool.or_assoc]

/-- What `readF64Le` makes of eight bytes. -/
def f64OfBytes (g : Nat → Byte) : BitVec 64 :=
  (List.range 8).foldl (fun bits i => bits ||| (g i).setWidth 64 <<< (i * 8)) 0

private theorem getLsbD_f64OfBytes (g : Nat → Byte) {j m : Nat} (hj : j < 8) (hm : m < 8) :
    (f64OfBytes g).getLsbD (j * 8 + m) = (g j).getLsbD m := by
  rw [f64OfBytes, getLsbD_foldl_bytes g _ _ (by omega), Bool.eq_iff_iff]
  simp only [BitVec.ofNat_eq_ofNat, BitVec.getLsbD_zero, Bool.false_or, List.any_eq_true, List.mem_range,
    Bool.and_eq_true, decide_eq_true_eq]
  constructor
  · rintro ⟨i, -, hle, hbit⟩
    -- a byte has no bits from its eighth on
    have hlt : j * 8 + m - i * 8 < 8 := BitVec.lt_of_getLsbD hbit
    obtain rfl : i = j := by omega
    rwa [Nat.add_sub_cancel_left] at hbit
  · intro hbit
    exact ⟨j, hj, by omega, by rwa [Nat.add_sub_cancel_left]⟩

private theorem f64Byte_f64OfBytes (g : Nat → Byte) {j : Nat} (hj : j < 8) : f64Byte (f64OfBytes g) j = g j := by
  apply BitVec.eq_of_getLsbD_eq
  intro m hm
  rw [getLsbD_f64Byte _ j hm, getLsbD_f64OfBytes g hj hm]

private theorem f64OfBytes_f64Byte (bits : BitVec 64) : f64OfBytes (f64Byte bits) = bits := by
  apply BitVec.eq_of_getLsbD_eq
  intro k hk
  obtain ⟨j, m, hj, hm, rfl⟩ : ∃ j m, j < 8 ∧ m < 8 ∧ k = j * 8 + m :=
    ⟨k / 8, k % 8, by omega, by omega, by omega⟩
  rw [getLsbD_f64OfBytes _ hj hm, getLsbD_f64Byte bits j hm]

/-- What `appendF64Le` writes, `readF64Le` reads. -/
theorem readF64Le_appendF64Le (front : List Byte) (bits : BitVec 64) (back : List Byte) :
    readF64Le (appendF64Le front bits ++ back) front.length = some bits := by
  have hbytes : ∀ i ∈ List.range 8, (appendF64Le front bits ++ back)[front.length + i]? = some (f64Byte bits i) :=
    fun i hi => getElem?_appendF64Le front bits back (List.mem_range.mp hi)
  rw [readF64Le, readF64From_eq 0 hbytes]
  exact congrArg some (f64OfBytes_f64Byte bits)

/-- Any eight bytes are those of one double. -/
theorem exists_f64Bytes {bytes : List Byte} (h : bytes.length = 8) :
    ∃ bits, bytes = (List.range 8).map (f64Byte bits) := by
  refine ⟨f64OfBytes fun i => bytes.getD i 0, ?_⟩
  apply List.ext_getElem
  · simpa using h
  · intro i hi hi'
    rw [List.getElem_map, List.getElem_range, f64Byte_f64OfBytes _ (h ▸ hi), List.getD_eq_getElem?_getD,
      List.getElem?_eq_getElem hi, Option.getD_some]

end Plughost.Main
