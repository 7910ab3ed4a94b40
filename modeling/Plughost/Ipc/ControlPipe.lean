import Mathlib.Data.List.Basic
import Mathlib.Data.BitVec
import Mathlib.Tactic.IntervalCases

/-! The frame layout of `ControlPipe`, and what `Send` and `TrySendNonBlocking` put
on the socket, given what the kernel answers. -/
namespace Plughost.Ipc.ControlPipe

abbrev Byte := BitVec 8

structure Frame where
  tag : Byte
  payload : List Byte
  deriving DecidableEq, Repr

abbrev kMaxPayloadBytes : Nat := 1024 * 1024

/-- The length field, low byte first. -/
def lengthBytes (length : BitVec 32) : List Byte :=
  [(length &&& 0xFF).setWidth 8, (length >>> 8 &&& 0xFF).setWidth 8,
   (length >>> 16 &&& 0xFF).setWidth 8, (length >>> 24 &&& 0xFF).setWidth 8]

/-- What `Recv` makes of `lenBuf`. -/
def lengthOf : List Byte → BitVec 32
  | [b0, b1, b2, b3] => b0.setWidth 32 ||| b1.setWidth 32 <<< 8 ||| b2.setWidth 32 <<< 16 ||| b3.setWidth 32 <<< 24
  | _ => 0

/-- The five bytes before the payload: `size + 1` and the tag. -/
def header (tag : Byte) (size : Nat) : List Byte := lengthBytes (BitVec.ofNat 32 (size + 1)) ++ [tag]

def Frame.bytes (f : Frame) : List Byte := header f.tag f.payload.length ++ f.payload

/-- What `::send` returns: it takes up to `n` bytes, is interrupted, or fails. -/
inductive Sent where
  | accepted (n : Nat)
  | eintr
  | error
  deriving DecidableEq, Repr

/-- One write loop of `Send`: the bytes the kernel took, and, unless the call is
still blocked in `::send` when the answers end, the flag and the answers left. -/
def sendAll (data : List Byte) : List Sent → List Byte × Option (Bool × List Sent)
  | [] => if data = [] then ([], some (true, [])) else ([], none)
  | k :: ks =>
    if data = [] then ([], some (true, k :: ks))
    else match k with
      | .eintr => sendAll data ks
      | .error => ([], some (false, ks))
      | .accepted n =>
        let (taken, r) := sendAll (data.drop n) ks
        (data.take n ++ taken, r)

/-- `ControlPipe::Send`: the bytes taken, and the result unless the call never returns. -/
def send (isOpen : Bool) (f : Frame) (ks : List Sent) : List Byte × Option Bool :=
  if !isOpen then ([], some false)
  else if kMaxPayloadBytes < f.payload.length then ([], some false)
  else match sendAll (header f.tag f.payload.length) ks with
    | (taken, some (true, ks')) =>
      let (taken', r) := sendAll f.payload ks'
      (taken ++ taken', r.map Prod.fst)
    | (taken, some (false, _)) => (taken, some false)
    | (taken, none) => (taken, none)

/-- The probe of `TrySendNonBlocking`, from what `ioctl` and `getsockopt` report. -/
def wouldBlock (inFlight sndBuf : Option Int) (total : Nat) : Bool :=
  match inFlight, sndBuf with
  | some inFlight, some sndBuf => sndBuf.tdiv 2 - total ≤ inFlight
  | _, _ => false

/-- `ControlPipe::TrySendNonBlocking`, with the answer of its one `::send`. -/
def trySendNonBlocking (isOpen : Bool) (f : Frame) (inFlight sndBuf : Option Int) (k : Sent) :
    List Byte × Bool :=
  if !isOpen then ([], false)
  else if kMaxPayloadBytes < f.payload.length then ([], false)
  else
    let total := 5 + f.payload.length
    if wouldBlock inFlight sndBuf total then ([], false)
    else match k with
      | .accepted n => (f.bytes.take n, min n total = total)
      | .eintr | .error => ([], false)

@[simp] theorem lengthOf_lengthBytes (length : BitVec 32) : lengthOf (lengthBytes length) = length := by
  apply BitVec.eq_of_getLsbD_eq
  intro i hi
  simp only [lengthOf, lengthBytes, BitVec.getLsbD_or, BitVec.getLsbD_setWidth, BitVec.getLsbD_shiftLeft,
    BitVec.getLsbD_and, BitVec.getLsbD_ushiftRight]
  interval_cases i <;> simp

@[simp] theorem length_lengthBytes (length : BitVec 32) : (lengthBytes length).length = 4 := rfl

@[simp] theorem length_header (tag : Byte) (size : Nat) : (header tag size).length = 5 := rfl

theorem length_bytes (f : Frame) : f.bytes.length = 5 + f.payload.length := by
  simp [Frame.bytes]

theorem bytes_ne_nil (f : Frame) : f.bytes ≠ [] := by
  intro h
  have := length_bytes f
  rw [h, List.length_nil] at this
  omega

/-- The kernel's next answers make `::send` take nothing before it fails or blocks. -/
def refuses : List Sent → Bool
  | .accepted 0 :: ks | .eintr :: ks => refuses ks
  | .accepted (_ + 1) :: _ => false
  | .error :: _ | [] => true

/-- The loop takes a prefix, all of it exactly when it reports success. -/
private theorem sendAll_taken (data : List Byte) (ks : List Sent) :
    (sendAll data ks).1 <+: data ∧
      ((∃ ks', (sendAll data ks).2 = some (true, ks')) ↔ (sendAll data ks).1 = data) := by
  induction ks generalizing data with
  | nil =>
    unfold sendAll
    split <;> simp_all
  | cons k ks ih =>
    unfold sendAll
    split
    · simp_all
    · rename_i hne
      cases k with
      | eintr => exact ih data
      | error => simp [Ne.symm hne]
      | accepted n =>
        obtain ⟨hpre, hdone⟩ := ih (data.drop n)
        have hall := (List.prefix_append_right_inj (data.take n)).mpr hpre
        have hsame := List.append_cancel_left_eq (data.take n) (sendAll (data.drop n) ks).1 (data.drop n)
        rw [List.take_append_drop] at hall hsame
        exact ⟨hall, by rw [hdone]; exact iff_of_eq hsame.symm⟩

/-- It takes nothing exactly when there is nothing to take or the kernel refuses. -/
private theorem sendAll_nil_iff (data : List Byte) (ks : List Sent) :
    (sendAll data ks).1 = [] ↔ data = [] ∨ refuses ks = true := by
  induction ks generalizing data with
  | nil =>
    unfold sendAll refuses
    split <;> simp_all
  | cons k ks ih =>
    unfold sendAll
    split
    · simp_all
    · rename_i hne
      cases k with
      | eintr => simpa [hne, refuses] using ih data
      | error => simp [refuses]
      | accepted n =>
        cases n with
        | zero => simpa [hne, refuses] using ih data
        | succ n => simp [hne, refuses]

/-- What is short of the header is short of the frame. -/
private theorem part_of_header {f : Frame} {taken : List Byte} (hpre : taken <+: header f.tag f.payload.length)
    (hne : taken ≠ header f.tag f.payload.length) : taken ≠ f.bytes := by
  intro heq
  have hle := hpre.length_le
  have hlen := length_bytes f
  rw [length_header] at hle
  rw [heq] at hle
  exact hne (hpre.eq_of_length (by rw [heq, length_header]; omega))

/-- `Send` puts a prefix of the frame on the socket, all of it exactly when it
returns true, and nothing exactly when it does not get to write or the kernel refuses. -/
theorem send_taken (isOpen : Bool) (f : Frame) (ks : List Sent) :
    (send isOpen f ks).1 <+: f.bytes ∧
      ((send isOpen f ks).2 = some true ↔ (send isOpen f ks).1 = f.bytes) ∧
      ((send isOpen f ks).1 = [] ↔
        isOpen = false ∨ kMaxPayloadBytes < f.payload.length ∨ refuses ks = true) := by
  have hne := bytes_ne_nil f
  have hheader : header f.tag f.payload.length ≠ [] := List.cons_ne_nil _ _
  obtain ⟨hpre, hdone⟩ := sendAll_taken (header f.tag f.payload.length) ks
  have hnil := sendAll_nil_iff (header f.tag f.payload.length) ks
  unfold send
  cases isOpen with
  | false => simp [hne.symm]
  | true =>
    by_cases hbig : kMaxPayloadBytes < f.payload.length
    · simp [hbig, hne.symm]
    · simp only [Bool.not_true, Bool.false_eq_true, if_false, hbig, false_or]
      rw [or_iff_right hheader] at hnil
      rcases hrun : sendAll (header f.tag f.payload.length) ks with ⟨taken, r⟩
      rw [hrun] at hpre hdone hnil
      rcases r with _ | ⟨_ | _, ks'⟩
      · have hpart := part_of_header hpre (by simpa using hdone)
        simpa [hpart] using ⟨hpre.trans (List.prefix_append _ _), hnil⟩
      · have hpart := part_of_header hpre (by simpa using hdone)
        simpa [hpart] using ⟨hpre.trans (List.prefix_append _ _), hnil⟩
      · obtain rfl : taken = header f.tag f.payload.length := by simpa using hdone
        obtain ⟨hpre', hdone'⟩ := sendAll_taken f.payload ks'
        have hmap : (sendAll f.payload ks').2.map Prod.fst = some true ↔
            ∃ ks'', (sendAll f.payload ks').2 = some (true, ks'') := by
          cases (sendAll f.payload ks').2 with
          | none => simp
          | some p => simp [Prod.ext_iff]
        refine ⟨(List.prefix_append_right_inj _).mpr hpre', ?_, ?_⟩
        · dsimp only
          rw [hmap, hdone', Frame.bytes, List.append_cancel_left_eq]
        · simpa [hheader] using hnil

theorem trySend_taken (isOpen : Bool) (f : Frame) (inFlight sndBuf : Option Int) (k : Sent) :
    let r := trySendNonBlocking isOpen f inFlight sndBuf k
    r.1 <+: f.bytes ∧ (r.2 = true ↔ r.1 = f.bytes) ∧
      (r.1 = [] ↔ isOpen = false ∨ kMaxPayloadBytes < f.payload.length ∨
        wouldBlock inFlight sndBuf (5 + f.payload.length) = true ∨ refuses [k] = true) := by
  have hne := bytes_ne_nil f
  have hlen := length_bytes f
  unfold trySendNonBlocking
  cases isOpen with
  | false => simp [hne.symm]
  | true =>
    by_cases hbig : kMaxPayloadBytes < f.payload.length
    · simp [hbig, hne.symm]
    · cases hw : wouldBlock inFlight sndBuf (5 + f.payload.length) with
      | true => simp [hbig, hw, hne.symm]
      | false =>
        cases k with
        | accepted n =>
          simp only [Bool.not_true, Bool.false_eq_true, Bool.true_eq_false, if_false, hbig, hw,
            decide_eq_true_eq, false_or]
          refine ⟨List.take_prefix n f.bytes, ?_, ?_⟩
          · rw [List.take_eq_self_iff, hlen]
            omega
          · rw [List.take_eq_nil_iff, or_iff_left hne]
            cases n <;> simp [refuses]
        | eintr => simp [hbig, hw, hne.symm, refuses]
        | error => simp [hbig, hw, hne.symm, refuses]

end Plughost.Ipc.ControlPipe
