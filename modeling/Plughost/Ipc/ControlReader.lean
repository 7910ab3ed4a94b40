import Plughost.Ipc.ControlPipe
import Plughost.Lib.Runs

/-! `ControlPipe::Recv` called over and over by the control-reader loop, one trip
round the loop of `RecvAll` a step. The kernel decides what each trip meets. -/
namespace Plughost.Ipc.ControlPipe
open Plughost.Runs

/-- What one trip round the loop of `RecvAll` meets: the deadline has passed,
`poll` fails, is interrupted, times out or reports a hang-up without data, or
`recv` returns 0, is interrupted, fails, or returns up to `k + 1` bytes. -/
inductive Event where
  | deadline | pollEintr | pollError | pollTimeout | hangup
  | eof | recvEintr | recvError
  | chunk (k : Nat)
  deriving DecidableEq, Repr

/-- The trips that make `RecvAll` return false with `outClosed` false. -/
def Event.timesOut : Event → Bool
  | .deadline | .pollTimeout | .pollError | .recvError => true
  | _ => false

/-- Which `RecvAll` of `Recv` is running, with what it and the earlier ones have read. -/
inductive RecvPc where
  | readLength (lenBuf : List Byte)
  | readTag (length : BitVec 32)
  | readPayload (length : BitVec 32) (tag : Byte) (outPayload : List Byte)
  deriving DecidableEq, Repr

inductive RecvResult where
  | message (f : Frame)
  | failed (outClosed : Bool)
  deriving DecidableEq, Repr

/-- The reader loop: the bytes still to be taken from the socket, where `Recv`
stands, what the calls of `Recv` have returned, and whether the loop still runs.
`lost` counts the bytes that went with the local buffers of calls that gave up. -/
structure Reader where
  unread : List Byte
  pc : RecvPc
  results : List RecvResult
  running : Bool
  lost : Nat

/-- `ControlMessageTag::Goodbye`. -/
abbrev goodbye : Byte := 0x04

namespace RecvPc

/-- The bytes of the current frame that `Recv` has taken so far. -/
def part : RecvPc → List Byte
  | .readLength lenBuf => lenBuf
  | .readTag length => lengthBytes length
  | .readPayload length tag outPayload => lengthBytes length ++ tag :: outPayload

/-- `n - got` of the running `RecvAll`. -/
def need : RecvPc → Nat
  | .readLength lenBuf => 4 - lenBuf.length
  | .readTag _ => 1
  | .readPayload length _ outPayload => (length - 1).toNat - outPayload.length

end RecvPc

def RecvResult.frame? : RecvResult → Option Frame
  | .message f => some f
  | .failed _ => none

namespace Reader

def initial (stream : List Byte) : Reader :=
  { unread := stream, pc := .readLength [], results := [], running := true, lost := 0 }

/-- The messages `Recv` has returned. -/
def messages (r : Reader) : List Frame := r.results.filterMap RecvResult.frame?

/-- `Recv` returns false without a close, its buffers are gone, and the loop retries. -/
def retry (r : Reader) : Reader :=
  { r with pc := .readLength [], results := r.results ++ [.failed false], lost := r.lost + r.pc.part.length }

/-- `Recv` returns a message; the loop ends at a `Goodbye`. -/
def deliver (r : Reader) (f : Frame) : Reader :=
  { r with pc := .readLength [], results := r.results ++ [.message f], running := f.tag ≠ goodbye }

/-- `recv` returned `bytes`; when the running `RecvAll` is done, `Recv` goes on. -/
def received (r : Reader) (bytes : List Byte) : Reader :=
  match r.pc with
  | .readLength lenBuf =>
    let lenBuf := lenBuf ++ bytes
    if lenBuf.length < 4 then { r with pc := .readLength lenBuf }
    else
      let length := lengthOf lenBuf
      if length = 0 ∨ BitVec.ofNat 32 kMaxPayloadBytes < length then { r with pc := .readLength lenBuf }.retry
      else { r with pc := .readTag length }
  | .readTag length =>
    match bytes with
    | tag :: _ => if length - 1 = 0 then r.deliver ⟨tag, []⟩ else { r with pc := .readPayload length tag [] }
    | [] => r
  | .readPayload length tag outPayload =>
    let outPayload := outPayload ++ bytes
    if outPayload.length < (length - 1).toNat then { r with pc := .readPayload length tag outPayload }
    else r.deliver ⟨tag, outPayload⟩

/-- One trip. With nothing left to take there is nothing for `recv` to return. -/
def step (r : Reader) (e : Event) : Option Reader :=
  if !r.running then none
  else match e with
    | .deadline | .pollTimeout | .pollError | .recvError => some r.retry
    | .pollEintr | .recvEintr => some r
    | .hangup | .eof => some { r with results := r.results ++ [.failed true], running := false }
    | .chunk k =>
      if r.unread = [] then none
      else
        let n := min (k + 1) r.pc.need
        some ({ r with unread := r.unread.drop n }.received (r.unread.take n))

/-- No call of `Recv` is made to give up once it has taken a byte. -/
def Prompt (r : Reader) (e : Event) : Prop := e.timesOut = true → r.pc.part = []

instance (r : Reader) (e : Event) : Decidable (Prompt r e) := inferInstanceAs (Decidable (_ → _))

end Reader

/-- The length field of a frame. -/
def Frame.field (f : Frame) : BitVec 32 := BitVec.ofNat 32 (f.payload.length + 1)

/-- A frame that `Recv` accepts. -/
def Frame.WellFormed (f : Frame) : Prop := f.payload.length + 1 ≤ kMaxPayloadBytes

instance (f : Frame) : Decidable f.WellFormed := inferInstanceAs (Decidable (_ ≤ _))

theorem Frame.bytes_eq (f : Frame) : f.bytes = lengthBytes f.field ++ f.tag :: f.payload := by
  simp [Frame.bytes, header, Frame.field]

theorem Frame.WellFormed.field_sub_one {f : Frame} (h : f.WellFormed) : (f.field - 1).toNat = f.payload.length := by
  have hle : f.payload.length + 1 ≤ 1024 * 1024 := h
  rw [Frame.field, BitVec.toNat_sub]
  simp only [BitVec.toNat_ofNat, BitVec.ofNat_eq_ofNat]
  omega

theorem Frame.WellFormed.accepted {f : Frame} (h : f.WellFormed) :
    ¬ (f.field = 0 ∨ BitVec.ofNat 32 kMaxPayloadBytes < f.field) := by
  have hle : f.payload.length + 1 ≤ 1024 * 1024 := h
  have hnat : f.field.toNat = f.payload.length + 1 := by
    simp only [Frame.field, BitVec.toNat_ofNat]
    omega
  rintro (hz | hlt)
  · rw [hz] at hnat
    simp at hnat
  · have hmax : (BitVec.ofNat 32 kMaxPayloadBytes).toNat = 1024 * 1024 := rfl
    rw [BitVec.lt_def, hnat, hmax] at hlt
    omega

/-- Where `Recv` stands agrees with the first frame still to come. -/
def RecvPc.Fits (todo : List Frame) : RecvPc → Prop
  | .readLength lenBuf => lenBuf.length < 4
  | .readTag length => ∃ f rest, todo = f :: rest ∧ length = f.field
  | .readPayload length tag outPayload => ∃ f rest, todo = f :: rest ∧ length = f.field ∧ tag = f.tag ∧
      outPayload.length < f.payload.length

namespace Reader
variable {fs : List Frame} {r t : Reader}

/-- The reader is in step with the frames: some are delivered, and what it has
taken of the next, with what is unread, is the rest. -/
def InSync (fs : List Frame) (r : Reader) : Prop :=
  ∃ todo, fs = r.messages ++ todo ∧ r.pc.part ++ r.unread = todo.flatMap Frame.bytes ∧ r.pc.Fits todo

@[simp] theorem messages_deliver (r : Reader) (f : Frame) : (r.deliver f).messages = r.messages ++ [f] := by
  simp [messages, deliver, RecvResult.frame?]

@[simp] theorem messages_closed (r : Reader) :
    messages { r with results := r.results ++ [.failed true], running := false } = r.messages := by
  simp [messages, RecvResult.frame?]

@[simp] theorem messages_retry (r : Reader) : r.retry.messages = r.messages := by
  simp [messages, retry, RecvResult.frame?]

section Received
variable {f : Frame} {rest : List Frame} {n : Nat}

/-- Bytes of the length field: the frame goes on, or its tag is next. -/
private theorem InSync.receivedLength {lenBuf : List Byte} (hfs : fs = r.messages ++ f :: rest) (hf : f.WellFormed)
    (hpc : r.pc = .readLength lenBuf) (hfits : lenBuf.length < 4) (hn : n ≤ 4 - lenBuf.length)
    (hbytes : lenBuf ++ r.unread = f.bytes ++ rest.flatMap Frame.bytes) :
    InSync fs ({ r with unread := r.unread.drop n }.received (r.unread.take n)) := by
  have hlen := List.length_take_le n r.unread
  have hle : (lenBuf ++ r.unread.take n).length ≤ 4 := by
    rw [List.length_append]
    omega
  rw [Frame.bytes_eq, ← List.take_append_drop n r.unread, ← List.append_assoc,
    List.append_assoc (lengthBytes _)] at hbytes
  simp only [Reader.received, hpc]
  split
  · refine ⟨f :: rest, hfs, ?_, ‹_›⟩
    rw [List.flatMap_cons, Frame.bytes_eq, List.append_assoc]
    exact hbytes
  · rename_i hfull
    obtain ⟨hbuf, hrest⟩ := List.append_inj hbytes (by rw [length_lengthBytes]; omega)
    rw [hbuf, lengthOf_lengthBytes, if_neg hf.accepted]
    refine ⟨f :: rest, hfs, ?_, f, rest, rfl, rfl⟩
    dsimp only [RecvPc.part]
    rw [hrest, List.flatMap_cons, Frame.bytes_eq, List.append_assoc]

/-- The tag: the frame is complete if it has no payload. -/
private theorem InSync.receivedTag (hfs : fs = r.messages ++ f :: rest) (hf : f.WellFormed)
    (hpc : r.pc = .readTag f.field)
    (hbytes : lengthBytes f.field ++ r.unread = f.bytes ++ rest.flatMap Frame.bytes) :
    InSync fs ({ r with unread := r.unread.drop 1 }.received (r.unread.take 1)) := by
  rw [Frame.bytes_eq, List.append_assoc, List.append_right_inj] at hbytes
  simp only [Reader.received, hpc]
  rw [hbytes]
  simp only [List.cons_append, List.take_succ_cons, List.take_zero, List.drop_succ_cons, List.drop_zero]
  split
  · rename_i hzero
    have hnil : f.payload = [] := by
      have hsub := hf.field_sub_one
      rw [hzero] at hsub
      exact List.eq_nil_of_length_eq_zero hsub.symm
    have hframe : (⟨f.tag, []⟩ : Frame) = f := by rw [← hnil]
    refine ⟨rest, ?_, by simp [deliver, RecvPc.part, hnil], by simp [RecvPc.Fits, deliver]⟩
    rw [messages_deliver, hframe, List.append_assoc]
    exact hfs
  · rename_i hnonzero
    refine ⟨f :: rest, hfs, ?_, f, rest, rfl, rfl, rfl, ?_⟩
    · rw [List.flatMap_cons, Frame.bytes_eq]
      simp [RecvPc.part]
    · have hsub := hf.field_sub_one
      rw [List.length_nil, ← hsub, Nat.pos_iff_ne_zero]
      exact fun hz => hnonzero (BitVec.eq_of_toNat_eq hz)

/-- Bytes of the payload: the frame goes on, or is complete. -/
private theorem InSync.receivedPayload {outPayload : List Byte} (hfs : fs = r.messages ++ f :: rest) (hf : f.WellFormed)
    (hpc : r.pc = .readPayload f.field f.tag outPayload) (hlt : outPayload.length < f.payload.length)
    (hn : n ≤ f.payload.length - outPayload.length)
    (hbytes : outPayload ++ r.unread = f.payload ++ rest.flatMap Frame.bytes) :
    InSync fs ({ r with unread := r.unread.drop n }.received (r.unread.take n)) := by
  have hlen := List.length_take_le n r.unread
  have hle : (outPayload ++ r.unread.take n).length ≤ f.payload.length := by
    rw [List.length_append]
    omega
  rw [← List.take_append_drop n r.unread, ← List.append_assoc] at hbytes
  simp only [Reader.received, hpc]
  rw [hf.field_sub_one]
  split
  · refine ⟨f :: rest, hfs, ?_, f, rest, rfl, rfl, rfl, ‹_›⟩
    rw [List.flatMap_cons, Frame.bytes_eq, RecvPc.part, List.append_assoc, List.append_assoc,
      List.cons_append, List.cons_append, hbytes]
  · rename_i hfull
    obtain ⟨hpayload, hrest⟩ := List.append_inj hbytes (by omega)
    refine ⟨rest, ?_, by simpa [deliver, RecvPc.part] using hrest, by simp [RecvPc.Fits, deliver]⟩
    rw [hpayload, messages_deliver, List.append_assoc]
    exact hfs

/-- Whatever `recv` returns, up to what was asked for, keeps the reader in step. -/
theorem InSync.received (h : InSync fs r) (hwf : ∀ f ∈ fs, f.WellFormed) (hpos : 0 < n)
    (hn : n ≤ r.pc.need) (hne : r.unread ≠ []) :
    InSync fs ({ r with unread := r.unread.drop n }.received (r.unread.take n)) := by
  obtain ⟨todo, hfs, hbytes, hfits⟩ := h
  obtain ⟨f, rest, rfl⟩ : ∃ f rest, todo = f :: rest := by
    cases todo with
    | nil => simp [hne] at hbytes
    | cons f rest => exact ⟨f, rest, rfl⟩
  have hf : f.WellFormed := hwf f (by rw [hfs]; simp)
  rw [List.flatMap_cons] at hbytes
  cases hpc : r.pc with
  | readLength lenBuf =>
    rw [hpc] at hbytes hfits hn
    rw [← hpc]
    exact InSync.receivedLength hfs hf hpc hfits hn hbytes
  | readTag length =>
    rw [hpc] at hbytes hfits hn
    obtain ⟨f', rest', heq, rfl⟩ := hfits
    obtain ⟨rfl, rfl⟩ := List.cons.inj heq
    obtain rfl : n = 1 := by
      simp only [RecvPc.need] at hn
      omega
    rw [← hpc]
    exact InSync.receivedTag hfs hf hpc hbytes
  | readPayload length tag outPayload =>
    rw [hpc] at hbytes hfits hn
    obtain ⟨f', rest', heq, rfl, rfl, hlt⟩ := hfits
    obtain ⟨rfl, rfl⟩ := List.cons.inj heq
    rw [RecvPc.need, hf.field_sub_one] at hn
    rw [RecvPc.part, Frame.bytes_eq, List.append_assoc, List.append_assoc, List.append_right_inj] at hbytes
    simp only [List.cons_append, List.cons.injEq, true_and] at hbytes
    rw [← hpc]
    exact InSync.receivedPayload hfs hf hpc hlt hn hbytes

end Received

theorem InSync.initial (fs : List Frame) : InSync fs (Reader.initial (fs.flatMap Frame.bytes)) :=
  ⟨fs, by simp [messages, Reader.initial], rfl, by simp [Reader.initial, RecvPc.Fits]⟩

/-- `RecvAll` is only ever running while it still asks for bytes. -/
theorem InSync.need_pos (h : InSync fs r) (hwf : ∀ f ∈ fs, f.WellFormed) : 0 < r.pc.need := by
  obtain ⟨todo, hfs, -, hfits⟩ := h
  cases hpc : r.pc with
  | readLength lenBuf =>
    rw [hpc] at hfits
    simp only [RecvPc.Fits, RecvPc.need] at hfits ⊢
    omega
  | readTag length => simp [RecvPc.need]
  | readPayload length tag outPayload =>
    rw [hpc] at hfits
    obtain ⟨f, rest, rfl, rfl, -, hlt⟩ := hfits
    rw [RecvPc.need, (hwf f (by rw [hfs]; simp)).field_sub_one]
    omega

theorem InSync.keep (hwf : ∀ f ∈ fs, f.WellFormed) {e : Event} (h : InSync fs r) (hok : Prompt r e)
    (hs : r.step e = some t) : InSync fs t := by
  have hgiveUp : e.timesOut = true → InSync fs r.retry := by
    intro he
    have hpart := hok he
    obtain ⟨todo, hfs, hbytes, -⟩ := h
    rw [hpart] at hbytes
    exact ⟨todo, by rw [messages_retry]; exact hfs, hbytes, by simp [retry, RecvPc.Fits]⟩
  unfold Reader.step at hs
  split at hs
  · cases hs
  cases e with
  | deadline | pollError | pollTimeout | recvError =>
    cases hs
    exact hgiveUp rfl
  | pollEintr | recvEintr =>
    cases hs
    exact h
  | hangup | eof =>
    cases hs
    obtain ⟨todo, hfs, hbytes, hfits⟩ := h
    exact ⟨todo, by rw [messages_closed]; exact hfs, hbytes, hfits⟩
  | chunk k =>
    dsimp only at hs
    split at hs <;> cases hs
    have hpos := h.need_pos hwf
    exact h.received hwf (by omega) (Nat.min_le_right ..) ‹_›

/-- Where every byte of the stream has gone. -/
structure Accounts (total : Nat) (r : Reader) : Prop where
  sum : (r.messages.flatMap Frame.bytes).length + r.lost + r.pc.part.length + r.unread.length = total
  short : ∀ lenBuf, r.pc = .readLength lenBuf → lenBuf.length ≤ 4

@[simp] theorem retry_part (r : Reader) : r.retry.pc.part = [] := rfl
@[simp] theorem retry_lost (r : Reader) : r.retry.lost = r.lost + r.pc.part.length := rfl
@[simp] theorem retry_unread (r : Reader) : r.retry.unread = r.unread := rfl
@[simp] theorem deliver_part (r : Reader) (f : Frame) : (r.deliver f).pc.part = [] := rfl
@[simp] theorem deliver_lost (r : Reader) (f : Frame) : (r.deliver f).lost = r.lost := rfl
@[simp] theorem deliver_unread (r : Reader) (f : Frame) : (r.deliver f).unread = r.unread := rfl

theorem Accounts.retry {total : Nat} (h : Accounts total r) : Accounts total r.retry := by
  refine ⟨?_, fun lenBuf heq => by cases heq; decide⟩
  have hsum := h.sum
  rw [messages_retry, retry_lost, retry_part, retry_unread, List.length_nil]
  omega

/-- A delivered frame accounts for what was taken of it. -/
theorem Accounts.deliver {total : Nat} (h : Accounts total r) {f : Frame}
    (hf : f.bytes.length = r.pc.part.length) : Accounts total (r.deliver f) := by
  refine ⟨?_, fun lenBuf heq => by cases heq; decide⟩
  have hsum := h.sum
  rw [messages_deliver, List.flatMap_append, List.length_append, List.flatMap_singleton, deliver_lost, deliver_part,
    deliver_unread, List.length_nil]
  omega

/-- Taking bytes moves them from the stream to the frame at hand. -/
theorem Accounts.take {total : Nat} (h : Accounts total r) (n : Nat) (pc : RecvPc)
    (hpart : pc.part.length = r.pc.part.length + (r.unread.take n).length)
    (hshort : ∀ lenBuf, pc = .readLength lenBuf → lenBuf.length ≤ 4) :
    Accounts total { r with unread := r.unread.drop n, pc } := by
  refine ⟨?_, hshort⟩
  have hsum := h.sum
  have hsplit : (r.unread.take n).length + (r.unread.drop n).length = r.unread.length := by
    rw [← List.length_append, List.take_append_drop]
  change (r.messages.flatMap Frame.bytes).length + r.lost + pc.part.length + (r.unread.drop n).length = total
  omega

theorem Accounts.received {total n : Nat} (h : Accounts total r) (hn : n ≤ r.pc.need) :
    Accounts total ({ r with unread := r.unread.drop n }.received (r.unread.take n)) := by
  have hlen := List.length_take_le n r.unread
  unfold Reader.received
  cases hpc : r.pc with
  | readLength lenBuf =>
    have hle := h.short lenBuf hpc
    rw [hpc, RecvPc.need] at hn
    have hall := h.take n (.readLength (lenBuf ++ r.unread.take n)) (by simp [hpc, RecvPc.part])
      fun lenBuf' heq => by cases heq; rw [List.length_append]; omega
    dsimp only
    split
    · exact hall
    · rename_i hfull
      have hfour : (lenBuf ++ r.unread.take n).length = 4 := by
        rw [List.length_append] at hfull ⊢
        omega
      split
      · exact hall.retry
      · refine h.take n _ ?_ nofun
        rw [hpc, RecvPc.part, RecvPc.part, ← List.length_append, hfour, length_lengthBytes]
  | readTag length =>
    rw [hpc, RecvPc.need] at hn
    dsimp only
    split
    · rename_i tag rest hbytes
      have hone : (r.unread.take n).length = 1 := by
        rw [hbytes, List.length_cons] at hlen ⊢
        omega
      have hall := h.take n (.readPayload length tag []) (by simp [hpc, RecvPc.part, hone]) nofun
      split
      · exact hall.deliver (by simp [RecvPc.part, length_bytes])
      · exact hall
    · rename_i hnone
      have hall := h.take n r.pc (by simp [hnone]) h.short
      rw [hpc] at hall
      exact hall
  | readPayload length tag outPayload =>
    have hall := h.take n (.readPayload length tag (outPayload ++ r.unread.take n))
      (by simp [hpc, RecvPc.part]; omega) nofun
    dsimp only
    split
    · exact hall
    · exact hall.deliver (by simp [RecvPc.part, length_bytes]; omega)

theorem Accounts.keep {total : Nat} {e : Event} (h : Accounts total r) (hs : r.step e = some t) :
    Accounts total t := by
  unfold Reader.step at hs
  split at hs
  · cases hs
  cases e with
  | deadline | pollError | pollTimeout | recvError =>
    cases hs
    exact h.retry
  | pollEintr | recvEintr =>
    cases hs
    exact h
  | hangup | eof =>
    cases hs
    exact ⟨by rw [messages_closed]; exact h.sum, h.short⟩
  | chunk k =>
    dsimp only at hs
    split at hs <;> cases hs
    exact h.received (Nat.min_le_right ..)

private theorem received_lost (r : Reader) (bytes : List Byte) : r.lost ≤ (r.received bytes).lost := by
  unfold Reader.received
  split
  · dsimp only
    split
    · exact le_rfl
    · split
      · exact Nat.le_add_right ..
      · exact le_rfl
  · split
    · split <;> exact le_rfl
    · exact le_rfl
  · dsimp only
    split <;> exact le_rfl

/-- Bytes once lost stay lost. -/
private theorem step_lost_mono {e : Event} (hs : r.step e = some t) : r.lost ≤ t.lost := by
  unfold Reader.step at hs
  split at hs
  · cases hs
  cases e with
  | deadline | pollError | pollTimeout | recvError =>
    cases hs
    exact Nat.le_add_right ..
  | pollEintr | recvEintr | hangup | eof =>
    cases hs
    exact le_rfl
  | chunk k =>
    dsimp only at hs
    split at hs <;> cases hs
    exact received_lost { r with unread := r.unread.drop (min (k + 1) r.pc.need) } _

private theorem prompt_of_nothing_lost {e : Event} (hs : r.step e = some t) (ht : t.lost = 0) : Prompt r e := by
  intro he
  unfold Reader.step at hs
  split at hs
  · cases hs
  cases e with
  | deadline | pollError | pollTimeout | recvError =>
    cases hs
    rw [retry_lost] at ht
    exact List.eq_nil_of_length_eq_zero (by omega)
  | pollEintr | recvEintr | hangup | eof | chunk k => cases he

/-- If nothing is lost by the end of a run, no call gave up midway. -/
private theorem meets_of_nothing_lost {es : List Event} (he : exec step r es = some t) (ht : t.lost = 0) :
    Meets step Prompt r es := by
  induction es using List.reverseRecOn generalizing t with
  | nil =>
    intro bs b u hb
    simp at hb
  | append_singleton es e ih =>
    obtain ⟨u, hu, hs⟩ := exec_concat_some he
    have hmono := step_lost_mono hs
    refine (ih hu (by omega)).concat fun v hv => ?_
    obtain rfl : u = v := by rw [hu] at hv; exact Option.some.inj hv
    exact prompt_of_nothing_lost hs ht

/-- What has been taken of a frame still to come is short of it. -/
theorem part_lt {pc : RecvPc} {f : Frame} {rest : List Frame} (h : pc.Fits (f :: rest)) :
    pc.part.length < f.bytes.length := by
  rw [length_bytes]
  cases pc with
  | readLength lenBuf =>
    simp only [RecvPc.Fits, RecvPc.part] at h ⊢
    omega
  | readTag length =>
    rw [RecvPc.part, length_lengthBytes]
    omega
  | readPayload length tag outPayload =>
    obtain ⟨f', rest', heq, -, -, hlt⟩ := h
    obtain ⟨rfl, rfl⟩ := List.cons.inj heq
    simp only [RecvPc.part, List.length_append, length_lengthBytes, List.length_cons]
    omega

/-- While the reader is in step, a stream taken whole has been delivered whole. -/
theorem InSync.complete (h : InSync fs r) (hunread : r.unread = []) : r.messages = fs := by
  obtain ⟨todo, hfs, hbytes, hfits⟩ := h
  cases todo with
  | nil => rw [hfs, List.append_nil]
  | cons f rest =>
    have hlt := part_lt hfits
    have hlen := congrArg List.length hbytes
    simp only [hunread, List.append_nil, List.flatMap_cons, List.length_append] at hlen
    omega

/-- If no call of `Recv` gives up once it has taken a byte, the messages are the
frames sent, as far as the stream has been taken. And for a stream taken to its
end they are the frames sent only then. -/
theorem messages_iff_prompt (fs : List Frame) (hwf : ∀ f ∈ fs, f.WellFormed) (es : List Event) (t : Reader)
    (he : exec step (Reader.initial (fs.flatMap Frame.bytes)) es = some t) :
    (Meets step Prompt (Reader.initial (fs.flatMap Frame.bytes)) es →
      t.messages <+: fs ∧ (t.unread = [] → t.messages = fs)) ∧
    (t.unread = [] →
      (t.messages = fs ↔ Meets step Prompt (Reader.initial (fs.flatMap Frame.bytes)) es)) := by
  have hsync : Meets step Prompt (Reader.initial (fs.flatMap Frame.bytes)) es → InSync fs t := fun hok =>
    invariant (InSync fs) (fun hi hok hs => InSync.keep hwf hi hok hs) (InSync.initial fs) hok he
  refine ⟨fun hok => ⟨?_, (hsync hok).complete⟩, fun hunread => ⟨fun hmsgs => ?_, fun hok =>
    (hsync hok).complete hunread⟩⟩
  · obtain ⟨todo, hfs, -⟩ := hsync hok
    exact ⟨todo, hfs.symm⟩
  · have h0 : Accounts (fs.flatMap Frame.bytes).length (Reader.initial (fs.flatMap Frame.bytes)) :=
      ⟨by simp [messages, Reader.initial, RecvPc.part], fun lenBuf heq => by cases heq; decide⟩
    have hsum := (invariant_of_step (Accounts _) (fun hi hs => Accounts.keep hi hs) h0 he).sum
    rw [hmsgs, hunread, List.length_nil] at hsum
    exact meets_of_nothing_lost he (by omega)

/-- The reader gives up after two bytes of a `SlotSetBypass`: neither it nor the
`SlotUnloadPlugin` behind it is ever returned. -/
theorem timeout_midframe :
    let fs : List Frame := [⟨0x18, [0, 1]⟩, ⟨0x16, [0]⟩]
    ∃ es t, (∀ f ∈ fs, f.WellFormed) ∧ exec step (Reader.initial (fs.flatMap Frame.bytes)) es = some t ∧
      t.unread = [] ∧ t.messages = [] ∧ t.messages ≠ fs := by
  intro fs
  let es : List Event := [.chunk 1, .pollTimeout, .chunk 3, .chunk 3, .chunk 0, .chunk 7]
  obtain ⟨t, ht, hview⟩ := Option.map_eq_some_iff.mp
    (show (exec step (Reader.initial (fs.flatMap Frame.bytes)) es).map (fun t => (t.unread, t.messages)) =
      some ([], []) by decide)
  obtain ⟨hunread, hmsgs⟩ := Prod.mk.inj hview
  exact ⟨es, t, by decide, ht, hunread, hmsgs, by rw [hmsgs]; decide⟩

/-- The same frames cut differently, with a timeout between them. -/
theorem messages_iff_prompt_between_frames :
    let fs : List Frame := [⟨0x18, [0, 1]⟩, ⟨0x16, [0]⟩]
    ∃ es t, exec step (Reader.initial (fs.flatMap Frame.bytes)) es = some t ∧ .pollTimeout ∈ es ∧ t.messages = fs := by
  intro fs
  let es : List Event := [.chunk 1, .pollEintr, .chunk 9, .chunk 0, .chunk 9, .pollTimeout, .deadline,
    .chunk 3, .chunk 0, .chunk 0]
  obtain ⟨t, ht, hview⟩ := Option.map_eq_some_iff.mp
    (show (exec step (Reader.initial (fs.flatMap Frame.bytes)) es).map (·.unread) = some [] by decide)
  have hall := messages_iff_prompt fs (by decide) es t ht
  exact ⟨es, t, ht, by decide, (hall.1 (meets_of_checks (by decide))).2 hview⟩

end Reader
end Plughost.Ipc.ControlPipe
