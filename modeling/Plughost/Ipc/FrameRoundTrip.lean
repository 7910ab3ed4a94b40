import Plughost.Ipc.ControlReader

/-! A frame written by `Send` or `TrySendNonBlocking` and read back by `Recv`, which
takes the bytes of a stream apart whatever pieces they arrive in. -/
namespace Plughost.Ipc.ControlPipe
open Plughost.Runs

/-- `Recv` on a socket that delivers `stream` and neither times out nor closes: what
it returns and what it leaves unread, or `none` while it waits for more. -/
def recv (stream : List Byte) : Option (Option Frame × List Byte) :=
  if stream.length < 4 then none
  else
    let length := lengthOf (stream.take 4)
    if length = 0 ∨ BitVec.ofNat 32 kMaxPayloadBytes < length then some (none, stream.drop 4)
    else match stream.drop 4 with
      | [] => none
      | tag :: rest =>
        let payloadBytes := (length - 1).toNat
        if rest.length < payloadBytes then none
        else some (some ⟨tag, rest.take payloadBytes⟩, rest.drop payloadBytes)

/-- `n` calls of `Recv`, one after the other. -/
def recvs : Nat → List Byte → Option (List (Option Frame) × List Byte)
  | 0, stream => some ([], stream)
  | n + 1, stream => (recv stream).bind fun (result, rest) =>
      (recvs n rest).map fun (results, rest) => (result :: results, rest)

/-- The messages that up to `n` calls of `Recv` make of a stream. -/
def messagesOf : Nat → List Byte → List Frame
  | 0, _ => []
  | n + 1, stream => match recv stream with
    | some (result, rest) => result.toList ++ messagesOf n rest
    | none => []

/-- One of the two senders puts the whole frame on the socket and says so. -/
def Transmitted (f : Frame) : Prop :=
  (∃ isOpen ks, send isOpen f ks = (f.bytes, some true)) ∨
    ∃ isOpen inFlight sndBuf k, trySendNonBlocking isOpen f inFlight sndBuf k = (f.bytes, true)

/-- Neither a timeout nor a close. -/
def Event.arrives : Event → Bool
  | .chunk _ | .pollEintr | .recvEintr => true
  | _ => false

/-- Both senders refuse a frame by the size of its payload alone. -/
private theorem transmitted_iff {f : Frame} : Transmitted f ↔ f.payload.length ≤ kMaxPayloadBytes := by
  constructor
  · rintro (⟨isOpen, ks, hsend⟩ | ⟨isOpen, inFlight, sndBuf, k, hsend⟩)
    · by_contra hbig
      have hnil := (send_taken isOpen f ks).2.2.mpr (.inr (.inl (by omega)))
      rw [hsend] at hnil
      exact bytes_ne_nil f hnil
    · by_contra hbig
      have hnil := (trySend_taken isOpen f inFlight sndBuf k).2.2.mpr (.inr (.inl (by omega)))
      rw [hsend] at hnil
      exact bytes_ne_nil f hnil
  · intro hle
    refine .inr ⟨true, none, none, .accepted (5 + f.payload.length), ?_⟩
    have htake : f.bytes.take (5 + f.payload.length) = f.bytes := by
      rw [← length_bytes]
      exact List.take_length
    simp [trySendNonBlocking, wouldBlock, Nat.not_lt.mpr hle, htake]

theorem lengthBytes_lengthOf {lenBuf : List Byte} (h : lenBuf.length = 4) : lengthBytes (lengthOf lenBuf) = lenBuf := by
  match lenBuf, h with
  | [b0, b1, b2, b3], _ =>
    simp only [lengthBytes, lengthOf, List.cons.injEq, and_true]
    refine ⟨?_, ?_, ?_, ?_⟩ <;>
    · apply BitVec.eq_of_getLsbD_eq
      intro i hi
      simp only [BitVec.getLsbD_or, BitVec.getLsbD_setWidth, BitVec.getLsbD_shiftLeft, BitVec.getLsbD_and,
        BitVec.getLsbD_ushiftRight]
      interval_cases i <;> simp

/-- The lengths `Recv` gives up on. -/
def Rejected (length : BitVec 32) : Prop := length = 0 ∨ BitVec.ofNat 32 kMaxPayloadBytes < length

section Recv
variable {length : BitVec 32} {f : Frame}

private theorem recv_rejected (h : Rejected length) (rest : List Byte) :
    recv (lengthBytes length ++ rest) = some (none, rest) := by
  have hlen : ¬ (lengthBytes length ++ rest).length < 4 := by
    rw [List.length_append, length_lengthBytes]
    omega
  rw [recv, if_neg hlen, List.take_left' (length_lengthBytes _), List.drop_left' (length_lengthBytes _),
    lengthOf_lengthBytes]
  exact if_pos h

private theorem recv_accepted (h : ¬ Rejected length) (tag : Byte) {payload : List Byte}
    (hlen : payload.length = (length - 1).toNat) (tail : List Byte) :
    recv (lengthBytes length ++ tag :: (payload ++ tail)) = some (some ⟨tag, payload⟩, tail) := by
  have hfour : ¬ (lengthBytes length ++ tag :: (payload ++ tail)).length < 4 := by
    rw [List.length_append, length_lengthBytes]
    omega
  rw [recv, if_neg hfour, List.take_left' (length_lengthBytes _), List.drop_left' (length_lengthBytes _),
    lengthOf_lengthBytes]
  have hgood : ¬ (length = 0 ∨ BitVec.ofNat 32 kMaxPayloadBytes < length) := h
  have hroom : ¬ (payload ++ tail).length < payload.length := by
    rw [List.length_append]
    omega
  dsimp only
  rw [if_neg hgood, ← hlen, if_neg hroom, List.take_left, List.drop_left]

private theorem bytes_append (f : Frame) (tail : List Byte) :
    f.bytes ++ tail = lengthBytes f.field ++ f.tag :: (f.payload ++ tail) := by
  rw [Frame.bytes_eq, List.append_assoc, List.cons_append]

/-- A frame that `Recv` accepts comes back as it was, and nothing behind it is touched. -/
private theorem recv_bytes (h : f.WellFormed) (tail : List Byte) : recv (f.bytes ++ tail) = some (some f, tail) := by
  rw [bytes_append]
  exact recv_accepted h.accepted f.tag h.field_sub_one.symm tail

/-- A payload at the senders' limit makes a length past the reader's. -/
private theorem recv_oversized (h : f.payload.length = kMaxPayloadBytes) (tail : List Byte) :
    recv (f.bytes ++ tail) = some (none, f.tag :: (f.payload ++ tail)) := by
  have hfield : f.field = BitVec.ofNat 32 (kMaxPayloadBytes + 1) := by rw [Frame.field, h]
  rw [bytes_append, hfield]
  exact recv_rejected (.inr (by decide)) _

end Recv

private theorem recvs_bytes {fs : List Frame} (h : ∀ f ∈ fs, f.WellFormed) (tail : List Byte) :
    recvs fs.length (fs.flatMap Frame.bytes ++ tail) = some (fs.map some, tail) := by
  induction fs with
  | nil => rfl
  | cons f fs ih =>
    rw [List.forall_mem_cons] at h
    rw [List.length_cons, recvs, List.flatMap_cons, List.append_assoc, recv_bytes h.1, Option.bind_some]
    dsimp only
    rw [ih h.2]
    rfl

/-- With enough calls, all messages of a stream of frames are those frames. -/
theorem messagesOf_bytes {fs : List Frame} (h : ∀ f ∈ fs, f.WellFormed) {n : Nat} (hn : fs.length ≤ n) :
    messagesOf n (fs.flatMap Frame.bytes) = fs := by
  induction fs generalizing n with
  | nil => cases n <;> rfl
  | cons f fs ih =>
    rw [List.forall_mem_cons] at h
    rw [List.length_cons] at hn
    obtain ⟨n, rfl⟩ : ∃ m, n = m + 1 := ⟨n - 1, by omega⟩
    rw [List.flatMap_cons, messagesOf, recv_bytes h.1]
    dsimp only
    rw [ih h.2 (by omega)]
    rfl

theorem length_le_flatMap_bytes (fs : List Frame) : fs.length ≤ (fs.flatMap Frame.bytes).length := by
  induction fs with
  | nil => exact Nat.zero_le _
  | cons f fs ih =>
    rw [List.flatMap_cons, List.length_append, length_bytes, List.length_cons]
    omega

/-- Frames sent back to back come back as the same list exactly when `Recv` accepts each of them. -/
private theorem recvs_iff {fs : List Frame} (hsent : ∀ f ∈ fs, Transmitted f) (tail : List Byte) :
    recvs fs.length (fs.flatMap Frame.bytes ++ tail) = some (fs.map some, tail) ↔ ∀ f ∈ fs, f.WellFormed := by
  refine ⟨fun hrecvs => ?_, fun h => recvs_bytes h tail⟩
  induction fs with
  | nil => simp
  | cons f fs ih =>
    rw [List.forall_mem_cons] at hsent ⊢
    rw [List.length_cons, recvs, List.flatMap_cons, List.append_assoc] at hrecvs
    obtain ⟨⟨result, rest⟩, hrecv, hmap⟩ := Option.bind_eq_some_iff.mp hrecvs
    obtain ⟨⟨results, rest'⟩, hrest, heq⟩ := Option.map_eq_some_iff.mp hmap
    simp only [List.map_cons, Prod.mk.injEq, List.cons.injEq] at heq
    obtain ⟨⟨rfl, rfl⟩, rfl⟩ := heq
    have hf : f.WellFormed := by
      by_contra hbad
      have hle := transmitted_iff.mp hsent.1
      rw [Frame.WellFormed] at hbad
      rw [recv_oversized (by omega)] at hrecv
      cases hrecv
    rw [recv_bytes hf] at hrecv
    cases hrecv
    exact ⟨hf, ih hsent.2 hrest⟩

/-- One more call after `n`. -/
private theorem recvs_concat {n : Nat} {stream rest rest' : List Byte} {results : List (Option Frame)}
    {result : Option Frame}
    (h : recvs n stream = some (results, rest)) (hlast : recv rest = some (result, rest')) :
    recvs (n + 1) stream = some (results ++ [result], rest') := by
  induction n generalizing stream results with
  | zero =>
    cases h
    rw [recvs, hlast]
    rfl
  | succ n ih =>
    rw [recvs] at h ⊢
    obtain ⟨⟨first, mid⟩, hfirst, hmap⟩ := Option.bind_eq_some_iff.mp h
    obtain ⟨⟨others, rest''⟩, hothers, heq⟩ := Option.map_eq_some_iff.mp hmap
    cases heq
    rw [hfirst, Option.bind_some]
    dsimp only
    rw [ih hothers]
    rfl

/-- Where `Recv` stands inside a frame. -/
def RecvPc.Sound : RecvPc → Prop
  | .readLength lenBuf => lenBuf.length < 4
  | .readTag length => ¬ Rejected length
  | .readPayload length _ outPayload => ¬ Rejected length ∧ outPayload.length < (length - 1).toNat

namespace Reader
variable {stream : List Byte} {r t : Reader} {n : Nat}

/-- The calls that have returned are calls of `recv`; the one under way has the rest of the stream before it. -/
structure Reads (stream : List Byte) (r : Reader) : Prop where
  sound : r.pc.Sound
  calls : recvs r.results.length stream = some (r.results.map RecvResult.frame?, r.pc.part ++ r.unread)

theorem Reads.initial (stream : List Byte) : Reads stream (Reader.initial stream) := ⟨Nat.zero_lt_succ 3, rfl⟩

theorem Reads.retry (h : Reads stream r) {rest : List Byte}
    (hrecv : recv (r.pc.part ++ r.unread) = some (none, rest)) (pc : RecvPc) :
    Reads stream { r with unread := rest, pc }.retry := by
  refine ⟨Nat.zero_lt_succ 3, ?_⟩
  simp only [Reader.retry, List.length_append, List.length_singleton, List.map_append]
  exact recvs_concat h.calls hrecv

theorem Reads.deliver (h : Reads stream r) {rest : List Byte} {f : Frame}
    (hrecv : recv (r.pc.part ++ r.unread) = some (some f, rest)) :
    Reads stream ({ r with unread := rest }.deliver f) := by
  refine ⟨Nat.zero_lt_succ 3, ?_⟩
  simp only [Reader.deliver, List.length_append, List.length_singleton, List.map_append]
  exact recvs_concat h.calls hrecv

/-- Bytes move from the socket into the call under way. -/
theorem Reads.take (h : Reads stream r) {pc : RecvPc} (hsound : pc.Sound)
    (hpart : pc.part = r.pc.part ++ r.unread.take n) : Reads stream { r with unread := r.unread.drop n, pc } := by
  refine ⟨hsound, ?_⟩
  dsimp only
  rw [hpart, List.append_assoc, List.take_append_drop]
  exact h.calls

theorem Reads.received (h : Reads stream r) (hn : n ≤ r.pc.need) (hpos : 0 < n) (hne : r.unread ≠ []) :
    Reads stream ({ r with unread := r.unread.drop n }.received (r.unread.take n)) := by
  have hsplit : r.unread.take n ++ r.unread.drop n = r.unread := List.take_append_drop n r.unread
  have hlen := List.length_take_le n r.unread
  have hsound := h.sound
  simp only [Reader.received]
  cases hpc : r.pc with
  | readLength lenBuf =>
    rw [hpc] at hn hsound
    simp only [RecvPc.need, RecvPc.Sound] at hn hsound
    have htake : ∀ pc : RecvPc, pc.Sound → pc.part = lenBuf ++ r.unread.take n →
        Reads stream { r with unread := r.unread.drop n, pc } := fun pc hs hp => h.take hs (by rw [hpc]; exact hp)
    dsimp only
    split
    · exact htake _ ‹_› rfl
    · rename_i hfull
      have hfour : (lenBuf ++ r.unread.take n).length = 4 := by
        rw [List.length_append] at hfull ⊢
        omega
      have hback := lengthBytes_lengthOf hfour
      have hstream : lenBuf ++ r.unread = lenBuf ++ r.unread.take n ++ r.unread.drop n := by
        rw [List.append_assoc, hsplit]
      split
      · rename_i hbad
        apply h.retry
        rw [hpc, RecvPc.part, hstream, ← hback]
        exact recv_rejected hbad _
      · rename_i hgood
        exact htake (.readTag _) hgood hback
  | readTag length =>
    rw [hpc] at hn hsound
    simp only [RecvPc.need, RecvPc.Sound] at hn hsound
    obtain rfl : n = 1 := by omega
    obtain ⟨tag, rest, hunread⟩ := List.exists_cons_of_ne_nil hne
    rw [hunread]
    simp only [List.take_succ_cons, List.take_zero, List.drop_succ_cons, List.drop_zero]
    split
    · rename_i hzero
      apply h.deliver
      rw [hpc, RecvPc.part, hunread]
      have hnil : ([] : List Byte).length = (length - 1).toNat := by
        rw [hzero]
        rfl
      exact recv_accepted hsound tag hnil rest
    · rename_i hnonzero
      have hpos : 0 < (length - 1).toNat := Nat.pos_of_ne_zero fun hz => hnonzero (BitVec.eq_of_toNat_eq hz)
      have htagged : (RecvPc.readPayload length tag []).Sound := ⟨hsound, hpos⟩
      have hstep := h.take (n := 1) htagged
        (by rw [hpc, hunread]; rfl)
      rw [hunread] at hstep
      exact hstep
  | readPayload length tag outPayload =>
    rw [hpc] at hn hsound
    simp only [RecvPc.need, RecvPc.Sound] at hn hsound
    dsimp only
    split
    · exact h.take ⟨hsound.1, ‹_›⟩ (by simp [hpc, RecvPc.part])
    · rename_i hfull
      apply h.deliver
      have hlast : (outPayload ++ r.unread.take n).length = (length - 1).toNat := by
        rw [List.length_append] at hfull ⊢
        omega
      have hstream : outPayload ++ r.unread = outPayload ++ r.unread.take n ++ r.unread.drop n := by
        rw [List.append_assoc, hsplit]
      rw [hpc, RecvPc.part, List.append_assoc, List.cons_append, hstream]
      exact recv_accepted hsound.1 tag hlast _

theorem need_pos {pc : RecvPc} (h : pc.Sound) : 0 < pc.need := by
  cases pc with
  | readLength lenBuf =>
    simp only [RecvPc.Sound, RecvPc.need] at h ⊢
    omega
  | readTag length => exact Nat.zero_lt_one
  | readPayload length tag outPayload =>
    simp only [RecvPc.Sound, RecvPc.need] at h ⊢
    omega

theorem Reads.keep {e : Event} (h : Reads stream r) (harr : e.arrives = true) (hs : r.step e = some t) :
    Reads stream t := by
  unfold Reader.step at hs
  split at hs
  · cases hs
  cases e with
  | deadline | pollError | pollTimeout | recvError | hangup | eof => cases harr
  | pollEintr | recvEintr =>
    cases hs
    exact h
  | chunk k =>
    dsimp only at hs
    split at hs <;> cases hs
    have hpos := need_pos h.sound
    exact h.received (Nat.min_le_right ..) (by omega) ‹_›

/-- What has been taken of a frame under way is not yet a whole one. -/
theorem recv_part {pc : RecvPc} (h : pc.Sound) : recv pc.part = none := by
  cases pc with
  | readLength lenBuf => exact if_pos h
  | readTag length =>
    have hgood : ¬ (length = 0 ∨ BitVec.ofNat 32 kMaxPayloadBytes < length) := h
    rw [RecvPc.part, recv, if_neg (by rw [length_lengthBytes]; omega), List.take_of_length_le (by simp),
      lengthOf_lengthBytes]
    exact if_neg hgood
  | readPayload length tag outPayload =>
    have hgood : ¬ (length = 0 ∨ BitVec.ofNat 32 kMaxPayloadBytes < length) := h.1
    have hlen : ¬ (lengthBytes length ++ tag :: outPayload).length < 4 := by
      rw [List.length_append, length_lengthBytes]
      omega
    rw [RecvPc.part, recv, if_neg hlen, List.take_left' (length_lengthBytes _), List.drop_left' (length_lengthBytes _),
      lengthOf_lengthBytes]
    dsimp only
    rw [if_neg hgood]
    exact if_pos h.2

/-- In whatever pieces the bytes of a stream arrive, the reader's calls return what
`recv` does, and a call that can return has bytes to take. -/
private theorem calls_recv {es : List Event} (harr : ∀ e ∈ es, e.arrives = true)
    (he : exec step (Reader.initial stream) es = some r) :
    recvs r.results.length stream = some (r.results.map RecvResult.frame?, r.pc.part ++ r.unread) ∧
      (recv (r.pc.part ++ r.unread) ≠ none → r.unread ≠ []) := by
  have hmeets : Meets step (fun _ e => e.arrives = true) (Reader.initial stream) es := fun bs e _ hb _ =>
    harr e (hb.subset (List.mem_append_right _ (List.mem_singleton_self e)))
  have hreads : Reads stream r := invariant (Reads stream) (fun h ho hs => h.keep ho hs) (Reads.initial stream) hmeets he
  refine ⟨hreads.calls, fun hsome hnil => hsome ?_⟩
  rw [hnil, List.append_nil]
  exact recv_part hreads.sound

end Reader

/-- Frames that were transmitted come back as the same list, byte for byte, exactly
when each payload is at least one byte short of the senders' limit; and the
reader takes a stream apart in the same way in whatever pieces it arrives. -/
theorem round_trip_iff (fs : List Frame) (hsent : ∀ f ∈ fs, Transmitted f) :
    ((∀ tail, recvs fs.length (fs.flatMap Frame.bytes ++ tail) = some (fs.map some, tail)) ↔
      ∀ f ∈ fs, f.payload.length + 1 ≤ kMaxPayloadBytes) ∧
    ∀ stream es r, (∀ e ∈ es, e.arrives = true) → exec Reader.step (Reader.initial stream) es = some r →
      recvs r.results.length stream = some (r.results.map RecvResult.frame?, r.pc.part ++ r.unread) ∧
        (recv (r.pc.part ++ r.unread) ≠ none → r.unread ≠ []) := by
  refine ⟨?_, fun stream es r harr he => Reader.calls_recv harr he⟩
  constructor
  · exact fun h => (recvs_iff hsent []).mp (h [])
  · exact fun h tail => recvs_bytes h tail

/-- A `SlotSetBypass` and an empty `UnloadPlugin`. -/
theorem round_trip_iff_two_frames :
    recvs 2 ((Frame.bytes ⟨0x18, [0, 1]⟩) ++ Frame.bytes ⟨0x12, []⟩) =
      some ([some ⟨0x18, [0, 1]⟩, some ⟨0x12, []⟩], []) := by
  have hsent : ∀ f ∈ [(⟨0x18, [0, 1]⟩ : Frame), ⟨0x12, []⟩], Transmitted f := by
    simp [transmitted_iff, kMaxPayloadBytes]
  have hall := (round_trip_iff _ hsent).1.mpr (by decide) []
  simpa using hall

/-- A payload of exactly 1 MiB is transmitted, and `Recv` gives up on it. -/
theorem largest_payload_refused : ∃ f : Frame, f.payload.length = 1048576 ∧ Transmitted f ∧
    recvs 1 (f.bytes ++ []) ≠ some ([some f], []) := by
  let f : Frame := ⟨0x05, List.replicate 1048576 0⟩
  have hlen : f.payload.length = kMaxPayloadBytes := List.length_replicate
  refine ⟨f, hlen, transmitted_iff.mpr (by omega), fun h => ?_⟩
  rw [recvs, recv_oversized hlen] at h
  cases h

end Plughost.Ipc.ControlPipe
