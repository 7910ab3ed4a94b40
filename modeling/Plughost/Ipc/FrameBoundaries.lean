import Plughost.Ipc.Chunking

/-! Where in the stream the calls of the control-reader loop begin, against the
positions that parsing it from its beginning as length-prefixed frames reaches. -/
namespace Plughost.Ipc.ControlPipe
open Plughost.Runs

/-- The length field at a position. -/
def lengthAt (stream : List Byte) (pos : Nat) : BitVec 32 := lengthOf ((stream.drop pos).take 4)

/-- Behind the frame that the length field at `pos` announces. -/
def extentEnd (stream : List Byte) (pos : Nat) : Nat := pos + 4 + (lengthAt stream pos).toNat

/-- The positions that parsing from the beginning reaches. -/
inductive Boundary (stream : List Byte) : Nat → Prop
  | zero : Boundary stream 0
  | next {pos : Nat} (h : Boundary stream pos) (hlen : pos + 4 ≤ stream.length) : Boundary stream (extentEnd stream pos)

/-- What a call of `Recv` that began at `start` came to: a message, or a length it gave up on. -/
inductive Mark where
  | message (start : Nat)
  | rejected (start : Nat)
  deriving DecidableEq, Repr

/-- The reader loop with a record, for the statements only, of where its calls began. -/
structure Tracked where
  reader : Reader
  marks : List Mark

def Mark.of (start : Nat) (e : Event) : RecvResult → Option Mark
  | .message _ => some (.message start)
  | .failed _ => match e with
    | .chunk _ => some (.rejected start)
    | _ => none

/-- Where the call under way, or the next one, begins. -/
def Reader.start (stream : List Byte) (r : Reader) : Nat := stream.length - (r.pc.part ++ r.unread).length

namespace Tracked

def initial (stream : List Byte) : Tracked := { reader := Reader.initial stream, marks := [] }

def step (stream : List Byte) (tr : Tracked) (e : Event) : Option Tracked :=
  (tr.reader.step e).map fun t =>
    { reader := t
      marks := tr.marks ++ (t.results.drop tr.reader.results.length).filterMap (Mark.of (tr.reader.start stream) e) }

end Tracked

/-- Every message begins where parsing from the beginning gets to, and none that
comes after a rejected length begins within the frame that length announces. -/
def NoSmuggling (stream : List Byte) (marks : List Mark) : Prop :=
  (∀ s, .message s ∈ marks → Boundary stream s) ∧
    marks.Pairwise fun a b => ∀ p s, a = .rejected p → b = .message s → extentEnd stream p ≤ s

/-- The trip makes `Recv` give up neither within a frame nor on a length above its limit. -/
def Regular (r : Reader) (e : Event) : Prop :=
  r.Prompt e ∧ match e, r.pc with
    | .chunk k, .readLength lenBuf =>
      4 ≤ lenBuf.length + min (k + 1) r.unread.length →
        lengthOf ((lenBuf ++ r.unread).take 4) ≤ BitVec.ofNat 32 kMaxPayloadBytes
    | _, _ => True

instance (r : Reader) (e : Event) : Decidable (Regular r e) := by
  unfold Regular
  refine @instDecidableAnd _ _ inferInstance ?_
  split <;> infer_instance

namespace Boundary
variable {stream : List Byte} {a b : Nat}

/-- Between a boundary and the end of its frame there is no other. -/
private theorem extentEnd_le (ha : Boundary stream a) (hb : Boundary stream b) (hlt : a < b) :
    extentEnd stream a ≤ b := by
  -- induction on the larger of the two, for all pairs below it
  induction hn : b using Nat.strong_induction_on generalizing a b with
  | _ n ih =>
    subst hn
    cases hb with
    | zero => omega
    | @next pos hpos hlen =>
      have hgrow : pos < extentEnd stream pos := by
        rw [extentEnd]
        omega
      rcases Nat.lt_trichotomy a pos with hap | rfl | hpa
      · exact (ih pos hgrow ha hpos hap rfl).trans hgrow.le
      · exact le_rfl
      · exact absurd (ih a hlt hpos ha hpa rfl) (by omega)

end Boundary

/-- A call of `recv` that returns: a bad length is stepped over, a frame is taken whole. -/
private theorem recv_some {s rest : List Byte} {x : Option Frame} (h : recv s = some (x, rest)) :
    4 ≤ s.length ∧ ((x = none ∧ Rejected (lengthOf (s.take 4)) ∧ rest = s.drop 4) ∨
      (x.isSome ∧ ¬ Rejected (lengthOf (s.take 4)) ∧ 4 + (lengthOf (s.take 4)).toNat ≤ s.length ∧
        rest = s.drop (4 + (lengthOf (s.take 4)).toNat))) := by
  unfold recv at h
  split at h
  · cases h
  rename_i hfour
  refine ⟨Nat.le_of_not_lt hfour, ?_⟩
  dsimp only at h
  split at h
  · rename_i hbad
    cases h
    exact .inl ⟨rfl, hbad, rfl⟩
  · rename_i hgood
    split at h
    · cases h
    · rename_i tag tail hdrop
      split at h
      · cases h
      · rename_i hroom
        cases h
        have hnonzero : (lengthOf (s.take 4)).toNat ≠ 0 := fun hz =>
          hgood (.inl (BitVec.eq_of_toNat_eq hz))
        have hsub : (lengthOf (s.take 4) - 1).toNat = (lengthOf (s.take 4)).toNat - 1 := by
          rw [BitVec.toNat_sub]
          have hbound := (lengthOf (s.take 4)).isLt
          simp only [BitVec.ofNat_eq_ofNat, BitVec.toNat_ofNat]
          omega
        have hlen := congrArg List.length hdrop
        rw [List.length_drop, List.length_cons] at hlen
        rw [hsub] at hroom ⊢
        refine .inr ⟨rfl, hgood, by omega, ?_⟩
        rw [← List.drop_drop, hdrop]
        obtain ⟨n, hn⟩ := Nat.exists_eq_succ_of_ne_zero hnonzero
        rw [hn, List.drop_succ_cons, Nat.succ_sub_one]

namespace Reader
variable {stream : List Byte} {r t : Reader} {e : Event}

/-- What earlier calls have returned has no part in what the next bytes do. -/
private theorem received_frame (r : Reader) (xs : List RecvResult) (bytes : List Byte) :
    received { r with results := xs } bytes =
      { r.received bytes with results := xs ++ (r.received bytes).results.drop r.results.length } := by
  unfold Reader.received
  dsimp only
  split
  · split
    · simp
    · split <;> simp [retry]
  · split
    · split <;> simp [deliver]
    · simp
  · split <;> simp [deliver]

private theorem step_chunk_frame {k : Nat} (hs : r.step (.chunk k) = some t) :
    step { r with results := [] } (.chunk k) = some { t with results := t.results.drop r.results.length } := by
  unfold Reader.step at hs ⊢
  dsimp only at hs ⊢
  split at hs
  · cases hs
  rename_i hrunning
  rw [if_neg hrunning]
  split at hs
  · cases hs
  · rename_i hne
    cases hs
    rw [if_neg hne]
    exact congrArg some (received_frame { r with unread := _ } [] _)

/-- Bytes that arrive move on within the call under way, or make it return as `recv` would. -/
private theorem step_chunk {k : Nat} (hs : r.step (.chunk k) = some t) (hsound : r.pc.Sound) :
    t.pc.Sound ∧ ((t.results = r.results ∧ t.pc.part ++ t.unread = r.pc.part ++ r.unread) ∨
      ∃ x, t.results = r.results ++ [x] ∧ x ≠ .failed true ∧
        recv (r.pc.part ++ r.unread) = some (x.frame?, t.pc.part ++ t.unread)) := by
  have hfresh : Reads (r.pc.part ++ r.unread) { r with results := [] } := ⟨hsound, rfl⟩
  have hreads := hfresh.keep rfl (step_chunk_frame hs)
  refine ⟨hreads.sound, ?_⟩
  have hcalls := hreads.calls
  dsimp only at hcalls
  obtain ⟨-, hres⟩ := step_arrives rfl hs
  obtain heq | ⟨x, hx, hne⟩ : t.results = r.results ∨ ∃ x, t.results = r.results ++ [x] ∧ x ≠ .failed true := by
    rcases hres with h | ⟨f, h⟩ | ⟨-, h⟩
    · exact .inl h
    · exact .inr ⟨_, h, by simp⟩
    · exact .inr ⟨_, h, by simp⟩
  · rw [heq, List.drop_length] at hcalls
    have hpair : (([] : List (Option Frame)), r.pc.part ++ r.unread) = ([], t.pc.part ++ t.unread) := Option.some.inj hcalls
    exact .inl ⟨heq, (congrArg Prod.snd hpair).symm⟩
  · rw [hx, List.drop_left] at hcalls
    obtain ⟨⟨first, rest⟩, hfirst, hmap⟩ := Option.bind_eq_some_iff.mp hcalls
    cases hmap
    exact .inr ⟨x, hx, hne, hfirst⟩

/-- What is left of the stream for the call under way. -/
structure Holds (stream : List Byte) (r : Reader) : Prop where
  sound : r.pc.Sound
  suffix : r.pc.part ++ r.unread <:+ stream

theorem Holds.initial (stream : List Byte) : Holds stream (Reader.initial stream) :=
  ⟨Nat.zero_lt_succ 3, List.suffix_rfl⟩

private theorem Holds.drop_start (h : Holds stream r) : stream.drop (r.start stream) = r.pc.part ++ r.unread :=
  (List.suffix_iff_eq_drop.mp h.suffix).symm

private theorem Holds.start_add (h : Holds stream r) :
    r.start stream + (r.pc.part ++ r.unread).length = stream.length := by
  have hle := h.suffix.length_le
  rw [Reader.start]
  omega

private theorem Holds.lengthAt_start (h : Holds stream r) :
    lengthAt stream (r.start stream) = lengthOf ((r.pc.part ++ r.unread).take 4) := by
  rw [lengthAt, h.drop_start]

/-- Less of a frame has been taken than it announces. -/
theorem Holds.part_lt (h : Holds stream r) : r.start stream + r.pc.part.length < extentEnd stream (r.start stream) := by
  rw [extentEnd, h.lengthAt_start]
  have hsound := h.sound
  have hnat : ∀ {length : BitVec 32}, ¬ Rejected length → (length - 1).toNat + 1 = length.toNat := by
    intro length hgood
    have hnonzero : length.toNat ≠ 0 := fun hz => hgood (.inl (BitVec.eq_of_toNat_eq hz))
    have hbound := length.isLt
    rw [BitVec.toNat_sub]
    simp only [BitVec.ofNat_eq_ofNat, BitVec.toNat_ofNat]
    omega
  cases hpc : r.pc with
  | readLength lenBuf =>
    rw [hpc] at hsound
    simp only [RecvPc.Sound, RecvPc.part] at hsound ⊢
    omega
  | readTag length =>
    rw [hpc] at hsound
    have hone := hnat hsound
    rw [RecvPc.part, List.take_left' (length_lengthBytes _), lengthOf_lengthBytes, length_lengthBytes]
    omega
  | readPayload length tag buf =>
    rw [hpc] at hsound
    have hone := hnat hsound.1
    have hlt := hsound.2
    rw [RecvPc.part, List.append_assoc, List.take_left' (length_lengthBytes _), lengthOf_lengthBytes, List.length_append,
      length_lengthBytes, List.length_cons]
    omega

/-- Where the next call begins after one that returned. -/
private theorem Holds.start_returned (h : Holds stream r) {x : Option Frame} (ht : Holds stream t)
    (hrecv : recv (r.pc.part ++ r.unread) = some (x, t.pc.part ++ t.unread)) :
    r.start stream + 4 ≤ stream.length ∧
      t.start stream = if x.isSome ∨ lengthAt stream (r.start stream) = 0 then extentEnd stream (r.start stream)
        else r.start stream + 4 := by
  have hr := h.start_add
  have ht' := ht.start_add
  obtain ⟨hfour, hcase⟩ := recv_some hrecv
  refine ⟨by omega, ?_⟩
  rw [extentEnd, h.lengthAt_start]
  rcases hcase with ⟨rfl, -, hrest⟩ | ⟨hsome, -, hroom, hrest⟩
  · have hlen := congrArg List.length hrest
    rw [List.length_drop] at hlen
    split
    · rename_i hz
      have hzero : lengthOf ((r.pc.part ++ r.unread).take 4) = 0 := by simpa using hz
      rw [hzero]
      simp only [BitVec.toNat_zero, BitVec.ofNat_eq_ofNat]
      omega
    · omega
  · have hlen := congrArg List.length hrest
    rw [List.length_drop] at hlen
    rw [if_pos (.inl hsome)]
    omega

/-- A trip that is no chunk returns a call without reading, or does nothing. -/
private theorem step_other (hs : r.step e = some t) (he : ∀ k, e ≠ .chunk k) :
    (e.timesOut = true ∧ t = r.retry) ∨
      (e.timesOut = false ∧ t.pc = r.pc ∧ t.unread = r.unread ∧ (t.results = r.results ∨ t.results = r.results ++ [.failed true])) := by
  unfold Reader.step at hs
  split at hs
  · cases hs
  cases e with
  | deadline | pollTimeout | pollError | recvError =>
    cases hs
    exact .inl ⟨rfl, rfl⟩
  | pollEintr | recvEintr =>
    cases hs
    exact .inr ⟨rfl, rfl, rfl, .inl rfl⟩
  | hangup | eof =>
    cases hs
    exact .inr ⟨rfl, rfl, rfl, .inr rfl⟩
  | chunk k => exact absurd rfl (he k)

theorem Holds.keep (h : Holds stream r) (hs : r.step e = some t) : Holds stream t := by
  by_cases he : ∃ k, e = .chunk k
  · obtain ⟨k, rfl⟩ := he
    obtain ⟨hsound, ⟨-, hsame⟩ | ⟨x, -, -, hrecv⟩⟩ := step_chunk hs h.sound
    · exact ⟨hsound, by rw [hsame]; exact h.suffix⟩
    · refine ⟨hsound, List.IsSuffix.trans ?_ h.suffix⟩
      obtain ⟨-, ⟨-, -, hrest⟩ | ⟨-, -, -, hrest⟩⟩ := recv_some hrecv <;>
      · rw [hrest]
        exact List.drop_suffix ..
  · rcases step_other hs (fun k hk => he ⟨k, hk⟩) with ⟨-, rfl⟩ | ⟨-, hpc, hunread, -⟩
    · exact ⟨Nat.zero_lt_succ 3, (List.suffix_append r.pc.part r.unread).trans h.suffix⟩
    · exact ⟨by rw [hpc]; exact h.sound, by rw [hpc, hunread]; exact h.suffix⟩

/-- Where the call before the next trip stands when the trip gives up midway. -/
private theorem Holds.start_retry (h : Holds stream r) : r.retry.start stream = r.start stream + r.pc.part.length := by
  have hlen := h.suffix.length_le
  rw [List.length_append] at hlen
  have hretry : r.retry.pc.part ++ r.retry.unread = r.unread := rfl
  rw [Reader.start, Reader.start, hretry, List.length_append]
  omega

/-- While the length field is read, a call returns only where the chunk completes a bad one. -/
private theorem step_readLength {k : Nat} {lenBuf : List Byte} (hs : r.step (.chunk k) = some t)
    (hpc : r.pc = .readLength lenBuf) (hlt : lenBuf.length < 4) :
    t.results ≠ r.results ↔
      4 ≤ lenBuf.length + min (k + 1) r.unread.length ∧ Rejected (lengthOf ((lenBuf ++ r.unread).take 4)) := by
  unfold Reader.step at hs
  split at hs
  · cases hs
  dsimp only at hs
  split at hs
  · cases hs
  rw [Option.some.injEq] at hs
  simp only [Reader.received, hpc, RecvPc.need] at hs
  have hlen : (lenBuf ++ r.unread.take (min (k + 1) (4 - lenBuf.length))).length =
      lenBuf.length + min (min (k + 1) (4 - lenBuf.length)) r.unread.length := by
    rw [List.length_append, List.length_take]
  split at hs
  · rename_i hshort
    have hres : t.results = r.results := by rw [← hs]
    refine iff_of_false (fun h => h hres) (fun h => ?_)
    have hfull := h.1
    omega
  · rename_i hfull
    have hfour : lenBuf ++ r.unread.take (min (k + 1) (4 - lenBuf.length)) = (lenBuf ++ r.unread).take 4 := by
      rw [List.take_append, List.take_of_length_le hlt.le, List.append_cancel_left_eq]
      apply List.take_eq_take_iff.mpr
      omega
    rw [hfour] at hs
    have hbytes : 4 ≤ lenBuf.length + min (k + 1) r.unread.length := by omega
    split at hs
    · rename_i hbad
      refine iff_of_true (fun h => ?_) ⟨hbytes, hbad⟩
      have hmore : t.results = r.results ++ [.failed false] := by rw [← hs]; rfl
      rw [h] at hmore
      simp at hmore
    · rename_i hgood
      have hres : t.results = r.results := by rw [← hs]
      exact iff_of_false (fun h => h hres) fun h => hgood h.2

end Reader

namespace Tracked
variable {stream : List Byte} {tr tr' : Tracked} {e : Event}

/-- A call under way begins at a boundary, and so did those that have returned. -/
structure InStep (stream : List Byte) (tr : Tracked) : Prop where
  holds : tr.reader.Holds stream
  here : Boundary stream (tr.reader.start stream)
  clean : NoSmuggling stream tr.marks
  passed : ∀ p, .rejected p ∈ tr.marks → extentEnd stream p ≤ tr.reader.start stream

theorem InStep.initial (stream : List Byte) : InStep stream (Tracked.initial stream) where
  holds := Reader.Holds.initial stream
  here := by
    have hzero : (Reader.initial stream).start stream = 0 := Nat.sub_self _
    rw [Tracked.initial, hzero]
    exact .zero
  clean := ⟨fun _ h => absurd h List.not_mem_nil, List.Pairwise.nil⟩
  passed := fun _ h => absurd h List.not_mem_nil

/-- A call that returned from where it should have begun, having taken a whole frame. -/
theorem InStep.returned (h : InStep stream tr) {m : Mark}
    (hm : m = .message (tr.reader.start stream) ∨ m = .rejected (tr.reader.start stream)) {t : Reader}
    (ht : t.Holds stream) (hfour : tr.reader.start stream + 4 ≤ stream.length)
    (hstart : t.start stream = extentEnd stream (tr.reader.start stream)) :
    InStep stream { reader := t, marks := tr.marks ++ [m] } := by
  refine ⟨ht, by rw [hstart]; exact h.here.next hfour, ⟨fun s hs => ?_, ?_⟩, fun p hp => ?_⟩
  · rcases List.mem_append.mp hs with hs | hs
    · exact h.clean.1 s hs
    · obtain rfl := List.mem_singleton.mp hs
      rcases hm with hm | hm <;> cases hm
      exact h.here
  · refine List.pairwise_append.mpr ⟨h.clean.2, List.pairwise_singleton .., ?_⟩
    rintro a ha b hb p s rfl rfl
    obtain rfl := List.mem_singleton.mp hb
    rcases hm with hm | hm <;> cases hm
    exact h.passed p ha
  · dsimp only
    rw [hstart]
    rcases List.mem_append.mp hp with hp | hp
    · have hgrow : tr.reader.start stream ≤ extentEnd stream (tr.reader.start stream) := by
        rw [extentEnd]
        omega
      exact (h.passed p hp).trans hgrow
    · obtain rfl := List.mem_singleton.mp hp
      rcases hm with hm | hm <;> cases hm
      exact le_rfl

/-- A call that goes on, or returns without having read, leaves everything in place. -/
private theorem InStep.stay (h : InStep stream tr) {t : Reader} (ht : t.Holds stream)
    (hstart : t.start stream = tr.reader.start stream) : InStep stream { reader := t, marks := tr.marks } :=
  ⟨ht, by rw [hstart]; exact h.here, h.clean, by rw [hstart]; exact h.passed⟩

theorem step_some (h : tr.step stream e = some tr') : tr.reader.step e = some tr'.reader ∧
    tr'.marks = tr.marks ++ (tr'.reader.results.drop tr.reader.results.length).filterMap
      (Mark.of (tr.reader.start stream) e) := by
  obtain ⟨t, ht, rfl⟩ := Option.map_eq_some_iff.mp h
  exact ⟨ht, rfl⟩

/-- A chunk on which a call returned `x`. -/
private theorem chunk_returned {k : Nat} {x : RecvResult} (hx : tr'.reader.results = tr.reader.results ++ [x])
    (hne : x ≠ .failed true)
    (hmarks : tr'.marks = tr.marks ++ (tr'.reader.results.drop tr.reader.results.length).filterMap
      (Mark.of (tr.reader.start stream) (.chunk k))) :
    ∃ m, tr'.marks = tr.marks ++ [m] ∧ (m = .message (tr.reader.start stream) ∨ m = .rejected (tr.reader.start stream)) := by
  rw [hmarks, hx, List.drop_left]
  cases x with
  | message f => exact ⟨_, rfl, .inl rfl⟩
  | failed c => exact ⟨_, rfl, .inr rfl⟩

/-- On a regular chunk the call that returns has a frame behind it, or a length of zero. -/
private theorem InStep.returned_end (h : InStep stream tr) {k : Nat} (hok : Regular tr.reader (.chunk k)) {t : Reader}
    (hs : tr.reader.step (.chunk k) = some t) (ht : t.Holds stream) {x : RecvResult}
    (hx : t.results = tr.reader.results ++ [x])
    (hrecv : recv (tr.reader.pc.part ++ tr.reader.unread) = some (x.frame?, t.pc.part ++ t.unread)) :
    t.start stream = extentEnd stream (tr.reader.start stream) := by
  obtain ⟨-, hstart⟩ := h.holds.start_returned ht hrecv
  rw [hstart]
  apply if_pos
  cases x with
  | message f => exact .inl rfl
  | failed c =>
    refine .inr ?_
    obtain ⟨-, hres⟩ := Reader.step_arrives rfl hs
    obtain ⟨lenBuf, hpc⟩ : ∃ lenBuf, tr.reader.pc = .readLength lenBuf := by
      rcases hres with heq | ⟨f, heq⟩ | ⟨hpc, -⟩
      · rw [hx] at heq
        simp at heq
      · rw [hx] at heq
        simp at heq
      · exact hpc
    have hsound := h.holds.sound
    rw [hpc] at hsound
    obtain ⟨hbytes, hbad⟩ := (Reader.step_readLength hs hpc hsound).mp (by rw [hx]; simp)
    have hsmall := hok.2
    simp only [hpc] at hsmall
    rw [h.holds.lengthAt_start, hpc, RecvPc.part]
    exact hbad.resolve_right (BitVec.not_lt.mpr (hsmall hbytes))

/-- A regular trip keeps the calls on the boundaries. -/
theorem InStep.keep (h : InStep stream tr) (hok : Regular tr.reader e) (hs : tr.step stream e = some tr') :
    InStep stream tr' := by
  obtain ⟨hstep, hmarks⟩ := step_some hs
  have hholds := h.holds.keep hstep
  obtain ⟨t, marks⟩ := tr'
  dsimp only at hstep hmarks hholds
  by_cases he : ∃ k, e = .chunk k
  · obtain ⟨k, rfl⟩ := he
    obtain ⟨-, ⟨hres, hsame⟩ | ⟨x, hx, hne, hrecv⟩⟩ := Reader.step_chunk hstep h.holds.sound
    · rw [hres, List.drop_length, List.filterMap_nil, List.append_nil] at hmarks
      rw [hmarks]
      exact h.stay hholds (by rw [Reader.start, hsame]; rfl)
    · obtain ⟨m, hm, hkind⟩ := @chunk_returned stream tr ⟨t, marks⟩ k x hx hne hmarks
      dsimp only at hm
      rw [hm]
      exact h.returned hkind hholds (h.holds.start_returned hholds hrecv).1 (h.returned_end hok hstep hholds hx hrecv)
  · have hnone : ∀ c, Mark.of (tr.reader.start stream) e (.failed c) = none := by
      intro c
      cases e with
      | chunk k => exact absurd ⟨k, rfl⟩ he
      | _ => rfl
    rcases Reader.step_other hstep (fun k hk => he ⟨k, hk⟩) with ⟨hout, rfl⟩ | ⟨-, hpc, hunread, hres | hres⟩
    · have hpart := hok.1 hout
      rw [show tr.reader.retry.results = tr.reader.results ++ [.failed false] from rfl, List.drop_left,
        List.filterMap_cons, hnone, List.filterMap_nil, List.append_nil] at hmarks
      rw [hmarks]
      exact h.stay hholds (by rw [h.holds.start_retry, hpart]; rfl)
    · rw [hres, List.drop_length, List.filterMap_nil, List.append_nil] at hmarks
      rw [hmarks]
      exact h.stay hholds (by rw [Reader.start, hpc, hunread]; rfl)
    · rw [hres, List.drop_left, List.filterMap_cons, hnone, List.filterMap_nil, List.append_nil] at hmarks
      rw [hmarks]
      exact h.stay hholds (by rw [Reader.start, hpc, hunread]; rfl)

/-- Between the beginning of a frame and its end no call can begin in step. -/
private theorem InStep.not_boundary (h : InStep stream tr) {pos : Nat} (hlo : tr.reader.start stream < pos)
    (hhi : pos < extentEnd stream (tr.reader.start stream)) : ¬ Boundary stream pos := fun hb =>
  absurd (h.here.extentEnd_le hb hlo) (Nat.not_le.mpr hhi)

/-- Any other trip leaves the next call within the frame that was given up on. -/
theorem InStep.breaks (h : InStep stream tr) (hs : tr.step stream e = some tr')
    (hb : Boundary stream (tr'.reader.start stream)) : Regular tr.reader e := by
  obtain ⟨hstep, -⟩ := step_some hs
  refine ⟨fun hout => ?_, ?_⟩
  · by_contra hpart
    have hretry : tr'.reader = tr.reader.retry := by
      rcases Reader.step_other hstep (fun k hk => by rw [hk] at hout; cases hout) with ⟨-, ht⟩ | ⟨hnot, -⟩
      · exact ht
      · exact absurd (hnot.symm.trans hout) Bool.noConfusion
    rw [hretry, h.holds.start_retry] at hb
    have hpos := List.length_pos_iff.mpr hpart
    exact h.not_boundary (by omega) h.holds.part_lt hb
  · split
    · rename_i k lenBuf hpc
      intro hbytes
      rw [← BitVec.not_lt]
      intro hbig
      have hsound := h.holds.sound
      rw [hpc] at hsound
      have hres := (Reader.step_readLength hstep hpc hsound).mpr ⟨hbytes, .inr hbig⟩
      obtain ⟨-, ⟨hsame, -⟩ | ⟨x, -, -, hrecv⟩⟩ := Reader.step_chunk hstep h.holds.sound
      · exact hres hsame
      have hlen : kMaxPayloadBytes < (lengthAt stream (tr.reader.start stream)).toNat := by
        rw [h.holds.lengthAt_start, hpc]
        exact hbig
      obtain ⟨-, ⟨hnone, -, -⟩ | ⟨-, hgood, -, -⟩⟩ := recv_some hrecv
      · obtain ⟨-, hstart⟩ := h.holds.start_returned (h.holds.keep hstep) hrecv
        have hnonzero : lengthAt stream (tr.reader.start stream) ≠ 0 := fun hz => by
          rw [hz] at hlen
          cases hlen
        rw [hnone, if_neg (fun h => h.elim Bool.noConfusion hnonzero)] at hstart
        rw [hstart] at hb
        exact h.not_boundary (by omega) (by rw [extentEnd]; omega) hb
      · rw [hpc] at hgood
        exact hgood (.inr hbig)
    · trivial

/-- In a run whose trips are all regular no message comes out of a rejected frame,
and each begins where parsing the stream from its beginning gets to. The runs
whose trips are all regular are those whose calls all begin at such a position. -/
theorem no_smuggling_of_regular (stream : List Byte) (es : List Event) (tr : Tracked)
    (he : exec (step stream) (Tracked.initial stream) es = some tr) :
    (Meets (step stream) (fun tr e => Regular tr.reader e) (Tracked.initial stream) es →
      Always (step stream) (fun tr => NoSmuggling stream tr.marks) (Tracked.initial stream) es) ∧
      (Always (step stream) (fun tr => Boundary stream (tr.reader.start stream)) (Tracked.initial stream) es ↔
        Meets (step stream) (fun tr e => Regular tr.reader e) (Tracked.initial stream) es) := by
  constructor
  · exact always_of_meets (InStep stream) (fun h hok hs => h.keep hok hs) InStep.clean (InStep.initial stream)
  · exact always_iff_meets (InStep stream) (fun h hok hs => h.keep hok hs) InStep.here (fun h hs hb => h.breaks hs hb)
      (InStep.initial stream) he

/-- A zero length, an `UnloadPlugin` in two pieces and a timeout between frames. -/
theorem no_smuggling_of_regular_zero :
    let stream : List Byte := [0, 0, 0, 0] ++ Frame.bytes ⟨0x12, []⟩
    ∃ es tr, exec (step stream) (Tracked.initial stream) es = some tr ∧ tr.marks = [.rejected 0, .message 4] ∧
      NoSmuggling stream tr.marks := by
  intro stream
  let es : List Event := [.chunk 2, .chunk 0, .pollTimeout, .chunk 1, .chunk 9, .chunk 0]
  obtain ⟨tr, htr, hview⟩ := Option.map_eq_some_iff.mp
    (show (exec (step stream) (Tracked.initial stream) es).map (·.marks) = some [.rejected 0, .message 4] by decide)
  have hall := no_smuggling_of_regular stream es tr htr
  exact ⟨es, tr, htr, hview, (hall.1 (meets_of_checks (by decide))).end htr⟩

/-- A length of 2 MiB, and within the frame it announces the five bytes of a
`Goodbye`: the reader gives up on the length and then obeys the `Goodbye`. -/
theorem goodbye_smuggled :
    let stream : List Byte := [0, 0, 0x20, 0] ++ Frame.bytes ⟨goodbye, []⟩
    ∃ es tr, exec (step stream) (Tracked.initial stream) es = some tr ∧ tr.reader.messages = [⟨goodbye, []⟩] ∧
      tr.marks = [.rejected 0, .message 4] ∧ extentEnd stream 0 = 2097156 ∧ ¬ Boundary stream 4 ∧
      ¬ NoSmuggling stream tr.marks := by
  intro stream
  let es : List Event := [.chunk 3, .chunk 3, .chunk 0]
  obtain ⟨tr, htr, hview⟩ := Option.map_eq_some_iff.mp
    (show (exec (step stream) (Tracked.initial stream) es).map (fun tr => (tr.reader.messages, tr.marks)) =
      some ([⟨goodbye, []⟩], [.rejected 0, .message 4]) by decide)
  obtain ⟨hmessages, hmarks⟩ := Prod.mk.inj hview
  have hextent : extentEnd stream 0 = 2097156 := by decide
  have hoff : ¬ Boundary stream 4 := fun hb => by
    have hle := Boundary.extentEnd_le .zero hb (by omega)
    omega
  refine ⟨es, tr, htr, hmessages, hmarks, hextent, hoff, fun hclean => hoff (hclean.1 4 ?_)⟩
  rw [hmarks]
  simp

end Tracked
end Plughost.Ipc.ControlPipe
