import Plughost.Ipc.FrameRoundTrip

/-! `Recv` called over and over, whatever it returns, on a stream that arrives in
any pieces: what the calls leave with their caller does not depend on the pieces. -/
namespace Plughost.Ipc.ControlPipe
open Plughost.Runs

/-- What one call of `Recv` returns and leaves in the caller's fresh `t`, `p` and `isClosed`. -/
structure Returned where
  ok : Bool
  outTag : Byte
  outPayload : List Byte
  outClosed : Bool
  deriving DecidableEq, Repr

/-- A call that returns false: the tag is set once it has been read, and the
payload then has its full size, zeros where nothing has arrived. -/
def RecvPc.failing (outClosed : Bool) : RecvPc → Returned
  | .readLength _ | .readTag _ => ⟨false, 0, [], outClosed⟩
  | .readPayload length tag outPayload =>
    ⟨false, tag, outPayload ++ List.replicate ((length - 1).toNat - outPayload.length) 0, outClosed⟩

def RecvResult.returned (pc : RecvPc) : RecvResult → Returned
  | .message f => ⟨true, f.tag, f.payload, false⟩
  | .failed outClosed => pc.failing outClosed

/-- A caller that goes on after a `Goodbye` and after a close, and all that it was returned. -/
structure Caller where
  reader : Reader
  returned : List Returned

namespace Caller

def initial (stream : List Byte) : Caller := { reader := Reader.initial stream, returned := [] }

/-- One trip round the loop of `RecvAll`; a call that returned is made again. -/
def step (c : Caller) (e : Event) : Option Caller :=
  (Reader.step { c.reader with running := true } e).map fun t =>
    { reader := if t.running then t else { t with pc := .readLength [] }
      returned := c.returned ++ (t.results.drop c.reader.results.length).map (RecvResult.returned c.reader.pc) }

end Caller

/-- What the socket may answer while no deadline expires and nothing fails. A
hang-up that comes with data is a `chunk`; without data, and with an end of file,
the peer has closed and everything before that has been taken. -/
def Delivers (closed : Bool) (c : Caller) : Event → Prop
  | .chunk _ | .pollEintr | .recvEintr => True
  | .hangup | .eof => closed = true ∧ c.reader.unread = []
  | .deadline | .pollTimeout | .pollError | .recvError => False

instance (closed : Bool) (c : Caller) : (e : Event) → Decidable (Delivers closed c e)
  | .chunk _ | .pollEintr | .recvEintr => inferInstanceAs (Decidable True)
  | .hangup | .eof => inferInstanceAs (Decidable (_ ∧ _))
  | .deadline | .pollTimeout | .pollError | .recvError => inferInstanceAs (Decidable False)

/-- What a call of `recv` means to the caller. -/
def Returned.ofCall : Option Frame → Returned
  | some f => ⟨true, f.tag, f.payload, false⟩
  | none => ⟨false, 0, [], false⟩

/-- What `m` calls leave after the close: the first had read as far as `pc`. -/
def closes (pc : RecvPc) : Nat → List Returned
  | 0 => []
  | m + 1 => pc.failing true :: List.replicate m ⟨false, 0, [], true⟩

private theorem RecvPc.outClosed_failing (pc : RecvPc) (b : Bool) : (pc.failing b).outClosed = b := by
  cases pc <;> rfl

private theorem closes_concat (pc : RecvPc) (m : Nat) :
    closes pc (m + 1) ++ [⟨false, 0, [], true⟩] = closes pc (m + 1 + 1) := by
  simp only [closes, List.cons_append, ← List.replicate_succ']

private theorem outClosed_of_mem_closes {pc : RecvPc} {m : Nat} {x : Returned} (h : x ∈ closes pc m) :
    x.outClosed = true := by
  cases m with
  | zero => cases h
  | succ m =>
    rcases List.mem_cons.mp h with rfl | h
    · exact pc.outClosed_failing true
    · rw [(List.mem_replicate.mp h).2]

/-- Longer runs of closed calls extend shorter ones. -/
private theorem closes_mono (pc : RecvPc) {m n : Nat} (h : m ≤ n) : closes pc m <+: closes pc n := by
  induction h with
  | refl => exact List.prefix_rfl
  | @step n _ ih =>
    apply ih.trans
    cases n with
    | zero => exact List.nil_prefix
    | succ n => exact ⟨_, closes_concat pc n⟩

/-- The bytes taken of a frame say where in it `Recv` stands. -/
private theorem RecvPc.part_injective {pc pc' : RecvPc} (h : pc.Sound) (h' : pc'.Sound)
    (heq : pc.part = pc'.part) : pc = pc' := by
  have hlen := congrArg List.length heq
  cases pc <;> cases pc' <;>
    simp only [RecvPc.part, RecvPc.Sound, List.length_append, List.length_cons, length_lengthBytes] at h h' heq hlen
  case readLength.readLength lenBuf lenBuf' => rw [heq]
  case readTag.readTag length length' =>
    rw [← lengthOf_lengthBytes length, heq, lengthOf_lengthBytes]
  case readPayload.readPayload length tag buf length' tag' buf' =>
    obtain ⟨hlength, hrest⟩ := List.append_inj heq (by rw [length_lengthBytes, length_lengthBytes])
    obtain ⟨rfl, rfl⟩ := List.cons.inj hrest
    rw [← lengthOf_lengthBytes length, hlength, lengthOf_lengthBytes]
  all_goals omega

/-- More calls on the same stream begin with what fewer calls return. -/
private theorem recvs_append {n m : Nat} {stream rest rest' : List Byte} {calls calls' : List (Option Frame)}
    (h : recvs n stream = some (calls, rest)) (h' : recvs (n + m) stream = some (calls', rest')) :
    ∃ more, calls' = calls ++ more ∧ recvs m rest = some (more, rest') := by
  induction n generalizing stream calls calls' with
  | zero =>
    cases h
    rw [Nat.zero_add] at h'
    exact ⟨calls', rfl, h'⟩
  | succ n ih =>
    rw [Nat.succ_add, recvs] at h'
    rw [recvs] at h
    obtain ⟨⟨first, mid⟩, hfirst, hmap⟩ := Option.bind_eq_some_iff.mp h
    obtain ⟨⟨others, rest''⟩, hothers, heq⟩ := Option.map_eq_some_iff.mp hmap
    cases heq
    rw [hfirst, Option.bind_some] at h'
    obtain ⟨⟨others', rest''⟩, hothers', heq⟩ := Option.map_eq_some_iff.mp h'
    cases heq
    obtain ⟨more, rfl, hmore⟩ := ih hothers hothers'
    exact ⟨more, rfl, hmore⟩

namespace Reader
variable {r t : Reader} {e : Event}

/-- Bytes that arrive complete nothing, or a message, or a length that is given up on. -/
theorem received_results (r : Reader) (bytes : List Byte) :
    (r.received bytes).results = r.results ∨ (∃ f, (r.received bytes).results = r.results ++ [.message f]) ∨
      (∃ lenBuf, r.pc = .readLength lenBuf) ∧ (r.received bytes).results = r.results ++ [.failed false] := by
  unfold Reader.received
  split
  · rename_i lenBuf hpc
    dsimp only
    split
    · exact .inl rfl
    · split
      · exact .inr (.inr ⟨⟨lenBuf, hpc⟩, rfl⟩)
      · exact .inl rfl
  · split
    · split
      · exact .inr (.inl ⟨_, rfl⟩)
      · exact .inl rfl
    · exact .inl rfl
  · dsimp only
    split
    · exact .inl rfl
    · exact .inr (.inl ⟨_, rfl⟩)

/-- The loop ends where a message does. -/
private theorem received_stopped (r : Reader) (bytes : List Byte) (h : (r.received bytes).running = false)
    (hr : r.running = true) :
    (r.received bytes).pc = .readLength [] := by
  unfold Reader.received at h ⊢
  split at h
  · dsimp only at h ⊢
    split at h
    · rw [hr] at h
      cases h
    · split at h
      · exact absurd (hr.symm.trans h) Bool.noConfusion
      · exact absurd (hr.symm.trans h) Bool.noConfusion
  · split at h
    · split at h
      · rename_i hz
        rw [if_pos hz]
        rfl
      · exact absurd (hr.symm.trans h) Bool.noConfusion
    · exact absurd (hr.symm.trans h) Bool.noConfusion
  · dsimp only at h ⊢
    split at h
    · exact absurd (hr.symm.trans h) Bool.noConfusion
    · rename_i hfull
      rw [if_neg hfull]
      rfl

/-- Everything a trip can do when bytes arrive or the wait is interrupted. -/
theorem step_arrives (harr : e.arrives = true) (hs : r.step e = some t) :
    (t.running = false → t.pc = .readLength []) ∧
      (t.results = r.results ∨ (∃ f, t.results = r.results ++ [.message f]) ∨
        (∃ lenBuf, r.pc = .readLength lenBuf) ∧ t.results = r.results ++ [.failed false]) := by
  unfold Reader.step at hs
  split at hs
  · cases hs
  rename_i hrunning
  rw [Bool.not_eq_true', Bool.not_eq_false] at hrunning
  cases e with
  | deadline | pollError | pollTimeout | recvError | hangup | eof => cases harr
  | pollEintr | recvEintr =>
    cases hs
    exact ⟨fun h => absurd (hrunning.symm.trans h) Bool.noConfusion, .inl rfl⟩
  | chunk k =>
    dsimp only at hs
    split at hs <;> cases hs
    exact ⟨fun h => received_stopped _ _ h hrunning, received_results { r with unread := _ } _⟩

end Reader

/-- Either the calls have returned what `recv` does and one is under way, or the
peer has closed within the frame at `pc` and every call since has said so. -/
inductive Caller.Follows (stream : List Byte) (closed : Bool) (c : Caller) : Prop
  | waiting (reads : Reader.Reads stream c.reader)
      (returned : c.returned = c.reader.results.map (Returned.ofCall ∘ RecvResult.frame?))
  | atEnd (calls : List (Option Frame)) (pc : RecvPc) (m : Nat) (sound : pc.Sound)
      (recvs : recvs calls.length stream = some (calls, pc.part)) (closed : closed = true)
      (unread : c.reader.unread = []) (here : c.reader.pc = .readLength [])
      (returned : c.returned = calls.map Returned.ofCall ++ closes pc (m + 1))

namespace Caller
variable {stream : List Byte} {closed : Bool} {c d : Caller} {e : Event}

theorem Follows.initial (stream : List Byte) (closed : Bool) : Follows stream closed (Caller.initial stream) :=
  .waiting (Reader.Reads.initial stream) rfl

theorem step_some (h : c.step e = some d) : ∃ t, Reader.step { c.reader with running := true } e = some t ∧
    d.reader = (if t.running then t else { t with pc := .readLength [] }) ∧
    d.returned = c.returned ++ (t.results.drop c.reader.results.length).map (RecvResult.returned c.reader.pc) := by
  obtain ⟨t, ht, rfl⟩ := Option.map_eq_some_iff.mp h
  exact ⟨t, ht, rfl, rfl⟩

private theorem step_close (he : e = .hangup ∨ e = .eof) (h : c.step e = some d) :
    d.reader = { c.reader with pc := .readLength [], results := c.reader.results ++ [.failed true], running := false } ∧
      d.returned = c.returned ++ [c.reader.pc.failing true] := by
  obtain ⟨t, ht, hreader, hret⟩ := step_some h
  obtain rfl : { c.reader with results := c.reader.results ++ [.failed true], running := false } = t := by
    rcases he with rfl | rfl <;> exact Option.some.inj ht
  refine ⟨hreader, ?_⟩
  rw [hret, List.drop_left]
  rfl

/-- While bytes arrive, each call that returns adds what `recv` would have returned. -/
theorem Follows.arrives (hreads : Reader.Reads stream c.reader)
    (hret : c.returned = c.reader.results.map (Returned.ofCall ∘ RecvResult.frame?)) (harr : e.arrives = true)
    (h : c.step e = some d) : Follows stream closed d := by
  obtain ⟨t, ht, hreader, hnew⟩ := step_some h
  obtain ⟨hstopped, hresults⟩ := Reader.step_arrives harr ht
  have hsame : d.reader = { t with running := d.reader.running } := by
    rw [hreader]
    split
    · rfl
    · rename_i hr
      rw [← hstopped (Bool.not_eq_true _ ▸ hr)]
  have hread : Reader.Reads stream t :=
    Reader.Reads.keep (r := { c.reader with running := true }) ⟨hreads.sound, hreads.calls⟩ harr ht
  refine .waiting ?_ ?_
  · rw [hsame]
    exact ⟨hread.sound, hread.calls⟩
  · rw [hnew, hret, hsame]
    rcases hresults with heq | ⟨f, heq⟩ | ⟨⟨lenBuf, hpc⟩, heq⟩
    · simp [heq]
    · simp [heq, RecvResult.returned, RecvResult.frame?, Returned.ofCall]
    · have hpc' : c.reader.pc = .readLength lenBuf := hpc
      simp [heq, hpc', RecvResult.returned, RecvResult.frame?, Returned.ofCall, RecvPc.failing]

theorem Follows.keep (hc : Follows stream closed c) (hd : Delivers closed c e) (h : c.step e = some d) :
    Follows stream closed d := by
  cases hc with
  | waiting hreads hret =>
    cases e with
    | chunk k => exact Follows.arrives hreads hret rfl h
    | pollEintr => exact Follows.arrives hreads hret rfl h
    | recvEintr => exact Follows.arrives hreads hret rfl h
    | hangup | eof =>
      obtain ⟨hreader, hnew⟩ := step_close (by simp) h
      have hcalls := hreads.calls
      rw [hd.2, List.append_nil] at hcalls
      refine .atEnd (c.reader.results.map RecvResult.frame?) c.reader.pc 0 hreads.sound
        (by rw [List.length_map]; exact hcalls) hd.1 (by rw [hreader]; exact hd.2) (by rw [hreader]) ?_
      rw [hnew, hret, List.map_map]
      rfl
    | deadline | pollTimeout | pollError | recvError => exact hd.elim
  | atEnd calls pc m hsound hcalls hclosed hunread hpc hret =>
    cases e with
    | chunk k =>
      obtain ⟨t, ht, -⟩ := step_some h
      simp [Reader.step, hunread] at ht
    | pollEintr | recvEintr =>
      obtain ⟨t, ht, hreader, hnew⟩ := step_some h
      cases ht
      rw [if_pos rfl] at hreader
      refine .atEnd calls pc m hsound hcalls hclosed (by rw [hreader]; exact hunread) (by rw [hreader]; exact hpc) ?_
      rw [hnew, hret]
      simp
    | hangup | eof =>
      obtain ⟨hreader, hnew⟩ := step_close (by simp) h
      refine .atEnd calls pc (m + 1) hsound hcalls hclosed (by rw [hreader]; exact hunread) (by rw [hreader]) ?_
      rw [hnew, hret, hpc, List.append_assoc, ← closes_concat]
      rfl
    | deadline | pollTimeout | pollError | recvError => exact hd.elim

/-- All that a caller has been returned: `calls` from the stream, and `m` at its end. -/
structure Transcript (stream : List Byte) (closed : Bool) (c : Caller) (calls : List (Option Frame)) (pc : RecvPc)
    (m : Nat) : Prop where
  sound : pc.Sound
  recvs : recvs calls.length stream = some (calls, pc.part ++ c.reader.unread)
  returned : c.returned = calls.map Returned.ofCall ++ closes pc m
  atEnd : 0 < m → closed = true ∧ c.reader.unread = []

private theorem Follows.transcript (hc : Follows stream closed c) :
    ∃ calls pc m, Transcript stream closed c calls pc m := by
  cases hc with
  | waiting hreads hret =>
    refine ⟨c.reader.results.map RecvResult.frame?, c.reader.pc, 0, hreads.sound, ?_, ?_, fun h => absurd h (Nat.lt_irrefl 0)⟩
    · rw [List.length_map]
      exact hreads.calls
    · rw [hret, List.map_map]
      exact (List.append_nil _).symm
  | atEnd calls pc m hsound hcalls hclosed hunread hpc hret =>
    refine ⟨calls, pc, m + 1, hsound, ?_, hret, fun _ => ⟨hclosed, hunread⟩⟩
    rw [hunread, List.append_nil]
    exact hcalls

section Two
variable {c' : Caller} {calls calls' : List (Option Frame)} {pc pc' : RecvPc} {m m' : Nat}

/-- Of two transcripts the longer has the calls of the shorter and `k` more. -/
theorem Transcript.more (h : Transcript stream closed c calls pc m) (h' : Transcript stream closed c' calls' pc' m')
    (hle : calls.length ≤ calls'.length) : ∃ k more, calls' = calls ++ more ∧
      ControlPipe.recvs k (pc.part ++ c.reader.unread) = some (more, pc'.part ++ c'.reader.unread) := by
  obtain ⟨k, hk⟩ := Nat.exists_eq_add_of_le hle
  have hlong := h'.recvs
  rw [hk] at hlong
  obtain ⟨more, hmore, hrecvs⟩ := recvs_append h.recvs hlong
  exact ⟨k, more, hmore, hrecvs⟩

/-- When nothing is left to take, no call can return but for the close. -/
private theorem Transcript.stuck (h : Transcript stream closed c calls pc m) (hunread : c.reader.unread = [])
    {k : Nat} {more : List (Option Frame)} {rest : List Byte}
    (hk : ControlPipe.recvs k (pc.part ++ c.reader.unread) = some (more, rest)) : more = [] ∧ rest = pc.part := by
  rw [hunread, List.append_nil] at hk
  cases k with
  | zero =>
    cases hk
    exact ⟨rfl, rfl⟩
  | succ k =>
    rw [ControlPipe.recvs, Reader.recv_part h.sound] at hk
    cases hk

/-- Two callers that have both come to the end of the stream stand at the same place. -/
private theorem Transcript.same_end (h : Transcript stream closed c calls pc m)
    (h' : Transcript stream closed c' calls' pc' m')
    (hle : calls.length ≤ calls'.length) (hunread : c.reader.unread = []) (hunread' : c'.reader.unread = []) :
    calls' = calls ∧ pc' = pc := by
  obtain ⟨k, more, hcalls, hk⟩ := h.more h' hle
  obtain ⟨rfl, hrest⟩ := h.stuck hunread hk
  rw [hunread', List.append_nil] at hrest
  exact ⟨by rw [hcalls, List.append_nil], RecvPc.part_injective h'.sound h.sound hrest⟩

private theorem Transcript.comparable (h : Transcript stream closed c calls pc m)
    (h' : Transcript stream closed c' calls' pc' m')
    (hle : calls.length ≤ calls'.length) : c.returned <+: c'.returned ∨ c'.returned <+: c.returned := by
  rw [h.returned, h'.returned]
  obtain ⟨k, more, rfl, hk⟩ := h.more h' hle
  rcases Nat.eq_zero_or_pos m with rfl | hm
  · refine .inl ?_
    rw [List.map_append, closes, List.append_nil, List.append_assoc]
    exact List.prefix_append ..
  rcases Nat.eq_zero_or_pos m' with rfl | hm'
  · obtain ⟨rfl, -⟩ := h.stuck (h.atEnd hm).2 hk
    refine .inr ?_
    rw [List.append_nil, closes, List.append_nil]
    exact List.prefix_append ..
  · obtain ⟨hcalls, rfl⟩ := h.same_end h' hle (h.atEnd hm).2 (h'.atEnd hm').2
    rw [hcalls, List.prefix_append_right_inj, List.prefix_append_right_inj]
    exact (Nat.le_total m m').imp (closes_mono pc') (closes_mono pc')

/-- At the end of the stream the one has at most been told more often that it is closed. -/
private theorem Transcript.at_end (h : Transcript stream closed c calls pc m)
    (h' : Transcript stream closed c' calls' pc' m')
    (hunread : c.reader.unread = []) (hunread' : c'.reader.unread = []) :
    (closed = false → c'.returned = c.returned) ∧
      ∀ x ∈ c'.returned.drop c.returned.length, x.outClosed = true := by
  obtain ⟨rfl, rfl⟩ : calls' = calls ∧ pc' = pc := by
    rcases Nat.le_total calls.length calls'.length with hle | hle
    · exact h.same_end h' hle hunread hunread'
    · obtain ⟨hcalls, hpc⟩ := h'.same_end h hle hunread' hunread
      exact ⟨hcalls.symm, hpc.symm⟩
  rw [h.returned, h'.returned]
  refine ⟨fun hopen => ?_, fun x hx => ?_⟩
  · have hm : m = 0 := Nat.eq_zero_of_not_pos fun hm => Bool.noConfusion (hopen.symm.trans (h.atEnd hm).1)
    have hm' : m' = 0 := Nat.eq_zero_of_not_pos fun hm => Bool.noConfusion (hopen.symm.trans (h'.atEnd hm).1)
    rw [hm, hm']
  · rw [List.length_append, List.drop_append] at hx
    simp only [List.length_map, Nat.add_sub_cancel_left] at hx
    rw [List.drop_eq_nil_of_le (by simp), List.nil_append] at hx
    exact outClosed_of_mem_closes (List.mem_of_mem_drop hx)

end Two

/-- However the same stream is cut, and wherever the waits are interrupted, calls of
`Recv` return the same: success, tag, payload and `outClosed`. With the whole
stream taken, there is nothing more to be returned but that the peer has closed. -/
theorem recv_independent_of_pieces (stream : List Byte) (closed : Bool) (es es' : List Event) (c c' : Caller)
    (hd : Meets step (Delivers closed) (Caller.initial stream) es) (he : exec step (Caller.initial stream) es = some c)
    (hd' : Meets step (Delivers closed) (Caller.initial stream) es')
    (he' : exec step (Caller.initial stream) es' = some c') :
    (∀ i, i < c.returned.length → i < c'.returned.length → c.returned[i]? = c'.returned[i]?) ∧
      (c.reader.unread = [] → c'.reader.unread = [] → (closed = false → c'.returned = c.returned) ∧
        ∀ x ∈ c'.returned.drop c.returned.length, x.outClosed = true) := by
  have hfollows : ∀ {es c}, Meets step (Delivers closed) (Caller.initial stream) es →
      exec step (Caller.initial stream) es = some c → Follows stream closed c := fun hm hx =>
    invariant (Follows stream closed) Follows.keep (Follows.initial stream closed) hm hx
  obtain ⟨calls, pc, m, h⟩ := (hfollows hd he).transcript
  obtain ⟨calls', pc', m', h'⟩ := (hfollows hd' he').transcript
  refine ⟨fun i hi hi' => ?_, h.at_end h'⟩
  have hcomparable : c.returned <+: c'.returned ∨ c'.returned <+: c.returned := by
    rcases Nat.le_total calls.length calls'.length with hle | hle
    · exact h.comparable h' hle
    · exact (h'.comparable h hle).symm
  rcases hcomparable with hpre | hpre
  · exact (List.prefix_iff_getElem?.mp hpre i hi).symm ▸ List.getElem?_eq_getElem hi
  · exact (List.prefix_iff_getElem?.mp hpre i hi') ▸ (List.getElem?_eq_getElem hi').symm

/-- A `SlotSetBypass`, a zero length and half a header: byte by byte with
interruptions, or in one piece, and then the peer closes. -/
theorem recv_independent_of_pieces_closed :
    let stream : List Byte := Frame.bytes ⟨0x18, [0, 1]⟩ ++ [0, 0, 0, 0, 3, 0]
    ∃ es es' c c', exec step (Caller.initial stream) es = some c ∧ exec step (Caller.initial stream) es' = some c' ∧
      es ≠ es' ∧ c.returned.length = 3 ∧ c'.returned.length = 3 ∧ c.returned[1]? = c'.returned[1]? := by
  intro stream
  let es : List Event := [.chunk 0, .chunk 0, .pollEintr, .chunk 0, .chunk 0, .chunk 0, .chunk 0, .recvEintr, .chunk 0,
    .chunk 1, .chunk 1, .chunk 0, .chunk 0, .hangup]
  let es' : List Event := [.chunk 99, .chunk 99, .chunk 99, .chunk 99, .chunk 99, .eof]
  obtain ⟨c, hc, hview⟩ := Option.map_eq_some_iff.mp
    (show (exec step (Caller.initial stream) es).map (·.returned.length) = some 3 by decide)
  obtain ⟨c', hc', hview'⟩ := Option.map_eq_some_iff.mp
    (show (exec step (Caller.initial stream) es').map (·.returned.length) = some 3 by decide)
  have hall := recv_independent_of_pieces stream true es es' c c' (meets_of_checks (by decide)) hc
    (meets_of_checks (by decide)) hc'
  exact ⟨es, es', c, c', hc, hc', by decide, hview, hview', hall.1 1 (by omega) (by omega)⟩

end Caller
end Plughost.Ipc.ControlPipe
