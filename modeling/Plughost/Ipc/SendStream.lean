import Plughost.Ipc.ControlPipe
import Plughost.Lib.Runs

/-! The outgoing byte stream: calls of `Send` and `TrySendNonBlocking`, one after
the other under `controlSendMutex`, each with the kernel's answers to it. -/
namespace Plughost.Ipc.ControlPipe
open Plughost.Runs

inductive Call where
  | send (f : Frame) (ks : List Sent)
  | trySend (f : Frame) (inFlight sndBuf : Option Int) (k : Sent)

/-- One call: its frame, what the kernel took of it, and what it returned, if it did. -/
structure Entry where
  frame : Frame
  taken : List Byte
  result : Option Bool
  deriving DecidableEq

def Call.perform (isOpen : Bool) : Call → Entry
  | .send f ks => ⟨f, (ControlPipe.send isOpen f ks).1, (ControlPipe.send isOpen f ks).2⟩
  | .trySend f inFlight sndBuf k =>
    let r := trySendNonBlocking isOpen f inFlight sndBuf k
    ⟨f, r.1, some r.2⟩

/-- The call does not get to `::send`, or the kernel takes no byte before it fails or blocks. -/
def Call.refused (isOpen : Bool) : Call → Bool
  | .send f ks => !isOpen || decide (kMaxPayloadBytes < f.payload.length) || refuses ks
  | .trySend f inFlight sndBuf k => !isOpen || decide (kMaxPayloadBytes < f.payload.length) ||
      wouldBlock inFlight sndBuf (5 + f.payload.length) || refuses [k]

/-- Some but not all of the frame was taken. -/
def Entry.cut (e : Entry) : Prop := e.taken ≠ [] ∧ e.taken ≠ e.frame.bytes

instance (e : Entry) : Decidable e.cut := inferInstanceAs (Decidable (_ ∧ _))

/-- The socket. While a call is blocked in the kernel the mutex stays held. -/
structure Stream where
  isOpen : Bool
  wire : List Byte
  log : List Entry
  blocked : Bool

namespace Stream

def initial (isOpen : Bool) : Stream := ⟨isOpen, [], [], false⟩

def step (s : Stream) (c : Call) : Option Stream :=
  if s.blocked then none
  else
    let e := c.perform s.isOpen
    some { s with wire := s.wire ++ e.taken, log := s.log ++ [e], blocked := e.result.isNone }

/-- The frames of exactly the calls that returned true, in call order. -/
def delivered (s : Stream) : List Frame := (s.log.filter fun e => e.result = some true).map (·.frame)

/-- The stream is the delivered frames, then at most a part of one frame; and
after a part nothing was ever taken again. -/
def Parses (s : Stream) : Prop :=
  (∃ tail, s.wire = s.delivered.flatMap Frame.bytes ++ tail ∧
    (tail = [] ∨ ∃ e ∈ s.log, e.result ≠ some true ∧ tail = e.taken ∧ tail <+: e.frame.bytes)) ∧
  s.log.Pairwise fun a b => a.cut → b.taken = []

/-- Once a frame was cut, the kernel takes nothing of any later call. -/
def Quiet (s : Stream) (c : Call) : Prop := (∃ e ∈ s.log, e.cut) → c.refused s.isOpen = true

instance (s : Stream) (c : Call) : Decidable (Quiet s c) := inferInstanceAs (Decidable (_ → _))

end Stream

/-- What every entry satisfies. -/
structure Entry.Ok (e : Entry) : Prop where
  part : e.taken <+: e.frame.bytes
  whole : e.result = some true ↔ e.taken = e.frame.bytes

private theorem Call.perform_ok (isOpen : Bool) (c : Call) : (c.perform isOpen).Ok := by
  cases c with
  | send f ks =>
    obtain ⟨hpart, hwhole, -⟩ := send_taken isOpen f ks
    exact ⟨hpart, hwhole⟩
  | trySend f inFlight sndBuf k =>
    obtain ⟨hpart, hwhole, -⟩ := trySend_taken isOpen f inFlight sndBuf k
    exact ⟨hpart, by simpa [Call.perform] using hwhole⟩

private theorem Call.taken_nil_iff (isOpen : Bool) (c : Call) :
    (c.perform isOpen).taken = [] ↔ c.refused isOpen = true := by
  cases c with
  | send f ks =>
    obtain ⟨-, -, hnil⟩ := send_taken isOpen f ks
    simpa [Call.perform, Call.refused, or_assoc] using hnil
  | trySend f inFlight sndBuf k =>
    obtain ⟨-, -, hnil⟩ := trySend_taken isOpen f inFlight sndBuf k
    simpa [Call.perform, Call.refused, or_assoc] using hnil

/-- A log in which nothing follows a cut frame reads as whole frames and one part. -/
private theorem taken_of_pairwise {log : List Entry} (hok : ∀ e ∈ log, e.Ok)
    (hpair : log.Pairwise fun a b => a.cut → b.taken = []) :
    ∃ tail, log.flatMap (·.taken) =
        ((log.filter fun e => e.result = some true).map (·.frame)).flatMap Frame.bytes ++ tail ∧
      (tail = [] ∨ ∃ e ∈ log, e.result ≠ some true ∧ tail = e.taken ∧ tail <+: e.frame.bytes) := by
  induction log with
  | nil => exact ⟨[], rfl, .inl rfl⟩
  | cons e log ih =>
    obtain ⟨hfirst, hrest⟩ := List.pairwise_cons.mp hpair
    have he := hok e (List.mem_cons_self ..)
    obtain ⟨tail, htail, hcut⟩ := ih (fun x hx => hok x (List.mem_cons_of_mem e hx)) hrest
    by_cases hwhole : e.taken = e.frame.bytes
    · refine ⟨tail, ?_, hcut.imp_right fun ⟨x, hx, h⟩ => ⟨x, List.mem_cons_of_mem e hx, h⟩⟩
      have hres := he.whole.mpr hwhole
      simp [hres, htail, hwhole]
    · have hres : e.result ≠ some true := fun h => hwhole (he.whole.mp h)
      by_cases hnil : e.taken = []
      · refine ⟨tail, ?_, hcut.imp_right fun ⟨x, hx, h⟩ => ⟨x, List.mem_cons_of_mem e hx, h⟩⟩
        simp [hres, htail, hnil]
      · have hlater : ∀ x ∈ log, x.taken = [] := fun x hx => hfirst x hx ⟨hnil, hwhole⟩
        refine ⟨e.taken, ?_, .inr ⟨e, List.mem_cons_self .., hres, rfl, he.part⟩⟩
        have hnone : ∀ x ∈ log, x.result ≠ some true := by
          intro x hx hr
          have hb := (hok x (List.mem_cons_of_mem e hx)).whole.mp hr
          rw [hlater x hx] at hb
          exact bytes_ne_nil _ hb.symm
        have hfilter : log.filter (fun x => x.result = some true) = [] := by
          simpa [List.filter_eq_nil_iff] using hnone
        have hflat : log.flatMap (·.taken) = [] := by simpa [List.flatMap_eq_nil_iff] using hlater
        simp [hres, hfilter, hflat]

namespace Stream
variable {s t : Stream}

structure Inv (s : Stream) : Prop where
  ok : ∀ e ∈ s.log, e.Ok
  wire : s.wire = s.log.flatMap (·.taken)
  pairwise : s.log.Pairwise fun a b => a.cut → b.taken = []

private theorem Inv.parses (h : Inv s) : s.Parses := by
  obtain ⟨tail, htail, hcut⟩ := taken_of_pairwise h.ok h.pairwise
  exact ⟨⟨tail, by rw [h.wire, htail]; rfl, hcut⟩, h.pairwise⟩

theorem Inv.initial (isOpen : Bool) : Inv (Stream.initial isOpen) :=
  ⟨by simp [Stream.initial], rfl, List.Pairwise.nil⟩

theorem Inv.keep {c : Call} (h : Inv s) (hok : Quiet s c) (hs : s.step c = some t) : Inv t := by
  unfold Stream.step at hs
  split at hs <;> cases hs
  refine ⟨?_, by simp [h.wire], ?_⟩
  · intro e he
    rcases List.mem_append.mp he with he | he
    · exact h.ok e he
    · rw [List.mem_singleton.mp he]
      exact c.perform_ok s.isOpen
  · refine List.pairwise_append.mpr ⟨h.pairwise, List.pairwise_singleton _ _, fun a ha b hb hcut => ?_⟩
    rw [List.mem_singleton.mp hb]
    exact (c.taken_nil_iff s.isOpen).mpr (hok ⟨a, ha, hcut⟩)

private theorem quiet_of_parses {c : Call} (hs : s.step c = some t) (ht : t.Parses) : Quiet s c := by
  unfold Stream.step at hs
  split at hs <;> cases hs
  rintro ⟨a, ha, hcut⟩
  obtain ⟨-, -, hlast⟩ := List.pairwise_append.mp ht.2
  exact (c.taken_nil_iff s.isOpen).mp (hlast a ha _ (List.mem_singleton_self _) hcut)

/-- The outgoing stream parses throughout exactly in the runs where a cut frame
is the last thing the kernel takes. -/
theorem parses_iff_quiet (isOpen : Bool) (cs : List Call) (t : Stream)
    (he : exec step (Stream.initial isOpen) cs = some t) :
    Always step Parses (Stream.initial isOpen) cs ↔ Meets step Quiet (Stream.initial isOpen) cs :=
  always_iff_meets Inv (fun hi hok hs => hi.keep hok hs) Inv.parses
    (fun _ hs ht => quiet_of_parses hs ht) (Inv.initial isOpen) he

/-- A `ParamChanged` of which the kernel takes 7 of 18 bytes, then a reply it takes whole. -/
theorem cut_then_written :
    ∃ cs t, exec step (Stream.initial true) cs = some t ∧ t.log.map (·.result) = [some false, some true] ∧
      t.log.map (·.taken.length) = [7, 7] ∧ ¬ Always step Parses (Stream.initial true) cs := by
  let cs : List Call := [
    .trySend ⟨0x36, [0, 5, 0, 0, 0, 0, 0, 0, 0, 0, 0, 0xe0, 0x3f]⟩ (some 0) (some 212992) (.accepted 7),
    .send ⟨0x17, [0, 0]⟩ [.accepted 5, .accepted 2]]
  obtain ⟨t, ht, hview⟩ := Option.map_eq_some_iff.mp
    (show (exec step (Stream.initial true) cs).map (fun t => (t.log.map (·.result), t.log.map (·.taken.length),
      decide (t.log.Pairwise fun a b => a.cut → b.taken = []))) =
        some ([some false, some true], [7, 7], false) by decide)
  simp only [Prod.mk.injEq] at hview
  obtain ⟨h1, h2, h3⟩ := hview
  exact ⟨cs, t, ht, h1, h2, fun h => of_decide_eq_false h3 (h.end ht).2⟩

/-- Short writes and an interruption within one `Send`, then a drop by the probe. -/
theorem parses_iff_quiet_short_writes :
    ∃ cs t, exec step (Stream.initial true) cs = some t ∧ t.wire = (Frame.mk 0x17 [0, 0]).bytes ∧
      Always step Parses (Stream.initial true) cs := by
  let cs : List Call := [.send ⟨0x17, [0, 0]⟩ [.accepted 3, .eintr, .accepted 2, .accepted 1, .accepted 1],
    .trySend ⟨0x36, [0]⟩ (some 99) (some 200) (.accepted 6)]
  obtain ⟨t, ht, hview⟩ := Option.map_eq_some_iff.mp
    (show (exec step (Stream.initial true) cs).map (·.wire) = some (Frame.mk 0x17 [0, 0]).bytes by decide)
  exact ⟨cs, t, ht, hview, (parses_iff_quiet true cs t ht).mpr (meets_of_checks (by decide))⟩

end Stream

/-- The kernel takes at least a byte of what is left. -/
def Sent.takes : Sent → Bool
  | .accepted (_ + 1) => true
  | _ => false

/-- What the kernel answers to one `Send` on a socket that stays connected and
writable; answers that are not needed are left over. -/
structure Writes (f : Frame) (ks : List Sent) : Prop where
  connected : .error ∉ ks
  writable : f.bytes.length ≤ ks.countP Sent.takes

/-- `Send` does not refuse the frame by its size. -/
def Frame.fits (f : Frame) : Bool := decide (f.payload.length ≤ kMaxPayloadBytes)

/-- Answers that take a byte each are enough for as many bytes. -/
private theorem sendAll_of_takes {data : List Byte} {ks : List Sent} {n : Nat} (hk : .error ∉ ks)
    (hn : data.length + n ≤ ks.countP Sent.takes) :
    ∃ ks', sendAll data ks = (data, some (true, ks')) ∧ .error ∉ ks' ∧ n ≤ ks'.countP Sent.takes := by
  induction ks generalizing data with
  | nil =>
    rw [List.countP_nil] at hn
    obtain rfl := List.eq_nil_of_length_eq_zero (by omega : data.length = 0)
    exact ⟨[], rfl, hk, by simpa using hn⟩
  | cons k ks ih =>
    obtain ⟨hne, hk'⟩ := not_or.mp (fun h => hk (List.mem_cons.mpr h))
    by_cases hdata : data = []
    · subst hdata
      exact ⟨k :: ks, rfl, hk, by simpa using hn⟩
    · unfold sendAll
      rw [if_neg hdata]
      cases k with
      | error => exact absurd rfl hne
      | eintr => exact ih hk' hn
      | accepted m =>
        have hrest : (data.drop m).length + n ≤ ks.countP Sent.takes := by
          have hpos := List.length_pos_iff.mpr hdata
          cases m with
          | zero => exact hn
          | succ m =>
            rw [List.countP_cons_of_pos rfl] at hn
            rw [List.length_drop]
            omega
        obtain ⟨ks', heq, herr, hleft⟩ := ih hk' hrest
        refine ⟨ks', ?_, herr, hleft⟩
        simp only [heq, List.take_append_drop]

/-- On such a socket `Send` puts the whole frame on the wire, or refuses it. -/
private theorem send_of_writes {f : Frame} {ks : List Sent} (h : Writes f ks) :
    send true f ks = if f.fits then (f.bytes, some true) else ([], some false) := by
  unfold send Frame.fits
  by_cases hbig : kMaxPayloadBytes < f.payload.length
  · simp [hbig, not_le.mpr hbig]
  · have hwhole := h.writable
    rw [Frame.bytes, List.length_append] at hwhole
    obtain ⟨ks', hheader, herr, hleft⟩ := sendAll_of_takes h.connected hwhole
    obtain ⟨ks'', hpayload, -, -⟩ := sendAll_of_takes (n := 0) herr hleft
    simp [hbig, hheader, hpayload, not_lt.mp hbig, Frame.bytes]

namespace Stream
variable {s : Stream}

/-- Nothing but whole frames has gone out, and the next call can write. -/
structure Clean (s : Stream) : Prop where
  isOpen : s.isOpen = true
  free : s.blocked = false
  wire : s.wire = s.delivered.flatMap Frame.bytes

theorem Clean.initial : Clean (Stream.initial true) := ⟨rfl, rfl, rfl⟩

/-- One `Send` delivers a frame that fits. -/
theorem Clean.send {f : Frame} {ks : List Sent} (h : Clean s) (hk : Writes f ks) :
    ∃ t, s.step (.send f ks) = some t ∧ Clean t ∧ t.delivered = s.delivered ++ [f].filter Frame.fits := by
  have hperform : (Call.send f ks).perform s.isOpen =
      if f.fits then ⟨f, f.bytes, some true⟩ else ⟨f, [], some false⟩ := by
    rw [Call.perform, h.isOpen, send_of_writes hk]
    cases f.fits <;> rfl
  unfold Stream.step
  rw [h.free, hperform]
  refine ⟨_, rfl, ?_⟩
  cases hf : f.fits with
  | true =>
    have hdelivered : delivered
        { s with wire := s.wire ++ f.bytes, log := s.log ++ [⟨f, f.bytes, some true⟩], blocked := false } =
        s.delivered ++ [f] := by
      simp [delivered]
    refine ⟨⟨h.isOpen, rfl, ?_⟩, ?_⟩
    · refine Eq.trans ?_ (congrArg (List.flatMap Frame.bytes) hdelivered.symm)
      simp [h.wire]
    · simpa [hf] using hdelivered
  | false =>
    have hdelivered : delivered
        { s with wire := s.wire ++ [], log := s.log ++ [⟨f, [], some false⟩], blocked := false } = s.delivered := by
      simp [delivered]
    refine ⟨⟨h.isOpen, rfl, ?_⟩, ?_⟩
    · refine Eq.trans ?_ (congrArg (List.flatMap Frame.bytes) hdelivered.symm)
      simp [h.wire]
    · simpa [hf] using hdelivered

/-- One `Send` after the other delivers the frames that fit, in order. -/
theorem Clean.sends {kernel : Frame → List Sent} (hk : ∀ f, Writes f (kernel f)) (h : Clean s) (fs : List Frame) :
    ∃ t, exec step s (fs.map fun f => .send f (kernel f)) = some t ∧ Clean t ∧
      t.delivered = s.delivered ++ fs.filter Frame.fits := by
  induction fs generalizing s with
  | nil => exact ⟨s, rfl, h, by simp⟩
  | cons f fs ih =>
    obtain ⟨u, hu, hclean, hd⟩ := h.send (hk f)
    obtain ⟨t, ht, hclean', hd'⟩ := ih hclean
    refine ⟨t, ?_, hclean', ?_⟩
    · rw [List.map_cons, exec, hu]
      exact ht
    · rw [hd', hd, List.append_assoc, ← List.filter_append, List.singleton_append]

end Stream
end Plughost.Ipc.ControlPipe
