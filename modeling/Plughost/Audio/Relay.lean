import Plughost.Audio.Passthrough

/-! The audio loop as an accounted relay: what the output ring received is the
released input, in order, less the blocks that met a full output ring. -/
namespace Plughost.Audio
open Plughost.Runs Plughost.Ipc Plughost.Vst3
variable {O α : Type}

/-- The blocks the loop is promised: mono within the block size, or any other
channel count whose payload fits the slots. -/
def Admissible (cfg : Config) (b : Block α) : Prop :=
  b.channels = 1 ∧ 1 ≤ b.frames.toNat ∧ b.frames.toNat ≤ cfg.maxBlockSize ∨
  b.channels ≠ 1 ∧ b.frames.toNat * b.channels.toNat * 4 ≤ Loop.payloadRoom cfg.inputRing ∧
    b.frames.toNat * b.channels.toNat * 4 ≤ Loop.payloadRoom cfg.outputRing

/-- The samples of the output payload: the chain's for a mono block that met a
chain, whatever the slot held before, and the input's otherwise. -/
def PayloadOf (proc : SlotFormat → Processor O α) (chain : Option (PluginChain O α))
    (b out : Block α) : Prop :=
  let n := b.frames.toNat * b.channels.toNat
  match chain with
  | some ch =>
    if b.channels = 1 then
      ∀ stale, window n out.payload = window n (ch.process proc b.payload stale b.frames.toInt).out
    else window n out.payload = window n b.payload
  | none => window n out.payload = window n b.payload

/-- `out` is the block the loop makes of `b` with that chain. -/
structure RelayOf (proc : SlotFormat → Processor O α) (chain : Option (PluginChain O α))
    (b out : Block α) : Prop where
  seq : out.seq = b.seq
  frames : out.frames = b.frames
  channels : out.channels = b.channels
  sampleRate : out.sampleRate = b.sampleRate
  flags : out.flags = b.flags
  reserved : out.reserved = List.replicate 40 0
  payload : PayloadOf proc chain b out

/-- The outputs are the relayed inputs in order; the others each met a full ring. -/
inductive Relays (cfg : Config) (proc : SlotFormat → Processor O α) :
    List (Block α) → List (Verdict O α) → List (Block α) → Prop where
  | nil : Relays cfg proc [] [] []
  | dropped {ins vs outs} (b : Block α) {head tail : BitVec 64} (h : Relays cfg proc ins vs outs)
      (full : (head - tail).toNat = cfg.outputRing.slotCount.toNat) :
      Relays cfg proc (ins ++ [b]) (vs ++ [.dropped head tail]) outs
  | relayed {ins vs outs} {chain : Option (PluginChain O α)} {b out : Block α}
      (h : Relays cfg proc ins vs outs) (made : RelayOf proc chain b out) :
      Relays cfg proc (ins ++ [b]) (vs ++ [.relayed chain]) (outs ++ [out])

/-- The outputs are one for each verdict that is no drop. -/
theorem Relays.length_outs {cfg : Config} {proc : SlotFormat → Processor O α} {ins outs : List (Block α)}
    {vs : List (Verdict O α)} (h : Relays cfg proc ins vs outs) :
    outs.length = vs.countP fun v => !v.isDropped := by
  induction h with
  | nil => rfl
  | dropped b h full ih => simp [ih, Verdict.isDropped]
  | relayed h made ih => simp [ih, Verdict.isDropped]

theorem Relays.length_ins {cfg : Config} {proc : SlotFormat → Processor O α} {ins outs : List (Block α)}
    {vs : List (Verdict O α)} (h : Relays cfg proc ins vs outs) : ins.length = vs.length := by
  induction h with
  | nil => rfl
  | dropped b h full ih => simp [ih]
  | relayed h made ih => simp [ih]

/-- What the code has decided but not yet carried out or counted. -/
structure Owes where
  release : Nat
  dropped : BitVec 64
  processed : BitVec 64
  posts : Nat

namespace Pc

def owes : Pc → Owes
  | .dropTail | .dropStore => ⟨1, 1, 0, 0⟩
  | .dropCount => ⟨0, 1, 0, 0⟩
  | .releaseTail | .releaseStore => ⟨1, 0, 1, 1⟩
  | .count => ⟨0, 0, 1, 1⟩
  | .signal => ⟨0, 0, 0, 1⟩
  | _ => ⟨0, 0, 0, 0⟩

/-- Fields of the output block written so far, at a point between `Acquire` and `Publish`. -/
def copied : Pc → Option Nat
  | .copySeq => some 0
  | .copyFrames => some 1
  | .copyChannels => some 2
  | .copySampleRate => some 3
  | .copyFlags => some 4
  | .zeroReserved => some 5
  | .payload => some 6
  | .publishHead | .publishStore => some 7
  | _ => none

/-- Where the loop stands in the input ring's `Read` / `Release`. -/
def InputSide (c : Consumer) : Pc → Prop
  | .readHead => ∃ tail, c = .reading tail
  | .dropStore | .releaseStore => ∃ slot tail, c = .releasing slot tail
  | .checkStop | .checkControl | .wait | .readTail | .dropCount | .count | .signal | .returned
  | .fault => c = .idle
  | _ => ∃ slot, c = .holding slot

/-- Where the loop stands in the output ring's `Acquire` / `Publish`. -/
def OutputSide (p : Producer) : Pc → Prop
  | .acquireTail => ∃ head, p = .acquiring head
  | .copySeq | .copyFrames | .copyChannels | .copySampleRate | .copyFlags | .zeroReserved | .payload
  | .publishHead => ∃ slot, p = .filling slot
  | .publishStore => ∃ slot head, p = .publishing slot head
  | _ => p = .idle

end Pc

/-- The first `k` fields of the output block are in place. -/
structure Copied (proc : SlotFormat → Processor O α) (chain : Option (PluginChain O α)) (b out : Block α)
    (k : Nat) : Prop where
  seq : 0 < k → out.seq = b.seq
  frames : 1 < k → out.frames = b.frames
  channels : 2 < k → out.channels = b.channels
  sampleRate : 3 < k → out.sampleRate = b.sampleRate
  flags : 4 < k → out.flags = b.flags
  reserved : 5 < k → out.reserved = List.replicate 40 0
  payload : 6 < k → PayloadOf proc chain b out

/-- The books: verdicts against blocks, and counters against verdicts. -/
structure Ledger (cfg : Config) (proc : SlotFormat → Processor O α) (queue input output : List (Block α))
    (released : Nat) (verdicts : List (Verdict O α)) (owes : Owes) (dropped processed : BitVec 64)
    (posts : Nat) : Prop where
  relays : ∃ outs, output = queue ++ outs ∧ Relays cfg proc (input.take verdicts.length) verdicts outs
  examined : verdicts.length = released + owes.release
  dropped : dropped + owes.dropped = BitVec.ofNat 64 (verdicts.countP Verdict.isDropped)
  processed : processed + owes.processed = BitVec.ofNat 64 (verdicts.countP fun v => !v.isDropped)
  posts : posts + owes.posts = verdicts.countP fun v => !v.isDropped

namespace Ledger
variable {cfg : Config} {proc : SlotFormat → Processor O α} {queue input output : List (Block α)}
  {released posts : Nat} {verdicts : List (Verdict O α)} {owes : Owes} {dropped processed : BitVec 64}

/-- Input published later changes no entry. -/
private theorem grow (h : Ledger cfg proc queue input output released verdicts owes dropped processed posts)
    {input' : List (Block α)} (hpre : input <+: input') :
    Ledger cfg proc queue input' output released verdicts owes dropped processed posts := by
  obtain ⟨outs, hout, hr⟩ := h.relays
  obtain ⟨more, rfl⟩ := hpre
  have hlen := hr.length_ins
  rw [List.length_take] at hlen
  refine { h with relays := ⟨outs, hout, ?_⟩ }
  rwa [List.take_append_of_le_length (by omega)]

/-- The block under examination is dropped; its release and its count are owed. -/
theorem drop (h : Ledger cfg proc queue input output released verdicts ⟨0, 0, 0, 0⟩ dropped processed posts)
    {b : Block α} {head tail : BitVec 64} (hb : input[released]? = some b)
    (full : (head - tail).toNat = cfg.outputRing.slotCount.toNat) :
    Ledger cfg proc queue input output released (verdicts ++ [.dropped head tail]) ⟨1, 1, 0, 0⟩
      dropped processed posts := by
  obtain ⟨outs, hout, hr⟩ := h.relays
  have hlen : verdicts.length = released := h.examined
  have hd := h.dropped
  have hp := h.processed
  have hs := h.posts
  refine ⟨⟨outs, hout, ?_⟩, by simpa using hlen, ?_, ?_, ?_⟩
  · rw [List.length_append, List.length_singleton, List.take_add_one, hlen, hb, ← hlen]
    exact hr.dropped b full
  · simpa [Verdict.isDropped, BitVec.ofNat_add] using hd
  · simpa [Verdict.isDropped] using hp
  · simpa [Verdict.isDropped] using hs

/-- The block under examination is relayed; release, count and signal are owed. -/
private theorem relay (h : Ledger cfg proc queue input output released verdicts ⟨0, 0, 0, 0⟩ dropped processed posts)
    {b out : Block α} {chain : Option (PluginChain O α)} (hb : input[released]? = some b)
    (made : RelayOf proc chain b out) :
    Ledger cfg proc queue input (output ++ [out]) released (verdicts ++ [.relayed chain]) ⟨1, 0, 1, 1⟩
      dropped processed posts := by
  obtain ⟨outs, hout, hr⟩ := h.relays
  have hlen : verdicts.length = released := h.examined
  have hd := h.dropped
  have hp := h.processed
  have hs := h.posts
  refine ⟨⟨outs ++ [out], by rw [hout, List.append_assoc], ?_⟩, by simpa using hlen, ?_, ?_, ?_⟩
  · rw [List.length_append, List.length_singleton, List.take_add_one, hlen, hb, ← hlen]
    exact hr.relayed made
  · simpa [Verdict.isDropped] using hd
  · simpa [Verdict.isDropped, BitVec.ofNat_add] using hp
  · simpa [Verdict.isDropped] using hs

theorem release {d p : BitVec 64} {n : Nat}
    (h : Ledger cfg proc queue input output released verdicts ⟨1, d, p, n⟩ dropped processed posts) :
    Ledger cfg proc queue input output (released + 1) verdicts ⟨0, d, p, n⟩ dropped processed posts :=
  { h with examined := h.examined }

private theorem countDropped {r n : Nat} {p : BitVec 64}
    (h : Ledger cfg proc queue input output released verdicts ⟨r, 1, p, n⟩ dropped processed posts) :
    Ledger cfg proc queue input output released verdicts ⟨r, 0, p, n⟩ (dropped + 1) processed posts :=
  { h with dropped := by simpa using h.dropped }

private theorem countProcessed {r n : Nat} {d : BitVec 64}
    (h : Ledger cfg proc queue input output released verdicts ⟨r, d, 1, n⟩ dropped processed posts) :
    Ledger cfg proc queue input output released verdicts ⟨r, d, 0, n⟩ dropped (processed + 1) posts :=
  { h with processed := by simpa using h.processed }

theorem signal {r : Nat} {d p : BitVec 64}
    (h : Ledger cfg proc queue input output released verdicts ⟨r, d, p, 1⟩ dropped processed posts) :
    Ledger cfg proc queue input output released verdicts ⟨r, d, p, 0⟩ dropped processed (posts + 1) :=
  { h with posts := by simpa using h.posts }

end Ledger

namespace Loop

theorem payloadBytes_toNat (b : Block α) :
    (payloadBytes b).toNat = b.frames.toNat * b.channels.toNat * 4 % 2^64 := by
  have hf := b.frames.isLt
  have hc := b.channels.isLt
  unfold payloadBytes
  rw [BitVec.toNat_mul, BitVec.toNat_mul, BitVec.toNat_setWidth, BitVec.toNat_setWidth,
    Nat.mod_eq_of_lt (show b.frames.toNat < 2^64 by omega),
    Nat.mod_eq_of_lt (show b.channels.toNat < 2^64 by omega), Nat.mod_mul_mod]
  rfl

/-- Both rings as the host left them, with blocks waiting in either, before the
audio thread's first step. -/
def initial (input output : ShmRing (Block α)) (chain : Option (PluginChain O α)) (inputPosts : Nat) :
    Loop O α :=
  { input, output, chain, inputPosts, outputPosts := 0, stopFlag := false, controlStopFlag := false,
    processed := 0, dropped := 0, pc := .checkStop, current := none, verdicts := [] }

/-- The invariant of the loop. -/
structure Inv (cfg : Config) (proc : SlotFormat → Processor O α) (cIn cOut : BitVec 64)
    (queue : List (Block α)) (s : Loop O α) : Prop where
  input : ShmRing.Inv cfg.inputRing cIn s.input
  output : ShmRing.Inv cfg.outputRing cOut s.output
  chainSize : ∀ ch, s.chain = some ch → ch.maxBlockSize = cfg.maxBlockSize
  inputSide : s.pc.InputSide s.input.consumer
  outputSide : s.pc.OutputSide s.output.producer
  running : s.pc ≠ .fault
  copied : ∀ k slot b, s.pc.copied = some k → s.output.acquiredSlot = some slot →
    s.input.published[s.input.obtained.length]? = some b →
      Copied proc s.current b (s.output.slots slot) k
  ledger : Ledger cfg proc queue s.input.published s.output.published s.input.obtained.length
    s.verdicts s.pc.owes s.dropped s.processed s.outputPosts

namespace Inv
variable {cfg : Config} {proc : SlotFormat → Processor O α} {cIn cOut : BitVec 64}
  {queue : List (Block α)} {s t : Loop O α} {b : Block α}

/-- What the loop reads through `in` is the oldest block not yet released. -/
theorem held_block (h : Inv cfg proc cIn cOut queue s) (hb : s.held = some b) :
    s.input.published[s.input.obtained.length]? = some b := by
  unfold Loop.held at hb
  split at hb <;> cases hb
  rename_i slot hcon
  exact (h.input.safe.read slot (by simp [ShmRing.readSlot, hcon])).2.2

/-- One write of the output block that brings it from `k` to `k + 1` fields. -/
theorem write (h : Inv cfg proc cIn cOut queue s) {k : Nat} {next : Pc}
    {chain current : Option (PluginChain O α)} {write : Block α → Block α}
    {input output : ShmRing (Block α)} (hheld : s.held = some b) (hlook : s.input.look = some input)
    (hfill : s.output.fill write = some output) (hk : s.pc.copied = some k)
    (hnext : next.copied = some (k + 1)) (hin : next.InputSide s.input.consumer)
    (hout : next.OutputSide s.output.producer)
    (hledger : Ledger cfg proc queue s.input.published s.output.published s.input.obtained.length
      s.verdicts next.owes s.dropped s.processed s.outputPosts)
    (hsize : ∀ ch, chain = some ch → ch.maxBlockSize = cfg.maxBlockSize)
    (hwrite : ∀ out, Copied proc s.current b out k → Copied proc current b (write out) (k + 1)) :
    Inv cfg proc cIn cOut queue { s with input, output, chain, current, pc := next } := by
  have hblock := h.held_block hheld
  have hinput := h.input.look hlook
  have houtput := h.output.fill hfill
  obtain ⟨islot, hcon, rfl⟩ := ShmRing.look_cases hlook
  obtain ⟨oslot, hprod, rfl⟩ := ShmRing.fill_cases hfill
  have hacq : s.output.acquiredSlot = some oslot := by simp [ShmRing.acquiredSlot, hprod]
  refine ⟨hinput, houtput, hsize, hin, hout, ?_, ?_, hledger⟩
  · rintro rfl
    cases hnext
  · intro k' slot b' hk' hslot hb'
    obtain rfl : k + 1 = k' := by rw [hnext] at hk'; exact Option.some.inj hk'
    obtain rfl : oslot = slot := by
      change s.output.acquiredSlot = some slot at hslot
      rw [hacq] at hslot
      exact Option.some.inj hslot
    obtain rfl : b = b' := by
      change s.input.published[s.input.obtained.length]? = some b' at hb'
      rw [hblock] at hb'
      exact Option.some.inj hb'
    simpa using hwrite _ (h.copied k oslot b hk hacq hblock)

theorem copy_cases {write : Block α → Block α → Block α} {next : Pc} (hs : s.copy write next = some t) :
    ∃ b input output, s.held = some b ∧ s.input.look = some input ∧
      s.output.fill (write b) = some output ∧ t = { s with input, output, pc := next } := by
  unfold Loop.copy at hs
  split at hs
  · cases hs
  · rename_i b hb
    obtain ⟨input, hi, hs⟩ := Option.bind_eq_some_iff.mp hs
    obtain ⟨output, ho, rfl⟩ := Option.map_eq_some_iff.mp hs
    exact ⟨b, input, output, hb, hi, ho, rfl⟩

/-- The payload step runs out of the slots, or writes a payload behind the header. -/
inductive Dispatched (s : Loop O α) : Loop O α → Prop where
  | fault : Dispatched s { s with pc := .fault }
  | written {b : Block α} {input output : ShmRing (Block α)} {write : Block α → Block α}
    {chain : Option (PluginChain O α)} (held : s.held = some b) (look : s.input.look = some input)
    (fill : s.output.fill write = some output) (header : ∀ out, (write out).toBlockHeader = out.toBlockHeader)
    (size : ∀ c, chain = some c → ∃ ch, s.chain = some ch ∧ c.maxBlockSize = ch.maxBlockSize) :
    Dispatched s { s with input, output, chain, current := s.chain, pc := .publishHead }

private theorem dispatched_copyPayload {b : Block α} (hs : s.copyPayload cfg b = some t) : Dispatched s t := by
  unfold Loop.copyPayload at hs
  split at hs
  · obtain ⟨u, hu, rfl⟩ := Option.map_eq_some_iff.mp hs
    obtain ⟨b, input, output, hb, hi, ho, rfl⟩ := copy_cases hu
    exact .written hb hi ho (fun _ => rfl) fun c hc => ⟨c, hc, rfl⟩
  · cases hs
    exact .fault

private theorem dispatched_runChain {b : Block α} {ch : PluginChain O α} (hch : s.chain = some ch)
    (hs : s.runChain cfg proc ch b = some t) : Dispatched s t := by
  unfold Loop.runChain at hs
  split at hs
  · obtain ⟨slot, -, hs⟩ := Option.bind_eq_some_iff.mp hs
    obtain ⟨u, hu, rfl⟩ := Option.map_eq_some_iff.mp hs
    obtain ⟨b', input, output, hb, hi, ho, rfl⟩ := copy_cases hu
    obtain ⟨ch', y, hsize, hran⟩ := PluginChain.process_overwrites proc ch b.payload b.frames.toInt
    rw [← hch]
    refine .written hb hi ho (fun _ => rfl) fun c hc => ⟨ch, hch, ?_⟩
    cases hc
    rw [(hran _).1, hsize]
  · cases hs
    exact .fault

theorem dispatched (hs : s.dispatch cfg proc = some t) : Dispatched s t := by
  unfold Loop.dispatch at hs
  split at hs
  · cases hs
  · rename_i hch
    split at hs
    · exact dispatched_runChain hch hs
    · exact dispatched_copyPayload hs
  · exact dispatched_copyPayload hs

/-- The header copies. -/
theorem copy (h : Inv cfg proc cIn cOut queue s) {k : Nat} {next : Pc}
    {write : Block α → Block α → Block α} (hs : s.copy write next = some t)
    (hk : s.pc.copied = some k)
    (hnext : next.copied = some (k + 1)) (hin : next.InputSide s.input.consumer)
    (hout : next.OutputSide s.output.producer)
    (hledger : Ledger cfg proc queue s.input.published s.output.published s.input.obtained.length
      s.verdicts next.owes s.dropped s.processed s.outputPosts)
    (hwrite : ∀ b out, Copied proc s.current b out k → Copied proc s.current b (write b out) (k + 1)) :
    Inv cfg proc cIn cOut queue t := by
  obtain ⟨b, input, output, hb, hi, ho, rfl⟩ := copy_cases hs
  exact h.write hb hi ho hk hnext hin hout hledger h.chainSize (hwrite b)

/-- A mono block within the block size has the frame count the chain is given. -/
private theorem mono_frames (ha : Admissible cfg b) (hmono : b.channels = 1) :
    b.frames.toInt = b.frames.toNat ∧ 1 ≤ b.frames.toNat ∧ b.frames.toNat ≤ cfg.maxBlockSize := by
  rcases ha with ⟨-, h1, h2⟩ | ⟨hne, -⟩
  · have := cfg.inputFits
    have := cfg.inputRing.slotBytes.isLt
    exact ⟨BitVec.toInt_eq_toNat_of_lt (by omega), h1, h2⟩
  · exact absurd hmono hne

/-- The chain run is in bounds, and its output is what the chain makes of the input. -/
theorem runChain (h : Inv cfg proc cIn cOut queue s) {ch : PluginChain O α}
    (hpc : s.pc = .payload) (hch : s.chain = some ch) (hheld : s.held = some b)
    (ha : Admissible cfg b) (hmono : b.channels = 1) (hs : s.runChain cfg proc ch b = some t) :
    Inv cfg proc cIn cOut queue t := by
  have hin := h.inputSide
  have hout := h.outputSide
  have hl := h.ledger
  rw [hpc] at hin hout hl
  obtain ⟨hint, h1, h2⟩ := mono_frames ha hmono
  have hmax := h.chainSize ch hch
  have hfits : 4 * chainSamples ch b ≤ payloadRoom cfg.inputRing ∧
      4 * chainSamples ch b ≤ payloadRoom cfg.outputRing := by
    have := cfg.inputFits
    have := cfg.outputFits
    unfold chainSamples payloadRoom
    omega
  have hran := fun out => Vst3.PluginChain.processed proc ch b.payload out (show 1 ≤ b.frames.toInt by omega) (by omega)
  unfold Loop.runChain at hs
  rw [if_pos hfits] at hs
  obtain ⟨slot, hslot, hs⟩ := Option.bind_eq_some_iff.mp hs
  obtain ⟨u, hu, rfl⟩ := Option.map_eq_some_iff.mp hs
  obtain ⟨b', input, output, hb', hi, ho, rfl⟩ := copy_cases hu
  refine h.write hheld hi ho (k := 6) (by rw [hpc]; rfl) rfl hin hout hl ?_ ?_
  · intro ch' hch'
    cases hch'
    rw [(hran _).setup.maxBlockSize, hmax]
  · intro out hc
    refine ⟨fun _ => hc.seq (by decide), fun _ => hc.frames (by decide), fun _ => hc.channels (by decide),
      fun _ => hc.sampleRate (by decide), fun _ => hc.flags (by decide), fun _ => hc.reserved (by decide), ?_⟩
    intro _
    have hn : b.frames.toNat * b.channels.toNat = b.frames.toInt.toNat := by
      rw [hmono, hint]
      simp
    simp only [PayloadOf, hmono, if_true]
    intro stale
    rw [hmono] at hn
    rw [hn, (hran _).samples, (hran stale).samples]

/-- The promise keeps `frames * channels * sizeof(float)` from overflowing, and in bounds. -/
private theorem payloadBytes_eq (h : Admissible cfg b) :
    (payloadBytes b).toNat = 4 * (b.frames.toNat * b.channels.toNat) ∧
      (payloadBytes b).toNat ≤ payloadRoom cfg.inputRing ∧
      (payloadBytes b).toNat ≤ payloadRoom cfg.outputRing := by
  have hfits : b.frames.toNat * b.channels.toNat * 4 ≤ payloadRoom cfg.inputRing ∧
      b.frames.toNat * b.channels.toNat * 4 ≤ payloadRoom cfg.outputRing := by
    rcases h with ⟨hmono, -, hmax⟩ | ⟨-, hin, hout⟩
    · have := cfg.inputFits
      have := cfg.outputFits
      rw [hmono]
      unfold payloadRoom
      simp only [BitVec.ofNat_eq_ofNat, BitVec.toNat_ofNat]
      omega
    · exact ⟨hin, hout⟩
  have hsmall : b.frames.toNat * b.channels.toNat * 4 < 2^64 := by
    have := cfg.inputRing.slotBytes.isLt
    have := hfits.1
    unfold payloadRoom at this
    omega
  have heq : (payloadBytes b).toNat = b.frames.toNat * b.channels.toNat * 4 := by
    rw [payloadBytes_toNat]
    exact Nat.mod_eq_of_lt hsmall
  rw [heq]
  exact ⟨by omega, hfits⟩

/-- The plain copy is in bounds, and moves exactly the payload. -/
theorem copyPayload (h : Inv cfg proc cIn cOut queue s) (hpc : s.pc = .payload)
    (hheld : s.held = some b) (ha : Admissible cfg b)
    (hplain : ∀ ch, s.chain = some ch → b.channels ≠ 1) (hs : s.copyPayload cfg b = some t) :
    Inv cfg proc cIn cOut queue t := by
  have hin := h.inputSide
  have hout := h.outputSide
  have hl := h.ledger
  rw [hpc] at hin hout hl
  obtain ⟨hbytes, hfits⟩ := payloadBytes_eq ha
  unfold Loop.copyPayload at hs
  rw [if_pos hfits] at hs
  obtain ⟨u, hu, rfl⟩ := Option.map_eq_some_iff.mp hs
  obtain ⟨b', input, output, hb', hi, ho, rfl⟩ := copy_cases hu
  obtain rfl : b = b' := by rw [hheld] at hb'; exact Option.some.inj hb'
  refine h.write hheld hi ho (k := 6) (by rw [hpc]; rfl) rfl hin hout hl h.chainSize fun out hc => ?_
  refine ⟨fun _ => hc.seq (by decide), fun _ => hc.frames (by decide), fun _ => hc.channels (by decide),
    fun _ => hc.sampleRate (by decide), fun _ => hc.flags (by decide), fun _ => hc.reserved (by decide), ?_⟩
  intro _
  have hn : (payloadBytes b).toNat / 4 = b.frames.toNat * b.channels.toNat := by omega
  rw [hn]
  cases hch : s.chain with
  | none => exact window_memcpy _ _ _
  | some ch =>
    simp only [PayloadOf]
    rw [if_neg (hplain ch hch)]
    exact window_memcpy _ _ _

theorem dispatch (h : Inv cfg proc cIn cOut queue s) (hpc : s.pc = .payload)
    (ha : ∀ b ∈ s.input.published, Admissible cfg b) (hs : s.dispatch cfg proc = some t) :
    Inv cfg proc cIn cOut queue t := by
  unfold Loop.dispatch at hs
  split at hs
  · cases hs
  · rename_i b ch hb hch
    have hadm := ha b (List.mem_of_getElem? (h.held_block hb))
    split at hs
    · exact h.runChain hpc hch hb hadm ‹_› hs
    · exact h.copyPayload hpc hb hadm (fun _ _ => ‹_›) hs
  · rename_i b hb hch
    have hadm := ha b (List.mem_of_getElem? (h.held_block hb))
    exact h.copyPayload hpc hb hadm (by simp [hch]) hs

/-- The audio thread's own words move; both rings stay as they are. -/
theorem move (h : Inv cfg proc cIn cOut queue s) {next : Pc} {processed dropped : BitVec 64}
    {inputPosts outputPosts : Nat} (hin : next.InputSide s.input.consumer)
    (hout : next.OutputSide s.output.producer) (hcopied : next.copied = none)
    (hrun : next ≠ .fault)
    (hledger : Ledger cfg proc queue s.input.published s.output.published s.input.obtained.length
      s.verdicts next.owes dropped processed outputPosts) :
    Inv cfg proc cIn cOut queue { s with pc := next, processed, dropped, inputPosts, outputPosts } :=
  ⟨h.input, h.output, h.chainSize, hin, hout, hrun,
    fun k _ _ hk => (by simp [hcopied] at hk), hledger⟩

/-- The audio thread's steps on the input ring that are no slot access. -/
theorem inputStep (h : Inv cfg proc cIn cOut queue s) {a : ConsumerAct} {input : ShmRing (Block α)}
    {next : Pc} (hs : s.input.consume cfg.inputRing a = some input)
    (hin : next.InputSide input.consumer) (hout : next.OutputSide s.output.producer)
    (hcopied : next.copied = none) (hrun : next ≠ .fault)
    (hledger : Ledger cfg proc queue s.input.published s.output.published input.obtained.length
      s.verdicts next.owes s.dropped s.processed s.outputPosts) :
    Inv cfg proc cIn cOut queue { s with input, pc := next } := by
  obtain ⟨-, -, hpub⟩ := ShmRing.consume_frame hs
  refine ⟨h.input.consume hs, h.output, h.chainSize, hin, hout, hrun,
    fun k _ _ hk => (by simp [hcopied] at hk), ?_⟩
  dsimp only
  rwa [hpub]

/-- Acquiring a slot, or dropping the block because the output ring is full. -/
theorem acquireTail (h : Inv cfg proc cIn cOut queue s) (hpc : s.pc = .acquireTail)
    {output : ShmRing (Block α)} (hs : s.output.acquireTail cfg.outputRing = some output) :
    Inv cfg proc cIn cOut queue (if output.producer = .idle then { s with
        output, verdicts := s.verdicts ++ [.dropped s.output.head s.output.tail], pc := .dropTail }
      else { s with output, pc := .copySeq }) := by
  have hin := h.inputSide
  have hl := h.ledger
  rw [hpc] at hin hl
  obtain ⟨islot, hcon⟩ := hin
  obtain ⟨b, hb⟩ : ∃ b, s.held = some b := by simp [Loop.held, hcon]
  have hblock := h.held_block hb
  have houtput := h.output.acquireTail hs
  have hrefused := h.output.refused hs
  obtain ⟨head, -, ⟨-, rfl⟩ | ⟨-, rfl⟩⟩ := ShmRing.acquireTail_cases hs
  · rw [if_pos rfl]
    exact ⟨h.input, houtput, h.chainSize, ⟨islot, hcon⟩, rfl, nofun, nofun,
      hl.drop hblock (hrefused rfl)⟩
  · rw [if_neg (by simp)]
    refine ⟨h.input, houtput, h.chainSize, ⟨islot, hcon⟩, ⟨_, rfl⟩, nofun, ?_, hl⟩
    intro k slot b hk
    cases hk
    intros
    constructor <;> intro hlt <;> omega

theorem publishHead (h : Inv cfg proc cIn cOut queue s) (hpc : s.pc = .publishHead)
    {output : ShmRing (Block α)} (hs : s.output.publishHead = some output) :
    Inv cfg proc cIn cOut queue { s with output, pc := .publishStore } := by
  have hin := h.inputSide
  have hl := h.ledger
  have hc := h.copied
  rw [hpc] at hin hl hc
  have houtput := h.output.publishHead hs
  obtain ⟨slot, hprod, rfl⟩ := ShmRing.publishHead_cases hs
  refine ⟨h.input, houtput, h.chainSize, hin, ⟨_, _, rfl⟩, nofun, ?_, hl⟩
  intro k slot' b hk hslot hb
  exact hc k slot' b hk (by rw [← hslot]; simp [ShmRing.acquiredSlot, hprod]) hb

/-- What is published is the relayed block, complete. -/
theorem publishStore (h : Inv cfg proc cIn cOut queue s) (hpc : s.pc = .publishStore)
    {output : ShmRing (Block α)} (hs : s.output.publishStore = some output) :
    Inv cfg proc cIn cOut queue { s with
      output, verdicts := s.verdicts ++ [.relayed s.current], pc := .releaseTail } := by
  have hin := h.inputSide
  have hl := h.ledger
  have hc := h.copied
  rw [hpc] at hin hl hc
  obtain ⟨islot, hcon⟩ := hin
  obtain ⟨b, hb⟩ : ∃ b, s.held = some b := by simp [Loop.held, hcon]
  have hblock := h.held_block hb
  have houtput := h.output.publishStore hs
  obtain ⟨slot, head, hprod, rfl⟩ := ShmRing.publishStore_cases hs
  have hdone := hc 7 slot b rfl (by simp [ShmRing.acquiredSlot, hprod]) hblock
  refine ⟨h.input, houtput, h.chainSize, ⟨islot, hcon⟩, rfl, nofun, nofun, ?_⟩
  exact hl.relay hblock ⟨hdone.seq (by decide), hdone.frames (by decide), hdone.channels (by decide),
    hdone.sampleRate (by decide), hdone.flags (by decide), hdone.reserved (by decide), hdone.payload (by decide)⟩

/-- Every step of the audio thread keeps the invariant. -/
theorem audioStep (h : Inv cfg proc cIn cOut queue s) (ha : ∀ b ∈ s.input.published, Admissible cfg b)
    {woken : Bool} (hs : s.audioStep cfg proc woken = some t) : Inv cfg proc cIn cOut queue t := by
  have hin := h.inputSide
  have hout := h.outputSide
  have hl := h.ledger
  unfold Loop.audioStep at hs
  cases hpc : s.pc <;> rw [hpc] at hin hout hl <;> simp only [hpc] at hs
  case checkStop =>
    cases hs
    split
    · exact h.move hin hout rfl nofun hl
    · exact h.move hin hout rfl nofun hl
  case checkControl =>
    cases hs
    split
    · exact h.move hin hout rfl nofun hl
    · exact h.move hin hout rfl nofun hl
  case wait =>
    split at hs
    · cases hs
      exact h.move hin hout rfl nofun hl
    · split at hs <;> cases hs
      exact h.move hin hout rfl nofun hl
  case readTail =>
    obtain ⟨input, hi, rfl⟩ := Option.map_eq_some_iff.mp hs
    obtain ⟨-, hinput⟩ := ShmRing.readTail_cases hi
    exact h.inputStep (a := .readTail) hi ⟨_, by rw [hinput]⟩ hout rfl nofun
      (by rw [hinput]; exact hl)
  case readHead =>
    obtain ⟨input, hi, rfl⟩ := Option.map_eq_some_iff.mp hs
    obtain ⟨tail, -, ⟨-, rfl⟩ | ⟨-, rfl⟩⟩ := ShmRing.readHead_cases hi
    · exact h.inputStep (a := .readHead) hi rfl hout rfl nofun hl
    · exact h.inputStep (a := .readHead) hi ⟨_, rfl⟩ hout rfl nofun hl
  case acquireHead =>
    obtain ⟨output, ho, rfl⟩ := Option.map_eq_some_iff.mp hs
    have houtput := h.output.acquireHead ho
    obtain ⟨-, rfl⟩ := ShmRing.acquireHead_cases ho
    exact ⟨h.input, houtput, h.chainSize, hin, ⟨_, rfl⟩, nofun, nofun, hl⟩
  case acquireTail =>
    obtain ⟨output, ho, rfl⟩ := Option.map_eq_some_iff.mp hs
    exact h.acquireTail hpc ho
  case dropTail =>
    obtain ⟨input, hi, rfl⟩ := Option.map_eq_some_iff.mp hs
    obtain ⟨slot, -, hinput⟩ := ShmRing.releaseTail_cases hi
    exact h.inputStep (a := .releaseTail) hi ⟨_, _, by rw [hinput]⟩ hout rfl
      nofun (by rw [hinput]; exact hl)
  case dropStore =>
    obtain ⟨input, hi, rfl⟩ := Option.map_eq_some_iff.mp hs
    obtain ⟨slot, tail, -, hinput⟩ := ShmRing.releaseStore_cases hi
    exact h.inputStep (a := .releaseStore) hi (by rw [hinput]; rfl) hout rfl
      nofun (by rw [hinput, List.length_append]; exact hl.release)
  case dropCount =>
    cases hs
    exact h.move hin hout rfl nofun hl.countDropped
  case copySeq =>
    exact h.copy hs (k := 0) (by rw [hpc]; rfl) rfl hin hout hl fun b out _ => by
        constructor <;> intro hlt <;> first | rfl | omega
  case copyFrames =>
    exact h.copy hs (k := 1) (by rw [hpc]; rfl) rfl hin hout hl fun b out hc =>
        ⟨fun _ => hc.seq (by decide), fun _ => rfl, by omega, by omega, by omega, by omega, by omega⟩
  case copyChannels =>
    exact h.copy hs (k := 2) (by rw [hpc]; rfl) rfl hin hout hl fun b out hc =>
        ⟨fun _ => hc.seq (by decide), fun _ => hc.frames (by decide), fun _ => rfl, by omega, by omega,
          by omega, by omega⟩
  case copySampleRate =>
    exact h.copy hs (k := 3) (by rw [hpc]; rfl) rfl hin hout hl fun b out hc =>
        ⟨fun _ => hc.seq (by decide), fun _ => hc.frames (by decide), fun _ => hc.channels (by decide),
          fun _ => rfl, by omega, by omega, by omega⟩
  case copyFlags =>
    exact h.copy hs (k := 4) (by rw [hpc]; rfl) rfl hin hout hl fun b out hc =>
        ⟨fun _ => hc.seq (by decide), fun _ => hc.frames (by decide), fun _ => hc.channels (by decide),
          fun _ => hc.sampleRate (by decide), fun _ => rfl, by omega, by omega⟩
  case zeroReserved =>
    exact h.copy hs (k := 5) (by rw [hpc]; rfl) rfl hin hout hl fun b out hc =>
        ⟨fun _ => hc.seq (by decide), fun _ => hc.frames (by decide), fun _ => hc.channels (by decide),
          fun _ => hc.sampleRate (by decide), fun _ => hc.flags (by decide), fun _ => rfl, by omega⟩
  case payload => exact h.dispatch hpc ha hs
  case publishHead =>
    obtain ⟨output, ho, rfl⟩ := Option.map_eq_some_iff.mp hs
    exact h.publishHead hpc ho
  case publishStore =>
    obtain ⟨output, ho, rfl⟩ := Option.map_eq_some_iff.mp hs
    exact h.publishStore hpc ho
  case releaseTail =>
    obtain ⟨input, hi, rfl⟩ := Option.map_eq_some_iff.mp hs
    obtain ⟨slot, -, hinput⟩ := ShmRing.releaseTail_cases hi
    exact h.inputStep (a := .releaseTail) hi ⟨_, _, by rw [hinput]⟩ hout rfl
      nofun (by rw [hinput]; exact hl)
  case releaseStore =>
    obtain ⟨input, hi, rfl⟩ := Option.map_eq_some_iff.mp hs
    obtain ⟨slot, tail, -, hinput⟩ := ShmRing.releaseStore_cases hi
    exact h.inputStep (a := .releaseStore) hi (by rw [hinput]; rfl) hout rfl
      nofun (by rw [hinput, List.length_append]; exact hl.release)
  case count =>
    cases hs
    exact h.move hin hout rfl nofun hl.countProcessed
  case signal =>
    cases hs
    exact h.move hin hout rfl nofun hl.signal
  all_goals cases hs

theorem holding_of_copied {pc : Pc} {k : Nat} {c : Consumer} (hk : pc.copied = some k)
    (hin : pc.InputSide c) : ∃ slot, c = .holding slot := by
  cases pc <;> simp only [Pc.copied, reduceCtorEq] at hk <;> exact hin

/-- The host publishes: the block being copied stays, and the books only grow. -/
theorem produce (h : Inv cfg proc cIn cOut queue s) {a : ProducerAct (Block α)}
    {input : ShmRing (Block α)} (hs : s.input.produce cfg.inputRing a = some input) :
    Inv cfg proc cIn cOut queue { s with input } := by
  obtain ⟨hcon, hobt, hpub⟩ := ShmRing.produce_frame hs
  refine ⟨h.input.produce hs, h.output, h.chainSize, ?_, h.outputSide, h.running, ?_, ?_⟩
  · dsimp only
    rw [hcon]
    exact h.inputSide
  · intro k slot b hk hslot hb
    obtain ⟨islot, hheld⟩ := holding_of_copied hk h.inputSide
    obtain ⟨b', hb'⟩ : ∃ b', s.held = some b' := by simp [Loop.held, hheld]
    have hblock := h.held_block hb'
    obtain ⟨hlt, -⟩ := List.getElem?_eq_some_iff.mp hblock
    obtain rfl : b' = b := by
      obtain ⟨more, heq⟩ := hpub
      dsimp only at hb
      rw [hobt, ← heq, List.getElem?_append_left hlt, hblock] at hb
      exact Option.some.inj hb
    exact h.copied k slot b' hk hslot hblock
  · dsimp only
    rw [hobt]
    exact h.ledger.grow hpub

/-- The host releases output: nothing the loop relies on moves. -/
theorem consume (h : Inv cfg proc cIn cOut queue s) {a : ConsumerAct} {output : ShmRing (Block α)}
    (hs : s.output.consume cfg.outputRing a = some output) :
    Inv cfg proc cIn cOut queue { s with output } := by
  obtain ⟨hprod, hslots, hpub⟩ := ShmRing.consume_frame hs
  refine ⟨h.input, h.output.consume hs, h.chainSize, h.inputSide, ?_, h.running, ?_, ?_⟩
  · dsimp only
    rw [hprod]
    exact h.outputSide
  · intro k slot b hk hslot hb
    dsimp only [ShmRing.acquiredSlot] at hslot ⊢
    rw [hprod] at hslot
    rw [hslots]
    exact h.copied k slot b hk hslot hb
  · dsimp only
    rw [hpub]
    exact h.ledger

theorem step (h : Inv cfg proc cIn cOut queue s) (ha : ∀ b ∈ s.input.published, Admissible cfg b)
    {a : LoopAct O α} (hs : s.step cfg proc a = some t) : Inv cfg proc cIn cOut queue t := by
  cases a with
  | audio woken => exact h.audioStep ha hs
  | produce a =>
    obtain ⟨input, hi, rfl⟩ := Option.map_eq_some_iff.mp hs
    exact h.produce hi
  | consume a =>
    obtain ⟨output, ho, rfl⟩ := Option.map_eq_some_iff.mp hs
    exact h.consume ho
  | post =>
    cases hs
    exact { h with }
  | control change =>
    cases hs
    refine { h with chainSize := ?_ }
    intro ch hch
    obtain ⟨ch', hch', rfl⟩ := Option.map_eq_some_iff.mp hch
    exact h.chainSize ch' hch'
  | stop =>
    cases hs
    exact { h with }
  | controlStop =>
    cases hs
    exact { h with }

/-- The audio thread publishes nothing on its input ring. -/
private theorem audioStep_published {woken : Bool} (hs : s.audioStep cfg proc woken = some t) :
    t.input.published = s.input.published := by
  have hcopy : ∀ {write next u}, s.copy write next = some u → u.input.published = s.input.published := by
    intro write next u hu
    obtain ⟨b, input, output, -, hi, -, rfl⟩ := copy_cases hu
    exact (ShmRing.consume_frame (a := .look) (g := cfg.inputRing) hi).2.2
  have hring : ∀ {a input}, s.input.consume cfg.inputRing a = some input →
      input.published = s.input.published := fun hi => (ShmRing.consume_frame hi).2.2
  unfold Loop.audioStep at hs
  cases hpc : s.pc <;> simp only [hpc] at hs
  case wait =>
    split at hs
    · cases hs
      rfl
    · split at hs <;> cases hs
      rfl
  case readTail =>
    obtain ⟨input, hi, rfl⟩ := Option.map_eq_some_iff.mp hs
    exact hring (a := .readTail) hi
  case readHead =>
    obtain ⟨input, hi, rfl⟩ := Option.map_eq_some_iff.mp hs
    exact hring (a := .readHead) hi
  case dropTail | releaseTail =>
    obtain ⟨input, hi, rfl⟩ := Option.map_eq_some_iff.mp hs
    exact hring (a := .releaseTail) hi
  case dropStore | releaseStore =>
    obtain ⟨input, hi, rfl⟩ := Option.map_eq_some_iff.mp hs
    exact hring (a := .releaseStore) hi
  case acquireHead | publishHead | publishStore =>
    obtain ⟨output, -, rfl⟩ := Option.map_eq_some_iff.mp hs
    rfl
  case acquireTail =>
    obtain ⟨output, -, rfl⟩ := Option.map_eq_some_iff.mp hs
    split <;> rfl
  case payload =>
    cases dispatched hs with
    | fault => rfl
    | written _ hi => exact hring (a := .look) hi
  all_goals first
    | exact hcopy hs
    | cases hs; rfl
    | cases hs

theorem published_grows {a : LoopAct O α} (hs : s.step cfg proc a = some t) :
    s.input.published <+: t.input.published := by
  cases a with
  | audio woken => rw [audioStep_published hs]
  | produce a =>
    obtain ⟨input, hi, rfl⟩ := Option.map_eq_some_iff.mp hs
    exact (ShmRing.produce_frame hi).2.2
  | consume a =>
    obtain ⟨output, -, rfl⟩ := Option.map_eq_some_iff.mp hs
    exact List.prefix_rfl
  | post | control change | stop | controlStop =>
    cases hs
    exact List.prefix_rfl

/-- The invariant of a run: the promise about the input is only about the blocks
the host has published by then. -/
theorem exec {as : List (LoopAct O α)} (h : Inv cfg proc cIn cOut queue s)
    (he : Runs.exec (Loop.step cfg proc) s as = some t)
    (ha : ∀ b ∈ t.input.published, Admissible cfg b) : Inv cfg proc cIn cOut queue t := by
  refine invariant_of_step (fun u => (∀ b ∈ u.input.published, Admissible cfg b) →
    Inv cfg proc cIn cOut queue u) (fun {u a v} hu hs hv => ?_) (fun _ => h) he ha
  have hgrow := published_grows hs
  have hau : ∀ b ∈ u.input.published, Admissible cfg b := fun b hb => hv b (hgrow.subset hb)
  exact (hu hau).step hau hs

theorem initial {input output : ShmRing (Block α)} {chain : Option (PluginChain O α)} (posts : Nat)
    (hin : ShmRing.Inv cfg.inputRing cIn input) (hout : ShmRing.Inv cfg.outputRing cOut output)
    (hcon : input.consumer = .idle) (hobt : input.obtained = []) (hprod : output.producer = .idle)
    (hsize : ∀ ch, chain = some ch → ch.maxBlockSize = cfg.maxBlockSize) :
    Inv cfg proc cIn cOut output.published (Loop.initial input output chain posts) := by
  refine ⟨hin, hout, hsize, hcon, hprod, nofun, nofun, ?_⟩
  refine ⟨⟨[], by simp [Loop.initial], .nil⟩, by simp [Loop.initial, hobt, Pc.owes], ?_, ?_, ?_⟩
  all_goals simp [Loop.initial, Pc.owes]

private theorem copy_enabled (write : Block α → Block α → Block α) (next : Pc) {islot oslot : Nat}
    (hcon : s.input.consumer = .holding islot) (hprod : s.output.producer = .filling oslot) :
    ∃ t, s.copy write next = some t := by
  simp [Loop.copy, Loop.held, hcon, ShmRing.look, ShmRing.fill, hprod]

theorem dispatch_enabled {islot oslot : Nat} (hcon : s.input.consumer = .holding islot)
    (hprod : s.output.producer = .filling oslot) : ∃ t, s.dispatch cfg proc = some t := by
  have hcopied : ∀ write next (f : Loop O α → Loop O α), ∃ t, (s.copy write next).map f = some t := by
    intro write next f
    obtain ⟨u, hu⟩ := copy_enabled write next hcon hprod
    exact ⟨f u, by rw [hu]; rfl⟩
  have hplain : ∃ t, s.copyPayload cfg (s.input.slots islot) = some t := by
    unfold Loop.copyPayload
    split
    · exact hcopied _ _ _
    · exact ⟨_, rfl⟩
  simp only [Loop.dispatch, show s.held = some (s.input.slots islot) by simp [Loop.held, hcon]]
  cases s.chain with
  | none => exact hplain
  | some ch =>
    dsimp only
    split
    · unfold Loop.runChain
      split
      · rw [show s.output.acquiredSlot = some oslot by simp [ShmRing.acquiredSlot, hprod],
          Option.bind_some]
        exact hcopied _ _ _
      · exact ⟨_, rfl⟩
    · exact hplain

/-- The audio thread waits for nothing but the input semaphore. -/
theorem enabled (h : Inv cfg proc cIn cOut queue s) (hrun : s.pc ≠ .returned)
    (hposts : s.pc = .wait → 0 < s.inputPosts) : ∃ t, s.audioStep cfg proc true = some t := by
  have hin := h.inputSide
  have hout := h.outputSide
  unfold Loop.audioStep
  cases hpc : s.pc <;> rw [hpc] at hin hout <;> dsimp only
  case returned => exact absurd hpc hrun
  case fault => exact absurd hpc h.running
  case wait => simp [Nat.ne_of_gt (hposts hpc)]
  case readTail => simp [ShmRing.readTail, show s.input.consumer = .idle from hin]
  case readHead =>
    obtain ⟨tail, hcon⟩ := hin
    simp only [ShmRing.readHead, hcon]
    split <;> simp
  case acquireHead => simp [ShmRing.acquireHead, show s.output.producer = .idle from hout]
  case acquireTail =>
    obtain ⟨head, hprod⟩ := hout
    simp only [ShmRing.acquireTail, hprod]
    split <;> simp
  case dropTail | releaseTail =>
    obtain ⟨slot, hcon⟩ := hin
    simp [ShmRing.releaseTail, hcon]
  case dropStore | releaseStore =>
    obtain ⟨slot, tail, hcon⟩ := hin
    simp [ShmRing.releaseStore, hcon]
  case publishHead =>
    obtain ⟨slot, hprod⟩ := hout
    simp [ShmRing.publishHead, hprod]
  case publishStore =>
    obtain ⟨slot, head, hprod⟩ := hout
    simp [ShmRing.publishStore, hprod]
  case payload =>
    obtain ⟨islot, hcon⟩ := hin
    obtain ⟨oslot, hprod⟩ := hout
    exact dispatch_enabled hcon hprod
  case copySeq | copyFrames | copyChannels | copySampleRate | copyFlags | zeroReserved =>
    obtain ⟨islot, hcon⟩ := hin
    obtain ⟨oslot, hprod⟩ := hout
    exact copy_enabled _ _ hcon hprod
  all_goals exact ⟨_, rfl⟩

end Inv
end Loop

end Plughost.Audio
