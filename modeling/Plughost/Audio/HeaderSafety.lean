import Plughost.Audio.Relay

/-! The audio loop against any block header: where the payload accesses stay
inside the two slots, and which of the announced samples they write. -/
namespace Plughost.Audio
open Plughost.Runs Plughost.Ipc Plughost.Vst3
variable {O α : Type}

/-- The samples a published header announces. -/
def announced (b : BlockHeader) : Nat := b.frames.toNat * b.channels.toNat

/-- The announced samples fit behind the header of either slot, and a mono block
that the chain is to process is within the chain's block size. -/
structure Bounded (cfg : Config) (chain : Option (PluginChain O α)) (b : Block α) : Prop where
  input : 4 * announced b.toBlockHeader ≤ Loop.payloadRoom cfg.inputRing
  output : 4 * announced b.toBlockHeader ≤ Loop.payloadRoom cfg.outputRing
  chain : ∀ ch, chain = some ch → b.channels = 1 → b.frames.toNat ≤ ch.maxBlockSize

private theorem bounded_iff (cfg : Config) (chain : Option (PluginChain O α)) (b : Block α) :
    Bounded cfg chain b ↔ 4 * announced b.toBlockHeader ≤ Loop.payloadRoom cfg.inputRing ∧
      4 * announced b.toBlockHeader ≤ Loop.payloadRoom cfg.outputRing ∧
      ∀ ch ∈ chain, b.channels = 1 → b.frames.toNat ≤ ch.maxBlockSize :=
  ⟨fun h => ⟨h.input, h.output, h.chain⟩, fun h => ⟨h.1, h.2.1, h.2.2⟩⟩

instance (cfg : Config) (chain : Option (PluginChain O α)) (b : Block α) : Decidable (Bounded cfg chain b) :=
  decidable_of_iff' _ (bounded_iff cfg chain b)

namespace Loop

/-- The loop with other samples left over in an output slot. -/
def leaving (s : Loop O α) (slot : Nat) (stale : Buffer α) : Loop O α := { s with
  output := { s.output with
    slots := Function.update s.output.slots slot { s.output.slots slot with payload := stale } } }

/-- After the payload step sample `i` of the slot is the same whatever was left over there. -/
def Written (cfg : Config) (proc : SlotFormat → Processor O α) (s : Loop O α) (slot i : Nat) : Prop :=
  ∃ x, ∀ stale t, (s.leaving slot stale).audioStep cfg proc true = some t →
    (t.output.slots slot).payload i = x

/-- The step accesses nothing outside the slots, and leaves no sample stale that
the header of the output block announces. -/
structure StepSafe (cfg : Config) (proc : SlotFormat → Processor O α) (s t : Loop O α) : Prop where
  inside : t.pc = .fault → s.pc = .fault
  written : ∀ slot, s.pc = .payload → t.pc = .publishHead → s.output.acquiredSlot = some slot →
    ∀ i < announced (t.output.slots slot).toBlockHeader, Written cfg proc s slot i

/-- Samples that the payload step writes. -/
def movedSamples (chain : Option (PluginChain O α)) (b : Block α) : Nat :=
  match chain with
  | some ch => if b.channels = 1 then chainSamples ch b else (payloadBytes b).toNat / 4
  | none => (payloadBytes b).toNat / 4

private theorem payloadBytes_dvd (b : Block α) : 4 ∣ (payloadBytes b).toNat := by
  rw [payloadBytes_toNat]
  exact (Nat.dvd_mod_iff (by decide)).mpr (Nat.dvd_mul_left 4 _)

/-- The plain copy moves every announced sample, within both slots, when they fit there. -/
private theorem copies_all_iff (b : Block α) {r : Nat} (r' : Nat) (hr : r < 2^64) :
    (4 * ((payloadBytes b).toNat / 4) ≤ r ∧ 4 * ((payloadBytes b).toNat / 4) ≤ r' ∧
      announced b.toBlockHeader ≤ (payloadBytes b).toNat / 4) ↔
    4 * announced b.toBlockHeader ≤ r ∧ 4 * announced b.toBlockHeader ≤ r' := by
  have hbytes := payloadBytes_toNat b
  have hdvd := Nat.mul_div_cancel' (payloadBytes_dvd b)
  have hle := Nat.mod_le (announced b.toBlockHeader * 4) (2^64)
  unfold announced at *
  constructor
  · rintro ⟨hin, hout, hall⟩
    exact ⟨by omega, by omega⟩
  · rintro ⟨hin, hout⟩
    rw [Nat.mod_eq_of_lt (by omega)] at hbytes
    exact ⟨by omega, by omega, by omega⟩

/-- So does the chain, when the block is within its block size as well. -/
private theorem chains_all_iff (ch : PluginChain O α) {b : Block α} {r r' : Nat} (hr : r < 2^32)
    (hmax : 0 ≤ ch.maxBlockSize) (hmono : b.channels = 1) :
    (4 * chainSamples ch b ≤ r ∧ 4 * chainSamples ch b ≤ r' ∧
      announced b.toBlockHeader ≤ chainSamples ch b) ↔
    4 * announced b.toBlockHeader ≤ r ∧ 4 * announced b.toBlockHeader ≤ r' ∧
      b.frames.toNat ≤ ch.maxBlockSize := by
  have hone : announced b.toBlockHeader = b.frames.toNat := by
    rw [announced, hmono]
    exact Nat.mul_one _
  have hint := BitVec.toInt_eq_toNat_cond b.frames
  have hlt := b.frames.isLt
  rw [hone, chainSamples]
  constructor
  · rintro ⟨hin, hout, hall⟩
    split at hint <;> exact ⟨by omega, by omega, by omega⟩
  · rintro ⟨hin, hout, hsize⟩
    rw [if_pos (by omega)] at hint
    exact ⟨by omega, by omega, by omega⟩

/-- The payload step writes all it announces, inside the slots, for the bounded blocks only. -/
private theorem moves_all_iff (cfg : Config) {chain : Option (PluginChain O α)} (b : Block α)
    (hmax : ∀ ch, chain = some ch → 0 ≤ ch.maxBlockSize) :
    (4 * movedSamples chain b ≤ payloadRoom cfg.inputRing ∧
      4 * movedSamples chain b ≤ payloadRoom cfg.outputRing ∧
      announced b.toBlockHeader ≤ movedSamples chain b) ↔ Bounded cfg chain b := by
  have hroom : payloadRoom cfg.inputRing < 2^32 :=
    Nat.lt_of_le_of_lt (Nat.sub_le _ _) cfg.inputRing.slotBytes.isLt
  have hplain := copies_all_iff b (payloadRoom cfg.outputRing) (hroom.trans (by decide))
  cases chain with
  | none =>
    refine hplain.trans ⟨fun h => ⟨h.1, h.2, by simp⟩, fun h => ⟨h.input, h.output⟩⟩
  | some ch =>
    by_cases hmono : b.channels = 1
    · simp only [movedSamples, if_pos hmono]
      refine (chains_all_iff ch hroom (hmax ch rfl) hmono).trans
        ⟨fun h => ⟨h.1, h.2.1, ?_⟩, fun h => ⟨h.input, h.output, h.chain ch rfl hmono⟩⟩
      rintro ch' h' -
      cases h'
      exact h.2.2
    · simp only [movedSamples, if_neg hmono]
      refine hplain.trans ⟨fun h => ⟨h.1, h.2, ?_⟩, fun h => ⟨h.input, h.output⟩⟩
      intro ch' _ h'
      exact absurd h' hmono

/-- The payload step, whatever was left over in the output slot. -/
structure PayloadStep (cfg : Config) (proc : SlotFormat → Processor O α) (s : Loop O α) (b : Block α)
    (slot : Nat) (stale y : Buffer α) (t : Loop O α) : Prop where
  header : (t.output.slots slot).toBlockHeader = (s.output.slots slot).toBlockHeader
  outcome :
    4 * movedSamples s.chain b ≤ payloadRoom cfg.inputRing ∧
      4 * movedSamples s.chain b ≤ payloadRoom cfg.outputRing ∧ t.pc = .publishHead ∧
      (t.output.slots slot).payload = memcpy (movedSamples s.chain b) stale y ∨
    ¬ (4 * movedSamples s.chain b ≤ payloadRoom cfg.inputRing ∧
      4 * movedSamples s.chain b ≤ payloadRoom cfg.outputRing) ∧ t.pc = .fault

private theorem leaving_self (s : Loop O α) (slot : Nat) :
    s.leaving slot (s.output.slots slot).payload = s := by
  unfold leaving
  rw [Function.update_eq_self]

@[simp] theorem held_leaving (s : Loop O α) (slot : Nat) (stale : Buffer α) :
    (s.leaving slot stale).held = s.held := rfl

section
variable {cfg : Config} {proc : SlotFormat → Processor O α} {s : Loop O α} {b : Block α} {slot : Nat}

private theorem copyPayload_leaving (hheld : s.held = some b) (hprod : s.output.producer = .filling slot)
    (hmoved : movedSamples s.chain b = (payloadBytes b).toNat / 4) (stale : Buffer α) {t : Loop O α}
    (hs : (s.leaving slot stale).copyPayload cfg b = some t) :
    PayloadStep cfg proc s b slot stale b.payload t := by
  have hdvd := Nat.mul_div_cancel' (payloadBytes_dvd b)
  unfold Loop.copyPayload at hs
  split at hs
  · rename_i hfits
    obtain ⟨u, hu, rfl⟩ := Option.map_eq_some_iff.mp hs
    obtain ⟨b', input, output, hb', -, ho, rfl⟩ := Inv.copy_cases hu
    obtain rfl : b = b' := by
      rw [held_leaving, hheld] at hb'
      exact Option.some.inj hb'
    obtain ⟨slot', hslot', rfl⟩ := ShmRing.fill_cases ho
    obtain rfl : slot = slot' := by
      rw [show (s.leaving slot stale).output.producer = .filling slot from hprod] at hslot'
      cases hslot'
      rfl
    refine ⟨by simp [leaving], .inl ⟨?_, ?_, rfl, ?_⟩⟩
    · rw [hmoved, hdvd]
      exact hfits.1
    · rw [hmoved, hdvd]
      exact hfits.2
    · simp [leaving, hmoved]
  · rename_i hfits
    cases hs
    refine ⟨by simp [leaving], .inr ⟨?_, rfl⟩⟩
    rw [hmoved, hdvd]
    exact hfits

private theorem runChain_leaving {ch : PluginChain O α} (hprod : s.output.producer = .filling slot)
    (hmoved : movedSamples s.chain b = chainSamples ch b) :
    ∃ y, ∀ stale t, (s.leaving slot stale).runChain cfg proc ch b = some t →
      PayloadStep cfg proc s b slot stale y t := by
  obtain ⟨ch', y, -, hout⟩ := PluginChain.process_overwrites proc ch b.payload b.frames.toInt
  refine ⟨y, fun stale t hs => ?_⟩
  unfold Loop.runChain at hs
  split at hs
  · rename_i hfits
    obtain ⟨slot', hslot', hs⟩ := Option.bind_eq_some_iff.mp hs
    obtain ⟨u, hu, rfl⟩ := Option.map_eq_some_iff.mp hs
    obtain ⟨b', input, output, -, -, ho, rfl⟩ := Inv.copy_cases hu
    have hacq : (s.leaving slot stale).output.acquiredSlot = some slot := by
      simp [leaving, ShmRing.acquiredSlot, hprod]
    obtain rfl : slot = slot' := by
      rw [hacq] at hslot'
      exact Option.some.inj hslot'
    obtain ⟨slot'', hslot'', rfl⟩ := ShmRing.fill_cases ho
    obtain rfl : slot = slot'' := by
      rw [show (s.leaving slot stale).output.producer = .filling slot from hprod] at hslot''
      cases hslot''
      rfl
    refine ⟨by simp [leaving], .inl ⟨by rw [hmoved]; exact hfits.1, by rw [hmoved]; exact hfits.2, rfl, ?_⟩⟩
    simp [leaving, hmoved, (hout stale).2, chainSamples]
  · rename_i hfits
    cases hs
    exact ⟨by simp [leaving], .inr ⟨by rw [hmoved]; exact hfits, rfl⟩⟩

/-- What the payload step does is the copy of one source over the samples it moves. -/
private theorem payload_cases (cfg : Config) (proc : SlotFormat → Processor O α) (hpc : s.pc = .payload)
    (hheld : s.held = some b)
    (hprod : s.output.producer = .filling slot) :
    ∃ y, ∀ stale t, (s.leaving slot stale).audioStep cfg proc true = some t →
      PayloadStep cfg proc s b slot stale y t := by
  have hstep : ∀ stale, (s.leaving slot stale).audioStep cfg proc true =
      (s.leaving slot stale).dispatch cfg proc := by
    intro stale
    simp only [audioStep, show (s.leaving slot stale).pc = .payload from hpc]
  simp only [hstep, dispatch, held_leaving, hheld]
  cases hch : s.chain with
  | none =>
    refine ⟨b.payload, fun stale t hs => ?_⟩
    rw [show (s.leaving slot stale).chain = none from hch] at hs
    exact copyPayload_leaving hheld hprod (by rw [hch]; rfl) stale hs
  | some ch =>
    simp only [show ∀ stale, (s.leaving slot stale).chain = some ch from fun _ => hch]
    by_cases hmono : b.channels = 1
    · simp only [if_pos hmono]
      exact runChain_leaving hprod (by simp [movedSamples, hch, hmono])
    · simp only [if_neg hmono]
      exact ⟨b.payload, fun stale t hs =>
        copyPayload_leaving hheld hprod (by rw [hch]; exact if_neg hmono) stale hs⟩

/-- A sample of the output slot is written when it is among those the step moves. -/
private theorem written_iff [Nontrivial α] {y : Buffer α} (i : Nat)
    (hy : ∀ stale t, (s.leaving slot stale).audioStep cfg proc true = some t →
      PayloadStep cfg proc s b slot stale y t)
    (henabled : ∀ stale, ∃ t, (s.leaving slot stale).audioStep cfg proc true = some t)
    (hfits : 4 * movedSamples s.chain b ≤ payloadRoom cfg.inputRing ∧
      4 * movedSamples s.chain b ≤ payloadRoom cfg.outputRing) :
    Written cfg proc s slot i ↔ i < movedSamples s.chain b := by
  have hafter : ∀ stale, ∃ t, (s.leaving slot stale).audioStep cfg proc true = some t ∧
      (t.output.slots slot).payload = memcpy (movedSamples s.chain b) stale y := by
    intro stale
    obtain ⟨t, ht⟩ := henabled stale
    rcases (hy stale t ht).outcome with ⟨-, -, -, hpay⟩ | ⟨hno, -⟩
    · exact ⟨t, ht, hpay⟩
    · exact absurd hfits hno
  constructor
  · rintro ⟨x, hx⟩
    by_contra hge
    -- Two different leftovers would both have to equal `x`.
    obtain ⟨z, hz⟩ := exists_ne x
    obtain ⟨t, ht, hpay⟩ := hafter fun _ => z
    have heq := hx _ t ht
    rw [hpay, memcpy_beyond (Nat.le_of_not_lt hge)] at heq
    exact hz heq
  · intro hlt
    refine ⟨y i, fun stale t ht => ?_⟩
    rcases (hy stale t ht).outcome with ⟨-, -, -, hpay⟩ | ⟨hno, -⟩
    · rw [hpay]
      exact if_pos hlt
    · exact absurd hfits hno

/-- At the payload: the step is safe for the bounded blocks only. -/
private theorem payload_safe_iff [Nontrivial α] {t : Loop O α} {islot : Nat} (hpc : s.pc = .payload)
    (hheld : s.held = some b) (hcon : s.input.consumer = .holding islot)
    (hprod : s.output.producer = .filling slot) (hframes : (s.output.slots slot).frames = b.frames)
    (hchannels : (s.output.slots slot).channels = b.channels)
    (hmax : ∀ ch, s.chain = some ch → 0 ≤ ch.maxBlockSize)
    (hs : s.audioStep cfg proc true = some t) :
    StepSafe cfg proc s t ↔ Bounded cfg s.chain b := by
  obtain ⟨y, hy⟩ := payload_cases cfg proc hpc hheld hprod
  have henabled : ∀ stale, ∃ t, (s.leaving slot stale).audioStep cfg proc true = some t :=
    fun stale => by
      simp only [audioStep, show (s.leaving slot stale).pc = .payload from hpc]
      exact Inv.dispatch_enabled (s := s.leaving slot stale) hcon hprod
  have hstep := hy _ t (by rw [leaving_self]; exact hs)
  have hannounced : announced (t.output.slots slot).toBlockHeader = announced b.toBlockHeader := by
    rw [hstep.header, announced, hframes, hchannels]
    rfl
  have hacq : s.output.acquiredSlot = some slot := by simp [ShmRing.acquiredSlot, hprod]
  rw [← moves_all_iff cfg b hmax]
  rcases hstep.outcome with ⟨hin, hout, hrun, -⟩ | ⟨hno, hfault⟩
  · have hw := fun i => written_iff i hy henabled ⟨hin, hout⟩
    constructor
    · intro h
      refine ⟨hin, hout, Nat.le_of_not_lt fun hlt => ?_⟩
      have hlast := (hw _).mp (h.written slot hpc hrun hacq _ (by rw [hannounced]; exact hlt))
      exact Nat.lt_irrefl _ hlast
    · rintro ⟨-, -, hall⟩
      refine ⟨fun hf => (by rw [hrun] at hf; cases hf), ?_⟩
      intro slot' _ _ hslot' i hi
      obtain rfl : slot = slot' := by
        rw [hacq] at hslot'
        exact Option.some.inj hslot'
      rw [hannounced] at hi
      exact (hw i).mpr (Nat.lt_of_lt_of_le hi hall)
  · constructor
    · intro h
      have hf := h.inside hfault
      rw [hpc] at hf
      cases hf
    · rintro ⟨hin, hout, -⟩
      exact absurd ⟨hin, hout⟩ hno

end

/-- Until an access outside the slots: the output header repeats the input's as far
as it is copied. No promise about the blocks is made. -/
structure Announces (cfg : Config) (cIn cOut : BitVec 64) (s : Loop O α) : Prop where
  input : ShmRing.Inv cfg.inputRing cIn s.input
  output : ShmRing.Inv cfg.outputRing cOut s.output
  chainSize : ∀ ch, s.chain = some ch → 0 ≤ ch.maxBlockSize
  inputSide : s.pc.InputSide s.input.consumer
  outputSide : s.pc.OutputSide s.output.producer
  running : s.pc ≠ .fault
  header : ∀ k slot b, s.pc.copied = some k → s.output.acquiredSlot = some slot → s.held = some b →
    (1 < k → (s.output.slots slot).frames = b.frames) ∧ (2 < k → (s.output.slots slot).channels = b.channels)

namespace Announces
variable {cfg : Config} {proc : SlotFormat → Processor O α} {cIn cOut : BitVec 64} {s t : Loop O α}

/-- One write of the output block, at point `k` of the copying. -/
theorem write (h : Announces cfg cIn cOut s) {k : Nat} {next : Pc} {b : Block α}
    {write : Block α → Block α} {input output : ShmRing (Block α)} {chain current : Option (PluginChain O α)}
    (hheld : s.held = some b) (hlook : s.input.look = some input) (hfill : s.output.fill write = some output)
    (hk : s.pc.copied = some k) (hnext : next.copied = some (k + 1))
    (hin : next.InputSide s.input.consumer) (hout : next.OutputSide s.output.producer)
    (hsize : ∀ ch, chain = some ch → 0 ≤ ch.maxBlockSize)
    (hwrite : ∀ out, (1 < k → out.frames = b.frames) → (2 < k → out.channels = b.channels) →
      (0 < k → (write out).frames = b.frames) ∧ (1 < k → (write out).channels = b.channels)) :
    Announces cfg cIn cOut { s with input, output, chain, current, pc := next } := by
  have hinput := h.input.look hlook
  have houtput := h.output.fill hfill
  obtain ⟨islot, hcon, rfl⟩ := ShmRing.look_cases hlook
  obtain ⟨oslot, hprod, rfl⟩ := ShmRing.fill_cases hfill
  have hacq : s.output.acquiredSlot = some oslot := by simp [ShmRing.acquiredSlot, hprod]
  refine ⟨hinput, houtput, hsize, hin, hout, ?_, ?_⟩
  · rintro rfl
    cases hnext
  intro k' slot b' hk' hslot hb'
  obtain rfl : k + 1 = k' := by
    rw [hnext] at hk'
    exact Option.some.inj hk'
  obtain rfl : oslot = slot := by
    change s.output.acquiredSlot = some slot at hslot
    rw [hacq] at hslot
    exact Option.some.inj hslot
  obtain rfl : b = b' := by
    change s.held = some b' at hb'
    rw [hheld] at hb'
    exact Option.some.inj hb'
  obtain ⟨hframes, hchannels⟩ := h.header k oslot b hk hacq hheld
  obtain ⟨hframes', hchannels'⟩ := hwrite _ hframes hchannels
  dsimp only
  rw [Function.update_self]
  exact ⟨fun hlt => hframes' (by omega), fun hlt => hchannels' (by omega)⟩

/-- The header copies. -/
theorem copy (h : Announces cfg cIn cOut s) {k : Nat} {next : Pc} {write : Block α → Block α → Block α}
    (hs : s.copy write next = some t) (hk : s.pc.copied = some k) (hnext : next.copied = some (k + 1))
    (hin : next.InputSide s.input.consumer) (hout : next.OutputSide s.output.producer)
    (hwrite : ∀ b out, (1 < k → out.frames = b.frames) → (2 < k → out.channels = b.channels) →
      (0 < k → (write b out).frames = b.frames) ∧ (1 < k → (write b out).channels = b.channels)) :
    Announces cfg cIn cOut t := by
  obtain ⟨b, input, output, hb, hi, ho, rfl⟩ := Inv.copy_cases hs
  exact h.write hb hi ho hk hnext hin hout h.chainSize (hwrite b)

/-- The payload step leaves the header alone. -/
theorem dispatch (h : Announces cfg cIn cOut s) (hpc : s.pc = .payload) (hs : s.dispatch cfg proc = some t) :
    t.pc = .fault ∨ Announces cfg cIn cOut t := by
  have hin := h.inputSide
  have hout := h.outputSide
  rw [hpc] at hin hout
  have hk : s.pc.copied = some 6 := by
    rw [hpc]
    rfl
  cases Inv.dispatched hs with
  | fault => exact .inl rfl
  | written hb hi ho hheader hsize =>
    refine .inr (h.write hb hi ho hk rfl hin hout ?_ fun out hf hc => ⟨fun _ => ?_, fun _ => ?_⟩)
    · intro c hc
      obtain ⟨ch, hch, hsame⟩ := hsize c hc
      rw [hsame]
      exact h.chainSize ch hch
    · exact (congrArg BlockHeader.frames (hheader out)).trans (hf (by decide))
    · exact (congrArg BlockHeader.channels (hheader out)).trans (hc (by decide))

/-- The audio thread's own words move; both rings stay as they are. -/
theorem move (h : Announces cfg cIn cOut s) {next : Pc} {processed dropped : BitVec 64}
    {inputPosts outputPosts : Nat} (hin : next.InputSide s.input.consumer)
    (hout : next.OutputSide s.output.producer) (hcopied : next.copied = none) (hrun : next ≠ .fault) :
    Announces cfg cIn cOut { s with pc := next, processed, dropped, inputPosts, outputPosts } :=
  ⟨h.input, h.output, h.chainSize, hin, hout, hrun, fun k _ _ hk => (by simp [hcopied] at hk)⟩

/-- The audio thread's steps on the input ring that are no slot access. -/
theorem inputStep (h : Announces cfg cIn cOut s) {a : ConsumerAct} {input : ShmRing (Block α)} {next : Pc}
    (hs : s.input.consume cfg.inputRing a = some input) (hin : next.InputSide input.consumer)
    (hout : next.OutputSide s.output.producer) (hcopied : next.copied = none) (hrun : next ≠ .fault) :
    Announces cfg cIn cOut { s with input, pc := next } :=
  ⟨h.input.consume hs, h.output, h.chainSize, hin, hout, hrun, fun k _ _ hk => (by simp [hcopied] at hk)⟩

/-- And on the output ring, between blocks or on either side of the copying. -/
private theorem outputStep (h : Announces cfg cIn cOut s) {a : ProducerAct (Block α)} {output : ShmRing (Block α)}
    {next : Pc} {verdicts : List (Verdict O α)} (hs : s.output.produce cfg.outputRing a = some output)
    (hin : next.InputSide s.input.consumer) (hout : next.OutputSide output.producer) (hrun : next ≠ .fault)
    (hcopied : ∀ k, next.copied = some k → k < 2 ∨ s.pc.copied = some k ∧ output.slots = s.output.slots ∧
      output.acquiredSlot = s.output.acquiredSlot) :
    Announces cfg cIn cOut { s with output, verdicts, pc := next } := by
  refine ⟨h.input, h.output.produce hs, h.chainSize, hin, hout, hrun, ?_⟩
  intro k slot b hk hslot hb
  rcases hcopied k hk with hlt | ⟨hsame, hslots, hacq⟩
  · exact ⟨fun _ => by omega, fun _ => by omega⟩
  · dsimp only at hslot ⊢
    rw [hacq] at hslot
    rw [hslots]
    exact h.header k slot b hsame hslot hb

/-- Every step of the audio thread, up to the first access outside the slots. -/
theorem audioStep (h : Announces cfg cIn cOut s) {woken : Bool}
    (hs : s.audioStep cfg proc woken = some t) :
    s.pc = .payload ∧ t.pc = .fault ∨ Announces cfg cIn cOut t := by
  have hin := h.inputSide
  have hout := h.outputSide
  have hnone : ∀ {p : Nat → Prop} k, none = some k → p k := by
    intro p k hk
    cases hk
  unfold Loop.audioStep at hs
  cases hpc : s.pc <;> rw [hpc] at hin hout <;> simp only [hpc] at hs
  case payload => exact (h.dispatch hpc hs).imp_left fun hf => ⟨rfl, hf⟩
  all_goals refine .inr ?_
  case checkStop | checkControl =>
    cases hs
    split <;> exact h.move hin hout rfl (by decide)
  case wait =>
    split at hs
    · cases hs
      exact h.move hin hout rfl (by decide)
    · split at hs <;> cases hs
      exact h.move hin hout rfl (by decide)
  case readTail =>
    obtain ⟨input, hi, rfl⟩ := Option.map_eq_some_iff.mp hs
    obtain ⟨-, hinput⟩ := ShmRing.readTail_cases hi
    exact h.inputStep (a := .readTail) hi ⟨_, by rw [hinput]⟩ hout rfl (by decide)
  case readHead =>
    obtain ⟨input, hi, rfl⟩ := Option.map_eq_some_iff.mp hs
    obtain ⟨tail, -, ⟨-, rfl⟩ | ⟨-, rfl⟩⟩ := ShmRing.readHead_cases hi
    · rw [if_pos rfl]
      exact h.inputStep (a := .readHead) hi rfl hout rfl (by decide)
    · rw [if_neg (by simp)]
      exact h.inputStep (a := .readHead) hi ⟨_, rfl⟩ hout rfl (by decide)
  case acquireHead =>
    obtain ⟨output, ho, rfl⟩ := Option.map_eq_some_iff.mp hs
    obtain ⟨-, houtput⟩ := ShmRing.acquireHead_cases ho
    exact h.outputStep (a := .acquireHead) ho hin ⟨_, by rw [houtput]⟩ (by decide) hnone
  case acquireTail =>
    obtain ⟨output, ho, rfl⟩ := Option.map_eq_some_iff.mp hs
    obtain ⟨head, -, ⟨-, rfl⟩ | ⟨-, rfl⟩⟩ := ShmRing.acquireTail_cases ho
    · rw [if_pos rfl]
      exact h.outputStep (a := .acquireTail) ho hin rfl (by decide) hnone
    · rw [if_neg (by simp)]
      refine h.outputStep (a := .acquireTail) ho hin ⟨_, rfl⟩ (by decide) fun k hk => .inl ?_
      cases hk
      decide
  case dropTail | releaseTail =>
    obtain ⟨input, hi, rfl⟩ := Option.map_eq_some_iff.mp hs
    obtain ⟨slot, -, hinput⟩ := ShmRing.releaseTail_cases hi
    exact h.inputStep (a := .releaseTail) hi ⟨_, _, by rw [hinput]⟩ hout rfl (by decide)
  case dropStore | releaseStore =>
    obtain ⟨input, hi, rfl⟩ := Option.map_eq_some_iff.mp hs
    obtain ⟨slot, tail, -, hinput⟩ := ShmRing.releaseStore_cases hi
    exact h.inputStep (a := .releaseStore) hi (by rw [hinput]; rfl) hout rfl (by decide)
  case dropCount | count | signal =>
    cases hs
    exact h.move hin hout rfl (by decide)
  case copySeq =>
    exact h.copy hs (k := 0) (by rw [hpc]; rfl) rfl hin hout fun b out _ _ => ⟨by omega, by omega⟩
  case copyFrames =>
    exact h.copy hs (k := 1) (by rw [hpc]; rfl) rfl hin hout fun b out _ _ => ⟨fun _ => rfl, by omega⟩
  case copyChannels =>
    exact h.copy hs (k := 2) (by rw [hpc]; rfl) rfl hin hout fun b out hf _ =>
      ⟨fun _ => hf (by decide), fun _ => rfl⟩
  case copySampleRate =>
    exact h.copy hs (k := 3) (by rw [hpc]; rfl) rfl hin hout fun b out hf hc =>
      ⟨fun _ => hf (by decide), fun _ => hc (by decide)⟩
  case copyFlags =>
    exact h.copy hs (k := 4) (by rw [hpc]; rfl) rfl hin hout fun b out hf hc =>
      ⟨fun _ => hf (by decide), fun _ => hc (by decide)⟩
  case zeroReserved =>
    exact h.copy hs (k := 5) (by rw [hpc]; rfl) rfl hin hout fun b out hf hc =>
      ⟨fun _ => hf (by decide), fun _ => hc (by decide)⟩
  case publishHead =>
    obtain ⟨output, ho, rfl⟩ := Option.map_eq_some_iff.mp hs
    obtain ⟨slot, hprod, houtput⟩ := ShmRing.publishHead_cases ho
    refine h.outputStep (a := .publishHead) ho hin ⟨_, _, by rw [houtput]⟩ (by decide) fun k hk => .inr ⟨?_, ?_, ?_⟩
    · rw [hpc]
      exact hk
    · rw [houtput]
    · rw [houtput]
      simp [ShmRing.acquiredSlot, hprod]
  case publishStore =>
    obtain ⟨output, ho, rfl⟩ := Option.map_eq_some_iff.mp hs
    obtain ⟨slot, head, -, houtput⟩ := ShmRing.publishStore_cases ho
    exact h.outputStep (a := .publishStore) ho hin (by rw [houtput]; rfl) (by decide) hnone
  all_goals cases hs

/-- The host publishes: the block being copied stays as it is. -/
theorem produce (h : Announces cfg cIn cOut s) {a : ProducerAct (Block α)} {input : ShmRing (Block α)}
    (hs : s.input.produce cfg.inputRing a = some input) : Announces cfg cIn cOut { s with input } := by
  obtain ⟨hcon, hobt, more, hmore⟩ := ShmRing.produce_frame hs
  have hinput := h.input.produce hs
  refine ⟨hinput, h.output, h.chainSize, by dsimp only; rw [hcon]; exact h.inputSide, h.outputSide, h.running, ?_⟩
  intro k slot b hk hslot hb
  refine h.header k slot b hk hslot ?_
  obtain ⟨islot, hheld⟩ := Inv.holding_of_copied hk h.inputSide
  have hread := (h.input.safe.read islot (by simp [ShmRing.readSlot, hheld])).2.2
  have hread' := (hinput.safe.read islot (by simp [ShmRing.readSlot, hcon, hheld])).2.2
  obtain ⟨hlt, -⟩ := List.getElem?_eq_some_iff.mp hread
  rw [hobt, ← hmore, List.getElem?_append_left hlt, hread] at hread'
  simp only [Loop.held, hcon, hheld] at hb ⊢
  rw [← hb]
  exact hread'

/-- Whatever steps the host and the audio thread take, up to the first access outside the slots. -/
theorem step (h : Announces cfg cIn cOut s) {a : LoopAct O α} (hs : s.step cfg proc a = some t) :
    (∃ woken, a = .audio woken) ∧ s.pc = .payload ∧ t.pc = .fault ∨ Announces cfg cIn cOut t := by
  cases a with
  | audio woken => exact (h.audioStep hs).imp_left fun hf => ⟨⟨woken, rfl⟩, hf⟩
  | produce a =>
    obtain ⟨input, hi, rfl⟩ := Option.map_eq_some_iff.mp hs
    exact .inr (h.produce hi)
  | consume a =>
    obtain ⟨output, ho, rfl⟩ := Option.map_eq_some_iff.mp hs
    obtain ⟨hprod, hslots, -⟩ := ShmRing.consume_frame ho
    refine .inr ⟨h.input, h.output.consume ho, h.chainSize, h.inputSide, ?_, h.running, ?_⟩
    · dsimp only
      rw [hprod]
      exact h.outputSide
    · intro k slot b hk hslot hb
      dsimp only [ShmRing.acquiredSlot] at hslot ⊢
      rw [hprod] at hslot
      rw [hslots]
      exact h.header k slot b hk hslot hb
  | control change =>
    cases hs
    refine .inr { h with chainSize := ?_ }
    intro ch hch
    obtain ⟨ch', hch', rfl⟩ := Option.map_eq_some_iff.mp hch
    exact h.chainSize ch' hch'
  | post | stop | controlStop =>
    cases hs
    exact .inr { h with }

theorem initial {input output : ShmRing (Block α)} {chain : Option (PluginChain O α)} (posts : Nat)
    (hin : ShmRing.Inv cfg.inputRing cIn input) (hout : ShmRing.Inv cfg.outputRing cOut output)
    (hcon : input.consumer = .idle) (hprod : output.producer = .idle)
    (hsize : ∀ ch, chain = some ch → 0 ≤ ch.maxBlockSize) :
    Announces cfg cIn cOut (Loop.initial input output chain posts) :=
  ⟨hin, hout, hsize, hcon, hprod, nofun, nofun⟩

end Announces

/-- The audio thread comes to the payload of a bounded block only. -/
def MeetsBounded (cfg : Config) (s : Loop O α) : LoopAct O α → Prop
  | .audio _ => s.pc = .payload → ∀ b ∈ s.held, Bounded cfg s.chain b
  | _ => True

instance (cfg : Config) (s : Loop O α) (a : LoopAct O α) : Decidable (MeetsBounded cfg s a) := by
  cases a <;> unfold MeetsBounded <;> infer_instance

/-- A run stays where it is after an access outside the slots. -/
private theorem fault_step {cfg : Config} {proc : SlotFormat → Processor O α} {s t : Loop O α} {a : LoopAct O α}
    (hpc : s.pc = .fault) (hs : s.step cfg proc a = some t) : t.pc = .fault := by
  cases a with
  | audio woken => simp [Loop.step, audioStep, hpc] at hs
  | produce a | consume a =>
    obtain ⟨ring, -, rfl⟩ := Option.map_eq_some_iff.mp hs
    exact hpc
  | post | control change | stop | controlStop =>
    cases hs
    exact hpc

/-- A step of any run is safe just when it is not the payload of an unbounded block. -/
private theorem step_safe_iff [Nontrivial α] {cfg : Config} {proc : SlotFormat → Processor O α}
    {cIn cOut : BitVec 64} {s t : Loop O α} {a : LoopAct O α} (h : s.pc = .fault ∨ Announces cfg cIn cOut s)
    (hs : s.step cfg proc a = some t) : StepSafe cfg proc s t ↔ MeetsBounded cfg s a := by
  have hother : (∀ woken, a = .audio woken → s.pc ≠ .payload) →
      (StepSafe cfg proc s t ↔ MeetsBounded cfg s a) := by
    intro hne
    have hmeets : MeetsBounded cfg s a := by
      cases a with
      | audio woken => exact fun hpc => absurd hpc (hne woken rfl)
      | _ => trivial
    refine ⟨fun _ => hmeets, fun _ => ⟨fun hf => ?_, fun slot hpc hnext => ?_⟩⟩
    · rcases h with h | h
      · exact h
      · rcases h.step hs with ⟨⟨woken, ha⟩, hpc, -⟩ | ht
        · exact absurd hpc (hne woken ha)
        · exact absurd hf ht.running
    · cases a with
      | audio woken => exact absurd hpc (hne woken rfl)
      | produce a | consume a =>
        obtain ⟨ring, -, rfl⟩ := Option.map_eq_some_iff.mp hs
        rw [show s.pc = .publishHead from hnext] at hpc
        cases hpc
      | post | control change | stop | controlStop =>
        cases hs
        rw [show s.pc = .publishHead from hnext] at hpc
        cases hpc
  cases a with
  | audio woken =>
    by_cases hpc : s.pc = .payload
    · rcases h with h | h
      · rw [h] at hpc
        cases hpc
      have hin := h.inputSide
      have hout := h.outputSide
      rw [hpc] at hin hout
      obtain ⟨islot, hcon⟩ := hin
      obtain ⟨slot, hprod⟩ := hout
      have hheld : s.held = some (s.input.slots islot) := by simp [Loop.held, hcon]
      obtain ⟨hframes, hchannels⟩ := h.header 6 slot _ (by rw [hpc]; rfl)
        (by simp [ShmRing.acquiredSlot, hprod]) hheld
      have hs' : s.audioStep cfg proc true = some t := by
        simp only [Loop.step, audioStep, hpc] at hs ⊢
        exact hs
      rw [payload_safe_iff hpc hheld hcon hprod (hframes (by decide)) (hchannels (by decide)) h.chainSize hs']
      constructor
      · intro hb _ b hheld'
        rw [hheld] at hheld'
        cases hheld'
        exact hb
      · intro hm
        exact hm hpc _ hheld
    · exact hother fun _ _ => hpc
  | _ =>
    apply hother
    intro woken ha
    cases ha

theorem Announces.keep {cfg : Config} {proc : SlotFormat → Processor O α} {cIn cOut : BitVec 64}
    {s t : Loop O α} {a : LoopAct O α} (h : s.pc = .fault ∨ Announces cfg cIn cOut s)
    (hs : s.step cfg proc a = some t) : t.pc = .fault ∨ Announces cfg cIn cOut t := by
  rcases h with hf | h
  · exact .inl (fault_step hf hs)
  · exact (h.step hs).imp_left fun hf => hf.2.2

end Loop

/-- In every run, whatever the headers and the host do, each step stays inside the
slots and leaves no announced sample stale if and only if each block that comes to
the payload step is bounded. -/
theorem header_safe_iff [Nontrivial α] (cfg : Config) (proc : SlotFormat → Processor O α)
    (cIn cOut : BitVec 64) (inSlots outSlots : Nat → Block α) (nIn nOut posts : Nat)
    (chain : Option (PluginChain O α)) (as : List (LoopAct O α)) (s : Loop O α)
    (hin : nIn ≤ cfg.inputRing.slotCount.toNat) (hout : nOut ≤ cfg.outputRing.slotCount.toNat)
    (hsize : ∀ ch, chain = some ch → 0 ≤ ch.maxBlockSize) :
    let s0 : Loop O α := .initial (.initial cfg.inputRing cIn inSlots nIn)
      (.initial cfg.outputRing cOut outSlots nOut) chain posts
    exec (Loop.step cfg proc) s0 as = some s →
      (Meets (Loop.step cfg proc) (fun u a => ∀ v, u.step cfg proc a = some v → Loop.StepSafe cfg proc u v) s0 as ↔
        Meets (Loop.step cfg proc) (Loop.MeetsBounded cfg) s0 as) := by
  intro s0 he
  have h0 : Loop.Announces cfg cIn cOut s0 := Loop.Announces.initial posts
    (ShmRing.Inv.initial cIn inSlots hin) (ShmRing.Inv.initial cOut outSlots hout) rfl rfl hsize
  refine meets_congr (fun u => u.pc = .fault ∨ Loop.Announces cfg cIn cOut u) Loop.Announces.keep ?_ (.inr h0) he
  intro u a v hu hs
  rw [← Loop.step_safe_iff hu hs]
  refine ⟨fun h => h v hs, fun h v' hs' => ?_⟩
  rw [hs] at hs'
  cases hs'
  exact h

/-- The rings as `main` opens them, with one input block waiting and a chain that is
switched off. -/
def phase1 : Config := ⟨⟨8, 1088, by decide⟩, ⟨8, 1088, by decide⟩, 256, by decide, by decide⟩

def noProcessor (_ : SlotFormat) : Processor Nat Nat := ⟨fun o _ => (none, o), fun _ _ dst => dst, by simp⟩

def started (frames channels : BitVec 32) : Loop Nat Nat :=
  let block : Block Nat := { seq := 9, frames, channels, sampleRate := 48000, flags := 0, reserved := [],
                             payload := fun _ => 5 }
  let chain : PluginChain Nat Nat :=
    { format := fun _ => .empty, slotsVst3 := fun _ => none, slotsVst2 := fun _ => none,
      slotsClap := fun _ => none, bypass := fun _ => false, loaded := fun _ => false,
      masterEnabled := false, maxBlockSize := 256, scratchA := fun _ => 0, scratchB := fun _ => 0 }
  .initial (.initial phase1.inputRing 0 (fun _ => block) 1) (.initial phase1.outputRing 0 (fun _ => block) 0)
    (some chain) 1

/-- A mono block as long as the chain's block size goes in and out again, and all steps are safe. -/
theorem header_safe_iff_full_block :
    ∃ s, exec (Loop.step phase1 noProcessor) (started 256 1) (List.replicate 19 (.audio true)) = some s ∧
      s.processed = 1 ∧ Meets (Loop.step phase1 noProcessor)
        (fun u a => ∀ v, u.step phase1 noProcessor a = some v → Loop.StepSafe phase1 noProcessor u v)
        (started 256 1) (List.replicate 19 (.audio true)) := by
  obtain ⟨s, hs, hcount⟩ := Option.map_eq_some_iff.mp
    (show (exec (Loop.step phase1 noProcessor) (started 256 1) (List.replicate 19 (.audio true))).map
      (·.processed) = some 1 by decide +kernel)
  have hiff := header_safe_iff phase1 noProcessor 0 0 _ _ 1 0 1 _ (List.replicate 19 (.audio true)) s
    (by decide) (by decide) (by rintro ch ⟨⟩; decide) hs
  exact ⟨s, hs, hcount, hiff.mpr (meets_of_checks (by decide +kernel))⟩

private theorem unsafe_of_unbounded {frames channels : BitVec 32} {pc : Pc}
    (hm : ((exec (Loop.step phase1 noProcessor) (started frames channels) (List.replicate 13 (.audio true))).bind
      fun s => (s.step phase1 noProcessor (.audio true)).map fun t =>
        (decide (Loop.MeetsBounded phase1 s (.audio true)), t.pc)) = some (false, pc)) :
    ∃ s t, exec (Loop.step phase1 noProcessor) (started frames channels) (List.replicate 13 (.audio true)) = some s ∧
      s.step phase1 noProcessor (.audio true) = some t ∧ t.pc = pc ∧ ¬ Loop.StepSafe phase1 noProcessor s t := by
  obtain ⟨s, hs, hm⟩ := Option.bind_eq_some_iff.mp hm
  obtain ⟨t, ht, hview⟩ := Option.map_eq_some_iff.mp hm
  simp only [Prod.mk.injEq, decide_eq_false_iff_not] at hview
  obtain ⟨hunbounded, hpc⟩ := hview
  have h0 : Loop.Announces phase1 0 0 (started frames channels) := Loop.Announces.initial 1
    (ShmRing.Inv.initial 0 _ (by decide)) (ShmRing.Inv.initial 0 _ (by decide)) rfl rfl (by rintro ch ⟨⟩; decide)
  have hinv := invariant_of_step (fun u => u.pc = .fault ∨ Loop.Announces phase1 0 0 u) Loop.Announces.keep (.inr h0) hs
  exact ⟨s, t, hs, ht, hpc, fun hsafe => hunbounded ((Loop.step_safe_iff hinv ht).mp hsafe)⟩

/-- Two channels of 256 frames overrun both slots; of 257 mono frames the chain writes
256, and the published header announces 257. -/
theorem unbounded_blocks_unsafe :
    (∃ s t, exec (Loop.step phase1 noProcessor) (started 256 2) (List.replicate 13 (.audio true)) = some s ∧
      s.step phase1 noProcessor (.audio true) = some t ∧ t.pc = .fault ∧
      ¬ Loop.StepSafe phase1 noProcessor s t) ∧
    ∃ s t, exec (Loop.step phase1 noProcessor) (started 257 1) (List.replicate 13 (.audio true)) = some s ∧
      s.step phase1 noProcessor (.audio true) = some t ∧ t.pc = .publishHead ∧
      ¬ Loop.StepSafe phase1 noProcessor s t :=
  ⟨unsafe_of_unbounded (by decide +kernel), unsafe_of_unbounded (by decide +kernel)⟩

end Plughost.Audio
