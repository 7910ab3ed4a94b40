import Plughost.Audio.Relay

/-! Where in a run the loop decided about each block: the step that found the output ring
full, or the step that made the payload. The accounts of the relay are of these decisions. -/
namespace Plughost.Audio
open Plughost.Runs Plughost.Ipc Plughost.Vst3
variable {O α : Type}

/-- The chain behind a block: `Process` has moved it on if the block went through it. -/
def ChainAfter (proc : SlotFormat → Processor O α) (chain : Option (PluginChain O α)) (b : Block α)
    (chain' : Option (PluginChain O α)) : Prop :=
  match chain with
  | some ch =>
    if b.channels = 1 then ∀ stale, chain' = some (ch.process proc b.payload stale b.frames.toInt).chain
    else chain' = chain
  | none => chain' = none

/-- What a step does to the chain: `Process` moves it on as the payload is made, the control
thread changes it, and nothing else touches it. -/
def ChainMoved (proc : SlotFormat → Processor O α) (s : Loop O α) (a : LoopAct O α) (t : Loop O α) : Prop :=
  match a with
  | .audio _ => if s.pc = .payload then ∀ b, s.held = some b → ChainAfter proc s.chain b t.chain else t.chain = s.chain
  | .control change => t.chain = s.chain.map fun ch => { change ch with maxBlockSize := ch.maxBlockSize }
  | _ => t.chain = s.chain

/-- The run has decided about `b`, with `k` blocks released before it. A drop tells the
counters that the output ring had; a relay tells the chain that the run had at that step. -/
inductive Decided (cfg : Config) (proc : SlotFormat → Processor O α) (s0 : Loop O α) (as : List (LoopAct O α))
    (k : Nat) (b : Block α) : Verdict O α → Prop where
  | dropped {woken : Bool} {u v : Loop O α} (taken : Takes (Loop.step cfg proc) s0 as u (.audio woken) v)
    (turn : u.input.obtained.length = k) (held : u.held = some b) (examined : u.pc = .acquireTail)
    (refused : v.pc = .dropTail) : Decided cfg proc s0 as k b (.dropped u.output.head u.output.tail)
  | relayed {woken : Bool} {u v : Loop O α} (taken : Takes (Loop.step cfg proc) s0 as u (.audio woken) v)
    (turn : u.input.obtained.length = k) (held : u.held = some b) (made : u.pc = .payload) :
    Decided cfg proc s0 as k b (.relayed u.chain)

namespace Decided
variable {cfg : Config} {proc : SlotFormat → Processor O α} {s0 : Loop O α} {as : List (LoopAct O α)} {k : Nat}
  {b : Block α} {v : Verdict O α}

theorem concat (h : Decided cfg proc s0 as k b v) (a : LoopAct O α) : Decided cfg proc s0 (as ++ [a]) k b v := by
  cases h with
  | dropped taken turn held examined refused => exact .dropped taken.concat turn held examined refused
  | relayed taken turn held made => exact .relayed taken.concat turn held made

end Decided

/-- A block whose payload is made, and which is not published yet. -/
def Pc.made : Pc → Bool
  | .publishHead | .publishStore => true
  | _ => false

namespace Loop
variable {cfg : Config} {proc : SlotFormat → Processor O α} {cIn cOut : BitVec 64} {queue : List (Block α)}
  {input output : ShmRing (Block α)} {chain : Option (PluginChain O α)} {posts : Nat} {s0 s t : Loop O α}
  {as : List (LoopAct O α)}

/-- What a step adds to the verdicts. -/
inductive Judged (s : Loop O α) (a : LoopAct O α) (t : Loop O α) : Prop where
  | silent (same : t.verdicts = s.verdicts)
  | dropped (woken : Bool) (audio : a = .audio woken) (examined : s.pc = .acquireTail) (refused : t.pc = .dropTail)
    (added : t.verdicts = s.verdicts ++ [.dropped s.output.head s.output.tail])
  | relayed (stored : s.pc = .publishStore) (added : t.verdicts = s.verdicts ++ [.relayed s.current])

/-- How a step comes to a block that is made, or stays with it. -/
inductive Making (s : Loop O α) (a : LoopAct O α) (t : Loop O α) : Prop where
  | none (h : t.pc.made = false)
  | begun (woken : Bool) (audio : a = .audio woken) (payload : s.pc = .payload) (chain : t.current = s.chain)
    (released : t.input.obtained = s.input.obtained)
  | still (made : s.pc.made = true) (same : t.current = s.current) (released : t.input.obtained = s.input.obtained)

private theorem look_obtained {σ : Type*} {r r' : ShmRing σ} (h : r.look = some r') : r'.obtained = r.obtained := by
  obtain ⟨slot, -, rfl⟩ := ShmRing.look_cases h
  rfl

private theorem judged_copy {write : Block α → Block α → Block α} {next : Pc} {a : LoopAct O α}
    (hs : s.copy write next = some t) (hnext : next.made = false) : Judged s a t ∧ Making s a t := by
  obtain ⟨b, input, output, -, -, -, rfl⟩ := Inv.copy_cases hs
  exact ⟨.silent rfl, .none hnext⟩

private theorem audioStep_judged {woken : Bool} (hs : s.audioStep cfg proc woken = some t) :
    Judged s (.audio woken) t ∧ Making s (.audio woken) t := by
  unfold Loop.audioStep at hs
  cases hpc : s.pc <;> simp only [hpc] at hs
  case checkStop | checkControl =>
    cases hs
    refine ⟨.silent rfl, .none ?_⟩
    dsimp only
    split <;> rfl
  case wait =>
    split at hs
    · cases hs
      exact ⟨.silent rfl, .none rfl⟩
    · split at hs <;> cases hs
      exact ⟨.silent rfl, .none rfl⟩
  case readTail | dropTail | dropStore | releaseTail | releaseStore =>
    obtain ⟨input, -, rfl⟩ := Option.map_eq_some_iff.mp hs
    exact ⟨.silent rfl, .none rfl⟩
  case readHead =>
    obtain ⟨input, -, rfl⟩ := Option.map_eq_some_iff.mp hs
    refine ⟨.silent rfl, .none ?_⟩
    dsimp only
    split <;> rfl
  case acquireHead =>
    obtain ⟨output, -, rfl⟩ := Option.map_eq_some_iff.mp hs
    exact ⟨.silent rfl, .none rfl⟩
  case acquireTail =>
    obtain ⟨output, -, rfl⟩ := Option.map_eq_some_iff.mp hs
    split
    · exact ⟨.dropped woken rfl hpc rfl rfl, .none rfl⟩
    · exact ⟨.silent rfl, .none rfl⟩
  case copySeq | copyFrames | copyChannels | copySampleRate | copyFlags | zeroReserved =>
    exact judged_copy hs rfl
  case payload =>
    cases Inv.dispatched hs with
    | fault => exact ⟨.silent rfl, .none rfl⟩
    | written _ hi => exact ⟨.silent rfl, .begun woken rfl hpc rfl (look_obtained hi)⟩
  case publishHead =>
    obtain ⟨output, -, rfl⟩ := Option.map_eq_some_iff.mp hs
    exact ⟨.silent rfl, .still (by rw [hpc]; rfl) rfl rfl⟩
  case publishStore =>
    obtain ⟨output, -, rfl⟩ := Option.map_eq_some_iff.mp hs
    exact ⟨.relayed hpc rfl, .none rfl⟩
  case dropCount | count | signal =>
    cases hs
    exact ⟨.silent rfl, .none rfl⟩
  case returned | fault => cases hs

/-- A step of another thread leaves the loop where it is. -/
private theorem making_of_same {a : LoopAct O α} (hpc : t.pc = s.pc) (hcurrent : t.current = s.current)
    (hreleased : t.input.obtained = s.input.obtained) : Making s a t := by
  cases hmade : s.pc.made with
  | true => exact .still hmade hcurrent hreleased
  | false => exact .none (by rw [hpc]; exact hmade)

private theorem step_judged {a : LoopAct O α} (hs : s.step cfg proc a = some t) : Judged s a t ∧ Making s a t := by
  cases a with
  | audio woken => exact audioStep_judged hs
  | produce a =>
    obtain ⟨input, hi, rfl⟩ := Option.map_eq_some_iff.mp hs
    exact ⟨.silent rfl, making_of_same rfl rfl (ShmRing.produce_frame hi).2.1⟩
  | consume a =>
    obtain ⟨output, -, rfl⟩ := Option.map_eq_some_iff.mp hs
    exact ⟨.silent rfl, making_of_same rfl rfl rfl⟩
  | post | control change | stop | controlStop =>
    cases hs
    exact ⟨.silent rfl, making_of_same rfl rfl rfl⟩

/-- The dispatch on the payload moves the chain on as `Process` does, and only then. -/
private theorem dispatch_chain (hs : s.dispatch cfg proc = some t) (hrun : t.pc ≠ .fault) {b : Block α}
    (hb : s.held = some b) : ChainAfter proc s.chain b t.chain := by
  have hplain : ∀ {b'}, s.copyPayload cfg b' = some t → t.chain = s.chain := by
    intro b' hs
    unfold Loop.copyPayload at hs
    split at hs
    · obtain ⟨u, hu, rfl⟩ := Option.map_eq_some_iff.mp hs
      obtain ⟨_, input, output, -, -, -, rfl⟩ := Inv.copy_cases hu
      rfl
    · cases hs
      exact absurd rfl hrun
  unfold Loop.dispatch at hs
  rw [hb] at hs
  cases hch : s.chain with
  | none =>
    rw [hch] at hs
    exact (hplain hs).trans hch
  | some ch =>
    rw [hch] at hs
    dsimp only [ChainAfter] at hs ⊢
    split
    · rename_i hmono
      rw [if_pos hmono] at hs
      unfold Loop.runChain at hs
      split at hs
      · obtain ⟨slot, -, hs⟩ := Option.bind_eq_some_iff.mp hs
        obtain ⟨u, -, rfl⟩ := Option.map_eq_some_iff.mp hs
        obtain ⟨ch', y, -, hran⟩ := PluginChain.process_overwrites proc ch b.payload b.frames.toInt
        intro stale
        dsimp only
        rw [(hran _).1, (hran stale).1]
      · cases hs
        exact absurd rfl hrun
    · rename_i hmono
      rw [if_neg hmono] at hs
      exact (hplain hs).trans hch

private theorem audioStep_chain {woken : Bool} (hs : s.audioStep cfg proc woken = some t) (hpc : s.pc ≠ .payload) :
    t.chain = s.chain := by
  have hcopy : ∀ {write next}, s.copy write next = some t → t.chain = s.chain := by
    intro write next hu
    obtain ⟨_, input, output, -, -, -, rfl⟩ := Inv.copy_cases hu
    rfl
  unfold Loop.audioStep at hs
  cases hat : s.pc <;> simp only [hat] at hs
  case payload => exact absurd hat hpc
  case copySeq | copyFrames | copyChannels | copySampleRate | copyFlags | zeroReserved => exact hcopy hs
  case wait =>
    split at hs
    · cases hs
      rfl
    · split at hs <;> cases hs
      rfl
  case acquireTail =>
    obtain ⟨output, -, rfl⟩ := Option.map_eq_some_iff.mp hs
    split <;> rfl
  case readTail | readHead | acquireHead | dropTail | dropStore | publishHead | publishStore | releaseTail
      | releaseStore =>
    obtain ⟨ring, -, rfl⟩ := Option.map_eq_some_iff.mp hs
    rfl
  case checkStop | checkControl | dropCount | count | signal =>
    cases hs
    rfl
  case returned | fault => cases hs

private theorem step_chain {a : LoopAct O α} (hs : s.step cfg proc a = some t) (hrun : t.pc ≠ .fault) :
    ChainMoved proc s a t := by
  cases a with
  | audio woken =>
    rw [ChainMoved]
    split
    · rename_i hpayload
      have hdispatch : s.dispatch cfg proc = some t := by simpa only [Loop.step, Loop.audioStep, hpayload] using hs
      exact fun b hb => dispatch_chain hdispatch hrun hb
    · rename_i hpc
      exact audioStep_chain hs hpc
  | produce a =>
    obtain ⟨input, -, rfl⟩ := Option.map_eq_some_iff.mp hs
    rfl
  | consume a =>
    obtain ⟨output, -, rfl⟩ := Option.map_eq_some_iff.mp hs
    rfl
  | post | control change | stop | controlStop =>
    cases hs
    rfl

/-- Every verdict so far, and the one that the block being published will get, has its step,
and so has every move of the chain. -/
structure Traced (cfg : Config) (proc : SlotFormat → Processor O α) (s0 : Loop O α) (as : List (LoopAct O α))
    (s : Loop O α) : Prop where
  told : ∀ k v b, s.verdicts[k]? = some v → s.input.published[k]? = some b → Decided cfg proc s0 as k b v
  made : s.pc.made = true → ∀ b, s.input.published[s.input.obtained.length]? = some b →
    Decided cfg proc s0 as s.input.obtained.length b (.relayed s.current)
  moved : Meets (Loop.step cfg proc) (fun u a => ∀ v, u.step cfg proc a = some v → ChainMoved proc u a v) s0 as

namespace Inv

/-- The verdicts are about blocks that are published. -/
private theorem verdicts_le (h : Inv cfg proc cIn cOut queue s) : s.verdicts.length ≤ s.input.published.length := by
  obtain ⟨outs, -, hr⟩ := h.ledger.relays
  have hlen := hr.length_ins
  rw [List.length_take] at hlen
  omega

/-- Between `Read` and `Release` the loop holds the block that the next verdict is about. -/
private theorem under_examination (h : Inv cfg proc cIn cOut queue s) {slot : Nat}
    (hcon : s.input.consumer = .holding slot) (howes : s.pc.owes = ⟨0, 0, 0, 0⟩) :
    s.verdicts.length = s.input.obtained.length ∧ ∃ b, s.held = some b ∧
      s.input.published[s.input.obtained.length]? = some b := by
  have hexamined := h.ledger.examined
  rw [howes] at hexamined
  have hheld : s.held = some (s.input.slots slot) := by simp [Loop.held, hcon]
  exact ⟨hexamined, _, hheld, h.held_block hheld⟩

end Inv

namespace Traced

theorem initial : Traced cfg proc (Loop.initial input output chain posts) [] (Loop.initial input output chain posts) :=
  ⟨fun k v b hv => (by simp [Loop.initial] at hv), nofun, fun bs a u hb => (by simp at hb)⟩

theorem concat (h : Traced cfg proc s0 as s) (hi : Inv cfg proc cIn cOut queue s) (hj : Inv cfg proc cIn cOut queue t)
    (he : exec (Loop.step cfg proc) s0 as = some s) {a : LoopAct O α} (hs : s.step cfg proc a = some t) :
    Traced cfg proc s0 (as ++ [a]) t := by
  obtain ⟨hjudged, hmaking⟩ := step_judged hs
  have hgrow := Inv.published_grows hs
  have hsame : ∀ {k b}, k < s.input.published.length → t.input.published[k]? = some b →
      s.input.published[k]? = some b := by
    intro k b hk hb
    obtain ⟨more, heq⟩ := hgrow
    rwa [← heq, List.getElem?_append_left hk] at hb
  have hlast : ∀ {slot}, s.input.consumer = .holding slot → s.pc.owes = ⟨0, 0, 0, 0⟩ → ∀ {b},
      t.input.published[s.input.obtained.length]? = some b →
        s.held = some b ∧ s.input.published[s.input.obtained.length]? = some b := by
    intro slot hcon howes b hb
    obtain ⟨-, b', hheld, hblock⟩ := hi.under_examination hcon howes
    obtain ⟨hk, -⟩ := List.getElem?_eq_some_iff.mp hblock
    obtain rfl : b' = b := by
      have hb' := hsame hk hb
      rw [hblock] at hb'
      exact Option.some.inj hb'
    exact ⟨hheld, hblock⟩
  have hin := hi.inputSide
  have hold : ∀ k v b, s.verdicts[k]? = some v → t.input.published[k]? = some b →
      Decided cfg proc s0 (as ++ [a]) k b v := by
    intro k v b hv hb
    obtain ⟨hk, -⟩ := List.getElem?_eq_some_iff.mp hv
    exact (h.told k v b hv (hsame (lt_of_lt_of_le hk hi.verdicts_le) hb)).concat a
  -- a new verdict is about the block under examination
  have hnew : ∀ {last}, t.verdicts = s.verdicts ++ [last] → s.verdicts.length = s.input.obtained.length →
      (∀ b, t.input.published[s.input.obtained.length]? = some b →
        Decided cfg proc s0 (as ++ [a]) s.input.obtained.length b last) →
      ∀ k v b, t.verdicts[k]? = some v → t.input.published[k]? = some b → Decided cfg proc s0 (as ++ [a]) k b v := by
    intro last hadded hlen hlater k v b hv hb
    rw [hadded] at hv
    by_cases hk : k < s.verdicts.length
    · rw [List.getElem?_append_left hk] at hv
      exact hold k v b hv hb
    · obtain ⟨hlt, -⟩ := List.getElem?_eq_some_iff.mp hv
      rw [List.length_append, List.length_singleton] at hlt
      obtain rfl : k = s.input.obtained.length := by omega
      rw [← hlen, List.getElem?_concat_length] at hv
      cases hv
      exact hlater b hb
  refine ⟨?_, ?_, h.moved.concat fun u hu v hv => ?_⟩
  · cases hjudged with
    | silent same =>
      rw [same]
      exact hold
    | dropped woken audio examined refused added =>
      rw [examined] at hin
      obtain ⟨slot, hcon⟩ := hin
      have howes : s.pc.owes = ⟨0, 0, 0, 0⟩ := by rw [examined]; rfl
      refine hnew added (hi.under_examination hcon howes).1 fun b hb => ?_
      subst audio
      exact .dropped (takes_last he hs) rfl (hlast hcon howes hb).1 examined refused
    | relayed stored added =>
      rw [stored] at hin
      obtain ⟨slot, hcon⟩ := hin
      have howes : s.pc.owes = ⟨0, 0, 0, 0⟩ := by rw [stored]; rfl
      refine hnew added (hi.under_examination hcon howes).1 fun b hb => ?_
      exact (h.made (by rw [stored]; rfl) b (hlast hcon howes hb).2).concat a
  · intro hmade b hb
    cases hmaking with
    | none hnot =>
      rw [hnot] at hmade
      cases hmade
    | begun woken audio payload chain released =>
      rw [payload] at hin
      obtain ⟨slot, hcon⟩ := hin
      rw [released] at hb ⊢
      obtain ⟨hheld, -⟩ := hlast hcon (by rw [payload]; rfl) hb
      subst audio
      rw [chain]
      exact .relayed (takes_last he hs) rfl hheld payload
    | still made same released =>
      have hcopied : s.pc.copied = some 7 := by
        cases hpc : s.pc <;> rw [hpc] at made <;> first | rfl | cases made
      obtain ⟨slot, hcon⟩ := Inv.holding_of_copied hcopied hin
      have howes : s.pc.owes = ⟨0, 0, 0, 0⟩ := by
        cases hpc : s.pc <;> rw [hpc] at made <;> first | rfl | cases made
      rw [released] at hb ⊢
      rw [same]
      exact (h.made made b (hlast hcon howes hb).2).concat a
  · obtain rfl : u = s := Option.some.inj (hu.symm.trans he)
    obtain rfl : v = t := Option.some.inj (hv.symm.trans hs)
    exact step_chain hs hj.running

/-- Every decision of a run has its step. -/
theorem exec (h0 : Inv cfg proc cIn cOut queue (Loop.initial input output chain posts))
    (he : Runs.exec (Loop.step cfg proc) (Loop.initial input output chain posts) as = some s)
    (ha : ∀ b ∈ s.input.published, Admissible cfg b) :
    Traced cfg proc (Loop.initial input output chain posts) as s := by
  induction as using List.reverseRecOn generalizing s with
  | nil =>
    cases he
    exact initial
  | append_singleton as a ih =>
    have hj := h0.exec he ha
    obtain ⟨u, hu, hs⟩ := exec_concat_some he
    have hau : ∀ b ∈ u.input.published, Admissible cfg b := fun b hb => ha b ((Inv.published_grows hs).subset hb)
    exact (ih hu hau).concat (h0.exec hu hau) hj hu hs

end Traced
end Loop

/-- Every run of the loop against a moving host is an ordered relay with exact
accounts: at every moment up to what the code still owes, and exactly at rest. A block is
made with the chain that the run has at that step, or meets the output ring full there; from
one block to the next the chain moves by `Process` and by the control thread only. -/
theorem relay_ordered_accounted (cfg : Config) (proc : SlotFormat → Processor O α) (cIn cOut : BitVec 64)
    (inSlots outSlots : Nat → Block α) (nIn nOut posts : Nat) (chain : Option (PluginChain O α))
    (as : List (LoopAct O α)) (s : Loop O α) (hin : nIn ≤ cfg.inputRing.slotCount.toNat)
    (hout : nOut ≤ cfg.outputRing.slotCount.toNat)
    (hsize : ∀ ch, chain = some ch → ch.maxBlockSize = cfg.maxBlockSize)
    (he : exec (Loop.step cfg proc) (.initial (.initial cfg.inputRing cIn inSlots nIn)
      (.initial cfg.outputRing cOut outSlots nOut) chain posts) as = some s)
    (ha : ∀ b ∈ s.input.published, Admissible cfg b) :
    s.pc ≠ .fault ∧ ShmRing.Safe cfg.inputRing s.input ∧ ShmRing.Safe cfg.outputRing s.output ∧
    ∃ outs,
      s.output.published = (ShmRing.initial cfg.outputRing cOut outSlots nOut).published ++ outs ∧
      Relays cfg proc (s.input.published.take s.verdicts.length) s.verdicts outs ∧
      (∀ k v b, s.verdicts[k]? = some v → s.input.published[k]? = some b →
        Decided cfg proc (.initial (.initial cfg.inputRing cIn inSlots nIn)
          (.initial cfg.outputRing cOut outSlots nOut) chain posts) as k b v) ∧
      Meets (Loop.step cfg proc) (fun u a => ∀ v, u.step cfg proc a = some v → ChainMoved proc u a v)
        (.initial (.initial cfg.inputRing cIn inSlots nIn) (.initial cfg.outputRing cOut outSlots nOut) chain posts)
        as ∧
      s.verdicts.length = s.input.obtained.length + s.pc.owes.release ∧
      s.processed + s.pc.owes.processed = BitVec.ofNat 64 outs.length ∧
      s.dropped + s.pc.owes.dropped = BitVec.ofNat 64 (s.verdicts.countP Verdict.isDropped) ∧
      s.outputPosts + s.pc.owes.posts = outs.length ∧
      (s.pc.owes = ⟨0, 0, 0, 0⟩ →
        s.processed + s.dropped = BitVec.ofNat 64 s.input.obtained.length ∧ s.outputPosts = outs.length) := by
  have hinitial : Loop.Inv cfg proc cIn cOut _ (.initial (.initial cfg.inputRing cIn inSlots nIn)
      (.initial cfg.outputRing cOut outSlots nOut) chain posts) :=
    Loop.Inv.initial posts (ShmRing.Inv.initial cIn inSlots hin) (ShmRing.Inv.initial cOut outSlots hout) rfl rfl rfl
      hsize
  have hinv := hinitial.exec he ha
  have htraced := Loop.Traced.exec hinitial he ha
  obtain ⟨outs, heq, hr⟩ := hinv.ledger.relays
  have hprocessed := hinv.ledger.processed
  have hposts := hinv.ledger.posts
  have hexamined := hinv.ledger.examined
  have hdropped := hinv.ledger.dropped
  rw [← hr.length_outs] at hprocessed hposts
  refine ⟨hinv.running, hinv.input.safe, hinv.output.safe, outs, heq, hr, htraced.told, htraced.moved, hexamined,
    hprocessed, hdropped, hposts, fun hrest => ?_⟩
  rw [hrest] at hexamined hprocessed hdropped hposts
  have htotal := List.length_eq_countP_add_countP Verdict.isDropped (l := s.verdicts)
  simp only [Bool.not_eq_true, Bool.decide_eq_false] at htotal
  rw [← hr.length_outs] at htotal
  refine ⟨?_, hposts⟩
  simp only [BitVec.ofNat_eq_ofNat, BitVec.add_zero] at hprocessed hdropped
  rw [hprocessed, hdropped, ← BitVec.ofNat_add, ← show s.verdicts.length = s.input.obtained.length from hexamined,
    htotal, Nat.add_comm]

/-- A plugin in the first slot that adds its state to each sample. -/
def adding : SlotFormat → Processor Nat Nat := fun _ =>
  ⟨fun o x => (some (x.map (· + o)), o + 1), fun _ _ dst => dst, by
    intro o x y h
    cases h
    exact List.length_map _⟩

def oneAdder : PluginChain Nat Nat where
  format i := if i = 0 then .vst3 else .empty
  slotsVst3 i := if i = 0 then some 3 else none
  slotsVst2 _ := none
  slotsClap _ := none
  bypass _ := false
  loaded i := i = 0
  masterEnabled := true
  maxBlockSize := 1
  scratchA _ := 0
  scratchB _ := 0

/-- The first block went through a chain, the second met a full ring. -/
def relayedThenDropped : List (Verdict O α) → Bool
  | [.relayed (some _), .dropped _ _] => true
  | _ => false

private theorem of_relayedThenDropped {vs : List (Verdict O α)} (h : relayedThenDropped vs = true) :
    ∃ ch head tail, vs = [.relayed (some ch), .dropped head tail] := by
  unfold relayedThenDropped at h
  split at h
  · exact ⟨_, _, _, rfl⟩
  · cases h

def twoMono : List (Block α) → Bool
  | [b, c] => b.channels == 1 && b.frames == 1 && c.channels == 1 && c.frames == 1
  | _ => false

private theorem of_twoMono {bs : List (Block α)} (h : twoMono bs = true) :
    ∃ b c, bs = [b, c] ∧ ∀ d ∈ bs, d.channels = 1 ∧ d.frames = 1 := by
  unfold twoMono at h
  split at h
  · simp only [Bool.and_eq_true, beq_iff_eq] at h
    obtain ⟨⟨⟨hb, hb'⟩, hc⟩, hc'⟩ := h
    exact ⟨_, _, rfl, by simp [hb, hb', hc, hc']⟩
  · cases h

/-- One-slot output ring and two waiting blocks: the first goes through the plugin, the
second meets the full ring and is dropped. -/
theorem relay_ordered_accounted_when_full :
    let cfg : Config := ⟨⟨2, 68, by decide⟩, ⟨1, 68, by decide⟩, 1, by decide, by decide⟩
    let block : Block Nat := { seq := 9, frames := 1, channels := 1, sampleRate := 48000, flags := 0,
                               reserved := [], payload := fun _ => 5 }
    let s0 : Loop Nat Nat := .initial (.initial cfg.inputRing 0 (fun _ => block) 2)
      (.initial cfg.outputRing 0 (fun _ => block) 0) (some oneAdder) 1
    let as : List (LoopAct Nat Nat) := List.replicate 27 (.audio true)
    ∃ s, exec (Loop.step cfg adding) s0 as = some s ∧
      s.output.published.map (fun b => (b.seq, b.payload 0)) = [(9, 8)] ∧
      (s.processed, s.dropped, s.outputPosts) = (1, 1, 1) ∧
      s.processed + s.dropped = BitVec.ofNat 64 s.input.obtained.length ∧
      (∃ b ch, Decided cfg adding s0 as 0 b (.relayed (some ch))) ∧
      ∃ b head tail, Decided cfg adding s0 as 1 b (.dropped head tail) := by
  intro cfg block s0 as
  obtain ⟨s, hs, hview⟩ := Option.map_eq_some_iff.mp
    (show (exec (Loop.step cfg adding) s0 as).map (fun s =>
      (s.output.published.map fun b => (b.seq, b.payload 0), (s.processed, s.dropped, s.outputPosts),
        s.pc == .readTail && relayedThenDropped s.verdicts && twoMono s.input.published)) =
        some ([(9, 8)], (1, 1, 1), true) by decide +kernel)
  simp only [Prod.mk.injEq, Bool.and_eq_true, beq_iff_eq] at hview
  obtain ⟨hout, hcounts, ⟨hpc, hverdicts⟩, hblocks⟩ := hview
  obtain ⟨ch, head, tail, hverdicts⟩ := of_relayedThenDropped hverdicts
  obtain ⟨b, c, hpublished, hmono⟩ := of_twoMono hblocks
  have hadm : ∀ d ∈ s.input.published, Admissible cfg d := fun d hd =>
    .inl ⟨(hmono d hd).1, by rw [(hmono d hd).2]; decide, by rw [(hmono d hd).2]; decide⟩
  obtain ⟨-, -, -, outs, -, -, hdecided, -, -, -, -, -, hrest⟩ := relay_ordered_accounted cfg adding 0 0 _ _ 2 0 1
    (some oneAdder) as s (by decide) (by decide) (by rintro _ ⟨⟩; rfl) hs hadm
  refine ⟨s, hs, hout, by simp [hcounts], (hrest (by rw [hpc]; rfl)).1, ⟨b, ch, ?_⟩, c, head, tail, ?_⟩
  · exact hdecided 0 _ b (by rw [hverdicts]; rfl) (by rw [hpublished]; rfl)
  · exact hdecided 1 _ c (by rw [hverdicts]; rfl) (by rw [hpublished]; rfl)

end Plughost.Audio
