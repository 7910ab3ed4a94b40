import Plughost.Lib.Simulation
import Plughost.Ipc.Wakeup
import Plughost.Audio.Draining

/-! The loop over the `Wait` that each platform has, made of system calls that the host
and the clocks step between, and why the loop over a `Wait` of one step stands for it. -/
namespace Plughost.Audio
open Plughost.Runs Plughost.Semaphore Plughost.Simulation Plughost.Ipc Plughost.Vst3
variable {O α : Type}

/-- The loop, the clocks, and how far the `Wait` at `Pc.wait` has come. -/
structure Calling (W : Waiter) (O α : Type) where
  hosted : Hosted O α
  realtime : Nat
  steady : Nat
  call : W.Call

inductive CallAct (O α : Type) where
  /-- The audio thread's next access; in a `Wait`, the answer to its next system call. -/
  | audio (a : Answer)
  | others (a : LoopAct O α)
  | elapse (n : Nat)
  | setRealtime (n : Nat)

def LoopAct.isAudio : LoopAct O α → Bool
  | .audio _ => true
  | _ => false

/-- The step of a party other than the audio thread. -/
def CallAct.other? : CallAct O α → Option (LoopAct O α)
  | .others a => some a
  | _ => none

namespace Hosted

/-- What `Wait` returned, and the count that it left. -/
def returned (h : Hosted O α) (inputPosts : Nat) (woken : Bool) : Hosted O α :=
  { h with
    loop := { h.loop with inputPosts, pc := if woken then .readTail else .checkStop }
    wokenAt := if woken then h.loop.input.obtained.length else h.wokenAt }

end Hosted

namespace Calling
variable {W : Waiter}

def initial (W : Waiter) (h : Hosted O α) (realtime steady : Nat) : Calling W O α := ⟨h, realtime, steady, W.entered⟩

def kernel (s : Calling W O α) : Kernel := ⟨s.hosted.loop.inputPosts, s.realtime, s.steady⟩

/-- A system call of `inputWakeup.Wait(50)` comes back. -/
def waitStep (s : Calling W O α) (a : Answer) : Option (Calling W O α) :=
  (W.step s.kernel s.call a).map fun (k, c) =>
    match W.result c with
    | none => { s with call := c }
    | some woken => { s with hosted := s.hosted.returned k.count woken, call := W.entered }

def step (cfg : Config) (proc : SlotFormat → Processor O α) (s : Calling W O α) :
    CallAct O α → Option (Calling W O α)
  | .audio a =>
    if s.hosted.loop.pc = .wait then s.waitStep a
    else (s.hosted.step cfg proc (.audio true)).map fun hosted => { s with hosted }
  | .others a =>
    if a.isAudio then none else (s.hosted.step cfg proc a).map fun hosted => { s with hosted }
  | .elapse n => some { s with realtime := s.realtime + n, steady := s.steady + n }
  | .setRealtime n => some { s with realtime := n }

/-- A `Wait` shows when it returns, each other access when it is made. -/
def view (s : Calling W O α) : CallAct O α → Option (LoopAct O α)
  | .audio a =>
    if s.hosted.loop.pc = .wait then
      (W.step s.kernel s.call a).bind fun p => (W.result p.2).map .audio
    else some (.audio true)
  | .others a => some a
  | .elapse _ | .setRealtime _ => none

/-- The host posts once for each block, after it has published it. -/
def PostsAfterPublish (s : Calling W O α) : CallAct O α → Prop
  | .others a => s.hosted.PostsAfterPublish a
  | .audio _ | .elapse _ | .setRealtime _ => True

instance (s : Calling W O α) : (a : CallAct O α) → Decidable (PostsAfterPublish s a)
  | .others a => inferInstanceAs (Decidable (s.hosted.PostsAfterPublish a))
  | .audio _ | .elapse _ | .setRealtime _ => inferInstanceAs (Decidable True)

variable {cfg : Config} {proc : SlotFormat → Processor O α} {s t : Calling W O α} {a : CallAct O α} {as : List (CallAct O α)}

/-- The step that a returning `Wait` stands for. -/
private theorem returned_step {h : Hosted O α} (hpc : h.loop.pc = .wait) {k k' : Kernel} {c : W.Call} {woken : Bool}
    (hk : k.count = h.loop.inputPosts) (heffect : W.Effect k k' c) (hresult : W.result c = some woken) :
    h.step cfg proc (.audio woken) = some (h.returned k'.count woken) := by
  cases heffect with
  | goesOn hr =>
    rw [hr] at hresult
    cases hresult
  | woken hr htake =>
    rw [hr] at hresult
    cases hresult
    have hcount := (Kernel.take_cases htake).1
    have hpos : h.loop.inputPosts ≠ 0 := by omega
    have hleft : h.loop.inputPosts - 1 = k'.count := by omega
    simp [Hosted.step, Loop.step, Loop.audioStep, hpc, hpos, hleft, Hosted.returned]
  | gaveUp hr =>
    rw [hr] at hresult
    cases hresult
    simp [Hosted.step, Loop.step, Loop.audioStep, hpc, hk, Hosted.returned]

/-- The loop over the system calls refines the loop over a `Wait` of one step. -/
private theorem refines (hW : W.Sound) (cfg : Config) (proc : SlotFormat → Processor O α) :
    Refines (step (W := W) cfg proc) (Hosted.step cfg proc) (fun _ => True) hosted view where
  keep _ _ := trivial
  shown := by
    intro s a t b _ hs hb
    cases a with
    | audio a =>
      by_cases hpc : s.hosted.loop.pc = .wait
      · rw [view, if_pos hpc] at hb
        rw [step, if_pos hpc] at hs
        obtain ⟨⟨k, c⟩, hstep, hres⟩ := Option.bind_eq_some_iff.mp hb
        obtain ⟨woken, hwoken, rfl⟩ := Option.map_eq_some_iff.mp hres
        dsimp only at hwoken
        rw [waitStep, hstep] at hs
        simp only [Option.map_some, hwoken, Option.some.injEq] at hs
        rw [← hs]
        exact returned_step hpc rfl (hW.effect hstep) hwoken
      · rw [view, if_neg hpc] at hb
        cases hb
        rw [step, if_neg hpc] at hs
        obtain ⟨h, hh, rfl⟩ := Option.map_eq_some_iff.mp hs
        exact hh
    | others a =>
      cases hb
      rw [step] at hs
      split at hs
      · cases hs
      · obtain ⟨h, hh, rfl⟩ := Option.map_eq_some_iff.mp hs
        exact hh
    | elapse n | setRealtime n => cases hb
  hidden := by
    intro s a t _ hs hb
    cases a with
    | audio a =>
      by_cases hpc : s.hosted.loop.pc = .wait
      · rw [view, if_pos hpc] at hb
        rw [step, if_pos hpc] at hs
        obtain ⟨⟨k, c⟩, hstep, rfl⟩ := Option.map_eq_some_iff.mp hs
        rw [hstep, Option.bind_some, Option.map_eq_none_iff] at hb
        dsimp only at hb ⊢
        rw [hb]
      · rw [view, if_neg hpc] at hb
        cases hb
    | others a => cases hb
    | elapse n | setRealtime n =>
      cases hs
      rfl

/-- Of the others' steps none is hidden and none made up. -/
private theorem view_other (hs : s.step cfg proc a = some t) : (s.view a).filter (fun b => !b.isAudio) = a.other? := by
  cases a with
  | audio a =>
    have hnone : ∀ o : Option Bool, (o.map LoopAct.audio : Option (LoopAct O α)).filter (fun b => !b.isAudio) = none := by
      intro o
      cases o <;> rfl
    simp only [view, CallAct.other?]
    split
    · cases W.step s.kernel s.call a with
      | none => rfl
      | some p => exact hnone _
    · rfl
  | others b =>
    rw [step] at hs
    split at hs
    · cases hs
    · rename_i hother
      simp [view, CallAct.other?, Option.filter, hother]
  | elapse n | setRealtime n => rfl

/-- What the host keeps to among the system calls, it keeps to among whole waits. -/
private theorem view_permitted (hok : s.PostsAfterPublish a) {b : LoopAct O α}
    (hb : s.view a = some b) : Hosted.PostsAfterPublish s.hosted b := by
  cases a with
  | audio a =>
    rw [view] at hb
    split at hb
    · obtain ⟨p, -, hres⟩ := Option.bind_eq_some_iff.mp hb
      obtain ⟨woken, -, rfl⟩ := Option.map_eq_some_iff.mp hres
      trivial
    · cases hb
      trivial
  | others c =>
    cases hb
    exact hok
  | elapse n | setRealtime n => cases hb

end Calling

namespace Hosted
variable {cfg : Config} {proc : SlotFormat → Processor O α}

/-- The counts that `Hosted` keeps beside the loop change nothing in it. -/
private theorem refines_loop (cfg : Config) (proc : SlotFormat → Processor O α) :
    Refines (step cfg proc) (Loop.step cfg proc) (fun _ => True) loop (fun _ a => some a) where
  keep _ _ := trivial
  shown := by
    rintro h a h' b _ hs ⟨rfl⟩
    obtain ⟨t, ht, rfl⟩ := Option.map_eq_some_iff.mp hs
    exact ht
  hidden := by
    intro h a h' _ _ hb
    cases hb

theorem Caught.initial (cIn : BitVec 64) (slots : Nat → Block α) {n posts : Nat} (output : ShmRing (Block α))
    (chain : Option (PluginChain O α)) (hn : n ≤ cfg.inputRing.slotCount.toNat) (hposts : posts ≤ n) :
    Caught cfg cIn (initial cfg cIn slots n output chain posts) where
  input := ShmRing.Inv.initial cIn slots hn
  posted := by
    change posts ≤ ((List.range n).map _).length
    rw [List.length_map, List.length_range]
    exact hposts
  outside _ := Nat.le_add_left ..

end Hosted

/-- Over the system calls of either platform's `Wait` the loop is still an ordered,
accounted relay that takes part in the host's own steps as they were made, and it
waits only when each block whose post has completed has been read and released. -/
theorem relay_over_system_calls (p : Platform) (cfg : Config) (proc : SlotFormat → Processor O α)
    (cIn cOut : BitVec 64) (inSlots outSlots : Nat → Block α) (nIn nOut posts realtime steady : Nat)
    (chain : Option (PluginChain O α)) (as : List (CallAct O α)) (s : Calling (wait 50 p) O α)
    (hin : nIn ≤ cfg.inputRing.slotCount.toNat) (hout : nOut ≤ cfg.outputRing.slotCount.toNat) (hposts : posts ≤ nIn)
    (hsize : ∀ ch, chain = some ch → ch.maxBlockSize = cfg.maxBlockSize)
    (he : exec (Calling.step cfg proc) (.initial (wait 50 p) (.initial cfg cIn inSlots nIn
      (.initial cfg.outputRing cOut outSlots nOut) chain posts) realtime steady) as = some s)
    (hhost : Meets (Calling.step cfg proc) Calling.PostsAfterPublish (.initial (wait 50 p) (.initial cfg cIn inSlots
      nIn (.initial cfg.outputRing cOut outSlots nOut) chain posts) realtime steady) as)
    (ha : ∀ b ∈ s.hosted.loop.input.published, Admissible cfg b) :
    (∃ bs, exec (Hosted.step cfg proc) (.initial cfg cIn inSlots nIn (.initial cfg.outputRing cOut outSlots nOut) chain
        posts) bs = some s.hosted ∧ bs.filter (fun b => !b.isAudio) = as.filterMap CallAct.other?) ∧
    (∃ outs, s.hosted.loop.output.published = (ShmRing.initial cfg.outputRing cOut outSlots nOut).published ++ outs ∧
      Relays cfg proc (s.hosted.loop.input.published.take s.hosted.loop.verdicts.length) s.hosted.loop.verdicts outs ∧
      (s.hosted.loop.pc = .wait → s.hosted.loop.outputPosts = outs.length ∧
        s.hosted.loop.verdicts.length = s.hosted.loop.input.obtained.length)) ∧
    (s.hosted.loop.pc = .wait → s.hosted.loop.inputPosts = 0 → ∀ k < s.hosted.posted, ∃ xs,
      s.hosted.loop.input.obtained[k]? = some xs ∧ ShmRing.Saw s.hosted.loop.input k xs) := by
  have hrefines := Calling.refines (wait_sound 50 p) cfg proc
  have hrun := hrefines.exec_seen trivial he
  refine ⟨⟨_, hrun, filter_seen (fun hs => Calling.view_other hs) he⟩, ?_, fun hpc hzero k hk => ?_⟩
  · have hloop := (Hosted.refines_loop cfg proc).exec_seen trivial hrun
    have hinv := (Loop.Inv.initial posts (ShmRing.Inv.initial cIn inSlots hin)
      (ShmRing.Inv.initial cOut outSlots hout) rfl rfl rfl hsize).exec hloop ha
    obtain ⟨outs, heq, hr⟩ := hinv.ledger.relays
    have hexamined := hinv.ledger.examined
    have hsignals := hinv.ledger.posts
    rw [← hr.length_outs] at hsignals
    refine ⟨outs, heq, hr, fun hpc => ?_⟩
    rw [hpc] at hexamined hsignals
    exact ⟨hsignals, hexamined⟩
  · have hmeets := hrefines.meets_seen (fun _ hok hb => Calling.view_permitted hok hb) trivial hhost he
    have hcaught := invariant (Hosted.Caught cfg cIn) (fun hi hok hs => Hosted.Caught.step hi hok hs)
      (Hosted.Caught.initial cIn inSlots (.initial cfg.outputRing cOut outSlots nOut) chain hin hposts) hmeets hrun
    have hle := hcaught.outside (by rw [hpc]; rfl)
    rw [hzero] at hle
    have hlt : k < s.hosted.loop.input.obtained.length := by omega
    exact ⟨_, List.getElem?_eq_getElem hlt, hcaught.input.saw k _ (List.getElem?_eq_getElem hlt)⟩

/-- One block relayed, a signal in the middle of the wait before it, and a second block
published in the middle of the wait after it. -/
theorem relay_over_system_calls_interrupted :
    let block : Block Nat := { seq := 9, frames := 256, channels := 1, sampleRate := 48000, flags := 0,
                               reserved := [], payload := fun _ => 5 }
    ∃ as, ∃ s : Calling (wait 50 .linux) Nat Nat,
      exec (Calling.step phase1 noProcessor) (.initial (wait 50 .linux) (.initial phase1 0 (fun _ => block) 1
        (.initial phase1.outputRing 0 (fun _ => block) 0) none 1) 999999999 0) as = some s ∧
      s.hosted.loop.input.published.length = 2 ∧ (s.hosted.loop.input.obtained[0]?).isSome ∧
      s.hosted.loop.outputPosts = s.hosted.loop.output.published.length := by
  intro block
  let as : List (CallAct Nat Nat) := [.audio .ok, .audio .ok, .audio .ok, .audio .ok, .audio .eintr, .audio .ok] ++
    List.replicate 22 (.audio .ok) ++ Hosted.publish.map .others ++ [.elapse 7]
  obtain ⟨s, hs, hview⟩ := Option.map_eq_some_iff.mp
    (show (exec (Calling.step phase1 noProcessor) (.initial (wait 50 .linux) (.initial phase1 0 (fun _ => block) 1
      (.initial phase1.outputRing 0 (fun _ => block) 0) none 1) 999999999 0) as).map
        (fun s => (s.hosted.loop.pc, s.hosted.loop.inputPosts, s.hosted.posted, s.hosted.loop.input.published.length,
          s.hosted.loop.input.published.all fun b => b.channels == 1 && b.frames == 256)) =
        some (.wait, 0, 1, 2, true) by decide +kernel)
  simp only [Prod.mk.injEq] at hview
  obtain ⟨hpc, hzero, hposted, hpublished, hmono⟩ := hview
  have hadmissible : ∀ b ∈ s.hosted.loop.input.published, Admissible phase1 b := by
    intro b hb
    have hone := List.all_eq_true.mp hmono b hb
    simp only [Bool.and_eq_true, beq_iff_eq] at hone
    refine .inl ⟨hone.1, ?_⟩
    rw [hone.2]
    decide
  obtain ⟨-, ⟨outs, hout, -, hrest⟩, hread⟩ := relay_over_system_calls .linux phase1 noProcessor 0 0 (fun _ => block)
    (fun _ => block) 1 0 1 999999999 0 none as s (by decide) (by decide) le_rfl (by simp) hs
    (meets_of_checks (by decide +kernel)) hadmissible
  refine ⟨as, s, hs, hpublished, ?_, ?_⟩
  · obtain ⟨xs, hxs, -⟩ := hread hpc hzero 0 (by rw [hposted]; decide)
    rw [hxs]
    rfl
  · rw [(hrest hpc).1, hout]
    rfl

end Plughost.Audio
