import Plughost.Audio.HeaderSafety

/-! The loop's waits and drains against what the host publishes and posts: which
blocks a waiting audio thread has behind it, and how long one drain can last. -/
namespace Plughost.Audio
open Plughost.Runs Plughost.Ipc Plughost.Vst3
variable {O α : Type}

/-- Between a `Wait` that succeeded and the `Read` that finds the ring empty. -/
def Pc.draining : Pc → Bool
  | .checkStop | .checkControl | .wait | .returned => false
  | _ => true

/-- The loop with two counts for the statements only: the host's posts so far, and
the blocks that were released when `Wait` last succeeded. -/
structure Hosted (O α : Type) where
  loop : Loop O α
  posted : Nat
  wokenAt : Nat

namespace Hosted

/-- The input ring with `n` blocks waiting and `posts` of their posts pending. -/
def initial (cfg : Config) (cIn : BitVec 64) (slots : Nat → Block α) (n : Nat) (output : ShmRing (Block α))
    (chain : Option (PluginChain O α)) (posts : Nat) : Hosted O α :=
  { loop := Loop.initial (ShmRing.initial cfg.inputRing cIn slots n) output chain posts, posted := posts, wokenAt := 0 }

def step (cfg : Config) (proc : SlotFormat → Processor O α) (h : Hosted O α) (a : LoopAct O α) : Option (Hosted O α) :=
  (h.loop.step cfg proc a).map fun t =>
    { loop := t
      posted := match a with
        | .post => h.posted + 1
        | _ => h.posted
      wokenAt := if h.loop.pc = .wait ∧ t.pc = .readTail then t.input.obtained.length else h.wokenAt }

/-- The host posts once for each block, after it has published it. -/
def PostsAfterPublish (h : Hosted O α) : LoopAct O α → Prop
  | .post => h.posted < h.loop.input.published.length
  | _ => True

/-- While a drain lasts, the host publishes only within `slotCount` of the blocks
that were released when it began. -/
def PublishesWithinRing (cfg : Config) (h : Hosted O α) : LoopAct O α → Prop
  | .produce .publishStore => h.loop.pc.draining = true →
      h.loop.input.published.length < h.wokenAt + cfg.inputRing.slotCount.toNat
  | _ => True

instance (h : Hosted O α) : (a : LoopAct O α) → Decidable (PostsAfterPublish h a)
  | .post => inferInstanceAs (Decidable (_ < _))
  | .audio _ | .produce _ | .consume _ | .control _ | .stop | .controlStop => inferInstanceAs (Decidable True)

instance (cfg : Config) (h : Hosted O α) : (a : LoopAct O α) → Decidable (PublishesWithinRing cfg h a)
  | .produce .publishStore => inferInstanceAs (Decidable (_ → _))
  | .produce .acquireHead | .produce .acquireTail | .produce (.fill _) | .produce .publishHead => inferInstanceAs (Decidable True)
  | .audio _ | .post | .consume _ | .control _ | .stop | .controlStop => inferInstanceAs (Decidable True)

/-- The blocks that the drain under way has taken from the ring. -/
def taken (h : Hosted O α) : Nat := h.loop.input.obtained.length - h.wokenAt

end Hosted

namespace Loop
variable {cfg : Config} {proc : SlotFormat → Processor O α} {s t : Loop O α}

/-- What a step of the audio thread does to the input ring and its semaphore. -/
inductive InputEffect (cfg : Config) (s t : Loop O α) : Prop
  | idle (here : s.pc.draining = false) (there : t.pc.draining = false) (input : t.input = s.input)
      (posts : t.inputPosts = s.inputPosts)
  | woken (here : s.pc = .wait) (there : t.pc = .readTail) (input : t.input = s.input)
      (posts : t.inputPosts + 1 = s.inputPosts)
  | works (here : s.pc.draining = true) (there : t.pc.draining = true)
      (input : t.input = s.input ∨ ∃ a, s.input.consume cfg.inputRing a = some t.input)
      (posts : t.inputPosts = s.inputPosts)
  | empty (here : s.pc = .readHead) (there : t.pc = .checkStop) (input : s.input.readHead cfg.inputRing = some t.input)
      (idle : t.input.consumer = .idle) (posts : t.inputPosts = s.inputPosts)

private theorem inputEffect_copy {write : Block α → Block α → Block α} {next : Pc} (hpc : s.pc.draining = true)
    (hnext : next.draining = true) (hs : s.copy write next = some t) : InputEffect cfg s t := by
  obtain ⟨b, input, output, -, hlook, -, rfl⟩ := Inv.copy_cases hs
  exact .works hpc hnext (.inr ⟨.look, hlook⟩) rfl

private theorem inputEffect_dispatch (hpc : s.pc = .payload) (hs : s.dispatch cfg proc = some t) :
    InputEffect cfg s t := by
  have hhere : s.pc.draining = true := by rw [hpc]; rfl
  cases Inv.dispatched hs with
  | fault => exact .works hhere rfl (.inl rfl) rfl
  | written _ hlook => exact .works hhere rfl (.inr ⟨.look, hlook⟩) rfl

/-- Every step of the audio thread is one of the four. -/
private theorem inputEffect_audioStep {woken : Bool} (hs : s.audioStep cfg proc woken = some t) :
    InputEffect cfg s t := by
  unfold Loop.audioStep at hs
  cases hpc : s.pc <;> simp only [hpc] at hs
  case checkStop | checkControl =>
    cases hs
    refine .idle (by rw [hpc]; rfl) ?_ rfl rfl
    dsimp only
    split <;> rfl
  case wait =>
    split at hs
    · cases hs
      exact .idle (by rw [hpc]; rfl) rfl rfl rfl
    · split at hs <;> cases hs
      exact .woken hpc rfl rfl (by dsimp only; omega)
  case readTail =>
    obtain ⟨input, hi, rfl⟩ := Option.map_eq_some_iff.mp hs
    exact .works (by rw [hpc]; rfl) rfl (.inr ⟨.readTail, hi⟩) rfl
  case readHead =>
    obtain ⟨input, hi, rfl⟩ := Option.map_eq_some_iff.mp hs
    by_cases hidle : input.consumer = .idle
    · refine .empty hpc ?_ hi hidle rfl
      dsimp only
      rw [if_pos hidle]
    · refine .works (by rw [hpc]; rfl) ?_ (.inr ⟨.readHead, hi⟩) rfl
      dsimp only
      rw [if_neg hidle]
      rfl
  case acquireHead | publishHead | publishStore =>
    obtain ⟨output, -, rfl⟩ := Option.map_eq_some_iff.mp hs
    exact .works (by rw [hpc]; rfl) rfl (.inl rfl) rfl
  case acquireTail =>
    obtain ⟨output, -, rfl⟩ := Option.map_eq_some_iff.mp hs
    split <;> exact .works (by rw [hpc]; rfl) rfl (.inl rfl) rfl
  case dropTail | releaseTail =>
    obtain ⟨input, hi, rfl⟩ := Option.map_eq_some_iff.mp hs
    exact .works (by rw [hpc]; rfl) rfl (.inr ⟨.releaseTail, hi⟩) rfl
  case dropStore | releaseStore =>
    obtain ⟨input, hi, rfl⟩ := Option.map_eq_some_iff.mp hs
    exact .works (by rw [hpc]; rfl) rfl (.inr ⟨.releaseStore, hi⟩) rfl
  case dropCount | count | signal =>
    cases hs
    exact .works (by rw [hpc]; rfl) rfl (.inl rfl) rfl
  case copySeq | copyFrames | copyChannels | copySampleRate | copyFlags | zeroReserved =>
    exact inputEffect_copy (by rw [hpc]; rfl) rfl hs
  case payload => exact inputEffect_dispatch hpc hs
  case returned | fault => cases hs

/-- A `Read` that finds nothing does so when every published block has been released. -/
private theorem readHead_idle {cIn : BitVec 64} {r u : ShmRing (Block α)} (h : ShmRing.Inv cfg.inputRing cIn r)
    (hs : r.readHead cfg.inputRing = some u) (hidle : u.consumer = .idle) :
    u.published = r.published ∧ u.obtained = r.obtained ∧ r.published.length = r.obtained.length := by
  obtain ⟨tail, hcon, ⟨heq, rfl⟩ | ⟨-, rfl⟩⟩ := ShmRing.readHead_cases hs
  · have htail : tail = r.tail := by simpa [ShmRing.ConsumerOk, hcon] using h.consumerOk
    rw [htail] at heq
    exact ⟨rfl, rfl, h.empty_iff.mp heq⟩
  · cases hidle

/-- Only the last access of `Publish` adds a block. -/
private theorem produce_published {r u : ShmRing (Block α)} {a : ProducerAct (Block α)}
    (hs : r.produce cfg.inputRing a = some u) :
    u.published = r.published ∨ a = .publishStore ∧ u.published.length = r.published.length + 1 := by
  cases a with
  | acquireHead =>
    obtain ⟨-, rfl⟩ := ShmRing.acquireHead_cases hs
    exact .inl rfl
  | acquireTail =>
    obtain ⟨head, -, ⟨-, rfl⟩ | ⟨-, rfl⟩⟩ := ShmRing.acquireTail_cases hs
    · exact .inl rfl
    · exact .inl rfl
  | fill write =>
    obtain ⟨slot, -, rfl⟩ := ShmRing.fill_cases hs
    exact .inl rfl
  | publishHead =>
    obtain ⟨slot, -, rfl⟩ := ShmRing.publishHead_cases hs
    exact .inl rfl
  | publishStore =>
    obtain ⟨slot, head, -, rfl⟩ := ShmRing.publishStore_cases hs
    exact .inr ⟨rfl, by simp⟩

end Loop

namespace Hosted
variable {cfg : Config} {proc : SlotFormat → Processor O α} {cIn : BitVec 64} {h h' : Hosted O α} {a : LoopAct O α}

/-- What a step of the whole is made of, seen from the input ring. -/
inductive Effect (cfg : Config) (h h' : Hosted O α) : LoopAct O α → Prop
  | audio {woken : Bool} (effect : Loop.InputEffect cfg h.loop h'.loop) (posted : h'.posted = h.posted)
      (wokenAt : h'.wokenAt = if h.loop.pc = .wait ∧ h'.loop.pc = .readTail then h'.loop.input.obtained.length
        else h.wokenAt) : Effect cfg h h' (.audio woken)
  | produce {p : ProducerAct (Block α)} (input : h.loop.input.produce cfg.inputRing p = some h'.loop.input)
      (pc : h'.loop.pc = h.loop.pc) (posts : h'.loop.inputPosts = h.loop.inputPosts) (posted : h'.posted = h.posted)
      (wokenAt : h'.wokenAt = h.wokenAt) : Effect cfg h h' (.produce p)
  | post (input : h'.loop.input = h.loop.input) (pc : h'.loop.pc = h.loop.pc)
      (posts : h'.loop.inputPosts = h.loop.inputPosts + 1) (posted : h'.posted = h.posted + 1)
      (wokenAt : h'.wokenAt = h.wokenAt) : Effect cfg h h' .post
  | other {a : LoopAct O α} (input : h'.loop.input = h.loop.input) (pc : h'.loop.pc = h.loop.pc)
      (posts : h'.loop.inputPosts = h.loop.inputPosts) (posted : h'.posted = h.posted)
      (wokenAt : h'.wokenAt = h.wokenAt) : Effect cfg h h' a

/-- A step of the host finds and leaves the audio thread at one point. -/
private theorem wokenAt_of_pc {pc : Pc} {n m : Nat} : (if pc = .wait ∧ pc = .readTail then n else m) = m := by
  apply if_neg
  rintro ⟨rfl, heq⟩
  cases heq

private theorem effect_step (hs : h.step cfg proc a = some h') : Effect cfg h h' a := by
  obtain ⟨t, ht, rfl⟩ := Option.map_eq_some_iff.mp hs
  cases a with
  | audio woken => exact .audio (Loop.inputEffect_audioStep ht) rfl rfl
  | produce p =>
    obtain ⟨input, hi, rfl⟩ := Option.map_eq_some_iff.mp ht
    exact .produce hi rfl rfl rfl wokenAt_of_pc
  | post =>
    cases ht
    exact .post rfl rfl rfl rfl wokenAt_of_pc
  | consume c =>
    obtain ⟨output, -, rfl⟩ := Option.map_eq_some_iff.mp ht
    exact .other rfl rfl rfl rfl wokenAt_of_pc
  | control change | stop | controlStop =>
    cases ht
    exact .other rfl rfl rfl rfl wokenAt_of_pc

/-- Outside a drain each completed post is of a released block, or still in the count. -/
structure Caught (cfg : Config) (cIn : BitVec 64) (h : Hosted O α) : Prop where
  input : ShmRing.Inv cfg.inputRing cIn h.loop.input
  posted : h.posted ≤ h.loop.input.published.length
  outside : h.loop.pc.draining = false → h.posted ≤ h.loop.input.obtained.length + h.loop.inputPosts

theorem Caught.audio (hi : Caught cfg cIn h) (heffect : Loop.InputEffect cfg h.loop h'.loop)
    (hposted : h'.posted = h.posted) : Caught cfg cIn h' := by
  cases heffect with
  | idle here there input posts =>
    refine ⟨by rw [input]; exact hi.input, by rw [input, hposted]; exact hi.posted, fun _ => ?_⟩
    rw [hposted, input, posts]
    exact hi.outside here
  | woken here there input posts =>
    refine ⟨by rw [input]; exact hi.input, by rw [input, hposted]; exact hi.posted, fun hout => ?_⟩
    rw [there] at hout
    cases hout
  | works here there input posts =>
    have hnot : h'.loop.pc.draining = false → False := fun hout => Bool.noConfusion (there.symm.trans hout)
    rcases input with hsame | ⟨c, hc⟩
    · exact ⟨by rw [hsame]; exact hi.input, by rw [hsame, hposted]; exact hi.posted, fun hout => (hnot hout).elim⟩
    · refine ⟨hi.input.consume hc, ?_, fun hout => (hnot hout).elim⟩
      rw [hposted, (ShmRing.consume_frame hc).2.2]
      exact hi.posted
  | empty here there input idle posts =>
    have hposts := hi.posted
    obtain ⟨hpub, hobt, hall⟩ := Loop.readHead_idle hi.input input idle
    refine ⟨hi.input.consume (a := .readHead) input, by rw [hpub, hposted]; exact hposts, fun _ => ?_⟩
    rw [hposted, hobt]
    omega

theorem Caught.step (hi : Caught cfg cIn h) (hok : PostsAfterPublish h a) (hs : h.step cfg proc a = some h') :
    Caught cfg cIn h' := by
  have hposts := hi.posted
  cases effect_step hs with
  | audio effect posted _ => exact hi.audio effect posted
  | produce input pc posts posted _ =>
    obtain ⟨-, hobt, hpub⟩ := ShmRing.produce_frame input
    refine ⟨hi.input.produce input, ?_, fun hout => ?_⟩
    · rw [posted]
      exact hposts.trans hpub.length_le
    · rw [pc] at hout
      rw [posted, hobt, posts]
      exact hi.outside hout
  | post input pc posts posted _ =>
    have hlt : h.posted < h.loop.input.published.length := hok
    refine ⟨by rw [input]; exact hi.input, by rw [input, posted]; exact hlt, fun hout => ?_⟩
    rw [pc] at hout
    rw [posted, input, posts]
    have hle := hi.outside hout
    omega
  | other input pc posts posted _ =>
    refine ⟨by rw [input]; exact hi.input, by rw [input, posted]; exact hposts, fun hout => ?_⟩
    rw [pc] at hout
    rw [posted, input, posts]
    exact hi.outside hout

/-- Whenever the audio thread waits, or is about to, with a count of zero, each block
whose post has completed has been read, complete, and released. -/
theorem no_stranded_block (cfg : Config) (proc : SlotFormat → Processor O α) (cIn : BitVec 64) (slots : Nat → Block α)
    (n posts : Nat) (output : ShmRing (Block α)) (chain : Option (PluginChain O α)) (as : List (LoopAct O α))
    (hn : n ≤ cfg.inputRing.slotCount.toNat) (hposts : posts ≤ n)
    (hhost : Meets (step cfg proc) PostsAfterPublish (initial cfg cIn slots n output chain posts) as) :
    Always (step cfg proc) (fun h => h.loop.pc.draining = false → h.loop.inputPosts = 0 →
      ∀ k < h.posted, ∃ xs, h.loop.input.obtained[k]? = some xs ∧ ShmRing.Saw h.loop.input k xs)
      (initial cfg cIn slots n output chain posts) as := by
  have h0 : Caught cfg cIn (initial cfg cIn slots n output chain posts) := by
    refine ⟨ShmRing.Inv.initial cIn slots hn, ?_, fun _ => ?_⟩
    · change posts ≤ ((List.range n).map _).length
      rw [List.length_map, List.length_range]
      exact hposts
    · exact Nat.le_add_left ..
  refine always_of_meets (Caught cfg cIn) (fun hi hok hs => hi.step hok hs) (fun {h} hi hout hzero k hk => ?_) h0 hhost
  have hle := hi.outside hout
  rw [hzero] at hle
  have hlt : k < h.loop.input.obtained.length := by omega
  exact ⟨_, List.getElem?_eq_getElem hlt, hi.input.saw k _ (List.getElem?_eq_getElem hlt)⟩

/-- `Publish` from an idle producer. -/
def publish : List (LoopAct Nat Nat) := [.produce .acquireHead, .produce .acquireTail, .produce .publishHead,
  .produce .publishStore]

/-- A block is published and, before its post, drained by a wake-up left over from an
earlier one; its own post then wakes the thread for nothing. -/
theorem no_stranded_block_surplus :
    let cfg : Config := ⟨⟨2, 68, by decide⟩, ⟨1, 68, by decide⟩, 1, by decide, by decide⟩
    let proc : SlotFormat → Processor Nat Nat := fun _ => ⟨fun o _ => (none, o), fun _ _ dst => dst, by simp⟩
    let block : Block Nat := { seq := 9, frames := 1, channels := 2, sampleRate := 48000, flags := 0,
                               reserved := [], payload := fun _ => 5 }
    ∃ as h, exec (step cfg proc) (initial cfg 0 (fun _ => block) 1 (.initial cfg.outputRing 0 (fun _ => block) 1) none 1)
      as = some h ∧ h.loop.pc = .wait ∧ h.posted = 2 ∧ ∀ k < 2, (h.loop.input.obtained[k]?).isSome := by
  intro cfg proc block
  let as := publish ++ List.replicate 19 (.audio true) ++ [.post] ++ List.replicate 7 (.audio true)
  obtain ⟨h, hh, hview⟩ := Option.map_eq_some_iff.mp
    (show (exec (step cfg proc) (initial cfg 0 (fun _ => block) 1 (.initial cfg.outputRing 0 (fun _ => block) 1) none 1)
      as).map (fun h => (h.loop.pc, h.posted, h.loop.inputPosts)) = some (.wait, 2, 0) by decide +kernel)
  simp only [Prod.mk.injEq] at hview
  obtain ⟨hpc, hposted, hzero⟩ := hview
  have hall := (no_stranded_block cfg proc 0 (fun _ => block) 1 1 (.initial cfg.outputRing 0 (fun _ => block) 1) none as
    (by decide) le_rfl (meets_of_checks (by decide +kernel))).end hh (by rw [hpc]; rfl) hzero
  refine ⟨as, h, hh, hpc, hposted, fun k hk => ?_⟩
  obtain ⟨xs, hxs, -⟩ := hall k (by rw [hposted]; exact hk)
  rw [hxs]
  rfl

/-- In a drain no more is published than a ring full beyond what was released at its start. -/
structure Bounded (cfg : Config) (cIn : BitVec 64) (h : Hosted O α) : Prop where
  input : ShmRing.Inv cfg.inputRing cIn h.loop.input
  taken : h.loop.input.obtained.length ≤ h.wokenAt + cfg.inputRing.slotCount.toNat
  within : h.loop.pc.draining = true → h.loop.input.published.length ≤ h.wokenAt + cfg.inputRing.slotCount.toNat

theorem Bounded.audio (hi : Bounded cfg cIn h) (heffect : Loop.InputEffect cfg h.loop h'.loop)
    (hwoken : h'.wokenAt = if h.loop.pc = .wait ∧ h'.loop.pc = .readTail then h'.loop.input.obtained.length
      else h.wokenAt) : Bounded cfg cIn h' := by
  cases heffect with
  | idle here there input posts =>
    have hsame : h'.wokenAt = h.wokenAt := by
      rw [hwoken, if_neg]
      rintro ⟨-, heq⟩
      rw [heq] at there
      cases there
    refine ⟨by rw [input]; exact hi.input, by rw [input, hsame]; exact hi.taken, fun hin => ?_⟩
    rw [there] at hin
    cases hin
  | woken here there input posts =>
    rw [if_pos ⟨here, there⟩] at hwoken
    have hroom := hi.input.room
    refine ⟨by rw [input]; exact hi.input, by rw [hwoken]; exact Nat.le_add_right .., fun _ => ?_⟩
    rw [hwoken, input]
    exact hroom
  | works here there input posts =>
    have hsame : h'.wokenAt = h.wokenAt := by
      rw [hwoken, if_neg]
      rintro ⟨heq, -⟩
      rw [heq] at here
      cases here
    have hwithin := hi.within here
    rcases input with heq | ⟨c, hc⟩
    · refine ⟨by rw [heq]; exact hi.input, by rw [heq, hsame]; exact hi.taken, fun _ => ?_⟩
      rw [heq, hsame]
      exact hwithin
    · have hinput := hi.input.consume hc
      have hpub := (ShmRing.consume_frame hc).2.2
      have horder := hinput.order
      rw [hpub] at horder
      refine ⟨hinput, by rw [hsame]; omega, fun _ => ?_⟩
      rw [hpub, hsame]
      exact hwithin
  | empty here there input idle posts =>
    have hsame : h'.wokenAt = h.wokenAt := by
      rw [hwoken, if_neg]
      rintro ⟨heq, -⟩
      rw [here] at heq
      cases heq
    obtain ⟨-, hobt, -⟩ := Loop.readHead_idle hi.input input idle
    refine ⟨hi.input.consume (a := .readHead) input, by rw [hobt, hsame]; exact hi.taken, fun hin => ?_⟩
    rw [there] at hin
    cases hin

theorem Bounded.step (hi : Bounded cfg cIn h) (hok : PublishesWithinRing cfg h a) (hs : h.step cfg proc a = some h') :
    Bounded cfg cIn h' := by
  cases effect_step hs with
  | audio effect _ wokenAt => exact hi.audio effect wokenAt
  | produce input pc _ _ wokenAt =>
    obtain ⟨-, hobt, -⟩ := ShmRing.produce_frame input
    refine ⟨hi.input.produce input, by rw [hobt, wokenAt]; exact hi.taken, fun hin => ?_⟩
    rw [pc] at hin
    rw [wokenAt]
    rcases Loop.produce_published input with heq | ⟨rfl, hmore⟩
    · rw [heq]
      exact hi.within hin
    · rw [hmore]
      exact hok hin
  | post input pc _ _ wokenAt | other input pc _ _ wokenAt =>
    refine ⟨by rw [input]; exact hi.input, by rw [input, wokenAt]; exact hi.taken, fun hin => ?_⟩
    rw [pc] at hin
    rw [input, wokenAt]
    exact hi.within hin

/-- The drain under way will not end before it has taken more than a ring full. -/
structure Overrun (cfg : Config) (cIn : BitVec 64) (h : Hosted O α) : Prop where
  input : ShmRing.Inv cfg.inputRing cIn h.loop.input
  draining : h.loop.pc.draining = true
  beyond : h.wokenAt + cfg.inputRing.slotCount.toNat < h.loop.input.published.length

/-- A drain that is bound to overrun goes on, or ends having done so. -/
theorem Overrun.step (hi : Overrun cfg cIn h) (hs : h.step cfg proc a = some h')
    (htaken : h'.taken ≤ cfg.inputRing.slotCount.toNat) : Overrun cfg cIn h' := by
  have hbeyond := hi.beyond
  cases effect_step hs with
  | audio effect _ wokenAt =>
    have hsame : h'.wokenAt = h.wokenAt := by
      rw [wokenAt, if_neg]
      rintro ⟨heq, -⟩
      have hdraining := hi.draining
      rw [heq] at hdraining
      cases hdraining
    cases effect with
    | idle here there input posts => exact Bool.noConfusion (here.symm.trans hi.draining)
    | woken here there input posts =>
      have hdraining := hi.draining
      rw [here] at hdraining
      cases hdraining
    | works here there input posts =>
      rcases input with heq | ⟨c, hc⟩
      · exact ⟨by rw [heq]; exact hi.input, there, by rw [heq, hsame]; exact hbeyond⟩
      · refine ⟨hi.input.consume hc, there, ?_⟩
        rw [(ShmRing.consume_frame hc).2.2, hsame]
        exact hbeyond
    | empty here there input idle posts =>
      obtain ⟨-, hobt, hall⟩ := Loop.readHead_idle hi.input input idle
      rw [taken, hobt, hsame] at htaken
      omega
  | produce input pc _ _ wokenAt =>
    obtain ⟨-, -, hpub⟩ := ShmRing.produce_frame input
    have hle := hpub.length_le
    exact ⟨hi.input.produce input, by rw [pc]; exact hi.draining, by rw [wokenAt]; omega⟩
  | post input pc _ _ wokenAt | other input pc _ _ wokenAt =>
    exact ⟨by rw [input]; exact hi.input, by rw [pc]; exact hi.draining, by rw [input, wokenAt]; exact hbeyond⟩

private theorem overrun_of_publish (hi : ShmRing.Inv cfg.inputRing cIn h.loop.input)
    (hbad : ¬ PublishesWithinRing cfg h a)
    (hs : h.step cfg proc a = some h') : Overrun cfg cIn h' := by
  obtain ⟨hact, hdraining, hfull⟩ : a = .produce .publishStore ∧ h.loop.pc.draining = true ∧
      h.wokenAt + cfg.inputRing.slotCount.toNat ≤ h.loop.input.published.length := by
    unfold PublishesWithinRing at hbad
    split at hbad
    · rw [Classical.not_imp, Nat.not_lt] at hbad
      exact ⟨rfl, hbad⟩
    · exact absurd trivial hbad
  subst hact
  obtain ⟨t, ht, rfl⟩ := Option.map_eq_some_iff.mp hs
  obtain ⟨input, hin, rfl⟩ := Option.map_eq_some_iff.mp ht
  refine ⟨hi.produce hin, hdraining, ?_⟩
  obtain ⟨slot, head, -, rfl⟩ := ShmRing.publishStore_cases hin
  dsimp only
  rw [wokenAt_of_pc, List.length_append, List.length_singleton]
  omega

/-- The input ring's own invariant asks nothing of the host. -/
theorem inv_step (hi : ShmRing.Inv cfg.inputRing cIn h.loop.input) (hs : h.step cfg proc a = some h') :
    ShmRing.Inv cfg.inputRing cIn h'.loop.input := by
  cases effect_step hs with
  | audio effect _ _ =>
    cases effect with
    | idle _ _ input _ | woken _ _ input _ =>
      rw [input]
      exact hi
    | works _ _ input _ =>
      rcases input with heq | ⟨c, hc⟩
      · rw [heq]
        exact hi
      · exact hi.consume hc
    | empty _ _ input _ _ => exact hi.consume (a := .readHead) input
  | produce input _ _ _ _ => exact hi.produce input
  | post input _ _ _ _ | other input _ _ _ _ =>
    rw [input]
    exact hi

/-- A drain takes at most `slotCount` blocks if, while it lasts, the host publishes
only within `slotCount` of what was released when it began; and when the run does
not end within a drain, only then. -/
theorem drain_bounded_iff (cfg : Config) (proc : SlotFormat → Processor O α) (cIn : BitVec 64) (slots : Nat → Block α)
    (n posts : Nat) (output : ShmRing (Block α)) (chain : Option (PluginChain O α)) (as : List (LoopAct O α))
    (h : Hosted O α) (hn : n ≤ cfg.inputRing.slotCount.toNat)
    (he : exec (step cfg proc) (initial cfg cIn slots n output chain posts) as = some h) :
    (Meets (step cfg proc) (PublishesWithinRing cfg) (initial cfg cIn slots n output chain posts) as →
      Always (step cfg proc) (fun h => h.taken ≤ cfg.inputRing.slotCount.toNat)
        (initial cfg cIn slots n output chain posts) as) ∧
    (h.loop.pc.draining = false →
      (Always (step cfg proc) (fun h => h.taken ≤ cfg.inputRing.slotCount.toNat)
          (initial cfg cIn slots n output chain posts) as ↔
        Meets (step cfg proc) (PublishesWithinRing cfg) (initial cfg cIn slots n output chain posts) as)) := by
  have hring : ShmRing.Inv cfg.inputRing cIn (initial cfg cIn slots n output chain posts).loop.input :=
    ShmRing.Inv.initial cIn slots hn
  have henough : Meets (step cfg proc) (PublishesWithinRing cfg) (initial cfg cIn slots n output chain posts) as →
      Always (step cfg proc) (fun h => h.taken ≤ cfg.inputRing.slotCount.toNat)
        (initial cfg cIn slots n output chain posts) as := by
    have h0 : Bounded cfg cIn (initial cfg cIn slots n output chain posts) :=
      ⟨hring, Nat.zero_le _, fun hin => Bool.noConfusion hin⟩
    refine always_of_meets (Bounded cfg cIn) (fun hi hok hs => hi.step hok hs) (fun {u} hi => ?_) h0
    have hle := hi.taken
    rw [taken]
    omega
  refine ⟨henough, fun hend => ⟨fun halways => ?_, henough⟩⟩
  rintro bs a u ⟨cs, rfl⟩ hu
  by_contra hbad
  obtain ⟨v, hv, -⟩ : ∃ v, exec (step cfg proc) (initial cfg cIn slots n output chain posts) (bs ++ [a]) = some v ∧
      exec (step cfg proc) v cs = some h := by
    rw [exec_append] at he
    exact Option.bind_eq_some_iff.mp he
  have hstep : u.step cfg proc a = some v := by
    rw [exec_concat, hu] at hv
    exact hv
  have hinput : ShmRing.Inv cfg.inputRing cIn u.loop.input :=
    invariant_of_step (fun h => ShmRing.Inv cfg.inputRing cIn h.loop.input) inv_step hring hu
  have hrun : exec (step cfg proc) v cs = some h := by
    rw [exec_append, hv] at he
    exact he
  have hlast := invariant (Overrun cfg cIn) (fun hi hok hs => hi.step hs (hok _ hs)) (overrun_of_publish hinput hbad hstep)
    (halways.rest hv).meets hrun
  rw [hlast.draining] at hend
  cases hend

/-- The rings of `phase1`, `n` blocks waiting in the input ring and the output ring full. -/
def backedUp (n : Nat) : Hosted Nat Nat :=
  let block : Block Nat := { seq := 9, frames := 256, channels := 1, sampleRate := 48000, flags := 0,
                             reserved := [], payload := fun _ => 5 }
  initial phase1 0 (fun _ => block) n (.initial phase1.outputRing 0 (fun _ => block) 8) none 1

/-- Seven blocks wait at the wake-up, and one more is published while they are drained. -/
theorem drain_bounded_iff_eight : ∃ h, exec (step phase1 noProcessor) (backedUp 7)
    (List.replicate 10 (.audio true) ++ publish ++ List.replicate 51 (.audio true)) = some h ∧
    h.loop.pc = .checkStop ∧ h.loop.dropped = 8 ∧ h.taken ≤ 8 := by
  obtain ⟨h, hh, hview⟩ := Option.map_eq_some_iff.mp
    (show (exec (step phase1 noProcessor) (backedUp 7)
      (List.replicate 10 (.audio true) ++ publish ++ List.replicate 51 (.audio true))).map
        (fun h => (h.loop.pc, h.loop.dropped)) = some (.checkStop, 8) by decide +kernel)
  obtain ⟨hpc, hdropped⟩ := Prod.mk.inj hview
  have hall := drain_bounded_iff phase1 noProcessor 0 _ 7 1 _ none _ h (by decide) hh
  exact ⟨h, hh, hpc, hdropped, (hall.1 (meets_of_checks (by decide +kernel))).end hh⟩

/-- Eight blocks wait; the host refills the slots that the drain frees. After the
control thread has asked for a stop, the same drain takes its ninth and tenth block. -/
theorem refilled_drain_overruns : ∃ h, exec (step phase1 noProcessor) (backedUp 8)
    ([.audio true, .audio true, .audio true, .controlStop] ++ List.replicate 7 (.audio true) ++ publish ++
      List.replicate 7 (.audio true) ++ publish ++ List.replicate 56 (.audio true)) = some h ∧
    h.loop.controlStopFlag = true ∧ h.loop.pc = .readTail ∧ h.taken = 10 ∧
    ¬ h.taken ≤ phase1.inputRing.slotCount.toNat := by
  obtain ⟨h, hh, hview⟩ := Option.map_eq_some_iff.mp
    (show (exec (step phase1 noProcessor) (backedUp 8)
      ([.audio true, .audio true, .audio true, .controlStop] ++ List.replicate 7 (.audio true) ++ publish ++
        List.replicate 7 (.audio true) ++ publish ++ List.replicate 56 (.audio true))).map
        (fun h => (h.loop.controlStopFlag, h.loop.pc, h.taken)) = some (true, .readTail, 10) by decide +kernel)
  simp only [Prod.mk.injEq] at hview
  obtain ⟨hstop, hpc, htaken⟩ := hview
  exact ⟨h, hh, hstop, hpc, htaken, by rw [htaken]; decide⟩

/-- In the middle of a drain, both rings full and the control thread asking for a stop. -/
structure Refilled (h : Hosted Nat Nat) : Prop where
  pc : h.loop.pc = .readTail
  reader : h.loop.input.consumer = .idle
  writer : h.loop.input.producer = .idle
  output : h.loop.output.producer = .idle
  full : phase1.outputRing.full h.loop.output.head h.loop.output.tail = true
  ahead : h.loop.input.head = h.loop.input.tail + 8
  stopping : h.loop.controlStopFlag = true

/-- A free slot is published, whatever the audio thread is at. -/
private theorem exec_publish {h : Hosted Nat Nat} (hwriter : h.loop.input.producer = .idle)
    (hroom : phase1.inputRing.full h.loop.input.head h.loop.input.tail = false) :
    ∃ published, exec (step phase1 noProcessor) h publish = some { h with loop := { h.loop with
      input := { h.loop.input with head := h.loop.input.head + 1, producer := .idle, published } } } := by
  simp only [publish, exec, step, Loop.step, ShmRing.produce, ShmRing.acquireHead, ShmRing.acquireTail,
    ShmRing.publishHead, ShmRing.publishStore, hwriter, hroom, Option.map_some, Option.bind_some, wokenAt_of_pc,
    Bool.false_eq_true, if_false]
  exact ⟨_, rfl⟩

/-- The loop drops a block, for want of room in the output ring. -/
private theorem Refilled.exec_drop {h : Hosted Nat Nat} (hr : Refilled h) :
    ∃ block verdicts, exec (step phase1 noProcessor) h (List.replicate 7 (.audio true)) = some { h with loop := { h.loop with
      input := { h.loop.input with
        tail := h.loop.input.tail + 1, consumer := .idle, seen := [], obtained := h.loop.input.obtained ++ [block] }
      output := { h.loop.output with producer := .idle }, dropped := h.loop.dropped + 1, verdicts } } := by
  have hne : h.loop.input.tail + 8 ≠ h.loop.input.tail := by
    intro heq
    have hnat := congrArg BitVec.toNat heq
    simp only [BitVec.toNat_add, BitVec.ofNat_eq_ofNat, BitVec.toNat_ofNat] at hnat
    omega
  simp only [List.replicate, exec, step, Loop.step, Loop.audioStep, hr.pc, hr.reader, hr.output, hr.full, hr.ahead, hne,
    ShmRing.readTail, ShmRing.readHead, ShmRing.acquireHead, ShmRing.acquireTail, ShmRing.releaseTail,
    ShmRing.releaseStore, Option.map_some, Option.bind_some, if_false, if_true, reduceCtorEq, false_and]
  exact ⟨_, _, rfl⟩

/-- The loop drops a block and the host publishes one in its place. -/
private theorem Refilled.cycle {h : Hosted Nat Nat} (hr : Refilled h) :
    ∃ h', exec (step phase1 noProcessor) h (List.replicate 7 (.audio true) ++ publish) = some h' ∧ Refilled h' ∧
      h'.loop.input.obtained.length = h.loop.input.obtained.length + 1 ∧ h'.wokenAt = h.wokenAt := by
  have hroom : phase1.inputRing.full h.loop.input.head (h.loop.input.tail + 1) = false := by
    have hseven : h.loop.input.head - (h.loop.input.tail + 1) = 7 := by
      rw [hr.ahead]
      ring
    rw [RingGeometry.full, hseven]
    decide
  obtain ⟨block, verdicts, hdrop⟩ := hr.exec_drop
  rw [exec_append, hdrop, Option.bind_some]
  obtain ⟨published, hpublish⟩ := exec_publish (h := { h with loop := { h.loop with
    input := { h.loop.input with
      tail := h.loop.input.tail + 1, consumer := .idle, seen := [], obtained := h.loop.input.obtained ++ [block] }
    output := { h.loop.output with producer := .idle }, dropped := h.loop.dropped + 1, verdicts } }) hr.writer hroom
  refine ⟨_, hpublish, ⟨hr.pc, rfl, rfl, rfl, hr.full, ?_, hr.stopping⟩, List.length_append, rfl⟩
  dsimp only
  rw [hr.ahead]
  ring

/-- For every number there is a run in which one drain takes that many blocks while
the control thread has been asking for a stop all along. -/
theorem drain_has_no_bound (n : Nat) : ∃ as h, exec (step phase1 noProcessor) (backedUp 8) as = some h ∧
    h.loop.controlStopFlag = true ∧ h.loop.pc.draining = true ∧ h.taken = n := by
  have hall : ∀ n, ∃ as h, exec (step phase1 noProcessor) (backedUp 8) as = some h ∧ Refilled h ∧
      h.loop.input.obtained.length = n ∧ h.wokenAt = 0 := by
    intro n
    induction n with
    | zero =>
      refine ⟨[.audio true, .audio true, .audio true, .controlStop], _, rfl, ?_, rfl, rfl⟩
      exact ⟨rfl, rfl, rfl, rfl, by decide, by decide, rfl⟩
    | succ n ih =>
      obtain ⟨as, h, he, hr, hlen, hwoken⟩ := ih
      obtain ⟨h', he', hr', hlen', hwoken'⟩ := hr.cycle
      refine ⟨as ++ (List.replicate 7 (.audio true) ++ publish), h', ?_, hr', by rw [hlen', hlen], by rw [hwoken', hwoken]⟩
      rw [exec_append, he]
      exact he'
  obtain ⟨as, h, he, hr, hlen, hwoken⟩ := hall n
  refine ⟨as, h, he, hr.stopping, by rw [hr.pc]; rfl, ?_⟩
  rw [taken, hlen, hwoken, Nat.sub_zero]

end Hosted
end Plughost.Audio
