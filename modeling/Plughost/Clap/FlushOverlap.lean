import Plughost.Lib.BoundedQueue
import Plughost.Lib.Runs
import Plughost.Vst3.PendingChanges

/-! `ClapPlugin::Process` on the audio thread against `OnEditorIdleTick` on the GUI thread, one
access or plugin call a step, while a plugin stays loaded. -/
namespace Plughost.Clap.FlushOverlap
open Plughost.Runs Plughost.BoundedQueue

/-- A `CLAP_EVENT_PARAM_VALUE`, or a `PendingClapChange`: the id and the bits of the value. -/
structure ParamValue where
  paramId : BitVec 32
  value : BitVec 64
  deriving DecidableEq, Repr

/-- What the two calls read of `ActiveClap`, which `active` points to. `flush` is whether
`paramsExt` and its `flush` are there. -/
structure ActiveClap where
  processing : Bool
  maxBlockSize : Int
  inputChannels : BitVec 32
  outputChannels : BitVec 32
  scratchInL : Nat
  scratchOutL : Nat
  onMainThread : Bool
  flush : Bool
  deriving DecidableEq, Repr

/-- The checks at the top of `Process`. -/
def ActiveClap.accepts (a : ActiveClap) (frames : Int) : Bool :=
  let isMonoMono := a.inputChannels == 1 && a.outputChannels == 1
  let isStereoStereo := a.inputChannels == 2 && a.outputChannels == 2
  a.processing && !(frames ≤ 0 || frames > a.maxBlockSize) && (isMonoMono || isStereoStereo) &&
    !(isStereoStereo && (a.scratchInL < frames || a.scratchOutL < frames))

/-- Where the audio thread stands in `Process`. -/
inductive Audio where
  | idle
  /-- Past the checks. -/
  | passed (frames : Int)
  | drained (frames : Int) (inCtx : List ParamValue)
  | inProcess (frames : Int) (inCtx : List ParamValue)
  | returned (outCtx : List ParamValue)
  deriving DecidableEq, Repr

/-- Where the GUI thread stands in `OnEditorIdleTick`. -/
inductive Gui where
  | idle
  | onMainThread
  | pumped
  /-- The `exchange` has found a request. -/
  | taken
  | inFlush
  | flushed (outCtx : List ParamValue)
  | timers
  deriving DecidableEq, Repr

/-- Bound to call the plugin's process, or in it. -/
def Audio.processing : Audio → Bool
  | .passed _ | .drained .. | .inProcess .. => true
  | .idle | .returned _ => false

/-- Bound to call the plugin's flush, or in it. -/
def Gui.flushing : Gui → Bool
  | .taken | .inFlush => true
  | .idle | .onMainThread | .pumped | .flushed _ | .timers => false

/-- A loaded plugin; `paramChanged` is what the callback has been given. -/
structure Loaded where
  active : ActiveClap
  steadyTime : Int
  pendingChanges : List ParamValue
  flushRequested : Bool
  callback : Bool
  audio : Audio
  gui : Gui
  paramChanged : List ParamValue
  deriving DecidableEq, Repr

inductive Act where
  /-- `Process` is called: `active` and the checks. -/
  | process (frames : Int)
  /-- The pending changes, under `pendingMutex`. -/
  | drain
  | callProcess
  | processReturns (outCtx : List ParamValue)
  | forwardProcessed
  /-- `OnEditorIdleTick` is called. -/
  | tick
  | mainThreadReturns
  | exchange
  | callFlush
  | flushReturns (outCtx : List ParamValue)
  | forwardFlushed
  | tickEnd
  /-- `HostParamsRequestFlush`, from any thread. -/
  | requestFlush
  /-- `SetParam`, on the control thread. -/
  | setParam (paramId : BitVec 32) (normalized : BitVec 64)
  deriving DecidableEq, Repr

/-- What a thread does without starting a call or taking a request. -/
def Act.carriesOn : Act → Bool
  | .process _ | .tick | .exchange | .requestFlush | .setParam .. => false
  | _ => true

namespace Loaded

def initial (active : ActiveClap) (callback : Bool) : Loaded :=
  { active, steadyTime := 0, pendingChanges := [], flushRequested := false, callback, audio := .idle,
    gui := .idle, paramChanged := [] }

/-- `if (cb) for (…) cb(…)`. -/
def forward (s : Loaded) (outCtx : List ParamValue) : List ParamValue :=
  if s.callback then s.paramChanged ++ outCtx else s.paramChanged

def step (s : Loaded) : Act → Option Loaded
  | .process frames => match s.audio with
    | .idle => some (if s.active.accepts frames then { s with audio := .passed frames } else s)
    | _ => none
  | .drain => match s.audio with
    | .passed frames => some { s with audio := .drained frames s.pendingChanges, pendingChanges := [] }
    | _ => none
  | .callProcess => match s.audio with
    | .drained frames inCtx => some { s with audio := .inProcess frames inCtx }
    | _ => none
  | .processReturns outCtx => match s.audio with
    | .inProcess frames _ => some { s with audio := .returned outCtx, steadyTime := s.steadyTime + frames }
    | _ => none
  | .forwardProcessed => match s.audio with
    | .returned outCtx => some { s with audio := .idle, paramChanged := s.forward outCtx }
    | _ => none
  | .tick => match s.gui with
    | .idle => some { s with gui := if s.active.onMainThread then .onMainThread else .pumped }
    | _ => none
  | .mainThreadReturns => match s.gui with
    | .onMainThread => some { s with gui := .pumped }
    | _ => none
  | .exchange => match s.gui with
    | .pumped => some (if s.active.flush && s.flushRequested then { s with gui := .taken, flushRequested := false }
        else { s with gui := .timers })
    | _ => none
  | .callFlush => match s.gui with
    | .taken => some { s with gui := .inFlush }
    | _ => none
  | .flushReturns outCtx => match s.gui with
    | .inFlush => some { s with gui := .flushed outCtx }
    | _ => none
  | .forwardFlushed => match s.gui with
    | .flushed outCtx => some { s with gui := .timers, paramChanged := s.forward outCtx }
    | _ => none
  | .tickEnd => match s.gui with
    | .timers => some { s with gui := .idle }
    | _ => none
  | .requestFlush => some { s with flushRequested := true }
  | .setParam paramId normalized => some { s with
      pendingChanges := push Vst3.kPendingCap s.pendingChanges ⟨paramId, normalized⟩ }

/-- `flush` is in progress at the same time as `process`. -/
def Overlap (s : Loaded) : Prop := (∃ frames inCtx, s.audio = .inProcess frames inCtx) ∧ s.gui = .inFlush

/-- In whatever order the threads go on with what they have begun, the two calls do not overlap. -/
def Certain : Loaded → Prop := Stays step Act.carriesOn fun s => ¬ s.Overlap

/-- What the host never checks: `Process` gets past its checks only while no flush is bound to
follow or under way, and a tick takes a request only while no `process` is. -/
def Apart (s : Loaded) : Act → Prop
  | .process frames => s.active.accepts frames → s.gui.flushing = false
  | .exchange => s.active.flush → s.flushRequested → s.audio.processing = false
  | _ => True

instance (s : Loaded) : (act : Act) → Decidable (Apart s act)
  | .process _ | .exchange => inferInstanceAs (Decidable (_ → _))
  | .drain | .callProcess | .processReturns _ | .forwardProcessed | .tick | .mainThreadReturns | .callFlush
  | .flushReturns _ | .forwardFlushed | .tickEnd | .requestFlush | .setParam .. => inferInstanceAs (Decidable True)

variable {s t : Loaded} {act : Act}

/-- At most one of the threads is bound for the plugin. -/
def Separate (s : Loaded) : Prop := ¬ (s.audio.processing ∧ s.gui.flushing)

/-- A step changes the place of one thread at most, and binds it only in the two places. -/
theorem Separate.keep (h : s.Separate) (hok : Apart s act) (hs : s.step act = some t) : t.Separate := by
  cases act with
  | process frames =>
    simp only [step] at hs
    split at hs <;> cases hs
    split
    · rename_i hacc
      exact fun hboth => Bool.false_ne_true ((hok hacc).symm.trans hboth.2)
    · exact h
  | exchange =>
    simp only [step] at hs
    split at hs <;> cases hs
    split
    · rename_i hboth
      obtain ⟨hflush, hreq⟩ := Bool.and_eq_true_iff.mp hboth
      exact fun hb => Bool.false_ne_true ((hok hflush hreq).symm.trans hb.1)
    · exact fun hb => nomatch hb.2
  | requestFlush | setParam =>
    cases hs
    exact h
  | drain | callProcess =>
    simp only [step] at hs
    split at hs <;> cases hs
    rename_i hp
    exact fun hb => h ⟨by rw [hp]; rfl, hb.2⟩
  | processReturns | forwardProcessed =>
    simp only [step] at hs
    split at hs <;> cases hs
    exact fun hb => nomatch hb.1
  | callFlush =>
    simp only [step] at hs
    split at hs <;> cases hs
    rename_i hp
    exact fun hb => h ⟨hb.1, by rw [hp]; rfl⟩
  | tick =>
    simp only [step] at hs
    split at hs <;> cases hs
    intro hb
    cases honMain : s.active.onMainThread <;> simp [honMain, Gui.flushing] at hb
  | mainThreadReturns | flushReturns | forwardFlushed | tickEnd =>
    simp only [step] at hs
    split at hs <;> cases hs
    exact fun hb => nomatch hb.2

private theorem apart_of_carriesOn (h : act.carriesOn) : Apart s act := by
  cases act <;> trivial

/-- The audio thread, bound to call the plugin's process, gets there without the other's help. -/
private theorem reaches_process (h : s.audio.processing) : ∃ as t, as.all Act.carriesOn ∧ exec step s as = some t ∧
    (∃ frames inCtx, t.audio = .inProcess frames inCtx) ∧ t.gui = s.gui := by
  cases hp : s.audio with
  | idle | returned => simp [hp, Audio.processing] at h
  | passed frames =>
    exact ⟨[.drain, .callProcess], { s with audio := .inProcess frames s.pendingChanges, pendingChanges := [] }, rfl,
      by simp [exec, step, hp], ⟨frames, _, rfl⟩, rfl⟩
  | drained frames inCtx =>
    exact ⟨[.callProcess], { s with audio := .inProcess frames inCtx }, rfl, by simp [exec, step, hp],
      ⟨frames, inCtx, rfl⟩, rfl⟩
  | inProcess frames inCtx => exact ⟨[], s, rfl, rfl, ⟨frames, inCtx, hp⟩, rfl⟩

private theorem reaches_flush (h : s.gui.flushing) : ∃ as t, as.all Act.carriesOn ∧ exec step s as = some t ∧
    t.gui = .inFlush ∧ t.audio = s.audio := by
  cases hp : s.gui with
  | idle | onMainThread | pumped | flushed | timers => simp [hp, Gui.flushing] at h
  | taken => exact ⟨[.callFlush], { s with gui := .inFlush }, rfl, by simp [exec, step, hp], rfl, rfl⟩
  | inFlush => exact ⟨[], s, rfl, rfl, hp, rfl⟩

/-- The calls are sure not to overlap just when at most one thread is bound for the plugin. -/
private theorem certain_iff_separate : s.Certain ↔ s.Separate := by
  constructor
  · rintro h ⟨hprocess, hflush⟩
    obtain ⟨as, u, has, hu, hin, hgui⟩ := reaches_process hprocess
    obtain ⟨bs, v, hbs, hv, hinFlush, haudio⟩ := reaches_flush (hgui ▸ hflush)
    refine h (as ++ bs) v (by rw [List.all_append, has, hbs]; rfl) ?_ ⟨haudio ▸ hin, hinFlush⟩
    rw [exec_append, hu]
    exact hv
  · refine stays_of_invariant Separate (fun hs hkind => hs.keep (apart_of_carriesOn hkind)) ?_
    rintro u hu ⟨⟨frames, inCtx, haudio⟩, hgui⟩
    exact hu ⟨by rw [haudio]; rfl, by rw [hgui]; rfl⟩

/-- A step into a state that is sure keeps the two apart. -/
private theorem apart_of_separate (hs : s.step act = some t) (h : t.Separate) : Apart s act := by
  cases act with
  | process frames =>
    intro hacc
    simp only [step] at hs
    split at hs <;> cases hs
    rw [if_pos hacc] at h
    exact Bool.eq_false_iff.mpr fun hflush => h ⟨rfl, hflush⟩
  | exchange =>
    intro hflush hreq
    simp only [step] at hs
    split at hs <;> cases hs
    rw [if_pos (Bool.and_eq_true_iff.mpr ⟨hflush, hreq⟩)] at h
    exact Bool.eq_false_iff.mpr fun hprocess => h ⟨hprocess, rfl⟩
  | _ => trivial

/-- The two calls are sure not to overlap, in every state of a run and however the calls begun there
go on, exactly when no step of the run lets one thread in while the other is bound for the plugin. -/
theorem certain_iff {active : ActiveClap} {callback : Bool} {acts : List Act}
    (he : exec step (initial active callback) acts = some t) :
    Always step Certain (initial active callback) acts ↔ Meets step Apart (initial active callback) acts :=
  always_iff_meets Separate Separate.keep certain_iff_separate.mpr
    (fun _ hs hcertain => apart_of_separate hs (certain_iff_separate.mp hcertain)) (fun hb => nomatch hb.1) he

/-- A block, a tick that flushes, another block. -/
theorem certain_in_turn : Always step Certain (initial ⟨true, 1024, 1, 1, 0, 0, true, true⟩ true)
    [.requestFlush, .process 64, .drain, .callProcess, .tick, .processReturns [⟨3, 0⟩], .mainThreadReturns,
      .exchange, .callFlush, .forwardProcessed, .flushReturns [⟨4, 0⟩], .process 64, .drain, .forwardFlushed] := by
  have hrun : (exec step (initial ⟨true, 1024, 1, 1, 0, 0, true, true⟩ true)
    [.requestFlush, .process 64, .drain, .callProcess, .tick, .processReturns [⟨3, 0⟩], .mainThreadReturns,
      .exchange, .callFlush, .forwardProcessed, .flushReturns [⟨4, 0⟩], .process 64, .drain,
      .forwardFlushed]).isSome := by decide +kernel
  obtain ⟨t, ht⟩ := Option.isSome_iff_exists.mp hrun
  exact (certain_iff ht).mpr (meets_of_checks (by decide +kernel))

/-- The tick's flush starts in the middle of a block. -/
theorem overlap_in_process : ¬ Always step (fun s => ¬ s.Overlap) (initial ⟨true, 1024, 1, 1, 0, 0, true, true⟩ true)
    [.requestFlush, .process 64, .drain, .callProcess, .tick, .mainThreadReturns, .exchange, .callFlush] := by
  intro h
  obtain ⟨t, ht, hview⟩ := Option.map_eq_some_iff.mp (show
    (exec step (initial ⟨true, 1024, 1, 1, 0, 0, true, true⟩ true)
      [.requestFlush, .process 64, .drain, .callProcess, .tick, .mainThreadReturns, .exchange, .callFlush]).map
        (fun t => (t.audio, t.gui)) = some (.inProcess 64 [], .inFlush) by decide +kernel)
  obtain ⟨haudio, hgui⟩ := Prod.ext_iff.mp hview
  exact h.end ht ⟨⟨64, [], haudio⟩, hgui⟩

end Loaded
end Plughost.Clap.FlushOverlap
