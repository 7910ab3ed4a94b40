import Mathlib.Data.Fintype.Basic
import Plughost.Vst3.EditEnding
import Plughost.Vst3.PluginChain

/-! `main` from the return of `RunPassthrough` on: the joins, `control.Close`, and the
destruction of its locals, while the plugins' last notifications are still on their way. -/
namespace Plughost.Main.Shutdown
open Plughost.Runs Plughost.BoundedQueue Plughost.Vst3 Plughost.Vst3.EditDrain

/-- The locals of `main` on the path of a notification, and those joined or stopped. -/
inductive Local where
  | control | pluginChain | guiThread | controlSendMutex | trySendFrameLossy | appendU32Le | appendF64Le
  | sendParamChanged | controlReader | heartbeat
  deriving DecidableEq

/-- In the order of their declaration. -/
def locals : List Local :=
  [.control, .pluginChain, .guiThread, .controlSendMutex, .trySendFrameLossy, .appendU32Le, .appendF64Le,
    .sendParamChanged, .controlReader, .heartbeat]

/-- What the chain's callback refers to, itself or through the lambdas it calls. -/
def captured : List Local :=
  [.sendParamChanged, .appendU32Le, .appendF64Le, .trySendFrameLossy, .controlSendMutex, .control]

inductive Statement where
  | joinHeartbeat | joinControlReader | setAsyncCallback | stop | close
  /-- The end of the block, where the local declared last goes first. -/
  | endOfBlock
  /-- In `~PluginChain`, at this slot. -/
  | tearDown (i : Fin kMaxSlots)
  | returned
  deriving DecidableEq

inductive SlotPlugin (E V : Type) where
  | empty
  | vst3 (handler : Handler E V)
  /-- VST2 or CLAP: it calls the callback on the thread it notifies from. -/
  | synchronous

namespace SlotPlugin
variable {E V : Type}

/-- The fires taken from the queue or still in it. -/
def outstanding : SlotPlugin E V → List (QueuedFire V)
  | .vst3 h => inFlight h.drain ++ h.queue
  | .empty | .synchronous => []

/-- The drain thread is about to call the callback. -/
def dispatching : SlotPlugin E V → Bool
  | .vst3 h => match h.drain with
    | .dispatch _ => true
    | _ => false
  | .empty | .synchronous => false

/-- A call of `performEdit` is about to enqueue its fire. -/
def pushing (e : E) : SlotPlugin E V → Bool
  | .vst3 h => (Recorded.pushed h (.editor e)).isSome
  | .empty | .synchronous => false

def full : SlotPlugin E V → Bool
  | .vst3 h => kQueueCap ≤ h.queue.length
  | .empty | .synchronous => false

/-- The destructor of the handler has begun. -/
def ending : SlotPlugin E V → Bool
  | .vst3 h => h.dtor != .alive
  | .empty | .synchronous => false

end SlotPlugin

/-- What becomes of a call of the callback. -/
inductive Outcome where
  | sent
  /-- The socket is closed, or does not take the frame. -/
  | lost
  /-- A local that the callback refers to is no longer there. -/
  | late

/-- A slot's plugin, and what has become of its notifications. -/
structure SlotEdits (E V : Type) where
  plugin : SlotPlugin E V
  /-- The fires outstanding when `RunPassthrough` returned, and those added since. -/
  notified : List (QueuedFire V)
  sent : List (QueuedFire V)
  /-- Dropped by the full queue or not sent by the callback. -/
  lost : List (QueuedFire V)
  late : List (QueuedFire V)

namespace SlotEdits
variable {E V : Type}

def record (s : SlotEdits E V) (o : Outcome) (fire : QueuedFire V) : SlotEdits E V :=
  match o with
  | .sent => { s with sent := s.sent ++ [fire] }
  | .lost => { s with lost := s.lost ++ [fire] }
  | .late => { s with late := s.late ++ [fire] }

/-- A step of the drain thread; `o` is the outcome if it calls the callback. -/
def drain [DecidableEq E] (s : SlotEdits E V) (o : Outcome) : Option (SlotEdits E V) :=
  match s.plugin with
  | .vst3 h => (h.step .drain).map fun t => match h.drain with
    | .dispatch fire => { s with plugin := .vst3 t }.record o fire
    | _ => { s with plugin := .vst3 t }
  | .empty | .synchronous => none

/-- The plugin calls `performEdit`, for which it holds a reference to the handler. -/
def performEdit [DecidableEq E] (s : SlotEdits E V) (e : E) (fire : QueuedFire V) : Option (SlotEdits E V) :=
  match s.plugin with
  | .vst3 h => if h.dtor = .alive then (h.step (.performEdit e fire)).map fun t => { s with plugin := .vst3 t } else none
  | .empty | .synchronous => none

/-- A step of a call in progress. -/
def editor [DecidableEq E] (s : SlotEdits E V) (e : E) : Option (SlotEdits E V) :=
  match s.plugin with
  | .vst3 h => (h.step (.editor e)).map fun t => { s with
      plugin := .vst3 t
      notified := s.notified ++ (Recorded.pushed h (.editor e)).toList
      lost := s.lost ++ overflow h (.editor e) }
  | .empty | .synchronous => none

/-- A VST2 or CLAP plugin's notification. -/
def notify (s : SlotEdits E V) (o : Outcome) (fire : QueuedFire V) : Option (SlotEdits E V) :=
  match s.plugin with
  | .synchronous => some ({ s with notified := s.notified ++ [fire] }.record o fire)
  | .empty | .vst3 _ => none

/-- The next step of unloading: for VST3 the handler's destructor, which runs once
no call holds a reference any more. -/
def unload [Fintype E] [DecidableEq E] (s : SlotEdits E V) : Option (SlotEdits E V) :=
  match s.plugin with
  | .empty => none
  | .synchronous => some { s with plugin := .empty }
  | .vst3 h => match h.dtor with
    | .alive =>
      if ∀ e, h.editor e = .outside then (h.step .destroy).map fun t => { s with plugin := .vst3 t } else none
    | .storeStop | .notifyAll | .join => (h.step .dtor).map fun t => { s with plugin := .vst3 t }
    | .joined => some { s with plugin := .empty, lost := s.lost ++ s.plugin.outstanding }

def load (s : SlotEdits E V) (isVst3 : Bool) : Option (SlotEdits E V) :=
  match s.plugin with
  | .empty => some { s with plugin := if isVst3 then .vst3 Handler.initial else .synchronous }
  | .vst3 _ | .synchronous => none

variable {s t : SlotEdits E V}

def Ends (s : SlotEdits E V) : Prop := ∀ h, s.plugin = .vst3 h → h.Ending

/-- A step that neither adds a notification nor calls the callback. -/
def Quiet (s t : SlotEdits E V) : Prop :=
  t = { s with plugin := t.plugin } ∧ t.plugin.outstanding = s.plugin.outstanding

theorem ends_vst3 {h : Handler E V} (hh : h.Ending) (s : SlotEdits E V) : Ends { s with plugin := .vst3 h } := by
  rintro _ ⟨⟩
  exact hh

private theorem quiet_vst3 {h h' : Handler E V} (hp : s.plugin = .vst3 h)
    (flight : inFlight h'.drain = inFlight h.drain)
    (queue : h'.queue = h.queue) : s.Quiet { s with plugin := .vst3 h' } := by
  refine ⟨rfl, ?_⟩
  rw [hp, SlotPlugin.outstanding, SlotPlugin.outstanding, flight, queue]

private theorem plugin_record (s : SlotEdits E V) (o : Outcome) (fire : QueuedFire V) :
    (s.record o fire).plugin = s.plugin := by
  cases o <;> rfl

/-- A step of the drain thread either calls the callback with the oldest fire or is quiet. -/
private theorem drain_cases [DecidableEq E] {o : Outcome} (hends : s.Ends) (hs : s.drain o = some t) :
    t.Ends ∧ (s.plugin.dispatching = false ∧ s.Quiet t ∨ ∃ fire, s.plugin.dispatching = true ∧
      t = { s.record o fire with plugin := t.plugin } ∧ s.plugin.outstanding = fire :: t.plugin.outstanding) := by
  unfold drain at hs
  cases hp : s.plugin with
  | empty | synchronous =>
    rw [hp] at hs
    cases hs
  | vst3 h =>
    rw [hp] at hs
    obtain ⟨h', hstep, rfl⟩ := Option.map_eq_some_iff.mp hs
    have hending : h'.Ending := (hends h hp).drainStep hstep
    cases QueueStep.of_drain hstep with
    | pop pc queued queue count drain dispatched =>
      rw [pc]
      refine ⟨ends_vst3 hending s, .inl ⟨by simp [SlotPlugin.dispatching, pc], rfl, ?_⟩⟩
      simp [SlotPlugin.outstanding, hp, pc, drain, queue, queued, inFlight]
    | @dispatch fire pc queue count drain dispatched =>
      rw [pc]
      refine ⟨?_, .inr ⟨fire, by simp [SlotPlugin.dispatching, pc], ?_, ?_⟩⟩
      · dsimp only
        rintro h'' hp''
        rw [plugin_record] at hp''
        cases hp''
        exact hending
      · cases o <;> rfl
      · dsimp only
        rw [plugin_record]
        simp [SlotPlugin.outstanding, pc, drain, queue, inFlight]
    | other quiet books queue count flight dispatched =>
      have hnot : ∀ fire, h.drain ≠ .dispatch fire := by
        intro fire hd
        simp only [Handler.step, Handler.drainStep, hd, Option.some.injEq] at hstep
        subst hstep
        exact absurd dispatched (by simp)
      have hsilent : SlotPlugin.dispatching (.vst3 h : SlotPlugin E V) = false := by
        simp only [SlotPlugin.dispatching]
      split
      · exact absurd ‹_› (hnot _)
      · exact ⟨ends_vst3 hending s, .inl ⟨hsilent, quiet_vst3 hp flight queue⟩⟩

/-- A step of a call in progress either adds a fire, at the cost of the oldest one
when the queue is full, or is quiet. -/
private theorem editor_cases [DecidableEq E] {e : E} (hends : s.Ends) (hs : s.editor e = some t) :
    t.Ends ∧ (s.plugin.pushing e = false ∧ s.Quiet t ∨ ∃ fire, s.plugin.pushing e = true ∧ t.sent = s.sent ∧
      t.late = s.late ∧ t.notified = s.notified ++ [fire] ∧ (s.plugin.full = true → t.lost ≠ []) ∧
      (s.plugin.full = false → t.lost = s.lost ∧ t.plugin.outstanding = s.plugin.outstanding ++ [fire])) := by
  unfold editor at hs
  cases hp : s.plugin with
  | empty | synchronous =>
    rw [hp] at hs
    cases hs
  | vst3 h =>
    rw [hp] at hs
    obtain ⟨h', hstep, rfl⟩ := Option.map_eq_some_iff.mp hs
    have hending : h'.Ending := (hends h hp).editorStep hstep
    refine ⟨?_, ?_⟩
    · rintro _ ⟨⟩
      exact hending
    cases QueueStep.of_editor hstep with
    | @push _ fire pc queue count drain dispatched =>
      have hpushed : Recorded.pushed h (.editor e) = some fire := Recorded.pushed_push pc
      refine .inr ⟨fire, by rw [SlotPlugin.pushing, hpushed]; rfl, rfl, rfl, by simp [hpushed], ?_, ?_⟩
      · intro hfull
        have hlen : kQueueCap ≤ h.queue.length := by simpa [SlotPlugin.full] using hfull
        have hne : h.queue ≠ [] := by
          rintro hnil
          rw [hnil] at hlen
          exact absurd hlen (Nat.not_succ_le_zero 2047)
        simp [overflow, hpushed, hlen, hne]
      · intro hfits
        have hlen : ¬ kQueueCap ≤ h.queue.length := by simpa [SlotPlugin.full] using hfits
        refine ⟨by simp [overflow, hlen], ?_⟩
        simp [SlotPlugin.outstanding, drain, queue, push, hlen]
    | other quiet books queue count flight dispatched =>
      have hnone : overflow h (.editor e) = [] := by simp [overflow, quiet]
      refine .inl ⟨by simp [SlotPlugin.pushing, quiet], ?_, ?_⟩
      · simp [quiet, hnone]
      · simp only [SlotPlugin.outstanding, hp]
        rw [flight, queue]

private theorem performEdit_quiet [DecidableEq E] {e : E} {fire : QueuedFire V} (hends : s.Ends)
    (hs : s.performEdit e fire = some t) : t.Ends ∧ s.Quiet t := by
  unfold performEdit at hs
  cases hp : s.plugin with
  | empty | synchronous =>
    rw [hp] at hs
    cases hs
  | vst3 h =>
    rw [hp] at hs
    dsimp only at hs
    split at hs
    · rename_i halive
      obtain ⟨h', hstep, rfl⟩ := Option.map_eq_some_iff.mp hs
      have hending := (hends h hp).keep (a := .performEdit e fire) halive hstep
      cases QueueStep.of_step hstep with
      | other quiet books queue count flight dispatched =>
        exact ⟨ends_vst3 hending s, quiet_vst3 hp flight queue⟩
    · cases hs

private theorem unload_quiet [Fintype E] [DecidableEq E] (hends : s.Ends) (hs : s.unload = some t) :
    t.Ends ∧ s.Quiet t := by
  unfold unload at hs
  cases hp : s.plugin with
  | empty =>
    rw [hp] at hs
    cases hs
  | synchronous =>
    rw [hp] at hs
    cases hs
    exact ⟨fun _ h => (by cases h), rfl, by rw [hp]; rfl⟩
  | vst3 h =>
    rw [hp] at hs
    have hending := hends h hp
    cases hd : h.dtor with
    | alive =>
      simp only [hd] at hs
      split at hs
      · rename_i hout
        obtain ⟨h', hstep, rfl⟩ := Option.map_eq_some_iff.mp hs
        have hending' := hending.keep (a := .destroy) hout hstep
        cases QueueStep.of_step hstep with
        | other quiet books queue count flight dispatched =>
          exact ⟨ends_vst3 hending' s, quiet_vst3 hp flight queue⟩
      · cases hs
    | storeStop | notifyAll | join =>
      simp only [hd] at hs
      obtain ⟨h', hstep, rfl⟩ := Option.map_eq_some_iff.mp hs
      have hending' := hending.keep (a := .dtor) trivial hstep
      cases QueueStep.of_step hstep with
      | other quiet books queue count flight dispatched =>
        exact ⟨ends_vst3 hending' s, quiet_vst3 hp flight queue⟩
    | joined =>
      have hnone : SlotPlugin.outstanding (.vst3 h : SlotPlugin E V) = [] := by
        obtain ⟨hflight, hqueue⟩ := hending.empty_of_joined hd
        rw [SlotPlugin.outstanding, hflight, hqueue]
        rfl
      simp only [hd] at hs
      cases hs
      refine ⟨fun _ h => (by cases h), ?_, ?_⟩
      · simp [hnone]
      · rw [hp, hnone]
        rfl

private theorem load_quiet {isVst3 : Bool} (hs : s.load isVst3 = some t) : t.Ends ∧ s.Quiet t := by
  unfold load at hs
  cases hp : s.plugin with
  | empty =>
    rw [hp] at hs
    cases hs
    cases isVst3 with
    | false => exact ⟨fun _ h => (by cases h), rfl, by rw [hp]; rfl⟩
    | true => exact ⟨ends_vst3 Handler.Ending.initial s, rfl, by rw [hp]; rfl⟩
  | vst3 | synchronous =>
    rw [hp] at hs
    cases hs

private theorem notify_cases {o : Outcome} {fire : QueuedFire V} (hs : s.notify o fire = some t) :
    t.Ends ∧ s.plugin.outstanding = [] ∧ t = { s with notified := s.notified ++ [fire] }.record o fire := by
  unfold notify at hs
  cases hp : s.plugin with
  | empty | vst3 =>
    rw [hp] at hs
    cases hs
  | synchronous =>
    rw [hp] at hs
    cases hs
    refine ⟨fun h hh => ?_, rfl, by rw [← hp]⟩
    rw [plugin_record] at hh
    cases hh

private theorem sent_of_recorded {o : Outcome} {fire : QueuedFire V} (hlost : (s.record o fire).lost = [])
    (hlate : (s.record o fire).late = []) : o = .sent := by
  cases o with
  | sent => rfl
  | lost => exact absurd hlost (by simp [record])
  | late => exact absurd hlate (by simp [record])

/-- Nothing has come late or been lost, and every notification is sent or outstanding. -/
structure Accounted (s : SlotEdits E V) : Prop where
  ends : s.Ends
  late : s.late = []
  lost : s.lost = []
  accounts : s.sent ++ s.plugin.outstanding = s.notified

namespace Accounted

theorem quiet (h : s.Accounted) (hends : t.Ends) (hq : s.Quiet t) :
    t.Accounted ∧ t.sent = s.sent ∧ t.notified = s.notified := by
  obtain ⟨heq, hout⟩ := hq
  rw [heq] at hends ⊢
  refine ⟨⟨hends, h.late, h.lost, ?_⟩, rfl, rfl⟩
  dsimp only
  rw [hout]
  exact h.accounts

/-- Everything is sent exactly when nothing is outstanding. -/
private theorem sent_iff (h : s.Accounted) : s.sent = s.notified ↔ s.plugin.outstanding = [] := by
  rw [← h.accounts]
  simp

end Accounted
end SlotEdits

/-- `main` and the other threads that are left. -/
structure Exit (E V : Type) where
  statement : Statement
  /-- The locals not yet destroyed. -/
  alive : List Local
  socketOpen : Bool
  slot : Fin kMaxSlots → SlotEdits E V

inductive ExitAct (E V : Type) where
  | main
  /-- The control reader, in a `LoadSlot` or `UnloadSlot`. -/
  | load (i : Fin kMaxSlots) (isVst3 : Bool)
  | unload (i : Fin kMaxSlots)
  | performEdit (i : Fin kMaxSlots) (e : E) (fire : QueuedFire V)
  | editor (i : Fin kMaxSlots) (e : E)
  /-- `accepted` says whether the socket, if it is open, takes the frame. -/
  | notify (i : Fin kMaxSlots) (fire : QueuedFire V) (accepted : Bool)
  | drain (i : Fin kMaxSlots) (accepted : Bool)

namespace Exit
variable {E V : Type}

/-- `RunPassthrough` has returned, with these plugins loaded. -/
def initial (plugin : Fin kMaxSlots → SlotPlugin E V) : Exit E V :=
  { statement := .joinHeartbeat, alive := locals, socketOpen := true,
    slot := fun i => ⟨plugin i, (plugin i).outstanding, [], [], []⟩ }

/-- What a call of the callback comes to. -/
def outcome (s : Exit E V) (accepted : Bool) : Outcome :=
  if ∀ l ∈ captured, l ∈ s.alive then if s.socketOpen && accepted then .sent else .lost else .late

def setSlot (s : Exit E V) (i : Fin kMaxSlots) (e : SlotEdits E V) : Exit E V :=
  { s with slot := Function.update s.slot i e }

/-- The control reader has not been joined. -/
def reading (s : Exit E V) : Bool :=
  match s.statement with
  | .joinHeartbeat | .joinControlReader => true
  | _ => false

/-- After this slot `~PluginChain` goes on with the next one, or ends. -/
def nextSlot (s : Exit E V) (i : Fin kMaxSlots) : Exit E V :=
  if h : i.val + 1 < kMaxSlots then { s with statement := .tearDown ⟨i.val + 1, h⟩ }
  else { s with statement := .endOfBlock, alive := s.alive.dropLast }

section Step
variable [Fintype E] [DecidableEq E]

def mainStep (s : Exit E V) : Option (Exit E V) :=
  match s.statement with
  | .joinHeartbeat => some { s with statement := .joinControlReader }
  | .joinControlReader =>
    if ∀ i, (s.slot i).plugin.ending = false then some { s with statement := .setAsyncCallback } else none
  | .setAsyncCallback => some { s with statement := .stop }
  | .stop => some { s with statement := .close }
  | .close => some { s with statement := .endOfBlock, socketOpen := false }
  | .endOfBlock =>
    match s.alive.getLast? with
    | none => some { s with statement := .returned }
    | some .pluginChain => some { s with statement := .tearDown 0 }
    | some _ => some { s with alive := s.alive.dropLast }
  | .tearDown i =>
    match (s.slot i).plugin with
    | .empty => some (s.nextSlot i)
    | .vst3 _ | .synchronous => (s.slot i).unload.map (s.setSlot i)
  | .returned => none

def step (s : Exit E V) : ExitAct E V → Option (Exit E V)
  | .main => s.mainStep
  | .load i isVst3 => if s.reading then ((s.slot i).load isVst3).map (s.setSlot i) else none
  | .unload i => if s.reading then (s.slot i).unload.map (s.setSlot i) else none
  | .performEdit i e fire => ((s.slot i).performEdit e fire).map (s.setSlot i)
  | .editor i e => ((s.slot i).editor e).map (s.setSlot i)
  | .notify i fire accepted => ((s.slot i).notify (s.outcome accepted) fire).map (s.setSlot i)
  | .drain i accepted => ((s.slot i).drain (s.outcome accepted)).map (s.setSlot i)

end Step

/-- No call of the callback came late, none was in vain, and a closed socket has
been given everything. -/
structure Orderly (s : Exit E V) : Prop where
  late : ∀ i, (s.slot i).late = []
  lost : ∀ i, (s.slot i).lost = []
  closed : s.socketOpen = false → ∀ i, (s.slot i).sent = (s.slot i).notified

/-- At `control.Close` nothing is outstanding, and afterwards nothing is added; no fire
finds its queue full, and the socket takes every frame. -/
def InTime (s : Exit E V) : ExitAct E V → Prop
  | .main => s.statement = .close → ∀ i, (s.slot i).plugin.outstanding.isEmpty = true
  | .editor i e => (s.slot i).plugin.pushing e = true →
      s.socketOpen = true ∧ (s.slot i).plugin.full = false
  | .notify _ _ accepted => s.socketOpen = true ∧ accepted = true
  | .drain i accepted => (s.slot i).plugin.dispatching = true → accepted = true
  | .load _ _ | .unload _ | .performEdit _ _ _ => True

/-- Statements that come after `control.Close`. -/
def unwinding : Statement → Bool
  | .endOfBlock | .tearDown _ | .returned => true
  | .joinHeartbeat | .joinControlReader | .setAsyncCallback | .stop | .close => false

/-- The locals go once the socket is closed, and until then every fire finds its way. -/
structure Inv (s : Exit E V) : Prop where
  slots : ∀ i, (s.slot i).Accounted
  closed : s.socketOpen = false → ∀ i, (s.slot i).plugin.outstanding = []
  declared : s.socketOpen = true → s.alive = locals
  unwound : unwinding s.statement = true → s.socketOpen = false

variable {s t : Exit E V}

@[simp] theorem slot_setSlot (s : Exit E V) (i : Fin kMaxSlots) (e : SlotEdits E V) : (s.setSlot i e).slot i = e :=
  Function.update_self ..

private theorem slot_setSlot_ne (s : Exit E V) {i j : Fin kMaxSlots} (e : SlotEdits E V) (hj : j ≠ i) :
    (s.setSlot i e).slot j = s.slot j :=
  Function.update_of_ne hj ..

private theorem outcome_sent (h : s.Inv) (hopen : s.socketOpen = true) : s.outcome true = .sent := by
  have hall : ∀ l ∈ captured, l ∈ s.alive := by
    rw [h.declared hopen]
    decide
  rw [outcome, if_pos hall, hopen]
  rfl

/-- A call of the callback is recorded as sent only on an open socket that takes the frame. -/
private theorem sent_of_outcome {accepted : Bool} (h : s.outcome accepted = .sent) :
    s.socketOpen = true ∧ accepted = true := by
  unfold outcome at h
  split at h
  · split at h
    · rename_i hsent
      exact Bool.and_eq_true_iff.mp hsent
    · cases h
  · cases h

namespace Inv

private theorem orderly (h : s.Inv) : s.Orderly :=
  ⟨fun i => (h.slots i).late, fun i => (h.slots i).lost, fun hc i => (h.slots i).sent_iff.mpr (h.closed hc i)⟩

theorem initial {plugin : Fin kMaxSlots → SlotPlugin E V} (h : ∀ i h, plugin i = .vst3 h → h.Ending) :
    (Exit.initial plugin).Inv :=
  ⟨fun i => ⟨h i, rfl, rfl, rfl⟩, fun hc => (by cases hc), fun _ => rfl, fun hu => (by cases hu)⟩

/-- One slot changes, to one that is accounted for and has nothing outstanding on a closed socket. -/
private theorem setSlot {i : Fin kMaxSlots} {e : SlotEdits E V} (h : s.Inv) (he : e.Accounted)
    (hc : s.socketOpen = false → e.plugin.outstanding = []) : (s.setSlot i e).Inv := by
  refine ⟨fun j => ?_, fun hclosed j => ?_, h.declared, h.unwound⟩
  · by_cases hj : j = i
    · rw [hj, slot_setSlot]
      exact he
    · rw [slot_setSlot_ne s e hj]
      exact h.slots j
  · by_cases hj : j = i
    · rw [hj, slot_setSlot]
      exact hc hclosed
    · rw [slot_setSlot_ne s e hj]
      exact h.closed hclosed j

theorem quiet {i : Fin kMaxSlots} {e : SlotEdits E V} (h : s.Inv) (he : e.Ends ∧ (s.slot i).Quiet e) :
    (s.setSlot i e).Inv := by
  obtain ⟨hends, hq⟩ := he
  refine h.setSlot ((h.slots i).quiet hends hq).1 fun hc => ?_
  rw [hq.2]
  exact h.closed hc i

/-- `main` goes on to another statement, with the socket as it was. -/
private theorem goto {next : Statement} (h : s.Inv) (hn : unwinding next = true → s.socketOpen = false) :
    Inv { s with statement := next } := ⟨h.slots, h.closed, h.declared, hn⟩

/-- A local is destroyed. -/
theorem pop (h : s.Inv) (hc : s.socketOpen = false) (next : Statement) :
    Inv { s with statement := next, alive := s.alive.dropLast } :=
  ⟨h.slots, h.closed, fun ho => (by rw [hc] at ho; cases ho), fun _ => hc⟩

theorem drainStep [DecidableEq E] {i : Fin kMaxSlots} {accepted : Bool} {e : SlotEdits E V} (h : s.Inv)
    (hok : InTime s (.drain i accepted)) (he : (s.slot i).drain (s.outcome accepted) = some e) :
    (s.setSlot i e).Inv := by
  have hslot := h.slots i
  obtain ⟨hends, ⟨-, hq⟩ | ⟨fire, hcall, heq, hout⟩⟩ := SlotEdits.drain_cases hslot.ends he
  · exact h.quiet ⟨hends, hq⟩
  · have hopen : s.socketOpen = true := by
      by_contra hc
      have hnone := h.closed (Bool.eq_false_iff.mpr hc) i
      rw [hout] at hnone
      cases hnone
    rw [hok hcall, outcome_sent h hopen] at heq
    refine h.setSlot ?_ fun hc => (by rw [hopen] at hc; cases hc)
    have haccounts := hslot.accounts
    rw [hout] at haccounts
    rw [heq] at hends ⊢
    exact ⟨hends, hslot.late, hslot.lost, by simpa [SlotEdits.record] using haccounts⟩

theorem editorStep [DecidableEq E] {i : Fin kMaxSlots} {c : E} {e : SlotEdits E V} (h : s.Inv)
    (hok : InTime s (.editor i c))
    (he : (s.slot i).editor c = some e) : (s.setSlot i e).Inv := by
  have hslot := h.slots i
  obtain ⟨hends, ⟨-, hq⟩ | ⟨fire, hpush, hsent, hlate, hnotified, -, hfits⟩⟩ := SlotEdits.editor_cases hslot.ends he
  · exact h.quiet ⟨hends, hq⟩
  · obtain ⟨hopen, hfull⟩ := hok hpush
    obtain ⟨hlost, hout⟩ := hfits hfull
    refine h.setSlot ⟨hends, hlate.trans hslot.late, hlost.trans hslot.lost, ?_⟩
      fun hc => (by rw [hopen] at hc; cases hc)
    rw [hsent, hout, hnotified, ← hslot.accounts, List.append_assoc]

private theorem notifyStep {i : Fin kMaxSlots} {fire : QueuedFire V} {accepted : Bool} {e : SlotEdits E V} (h : s.Inv)
    (hok : InTime s (.notify i fire accepted)) (he : (s.slot i).notify (s.outcome accepted) fire = some e) :
    (s.setSlot i e).Inv := by
  have hslot := h.slots i
  obtain ⟨hopen, rfl⟩ := hok
  obtain ⟨hends, hout, heq⟩ := SlotEdits.notify_cases he
  rw [outcome_sent h hopen] at heq
  refine h.setSlot ?_ fun hc => (by rw [hopen] at hc; cases hc)
  have haccounts := hslot.accounts
  rw [hout, List.append_nil] at haccounts
  rw [heq] at hends ⊢
  refine ⟨hends, hslot.late, hslot.lost, ?_⟩
  simp only [SlotEdits.record]
  rw [hout, List.append_nil, haccounts]

section Step
variable [Fintype E] [DecidableEq E]

private theorem mainStep (h : s.Inv) (hok : InTime s .main) (hs : s.mainStep = some t) : t.Inv := by
  have hunwound := h.unwound
  unfold Exit.mainStep at hs
  cases hp : s.statement with
  | joinHeartbeat | setAsyncCallback | stop =>
    simp only [hp] at hs
    cases hs
    exact h.goto (by simp [unwinding])
  | joinControlReader =>
    simp only [hp] at hs
    split at hs <;> cases hs
    exact h.goto (by simp [unwinding])
  | close =>
    simp only [hp] at hs
    cases hs
    exact ⟨h.slots, fun _ i => List.isEmpty_iff.mp (hok hp i), fun ho => (by cases ho), fun _ => rfl⟩
  | endOfBlock =>
    have hc := hunwound (by rw [hp]; rfl)
    simp only [hp] at hs
    split at hs <;> cases hs
    · exact h.goto fun _ => hc
    · exact h.goto fun _ => hc
    · exact h.pop hc .endOfBlock
  | tearDown i =>
    have hc := hunwound (by rw [hp]; rfl)
    simp only [hp] at hs
    split at hs
    · cases hs
      unfold nextSlot
      split
      · exact h.goto fun _ => hc
      · exact h.pop hc .endOfBlock
    all_goals
      obtain ⟨e, he, rfl⟩ := Option.map_eq_some_iff.mp hs
      exact h.quiet (SlotEdits.unload_quiet (h.slots i).ends he)
  | returned =>
    simp only [hp] at hs
    cases hs

theorem keep {a : ExitAct E V} (h : s.Inv) (hok : InTime s a) (hs : s.step a = some t) : t.Inv := by
  cases a with
  | main => exact h.mainStep hok hs
  | load i isVst3 =>
    simp only [step] at hs
    split at hs
    · obtain ⟨e, he, rfl⟩ := Option.map_eq_some_iff.mp hs
      exact h.quiet (SlotEdits.load_quiet he)
    · cases hs
  | unload i =>
    simp only [step] at hs
    split at hs
    · obtain ⟨e, he, rfl⟩ := Option.map_eq_some_iff.mp hs
      exact h.quiet (SlotEdits.unload_quiet (h.slots i).ends he)
    · cases hs
  | performEdit i c fire =>
    obtain ⟨e, he, rfl⟩ := Option.map_eq_some_iff.mp hs
    exact h.quiet (SlotEdits.performEdit_quiet (h.slots i).ends he)
  | editor i c =>
    obtain ⟨e, he, rfl⟩ := Option.map_eq_some_iff.mp hs
    exact h.editorStep hok he
  | notify i fire accepted =>
    obtain ⟨e, he, rfl⟩ := Option.map_eq_some_iff.mp hs
    exact h.notifyStep hok he
  | drain i accepted =>
    obtain ⟨e, he, rfl⟩ := Option.map_eq_some_iff.mp hs
    exact h.drainStep hok he

/-- Every other step leaves something lost, late or unsent behind a closed socket. -/
private theorem inTime {a : ExitAct E V} (h : s.Inv) (hs : s.step a = some t) (ht : t.Orderly) : InTime s a := by
  cases a with
  | main =>
    intro hp i
    have hclose : s.mainStep = some t := hs
    simp only [Exit.mainStep, hp] at hclose
    cases hclose
    exact List.isEmpty_iff.mpr ((h.slots i).sent_iff.mp (ht.closed rfl i))
  | load | unload | performEdit => exact trivial
  | editor i c =>
    intro hpush
    obtain ⟨e, he, rfl⟩ := Option.map_eq_some_iff.mp hs
    have hlost := ht.lost i
    have hclosed := ht.closed
    rw [slot_setSlot] at hlost
    obtain ⟨-, ⟨hno, -⟩ | ⟨fire, -, hsent, -, hnotified, hfull, -⟩⟩ := SlotEdits.editor_cases (h.slots i).ends he
    · rw [hpush] at hno
      cases hno
    · refine ⟨?_, ?_⟩
      · by_contra hc
        have hshut : s.socketOpen = false := Bool.eq_false_iff.mpr hc
        have hall := hclosed hshut i
        rw [slot_setSlot, hsent, hnotified, (h.slots i).sent_iff.mpr (h.closed hshut i)] at hall
        simp at hall
      · by_contra hf
        exact hfull (by simpa using hf) hlost
  | notify i fire accepted =>
    obtain ⟨e, he, rfl⟩ := Option.map_eq_some_iff.mp hs
    have hlost := ht.lost i
    have hlate := ht.late i
    rw [slot_setSlot] at hlost hlate
    obtain ⟨-, -, heq⟩ := SlotEdits.notify_cases he
    rw [heq] at hlost hlate
    exact sent_of_outcome (SlotEdits.sent_of_recorded hlost hlate)
  | drain i accepted =>
    intro hcall
    obtain ⟨e, he, rfl⟩ := Option.map_eq_some_iff.mp hs
    have hlost := ht.lost i
    have hlate := ht.late i
    rw [slot_setSlot] at hlost hlate
    obtain ⟨-, ⟨hno, -⟩ | ⟨fire, -, heq, -⟩⟩ := SlotEdits.drain_cases (h.slots i).ends he
    · rw [hcall] at hno
      cases hno
    · rw [heq] at hlost hlate
      exact (sent_of_outcome (SlotEdits.sent_of_recorded hlost hlate)).2

end Step
end Inv

/-- A handler as its runs leave it, its destructor running only without a call in progress. -/
def Reached [DecidableEq E] (h : Handler E V) : Prop :=
  ∃ as, exec Handler.step Handler.initial as = some h ∧ Meets Handler.step Handler.Referenced Handler.initial as

private theorem Reached.ending [DecidableEq E] {h : Handler E V} (hr : Reached h) : h.Ending := by
  obtain ⟨as, he, hok⟩ := hr
  exact invariant Handler.Ending (fun hi ho hs => hi.keep ho hs) Handler.Ending.initial hok he

/-- Whatever the queues hold when `RunPassthrough` returns, the shutdown stays orderly
exactly as long as every step is in time. -/
theorem orderly_iff_inTime [Fintype E] [DecidableEq E] (plugin : Fin kMaxSlots → SlotPlugin E V)
    (hr : ∀ i h, plugin i = .vst3 h → Reached h) (as : List (ExitAct E V)) (t : Exit E V)
    (he : exec step (initial plugin) as = some t) :
    Always step Orderly (initial plugin) as ↔ Meets step InTime (initial plugin) as :=
  always_iff_meets Inv (fun h hok hs => h.keep hok hs) Inv.orderly (fun h hs ht => h.inTime hs ht)
    (Inv.initial fun i h hp => (hr i h hp).ending) he

instance (s : Exit E V) (a : ExitAct E V) : Decidable (InTime s a) :=
  match a with
  | .main => inferInstanceAs (Decidable (s.statement = .close → ∀ i, (s.slot i).plugin.outstanding.isEmpty = true))
  | .editor i e => inferInstanceAs (Decidable ((s.slot i).plugin.pushing e = true →
      s.socketOpen = true ∧ (s.slot i).plugin.full = false))
  | .notify _ _ accepted => inferInstanceAs (Decidable (s.socketOpen = true ∧ accepted = true))
  | .drain i accepted => inferInstanceAs (Decidable ((s.slot i).plugin.dispatching = true → accepted = true))
  | .load _ _ | .unload _ | .performEdit _ _ _ => .isTrue trivial

/-- A VST3 plugin in slot 0 has made one edit, which is still queued. -/
def oneEdit : Fin kMaxSlots → SlotPlugin Unit Int :=
  Function.update (fun _ => .empty) 0 (.vst3 { Handler.initial with queue := [⟨3, 1024⟩] })

private theorem reached_oneEdit : ∀ i h, oneEdit i = .vst3 h → Reached h := by
  intro i h hi
  by_cases h0 : i = 0
  · subst h0
    cases hi
    exact ⟨.performEdit () ⟨3, 1024⟩ :: List.replicate 4 (.editor ()), rfl, meets_of_checks (by decide)⟩
  · rw [oneEdit, Function.update_of_ne h0] at hi
    cases hi

def mains (n : Nat) : List (ExitAct Unit Int) := List.replicate n .main

def drains (n : Nat) : List (ExitAct Unit Int) := List.replicate n (.drain 0 true)

/-- The drain thread gets to the queued edit, and to another one, before `control.Close`. -/
theorem orderly_iff_inTime_drained : ∃ as t, exec step (initial oneEdit) as = some t ∧ t.statement = .returned ∧
    (t.slot 0).sent = [⟨3, 1024⟩, ⟨3, 1025⟩] ∧ Always step Orderly (initial oneEdit) as := by
  let as : List (ExitAct Unit Int) := mains 1 ++ drains 7 ++ .performEdit 0 () ⟨3, 1025⟩ ::
    List.replicate 4 (.editor 0 ()) ++ drains 7 ++ mains 16 ++ drains 5 ++ mains 12
  obtain ⟨t, ht, hview⟩ := Option.map_eq_some_iff.mp
    (show (exec step (initial oneEdit) as).map (fun t => (t.statement, (t.slot 0).sent)) =
      some (.returned, [⟨3, 1024⟩, ⟨3, 1025⟩]) by decide +kernel)
  obtain ⟨hreturned, hsent⟩ := Prod.mk.inj hview
  exact ⟨as, t, ht, hreturned, hsent,
    (orderly_iff_inTime oneEdit reached_oneEdit as t ht).mpr (meets_of_checks (by decide +kernel))⟩

/-- The drain thread gets to the queued edit when the destructor of the handler waits
for it: the socket is closed by then, and the sender is gone. -/
theorem edit_sent_through_destroyed_sender : (∀ i h, oneEdit i = .vst3 h → Reached h) ∧
    ∃ as t, exec step (initial oneEdit) as = some t ∧ t.statement = .returned ∧ (t.slot 0).sent = [] ∧
      (t.slot 0).late = [⟨3, 1024⟩] ∧ ¬ Always step Orderly (initial oneEdit) as := by
  let as : List (ExitAct Unit Int) := mains 17 ++ drains 11 ++ mains 12
  obtain ⟨t, ht, hview⟩ := Option.map_eq_some_iff.mp
    (show (exec step (initial oneEdit) as).map (fun t => (t.statement, (t.slot 0).sent, (t.slot 0).late)) =
      some (.returned, [], [⟨3, 1024⟩]) by decide +kernel)
  simp only [Prod.mk.injEq] at hview
  obtain ⟨hreturned, hsent, hlate⟩ := hview
  refine ⟨reached_oneEdit, as, t, ht, hreturned, hsent, hlate, fun h => ?_⟩
  have hnone := (h.end ht).late 0
  rw [hlate] at hnone
  cases hnone

end Exit
end Plughost.Main.Shutdown
