import Plughost.Vst3.EditCoalescing
import Plughost.Vst3.SlotTable

/-! Parameter notifications on their way from the plugin in a slot to the chain-level
callback, for the three formats, between the control calls. -/
namespace Plughost.Vst3
open Plughost.Runs Plughost.BoundedQueue Plughost.Ipc.ControlPipe Plughost.Vst3.EditDrain

namespace SlotHost
variable {P V C : Type}

private theorem callback_acquireEditorView (create : P → Option V) (h : SlotHost P V C) :
    (h.acquireEditorView create).2.paramChangedCallback = h.paramChangedCallback := by
  unfold acquireEditorView
  split
  · rfl
  · split
    · rfl
    · split <;> rfl

end SlotHost

/-- Every object that the slot points at has this wrapper installed, or none. -/
def Slot.Routes {P V C : Type} (s : Slot P V C) (w : Option (Wrapped C)) : Prop :=
  ∀ f host, s.pointer f = some host → host.paramChangedCallback = w

namespace SlotTable
variable {P V C α : Type} {ch ch' : SlotTable P V C α} {i : Fin kMaxSlots} {w : Option (Wrapped C)}

/-- An object with the wrapper takes the place of the one its format names. -/
private theorem routes_setPointer {f : SlotFormat} {o : Option (SlotHost P V C)} (h : (ch.slot i).Routes w)
    (ho : ∀ host, o = some host → host.paramChangedCallback = w) : ((ch.setPointer f i o).slot i).Routes w := by
  intro g host hp
  by_cases hf : f = .empty
  · subst hf
    exact h g host hp
  · rw [slot_setPointer _ _ _ hf] at hp
    dsimp only at hp
    split at hp
    · exact ho host hp
    · exact h g host hp

/-- It is enough to look at the plugin that the slot stands for. -/
private theorem routes_of_shows {s : Slot P V C} {q : Option (Plugged P V C)} (h : s.Shows q)
    (hq : ∀ p, q = some p → p.host.paramChangedCallback = w) : s.Routes w := by
  intro f host hp
  rw [h.pointer f] at hp
  obtain ⟨p, rfl, hpointer⟩ := Option.bind_eq_some_iff.mp hp
  split at hpointer
  · cases hpointer
    exact hq p rfl
  · cases hpointer

/-- The new plugin gets the wrapper that is current, and an object that failed to load is gone. -/
private theorem loadSlot_routes {q : Option (Plugged P V C)} {l : Loader P} {slotIdx : Int} {path : Path}
    {r : LoadResult}
    (hi : slotIndex slotIdx = some i) (h : (ch.slot i).Shows q)
    (hl : ch.loadSlot l slotIdx path = some (r, ch')) :
    ch'.paramChangedCb = ch.paramChangedCb ∧ (ch'.slot i).Routes (wrap i ch.paramChangedCb) := by
  have hdown := shows_tearDown h
  cases slotLoads_of_loadSlot hi hl with
  | unrecognised e => exact ⟨cb_tearDown ch i, routes_of_shows hdown (by simp)⟩
  | @failed f hf host e =>
    refine ⟨?_, routes_of_shows (shows_dropped hdown hf) (by simp)⟩
    rw [cb_setPointer, cb_setPointer, cb_tearDown]
  | @unwrapped f host hf hloaded hfresh hw info =>
    refine ⟨cb_plugged ch i f host, ?_⟩
    rw [hw]
    refine routes_of_shows (shows_plugged hdown hf hloaded) fun p hp => ?_
    cases hp
    exact hfresh
  | @wrapped f host w hf hloaded hw info =>
    refine ⟨(cb_setPointer _ _ _ _).trans (cb_plugged ch i f host), ?_⟩
    rw [hw]
    refine routes_of_shows (shows_called (shows_plugged hdown hf hloaded) (by simp)) fun p hp => ?_
    cases hp
    rfl

private theorem cb_setParamChangedCallback (ch : SlotTable P V C α) (cb : Option C) :
    (ch.setParamChangedCallback cb).paramChangedCb = cb := by
  have hfold : ∀ (is : List (Fin kMaxSlots)) (ch : SlotTable P V C α),
      (is.foldl install ch).paramChangedCb = ch.paramChangedCb := by
    intro is
    induction is with
    | nil =>
      intro ch
      rfl
    | cons i is ih =>
      intro ch
      rw [List.foldl_cons, ih, paramChangedCb_install]
  exact hfold _ _

/-- The editor calls leave the wrapper in the object they are made on. -/
private theorem acquireEditorView_routes (create : P → Option V) (ch : SlotTable P V C α) (slotIdx : Int) :
    (ch.acquireEditorView create slotIdx).2.paramChangedCb = ch.paramChangedCb ∧
      ∀ i, slotIndex slotIdx = some i → ∀ w, (ch.slot i).Routes w →
        ((ch.acquireEditorView create slotIdx).2.slot i).Routes w := by
  unfold acquireEditorView
  cases slotIndex slotIdx with
  | none => exact ⟨rfl, by simp⟩
  | some i =>
    dsimp only
    split
    · exact ⟨rfl, fun _ hi _ h => Option.some.inj hi ▸ h⟩
    · split
      · exact ⟨rfl, fun _ hi _ h => Option.some.inj hi ▸ h⟩
      · rename_i host hp
        refine ⟨cb_setPointer _ _ _ _, fun j hi w h => ?_⟩
        obtain rfl := Option.some.inj hi
        refine routes_setPointer h fun host' heq => ?_
        obtain rfl := Option.some.inj heq
        exact (SlotHost.callback_acquireEditorView create host).trans (h _ host hp)

private theorem releaseEditorView_routes (ch : SlotTable P V C α) (slotIdx : Int) :
    (ch.releaseEditorView slotIdx).paramChangedCb = ch.paramChangedCb ∧
      ∀ i, slotIndex slotIdx = some i → ∀ w, (ch.slot i).Routes w →
        ((ch.releaseEditorView slotIdx).slot i).Routes w := by
  unfold releaseEditorView
  cases slotIndex slotIdx with
  | none => exact ⟨rfl, by simp⟩
  | some i =>
    dsimp only
    split
    · exact ⟨rfl, fun _ hi _ h => Option.some.inj hi ▸ h⟩
    · rename_i host hp
      refine ⟨cb_setPointer _ _ _ _, fun j hi w h => ?_⟩
      obtain rfl := Option.some.inj hi
      refine routes_setPointer h fun host' heq => ?_
      obtain rfl := Option.some.inj heq
      exact h _ host hp

/-- The table in order, with the wrapper for its own slot and the current callback
installed in every object. -/
structure Wired (ch : SlotTable P V C α) : Prop where
  inv : ch.Inv
  routes : ∀ i, (ch.slot i).Routes (wrap i ch.paramChangedCb)

/-- The chain-level callback after a call. -/
def callbackAfter (cb : Option C) : ControlCall P V C → Option C
  | .setParamChangedCallback cb' => cb'
  | _ => cb

namespace Wired

theorem initial (sampleRate : BitVec 64) (maxBlockSize : Int) (zero : α) :
    Wired (SlotTable.initial sampleRate maxBlockSize zero : SlotTable P V C α) := by
  refine ⟨inv_initial sampleRate maxBlockSize zero, fun i f host hp => ?_⟩
  cases f <;> cases hp

/-- Slots that a call leaves alone keep their wrapper, as long as the callback stays. -/
theorem of_keeps {o : Option (Fin kMaxSlots)} (h : ch.Wired) (hinv : ch'.Inv) (hk : Keeps o ch ch')
    (hcb : ch'.paramChangedCb = ch.paramChangedCb)
    (ho : ∀ i, o = some i → (ch'.slot i).Routes (wrap i ch.paramChangedCb)) : ch'.Wired := by
  refine ⟨hinv, fun j => ?_⟩
  rw [hcb]
  by_cases hj : o = some j
  · exact ho j hj
  · rw [hk.slots j hj]
    exact h.routes j

theorem step {c : ControlCall P V C} (h : ch.Wired) (hs : ch.step c = some ch') :
    ch'.Wired ∧ ch'.paramChangedCb = callbackAfter ch.paramChangedCb c := by
  have hinv := (inv_step h.inv hs).1
  cases c with
  | loadSlot l slotIdx path =>
    obtain ⟨⟨r, _⟩, hl, rfl⟩ := Option.map_eq_some_iff.mp hs
    have hk := loadSlot_keeps h.inv hl
    cases hi : slotIndex slotIdx with
    | none =>
      rw [loadSlot_of_none hi] at hl
      cases hl
      exact ⟨h, rfl⟩
    | some i =>
      obtain ⟨q, hq⟩ := h.inv i
      obtain ⟨hcb, hroutes⟩ := loadSlot_routes hi hq hl
      refine ⟨h.of_keeps hinv hk hcb fun j hj => ?_, hcb⟩
      obtain rfl := Option.some.inj (hi.symm.trans hj)
      exact hroutes
  | unloadSlot slotIdx =>
    cases hs
    have hcb : (ch.unloadSlot slotIdx).2.paramChangedCb = ch.paramChangedCb := by
      unfold unloadSlot
      split
      · rfl
      · exact cb_tearDown ch _
    refine ⟨h.of_keeps hinv (unloadSlot_keeps slotIdx) hcb fun i hi => ?_, hcb⟩
    obtain ⟨q, hq⟩ := h.inv i
    exact routes_of_shows (unloadSlot_shows hi hq).1 (by simp)
  | setSlotBypass slotIdx b =>
    cases hs
    have hcb : (ch.setSlotBypass slotIdx b).2.paramChangedCb = ch.paramChangedCb := by
      unfold setSlotBypass
      split <;> rfl
    refine ⟨⟨hinv, fun j => ?_⟩, hcb⟩
    rw [setSlotBypass_slot, hcb]
    exact h.routes j
  | setChainEnabled b =>
    cases hs
    exact ⟨⟨hinv, h.routes⟩, rfl⟩
  | setParamChangedCallback cb =>
    cases hs
    have hcb := cb_setParamChangedCallback ch cb
    refine ⟨⟨hinv, fun j => ?_⟩, hcb⟩
    obtain ⟨q, hq⟩ := h.inv j
    rw [setParamChangedCallback_slot, hcb]
    refine routes_of_shows (shows_rewrap hq _) fun p hp => ?_
    obtain ⟨p, -, rfl⟩ := Option.map_eq_some_iff.mp hp
    rfl
  | acquireEditorView create slotIdx =>
    cases hs
    obtain ⟨hcb, hroutes⟩ := acquireEditorView_routes create ch slotIdx
    exact ⟨h.of_keeps hinv (acquireEditorView_keeps create ch slotIdx) hcb
      fun i hi => hroutes i hi _ (h.routes i), hcb⟩
  | releaseEditorView slotIdx =>
    cases hs
    obtain ⟨hcb, hroutes⟩ := releaseEditorView_routes ch slotIdx
    exact ⟨h.of_keeps hinv (releaseEditorView_keeps ch slotIdx) hcb fun i hi => hroutes i hi _ (h.routes i), hcb⟩

end Wired
end SlotTable

/-- A call of a chain-level callback. -/
structure Invocation (C D : Type) where
  callback : C
  slotIdx : Int
  paramId : BitVec 32
  value : D
  deriving DecidableEq

/-- What the installed wrapper makes of the fires it is called with, if there is one. -/
def send {C D : Type} (w : Option (Wrapped C)) (fires : List (QueuedFire D)) : List (Invocation C D) :=
  match w with
  | none => []
  | some w => fires.map fun fire => ⟨w.callback, w.slotIdx, fire.paramId, fire.value⟩

abbrev CLAP_CORE_EVENT_SPACE_ID : BitVec 16 := 0

abbrev CLAP_EVENT_PARAM_VALUE : BitVec 16 := 5

/-- `sizeof(clap_event_param_value_t)`. -/
abbrev sizeofParamValue : BitVec 32 := 56

/-- An event that a CLAP plugin pushes; the last two fields are read only of an
event of the right kind and size. -/
structure ClapEvent (D : Type) where
  size : BitVec 32
  spaceId : BitVec 16
  type : BitVec 16
  paramId : BitVec 32
  value : D

/-- A change of a parameter's value, as against any other event. -/
def ClapEvent.isParamValue {D : Type} (event : ClapEvent D) : Bool :=
  event.spaceId == CLAP_CORE_EVENT_SPACE_ID && event.type == CLAP_EVENT_PARAM_VALUE && sizeofParamValue ≤ event.size

def ClapEvent.fire {D : Type} (event : ClapEvent D) : QueuedFire D := ⟨event.paramId, event.value⟩

/-- `OutputEventsTryPush`, on the `paramValues` of its context. -/
def outputEventsTryPush {D : Type} (paramValues : List (QueuedFire D)) (event : ClapEvent D) :
    List (QueuedFire D) :=
  if event.isParamValue then paramValues ++ [event.fire] else paramValues

/-- The chain, the handler of the VST3 plugin in each slot, and the callbacks' calls so far. -/
structure Routing (P V C α D : Type) where
  chain : SlotTable P V C α
  handler : Fin kMaxSlots → Editing D
  invoked : List (Invocation C D)

/-- What can happen to the notifications; `F` is the type of VST2's parameter values. -/
inductive RouteAct (P V C F D : Type) where
  | control (c : ControlCall P V C)
  /-- `audioMasterAutomate`. -/
  | automate (i : Fin kMaxSlots) (index : BitVec 32) (opt : F)
  /-- The events pushed during one `process` or `flush`. -/
  | outputEvents (i : Fin kMaxSlots) (events : List (ClapEvent D))
  /-- `performEdit`, or a step of the handler's threads. -/
  | edit (i : Fin kMaxSlots) (a : EditAct D)

def RouteAct.isControl {P V C F D : Type} : RouteAct P V C F D → Bool
  | .control _ => true
  | .automate _ _ _ | .outputEvents _ _ | .edit _ _ => false

/-- The slot whose plugin a call tears down before anything else. -/
def ControlCall.tornDown {P V C : Type} : ControlCall P V C → Option (Fin kMaxSlots)
  | .loadSlot _ slotIdx _ | .unloadSlot slotIdx => slotIndex slotIdx
  | _ => none

/-- The chain-level callback set last. -/
def latest {P V C F D : Type} (as : List (RouteAct P V C F D)) : Option C :=
  as.foldl (fun cb a => match a with
    | .control c => SlotTable.callbackAfter cb c
    | .automate _ _ _ | .outputEvents _ _ | .edit _ _ => cb) none

/-- The fire that a step of the drain thread hands to `cb_`. -/
def handedOver {D : Type} (s : Handler Unit D) : Act Unit D → List (QueuedFire D)
  | .drain => match s.drain with
    | .dispatch fire => [fire]
    | _ => []
  | .performEdit _ _ | .editor _ | .destroy | .dtor => []

def handed {D : Type} (e : Editing D) : EditAct D → List (QueuedFire D)
  | .performEdit _ _ _ => []
  | .handler a => handedOver e.drainSide.handler a

/-- The fires let through and not yet handed over, in their order. -/
def awaiting {D : Type} (e : Editing D) : List (QueuedFire D) :=
  inFlight e.drainSide.handler.drain ++ e.drainSide.handler.queue ++ Editing.pending (e.drainSide.handler.editor ())

namespace Routing
variable {P V C α F D : Type} (near : D → D → Bool) (toDouble : F → D)

def initial (sampleRate : BitVec 64) (maxBlockSize : Int) (zero : α) : Routing P V C α D :=
  ⟨SlotTable.initial sampleRate maxBlockSize zero, fun _ => Editing.initial, []⟩

/-- The plugin in a loaded slot of this format. -/
def plugin (s : Routing P V C α D) (f : SlotFormat) (i : Fin kMaxSlots) : Option (SlotHost P V C) :=
  if s.chain.loaded i = true ∧ s.chain.format i = f then s.chain.pointer f i else none

/-- A plugin that is about to be torn down has had its handler destroyed: the drain
thread has dispatched what was left and has been joined. -/
def ready (s : Routing P V C α D) (c : ControlCall P V C) : Bool :=
  match c.tornDown with
  | none => true
  | some i => (s.chain.pointer .vst3 i).isNone || (s.handler i).drainSide.handler.dtor == .joined

/-- `Load` makes a new handler. -/
def renewed (s : Routing P V C α D) (c : ControlCall P V C) : Fin kMaxSlots → Editing D :=
  match c.tornDown with
  | none => s.handler
  | some i => Function.update s.handler i Editing.initial

def step (s : Routing P V C α D) : RouteAct P V C F D → Option (Routing P V C α D)
  | .control c =>
    if s.ready c then (s.chain.step c).map fun chain => { s with chain, handler := s.renewed c } else none
  | .automate i index opt => (s.plugin .vst2 i).map fun host =>
    { s with invoked := s.invoked ++ send host.paramChangedCallback [⟨index, toDouble opt⟩] }
  | .outputEvents i events => (s.plugin .clap i).map fun host =>
    { s with invoked := s.invoked ++ send host.paramChangedCallback (events.foldl outputEventsTryPush []) }
  | .edit i a => (s.plugin .vst3 i).bind fun host =>
    ((s.handler i).step near a).map fun e => { s with
      handler := Function.update s.handler i e
      invoked := s.invoked ++ send host.paramChangedCallback (handed (s.handler i) a) }

variable {near toDouble} {s t u : Routing P V C α D} {i : Fin kMaxSlots}

@[simp] theorem foldl_tryPush (events : List (ClapEvent D)) (sent : List (QueuedFire D)) :
    events.foldl outputEventsTryPush sent = sent ++ (events.filter ClapEvent.isParamValue).map ClapEvent.fire := by
  induction events generalizing sent with
  | nil => simp
  | cons event events ih =>
    rw [List.foldl_cons, ih, outputEventsTryPush]
    cases h : event.isParamValue <;> simp [h]

/-- Notifications change no slot and no callback. -/
private theorem chain_step {a : RouteAct P V C F D} (ha : a.isControl = false) (hs : s.step near toDouble a = some t) :
    t.chain = s.chain := by
  cases a with
  | control c => cases ha
  | automate i index opt | outputEvents i events =>
    obtain ⟨host, -, rfl⟩ := Option.map_eq_some_iff.mp hs
    rfl
  | edit i a =>
    obtain ⟨host, -, hstep⟩ := Option.bind_eq_some_iff.mp hs
    obtain ⟨e, -, rfl⟩ := Option.map_eq_some_iff.mp hstep
    rfl

/-- The object of a plugin has the current wrapper for its own slot. -/
private theorem callback_plugin (h : s.chain.Wired) {f : SlotFormat} {host : SlotHost P V C}
    (hp : s.plugin f i = some host) :
    host.paramChangedCallback = SlotTable.wrap i s.chain.paramChangedCb := by
  unfold plugin at hp
  split at hp
  · exact h.routes i f host hp
  · cases hp

/-- The table's invariant, and the callback being the one set last. -/
private theorem wired_run {sampleRate : BitVec 64} {maxBlockSize : Int} {zero : α} {as : List (RouteAct P V C F D)}
    (he : exec (step near toDouble) (initial sampleRate maxBlockSize zero) as = some t) :
    t.chain.Wired ∧ t.chain.paramChangedCb = latest as := by
  induction as using List.reverseRecOn generalizing t with
  | nil =>
    cases he
    exact ⟨SlotTable.Wired.initial sampleRate maxBlockSize zero, rfl⟩
  | append_singleton as a ih =>
    obtain ⟨s, hs, hstep⟩ := exec_concat_some he
    obtain ⟨hwired, hcb⟩ := ih hs
    rw [latest, List.foldl_append, ← latest, List.foldl_cons, List.foldl_nil, ← hcb]
    cases a with
    | control c =>
      simp only [step] at hstep
      split at hstep
      · obtain ⟨chain, hchain, rfl⟩ := Option.map_eq_some_iff.mp hstep
        exact hwired.step hchain
      · cases hstep
    | automate | outputEvents | edit =>
      have hchain := chain_step rfl hstep
      rw [hchain]
      exact ⟨hwired, rfl⟩

end Routing

section Accounting
variable {D : Type} {near : D → D → Bool} {r u : Recorded Unit D} {e e' : Editing D}

/-- What is handed over is what the handler's record of dispatched fires grows by. -/
theorem dispatched_step {s t : Handler Unit D} {a : Act Unit D} (hs : s.step a = some t) :
    t.dispatched = s.dispatched ++ handedOver s a := by
  cases a with
  | performEdit e fire =>
    simp only [Handler.step] at hs
    split at hs <;> cases hs
    exact (List.append_nil _).symm
  | editor e =>
    cases QueueStep.of_editor hs with
    | push pc queue count drain dispatched => exact dispatched.trans (List.append_nil _).symm
    | other quiet books queue count flight dispatched => exact dispatched.trans (List.append_nil _).symm
  | drain =>
    simp only [Handler.step, Handler.drainStep] at hs
    simp only [handedOver]
    cases hd : s.drain <;> rw [hd] at hs <;> dsimp only at hs
    case dispatch fire =>
      cases hs
      rfl
    case lock | reacquire | pop =>
      split at hs <;> cases hs
      exact (List.append_nil _).symm
    all_goals
      cases hs
      try exact (List.append_nil _).symm
  | destroy =>
    simp only [Handler.step] at hs
    split at hs <;> cases hs
    exact (List.append_nil _).symm
  | dtor =>
    cases QueueStep.of_step hs with
    | other quiet books queue count flight dispatched => exact dispatched.trans (List.append_nil _).symm

/-- A step of the handler that drops nothing hands over the oldest fires awaited, and
awaits what is pushed. -/
private theorem handler_accounts {a : Act Unit D} (h : Follows r) (hs : r.step a = some u) :
    r.ledger.dropped <+: u.ledger.dropped ∧ (u.ledger.dropped = r.ledger.dropped →
      handedOver r.handler a ++ (inFlight u.handler.drain ++ u.handler.queue) =
        inFlight r.handler.drain ++ r.handler.queue ++ (Recorded.pushed r.handler a).toList) := by
  obtain ⟨t, ht, rfl⟩ := Option.map_eq_some_iff.mp hs
  cases QueueStep.of_step ht with
  | push pc queue count drain dispatched =>
    rw [Recorded.note_push pc, Recorded.pushed_push pc, Ledger.dropped_push _ _ (by decide), ← h.queue, queue,
      drain]
    refine ⟨List.prefix_append _ _, fun hdropped => ?_⟩
    have hnone := List.append_right_eq_self.mp hdropped
    have hfits : ¬ kQueueCap ≤ r.handler.queue.length := by
      intro hfull
      rw [if_pos hfull] at hnone
      have hlen := congrArg List.length hnone
      rw [List.length_take, List.length_nil] at hlen
      have hcap : 0 < kQueueCap := by decide
      omega
    rw [push, if_neg hfits]
    simp [handedOver]
  | pop pc queued queue count drain dispatched =>
    rw [Recorded.note_pop pc, Ledger.dropped_settle_false]
    refine ⟨List.prefix_rfl, fun _ => ?_⟩
    simp [handedOver, pc, drain, queue, queued, inFlight, Recorded.pushed]
  | dispatch pc queue count drain dispatched =>
    rw [Recorded.note_dispatch pc]
    refine ⟨List.prefix_rfl, fun _ => ?_⟩
    simp [handedOver, pc, drain, queue, inFlight, Recorded.pushed]
  | other quiet books queue count flight dispatched =>
    rw [books]
    refine ⟨List.prefix_rfl, fun _ => ?_⟩
    have hnone := List.append_right_eq_self.mp ((dispatched_step ht).symm.trans dispatched)
    rw [hnone, quiet, flight, queue]
    simp

/-- A step of the handler with its filter, in terms of the fires let through. -/
private theorem editing_accounts {a : EditAct D} (h : Editing.Forwards e) (hs : e.step near a = some e') :
    ∃ new, e'.audioPushes = e.audioPushes ++ new ∧
      e.drainSide.ledger.dropped <+: e'.drainSide.ledger.dropped ∧
      (e'.drainSide.ledger.dropped = e.drainSide.ledger.dropped →
        handed e a ++ awaiting e' = awaiting e ++ new) := by
  cases a with
  | performEdit nowNs id value =>
    obtain ⟨hout, hcall⟩ := Editing.call_cases hs
    obtain ⟨-, ⟨-, haudio, hd⟩ | ⟨-, haudio, hd⟩⟩ := Editing.performEdit_cases hcall
    · refine ⟨[], haudio.trans (List.append_nil _).symm, by rw [hd], fun _ => ?_⟩
      rw [awaiting, awaiting, hd]
      simp [handed]
    · obtain ⟨t, ht, hside⟩ := Option.map_eq_some_iff.mp hd
      simp only [Handler.step, hout, Option.some.injEq] at ht
      subst ht
      refine ⟨[⟨id, value⟩], haudio, by rw [← hside]; exact List.prefix_rfl, fun _ => ?_⟩
      rw [awaiting, awaiting, ← hside, hout]
      simp [handed, Editing.pending]
  | handler a =>
    obtain ⟨ha, hd, haudio, -⟩ := Editing.handler_cases hs
    obtain ⟨hgrown, haccounts⟩ := handler_accounts h.follows hd
    refine ⟨[], haudio.trans (List.append_nil _).symm, hgrown, fun hdropped => ?_⟩
    have hpending := Editing.enqueued_pending ha hd
    obtain ⟨t, ht, hside⟩ := Option.map_eq_some_iff.mp hd
    have hpushed : (Recorded.pushed e.drainSide.handler a).toList ++
        Editing.pending (e'.drainSide.handler.editor ()) = Editing.pending (e.drainSide.handler.editor ()) := by
      rw [← hside, List.append_assoc] at hpending
      rw [← hside]
      exact List.append_cancel_left hpending
    rw [awaiting, awaiting, ← List.append_assoc, handed, haccounts hdropped, List.append_assoc, hpushed,
      List.append_nil]

end Accounting

private theorem send_append {C D : Type} (w : Option (Wrapped C)) (a b : List (QueuedFire D)) :
    send w (a ++ b) = send w a ++ send w b := by
  cases w with
  | none => rfl
  | some w => exact List.map_append

/-- The calls that report this slot. -/
def reported {C D : Type} (i : Fin kMaxSlots) (invoked : List (Invocation C D)) : List (Invocation C D) :=
  invoked.filter fun inv => inv.slotIdx == (i.val : Int)

private theorem reported_send {C D : Type} (i j : Fin kMaxSlots) (cb : Option C) (fires : List (QueuedFire D)) :
    reported i (send (SlotTable.wrap j cb) fires) = if j = i then send (SlotTable.wrap j cb) fires else [] := by
  cases cb with
  | none => simp [reported, SlotTable.wrap, send]
  | some c =>
    by_cases h : j = i
    · simp [reported, SlotTable.wrap, send, h]
    · have hne : ¬ (j.val : Int) = i.val := fun heq => h (Fin.ext (Int.ofNat_inj.mp heq))
      simp [reported, SlotTable.wrap, send, h, hne]

namespace Routing
variable {P V C α F D : Type} {near : D → D → Bool} {toDouble : F → D} {s t u : Routing P V C α D}
  {i : Fin kMaxSlots}

/-- The handlers keep their own books through every step. -/
private theorem forwards_step {a : RouteAct P V C F D} (h : ∀ i, Editing.Forwards (s.handler i))
    (hs : s.step near toDouble a = some t) : ∀ i, Editing.Forwards (t.handler i) := by
  have hupdate : ∀ (j : Fin kMaxSlots) (e : Editing D), Editing.Forwards e →
      ∀ i, Editing.Forwards (Function.update s.handler j e i) := by
    intro j e he i
    by_cases hi : i = j
    · subst hi
      rwa [Function.update_self]
    · rw [Function.update_of_ne hi]
      exact h i
  cases a with
  | control c =>
    simp only [step] at hs
    split at hs
    · obtain ⟨chain, -, rfl⟩ := Option.map_eq_some_iff.mp hs
      intro i
      simp only [renewed]
      cases c.tornDown with
      | none => exact h i
      | some j => exact hupdate j _ Editing.Forwards.initial i
    · cases hs
  | automate | outputEvents =>
    obtain ⟨host, -, rfl⟩ := Option.map_eq_some_iff.mp hs
    exact h
  | edit j a =>
    obtain ⟨host, -, hstep⟩ := Option.bind_eq_some_iff.mp hs
    obtain ⟨e, he, rfl⟩ := Option.map_eq_some_iff.mp hstep
    exact hupdate j e ((h j).keep he)

/-- One notification or handler step, as the slot of a VST3 plugin sees it. -/
private theorem notify_accounts {a : RouteAct P V C F D} (hwired : s.chain.Wired)
    (hforwards : Editing.Forwards (s.handler i)) (hfmt : s.chain.format i = .vst3) (ha : a.isControl = false)
    (hs : s.step near toDouble a = some t) :
    ∃ new, (t.handler i).audioPushes = (s.handler i).audioPushes ++ new ∧
      (s.handler i).drainSide.ledger.dropped <+: (t.handler i).drainSide.ledger.dropped ∧
      ((t.handler i).drainSide.ledger.dropped = (s.handler i).drainSide.ledger.dropped →
        reported i t.invoked ++ send (SlotTable.wrap i s.chain.paramChangedCb) (awaiting (t.handler i)) =
          reported i s.invoked ++
            send (SlotTable.wrap i s.chain.paramChangedCb) (awaiting (s.handler i) ++ new)) := by
  have hother : ∀ {f : SlotFormat} {j : Fin kMaxSlots} {host : SlotHost P V C} (fires : List (QueuedFire D)),
      f ≠ .vst3 → s.plugin f j = some host → reported i (send host.paramChangedCallback fires) = [] := by
    intro f j host fires hf hp
    rw [callback_plugin hwired hp, reported_send, if_neg]
    rintro rfl
    unfold plugin at hp
    split at hp
    · rename_i hloaded
      exact hf (hloaded.2.symm.trans hfmt)
    · cases hp
  cases a with
  | control c => cases ha
  | automate j index opt =>
    obtain ⟨host, hp, rfl⟩ := Option.map_eq_some_iff.mp hs
    refine ⟨[], (List.append_nil _).symm, List.prefix_rfl, fun _ => ?_⟩
    rw [reported, List.filter_append, ← reported, ← reported, hother _ (by decide) hp, List.append_nil,
      List.append_nil]
  | outputEvents j events =>
    obtain ⟨host, hp, rfl⟩ := Option.map_eq_some_iff.mp hs
    refine ⟨[], (List.append_nil _).symm, List.prefix_rfl, fun _ => ?_⟩
    rw [reported, List.filter_append, ← reported, ← reported, hother _ (by decide) hp, List.append_nil,
      List.append_nil]
  | edit j a =>
    obtain ⟨host, hp, hstep⟩ := Option.bind_eq_some_iff.mp hs
    obtain ⟨e, he, rfl⟩ := Option.map_eq_some_iff.mp hstep
    have hsend := reported_send i j s.chain.paramChangedCb (handed (s.handler j) a)
    rw [← callback_plugin hwired hp] at hsend
    by_cases hj : j = i
    · subst hj
      obtain ⟨new, hnew, hgrown, haccounts⟩ := editing_accounts hforwards he
      simp only [Function.update_self]
      refine ⟨new, hnew, hgrown, fun hdropped => ?_⟩
      rw [if_pos rfl] at hsend
      rw [reported, List.filter_append, ← reported, ← reported, hsend, callback_plugin hwired hp,
        ← haccounts hdropped, send_append, List.append_assoc]
    · simp only [Function.update_of_ne (Ne.symm hj)]
      refine ⟨[], (List.append_nil _).symm, List.prefix_rfl, fun _ => ?_⟩
      rw [if_neg hj] at hsend
      rw [reported, List.filter_append, ← reported, ← reported, hsend, List.append_nil, List.append_nil]

/-- Between control calls: what a VST3 plugin's slot has reported, with what is still
awaited, is what it had reported before, with what was awaited then and let through since. -/
private theorem notifications_account {bs : List (RouteAct P V C F D)} (hwired : s.chain.Wired)
    (hforwards : ∀ i, Editing.Forwards (s.handler i)) (hfmt : s.chain.format i = .vst3)
    (hbs : ∀ a ∈ bs, a.isControl = false) (he : exec (step near toDouble) s bs = some u) :
    u.chain = s.chain ∧ (∀ i, Editing.Forwards (u.handler i)) ∧
    ∃ new, (u.handler i).audioPushes = (s.handler i).audioPushes ++ new ∧
      (s.handler i).drainSide.ledger.dropped <+: (u.handler i).drainSide.ledger.dropped ∧
      ((u.handler i).drainSide.ledger.dropped = (s.handler i).drainSide.ledger.dropped →
        reported i u.invoked ++ send (SlotTable.wrap i s.chain.paramChangedCb) (awaiting (u.handler i)) =
          reported i s.invoked ++
            send (SlotTable.wrap i s.chain.paramChangedCb) (awaiting (s.handler i) ++ new)) := by
  induction bs using List.reverseRecOn generalizing u with
  | nil =>
    cases he
    exact ⟨rfl, hforwards, [], (List.append_nil _).symm, List.prefix_rfl, fun _ => by rw [List.append_nil]⟩
  | append_singleton bs a ih =>
    obtain ⟨t, ht, hstep⟩ := exec_concat_some he
    obtain ⟨hchain, hfor, new, hnew, hgrown, haccounts⟩ := ih (fun b hb => hbs b (List.mem_append_left _ hb)) ht
    have ha := hbs a (by simp)
    obtain ⟨more, hmore, hgrown', haccounts'⟩ :=
      notify_accounts (i := i) (hchain ▸ hwired) (hfor i) (hchain ▸ hfmt) ha hstep
    refine ⟨(chain_step ha hstep).trans hchain, forwards_step hfor hstep, new ++ more, ?_, hgrown.trans hgrown',
      fun hdropped => ?_⟩
    · rw [hmore, hnew, List.append_assoc]
    · -- nothing was dropped in the first part nor in the last step
      have hmid : (t.handler i).drainSide.ledger.dropped = (s.handler i).drainSide.ledger.dropped :=
        (hgrown.eq_of_length_le (hdropped ▸ hgrown'.length_le)).symm
      rw [hchain] at haccounts'
      rw [haccounts' (hdropped.trans hmid.symm), send_append, ← List.append_assoc, haccounts hmid,
        List.append_assoc, ← send_append, List.append_assoc]

private theorem plugin_of_loaded (h : s.chain.Wired) {f : SlotFormat} (hl : s.chain.loaded i = true)
    (hf : s.chain.format i = f) : ∃ host, s.plugin f i = some host := by
  obtain ⟨q, hq⟩ := h.inv i
  obtain ⟨p, rfl⟩ : ∃ p, q = some p := Option.isSome_iff_exists.mp (hq.loaded.symm.trans hl)
  refine ⟨p.host, ?_⟩
  unfold plugin
  rw [if_pos ⟨hl, hf⟩, ← hf]
  exact hq.host

/-- After any sequence of control calls and notifications every object that a slot points
at has the wrapper of the callback set last, for that slot. A VST2 plugin's notification
and the value events among those a CLAP plugin pushes invoke just that callback, or
nothing when it is null. So does, once its queue is drained without a loss, a VST3
plugin's edit that the filter lets through, in its place among the others let through. -/
theorem notifications_reach_latest_callback (near : D → D → Bool) (toDouble : F → D) (sampleRate : BitVec 64)
    (maxBlockSize : Int) (zero : α) (as : List (RouteAct P V C F D)) (t : Routing P V C α D)
    (he : exec (step near toDouble) (initial sampleRate maxBlockSize zero) as = some t) :
    (∀ i f host, t.chain.pointer f i = some host → host.paramChangedCallback = SlotTable.wrap i (latest as)) ∧
    ∀ i, t.chain.loaded i = true →
      (t.chain.format i = .vst2 → ∀ index opt, ∃ u, t.step near toDouble (.automate i index opt) = some u ∧
        u.invoked = t.invoked ++ send (SlotTable.wrap i (latest as)) [⟨index, toDouble opt⟩]) ∧
      (t.chain.format i = .clap → ∀ events, ∃ u, t.step near toDouble (.outputEvents i events) = some u ∧
        u.invoked = t.invoked ++
          send (SlotTable.wrap i (latest as)) ((events.filter ClapEvent.isParamValue).map ClapEvent.fire)) ∧
      (t.chain.format i = .vst3 → ∀ nowNs id value bs u, (∀ a ∈ bs, a.isControl = false) →
        exec (step near toDouble) t (.edit i (.performEdit nowNs id value) :: bs) = some u →
        swallows near (t.handler i).lastFires nowNs id value = false →
        (u.handler i).drainSide.ledger.dropped = (t.handler i).drainSide.ledger.dropped →
        awaiting (u.handler i) = [] →
        ∃ later, (u.handler i).audioPushes = (t.handler i).audioPushes ++ ⟨id, value⟩ :: later ∧
          reported i u.invoked = reported i t.invoked ++
            send (SlotTable.wrap i (latest as)) (awaiting (t.handler i) ++ ⟨id, value⟩ :: later)) := by
  obtain ⟨hwired, hcb⟩ := wired_run he
  have hforwards : ∀ i, Editing.Forwards (t.handler i) :=
    invariant_of_step (fun s : Routing P V C α D => ∀ i, Editing.Forwards (s.handler i))
      (fun h hs => forwards_step h hs) (fun _ => Editing.Forwards.initial) he
  rw [← hcb]
  refine ⟨fun i f host hp => hwired.routes i f host hp, fun i hl => ⟨fun hf index opt => ?_, fun hf events => ?_,
    fun hf nowNs id value bs u hbs hu hlet hdropped hdrained => ?_⟩⟩
  · obtain ⟨host, hp⟩ := plugin_of_loaded hwired hl hf
    refine ⟨_, by rw [step, hp]; rfl, ?_⟩
    dsimp only
    rw [callback_plugin hwired hp]
  · obtain ⟨host, hp⟩ := plugin_of_loaded hwired hl hf
    refine ⟨_, by rw [step, hp]; rfl, ?_⟩
    dsimp only
    rw [callback_plugin hwired hp, foldl_tryPush, List.nil_append]
  · have hall : ∀ a ∈ RouteAct.edit i (.performEdit nowNs id value) :: bs, a.isControl = false :=
      List.forall_mem_cons.mpr ⟨rfl, hbs⟩
    obtain ⟨-, -, new, hnew, -, haccounts⟩ := notifications_account (i := i) hwired hforwards hf hall hu
    -- the edit itself is the first to be let through
    obtain ⟨s, hs, hrest⟩ := Option.bind_eq_some_iff.mp hu
    have hchain := chain_step rfl hs
    obtain ⟨-, -, later, hlater, -, -⟩ :=
      notifications_account (i := i) (hchain ▸ hwired) (forwards_step hforwards hs) (hchain ▸ hf) hbs hrest
    have hfirst : (s.handler i).audioPushes = (t.handler i).audioPushes ++ [⟨id, value⟩] := by
      obtain ⟨host, -, hstep⟩ := Option.bind_eq_some_iff.mp hs
      obtain ⟨e, he, rfl⟩ := Option.map_eq_some_iff.mp hstep
      obtain ⟨-, hcall⟩ := Editing.call_cases he
      obtain ⟨-, ⟨hsw, -, -⟩ | ⟨-, haudio, -⟩⟩ := Editing.performEdit_cases hcall
      · rw [hlet] at hsw
        cases hsw
      · simpa using haudio
    have heq : new = ⟨id, value⟩ :: later := by
      rw [hlater, hfirst, List.append_assoc] at hnew
      exact (List.append_cancel_left hnew).symm
    subst heq
    refine ⟨later, hnew, ?_⟩
    have h := haccounts hdropped
    rw [hdrained] at h
    simpa [send_append, show send (SlotTable.wrap i t.chain.paramChangedCb) ([] : List (QueuedFire D)) = [] by
      cases t.chain.paramChangedCb <;> rfl] using h

/-- Every format's plugin loads. -/
def loads : Loader Unit :=
  { probeIsVst2 := fun _ => true, vst3 := fun _ _ _ => .activated () ⟨[], [], []⟩,
    vst2 := fun _ _ _ => .activated () ⟨[], [], []⟩, clap := fun _ _ _ => .activated () ⟨[], [], []⟩ }

/-- Slot 0 is loaded under one callback and slot 2 reloaded with another format; then
the callback is replaced. -/
def setUp : List (RouteAct Unit Unit Bool Int Int) :=
  [.control (.setParamChangedCallback (some true)), .control (.loadSlot loads 0 (text "a.vst3")),
    .control (.loadSlot loads 2 (text "b.clap")), .control (.loadSlot loads 2 (text "c.so")),
    .control (.setParamChangedCallback (some false))]

def initialRouting : Routing Unit Unit Bool Unit Int := initial 0 256 ()

/-- A plugin of this format is loaded in the slot; nothing is awaited there and nothing
was dropped, and these edits have been let through. -/
def Rests (t : Routing P V C α D) (i : Fin kMaxSlots) (f : SlotFormat) (passed : List (QueuedFire D)) : Prop :=
  t.chain.loaded i = true ∧ t.chain.format i = f ∧ awaiting (t.handler i) = [] ∧
    (t.handler i).drainSide.ledger.dropped = [] ∧ (t.handler i).audioPushes = passed

instance [DecidableEq D] (t : Routing P V C α D) (i : Fin kMaxSlots) (f : SlotFormat) (passed : List (QueuedFire D)) :
    Decidable (t.Rests i f passed) :=
  inferInstanceAs (Decidable (_ = _ ∧ _ = _ ∧ _ = _ ∧ _ = _ ∧ _ = _))

theorem notifications_reach_latest_callback_reloaded :
    ∃ t, exec (step Editing.nearUnits id) initialRouting setUp = some t ∧
      (∃ u, t.step Editing.nearUnits id (.automate 2 7 5) = some u ∧ u.invoked = [⟨false, 2, 7, 5⟩]) ∧
      ∃ u, exec (step Editing.nearUnits id) t ((Editing.editAndDrain 0 3 1024).map (.edit 0)) = some u ∧
        reported 0 u.invoked = [⟨false, 0, 3, 1024⟩] := by
  obtain ⟨t, ht, hview⟩ := Option.map_eq_some_iff.mp
    (show (exec (step Editing.nearUnits id) initialRouting setUp).map (fun t =>
        (decide (t.Rests 0 .vst3 [] ∧ t.Rests 2 .vst2 [] ∧ t.invoked = [] ∧
            swallows Editing.nearUnits (t.handler 0).lastFires 0 3 1024 = false),
          (exec (step Editing.nearUnits id) t ((Editing.editAndDrain 0 3 1024).map (.edit 0))).map
            fun u => decide (u.Rests 0 .vst3 [⟨3, 1024⟩]))) = some (true, some true) by decide +kernel)
  simp only [Prod.mk.injEq, decide_eq_true_eq] at hview
  obtain ⟨⟨hrests, hrests', hinvoked, hlet⟩, hrun⟩ := hview
  obtain ⟨hloaded, hvst3, hawait, hdropped, haudio⟩ := hrests
  obtain ⟨hloaded', hvst2, -⟩ := hrests'
  obtain ⟨u, hu, hview⟩ := Option.map_eq_some_iff.mp hrun
  obtain ⟨-, -, hdrained, hkept, hpushed⟩ := of_decide_eq_true hview
  obtain ⟨-, hroutes⟩ := notifications_reach_latest_callback Editing.nearUnits id 0 256 () setUp t ht
  refine ⟨t, ht, ?_, u, hu, ?_⟩
  · obtain ⟨v, hv, hsent⟩ := (hroutes 2 hloaded').1 hvst2 7 5
    rw [hinvoked] at hsent
    exact ⟨v, hv, hsent⟩
  · obtain ⟨later, hlater, hsent⟩ := (hroutes 0 hloaded).2.2 hvst3 0 3 1024 _ u (by decide) hu hlet
      (hkept.trans hdropped.symm) hdrained
    rw [hpushed, haudio, List.nil_append, List.cons.injEq] at hlater
    rw [hsent, hawait, ← hlater.2, hinvoked]
    rfl

/-- Three edits of one knob within 10 ms: the second is swallowed, and reaches no callback. -/
theorem swallowed_edit_reaches_no_callback :
    ∃ t, exec (step Editing.nearUnits id) initialRouting setUp = some t ∧ latest setUp = some false ∧
      t.Rests 0 .vst3 [] ∧
      ∃ u, exec (step Editing.nearUnits id) t ((Editing.editAndDrain 0 3 1024 ++ .performEdit 5000000 3 1025 ::
          Editing.editAndDrain 10000000 3 1026).map (.edit 0)) = some u ∧
        u.Rests 0 .vst3 [⟨3, 1024⟩, ⟨3, 1026⟩] ∧ (u.handler 0).edits = [⟨3, 1024⟩, ⟨3, 1025⟩, ⟨3, 1026⟩] ∧
        u.invoked = [⟨false, 0, 3, 1024⟩, ⟨false, 0, 3, 1026⟩] := by
  obtain ⟨t, ht, hview⟩ := Option.map_eq_some_iff.mp
    (show (exec (step Editing.nearUnits id) initialRouting setUp).map (fun t => (decide (t.Rests 0 .vst3 []),
        (exec (step Editing.nearUnits id) t ((Editing.editAndDrain 0 3 1024 ++ .performEdit 5000000 3 1025 ::
          Editing.editAndDrain 10000000 3 1026).map (.edit 0))).map fun u =>
            decide (u.Rests 0 .vst3 [⟨3, 1024⟩, ⟨3, 1026⟩] ∧
              (u.handler 0).edits = [⟨3, 1024⟩, ⟨3, 1025⟩, ⟨3, 1026⟩] ∧
              u.invoked = [⟨false, 0, 3, 1024⟩, ⟨false, 0, 3, 1026⟩]))) = some (true, some true) by decide +kernel)
  simp only [Prod.mk.injEq, decide_eq_true_eq] at hview
  obtain ⟨hrests, hrun⟩ := hview
  obtain ⟨u, hu, hview⟩ := Option.map_eq_some_iff.mp hrun
  exact ⟨t, ht, rfl, hrests, u, hu, of_decide_eq_true hview⟩

end Routing
end Plughost.Vst3
