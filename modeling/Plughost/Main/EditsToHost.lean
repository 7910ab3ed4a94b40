import Plughost.Lib.Simulation
import Plughost.Main.ParamChanged
import Plughost.Vst3.EditCoalescing
import Plughost.Vst3.EditEnding

/-! A knob's way to the host: the edits in eight slots go through filters, queues and drain
threads, or straight on, to one socket, and the host reads what gets through. The plugins stay
loaded for the run, and each VST3 slot has one editing thread at a time. -/
namespace Plughost.Main
open Plughost.Runs Plughost.Simulation Plughost.BoundedQueue Plughost.Ipc.ControlPipe Plughost.Vst3
open Plughost.Vst3.EditDrain (QueuedFire EditAct Editing Recorded lastFire swallows inFlight)

/-- A double's 64 bits. -/
abbrev Fire := QueuedFire (BitVec 64)

/-- Where a slot's edits come from. A VST3 plugin calls `performEdit`; the VST2 callback, and
CLAP's `Process` and flush, call the slot's callback themselves. -/
inductive Source where
  | handler (h : Editing (BitVec 64)) (swallowed : List Fire)
  | direct (edits : List Fire)

inductive SourceAct where
  | edit (a : EditAct (BitVec 64))
  | call (fire : Fire)

namespace Source

/-- A plugin that has just been loaded. -/
def fresh (vst3 : Bool) : Source := if vst3 then .handler Editing.initial [] else .direct []

/-- The fire that the filter of `performEdit` keeps back. -/
def swallow (near : BitVec 64 → BitVec 64 → Bool) (h : Editing (BitVec 64)) : EditAct (BitVec 64) → List Fire
  | .performEdit nowNs id value => if swallows near h.lastFires nowNs id value then [⟨id, value⟩] else []
  | .handler _ => []

def step (near : BitVec 64 → BitVec 64 → Bool) : Source → SourceAct → Option Source
  | .handler h swallowed, .edit a => (h.step near a).map fun h' => .handler h' (swallowed ++ swallow near h a)
  | .direct edits, .call fire => some (.direct (edits ++ [fire]))
  | _, _ => none

/-- The fire with which the step calls the slot's callback. -/
def hands : Source → SourceAct → Option Fire
  | .handler h _, .edit (.handler .drain) => match h.drainSide.handler.drain with
    | .dispatch fire => some fire
    | _ => none
  | .direct _, .call fire => some fire
  | _, _ => none

/-- The edits that the plugin has made. -/
def edits : Source → List Fire
  | .handler h _ => h.edits
  | .direct edits => edits

/-- The fires that the slot's callback was called with. -/
def handed : Source → List Fire
  | .handler h _ => h.drainSide.handler.dispatched
  | .direct edits => edits

/-- The fires that are still on their way to the callback. -/
def waiting : Source → List Fire
  | .handler h _ => inFlight h.drainSide.handler.drain ++ h.drainSide.handler.queue ++
    Editing.pending (h.drainSide.handler.editor ())
  | .direct _ => []

/-- The fires that a full queue has dropped. -/
def dropped : Source → List Fire
  | .handler h _ => h.drainSide.ledger.dropped
  | .direct _ => []

def swallowed : Source → List Fire
  | .handler _ swallowed => swallowed
  | .direct _ => []

end Source

/-- The eight slots, and the calls of the chain's callback in the order of their sends. -/
structure Desk where
  sources : Fin kMaxSlots → Source
  calls : List Call

/-- A step in a slot, with the socket as a send in it finds it. -/
structure DeskAct where
  slot : Fin kMaxSlots
  act : SourceAct
  socket : Socket

namespace Desk

def initial (vst3 : Fin kMaxSlots → Bool) : Desk := ⟨fun i => Source.fresh (vst3 i), []⟩

def step (near : BitVec 64 → BitVec 64 → Bool) (s : Desk) (a : DeskAct) : Option Desk :=
  ((s.sources a.slot).step near a.act).map fun src =>
    { sources := Function.update s.sources a.slot src
      calls := s.calls ++
        ((s.sources a.slot).hands a.act).toList.map fun fire => (⟨a.slot, fire.paramId, fire.value⟩, a.socket) }

/-- The calls for a slot. -/
def callsFor (s : Desk) (i : Fin kMaxSlots) : List Call := s.calls.filter fun c => c.1.slot = i

/-- What the host has read about a slot's parameters, in order. -/
def heard (s : Desk) (i : Fin kMaxSlots) : List (BitVec 32 × BitVec 64) :=
  ((received s.calls).filter fun e => e.1.1 = BitVec.ofNat 8 i.val).map fun e => (e.1.2, e.2)

/-- The calls for a slot whose frames the socket had no room for. -/
def unsent (s : Desk) (i : Fin kMaxSlots) : List Call := (s.callsFor i).filter fun c => !HasRoom c.2

end Desk

/-- A slot's own acts. -/
def DeskAct.of (i : Fin kMaxSlots) (a : DeskAct) : Option SourceAct := if a.slot = i then some a.act else none

def SourceAct.edit? : SourceAct → Option (EditAct (BitVec 64))
  | .edit a => some a
  | .call _ => none

namespace Source
variable {near : BitVec 64 → BitVec 64 → Bool} {src src' : Source} {a : SourceAct}

/-- Every edit is with the callback, on its way to it, dropped or swallowed. -/
structure Accounts (src : Source) : Prop where
  handed : (src.handed).Sublist src.edits
  count : src.edits.length =
    src.handed.length + src.waiting.length + src.dropped.length + src.swallowed.length

/-- What carries the account through a run. -/
def Inv : Source → Prop
  | .handler h swallowed => h.Forwards ∧ h.audioPushes.Sublist h.edits ∧
    h.edits.length = h.audioPushes.length + swallowed.length
  | .direct _ => True

/-- The callback gets fires that the filter let through, in their order. -/
private theorem handed_sublist {h : Editing (BitVec 64)} (hforwards : h.Forwards) :
    h.drainSide.handler.dispatched.Sublist h.audioPushes := by
  have horder := hforwards.follows.dispatchedInOrder
  have hkept : h.drainSide.handler.dispatched.Sublist h.drainSide.ledger.kept := by
    rw [← horder.inOrder, List.append_assoc]
    exact List.sublist_append_left _ _
  have hpushed : h.drainSide.enqueued.Sublist h.audioPushes := by
    rw [← hforwards.enqueued]
    exact List.sublist_append_left _ _
  exact hkept.trans (horder.sublist.trans hpushed)

private theorem length_audioPushes {h : Editing (BitVec 64)} (hforwards : h.Forwards) (swallowed : List Fire) :
    h.audioPushes.length = (Source.handler h swallowed).handed.length + (Source.handler h swallowed).waiting.length +
      (Source.handler h swallowed).dropped.length := by
  have hcount := hforwards.follows.dispatchedInOrder.count
  have hpushed := congrArg List.length hforwards.enqueued
  rw [List.length_append] at hpushed
  simp only [Source.handed, Source.waiting, Source.dropped, List.length_append]
  omega

theorem Inv.accounts (h : Inv src) : src.Accounts := by
  cases src with
  | direct edits => exact ⟨List.Sublist.refl _, rfl⟩
  | handler h' swallowed =>
    obtain ⟨hforwards, hsub, hlen⟩ := h
    refine ⟨(handed_sublist hforwards).trans hsub, hlen.trans ?_⟩
    rw [length_audioPushes hforwards swallowed]
    rfl

theorem Inv.fresh (vst3 : Bool) : Inv (Source.fresh vst3) := by
  cases vst3 with
  | true => exact ⟨Editing.Forwards.initial, List.Sublist.refl _, rfl⟩
  | false => trivial

/-- The callback is called in one step of the drain thread, and in no other step. -/
theorem dispatched_step {r u : Recorded Unit (BitVec 64)} {a : EditDrain.Act Unit (BitVec 64)}
    (hs : r.step a = some u) : u.handler.dispatched = r.handler.dispatched ++ match a, r.handler.drain with
      | .drain, .dispatch fire => [fire]
      | _, _ => [] := by
  obtain ⟨t, ht, rfl⟩ := Option.map_eq_some_iff.mp hs
  cases EditDrain.QueueStep.of_step ht with
  | push pc queue count drain dispatched => rw [dispatched, List.append_nil]
  | pop pc queued queue count drain dispatched => rw [dispatched, pc, List.append_nil]
  | dispatch pc queue count drain dispatched => rw [dispatched, pc]
  | other quiet books queue count flight dispatched =>
    cases a with
    | drain =>
      cases hd : r.handler.drain with
      | dispatch fire =>
        simp only [EditDrain.Handler.step, EditDrain.Handler.drainStep, hd] at ht
        cases ht
        rw [hd] at flight
      | _ => rw [dispatched, List.append_nil]
    | _ => rw [dispatched, List.append_nil]

/-- A call of `performEdit` is let through or swallowed, and calls no one. -/
private theorem performEdit_step {h h' : Editing (BitVec 64)} {nowNs : Int} {id : BitVec 32} {value : BitVec 64}
    (hs : h.step near (.performEdit nowNs id value) = some h') :
    h'.edits = h.edits ++ [⟨id, value⟩] ∧
      h'.drainSide.handler.dispatched = h.drainSide.handler.dispatched ∧
      (h'.audioPushes = h.audioPushes ∧ swallow near h (.performEdit nowNs id value) = [⟨id, value⟩] ∨
        h'.audioPushes = h.audioPushes ++ [⟨id, value⟩] ∧ swallow near h (.performEdit nowNs id value) = []) := by
  obtain ⟨-, hcall⟩ := Editing.call_cases hs
  obtain ⟨hedits, ⟨hsw, haudio, hd⟩ | ⟨hsw, haudio, hd⟩⟩ := Editing.performEdit_cases hcall
  · exact ⟨hedits, by rw [hd], .inl ⟨haudio, by rw [swallow, if_pos hsw]⟩⟩
  · refine ⟨hedits, ?_, .inr ⟨haudio, by rw [swallow, hsw]; rfl⟩⟩
    rw [dispatched_step hd, List.append_nil]

/-- What a step does: a call hands on its fire, and the filter keeps back what it swallows. -/
theorem Inv.keep (h : Inv src) (hs : src.step near a = some src') :
    Inv src' ∧ src'.handed = src.handed ++ (src.hands a).toList := by
  cases src with
  | direct edits =>
    cases a with
    | edit a => cases hs
    | call fire =>
      cases hs
      exact ⟨trivial, rfl⟩
  | handler h₀ swallowed =>
    obtain ⟨hforwards, hsub, hlen⟩ := h
    cases a with
    | call fire => cases hs
    | edit a =>
      obtain ⟨h', hh', rfl⟩ := Option.map_eq_some_iff.mp hs
      have hforwards' := hforwards.keep hh'
      cases a with
      | performEdit nowNs id value =>
        obtain ⟨hedits, hdispatched, ⟨haudio, hsw⟩ | ⟨haudio, hsw⟩⟩ := performEdit_step hh'
        · refine ⟨⟨hforwards', ?_, ?_⟩, hdispatched.trans (List.append_nil _).symm⟩
          · rw [hedits, haudio]
            exact hsub.trans (List.sublist_append_left _ _)
          · rw [hedits, haudio, hsw, List.length_append, List.length_append, hlen, Nat.add_assoc]
        · refine ⟨⟨hforwards', ?_, ?_⟩, hdispatched.trans (List.append_nil _).symm⟩
          · rw [hedits, haudio]
            exact hsub.append (List.Sublist.refl _)
          · rw [hedits, haudio, hsw, List.length_append, List.length_append, hlen, List.append_nil]
            omega
      | handler a =>
        obtain ⟨-, hd, haudio, hedits⟩ := Editing.handler_cases hh'
        refine ⟨⟨hforwards', ?_, ?_⟩, ?_⟩
        · rw [hedits, haudio]
          exact hsub
        · rw [hedits, haudio, swallow, List.append_nil]
          exact hlen
        · refine (dispatched_step hd).trans (congrArg (h₀.drainSide.handler.dispatched ++ ·) ?_)
          cases a with
          | drain =>
            simp only [hands]
            cases h₀.drainSide.handler.drain <;> rfl
          | _ => rfl

/-- A handler's source is that handler, on its own acts. -/
theorem exec_handler {h : Editing (BitVec 64)} {swallowed : List Fire} {as : List SourceAct}
    (he : exec (step near) (.handler h swallowed) as = some src) : ∃ h' swallowed', src = .handler h' swallowed' ∧
      exec (Editing.step near) h (as.filterMap SourceAct.edit?) = some h' := by
  induction as generalizing h swallowed with
  | nil =>
    cases he
    exact ⟨h, swallowed, rfl, rfl⟩
  | cons a as ih =>
    obtain ⟨mid, hmid, hrest⟩ := Option.bind_eq_some_iff.mp he
    cases a with
    | call fire => cases hmid
    | edit a =>
      obtain ⟨h', hh', rfl⟩ := Option.map_eq_some_iff.mp hmid
      obtain ⟨h'', swallowed'', rfl, hexec⟩ := ih hrest
      refine ⟨h'', swallowed'', rfl, ?_⟩
      change (h.step near a).bind (exec (Editing.step near) · (as.filterMap SourceAct.edit?)) = some h''
      rw [hh']
      exact hexec

private theorem exec_direct {fires : List Fire} {as : List SourceAct}
    (he : exec (step near) (Source.direct fires) as = some src) : ∃ fires', src = Source.direct fires' := by
  refine invariant_of_step (fun src => ∃ fires', src = Source.direct fires') ?_ ⟨fires, rfl⟩ he
  rintro _ a u ⟨fires, rfl⟩ hs
  cases a with
  | edit a => cases hs
  | call fire =>
    cases hs
    exact ⟨_, rfl⟩

/-- No parameter's last edit was swallowed with a value of its own. -/
def Rests (near : BitVec 64 → BitVec 64 → Bool) (vst3 : Bool) (as : List SourceAct) (id : BitVec 32) : Prop :=
  vst3 = true → Editing.LastEditsRest near (as.filterMap SourceAct.edit?) id

/-- With nothing under way and nothing dropped, the callback has had every parameter's last value. -/
private theorem lastFire_handed {vst3 : Bool} {as : List SourceAct} {id : BitVec 32}
    (he : exec (step near) (fresh vst3) as = some src) (hinv : Inv src) (hwaiting : src.waiting = [])
    (hdropped : src.dropped = []) (hrests : Rests near vst3 as id) :
    lastFire id src.handed = lastFire id src.edits := by
  cases vst3 with
  | false =>
    obtain ⟨edits, rfl⟩ := exec_direct he
    rfl
  | true =>
    obtain ⟨h, swallowed, rfl, hexec⟩ := exec_handler he
    have hlen := length_audioPushes hinv.1 swallowed
    rw [hwaiting, hdropped] at hlen
    have hall : h.drainSide.handler.dispatched = h.audioPushes := (handed_sublist hinv.1).eq_of_length hlen.symm
    exact (congrArg (lastFire id) hall).trans ((Editing.forwarded_iff hexec id).mpr (hrests rfl))

end Source

def Notification.fire (n : Notification) : Fire := ⟨n.paramId, n.value⟩

namespace Desk
variable {near : BitVec 64 → BitVec 64 → Bool} {s t : Desk} {a : DeskAct} {i : Fin kMaxSlots}

/-- Each slot's account stands, and its callback's fires are the calls for it. -/
structure Inv (s : Desk) : Prop where
  sources : ∀ i, (s.sources i).Inv
  calls : ∀ i, (s.callsFor i).map (fun c => c.1.fire) = (s.sources i).handed

theorem Inv.initial (vst3 : Fin kMaxSlots → Bool) : Inv (Desk.initial vst3) where
  sources i := Source.Inv.fresh (vst3 i)
  calls i := by
    change [] = (Source.fresh (vst3 i)).handed
    cases vst3 i <;> rfl

theorem Inv.keep (h : Inv s) (hs : s.step near a = some t) : Inv t := by
  obtain ⟨src, hsrc, rfl⟩ := Option.map_eq_some_iff.mp hs
  obtain ⟨hinv, hhanded⟩ := (h.sources a.slot).keep hsrc
  refine ⟨fun i => ?_, fun i => ?_⟩
  · by_cases hi : i = a.slot
    · subst hi
      simpa using hinv
    · simpa [hi] using h.sources i
  · rw [callsFor, List.filter_append, List.map_append]
    by_cases hi : i = a.slot
    · subst hi
      have hcalls := h.calls a.slot
      rw [callsFor] at hcalls
      dsimp only
      rw [Function.update_self, hhanded, hcalls]
      cases (s.sources a.slot).hands a.act <;> simp [Notification.fire]
    · dsimp only
      rw [Function.update_of_ne hi]
      refine Eq.trans ?_ (h.calls i)
      rw [callsFor]
      cases (s.sources a.slot).hands a.act <;> simp [Ne.symm hi]

/-- A slot's source runs on the slot's own acts. -/
private theorem exec_source (he : exec (step near) s as = some t) (i : Fin kMaxSlots) :
    exec (Source.step near) (s.sources i) (as.filterMap (DeskAct.of i)) = some (t.sources i) := by
  refine exec_component (f := fun s => s.sources i) (fun {s a t} hs => ?_) he
  obtain ⟨src, hsrc, rfl⟩ := Option.map_eq_some_iff.mp hs
  by_cases hi : a.slot = i
  · subst hi
    simp [DeskAct.of, exec, hsrc]
  · simp [DeskAct.of, hi, Function.update_of_ne (Ne.symm hi)]

/-- What the host has heard of a slot is what found room. -/
private theorem heard_eq (hdrops : ∀ c ∈ s.calls, DropsWhole c.2) (i : Fin kMaxSlots) :
    s.heard i = ((s.callsFor i).filter fun c => HasRoom c.2).map fun c => (c.1.paramId, c.1.value) := by
  have hslot : ∀ j : Fin kMaxSlots, BitVec.ofNat 8 j.val = BitVec.ofNat 8 i.val ↔ j = i := by
    revert i
    decide
  rw [heard, received_eq hdrops, List.filter_map, List.map_map, callsFor, List.filter_filter, List.filter_filter]
  refine congrArg (List.map _) (List.filter_congr fun c _ => ?_)
  simp [Notification.entry, hslot, Bool.and_comm]

/-- The last call for a parameter found room, or repeats what the host was last told of it. -/
def LastSent (s : Desk) (i : Fin kMaxSlots) (id : BitVec 32) : Prop :=
  AtLast (fun c : Call => c.1.paramId = id) (fun front c => HasRoom c.2 = true ∨
    lastValue id ((front.filter fun c => HasRoom c.2).map fun c => (c.1.paramId, c.1.value)) = some c.1.value)
    (s.callsFor i)

/-- Whatever the threads of the eight slots do in whatever order, the host hears of a slot's edits
in their order, each at most once and none made up; those it does not hear of were dropped by the
socket or the queue, swallowed, or are on their way. With none on its way and no overflow it ends
on the last value of every parameter whose last edit was let through and sent. -/
theorem edits_reach_host (near : BitVec 64 → BitVec 64 → Bool) (vst3 : Fin kMaxSlots → Bool) (as : List DeskAct)
    (s : Desk) (he : exec (step near) (initial vst3) as = some s) (hdrops : ∀ c ∈ s.calls, DropsWhole c.2)
    (i : Fin kMaxSlots) :
    (s.heard i).Sublist ((s.sources i).edits.map QueuedFire.entry) ∧
      (s.sources i).edits.length = (s.heard i).length + (s.unsent i).length + (s.sources i).waiting.length +
        (s.sources i).dropped.length + (s.sources i).swallowed.length ∧
      ((s.sources i).waiting = [] → (s.sources i).dropped = [] → ∀ id,
        Source.Rests near (vst3 i) (as.filterMap (DeskAct.of i)) id → s.LastSent i id →
        lastValue id (s.heard i) = lastFire id (s.sources i).edits) := by
  have hinv : Inv s := invariant_of_step Inv (fun h hs => h.keep hs) (Inv.initial vst3) he
  have haccounts := (hinv.sources i).accounts
  have hcalls : (s.callsFor i).map (fun c => (c.1.paramId, c.1.value)) =
      (s.sources i).handed.map QueuedFire.entry := by
    rw [← hinv.calls i, List.map_map]
    rfl
  rw [heard_eq hdrops i]
  refine ⟨?_, ?_, fun hwaiting hdropped id hrests hsent => ?_⟩
  · refine (List.filter_sublist.map _).trans ?_
    rw [hcalls]
    exact haccounts.handed.map _
  · have hlen := congrArg List.length hcalls
    have hsplit := List.length_eq_length_filter_add (l := s.callsFor i) fun c => HasRoom c.2
    rw [List.length_map, List.length_map] at hlen
    rw [haccounts.count, ← hlen, List.length_map, unsent]
    omega
  · rw [(lastValue_filter_iff (fun c : Call => (c.1.paramId, c.1.value)) (fun c => HasRoom c.2) id _).mpr hsent, hcalls]
    exact Source.lastFire_handed (exec_source he i) (hinv.sources i) hwaiting hdropped hrests

/-- An edit in a VST3 slot goes through the drain thread while a CLAP plugin in the fourth slot
calls back into a full socket. -/
theorem edits_reach_host_two_slots : ∃ as s, exec (step fun _ _ => false) (initial fun i => i = 0) as = some s ∧
    (s.sources 0).edits = [⟨7, 0x3FE0000000000000⟩] ∧
    lastValue 7 (s.heard 0) = lastFire 7 (s.sources 0).edits ∧ s.heard 3 = [] ∧ (s.unsent 3).length = 1 := by
  let turn (a : EditDrain.Act Unit (BitVec 64)) : DeskAct := ⟨0, .edit (.handler a), roomy⟩
  let as : List DeskAct := [⟨0, .edit (.performEdit 0 7 0x3FE0000000000000), roomy⟩] ++
    List.replicate 4 (turn (.editor ())) ++ List.replicate 5 (turn .drain) ++
    [⟨3, .call ⟨1, 0x3FD0000000000000⟩, full⟩] ++ List.replicate 2 (turn .drain)
  obtain ⟨s, hs, hview⟩ := Option.map_eq_some_iff.mp
    (show (exec (step fun _ _ => false) (initial fun i => i = 0) as).map (fun s =>
        ([(s.sources 0).edits, (s.sources 0).waiting, (s.sources 0).dropped], s.calls)) =
      some ([[⟨7, 0x3FE0000000000000⟩], [], []],
        [(⟨3, 1, 0x3FD0000000000000⟩, full), (⟨0, 7, 0x3FE0000000000000⟩, roomy)]) by decide +kernel)
  simp only [Prod.mk.injEq, List.cons.injEq, and_true] at hview
  obtain ⟨⟨hedits, hwaiting, hdropped⟩, hcalls⟩ := hview
  have hdrops : ∀ c ∈ s.calls, DropsWhole c.2 := by
    rw [hcalls]
    simp [DropsWhole, roomy, full]
  have hrests : Source.Rests (fun _ _ => false) (decide ((0 : Fin kMaxSlots) = 0)) (as.filterMap (DeskAct.of 0)) 7 := by
    intro _ front x back _ _ _ nowNs value s' _ _ hswallows
    rw [swallows] at hswallows
    split at hswallows
    · rw [Bool.and_false] at hswallows
      cases hswallows
    · cases hswallows
  have hsent : s.LastSent 0 7 := by
    intro front c back hfor _ _
    have hc : c ∈ s.callsFor 0 := by
      rw [hfor]
      exact List.mem_append_right _ List.mem_cons_self
    have hone : s.callsFor 0 = [(⟨0, 7, 0x3FE0000000000000⟩, roomy)] := by
      rw [callsFor, hcalls]
      rfl
    rw [hone, List.mem_singleton] at hc
    exact .inl (by rw [hc]; rfl)
  obtain ⟨-, -, hlast⟩ := edits_reach_host (fun _ _ => false) (fun i => i = 0) as s hs hdrops 0
  refine ⟨as, s, hs, hedits, hlast hwaiting hdropped 7 hrests hsent, ?_, ?_⟩
  · rw [heard_eq hdrops, callsFor, hcalls]
    rfl
  · rw [unsent, callsFor, hcalls]
    rfl

end Desk

end Plughost.Main
