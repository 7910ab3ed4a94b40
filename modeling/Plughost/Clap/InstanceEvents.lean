import Plughost.Clap.Host

/-! Whose events an instance is called with: parameter changes, timers and flushes outlive
the instance they were meant for. -/
namespace Plughost.Clap
open Plughost.Runs Plughost.BoundedQueue

/-- The event was meant for the instance it goes to. -/
def Event.Own : Event → Prop
  | .deliver i c => c.owner = i
  | .onTimer i _ owner => owner = i
  | .flush _ asked => asked = true
  | .unregistered _ => True

namespace Host
variable {s t : Host} {a : ActiveInst} {i : Inst} {id : TimerId} {act : Act}

/-- Every instance has only been called with events of its own. -/
def OwnEvents (s : Host) : Prop := ∀ e ∈ s.log, e.Own

/-- What the registry and the flush flag hold for an instance with these extensions is its own. -/
def Settled (s : Host) (a : ActiveInst) : Prop :=
  (a.onTimer → ∀ r ∈ s.timers, r.owner = a.inst) ∧ (a.flush → s.flushRequested → a.inst ∈ s.askedBy)

instance (s : Host) (a : ActiveInst) : Decidable (s.Settled a) := inferInstanceAs (Decidable (_ ∧ _))

/-- An instance is swapped in with no change pending, and where a `Load` or an `Unload` ends the
registry and the flag hold nothing of another instance than the active one. -/
def Swept (s : Host) : Act → Prop
  | .loadSucceeds _ _ => s.pendingChanges = []
  | .loadFails | .tornDown => ∀ a ∈ s.active, s.Settled a
  | _ => True

instance (s : Host) (act : Act) : Decidable (s.Swept act) :=
  match act with
  | .loadSucceeds _ _ => inferInstanceAs (Decidable (s.pendingChanges = []))
  | .loadFails | .tornDown => inferInstanceAs (Decidable (∀ a ∈ s.active, s.Settled a))
  | .advance _ | .load | .unload | .setParam _ _ | .timerRegister _ _ | .timerUnregister _ _ | .requestFlush _
  | .process | .tick | .flush | .snapshot | .fire | .tickEnd => .isTrue trivial

/-- A `Load` or an `Unload` is under way. -/
def swapping : Phase → Bool
  | .loading _ | .closing _ => true
  | _ => false

/-- The tick under way is the active instance's, and what it will fire is too. -/
def TickOwn (s : Host) : Prop :=
  match s.phase with
  | .mainThread a | .flushed a => s.active = some a
  | .firing f => s.active.map ActiveInst.inst = some f.inst ∧ ∀ x ∈ f.rest, x.2 = f.inst
  | _ => True

structure Inv (s : Host) : Prop where
  log : s.OwnEvents
  pending : ∀ a ∈ s.active, ∀ c ∈ s.pendingChanges, c.owner = a.inst
  settled : swapping s.phase = false → ∀ a ∈ s.active, s.Settled a
  tick : s.TickOwn

private theorem inst_of_live (hl : s.live i) (hs : swapping s.phase = false) (ha : s.active = some a) : a.inst = i := by
  unfold live at hl
  cases hp : s.phase <;> simp_all [swapping]

theorem Inv.initial : Inv Host.initial :=
  ⟨nofun, nofun, fun _ => nofun, trivial⟩

theorem Inv.register (h : Inv s) (hl : s.live i) (periodMs : BitVec 32) : Inv (s.register i periodMs) := by
  refine ⟨h.log, h.pending, fun hs a ha => ?_, h.tick⟩
  obtain ⟨htimers, hflush⟩ := h.settled hs a ha
  refine ⟨fun hon r hr => ?_, hflush⟩
  rcases List.mem_append.mp hr with hr | hr
  · exact htimers hon r hr
  · rw [List.mem_singleton.mp hr]
    exact (inst_of_live hl hs ha).symm

private theorem swapping_noteGone (p : Phase) : swapping (noteGone id p) = swapping p := by
  cases p <;> rfl

theorem Inv.unregister (h : Inv s) (id : TimerId) : Inv (s.unregister id) := by
  unfold Host.unregister
  split
  · refine ⟨fun e he => ?_, h.pending, fun hs a ha => ?_, ?_⟩
    · rcases List.mem_append.mp he with he | he
      · exact h.log e he
      · rw [List.mem_singleton.mp he]
        trivial
    · rw [swapping_noteGone] at hs
      obtain ⟨htimers, hflush⟩ := h.settled hs a ha
      exact ⟨fun hon r hr => htimers hon r (List.mem_of_mem_eraseP hr), hflush⟩
    · have htick := h.tick
      unfold TickOwn at htick ⊢
      cases hp : s.phase with
      | firing f =>
        rw [hp] at htick
        exact htick
      | idle | loading | closing => trivial
      | mainThread b | flushed b =>
        rw [hp] at htick
        exact htick
  · exact h

theorem Inv.takeDue (h : Inv s) (hp : s.phase = .flushed a) (hon : a.onTimer) : Inv (s.takeDue a) := by
  have htick := h.tick
  unfold TickOwn at htick
  rw [hp] at htick
  obtain ⟨htimers, hflush⟩ := h.settled (by rw [hp]; rfl) a htick
  refine ⟨h.log, h.pending, fun _ b hb => ?_, ?_, ?_⟩
  · obtain rfl : a = b := Option.some.inj (htick.symm.trans hb)
    refine ⟨fun _ r hr => ?_, hflush⟩
    obtain ⟨q, hq, rfl⟩ := List.mem_map.mp hr
    split
    · exact htimers hon q hq
    · exact htimers hon q hq
  · simp [Host.takeDue, htick]
  · intro x hx
    obtain ⟨r, hr, rfl⟩ := List.mem_map.mp hx
    exact htimers hon r (List.mem_filter.mp hr).1

theorem Inv.load (h : Inv s) (hs : s.step .load = some t) : Inv t := by
  simp only [step] at hs
  split at hs <;> cases hs
  exact ⟨h.log, h.pending, nofun, trivial⟩

theorem Inv.loadFails (h : Inv s) (hok : s.Swept .loadFails) (hs : s.step .loadFails = some t) : Inv t := by
  simp only [step] at hs
  split at hs <;> cases hs
  exact ⟨h.log, h.pending, fun _ => hok, trivial⟩

theorem Inv.loadSucceeds {flush onTimer : Bool} (h : Inv s) (hok : s.Swept (.loadSucceeds flush onTimer))
    (hs : s.step (.loadSucceeds flush onTimer) = some t) : Inv t := by
  have hnone : s.pendingChanges = [] := hok
  simp only [step] at hs
  split at hs <;> cases hs
  refine ⟨h.log, fun a _ c hc => ?_, nofun, trivial⟩
  dsimp only at hc
  rw [hnone] at hc
  cases hc

theorem Inv.tornDown (h : Inv s) (hok : s.Swept .tornDown) (hs : s.step .tornDown = some t) : Inv t := by
  simp only [step] at hs
  split at hs <;> cases hs
  exact ⟨h.log, h.pending, fun _ => hok, trivial⟩

theorem Inv.unload (h : Inv s) (hs : s.step .unload = some t) : Inv t := by
  simp only [step] at hs
  split at hs <;> cases hs
  exact ⟨h.log, nofun, nofun, trivial⟩

/-- A change is queued for the active instance. -/
theorem Inv.setParam {paramId : BitVec 32} {normalized : BitVec 64} (h : Inv s)
    (hs : s.step (.setParam paramId normalized) = some t) : Inv t := by
  simp only [step] at hs
  split at hs
  · cases hs
  · cases hs
  · split at hs <;> cases hs
    · exact h
    · rename_i a ha
      refine ⟨h.log, fun b hb c hc => ?_, h.settled, h.tick⟩
      obtain rfl : a = b := Option.some.inj (ha.symm.trans hb)
      rcases mem_of_mem_push hc with hc | rfl
      · exact h.pending a ha c hc
      · rfl

theorem Inv.requestFlush (h : Inv s) (hs : s.step (.requestFlush i) = some t) : Inv t := by
  simp only [step, Option.ite_none_right_eq_some, Option.some.injEq] at hs
  obtain ⟨hl, rfl⟩ := hs
  refine ⟨h.log, h.pending, fun hs a ha => ⟨(h.settled hs a ha).1, fun _ _ => ?_⟩, h.tick⟩
  rw [inst_of_live hl hs ha]
  exact List.mem_cons_self

/-- What is delivered to the active instance was queued for it. -/
theorem Inv.process (h : Inv s) (hs : s.step .process = some t) : Inv t := by
  simp only [step] at hs
  split at hs <;> cases hs
  · exact h
  · rename_i a ha
    refine ⟨fun e he => ?_, fun _ _ => nofun, h.settled, h.tick⟩
    rcases List.mem_append.mp he with he | he
    · exact h.log e he
    · obtain ⟨c, hc, rfl⟩ := List.mem_map.mp he
      exact h.pending a ha c hc

private theorem Inv.beginTick (h : Inv s) (hs : s.step .tick = some t) : Inv t := by
  simp only [step] at hs
  split at hs
  · rename_i hp
    split at hs <;> cases hs
    · exact h
    · rename_i a ha
      exact ⟨h.log, h.pending, fun _ => h.settled (by rw [hp]; rfl), ha⟩
  · cases hs

/-- The flush that the active instance has asked for. -/
theorem Inv.flush (h : Inv s) (hs : s.step .flush = some t) : Inv t := by
  simp only [step] at hs
  split at hs
  · rename_i a hp
    have ha : s.active = some a := by simpa [TickOwn, hp] using h.tick
    obtain ⟨htimers, hflush⟩ := h.settled (by rw [hp]; rfl) a ha
    split at hs <;> cases hs
    · rename_i hf
      rw [Bool.and_eq_true] at hf
      refine ⟨fun e he => ?_, h.pending, fun _ b hb => ?_, ha⟩
      · rcases List.mem_append.mp he with he | he
        · exact h.log e he
        · rw [List.mem_singleton.mp he]
          exact List.contains_iff_mem.mpr (hflush hf.1 hf.2)
      · obtain rfl : a = b := Option.some.inj (ha.symm.trans hb)
        exact ⟨htimers, fun _ => nofun⟩
    · exact ⟨h.log, h.pending, fun _ => h.settled (by rw [hp]; rfl), ha⟩
  · cases hs

theorem Inv.snapshot (h : Inv s) (hs : s.step .snapshot = some t) : Inv t := by
  simp only [step] at hs
  split at hs
  · rename_i a hp
    split at hs <;> cases hs
    · rename_i hon
      exact h.takeDue hp hon
    · exact ⟨h.log, h.pending, fun _ => h.settled (by rw [hp]; rfl), trivial⟩
  · cases hs

/-- What is fired was registered by the instance of the tick. -/
theorem Inv.fire (h : Inv s) (hs : s.step .fire = some t) : Inv t := by
  simp only [step] at hs
  split at hs
  · rename_i f hp
    have htick : s.active.map ActiveInst.inst = some f.inst ∧ ∀ x ∈ f.rest, x.2 = f.inst := by
      simpa only [TickOwn, hp] using h.tick
    split at hs <;> cases hs
    rename_i id owner rest hrest
    rw [hrest] at htick
    refine ⟨fun e he => ?_, h.pending, fun _ => h.settled (by rw [hp]; rfl), htick.1,
      fun x hx => htick.2 x (List.mem_cons_of_mem _ hx)⟩
    rcases List.mem_append.mp he with he | he
    · exact h.log e he
    · rw [List.mem_singleton.mp he]
      exact htick.2 _ List.mem_cons_self
  · cases hs

theorem Inv.tickEnd (h : Inv s) (hs : s.step .tickEnd = some t) : Inv t := by
  simp only [step] at hs
  split at hs
  · rename_i f hp
    split at hs <;> cases hs
    exact ⟨h.log, h.pending, fun _ => h.settled (by rw [hp]; rfl), trivial⟩
  · cases hs

theorem Inv.keep (h : Inv s) (hok : s.Swept act) (hs : s.step act = some t) : Inv t := by
  cases act with
  | advance ns =>
    cases hs
    exact ⟨h.log, h.pending, h.settled, h.tick⟩
  | load => exact h.load hs
  | loadFails => exact h.loadFails hok hs
  | loadSucceeds flush onTimer => exact h.loadSucceeds hok hs
  | tornDown => exact h.tornDown hok hs
  | unload => exact h.unload hs
  | setParam paramId normalized => exact h.setParam hs
  | timerRegister i periodMs =>
    simp only [step, Option.ite_none_right_eq_some, Option.some.injEq] at hs
    obtain ⟨hl, rfl⟩ := hs
    exact h.register hl periodMs
  | timerUnregister i id =>
    simp only [step, Option.ite_none_right_eq_some, Option.some.injEq] at hs
    obtain ⟨-, rfl⟩ := hs
    exact h.unregister id
  | requestFlush i => exact h.requestFlush hs
  | process => exact h.process hs
  | tick => exact h.beginTick hs
  | flush => exact h.flush hs
  | snapshot => exact h.snapshot hs
  | fire => exact h.fire hs
  | tickEnd => exact h.tickEnd hs

/-- In every run in which each swap finds the queue empty, and each `Load` and `Unload` leaves the
registry and the flag to the active instance alone, every event goes to the instance it was meant for. -/
theorem ownEvents_of_swept {acts : List Act} (h : Meets step Swept Host.initial acts) :
    Always step OwnEvents Host.initial acts :=
  always_of_meets Inv Inv.keep Inv.log Inv.initial h

/-- A plugin with a timer and a flush of its own, replaced once its change has been delivered,
its timer unregistered and its flush done. -/
theorem ownEvents_handover : Always step OwnEvents Host.initial
    [.load, .timerRegister 0 20, .loadSucceeds true true, .tornDown, .setParam 3 0, .process, .requestFlush 0,
      .advance 30000000, .tick, .flush, .snapshot, .fire, .timerUnregister 0 1, .tickEnd,
      .load, .timerRegister 1 20, .loadSucceeds true true, .tornDown, .setParam 4 0, .process] :=
  ownEvents_of_swept (meets_of_checks (by decide +kernel))

/-- A change queued for a plugin that is unloaded before the next block goes to the next plugin. -/
theorem ownEvents_fails : ¬ Always step OwnEvents Host.initial
    [.load, .loadSucceeds true true, .tornDown, .setParam 3 0, .unload, .tornDown,
      .load, .loadSucceeds true true, .tornDown, .process] := by
  intro h
  obtain ⟨t, ht, hlog⟩ := Option.map_eq_some_iff.mp (show (exec step Host.initial
    [.load, .loadSucceeds true true, .tornDown, .setParam 3 0, .unload, .tornDown,
      .load, .loadSucceeds true true, .tornDown, .process]).map Host.log = some [.deliver 1 ⟨3, 0, 0⟩]
    by decide +kernel)
  have hown := h.end ht (.deliver 1 ⟨3, 0, 0⟩) (by rw [hlog]; exact List.mem_cons_self)
  exact absurd hown (by decide : ¬ (0 : Nat) = 1)

end Host
end Plughost.Clap
