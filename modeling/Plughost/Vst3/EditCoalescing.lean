import Plughost.Vst3.EditOverflow

/-! `HostComponentHandler::performEdit` from its coalescing filter on: what the audio
queue and the `ParamChanged` callback get to see of a sequence of calls. -/
namespace Plughost.Vst3.EditDrain
open Plughost.Runs Plughost.BoundedQueue

structure FireRecord (V : Type) where
  nsTime : Int
  value : V

/-- 10 ms. -/
abbrev kCoalesceMinNs : Int := 10000000

section Filter
variable {V : Type} (near : V → V → Bool)

/-- The edit follows the recorded fire within the gate window, and its value is
close to the recorded one; `near a b` is `std::fabs(a - b) < 0.001`. -/
def swallows (lastFires : BitVec 32 → Option (FireRecord V)) (nowNs : Int) (id : BitVec 32) (value : V) : Bool :=
  match lastFires id with
  | some record => decide (nowNs - record.nsTime < kCoalesceMinNs) && near value record.value
  | none => false

/-- `lastFires_` after the edit: a swallowed one leaves the time as it was. -/
def recordFire (lastFires : BitVec 32 → Option (FireRecord V)) (nowNs : Int) (id : BitVec 32) (value : V) :
    BitVec 32 → Option (FireRecord V) :=
  Function.update lastFires id <|
    if swallows near lastFires nowNs id value then (lastFires id).map fun record => { record with value }
    else some ⟨nowNs, value⟩

end Filter

/-- The handler with its filter, and the calls of `performEdit` so far. -/
structure Editing (V : Type) where
  lastFires : BitVec 32 → Option (FireRecord V)
  /-- What `audioQueuePush_` was called with. -/
  audioPushes : List (QueuedFire V)
  drainSide : Recorded Unit V
  edits : List (QueuedFire V)

inductive EditAct (V : Type) where
  | performEdit (nowNs : Int) (id : BitVec 32) (value : V)
  /-- A step of the call in progress, of the drain thread or of the destructor. -/
  | handler (a : Act Unit V)

/-- The parameter a call is about. -/
def EditAct.param {V : Type} : EditAct V → Option (BitVec 32)
  | .performEdit _ id _ => some id
  | .handler _ => none

namespace Editing
variable {V : Type} (near : V → V → Bool)

def initial : Editing V := ⟨fun _ => none, [], Recorded.initial, []⟩

/-- `performEdit` up to the lock of `queueMutex_`. -/
def performEdit (s : Editing V) (nowNs : Int) (id : BitVec 32) (value : V) : Option (Editing V) :=
  let called := { s with
    lastFires := recordFire near s.lastFires nowNs id value
    edits := s.edits ++ [⟨id, value⟩] }
  if swallows near s.lastFires nowNs id value then some called
  else (s.drainSide.step (.performEdit () ⟨id, value⟩)).map fun drainSide =>
    { called with audioPushes := s.audioPushes ++ [⟨id, value⟩], drainSide }

/-- The next call comes when the last one has returned. -/
def step (s : Editing V) : EditAct V → Option (Editing V)
  | .performEdit nowNs id value =>
    match s.drainSide.handler.editor () with
    | .outside => s.performEdit near nowNs id value
    | _ => none
  | .handler (.performEdit _ _) => none
  | .handler a => (s.drainSide.step a).map fun drainSide => { s with drainSide }

/-- The calls are over and the drain thread has handled everything; nothing was lost to overflow. -/
structure Drained (s : Editing V) : Prop where
  stopped : s.drainSide.handler.editor () = .outside
  queue : s.drainSide.handler.queue = []
  flight : inFlight s.drainSide.handler.drain = []
  fits : s.drainSide.ledger.dropped = []

/-- The edit is let through, or it repeats the value last let through for its parameter. -/
def Rests (s : Editing V) (nowNs : Int) (id : BitVec 32) (value : V) : Prop :=
  swallows near s.lastFires nowNs id value = true → lastFire id s.audioPushes = some value

/-- Every parameter's last edit of the run met the condition when it was made. -/
def LastEditsRest (as : List (EditAct V)) (id : BitVec 32) : Prop :=
  AtLast (fun a => a.param = some id) (fun bs a => ∀ nowNs value s, a = .performEdit nowNs id value →
    exec (step near) initial bs = some s → s.Rests near nowNs id value) as

/-- The fire of a call that has passed the filter and not yet pushed. -/
def pending : EditorPc V → List (QueuedFire V)
  | .lock fire | .push fire => [fire]
  | .outside | .unlock | .notifyOne => []

/-- Everything that passed the filter goes to the audio queue and, in the same order, to the other one. -/
structure Forwards (s : Editing V) : Prop where
  follows : Follows s.drainSide
  enqueued : s.drainSide.enqueued ++ pending (s.drainSide.handler.editor ()) = s.audioPushes

variable {near} {s t : Editing V}

/-- Within a call, enqueueing only moves its fire from pending to enqueued. -/
theorem enqueued_pending {r u : Recorded Unit V} {a : Act Unit V} (ha : ∀ e fire, a ≠ .performEdit e fire)
    (hs : r.step a = some u) :
    u.enqueued ++ pending (u.handler.editor ()) = r.enqueued ++ pending (r.handler.editor ()) := by
  obtain ⟨t, ht, rfl⟩ := Option.map_eq_some_iff.mp hs
  cases a with
  | performEdit e fire => exact absurd rfl (ha e fire)
  | editor e =>
    simp only [Handler.step, Handler.editorStep] at ht
    cases he : r.handler.editor () <;> rw [he] at ht <;> dsimp only at ht
    case outside => cases ht
    case lock fire =>
      split at ht <;> cases ht
      simp [Recorded.pushed, he, pending]
    all_goals
      cases ht
      simp [Recorded.pushed, he, pending]
  | drain =>
    have hsame : t.editor = r.handler.editor := by
      simp only [Handler.step, Handler.drainStep] at ht
      cases hd : r.handler.drain <;> rw [hd] at ht <;> dsimp only at ht
      case lock | reacquire | pop =>
        split at ht <;> cases ht
        rfl
      all_goals cases ht <;> rfl
    simp [hsame, Recorded.pushed]
  | destroy =>
    simp only [Handler.step] at ht
    split at ht <;> cases ht
    simp [Recorded.pushed]
  | dtor =>
    have hsame : t.editor = r.handler.editor := by
      simp only [Handler.step, Handler.dtorStep] at ht
      cases hd : r.handler.dtor <;> rw [hd] at ht <;> dsimp only at ht
      case join =>
        split at ht <;> cases ht
        rfl
      all_goals cases ht <;> rfl
    simp [hsame, Recorded.pushed]

/-- What a call of `performEdit` leaves behind, by whether the filter swallows it. -/
theorem performEdit_cases {nowNs : Int} {id : BitVec 32} {value : V} (hs : s.performEdit near nowNs id value = some t) :
    t.edits = s.edits ++ [⟨id, value⟩] ∧
    (swallows near s.lastFires nowNs id value = true ∧ t.audioPushes = s.audioPushes ∧ t.drainSide = s.drainSide ∨
      swallows near s.lastFires nowNs id value = false ∧ t.audioPushes = s.audioPushes ++ [⟨id, value⟩] ∧
        s.drainSide.step (.performEdit () ⟨id, value⟩) = some t.drainSide) := by
  unfold performEdit at hs
  split at hs
  · rename_i hsw
    cases hs
    exact ⟨rfl, .inl ⟨hsw, rfl, rfl⟩⟩
  · rename_i hsw
    obtain ⟨d, hd, rfl⟩ := Option.map_eq_some_iff.mp hs
    exact ⟨rfl, .inr ⟨Bool.eq_false_iff.mpr hsw, rfl, hd⟩⟩

/-- A step that is no call leaves what was called and forwarded as it is. -/
theorem handler_cases {a : Act Unit V} (hs : s.step near (.handler a) = some t) :
    (∀ e fire, a ≠ .performEdit e fire) ∧ s.drainSide.step a = some t.drainSide ∧
      t.audioPushes = s.audioPushes ∧ t.edits = s.edits := by
  cases a with
  | performEdit e fire => cases hs
  | editor | drain | destroy | dtor =>
    obtain ⟨d, hd, rfl⟩ := Option.map_eq_some_iff.mp hs
    exact ⟨fun _ _ h => (by cases h), hd, rfl, rfl⟩

theorem call_cases {nowNs : Int} {id : BitVec 32} {value : V}
    (hs : s.step near (.performEdit nowNs id value) = some t) :
    s.drainSide.handler.editor () = .outside ∧ s.performEdit near nowNs id value = some t := by
  simp only [step] at hs
  split at hs
  · exact ⟨‹_›, hs⟩
  · cases hs

namespace Forwards

theorem initial : Forwards (Editing.initial : Editing V) := ⟨Follows.initial, rfl⟩

theorem keep {a : EditAct V} (h : Forwards s) (hs : s.step near a = some t) : Forwards t := by
  cases a with
  | performEdit nowNs id value =>
    obtain ⟨hout, hcall⟩ := call_cases hs
    have henq := h.enqueued
    rw [hout, pending, List.append_nil] at henq
    obtain ⟨-, ⟨-, haudio, hd⟩ | ⟨-, haudio, hd⟩⟩ := performEdit_cases hcall
    · exact ⟨hd ▸ h.follows, by rw [hd, haudio]; exact h.enqueued⟩
    · refine ⟨h.follows.step hd, ?_⟩
      obtain ⟨u, hu, hside⟩ := Option.map_eq_some_iff.mp hd
      simp only [Handler.step, hout, Option.some.injEq] at hu
      subst hu
      rw [haudio, ← henq, ← hside]
      simp [Recorded.pushed, pending]
  | handler a =>
    obtain ⟨ha, hd, haudio, -⟩ := handler_cases hs
    exact ⟨h.follows.step hd, by rw [enqueued_pending ha hd, haudio]; exact h.enqueued⟩

/-- With the calls over and nothing lost, the callback saw exactly what the audio queue did. -/
theorem dispatched (h : Forwards s) (hd : Drained s) : s.drainSide.handler.dispatched = s.audioPushes := by
  have henq := h.enqueued
  rw [hd.stopped, pending, List.append_nil] at henq
  have hall := h.follows.dispatchedInOrder.inOrder
  rw [hd.queue, hd.flight, List.append_nil, List.append_nil] at hall
  have hlen : s.drainSide.ledger.kept.length = s.drainSide.enqueued.length := by
    have hcount := h.follows.dispatchedInOrder.count
    rw [hd.queue, hd.flight, hd.fits] at hcount
    rw [← hall, hcount]
    rfl
  rw [hall, h.follows.dispatchedInOrder.sublist.eq_of_length hlen, henq]

end Forwards

/-- A call leaves its parameter's last value forwarded exactly when the condition holds. -/
private theorem forwarded_iff_rests {nowNs : Int} {id : BitVec 32} {value : V}
    (hs : s.performEdit near nowNs id value = some t) :
    lastFire id t.audioPushes = lastFire id t.edits ↔ s.Rests near nowNs id value := by
  have hone : ∀ fires : List (QueuedFire V), lastFire id (fires ++ [⟨id, value⟩]) = some value := fun fires => by
    rw [lastFire_append]
    simp [lastFire, lastValue, QueuedFire.entry]
  obtain ⟨hedits, ⟨hsw, haudio, -⟩ | ⟨hsw, haudio, -⟩⟩ := performEdit_cases hs
  · rw [hedits, hone, haudio, Rests]
    exact ⟨fun h _ => h, fun h => h hsw⟩
  · rw [hedits, hone, haudio, hone, Rests, hsw]
    simp

/-- Other parameters' values are left alone. -/
private theorem forwarded_other {nowNs : Int} {id id' : BitVec 32} {value : V} (hne : id ≠ id')
    (hs : s.performEdit near nowNs id value = some t) :
    lastFire id' t.audioPushes = lastFire id' s.audioPushes ∧ lastFire id' t.edits = lastFire id' s.edits := by
  have hskip : ∀ fires : List (QueuedFire V), lastFire id' (fires ++ [⟨id, value⟩]) = lastFire id' fires := fun fires => by
    rw [lastFire_append]
    simp [lastFire, lastValue, QueuedFire.entry, hne]
  obtain ⟨hedits, ⟨-, haudio, -⟩ | ⟨-, haudio, -⟩⟩ := performEdit_cases hs
  · exact ⟨by rw [haudio], by rw [hedits, hskip]⟩
  · exact ⟨by rw [haudio, hskip], by rw [hedits, hskip]⟩

/-- At any point of a run the last value forwarded is the last one edited exactly
when the parameter's last edit met the condition. -/
theorem forwarded_iff {as : List (EditAct V)} (he : exec (step near) initial as = some t) (id : BitVec 32) :
    lastFire id t.audioPushes = lastFire id t.edits ↔ LastEditsRest near as id := by
  induction as using List.reverseRecOn generalizing t with
  | nil =>
    cases he
    exact ⟨fun _ => atLast_nil, fun _ => rfl⟩
  | append_singleton as a ih =>
    obtain ⟨s, hs, hstep⟩ := exec_concat_some he
    cases a with
    | handler a =>
      obtain ⟨-, -, haudio, hedits⟩ := handler_cases hstep
      rw [haudio, hedits, ih hs, LastEditsRest, LastEditsRest, atLast_concat_of_not (by simp [EditAct.param])]
    | performEdit nowNs id' value =>
      obtain ⟨-, hcall⟩ := call_cases hstep
      by_cases hid : id' = id
      · subst hid
        rw [forwarded_iff_rests hcall, LastEditsRest]
        refine Iff.trans ?_ (atLast_concat (p := fun a : EditAct V => a.param = some id') rfl).symm
        constructor
        · rintro hrests nowNs' value' s' heq hs'
          cases heq
          rw [hs] at hs'
          cases hs'
          exact hrests
        · exact fun h => h nowNs value s rfl hs
      · obtain ⟨haudio, hedits⟩ := forwarded_other hid hcall
        rw [haudio, hedits, ih hs, LastEditsRest, LastEditsRest, atLast_concat_of_not (by simp [EditAct.param, hid])]

/-- Once everything is drained, both sides have every parameter's resting value
exactly when no parameter's last edit was swallowed with a value of its own. -/
theorem resting_value_forwarded_iff (near : V → V → Bool) (as : List (EditAct V)) (t : Editing V)
    (he : exec (step near) initial as = some t) (hd : Drained t) :
    (∀ id, lastFire id t.audioPushes = lastFire id t.edits ∧
      lastFire id t.drainSide.handler.dispatched = lastFire id t.edits) ↔ ∀ id, LastEditsRest near as id := by
  have hforwards : Forwards t := invariant_of_step Forwards (fun h hs => h.keep hs) Forwards.initial he
  rw [hforwards.dispatched hd]
  constructor
  · exact fun h id => (forwarded_iff he id).mp (h id).1
  · intro h id
    have hid := (forwarded_iff he id).mpr (h id)
    exact ⟨hid, hid⟩

/-- Closeness of values counted in units of 1/2048. -/
def nearUnits (a b : Int) : Bool := (a - b).natAbs * 1000 < 2048

/-- One call of `performEdit` and the drain thread's round for it. -/
def editAndDrain (nowNs : Int) (id : BitVec 32) (value : Int) : List (EditAct Int) :=
  .performEdit nowNs id value :: (List.replicate 4 (.handler (.editor ())) ++ List.replicate 7 (.handler .drain))

/-- Where the drain side stands, what was forwarded and what was called. -/
def observed (t : Editing V) : Bool × List (List (QueuedFire V)) :=
  (decide (t.drainSide.handler.editor () = .outside), [t.drainSide.handler.queue,
    inFlight t.drainSide.handler.drain, t.drainSide.ledger.dropped, t.audioPushes, t.edits])

private theorem drained_of_observed {t : Editing V} {audio edits : List (QueuedFire V)}
    (h : t.observed = (true, [[], [], [], audio, edits])) :
    Drained t ∧ t.audioPushes = audio ∧ t.edits = edits := by
  simp only [observed, Prod.mk.injEq, decide_eq_true_eq, List.cons.injEq, and_true] at h
  obtain ⟨hout, hq, hflight, hdropped, haudio, hedits⟩ := h
  exact ⟨⟨hout, hq, hflight, hdropped⟩, haudio, hedits⟩

/-- Two edits 20 ms apart. -/
theorem resting_value_forwarded_iff_apart : ∃ as t, exec (step nearUnits) initial as = some t ∧
    t.edits = [⟨3, 1024⟩, ⟨3, 1025⟩] ∧ ∀ id, lastFire id t.audioPushes = lastFire id t.edits ∧
      lastFire id t.drainSide.handler.dispatched = lastFire id t.edits := by
  let rest : List (EditAct Int) := List.replicate 4 (.handler (.editor ())) ++ List.replicate 7 (.handler .drain)
  let as := editAndDrain 0 3 1024 ++ editAndDrain 20000000 3 1025
  obtain ⟨t, ht, hview⟩ := Option.map_eq_some_iff.mp
    (show (exec (step nearUnits) initial as).map observed =
      some (true, [[], [], [], [⟨3, 1024⟩, ⟨3, 1025⟩], [⟨3, 1024⟩, ⟨3, 1025⟩]]) by decide)
  obtain ⟨hd, -, hedits⟩ := drained_of_observed hview
  have has : as = (editAndDrain 0 3 1024 ++ [.performEdit 20000000 3 1025]) ++ rest := rfl
  have hparams : ∀ a ∈ editAndDrain 0 3 1024 ++ [.performEdit 20000000 3 1025], a.param = none ∨ a.param = some 3 := by
    decide
  have hrest : ∀ a ∈ rest, a.param = none := by decide
  have hthrough : (exec (step nearUnits) initial (editAndDrain 0 3 1024)).map
      (fun s => swallows nearUnits s.lastFires 20000000 3 1025) = some false := by decide
  refine ⟨as, t, ht, hedits, (resting_value_forwarded_iff nearUnits as t ht hd).mpr fun id => ?_⟩
  rw [has, LastEditsRest]
  refine atLast_append_of_not (fun a ha h => ?_) ?_
  · rw [hrest a ha] at h
    cases h
  by_cases hid : id = 3
  · subst hid
    refine (atLast_concat (p := fun a : EditAct Int => a.param = some 3) rfl).mpr ?_
    rintro nowNs value s heq hs hswallows
    cases heq
    rw [hs] at hthrough
    exact Bool.noConfusion (hswallows.symm.trans (Option.some.inj hthrough))
  · refine atLast_of_not fun a ha h => hid ?_
    rcases hparams a ha with hnone | hthree
    · cases h.symm.trans hnone
    · exact Option.some.inj (h.symm.trans hthree)

/-- A knob moves from 0.5 to 0.5 + 1/2048 within 5 ms and rests there: neither side hears of it. -/
theorem resting_value_swallowed : ∃ as t, exec (step nearUnits) initial as = some t ∧ Drained t ∧
    t.edits = [⟨3, 1024⟩, ⟨3, 1025⟩] ∧ ¬ ∀ id, lastFire id t.audioPushes = lastFire id t.edits ∧
      lastFire id t.drainSide.handler.dispatched = lastFire id t.edits := by
  let as := editAndDrain 0 3 1024 ++ [.performEdit 5000000 3 1025]
  obtain ⟨t, ht, hview⟩ := Option.map_eq_some_iff.mp
    (show (exec (step nearUnits) initial as).map observed =
      some (true, [[], [], [], [⟨3, 1024⟩], [⟨3, 1024⟩, ⟨3, 1025⟩]]) by decide)
  obtain ⟨hd, haudio, hedits⟩ := drained_of_observed hview
  refine ⟨as, t, ht, hd, hedits, fun h => ?_⟩
  have hlast := (h 3).1
  rw [haudio, hedits] at hlast
  exact absurd hlast (by decide)

end Editing
end Plughost.Vst3.EditDrain
