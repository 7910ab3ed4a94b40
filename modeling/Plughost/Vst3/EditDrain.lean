import Plughost.Lib.BoundedQueue
import Plughost.Lib.Runs

/-! `HostComponentHandler`: editors enqueueing in `performEdit`, the drain thread,
and the destructor, stepping independently around one mutex and one condition variable. -/
namespace Plughost.Vst3.EditDrain
open Plughost.Runs Plughost.BoundedQueue

structure QueuedFire (V : Type) where
  paramId : BitVec 32
  value : V
  deriving DecidableEq

/-- What the drain thread does once `queueMutex_` is released. -/
inductive AfterUnlock (V : Type) where
  | dispatch (fire : QueuedFire V)
  | again
  | return
  deriving DecidableEq

/-- Where `DrainLoop` stands. `wait` loops over `predStop`, `predQueue`, `park`, `parked`. -/
inductive DrainPc (V : Type) where
  | lock
  | predStop
  /-- The predicate read no stop request and is about to look at the queue. -/
  | predQueue
  /-- The predicate is false: release the mutex and park, in one step. -/
  | park
  | parked
  /-- Woken, and needs the mutex back. -/
  | reacquire
  | checkEmpty
  | checkStop
  | pop
  | unlock (k : AfterUnlock V)
  | dispatch (fire : QueuedFire V)
  | returned
  deriving DecidableEq

/-- Where one `performEdit` that passed the filter stands. -/
inductive EditorPc (V : Type) where
  | outside
  | lock (fire : QueuedFire V)
  | push (fire : QueuedFire V)
  | unlock
  | notifyOne

inductive DtorPc where
  | alive | storeStop | notifyAll | join | joined
  deriving DecidableEq, Repr

inductive Owner (E : Type) where
  | drain
  | editor (e : E)
  deriving DecidableEq, Repr

/-- The handler's members and the positions of all threads. -/
structure Handler (E V : Type) where
  queueMutex : Option (Owner E)
  stopRequested : Bool
  queue : List (QueuedFire V)
  droppedCount : BitVec 64
  drain : DrainPc V
  editor : E → EditorPc V
  dtor : DtorPc
  /-- The fires handed to `cb_`. -/
  dispatched : List (QueuedFire V)

inductive Act (E V : Type) where
  | performEdit (e : E) (fire : QueuedFire V)
  | editor (e : E)
  | drain
  | destroy
  | dtor

abbrev kQueueCap : Nat := 2048

namespace Handler
variable {E V : Type}

/-- As constructed: the drain thread has just started. -/
def initial : Handler E V :=
  { queueMutex := none, stopRequested := false, queue := [], droppedCount := 0, drain := .lock,
    editor := fun _ => .outside, dtor := .alive, dispatched := [] }

/-- A notification reaches the drain thread if it is parked already. -/
def wake (d : DrainPc V) : DrainPc V :=
  match d with
  | .parked => .reacquire
  | d => d

def drainStep (s : Handler E V) : Option (Handler E V) :=
  match s.drain with
  | .lock | .reacquire =>
    if s.queueMutex.isNone then some { s with queueMutex := some .drain, drain := .predStop } else none
  | .predStop => some { s with drain := if s.stopRequested then .checkEmpty else .predQueue }
  | .predQueue => some { s with drain := if s.queue.isEmpty then .park else .checkEmpty }
  | .park => some { s with queueMutex := none, drain := .parked }
  | .parked | .returned => none
  | .checkEmpty => some { s with drain := if s.queue.isEmpty then .checkStop else .pop }
  | .checkStop => some { s with drain := .unlock (if s.stopRequested then .return else .again) }
  | .pop =>
    match s.queue with
    | fire :: rest => some { s with queue := rest, drain := .unlock (.dispatch fire) }
    | [] => none
  | .unlock k => some { s with queueMutex := none, drain := match k with
      | .dispatch fire => .dispatch fire
      | .again => .lock
      | .return => .returned }
  | .dispatch fire => some { s with dispatched := s.dispatched ++ [fire], drain := .lock }

def editorStep [DecidableEq E] (s : Handler E V) (e : E) : Option (Handler E V) :=
  match s.editor e with
  | .outside => none
  | .lock fire =>
    if s.queueMutex.isNone then
      some { s with queueMutex := some (.editor e), editor := Function.update s.editor e (.push fire) }
    else none
  | .push fire => some { s with
      queue := push kQueueCap s.queue fire,
      droppedCount := if kQueueCap ≤ s.queue.length then s.droppedCount + 1 else s.droppedCount,
      editor := Function.update s.editor e .unlock }
  | .unlock => some { s with queueMutex := none, editor := Function.update s.editor e .notifyOne }
  | .notifyOne => some { s with drain := wake s.drain, editor := Function.update s.editor e .outside }

/-- The destructor takes no lock. -/
def dtorStep (s : Handler E V) : Option (Handler E V) :=
  match s.dtor with
  | .alive | .joined => none
  | .storeStop => some { s with stopRequested := true, dtor := .notifyAll }
  | .notifyAll => some { s with drain := wake s.drain, dtor := .join }
  | .join =>
    match s.drain with
    | .returned => some { s with dtor := .joined }
    | _ => none

def step [DecidableEq E] (s : Handler E V) : Act E V → Option (Handler E V)
  | .performEdit e fire =>
    match s.editor e with
    | .outside => some { s with editor := Function.update s.editor e (.lock fire) }
    | _ => none
  | .editor e => s.editorStep e
  | .drain => s.drainStep
  | .destroy =>
    match s.dtor with
    | .alive => some { s with dtor := .storeStop }
    | _ => none
  | .dtor => s.dtorStep

/-- The drain thread sleeps, and the destructor that waits for it has spent its notification. -/
def Hung (s : Handler E V) : Prop := s.drain = .parked ∧ s.stopRequested = true ∧ s.dtor = .join

/-- Past the predicate's look at the stop flag, and bound to park. -/
def FallingAsleep (s : Handler E V) : Prop := s.drain = .park ∨ s.drain = .predQueue ∧ s.queue = []

/-- The destructor's notification is not issued while the drain thread, having
read no stop request, is on its way to park. -/
def Timely (s : Handler E V) : Act E V → Prop
  | .dtor => s.dtor = .notifyAll → ¬ s.FallingAsleep
  | _ => True

instance [DecidableEq V] (s : Handler E V) : Decidable s.FallingAsleep :=
  inferInstanceAs (Decidable (s.drain = .park ∨ s.drain = .predQueue ∧ s.queue = []))

instance [DecidableEq V] (s : Handler E V) (a : Act E V) : Decidable (Timely s a) :=
  match a with
  | .dtor => inferInstanceAs (Decidable (s.dtor = .notifyAll → ¬ s.FallingAsleep))
  | .performEdit _ _ | .editor _ | .drain | .destroy => .isTrue trivial

/-- Once notified, the drain thread neither sleeps nor is about to. -/
structure Inv (s : Handler E V) : Prop where
  stopping : s.dtor = .notifyAll ∨ s.dtor = .join ∨ s.dtor = .joined → s.stopRequested = true
  awake : s.dtor = .join ∨ s.dtor = .joined → s.drain ≠ .parked ∧ ¬ s.FallingAsleep

namespace Inv
variable {s t : Handler E V}

theorem initial : Inv (Handler.initial : Handler E V) := ⟨by simp [Handler.initial], by simp [Handler.initial]⟩

private theorem not_hung (h : Inv s) : ¬ s.Hung := fun hh => (h.awake (.inl hh.2.2)).1 hh.1

/-- The drain thread's step: with the stop request out it cannot reach the queue test. -/
theorem drainStep (h : Inv s) (hs : s.drainStep = some t) : Inv t := by
  unfold Handler.drainStep at hs
  cases hd : s.drain <;> rw [hd] at hs <;> dsimp only at hs
  case lock | reacquire =>
    split at hs <;> cases hs
    exact ⟨h.stopping, fun _ => by simp [FallingAsleep]⟩
  case predStop =>
    cases hs
    refine ⟨h.stopping, fun hj => ?_⟩
    have hstop : s.stopRequested = true := h.stopping (.inr hj)
    simp [FallingAsleep, hstop]
  case predQueue =>
    cases hs
    refine ⟨h.stopping, fun hj => ?_⟩
    have hne : s.queue ≠ [] := fun hq => (h.awake hj).2 (.inr ⟨hd, hq⟩)
    simp [FallingAsleep, hne]
  case park =>
    cases hs
    exact ⟨h.stopping, fun hj => absurd (.inl hd) (h.awake hj).2⟩
  case checkEmpty =>
    cases hs
    refine ⟨h.stopping, fun _ => ?_⟩
    cases s.queue <;> simp [FallingAsleep]
  case pop =>
    split at hs <;> cases hs
    exact ⟨h.stopping, fun _ => by simp [FallingAsleep]⟩
  case unlock k =>
    cases hs
    exact ⟨h.stopping, fun _ => by cases k <;> simp [FallingAsleep]⟩
  case checkStop | dispatch =>
    cases hs
    exact ⟨h.stopping, fun _ => by simp [FallingAsleep]⟩
  all_goals cases hs

theorem wake_awake {d : DrainPc V} : wake d ≠ .parked ∧ (wake d = .park → d = .park) ∧
    (wake d = .predQueue → d = .predQueue) := by cases d <;> simp [wake]

/-- An editor never empties the queue, and can only wake the drain thread. -/
theorem editorStep [DecidableEq E] (h : Inv s) {e : E} (hs : s.editorStep e = some t) : Inv t := by
  unfold Handler.editorStep at hs
  cases he : s.editor e <;> rw [he] at hs <;> dsimp only at hs
  case outside => cases hs
  case lock fire =>
    split at hs <;> cases hs
    exact { h with }
  case push fire =>
    cases hs
    refine ⟨h.stopping, fun hj => ⟨(h.awake hj).1, ?_⟩⟩
    rintro (hp | ⟨-, hq⟩)
    · exact (h.awake hj).2 (.inl hp)
    · simp [push] at hq
  case unlock =>
    cases hs
    exact { h with }
  case notifyOne =>
    cases hs
    obtain ⟨hne, hpark, hqueue⟩ := wake_awake (d := s.drain)
    refine ⟨h.stopping, fun hj => ⟨hne, ?_⟩⟩
    rintro (hp | ⟨hp, hq⟩)
    · exact (h.awake hj).2 (.inl (hpark hp))
    · exact (h.awake hj).2 (.inr ⟨hqueue hp, hq⟩)

theorem dtorStep (h : Inv s) (hok : Timely s .dtor) (hs : s.dtorStep = some t) : Inv t := by
  unfold Handler.dtorStep at hs
  cases hd : s.dtor <;> rw [hd] at hs <;> dsimp only at hs
  case storeStop =>
    cases hs
    exact ⟨fun _ => rfl, by simp⟩
  case notifyAll =>
    cases hs
    obtain ⟨hne, hpark, hqueue⟩ := wake_awake (d := s.drain)
    refine ⟨fun _ => h.stopping (.inl hd), fun _ => ⟨hne, ?_⟩⟩
    rintro (hp | ⟨hp, hq⟩)
    · exact hok hd (.inl (hpark hp))
    · exact hok hd (.inr ⟨hqueue hp, hq⟩)
  case join =>
    split at hs <;> cases hs
    exact ⟨fun _ => h.stopping (.inr (.inl hd)), fun _ => h.awake (.inl hd)⟩
  all_goals cases hs

theorem keep [DecidableEq E] {a : Act E V} (h : Inv s) (hok : Timely s a) (hs : s.step a = some t) : Inv t := by
  cases a with
  | performEdit e fire =>
    simp only [Handler.step] at hs
    split at hs <;> cases hs
    exact { h with }
  | editor e => exact h.editorStep hs
  | drain => exact h.drainStep hs
  | destroy =>
    simp only [Handler.step] at hs
    split at hs <;> cases hs
    exact ⟨by simp, by simp⟩
  | dtor => exact h.dtorStep hok hs

/-- An untimely notification is lost: the drain thread's own next steps park it for good. -/
private theorem untimely_hangs [DecidableEq E] (h : Inv s) (hbad : ¬ Timely s .dtor) :
    ∃ n t, exec Handler.step s (.dtor :: List.replicate n .drain) = some t ∧ t.Hung := by
  have hd : s.dtor = .notifyAll := by
    by_contra hne
    exact hbad fun heq => absurd heq hne
  have hstop := h.stopping (.inl hd)
  have hfall : s.FallingAsleep := by
    by_contra hf
    exact hbad fun _ => hf
  rcases hfall with hp | ⟨hp, hq⟩
  · refine ⟨1, { s with drain := .parked, queueMutex := none, dtor := .join }, ?_, rfl, hstop, rfl⟩
    simp [exec, Handler.step, Handler.dtorStep, Handler.drainStep, hd, hp, wake]
  · refine ⟨2, { s with drain := .parked, queueMutex := none, dtor := .join }, ?_, rfl, hstop, rfl⟩
    simp [exec, Handler.step, Handler.dtorStep, Handler.drainStep, hd, hp, hq, wake]

end Inv

/-- A run with a timely notification never hangs, and an untimely one, at the
end of any run so far timely, hangs as soon as the drain thread goes on. -/
theorem hangs_unless_timely [DecidableEq E] (as : List (Act E V)) (t : Handler E V)
    (he : exec step Handler.initial as = some t) (hok : Meets step Timely Handler.initial as) :
    Always step (fun s => ¬ s.Hung) Handler.initial as ∧
    (¬ Timely t .dtor → ∃ n u, exec step Handler.initial (as ++ .dtor :: List.replicate n .drain) = some u ∧
      u.Hung) := by
  refine ⟨always_of_meets Inv (fun hi hok hs => Inv.keep hi hok hs) Inv.not_hung Inv.initial hok, fun hbad => ?_⟩
  have hinv : Inv t := invariant Inv (fun hi hok hs => Inv.keep hi hok hs) Inv.initial hok he
  obtain ⟨n, u, hu, hung⟩ := hinv.untimely_hangs hbad
  exact ⟨n, u, by rw [exec_append, he]; exact hu, hung⟩

/-- Store and notification fall between the predicate and the parking. -/
theorem notify_before_park : ∃ as t, exec step (Handler.initial : Handler Unit Nat) as = some t ∧ t.Hung ∧
    ¬ Always step (fun s => ¬ s.Hung) (Handler.initial : Handler Unit Nat) as := by
  let as : List (Act Unit Nat) := [.drain, .drain, .drain, .destroy, .dtor, .dtor, .drain]
  have hrun : ∃ t, exec step (Handler.initial : Handler Unit Nat) as = some t ∧ t.Hung :=
    ⟨_, rfl, rfl, rfl, rfl⟩
  obtain ⟨t, ht, hung⟩ := hrun
  exact ⟨as, t, ht, hung, fun h => h.end ht hung⟩

/-- The request arrives while the drain thread is parked: it wakes and is joined. -/
theorem hangs_unless_timely_when_parked : ∃ as t, exec step (Handler.initial : Handler Unit Nat) as = some t ∧
    t.dtor = .joined ∧ Always step (fun s => ¬ s.Hung) (Handler.initial : Handler Unit Nat) as := by
  let as : List (Act Unit Nat) := List.replicate 4 .drain ++ [.destroy, .dtor, .dtor] ++
    List.replicate 5 .drain ++ [.dtor]
  obtain ⟨t, ht, hview⟩ := Option.map_eq_some_iff.mp
    (show (exec step (Handler.initial : Handler Unit Nat) as).map (fun t => t.dtor) = some .joined by decide)
  exact ⟨as, t, ht, hview, (hangs_unless_timely as t ht (meets_of_checks (by decide))).1⟩

end Handler
end Plughost.Vst3.EditDrain
