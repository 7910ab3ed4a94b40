import Mathlib.Data.List.Infix
import Plughost.Lib.Ledger
import Plughost.Vst3.EditDrain

/-! What becomes of the fires a `HostComponentHandler` enqueues: its queue keeps
the books of a bounded queue, whatever the order of the threads' steps. -/
namespace Plughost.Vst3.EditDrain
open Plughost.Runs Plughost.BoundedQueue
variable {E V : Type}

/-- The fire taken from the queue and not yet handed to `cb_`. -/
def inFlight : DrainPc V → List (QueuedFire V)
  | .unlock (.dispatch fire) | .dispatch fire => [fire]
  | _ => []

/-- A handler with the fires enqueued so far and the books kept on them. -/
structure Recorded (E V : Type) where
  handler : Handler E V
  enqueued : List (QueuedFire V)
  ledger : Ledger (QueuedFire V)

namespace Recorded

def initial : Recorded E V := ⟨Handler.initial, [], Ledger.empty⟩

/-- The entry an action pushes. -/
def pushed (s : Handler E V) : Act E V → Option (QueuedFire V)
  | .editor e => match s.editor e with
    | .push fire => some fire
    | _ => none
  | _ => none

/-- The books after an action: a push is entered, a pop takes the oldest entry. -/
def note (s : Handler E V) (j : Ledger (QueuedFire V)) : Act E V → Ledger (QueuedFire V)
  | .editor e => match s.editor e with
    | .push fire => j.push kQueueCap fire
    | _ => j
  | .drain => match s.drain with
    | .pop => j.settle false
    | _ => j
  | .performEdit _ _ | .destroy | .dtor => j

def step [DecidableEq E] (r : Recorded E V) (a : Act E V) : Option (Recorded E V) :=
  (r.handler.step a).map fun t =>
    ⟨t, r.enqueued ++ (pushed r.handler a).toList, note r.handler r.ledger a⟩

theorem pushed_push {s : Handler E V} {e : E} {fire : QueuedFire V} (h : s.editor e = .push fire) :
    pushed s (.editor e) = some fire := by
  simp only [pushed, h]

theorem pushed_drain (s : Handler E V) : pushed s .drain = none := rfl

theorem note_push {s : Handler E V} {e : E} {fire : QueuedFire V} (h : s.editor e = .push fire)
    (j : Ledger (QueuedFire V)) : note s j (.editor e) = j.push kQueueCap fire := by
  simp only [note, h]

theorem note_pop {s : Handler E V} (h : s.drain = .pop) (j : Ledger (QueuedFire V)) :
    note s j .drain = j.settle false := by
  simp only [note, h]

theorem note_dispatch {s : Handler E V} {fire : QueuedFire V} (h : s.drain = .dispatch fire)
    (j : Ledger (QueuedFire V)) : note s j .drain = j := by
  simp only [note, h]

/-- The books follow the handler's runs and do not restrict them. -/
theorem exec_handler [DecidableEq E] (r : Recorded E V) (as : List (Act E V)) :
    (exec step r as).map Recorded.handler = exec Handler.step r.handler as := by
  induction as generalizing r with
  | nil => rfl
  | cons a as ih =>
    simp only [exec, step]
    cases r.handler.step a with
    | none => rfl
    | some t => exact ih _

end Recorded

/-- What one step does to the queue and to the fires on their way to `cb_`. -/
inductive QueueStep (s t : Handler E V) : Act E V → Prop where
  | push {e : E} {fire : QueuedFire V} (pc : s.editor e = .push fire)
      (queue : t.queue = push kQueueCap s.queue fire)
      (count : t.droppedCount = if kQueueCap ≤ s.queue.length then s.droppedCount + 1 else s.droppedCount)
      (drain : t.drain = s.drain) (dispatched : t.dispatched = s.dispatched) : QueueStep s t (.editor e)
  | pop {fire : QueuedFire V} {rest : List (QueuedFire V)} (pc : s.drain = .pop) (queued : s.queue = fire :: rest)
      (queue : t.queue = rest) (count : t.droppedCount = s.droppedCount)
      (drain : t.drain = .unlock (.dispatch fire)) (dispatched : t.dispatched = s.dispatched) : QueueStep s t .drain
  | dispatch {fire : QueuedFire V} (pc : s.drain = .dispatch fire) (queue : t.queue = s.queue)
      (count : t.droppedCount = s.droppedCount) (drain : t.drain = .lock)
      (dispatched : t.dispatched = s.dispatched ++ [fire]) : QueueStep s t .drain
  | other {a : Act E V} (quiet : Recorded.pushed s a = none) (books : ∀ j, Recorded.note s j a = j)
      (queue : t.queue = s.queue) (count : t.droppedCount = s.droppedCount)
      (flight : inFlight t.drain = inFlight s.drain) (dispatched : t.dispatched = s.dispatched) : QueueStep s t a

namespace QueueStep
variable {s t : Handler E V}

theorem of_drain (hs : s.drainStep = some t) : QueueStep s t .drain := by
  unfold Handler.drainStep at hs
  cases hd : s.drain <;> rw [hd] at hs <;> dsimp only at hs
  case pop =>
    cases hq : s.queue with
    | nil =>
      rw [hq] at hs
      cases hs
    | cons fire rest =>
      rw [hq] at hs
      cases hs
      exact .pop hd hq rfl rfl rfl rfl
  case dispatch fire =>
    cases hs
    exact .dispatch hd rfl rfl rfl rfl
  case lock | reacquire =>
    split at hs <;> cases hs
    exact .other rfl (fun j => by simp [Recorded.note, hd]) rfl rfl (by simp [inFlight, hd]) rfl
  case predStop | predQueue | checkEmpty | checkStop =>
    cases hs
    refine .other rfl (fun j => by simp [Recorded.note, hd]) rfl rfl ?_ rfl
    dsimp only
    split <;> simp [inFlight, hd]
  case park =>
    cases hs
    exact .other rfl (fun j => by simp [Recorded.note, hd]) rfl rfl (by simp [inFlight, hd]) rfl
  case unlock k =>
    cases hs
    exact .other rfl (fun j => by simp [Recorded.note, hd]) rfl rfl (by cases k <;> simp [inFlight, hd]) rfl
  all_goals cases hs

theorem inFlight_wake (d : DrainPc V) : inFlight (Handler.wake d) = inFlight d := by
  cases d <;> rfl

theorem of_editor [DecidableEq E] {e : E} (hs : s.editorStep e = some t) : QueueStep s t (.editor e) := by
  unfold Handler.editorStep at hs
  cases he : s.editor e <;> rw [he] at hs <;> dsimp only at hs
  case push fire =>
    cases hs
    exact .push he rfl rfl rfl rfl
  case outside => cases hs
  case lock fire =>
    split at hs <;> cases hs
    exact .other (by simp [Recorded.pushed, he]) (fun j => by simp [Recorded.note, he]) rfl rfl rfl rfl
  case unlock =>
    cases hs
    exact .other (by simp [Recorded.pushed, he]) (fun j => by simp [Recorded.note, he]) rfl rfl rfl rfl
  case notifyOne =>
    cases hs
    exact .other (by simp [Recorded.pushed, he]) (fun j => by simp [Recorded.note, he]) rfl rfl
      (inFlight_wake s.drain) rfl

theorem of_step [DecidableEq E] {a : Act E V} (hs : s.step a = some t) : QueueStep s t a := by
  cases a with
  | editor e => exact of_editor hs
  | drain => exact of_drain hs
  | performEdit e fire =>
    simp only [Handler.step] at hs
    split at hs <;> cases hs
    exact .other rfl (fun _ => rfl) rfl rfl rfl rfl
  | destroy =>
    simp only [Handler.step] at hs
    split at hs <;> cases hs
    exact .other rfl (fun _ => rfl) rfl rfl rfl rfl
  | dtor =>
    simp only [Handler.step, Handler.dtorStep] at hs
    cases hd : s.dtor <;> rw [hd] at hs <;> dsimp only at hs
    case storeStop =>
      cases hs
      exact .other rfl (fun _ => rfl) rfl rfl rfl rfl
    case notifyAll =>
      cases hs
      exact .other rfl (fun _ => rfl) rfl rfl (inFlight_wake s.drain) rfl
    case join =>
      split at hs <;> cases hs
      exact .other rfl (fun _ => rfl) rfl rfl rfl rfl
    all_goals cases hs

end QueueStep

/-- The handler's members agree with the books. -/
structure Follows (r : Recorded E V) : Prop where
  /-- The books account for exactly the fires enqueued, in that order. -/
  enqueued : r.ledger.entries = r.enqueued
  /-- `queue_` holds the entries that have not left, so what left it was the oldest. -/
  queue : r.handler.queue = r.ledger.queued
  /-- Every fire taken goes to `cb_` once, in that order. -/
  taken : r.handler.dispatched ++ inFlight r.handler.drain = r.ledger.taken
  dropped : r.handler.droppedCount = BitVec.ofNat 64 r.ledger.dropped.length
  bounded : r.handler.queue.length ≤ kQueueCap

namespace Follows
variable {r u : Recorded E V}

theorem initial : Follows (Recorded.initial : Recorded E V) :=
  ⟨rfl, rfl, rfl, rfl, Nat.zero_le _⟩

theorem step [DecidableEq E] {a : Act E V} (h : Follows r) (hs : r.step a = some u) : Follows u := by
  obtain ⟨t, ht, rfl⟩ := Option.map_eq_some_iff.mp hs
  obtain ⟨henq, hqueue, htaken, hdropped, hbound⟩ := h
  cases QueueStep.of_step ht with
  | @push e fire pc queue count drain dispatched =>
    rw [Recorded.pushed_push pc, Recorded.note_push pc, Option.toList_some]
    refine ⟨?_, ?_, ?_, ?_, ?_⟩
    · rw [Ledger.entries_push, henq]
    · rw [Ledger.queued_push, queue, hqueue]
    · rw [Ledger.taken_push, drain, dispatched]
      exact htaken
    · rw [Ledger.dropped_push _ _ (by decide), count, ← hqueue, hdropped]
      split
      · rename_i hfull
        have hone : (r.handler.queue.take 1).length = 1 := by
          rw [List.length_take]
          exact Nat.min_eq_left (Nat.le_trans (by decide) hfull)
        rw [List.length_append, hone, BitVec.ofNat_add]
        rfl
      · rw [List.append_nil]
    · have hle := Ledger.queued_push_le r.ledger fire (show 0 < kQueueCap by decide) (hqueue ▸ hbound)
      rw [Ledger.queued_push, ← hqueue, ← queue] at hle
      exact hle
  | pop pc queued queue count drain dispatched =>
    have hledger := hqueue.symm.trans queued
    rw [Recorded.note_pop pc]
    refine ⟨?_, ?_, ?_, ?_, ?_⟩
    · rw [Ledger.entries_settle, Recorded.pushed_drain, Option.toList_none, List.append_nil, henq]
    · rw [Ledger.queued_settle, hledger, List.tail_cons, queue]
    · have hnone : inFlight r.handler.drain = [] := by rw [pc]; rfl
      rw [hnone, List.append_nil] at htaken
      rw [Ledger.taken_settle_false hledger, ← htaken, drain, dispatched]
      rfl
    · rw [Ledger.dropped_settle_false, count, hdropped]
    · rw [queued, List.length_cons] at hbound
      rw [queue]
      omega
  | dispatch pc queue count drain dispatched =>
    rw [Recorded.note_dispatch pc]
    refine ⟨?_, queue.trans hqueue, ?_, count.trans hdropped, by rw [queue]; exact hbound⟩
    · rw [Recorded.pushed_drain, Option.toList_none, List.append_nil, henq]
    · rw [pc] at htaken
      rw [drain, dispatched, ← htaken]
      exact List.append_nil _
  | other quiet books queue count flight dispatched =>
    rw [books, quiet, Option.toList_none, List.append_nil]
    refine ⟨henq, queue.trans hqueue, ?_, count.trans hdropped, by rw [queue]; exact hbound⟩
    rw [dispatched, flight]
    exact htaken

end Follows
end Plughost.Vst3.EditDrain
