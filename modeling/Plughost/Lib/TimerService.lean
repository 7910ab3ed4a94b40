import Plughost.Lib.Monitors

/-! What a service of periodic timers owes the handlers it calls, whichever of a handler's timers
each call is put down to. Nothing here names a program. -/
namespace Plughost.TimerService
open Plughost.Monitors
variable {η : Type*}

/-- A timer: since when its interval runs, when it is next due, and, in a pass, whether the pass found
it due and how often it has called it. -/
structure Periodic (η : Type*) where
  handler : η
  interval : Nat
  since : Nat
  deadline : Nat
  due : Bool
  calls : Nat

inductive Event (η : Type*) where
  | registered (handler : η) (interval now : Nat)
  /-- All the timers of the handler. -/
  | unregistered (handler : η)
  /-- A pass reads the clock. -/
  | entered (now : Nat)
  | called (handler : η) (now : Nat)
  /-- The pass returns, and says for how long nothing will be due. -/
  | waits (time now : Nat)
  deriving DecidableEq

namespace Periodic

def start (handler : η) (interval now : Nat) : Periodic η := ⟨handler, interval, now, now + interval, false, 0⟩

def enter (now : Nat) (t : Periodic η) : Periodic η :=
  { t with
    deadline := if t.deadline ≤ now then now + t.interval else t.deadline
    due := decide (t.deadline ≤ now)
    calls := 0 }

def call (now : Nat) (t : Periodic η) : Periodic η := { t with since := now, calls := t.calls + 1 }

def leave (t : Periodic η) : Periodic η := { t with due := false, calls := 0 }

end Periodic

variable [DecidableEq η]

/-- A call is put down to a timer of its handler that is registered and whose interval has passed since
its registration or its last call; a pass calls each timer once that it found due and that is still
there when it returns; the wait is `never` when no timer is left, and else ends by every deadline. -/
inductive Serves (never : Nat) : List (Periodic η) → Event η → List (Periodic η) → Prop
  | registered (ts : List (Periodic η)) (h : η) (interval now : Nat) :
    Serves never ts (.registered h interval now) (ts ++ [.start h interval now])
  | unregistered (ts : List (Periodic η)) (h : η) : Serves never ts (.unregistered h) (ts.filter (·.handler ≠ h))
  | entered (ts : List (Periodic η)) (now : Nat) : Serves never ts (.entered now) (ts.map (.enter now))
  | called (front back : List (Periodic η)) (t : Periodic η) (now : Nat) (elapsed : t.since + t.interval ≤ now) :
    Serves never (front ++ t :: back) (.called t.handler now) (front ++ t.call now :: back)
  | waits (ts : List (Periodic η)) (time now : Nat) (once : ∀ t ∈ ts, t.due → t.calls = 1)
      (none : time = never ↔ ts = []) (early : ∀ t ∈ ts, time ≤ t.deadline - now) :
    Serves never ts (.waits time now) (ts.map .leave)

variable {never : Nat} {ts us : List (Periodic η)} {h : η}

private theorem Serves.eq_append {interval now : Nat} (hs : Serves never ts (.registered h interval now) us) :
    us = ts ++ [.start h interval now] := by
  cases hs
  rfl

private theorem Serves.eq_filter (hs : Serves never ts (.unregistered h) us) : us = ts.filter (·.handler ≠ h) := by
  cases hs
  rfl

private theorem Serves.exists_elapsed {now : Nat} (hs : Serves never ts (.called h now) us) :
    ∃ t ∈ ts, t.handler = h ∧ t.since + t.interval ≤ now := by
  cases hs with
  | called front back t _ elapsed => exact ⟨t, List.mem_append_right front List.mem_cons_self, rfl, elapsed⟩

/-- A handler whose timers have been taken off and which has been given one timer since is not called
before that timer's interval has passed. -/
theorem not_called_early {interval now now' : Nat} (hearly : now' < now + interval) :
    ¬ Admits (Serves never) ts [.unregistered h, .registered h interval now, .called h now'] us := by
  intro hadmits
  obtain - | ⟨hgone, hadmits⟩ := hadmits
  obtain - | ⟨hnew, hadmits⟩ := hadmits
  obtain - | ⟨hcalled, -⟩ := hadmits
  obtain ⟨t, hmem, hhandler, helapsed⟩ := hcalled.exists_elapsed
  rw [hnew.eq_append, hgone.eq_filter] at hmem
  rcases List.mem_append.mp hmem with hold | hstart
  · exact of_decide_eq_true (List.mem_filter.mp hold).2 hhandler
  · rw [List.mem_singleton.mp hstart] at helapsed
    exact Nat.not_lt.mpr helapsed hearly

end Plughost.TimerService
