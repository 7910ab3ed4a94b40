import Mathlib.Algebra.Order.Group.Nat
import Plughost.Lib.Runs

/-! A counting semaphore with two clocks beside it, and functions that wait on it by
one system call after another. Nothing here names a program. -/
namespace Plughost.Semaphore
open Plughost.Runs

/-- What the system calls are about: the count, a wall clock that can be set, and
one that cannot, both in nanoseconds. -/
structure Kernel where
  count : Nat
  realtime : Nat
  steady : Nat

/-- What a system call comes back with; `fault` is any other error. -/
inductive Answer where
  | ok | eintr | eagain | etimedout | einval | fault
  deriving DecidableEq, Repr

/-- A function that waits: where it is between two system calls, and what each
answer makes of it. -/
structure Waiter where
  Call : Type
  entered : Call
  step : Kernel → Call → Answer → Option (Kernel × Call)
  result : Call → Option Bool

/-- The count goes down by one, when it is not zero. -/
def Kernel.take (k : Kernel) : Option Kernel := if k.count = 0 then none else some { k with count := k.count - 1 }

/-- The wait goes on, has been woken by taking one post, or has given up. -/
inductive Waiter.Effect (W : Waiter) (k : Kernel) : Kernel → W.Call → Prop
  | goesOn {c : W.Call} (h : W.result c = none) : Effect W k k c
  | woken {c : W.Call} {k' : Kernel} (h : W.result c = some true) (hk : k.take = some k') : Effect W k k' c
  | gaveUp {c : W.Call} (h : W.result c = some false) : Effect W k k c

/-- A returned wait makes no call, and `true` is returned for one post exactly. -/
structure Waiter.Sound (W : Waiter) : Prop where
  entered : W.result W.entered = none
  waits : ∀ {k c a k' c'}, W.step k c a = some (k', c') → W.result c = none
  effect : ∀ {k c a k' c'}, W.step k c a = some (k', c') → W.Effect k k' c'

/-- A wait in progress among the others that use the semaphore. -/
structure Waiting (W : Waiter) where
  kernel : Kernel
  call : W.Call

inductive Act where
  /-- The waiting thread's system call comes back. -/
  | call (a : Answer)
  | post
  | elapse (n : Nat)
  | setRealtime (n : Nat)
  deriving DecidableEq

def Kernel.elapse (k : Kernel) (n : Nat) : Kernel := { k with realtime := k.realtime + n, steady := k.steady + n }

namespace Waiting
variable {W : Waiter}

def step (w : Waiting W) : Act → Option (Waiting W)
  | .call a => (W.step w.kernel w.call a).map fun p => ⟨p.1, p.2⟩
  | .post => some { w with kernel := { w.kernel with count := w.kernel.count + 1 } }
  | .elapse n => some { w with kernel := w.kernel.elapse n }
  | .setRealtime n => some { w with kernel := { w.kernel with realtime := n } }

/-- The posts that the wait has taken: one, if it returned `true`. -/
def taken (w : Waiting W) : Nat := if W.result w.call = some true then 1 else 0

/-- The posts among the actions. -/
def posts (as : List Act) : Nat := as.count .post

end Waiting

theorem Kernel.take_cases {k k' : Kernel} (h : k.take = some k') :
    k'.count + 1 = k.count ∧ k'.realtime = k.realtime ∧ k'.steady = k.steady := by
  unfold Kernel.take at h
  split at h <;> cases h
  exact ⟨by dsimp only; omega, rfl, rfl⟩

namespace Waiting
variable {W : Waiter} {w w' : Waiting W} {as : List Act}

theorem taken_eq_zero (h : W.result w.call = none) : w.taken = 0 := by simp [taken, h]

/-- What one action does to the count and the post taken from it. -/
private theorem step_count (hW : W.Sound) {a : Act} (h : w.step a = some w') :
    w'.kernel.count + w'.taken = w.kernel.count + w.taken + posts [a] := by
  cases a with
  | call a =>
    obtain ⟨⟨k', c'⟩, hp, rfl⟩ := Option.map_eq_some_iff.mp h
    rw [taken_eq_zero (hW.waits hp)]
    cases hW.effect hp with
    | goesOn hr => simp [taken, hr, posts]
    | gaveUp hr => simp [taken, hr, posts]
    | woken hr hk => simpa [taken, hr, posts] using (Kernel.take_cases hk).1
  | post =>
    cases h
    simp only [taken, posts, List.count_singleton_self]
    omega
  | elapse n | setRealtime n =>
    cases h
    simp [taken, posts, Kernel.elapse]

/-- Posts are conserved: each is still in the count or is the one the wait returned for. -/
theorem exec_count (hW : W.Sound) (he : exec step w as = some w') :
    w'.kernel.count + w'.taken = w.kernel.count + w.taken + posts as := by
  induction as generalizing w with
  | nil => cases he; rfl
  | cons a as ih =>
    obtain ⟨v, hv, hrest⟩ := Option.bind_eq_some_iff.mp he
    rw [ih hrest, step_count hW hv, Nat.add_assoc, posts, posts, posts, ← List.count_append, List.singleton_append]

end Waiting
end Plughost.Semaphore
