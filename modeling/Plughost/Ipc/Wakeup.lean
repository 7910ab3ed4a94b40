import Plughost.Lib.Semaphore

/-! `Wakeup::Wait` as it is on Linux and on macOS: the first hands the kernel an
absolute deadline, the second polls the semaphore until one has passed. -/
namespace Plughost.Ipc
open Plughost.Runs Plughost.Semaphore

/-- `timespec`, as `clock_gettime` fills it. -/
structure Timespec where
  tvSec : Nat
  tvNsec : Nat
  deriving DecidableEq

namespace Timespec

def now (k : Kernel) : Timespec := ⟨k.realtime / 1000000000, k.realtime % 1000000000⟩

/-- The moment it stands for, in nanoseconds. -/
def nanos (ts : Timespec) : Nat := ts.tvSec * 1000000000 + ts.tvNsec

/-- Nanoseconds from a whole second on carried over into the seconds. -/
def carry (tvSec tvNsec : Nat) : Timespec :=
  if 1000000000 ≤ tvNsec then ⟨tvSec + tvNsec / 1000000000, tvNsec % 1000000000⟩ else ⟨tvSec, tvNsec⟩

/-- `ts` moved on by `timeoutMs`. -/
def later (ts : Timespec) (timeoutMs : BitVec 32) : Timespec :=
  carry (ts.tvSec + (timeoutMs / 1000).toNat) (ts.tvNsec + (timeoutMs % 1000).toNat * 1000000)

private theorem nanos_now (k : Kernel) : (now k).nanos = k.realtime := Nat.div_add_mod' ..

private theorem carry_normalised (tvSec tvNsec : Nat) : (carry tvSec tvNsec).tvNsec < 1000000000 := by
  unfold carry
  split
  · exact Nat.mod_lt _ (by decide)
  · exact Nat.not_le.mp ‹_›

private theorem nanos_carry (tvSec tvNsec : Nat) : (carry tvSec tvNsec).nanos = tvSec * 1000000000 + tvNsec := by
  unfold carry nanos
  split
  · dsimp only
    omega
  · rfl

private theorem later_normalised (ts : Timespec) (timeoutMs : BitVec 32) : (ts.later timeoutMs).tvNsec < 1000000000 :=
  carry_normalised ..

private theorem toNat_split (timeoutMs : BitVec 32) :
    (timeoutMs / 1000).toNat * 1000 + (timeoutMs % 1000).toNat = timeoutMs.toNat := by
  have hlit : (1000 : BitVec 32).toNat = 1000 := rfl
  simp only [BitVec.toNat_udiv, BitVec.toNat_umod, hlit]
  omega

private theorem nanos_later (ts : Timespec) (timeoutMs : BitVec 32) :
    (ts.later timeoutMs).nanos = ts.nanos + timeoutMs.toNat * 1000000 := by
  rw [later, nanos_carry, nanos, ← toNat_split timeoutMs]
  generalize (timeoutMs / 1000).toNat = sec
  generalize (timeoutMs % 1000).toNat = rest
  omega

end Timespec

/-- `0xFFFFFFFF`, by which a caller waits for as long as it takes. -/
def forever : BitVec 32 := 0xFFFFFFFF

/-- Where the Linux `Wait` is. -/
inductive LinuxCall where
  | entered
  | semWait
  | clockGettime
  | semTimedwait (ts : Timespec)
  | returned (woken : Bool)

/-- Where the macOS `Wait` is. -/
inductive MacosCall where
  | entered
  | semWait
  | steadyNow
  | semTrywait (deadline : Nat)
  | pastDeadline (deadline : Nat)
  | sleepFor (deadline wake : Nat)
  | returned (woken : Bool)

/-- `Wait` over `sem_timedwait`, which waits until `CLOCK_REALTIME` shows the deadline. -/
def linuxStep (timeoutMs : BitVec 32) (k : Kernel) : LinuxCall → Answer → Option (Kernel × LinuxCall)
  | .entered, .ok => some (k, if timeoutMs = forever then .semWait else .clockGettime)
  | .semWait, .ok => k.take.map (·, .returned true)
  | .semWait, .eintr => some (k, .semWait)
  | .semWait, .fault => some (k, .returned false)
  | .clockGettime, .ok => some (k, .semTimedwait ((Timespec.now k).later timeoutMs))
  | .clockGettime, .fault => some (k, .returned false)
  | .semTimedwait _, .ok => k.take.map (·, .returned true)
  | .semTimedwait ts, .eintr => some (k, .semTimedwait ts)
  | .semTimedwait ts, .etimedout => if ts.nanos ≤ k.realtime then some (k, .returned false) else none
  | .semTimedwait ts, .einval => if ts.tvNsec < 1000000000 then none else some (k, .returned false)
  | .semTimedwait _, .fault => some (k, .returned false)
  | _, _ => none

/-- `Wait` over `sem_trywait`, a look at the steady clock and half a millisecond's sleep. -/
def macosStep (timeoutMs : BitVec 32) (k : Kernel) : MacosCall → Answer → Option (Kernel × MacosCall)
  | .entered, .ok => some (k, if timeoutMs = forever then .semWait else .steadyNow)
  | .semWait, .ok => k.take.map (·, .returned true)
  | .semWait, .eintr => some (k, .semWait)
  | .semWait, .fault => some (k, .returned false)
  | .steadyNow, .ok => some (k, .semTrywait (k.steady + timeoutMs.toNat * 1000000))
  | .semTrywait _, .ok => k.take.map (·, .returned true)
  | .semTrywait deadline, .eagain => if k.count = 0 then some (k, .pastDeadline deadline) else none
  | .semTrywait deadline, .eintr => some (k, .pastDeadline deadline)
  | .semTrywait _, .fault => some (k, .returned false)
  | .pastDeadline deadline, .ok =>
    some (k, if deadline ≤ k.steady then .returned false else .sleepFor deadline (k.steady + 500000))
  | .sleepFor deadline wake, .ok => if wake ≤ k.steady then some (k, .semTrywait deadline) else none
  | _, _ => none

def LinuxCall.result : LinuxCall → Option Bool
  | .returned woken => some woken
  | _ => none

def MacosCall.result : MacosCall → Option Bool
  | .returned woken => some woken
  | _ => none

private theorem LinuxCall.returned_of_result {c : LinuxCall} {b : Bool} (h : c.result = some b) : c = .returned b := by
  cases c <;> cases h
  rfl

private theorem MacosCall.returned_of_result {c : MacosCall} {b : Bool} (h : c.result = some b) : c = .returned b := by
  cases c <;> cases h
  rfl

/-- The `deadline` of the poll under way. -/
def MacosCall.deadline : MacosCall → Option Nat
  | .semTrywait deadline | .pastDeadline deadline | .sleepFor deadline _ => some deadline
  | _ => none

inductive Platform where
  | linux | macos
  deriving DecidableEq, Repr

/-- `Wakeup::Wait(timeoutMs)` on a wakeup whose semaphore is open. -/
def wait (timeoutMs : BitVec 32) : Platform → Waiter
  | .linux => { Call := LinuxCall, entered := .entered, step := linuxStep timeoutMs, result := LinuxCall.result }
  | .macos => { Call := MacosCall, entered := .entered, step := macosStep timeoutMs, result := MacosCall.result }

variable {timeoutMs : BitVec 32} {k k' : Kernel} {a : Answer}

/-- What an answer to the Linux `Wait` can lead to. -/
inductive LinuxCase (timeoutMs : BitVec 32) (k : Kernel) : LinuxCall → Answer → Kernel → LinuxCall → Prop
  | endless (h : timeoutMs = forever) : LinuxCase timeoutMs k .entered .ok k .semWait
  | timed (h : timeoutMs ≠ forever) : LinuxCase timeoutMs k .entered .ok k .clockGettime
  | clock : LinuxCase timeoutMs k .clockGettime .ok k (.semTimedwait ((Timespec.now k).later timeoutMs))
  | woken {c : LinuxCall} {k' : Kernel} (hc : c = .semWait ∨ ∃ ts, c = .semTimedwait ts) (hk : k.take = some k') :
      LinuxCase timeoutMs k c .ok k' (.returned true)
  | again {c : LinuxCall} (hc : c = .semWait ∨ ∃ ts, c = .semTimedwait ts) : LinuxCase timeoutMs k c .eintr k c
  | timedOut {ts : Timespec} (h : ts.nanos ≤ k.realtime) :
      LinuxCase timeoutMs k (.semTimedwait ts) .etimedout k (.returned false)
  | malformed {ts : Timespec} (h : ¬ ts.tvNsec < 1000000000) :
      LinuxCase timeoutMs k (.semTimedwait ts) .einval k (.returned false)
  | fault {c : LinuxCall} (hc : ∀ b, c ≠ .returned b) : LinuxCase timeoutMs k c .fault k (.returned false)

private theorem linuxStep_cases {c c' : LinuxCall} (h : linuxStep timeoutMs k c a = some (k', c')) :
    LinuxCase timeoutMs k c a k' c' := by
  unfold linuxStep at h
  split at h
  · cases h
    split
    · exact .endless ‹_›
    · exact .timed ‹_›
  · obtain ⟨u, hu, heq⟩ := Option.map_eq_some_iff.mp h
    cases heq
    exact .woken (.inl rfl) hu
  · cases h
    exact .again (.inl rfl)
  · cases h
    exact .fault (by simp)
  · cases h
    exact .clock
  · cases h
    exact .fault (by simp)
  · obtain ⟨u, hu, heq⟩ := Option.map_eq_some_iff.mp h
    cases heq
    exact .woken (.inr ⟨_, rfl⟩) hu
  · cases h
    exact .again (.inr ⟨_, rfl⟩)
  · split at h <;> cases h
    exact .timedOut ‹_›
  · split at h <;> cases h
    exact .malformed ‹_›
  · cases h
    exact .fault (by simp)
  · cases h

/-- What an answer to the macOS `Wait` can lead to. -/
inductive MacosCase (timeoutMs : BitVec 32) (k : Kernel) : MacosCall → Answer → Kernel → MacosCall → Prop
  | endless (h : timeoutMs = forever) : MacosCase timeoutMs k .entered .ok k .semWait
  | timed (h : timeoutMs ≠ forever) : MacosCase timeoutMs k .entered .ok k .steadyNow
  | clock : MacosCase timeoutMs k .steadyNow .ok k (.semTrywait (k.steady + timeoutMs.toNat * 1000000))
  | woken {c : MacosCall} {k' : Kernel} (hc : c = .semWait ∨ ∃ d, c = .semTrywait d) (hk : k.take = some k') :
      MacosCase timeoutMs k c .ok k' (.returned true)
  | again : MacosCase timeoutMs k .semWait .eintr k .semWait
  | missed {d : Nat} {a : Answer} (h : a = .eagain ∧ k.count = 0 ∨ a = .eintr) :
      MacosCase timeoutMs k (.semTrywait d) a k (.pastDeadline d)
  | timedOut {d : Nat} (h : d ≤ k.steady) : MacosCase timeoutMs k (.pastDeadline d) .ok k (.returned false)
  | sleep {d : Nat} (h : k.steady < d) :
      MacosCase timeoutMs k (.pastDeadline d) .ok k (.sleepFor d (k.steady + 500000))
  | awake {d wake : Nat} (h : wake ≤ k.steady) : MacosCase timeoutMs k (.sleepFor d wake) .ok k (.semTrywait d)
  | fault {c : MacosCall} (hc : ∀ b, c ≠ .returned b) : MacosCase timeoutMs k c .fault k (.returned false)

private theorem macosStep_cases {c c' : MacosCall} (h : macosStep timeoutMs k c a = some (k', c')) :
    MacosCase timeoutMs k c a k' c' := by
  unfold macosStep at h
  split at h
  · cases h
    split
    · exact .endless ‹_›
    · exact .timed ‹_›
  · obtain ⟨u, hu, heq⟩ := Option.map_eq_some_iff.mp h
    cases heq
    exact .woken (.inl rfl) hu
  · cases h
    exact .again
  · cases h
    exact .fault (by simp)
  · cases h
    exact .clock
  · obtain ⟨u, hu, heq⟩ := Option.map_eq_some_iff.mp h
    cases heq
    exact .woken (.inr ⟨_, rfl⟩) hu
  · split at h <;> cases h
    exact .missed (.inl ⟨rfl, ‹_›⟩)
  · cases h
    exact .missed (.inr rfl)
  · cases h
    exact .fault (by simp)
  · cases h
    split
    · exact .timedOut ‹_›
    · exact .sleep (Nat.not_le.mp ‹_›)
  · split at h <;> cases h
    exact .awake ‹_›
  · cases h

private theorem linux_sound (timeoutMs : BitVec 32) : (wait timeoutMs .linux).Sound where
  entered := rfl
  waits := by
    intro k c a k' c' h
    cases linuxStep_cases h with
    | endless | timed | clock | timedOut | malformed => rfl
    | woken hc | again hc => obtain rfl | ⟨ts, rfl⟩ := hc <;> rfl
    | fault hc =>
      cases c with
      | returned b => exact absurd rfl (hc b)
      | entered | semWait | clockGettime | semTimedwait ts => rfl
  effect := by
    intro k c a k' c' h
    cases linuxStep_cases h with
    | endless | timed | clock => exact .goesOn rfl
    | again hc => obtain rfl | ⟨ts, rfl⟩ := hc <;> exact .goesOn rfl
    | woken _ hk => exact .woken rfl hk
    | timedOut | malformed | fault => exact .gaveUp rfl

private theorem macos_sound (timeoutMs : BitVec 32) : (wait timeoutMs .macos).Sound where
  entered := rfl
  waits := by
    intro k c a k' c' h
    cases macosStep_cases h with
    | endless | timed | clock | again | missed | timedOut | sleep | awake => rfl
    | woken hc => obtain rfl | ⟨d, rfl⟩ := hc <;> rfl
    | fault hc =>
      cases c with
      | returned b => exact absurd rfl (hc b)
      | entered | semWait | steadyNow | semTrywait d | pastDeadline d | sleepFor d wake => rfl
  effect := by
    intro k c a k' c' h
    cases macosStep_cases h with
    | endless | timed | clock | again | missed | sleep | awake => exact .goesOn rfl
    | woken _ hk => exact .woken rfl hk
    | timedOut | fault => exact .gaveUp rfl

theorem wait_sound (timeoutMs : BitVec 32) : ∀ p, (wait timeoutMs p).Sound
  | .linux => linux_sound timeoutMs
  | .macos => macos_sound timeoutMs

/-- An action that does not upset the wait: no call fails, and where the deadline is
on the wall clock nobody sets that clock. -/
def Undisturbed (p : Platform) : Act → Prop
  | .call a => a ≠ .fault
  | .setRealtime _ => p = .macos
  | .post | .elapse _ => True

instance (p : Platform) : DecidablePred (Undisturbed p)
  | .call a => inferInstanceAs (Decidable (a ≠ .fault))
  | .setRealtime _ => inferInstanceAs (Decidable (p = .macos))
  | .post | .elapse _ => inferInstanceAs (Decidable True)

/-- A system call comes back, and not because of a signal. -/
def answered : Act → Bool
  | .call a => a != .eintr
  | _ => false

private theorem Kernel.take_clocks (h : k.take = some k') : k'.realtime = k.realtime ∧ k'.steady = k.steady :=
  (Kernel.take_cases h).2

/-- A Linux `Wait` entered at `k0`, undisturbed: what it holds on to at `k`. -/
structure LinuxHeld (timeoutMs : BitVec 32) (k0 k : Kernel) (c : LinuxCall) : Prop where
  clocks : k.realtime + k0.steady = k0.realtime + k.steady
  later : k0.steady ≤ k.steady
  timed : c = .clockGettime → timeoutMs ≠ forever
  deadline : ∀ ts, c = .semTimedwait ts → timeoutMs ≠ forever ∧ k0.realtime + timeoutMs.toNat * 1000000 ≤ ts.nanos
  gaveUp : c = .returned false → timeoutMs ≠ forever ∧ k0.steady + timeoutMs.toNat * 1000000 ≤ k.steady

theorem LinuxHeld.call {k0 : Kernel} {c c' : LinuxCall} (h : LinuxHeld timeoutMs k0 k c)
    (hok : a ≠ .fault) (hn : ∀ ts, c = .semTimedwait ts → ts.tvNsec < 1000000000)
    (hs : linuxStep timeoutMs k c a = some (k', c')) : LinuxHeld timeoutMs k0 k' c' := by
  have hclocks := h.clocks
  have hlater := h.later
  cases linuxStep_cases hs with
  | endless => exact ⟨hclocks, hlater, by simp, by simp, by simp⟩
  | timed hne => exact ⟨hclocks, hlater, fun _ => hne, by simp, by simp⟩
  | clock =>
    refine ⟨hclocks, hlater, by simp, ?_, by simp⟩
    rintro ts ⟨rfl⟩
    refine ⟨h.timed rfl, ?_⟩
    rw [Timespec.nanos_later, Timespec.nanos_now]
    omega
  | woken _ hk =>
    obtain ⟨hreal, hsteady⟩ := Kernel.take_clocks hk
    exact ⟨by rw [hreal, hsteady]; exact hclocks, by rw [hsteady]; exact hlater, by simp, by simp, by simp⟩
  | again => exact h
  | timedOut hdue =>
    obtain ⟨hne, hdeadline⟩ := h.deadline _ rfl
    exact ⟨hclocks, hlater, by simp, by simp, fun _ => ⟨hne, by omega⟩⟩
  | malformed hbad => exact absurd (hn _ rfl) hbad
  | fault => exact absurd rfl hok

/-- A macOS `Wait` entered at `k0`, undisturbed: what it holds on to at `k`. -/
structure MacosHeld (timeoutMs : BitVec 32) (k0 k : Kernel) (c : MacosCall) : Prop where
  later : k0.steady ≤ k.steady
  timed : c = .steadyNow → timeoutMs ≠ forever
  deadline : ∀ d, c.deadline = some d → timeoutMs ≠ forever ∧ k0.steady + timeoutMs.toNat * 1000000 ≤ d
  gaveUp : c = .returned false → timeoutMs ≠ forever ∧ k0.steady + timeoutMs.toNat * 1000000 ≤ k.steady

theorem MacosHeld.call {k0 : Kernel} {c c' : MacosCall} (h : MacosHeld timeoutMs k0 k c)
    (hok : a ≠ .fault) (hs : macosStep timeoutMs k c a = some (k', c')) : MacosHeld timeoutMs k0 k' c' := by
  have hlater := h.later
  cases macosStep_cases hs with
  | endless => exact ⟨hlater, by simp, by simp [MacosCall.deadline], by simp⟩
  | timed hne => exact ⟨hlater, fun _ => hne, by simp [MacosCall.deadline], by simp⟩
  | clock =>
    refine ⟨hlater, by simp, ?_, by simp⟩
    rintro d ⟨rfl⟩
    exact ⟨h.timed rfl, by omega⟩
  | woken _ hk =>
    refine ⟨?_, by simp, by simp [MacosCall.deadline], by simp⟩
    rw [(Kernel.take_clocks hk).2]
    exact hlater
  | again => exact h
  | missed | sleep | awake => exact ⟨hlater, by simp, fun d hd => h.deadline d hd, by simp⟩
  | timedOut hdue =>
    obtain ⟨hne, hdeadline⟩ := h.deadline _ rfl
    exact ⟨hlater, by simp, by simp [MacosCall.deadline], fun _ => ⟨hne, by omega⟩⟩
  | fault => exact absurd rfl hok

/-- How many more system calls of a Linux `Wait` can be answered. -/
def LinuxCall.left : LinuxCall → Nat
  | .entered => 3
  | .clockGettime => 2
  | .semWait | .semTimedwait _ => 1
  | .returned _ => 0

/-- How many more sleeps of half a millisecond there is room for before the deadline. -/
def sleeps (deadline now : Nat) : Nat := (deadline - now + 499999) / 500000

/-- How many more system calls of a macOS `Wait` can be answered. -/
def MacosCall.left (timeoutMs : BitVec 32) (k : Kernel) : MacosCall → Nat
  | .entered => 6 * timeoutMs.toNat + 4
  | .steadyNow => 6 * timeoutMs.toNat + 3
  | .semTrywait deadline => 3 * sleeps deadline k.steady + 2
  | .pastDeadline deadline => 3 * sleeps deadline k.steady + 1
  | .sleepFor deadline wake => 3 * sleeps deadline (max wake k.steady) + 3
  | .semWait => 1
  | .returned _ => 0

private theorem sleeps_mono (deadline : Nat) {m n : Nat} (h : m ≤ n) : sleeps deadline n ≤ sleeps deadline m :=
  Nat.div_le_div_right (by omega)

private theorem sleeps_succ {deadline now : Nat} (h : now < deadline) :
    sleeps deadline (now + 500000) + 1 ≤ sleeps deadline now := by
  unfold sleeps
  omega

private theorem sleeps_timeout (now : Nat) : sleeps (now + timeoutMs.toNat * 1000000) now = 2 * timeoutMs.toNat := by
  unfold sleeps
  omega

private theorem LinuxCall.left_falls {c c' : LinuxCall} (hs : linuxStep timeoutMs k c a = some (k', c')) :
    c'.left + (if answered (.call a) then 1 else 0) ≤ c.left := by
  cases linuxStep_cases hs with
  | endless | timed | clock | timedOut | malformed => simp [left, answered]
  | woken hc => obtain rfl | ⟨ts, rfl⟩ := hc <;> simp [left, answered]
  | again => simp [answered]
  | fault hc =>
    cases c with
    | returned b => exact absurd rfl (hc b)
    | entered | semWait | clockGettime | semTimedwait ts => simp [left, answered]

private theorem MacosCall.left_falls {c c' : MacosCall} (hs : macosStep timeoutMs k c a = some (k', c')) :
    c'.left timeoutMs k' + (if answered (.call a) then 1 else 0) ≤ c.left timeoutMs k := by
  have hone : (if answered (.call a) then 1 else 0) ≤ 1 := by split <;> omega
  cases macosStep_cases hs with
  | endless | timed => simp [left, answered]
  | clock =>
    simp only [left, sleeps_timeout]
    omega
  | woken hc => obtain rfl | ⟨d, rfl⟩ := hc <;> simp [left, answered]
  | again => simp [left, answered]
  | missed | timedOut =>
    simp only [left]
    omega
  | sleep hlt =>
    have hsleep := sleeps_succ hlt
    simp only [left, Nat.max_eq_left (Nat.le_add_right ..)]
    omega
  | awake hwake =>
    simp only [left, Nat.max_eq_right hwake]
    omega
  | fault hc =>
    cases c with
    | returned b => exact absurd rfl (hc b)
    | entered | semWait | steadyNow | semTrywait d | pastDeadline d | sleepFor d wake => simp [left, answered]

private theorem MacosCall.left_later {c : MacosCall} (h : k.steady ≤ k'.steady) :
    c.left timeoutMs k' ≤ c.left timeoutMs k := by
  cases c with
  | entered | semWait | steadyNow | returned b => exact le_rfl
  | semTrywait d | pastDeadline d =>
    have hmono := sleeps_mono d h
    simp only [left]
    omega
  | sleepFor d wake =>
    have hmono := sleeps_mono d (max_le_max le_rfl h : max wake k.steady ≤ max wake k'.steady)
    simp only [left]
    omega

/-- The most system calls that a `Wait` makes, calls that a signal interrupts apart. -/
def callLimit (timeoutMs : BitVec 32) : Platform → Nat
  | .linux => 3
  | .macos => 6 * timeoutMs.toNat + 4

namespace LinuxRun
variable {w w' : Waiting (wait timeoutMs .linux)} {act : Act} {as : List Act}

/-- The deadline is one that `sem_timedwait` accepts. -/
def Normal (w : Waiting (wait timeoutMs .linux)) : Prop :=
  ∀ ts, w.call = LinuxCall.semTimedwait ts → ts.tvNsec < 1000000000

theorem Normal.step (hn : Normal w) (hs : w.step act = some w') : Normal w' ∧ act ≠ .call .einval := by
  cases act with
  | call a =>
    obtain ⟨⟨k', c'⟩, hc, rfl⟩ := Option.map_eq_some_iff.mp hs
    obtain ⟨k, c⟩ := w
    cases linuxStep_cases hc with
    | endless | timed | woken | fault | timedOut => exact ⟨(by rintro ts ⟨⟩), by simp⟩
    | clock => exact ⟨(by rintro ts ⟨rfl⟩; exact Timespec.later_normalised ..), by simp⟩
    | again => exact ⟨hn, by simp⟩
    | malformed hbad => exact absurd (hn _ rfl) hbad
  | post | elapse n | setRealtime n =>
    cases hs
    exact ⟨hn, by simp⟩

private theorem held_step {k0 : Kernel} (hn : Normal w) (h : LinuxHeld timeoutMs k0 w.kernel w.call)
    (hok : Undisturbed .linux act) (hs : w.step act = some w') : LinuxHeld timeoutMs k0 w'.kernel w'.call := by
  cases act with
  | call a =>
    obtain ⟨⟨k', c'⟩, hc, rfl⟩ := Option.map_eq_some_iff.mp hs
    exact h.call hok hn hc
  | post =>
    cases hs
    exact ⟨h.clocks, h.later, h.timed, h.deadline, h.gaveUp⟩
  | elapse n =>
    cases hs
    have hclocks := h.clocks
    have hlater := h.later
    refine ⟨?_, Nat.le_add_right_of_le hlater, h.timed, h.deadline, fun hc => ?_⟩
    · simp only [Kernel.elapse]
      omega
    · obtain ⟨hne, hle⟩ := h.gaveUp hc
      exact ⟨hne, Nat.le_add_right_of_le hle⟩
  | setRealtime n => cases hok

private theorem left_step (hs : w.step act = some w') :
    LinuxCall.left w'.call + (if answered act then 1 else 0) ≤ LinuxCall.left w.call := by
  cases act with
  | call a =>
    obtain ⟨⟨k', c'⟩, hc, rfl⟩ := Option.map_eq_some_iff.mp hs
    exact LinuxCall.left_falls hc
  | post | elapse n | setRealtime n =>
    cases hs
    simp [answered]

end LinuxRun

namespace MacosRun
variable {w w' : Waiting (wait timeoutMs .macos)} {act : Act} {as : List Act}

private theorem not_einval (hs : w.step act = some w') : act ≠ .call .einval := by
  rintro rfl
  obtain ⟨⟨k', c'⟩, hc, -⟩ := Option.map_eq_some_iff.mp hs
  obtain ⟨k, c⟩ := w
  cases macosStep_cases hc with
  | missed h => simp at h

private theorem held_step {k0 : Kernel} (h : MacosHeld timeoutMs k0 w.kernel w.call)
    (hok : Undisturbed .macos act) (hs : w.step act = some w') : MacosHeld timeoutMs k0 w'.kernel w'.call := by
  cases act with
  | call a =>
    obtain ⟨⟨k', c'⟩, hc, rfl⟩ := Option.map_eq_some_iff.mp hs
    exact h.call hok hc
  | post | setRealtime n =>
    cases hs
    exact ⟨h.later, h.timed, h.deadline, h.gaveUp⟩
  | elapse n =>
    cases hs
    refine ⟨Nat.le_add_right_of_le h.later, h.timed, h.deadline, fun hc => ?_⟩
    obtain ⟨hne, hle⟩ := h.gaveUp hc
    exact ⟨hne, Nat.le_add_right_of_le hle⟩

private theorem left_step (hs : w.step act = some w') :
    MacosCall.left timeoutMs w'.kernel w'.call + (if answered act then 1 else 0) ≤
      MacosCall.left timeoutMs w.kernel w.call := by
  cases act with
  | call a =>
    obtain ⟨⟨k', c'⟩, hc, rfl⟩ := Option.map_eq_some_iff.mp hs
    exact MacosCall.left_falls hc
  | post | elapse n | setRealtime n =>
    cases hs
    exact MacosCall.left_later (by simp [Kernel.elapse])

end MacosRun

/-- However a `Wait` and the others that use the semaphore interleave: a post is taken
exactly when `true` is returned, no deadline is malformed, the number of system calls is
bounded, and undisturbed it gives up only when the whole of a finite timeout has passed. -/
theorem wait_keeps_contract (p : Platform) (timeoutMs : BitVec 32) (k : Kernel) (as : List Act)
    (w : Waiting (wait timeoutMs p)) (he : exec Waiting.step ⟨k, (wait timeoutMs p).entered⟩ as = some w) :
    w.kernel.count + w.taken = k.count + Waiting.posts as ∧
    .call .einval ∉ as ∧ as.countP answered ≤ callLimit timeoutMs p ∧
    ((∀ act ∈ as, Undisturbed p act) → (wait timeoutMs p).result w.call = some false →
      timeoutMs ≠ forever ∧ k.steady + timeoutMs.toNat * 1000000 ≤ w.kernel.steady) := by
  refine ⟨?_, ?_⟩
  · have hcount := Waiting.exec_count (wait_sound timeoutMs p) he
    rwa [Waiting.taken_eq_zero (w := ⟨k, _⟩) (wait_sound timeoutMs p).entered, Nat.add_zero] at hcount
  cases p with
  | linux =>
    have h0 : LinuxRun.Normal ⟨k, (wait timeoutMs .linux).entered⟩ := by rintro ts ⟨⟩
    refine ⟨fun hbad => ?_, ?_, fun hok hfalse => ?_⟩
    · have hall : ∀ act ∈ as, act ≠ .call .einval := by
        refine forall_of_steps LinuxRun.Normal ?_ ?_ h0 he
        · exact fun hn hs => (hn.step hs).1
        · exact fun hn hs => (hn.step hs).2
      exact hall _ hbad rfl
    · have hrank := countP_le_measure (fun _ => True) (fun w => LinuxCall.left w.call) answered
        (fun _ _ => trivial) (fun _ hs => LinuxRun.left_step hs) trivial he
      exact (Nat.le_add_right ..).trans hrank
    · have hheld : LinuxRun.Normal w ∧ LinuxHeld timeoutMs k w.kernel w.call := by
        refine invariant (fun w => LinuxRun.Normal w ∧ LinuxHeld timeoutMs k w.kernel w.call) ?_ ⟨h0, ?_⟩
          (Meets.of_forall hok) he
        · exact fun hi hact hs => ⟨(hi.1.step hs).1, LinuxRun.held_step hi.1 hi.2 hact hs⟩
        · exact ⟨rfl, le_rfl, by rintro ⟨⟩, by rintro ts ⟨⟩, by rintro ⟨⟩⟩
      exact hheld.2.gaveUp (LinuxCall.returned_of_result hfalse)
  | macos =>
    refine ⟨fun hbad => ?_, ?_, fun hok hfalse => ?_⟩
    · have hall : ∀ act ∈ as, act ≠ .call .einval := by
        refine forall_of_steps (fun _ => True) ?_ ?_ trivial he
        · exact fun _ _ => trivial
        · exact fun _ hs => MacosRun.not_einval hs
      exact hall _ hbad rfl
    · have hrank := countP_le_measure (fun _ => True) (fun w => MacosCall.left timeoutMs w.kernel w.call) answered
        (fun _ _ => trivial) (fun _ hs => MacosRun.left_step hs) trivial he
      exact (Nat.le_add_right ..).trans hrank
    · have hheld : MacosHeld timeoutMs k w.kernel w.call := by
        refine invariant (fun w => MacosHeld timeoutMs k w.kernel w.call) ?_ ?_ (Meets.of_forall hok) he
        · exact fun hi hact hs => MacosRun.held_step hi hact hs
        · exact ⟨le_rfl, by rintro ⟨⟩, by rintro d ⟨⟩, by rintro ⟨⟩⟩
      exact hheld.gaveUp (MacosCall.returned_of_result hfalse)

/-- A millisecond polled on macOS: three looks, one of them cut short by a signal, and
a post that comes after the last. -/
theorem wait_keeps_contract_polling : ∃ as, ∃ w : Waiting (wait 1 .macos),
    exec Waiting.step ⟨⟨0, 70, 7⟩, MacosCall.entered⟩ as = some w ∧ w.kernel.count = 1 ∧
    as.countP answered ≤ 10 ∧ 7 + 1000000 ≤ w.kernel.steady := by
  let as : List Act := [.call .ok, .call .ok, .call .eagain, .call .ok, .elapse 500000, .call .ok, .call .eintr,
    .call .ok, .elapse 600000, .call .ok, .call .eagain, .call .ok, .post]
  obtain ⟨w, hw, hview⟩ := Option.map_eq_some_iff.mp
    (show (exec (Waiting.step (W := wait 1 .macos)) ⟨⟨0, 70, 7⟩, MacosCall.entered⟩ as).map
      (fun w => (w.taken, MacosCall.result w.call)) = some (0, some false) by decide +kernel)
  simp only [Prod.mk.injEq] at hview
  obtain ⟨htaken, hresult⟩ := hview
  obtain ⟨hcount, -, hcalls, htime⟩ := wait_keeps_contract .macos 1 ⟨0, 70, 7⟩ as w hw
  rw [htaken] at hcount
  exact ⟨as, w, hw, hcount, hcalls, (htime (by decide) hresult).2⟩

end Plughost.Ipc
