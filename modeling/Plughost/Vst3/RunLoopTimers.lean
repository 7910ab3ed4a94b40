import Mathlib.Data.BitVec
import Mathlib.Data.List.Nodup
import Plughost.Lib.TimerService

/-! `HostRunLoop`'s timers: a pass reschedules the timers that are due and then calls their handlers,
which may register and unregister timers in between. -/
namespace Plughost.Vst3.RunLoopTimers
open Plughost.Runs Plughost.Monitors Plughost.TimerService

/-- An `ITimerHandler`, by its address. -/
abbrev Handler := Nat

/-- A reading of the clock, or a time, in milliseconds. -/
abbrev Millis := BitVec 64

/-- A record of `timers_`. Which registration it is, and when it was last called (or registered), are
not in the source's record. -/
structure Timer where
  handler : Handler
  intervalMs : Millis
  nextFireEpochMs : Millis
  id : Nat
  since : Millis
  deriving DecidableEq, Repr

/-- A pass: the registrations it found due, and what is left of `toFire`, each handler with the
registration it was taken from. -/
structure Pass where
  due : List Nat
  toFire : List (Nat × Handler)
  deriving DecidableEq, Repr

structure RunLoop where
  timers : List Timer
  pass : Option Pass
  clock : Millis
  registrations : Nat
  deriving DecidableEq, Repr

inductive Act where
  /-- The clock goes on to a later reading. -/
  | advance (reading : Millis)
  /-- `none` is a null pointer. -/
  | registerTimer (handler : Option Handler) (milliseconds : Millis)
  | unregisterTimer (handler : Option Handler)
  /-- `HandleTimersAndGetNextFireMs` is entered, and collects what is due. -/
  | handleTimers
  /-- The next entry of `toFire`. -/
  | fire
  /-- What is left of the call after the loop. -/
  | getNextFireMs
  deriving DecidableEq, Repr

def kNoTimers : Millis := -1

namespace Timer

def due (now : Millis) (t : Timer) : Bool := decide (t.nextFireEpochMs ≤ now)

/-- The schedule of the next fire. -/
def refresh (now : Millis) (t : Timer) : Timer :=
  if t.due now then { t with nextFireEpochMs := now + t.intervalMs } else t

@[simp] theorem refresh_id (now : Millis) (t : Timer) : (t.refresh now).id = t.id := by
  unfold refresh
  split <;> rfl

@[simp] theorem refresh_handler (now : Millis) (t : Timer) : (t.refresh now).handler = t.handler := by
  unfold refresh
  split <;> rfl

@[simp] theorem refresh_intervalMs (now : Millis) (t : Timer) : (t.refresh now).intervalMs = t.intervalMs := by
  unfold refresh
  split <;> rfl

@[simp] theorem refresh_since (now : Millis) (t : Timer) : (t.refresh now).since = t.since := by
  unfold refresh
  split <;> rfl

/-- `onTimer` is called. -/
def fired (id : Nat) (clock : Millis) (t : Timer) : Timer := if t.id = id then { t with since := clock } else t

private theorem fired_of_ne {id : Nat} {clock : Millis} {t : Timer} (hne : t.id ≠ id) :
    t.fired id clock = t := if_neg hne

@[simp] theorem fired_id (id : Nat) (clock : Millis) (t : Timer) : (t.fired id clock).id = t.id := by
  unfold fired
  split <;> rfl

/-- The reading from which the next fire was scheduled. -/
def scheduledAt (t : Timer) : Millis := t.nextFireEpochMs - t.intervalMs

/-- How far the last call came behind that reading. -/
def lag (t : Timer) : Nat := t.since.toNat - t.scheduledAt.toNat

end Timer

namespace RunLoop

def initial (clock : Millis) : RunLoop := ⟨[], none, clock, 0⟩

variable (s : RunLoop)

def collect : Pass :=
  let due := s.timers.filter (Timer.due s.clock)
  ⟨due.map Timer.id, due.map fun t => (t.id, t.handler)⟩

/-- The soonest fire, or the largest number. -/
def soonest : Millis :=
  s.timers.foldl (fun soonest t => if t.nextFireEpochMs < soonest then t.nextFireEpochMs else soonest) (-1)

/-- The return value, after the loop. -/
def nextFireMs : Millis :=
  if s.timers.isEmpty then kNoTimers
  else if s.soonest ≤ s.clock then 0
  else s.soonest - s.clock

def step : Act → Option (RunLoop × List (Event Handler))
  | .advance reading => if s.clock ≤ reading then some ({ s with clock := reading }, []) else none
  | .registerTimer none _ | .unregisterTimer none => some (s, [])
  | .registerTimer (some h) milliseconds =>
    if milliseconds = 0 then some (s, [])
    else some ({ s with
      timers := s.timers ++ [⟨h, milliseconds, s.clock + milliseconds, s.registrations, s.clock⟩]
      registrations := s.registrations + 1 }, [.registered h milliseconds.toNat s.clock.toNat])
  | .unregisterTimer (some h) =>
    if s.timers.any fun t => t.handler == h then
      some ({ s with timers := s.timers.filter fun t => t.handler ≠ h }, [.unregistered h])
    else some (s, [])
  | .handleTimers =>
    if s.pass.isSome then none
    else if s.timers.isEmpty then some (s, [.waits kNoTimers.toNat s.clock.toNat])
    else some ({ s with timers := s.timers.map (Timer.refresh s.clock), pass := some s.collect },
      [.entered s.clock.toNat])
  | .fire => match s.pass with
    | some ⟨due, (id, h) :: toFire⟩ =>
      if s.timers.any fun t => t.handler == h then
        some ({ s with timers := s.timers.map (Timer.fired id s.clock), pass := some ⟨due, toFire⟩ },
          [.called h s.clock.toNat])
      else some ({ s with pass := some ⟨due, toFire⟩ }, [])
    | _ => none
  | .getNextFireMs => match s.pass with
    | some ⟨_, []⟩ => some ({ s with pass := none }, [.waits s.nextFireMs.toNat s.clock.toNat])
    | _ => none

end RunLoop

/-- The calls and the waits so far are those of a service of periodic timers. -/
def Served (p : RunLoop × List (Event Handler)) : Prop := ∃ ts, Admits (Serves kNoTimers.toNat) [] p.2 ts

namespace RunLoop

/-- Where the handler of an entry of `toFire` has a timer, the entry's own one is still registered. -/
def Backed (s : RunLoop) (entry : Nat × Handler) : Prop :=
  (∃ t ∈ s.timers, t.handler = entry.2) → ∃ t ∈ s.timers, t.id = entry.1

instance (s : RunLoop) : DecidablePred s.Backed := fun entry =>
  inferInstanceAs (Decidable ((∃ t ∈ s.timers, t.handler = entry.2) → ∃ t ∈ s.timers, t.id = entry.1))

/-- The deadlines fit the clock's 64 bits, and are not mistaken for `kNoTimers`; a pass is as late for a
timer that it finds due as the timer's last call was in its own pass, or later; and the entries that the
pass comes to are backed. -/
def Permits (s : RunLoop) : Act → Prop
  | .registerTimer (some _) milliseconds => milliseconds ≠ 0 → s.clock.toNat + milliseconds.toNat < 2 ^ 64
  | .handleTimers => ∀ t ∈ s.timers, t.due s.clock →
    s.clock.toNat + t.intervalMs.toNat < 2 ^ 64 ∧ t.lag ≤ s.clock.toNat - t.nextFireEpochMs.toNat
  | .fire => ∀ entry ∈ (s.pass.elim [] Pass.toFire).head?, s.Backed entry
  | .getNextFireMs => s.clock = 0 → s.timers ≠ [] → ∃ t ∈ s.timers, t.nextFireEpochMs ≠ kNoTimers
  | .advance _ | .registerTimer none _ | .unregisterTimer _ => True

instance (s : RunLoop) : (act : Act) → Decidable (Permits s act)
  | .registerTimer (some _) milliseconds =>
    inferInstanceAs (Decidable (milliseconds ≠ 0 → s.clock.toNat + milliseconds.toNat < 2 ^ 64))
  | .handleTimers => inferInstanceAs (Decidable (∀ t ∈ s.timers, t.due s.clock →
      s.clock.toNat + t.intervalMs.toNat < 2 ^ 64 ∧ t.lag ≤ s.clock.toNat - t.nextFireEpochMs.toNat))
  | .fire => Option.decidableForallMem (p := s.Backed) (s.pass.elim [] Pass.toFire).head?
  | .getNextFireMs =>
    inferInstanceAs (Decidable (s.clock = 0 → s.timers ≠ [] → ∃ t ∈ s.timers, t.nextFireEpochMs ≠ kNoTimers))
  | .advance _ | .registerTimer none _ | .unregisterTimer _ => inferInstanceAs (Decidable True)

end RunLoop

/-- The timer found due by the pass. -/
def Pass.found (p : Pass) (t : Timer) : Bool := decide (t.id ∈ p.due)

/-- The pass is through with the timer. -/
def Pass.through (p : Pass) (t : Timer) : Bool := p.found t && decide (t.id ∉ p.toFire.map Prod.fst)

/-- What a record stands for. -/
def Timer.periodic (pass : Option Pass) (t : Timer) : Periodic Handler where
  handler := t.handler
  interval := t.intervalMs.toNat
  since := t.since.toNat
  deadline := t.nextFireEpochMs.toNat
  due := pass.any (·.found t)
  calls := if pass.any (·.through t) then 1 else 0

/-- The entries of `toFire` are from timers the pass found due, each from one; and one whose timer is
still registered has that timer's handler, and the timer's interval is over. -/
structure Pass.Sound (s : RunLoop) (p : Pass) : Prop where
  due : ∀ id ∈ p.due, id < s.registrations
  nodup : (p.toFire.map Prod.fst).Nodup
  found : ∀ entry ∈ p.toFire, entry.1 ∈ p.due
  own : ∀ entry ∈ p.toFire, ∀ t ∈ s.timers, t.id = entry.1 →
    t.handler = entry.2 ∧ t.since.toNat + t.intervalMs.toNat ≤ s.clock.toNat

namespace RunLoop
variable {s t : RunLoop} {act : Act} {h : Handler} {id : Nat} {es : List (Event Handler)}

def periodics (s : RunLoop) : List (Periodic Handler) := s.timers.map (Timer.periodic s.pass)

structure Inv (s : RunLoop) : Prop where
  nodup : (s.timers.map Timer.id).Nodup
  id : ∀ t ∈ s.timers, t.id < s.registrations
  schedule : ∀ t ∈ s.timers, t.intervalMs ≤ t.nextFireEpochMs
  pass : ∀ p, s.pass = some p → p.Sound s

theorem inv_initial (clock : Millis) : Inv (initial clock) where
  nodup := List.nodup_nil
  id := List.forall_mem_nil _
  schedule := List.forall_mem_nil _
  pass := by
    intro p hp
    cases hp

/-- A timer registered now was not found by the pass. -/
private theorem periodic_start (hinv : Inv s) {milliseconds : Millis}
    (hfits : s.clock.toNat + milliseconds.toNat < 2 ^ 64) :
    Timer.periodic s.pass ⟨h, milliseconds, s.clock + milliseconds, s.registrations, s.clock⟩ =
      .start h milliseconds.toNat s.clock.toNat := by
  have hsum : (s.clock + milliseconds).toNat = s.clock.toNat + milliseconds.toNat := by
    rw [BitVec.toNat_add, Nat.mod_eq_of_lt hfits]
  unfold Timer.periodic Periodic.start
  rw [hsum]
  cases hp : s.pass with
  | none => rfl
  | some p =>
    have hnew : s.registrations ∉ p.due := fun hmem => absurd ((hinv.pass p hp).due _ hmem) (Nat.lt_irrefl _)
    simp only [Option.any_some, Pass.through, Pass.found, hnew, decide_false, Bool.false_and]
    rfl

private theorem inv_register (hinv : Inv s) {milliseconds : Millis}
    (hfits : s.clock.toNat + milliseconds.toNat < 2 ^ 64) :
    Inv { s with
      timers := s.timers ++ [⟨h, milliseconds, s.clock + milliseconds, s.registrations, s.clock⟩]
      registrations := s.registrations + 1 } where
  nodup := by
    rw [List.map_append, List.nodup_append]
    refine ⟨hinv.nodup, List.nodup_singleton _, ?_⟩
    intro x hx y hy
    obtain ⟨t, ht, rfl⟩ := List.mem_map.mp hx
    rw [List.mem_singleton.mp hy]
    exact Nat.ne_of_lt (hinv.id t ht)
  id := by
    intro t ht
    rcases List.mem_append.mp ht with hold | hnew
    · exact Nat.lt_succ_of_lt (hinv.id t hold)
    · rw [List.mem_singleton.mp hnew]
      exact Nat.lt_succ_self _
  schedule := by
    intro t ht
    rcases List.mem_append.mp ht with hold | hnew
    · exact hinv.schedule t hold
    · rw [List.mem_singleton.mp hnew, BitVec.le_def, BitVec.toNat_add, Nat.mod_eq_of_lt hfits]
      exact Nat.le_add_left _ _
  pass := by
    intro p hp
    obtain ⟨hdue, hnodup, hfound, hown⟩ := hinv.pass p hp
    refine ⟨fun id hid => Nat.lt_succ_of_lt (hdue id hid), hnodup, hfound, ?_⟩
    intro entry hentry t ht hid
    rcases List.mem_append.mp ht with hold | hnew
    · exact hown entry hentry t hold hid
    · rw [List.mem_singleton.mp hnew] at hid
      exact absurd (hid ▸ hdue _ (hfound entry hentry)) (Nat.lt_irrefl _)

/-- Fewer timers. -/
private theorem inv_filter (hinv : Inv s) (keep : Timer → Bool) : Inv { s with timers := s.timers.filter keep } where
  nodup := hinv.nodup.sublist (List.Sublist.map Timer.id List.filter_sublist)
  id := fun t ht => hinv.id t (List.mem_of_mem_filter ht)
  schedule := fun t ht => hinv.schedule t (List.mem_of_mem_filter ht)
  pass := by
    intro p hp
    obtain ⟨hdue, hnodup, hfound, hown⟩ := hinv.pass p hp
    exact ⟨hdue, hnodup, hfound, fun entry hentry t ht => hown entry hentry t (List.mem_of_mem_filter ht)⟩

private theorem periodics_filter (h : Handler) :
    ({ s with timers := s.timers.filter fun t => t.handler ≠ h } : RunLoop).periodics =
      s.periodics.filter (·.handler ≠ h) := by
  unfold periodics
  rw [List.filter_map]
  rfl

/-- The pass's `due` ids are those of the timers whose time has come. -/
private theorem mem_collect_due (hinv : Inv s) {t : Timer} (ht : t ∈ s.timers) :
    t.id ∈ s.collect.due ↔ t.due s.clock := by
  unfold collect
  rw [List.mem_map]
  constructor
  · rintro ⟨u, hu, hid⟩
    obtain ⟨hmem, hdue⟩ := List.mem_filter.mp hu
    rwa [← List.inj_on_of_nodup_map hinv.nodup hmem ht hid]
  · intro hdue
    exact ⟨t, List.mem_filter.mpr ⟨ht, hdue⟩, rfl⟩

private theorem collect_toFire : s.collect.toFire.map Prod.fst = s.collect.due := by
  unfold collect
  rw [List.map_map]
  rfl

private theorem periodic_enter (hinv : Inv s) {t : Timer} (ht : t ∈ s.timers)
    (hfits : t.due s.clock → s.clock.toNat + t.intervalMs.toNat < 2 ^ 64) :
    (t.refresh s.clock).periodic (some s.collect) = (t.periodic s.pass).enter s.clock.toNat := by
  have hfound : s.collect.found (t.refresh s.clock) = t.due s.clock := by
    rw [Pass.found, Timer.refresh_id, Bool.eq_iff_iff, decide_eq_true_iff]
    exact mem_collect_due hinv ht
  have hthrough : s.collect.through (t.refresh s.clock) = false := by
    rw [Pass.through, collect_toFire, Pass.found]
    simp
  unfold Timer.periodic Periodic.enter
  simp only [Option.any_some, hfound, hthrough, Bool.false_eq_true, ↓reduceIte]
  unfold Timer.refresh
  split
  · rename_i hdue
    have hsum : (s.clock + t.intervalMs).toNat = s.clock.toNat + t.intervalMs.toNat := by
      rw [BitVec.toNat_add, Nat.mod_eq_of_lt (hfits hdue)]
    have hnow : t.nextFireEpochMs.toNat ≤ s.clock.toNat := of_decide_eq_true hdue
    rw [hsum, if_pos hnow, hdue, decide_eq_true hnow]
  · rename_i hdue
    have hnow : ¬ t.nextFireEpochMs.toNat ≤ s.clock.toNat := fun hle => hdue (decide_eq_true hle)
    rw [if_neg hnow, Bool.eq_false_iff.mpr hdue, decide_eq_false hnow]

/-- What the lag of a timer that is due says of its interval. -/
private theorem elapsed_of_lag (hinv : Inv s) {t : Timer} (ht : t ∈ s.timers) (hdue : t.due s.clock)
    (hlag : t.lag ≤ s.clock.toNat - t.nextFireEpochMs.toNat) :
    t.since.toNat + t.intervalMs.toNat ≤ s.clock.toNat := by
  have hnow : t.nextFireEpochMs.toNat ≤ s.clock.toNat := of_decide_eq_true hdue
  have hle : t.intervalMs.toNat ≤ t.nextFireEpochMs.toNat := hinv.schedule t ht
  have hscheduled : t.scheduledAt.toNat = t.nextFireEpochMs.toNat - t.intervalMs.toNat :=
    BitVec.toNat_sub_of_le (hinv.schedule t ht)
  unfold Timer.lag at hlag
  omega

private theorem inv_enter (hinv : Inv s) (hpermits : Permits s .handleTimers) :
    Inv { s with timers := s.timers.map (Timer.refresh s.clock), pass := some s.collect } where
  nodup := by
    have hsame : Timer.id ∘ Timer.refresh s.clock = Timer.id := funext fun t => Timer.refresh_id s.clock t
    rw [List.map_map, hsame]
    exact hinv.nodup
  id := by
    refine List.forall_mem_map.mpr fun t ht => ?_
    rw [Timer.refresh_id]
    exact hinv.id t ht
  schedule := by
    refine List.forall_mem_map.mpr fun t ht => ?_
    unfold Timer.refresh
    split
    · rename_i hdue
      rw [BitVec.le_def, BitVec.toNat_add, Nat.mod_eq_of_lt (hpermits t ht hdue).1]
      exact Nat.le_add_left _ _
    · exact hinv.schedule t ht
  pass := by
    intro p hp
    cases hp
    refine ⟨?_, ?_, ?_, ?_⟩
    · exact List.forall_mem_map.mpr fun t ht => hinv.id t (List.mem_of_mem_filter ht)
    · rw [collect_toFire]
      exact hinv.nodup.sublist (List.Sublist.map Timer.id List.filter_sublist)
    · intro entry hentry
      rw [← collect_toFire]
      exact List.mem_map_of_mem hentry
    · intro entry hentry
      obtain ⟨u, hu, rfl⟩ := List.mem_map.mp hentry
      obtain ⟨hmem, hdue⟩ := List.mem_filter.mp hu
      refine List.forall_mem_map.mpr fun t ht hid => ?_
      rw [Timer.refresh_id] at hid
      obtain rfl : t = u := List.inj_on_of_nodup_map hinv.nodup ht hmem hid
      rw [Timer.refresh_handler, Timer.refresh_since, Timer.refresh_intervalMs]
      exact ⟨rfl, elapsed_of_lag hinv hmem hdue (hpermits t hmem hdue).2⟩

private theorem periodics_enter (hinv : Inv s) (hpermits : Permits s .handleTimers) :
    ({ s with timers := s.timers.map (Timer.refresh s.clock), pass := some s.collect } : RunLoop).periodics =
      s.periodics.map (.enter s.clock.toNat) := by
  unfold periodics
  rw [List.map_map, List.map_map]
  exact List.map_congr_left fun t ht => periodic_enter hinv ht fun hdue => (hpermits t ht hdue).1

variable {due : List Nat} {toFire : List (Nat × Handler)}

private theorem periodic_of_ne {t : Timer} (hne : t.id ≠ id) :
    t.periodic (some ⟨due, toFire⟩) = t.periodic (some ⟨due, (id, h) :: toFire⟩) := by
  have hthrough : Pass.through ⟨due, toFire⟩ t = Pass.through ⟨due, (id, h) :: toFire⟩ t := by
    have hmem : t.id ∉ toFire.map Prod.fst ↔ t.id ∉ ((id, h) :: toFire).map Prod.fst := by
      rw [List.map_cons, List.mem_cons, or_iff_right hne]
    exact congrArg (decide (t.id ∈ due) && ·) (decide_eq_decide.mpr hmem)
  unfold Timer.periodic
  rw [Option.any_some, Option.any_some, Option.any_some, Option.any_some, hthrough]
  rfl

private theorem periodic_fired {t : Timer} (hid : t.id = id) (hdue : id ∈ due) (hnot : id ∉ toFire.map Prod.fst)
    (clock : Millis) : (t.fired id clock).periodic (some ⟨due, toFire⟩) =
      (t.periodic (some ⟨due, (id, h) :: toFire⟩)).call clock.toNat := by
  subst hid
  rw [Timer.fired, if_pos rfl]
  unfold Timer.periodic Periodic.call
  simp only [Option.any_some, Pass.through, Pass.found, hdue, hnot, List.map_cons, List.mem_cons_self,
    not_true_eq_false, not_false_eq_true, decide_true, decide_false, Bool.and_true, Bool.and_false,
    Bool.false_eq_true, ↓reduceIte]

private theorem sound_tail (hsound : Pass.Sound s ⟨due, (id, h) :: toFire⟩) : Pass.Sound s ⟨due, toFire⟩ where
  due := hsound.due
  nodup := (List.nodup_cons.mp hsound.nodup).2
  found := fun entry hentry => hsound.found entry (List.mem_cons_of_mem _ hentry)
  own := fun entry hentry => hsound.own entry (List.mem_cons_of_mem _ hentry)

private theorem inv_fire (hinv : Inv s) (hpass : s.pass = some ⟨due, (id, h) :: toFire⟩) :
    Inv { s with timers := s.timers.map (Timer.fired id s.clock), pass := some ⟨due, toFire⟩ } where
  nodup := by
    have hsame : Timer.id ∘ Timer.fired id s.clock = Timer.id := funext fun t => Timer.fired_id id s.clock t
    rw [List.map_map, hsame]
    exact hinv.nodup
  id := by
    refine List.forall_mem_map.mpr fun t ht => ?_
    rw [Timer.fired_id]
    exact hinv.id t ht
  schedule := by
    refine List.forall_mem_map.mpr fun t ht => ?_
    unfold Timer.fired
    split
    · exact hinv.schedule t ht
    · exact hinv.schedule t ht
  pass := by
    intro p hp
    cases hp
    have hsound := hinv.pass _ hpass
    obtain ⟨hdue, hnodup, hfound, hown⟩ := sound_tail hsound
    refine ⟨hdue, hnodup, hfound, fun entry hentry => List.forall_mem_map.mpr fun t ht hid => ?_⟩
    have hne : t.id ≠ id := by
      rintro rfl
      rw [Timer.fired_id] at hid
      have hmem := List.mem_map_of_mem (f := Prod.fst) hentry
      exact (List.nodup_cons.mp hsound.nodup).1 (hid ▸ hmem)
    rw [Timer.fired_of_ne hne] at hid ⊢
    exact hown entry hentry t ht hid

/-- The call of an entry's handler is a call of the entry's own timer. -/
private theorem fire_served (hinv : Inv s) (hpass : s.pass = some ⟨due, (id, h) :: toFire⟩)
    (hown : ∃ t ∈ s.timers, t.id = id) :
    Serves kNoTimers.toNat s.periodics (.called h s.clock.toNat)
      ({ s with
        timers := s.timers.map (Timer.fired id s.clock)
        pass := some ⟨due, toFire⟩ } : RunLoop).periodics := by
  obtain ⟨u, hu, rfl⟩ := hown
  have hsound := hinv.pass _ hpass
  obtain ⟨rfl, helapsed⟩ := hsound.own (u.id, h) List.mem_cons_self u hu rfl
  obtain ⟨front, back, htimers⟩ := List.append_of_mem hu
  have hnodup := hinv.nodup
  rw [htimers, List.map_append, List.map_cons, List.nodup_append] at hnodup
  obtain ⟨-, hback, hfront⟩ := hnodup
  have hkeep : ∀ t : Timer, t.id ≠ u.id →
      (t.fired u.id s.clock).periodic (some ⟨due, toFire⟩) = t.periodic s.pass := by
    intro t hne
    rw [Timer.fired_of_ne hne, hpass, periodic_of_ne hne]
  have hmoved : (u.fired u.id s.clock).periodic (some ⟨due, toFire⟩) = (u.periodic s.pass).call s.clock.toNat := by
    rw [hpass]
    exact periodic_fired rfl (hsound.found _ List.mem_cons_self) (List.nodup_cons.mp hsound.nodup).1 s.clock
  have hfront' : front.map (Timer.periodic (some ⟨due, toFire⟩) ∘ Timer.fired u.id s.clock) =
      front.map (Timer.periodic s.pass) :=
    List.map_congr_left fun t ht => hkeep t (hfront _ (List.mem_map_of_mem ht) _ List.mem_cons_self)
  have hback' : back.map (Timer.periodic (some ⟨due, toFire⟩) ∘ Timer.fired u.id s.clock) =
      back.map (Timer.periodic s.pass) := by
    refine List.map_congr_left fun t ht => hkeep t ?_
    rintro heq
    exact (List.nodup_cons.mp hback).1 (heq ▸ List.mem_map_of_mem ht)
  unfold periodics
  dsimp only
  rw [List.map_map, htimers, List.map_append, List.map_append, List.map_cons, List.map_cons, Function.comp_apply,
    hmoved, hfront', hback']
  exact .called _ _ (u.periodic s.pass) _ helapsed

private theorem foldl_soonest (ts : List Timer) (m : Millis) :
    let soonest :=
      ts.foldl (fun soonest t => if t.nextFireEpochMs < soonest then t.nextFireEpochMs else soonest) m
    soonest ≤ m ∧ ∀ t ∈ ts, soonest ≤ t.nextFireEpochMs := by
  induction ts generalizing m with
  | nil => exact ⟨BitVec.le_refl m, List.forall_mem_nil _⟩
  | cons t ts ih =>
    obtain ⟨hle, hall⟩ := ih (if t.nextFireEpochMs < m then t.nextFireEpochMs else m)
    have hfirst : (if t.nextFireEpochMs < m then t.nextFireEpochMs else m) ≤ m ∧
        (if t.nextFireEpochMs < m then t.nextFireEpochMs else m) ≤ t.nextFireEpochMs := by
      split
      · rename_i hlt
        exact ⟨BitVec.le_of_lt hlt, BitVec.le_refl _⟩
      · rename_i hge
        exact ⟨BitVec.le_refl _, BitVec.not_lt.mp hge⟩
    exact ⟨BitVec.le_trans hle hfirst.1, List.forall_mem_cons.mpr ⟨BitVec.le_trans hle hfirst.2, hall⟩⟩

private theorem soonest_le {t : Timer} (ht : t ∈ s.timers) : s.soonest ≤ t.nextFireEpochMs :=
  (foldl_soonest s.timers (-1)).2 t ht

private theorem toNat_nextFireMs (hne : s.timers ≠ []) : s.nextFireMs.toNat = s.soonest.toNat - s.clock.toNat := by
  unfold nextFireMs
  rw [if_neg (by rwa [List.isEmpty_iff])]
  split
  · rename_i hle
    rw [Nat.sub_eq_zero_of_le hle]
    rfl
  · rename_i hgt
    exact BitVec.toNat_sub_of_le (BitVec.le_of_lt (BitVec.not_le.mp hgt))

/-- The wait that is returned. -/
private theorem nextFireMs_served (hpass : s.pass = some ⟨due, []⟩) (hpermits : Permits s .getNextFireMs) :
    Serves kNoTimers.toNat s.periodics (.waits s.nextFireMs.toNat s.clock.toNat)
      ({ s with pass := none } : RunLoop).periodics := by
  have hleave : ({ s with pass := none } : RunLoop).periodics = s.periodics.map .leave := by
    unfold periodics
    rw [List.map_map]
    rfl
  rw [hleave]
  refine .waits _ _ _ (List.forall_mem_map.mpr fun t _ hdue => ?_) ?_ (List.forall_mem_map.mpr fun t ht => ?_)
  · have hthrough : s.pass.any (·.through t) = true := by
      replace hdue : s.pass.any (·.found t) = true := hdue
      rw [hpass, Option.any_some] at hdue ⊢
      rw [Pass.through, hdue]
      rfl
    exact if_pos hthrough
  · constructor
    · intro hwait
      by_contra hne
      have hts : s.timers ≠ [] := fun hnil => hne (List.map_eq_nil_iff.mpr hnil)
      have hmax : kNoTimers.toNat = 2 ^ 64 - 1 := rfl
      have hbound := s.soonest.isLt
      rw [toNat_nextFireMs hts, hmax] at hwait
      have hclock : s.clock.toNat = 0 := by omega
      obtain ⟨t, ht, hearly⟩ := hpermits (BitVec.eq_of_toNat_eq hclock) hts
      have hle : s.soonest.toNat ≤ t.nextFireEpochMs.toNat := soonest_le ht
      have hlast : t.nextFireEpochMs.toNat = 2 ^ 64 - 1 := by
        have := t.nextFireEpochMs.isLt
        omega
      exact hearly (BitVec.eq_of_toNat_eq hlast)
    · intro hnil
      rw [nextFireMs, List.map_eq_nil_iff.mp hnil]
      rfl
  · rw [toNat_nextFireMs (List.ne_nil_of_mem ht)]
    exact Nat.sub_le_sub_right (soonest_le ht) _

private theorem step_served (hinv : Inv s) (hpermits : Permits s act) (hstep : s.step act = some (t, es)) :
    ∃ ts, Admits (Serves kNoTimers.toNat) s.periodics es ts ∧ ts = t.periodics ∧ Inv t := by
  have hquiet : ∀ ts : List (Periodic Handler), Admits (Serves kNoTimers.toNat) ts [] ts := fun ts => .nil ts
  cases act with
  | advance reading =>
    obtain ⟨hle, hout⟩ := Option.ite_none_right_eq_some.mp hstep
    cases hout
    refine ⟨_, hquiet _, rfl, hinv.nodup, hinv.id, hinv.schedule, fun p hp => ?_⟩
    obtain ⟨hdue, hnodup, hfound, hown⟩ := hinv.pass p hp
    refine ⟨hdue, hnodup, hfound, fun entry hentry t ht hid => ?_⟩
    exact ⟨(hown entry hentry t ht hid).1, Nat.le_trans (hown entry hentry t ht hid).2 hle⟩
  | registerTimer handler milliseconds =>
    cases handler with
    | none =>
      cases hstep
      exact ⟨_, hquiet _, rfl, hinv⟩
    | some h =>
      rw [step] at hstep
      split at hstep
      · cases hstep
        exact ⟨_, hquiet _, rfl, hinv⟩
      · rename_i hpositive
        cases hstep
        have hfits := hpermits hpositive
        refine ⟨_, admits_one (.registered ..), ?_, inv_register hinv hfits⟩
        unfold periodics
        dsimp only
        rw [List.map_append, List.map_singleton, periodic_start hinv hfits]
  | unregisterTimer handler =>
    cases handler with
    | none =>
      cases hstep
      exact ⟨_, hquiet _, rfl, hinv⟩
    | some h =>
      rw [step] at hstep
      split at hstep
      · cases hstep
        exact ⟨_, admits_one (.unregistered _ h), (periodics_filter h).symm, inv_filter hinv _⟩
      · cases hstep
        exact ⟨_, hquiet _, rfl, hinv⟩
  | handleTimers =>
    rw [step] at hstep
    split at hstep
    · cases hstep
    · split at hstep
      · rename_i hempty
        cases hstep
        have hnil : s.periodics = [] := List.map_eq_nil_iff.mpr (List.isEmpty_iff.mp hempty)
        refine ⟨s.periodics, admits_one ?_, rfl, hinv⟩
        rw [hnil]
        exact .waits [] _ _ (List.forall_mem_nil _) ⟨fun _ => rfl, fun _ => rfl⟩ (List.forall_mem_nil _)
      · cases hstep
        exact ⟨_, admits_one (.entered ..), (periodics_enter hinv hpermits).symm, inv_enter hinv hpermits⟩
  | fire =>
    rw [step] at hstep
    split at hstep
    · rename_i due id h toFire hpass
      split at hstep
      · rename_i hany
        cases hstep
        have hregistered : ∃ t ∈ s.timers, t.handler = h := by simpa using hany
        rw [Permits, hpass] at hpermits
        exact ⟨_, admits_one (fire_served hinv hpass (hpermits (id, h) rfl hregistered)), rfl, inv_fire hinv hpass⟩
      · rename_i hnone
        cases hstep
        have hsound := hinv.pass _ hpass
        have hne : ∀ t ∈ s.timers, t.id ≠ id := by
          rintro t ht rfl
          have hhandler := (hsound.own (t.id, h) List.mem_cons_self t ht rfl).1
          exact hnone (List.any_eq_true.mpr ⟨t, ht, beq_iff_eq.mpr hhandler⟩)
        refine ⟨_, hquiet _, ?_, hinv.nodup, hinv.id, hinv.schedule, fun p hp => ?_⟩
        · unfold periodics
          rw [hpass]
          exact (List.map_congr_left fun t ht => periodic_of_ne (hne t ht)).symm
        · cases hp
          obtain ⟨hdue, hnodup, hfound, hown⟩ := sound_tail hsound
          exact ⟨hdue, hnodup, hfound, hown⟩
    · cases hstep
  | getNextFireMs =>
    rw [step] at hstep
    split at hstep
    · rename_i due hpass
      cases hstep
      refine ⟨_, admits_one (nextFireMs_served hpass hpermits), rfl, hinv.nodup, hinv.id, hinv.schedule, ?_⟩
      intro p hp
      cases hp
    · cases hstep

/-- In a run that keeps to `Permits` the calls and the waits are those of a service of periodic timers. -/
theorem served_of_meets {clock : Millis} {acts : List Act}
    (hm : Meets (recorded step) (fun q act => Permits q.1 act) (initial clock, []) acts) :
    Always (recorded step) Served (initial clock, []) acts :=
  admitted_of_meets (fun s ts => ts = s.periodics ∧ Inv s)
    (fun ⟨hts, hinv⟩ hpermits hstep => hts ▸ step_served hinv hpermits hstep) ⟨rfl, inv_initial clock⟩ hm

/-- A handler with two timers; its callback takes off another one that the pass has still to call, and
registers a third. -/
theorem served_two_timers : Always (recorded step) Served (initial 1000, [])
    [.registerTimer (some 7) 10, .registerTimer (some 7) 25, .registerTimer (some 8) 10, .advance 1010, .handleTimers,
      .fire, .unregisterTimer (some 8), .registerTimer (some 9) 5, .fire, .getNextFireMs] :=
  served_of_meets (meets_of_checks (by decide +kernel))

/-- The first callback restarts the timer of the second handler, which is called at once. -/
theorem served_fails : ¬ Always (recorded step) Served (initial 1000, [])
    [.registerTimer (some 7) 10, .registerTimer (some 8) 10, .advance 1010, .handleTimers, .fire,
      .unregisterTimer (some 8), .registerTimer (some 8) 10, .fire] := by
  intro h
  obtain ⟨p, hp, hevents⟩ := Option.map_eq_some_iff.mp (show (exec (recorded step) (initial 1000, [])
    [.registerTimer (some 7) 10, .registerTimer (some 8) 10, .advance 1010, .handleTimers, .fire,
      .unregisterTimer (some 8), .registerTimer (some 8) 10, .fire]).map Prod.snd =
    some ([.registered 7 10 1000, .registered 8 10 1000, .entered 1010, .called 7 1010] ++
      [.unregistered 8, .registered 8 10 1010, .called 8 1010]) by decide +kernel)
  obtain ⟨ts, hts⟩ := h.end hp
  rw [hevents] at hts
  obtain ⟨us, -, hrestarted⟩ := admits_append.mp hts
  exact not_called_early (by decide) hrestarted

end RunLoop
end Plughost.Vst3.RunLoopTimers
