import Plughost.Vst3.EditRecord

/-! How a `HostComponentHandler` ends: the drain thread returns with an empty queue,
and once notified it does return. -/
namespace Plughost.Vst3.EditDrain
open Plughost.Runs Plughost.BoundedQueue
variable {E V : Type}

/-- Inside the locked scope of `DrainLoop`. -/
def DrainPc.inside : DrainPc V → Bool
  | .predStop | .predQueue | .park | .checkEmpty | .checkStop | .pop | .unlock _ => true
  | .lock | .parked | .reacquire | .dispatch _ | .returned => false

/-- Inside the locked scope of `performEdit`. -/
def EditorPc.inside : EditorPc V → Bool
  | .push _ | .unlock => true
  | .outside | .lock _ | .notifyOne => false

/-- The drain thread found the queue empty and has not released the mutex for another round. -/
def DrainPc.foundEmpty : DrainPc V → Bool
  | .checkStop | .unlock .return | .returned => true
  | _ => false

namespace Handler

/-- `performEdit` is called through a counted reference, which the caller holds
for the whole call; `release` runs the destructor when the last one is gone. -/
def Referenced (s : Handler E V) : Act E V → Prop
  | .performEdit _ _ => s.dtor = .alive
  | .destroy => ∀ e, s.editor e = .outside
  | .editor _ | .drain | .dtor => True

/-- `queueMutex_` is held by the thread inside its scope, and by no other. -/
structure Exclusion (s : Handler E V) : Prop where
  drain : s.drain.inside = true ↔ s.queueMutex = some .drain
  editor : ∀ e, (s.editor e).inside = true ↔ s.queueMutex = some (.editor e)

namespace Exclusion
variable {s t : Handler E V}

theorem initial : Exclusion (Handler.initial : Handler E V) :=
  ⟨by simp [Handler.initial, DrainPc.inside], by simp [Handler.initial, EditorPc.inside]⟩

theorem inside_wake (d : DrainPc V) : (wake d).inside = d.inside := by cases d <;> rfl

/-- The drain thread inside its scope keeps every editor out of theirs. -/
private theorem editors_out (h : Exclusion s) (hd : s.drain.inside = true) (e : E) : (s.editor e).inside = false := by
  have hm := h.drain.mp hd
  by_contra he
  have hme := (h.editor e).mp (by simpa using he)
  rw [hm] at hme
  cases hme

theorem drainStep (h : Exclusion s) (hs : s.drainStep = some t) : Exclusion t := by
  have hinside := h.drain
  unfold Handler.drainStep at hs
  cases hd : s.drain <;> rw [hd] at hs hinside <;> dsimp only at hs
  case lock | reacquire =>
    split at hs <;> cases hs
    rename_i hfree
    refine ⟨by simp [DrainPc.inside], fun e => ?_⟩
    have he := h.editor e
    rw [Option.isNone_iff_eq_none.mp hfree] at he
    simpa using he
  case predStop | predQueue | checkEmpty | checkStop =>
    cases hs
    refine ⟨?_, h.editor⟩
    have hm := hinside.mp rfl
    dsimp only
    rw [hm]
    split <;> simp [DrainPc.inside]
  case pop =>
    split at hs <;> cases hs
    exact ⟨hinside, h.editor⟩
  case park =>
    cases hs
    refine ⟨by simp [DrainPc.inside], fun e => ?_⟩
    have he := h.editors_out (by rw [hd]; rfl) e
    simp [he]
  case unlock k =>
    cases hs
    refine ⟨by cases k <;> simp [DrainPc.inside], fun e => ?_⟩
    have he := h.editors_out (by rw [hd]; rfl) e
    simp [he]
  case dispatch fire =>
    cases hs
    exact ⟨hinside, h.editor⟩
  all_goals cases hs

theorem editorStep [DecidableEq E] (h : Exclusion s) {e : E} (hs : s.editorStep e = some t) : Exclusion t := by
  have hinside := h.editor e
  unfold Handler.editorStep at hs
  cases he : s.editor e <;> rw [he] at hs hinside <;> dsimp only at hs
  case outside => cases hs
  case lock fire =>
    split at hs <;> cases hs
    rename_i hfree
    have hnone := Option.isNone_iff_eq_none.mp hfree
    have hd := h.drain
    rw [hnone] at hd
    refine ⟨by simpa using hd, fun e' => ?_⟩
    by_cases heq : e' = e
    · subst heq
      simp [EditorPc.inside]
    · have he' := h.editor e'
      rw [hnone] at he'
      simpa [Function.update_of_ne heq, Ne.symm heq] using he'
  case push fire =>
    cases hs
    refine ⟨h.drain, fun e' => ?_⟩
    by_cases heq : e' = e
    · subst heq
      simpa [EditorPc.inside] using hinside
    · simpa [Function.update_of_ne heq] using h.editor e'
  case unlock =>
    cases hs
    have hm := hinside.mp rfl
    have hd := h.drain
    rw [hm] at hd
    refine ⟨by simpa using hd, fun e' => ?_⟩
    by_cases heq : e' = e
    · subst heq
      simp [EditorPc.inside]
    · have he' := h.editor e'
      rw [hm] at he'
      simpa [Function.update_of_ne heq, Ne.symm heq] using he'
  case notifyOne =>
    cases hs
    refine ⟨by rw [inside_wake]; exact h.drain, fun e' => ?_⟩
    by_cases heq : e' = e
    · subst heq
      simpa [EditorPc.inside] using hinside
    · simpa [Function.update_of_ne heq] using h.editor e'

theorem keep [DecidableEq E] {a : Act E V} (h : Exclusion s) (hs : s.step a = some t) : Exclusion t := by
  cases a with
  | editor e => exact h.editorStep hs
  | drain => exact h.drainStep hs
  | performEdit e fire =>
    simp only [Handler.step] at hs
    have hinside := h.editor e
    split at hs <;> cases hs
    rename_i he
    rw [he] at hinside
    refine ⟨h.drain, fun e' => ?_⟩
    by_cases heq : e' = e
    · subst heq
      simpa [EditorPc.inside] using hinside
    · simpa [Function.update_of_ne heq] using h.editor e'
  | destroy =>
    simp only [Handler.step] at hs
    split at hs <;> cases hs
    exact { h with }
  | dtor =>
    simp only [Handler.step, Handler.dtorStep] at hs
    cases hd : s.dtor <;> rw [hd] at hs <;> dsimp only at hs
    case storeStop =>
      cases hs
      exact { h with }
    case notifyAll =>
      cases hs
      exact ⟨by rw [inside_wake]; exact h.drain, h.editor⟩
    case join =>
      split at hs <;> cases hs
      exact { h with }
    all_goals cases hs

end Exclusion

/-- Nothing is enqueued once the destructor runs, and the drain thread only ends on an empty queue. -/
structure Ending (s : Handler E V) : Prop where
  exclusion : Exclusion s
  quiet : s.dtor ≠ .alive → ∀ e, s.editor e = .outside
  stopping : s.stopRequested = true → s.dtor ≠ .alive
  empty : s.drain.foundEmpty = true → s.queue = []
  returning : s.drain = .unlock .return ∨ s.drain = .returned → s.stopRequested = true
  joined : s.dtor = .joined → s.drain = .returned
  popping : s.drain = .pop → s.queue ≠ []

namespace Ending
variable {s t : Handler E V}

theorem initial : Ending (Handler.initial : Handler E V) :=
  ⟨Exclusion.initial, fun _ _ => rfl, by simp [Handler.initial], fun _ => rfl, by simp [Handler.initial],
    by simp [Handler.initial], by simp [Handler.initial]⟩

theorem drainStep (h : Ending s) (hs : s.drainStep = some t) : Ending t := by
  have hexcl := h.exclusion.drainStep hs
  have hempty := h.empty
  have hjoined := h.joined
  unfold Handler.drainStep at hs
  cases hd : s.drain <;> rw [hd] at hs hempty hjoined <;> dsimp only at hs
  case lock | reacquire =>
    split at hs <;> cases hs
    exact ⟨hexcl, h.quiet, h.stopping, by simp [DrainPc.foundEmpty], by simp, fun hj => (by cases hjoined hj), by simp⟩
  case predStop | predQueue =>
    cases hs
    refine ⟨hexcl, h.quiet, h.stopping, ?_, ?_, fun hj => (by cases hjoined hj), ?_⟩
    · dsimp only
      split <;> simp [DrainPc.foundEmpty]
    · dsimp only
      split <;> simp
    · dsimp only
      split <;> simp
  case park =>
    cases hs
    exact ⟨hexcl, h.quiet, h.stopping, by simp [DrainPc.foundEmpty], by simp, fun hj => (by cases hjoined hj), by simp⟩
  case checkEmpty =>
    cases hs
    refine ⟨hexcl, h.quiet, h.stopping, ?_, ?_, fun hj => (by cases hjoined hj), ?_⟩
    · dsimp only
      split
      · rename_i hq
        exact fun _ => List.isEmpty_iff.mp hq
      · simp [DrainPc.foundEmpty]
    · dsimp only
      split <;> simp
    · dsimp only
      split
      · simp
      · rename_i hq
        exact fun _ hnil => hq (List.isEmpty_iff.mpr hnil)
  case checkStop =>
    cases hs
    refine ⟨hexcl, h.quiet, h.stopping, fun _ => hempty rfl, ?_, fun hj => (by cases hjoined hj), by simp⟩
    dsimp only
    split
    · rename_i hstop
      exact fun _ => hstop
    · simp
  case pop =>
    split at hs <;> cases hs
    exact ⟨hexcl, h.quiet, h.stopping, by simp [DrainPc.foundEmpty], by simp, fun hj => (by cases hjoined hj), by simp⟩
  case unlock k =>
    cases hs
    refine ⟨hexcl, h.quiet, h.stopping, ?_, ?_, fun hj => (by cases hjoined hj), by cases k <;> simp⟩
    · cases k with
      | «return» => exact fun _ => hempty rfl
      | again | dispatch => simp [DrainPc.foundEmpty]
    · cases k with
      | «return» => exact fun _ => h.returning (.inl hd)
      | again | dispatch => simp
  case dispatch fire =>
    cases hs
    exact ⟨hexcl, h.quiet, h.stopping, by simp [DrainPc.foundEmpty], by simp, fun hj => (by cases hjoined hj), by simp⟩
  all_goals cases hs

/-- With the queue found empty the drain thread is inside its scope or has
returned; either way no editor is about to push. -/
theorem no_push (h : Ending s) {e : E} {fire : QueuedFire V} (he : s.editor e = .push fire) :
    s.drain.foundEmpty = false := by
  by_contra hf
  have hin : (s.editor e).inside = true := by rw [he]; rfl
  have hm := (h.exclusion.editor e).mp hin
  have hout : ∀ k, s.drain = k → k.inside = true → False := by
    rintro k rfl hk
    have hmd := h.exclusion.drain.mp hk
    rw [hm] at hmd
    cases hmd
  cases hd : s.drain with
  | checkStop => exact hout _ hd rfl
  | unlock k => exact hout _ hd rfl
  | returned =>
    have hstop := h.returning (.inr hd)
    have hquiet := h.quiet (h.stopping hstop) e
    rw [he] at hquiet
    cases hquiet
  | lock | predStop | predQueue | park | parked | reacquire | checkEmpty | pop | dispatch =>
    rw [hd] at hf
    exact hf rfl

theorem wake_eq {d k : DrainPc V} (hk : k ≠ .reacquire) (h : wake d = k) : d = k := by
  cases d <;> simp_all [wake]

private theorem foundEmpty_wake (d : DrainPc V) : (wake d).foundEmpty = d.foundEmpty := by cases d <;> rfl

private theorem returning_wake {d : DrainPc V} (h : wake d = .unlock .return ∨ wake d = .returned) :
    d = .unlock .return ∨ d = .returned := by
  rcases h with h | h
  · exact .inl (wake_eq (by simp) h)
  · exact .inr (wake_eq (by simp) h)

private theorem returned_wake {d : DrainPc V} (h : d = .returned) : wake d = .returned := by rw [h]; rfl

theorem editorStep [DecidableEq E] (h : Ending s) {e : E} (hs : s.editorStep e = some t) : Ending t := by
  have hexcl := h.exclusion.editorStep hs
  have hquiet : s.editor e ≠ .outside → s.dtor = .alive := fun hne => by
    by_contra hd
    exact hne (h.quiet hd e)
  unfold Handler.editorStep at hs
  cases he : s.editor e <;> rw [he] at hs hquiet <;> dsimp only at hs
  case outside => cases hs
  case lock fire =>
    split at hs <;> cases hs
    have halive := hquiet (by simp)
    exact ⟨hexcl, fun hd => absurd halive hd, h.stopping, h.empty, h.returning, h.joined, h.popping⟩
  case push fire =>
    cases hs
    have halive := hquiet (by simp)
    refine ⟨hexcl, fun hd => absurd halive hd, h.stopping, fun hf => ?_, h.returning, h.joined,
      fun _ => by simp [push]⟩
    have hno := h.no_push he
    rw [hf] at hno
    cases hno
  case unlock =>
    cases hs
    have halive := hquiet (by simp)
    exact ⟨hexcl, fun hd => absurd halive hd, h.stopping, h.empty, h.returning, h.joined, h.popping⟩
  case notifyOne =>
    cases hs
    have halive := hquiet (by simp)
    refine ⟨hexcl, fun hd => absurd halive hd, h.stopping, ?_, ?_, ?_, ?_⟩
    · rw [foundEmpty_wake]
      exact h.empty
    · exact fun hr => h.returning (returning_wake hr)
    · exact fun hj => returned_wake (h.joined hj)
    · exact fun hp => h.popping (wake_eq (by simp) hp)

theorem keep [DecidableEq E] {a : Act E V} (h : Ending s) (hok : Referenced s a) (hs : s.step a = some t) :
    Ending t := by
  have hexcl := h.exclusion.keep hs
  cases a with
  | editor e => exact h.editorStep hs
  | drain => exact h.drainStep hs
  | performEdit e fire =>
    have halive : s.dtor = .alive := hok
    simp only [Handler.step] at hs
    split at hs <;> cases hs
    exact ⟨hexcl, fun hd => absurd halive hd, h.stopping, h.empty, h.returning, h.joined, h.popping⟩
  | destroy =>
    simp only [Handler.step] at hs
    split at hs <;> cases hs
    exact ⟨hexcl, fun _ => hok, by simp, h.empty, h.returning, by simp, h.popping⟩
  | dtor =>
    simp only [Handler.step, Handler.dtorStep] at hs
    have hquiet := h.quiet
    cases hd : s.dtor <;> rw [hd] at hs hquiet <;> dsimp only at hs
    case storeStop =>
      cases hs
      exact ⟨hexcl, fun _ => hquiet (by simp), by simp, h.empty, fun _ => rfl, by simp, h.popping⟩
    case notifyAll =>
      cases hs
      refine ⟨hexcl, fun _ => hquiet (by simp), by simp, ?_, ?_, by simp, ?_⟩
      · rw [foundEmpty_wake]
        exact h.empty
      · exact fun hr => h.returning (returning_wake hr)
      · exact fun hp => h.popping (wake_eq (by simp) hp)
    case join =>
      split at hs <;> cases hs
      rename_i hret
      exact ⟨hexcl, fun _ => hquiet (by simp), by simp, h.empty, h.returning, fun _ => hret, h.popping⟩
    all_goals cases hs

/-- The destructor returns with nothing queued and nothing on its way. -/
theorem empty_of_joined (h : Ending s) (hj : s.dtor = .joined) : inFlight s.drain = [] ∧ s.queue = [] := by
  have hret := h.joined hj
  exact ⟨by rw [hret]; rfl, h.empty (by rw [hret]; rfl)⟩

end Ending

section Draining
variable [DecidableEq E] {s t u : Handler E V}

/-- The drain thread's steps alone lead from one state to another. -/
def Drains (s u : Handler E V) : Prop := ∃ n, exec step s (List.replicate n .drain) = some u

theorem Drains.refl (s : Handler E V) : Drains s s := ⟨0, rfl⟩

theorem Drains.head (hs : s.drainStep = some t) (h : Drains t u) : Drains s u := by
  obtain ⟨n, hn⟩ := h
  refine ⟨n + 1, ?_⟩
  rw [List.replicate_succ, exec, step, hs]
  exact hn

theorem Drains.trans (h : Drains s t) (h' : Drains t u) : Drains s u := by
  obtain ⟨n, hn⟩ := h
  obtain ⟨m, hm⟩ := h'
  refine ⟨n + m, ?_⟩
  rw [List.replicate_add, exec_append, hn]
  exact hm

/-- One round of `DrainLoop` hands the oldest entry to `cb_`. -/
private theorem drains_one {fire : QueuedFire V} {rest : List (QueuedFire V)}
    (hd : s.drain = .lock ∨ s.drain = .reacquire)
    (hm : s.queueMutex = none) (hq : s.queue = fire :: rest) :
    Drains s { s with drain := .lock, queue := rest, dispatched := s.dispatched ++ [fire] } := by
  have hlocked : s.drainStep = some { s with queueMutex := some .drain, drain := .predStop } := by
    unfold drainStep
    rcases hd with hd | hd <;> simp [hd, hm]
  refine Drains.head hlocked ?_
  -- with or without a stop request the predicate holds, as the queue is not empty
  have hpred : Drains { s with queueMutex := some .drain, drain := .predStop }
      { s with queueMutex := some .drain, drain := .checkEmpty } := by
    cases hstop : s.stopRequested with
    | true => exact Drains.head (by simp [drainStep]) (Drains.refl _)
    | false =>
      refine Drains.head (t := { s with queueMutex := some .drain, stopRequested := false, drain := .predQueue })
        (by simp [drainStep]) ?_
      exact Drains.head (by simp [drainStep, hq]) (Drains.refl _)
  refine hpred.trans ?_
  refine Drains.head (t := { s with queueMutex := some .drain, drain := .pop }) (by simp [drainStep, hq]) ?_
  refine Drains.head (t := { s with
    queueMutex := some .drain, queue := rest, drain := .unlock (.dispatch fire) }) (by simp [drainStep, hq]) ?_
  refine Drains.head (t := { s with queueMutex := none, queue := rest, drain := .dispatch fire })
    (by simp [drainStep]) ?_
  refine Drains.head ?_ (Drains.refl _)
  simp [drainStep, hm]

/-- Left to itself the drain thread empties the queue, oldest entry first. -/
theorem drains_all (hd : s.drain = .lock) (hm : s.queueMutex = none) :
    Drains s { s with queue := [], dispatched := s.dispatched ++ s.queue } := by
  generalize hq : s.queue = q
  induction q generalizing s with
  | nil =>
    rw [List.append_nil, ← hq]
    exact Drains.refl s
  | cons fire rest ih =>
    have hone := drains_one (.inl hd) hm hq
    have hrest := ih (s := { s with drain := .lock, queue := rest, dispatched := s.dispatched ++ [fire] }) rfl hm rfl
    rw [← hd, List.append_assoc, List.singleton_append] at hrest
    rw [← hd] at hone
    exact hone.trans hrest

/-- The same from anywhere outside the locked scope, with entries waiting. -/
theorem drains_outside (hin : s.drain.inside = false) (hpark : s.drain ≠ .parked) (hret : s.drain ≠ .returned)
    (hm : s.queueMutex = none) (hq : s.queue ≠ []) :
    Drains s { s with drain := .lock, queue := [], dispatched := s.dispatched ++ inFlight s.drain ++ s.queue } := by
  have hlock : ∀ {k : DrainPc V}, s.drain = k → k = .lock ∨ k = .reacquire → Drains s { s with
      drain := .lock, queue := [], dispatched := s.dispatched ++ inFlight s.drain ++ s.queue } := by
    intro k hk hor
    obtain ⟨fire, rest, hcons⟩ := List.exists_cons_of_ne_nil hq
    have hflight : inFlight s.drain = [] := by
      rw [hk]
      rcases hor with rfl | rfl <;> rfl
    have hone := drains_one (hk ▸ hor) hm hcons
    have hall := drains_all (s := { s with drain := .lock, queue := rest, dispatched := s.dispatched ++ [fire] }) rfl hm
    rw [List.append_assoc, List.singleton_append] at hall
    rw [hflight, List.append_nil, hcons]
    exact hone.trans hall
  cases hd : s.drain with
  | lock =>
    have hdrains := hlock hd (.inl rfl)
    rw [hd] at hdrains
    exact hdrains
  | reacquire =>
    have hdrains := hlock hd (.inr rfl)
    rw [hd] at hdrains
    exact hdrains
  | dispatch fire =>
    have hfirst : s.drainStep = some { s with dispatched := s.dispatched ++ [fire], drain := .lock } := by
      simp only [drainStep, hd]
    refine Drains.head hfirst ?_
    exact drains_all (s := { s with dispatched := s.dispatched ++ [fire], drain := .lock }) rfl hm
  | parked => exact absurd hd hpark
  | returned => exact absurd hd hret
  | predStop | predQueue | park | checkEmpty | checkStop | pop | unlock =>
    rw [hd] at hin
    cases hin

/-- The drain thread gets to its end by its own steps. -/
def Ends (s : Handler E V) : Prop := ∃ u, Drains s u ∧ u.drain = .returned ∧ u.dtor = s.dtor

theorem Ends.head (hs : s.drainStep = some t) (hd : t.dtor = s.dtor) (h : Ends t) : Ends s := by
  obtain ⟨u, hu, hret, hdtor⟩ := h
  exact ⟨u, hu.head hs, hret, hdtor.trans hd⟩

private theorem ends_of_checkStop (hd : s.drain = .checkStop) (hstop : s.stopRequested = true) : Ends s := by
  refine Ends.head (t := { s with drain := .unlock .return }) (by simp [drainStep, hd, hstop]) rfl ?_
  refine Ends.head (t := { s with queueMutex := none, drain := .returned }) (by simp [drainStep]) rfl ?_
  exact ⟨_, Drains.refl _, rfl, rfl⟩

private theorem ends_of_lock (hd : s.drain = .lock) (hm : s.queueMutex = none) (hstop : s.stopRequested = true) :
    Ends s := by
  have hend : Ends { s with queue := [], dispatched := s.dispatched ++ s.queue } := by
    refine Ends.head (t := { s with
      queue := [], dispatched := s.dispatched ++ s.queue, queueMutex := some .drain, drain := .predStop })
      (by simp [drainStep, hd, hm]) rfl ?_
    refine Ends.head (t := { s with
      queue := [], dispatched := s.dispatched ++ s.queue, queueMutex := some .drain, drain := .checkEmpty })
      (by simp [drainStep, hstop]) rfl ?_
    refine Ends.head (t := { s with
      queue := [], dispatched := s.dispatched ++ s.queue, queueMutex := some .drain, drain := .checkStop })
      (by simp [drainStep]) rfl ?_
    exact ends_of_checkStop rfl hstop
  obtain ⟨u, hu, hret, hdtor⟩ := hend
  exact ⟨u, (drains_all hd hm).trans hu, hret, hdtor⟩

private theorem ends_of_dispatch {fire : QueuedFire V} (hd : s.drain = .dispatch fire) (hm : s.queueMutex = none)
    (hstop : s.stopRequested = true) : Ends s := by
  refine Ends.head (t := { s with drain := .lock, dispatched := s.dispatched ++ [fire] })
    (by simp [drainStep, hd]) rfl ?_
  exact ends_of_lock rfl hm hstop

private theorem ends_of_pop (hd : s.drain = .pop) (hq : s.queue ≠ []) (hstop : s.stopRequested = true) : Ends s := by
  obtain ⟨fire, rest, hq⟩ := List.exists_cons_of_ne_nil hq
  refine Ends.head (t := { s with queue := rest, drain := .unlock (.dispatch fire) })
    (by simp [drainStep, hd, hq]) rfl ?_
  refine Ends.head (t := { s with queueMutex := none, queue := rest, drain := .dispatch fire })
    (by simp [drainStep]) rfl ?_
  exact ends_of_dispatch rfl rfl hstop

private theorem ends_of_checkEmpty (hd : s.drain = .checkEmpty) (hstop : s.stopRequested = true) : Ends s := by
  by_cases hq : s.queue = []
  · refine Ends.head (t := { s with drain := .checkStop }) (by simp [drainStep, hd, hq]) rfl ?_
    exact ends_of_checkStop rfl hstop
  · refine Ends.head (t := { s with drain := .pop }) (by simp [drainStep, hd, hq]) rfl ?_
    exact ends_of_pop rfl hq hstop

/-- Once the destructor waits, nobody else holds the mutex and the drain thread,
which is awake, runs to its end. -/
private theorem ends_of_join (h : Ending s) (hi : Inv s) (hj : s.dtor = .join) : Ends s := by
  have hstop : s.stopRequested = true := hi.stopping (.inr (.inl hj))
  have hawake := hi.awake (.inl hj)
  have hout : ∀ e, s.editor e = .outside := h.quiet (by rw [hj]; simp)
  have hfree : s.drain.inside = false → s.queueMutex = none := by
    intro hd
    cases hm : s.queueMutex with
    | none => rfl
    | some o =>
      cases o with
      | drain =>
        have hin := h.exclusion.drain.mpr hm
        rw [hd] at hin
        cases hin
      | editor e =>
        have hin := (h.exclusion.editor e).mpr hm
        rw [hout e] at hin
        cases hin
  cases hd : s.drain with
  | lock => exact ends_of_lock hd (hfree (by rw [hd]; rfl)) hstop
  | predStop =>
    refine Ends.head (t := { s with drain := .checkEmpty }) (by simp [drainStep, hd, hstop]) rfl ?_
    exact ends_of_checkEmpty rfl hstop
  | predQueue =>
    have hq : s.queue ≠ [] := fun hnil => hawake.2 (.inr ⟨hd, hnil⟩)
    refine Ends.head (t := { s with drain := .checkEmpty }) (by simp [drainStep, hd, hq]) rfl ?_
    exact ends_of_checkEmpty rfl hstop
  | park => exact absurd (.inl hd) hawake.2
  | parked => exact absurd hd hawake.1
  | reacquire =>
    refine Ends.head (t := { s with queueMutex := some .drain, drain := .predStop })
      (by simp [drainStep, hd, hfree (by rw [hd]; rfl)]) rfl ?_
    refine Ends.head (t := { s with queueMutex := some .drain, drain := .checkEmpty })
      (by simp [drainStep, hstop]) rfl ?_
    exact ends_of_checkEmpty rfl hstop
  | checkEmpty => exact ends_of_checkEmpty hd hstop
  | checkStop => exact ends_of_checkStop hd hstop
  | pop => exact ends_of_pop hd (h.popping hd) hstop
  | unlock k =>
    cases k with
    | «return» =>
      refine Ends.head (t := { s with queueMutex := none, drain := .returned }) (by simp [drainStep, hd]) rfl ?_
      exact ⟨_, Drains.refl _, rfl, rfl⟩
    | again =>
      refine Ends.head (t := { s with queueMutex := none, drain := .lock }) (by simp [drainStep, hd]) rfl ?_
      exact ends_of_lock rfl rfl hstop
    | dispatch fire =>
      refine Ends.head (t := { s with queueMutex := none, drain := .dispatch fire }) (by simp [drainStep, hd]) rfl ?_
      exact ends_of_dispatch rfl rfl hstop
  | dispatch fire => exact ends_of_dispatch hd (hfree (by rw [hd]; rfl)) hstop
  | returned => exact ⟨s, Drains.refl s, hd, rfl⟩

end Draining
end Handler

/-- What the notifications of a handler look like at any point of a run. -/
structure DispatchedInOrder (r : Recorded E V) : Prop extends Follows r where
  /-- With the entries still queued, the dispatched ones are the enqueued sequence
  without the dropped entries. -/
  inOrder : r.handler.dispatched ++ inFlight r.handler.drain ++ r.handler.queue = r.ledger.kept
  sublist : r.ledger.kept.Sublist r.enqueued
  count : r.enqueued.length = r.handler.dispatched.length + (inFlight r.handler.drain).length +
    r.ledger.dropped.length + r.handler.queue.length

theorem Follows.dispatchedInOrder {r : Recorded E V} (h : Follows r) : DispatchedInOrder r := by
  refine { h with inOrder := ?_, sublist := ?_, count := ?_ }
  · rw [h.taken, h.queue, Ledger.kept]
  · rw [← h.enqueued]
    exact r.ledger.kept_sublist
  · rw [← h.enqueued, Ledger.length_entries, ← h.taken, h.queue, List.length_append]

/-- The entry a step drops: the oldest one queued, when it pushes into a full queue. -/
def overflow (s : Handler E V) (a : Act E V) : List (QueuedFire V) :=
  if (Recorded.pushed s a).isSome ∧ kQueueCap ≤ s.queue.length then s.queue.take 1 else []

private theorem Follows.step_dropped [DecidableEq E] {r u : Recorded E V} {a : Act E V} (h : Follows r)
    (hs : r.step a = some u) : u.ledger.dropped = r.ledger.dropped ++ overflow r.handler a := by
  obtain ⟨t, ht, rfl⟩ := Option.map_eq_some_iff.mp hs
  cases QueueStep.of_step ht with
  | @push e fire pc =>
    rw [Recorded.note_push pc, Ledger.dropped_push _ _ (by decide), overflow, Recorded.pushed_push pc, h.queue]
    simp
  | pop pc =>
    rw [Recorded.note_pop pc, Ledger.dropped_settle_false, overflow, Recorded.pushed_drain]
    simp
  | dispatch pc =>
    rw [Recorded.note_dispatch pc, overflow, Recorded.pushed_drain]
    simp
  | other quiet books =>
    rw [books, overflow, quiet]
    simp

/-- A joined handler has dispatched everything that was not dropped. -/
theorem drained_of_joined {r : Recorded E V} (h : Follows r) (hend : r.handler.Ending)
    (hj : r.handler.dtor = .joined) : r.handler.queue = [] ∧ r.handler.dispatched = r.ledger.kept := by
  obtain ⟨hflight, hq⟩ := hend.empty_of_joined hj
  have hall := h.dispatchedInOrder.inOrder
  rw [hq, hflight, List.append_nil, List.append_nil] at hall
  exact ⟨hq, hall⟩

/-- Calls of `performEdit` come through counted references and the destructor's
notification is timely. Then notifications are dispatched once and in order, and
the destructor, which returns once the drain thread is scheduled, leaves none behind. -/
theorem dispatched_once_in_order [DecidableEq E] (as : List (Act E V)) (t : Recorded E V)
    (he : exec Recorded.step Recorded.initial as = some t) :
    DispatchedInOrder t ∧
    (∀ a u, t.step a = some u → u.ledger.dropped = t.ledger.dropped ++ overflow t.handler a) ∧
    (Meets Handler.step (fun s a => s.Timely a ∧ s.Referenced a) Handler.initial as →
      (t.handler.dtor = .joined → t.handler.queue = [] ∧ t.handler.dispatched = t.ledger.kept) ∧
      (t.handler.dtor = .join → ∃ n u, exec Recorded.step Recorded.initial
        (as ++ (List.replicate n .drain ++ [.dtor])) = some u ∧ u.handler.dtor = .joined)) := by
  have hfollows : Follows t := invariant_of_step Follows (fun h hs => h.step hs) Follows.initial he
  have hhandler : exec Handler.step Handler.initial as = some t.handler := by
    have hmap := Recorded.exec_handler (Recorded.initial : Recorded E V) as
    rw [he] at hmap
    exact hmap.symm
  refine ⟨hfollows.dispatchedInOrder, fun a u hs => hfollows.step_dropped hs, fun hok => ?_⟩
  have hend : t.handler.Ending := invariant Handler.Ending (fun h ho hs => h.keep ho.2 hs)
    Handler.Ending.initial hok hhandler
  have hinv : t.handler.Inv := invariant Handler.Inv (fun h ho hs => h.keep ho.1 hs)
    Handler.Inv.initial hok hhandler
  refine ⟨drained_of_joined hfollows hend, fun hj => ?_⟩
  obtain ⟨u, ⟨n, hn⟩, hret, hdtor⟩ := Handler.ends_of_join hend hinv hj
  have hlast : u.step .dtor = some { u with dtor := .joined } := by
    rw [hj] at hdtor
    simp only [Handler.step, Handler.dtorStep, hdtor, hret]
  have hrun : exec Handler.step t.handler (List.replicate n .drain ++ [.dtor]) = some { u with dtor := .joined } := by
    rw [exec_concat, hn]
    exact hlast
  have hmap := Recorded.exec_handler t (List.replicate n .drain ++ [.dtor])
  rw [hrun] at hmap
  obtain ⟨v, hv, hview⟩ := Option.map_eq_some_iff.mp hmap
  refine ⟨n, v, ?_, by rw [hview]⟩
  rw [exec_append, he]
  exact hv

instance (p : EditorPc V) : Decidable (p = .outside) :=
  match p with
  | .outside => .isTrue rfl
  | .lock _ | .push _ | .unlock | .notifyOne => .isFalse (fun h => by cases h)

instance (s : Handler Unit V) (a : Act Unit V) : Decidable (s.Referenced a) :=
  match a with
  | .performEdit _ _ => inferInstanceAs (Decidable (s.dtor = .alive))
  | .destroy => decidable_of_iff (s.editor () = .outside) ⟨fun h _ => h, fun h => h ()⟩
  | .editor _ | .drain | .dtor => .isTrue trivial

/-- Two edits, the first dispatched while the second is enqueued, then the destructor. -/
theorem dispatched_once_in_order_two_edits : ∃ as t,
    exec Recorded.step (Recorded.initial : Recorded Unit Nat) as = some t ∧ t.handler.dtor = .joined ∧
    t.enqueued = [⟨1, 10⟩, ⟨2, 20⟩] ∧ t.handler.queue = [] ∧ t.handler.dispatched = t.ledger.kept := by
  let edit : List (Act Unit Nat) := List.replicate 4 (.editor ())
  let as : List (Act Unit Nat) := [.performEdit () ⟨1, 10⟩] ++ edit ++ List.replicate 6 .drain ++
    [.performEdit () ⟨2, 20⟩] ++ edit ++ [.drain, .destroy, .dtor, .dtor] ++ List.replicate 11 .drain ++ [.dtor]
  obtain ⟨t, ht, hview⟩ := Option.map_eq_some_iff.mp
    (show (exec Recorded.step (Recorded.initial : Recorded Unit Nat) as).map
      (fun t => (t.handler.dtor, t.enqueued)) = some (.joined, [⟨1, 10⟩, ⟨2, 20⟩]) by decide)
  obtain ⟨hjoined, henq⟩ := Prod.mk.inj hview
  have hok : Meets Handler.step (fun s a => s.Timely a ∧ s.Referenced a) (Handler.initial : Handler Unit Nat) as :=
    meets_of_checks (by decide)
  obtain ⟨hq, hd⟩ := ((dispatched_once_in_order as t ht).2.2 hok).1 hjoined
  exact ⟨as, t, ht, hjoined, henq, hq, hd⟩

end Plughost.Vst3.EditDrain
