import Plughost.Vst3.EditEnding

/-! What overflow of the handler's queue does to the values a parameter ends on. -/
namespace Plughost.Vst3.EditDrain
open Plughost.Runs Plughost.BoundedQueue
variable {E V : Type}

def QueuedFire.entry (fire : QueuedFire V) : BitVec 32 × V := (fire.paramId, fire.value)

/-- The value the last fire for a parameter carries. -/
def lastFire (id : BitVec 32) (fires : List (QueuedFire V)) : Option V := lastValue id (fires.map QueuedFire.entry)

/-- Whenever the queue is drained, each parameter's last value dispatched is the last one enqueued. -/
def FinalValuesKept (r : Recorded E V) : Prop :=
  r.handler.queue = [] → inFlight r.handler.drain = [] →
    ∀ id, lastFire id r.handler.dispatched = lastFire id r.enqueued

/-- A push into the full queue finds, behind the oldest entry, a newer one for the
same parameter (its own entry counts), or the oldest entry repeats the value
already taken for its parameter. -/
def KeepsNewest (r : Recorded E V) (a : Act E V) : Prop :=
  ∀ fire ∈ Recorded.pushed r.handler a, ∀ oldest ∈ r.handler.queue.head?, kQueueCap ≤ r.handler.queue.length →
    (∃ f ∈ r.handler.queue.tail ++ [fire], f.paramId = oldest.paramId) ∨
      lastFire oldest.paramId (r.handler.dispatched ++ inFlight r.handler.drain) = some oldest.value

instance [DecidableEq V] (r : Recorded E V) (a : Act E V) : Decidable (KeepsNewest r a) :=
  inferInstanceAs (Decidable (∀ fire ∈ Recorded.pushed r.handler a, ∀ oldest ∈ r.handler.queue.head?,
    kQueueCap ≤ r.handler.queue.length → _ ∨ _))

theorem lastFire_append (id : BitVec 32) (a b : List (QueuedFire V)) :
    lastFire id (a ++ b) = (lastFire id b).or (lastFire id a) := by
  rw [lastFire, List.map_append, lastValue_append]
  rfl

private theorem lastFire_isSome {id : BitVec 32} {fires : List (QueuedFire V)} :
    (lastFire id fires).isSome ↔ ∃ f ∈ fires, f.paramId = id := by
  rw [lastFire, lastValue_isSome]
  simp [QueuedFire.entry]

private theorem lastFire_without (front rest : List (QueuedFire V)) (p : QueuedFire V) :
    (∀ id, lastFire id (front ++ rest) = lastFire id (front ++ p :: rest)) ↔
      (∃ f ∈ rest, f.paramId = p.paramId) ∨ lastFire p.paramId front = some p.value := by
  rw [← lastFire_isSome]
  simp only [lastFire, List.map_append, List.map_cons]
  exact lastValue_without (p := p.entry)

/-- The invariant: what is kept of the sequence ends on the same values as the whole. -/
structure Current (r : Recorded E V) : Prop where
  follows : Follows r
  values : ∀ id, lastFire id r.ledger.kept = lastFire id r.enqueued

namespace Current
variable {r u : Recorded E V}

theorem initial : Current (Recorded.initial : Recorded E V) := ⟨Follows.initial, fun _ => rfl⟩

private theorem finalValuesKept (h : Current r) : FinalValuesKept r := by
  intro hq hflight id
  have hall := h.follows.dispatchedInOrder.inOrder
  rw [hq, hflight, List.append_nil, List.append_nil] at hall
  rw [hall]
  exact h.values id

/-- A push appends the same entry to both sequences; into a full queue it also
takes the oldest queued entry out of the kept one. -/
private theorem kept_push (h : Follows r) {e : E} {fire : QueuedFire V} (pc : r.handler.editor e = .push fire) :
    (Recorded.note r.handler r.ledger (.editor e)).kept =
      r.handler.dispatched ++ inFlight r.handler.drain ++ push kQueueCap r.handler.queue fire := by
  rw [Recorded.note_push pc, Ledger.kept, Ledger.taken_push, Ledger.queued_push, h.taken, h.queue]

/-- The push keeps every parameter's last value exactly when the condition holds. -/
private theorem push_iff (h : Current r) {e : E} {fire : QueuedFire V} (pc : r.handler.editor e = .push fire) :
    (∀ id, lastFire id (r.handler.dispatched ++ inFlight r.handler.drain ++ push kQueueCap r.handler.queue fire) =
      lastFire id (r.enqueued ++ [fire])) ↔ KeepsNewest r (.editor e) := by
  have henq : ∀ id, lastFire id (r.enqueued ++ [fire]) =
      lastFire id (r.handler.dispatched ++ inFlight r.handler.drain ++ r.handler.queue ++ [fire]) := by
    intro id
    rw [h.follows.dispatchedInOrder.inOrder, lastFire_append, lastFire_append, h.values]
  simp only [henq]
  unfold KeepsNewest
  rw [Recorded.pushed_push pc]
  by_cases hfull : kQueueCap ≤ r.handler.queue.length
  · cases hq : r.handler.queue with
    | nil =>
      rw [hq] at hfull
      cases hfull
    | cons oldest rest =>
      rw [hq] at hfull
      have hwithout := lastFire_without (r.handler.dispatched ++ inFlight r.handler.drain) (rest ++ [fire]) oldest
      rw [push, if_pos hfull, List.tail_cons, List.append_assoc _ (oldest :: rest), List.cons_append, hwithout]
      constructor
      · intro hor f hf o ho _
        obtain rfl := Option.mem_some_iff.mp hf
        obtain rfl := Option.mem_some_iff.mp ho
        exact hor
      · exact fun hok => hok fire rfl oldest rfl hfull
  · rw [push, if_neg hfull]
    constructor
    · exact fun _ _ _ _ _ hle => absurd hle hfull
    · exact fun _ id => by rw [List.append_assoc _ r.handler.queue]

theorem step [DecidableEq E] {a : Act E V} (h : Current r) (hok : KeepsNewest r a)
    (hs : r.step a = some u) : Current u := by
  have hfollows := h.follows.step hs
  obtain ⟨t, ht, rfl⟩ := Option.map_eq_some_iff.mp hs
  refine ⟨hfollows, ?_⟩
  have hvalues := h.values
  have hkept := h.follows.dispatchedInOrder.inOrder
  cases QueueStep.of_step ht with
  | @push e fire pc queue count drain dispatched =>
    intro id
    rw [kept_push h.follows pc, Recorded.pushed_push pc]
    exact (h.push_iff pc).mpr hok id
  | pop pc queued =>
    have hledger := h.follows.queue.symm.trans queued
    rw [Recorded.note_pop pc, Recorded.pushed_drain, Option.toList_none, List.append_nil, Ledger.kept,
      Ledger.taken_settle_false hledger, Ledger.queued_settle, hledger, List.tail_cons, List.append_assoc,
      List.singleton_append, ← hledger]
    exact hvalues
  | dispatch pc =>
    rw [Recorded.note_dispatch pc, Recorded.pushed_drain, Option.toList_none, List.append_nil]
    exact hvalues
  | other quiet books =>
    rw [books, quiet, Option.toList_none, List.append_nil]
    exact hvalues

end Current

section Draining
variable [DecidableEq E] {r u : Recorded E V}

/-- A drain thread at work enqueues nothing. -/
private theorem enqueued_of_drain {n : Nat} (hs : exec Recorded.step r (List.replicate n .drain) = some u) :
    u.enqueued = r.enqueued := by
  induction n generalizing r with
  | zero =>
    cases hs
    rfl
  | succ n ih =>
    rw [List.replicate_succ, exec] at hs
    obtain ⟨r', hr', hrest⟩ := Option.bind_eq_some_iff.mp hs
    obtain ⟨t, -, rfl⟩ := Option.map_eq_some_iff.mp hr'
    rw [ih hrest, Recorded.pushed_drain]
    exact List.append_nil _

/-- After a push the editor leaves, and the drain thread can then empty the queue undisturbed. -/
private theorem drained_after_push (h : r.handler.Ending) {e : E} {fire : QueuedFire V}
    (pc : r.handler.editor e = .push fire) :
    ∃ bs u, exec Recorded.step r (.editor e :: bs) = some u ∧ u.handler.queue = [] ∧ inFlight u.handler.drain = [] ∧
      u.enqueued = r.enqueued ++ [fire] ∧ u.handler.dispatched =
        r.handler.dispatched ++ inFlight r.handler.drain ++ push kQueueCap r.handler.queue fire := by
  have hmutex := (h.exclusion.editor e).mp (by rw [pc]; rfl)
  have hin : r.handler.drain.inside = false := by
    by_contra hd
    have hm := h.exclusion.drain.mp (by simpa using hd)
    rw [hmutex] at hm
    cases hm
  have hret : r.handler.drain ≠ .returned := by
    intro hd
    have hno := h.no_push pc
    rw [hd] at hno
    cases hno
  let queue := push kQueueCap r.handler.queue fire
  let count := if kQueueCap ≤ r.handler.queue.length then r.handler.droppedCount + 1 else r.handler.droppedCount
  let ledger := r.ledger.push kQueueCap fire
  -- the push, the unlock and the notification, in turn
  let r₁ : Recorded E V := ⟨{ r.handler with
    queue, droppedCount := count, editor := Function.update r.handler.editor e .unlock }, r.enqueued ++ [fire], ledger⟩
  let r₂ : Recorded E V := ⟨{ r₁.handler with
    queueMutex := none, editor := Function.update r₁.handler.editor e .notifyOne }, r.enqueued ++ [fire], ledger⟩
  let r₃ : Recorded E V := ⟨{ r₂.handler with
    drain := Handler.wake r.handler.drain, editor := Function.update r₂.handler.editor e .outside },
    r.enqueued ++ [fire], ledger⟩
  have h₁ : r.step (.editor e) = some r₁ := by
    simp only [Recorded.step, Handler.step, Handler.editorStep, pc, Option.map_some, Recorded.pushed, Recorded.note]
    rfl
  have h₂ : r₁.step (.editor e) = some r₂ := by
    simp [Recorded.step, Handler.step, Handler.editorStep, Recorded.pushed, Recorded.note, r₁, r₂]
  have h₃ : r₂.step (.editor e) = some r₃ := by
    simp [Recorded.step, Handler.step, Handler.editorStep, Recorded.pushed, Recorded.note, r₁, r₂, r₃]
  have hqueue : queue ≠ [] := by simp [queue, push]
  obtain ⟨hawake, -, -⟩ := Handler.Inv.wake_awake (d := r.handler.drain)
  obtain ⟨n, hn⟩ := Handler.drains_outside (s := r₃.handler) (by rw [← hin]; exact Handler.Exclusion.inside_wake _)
    hawake (fun hd => hret (Handler.Ending.wake_eq (by simp) hd)) rfl hqueue
  have hmap := Recorded.exec_handler r₃ (List.replicate n .drain)
  rw [hn] at hmap
  obtain ⟨u, hu, hview⟩ := Option.map_eq_some_iff.mp hmap
  refine ⟨.editor e :: .editor e :: List.replicate n .drain, u, ?_, ?_, ?_, ?_, ?_⟩
  · rw [exec, h₁, Option.bind_some, exec, h₂, Option.bind_some, exec, h₃]
    exact hu
  · rw [hview]
  · rw [hview]
    rfl
  · exact enqueued_of_drain hu
  · rw [hview]
    dsimp only [r₃, r₂, r₁]
    rw [QueueStep.inFlight_wake]

end Draining

/-- Runs that drop no parameter's newest value end on the values enqueued. The
first step to drop one can always be followed by a run that drains the queue and
ends on another value. -/
theorem final_values_kept [DecidableEq E] (as : List (Act E V)) (t : Recorded E V)
    (he : exec Recorded.step Recorded.initial as = some t)
    (hok : Meets Recorded.step KeepsNewest Recorded.initial as) :
    Always Recorded.step FinalValuesKept Recorded.initial as ∧
    (Meets Handler.step Handler.Referenced Handler.initial as → ∀ a, ¬ KeepsNewest t a →
      ∃ bs u, exec Recorded.step Recorded.initial (as ++ a :: bs) = some u ∧ ¬ FinalValuesKept u) := by
  have hcurrent : Current t := invariant Current (fun h ho hs => h.step ho hs) Current.initial hok he
  refine ⟨always_of_meets Current (fun h ho hs => h.step ho hs) Current.finalValuesKept Current.initial hok, ?_⟩
  intro href a hbad
  have hhandler : exec Handler.step Handler.initial as = some t.handler := by
    have hmap := Recorded.exec_handler (Recorded.initial : Recorded E V) as
    rw [he] at hmap
    exact hmap.symm
  have hend : t.handler.Ending := invariant Handler.Ending (fun h ho hs => h.keep ho hs)
    Handler.Ending.initial href hhandler
  obtain ⟨e, fire, rfl, pc⟩ : ∃ e fire, a = .editor e ∧ t.handler.editor e = .push fire := by
    by_contra hno
    have hnone : Recorded.pushed t.handler a = none := by
      cases a with
      | editor e =>
        cases hpc : t.handler.editor e with
        | push fire => exact absurd ⟨e, fire, rfl, hpc⟩ hno
        | outside | lock | unlock | notifyOne => simp only [Recorded.pushed, hpc]
      | performEdit | drain | destroy | dtor => rfl
    refine hbad fun fire hf => ?_
    rw [hnone] at hf
    cases hf
  obtain ⟨bs, u, hu, hq, hflight, henq, hdispatched⟩ := drained_after_push hend pc
  refine ⟨bs, u, ?_, fun hkept => hbad ?_⟩
  · rw [exec_append, he]
    exact hu
  · refine (hcurrent.push_iff pc).mp fun id => ?_
    rw [← hdispatched, ← henq]
    exact hkept hq hflight id

/-- Two edits of different parameters, both dispatched. -/
theorem final_values_kept_two_edits : ∃ as t,
    exec Recorded.step (Recorded.initial : Recorded Unit Nat) as = some t ∧ t.enqueued = [⟨1, 10⟩, ⟨2, 20⟩] ∧
    Always Recorded.step FinalValuesKept (Recorded.initial : Recorded Unit Nat) as := by
  let edit : List (Act Unit Nat) := List.replicate 4 (.editor ())
  let as : List (Act Unit Nat) := [.performEdit () ⟨1, 10⟩] ++ edit ++ [.performEdit () ⟨2, 20⟩] ++ edit ++
    List.replicate 14 .drain
  obtain ⟨t, ht, hview⟩ := Option.map_eq_some_iff.mp
    (show (exec Recorded.step (Recorded.initial : Recorded Unit Nat) as).map (fun t => t.enqueued) =
      some [⟨1, 10⟩, ⟨2, 20⟩] by decide)
  exact ⟨as, t, ht, hview, (final_values_kept as t ht (meets_of_checks (by decide))).1⟩

/-- One whole call of `performEdit` past the filter. -/
def edit (e : E) (fire : QueuedFire V) :
    List (Act E V) := [.performEdit e fire, .editor e, .editor e, .editor e, .editor e]

/-- While the drain thread has yet to start, edits only fill the queue. -/
private theorem exec_edits [DecidableEq E] (r : Recorded E V) {e : E} (fires : List (QueuedFire V))
    (hd : r.handler.drain = .lock)
    (hm : r.handler.queueMutex = none) (he : r.handler.editor e = .outside) :
    ∃ u, exec Recorded.step r (fires.flatMap (edit e)) = some u ∧ u.handler.drain = .lock ∧
      u.handler.queueMutex = none ∧ u.handler.queue = fires.foldl (push kQueueCap) r.handler.queue ∧
      u.handler.dispatched = r.handler.dispatched ∧ u.enqueued = r.enqueued ++ fires := by
  induction fires generalizing r with
  | nil => exact ⟨r, rfl, hd, hm, rfl, rfl, (List.append_nil _).symm⟩
  | cons fire fires ih =>
    obtain ⟨u₁, hu₁, hd₁, hm₁, he₁, hq₁, hdisp₁, henq₁⟩ : ∃ u, exec Recorded.step r (edit e fire) = some u ∧
        u.handler.drain = .lock ∧ u.handler.queueMutex = none ∧ u.handler.editor e = .outside ∧
        u.handler.queue = push kQueueCap r.handler.queue fire ∧
        u.handler.dispatched = r.handler.dispatched ∧ u.enqueued = r.enqueued ++ [fire] := by
      simp [edit, exec, Recorded.step, Handler.step, Handler.editorStep, Recorded.pushed, Recorded.note, he, hm, hd,
        Handler.wake]
    obtain ⟨u, hu, hd', hm', hq', hdisp', henq'⟩ := ih u₁ hd₁ hm₁ he₁
    refine ⟨u, ?_, hd', hm', ?_, hdisp'.trans hdisp₁, ?_⟩
    · rw [List.flatMap_cons, exec_append, hu₁]
      exact hu
    · rw [hq', hq₁, List.foldl_cons]
    · rw [henq', henq₁, List.append_assoc, List.singleton_append]

/-- One edit of parameter 0, then 2048 of parameter 1 before the drain thread gets
to run: the only value of parameter 0 is dropped. -/
theorem newest_value_dropped : ∃ as u, exec Recorded.step (Recorded.initial : Recorded Unit Nat) as = some u ∧
    u.enqueued = ⟨0, 5⟩ :: List.replicate 2048 ⟨1, 7⟩ ∧ u.handler.queue = [] ∧
    u.handler.dispatched = List.replicate 2048 ⟨1, 7⟩ ∧ ¬ FinalValuesKept u := by
  let fires : List (QueuedFire Nat) := ⟨0, 5⟩ :: List.replicate 2048 ⟨1, 7⟩
  obtain ⟨r, hr, hd, hm, hq, hdisp, henq⟩ :=
    exec_edits (Recorded.initial : Recorded Unit Nat) (e := ()) fires rfl rfl rfl
  have hqueue : r.handler.queue = List.replicate 2048 ⟨1, 7⟩ := by
    have hfold := foldl_push (show 0 < kQueueCap by decide) [] fires
    rw [List.rtake_nil, List.nil_append] at hfold
    rw [hq]
    refine hfold.trans ?_
    rw [List.rtake, List.length_cons, List.length_replicate]
    rfl
  obtain ⟨n, hn⟩ := Handler.drains_all hd hm
  have hmap := Recorded.exec_handler r (List.replicate n .drain)
  rw [hn] at hmap
  obtain ⟨u, hu, hview⟩ := Option.map_eq_some_iff.mp hmap
  have henq' : u.enqueued = fires := by
    rw [enqueued_of_drain hu, henq]
    rfl
  have hdisp' : u.handler.dispatched = List.replicate 2048 ⟨1, 7⟩ := by
    rw [hview, hdisp, hqueue]
    rfl
  refine ⟨fires.flatMap (edit ()) ++ List.replicate n .drain, u, ?_, henq', by rw [hview], hdisp', fun hkept => ?_⟩
  · rw [exec_append, hr]
    exact hu
  · have hvalue := hkept (by rw [hview]) (by rw [hview, hd]; rfl) 0
    have hsome : (lastFire 0 u.enqueued).isSome := by
      rw [henq', lastFire_isSome]
      exact ⟨⟨0, 5⟩, List.mem_cons_self, rfl⟩
    rw [← hvalue, hdisp', lastFire_isSome] at hsome
    obtain ⟨f, hf, hid⟩ := hsome
    rw [List.eq_of_mem_replicate hf] at hid
    cases hid

end Plughost.Vst3.EditDrain
