import Plughost.Lib.Assoc
import Plughost.Lib.Monitors

/-! `HostRunLoop`'s event handlers: registration and dispatch, where the handlers called may register
and unregister in the middle of a pass. -/
namespace Plughost.Vst3.RunLoopFds
open Plughost.Runs Plughost.Monitors

/-- `FileDescriptor`. -/
abbrev Fd := Int

/-- An `IEventHandler`, by its address. -/
abbrev Handler := Nat

/-- `eventHandlers_`, and what a pass of `DispatchFds` has left of its snapshot. -/
structure RunLoop where
  eventHandlers : List (Fd × Handler)
  snapshot : Option (List (Fd × Handler))
  deriving DecidableEq, Repr

/-- What the plugin sees: a call that returned `kResultTrue`, or `onFDIsSet`, with the handler that
is then registered for the fd. -/
inductive Event where
  | registered (h : Handler)
  | unregistered (h : Handler)
  | onFDIsSet (fd : Fd) (h current : Handler)
  deriving DecidableEq, Repr

inductive Act where
  /-- `registerEventHandler`; `none` is a null pointer. -/
  | register (handler : Option Handler) (fd : Fd)
  /-- `unregisterEventHandler`; of the fds with that handler the map's order comes to `first` first. -/
  | unregister (handler : Option Handler) (first : Fd)
  /-- `DispatchFds` takes its snapshot. -/
  | dispatch (readyFds : List Fd)
  /-- The next pair of the snapshot. -/
  | call
  /-- `DispatchFds` returns. -/
  | dispatched
  deriving DecidableEq, Repr

/-- What the GUI thread does by itself. -/
def Act.ofHost : Act → Bool
  | .register .. | .unregister .. => false
  | .dispatch _ | .call | .dispatched => true

namespace RunLoop

def initial : RunLoop := ⟨[], none⟩

variable (s : RunLoop)

/-- `eventHandlers_.find`. -/
def find (fd : Fd) : Option Handler := s.eventHandlers.lookup fd

/-- `CollectFds`: the fds, and the highest or -1. -/
def collectFds : List Fd × Fd :=
  (s.eventHandlers.map Prod.fst,
    s.eventHandlers.foldl (fun maxFd kv => if kv.1 > maxFd then kv.1 else maxFd) (-1))

def take (readyFds : List Fd) : List (Fd × Handler) := readyFds.filterMap fun fd => (s.find fd).map fun h => (fd, h)

def step : Act → Option (RunLoop × List Event)
  | .register none _ | .unregister none _ => some (s, [])
  | .register (some h) fd =>
    if (s.find fd).isSome then some (s, [])
    else some ({ s with eventHandlers := s.eventHandlers ++ [(fd, h)] }, [.registered h])
  | .unregister (some h) first =>
    if s.eventHandlers.any fun kv => kv.2 == h then
      if s.find first = some h then
        some ({ s with eventHandlers := s.eventHandlers.filter fun kv => kv.1 != first }, [.unregistered h])
      else none
    else some (s, [])
  | .dispatch readyFds => match s.snapshot with
    | some _ => none
    | none => some ({ s with snapshot := some (s.take readyFds) }, [])
  | .call => match s.snapshot with
    | some ((fd, h) :: rest) => some ({ s with snapshot := some rest }, match s.find fd with
      | none => []
      | some current => [.onFDIsSet fd h current])
    | _ => none
  | .dispatched => match s.snapshot with
    | some [] => some ({ s with snapshot := none }, [])
    | _ => none

end RunLoop

/-- The rule; the state is the handlers unregistered and not registered since. -/
def rule (gone : List Handler) : Event → Option (List Handler)
  | .registered h => some (gone.filter (· != h))
  | .unregistered h => some (h :: gone)
  | .onFDIsSet _ h current => if h ∈ gone ∨ h ≠ current then none else some gone

/-- No handler called so far was unregistered, or other than the one registered for the fd. -/
def Obeys : RunLoop × List Event → Prop := Accepts rule []

/-- The calls that a pass may still make, and those of any later pass, obey the rule as well. -/
def Safe : RunLoop × List Event → Prop := Stays (recorded RunLoop.step) Act.ofHost Obeys

namespace RunLoop
variable {s t : RunLoop} {act : Act} {gone gone' : List Handler} {fd : Fd} {h : Handler}

/-- What the map's users must keep to: a handler is unregistered while it is on one fd only, and no
fd that a pass has still to look at is given to another handler. -/
def Permits (s : RunLoop) : Act → Prop
  | .unregister (some h) first =>
    s.find first = some h → ∀ kv ∈ s.eventHandlers, s.find kv.1 = some h → kv.1 = first
  | .register (some h) fd => s.find fd = none → ∀ kv ∈ s.snapshot.getD [], kv.1 = fd → kv.2 = h
  | _ => True

instance (s : RunLoop) : (act : Act) → Decidable (Permits s act)
  | .unregister (some h) first => inferInstanceAs (Decidable (s.find first = some h →
      ∀ kv ∈ s.eventHandlers, s.find kv.1 = some h → kv.1 = first))
  | .register (some h) fd => inferInstanceAs (Decidable (s.find fd = none →
      ∀ kv ∈ s.snapshot.getD [], kv.1 = fd → kv.2 = h))
  | .unregister none _ | .register none _ | .dispatch _ | .call | .dispatched => inferInstanceAs (Decidable True)

/-- What a pass has in hand is registered, or its fd is not; no registered handler is gone. -/
structure Fresh (s : RunLoop) (gone : List Handler) : Prop where
  snapshot : ∀ kv ∈ s.snapshot.getD [], ∀ h, s.find kv.1 = some h → kv.2 = h
  registered : ∀ fd h, s.find fd = some h → h ∉ gone

private theorem mem_of_find (hf : s.find fd = some h) : (fd, h) ∈ s.eventHandlers := Assoc.mem_of_lookup hf

private theorem find_append (fd' : Fd) (hf : s.find fd = none) :
    ({ s with eventHandlers := s.eventHandlers ++ [(fd, h)] } : RunLoop).find fd' =
      if fd' = fd then some h else s.find fd' := by
  unfold find at *
  rw [List.lookup_append]
  split
  · rename_i heq
    subst heq
    rw [hf, Option.none_or, List.lookup_cons_self]
  · rename_i hne
    rw [List.lookup_cons, beq_false_of_ne hne, List.lookup_nil, Option.or_none]

private theorem find_filter (fd' : Fd) :
    ({ s with eventHandlers := s.eventHandlers.filter fun kv => kv.1 != fd } : RunLoop).find fd' =
      if fd' = fd then none else s.find fd' :=
  Assoc.lookup_filter_ne fd fd' s.eventHandlers

private theorem foldl_highest (kvs : List (Fd × Handler)) (maxFd : Fd) :
    let highest := kvs.foldl (fun maxFd kv => if kv.1 > maxFd then kv.1 else maxFd) maxFd
    maxFd ≤ highest ∧ (∀ kv ∈ kvs, kv.1 ≤ highest) ∧
      (highest = maxFd ∨ ∃ kv ∈ kvs, kv.1 = highest) := by
  induction kvs generalizing maxFd with
  | nil => exact ⟨Int.le_refl maxFd, List.forall_mem_nil _, Or.inl rfl⟩
  | cons kv kvs ih =>
    obtain ⟨hle, hall, hreached⟩ := ih (if kv.1 > maxFd then kv.1 else maxFd)
    have hfirst : maxFd ≤ (if kv.1 > maxFd then kv.1 else maxFd) ∧
        kv.1 ≤ (if kv.1 > maxFd then kv.1 else maxFd) := by
      by_cases hgt : kv.1 > maxFd
      · rw [if_pos hgt]
        exact ⟨Int.le_of_lt hgt, Int.le_refl kv.1⟩
      · rw [if_neg hgt]
        exact ⟨Int.le_refl maxFd, Int.not_lt.mp hgt⟩
    refine ⟨Int.le_trans hfirst.1 hle, List.forall_mem_cons.mpr ⟨Int.le_trans hfirst.2 hle, hall⟩, ?_⟩
    rcases hreached with heq | ⟨other, hother, heq⟩
    · rw [List.foldl_cons, heq]
      split
      · exact Or.inr ⟨kv, List.mem_cons_self, rfl⟩
      · exact Or.inl rfl
    · exact Or.inr ⟨other, List.mem_cons_of_mem kv hother, heq⟩

/-- No registered fd is above the number the caller gives to `select`, which is one of them or -1. -/
theorem collectFds_highest (s : RunLoop) :
    (∀ fd ∈ s.collectFds.1, fd ≤ s.collectFds.2) ∧
      (s.collectFds.2 = -1 ∨ s.collectFds.2 ∈ s.collectFds.1) := by
  obtain ⟨-, hall, hreached⟩ := foldl_highest s.eventHandlers (-1)
  refine ⟨List.forall_mem_map.mpr hall, hreached.imp_right ?_⟩
  rintro ⟨kv, hkv, heq⟩
  exact List.mem_map.mpr ⟨kv, hkv, heq⟩

/-- A pass's calls, with the map as it stands. -/
def calls (s : RunLoop) (kvs : List (Fd × Handler)) : List Event :=
  kvs.filterMap fun kv => (s.find kv.1).map fun current => .onFDIsSet kv.1 kv.2 current

/-- Calls leave the rule's state as it is. -/
private theorem observe_calls {kvs : List (Fd × Handler)}
    (hgood : ∀ kv ∈ kvs, ∀ current, s.find kv.1 = some current → kv.2 ∉ gone ∧ kv.2 = current) :
    observe rule gone (s.calls kvs) = some gone := by
  induction kvs with
  | nil => rfl
  | cons kv kvs ih =>
    have hrest := ih fun other hother => hgood other (List.mem_cons_of_mem kv hother)
    unfold calls at *
    cases hf : s.find kv.1 with
    | none => rwa [List.filterMap_cons_none (by rw [hf]; rfl)]
    | some current =>
      obtain ⟨hgone, hcurrent⟩ := hgood kv List.mem_cons_self current hf
      rw [List.filterMap_cons_some (by rw [hf]; rfl), observe_cons, rule, if_neg (by tauto)]
      exact hrest

/-- One call that breaks the rule is enough. -/
private theorem observe_calls_none {kvs : List (Fd × Handler)} {kv : Fd × Handler} {current : Handler} (hmem : kv ∈ kvs)
    (hf : s.find kv.1 = some current) (hbad : kv.2 ∈ gone ∨ kv.2 ≠ current) :
    observe rule gone (s.calls kvs) = none := by
  induction kvs with
  | nil => cases hmem
  | cons other kvs ih =>
    unfold calls at *
    rcases List.mem_cons.mp hmem with rfl | hrest
    · rw [List.filterMap_cons_some (by rw [hf]; rfl), observe_cons, rule, if_pos hbad]
      rfl
    · cases ho : s.find other.1 with
      | none =>
        rw [List.filterMap_cons_none (by rw [ho]; rfl)]
        exact ih hrest
      | some cur =>
        rw [List.filterMap_cons_some (by rw [ho]; rfl), observe_cons, rule]
        split
        · rfl
        · exact ih hrest

/-- The rest of a pass, with no callback that changes the map. -/
private theorem exec_calls (kvs : List (Fd × Handler)) (hs : s.snapshot = some kvs) :
    exec (recorded step) (s, []) (List.replicate kvs.length .call) =
      some ({ s with snapshot := some [] }, s.calls kvs) := by
  induction kvs generalizing s with
  | nil =>
    obtain ⟨handlers, snapshot⟩ := s
    cases hs
    rfl
  | cons kv kvs ih =>
    obtain ⟨fd, h⟩ := kv
    rw [List.length_cons, List.replicate_succ, exec]
    simp only [recorded, step, hs]
    rw [Option.map_some, Option.bind_some, exec_recorded, ih rfl]
    simp only [Option.map_some, List.nil_append, calls, List.filterMap_cons]
    have hsame : ∀ fd, ({ s with snapshot := some kvs } : RunLoop).find fd = s.find fd := fun _ => rfl
    cases hf : s.find fd with
    | none => simp [hsame]
    | some current => simp [hsame]

/-- The host's steps to the end of the pass in hand, if there is one. -/
def finish (s : RunLoop) : List Act := match s.snapshot with
  | none => []
  | some kvs => List.replicate kvs.length .call ++ [.dispatched]

theorem finish_ofHost (s : RunLoop) : s.finish.all Act.ofHost := by
  unfold finish
  split <;> simp [Act.ofHost]

theorem exec_finish (s : RunLoop) :
    exec (recorded step) (s, []) s.finish = some ({ s with snapshot := none }, s.calls (s.snapshot.getD [])) := by
  unfold finish
  cases hs : s.snapshot with
  | none =>
    obtain ⟨handlers, snapshot⟩ := s
    cases hs
    rfl
  | some kvs =>
    rw [exec_append, exec_calls kvs hs, Option.bind_some]
    simp only [exec, recorded, step]
    rw [Option.map_some, List.append_nil]
    rfl

/-- A pass that finds only `fd` ready. -/
private theorem exec_dispatch (hs : s.snapshot = none) (hf : s.find fd = some h) :
    exec (recorded step) (s, []) [.dispatch [fd], .call] =
      some ({ s with snapshot := some [] }, [.onFDIsSet fd h h]) := by
  have hsame : ∀ snapshot, ({ s with snapshot } : RunLoop).find fd = some h := fun _ => hf
  simp [exec, recorded, step, take, hs, hf, hsame]

private theorem find_of_mem_take {readyFds : List Fd} {kv : Fd × Handler} (hmem : kv ∈ s.take readyFds) :
    s.find kv.1 = some kv.2 := by
  obtain ⟨fd, -, hkv⟩ := List.mem_filterMap.mp hmem
  obtain ⟨h, hf, rfl⟩ := Option.map_eq_some_iff.mp hkv
  exact hf

private theorem fresh_initial : Fresh initial [] where
  snapshot := fun _ hkv => absurd hkv List.not_mem_nil
  registered := fun _ _ _ => List.not_mem_nil

private theorem fresh_register (hfresh : Fresh s gone) (hf : s.find fd = none)
    (hpermits : ∀ kv ∈ s.snapshot.getD [], kv.1 = fd → kv.2 = h) :
    Fresh { s with eventHandlers := s.eventHandlers ++ [(fd, h)] } (gone.filter (· != h)) where
  snapshot := by
    intro kv hkv h' hfind
    rw [find_append kv.1 hf] at hfind
    split at hfind
    · rename_i heq
      rw [hpermits kv hkv heq]
      exact Option.some.inj hfind
    · exact hfresh.snapshot kv hkv h' hfind
  registered := by
    intro fd' h' hfind hmem
    obtain ⟨hgone, hne⟩ := List.mem_filter.mp hmem
    rw [find_append fd' hf] at hfind
    split at hfind
    · cases hfind
      simp at hne
    · exact hfresh.registered fd' h' hfind hgone

private theorem fresh_unregister (hfresh : Fresh s gone)
    (hpermits : ∀ kv ∈ s.eventHandlers, s.find kv.1 = some h → kv.1 = fd) :
    Fresh { s with eventHandlers := s.eventHandlers.filter fun kv => kv.1 != fd } (h :: gone) where
  snapshot := by
    intro kv hkv h' hfind
    rw [find_filter] at hfind
    split at hfind
    · cases hfind
    · exact hfresh.snapshot kv hkv h' hfind
  registered := by
    intro fd' h' hfind hmem
    rw [find_filter] at hfind
    split at hfind
    · cases hfind
    · rename_i hne
      rcases List.mem_cons.mp hmem with rfl | hgone
      · exact hne (hpermits _ (mem_of_find hfind) hfind)
      · exact hfresh.registered fd' h' hfind hgone

private theorem fresh_step {es : List Event} (hfresh : Fresh s gone) (hpermits : Permits s act)
    (hstep : s.step act = some (t, es)) : ∃ gone', observe rule gone es = some gone' ∧ Fresh t gone' := by
  cases act with
  | register handler fd =>
    cases handler with
    | none =>
      cases hstep
      exact ⟨gone, rfl, hfresh⟩
    | some h =>
      rw [step] at hstep
      split at hstep
      · cases hstep
        exact ⟨gone, rfl, hfresh⟩
      · rename_i hf
        cases hstep
        have hnone : s.find fd = none := Option.not_isSome_iff_eq_none.mp hf
        exact ⟨_, rfl, fresh_register hfresh hnone (hpermits hnone)⟩
  | unregister handler first =>
    cases handler with
    | none =>
      cases hstep
      exact ⟨gone, rfl, hfresh⟩
    | some h =>
      rw [step] at hstep
      split at hstep
      · obtain ⟨hf, hout⟩ := Option.ite_none_right_eq_some.mp hstep
        cases hout
        exact ⟨_, rfl, fresh_unregister hfresh (hpermits hf)⟩
      · cases hstep
        exact ⟨gone, rfl, hfresh⟩
  | dispatch readyFds =>
    rw [step] at hstep
    split at hstep
    · cases hstep
    · cases hstep
      refine ⟨gone, rfl, ?_, hfresh.registered⟩
      intro kv hkv h hfind
      exact Option.some.inj ((find_of_mem_take hkv).symm.trans hfind)
  | call =>
    rw [step] at hstep
    split at hstep
    · rename_i fd h rest hs
      cases hstep
      have hrest : Fresh { s with snapshot := some rest } gone := by
        refine ⟨fun kv hkv => hfresh.snapshot kv ?_, hfresh.registered⟩
        rw [hs]
        exact List.mem_cons_of_mem _ hkv
      split
      · exact ⟨gone, rfl, hrest⟩
      · rename_i current hf
        have hcurrent : h = current := hfresh.snapshot (fd, h) (by rw [hs]; exact List.mem_cons_self) current hf
        have hgone : h ∉ gone := hfresh.registered fd h (hcurrent ▸ hf)
        refine ⟨gone, ?_, hrest⟩
        rw [observe_cons, rule, if_neg (by tauto)]
        rfl
    · cases hstep
  | dispatched =>
    rw [step] at hstep
    split at hstep
    · cases hstep
      exact ⟨gone, rfl, fun kv hkv => absurd hkv List.not_mem_nil, hfresh.registered⟩
    · cases hstep

theorem permits_of_ofHost (hhost : act.ofHost) : Permits s act := by
  cases act with
  | register | unregister => cases hhost
  | dispatch | call | dispatched => trivial

/-- A stale pair of the pass, or a gone handler that is still registered, is called in the end. -/
private theorem refused_of_not_fresh (hstale : ¬ Fresh s gone) :
    ∃ acts p, acts.all Act.ofHost ∧ exec (recorded step) (s, []) acts = some p ∧ observe rule gone p.2 = none := by
  by_cases hbad : ∃ kv ∈ s.snapshot.getD [], ∃ current, s.find kv.1 = some current ∧
      (kv.2 ∈ gone ∨ kv.2 ≠ current)
  · obtain ⟨kv, hkv, current, hf, hbad⟩ := hbad
    exact ⟨s.finish, _, s.finish_ofHost, s.exec_finish, observe_calls_none hkv hf hbad⟩
  · have hgood : ∀ kv ∈ s.snapshot.getD [], ∀ current, s.find kv.1 = some current →
        kv.2 ∉ gone ∧ kv.2 = current := by
      intro kv hkv current hf
      by_contra hno
      exact hbad ⟨kv, hkv, current, hf, by tauto⟩
    obtain ⟨fd, h, hf, hgone⟩ : ∃ fd h, s.find fd = some h ∧ h ∈ gone := by
      by_contra hno
      push Not at hno
      exact hstale ⟨fun kv hkv h hf => (hgood kv hkv h hf).2, hno⟩
    refine ⟨s.finish ++ [.dispatch [fd], .call],
      ({ s with snapshot := some [] }, s.calls (s.snapshot.getD []) ++ [.onFDIsSet fd h h]), ?_, ?_, ?_⟩
    · rw [List.all_append, s.finish_ofHost]
      rfl
    · have hpass := exec_dispatch (s := { s with snapshot := none }) rfl hf
      rw [exec_append, s.exec_finish, Option.bind_some, exec_recorded, hpass, Option.map_some]
    · rw [observe_append_of (observe_calls hgood), observe_cons, rule, if_pos (Or.inl hgone)]
      rfl

private theorem permits_of_fresh {es : List Event} (hstep : s.step act = some (t, es))
    (hobs : observe rule gone es = some gone') (hfresh : Fresh t gone') : Permits s act := by
  cases act with
  | register handler fd =>
    cases handler with
    | none => trivial
    | some h =>
      intro hf kv hkv hfd
      simp only [step, hf, Option.isSome_none, Bool.false_eq_true, ↓reduceIte] at hstep
      cases hstep
      exact hfresh.snapshot kv hkv h (by rw [find_append kv.1 hf, if_pos hfd])
  | unregister handler first =>
    cases handler with
    | none => trivial
    | some h =>
      intro hf kv hkv hfind
      by_contra hne
      have hany : (s.eventHandlers.any fun kv => kv.2 == h) = true :=
        List.any_eq_true.mpr ⟨(first, h), mem_of_find hf, beq_self_eq_true h⟩
      rw [step, if_pos hany, if_pos hf] at hstep
      cases hstep
      cases hobs
      exact hfresh.registered kv.1 h (by rw [find_filter, if_neg hne, hfind]) List.mem_cons_self
  | dispatch | call | dispatched => trivial

/-- No handler is called when it is gone or superseded, now or by what the host does next, exactly
while the map's users keep to `Permits`. -/
theorem safe_iff {acts : List Act} {p : RunLoop × List Event}
    (he : exec (recorded step) (initial, []) acts = some p) :
    Always (recorded step) Safe (initial, []) acts ↔
      Meets (recorded step) (fun q act => Permits q.1 act) (initial, []) acts :=
  foreseen_iff_meets Fresh fresh_step permits_of_ofHost refused_of_not_fresh
    (fun _ hstep hobs hfresh => permits_of_fresh hstep hobs hfresh) fresh_initial he

/-- A handler that takes itself off and puts itself back during its own call. -/
theorem safe_rearmed : Always (recorded step) Safe (initial, [])
    [.register (some 10) 1, .register (some 20) 2, .dispatch [1, 2], .call, .unregister (some 10) 1,
      .register (some 10) 1, .call, .dispatched] := by
  obtain ⟨p, hp⟩ := Option.isSome_iff_exists.mp (show (exec (recorded step) (initial, [])
    [.register (some 10) 1, .register (some 20) 2, .dispatch [1, 2], .call, .unregister (some 10) 1,
      .register (some 10) 1, .call, .dispatched]).isSome by decide +kernel)
  exact (safe_iff hp).mpr (meets_of_checks (by decide +kernel))

/-- The first handler called takes the second one off its fd and gives the fd to a third: the pass
still calls the second. -/
theorem superseded_called : ¬ Always (recorded step) Obeys (initial, [])
    [.register (some 10) 1, .register (some 20) 2, .dispatch [1, 2], .call, .unregister (some 20) 2,
      .register (some 30) 2, .call] := by
  intro h
  obtain ⟨p, hp, hevents⟩ := Option.map_eq_some_iff.mp (show (exec (recorded step) (initial, [])
    [.register (some 10) 1, .register (some 20) 2, .dispatch [1, 2], .call, .unregister (some 20) 2,
      .register (some 30) 2, .call]).map Prod.snd = some [.registered 10, .registered 20, .onFDIsSet 1 10 10,
      .unregistered 20, .registered 30, .onFDIsSet 2 20 30] by decide +kernel)
  obtain ⟨gone, hgone⟩ := h.end hp
  have hrefused : observe rule [] [.registered 10, .registered 20, .onFDIsSet 1 10 10, .unregistered 20,
    .registered 30, .onFDIsSet 2 20 30] = none := by decide
  rw [hevents, hrefused] at hgone
  cases hgone

end RunLoop
end Plughost.Vst3.RunLoopFds
