import Plughost.Vst3.RunLoopFds

/-! The `fd_set` that `GuiThread::ThreadMain` builds from the X connection, the wake pipe and the
run loop's fds, whichever fds the plugins register. -/
namespace Plughost.Vst3.SelectSets
open Plughost.Runs Plughost.Monitors Plughost.Vst3.RunLoopFds

/-- `FD_SETSIZE`. -/
def fdSetSize : Fd := 1024

/-- What `FD_SET` may be given. -/
def InRange (fd : Fd) : Prop := 0 ≤ fd ∧ fd < fdSetSize

instance (fd : Fd) : Decidable (InRange fd) := inferInstanceAs (Decidable (_ ∧ _))

/-- The fds of the thread's own: `ConnectionNumber(display_)` and `wakePipe_[0]`. -/
structure OwnFds where
  xfd : Fd
  wakeFd : Fd
  xfd_inRange : InRange xfd
  wakeFd_inRange : InRange wakeFd

/-- The fds put into the set, and the first argument of `select`. -/
structure Selection where
  fds : List Fd
  nfds : Fd
  deriving DecidableEq, Repr

/-- Every fd has its bit in the set, and `select` looks at it. -/
def Selection.Covered (sel : Selection) : Prop := ∀ fd ∈ sel.fds, InRange fd ∧ fd < sel.nfds

instance (sel : Selection) : Decidable sel.Covered := inferInstanceAs (Decidable (∀ fd ∈ sel.fds, _ ∧ _))

inductive Act where
  /-- A step of the run loop. -/
  | runLoop (act : RunLoopFds.Act)
  /-- The set is built, and `select` called. -/
  | select
  deriving DecidableEq, Repr

def Act.ofHost : Act → Bool
  | .runLoop act => act.ofHost
  | .select => true

/-- `if (fd > maxFd) maxFd = fd`. -/
def raise (maxFd fd : Fd) : Fd := if fd > maxFd then fd else maxFd

section ThreadMain
variable (own : OwnFds) (s : RunLoop)

def buildSet : Selection :=
  let maxFd := raise (-1) own.xfd
  let wakeFds := if own.wakeFd ≥ 0 then [own.wakeFd] else []
  let maxFd := if own.wakeFd ≥ 0 then raise maxFd own.wakeFd else maxFd
  let collected := s.collectFds
  ⟨own.xfd :: wakeFds ++ collected.1, raise maxFd collected.2 + 1⟩

def step : Act → Option (RunLoop × List Selection)
  | .runLoop act => (s.step act).map fun out => (out.1, [])
  | .select => if s.snapshot = none then some (s, [buildSet own s]) else none

end ThreadMain

def rule (_ : Unit) (sel : Selection) : Option Unit := if sel.Covered then some () else none

/-- Every set built so far is covered. -/
def Covers : RunLoop × List Selection → Prop := Accepts rule ()

/-- The sets that the thread still builds with the fds it has are covered too. -/
def Safe (own : OwnFds) : RunLoop × List Selection → Prop := Stays (recorded (step own)) Act.ofHost Covers

/-- A registration that succeeds is of an fd that `FD_SET` may be given. -/
def Permits (s : RunLoop) : Act → Prop
  | .runLoop (.register (some _) fd) => s.find fd = none → InRange fd
  | _ => True

instance (s : RunLoop) : (act : Act) → Decidable (Permits s act)
  | .runLoop (.register (some _) fd) => inferInstanceAs (Decidable (s.find fd = none → InRange fd))
  | .runLoop (.register none _) | .runLoop (.unregister _ _) | .runLoop (.dispatch _) | .runLoop .call
  | .runLoop .dispatched | .select => inferInstanceAs (Decidable True)

variable {own : OwnFds} {s t : RunLoop} {act : Act} {sels : List Selection}

/-- The registered fds are in range. -/
def Ranged (s : RunLoop) : Prop := ∀ kv ∈ s.eventHandlers, InRange kv.1

private theorem le_raise (maxFd fd : Fd) : maxFd ≤ raise maxFd fd ∧ fd ≤ raise maxFd fd := by
  unfold raise
  split
  · rename_i hgt
    exact ⟨Int.le_of_lt hgt, Int.le_refl fd⟩
  · rename_i hle
    exact ⟨Int.le_refl maxFd, Int.not_lt.mp hle⟩

private theorem buildSet_eq : buildSet own s = ⟨own.xfd :: own.wakeFd :: s.collectFds.1,
    raise (raise (raise (-1) own.xfd) own.wakeFd) s.collectFds.2 + 1⟩ := by
  have hwake : own.wakeFd ≥ 0 := own.wakeFd_inRange.1
  rw [buildSet, if_pos hwake, if_pos hwake]
  rfl

/-- `select` looks at every fd of the set. -/
private theorem lt_nfds {fd : Fd} (hfd : fd ∈ (buildSet own s).fds) : fd < (buildSet own s).nfds := by
  rw [buildSet_eq] at hfd ⊢
  have hx := (le_raise (-1) own.xfd).2
  have hwake := le_raise (raise (-1) own.xfd) own.wakeFd
  have hcollected := le_raise (raise (raise (-1) own.xfd) own.wakeFd) s.collectFds.2
  refine Int.lt_add_one_iff.mpr ?_
  rcases List.mem_cons.mp hfd with rfl | hfd
  · exact Int.le_trans hx (Int.le_trans hwake.1 hcollected.1)
  rcases List.mem_cons.mp hfd with rfl | hfd
  · exact Int.le_trans hwake.2 hcollected.1
  · exact Int.le_trans (s.collectFds_highest.1 fd hfd) hcollected.2

private theorem covered_iff : (buildSet own s).Covered ↔ Ranged s := by
  constructor
  · intro hcovered kv hkv
    refine (hcovered kv.1 ?_).1
    rw [buildSet_eq]
    exact List.mem_cons_of_mem _ (List.mem_cons_of_mem _ (List.mem_map_of_mem hkv))
  · intro hranged fd hfd
    refine ⟨?_, lt_nfds hfd⟩
    rw [buildSet_eq] at hfd
    rcases List.mem_cons.mp hfd with rfl | hfd
    · exact own.xfd_inRange
    rcases List.mem_cons.mp hfd with rfl | hfd
    · exact own.wakeFd_inRange
    · obtain ⟨kv, hkv, rfl⟩ := List.mem_map.mp hfd
      exact hranged kv hkv

/-- The run loop's steps are its own, and build no set. -/
private theorem exec_runLoop (acts : List RunLoopFds.Act) (es : List Event) :
    exec (recorded (step own)) (s, sels) (acts.map .runLoop) =
      (exec (recorded RunLoop.step) (s, es) acts).map fun p => (p.1, sels) := by
  induction acts generalizing s es with
  | nil => rfl
  | cons act acts ih =>
    rw [List.map_cons, exec, exec]
    simp only [recorded, step, Option.map_map]
    cases s.step act with
    | none => rfl
    | some out =>
      simp only [Option.map_some, Option.bind_some, Function.comp_apply, List.append_nil]
      exact ih (s := out.1) (es ++ out.2)

private theorem handlers_of_ofHost {loop : RunLoopFds.Act} {es : List Event} (hhost : loop.ofHost)
    (hstep : s.step loop = some (t, es)) : t.eventHandlers = s.eventHandlers := by
  cases loop with
  | register | unregister => cases hhost
  | dispatch readyFds =>
    rw [RunLoop.step] at hstep
    split at hstep
    · cases hstep
    · cases hstep
      rfl
  | call | dispatched =>
    rw [RunLoop.step] at hstep
    split at hstep
    · cases hstep
      rfl
    · cases hstep

private theorem ranged_register {loop : RunLoop} {h : Handler} {fd : Fd} {es : List Event} (hranged : Ranged s)
    (hfd : s.find fd = none → InRange fd) (hstep : s.step (.register (some h) fd) = some (loop, es)) :
    Ranged loop := by
  rw [RunLoop.step] at hstep
  split at hstep
  · cases hstep
    exact hranged
  · rename_i hnone
    cases hstep
    intro kv hkv
    rcases List.mem_append.mp hkv with hold | hnew
    · exact hranged kv hold
    · rw [List.mem_singleton.mp hnew]
      exact hfd (Option.not_isSome_iff_eq_none.mp hnone)

private theorem ranged_unregister {loop : RunLoop} {h : Handler} {first : Fd} {es : List Event} (hranged : Ranged s)
    (hstep : s.step (.unregister (some h) first) = some (loop, es)) : Ranged loop := by
  rw [RunLoop.step] at hstep
  split at hstep
  · obtain ⟨-, hout⟩ := Option.ite_none_right_eq_some.mp hstep
    cases hout
    exact fun kv hkv => hranged kv (List.mem_of_mem_filter hkv)
  · cases hstep
    exact hranged

private theorem ranged_step (hranged : Ranged s) (hpermits : Permits s act) (hstep : step own s act = some (t, sels)) :
    ∃ u, observe rule () sels = some u ∧ Ranged t := by
  cases act with
  | select =>
    obtain ⟨-, hout⟩ := Option.ite_none_right_eq_some.mp hstep
    cases hout
    refine ⟨(), ?_, hranged⟩
    rw [observe_cons, rule, if_pos (covered_iff.mpr hranged)]
    rfl
  | runLoop loop =>
    obtain ⟨out, hloop, hout⟩ := Option.map_eq_some_iff.mp hstep
    cases hout
    refine ⟨(), rfl, ?_⟩
    cases loop with
    | register handler fd =>
      cases handler with
      | none =>
        cases hloop
        exact hranged
      | some h => exact ranged_register hranged hpermits hloop
    | unregister handler first =>
      cases handler with
      | none =>
        cases hloop
        exact hranged
      | some h => exact ranged_unregister hranged hloop
    | dispatch | call | dispatched =>
      rw [Ranged, handlers_of_ofHost rfl hloop]
      exact hranged

theorem permits_of_ofHost (hhost : act.ofHost) : Permits s act := by
  cases act with
  | select => trivial
  | runLoop loop =>
    cases loop with
    | register | unregister => cases hhost
    | dispatch | call | dispatched => trivial

/-- The thread comes to build a set with the fds it has. -/
private theorem refused_of_not_ranged (hout : ¬ Ranged s) : ∃ acts p, acts.all Act.ofHost ∧
    exec (recorded (step own)) (s, []) acts = some p ∧ observe rule () p.2 = none := by
  have hlater : ¬ Ranged { s with snapshot := none } := hout
  refine ⟨s.finish.map .runLoop ++ [.select],
    ({ s with snapshot := none }, [buildSet own { s with snapshot := none }]), ?_, ?_, ?_⟩
  · rw [List.all_append, List.all_map]
    exact Bool.and_eq_true_iff.mpr ⟨s.finish_ofHost, rfl⟩
  · rw [exec_append, exec_runLoop s.finish [], s.exec_finish]
    rfl
  · rw [observe_cons, rule, if_neg fun hcovered => hlater (covered_iff.mp hcovered)]
    rfl

private theorem permits_of_ranged (hstep : step own s act = some (t, sels)) (hranged : Ranged t) : Permits s act := by
  cases act with
  | select => trivial
  | runLoop loop =>
    cases loop with
    | register handler fd =>
      cases handler with
      | none => trivial
      | some h =>
        intro hnone
        simp only [step, RunLoop.step, hnone, Option.isSome_none, Bool.false_eq_true, ↓reduceIte,
          Option.map_some] at hstep
        cases hstep
        exact hranged (fd, h) (List.mem_append_right _ List.mem_cons_self)
    | unregister | dispatch | call | dispatched => trivial

/-- The sets built are within what `FD_SET` and `select` may be given, now and by whatever the thread
does next, exactly when every fd registered is. -/
theorem sets_safe_iff {acts : List Act} {p : RunLoop × List Selection}
    (he : exec (recorded (step own)) (RunLoop.initial, []) acts = some p) :
    Always (recorded (step own)) (Safe own) (RunLoop.initial, []) acts ↔
      Meets (recorded (step own)) (fun q act => Permits q.1 act) (RunLoop.initial, []) acts :=
  foreseen_iff_meets (fun s _ => Ranged s) ranged_step permits_of_ofHost refused_of_not_ranged
    (fun _ hstep _ hranged => permits_of_ranged hstep hranged) (List.forall_mem_nil _) he

/-- The X connection is fd 3, the wake pipe fd 4. -/
def lowFds : OwnFds := ⟨3, 4, by decide, by decide⟩

/-- Two fds of a plugin, one of them the highest that fits. -/
theorem safe_two_fds : Always (recorded (step lowFds)) (Safe lowFds) (RunLoop.initial, [])
    [.runLoop (.register (some 10) 7), .runLoop (.register (some 20) 1023), .select, .runLoop (.dispatch [7]),
      .runLoop .call, .runLoop (.unregister (some 20) 1023), .runLoop .dispatched, .select] := by
  obtain ⟨p, hp⟩ := Option.isSome_iff_exists.mp (show (exec (recorded (step lowFds)) (RunLoop.initial, [])
    [.runLoop (.register (some 10) 7), .runLoop (.register (some 20) 1023), .select, .runLoop (.dispatch [7]),
      .runLoop .call, .runLoop (.unregister (some 20) 1023), .runLoop .dispatched, .select]).isSome by
        decide +kernel)
  exact (sets_safe_iff hp).mpr (meets_of_checks (by decide +kernel))

/-- A plugin in a process with many descriptors. -/
theorem covers_fails : ¬ Always (recorded (step lowFds)) Covers (RunLoop.initial, [])
    [.runLoop (.register (some 10) 1024), .select] := by
  intro h
  obtain ⟨p, hp, hsets⟩ := Option.map_eq_some_iff.mp (show (exec (recorded (step lowFds)) (RunLoop.initial, [])
    [.runLoop (.register (some 10) 1024), .select]).map Prod.snd = some [⟨[3, 4, 1024], 1025⟩] by decide +kernel)
  obtain ⟨u, hu⟩ := h.end hp
  have hrefused : observe rule () [⟨[3, 4, 1024], 1025⟩] = none := by decide
  rw [hsets, hrefused] at hu
  cases hu

end Plughost.Vst3.SelectSets
