import Mathlib.Algebra.GroupWithZero.Nat
import Mathlib.Data.List.Nodup
import Plughost.Clap.Host

/-! Timers under re-entrant callbacks: an unregistered timer and the fire loop that has its id
in hand, and what a whole tick fires. -/
namespace Plughost.Clap
open Plughost.Runs Plughost.BoundedQueue

/-- `on_timer` with that id. -/
def Event.firesId : Event → Option TimerId
  | .onTimer _ id _ => some id
  | _ => none

def Event.unregisteredId : Event → Option TimerId
  | .unregistered id => some id
  | _ => none

namespace Host
variable {s t : Host} {a : ActiveInst} {i : Inst} {id : TimerId} {act : Act}

/-- No `on_timer` comes after the unregistration of its id. -/
def NoneAfter (log : List Event) : Prop :=
  log.Pairwise fun e e' => ∀ id, e.unregisteredId = some id → e'.firesId ≠ some id

/-- Where a fire loop is through, each timer that was due and not unregistered since has been
fired once. -/
def TickDone (s : Host) : Prop :=
  match s.phase with
  | .firing f => f.rest = [] → ∀ id ∈ f.due, id ∉ f.gone → f.fired.count id = 1
  | _ => True

/-- Both parts of the rule. -/
def Obeys (s : Host) : Prop := NoneAfter s.log ∧ s.TickDone

/-- An id is handed out for the first time; no callback unregisters a timer that the loop has still
to fire; and where a tick looks at the timers none was last fired 2^32 milliseconds ago or earlier. -/
def Kept (s : Host) : Act → Prop
  | .timerRegister _ _ => s.nextTimerId ∉ s.issued
  | .timerUnregister _ id => match s.phase with
    | .firing f => id ∉ f.rest.map Prod.fst
    | _ => True
  | .snapshot => ∀ r ∈ s.timers, s.elapsed r < 2 ^ 32
  | _ => True

instance (s : Host) (act : Act) : Decidable (s.Kept act) :=
  match act with
  | .timerRegister _ _ => inferInstanceAs (Decidable (s.nextTimerId ∉ s.issued))
  | .timerUnregister _ id => match h : s.phase with
    | .firing f => decidable_of_iff (id ∉ f.rest.map Prod.fst) (by simp [Kept, h])
    | .idle | .loading _ | .closing _ | .mainThread _ | .flushed _ => .isTrue (by simp [Kept, h])
  | .snapshot => inferInstanceAs (Decidable (∀ r ∈ s.timers, s.elapsed r < 2 ^ 32))
  | .advance _ | .load | .loadFails | .loadSucceeds _ _ | .tornDown | .unload | .setParam _ _ | .requestFlush _
  | .process | .tick | .flush | .fire | .tickEnd => .isTrue trivial

/-- The ids that have been unregistered. -/
def retired (s : Host) : List TimerId := s.log.filterMap Event.unregisteredId

/-- The fire loop goes through what was due, in order, and what it has still to fire has
not been unregistered. -/
def Ordered (s : Host) (f : Firing) : Prop :=
  f.due = f.fired ++ f.rest.map Prod.fst ∧ f.due.Nodup ∧ ∀ id ∈ f.rest.map Prod.fst, id ∈ s.issued ∧ id ∉ s.retired

structure TimerInv (s : Host) : Prop where
  none : NoneAfter s.log
  ids : (s.timers.map Timer.id).Nodup
  issued : ∀ r ∈ s.timers, r.id ∈ s.issued ∧ r.id ∉ s.retired
  retired : ∀ id ∈ s.retired, id ∈ s.issued
  loop : ∀ f, s.phase = .firing f → s.Ordered f

theorem TimerInv.initial : TimerInv Host.initial :=
  ⟨.nil, .nil, nofun, nofun, nofun⟩

private theorem TimerInv.obeys (h : TimerInv s) : Obeys s := by
  refine ⟨h.none, ?_⟩
  unfold TickDone
  split
  · rename_i f hp
    intro hrest id hid _
    obtain ⟨hdue, hnodup, -⟩ := h.loop f hp
    rw [hrest, List.map_nil, List.append_nil] at hdue
    rw [hdue] at hnodup hid
    exact List.count_eq_one_of_mem hnodup hid
  · trivial

/-- Events that neither fire nor unregister a timer. -/
private theorem noneAfter_append {log es : List Event} (h : NoneAfter log)
    (he : ∀ e ∈ es, e.firesId = none ∧ e.unregisteredId = none) : NoneAfter (log ++ es) := by
  refine List.pairwise_append.mpr ⟨h, ?_, fun e _ e' he' id _ => ?_⟩
  · refine List.pairwise_iff_forall_sublist.mpr fun {e e'} hsub id hid => ?_
    rw [(he e (hsub.subset List.mem_cons_self)).2] at hid
    cases hid
  · rw [(he e' he').1]
    nofun

theorem noneAfter_fire {log : List Event} {owner : Inst} (h : NoneAfter log)
    (hid : id ∉ log.filterMap Event.unregisteredId) : NoneAfter (log ++ [.onTimer i id owner]) := by
  refine List.pairwise_append.mpr ⟨h, List.pairwise_singleton _ _, fun e he e' he' id' hun => ?_⟩
  rw [List.mem_singleton.mp he']
  rintro ⟨⟩
  exact hid (List.mem_filterMap.mpr ⟨e, he, hun⟩)

theorem noneAfter_unregister {log : List Event} (h : NoneAfter log) : NoneAfter (log ++ [.unregistered id]) := by
  refine List.pairwise_append.mpr ⟨h, List.pairwise_singleton _ _, fun e _ e' he' id' _ => ?_⟩
  rw [List.mem_singleton.mp he']
  nofun

/-- A step that touches neither the registry nor the fire loop. -/
theorem TimerInv.frame (h : TimerInv s) {es : List Event}
    (he : ∀ e ∈ es, e.firesId = Option.none ∧ e.unregisteredId = Option.none)
    (hlog : t.log = s.log ++ es) (htimers : t.timers = s.timers ∨ t.timers = []) (hissued : t.issued = s.issued)
    (hphase : ∀ f, t.phase = .firing f → s.phase = .firing f) : TimerInv t := by
  have hretired : t.retired = s.retired := by
    have hes : es.filterMap Event.unregisteredId = [] :=
      List.filterMap_eq_nil_iff.mpr fun e hin => (he e hin).2
    rw [Host.retired, hlog, List.filterMap_append, hes, List.append_nil]
    rfl
  refine ⟨hlog ▸ noneAfter_append h.none he, ?_, ?_, ?_, fun f hf => ?_⟩
  · rcases htimers with htimers | htimers <;> rw [htimers]
    · exact h.ids
    · exact .nil
  · rw [hissued, hretired]
    rcases htimers with htimers | htimers <;> rw [htimers]
    · exact h.issued
    · nofun
  · rw [hretired, hissued]
    exact h.retired
  · rw [Ordered, hissued, hretired]
    exact h.loop f (hphase f hf)

theorem TimerInv.quiet (h : TimerInv s) (hlog : t.log = s.log) (htimers : t.timers = s.timers ∨ t.timers = [])
    (hissued : t.issued = s.issued) (hphase : ∀ f, t.phase = .firing f → s.phase = .firing f) : TimerInv t :=
  have hnil : ∀ e ∈ ([] : List Event), e.firesId = Option.none ∧ e.unregisteredId = Option.none :=
    fun _ he => absurd he List.not_mem_nil
  h.frame hnil (by rw [hlog, List.append_nil]) htimers hissued hphase

theorem TimerInv.register (h : TimerInv s) (hnew : s.nextTimerId ∉ s.issued) (i : Inst) (periodMs : BitVec 32) :
    TimerInv (s.register i periodMs) := by
  refine ⟨h.none, ?_, fun r hr => ?_, fun id hid => List.mem_cons_of_mem _ (h.retired id hid), fun f hf => ?_⟩
  · simp only [Host.register, List.map_append, List.map_cons, List.map_nil]
    refine List.nodup_append.mpr ⟨h.ids, List.pairwise_singleton _ _, fun x hx y hy => ?_⟩
    rw [List.mem_singleton.mp hy]
    rintro rfl
    obtain ⟨r, hr, heq⟩ := List.mem_map.mp hx
    exact hnew (heq ▸ (h.issued r hr).1)
  · rcases List.mem_append.mp hr with hr | hr
    · exact ⟨List.mem_cons_of_mem _ (h.issued r hr).1, (h.issued r hr).2⟩
    · rw [List.mem_singleton.mp hr]
      exact ⟨List.mem_cons_self, fun hin => hnew (h.retired _ hin)⟩
  · obtain ⟨hdue, hnodup, hrest⟩ := h.loop f hf
    exact ⟨hdue, hnodup, fun id hid => ⟨List.mem_cons_of_mem _ (hrest id hid).1, (hrest id hid).2⟩⟩

private theorem ne_of_mem_eraseP {timers : List Timer} {r : Timer} (hn : (timers.map Timer.id).Nodup)
    (hr : r ∈ timers.eraseP fun q => q.id == id) : r.id ≠ id := by
  induction timers with
  | nil => cases hr
  | cons q timers ih =>
    obtain ⟨hq, hn⟩ := List.nodup_cons.mp hn
    by_cases hid : q.id = id
    · rw [List.eraseP_cons_of_pos (by simpa using hid)] at hr
      rintro rfl
      exact hq (hid ▸ List.mem_map_of_mem hr)
    · rw [List.eraseP_cons_of_neg (by simpa using hid)] at hr
      rcases List.mem_cons.mp hr with rfl | hr
      · exact hid
      · exact ih hn hr

/-- The id that goes is not one the fire loop has in hand. -/
theorem TimerInv.unregister (h : TimerInv s) (hok : s.Kept (.timerUnregister i id)) : TimerInv (s.unregister id) := by
  unfold Host.unregister
  split
  · rename_i hfound
    obtain ⟨r, hr, hid⟩ := List.any_eq_true.mp hfound
    obtain rfl : r.id = id := eq_of_beq hid
    have hretired : (s.log ++ [Event.unregistered r.id]).filterMap Event.unregisteredId = s.retired ++ [r.id] := by
      rw [List.filterMap_append]
      rfl
    have hissued := (h.issued r hr).1
    refine ⟨noneAfter_unregister h.none, ?_, fun q hq => ?_, fun id hid => ?_, fun f hf => ?_⟩
    · exact (List.Sublist.map Timer.id List.eraseP_sublist).nodup h.ids
    · have hmem := List.mem_of_mem_eraseP hq
      refine ⟨(h.issued q hmem).1, ?_⟩
      change q.id ∉ (s.log ++ [Event.unregistered r.id]).filterMap Event.unregisteredId
      rw [hretired, List.mem_append, List.mem_singleton]
      rintro (hin | heq)
      · exact (h.issued q hmem).2 hin
      · exact ne_of_mem_eraseP h.ids hq heq
    · change id ∈ (s.log ++ [Event.unregistered r.id]).filterMap Event.unregisteredId at hid
      rw [hretired] at hid
      rcases List.mem_append.mp hid with hid | hid
      · exact h.retired id hid
      · rw [List.mem_singleton.mp hid]
        exact hissued
    · cases hp : s.phase with
      | firing g =>
        simp only [hp, noteGone, Phase.firing.injEq] at hf
        subst hf
        obtain ⟨hdue, hnodup, hrest⟩ := h.loop g hp
        have hkept : r.id ∉ g.rest.map Prod.fst := by simpa only [Kept, hp] using hok
        refine ⟨hdue, hnodup, fun id hid => ⟨(hrest id hid).1, ?_⟩⟩
        change id ∉ (s.log ++ [Event.unregistered r.id]).filterMap Event.unregisteredId
        rw [hretired, List.mem_append, List.mem_singleton]
        rintro (hin | rfl)
        · exact (hrest id hid).2 hin
        · exact hkept hid
      | idle | loading | closing | mainThread | flushed =>
        simp only [hp, noteGone, reduceCtorEq] at hf
  · exact h

/-- Below 2^32 milliseconds the test on the cut count is the test on the count. -/
private theorem isDue_iff {r : Timer} (hr : s.elapsed r < 2 ^ 32) :
    s.isDue r = decide (r.periodMs.toNat ≤ s.elapsed r) := by
  refine decide_eq_decide.mpr ?_
  rw [BitVec.le_def, BitVec.toNat_ofNat, Nat.mod_eq_of_lt hr]

theorem TimerInv.takeDue (h : TimerInv s) (hok : s.Kept .snapshot) (a : ActiveInst) : TimerInv (s.takeDue a) := by
  have hsame : s.timers.filter s.isDue = s.timers.filter fun r => r.periodMs.toNat ≤ s.elapsed r :=
    List.filter_congr fun r hr => isDue_iff (hok r hr)
  have hids : (s.takeDue a).timers.map Timer.id = s.timers.map Timer.id := by
    rw [Host.takeDue, List.map_map]
    refine List.map_congr_left fun r _ => ?_
    dsimp only [Function.comp_apply]
    split <;> rfl
  refine ⟨h.none, hids ▸ h.ids, fun r hr => ?_, h.retired, fun f hf => ?_⟩
  · have hin : r.id ∈ s.timers.map Timer.id := hids ▸ List.mem_map_of_mem hr
    obtain ⟨q, hq, heq⟩ := List.mem_map.mp hin
    exact heq ▸ h.issued q hq
  · cases hf
    refine ⟨?_, ?_, fun id hid => ?_⟩
    · simp only [List.nil_append, List.map_map, ← hsame]
      rfl
    · exact (List.filter_sublist.map Timer.id).nodup h.ids
    · simp only [List.map_map, List.mem_map, List.mem_filter] at hid
      obtain ⟨r, ⟨hr, -⟩, rfl⟩ := hid
      exact h.issued r hr

theorem TimerInv.fire (h : TimerInv s) {f : Firing} {owner : Inst} {rest : List (TimerId × Inst)}
    (hp : s.phase = .firing f) (hrest : f.rest = (id, owner) :: rest) :
    TimerInv { s with phase := .firing { f with rest := rest, fired := f.fired ++ [id] }
                      log := s.log ++ [.onTimer f.inst id owner] } := by
  obtain ⟨hdue, hnodup, hloop⟩ := h.loop f hp
  rw [hrest, List.map_cons] at hdue hloop
  have hretired : (s.log ++ [Event.onTimer f.inst id owner]).filterMap Event.unregisteredId = s.retired := by
    rw [List.filterMap_append]
    exact List.append_nil _
  refine ⟨noneAfter_fire h.none (hloop id List.mem_cons_self).2, h.ids, fun r hr => ?_, fun x hx => ?_, fun g hg => ?_⟩
  · rw [Host.retired, hretired]
    exact h.issued r hr
  · rw [Host.retired, hretired] at hx
    exact h.retired x hx
  · cases hg
    refine ⟨by rw [hdue, List.append_assoc, List.singleton_append], hnodup, fun x hx => ?_⟩
    rw [Host.retired, hretired]
    exact hloop x (List.mem_cons_of_mem _ hx)

theorem TimerInv.keep (h : TimerInv s) (hok : s.Kept act) (hs : s.step act = some t) : TimerInv t := by
  cases act with
  | advance ns =>
    cases hs
    exact h.quiet rfl (.inl rfl) rfl fun _ => id
  | load | loadFails | loadSucceeds | tornDown =>
    simp only [step] at hs
    split at hs <;> cases hs
    exact h.quiet rfl (.inl rfl) rfl nofun
  | unload =>
    simp only [step] at hs
    split at hs <;> cases hs
    exact h.quiet rfl (.inr rfl) rfl nofun
  | setParam paramId normalized =>
    simp only [step] at hs
    split at hs
    · cases hs
    · cases hs
    · split at hs <;> cases hs
      · exact h
      · exact h.quiet rfl (.inl rfl) rfl fun _ => id
  | timerRegister i periodMs =>
    simp only [step, Option.ite_none_right_eq_some, Option.some.injEq] at hs
    obtain ⟨-, rfl⟩ := hs
    exact h.register hok i periodMs
  | timerUnregister i id =>
    simp only [step, Option.ite_none_right_eq_some, Option.some.injEq] at hs
    obtain ⟨-, rfl⟩ := hs
    exact h.unregister (i := i) hok
  | requestFlush i =>
    simp only [step, Option.ite_none_right_eq_some, Option.some.injEq] at hs
    obtain ⟨-, rfl⟩ := hs
    exact h.quiet rfl (.inl rfl) rfl fun _ => id
  | process =>
    simp only [step] at hs
    split at hs <;> cases hs
    · exact h
    · refine h.frame (fun e he => ?_) rfl (.inl rfl) rfl fun _ => id
      obtain ⟨c, -, rfl⟩ := List.mem_map.mp he
      exact ⟨rfl, rfl⟩
  | tick =>
    simp only [step] at hs
    split at hs
    · split at hs <;> cases hs
      · exact h
      · exact h.quiet rfl (.inl rfl) rfl nofun
    · cases hs
  | flush =>
    simp only [step] at hs
    split at hs
    · split at hs <;> cases hs
      · refine h.frame (fun e he => ?_) rfl (.inl rfl) rfl nofun
        rw [List.mem_singleton.mp he]
        exact ⟨rfl, rfl⟩
      · exact h.quiet rfl (.inl rfl) rfl nofun
    · cases hs
  | snapshot =>
    simp only [step] at hs
    split at hs
    · rename_i a hp
      split at hs <;> cases hs
      · exact h.takeDue hok a
      · exact h.quiet rfl (.inl rfl) rfl nofun
    · cases hs
  | fire =>
    simp only [step] at hs
    split at hs
    · rename_i f hp
      split at hs <;> cases hs
      rename_i id owner rest hrest
      exact h.fire hp hrest
    · cases hs
  | tickEnd =>
    simp only [step] at hs
    split at hs
    · split at hs <;> cases hs
      exact h.quiet rfl (.inl rfl) rfl nofun
    · cases hs

/-- In every run that keeps to the condition no timer is fired after its unregistration, and each
tick fires every due timer that stays registered once. -/
theorem obeys_of_kept {acts : List Act} (h : Meets step Kept Host.initial acts) :
    Always step Obeys Host.initial acts :=
  always_of_meets TimerInv TimerInv.keep TimerInv.obeys TimerInv.initial h

/-- Two timers due at once, whose callbacks register a third and unregister the one just fired. -/
theorem obeys_two_timers : Always step Obeys Host.initial
    [.load, .loadSucceeds false true, .tornDown, .timerRegister 0 20, .timerRegister 0 5, .advance 20000000,
      .tick, .flush, .snapshot, .fire, .timerRegister 0 30, .timerUnregister 0 1, .fire, .tickEnd] :=
  obeys_of_kept (meets_of_checks (by decide +kernel))

/-- The first timer's callback unregisters the second, which is due too and fired all the same. -/
theorem obeys_fails : ¬ Always step Obeys Host.initial
    [.load, .loadSucceeds false true, .tornDown, .timerRegister 0 20, .timerRegister 0 20, .advance 20000000,
      .tick, .flush, .snapshot, .fire, .timerUnregister 0 2, .fire] := by
  intro h
  obtain ⟨t, ht, hlog⟩ := Option.map_eq_some_iff.mp (show (exec step Host.initial
    [.load, .loadSucceeds false true, .tornDown, .timerRegister 0 20, .timerRegister 0 20, .advance 20000000,
      .tick, .flush, .snapshot, .fire, .timerUnregister 0 2, .fire]).map Host.log =
    some [.onTimer 0 1 0, .unregistered 2, .onTimer 0 2 0] by decide +kernel)
  have hnone := (h.end ht).1
  rw [hlog] at hnone
  have hafter := (List.pairwise_cons.mp (List.pairwise_cons.mp hnone).2).1 (.onTimer 0 2 0) List.mem_cons_self 2 rfl
  exact hafter rfl

end Host
end Plughost.Clap
