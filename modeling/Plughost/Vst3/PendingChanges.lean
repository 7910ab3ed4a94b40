import Plughost.Lib.BoundedQueue
import Plughost.Lib.Runs

/-! The pending-change queues of `PluginHost` and `ClapPlugin`: parameter pushes
on one side, draining `Process` calls on the other. -/
namespace Plughost.Vst3
open Plughost.Runs Plughost.BoundedQueue

abbrev ParamID := BitVec 32

/-- What the hosts use of the SDK's `ParameterChanges`: one point queue for each
id, found by an index, where a later point at the same offset replaces the earlier. -/
structure ParameterChanges (P V : Type) where
  clearQueue : P → P
  addParameterData : P → ParamID → P × Option Nat
  addPoint : P → Nat → Int → V → P
  /-- The value of the point at that offset in the queue for the id. -/
  point : P → ParamID → Int → Option V
  point_clear : ∀ p id o, point (clearQueue p) id o = none
  point_add : ∀ p id, ∃ q, (addParameterData p id).2 = some q ∧ ∀ o v id' o',
    point (addPoint (addParameterData p id).1 q o v) id' o' =
      if id = id' ∧ o = o' then some v else point p id' o'

/-- `CLAP_EVENT_PARAM_VALUE`, the fields that vary or place it in time. -/
structure ParamValueEvent (V : Type) where
  time : BitVec 32
  paramId : ParamID
  value : V

inductive PendingAct (V : Type) where
  /-- `SetParam`, or a `performEdit` that passed the filter. -/
  | push (id : ParamID) (value : V)
  /-- A `Process` call that reaches the plugin's process, or fails to. -/
  | process (drains : Bool)

/-- The queue, the SDK object or event list of the last block, what the plugin's
process was last given for each id, and the pushes before and since the last drain. -/
structure Pending (P V : Type) where
  pendingChanges : List (ParamID × V)
  changes : P
  given : ParamID → Option V
  before : List (ParamID × V)
  recent : List (ParamID × V)

abbrev kPendingCap : Nat := 256

/-- One block: from the entries taken off the queue, if any, the list handed to
the plugin and the last value it gives for each id. -/
abbrev Delivery (P V : Type) := P → Option (List (ParamID × V)) → P × (ParamID → Option V)

namespace Pending
variable {P V : Type}

def initial (p : P) : Pending P V :=
  { pendingChanges := [], changes := p, given := fun _ => none, before := [], recent := [] }

def step (deliver : Delivery P V) (s : Pending P V) : PendingAct V → Option (Pending P V)
  | .push id value => some { s with
      pendingChanges := push kPendingCap s.pendingChanges (id, value), recent := s.recent ++ [(id, value)] }
  | .process true =>
    let (changes, last) := deliver s.changes (some s.pendingChanges)
    some { pendingChanges := [], changes, given := fun id => (last id).or (s.given id),
           before := s.before ++ s.recent, recent := [] }
  | .process false =>
    let (changes, last) := deliver s.changes none
    some { s with changes, given := fun id => (last id).or (s.given id) }

/-- The plugin's process was last given the last value pushed before the last drain. -/
def UpToDate (s : Pending P V) : Prop :=
  ∀ id v, lastValue id s.before = some v → s.given id = some v

/-- At a drain, an id pushed since the last drain is among the last 256 pushes,
or stands again at the value it had at the last drain. -/
def Fits (s : Pending P V) : PendingAct V → Prop
  | .process true => ∀ id v, lastValue id s.recent = some v →
      lastValue id (s.recent.rtake kPendingCap) ≠ none ∨ lastValue id s.before = some v
  | _ => True

end Pending

/-- The drain of `PluginHost::Process`, entry by entry. -/
def addPending {P V : Type} (api : ParameterChanges P V) (p : P) (pc : ParamID × V) : P :=
  match api.addParameterData p pc.1 with
  | (p', some queue) => api.addPoint p' queue 0 pc.2
  | (p', none) => p'

/-- `PluginHost::Process`: clear the list, and fill it if the lock was taken. -/
def deliverVst3 {P V : Type} (api : ParameterChanges P V) : Delivery P V := fun p taken =>
  let p := (taken.getD []).foldl (addPending api) (api.clearQueue p)
  (p, fun id => api.point p id 0)

/-- `ClapPlugin::Process`: a fresh event list, which the plugin reads in order. -/
def deliverClap {V : Type} : Delivery (List (ParamValueEvent V)) V := fun _ taken =>
  let events := (taken.getD []).map fun pc => { time := 0, paramId := pc.1, value := pc.2 }
  (events, fun id => lastValue id (events.map fun e => (e.paramId, e.value)))

/-- A delivery hands over the last value of each drained id and nothing else. -/
def Delivers {P V : Type} (deliver : Delivery P V) : Prop :=
  ∀ p taken id, (deliver p taken).2 id = lastValue id (taken.getD [])

private theorem deliverClap_delivers {V : Type} : Delivers (deliverClap (V := V)) := by
  intro p taken id
  simp [deliverClap, Function.comp_def]

private theorem point_addPending {P V : Type} (api : ParameterChanges P V) (p : P) (pc : ParamID × V) (id : ParamID) :
    api.point (addPending api p pc) id 0 = if pc.1 = id then some pc.2 else api.point p id 0 := by
  obtain ⟨q, hq, hadd⟩ := api.point_add p pc.1
  unfold addPending
  split
  · rename_i p' queue heq
    rw [heq] at hq hadd
    obtain rfl : queue = q := Option.some.inj hq
    simpa using hadd 0 pc.2 id 0
  · rename_i p' heq
    rw [heq] at hq
    cases hq

private theorem deliverVst3_delivers {P V : Type} (api : ParameterChanges P V) : Delivers (deliverVst3 api) := by
  intro p taken id
  simp only [deliverVst3]
  induction taken.getD [] using List.reverseRecOn with
  | nil => simp [api.point_clear]
  | append_singleton q pc ih =>
    rw [List.foldl_append, List.foldl_cons, List.foldl_nil, point_addPending, lastValue_concat, ih]

namespace Pending
variable {P V : Type} {deliver : Delivery P V} {s t : Pending P V}

/-- The queue holds the last pushes since the drain, and the plugin was given
what was pushed before it. -/
structure Inv (s : Pending P V) : Prop where
  queue : s.pendingChanges = s.recent.rtake kPendingCap
  given : ∀ id, s.given id = lastValue id s.before

private theorem Inv.upToDate (h : Inv s) : s.UpToDate := fun id v hv => by rw [h.given, hv]

theorem Inv.initial (p : P) : Inv (Pending.initial p : Pending P V) :=
  ⟨(List.rtake_nil _).symm, fun _ => rfl⟩

/-- A drain that fits leaves nothing behind. -/
theorem Inv.drain (hd : Delivers deliver) (h : Inv s) (hok : Fits s (.process true)) (id : ParamID) :
    ((deliver s.changes (some s.pendingChanges)).2 id).or (s.given id) =
      lastValue id (s.before ++ s.recent) := by
  rw [hd, Option.getD_some, h.queue, h.given, lastValue_append]
  cases hq : lastValue id (s.recent.rtake kPendingCap) with
  | some v => rw [lastValue_of_rtake hq, Option.some_or]
  | none =>
    rw [Option.none_or]
    cases hr : lastValue id s.recent with
    | none => rw [Option.none_or]
    | some v =>
      rcases hok id v hr with hne | hsame
      · exact absurd hq hne
      · rw [hsame, Option.some_or]

theorem Inv.keep (hd : Delivers deliver) {a : PendingAct V} (h : Inv s) (hok : Fits s a)
    (hs : s.step deliver a = some t) : Inv t := by
  cases a with
  | push id value =>
    cases hs
    refine ⟨?_, h.given⟩
    dsimp only
    rw [h.queue, push_rtake (by decide)]
  | process drains =>
    cases drains <;> cases hs
    · refine ⟨h.queue, fun id => ?_⟩
      dsimp only
      rw [hd, Option.getD_none, lastValue_nil, Option.none_or, h.given]
    · exact ⟨(List.rtake_nil _).symm, h.drain hd hok⟩

/-- A drain that does not fit leaves some id behind. -/
theorem Inv.fits (hd : Delivers deliver) {a : PendingAct V} (h : Inv s) (hs : s.step deliver a = some t)
    (ht : t.UpToDate) : Fits s a := by
  cases a with
  | push id value => trivial
  | process drains =>
    cases drains <;> cases hs
    · trivial
    · intro id v hv
      have hgiven := ht id v (by dsimp only; rw [lastValue_append, hv, Option.some_or])
      dsimp only at hgiven
      rw [hd, Option.getD_some, h.queue, h.given] at hgiven
      cases hq : lastValue id (s.recent.rtake kPendingCap) with
      | some w => exact .inl nofun
      | none =>
        rw [hq, Option.none_or] at hgiven
        exact .inr hgiven

private theorem step_total (deliver : Delivery P V) (s : Pending P V) (a : PendingAct V) :
    ∃ t, s.step deliver a = some t := by
  cases a with
  | push id value => exact ⟨_, rfl⟩
  | process drains => cases drains <;> exact ⟨_, rfl⟩

private theorem upToDate_iff_fits (hd : Delivers deliver) (p : P) (as : List (PendingAct V)) :
    Always (step deliver) UpToDate (initial p) as ↔ Meets (step deliver) Fits (initial p) as := by
  obtain ⟨t, he⟩ : ∃ t, exec (step deliver) (initial p) as = some t := by
    generalize initial p = s
    induction as generalizing s with
    | nil => exact ⟨s, rfl⟩
    | cons a as ih =>
      obtain ⟨u, hu⟩ := step_total deliver s a
      obtain ⟨t, ht⟩ := ih u
      exact ⟨t, by rw [exec, hu]; exact ht⟩
  exact always_iff_meets Inv (fun hi hok hs => hi.keep hd hok hs) Inv.upToDate
    (fun hi hs ht => hi.fits hd hs ht) (Inv.initial p) he

/-- In either host every drain leaves the plugin with every last value exactly
in the runs where no drain finds an id whose last push has been pushed out. -/
theorem last_values_iff_fits (api : ParameterChanges P V) (p : P) (as : List (PendingAct V)) :
    (Always (step (deliverVst3 api)) UpToDate (initial p) as ↔
      Meets (step (deliverVst3 api)) Fits (initial p) as) ∧
    (Always (step deliverClap) UpToDate (initial []) as ↔ Meets (step deliverClap) Fits (initial []) as) :=
  ⟨upToDate_iff_fits (deliverVst3_delivers api) p as, upToDate_iff_fits deliverClap_delivers [] as⟩

end Pending

/-- The SDK object as a table of points; a queue's index is its id. -/
def pointTable (V : Type) : ParameterChanges (ParamID → Int → Option V) V where
  clearQueue _ := fun _ _ => none
  addParameterData p id := (p, some id.toNat)
  addPoint p queue o v := fun id' o' => if queue = id'.toNat ∧ o = o' then some v else p id' o'
  point p := p
  point_clear _ _ _ := rfl
  point_add p id := ⟨id.toNat, rfl, fun o v id' o' => by simp only [BitVec.toNat_inj]⟩

/-- One push for parameter 0, then 256 for parameter 1, then a drain: parameter 0
never reaches the plugin. -/
theorem pushed_out :
    let as : List (PendingAct Nat) := .push 0 7 :: List.replicate 256 (.push 1 3) ++ [.process true]
    ¬ Always (Pending.step (deliverVst3 (pointTable Nat))) Pending.UpToDate (.initial fun _ _ => none) as ∧
    ¬ Always (Pending.step deliverClap) Pending.UpToDate (.initial []) as := by
  intro as
  constructor
  · intro h
    obtain ⟨t, ht, hview⟩ := Option.map_eq_some_iff.mp
      (show (exec (Pending.step (deliverVst3 (pointTable Nat))) (.initial fun _ _ => none) as).map
        (fun t => (lastValue 0 t.before, t.given 0)) = some (some 7, none) by decide +kernel)
    have hgiven := h.end ht 0 7 (Prod.mk.inj hview).1
    rw [(Prod.mk.inj hview).2] at hgiven
    cases hgiven
  · intro h
    obtain ⟨t, ht, hview⟩ := Option.map_eq_some_iff.mp
      (show (exec (Pending.step deliverClap) (.initial []) as).map
        (fun t => (lastValue 0 t.before, t.given 0)) = some (some 7, none) by decide +kernel)
    have hgiven := h.end ht 0 7 (Prod.mk.inj hview).1
    rw [(Prod.mk.inj hview).2] at hgiven
    cases hgiven

end Plughost.Vst3
