import Plughost.Lib.Monitors
import Plughost.Vst3.PluginLoad

/-! `InstantiateAndActivate` and `TearDownActive` of the VST3 host: the calls each makes
on the plugin's component and controller, for every way the plugin answers. -/
namespace Plughost.Vst3.BringUp
open Plughost.Monitors

/-- `tresult`. -/
abbrev TResult := BitVec 32

def kResultOk : TResult := 0

def kResultTrue : TResult := kResultOk

/-- The plugin's objects: the component, and the controller when it is a class of its own. -/
inductive Obj where
  | component | controller
  deriving DecidableEq, Repr

/-- A call on an object; `ok` is whether it answered `kResultOk`, where the host looks. -/
inductive Call where
  | createInstance
  /-- A pointer came back, with a reference of its own, or none did. -/
  | queryInterface (found : Bool)
  /-- An `IPtr` lets go of its reference. -/
  | release
  /-- `initialize`, with the host's context. -/
  | init (ok : Bool)
  | terminate
  /-- On a connection point of the object, with the other object's. -/
  | connect | disconnect
  | getControllerClassId (ok : Bool)
  | setBusArrangements
  | activateBus (input state : Bool)
  | setupProcessing (ok : Bool)
  | setActive (state ok : Bool)
  | setProcessing (state ok : Bool)
  | setComponentHandler (installed : Bool)
  deriving DecidableEq, Repr

/-- A `queryInterface` answer: the result and whether the pointer is not null. -/
structure Query where
  result : TResult
  pointer : Bool

def Query.found (q : Query) : Bool := q.result == kResultOk && q.pointer

/-- How the plugin answers each step. -/
structure Answers where
  createComponent : Bool
  init : Obj → TResult
  queryAudioProcessor : Query
  queryEditController : Query
  getControllerClassId : TResult
  controllerCidIsValid : Bool
  createController : Bool
  queryConnectionPoint : Obj → Query
  setupProcessing : TResult
  setActive : Bool → TResult
  setProcessing : Bool → TResult

/-- `ClassInfo`, with the vendor the factory names. -/
structure ClassInfo where
  name : List Ipc.ControlPipe.Byte
  vendor : List Ipc.ControlPipe.Byte
  version : List Ipc.ControlPipe.Byte
  factoryVendor : List Ipc.ControlPipe.Byte

def ClassInfo.info (c : ClassInfo) : LoadInfo :=
  { name := c.name, vendor := if c.vendor.isEmpty then c.factoryVendor else c.vendor, version := c.version }

/-- The `IPtr` members that point at the plugin's objects, in the order of their declaration. -/
inductive Member where
  | component | processor | controller | componentCp | controllerCp
  deriving DecidableEq, Repr

structure ActivePlugin where
  ptr : Member → Option Obj
  singleComponent : Bool
  editorView : Bool
  componentHandler : Bool
  info : LoadInfo

/-- An `ActivePlugin` and the calls made so far. -/
structure Bringing where
  active : ActivePlugin
  calls : List (Obj × Call)

def makeActivateFailed (stage : String) (code : TResult) : LoadError :=
  ⟨4, text s!"VST3 activate failed at {stage} (tresult=0x{code.toHex})"⟩

namespace Bringing
variable (s : Bringing) (p : Answers)

def call (o : Obj) (c : Call) : Bringing := { s with calls := s.calls ++ [(o, c)] }

/-- `m = nullptr`, or the destructor of `m`. -/
def reset (m : Member) : Bringing :=
  match s.active.ptr m with
  | none => s
  | some o => { s with active.ptr := Function.update s.active.ptr m none }.call o .release

/-- `m` takes over a reference that a call handed out. -/
def own (m : Member) (o : Obj) : Bringing := { s with active.ptr := Function.update s.active.ptr m (some o) }

/-- `queryInterface` on an object, its pointer owned by `m`. -/
@[simp] def query (m : Member) (o : Obj) (q : Query) : Bringing :=
  let s := s.call o (.queryInterface q.found)
  if q.found then s.own m o else s

/-- `~ActivePlugin`, members in reverse order. -/
def destroy : Bringing :=
  ((((s.reset .controllerCp).reset .componentCp).reset .controller).reset .processor).reset .component

/-- Step 3a's second shape: the controller as a class of its own. -/
def createController : Bringing :=
  let s := s.call .component (.getControllerClassId (p.getControllerClassId == kResultOk))
  if p.getControllerClassId = kResultOk ∧ p.controllerCidIsValid ∧ p.createController then
    let s := (s.call .controller .createInstance).own .controller .controller
    let s := s.call .controller (.init (p.init .controller == kResultOk))
    if p.init .controller ≠ kResultOk then s.reset .controller
    else { s with active.singleComponent := false }
  else s

/-- Step 3a. -/
def obtainController : Bringing :=
  let s := s.query .controller .component p.queryEditController
  if p.queryEditController.found then { s with active.singleComponent := true } else s.createController p

/-- Step 3b. -/
def connect : Bringing :=
  if (s.active.ptr .controller).isSome ∧ !s.active.singleComponent then
    let s := s.query .componentCp .component (p.queryConnectionPoint .component)
    let s := s.query .controllerCp .controller (p.queryConnectionPoint .controller)
    if (s.active.ptr .componentCp).isSome ∧ (s.active.ptr .controllerCp).isSome then
      (s.call .component .connect).call .controller .connect
    else s
  else s

/-- Steps 4 and 5. -/
def arrangeBuses : Bringing :=
  ((s.call .component .setBusArrangements).call .component (.activateBus true true)).call
    .component (.activateBus false true)

/-- A failed step 6 or 7, past its own calls: the members that hold the component are reset
by hand, and what else `active` holds goes with it. -/
def abandon : Bringing :=
  (((s.call .component .terminate).reset .processor).reset .component).destroy

def setActiveFalse : Bringing := s.call .component (.setActive false (p.setActive false == kResultOk))

/-- Steps 6 and 7. -/
def activate : Except LoadError Unit × Bringing :=
  let tr := p.setupProcessing
  let s := s.call .component (.setupProcessing (tr == kResultOk))
  if tr ≠ kResultOk then
    (.error (makeActivateFailed "processor->setupProcessing" tr), (s.setActiveFalse p).abandon)
  else
    let tr := p.setActive true
    let s := s.call .component (.setActive true (tr == kResultOk))
    if tr ≠ kResultOk ∧ tr ≠ kResultTrue then
      (.error (makeActivateFailed "component->setActive(true)" tr), s.abandon)
    else
      let tr := p.setProcessing true
      let s := s.call .component (.setProcessing true (tr == kResultOk))
      if tr ≠ kResultOk ∧ tr ≠ kResultTrue then
        (.error (makeActivateFailed "processor->setProcessing(true)" tr), (s.setActiveFalse p).abandon)
      else (.ok (), s)

end Bringing

/-- The plugin record as `make_unique` makes it. -/
def ActivePlugin.fresh (info : LoadInfo) : ActivePlugin :=
  { ptr := fun _ => none, singleComponent := false, editorView := false, componentHandler := false, info }

/-- `InstantiateAndActivate`; on an error the record is gone, and all it held. -/
def instantiateAndActivate (c : ClassInfo) (p : Answers) : Except LoadError Unit × Bringing :=
  let s : Bringing := { active := .fresh c.info, calls := [] }
  if p.createComponent then
    let s := (s.call .component .createInstance).own .component .component
    let tr := p.init .component
    let s := s.call .component (.init (tr == kResultOk))
    if tr ≠ kResultOk then
      (.error (makeActivateFailed "component->initialize" tr),
        ((s.call .component .terminate).reset .component).destroy)
    else
      let s := s.query .processor .component p.queryAudioProcessor
      if p.queryAudioProcessor.found then
        (((s.obtainController p).connect p).arrangeBuses).activate p
      else
        (.error ⟨4, text "queryInterface(IAudioProcessor) failed"⟩,
          ((s.call .component .terminate).reset .component).destroy)
  else (.error ⟨4, text "factory.createInstance<IComponent>(classInfo.ID()) returned null"⟩, s.destroy)

namespace Bringing
variable (s : Bringing) (p : Answers)

/-- A call through the member `m`, made only when `m` is not null. -/
def callOn (m : Member) (c : Call) : Bringing :=
  match s.active.ptr m with
  | none => s
  | some o => s.call o c

/-- The rest of a successful `Load`, and what else the record holds when it is taken down. -/
def publish (editorView : Bool) : Bringing :=
  let handler := (s.active.ptr .controller).isSome
  let s := s.callOn .controller (.setComponentHandler true)
  { s with active.componentHandler := handler, active.editorView := editorView }

/-- `TearDownActive`. -/
def tearDownActive : Bringing :=
  let s := { s with active.editorView := false }
  let s := s.callOn .processor (.setProcessing false (p.setProcessing false == kResultOk))
  let s := s.callOn .component (.setActive false (p.setActive false == kResultOk))
  let s := (s.callOn .component (.activateBus true false)).callOn .component (.activateBus false false)
  let s := if (s.active.ptr .componentCp).isSome ∧ (s.active.ptr .controllerCp).isSome then
      (s.callOn .componentCp .disconnect).callOn .controllerCp .disconnect
    else s
  let s := (s.reset .componentCp).reset .controllerCp
  let s := if s.active.componentHandler then s.callOn .controller (.setComponentHandler false) else s
  let s := { s with active.componentHandler := false }
  let s := if s.active.singleComponent then s else s.callOn .controller .terminate
  let s := (s.reset .controller).callOn .component .terminate
  (s.reset .processor).reset .component

end Bringing

/-- Every call of a bring-up that fails, or of one that succeeds and the teardown after it. -/
def bringUp (c : ClassInfo) (p : Answers) (editorView : Bool) : List (Obj × Call) :=
  match instantiateAndActivate c p with
  | (.error _, s) => s.calls
  | (.ok (), s) => ((s.publish editorView).tearDownActive p).destroy.calls

/-- What `PluginHost::Load` makes of it. -/
def vst3Module (c : ClassInfo) (p : Answers) : Vst3Module ActivePlugin :=
  match instantiateAndActivate c p with
  | (.error e, _) => .notActivated e.message
  | (.ok (), s) => .activated (s.publish false).active c.info

/-! What a balanced sequence of calls is. -/

/-- The object was made active and has not been made inactive since. -/
def Active (o : Obj) (calls : List (Obj × Call)) : Prop :=
  ∃ pre post, calls = pre ++ (o, .setActive true true) :: post ∧ ∀ ok, (o, .setActive false ok) ∉ post

/-- Connections made by either end that have not been undone. -/
def Connected (calls : List (Obj × Call)) : Prop :=
  ∃ o, calls.count (o, .disconnect) < calls.count (o, .connect)

structure Balanced (calls : List (Obj × Call)) : Prop where
  /-- An object that was initialised is terminated once, with a reference still to drop. -/
  terminated : ∀ o, (o, .init true) ∈ calls → ∃ pre post, calls = pre ++ (o, .terminate) :: post ∧
    (o, .init true) ∈ pre ∧ (o, .terminate) ∉ pre ∧ (o, .terminate) ∉ post ∧ (o, .release) ∈ post
  /-- Every connect has a disconnect of its own after it. -/
  disconnected : ∀ o pre post, calls = pre ++ post → post.count (o, .connect) ≤ post.count (o, .disconnect)
  deactivated : ∀ o pre post, calls = pre ++ (o, .setActive true true) :: post →
    ∃ ok, (o, .setActive false ok) ∈ post
  quiet : ∀ o pre post, calls = pre ++ (o, .terminate) :: post → ¬ Active o pre ∧ ¬ Connected pre

/-! The life of one object, as a monitor of the calls. -/

inductive Phase where
  | absent | created | initialized | terminated
  deriving DecidableEq, Repr

/-- An object as the calls so far have left it: the references the host holds, the
connections it has to the other object and those the other has to it. -/
structure Life where
  phase : Phase
  refs : Nat
  links : Nat
  linked : Nat
  active : Bool
  deriving DecidableEq, Repr

@[simps] def Life.absent : Life := ⟨.absent, 0, 0, 0, false⟩

/-- What a call makes of its object; `none` is a call that its state does not allow. -/
@[simp] def Life.step (l : Life) : Call → Option Life
  | .createInstance => if l.phase = .absent then some { l with phase := .created, refs := 1 } else none
  | .queryInterface found =>
    if l.refs = 0 then none else some { l with refs := if found then l.refs + 1 else l.refs }
  | .release =>
    if 1 < l.refs then some { l with refs := l.refs - 1 }
    else if l.refs = 1 ∧ l.phase ≠ .initialized ∧ l.links = 0 ∧ l.linked = 0 ∧ !l.active then some { l with refs := 0 }
    else none
  | .init ok =>
    if l.refs ≠ 0 ∧ l.phase = .created then some { l with phase := if ok then .initialized else .created }
    else none
  | .terminate =>
    if l.refs ≠ 0 ∧ l.phase ≠ .terminated ∧ l.links = 0 ∧ l.linked = 0 ∧ !l.active then
      some { l with phase := .terminated }
    else none
  | .connect => if l.refs = 0 then none else some { l with links := l.links + 1 }
  | .disconnect => if l.refs = 0 ∨ l.links = 0 then none else some { l with links := l.links - 1 }
  | .setActive state ok =>
    if l.refs = 0 then none else some { l with active := state && (ok || l.active) }
  | _ => if l.refs = 0 then none else some l

/-- The calls that concern an object: its own, and the connections the other makes to it. -/
@[simp] def watch (o : Obj) (l : Life) (e : Obj × Call) : Option Life :=
  if e.1 = o then l.step e.2
  else match e.2 with
    | .connect => some { l with linked := l.linked + 1 }
    | .disconnect => if l.linked = 0 then none else some { l with linked := l.linked - 1 }
    | _ => some l

/-- Every object's monitor accepts the calls, and the host has let go of it in the end. -/
def Accepted (calls : List (Obj × Call)) : Prop :=
  ∀ o, ∃ l, observe (watch o) .absent calls = some l ∧ l.refs = 0

namespace Bringing
variable {s : Bringing} {o o' : Obj} {c : Call} {m : Member}

@[simp] theorem active_call : (s.call o c).active = s.active := rfl

@[simp] theorem active_own :
    (s.own m o).active = { s.active with ptr := Function.update s.active.ptr m (some o) } := rfl

@[simp] theorem calls_own : (s.own m o).calls = s.calls := rfl

@[simp] theorem observe_call {l : Life} : observe (watch o') l (s.call o c).calls =
    (observe (watch o') l s.calls).bind (watch o' · (o, c)) := by
  rw [call, observe_append]
  cases observe (watch o') l s.calls with
  | none => rfl
  | some l =>
    simp only [Option.bind_some, observe_cons, observe_nil]
    cases watch o' l (o, c) <;> rfl

@[simp] theorem mem_calls_call {e : Obj × Call} : e ∈ (s.call o c).calls ↔ e ∈ s.calls ∨ e = (o, c) := by
  simp [call]

private theorem mem_calls_reset {e : Obj × Call} (he : e.2 ≠ .release) : e ∈ (s.reset m).calls ↔ e ∈ s.calls := by
  unfold reset
  split
  · rfl
  · rename_i o' hm
    simp only [mem_calls_call, or_iff_left_iff_imp]
    rintro rfl
    exact absurd rfl he

private theorem mem_calls_destroy {e : Obj × Call} (he : e.2 ≠ .release) : e ∈ s.destroy.calls ↔ e ∈ s.calls := by
  simp [destroy, mem_calls_reset he]

end Bringing


/-- Whether a controller stands once step 3a is done, one of its own having been
created and let go otherwise, and which connection points step 3b finds. -/
inductive Shape where
  | none (rejected : Bool)
  | single
  | separate (componentCp controllerCp : Bool)

namespace Shape

@[simp] def ptr : Shape → Member → Option Obj
  | _, .component | _, .processor => some .component
  | .single, .controller => some .component
  | .separate _ _, .controller => some .controller
  | .separate true _, .componentCp => some .component
  | .separate _ true, .controllerCp => some .controller
  | _, _ => Option.none

@[simp] def isSingle : Shape → Bool
  | .single => true
  | _ => false

@[simp] def life : Shape → Obj → Life
  | .none _, .component => ⟨.initialized, 2, 0, 0, false⟩
  | .single, .component => ⟨.initialized, 3, 0, 0, false⟩
  | .separate a b, .component =>
    ⟨.initialized, if a then 3 else 2, if a && b then 1 else 0, if a && b then 1 else 0, false⟩
  | .separate a b, .controller =>
    ⟨.initialized, if b then 2 else 1, if a && b then 1 else 0, if a && b then 1 else 0, false⟩
  | .none true, .controller => ⟨.created, 0, 0, 0, false⟩
  | _, .controller => .absent

/-- What step 3a makes of a plugin without a controller. -/
def obtained (p : Answers) : Shape :=
  if p.queryEditController.found then .single
  else if p.getControllerClassId = kResultOk ∧ p.controllerCidIsValid ∧ p.createController then
    if p.init .controller = kResultOk then .separate false false else .none true
  else .none false

/-- What step 3b makes of it. -/
def connected (p : Answers) : Shape → Shape
  | .separate _ _ =>
    .separate (p.queryConnectionPoint .component).found (p.queryConnectionPoint .controller).found
  | k => k

end Shape

/-- Between the steps after the processor is obtained. -/
structure Ready (s : Bringing) (k : Shape) : Prop where
  ptr : s.active.ptr = k.ptr
  single : s.active.singleComponent = k.isSingle
  life : ∀ o, observe (watch o) .absent s.calls = some (k.life o)

variable {s : Bringing} {k : Shape} {p : Answers}

private theorem Ready.obtainController (h : Ready s (.none false)) : Ready (s.obtainController p) (.obtained p) := by
  have hsingle : s.active.singleComponent = false := h.single
  unfold Shape.obtained Bringing.obtainController
  by_cases hq : p.queryEditController.found
  · refine ⟨?_, ?_, fun o => ?_⟩
    · funext m
      cases m <;> simp [hq, h.ptr]
    · simp [hq]
    · cases o <;> simp [hq, h.life]
  · unfold Bringing.createController
    by_cases hc : p.getControllerClassId = kResultOk ∧ p.controllerCidIsValid ∧ p.createController
    · by_cases hi : p.init .controller = kResultOk
      · refine ⟨?_, ?_, fun o => ?_⟩
        · funext m
          cases m <;> simp [hq, hc, hi, h.ptr]
        · simp [hq, hc, hi]
        · cases o <;> simp [hq, hc, hi, h.life]
      · refine ⟨?_, ?_, fun o => ?_⟩
        · funext m
          cases m <;> simp [Bringing.reset, hq, hc, hi, h.ptr]
        · simp [Bringing.reset, hq, hc, hi, hsingle]
        · cases o <;> simp [Bringing.reset, hq, hc, hi, h.life]
    · refine ⟨?_, ?_, fun o => ?_⟩
      · simp [hq, hc, h.ptr]
      · simp [hq, hc, hsingle]
      · cases o <;> simp [hq, hc, h.life]

private theorem Ready.connect (h : Ready s k) (hk : ∀ a b, k = .separate a b → a = false ∧ b = false) :
    Ready (s.connect p) (k.connected p) := by
  cases k with
  | none rejected =>
    have hs : s.connect p = s := by simp [Bringing.connect, h.ptr]
    rw [hs]
    exact h
  | single =>
    have hs : s.connect p = s := by simp [Bringing.connect, h.single]
    rw [hs]
    exact h
  | separate a b =>
    obtain ⟨rfl, rfl⟩ := hk a b rfl
    have hsingle : s.active.singleComponent = false := h.single
    unfold Shape.connected Bringing.connect
    cases hc : (p.queryConnectionPoint .component).found <;>
      cases hd : (p.queryConnectionPoint .controller).found
    all_goals
      refine ⟨?_, ?_, fun o => ?_⟩
      · funext m
        cases m <;> simp [hsingle, hc, hd, h.ptr]
      · simp [hsingle, hc, hd, h.ptr]
      · cases o <;> simp [hsingle, hc, hd, h.ptr, h.life]

private theorem Ready.arrangeBuses (h : Ready s k) : Ready s.arrangeBuses k := by
  refine ⟨h.ptr, h.single, fun o => ?_⟩
  cases o <;> cases k <;> simp [Bringing.arrangeBuses, h.life]
  grind

/-- Without a controller of its own to leave behind, a bring-up given up late is clean. -/
private theorem Ready.abandon (h : Ready s k) (hk : ∀ a b, k ≠ .separate a b) : Accepted s.abandon.calls := by
  intro o
  cases k with
  | separate a b => exact absurd rfl (hk a b)
  | single => cases o <;> simp [Bringing.abandon, Bringing.destroy, Bringing.reset, h.ptr, h.life]
  | none rejected =>
    cases rejected <;> cases o <;> simp [Bringing.abandon, Bringing.destroy, Bringing.reset, h.ptr, h.life]

private theorem Shape.standing (k : Shape) : (k.life .component).refs ≠ 0 ∧ (k.life .component).active = false := by
  cases k with
  | none | single => exact ⟨nofun, rfl⟩
  | separate a b => cases a <;> exact ⟨nofun, rfl⟩

/-- A call on the component that leaves it as it was. -/
theorem Ready.call (h : Ready s k) {c : Call} (hc : (k.life .component).step c = some (k.life .component))
    (hconnect : c ≠ .connect ∧ c ≠ .disconnect) : Ready (s.call .component c) k := by
  refine ⟨h.ptr, h.single, fun o => ?_⟩
  cases o with
  | component => simp [-Life.step, -Shape.life, h.life, hc]
  | controller => simp [-Life.step, -Shape.life, h.life, hconnect.1, hconnect.2]

private theorem Ready.setupProcessing (h : Ready s k) (ok : Bool) : Ready (s.call .component (.setupProcessing ok)) k :=
  h.call (by simp [-Shape.life, k.standing.1]) ⟨nofun, nofun⟩

private theorem Ready.setActiveFalse (h : Ready s k) : Ready (s.setActiveFalse p) k :=
  h.call (by rw [Life.step, if_neg k.standing.1, Bool.false_and, ← k.standing.2]) ⟨nofun, nofun⟩

private theorem Ready.setActive_failed (h : Ready s k) : Ready (s.call .component (.setActive true false)) k :=
  h.call (by rw [Life.step, if_neg k.standing.1, Bool.true_and, Bool.false_or]) ⟨nofun, nofun⟩

/-- Made active, refused at the last step and made inactive again. -/
private theorem Ready.setProcessing_failed (h : Ready s k) :
    Ready (((s.call .component (.setActive true true)).call .component (.setProcessing true false)).setActiveFalse p)
      k := by
  refine ⟨h.ptr, h.single, fun o => ?_⟩
  cases o with
  | component =>
    obtain ⟨hr, ha⟩ := k.standing
    simp [Bringing.setActiveFalse, -Shape.life, h.life, hr, ← ha]
  | controller => simp [Bringing.setActiveFalse, h.life]

/-- Steps 6 and 7 that succeed, and the teardown, for every shape. -/
theorem Ready.tearDownActive (h : Ready s k) (v : Bool) :
    Accepted ((((((s.call .component (.setupProcessing true)).call .component (.setActive true true)).call .component
      (.setProcessing true true)).publish v).tearDownActive p).destroy).calls := by
  intro o
  cases k with
  | single =>
    cases o <;> simp [Bringing.publish, Bringing.tearDownActive, Bringing.callOn, Bringing.destroy, Bringing.reset,
      h.ptr, h.single, h.life]
  | none rejected =>
    cases rejected <;> cases o <;> simp [Bringing.publish, Bringing.tearDownActive, Bringing.callOn,
      Bringing.destroy, Bringing.reset, h.ptr, h.single, h.life]
  | separate a b =>
    cases a <;> cases b <;> cases o <;> simp [Bringing.publish, Bringing.tearDownActive, Bringing.callOn,
      Bringing.destroy, Bringing.reset, h.ptr, h.single, h.life]

/-- The host reaches step 3b with a controller that is an object of its own. -/
structure SeparateController (p : Answers) : Prop where
  component : p.createComponent
  initialized : p.init .component = kResultOk
  processor : p.queryAudioProcessor.found
  notSingle : ¬ p.queryEditController.found
  classId : p.getControllerClassId = kResultOk ∧ p.controllerCidIsValid
  created : p.createController
  controllerInitialized : p.init .controller = kResultOk

/-- One of the last three steps is refused. -/
def FailsToStart (p : Answers) : Prop :=
  p.setupProcessing ≠ kResultOk ∨ p.setActive true ≠ kResultOk ∨ p.setProcessing true ≠ kResultOk

namespace Bringing

private theorem activate_setupProcessing (hs : p.setupProcessing ≠ kResultOk) : s.activate p =
    (.error (makeActivateFailed "processor->setupProcessing" p.setupProcessing),
      ((s.call .component (.setupProcessing false)).setActiveFalse p).abandon) := by
  simp [activate, hs, beq_false_of_ne hs]

private theorem activate_setActive (hs : p.setupProcessing = kResultOk) (ha : p.setActive true ≠ kResultOk) :
    s.activate p = (.error (makeActivateFailed "component->setActive(true)" (p.setActive true)),
      ((s.call .component (.setupProcessing true)).call .component (.setActive true false)).abandon) := by
  simp [activate, hs, ha, beq_false_of_ne ha, kResultTrue]

private theorem activate_setProcessing (hs : p.setupProcessing = kResultOk) (ha : p.setActive true = kResultOk)
    (hp : p.setProcessing true ≠ kResultOk) :
    s.activate p = (.error (makeActivateFailed "processor->setProcessing(true)" (p.setProcessing true)),
      ((((s.call .component (.setupProcessing true)).call .component (.setActive true true)).call .component
        (.setProcessing true false)).setActiveFalse p).abandon) := by
  simp [activate, hs, ha, hp, beq_false_of_ne hp, kResultTrue]

private theorem activate_ok (hs : p.setupProcessing = kResultOk) (ha : p.setActive true = kResultOk)
    (hp : p.setProcessing true = kResultOk) : s.activate p = (.ok (),
      ((s.call .component (.setupProcessing true)).call .component (.setActive true true)).call .component
        (.setProcessing true true)) := by
  simp [activate, hs, ha, hp]

end Bringing

/-- The three late failures, as one: some calls on the component, and then `abandon`. -/
private theorem activate_failed (hf : FailsToStart p) : ∃ e t, s.activate p = (.error e, t.abandon) ∧
    (∀ k, Ready s k → Ready t k) ∧ (∀ c, (.controller, c) ∈ t.calls ↔ (.controller, c) ∈ s.calls) := by
  by_cases hs : p.setupProcessing = kResultOk
  · by_cases ha : p.setActive true = kResultOk
    · have hp : p.setProcessing true ≠ kResultOk := by
        rcases hf with hf | hf | hf
        · exact absurd hs hf
        · exact absurd ha hf
        · exact hf
      exact ⟨_, _, Bringing.activate_setProcessing hs ha hp,
        fun k h => (h.setupProcessing true).setProcessing_failed, fun c => by simp [Bringing.setActiveFalse]⟩
    · exact ⟨_, _, Bringing.activate_setActive hs ha,
        fun k h => (h.setupProcessing true).setActive_failed, fun c => by simp⟩
  · exact ⟨_, _, Bringing.activate_setupProcessing hs,
      fun k h => (h.setupProcessing false).setActiveFalse, fun c => by simp [Bringing.setActiveFalse]⟩

private theorem Ready.activate_ok (h : Ready s k) (hf : ¬ FailsToStart p) (v : Bool) :
    ∃ t, s.activate p = (.ok (), t) ∧ Accepted (((t.publish v).tearDownActive p).destroy).calls := by
  obtain ⟨hs, ha, hp⟩ : p.setupProcessing = kResultOk ∧ p.setActive true = kResultOk ∧
      p.setProcessing true = kResultOk := by
    simpa [FailsToStart] using hf
  exact ⟨_, Bringing.activate_ok hs ha hp, h.tearDownActive v⟩

/-- The bring-up up to the processor. -/
private theorem ready_of_processor (c : ClassInfo) (hc : p.createComponent) (hi : p.init .component = kResultOk)
    (hq : p.queryAudioProcessor.found) : ∃ s, Ready s (.none false) ∧ (.controller, .terminate) ∉ s.calls ∧
      instantiateAndActivate c p = ((((s.obtainController p).connect p).arrangeBuses).activate p) := by
  refine ⟨_, ⟨?_, ?_, fun o => ?_⟩, ?_,
    by rw [instantiateAndActivate, if_pos hc, if_neg (not_not_intro hi), if_pos hq]⟩
  · funext m
    cases m <;> simp [hq, ActivePlugin.fresh]
  · simp [hq, ActivePlugin.fresh]
  · cases o <;> simp [hq, hi]
  · simp [hq]

/-! What the monitor's acceptance says. -/

section Accepted
variable {o : Obj} {l m : Life} {e : Obj × Call} {calls : List (Obj × Call)}

/-- What a call that is allowed can do to the phase of an object. -/
private theorem watch_phase (h : watch o l e = some m) :
    m.phase = l.phase ∨ (l.phase = .absent ∧ m.phase = .created) ∨
      (e.2 ≠ .terminate ∧ l.phase = .created) ∨ e = (o, .terminate) := by
  obtain ⟨o', c⟩ := e
  cases c <;> grind [watch, Life.step]

private theorem watch_init (h : watch o l (o, .init true) = some m) : l.phase = .created ∧ m.phase = .initialized := by
  grind [watch, Life.step]

private theorem watch_terminate (h : watch o l (o, .terminate) = some m) :
    l.phase ≠ .terminated ∧ m.phase = .terminated ∧ l.links = 0 ∧ l.linked = 0 ∧ l.active = false ∧ m.refs ≠ 0 := by
  grind [watch, Life.step]

private theorem watch_refs (h : watch o l e = some m) (hl : l.refs ≠ 0) (hm : m.refs = 0) : e = (o, .release) := by
  obtain ⟨o', c⟩ := e
  cases c <;> grind [watch, Life.step]

/-- The last reference goes only from an object that is at rest. -/
def AtRest (l : Life) : Prop := l.refs = 0 → l.phase ≠ .initialized ∧ l.links = 0 ∧ l.active = false

private theorem watch_atRest (hl : AtRest l) (h : watch o l e = some m) : AtRest m := by
  unfold AtRest at *
  obtain ⟨o', c⟩ := e
  cases c <;> grind [watch, Life.step]

private theorem watch_links (h : watch o l e = some m) :
    m.links + [e].count (o, .disconnect) = l.links + [e].count (o, .connect) := by
  obtain ⟨o', c⟩ := e
  cases c <;> grind [watch, Life.step]

/-- An object's own calls are not connections that the other makes to it. -/
private theorem step_linked {c : Call} (h : l.step c = some m) : m.linked = l.linked := by
  cases c <;> grind [Life.step]

private theorem watch_linked {o' : Obj} (ho : o' ≠ o) (h : watch o l e = some m) :
    m.linked + [e].count (o', .disconnect) = l.linked + [e].count (o', .connect) := by
  obtain ⟨o'', c⟩ := e
  by_cases hown : o'' = o
  · subst hown
    rw [watch, if_pos rfl] at h
    rw [step_linked h]
    simp [ho.symm]
  · obtain rfl : o'' = o' := by
      cases o <;> cases o' <;> cases o'' <;> simp at hown ho ⊢
    rw [watch, if_neg hown] at h
    cases c <;> grind

private theorem watch_active (h : watch o l e = some m) (he : ∀ ok, e ≠ (o, .setActive false ok)) (hl : l.active) :
    m.active := by
  obtain ⟨o', c⟩ := e
  cases c <;> grind [watch, Life.step]

private theorem observe_links (h : observe (watch o) l calls = some m) :
    m.links + calls.count (o, .disconnect) = l.links + calls.count (o, .connect) := by
  induction calls generalizing l with
  | nil =>
    cases h
    rfl
  | cons e calls ih =>
    obtain ⟨k, hk, hrest⟩ := Option.bind_eq_some_iff.mp h
    have hstep := watch_links hk
    have hcalls := ih hrest
    rw [← List.singleton_append, List.count_append, List.count_append]
    omega

private theorem observe_linked {o' : Obj} (ho : o' ≠ o) (h : observe (watch o) l calls = some m) :
    m.linked + calls.count (o', .disconnect) = l.linked + calls.count (o', .connect) := by
  induction calls generalizing l with
  | nil =>
    cases h
    rfl
  | cons e calls ih =>
    obtain ⟨k, hk, hrest⟩ := Option.bind_eq_some_iff.mp h
    have hstep := watch_linked ho hk
    have hcalls := ih hrest
    rw [← List.singleton_append, List.count_append, List.count_append]
    omega

private theorem observe_active (h : observe (watch o) l calls = some m) (hc : ∀ ok, (o, .setActive false ok) ∉ calls)
    (hl : l.active) : m.active := by
  induction calls generalizing l with
  | nil =>
    cases h
    exact hl
  | cons e calls ih =>
    obtain ⟨k, hk, hrest⟩ := Option.bind_eq_some_iff.mp h
    refine ih hrest (fun ok hm => hc ok (List.mem_cons_of_mem e hm)) (watch_active hk ?_ hl)
    rintro ok rfl
    exact hc ok List.mem_cons_self

private theorem observe_atRest (hl : AtRest l) (h : observe (watch o) l calls = some m) : AtRest m := by
  induction calls generalizing l with
  | nil =>
    cases h
    exact hl
  | cons e calls ih =>
    obtain ⟨k, hk, hrest⟩ := Option.bind_eq_some_iff.mp h
    exact ih (watch_atRest hl hk) hrest

theorem observe_release (h : observe (watch o) l calls = some m) (hl : l.refs ≠ 0) (hm : m.refs = 0) :
    (o, .release) ∈ calls := by
  induction calls generalizing l with
  | nil =>
    cases h
    exact absurd hm hl
  | cons e calls ih =>
    obtain ⟨k, hk, hrest⟩ := Option.bind_eq_some_iff.mp h
    by_cases hz : k.refs = 0
    · rw [watch_refs hk hl hz]
      exact List.mem_cons_self
    · exact List.mem_cons_of_mem e (ih hrest hz)

/-- Once terminated an object is not terminated again. -/
private theorem observe_terminated (h : observe (watch o) l calls = some m) (hl : l.phase = .terminated) :
    m.phase = .terminated ∧ (o, .terminate) ∉ calls := by
  induction calls generalizing l with
  | nil =>
    cases h
    exact ⟨hl, List.not_mem_nil⟩
  | cons e calls ih =>
    obtain ⟨k, hk, hrest⟩ := Option.bind_eq_some_iff.mp h
    have he : e ≠ (o, .terminate) := by
      rintro rfl
      exact (watch_terminate hk).1 hl
    have hphase : k.phase = .terminated := by
      rcases watch_phase hk with hp | ⟨hp, -⟩ | ⟨-, hp⟩ | hp
      · rw [hp, hl]
      · rw [hl] at hp
        cases hp
      · rw [hl] at hp
        cases hp
      · exact absurd hp he
    obtain ⟨hm, hmem⟩ := ih hrest hphase
    exact ⟨hm, fun hin => (List.mem_cons.mp hin).elim (fun heq => he heq.symm) hmem⟩

/-- An object still to be terminated has not been. -/
private theorem observe_not_terminated (h : observe (watch o) l calls = some m) (hm : m.phase ≠ .terminated) :
    (o, .terminate) ∉ calls := by
  intro hin
  obtain ⟨pre, post, rfl⟩ := List.append_of_mem hin
  rw [observe_append] at h
  obtain ⟨k, -, hk⟩ := Option.bind_eq_some_iff.mp h
  obtain ⟨k', hk', hrest⟩ := Option.bind_eq_some_iff.mp hk
  exact hm (observe_terminated hrest (watch_terminate hk').2.1).1

/-- From an initialised object to one let go: the terminate on the way. -/
private theorem observe_initialized (h : observe (watch o) l calls = some m) (hl : l.phase = .initialized)
    (hm : m.phase ≠ .initialized) (hrefs : m.refs = 0) : ∃ pre post, calls = pre ++ (o, .terminate) :: post ∧
      (o, .terminate) ∉ pre ∧ (o, .terminate) ∉ post ∧ (o, .release) ∈ post := by
  induction calls generalizing l with
  | nil =>
    cases h
    exact absurd hl hm
  | cons e calls ih =>
    obtain ⟨k, hk, hrest⟩ := Option.bind_eq_some_iff.mp h
    by_cases he : e = (o, .terminate)
    · subst he
      obtain ⟨-, hphase, -, -, -, hk0⟩ := watch_terminate hk
      exact ⟨[], calls, rfl, List.not_mem_nil, (observe_terminated hrest hphase).2, observe_release hrest hk0 hrefs⟩
    · have hphase : k.phase = .initialized := by
        rcases watch_phase hk with hp | ⟨hp, -⟩ | ⟨-, hp⟩ | hp
        · rw [hp, hl]
        · rw [hl] at hp
          cases hp
        · rw [hl] at hp
          cases hp
        · exact absurd hp he
      obtain ⟨pre, post, rfl, hpre, hpost⟩ := ih hrest hphase
      exact ⟨e :: pre, post, rfl, fun hin => (List.mem_cons.mp hin).elim (fun heq => he heq.symm) hpre, hpost⟩

end Accepted

/-- Calls that every monitor accepts are balanced. -/
private theorem Accepted.balanced {calls : List (Obj × Call)} (h : Accepted calls) : Balanced calls := by
  have hrest : ∀ o m, observe (watch o) .absent calls = some m → AtRest m := fun o m hm =>
    observe_atRest (by simp [AtRest]) hm
  refine ⟨fun o hin => ?_, fun o pre post heq => ?_, fun o pre post heq => ?_, fun o pre post heq => ?_⟩
  · obtain ⟨m, hm, hrefs⟩ := h o
    obtain ⟨pre, post, rfl⟩ := List.append_of_mem hin
    have hat := hrest o m hm hrefs
    rw [observe_append] at hm
    obtain ⟨k, hk, hm⟩ := Option.bind_eq_some_iff.mp hm
    obtain ⟨k', hk', hm⟩ := Option.bind_eq_some_iff.mp hm
    obtain ⟨hcreated, hinit⟩ := watch_init hk'
    obtain ⟨mid, rest, rfl, hmid, hafter⟩ := observe_initialized hm hinit hat.1 hrefs
    have hpre := observe_not_terminated hk (by rw [hcreated]; nofun)
    refine ⟨pre ++ (o, .init true) :: mid, rest, by simp, by simp, ?_, hafter⟩
    simp [hpre, hmid]
  · obtain ⟨m, hm, hrefs⟩ := h o
    have hat := hrest o m hm hrefs
    rw [heq, observe_append] at hm
    obtain ⟨k, -, hm⟩ := Option.bind_eq_some_iff.mp hm
    have hcount := observe_links hm
    omega
  · obtain ⟨m, hm, hrefs⟩ := h o
    have hat := hrest o m hm hrefs
    rw [heq, observe_append] at hm
    obtain ⟨k, -, hm⟩ := Option.bind_eq_some_iff.mp hm
    obtain ⟨k', hk', hm⟩ := Option.bind_eq_some_iff.mp hm
    by_contra hno
    have hactive : k'.active := by
      grind [watch, Life.step]
    have hlast := observe_active hm (fun ok hin => hno ⟨ok, hin⟩) hactive
    rw [hat.2.2] at hlast
    cases hlast
  · obtain ⟨m, hm, -⟩ := h o
    rw [heq, observe_append] at hm
    obtain ⟨k, hk, hm⟩ := Option.bind_eq_some_iff.mp hm
    obtain ⟨k', hk', -⟩ := Option.bind_eq_some_iff.mp hm
    obtain ⟨-, -, hlinks, hlinked, hactive, -⟩ := watch_terminate hk'
    constructor
    · rintro ⟨a, b, rfl, hb⟩
      rw [observe_append] at hk
      obtain ⟨j, -, hk⟩ := Option.bind_eq_some_iff.mp hk
      obtain ⟨j', hj', hk⟩ := Option.bind_eq_some_iff.mp hk
      have hj : j'.active := by
        grind [watch, Life.step]
      have hlast := observe_active hk hb hj
      rw [hactive] at hlast
      cases hlast
    · rintro ⟨o', hlt⟩
      by_cases ho : o' = o
      · subst ho
        have hcount := observe_links hk
        rw [hlinks, Life.absent_links] at hcount
        omega
      · have hcount := observe_linked ho hk
        rw [hlinked, Life.absent_linked] at hcount
        omega

section BringUp
variable {c : ClassInfo} {v : Bool}

/-- A failure before the processor is obtained leaves only the component to clean up. -/
private theorem accepted_of_early
    (h : ¬ (p.createComponent ∧ p.init .component = kResultOk ∧ p.queryAudioProcessor.found)) :
    Accepted (bringUp c p v) := by
  intro o
  by_cases hc : p.createComponent
  · by_cases hi : p.init .component = kResultOk
    · have hq : ¬ p.queryAudioProcessor.found := fun hq => h ⟨hc, hi, hq⟩
      cases o <;> simp [bringUp, instantiateAndActivate, ActivePlugin.fresh, Bringing.destroy, Bringing.reset, hc, hi, hq]
    · cases o <;> simp [bringUp, instantiateAndActivate, ActivePlugin.fresh, Bringing.destroy, Bringing.reset, hc, hi]
  · cases o <;> simp [bringUp, instantiateAndActivate, ActivePlugin.fresh, Bringing.destroy, Bringing.reset, hc]

private theorem Shape.separate_iff : (∃ a b, Shape.obtained p = .separate a b) ↔ ¬ p.queryEditController.found ∧
    (p.getControllerClassId = kResultOk ∧ p.controllerCidIsValid ∧ p.createController) ∧
      p.init .controller = kResultOk := by
  unfold Shape.obtained
  split
  · rename_i hq
    simp [hq]
  · split
    · split <;> simp_all
    · simp_all

private theorem Shape.obtained_bare {a b : Bool} (h : Shape.obtained p = .separate a b) : a = false ∧ b = false := by
  unfold Shape.obtained at h
  grind

private theorem Shape.connected_ne {k : Shape} (hk : ∀ a b, k ≠ .separate a b) :
    ∀ a b, k.connected p ≠ .separate a b := by
  cases k with
  | separate a b => exact absurd rfl (hk a b)
  | none | single => exact hk

private theorem mem_calls_query {s : Bringing} {m : Member} {o : Obj} {q : Query} {e : Obj × Call}
    (he : ∀ found, e.2 ≠ .queryInterface found) : e ∈ (s.query m o q).calls ↔ e ∈ s.calls := by
  have hcall : e ∈ (s.call o (.queryInterface q.found)).calls ↔ e ∈ s.calls := by
    simp only [Bringing.mem_calls_call, or_iff_left_iff_imp]
    rintro rfl
    exact absurd rfl (he q.found)
  unfold Bringing.query
  split
  · exact hcall
  · exact hcall

private theorem mem_calls_connect {s : Bringing} {e : Obj × Call} (he : ∀ found, e.2 ≠ .queryInterface found)
    (hc : e.2 ≠ .connect) : e ∈ (s.connect p).calls ↔ e ∈ s.calls := by
  have hne : ∀ o, e ≠ (o, .connect) := by
    rintro o rfl
    exact hc rfl
  unfold Bringing.connect
  split
  · dsimp only
    split
    · simp only [Bringing.mem_calls_call, mem_calls_query he, hne, or_false]
    · simp only [mem_calls_query he]
  · rfl

private theorem mem_calls_obtainController {s : Bringing} (h : SeparateController p) :
    (.controller, .init true) ∈ (s.obtainController p).calls ∧
      ((.controller, .terminate) ∈ (s.obtainController p).calls ↔ (.controller, .terminate) ∈ s.calls) := by
  have hq : p.queryEditController.found = false := Bool.eq_false_iff.mpr h.notSingle
  simp [Bringing.obtainController, Bringing.createController, hq, h.classId.1, h.classId.2, h.created,
    h.controllerInitialized]

private theorem Ready.prepared {s : Bringing} (h : Ready s (.none false)) (p : Answers) :
    Ready ((s.obtainController p).connect p).arrangeBuses ((Shape.obtained p).connected p) :=
  (h.obtainController.connect fun _ _ => Shape.obtained_bare).arrangeBuses

/-- The bring-up and its unwinding are balanced unless a controller with a class of its own
has been initialised and one of the last three steps fails. -/
theorem bringUp_balanced_iff : Balanced (bringUp c p v) ↔ ¬ (SeparateController p ∧ FailsToStart p) := by
  by_cases hearly : p.createComponent ∧ p.init .component = kResultOk ∧ p.queryAudioProcessor.found
  · obtain ⟨hc, hi, hq⟩ := hearly
    obtain ⟨s, hs, hterm, heq⟩ := ready_of_processor c hc hi hq
    have hready := hs.prepared p
    unfold bringUp
    rw [heq]
    by_cases hf : FailsToStart p
    · obtain ⟨e, t, hact, hkeep, hmem⟩ := activate_failed (s := ((s.obtainController p).connect p).arrangeBuses) hf
      rw [hact]
      by_cases hsep : SeparateController p
      · -- the controller is let go by `~ActivePlugin` alone
        refine iff_of_false (fun hb => ?_) (not_not_intro ⟨hsep, hf⟩)
        have hleft := mem_calls_obtainController (s := s) hsep
        have hat : ∀ {d : Call}, (∀ found, d ≠ .queryInterface found) → d ≠ .connect → d ≠ .release →
            ((.controller, d) ∈ t.abandon.calls ↔ (.controller, d) ∈ (s.obtainController p).calls) := by
          intro d h1 h2 h3
          rw [Bringing.abandon, Bringing.mem_calls_destroy h3, Bringing.mem_calls_reset h3,
            Bringing.mem_calls_reset h3, Bringing.mem_calls_call]
          simp only [reduceCtorEq, Prod.mk.injEq, false_and, or_false, hmem, Bringing.arrangeBuses,
            Bringing.mem_calls_call]
          exact mem_calls_connect h1 h2
        obtain ⟨pre, post, hsplit, -⟩ := hb.terminated .controller
          ((hat (d := .init true) nofun nofun nofun).mpr hleft.1)
        have hin : (.controller, .terminate) ∈ t.abandon.calls := by simp [hsplit]
        exact hterm (hleft.2.mp ((hat (d := .terminate) nofun nofun nofun).mp hin))
      · refine iff_of_true (Accepted.balanced (hkeep _ hready |>.abandon (Shape.connected_ne ?_))) fun h => hsep h.1
        intro a b hab
        obtain ⟨hns, hcls, hci⟩ := Shape.separate_iff.mp ⟨a, b, hab⟩
        exact hsep ⟨hc, hi, hq, hns, ⟨hcls.1, hcls.2.1⟩, hcls.2.2, hci⟩
    · obtain ⟨t, hact, hacc⟩ := hready.activate_ok hf v
      rw [hact]
      exact iff_of_true hacc.balanced fun h => hf h.2
  · exact iff_of_true (accepted_of_early hearly).balanced fun h =>
      hearly ⟨h.1.component, h.1.initialized, h.1.processor⟩

end BringUp

/-- A plugin with a controller class of its own that refuses `setProcessing(true)`. -/
def refusesProcessing : Answers :=
  { createComponent := true, init := fun _ => kResultOk, queryAudioProcessor := ⟨kResultOk, true⟩,
    queryEditController := ⟨1, false⟩, getControllerClassId := kResultOk, controllerCidIsValid := true,
    createController := true, queryConnectionPoint := fun _ => ⟨kResultOk, true⟩,
    setupProcessing := kResultOk, setActive := fun _ => kResultOk, setProcessing := fun _ => 1 }

/-- Its controller is dropped initialised and connected, its component terminated while connected. -/
theorem bringUp_unbalanced : ¬ Balanced (bringUp ⟨[], [], [], []⟩ refusesProcessing false) := by
  intro h
  obtain ⟨pre, post, heq, -⟩ := h.terminated .controller (by decide +kernel)
  have hin : (Obj.controller, Call.terminate) ∈ bringUp ⟨[], [], [], []⟩ refusesProcessing false := by
    rw [heq]
    exact List.mem_append_right pre List.mem_cons_self
  exact absurd hin (by decide +kernel)

/-- Every error of the bring-up has the wire's activate-failed code, and `Load` passes it
on with the slot object as it was. -/
theorem load_failed {c : ClassInfo} {V C : Type} {h : SlotHost ActivePlugin V C} {path : Path} {e : LoadError}
    {t : Bringing}
    (hb : instantiateAndActivate c p = (.error e, t)) :
    h.loadVst3 path (vst3Module c p) = (.error e, h) := by
  have hstatus : e.status = 4 := by
    unfold instantiateAndActivate Bringing.activate at hb
    dsimp only at hb
    split_ifs at hb <;> cases hb <;> rfl
  obtain ⟨status, message⟩ := e
  obtain rfl : status = 4 := hstatus
  rw [vst3Module, hb]
  rfl

end Plughost.Vst3.BringUp
