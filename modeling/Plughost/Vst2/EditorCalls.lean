import Plughost.Lib.Monitors

/-! `Vst2Plugin` and its `Vst2ViewWrapper`: the dispatcher calls on an `AEffect` between its load
and its unload, and when its editor is open. -/
namespace Plughost.Vst2.EditorCalls
open Plughost.Runs Plughost.Monitors

/-- An `AEffect`, by its address. -/
abbrev Effect := Nat

/-- The opcodes of the dispatcher that the host sends, with what it passes or is told where that
matters here. -/
inductive Opcode where
  | effOpen | effClose
  | effSetSampleRate | effSetBlockSize
  /-- Resume, or suspend. -/
  | effMainsChanged (on : Bool)
  | effStartProcess | effStopProcess
  | effGetEffectName | effGetVendorString | effGetVendorVersion
  | effEditGetRect
  /-- The result is not 0. -/
  | effEditOpen (opened : Bool)
  | effEditClose
  | effEditIdle
  deriving DecidableEq, Repr

abbrev Call := Effect × Opcode

/-- A width and a height. -/
structure Size where
  width : Int
  height : Int
  deriving DecidableEq, Repr

structure Vst2ViewWrapper where
  effect : Effect
  attached : Bool
  size : Size
  deriving DecidableEq, Repr

namespace Vst2ViewWrapper
variable (w : Vst2ViewWrapper)

/-- The constructor. -/
def make (effect : Effect) : Vst2ViewWrapper := ⟨effect, false, ⟨0, 0⟩⟩

/-- The destructor. -/
def drop : List Call := if w.attached then [(w.effect, .effEditClose)] else []

/-- `QueryEditRect`; `rect` is what the plugin points at, as a width and a height. -/
def queryEditRect (rect : Option Size) : Size :=
  match rect with
  | none => ⟨400, 300⟩
  | some r => ⟨if r.width > 0 then r.width else 400, if r.height > 0 then r.height else 300⟩

/-- Whether the platform is supported, the rects before and after, and what `effEditOpen` returns. -/
def attach (supported : Bool) (before after : Option Size) (opened : Bool) : Bool × Vst2ViewWrapper × List Call :=
  if w.attached then (true, w, [])
  else if !supported then (false, w, [])
  else
    let w := { w with size := queryEditRect before }
    if !opened then (false, w, [(w.effect, .effEditGetRect), (w.effect, .effEditOpen false)])
    else
      let q := queryEditRect after
      (true, { w with
        attached := true
        size := ⟨if q.width > 0 then q.width else w.size.width, if q.height > 0 then q.height else w.size.height⟩ },
        [(w.effect, .effEditGetRect), (w.effect, .effEditOpen true), (w.effect, .effEditGetRect)])

def removed : Vst2ViewWrapper × List Call :=
  if !w.attached then (w, []) else ({ w with attached := false }, [(w.effect, .effEditClose)])

/-- `getSize`, into a rect that is there or a null pointer. -/
def getSize (rectGiven : Bool) (rect : Option Size) : Option Size × List Call :=
  if !rectGiven then (none, [])
  else if w.size.width ≤ 0 ∨ w.size.height ≤ 0 then (some (queryEditRect rect), [(w.effect, .effEditGetRect)])
  else (some w.size, [])

def onSize (newSize : Option Size) : Vst2ViewWrapper :=
  match newSize with
  | none => w
  | some q => { w with size := q }

def idle : List Call := if w.attached then [(w.effect, .effEditIdle)] else []

end Vst2ViewWrapper

/-- How a `Load` comes out, up to the plugin's `AEffect`: no library, no entry point, none or one
with a bad magic number, or this one. -/
inductive Entry where
  | noLibrary | noEntryPoint | badEffect
  | effect (e : Effect)
  deriving DecidableEq, Repr

/-- `impl_->active`, by its effect, and `impl_->editorView`. -/
structure Vst2Plugin where
  active : Option Effect
  editorView : Option Vst2ViewWrapper
  deriving DecidableEq, Repr

inductive Act where
  | load (entry : Entry)
  | unload
  /-- `AcquireEditorView`, where the effect's flags say whether it has an editor. -/
  | acquire (hasEditor : Bool)
  | release
  /-- Calls on the acquired wrapper. -/
  | attached (supported : Bool) (before after : Option Size) (opened : Bool)
  | removed
  | getSize (rectGiven : Bool) (rect : Option Size)
  | onSize (newSize : Option Size)
  | idle
  deriving DecidableEq, Repr

/-- The calls of a `Load` on the new effect. -/
def activation (e : Effect) : List Call :=
  [(e, .effOpen), (e, .effSetSampleRate), (e, .effSetBlockSize), (e, .effMainsChanged true), (e, .effStartProcess),
    (e, .effGetEffectName), (e, .effGetVendorString), (e, .effGetVendorVersion)]

def tearDownActive (prior : Option Effect) : List Call :=
  match prior with
  | none => []
  | some e => [(e, .effStopProcess), (e, .effMainsChanged false), (e, .effClose)]

namespace Vst2Plugin

def initial : Vst2Plugin := ⟨none, none⟩

variable (s : Vst2Plugin)

/-- `editorView.reset()`. -/
def resetView : List Call := s.editorView.elim [] Vst2ViewWrapper.drop

def load : Entry → Vst2Plugin × List Call
  | .noLibrary | .noEntryPoint | .badEffect => (s, [])
  | .effect e => (⟨some e, none⟩, activation e ++ s.resetView ++ tearDownActive s.active)

def unload : Vst2Plugin × List Call := (⟨none, none⟩, s.resetView ++ tearDownActive s.active)

def acquireEditorView (hasEditor : Bool) : Vst2Plugin :=
  match s.active with
  | none => s
  | some e =>
    if !hasEditor then s
    else { s with editorView := some (s.editorView.getD (.make e)) }

def releaseEditorView : Vst2Plugin × List Call := ({ s with editorView := none }, s.resetView)

/-- A call on the wrapper that was acquired. -/
def onView (f : Vst2ViewWrapper → Vst2ViewWrapper × List Call) : Option (Vst2Plugin × List Call) :=
  s.editorView.map fun w => ({ s with editorView := some (f w).1 }, (f w).2)

def step : Act → Option (Vst2Plugin × List Call)
  | .load entry => some (s.load entry)
  | .unload => some s.unload
  | .acquire hasEditor => some (s.acquireEditorView hasEditor, [])
  | .release => some s.releaseEditorView
  | .attached supported before after opened => s.onView fun w => (w.attach supported before after opened).2
  | .removed => s.onView Vst2ViewWrapper.removed
  | .getSize rectGiven rect => s.onView fun w => (w, (w.getSize rectGiven rect).2)
  | .onSize newSize => s.onView fun w => (w.onSize newSize, [])
  | .idle => s.onView fun w => (w, w.idle)

end Vst2Plugin

/-- The rule for an effect's editor; the state is the effects whose editors are open. -/
def rule (editors : List Effect) (call : Call) : Option (List Effect) :=
  match call.2 with
  | .effEditOpen true => if call.1 ∈ editors then none else some (call.1 :: editors)
  | .effEditClose => if call.1 ∈ editors then some (editors.erase call.1) else none
  | .effEditIdle => if call.1 ∈ editors then some editors else none
  | .effStopProcess | .effMainsChanged false | .effClose => if call.1 ∈ editors then none else some editors
  | _ => some editors

/-- On each effect editors are opened and closed in turn, closed before the effect is stopped,
suspended or closed, and idle only while open. -/
def Alternates : Vst2Plugin × List Call → Prop := Accepts rule []

namespace Vst2ViewWrapper

/-- The effect whose editor the wrapper has open. -/
def editors (w : Vst2ViewWrapper) : List Effect := if w.attached then [w.effect] else []

variable {w : Vst2ViewWrapper}

theorem observe_drop : observe rule w.editors w.drop = some [] := by
  unfold editors drop
  split
  · simp [rule]
  · rfl

/-- A successful open is of an editor that was closed. -/
private theorem observe_attach (supported : Bool) (before after : Option Size) (opened : Bool) :
    observe rule w.editors (w.attach supported before after opened).2.2 =
      some (w.attach supported before after opened).2.1.editors := by
  unfold attach
  by_cases hattached : w.attached
  · rw [if_pos hattached]
    rfl
  · have hclosed : w.editors = [] := if_neg hattached
    rw [if_neg hattached, hclosed]
    cases supported with
    | false => exact congrArg some hclosed.symm
    | true =>
      cases opened with
      | false =>
        have hstill : editors { w with size := queryEditRect before } = [] := if_neg hattached
        exact congrArg some hstill.symm
      | true => simp [rule, editors]

private theorem observe_removed : observe rule w.editors w.removed.2 = some w.removed.1.editors := by
  unfold removed
  by_cases hattached : w.attached
  · have hopen : w.editors = [w.effect] := if_pos hattached
    rw [hattached, hopen]
    simp [rule, editors]
  · rw [Bool.eq_false_iff.mpr hattached]
    rfl

theorem observe_getSize (rectGiven : Bool) (rect : Option Size) :
    observe rule w.editors (w.getSize rectGiven rect).2 = some w.editors := by
  unfold getSize
  split
  · rfl
  · split <;> rfl

private theorem observe_idle : observe rule w.editors w.idle = some w.editors := by
  unfold idle
  split
  · rename_i hattached
    have hopen : w.editors = [w.effect] := if_pos hattached
    rw [hopen]
    simp [rule]
  · rfl

end Vst2ViewWrapper

namespace Vst2Plugin
variable {s t : Vst2Plugin} {act : Act} {calls : List Call}

/-- The effects whose editors are open: that of an attached wrapper. -/
def editors (s : Vst2Plugin) : List Effect := s.editorView.elim [] Vst2ViewWrapper.editors

private theorem observe_resetView : observe rule s.editors s.resetView = some [] := by
  unfold editors resetView
  cases s.editorView with
  | none => rfl
  | some w => exact Vst2ViewWrapper.observe_drop

/-- Where no editor is open an effect may be stopped. -/
private theorem observe_tearDownActive (prior : Option Effect) : observe rule [] (tearDownActive prior) = some [] := by
  cases prior with
  | none => rfl
  | some e => rfl

private theorem observe_activation (e : Effect) (editors : List Effect) :
    observe rule editors (activation e) = some editors := rfl

/-- A call on the wrapper, of which `f` says what it makes of it and what it sends. -/
private theorem observe_onView {f : Vst2ViewWrapper → Vst2ViewWrapper × List Call}
    (hf : ∀ w, observe rule w.editors (f w).2 = some (f w).1.editors) (hstep : s.onView f = some (t, calls)) :
    observe rule s.editors calls = some t.editors := by
  obtain ⟨w, hw, hout⟩ := Option.map_eq_some_iff.mp hstep
  cases hout
  unfold editors
  rw [hw]
  exact hf w

private theorem editors_acquire (hasEditor : Bool) : (s.acquireEditorView hasEditor).editors = s.editors := by
  unfold acquireEditorView
  split
  · rfl
  · split
    · rfl
    · unfold editors
      cases s.editorView with
      | none => rfl
      | some w => rfl

private theorem observe_step (hstep : s.step act = some (t, calls)) :
    observe rule s.editors calls = some t.editors := by
  cases act with
  | load entry =>
    cases entry with
    | noLibrary | noEntryPoint | badEffect =>
      cases hstep
      rfl
    | effect e =>
      cases hstep
      change observe rule s.editors (activation e ++ s.resetView ++ tearDownActive s.active) = some []
      rw [List.append_assoc, observe_append_of (observe_activation e s.editors), observe_append_of observe_resetView]
      exact observe_tearDownActive s.active
  | unload =>
    cases hstep
    change observe rule s.editors (s.resetView ++ tearDownActive s.active) = some []
    rw [observe_append_of observe_resetView]
    exact observe_tearDownActive s.active
  | acquire hasEditor =>
    cases hstep
    rw [editors_acquire]
    rfl
  | release =>
    cases hstep
    exact observe_resetView
  | attached supported before after opened =>
    exact observe_onView (fun w => w.observe_attach supported before after opened) hstep
  | removed => exact observe_onView (fun w => w.observe_removed) hstep
  | getSize rectGiven rect => exact observe_onView (fun w => w.observe_getSize rectGiven rect) hstep
  | onSize newSize =>
    refine observe_onView (fun w => ?_) hstep
    cases newSize with
    | none => rfl
    | some q => rfl
  | idle => exact observe_onView (fun w => w.observe_idle) hstep

/-- The wrapper is of the effect that is loaded. -/
def Bound (s : Vst2Plugin) : Prop := ∀ w, s.editorView = some w → s.active = some w.effect

private theorem bound_onView {f : Vst2ViewWrapper → Vst2ViewWrapper × List Call} (hf : ∀ w, (f w).1.effect = w.effect)
    (hbound : Bound s) (hstep : s.onView f = some (t, calls)) : Bound t := by
  obtain ⟨w, hw, hout⟩ := Option.map_eq_some_iff.mp hstep
  cases hout
  intro w' hw'
  cases hw'
  rw [hf w]
  exact hbound w hw

private theorem bound_acquire (hbound : Bound s) (hasEditor : Bool) : Bound (s.acquireEditorView hasEditor) := by
  unfold acquireEditorView
  split
  · exact hbound
  · rename_i e hactive
    split
    · exact hbound
    · intro w hw
      cases hview : s.editorView with
      | none =>
        rw [hview] at hw
        cases hw
        exact hactive
      | some w' =>
        rw [hview] at hw
        cases hw
        exact hbound w' hview

private theorem bound_step (hbound : Bound s) (hstep : s.step act = some (t, calls)) : Bound t := by
  cases act with
  | load entry =>
    cases entry with
    | noLibrary | noEntryPoint | badEffect =>
      cases hstep
      exact hbound
    | effect e =>
      cases hstep
      intro w hw
      cases hw
  | unload | release =>
    cases hstep
    intro w hw
    cases hw
  | acquire hasEditor =>
    cases hstep
    exact bound_acquire hbound hasEditor
  | attached supported before after opened =>
    refine bound_onView (fun w => ?_) hbound hstep
    unfold Vst2ViewWrapper.attach
    split
    · rfl
    · split
      · rfl
      · dsimp only
        split <;> rfl
  | removed =>
    refine bound_onView (fun w => ?_) hbound hstep
    unfold Vst2ViewWrapper.removed
    split <;> rfl
  | onSize newSize =>
    refine bound_onView (fun w => ?_) hbound hstep
    cases newSize with
    | none => rfl
    | some q => rfl
  | getSize | idle => exact bound_onView (fun w => rfl) hbound hstep

/-- The effect outlives its wrapper, as the wrapper asks of its owner. -/
theorem bound_run (acts : List Act) : Always (recorded step) (fun p => Bound p.1) (initial, []) acts := by
  refine always_of_meets (fun p => Bound p.1) ?_ id ?_ Meets.true
  · rintro p act q hbound - hstep
    obtain ⟨⟨t, calls⟩, hst, rfl⟩ := Option.map_eq_some_iff.mp hstep
    exact bound_step hbound hst
  · intro w hw
    cases hw

/-- Whatever is called in whatever order, and however the plugins answer. -/
theorem editor_calls_alternate (acts : List Act) : Always (recorded step) Alternates (initial, []) acts :=
  accepts_of_steps (fun s editors => editors = s.editors)
    (fun heditors hstep => ⟨_, heditors ▸ observe_step hstep, rfl⟩) rfl

end Vst2Plugin
end Plughost.Vst2.EditorCalls
