import Plughost.Lib.Monitors

/-! `ClapViewWrapper` under `EditorWindow`: the calls on the plugin's gui extension, between the
wrapper's construction and `ReleaseEditorView`, for every way the plugin answers. -/
namespace Plughost.Clap.GuiLifecycle
open Plughost.Runs Plughost.Monitors

/-- An X window, by the number of its creation. -/
abbrev Window := Nat

structure Size where
  width : BitVec 32
  height : BitVec 32
  deriving DecidableEq, Repr

/-- `x > 0` on `int`. -/
def positive (x : BitVec 32) : Bool := (0 : BitVec 32).slt x

/-- Which functions the plugin's `clap_plugin_gui_t` has. -/
structure Ext where
  isApiSupported : Bool
  create : Bool
  destroy : Bool
  getSize : Bool
  canResize : Bool
  setSize : Bool
  setParent : Bool
  showGui : Bool
  hideGui : Bool
  deriving DecidableEq, Repr

/-- A call on the extension (`showGui` is `show`, `hideGui` is `hide`), with the plugin's answer
where the host looks at it; the end of an X window; the end of the wrapper. -/
inductive Call where
  | isApiSupported
  | create (ok : Bool)
  | destroy
  | getSize
  | canResize
  | setSize
  | setParent (w : Window) (ok : Bool)
  | showGui (ok : Bool)
  | hideGui
  | destroyWindow (w : Window)
  | gone
  deriving DecidableEq, Repr

structure Wrapper where
  created : Bool
  shown : Bool
  embedded : Bool
  width : BitVec 32
  height : BitVec 32
  deriving DecidableEq, Repr

/-- The answers during one `Attach`; sizes are what `get_size` gives when it succeeds. -/
structure AttachAnswers where
  display : Bool
  supported : Bool
  size : Option Size
  xCreateWindow : Bool
  canResize : Bool
  supportedAgain : Bool
  setParent : Bool
  showGui : Bool
  sizeAfter : Option Size
  deriving DecidableEq, Repr

namespace Wrapper
variable (g : Ext) (w : Wrapper)

/-- The constructor. -/
def make (create : Bool) (size : Option Size) : Wrapper × List Call :=
  let w : Wrapper := ⟨false, false, false, 0, 0⟩
  if g.create then
    if create then
      let w := { w with created := true }
      if g.getSize then
        (match size with
          | some q => if q.width ≠ 0 ∧ q.height ≠ 0 then { w with width := q.width, height := q.height } else w
          | none => w, [.create true, .getSize])
      else (w, [.create true])
    else (w, [.create false])
  else (w, [])

/-- The destructor. -/
def drop : List Call :=
  (if w.created then
    (if w.shown && g.hideGui then [.hideGui] else []) ++ if g.destroy then [.destroy] else []
  else []) ++ [.gone]

def isPlatformTypeSupported (answer : Bool) : Bool × List Call :=
  if g.isApiSupported then (answer, [.isApiSupported]) else (false, [])

def attached (window : Window) (a : AttachAnswers) : Bool × Wrapper × List Call :=
  let platform := isPlatformTypeSupported g a.supportedAgain
  if !platform.1 then (false, w, platform.2)
  else if !w.created then (false, w, platform.2)
  else if !g.setParent then (false, w, platform.2)
  else if !a.setParent then (false, w, platform.2 ++ [.setParent window false])
  else
    let w := { w with embedded := true }
    if !g.showGui then (true, w, platform.2 ++ [.setParent window true])
    else if !a.showGui then (false, w, platform.2 ++ [.setParent window true, .showGui false])
    else (true, { w with shown := true }, platform.2 ++ [.setParent window true, .showGui true])

def removed : Wrapper × List Call :=
  ({ w with shown := false, embedded := false, created := false },
    (if w.shown && g.hideGui then [.hideGui] else []) ++ if w.created && g.destroy then [.destroy] else [])

/-- `getSize` asks the plugin when it has no size at hand. -/
def asksSize : Bool := (!positive w.width || !positive w.height) && g.getSize

def getSize (answer : Option Size) : Size × List Call :=
  let q : Size := if w.asksSize g then
      match answer with
      | some q => ⟨if q.width ≠ 0 then q.width else w.width, if q.height ≠ 0 then q.height else w.height⟩
      | none => ⟨w.width, w.height⟩
    else ⟨w.width, w.height⟩
  (⟨if positive q.width then q.width else 400, if positive q.height then q.height else 300⟩,
    if w.asksSize g then [.getSize] else [])

def onSize (newSize : Size) : Wrapper × List Call :=
  ({ w with width := newSize.width, height := newSize.height },
    if g.setSize && positive newSize.width && positive newSize.height then [.setSize] else [])

def canResize (answer : Bool) : Bool × List Call := if g.canResize then (answer, [.canResize]) else (false, [])

end Wrapper

/-- An attached `EditorWindow`. -/
structure Editor where
  window : Window
  width : BitVec 32
  height : BitVec 32
  deriving DecidableEq, Repr

/-- One wrapper, the window that holds it, if any, and the next X window's number. -/
structure Editing where
  wrapper : Option Wrapper
  gone : Bool
  editor : Option Editor
  nextWindow : Window
  deriving DecidableEq, Repr

inductive Act where
  /-- `AcquireEditorView`: the wrapper is made on the first call. -/
  | acquire (create : Bool) (size : Option Size)
  /-- `HandleShow`: a new `EditorWindow`, unless one is open. -/
  | attach (a : AttachAnswers)
  /-- `ConfigureNotify` in `OnEvent`. -/
  | configure (width height : BitVec 32)
  /-- `HostPlugFrame::resizeView`. -/
  | resizeView (width height : BitVec 32)
  /-- `Detach`, on a close by either side. -/
  | detach
  /-- `ReleaseEditorView`. -/
  | release
  deriving DecidableEq, Repr

namespace Editing
variable (g : Ext) (s : Editing)

def initial : Editing := ⟨none, false, none, 1⟩

/-- `EditorWindow::Attach` on a new window: the status, what is left, and the calls. -/
def attach (w : Wrapper) (a : AttachAnswers) : BitVec 8 × Editing × List Call :=
  let platform := Wrapper.isPlatformTypeSupported g a.supported
  let size := w.getSize g a.size
  let window := s.nextWindow
  let resize := Wrapper.canResize g a.canResize
  let attached := w.attached g window a
  let after := attached.2.1.getSize g a.sizeAfter
  if !a.display then (7, s, [])
  else if !platform.1 then (3, s, platform.2)
  else if !a.xCreateWindow then (5, s, platform.2 ++ size.2)
  else if !attached.1 then
    (4, { s with wrapper := some attached.2.1, nextWindow := s.nextWindow + 1 },
      platform.2 ++ size.2 ++ resize.2 ++ attached.2.2 ++ [.destroyWindow window])
  else
    let q := if positive after.1.width && positive after.1.height then after.1 else size.1
    (0, { s with wrapper := some attached.2.1, nextWindow := s.nextWindow + 1,
                 editor := some ⟨window, q.width, q.height⟩ },
      platform.2 ++ size.2 ++ resize.2 ++ attached.2.2 ++ after.2)

/-- `view_->onSize`, on the wrapper of an open window. -/
def resized (w : Wrapper) (e : Editor) (width height : BitVec 32) : Editing × List Call :=
  let (w', calls) := w.onSize g ⟨width, height⟩
  ({ s with wrapper := some w', editor := some { e with width, height } }, calls)

def step : Act → Option (Editing × List Call)
  | .acquire create size =>
    if s.gone then none
    else match s.wrapper with
      | some _ => some (s, [])
      | none =>
        let (w, calls) := Wrapper.make g create size
        some ({ s with wrapper := some w }, calls)
  | .attach a =>
    if s.gone then none
    else match s.wrapper, s.editor with
      | none, _ => none
      | some _, some _ => some (s, [])
      | some w, none => some (s.attach g w a).2
  | .configure width height =>
    if s.gone then none
    else match s.wrapper, s.editor with
      | some w, some e =>
        if positive width && positive height && (width != e.width || height != e.height) then
          some (s.resized g w e width height)
        else some (s, [])
      | _, _ => none
  | .resizeView width height =>
    if s.gone then none
    else match s.wrapper, s.editor with
      | some w, some e =>
        if positive width && positive height then some (s.resized g w e width height) else some (s, [])
      | _, _ => none
  | .detach =>
    if s.gone then none
    else match s.wrapper, s.editor with
      | some w, some e =>
        let (w', calls) := w.removed g
        some ({ s with wrapper := some w', editor := none }, calls ++ [.destroyWindow e.window])
      | _, _ => none
  | .release =>
    if s.gone then none
    else match s.wrapper with
      | none => none
      | some w => some ({ s with wrapper := none, gone := true }, w.drop g)

end Editing

/-- The plugin's GUI as the calls so far have left it: created, shown, and the window it is in. -/
structure Life where
  created : Bool
  shown : Bool
  parent : Option Window
  deriving DecidableEq, Repr

/-- The rule, call by call: `none` is a breach of it. -/
@[simp] def Life.step (l : Life) : Call → Option Life
  | .isApiSupported => some l
  | .create ok => if l.created then none else some ⟨ok, false, none⟩
  | .destroy => if l.created then some ⟨false, false, none⟩ else none
  | .getSize | .canResize | .setSize => if l.created then some l else none
  | .setParent w ok => if l.created then some { l with parent := if ok then some w else l.parent } else none
  | .showGui ok => if l.created then some { l with shown := l.shown || ok } else none
  | .hideGui => if l.created && l.shown then some { l with shown := false } else none
  | .destroyWindow w => if l.parent = some w then none else some l
  | .gone => if l.created then none else some l

def Life.start : Life := ⟨false, false, none⟩

/-- The run so far keeps the rule. -/
def Lawful : Editing × List Call → Prop := Accepts Life.step Life.start

namespace Editing
variable {g : Ext} {s t : Editing} {w : Wrapper} {l : Life}

/-- `attached` gets as far as an accepted `set_parent`. -/
def Embeds (g : Ext) (w : Wrapper) (a : AttachAnswers) : Prop :=
  w.created ∧ (Wrapper.isPlatformTypeSupported g a.supportedAgain).1 ∧ g.setParent ∧ a.setParent

instance (g : Ext) (w : Wrapper) (a : AttachAnswers) : Decidable (Embeds g w a) :=
  inferInstanceAs (Decidable (_ ∧ _ ∧ _ ∧ _))

/-- `Attach` is safe for the GUI: the size entry points reach the plugin only while its GUI exists,
and once embedded it does not refuse `show`. -/
def AttachOk (g : Ext) (w : Wrapper) (a : AttachAnswers) : Prop :=
  a.display → (Wrapper.isPlatformTypeSupported g a.supported).1 →
    (w.asksSize g → w.created) ∧ (a.xCreateWindow → (g.canResize → w.created) ∧
      ¬ (Embeds g w a ∧ g.showGui ∧ a.showGui = false))

instance (g : Ext) (w : Wrapper) (a : AttachAnswers) : Decidable (AttachOk g w a) :=
  inferInstanceAs (Decidable (_ → _ → _ ∧ _))

/-- What a step must find: for an `Attach` the above; where a GUI is to be given up, a `destroy`. -/
def Permits (g : Ext) (s : Editing) : Act → Prop
  | .attach a => ∀ w, s.wrapper = some w → s.editor = none → AttachOk g w a
  | .detach => s.editor.isSome → g.destroy
  | .release => ∀ w, s.wrapper = some w → w.created → g.destroy
  | _ => True

instance (g : Ext) (s : Editing) : (act : Act) → Decidable (Permits g s act)
  | .attach a => inferInstanceAs (Decidable (∀ w ∈ s.wrapper, s.editor = none → AttachOk g w a))
  | .detach => inferInstanceAs (Decidable (_ → _))
  | .release => inferInstanceAs (Decidable (∀ w ∈ s.wrapper, w.created → g.destroy))
  | .acquire .. | .configure .. | .resizeView .. => inferInstanceAs (Decidable True)

/-- The wrapper's flags say what the calls have made of the GUI; the window it is embedded
in is the open one. -/
structure Agrees (s : Editing) (l : Life) : Prop where
  absent : s.wrapper = none → l = Life.start ∧ s.editor = none
  created : ∀ w, s.wrapper = some w → l.created = w.created ∧ l.shown = w.shown ∧ (w.shown → w.created)
  parent : l.parent = s.editor.map Editor.window
  editor : s.editor.isSome → l.created
  fresh : ∀ e ∈ s.editor, e.window < s.nextWindow

@[simp] theorem observe_platform (b : Bool) :
    observe Life.step l (Wrapper.isPlatformTypeSupported g b).2 = some l := by
  unfold Wrapper.isPlatformTypeSupported
  split <;> rfl

@[simp] theorem observe_getSize (q : Option Size) :
    observe Life.step l (w.getSize g q).2 = if w.asksSize g ∧ l.created = false then none else some l := by
  unfold Wrapper.getSize
  cases w.asksSize g <;> cases hl : l.created <;> simp [hl]

@[simp] theorem observe_canResize (b : Bool) :
    observe Life.step l (Wrapper.canResize g b).2 = if g.canResize ∧ l.created = false then none else some l := by
  unfold Wrapper.canResize
  cases g.canResize <;> cases hl : l.created <;> simp [hl]

/-- What `attached` comes to: the GUI is not embedded, or embedded and then not shown, or all is well. -/
inductive Attached (g : Ext) (w : Wrapper) (l : Life) (window : Window) (a : AttachAnswers) :
    Bool × Wrapper × List Call → Prop
  | refused (calls : List Call) : observe Life.step l calls = some l → ¬ Embeds g w a →
      Attached g w l window a (false, w, calls)
  | notShown (w' : Wrapper) (calls : List Call) :
      observe Life.step l calls = some { l with parent := some window } →
      Embeds g w a ∧ g.showGui ∧ a.showGui = false → Attached g w l window a (false, w', calls)
  | done (w' : Wrapper) (calls : List Call) : observe Life.step l calls = some ⟨true, w'.shown, some window⟩ →
      w.created → w'.created → ¬ (g.showGui ∧ a.showGui = false) → Attached g w l window a (true, w', calls)

private theorem attached_cases (hc : l.created = w.created) (hs : l.shown = w.shown) (window : Window)
    (a : AttachAnswers) :
    Attached g w l window a (w.attached g window a) := by
  unfold Wrapper.attached
  dsimp only
  by_cases hplatform : (Wrapper.isPlatformTypeSupported g a.supportedAgain).1
  · by_cases hcreated : w.created
    · have hl : l.created = true := hc.trans hcreated
      by_cases hparent : g.setParent
      · by_cases hanswer : a.setParent
        · simp only [hplatform, hcreated, hparent, hanswer, Bool.not_true, Bool.false_eq_true, if_false]
          by_cases hshow : g.showGui
          · by_cases hshown : a.showGui
            · simp only [hshow, hshown, Bool.not_true, Bool.false_eq_true, if_false]
              refine .done _ _ ?_ hcreated rfl fun h => Bool.false_ne_true (h.2.symm.trans hshown)
              rw [observe_append_of (observe_platform _)]
              simp [hl]
            · simp only [hshow, hshown, Bool.not_true, Bool.not_false, Bool.false_eq_true, if_false, if_true]
              refine .notShown _ _ ?_ ⟨⟨hcreated, hplatform, hparent, hanswer⟩, hshow, by simpa using hshown⟩
              rw [observe_append_of (observe_platform _)]
              simp [hl]
          · simp only [hshow, Bool.not_false, if_true]
            refine .done _ _ ?_ hcreated rfl fun h => hshow h.1
            rw [observe_append_of (observe_platform _)]
            simp [hl, hs]
        · simp only [hplatform, hcreated, hparent, hanswer, Bool.not_true, Bool.not_false, Bool.false_eq_true,
            if_false, if_true]
          refine .refused _ ?_ fun h => hanswer h.2.2.2
          rw [observe_append_of (observe_platform _)]
          change (if l.created then some l else none).bind some = some l
          rw [if_pos hl, Option.bind_some]
      · simp only [hplatform, hcreated, hparent, Bool.not_true, Bool.not_false, Bool.false_eq_true, if_false, if_true]
        exact .refused _ (observe_platform _) fun h => hparent h.2.2.1
    · simp only [hplatform, hcreated, Bool.not_true, Bool.not_false, Bool.false_eq_true, if_false, if_true]
      exact .refused _ (observe_platform _) fun h => hcreated h.1
  · simp only [hplatform, Bool.not_false, if_true]
    exact .refused _ (observe_platform _) fun h => hplatform h.2.1

/-- The part of `Attach` before `attached`, on the size entry points. -/
private theorem observe_before (hc : l.created = w.created) (b b' : Bool) (q : Option Size) :
    observe Life.step l ((Wrapper.isPlatformTypeSupported g b).2 ++ (w.getSize g q).2) =
        (if w.asksSize g → w.created then some l else none) ∧
      observe Life.step l ((Wrapper.isPlatformTypeSupported g b).2 ++ (w.getSize g q).2 ++
        (Wrapper.canResize g b').2) =
        if (w.asksSize g → w.created) ∧ (g.canResize → w.created) then some l else none := by
  have hsize : observe Life.step l ((Wrapper.isPlatformTypeSupported g b).2 ++ (w.getSize g q).2) =
      if w.asksSize g → w.created then some l else none := by
    rw [observe_append_of (observe_platform _), observe_getSize, hc]
    cases w.asksSize g <;> cases w.created <;> rfl
  refine ⟨hsize, ?_⟩
  rw [observe_append, hsize]
  by_cases hask : w.asksSize g → w.created
  · rw [if_pos hask, Option.bind_some, observe_canResize, hc]
    cases g.canResize <;> cases hw : w.created <;> simp_all
  · rw [if_neg hask, if_neg fun hboth => hask hboth.1, Option.bind_none]

/-- `Attach` is accepted just when it is safe, and the wrapper then still agrees with its GUI. -/
private theorem attach_iff (h : Agrees s l) (hw : s.wrapper = some w) (he : s.editor = none) (a : AttachAnswers) :
    (AttachOk g w a → ∃ n, observe Life.step l (s.attach g w a).2.2 = some n ∧ Agrees (s.attach g w a).2.1 n) ∧
      ∀ n, observe Life.step l (s.attach g w a).2.2 = some n → AttachOk g w a := by
  obtain ⟨hc, hs, hsc⟩ := h.created w hw
  have hparent : l.parent = none := by rw [h.parent, he]; rfl
  obtain ⟨hsize, hresize⟩ := observe_before (g := g) hc a.supported a.canResize a.size
  unfold attach AttachOk
  dsimp only
  by_cases hd : a.display
  · by_cases hp : (Wrapper.isPlatformTypeSupported g a.supported).1
    · by_cases hx : a.xCreateWindow
      · simp only [hd, hp, hx, Bool.not_true, Bool.false_eq_true, if_false]
        have hattached := attached_cases (g := g) hc hs s.nextWindow a
        generalize w.attached g s.nextWindow a = r at hattached
        -- what comes before `attached`, accepted or not
        have hfront : ∀ calls n, observe Life.step l ((Wrapper.isPlatformTypeSupported g a.supported).2 ++
            (w.getSize g a.size).2 ++ (Wrapper.canResize g a.canResize).2 ++ calls) = some n ↔
              ((w.asksSize g → w.created) ∧ (g.canResize → w.created)) ∧ observe Life.step l calls = some n := by
          intro calls n
          rw [observe_append, hresize]
          split <;> simp_all
        cases hattached with
        | refused calls hcalls hno =>
          have hwindow : observe Life.step l (calls ++ [.destroyWindow s.nextWindow]) = some l := by
            rw [observe_append_of hcalls]
            simp [hparent]
          simp only [Bool.not_false, if_true, List.append_assoc _ calls, hfront]
          refine ⟨fun hok => ⟨l, ⟨?_, hwindow⟩, ?_⟩, fun n hn _ _ => ⟨hn.1.1, fun _ => ⟨hn.1.2, fun h => hno h.1⟩⟩⟩
          · obtain ⟨hask, hrest⟩ := hok trivial trivial
            exact ⟨hask, (hrest trivial).1⟩
          · exact ⟨nofun, fun v hv => by cases hv; exact ⟨hc, hs, hsc⟩, h.parent, h.editor,
              fun e hmem => absurd hmem (by simp [he])⟩
        | notShown w' calls hcalls hyes =>
          have hwindow : observe Life.step l (calls ++ [.destroyWindow s.nextWindow]) = none := by
            rw [observe_append_of hcalls]
            simp
          simp only [Bool.not_false, if_true, List.append_assoc _ calls, hfront, hwindow]
          exact ⟨fun hok => absurd hyes ((hok trivial trivial).2 trivial).2, fun n hn => nomatch hn.2⟩
        | done w' calls hcalls hcreated hcreated' hno =>
          have hafter : observe Life.step l (calls ++ (w'.getSize g a.sizeAfter).2) =
              some ⟨true, w'.shown, some s.nextWindow⟩ := by
            rw [observe_append_of hcalls, observe_getSize, if_neg (by simp)]
          simp only [Bool.not_true, Bool.false_eq_true, if_false, List.append_assoc _ calls, hfront]
          refine ⟨fun hok => ⟨_, ⟨⟨fun _ => hcreated, fun _ => hcreated⟩, hafter⟩, ?_⟩,
            fun n hn _ _ => ⟨fun _ => hcreated, fun _ => ⟨fun _ => hcreated, fun h => hno h.2⟩⟩⟩
          refine ⟨nofun, fun v hv => ?_, rfl, fun _ => rfl, fun e hmem => ?_⟩
          · cases hv
            exact ⟨hcreated'.symm, rfl, fun _ => hcreated'⟩
          · cases hmem
            exact Nat.lt_succ_self _
      · simp only [hd, hp, hx, Bool.not_true, Bool.not_false, Bool.false_eq_true, if_false, if_true, hsize]
        refine ⟨fun hok => ⟨l, if_pos (hok trivial trivial).1, h⟩, fun n hn _ _ => ⟨?_, nofun⟩⟩
        simpa using (Option.ite_none_right_eq_some.mp hn).1
    · simp only [hd, hp, Bool.not_true, Bool.not_false, Bool.false_eq_true, if_false, if_true]
      exact ⟨fun _ => ⟨l, observe_platform _, h⟩, fun _ _ _ hp' => absurd hp' (by simp)⟩
  · simp only [hd, Bool.not_false, if_true]
    exact ⟨fun _ => ⟨l, rfl, h⟩, fun _ _ hd' => absurd hd' (by simp)⟩

private theorem observe_make (create : Bool) (q : Option Size) :
    ∃ n, observe Life.step Life.start (Wrapper.make g create q).2 = some n ∧
      n.created = (Wrapper.make g create q).1.created ∧ n.shown = false ∧ n.parent = none ∧
        (Wrapper.make g create q).1.shown = false := by
  unfold Wrapper.make
  dsimp only
  by_cases hcreate : g.create
  · cases create with
    | false => exact ⟨_, by simp [hcreate, Life.start]; rfl, by simp [hcreate]⟩
    | true =>
      by_cases hsize : g.getSize
      · refine ⟨⟨true, false, none⟩, by simp [hcreate, hsize, Life.start], ?_⟩
        simp only [hcreate, hsize, if_true]
        cases q with
        | none => simp
        | some q => simp only [apply_ite Wrapper.created, apply_ite Wrapper.shown, ite_self, and_self]
      · exact ⟨⟨true, false, none⟩, by simp [hcreate, hsize, Life.start], by simp [hcreate, hsize]⟩
  · exact ⟨Life.start, by simp [hcreate], by simp [hcreate, Life.start]⟩

/-- Hiding what is shown is always accepted. -/
private theorem observe_hide (hc : l.created = true) (hs : l.shown = w.shown) :
    ∃ n, observe Life.step l (if w.shown && g.hideGui then [.hideGui] else []) = some n ∧
      n.created = true ∧ n.parent = l.parent := by
  cases hw : w.shown <;> cases g.hideGui <;> simp [hc, hs, hw]

/-- Giving a GUI up leaves none just when there is a `destroy`. -/
private theorem observe_destroy (hc : l.created = true) (hs : l.shown = w.shown) (hw : w.created) :
    ∃ n, observe Life.step l ((if w.shown && g.hideGui then [.hideGui] else []) ++
        if w.created && g.destroy then [.destroy] else []) = some n ∧
      n = if g.destroy then Life.start else ⟨true, n.shown, l.parent⟩ := by
  obtain ⟨n, hn, hcreated, hparent⟩ := observe_hide (g := g) hc hs
  rw [observe_append_of hn]
  cases hd : g.destroy with
  | false => exact ⟨n, by simp, by rw [if_neg Bool.false_ne_true, ← hcreated, ← hparent]⟩
  | true => exact ⟨Life.start, by simp [hw, hcreated, Life.start], rfl⟩

theorem observe_onSize (hc : l.created = true) (q : Size) : observe Life.step l (w.onSize g q).2 = some l := by
  unfold Wrapper.onSize
  dsimp only
  split <;> simp [hc]

/-- A size change on an open window is accepted and leaves the GUI as it is. -/
theorem Agrees.resized (h : Agrees s l) (hw : s.wrapper = some w) {e : Editor} (he : s.editor = some e)
    (width height : BitVec 32) :
    observe Life.step l (s.resized g w e width height).2 = some l ∧ Agrees (s.resized g w e width height).1 l := by
  have hopen : l.created = true := h.editor (by rw [he]; rfl)
  refine ⟨observe_onSize (w := w) hopen _, nofun, fun v hv => ?_, ?_, fun _ => hopen, ?_⟩
  · cases hv
    exact h.created w hw
  · rw [h.parent, he]
    rfl
  · rintro f hf
    cases hf
    exact h.fresh e he

/-- The wrapper is gone, or it and its GUI agree. -/
def Matches (s : Editing) (l : Life) : Prop := s.gone ∨ Agrees s l

private theorem step_of_gone {act : Act} (h : s.gone) : s.step g act = none := by
  cases act <;> simp [step, h]

/-- What a step can be. -/
inductive Stepped (g : Ext) (s : Editing) : Act → Editing → List Call → Prop
  | quiet (act : Act) : Permits g s act → Stepped g s act s []
  | acquire (create : Bool) (size : Option Size) : s.wrapper = none → Stepped g s (.acquire create size)
      { s with wrapper := some (Wrapper.make g create size).1 } (Wrapper.make g create size).2
  | attach (w : Wrapper) (a : AttachAnswers) : s.wrapper = some w → s.editor = none →
      Stepped g s (.attach a) (s.attach g w a).2.1 (s.attach g w a).2.2
  | resized (act : Act) (w : Wrapper) (e : Editor) (width height : BitVec 32) : s.wrapper = some w →
      s.editor = some e → Permits g s act →
        Stepped g s act (s.resized g w e width height).1 (s.resized g w e width height).2
  | detach (w : Wrapper) (e : Editor) : s.wrapper = some w → s.editor = some e → Stepped g s .detach
      { s with wrapper := some (w.removed g).1, editor := none } ((w.removed g).2 ++ [.destroyWindow e.window])
  | release (w : Wrapper) : s.wrapper = some w →
      Stepped g s .release { s with wrapper := none, gone := true } (w.drop g)

theorem step_cases {act : Act} {calls : List Call} (hs : s.step g act = some (t, calls)) :
    s.gone = false ∧ Stepped g s act t calls := by
  cases hgone : s.gone with
  | true =>
    rw [step_of_gone hgone] at hs
    cases hs
  | false =>
    have hgone' : ¬ s.gone := by simp [hgone]
    refine ⟨rfl, ?_⟩
    cases act with
    | acquire create size =>
      simp only [step, if_neg hgone'] at hs
      split at hs <;> cases hs
      · exact .quiet _ trivial
      · exact .acquire create size ‹_›
    | attach a =>
      simp only [step, if_neg hgone'] at hs
      split at hs
      · cases hs
      · rename_i e hw he
        cases hs
        exact .quiet _ fun _ _ hnone => nomatch he.symm.trans hnone
      · rename_i w hw he
        obtain ⟨rfl, rfl⟩ := Prod.ext_iff.mp (Option.some.inj hs)
        exact .attach w a hw he
    | configure width height =>
      simp only [step, if_neg hgone'] at hs
      split at hs
      · split at hs <;> cases hs
        · exact .resized _ _ _ width height ‹_› ‹_› trivial
        · exact .quiet _ trivial
      · cases hs
    | resizeView width height =>
      simp only [step, if_neg hgone'] at hs
      split at hs
      · split at hs <;> cases hs
        · exact .resized _ _ _ width height ‹_› ‹_› trivial
        · exact .quiet _ trivial
      · cases hs
    | detach =>
      simp only [step, if_neg hgone'] at hs
      split at hs <;> cases hs
      exact .detach _ _ ‹_› ‹_›
    | release =>
      simp only [step, if_neg hgone'] at hs
      split at hs <;> cases hs
      exact .release _ ‹_›

/-- `Detach` is accepted just when the plugin has a `destroy`. -/
private theorem observe_detach (h : Agrees s l) (hw : s.wrapper = some w) {e : Editor} (he : s.editor = some e) :
    observe Life.step l ((w.removed g).2 ++ [.destroyWindow e.window]) =
      if g.destroy then some Life.start else none := by
  obtain ⟨hc, hs, -⟩ := h.created w hw
  have hcreated := h.editor (by rw [he]; rfl)
  obtain ⟨n, hn, hleft⟩ := observe_destroy (g := g) hcreated hs (hc.symm.trans hcreated)
  have hparent : l.parent = some e.window := by rw [h.parent, he]; rfl
  rw [Wrapper.removed, observe_append_of hn, hleft]
  cases g.destroy <;> simp [Life.start, hparent]

/-- `ReleaseEditorView` is accepted just when a GUI still there can be destroyed. -/
theorem observe_drop (h : Agrees s l) (hw : s.wrapper = some w) :
    (∃ n, observe Life.step l (w.drop g) = some n) ↔ (w.created → g.destroy) := by
  obtain ⟨hc, hs, -⟩ := h.created w hw
  unfold Wrapper.drop
  by_cases hcreated : w.created
  · obtain ⟨n, hn, hleft⟩ := observe_destroy (g := g) (hc.trans hcreated) hs hcreated
    simp only [hcreated, Bool.true_and] at hn
    rw [if_pos hcreated, observe_append_of hn, hleft]
    cases g.destroy <;> simp [Life.start, hcreated]
  · simp [hcreated, hc]

theorem keep {act : Act} {calls : List Call} (h : Matches s l) (hok : Permits g s act)
    (hs : s.step g act = some (t, calls)) : ∃ n, observe Life.step l calls = some n ∧ Matches t n := by
  obtain ⟨hgone, hstepped⟩ := step_cases hs
  have h : Agrees s l := h.resolve_left (by simp [hgone])
  cases hstepped with
  | quiet => exact ⟨l, rfl, .inr h⟩
  | acquire create size hw =>
    obtain ⟨rfl, he⟩ := h.absent hw
    obtain ⟨n, hn, hcreated, hshown, hparent, hw'⟩ := observe_make (g := g) create size
    refine ⟨n, hn, .inr ⟨nofun, fun v hv => ?_, ?_, fun hsome => ?_, h.fresh⟩⟩
    · cases hv
      exact ⟨hcreated, hshown.trans hw'.symm, fun hv => absurd hv (by simp [hw'])⟩
    · rw [hparent, he]
      rfl
    · exact absurd hsome (by simp [he])
  | attach w a hw he =>
    obtain ⟨n, hn, hagrees⟩ := (attach_iff h hw he a).1 (hok w hw he)
    exact ⟨n, hn, .inr hagrees⟩
  | resized _ w e width height hw he =>
    obtain ⟨hcalls, hagrees⟩ := h.resized hw he width height
    exact ⟨l, hcalls, .inr hagrees⟩
  | detach w e hw he =>
    refine ⟨Life.start, (observe_detach h hw he).trans (if_pos (hok (by rw [he]; rfl))), .inr ?_⟩
    refine ⟨fun _ => ⟨rfl, rfl⟩, fun v hv => ?_, rfl, nofun, nofun⟩
    cases hv
    exact ⟨rfl, rfl, nofun⟩
  | release w hw =>
    obtain ⟨n, hn⟩ := (observe_drop h hw).mpr (hok w hw)
    exact ⟨n, hn, .inl rfl⟩

theorem breaks {act : Act} {calls : List Call} {n : Life} (h : Matches s l)
    (hs : s.step g act = some (t, calls)) (hn : observe Life.step l calls = some n) : Permits g s act := by
  obtain ⟨hgone, hstepped⟩ := step_cases hs
  have h : Agrees s l := h.resolve_left (by simp [hgone])
  cases hstepped with
  | quiet _ hok => exact hok
  | acquire => exact trivial
  | attach w a hw he =>
    intro v hv _
    cases hw.symm.trans hv
    exact (attach_iff h hw he a).2 n hn
  | resized _ w e width height hw he hok => exact hok
  | detach w e hw he =>
    rw [observe_detach h hw he] at hn
    exact fun _ => (Option.ite_none_right_eq_some.mp hn).1
  | release w hw =>
    intro v hv
    cases hw.symm.trans hv
    exact (observe_drop h hw).mp ⟨n, hn⟩

private theorem matches_initial : Matches initial Life.start :=
  .inr ⟨fun _ => ⟨rfl, rfl⟩, nofun, rfl, nofun, nofun⟩

/-- A run's calls keep the rule exactly when no step of it meets one of the three conditions that
the flags do not guard against. -/
theorem lawful_iff {acts : List Act} {p : Editing × List Call}
    (he : exec (recorded (step g)) (initial, []) acts = some p) :
    Always (recorded (step g)) Lawful (initial, []) acts ↔
      Meets (recorded (step g)) (fun q act => Permits g q.1 act) (initial, []) acts :=
  accepts_iff_meets Matches keep breaks matches_initial he

/-- Open, resize, close, release. -/
theorem lawful_open_close :
    Always (recorded (step ⟨true, true, true, true, true, true, true, true, true⟩)) Lawful (initial, [])
      [.acquire true (some ⟨640, 480⟩), .attach ⟨true, true, none, true, true, true, true, true, none⟩,
        .configure 800 600, .detach, .release] := by
  have hrun : (exec (recorded (step ⟨true, true, true, true, true, true, true, true, true⟩)) (initial, [])
      [.acquire true (some ⟨640, 480⟩), .attach ⟨true, true, none, true, true, true, true, true, none⟩,
        .configure 800 600, .detach, .release]).isSome := by decide +kernel
  obtain ⟨p, hp⟩ := Option.isSome_iff_exists.mp hrun
  exact (lawful_iff hp).mpr (meets_of_checks (by decide +kernel))

/-- The plugin accepts the parent and refuses to show: the window goes with the GUI still in it. -/
theorem lawful_fails :
    ¬ Always (recorded (step ⟨true, true, true, true, true, true, true, true, true⟩)) Lawful (initial, [])
      [.acquire true (some ⟨640, 480⟩), .attach ⟨true, true, none, true, true, true, true, false, none⟩] := by
  intro h
  obtain ⟨p, hp, hcalls⟩ := Option.map_eq_some_iff.mp (show
    (exec (recorded (step ⟨true, true, true, true, true, true, true, true, true⟩)) (initial, [])
      [.acquire true (some ⟨640, 480⟩), .attach ⟨true, true, none, true, true, true, true, false, none⟩]).map
        Prod.snd = some [.create true, .getSize, .isApiSupported, .canResize, .isApiSupported,
          .setParent 1 true, .showGui false, .destroyWindow 1] by decide +kernel)
  obtain ⟨n, hn⟩ := h.end hp
  rw [hcalls] at hn
  cases hn

end Editing
end Plughost.Clap.GuiLifecycle
