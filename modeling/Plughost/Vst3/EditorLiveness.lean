import Mathlib.Data.Fintype.Basic
import Plughost.Vst3.EditorProtocol

/-! Which editor objects the two threads still count on, and what `ReleaseEditorView`
and the unloads may therefore let go. -/
namespace Plughost.Vst3.Editor
open Plughost.Runs

def EditorWindow.uses (w : EditorWindow) (o : Nat) : Prop := w.view = some o ∨ w.idlePump = some o

def Request.carries (r : Request) (o : Nat) : Prop := r.view = some o ∨ r.idlePump = some o

/-- What `SlotShowEditor` has acquired and not yet handed over. -/
def Control.holds : Control → List Nat
  | .showPump _ v => [v]
  | .showEnqueue _ v p => v :: p.toList
  | _ => []

namespace Sidecar
variable {s t : Sidecar}

/-- The show and hide requests whose objects the GUI thread is yet to look at. -/
def unmade (s : Sidecar) : List Request := s.gui.attaching.toList ++ (s.batch ++ s.queue)

/-- A window shows the object, a request on its way carries it, or `SlotShowEditor` holds it. -/
def InUse (s : Sidecar) (o : Nat) : Prop :=
  (∃ i, ∃ w ∈ s.windows i, w.uses o) ∨ (∃ r ∈ s.unmade, r.carries o) ∨ o ∈ s.control.holds

/-- The view or pump the GUI thread is inside a call of. -/
def calls (s : Sidecar) : Option Nat :=
  match s.gui with
  | .attach r => r.view
  | .detach i _ | .onSize i => (s.windows i).bind (·.view)
  | .idleCall i => (s.windows i).bind (·.idlePump)
  | _ => none

/-- What the GUI thread calls into has been neither released nor unloaded. -/
def Live (s : Sidecar) : Prop := ∀ o ∈ s.calls, s.released o = false

/-- The object that a step lets go. -/
def releases (s : Sidecar) : Act → Option Nat
  | .control _ => match s.control with
    | .showRelease i _ | .hideRelease i _ | .chain i _ => s.editorView i
    | _ => none
  | .gui => match s.gui with
    | .callbackRelease i => s.editorView i
    | _ => none
  | _ => none

/-- The condition on a step: it lets go only what nobody counts on. -/
def Unused (s : Sidecar) (a : Act) : Prop := ∀ o ∈ s.releases a, ¬ s.InUse o

instance (w : EditorWindow) (o : Nat) : Decidable (w.uses o) := inferInstanceAs (Decidable (_ ∨ _))
instance (r : Request) (o : Nat) : Decidable (r.carries o) := inferInstanceAs (Decidable (_ ∨ _))
instance (s : Sidecar) (o : Nat) : Decidable (s.InUse o) := inferInstanceAs (Decidable (_ ∨ _ ∨ _))
instance (s : Sidecar) (a : Act) : Decidable (s.Unused a) :=
  inferInstanceAs (Decidable (∀ o ∈ s.releases a, ¬ s.InUse o))

/-- The invariant: what is counted on, or kept by the chain, has not been let go, and
no two slots keep the same object. -/
structure Owned (s : Sidecar) : Prop where
  used : ∀ o, s.InUse o → s.released o = false
  kept : ∀ i o, s.editorView i = some o → s.released o = false ∧ o < s.nextObject
  distinct : ∀ i j o, s.editorView i = some o → s.editorView j = some o → i = j
  fresh : ∀ o, s.nextObject ≤ o → s.released o = false

/-- The GUI thread calls only into what it counts on. -/
private theorem inUse_of_calls {o : Nat} (h : o ∈ s.calls) : s.InUse o := by
  unfold calls at h
  split at h
  · rename_i r hg
    refine .inr (.inl ⟨r, ?_, .inl h⟩)
    rw [unmade, hg]
    exact List.mem_cons_self
  · obtain ⟨w, hw, hv⟩ := Option.bind_eq_some_iff.mp h
    exact .inl ⟨_, w, hw, .inl hv⟩
  · obtain ⟨w, hw, hv⟩ := Option.bind_eq_some_iff.mp h
    exact .inl ⟨_, w, hw, .inl hv⟩
  · obtain ⟨w, hw, hp⟩ := Option.bind_eq_some_iff.mp h
    exact .inl ⟨_, w, hw, .inr hp⟩
  · cases h

namespace Owned

theorem initial : Owned Sidecar.initial where
  used o h := by rfl
  kept i o h := by cases h
  distinct i j o h := by cases h
  fresh o _ := rfl

theorem live (h : Owned s) : s.Live := fun o ho => h.used o (inUse_of_calls ho)

/-- A step that leaves the objects alone and counts on nothing that was let go. -/
private theorem transfer (h : Owned s) (hview : t.editorView = s.editorView) (hnext : t.nextObject = s.nextObject)
    (hrel : t.released = s.released) (huse : ∀ o, t.InUse o → s.InUse o ∨ s.released o = false) : Owned t where
  used o ho := by
    rw [hrel]
    exact (huse o ho).elim (h.used o) id
  kept i o ho := by
    rw [hview] at ho
    rw [hrel, hnext]
    exact h.kept i o ho
  distinct i j o hi hj := by
    rw [hview] at hi hj
    exact h.distinct i j o hi hj
  fresh o ho := by
    rw [hnext] at ho
    rw [hrel]
    exact h.fresh o ho

/-- The control thread moves on, with nothing in hand but what is still there. -/
private theorem withControl (h : Owned s) {c : Control}
    (hc : ∀ o ∈ c.holds, s.released o = false) : Owned { s with control := c } := by
  refine h.transfer rfl rfl rfl ?_
  rintro o (hw | hr | ho)
  · exact .inl (.inl hw)
  · exact .inl (.inr (.inl hr))
  · exact .inr (hc o ho)

/-- The GUI thread moves on, with no request's window in the making. -/
theorem withGui (h : Owned s) {g : Gui} (hg : g.attaching = none) : Owned { s with gui := g } := by
  refine h.transfer rfl rfl rfl ?_
  rintro o (hw | ⟨r, hr, hro⟩ | ho)
  · exact .inl (.inl hw)
  · refine .inl (.inr (.inl ⟨r, ?_, hro⟩))
    simp only [unmade, hg, Option.toList_none, List.nil_append] at hr
    exact List.mem_append_right _ hr
  · exact .inl (.inr (.inr ho))

private theorem withWire (h : Owned s) (f : Frame) : Owned (s.send f) :=
  h.transfer rfl rfl rfl fun _ ho => .inl ho

theorem release (h : Owned s) {i : Slot} (hi : ∀ o ∈ s.editorView i, ¬ s.InUse o) :
    Owned (s.releaseEditorView i) := by
  have hkept : ∀ j o, (s.releaseEditorView i).editorView j = some o → s.editorView j = some o ∧ j ≠ i := by
    intro j o ho
    by_cases hj : j = i
    · subst hj
      simp only [releaseEditorView, Function.update_self] at ho
      cases ho
    · simp only [releaseEditorView, Function.update_of_ne hj] at ho
      exact ⟨ho, hj⟩
  have hrel : ∀ o, s.released o = false → s.editorView i ≠ some o →
      (s.releaseEditorView i).released o = false := by
    intro o ho hne
    simp [releaseEditorView, ho, hne]
  refine ⟨fun o ho => hrel o (h.used o ho) fun hio => hi o hio ho, fun j o ho => ?_, fun j k o hj hk => ?_,
    fun o ho => hrel o (h.fresh o ho) fun hio => ?_⟩
  · obtain ⟨hjo, hji⟩ := hkept j o ho
    exact ⟨hrel o (h.kept j o hjo).1 fun hio => hji (h.distinct j i o hjo hio), (h.kept j o hjo).2⟩
  · exact h.distinct j k o (hkept j o hj).1 (hkept k o hk).1
  · exact absurd (h.kept i o hio).2 (Nat.not_lt.mpr ho)

theorem unload (h : Owned s) {i : Slot} (hi : ∀ o ∈ s.editorView i, ¬ s.InUse o) : Owned (s.unloadSlot i) :=
  (h.release hi).transfer rfl rfl rfl fun _ ho => .inl ho

theorem load (h : Owned s) {i : Slot} {f : SlotFormat} {ok : Bool}
    (hi : ∀ o ∈ s.editorView i, ¬ s.InUse o) : Owned (s.loadSlot i f ok) := by
  unfold loadSlot
  split
  · exact (h.unload hi).transfer rfl rfl rfl fun _ ho => .inl ho
  · exact h.unload hi

/-- An acquired object is not one that was let go; making it disturbs no other. -/
theorem acquire (h : Owned s) (i : Slot) (ok : Bool) :
    Owned (s.acquireEditorView i ok).1 ∧ (s.acquireEditorView i ok).1.released = s.released ∧
      ∀ o ∈ (s.acquireEditorView i ok).2, s.released o = false := by
  unfold acquireEditorView
  split
  · cases hv : s.editorView i with
    | some o =>
      refine ⟨h, rfl, fun o' ho' => ?_⟩
      cases ho'
      exact (h.kept i o hv).1
    | none =>
      cases ok with
      | false => exact ⟨h, rfl, nofun⟩
      | true =>
        simp only [if_true]
        have hcases : ∀ j o, Function.update s.editorView i (some s.nextObject) j = some o →
            j = i ∧ o = s.nextObject ∨ j ≠ i ∧ s.editorView j = some o := by
          intro j o ho
          by_cases hj : j = i
          · subst hj
            rw [Function.update_self] at ho
            exact .inl ⟨rfl, (Option.some.inj ho).symm⟩
          · rw [Function.update_of_ne hj] at ho
            exact .inr ⟨hj, ho⟩
        refine ⟨⟨fun o ho => h.used o ho, fun j o ho => ?_, fun j k o hj hk => ?_, fun o ho => ?_⟩, trivial, ?_⟩
        · rcases hcases j o ho with ⟨-, rfl⟩ | ⟨-, hjo⟩
          · exact ⟨h.fresh _ le_rfl, Nat.lt_succ_self _⟩
          · exact ⟨(h.kept j o hjo).1, Nat.lt_succ_of_lt (h.kept j o hjo).2⟩
        · rcases hcases j o hj with ⟨rfl, rfl⟩ | ⟨-, hjo⟩ <;>
            rcases hcases k _ hk with ⟨rfl, heq⟩ | ⟨-, hko⟩
          · rfl
          · exact absurd (h.kept k _ hko).2 (Nat.lt_irrefl _)
          · exact absurd (h.kept j o hjo).2 (by omega)
          · exact h.distinct j k o hjo hko
        · exact h.fresh o (Nat.le_of_succ_le ho)
        · intro o ho
          cases ho
          exact h.fresh _ le_rfl
  · exact ⟨h, rfl, nofun⟩

private theorem acquirePump (h : Owned s) (i : Slot) (ok : Bool) :
    Owned (s.acquireEditorIdlePump i ok).1 ∧ (s.acquireEditorIdlePump i ok).1.released = s.released ∧
      ∀ o ∈ (s.acquireEditorIdlePump i ok).2, s.released o = false := by
  unfold acquireEditorIdlePump
  split
  · exact h.acquire i ok
  · exact h.acquire i ok
  · exact ⟨h, rfl, nofun⟩
  · exact ⟨h, rfl, nofun⟩

/-- A request goes into the queue with objects that its caller has in hand. -/
theorem enqueue (h : Owned s) {q : Request} {c : Control} (hq : ∀ o, q.carries o → o ∈ s.control.holds)
    (hc : c.holds = []) : Owned (s.enqueue q c) := by
  refine h.transfer rfl rfl rfl ?_
  rintro o (hw | ⟨r, hr, hro⟩ | ho)
  · exact .inl (.inl hw)
  · have hmem : r ∈ s.unmade ∨ r = q := by
      simpa [unmade, Sidecar.enqueue, or_assoc] using hr
    rcases hmem with hmem | rfl
    · exact .inl (.inr (.inl ⟨r, hmem, hro⟩))
    · exact .inl (.inr (.inr (hq o hro)))
  · simp only [Sidecar.enqueue, hc, List.not_mem_nil] at ho

theorem receive (h : Owned s) (f : HostRequest) : Owned (s.receive f) := by
  unfold Sidecar.receive
  split
  case h_5 | h_6 => exact h.withWire _
  all_goals split
  all_goals first | exact h | exact h.withWire _ | exact h.withControl nofun

private theorem holds_missed (i : Slot) (why : Why) : (why.missed i).holds = [] := by cases why <;> rfl

private theorem holds_reported (i : Slot) (why : Why) : (why.reported i).holds = [] := by cases why <;> rfl

theorem hideReturns (h : Owned s) (q : Request) (why : Why) : Owned (s.hideReturns q why) := by
  refine h.withControl ?_
  split
  · nofun
  · rw [holds_missed]
    nofun

theorem controlStep (h : Owned s) {ok : Bool} (hok : s.Unused (.control ok))
    (hs : s.controlStep ok = some t) : Owned t := by
  unfold Sidecar.controlStep at hs
  cases hc : s.control <;> rw [hc] at hs <;> dsimp only at hs
  case idle => cases hs
  case showLoaded i =>
    cases hs
    exact h.withControl (by split <;> nofun)
  case showStart i =>
    split at hs <;> cases hs
    · exact (h.transfer (t := { s with running := true }) rfl rfl rfl fun _ ho => .inl ho).withControl nofun
    · exact h.withControl nofun
  case showAcquire i =>
    obtain ⟨h', hrel, hv⟩ := h.acquire i ok
    split at hs <;> rename_i heq <;> rw [heq] at h' hrel hv <;> cases hs
    · refine h'.withControl fun o ho => ?_
      rw [hrel]
      exact hv o (by simpa [Control.holds, eq_comm] using ho)
    · exact h'.withControl nofun
  case showPump i v =>
    obtain ⟨h', hrel, hp⟩ := h.acquirePump i ok
    cases hs
    refine h'.withControl fun o ho => ?_
    rw [hrel]
    rcases List.mem_cons.mp ho with rfl | ho
    · exact h.used o (.inr (.inr (by rw [hc]; exact List.mem_singleton_self o)))
    · exact hp o (Option.mem_toList.mp ho)
  case showEnqueue i v p =>
    split at hs <;> cases hs
    · refine h.enqueue (fun o ho => ?_) rfl
      rw [hc]
      rcases ho with ho | ho <;> simp only [newRequest] at ho
      · cases ho
        exact List.mem_cons_self
      · exact List.mem_cons_of_mem _ (Option.mem_toList.mpr ho)
    · exact h.withControl nofun
  case showWait q =>
    split at hs <;> cases hs
    exact h.withControl (by split <;> nofun)
  case showRelease i st =>
    cases hs
    exact (h.release (by simpa only [Unused, releases, hc] using hok)).withControl nofun
  case showSend i st =>
    cases hs
    exact (h.withWire _).withControl nofun
  case hideRunning i why =>
    cases hs
    refine h.withControl ?_
    split
    · nofun
    · rw [holds_missed]
      nofun
  case hideEnqueue i why =>
    cases hs
    refine h.enqueue (fun o ho => ?_) rfl
    rcases ho with ho | ho <;> cases ho
  case hideWait q why =>
    split at hs <;> cases hs
    exact h.hideReturns q why
  case hideRelease i why =>
    cases hs
    exact (h.release (by simpa only [Unused, releases, hc] using hok)).withControl nofun
  case hideSend i why =>
    cases hs
    refine (h.withWire _).withControl ?_
    rw [holds_reported]
    nofun
  case hideMissed i =>
    cases hs
    exact (h.withWire _).withControl nofun
  case chain i why =>
    have hi : ∀ o ∈ s.editorView i, ¬ s.InUse o := by simpa only [Unused, releases, hc] using hok
    cases why <;> cases hs
    · exact (h.unload hi).withControl nofun
    · exact (h.load hi).withControl nofun
    · exact (h.unload hi).withControl nofun

theorem timeoutStep (h : Owned s) (hs : s.timeoutStep = some t) : Owned t := by
  unfold Sidecar.timeoutStep at hs
  split at hs
  · split at hs <;> cases hs
    exact h.withControl nofun
  · split at hs <;> cases hs
    exact h.hideReturns _ _
  · cases hs

private theorem attaching_handleRequest {r r' : Request} (h : r' ∈ (s.handleRequest r).attaching) : r' = r := by
  unfold handleRequest at h
  split at h <;> split at h <;> try cases h
  split at h <;> cases h
  rfl

private theorem attaching_idleLoop (n : Nat) : (s.idleLoop n).attaching = none := by
  unfold idleLoop
  split
  · split <;> rfl
  · rfl

/-- `DrainRequests` takes the queue, or the next request of the batch. -/
theorem drain (h : Owned s) {batch queue : List Request} {g : Gui}
    (hmem : ∀ r, r ∈ g.attaching ∨ r ∈ batch ∨ r ∈ queue → r ∈ s.batch ++ s.queue) :
    Owned { s with batch, queue, gui := g } := by
  refine h.transfer rfl rfl rfl ?_
  rintro o (hw | ⟨r, hr, hro⟩ | ho)
  · exact .inl (.inl hw)
  · refine .inl (.inr (.inl ⟨r, List.mem_append_right _ (hmem r ?_), hro⟩))
    simpa [unmade] using hr
  · exact .inl (.inr (.inr ho))

theorem guiStep (h : Owned s) (hok : s.Unused .gui) (hs : s.guiStep = some t) : Owned t := by
  unfold Sidecar.guiStep at hs
  cases hg : s.gui <;> rw [hg] at hs <;> dsimp only at hs
  case attach => cases hs
  case top =>
    cases hs
    exact h.drain fun r hr => by simpa [Gui.attaching] using Or.inr hr
  case drain =>
    split at hs <;> rename_i hb <;> cases hs
    · exact h.withGui rfl
    · rename_i r rest
      refine h.drain fun r' hr' => ?_
      rw [hb]
      rcases hr' with hr' | hr' | hr'
      · rw [attaching_handleRequest hr']
        exact List.mem_append_left _ List.mem_cons_self
      · exact List.mem_append_left _ (List.mem_cons_of_mem r hr')
      · exact List.mem_append_right _ hr'
  case detach i r =>
    cases hs
    have hclosed : Owned { s with windows := Function.update s.windows i none } := by
      refine h.transfer rfl rfl rfl ?_
      rintro o (⟨j, w, hw, hwo⟩ | hr | ho)
      · by_cases hj : j = i
        · subst hj
          simp at hw
        · simp only [Function.update_of_ne hj] at hw
          exact .inl (.inl ⟨j, w, hw, hwo⟩)
      · exact .inl (.inr (.inl hr))
      · exact .inl (.inr (.inr ho))
    exact hclosed.withGui (by cases r <;> rfl)
  case writeShow r st opened =>
    cases hs
    exact (h.transfer (t := { s with showReply := Function.update s.showReply r.id st }) rfl rfl rfl
      fun _ ho => .inl ho).withGui rfl
  case writeHide r wasOpen =>
    cases hs
    exact (h.transfer (t := { s with hideReply := Function.update s.hideReply r.id wasOpen }) rfl rfl rfl
      fun _ ho => .inl ho).withGui rfl
  case setReady r opened =>
    cases hs
    exact (h.transfer (t := { s with replyReady := Function.update s.replyReady r.id true }) rfl rfl rfl
      fun _ ho => .inl ho).withGui rfl
  case sendResized i | callbackSend i =>
    cases hs
    exact (h.withWire _).withGui rfl
  case callbackRelease i =>
    cases hs
    exact (h.release (by simpa only [Unused, releases, hg] using hok)).withGui rfl
  case tick n =>
    cases hs
    exact h.withGui (attaching_idleLoop n)
  all_goals
    cases hs
    exact h.withGui rfl

/-- A window takes over what its request carried. -/
theorem attachStep (h : Owned s) {out : Attached} (hs : s.attachStep out = some t) : Owned t := by
  unfold Sidecar.attachStep at hs
  cases hg : s.gui <;> rw [hg] at hs <;> dsimp only at hs <;> try cases hs
  rename_i r
  split at hs <;> cases hs
  · refine h.transfer rfl rfl rfl ?_
    rintro o (⟨j, w, hw, hwo⟩ | ⟨r', hr', hro⟩ | ho)
    · by_cases hj : j = r.slotIdx
      · subst hj
        simp only [Function.update_self, Option.mem_def, Option.some.injEq] at hw
        subst hw
        refine .inl (.inr (.inl ⟨r, ?_, hwo⟩))
        rw [unmade, hg]
        exact List.mem_cons_self
      · simp only [Function.update_of_ne hj] at hw
        exact .inl (.inl ⟨j, w, hw, hwo⟩)
    · refine .inl (.inr (.inl ⟨r', ?_, hro⟩))
      exact List.mem_append_right _ (by simpa [unmade, Gui.attaching] using hr')
    · exact .inl (.inr (.inr ho))
  · exact h.withGui rfl

theorem xEventStep (h : Owned s) {e : XEvent} (hs : s.xEventStep e = some t) : Owned t := by
  unfold Sidecar.xEventStep at hs
  split at hs
  · cases e <;> cases hs
    · exact h.withGui (by split <;> rfl)
    · exact h.withGui (by split <;> [rfl; (split <;> rfl)])
  · cases hs

theorem keep {a : Act} (h : Owned s) (hok : s.Unused a) (hs : s.step a = some t) : Owned t := by
  have hstep := step_cases hs
  cases a with
  | request f =>
    obtain ⟨-, rfl⟩ := hstep
    exact h.receive f
  | control ok => exact h.controlStep hok hstep
  | timeout => exact h.timeoutStep hstep
  | gui => exact h.guiStep hok hstep
  | attach out => exact h.attachStep hstep
  | xEvent e => exact h.xEventStep hstep

end Owned

/-- In every run that lets go only of editor objects nobody counts on, the GUI thread
never calls into one that has been released or unloaded. -/
theorem live_while_unused (as : List Act) (hm : Meets step Unused initial as) : Always step Live initial as :=
  always_of_meets Owned (fun hi hok hs => hi.keep hok hs) Owned.live Owned.initial hm

/-- The request is still queued when its second is over: the view is released, and
then attached. -/
theorem released_while_queued :
    ∃ as t, exec step initial as = some t ∧ t.calls = some 0 ∧ t.released 0 = true ∧
      ¬ Always step Live initial as := by
  let as : List Act := showFirst ++ [.timeout, .control true, .gui, .gui]
  obtain ⟨t, ht, hview⟩ := Option.map_eq_some_iff.mp
    (show (exec step initial as).map (fun t => (t.calls, t.released 0)) = some (some 0, true) by decide)
  obtain ⟨hcalls, hrel⟩ := Prod.mk.inj hview
  refine ⟨as, t, ht, hcalls, hrel, fun hlive => ?_⟩
  have := hlive.end ht 0 hcalls
  rw [hrel] at this
  cases this

/-- The session lets two objects go, each when nobody counts on it any more. -/
theorem live_while_unused_in_session :
    ∃ t, exec step initial session = some t ∧ t.released 0 = true ∧ t.released 1 = true ∧
      Always step Live initial session := by
  obtain ⟨t, ht, hview⟩ := Option.map_eq_some_iff.mp
    (show (exec step initial session).map (fun t => (t.released 0, t.released 1)) = some (true, true) by decide)
  obtain ⟨h0, h1⟩ := Prod.mk.inj hview
  exact ⟨t, ht, h0, h1, live_while_unused session (meets_of_checks (by decide))⟩

end Sidecar
end Plughost.Vst3.Editor
