import Plughost.Vst3.EditorReplies

/-! What the host believes about each editor from the frames it is sent, in the order
the two threads send them, against the windows there are. -/
namespace Plughost.Vst3.Editor
open Plughost.Runs

/-- What the host believes of the editor of a slot, after one more frame. -/
def hear (slot : BitVec 8) (open_ : Bool) : Frame → Bool
  | .showEditorResult s st => if s = slot ∧ st = 0 then true else open_
  | .hideEditorResult s st => if s = slot ∧ st = 0 then false else open_
  | .editorClosed s => if s = slot then false else open_
  | .editorResized _ => open_

private theorem slotByte_inj {i j : Slot} (h : slotByte i = slotByte j) : i = j := by
  have hi := i.isLt
  have hj := j.isLt
  have := congrArg BitVec.toNat h
  simp only [slotByte, BitVec.toNat_ofNat, kMaxSlots] at this hi hj
  apply Fin.ext
  omega

/-- The slot whose editor is about to be reported closed. -/
def Control.closes : Control → Option Slot
  | .hideRelease i _ | .hideSend i _ => some i
  | _ => none

/-- The control thread owes the host nothing, and waits for nothing. -/
def Control.silent : Control → Bool
  | .showWait _ | .hideWait _ _ | .hideRelease _ _ | .hideSend _ _ => false
  | .showSend _ st | .showRelease _ st => st ≠ 0
  | _ => true

namespace Sidecar
variable {s t : Sidecar}

def believes (s : Sidecar) (i : Slot) : Bool := s.wire.foldl (hear (slotByte i)) false

/-- No request queued or being answered, no callback running, all frames sent. -/
def Quiescent (s : Sidecar) : Prop :=
  s.control = .idle ∧ s.queue = [] ∧ s.batch = [] ∧ s.gui.busy = none ∧ s.gui.callback = none

/-- When all is quiet, the host believes open what is open. -/
def Agree (s : Sidecar) : Prop := s.Quiescent → ∀ i, s.believes i = (s.windows i).isSome

/-- A show has been answered with status 0, or its window made, and not yet reported. -/
def OwesOpen (s : Sidecar) (i : Slot) : Prop :=
  s.control = .showSend i 0 ∨ ∃ q ∈ s.control.showing, q.slotIdx = i ∧
    (s.replyReady q.id = true ∧ s.showReply q.id = 0 ∨ s.gui.opened = some q)

/-- A request has closed the window, and its caller is yet to report it. -/
def OwesClosed (s : Sidecar) (i : Slot) : Prop :=
  s.control.closes = some i ∨ ∃ q ∈ s.control.hiding, q.slotIdx = i ∧
    (s.hideReply q.id = true ∨ s.gui.closed = some q)

instance (s : Sidecar) (i : Slot) : Decidable (s.OwesOpen i) := inferInstanceAs (Decidable (_ ∨ _))
instance (s : Sidecar) (i : Slot) : Decidable (s.OwesClosed i) := inferInstanceAs (Decidable (_ ∨ _))

/-- The condition on a step: no wait ends between the change of a window and its reply,
no window changes for a request that nobody waits for, and no `EditorClosed` overtakes
the result of the show it follows. -/
def InTime (s : Sidecar) : Act → Prop
  | .timeout => (∀ q ∈ s.control.showing, s.gui.opened ≠ some q) ∧
      ∀ q ∈ s.control.hiding, s.gui.closed ≠ some q
  | .attach .ok => ∀ r ∈ s.gui.attaching, s.control.showing = some r
  | .gui => (∀ r ∈ s.gui.detaching, s.control.hiding = some r) ∧ ∀ i ∈ s.gui.reporting, ¬ s.OwesOpen i
  | _ => True

instance (s : Sidecar) : (a : Act) → Decidable (s.InTime a)
  | .timeout => inferInstanceAs (Decidable (_ ∧ _))
  | .attach .ok => inferInstanceAs (Decidable (∀ r ∈ s.gui.attaching, s.control.showing = some r))
  | .gui => inferInstanceAs (Decidable (_ ∧ _))
  | .attach .unsupported | .attach .noSize | .attach .noWindow | .attach .refused
  | .request _ | .control _ | .xEvent _ => .isTrue trivial

/-- The window table is as the GUI thread's position says. -/
def GuiFits (s : Sidecar) : Prop :=
  match s.gui with
  | .detach i r => (s.windows i).isSome = true ∧ ∀ q ∈ r, q.slotIdx = i
  | .writeShow r st opened => (opened = true → st = 0) ∧ (st = 0 → (s.windows r.slotIdx).isSome = true)
  | .setReady r opened => (opened = true → s.showReply r.id = 0) ∧
      (s.showReply r.id = 0 → (s.windows r.slotIdx).isSome = true)
  | .callbackRelease i | .callbackSend i => s.windows i = none
  | _ => True

private theorem status_ne_zero {out : Attached} (h : out ≠ .ok) : out.status ≠ 0 := by
  cases out
  case ok => exact absurd rfl h
  all_goals decide

namespace GuiFits
variable {k : Nat}

theorem of_same (h : GuiFits s) (hsame : SameGui s t) : GuiFits t := by
  unfold GuiFits
  rw [hsame.gui, hsame.windows, hsame.showReply]
  exact h

theorem handleRequest {rest : List Request} (r : Request) :
    GuiFits { s with batch := rest, gui := s.handleRequest r } := by
  unfold Sidecar.handleRequest
  split <;> split <;> rename_i hw
  · exact ⟨nofun, fun _ => hw⟩
  · split
    · exact ⟨nofun, fun h => absurd h (by decide)⟩
    · trivial
  · refine ⟨hw, fun q hq => ?_⟩
    cases hq
    rfl
  · trivial

theorem idleLoop (n : Nat) : GuiFits { s with gui := s.idleLoop n } := by
  unfold Sidecar.idleLoop
  split
  · split <;> trivial
  · trivial

theorem guiStep (h : GuiFits s) (hk : Served s k) (hs : s.guiStep = some t) : GuiFits t := by
  unfold Sidecar.guiStep at hs
  unfold GuiFits at h
  cases hg : s.gui <;> rw [hg] at hs h <;> dsimp only at hs h
  case attach => cases hs
  case drain =>
    split at hs <;> cases hs
    · trivial
    · exact handleRequest _
  case detach i r =>
    cases hs
    cases r with
    | none => exact Function.update_self ..
    | some r => trivial
  case writeShow r st opened =>
    cases hs
    simp only [GuiFits, Function.update_self]
    exact h
  case writeHide r wasOpen =>
    cases hs
    refine ⟨nofun, fun hzero => ?_⟩
    rcases hk.unwritten r.id (hk.busy_id (by rw [hg]; rfl)).ge with ⟨r', o, hr, -⟩ | hcell
    · rw [hg] at hr
      cases hr
    · dsimp only at hzero
      rw [hcell.1] at hzero
      exact absurd hzero (by decide)
  case callbackRelease i =>
    cases hs
    exact h
  case tick n =>
    cases hs
    exact idleLoop n
  all_goals
    cases hs
    trivial

theorem attachStep {out : Attached} (hs : s.attachStep out = some t) : GuiFits t := by
  unfold Sidecar.attachStep at hs
  split at hs
  · split at hs <;> cases hs
    · refine ⟨fun _ => rfl, fun _ => ?_⟩
      dsimp only
      rw [Function.update_self]
      rfl
    · rename_i hout
      exact ⟨nofun, fun hst => absurd hst (status_ne_zero hout)⟩
  · cases hs

theorem xEventStep {e : XEvent} (hs : s.xEventStep e = some t) : GuiFits t := by
  unfold Sidecar.xEventStep at hs
  split at hs
  · cases e with
    | close i =>
      cases hs
      by_cases hw : (s.windows i).isSome = true
      · rw [if_pos hw]
        exact ⟨hw, nofun⟩
      · rw [if_neg hw]
        trivial
    | configure i resized =>
      cases hs
      by_cases hw : (s.windows i).isNone = true
      · rw [if_pos hw]
        trivial
      · rw [if_neg hw]
        cases resized <;> trivial
  · cases hs

theorem keep (h : GuiFits s) (hk : Served s k) {a : Act} (hs : s.step a = some t) : GuiFits t := by
  have hstep := step_cases hs
  cases a with
  | request f =>
    obtain ⟨hc, rfl⟩ := hstep
    exact h.of_same (s.receive_moves f hc).1
  | control ok => exact h.of_same (controlStep_moves hstep).1
  | timeout => exact h.of_same (timeoutStep_moves hstep).1
  | gui => exact h.guiStep hk hstep
  | attach out => exact attachStep hstep
  | xEvent e => exact xEventStep hstep

end GuiFits

private theorem believes_send (f : Frame) (i : Slot) : (s.send f).believes i = hear (slotByte i) (s.believes i) f := by
  simp only [believes, send, List.foldl_append, List.foldl_cons, List.foldl_nil]

/-- What the host will believe once everything owed for the slot has been sent. -/
def due (s : Sidecar) (i : Slot) : Bool :=
  if s.gui.callback = some i then false
  else if s.OwesOpen i then true
  else if s.OwesClosed i then false
  else s.believes i

private theorem due_congr {i : Slot} (hcb : t.gui.callback = some i ↔ s.gui.callback = some i)
    (hopen : t.OwesOpen i ↔ s.OwesOpen i)
    (hclosed : t.OwesClosed i ↔ s.OwesClosed i) (hbel : t.believes i = s.believes i) : t.due i = s.due i := by
  simp only [due, hcb, hopen, hclosed, hbel]

private theorem not_owes (h : s.control.silent = true) (i : Slot) : ¬ s.OwesOpen i ∧ ¬ s.OwesClosed i := by
  unfold OwesOpen OwesClosed
  cases hc : s.control <;> rw [hc] at h
  case showWait | hideWait | hideRelease | hideSend => cases h
  case showSend j st =>
    have hst : st ≠ 0 := by simpa [Control.silent] using h
    constructor
    · rintro (heq | ⟨q, hq, -⟩)
      · cases heq
        exact hst rfl
      · cases hq
    · rintro (heq | ⟨q, hq, -⟩)
      · cases heq
      · cases hq
  all_goals
    constructor
    · rintro (heq | ⟨q, hq, -⟩)
      · cases heq
      · cases hq
    · rintro (heq | ⟨q, hq, -⟩)
      · cases heq
      · cases hq

private theorem eq_of_showing {c : Control} {q : Request} (h : c.showing = some q) : c = .showWait q := by
  unfold Control.showing at h
  split at h <;> cases h
  rfl

private theorem eq_of_hiding {c : Control} {q : Request} (h : c.hiding = some q) : ∃ why, c = .hideWait q why := by
  unfold Control.hiding at h
  split at h <;> cases h
  exact ⟨_, rfl⟩

private theorem waits_of_showing {c : Control} {q : Request} (h : c.showing = some q) : c.waits = some q := by
  rw [eq_of_showing h]
  rfl

private theorem waits_of_hiding {c : Control} {q : Request} (h : c.hiding = some q) : c.waits = some q := by
  obtain ⟨why, hc⟩ := eq_of_hiding h
  rw [hc]
  rfl

private theorem owesOpen_congr {i : Slot} (hc : t.control = s.control)
    (h : ∀ q, s.control.showing = some q → q.slotIdx = i →
      (t.replyReady q.id = true ∧ t.showReply q.id = 0 ∨ t.gui.opened = some q ↔
        s.replyReady q.id = true ∧ s.showReply q.id = 0 ∨ s.gui.opened = some q)) :
    t.OwesOpen i ↔ s.OwesOpen i := by
  unfold OwesOpen
  rw [hc]
  exact or_congr_right (exists_congr fun q => and_congr_right fun hq => and_congr_right fun hi => h q hq hi)

private theorem owesClosed_congr {i : Slot} (hc : t.control = s.control)
    (h : ∀ q, s.control.hiding = some q → q.slotIdx = i →
      (t.hideReply q.id = true ∨ t.gui.closed = some q ↔ s.hideReply q.id = true ∨ s.gui.closed = some q)) :
    t.OwesClosed i ↔ s.OwesClosed i := by
  unfold OwesClosed
  rw [hc]
  exact or_congr_right (exists_congr fun q => and_congr_right fun hq => and_congr_right fun hi => h q hq hi)

private theorem owesOpen_showWait {q : Request} (hc : s.control = .showWait q) (i : Slot) :
    s.OwesOpen i ↔ q.slotIdx = i ∧ (s.replyReady q.id = true ∧ s.showReply q.id = 0 ∨ s.gui.opened = some q) := by
  simp [OwesOpen, hc, Control.showing]

private theorem not_owesClosed_showWait {q : Request} (hc : s.control = .showWait q) (i : Slot) : ¬ s.OwesClosed i := by
  simp [OwesClosed, hc, Control.hiding, Control.closes]

private theorem owesClosed_hideWait {q : Request} {why : Why} (hc : s.control = .hideWait q why) (i : Slot) :
    s.OwesClosed i ↔ q.slotIdx = i ∧ (s.hideReply q.id = true ∨ s.gui.closed = some q) := by
  simp [OwesClosed, hc, Control.hiding, Control.closes]

private theorem not_owesOpen_hideWait {q : Request} {why : Why} (hc : s.control = .hideWait q why) (i : Slot) :
    ¬ s.OwesOpen i := by
  simp [OwesOpen, hc, Control.showing]

private theorem owes_closes {i : Slot} (hc : s.control.closes = some i) (j : Slot) :
    ¬ s.OwesOpen j ∧ (s.OwesClosed j ↔ i = j) := by
  cases hpc : s.control <;> rw [hpc] at hc <;> cases hc <;>
    simp [OwesOpen, OwesClosed, hpc, Control.showing, Control.hiding, Control.closes]

private theorem due_of_silent (h : s.control.silent = true) (i : Slot) :
    s.due i = if s.gui.callback = some i then false else s.believes i := by
  rw [due, if_neg (not_owes h i).1, if_neg (not_owes h i).2]

private theorem due_of_callback {i : Slot} (h : s.gui.callback = some i) : s.due i = false := if_pos h

private theorem due_of_owesOpen {i : Slot} (hcb : s.gui.callback ≠ some i) (h : s.OwesOpen i) : s.due i = true := by
  rw [due, if_neg hcb, if_pos h]

private theorem due_of_owesClosed {i : Slot} (hopen : ¬ s.OwesOpen i) (h : s.OwesClosed i) : s.due i = false := by
  rw [due, if_neg hopen, if_pos h, ite_self]

private theorem busy_of_opened {g : Gui} {r : Request} (h : g.opened = some r) : g.busy = some r := by
  unfold Gui.opened at h
  split at h <;> cases h <;> rfl

private theorem busy_of_closed {g : Gui} {r : Request} (h : g.closed = some r) : g.busy = some r := by
  unfold Gui.closed at h
  split at h <;> cases h
  rfl

/-- The books are straight: what the host will believe is what is open. -/
structure Books (s : Sidecar) : Prop where
  failed : ∀ i, s.control ≠ .showRelease i 0
  due : ∀ i, s.due i = (s.windows i).isSome

namespace Books
variable {k : Nat}

theorem initial : Books Sidecar.initial where
  failed i := nofun
  due i := by
    unfold Sidecar.due
    have := not_owes (s := Sidecar.initial) rfl i
    rw [if_neg (by nofun), if_neg this.1, if_neg this.2]
    rfl

/-- The control thread moves, and owes and has told the host the same as before. -/
private theorem sameDue (h : Books s) (hsame : SameGui s t) (hfailed : ∀ i, t.control ≠ .showRelease i 0)
    (howes : ∀ i, (t.OwesOpen i ↔ s.OwesOpen i) ∧ (t.OwesClosed i ↔ s.OwesClosed i))
    (hbel : ∀ i, t.believes i = s.believes i) : Books t where
  failed := hfailed
  due i := by
    rw [due_congr (by rw [hsame.gui]) (howes i).1 (howes i).2 (hbel i), hsame.windows]
    exact h.due i

private theorem failed_of_silent (h : t.control.silent = true) (i : Slot) : t.control ≠ .showRelease i 0 := by
  intro hc
  rw [hc] at h
  cases h

/-- In particular when it owes nothing, neither before nor after. -/
theorem silent (h : Books s) (hsame : SameGui s t) (hs : ∀ i, ¬ s.OwesOpen i ∧ ¬ s.OwesClosed i)
    (ht : t.control.silent = true) (hbel : ∀ i, t.believes i = s.believes i) : Books t := by
  refine h.sameDue hsame (failed_of_silent ht) (fun i => ?_) hbel
  obtain ⟨h1, h2⟩ := hs i
  obtain ⟨h3, h4⟩ := not_owes ht i
  exact ⟨iff_of_false h3 h1, iff_of_false h4 h2⟩

private theorem silent_missed (i : Slot) (why : Why) : (why.missed i).silent = true := by cases why <;> rfl

private theorem silent_reported (i : Slot) (why : Why) : (why.reported i).silent = true := by cases why <;> rfl

/-- A request that is refused at once changes no belief. -/
theorem receive (h : Books s) (f : HostRequest) (hc : s.control = .idle) : Books (s.receive f) := by
  have hs : s.control.silent = true := by rw [hc]; rfl
  have hsame := (s.receive_moves f hc).1
  have ht : (s.receive f).control.silent = true := by
    unfold Sidecar.receive
    split
    case h_5 | h_6 => exact hs
    all_goals split
    all_goals first | exact hs | rfl
  refine h.silent hsame (not_owes hs) ht fun i => ?_
  unfold Sidecar.receive
  split
  case h_5 | h_6 =>
    rw [believes_send]
    exact if_neg fun hst => absurd hst.2 (by decide)
  all_goals split
  all_goals first
    | rfl
    | rw [believes_send]
      exact if_neg fun hst => absurd hst.2 (by decide)

/-- A request just made is not the one being answered, and has not been. -/
private theorem new_request (hk : Served s k) {q : Request} (hid : q.id = s.nextRequest) :
    s.replyReady q.id = false ∧ s.hideReply q.id = false ∧ s.gui.busy ≠ some q := by
  have hbusy : s.gui.busy ≠ some q := fun hb => by
    have := (hk.le_id (Served.mem_busy hb)).2
    omega
  have hle : k ≤ q.id := by rw [hid, hk.next]; exact Nat.le_add_right ..
  refine ⟨by rw [hk.ready]; exact decide_eq_false (Nat.not_lt.mpr hle), ?_, hbusy⟩
  rcases hk.unwritten q.id hle with ⟨r, o, hr, hrid⟩ | hcell
  · have := (hk.le_id (Served.mem_busy (r := r) (by rw [hr]; rfl))).2
    omega
  · exact hcell.2

/-- A show request goes into the queue: nothing is owed for it yet. -/
private theorem enqueueShow (h : Books s) (hk : Served s k) {q : Request} (hid : q.id = s.nextRequest)
    (hs : s.control.silent = true) : Books (s.enqueue q (.showWait q)) := by
  obtain ⟨hready, -, hbusy⟩ := new_request hk hid
  refine h.sameDue ⟨rfl, rfl, rfl, rfl, rfl, rfl⟩ nofun (fun j => ?_) fun _ => rfl
  obtain ⟨h1, h2⟩ := not_owes hs j
  refine ⟨iff_of_false ?_ h1, iff_of_false (not_owesClosed_showWait rfl j) h2⟩
  rw [owesOpen_showWait rfl]
  rintro ⟨-, ⟨hr, -⟩ | hopened⟩
  · exact absurd (hr.symm.trans hready) nofun
  · exact hbusy (busy_of_opened hopened)

/-- Nor for a hide request. -/
private theorem enqueueHide (h : Books s) (hk : Served s k) {q : Request} {why : Why} (hid : q.id = s.nextRequest)
    (hs : s.control.silent = true) : Books (s.enqueue q (.hideWait q why)) := by
  obtain ⟨-, hreply, hbusy⟩ := new_request hk hid
  refine h.sameDue ⟨rfl, rfl, rfl, rfl, rfl, rfl⟩ nofun (fun j => ?_) fun _ => rfl
  obtain ⟨h1, h2⟩ := not_owes hs j
  refine ⟨iff_of_false (not_owesOpen_hideWait rfl j) h1, iff_of_false ?_ h2⟩
  rw [owesClosed_hideWait rfl]
  rintro ⟨-, hr | hclosed⟩
  · exact absurd (hr.symm.trans hreply) nofun
  · exact hbusy (busy_of_closed hclosed)

/-- `RequestShow` returns with a reply: what was owed as an answer is owed as a frame. -/
private theorem showReplied (h : Books s) (hk : Served s k) {q : Request} (hc : s.control = .showWait q)
    (hready : s.replyReady q.id = true) :
    Books { s with control := if s.showReply q.id = 0 then .showSend q.slotIdx 0
      else .showRelease q.slotIdx (s.showReply q.id) } := by
  have hopened : s.gui.opened ≠ some q := fun hop => by
    have := hk.not_ready (Served.mem_busy (busy_of_opened hop))
    rw [hready] at this
    cases this
  by_cases hzero : s.showReply q.id = 0
  · rw [if_pos hzero]
    refine h.sameDue ⟨rfl, rfl, rfl, rfl, rfl, rfl⟩ nofun (fun i => ⟨?_, ?_⟩) fun _ => rfl
    · rw [owesOpen_showWait hc, hready, hzero]
      simp [OwesOpen, Control.showing]
    · simp [OwesClosed, hc, Control.hiding, Control.closes]
  · rw [if_neg hzero]
    refine h.silent ⟨rfl, rfl, rfl, rfl, rfl, rfl⟩ (fun i => ⟨?_, not_owesClosed_showWait hc i⟩)
      (by simpa [Control.silent] using hzero) fun _ => rfl
    rw [owesOpen_showWait hc]
    rintro ⟨-, ⟨-, hz⟩ | hop⟩
    · exact hzero hz
    · exact hopened hop

/-- `RequestHide` returns, not between the close of the window and its reply. -/
theorem hideReturns (h : Books s) {q : Request} {why : Why} (hc : s.control = .hideWait q why)
    (hne : s.gui.closed ≠ some q) : Books (s.hideReturns q why) := by
  have hsame := (s.hideReturns_moves q why).1
  cases hr : s.hideReply q.id with
  | true =>
    have ht : (s.hideReturns q why).control = .hideRelease q.slotIdx why := by simp [Sidecar.hideReturns, hr]
    refine h.sameDue hsame (fun i hfail => by rw [ht] at hfail; cases hfail) (fun i => ?_) fun _ => rfl
    obtain ⟨h1, h2⟩ := owes_closes (s := s.hideReturns q why) (i := q.slotIdx) (by rw [ht]; rfl) i
    refine ⟨iff_of_false h1 (not_owesOpen_hideWait hc i), ?_⟩
    rw [h2, owesClosed_hideWait hc, hr]
    simp
  | false =>
    have ht : (s.hideReturns q why).control = why.missed q.slotIdx := by simp [Sidecar.hideReturns, hr]
    refine h.silent hsame (fun i => ⟨not_owesOpen_hideWait hc i, ?_⟩) (by rw [ht]; exact silent_missed _ _) fun _ => rfl
    rw [owesClosed_hideWait hc, hr]
    rintro ⟨-, hfalse | hclosed⟩
    · cases hfalse
    · exact hne hclosed

/-- The result of a show goes out. -/
theorem showSend (h : Books s) {i : Slot} {st : BitVec 8} (hc : s.control = .showSend i st) :
    Books { s.send (.showEditorResult (slotByte i) st) with control := .idle } := by
  refine ⟨nofun, fun j => ?_⟩
  refine Eq.trans ?_ (h.due j)
  rw [due_of_silent rfl]
  change (if s.gui.callback = some j then false else (s.send _).believes j) = s.due j
  rw [believes_send, Sidecar.due]
  have hclosed : ¬ s.OwesClosed j := by simp [OwesClosed, hc, Control.hiding, Control.closes]
  have hopen : s.OwesOpen j ↔ i = j ∧ st = 0 := by simp [OwesOpen, hc, Control.showing]
  have hhear : hear (slotByte j) (s.believes j) (.showEditorResult (slotByte i) st) =
      if i = j ∧ st = 0 then true else s.believes j := by
    by_cases heq : i = j ∧ st = 0
    · rw [if_pos heq]
      exact if_pos ⟨by rw [heq.1], heq.2⟩
    · rw [if_neg heq]
      exact if_neg fun hst => heq ⟨slotByte_inj hst.1, hst.2⟩
  rw [hhear, if_neg hclosed]
  simp only [hopen]

/-- A close goes out. -/
theorem hideSend (h : Books s) {i : Slot} {why : Why} (hc : s.control = .hideSend i why) :
    Books { s.send (why.report i) with control := why.reported i } := by
  have ht := silent_reported i why
  refine ⟨failed_of_silent (t := { s.send _ with control := why.reported i }) ht, fun j => ?_⟩
  refine Eq.trans ?_ (h.due j)
  rw [due_of_silent (s := { s.send _ with control := why.reported i }) ht]
  change (if s.gui.callback = some j then false else (s.send _).believes j) = s.due j
  obtain ⟨hopen, hclosed⟩ := owes_closes (s := s) (i := i) (by rw [hc]; rfl) j
  have hhear : hear (slotByte j) (s.believes j) (why.report i) = if i = j then false else s.believes j := by
    by_cases heq : i = j
    · subst heq
      cases why <;> simp [Why.report, hear]
    · have hne : slotByte i ≠ slotByte j := fun hb => heq (slotByte_inj hb)
      cases why <;> simp [Why.report, hear, hne, heq]
  rw [believes_send, hhear, Sidecar.due, if_neg hopen]
  simp only [hclosed]

theorem controlStep (h : Books s) (hk : Served s k) {ok : Bool} (hs : s.controlStep ok = some t) : Books t := by
  have hsame := (controlStep_moves hs).1
  unfold Sidecar.controlStep at hs
  cases hc : s.control <;> rw [hc] at hs <;> dsimp only at hs
  case idle => cases hs
  case showLoaded i =>
    cases hs
    exact h.silent hsame (not_owes (by rw [hc]; rfl)) (by dsimp only; split <;> rfl) fun _ => rfl
  case showStart i =>
    split at hs <;> cases hs <;> exact h.silent hsame (not_owes (by rw [hc]; rfl)) rfl fun _ => rfl
  case showAcquire i =>
    obtain ⟨v, n, hframe⟩ := s.acquireEditorView_frame i ok
    split at hs <;> rename_i heq <;> rw [heq] at hframe <;> cases hs <;> subst hframe <;>
      exact h.silent hsame (not_owes (by rw [hc]; rfl)) rfl fun _ => rfl
  case showPump i v =>
    obtain ⟨v, n, hframe⟩ := s.acquireEditorIdlePump_frame i ok
    cases hs
    refine h.silent hsame (not_owes (by rw [hc]; rfl)) rfl fun _ => ?_
    rw [hframe]
    rfl
  case showEnqueue i v p =>
    split at hs <;> cases hs
    · exact h.enqueueShow hk rfl (by rw [hc]; rfl)
    · exact h.silent hsame (not_owes (by rw [hc]; rfl)) rfl fun _ => rfl
  case showWait q =>
    split at hs <;> cases hs
    exact h.showReplied hk hc ‹_›
  case showRelease i st =>
    cases hs
    have hst : st ≠ 0 := fun hz => h.failed i (by rw [hc, hz])
    exact h.silent hsame (not_owes (by rw [hc]; simpa [Control.silent] using hst))
      (by simpa [Control.silent] using hst) fun _ => rfl
  case showSend i st =>
    cases hs
    exact h.showSend hc
  case hideRunning i why =>
    cases hs
    refine h.silent hsame (not_owes (by rw [hc]; rfl)) ?_ fun _ => rfl
    dsimp only
    split
    · rfl
    · exact silent_missed i why
  case hideEnqueue i why =>
    cases hs
    exact h.enqueueHide hk rfl (by rw [hc]; rfl)
  case hideWait q why =>
    split at hs <;> cases hs
    rename_i hready
    refine h.hideReturns hc fun hcl => ?_
    have := hk.not_ready (Served.mem_busy (busy_of_closed hcl))
    rw [hready] at this
    cases this
  case hideRelease i why =>
    cases hs
    refine h.sameDue hsame nofun (fun j => ?_) fun _ => rfl
    obtain ⟨h1, h2⟩ := owes_closes (s := s) (i := i) (by rw [hc]; rfl) j
    obtain ⟨h3, h4⟩ := owes_closes (s := { s.releaseEditorView i with control := .hideSend i why }) (i := i) rfl j
    exact ⟨iff_of_false h3 h1, h4.trans h2.symm⟩
  case hideSend i why =>
    cases hs
    exact h.hideSend hc
  case hideMissed i =>
    cases hs
    refine h.silent hsame (not_owes (by rw [hc]; rfl)) rfl fun j => ?_
    change (s.send _).believes j = s.believes j
    rw [believes_send]
    exact if_neg fun hst => absurd hst.2 (by decide)
  case chain i why =>
    cases why with
    | loadSlot f =>
      obtain ⟨l, f', v, r, hframe⟩ := s.loadSlot_frame i f ok
      cases hs
      refine h.silent hsame (not_owes (by rw [hc]; rfl)) rfl fun _ => ?_
      rw [hframe]
      rfl
    | hideEditor | unloadSlot =>
      cases hs
      exact h.silent hsame (not_owes (by rw [hc]; rfl)) rfl fun _ => rfl

theorem timeoutStep (h : Books s) (hok : s.InTime .timeout) (hs : s.timeoutStep = some t) : Books t := by
  have hsame := (timeoutStep_moves hs).1
  unfold Sidecar.timeoutStep at hs
  split at hs <;> rename_i hc
  · split at hs <;> rename_i hready <;> cases hs
    refine h.silent hsame (fun i => ⟨?_, not_owesClosed_showWait hc i⟩) rfl fun _ => rfl
    rw [owesOpen_showWait hc]
    rintro ⟨-, ⟨hr, -⟩ | hop⟩
    · exact hready hr
    · exact hok.1 _ (by rw [hc]; rfl) hop
  · split at hs <;> cases hs
    exact h.hideReturns hc (hok.2 _ (by rw [hc]; rfl))
  · cases hs

/-- The GUI thread moves without changing a window, an answer or a belief. -/
private theorem quietGui (h : Books s) {g : Gui} (hg : s.gui = g)
    (hquiet : t.gui.callback = g.callback ∧ t.gui.opened = g.opened ∧ t.gui.closed = g.closed)
    (hrest : t.control = s.control ∧ t.windows = s.windows ∧ t.replyReady = s.replyReady ∧
      t.showReply = s.showReply ∧ t.hideReply = s.hideReply)
    (hbel : ∀ i, t.believes i = s.believes i) : Books t := by
  subst hg
  obtain ⟨hcb, hopened, hclosed⟩ := hquiet
  obtain ⟨hcontrol, hwin, hready, hshow, hhide⟩ := hrest
  refine ⟨by rw [hcontrol]; exact h.failed, fun i => ?_⟩
  rw [due_congr (by rw [hcb]) (owesOpen_congr hcontrol fun q _ _ => by rw [hready, hshow, hopened])
    (owesClosed_congr hcontrol fun q _ _ => by rw [hhide, hclosed]) (hbel i), hwin]
  exact h.due i

private theorem handleRequest_quiet (r : Request) :
    (s.handleRequest r).callback = none ∧ (s.handleRequest r).opened = none ∧ (s.handleRequest r).closed = none := by
  unfold Sidecar.handleRequest
  split
  · split
    · exact ⟨rfl, rfl, rfl⟩
    · split <;> exact ⟨rfl, rfl, rfl⟩
  · split <;> exact ⟨rfl, rfl, rfl⟩

private theorem idleLoop_quiet (n : Nat) :
    (s.idleLoop n).callback = none ∧ (s.idleLoop n).opened = none ∧ (s.idleLoop n).closed = none := by
  unfold Sidecar.idleLoop
  split
  · split <;> exact ⟨rfl, rfl, rfl⟩
  · exact ⟨rfl, rfl, rfl⟩

/-- A window goes, for a caller that waits for it. -/
private theorem detachRequest (h : Books s) {i : Slot} {r : Request} (hg : s.gui = .detach i (some r))
    (hslot : r.slotIdx = i)
    (hwait : s.control.hiding = some r) :
    Books { s with windows := Function.update s.windows i none, gui := .writeHide r true } := by
  obtain ⟨why, hc⟩ := eq_of_hiding hwait
  refine ⟨h.failed, fun j => ?_⟩
  by_cases hj : j = i
  · subst hj
    refine Eq.trans (due_of_owesClosed ?_ (.inr ⟨r, hwait, hslot, .inr rfl⟩)) ?_
    · simp [OwesOpen, hc, Control.showing]
    · simp
  · refine Eq.trans ?_ ((h.due j).trans ?_)
    · refine due_congr (by rw [hg]; exact iff_of_false nofun nofun) (owesOpen_congr rfl fun q hq => ?_)
        (owesClosed_congr rfl fun q hq hqj => ?_) rfl
      · rw [hc] at hq
        cases hq
      · rw [hwait] at hq
        cases hq
        exact absurd (hqj.symm.trans hslot) hj
    · simp [Function.update_of_ne hj]

/-- A window goes at the window manager's wish: the callback will tell. -/
private theorem detachEvent (h : Books s) {i : Slot} (hg : s.gui = .detach i none) :
    Books { s with windows := Function.update s.windows i none, gui := .callbackRelease i } := by
  refine ⟨h.failed, fun j => ?_⟩
  by_cases hj : j = i
  · subst hj
    refine Eq.trans (due_of_callback rfl) ?_
    simp
  · have hnone : s.gui.callback ≠ some j := by rw [hg]; nofun
    have hother : Gui.callback (.callbackRelease i) ≠ some j := fun heq => hj (Option.some.inj heq).symm
    refine Eq.trans ?_ ((h.due j).trans ?_)
    · refine due_congr (iff_of_false hother hnone) (owesOpen_congr rfl fun q _ _ => by rw [hg]; rfl)
        (owesClosed_congr rfl fun q _ _ => by rw [hg]; rfl) rfl
    · simp [Function.update_of_ne hj]

theorem writeShow (h : Books s) (hk : Served s k) {r : Request} {st : BitVec 8} {o : Bool}
    (hg : s.gui = .writeShow r st o) :
    Books { s with showReply := Function.update s.showReply r.id st, gui := .setReady r o } := by
  refine ⟨h.failed, fun j => Eq.trans ?_ (h.due j)⟩
  have hopened : Gui.opened (.setReady r o) = s.gui.opened := by
    rw [hg]
    cases o <;> rfl
  refine due_congr (by rw [hg]; exact iff_of_false nofun nofun) (owesOpen_congr rfl fun q _ _ => ?_)
    (owesClosed_congr rfl fun q _ _ => by rw [hg]; rfl) rfl
  dsimp only
  rw [hopened]
  by_cases hid : q.id = r.id
  · have hready := hk.not_ready (Served.mem_busy (r := r) (by rw [hg]; rfl))
    rw [hid, hready]
    simp only [Bool.false_eq_true, false_and, false_or]
  · rw [Function.update_of_ne hid]

theorem writeHide (h : Books s) (hk : Served s k) {r : Request} {b : Bool} (hg : s.gui = .writeHide r b) :
    Books { s with hideReply := Function.update s.hideReply r.id b, gui := .setReady r false } := by
  have hbusy : s.gui.busy = some r := by rw [hg]; rfl
  refine ⟨h.failed, fun j => Eq.trans ?_ (h.due j)⟩
  refine due_congr (by rw [hg]; exact iff_of_false nofun nofun) (owesOpen_congr rfl fun q _ _ => by rw [hg]; rfl)
    (owesClosed_congr rfl fun q hq _ => ?_) rfl
  have hnone : Gui.closed (.setReady r false) ≠ some q := nofun
  simp only [hnone, or_false]
  by_cases hid : q.id = r.id
  · obtain rfl := hk.waits_busy (waits_of_hiding hq) hbusy hid
    have hreply : s.hideReply q.id = false := by
      rcases hk.unwritten q.id (hk.busy_id hbusy).ge with ⟨r', o, hr, -⟩ | hcell
      · rw [hg] at hr
        cases hr
      · exact hcell.2
    rw [Function.update_self, hreply, hg]
    cases b <;> simp [Gui.closed]
  · have hne : s.gui.closed ≠ some q := fun hcl => by
      have := busy_of_closed hcl
      rw [hbusy] at this
      cases this
      exact hid rfl
    simp only [Function.update_of_ne hid, hne, or_false]

/-- A reply is marked ready: an answered show is owed from here on, and its window is there. -/
theorem setReady (h : Books s) (hk : Served s k) (hfit : GuiFits s) {r : Request} {o : Bool}
    (hg : s.gui = .setReady r o) :
    Books { s with replyReady := Function.update s.replyReady r.id true, gui := .drain } := by
  have hbusy : s.gui.busy = some r := by rw [hg]; rfl
  unfold GuiFits at hfit
  rw [hg] at hfit
  obtain ⟨hmade, hopen⟩ := hfit
  refine ⟨h.failed, fun j => ?_⟩
  by_cases hnew : s.control.showing = some r ∧ r.slotIdx = j ∧ s.showReply r.id = 0
  · obtain ⟨hwait, rfl, hzero⟩ := hnew
    refine Eq.trans (due_of_owesOpen nofun ?_) (hopen hzero).symm
    exact .inr ⟨r, hwait, rfl, .inl ⟨Function.update_self .., hzero⟩⟩
  · refine Eq.trans ?_ (h.due j)
    refine due_congr (by rw [hg]; exact iff_of_false nofun nofun) (owesOpen_congr rfl fun q hq hqj => ?_)
      (owesClosed_congr rfl fun q _ _ => by rw [hg]; rfl) rfl
    by_cases hid : q.id = r.id
    · obtain rfl := hk.waits_busy (waits_of_showing hq) hbusy hid
      have hst : s.showReply q.id ≠ 0 := fun hzero => hnew ⟨hq, hqj, hzero⟩
      refine iff_of_false ?_ ?_
      · rintro (⟨-, hzero⟩ | hop)
        · exact hst hzero
        · cases hop
      · rintro (⟨-, hzero⟩ | hop)
        · exact hst hzero
        · rw [hg] at hop
          cases o with
          | false => cases hop
          | true => exact hst (hmade rfl)
    · have hne : s.gui.opened ≠ some q := fun hop => by
        have := busy_of_opened hop
        rw [hbusy] at this
        cases this
        exact hid rfl
      have hnone : Gui.opened .drain ≠ some q := nofun
      simp only [Function.update_of_ne hid, hne, hnone, or_false]

/-- `EditorClosed` goes out, and no result of an earlier show is still to come. -/
theorem callbackSend (h : Books s) {i : Slot} (hg : s.gui = .callbackSend i) (hok : ¬ s.OwesOpen i) :
    Books { s.send (.editorClosed (slotByte i)) with gui := .events } := by
  refine ⟨h.failed, fun j => Eq.trans ?_ (h.due j)⟩
  have hopen : OwesOpen { s.send (.editorClosed (slotByte i)) with gui := .events } j ↔ s.OwesOpen j :=
    owesOpen_congr rfl fun q _ _ => by rw [hg]; rfl
  have hclosed : OwesClosed { s.send (.editorClosed (slotByte i)) with gui := .events } j ↔ s.OwesClosed j :=
    owesClosed_congr rfl fun q _ _ => by rw [hg]; rfl
  have hbel : believes { s.send (.editorClosed (slotByte i)) with gui := .events } j =
      if i = j then false else s.believes j := by
    change (s.send _).believes j = _
    rw [believes_send]
    by_cases hij : i = j
    · rw [if_pos hij, hij]
      exact if_pos rfl
    · rw [if_neg hij]
      exact if_neg fun hb => hij (slotByte_inj hb)
  rw [Sidecar.due, Sidecar.due, if_neg nofun, hbel, hg]
  simp only [hopen, hclosed, Gui.callback, Option.some.injEq]
  by_cases hij : i = j
  · subst hij
    simp [hok]
  · simp [hij]

theorem guiStep (h : Books s) (hk : Served s k) (hfit : GuiFits s) (hok : s.InTime .gui)
    (hs : s.guiStep = some t) : Books t := by
  unfold Sidecar.guiStep at hs
  cases hg : s.gui <;> rw [hg] at hs <;> dsimp only at hs
  case attach => cases hs
  case drain =>
    split at hs <;> cases hs
    · exact h.quietGui hg ⟨rfl, rfl, rfl⟩ ⟨rfl, rfl, rfl, rfl, rfl⟩ fun _ => rfl
    · exact h.quietGui hg (handleRequest_quiet _) ⟨rfl, rfl, rfl, rfl, rfl⟩ fun _ => rfl
  case detach i r =>
    cases hs
    cases r with
    | none => exact h.detachEvent hg
    | some r =>
      unfold GuiFits at hfit
      rw [hg] at hfit
      exact h.detachRequest hg (hfit.2 r rfl) (hok.1 r (by rw [hg]; rfl))
  case writeShow r st o =>
    cases hs
    exact h.writeShow hk hg
  case writeHide r b =>
    cases hs
    exact h.writeHide hk hg
  case setReady r o =>
    cases hs
    exact h.setReady hk hfit hg
  case sendResized i =>
    cases hs
    exact h.quietGui hg ⟨rfl, rfl, rfl⟩ ⟨rfl, rfl, rfl, rfl, rfl⟩ fun j => believes_send ..
  case callbackSend i =>
    cases hs
    exact h.callbackSend hg (hok.2 i (by rw [hg]; rfl))
  case tick n =>
    cases hs
    exact h.quietGui hg (idleLoop_quiet n) ⟨rfl, rfl, rfl, rfl, rfl⟩ fun _ => rfl
  all_goals
    cases hs
    exact h.quietGui hg ⟨rfl, rfl, rfl⟩ ⟨rfl, rfl, rfl, rfl, rfl⟩ fun _ => rfl

/-- A window comes, for a caller that waits for it. -/
theorem attachStep (h : Books s) {out : Attached} (hok : s.InTime (.attach out))
    (hs : s.attachStep out = some t) : Books t := by
  unfold Sidecar.attachStep at hs
  cases hg : s.gui <;> rw [hg] at hs <;> dsimp only at hs <;> try cases hs
  rename_i r
  split at hs <;> rename_i hout <;> cases hs
  · subst hout
    have hwait := hok r (by rw [hg]; rfl)
    have hc := eq_of_showing hwait
    refine ⟨h.failed, fun j => ?_⟩
    by_cases hj : j = r.slotIdx
    · subst hj
      refine Eq.trans (due_of_owesOpen nofun (.inr ⟨r, hwait, rfl, .inr rfl⟩)) ?_
      simp
    · refine Eq.trans ?_ ((h.due j).trans ?_)
      · refine due_congr (by rw [hg]; exact iff_of_false nofun nofun) (owesOpen_congr rfl fun q hq hqj => ?_)
          (owesClosed_congr rfl fun q hq => ?_) rfl
        · rw [hwait] at hq
          cases hq
          exact absurd hqj.symm hj
        · rw [hc] at hq
          cases hq
      · simp [Function.update_of_ne hj]
  · exact h.quietGui hg ⟨rfl, rfl, rfl⟩ ⟨rfl, rfl, rfl, rfl, rfl⟩ fun _ => rfl

theorem xEventStep (h : Books s) {e : XEvent} (hs : s.xEventStep e = some t) : Books t := by
  unfold Sidecar.xEventStep at hs
  split at hs
  · rename_i hg
    have move : ∀ {g : Gui}, g.callback = none ∧ g.opened = none ∧ g.closed = none → Books { s with gui := g } :=
      fun hquiet => h.quietGui hg hquiet ⟨rfl, rfl, rfl, rfl, rfl⟩ fun _ => rfl
    cases e <;> cases hs
    · exact move (by split <;> exact ⟨rfl, rfl, rfl⟩)
    · exact move (by split <;> [exact ⟨rfl, rfl, rfl⟩; (split <;> exact ⟨rfl, rfl, rfl⟩)])
  · cases hs

theorem keep (h : Books s) (hk : Served s k) (hfit : GuiFits s) {a : Act} (hok : s.InTime a)
    (hs : s.step a = some t) : Books t := by
  have hstep := step_cases hs
  cases a with
  | request f =>
    obtain ⟨hc, rfl⟩ := hstep
    exact h.receive f hc
  | control ok => exact h.controlStep hk hstep
  | timeout => exact h.timeoutStep hok hstep
  | gui => exact h.guiStep hk hfit hok hstep
  | attach out => exact h.attachStep hok hstep
  | xEvent e => exact h.xEventStep hstep

/-- With nothing owed, the books say what the host believes. -/
theorem agree (h : Books s) : s.Agree := by
  rintro ⟨hc, -, -, -, hcb⟩ i
  rw [← h.due i, due_of_silent (by rw [hc]; rfl), if_neg (by rw [hcb]; nofun)]

end Books

/-- The invariant: requests in order, the window table as the GUI thread left it, and
the books straight. -/
structure Straight (s : Sidecar) : Prop where
  served : ∃ k, Served s k
  fits : GuiFits s
  books : Books s

theorem Straight.initial : Straight Sidecar.initial := ⟨⟨0, Served.initial⟩, trivial, Books.initial⟩

theorem Straight.keep (h : Straight s) {a : Act} (hok : s.InTime a) (hs : s.step a = some t) : Straight t := by
  obtain ⟨⟨k, hk⟩, hfit, hbooks⟩ := h
  exact ⟨hk.keep hs, hfit.keep hk hs, hbooks.keep hk hfit hok hs⟩

/-- In every run whose replies and closes come in time, the host believes open exactly
the editors that are, whenever all is quiet. -/
theorem agree_while_in_time (as : List Act) (hm : Meets step InTime initial as) : Always step Agree initial as :=
  always_of_meets Straight (fun hi hok hs => hi.keep hok hs) (fun hi => hi.books.agree)
    Straight.initial hm

instance (s : Sidecar) : Decidable s.Quiescent := inferInstanceAs (Decidable (_ ∧ _ ∧ _ ∧ _ ∧ _))

/-- The window is closed as soon as it is made: `EditorClosed` overtakes the result of
the show, and the host is left believing the editor open. -/
theorem closed_before_shown :
    ∃ as t, exec step initial as = some t ∧ t.wire = [.editorClosed 0, .showEditorResult 0 0] ∧
      t.Quiescent ∧ t.believes 0 = true ∧ t.windows 0 = none ∧ ¬ Always step Agree initial as := by
  let as : List Act := showFirst ++ answerShow ++ [.xEvent (.close 0), .gui, .gui, .gui, .control true, .control true]
  obtain ⟨t, ht, hview⟩ := Option.map_eq_some_iff.mp
    (show (exec step initial as).map (fun t => (t.wire, decide t.Quiescent, t.believes 0, t.windows 0)) =
      some ([.editorClosed 0, .showEditorResult 0 0], true, true, none) by decide)
  simp only [Prod.mk.injEq, decide_eq_true_eq] at hview
  obtain ⟨hwire, hquiet, hbel, hwin⟩ := hview
  refine ⟨as, t, ht, hwire, hquiet, hbel, hwin, fun hagree => ?_⟩
  have := hagree.end ht hquiet 0
  rw [hbel, hwin] at this
  cases this

/-- In the session everything is reported in time. -/
theorem agree_while_in_time_in_session :
    ∃ t, exec step initial session = some t ∧ t.Quiescent ∧ t.wire.length = 5 ∧
      Always step Agree initial session := by
  obtain ⟨t, ht, hview⟩ := Option.map_eq_some_iff.mp
    (show (exec step initial session).map (fun t => (decide t.Quiescent, t.wire.length)) = some (true, 5) by decide)
  obtain ⟨hquiet, hlen⟩ := Prod.mk.inj hview
  exact ⟨t, ht, of_decide_eq_true hquiet, hlen, agree_while_in_time session (meets_of_checks (by decide))⟩

end Sidecar
end Plughost.Vst3.Editor
