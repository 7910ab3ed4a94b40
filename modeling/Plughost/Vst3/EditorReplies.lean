import Plughost.Vst3.EditorProtocol

/-! Requests and replies between the control thread and the GUI thread: numbered as they
are made, answered one at a time and in that order, whatever the timing. -/
namespace Plughost.Vst3.Editor
open Plughost.Runs Plughost.Simulation
open Plughost.Vst3.Requests (RequestQueue)

/-- The request whose reply the control thread waits for, of either kind. -/
def Control.waits : Control → Option Request
  | .showWait q | .hideWait q _ => some q
  | _ => none

namespace Sidecar
variable {s t : Sidecar}

/-- The requests the GUI thread has yet to answer, oldest first. -/
def outstanding (s : Sidecar) : List Request := s.gui.busy.toList ++ (s.batch ++ s.queue)

/-- Of the requests made, exactly the first `k` have been answered. -/
structure Served (s : Sidecar) (k : Nat) : Prop where
  ids : s.outstanding.map (·.id) = List.range' k s.outstanding.length
  next : s.nextRequest = k + s.outstanding.length
  ready : ∀ id, s.replyReady id = decide (id < k)
  unwritten : ∀ id, k ≤ id → (∃ r o, s.gui = .setReady r o ∧ r.id = id) ∨
    s.showReply id = 7 ∧ s.hideReply id = false
  waiting : ∀ q ∈ s.control.waits, q.id < k ∨ q ∈ s.outstanding
  drained : s.gui ≠ .drain → s.gui.busy = none → s.batch = []

/-- What the control thread leaves alone. -/
structure SameGui (s t : Sidecar) : Prop where
  gui : t.gui = s.gui
  batch : t.batch = s.batch
  windows : t.windows = s.windows
  showReply : t.showReply = s.showReply
  hideReply : t.hideReply = s.hideReply
  replyReady : t.replyReady = s.replyReady

/-- The control thread has stopped waiting, or has made the next request and waits for it. -/
def Moves (s t : Sidecar) : Prop :=
  t.queue = s.queue ∧ t.nextRequest = s.nextRequest ∧ t.control.waits = none ∨
  ∃ q : Request, q.id = s.nextRequest ∧ t.queue = s.queue ++ [q] ∧ t.nextRequest = s.nextRequest + 1 ∧
    t.control.waits = some q

private theorem waits_missed (i : Slot) (why : Why) : (why.missed i).waits = none := by cases why <;> rfl

private theorem waits_reported (i : Slot) (why : Why) : (why.reported i).waits = none := by cases why <;> rfl

theorem acquireEditorView_frame (s : Sidecar) (i : Slot) (ok : Bool) :
    ∃ v n, (s.acquireEditorView i ok).1 = { s with editorView := v, nextObject := n } := by
  unfold acquireEditorView
  split
  · split
    · exact ⟨_, _, rfl⟩
    · split <;> exact ⟨_, _, rfl⟩
  · exact ⟨_, _, rfl⟩

theorem acquireEditorIdlePump_frame (s : Sidecar) (i : Slot) (ok : Bool) :
    ∃ v n, (s.acquireEditorIdlePump i ok).1 = { s with editorView := v, nextObject := n } := by
  unfold acquireEditorIdlePump
  split
  · exact s.acquireEditorView_frame i ok
  · exact s.acquireEditorView_frame i ok
  · exact ⟨_, _, rfl⟩
  · exact ⟨_, _, rfl⟩

theorem loadSlot_frame (s : Sidecar) (i : Slot) (f : SlotFormat) (ok : Bool) :
    ∃ l f' v r, s.loadSlot i f ok = { s with loaded := l, format := f', editorView := v, released := r } := by
  unfold loadSlot
  split <;> exact ⟨_, _, _, _, rfl⟩

theorem hideReturns_moves (s : Sidecar) (q : Request) (why : Why) :
    SameGui s (s.hideReturns q why) ∧ Moves s (s.hideReturns q why) := by
  refine ⟨⟨rfl, rfl, rfl, rfl, rfl, rfl⟩, .inl ⟨rfl, rfl, ?_⟩⟩
  simp only [hideReturns]
  split
  · rfl
  · exact waits_missed _ _

theorem receive_moves (s : Sidecar) (f : HostRequest) (hc : s.control = .idle) :
    SameGui s (s.receive f) ∧ Moves s (s.receive f) := by
  have hidle : s.control.waits = none := by rw [hc]; rfl
  unfold receive
  split
  case h_5 | h_6 => exact ⟨⟨rfl, rfl, rfl, rfl, rfl, rfl⟩, .inl ⟨rfl, rfl, hidle⟩⟩
  all_goals
    split
    · exact ⟨⟨rfl, rfl, rfl, rfl, rfl, rfl⟩, .inl ⟨rfl, rfl, rfl⟩⟩
    · exact ⟨⟨rfl, rfl, rfl, rfl, rfl, rfl⟩, .inl ⟨rfl, rfl, hidle⟩⟩

theorem timeoutStep_moves (hs : s.timeoutStep = some t) : SameGui s t ∧ Moves s t := by
  unfold timeoutStep at hs
  split at hs
  · split at hs <;> cases hs
    exact ⟨⟨rfl, rfl, rfl, rfl, rfl, rfl⟩, .inl ⟨rfl, rfl, rfl⟩⟩
  · split at hs <;> cases hs
    exact hideReturns_moves _ _ _
  · cases hs

theorem controlStep_moves {ok : Bool} (hs : s.controlStep ok = some t) : SameGui s t ∧ Moves s t := by
  unfold controlStep at hs
  cases hc : s.control <;> rw [hc] at hs <;> dsimp only at hs
  case idle => cases hs
  case showLoaded i =>
    cases hs
    exact ⟨⟨rfl, rfl, rfl, rfl, rfl, rfl⟩, .inl ⟨rfl, rfl, by dsimp only; split <;> rfl⟩⟩
  case showStart i =>
    split at hs <;> cases hs <;> exact ⟨⟨rfl, rfl, rfl, rfl, rfl, rfl⟩, .inl ⟨rfl, rfl, rfl⟩⟩
  case showAcquire i =>
    obtain ⟨v, n, hframe⟩ := s.acquireEditorView_frame i ok
    split at hs <;> rename_i heq <;> rw [heq] at hframe <;> cases hs <;> subst hframe <;>
      exact ⟨⟨rfl, rfl, rfl, rfl, rfl, rfl⟩, .inl ⟨rfl, rfl, rfl⟩⟩
  case showPump i v =>
    obtain ⟨v, n, hframe⟩ := s.acquireEditorIdlePump_frame i ok
    cases hs
    rw [hframe]
    exact ⟨⟨rfl, rfl, rfl, rfl, rfl, rfl⟩, .inl ⟨rfl, rfl, rfl⟩⟩
  case showEnqueue i v p =>
    split at hs <;> cases hs
    · exact ⟨⟨rfl, rfl, rfl, rfl, rfl, rfl⟩, .inr ⟨_, rfl, rfl, rfl, rfl⟩⟩
    · exact ⟨⟨rfl, rfl, rfl, rfl, rfl, rfl⟩, .inl ⟨rfl, rfl, rfl⟩⟩
  case showWait q =>
    split at hs <;> cases hs
    exact ⟨⟨rfl, rfl, rfl, rfl, rfl, rfl⟩, .inl ⟨rfl, rfl, by dsimp only; split <;> rfl⟩⟩
  case hideRunning i why =>
    cases hs
    refine ⟨⟨rfl, rfl, rfl, rfl, rfl, rfl⟩, .inl ⟨rfl, rfl, ?_⟩⟩
    dsimp only
    split
    · rfl
    · exact waits_missed i why
  case hideEnqueue i why =>
    cases hs
    exact ⟨⟨rfl, rfl, rfl, rfl, rfl, rfl⟩, .inr ⟨_, rfl, rfl, rfl, rfl⟩⟩
  case hideWait q why =>
    split at hs <;> cases hs
    exact hideReturns_moves s q why
  case hideSend i why =>
    cases hs
    exact ⟨⟨rfl, rfl, rfl, rfl, rfl, rfl⟩, .inl ⟨rfl, rfl, waits_reported i why⟩⟩
  case chain i why =>
    cases why with
    | loadSlot f =>
      obtain ⟨l, f', v, r, hframe⟩ := s.loadSlot_frame i f ok
      cases hs
      rw [hframe]
      exact ⟨⟨rfl, rfl, rfl, rfl, rfl, rfl⟩, .inl ⟨rfl, rfl, rfl⟩⟩
    | hideEditor | unloadSlot =>
      cases hs
      exact ⟨⟨rfl, rfl, rfl, rfl, rfl, rfl⟩, .inl ⟨rfl, rfl, rfl⟩⟩
  all_goals
    cases hs
    exact ⟨⟨rfl, rfl, rfl, rfl, rfl, rfl⟩, .inl ⟨rfl, rfl, rfl⟩⟩

private theorem outstanding_of_same (h : SameGui s t) (hq : t.queue = s.queue) : t.outstanding = s.outstanding := by
  rw [outstanding, h.gui, h.batch, hq]
  rfl

private theorem outstanding_of_push (h : SameGui s t) {q : Request} (hq : t.queue = s.queue ++ [q]) :
    t.outstanding = s.outstanding ++ [q] := by
  rw [outstanding, h.gui, h.batch, hq]
  simp only [outstanding, List.append_assoc]

namespace Served
variable {k : Nat}

theorem initial : Served Sidecar.initial 0 where
  ids := rfl
  next := rfl
  ready id := rfl
  unwritten id _ := .inr ⟨rfl, rfl⟩
  waiting q hq := by cases hq
  drained _ _ := rfl

/-- Requests are told apart by their numbers. -/
theorem unique (h : Served s k) {q r : Request} (hq : q ∈ s.outstanding) (hr : r ∈ s.outstanding)
    (hid : q.id = r.id) : q = r := by
  have hnodup : (s.outstanding.map (·.id)).Nodup := by
    rw [h.ids]
    exact List.nodup_range'
  exact List.inj_on_of_nodup_map hnodup hq hr hid

theorem le_id (h : Served s k) {q : Request} (hq : q ∈ s.outstanding) : k ≤ q.id ∧ q.id < s.nextRequest := by
  have hmem : q.id ∈ s.outstanding.map (·.id) := List.mem_map_of_mem hq
  rw [h.ids, List.mem_range'_1] at hmem
  rw [h.next]
  exact hmem

theorem not_ready (h : Served s k) {q : Request} (hq : q ∈ s.outstanding) : s.replyReady q.id = false := by
  rw [h.ready, decide_eq_false_iff_not]
  exact Nat.not_lt.mpr (h.le_id hq).1

theorem mem_busy {r : Request} (hb : s.gui.busy = some r) : r ∈ s.outstanding := by
  rw [outstanding, hb]
  exact List.mem_cons_self

/-- The request being answered is number `k`. -/
theorem busy_id (h : Served s k) {r : Request} (hb : s.gui.busy = some r) : r.id = k := by
  have hids := h.ids
  have hout : s.outstanding = r :: (s.batch ++ s.queue) := by
    rw [outstanding, hb]
    rfl
  rw [hout, List.map_cons, List.length_cons, List.range'_succ] at hids
  exact (List.cons.inj hids).1

/-- A caller that waits for the request being answered waits for that very request. -/
theorem waits_busy (h : Served s k) {q r : Request} (hq : q ∈ s.control.waits) (hb : s.gui.busy = some r)
    (hid : q.id = r.id) : q = r := by
  rcases h.waiting q hq with hlt | hmem
  · rw [hid, h.busy_id hb] at hlt
    exact absurd hlt (Nat.lt_irrefl k)
  · exact h.unique hmem (mem_busy hb) hid

/-- The control thread makes a move. -/
theorem control (h : Served s k) (hsame : SameGui s t) (hmove : Moves s t) : Served t k := by
  have hcells : ∀ id, k ≤ id → (∃ r o, t.gui = .setReady r o ∧ r.id = id) ∨
      t.showReply id = 7 ∧ t.hideReply id = false := by
    rw [hsame.gui, hsame.showReply, hsame.hideReply]
    exact h.unwritten
  have hready : ∀ id, t.replyReady id = decide (id < k) := by
    rw [hsame.replyReady]
    exact h.ready
  have hdrained : t.gui ≠ .drain → t.gui.busy = none → t.batch = [] := by
    rw [hsame.gui, hsame.batch]
    exact h.drained
  rcases hmove with ⟨hq, hn, hw⟩ | ⟨q, hid, hq, hn, hw⟩
  · have hout := outstanding_of_same hsame hq
    refine ⟨by rw [hout]; exact h.ids, by rw [hout, hn]; exact h.next, hready, hcells, ?_, hdrained⟩
    rw [hw]
    nofun
  · have hout := outstanding_of_push hsame hq
    refine ⟨?_, ?_, hready, hcells, fun q' hq' => .inr ?_, hdrained⟩
    · rw [hout, List.map_append, h.ids, List.length_append, List.length_singleton, List.range'_1_concat,
        List.map_singleton, hid, h.next]
    · rw [hout, hn, h.next, List.length_append, List.length_singleton, Nat.add_assoc]
    · rw [hw] at hq'
      cases hq'
      rw [hout]
      exact List.mem_append_right _ (List.mem_singleton_self q)

/-- The GUI thread moves on with the same requests to answer. -/
private theorem sameRequests (h : Served s k) (hout : t.outstanding = s.outstanding)
    (hn : t.nextRequest = s.nextRequest)
    (hready : t.replyReady = s.replyReady) (hcontrol : t.control = s.control)
    (hcells : ∀ id, k ≤ id → (∃ r o, t.gui = .setReady r o ∧ r.id = id) ∨
      t.showReply id = 7 ∧ t.hideReply id = false)
    (hdrained : t.gui ≠ .drain → t.gui.busy = none → t.batch = []) : Served t k where
  ids := by rw [hout]; exact h.ids
  next := by rw [hout, hn]; exact h.next
  ready := by rw [hready]; exact h.ready
  unwritten := hcells
  waiting := by rw [hcontrol, hout]; exact h.waiting
  drained := hdrained

/-- It leaves the requests alone altogether. -/
theorem withGui (h : Served s k) {g g' : Gui} (hg : s.gui = g) (hbusy : g'.busy = g.busy)
    (hpc : ∀ r o, g ≠ .setReady r o) (hdrain : g ≠ .drain ∨ s.batch = []) : Served { s with gui := g' } k := by
  subst hg
  refine h.sameRequests ?_ rfl rfl rfl (fun id hid => .inr ?_) fun _ hb => ?_
  · simp only [outstanding, hbusy]
  · rcases h.unwritten id hid with ⟨r, o, hr, -⟩ | hcell
    · exact absurd hr (hpc r o)
    · exact hcell
  · rcases hdrain with hs | hs
    · exact h.drained hs (hbusy.symm.trans hb)
    · exact hs

/-- It changes a window, and goes on with the same request. -/
private theorem withWindow (h : Served s k) {windows : Slot → Option EditorWindow} {g g' : Gui} (hg : s.gui = g)
    (hbusy : g'.busy = g.busy) (hpc : ∀ r o, g ≠ .setReady r o) (hdrain : g ≠ .drain) :
    Served { s with windows, gui := g' } k := by
  have h' : Served { s with windows } k := { h with }
  exact h'.withGui hg hbusy hpc (.inl hdrain)

private theorem busy_handleRequest (r : Request) : (s.handleRequest r).busy = some r := by
  unfold handleRequest
  split
  · split
    · rfl
    · split <;> rfl
  · split <;> rfl

private theorem busy_idleLoop (n : Nat) : (s.idleLoop n).busy = none := by
  unfold idleLoop
  split
  · split <;> rfl
  · rfl

/-- The next request of the batch is taken up. -/
private theorem takeUp (h : Served s k) {r : Request} {rest : List Request} (hg : s.gui = .drain)
    (hb : s.batch = r :: rest) : Served { s with batch := rest, gui := s.handleRequest r } k := by
  refine h.sameRequests ?_ rfl rfl rfl (fun id hid => ?_) fun _ hbusy => ?_
  · rw [outstanding, outstanding, hg, hb, busy_handleRequest]
    rfl
  · rcases h.unwritten id hid with ⟨r', o, hr, -⟩ | hcell
    · rw [hg] at hr
      cases hr
    · exact .inr hcell
  · simp only [busy_handleRequest] at hbusy
    cases hbusy

/-- A reply is written into the cells of the request being answered. -/
private theorem writeReply (h : Served s k) {r : Request} {o : Bool} {st : Nat → BitVec 8} {b : Nat → Bool}
    (hbusy : s.gui.busy = some r) (hpc : ∀ o, s.gui ≠ .setReady r o)
    (hst : ∀ id, id ≠ r.id → st id = s.showReply id) (hb : ∀ id, id ≠ r.id → b id = s.hideReply id) :
    Served { s with showReply := st, hideReply := b, gui := .setReady r o } k := by
  refine h.sameRequests ?_ rfl rfl rfl (fun id hid => ?_) fun _ hnone => by cases hnone
  · simp only [outstanding, hbusy]
    rfl
  · by_cases heq : id = r.id
    · exact .inl ⟨r, o, rfl, heq.symm⟩
    · rcases h.unwritten id hid with ⟨r', o', hr, -⟩ | hcell
      · have hrr : r' = r := by
          rw [hr] at hbusy
          exact Option.some.inj hbusy
        exact absurd (hrr ▸ hr) (hpc o')
      · exact .inr ⟨by rw [← hcell.1]; exact hst id heq, by rw [← hcell.2]; exact hb id heq⟩

/-- `replyReady` is set: request `k` is answered. -/
theorem answer (h : Served s k) {r : Request} {o : Bool} (hg : s.gui = .setReady r o) :
    Served { s with replyReady := Function.update s.replyReady r.id true, gui := .drain } (k + 1) := by
  have hk : r.id = k := h.busy_id (by rw [hg]; rfl)
  have hout : s.outstanding = r :: (s.batch ++ s.queue) := by
    rw [outstanding, hg]
    rfl
  have hrest : outstanding { s with replyReady := Function.update s.replyReady r.id true, gui := .drain } =
      s.batch ++ s.queue := rfl
  refine ⟨?_, ?_, fun id => ?_, fun id hid => .inr ?_, fun q hq => ?_, fun hne => absurd rfl hne⟩
  · have hids := h.ids
    rw [hout, List.map_cons, List.length_cons, List.range'_succ] at hids
    rw [hrest]
    exact (List.cons.inj hids).2
  · have hnext := h.next
    rw [hout, List.length_cons] at hnext
    rw [hrest, hnext]
    omega
  · dsimp only
    by_cases heq : id = r.id
    · rw [heq, Function.update_self, hk]
      exact (decide_eq_true (Nat.lt_succ_self k)).symm
    · rw [Function.update_of_ne heq, h.ready]
      exact decide_eq_decide.mpr (by omega)
  · rcases h.unwritten id (Nat.le_of_succ_le hid) with ⟨r', o', hr, hid'⟩ | hcell
    · rw [hg] at hr
      cases hr
      omega
    · exact hcell
  · rcases h.waiting q hq with hlt | hmem
    · exact .inl (Nat.lt_succ_of_lt hlt)
    · rw [hout] at hmem
      rcases List.mem_cons.mp hmem with rfl | hmem
      · exact .inl (by omega)
      · exact .inr hmem

theorem guiStep (h : Served s k) (hs : s.guiStep = some t) : ∃ k', Served t k' := by
  unfold Sidecar.guiStep at hs
  cases hg : s.gui <;> rw [hg] at hs <;> dsimp only at hs
  case attach => cases hs
  case top =>
    cases hs
    have hb := h.drained (by rw [hg]; nofun) (by rw [hg]; rfl)
    refine ⟨k, h.sameRequests ?_ rfl rfl rfl (fun id hid => ?_) fun hne => absurd rfl hne⟩
    · simp [outstanding, hg, hb, Gui.busy]
    · rcases h.unwritten id hid with ⟨r, o, hr, -⟩ | hcell
      · rw [hg] at hr
        cases hr
      · exact .inr hcell
  case drain =>
    split at hs <;> rename_i hb <;> cases hs
    · exact ⟨k, h.withGui hg rfl nofun (.inr hb)⟩
    · exact ⟨k, h.takeUp hg hb⟩
  case detach i r =>
    cases hs
    exact ⟨k, h.withWindow hg (by cases r <;> rfl) nofun nofun⟩
  case writeShow r st opened =>
    cases hs
    refine ⟨k, h.writeReply (by rw [hg]; rfl) (by rw [hg]; nofun) (fun id hne => ?_) fun _ _ => rfl⟩
    exact Function.update_of_ne hne ..
  case writeHide r wasOpen =>
    cases hs
    refine ⟨k, h.writeReply (by rw [hg]; rfl) (by rw [hg]; nofun) (fun _ _ => rfl) fun id hne => ?_⟩
    exact Function.update_of_ne hne ..
  case setReady r opened =>
    cases hs
    exact ⟨k + 1, h.answer hg⟩
  case sendResized i | callbackSend i =>
    cases hs
    have h' : ∀ f, Served (s.send f) k := fun f => { h with }
    exact ⟨k, (h' _).withGui hg rfl nofun (.inl nofun)⟩
  case callbackRelease i =>
    cases hs
    have h' : Served (s.releaseEditorView i) k := { h with }
    exact ⟨k, h'.withGui hg rfl nofun (.inl nofun)⟩
  case tick n =>
    cases hs
    exact ⟨k, h.withGui hg (busy_idleLoop n) nofun (.inl nofun)⟩
  all_goals
    cases hs
    exact ⟨k, h.withGui hg rfl nofun (.inl nofun)⟩

theorem attachStep (h : Served s k) {out : Attached} (hs : s.attachStep out = some t) : Served t k := by
  unfold Sidecar.attachStep at hs
  cases hg : s.gui <;> rw [hg] at hs <;> dsimp only at hs <;> try cases hs
  rename_i r
  split at hs <;> cases hs
  · exact h.withWindow hg (by rfl) nofun nofun
  · exact h.withGui hg rfl nofun (.inl nofun)

theorem xEventStep (h : Served s k) {e : XEvent} (hs : s.xEventStep e = some t) : Served t k := by
  unfold Sidecar.xEventStep at hs
  split at hs
  · rename_i hg
    have move : ∀ {g : Gui}, g.busy = none → Served { s with gui := g } k := fun hb =>
      h.withGui hg hb nofun (.inl nofun)
    cases e <;> cases hs
    · exact move (by split <;> rfl)
    · exact move (by split <;> [rfl; (split <;> rfl)])
  · cases hs

theorem keep (h : Served s k) {a : Act} (hs : s.step a = some t) : ∃ k', Served t k' := by
  have hstep := step_cases hs
  cases a with
  | request f =>
    obtain ⟨hc, rfl⟩ := hstep
    obtain ⟨hsame, hmove⟩ := s.receive_moves f hc
    exact ⟨k, h.control hsame hmove⟩
  | control ok =>
    obtain ⟨hsame, hmove⟩ := controlStep_moves hstep
    exact ⟨k, h.control hsame hmove⟩
  | timeout =>
    obtain ⟨hsame, hmove⟩ := timeoutStep_moves hstep
    exact ⟨k, h.control hsame hmove⟩
  | gui => exact h.guiStep hstep
  | attach out => exact ⟨k, h.attachStep hstep⟩
  | xEvent e => exact ⟨k, h.xEventStep hstep⟩

end Served

section Queue

/-- The requests, as the queue of `GuiThread` has them. -/
def requests (s : Sidecar) : RequestQueue Request := ⟨s.queue.map .call, s.batch.map .call, s.gui.busy⟩

/-- What a step is to the queue. -/
def queueAct (s : Sidecar) : Act → Option (Requests.Act Request)
  | .gui => match s.gui with
    | .top => some .swap
    | .drain => s.batch.head?.map fun r => .take (.call r)
    | .setReady _ _ => some .handled
    | _ => none
  | .attach _ | .xEvent _ => none
  | a => (s.step a).bind fun t => (t.queue.drop s.queue.length).head?.map fun r => .push (.call r)

private theorem requests_of_moves (hsame : SameGui s t) (hmove : Moves s t) :
    exec RequestQueue.step s.requests
      ((t.queue.drop s.queue.length).head?.map fun r => Requests.Act.push (.call r)).toList = some t.requests := by
  rcases hmove with ⟨hqueue, -, -⟩ | ⟨q, -, hqueue, -, -⟩
  · rw [hqueue, List.drop_length, requests, requests, hsame.gui, hsame.batch, hqueue]
    rfl
  · rw [hqueue, List.drop_left, requests, requests, hsame.gui, hsame.batch, hqueue, List.map_append]
    rfl

/-- What does not count for the queue. -/
theorem requests_of_hidden {a : Act} (hview : s.queueAct a = none) (hbusy : t.gui.busy = s.gui.busy)
    (hbatch : t.batch = s.batch) (hqueue : t.queue = s.queue) :
    exec RequestQueue.step s.requests (s.queueAct a).toList = some t.requests := by
  rw [hview, requests, requests, hbusy, hbatch, hqueue]
  rfl

private theorem requests_of_guiStep (hdrained : s.gui ≠ .drain → s.gui.busy = none → s.batch = [])
    (hs : s.guiStep = some t) : exec RequestQueue.step s.requests (s.queueAct .gui).toList = some t.requests := by
  unfold guiStep at hs
  cases hg : s.gui <;> rw [hg] at hs <;> dsimp only at hs
  case attach => cases hs
  case top =>
    cases hs
    have hbatch : s.batch = [] := hdrained (by rw [hg]; nofun) (by rw [hg]; rfl)
    rw [queueAct, hg]
    simp [requests, hg, hbatch, Gui.busy, exec, RequestQueue.step]
  case drain =>
    have hview : s.queueAct .gui = s.batch.head?.map fun r => .take (.call r) := by rw [queueAct, hg]
    split at hs <;> rename_i hbatch <;> cases hs
    · exact requests_of_hidden (by rw [hview, hbatch]; rfl) (by rw [hg]; rfl) rfl rfl
    · rename_i r rest
      rw [hview, requests, requests, hg, hbatch, Served.busy_handleRequest]
      simp [Gui.busy, exec, RequestQueue.step, Requests.Entry.request]
  case setReady r opened =>
    cases hs
    rw [queueAct, hg]
    rfl
  case detach i r =>
    cases hs
    exact requests_of_hidden (by rw [queueAct, hg]) (by rw [hg]; cases r <;> rfl) rfl rfl
  case tick n =>
    cases hs
    exact requests_of_hidden (by rw [queueAct, hg]) (by rw [hg]; exact Served.busy_idleLoop n) rfl rfl
  all_goals
    cases hs
    exact requests_of_hidden (by rw [queueAct, hg]) (by rw [hg]; rfl) rfl rfl

/-- The requests of the sidecar go through the queue. -/
theorem requests_step {k : Nat} {a : Act} (h : Served s k) (hs : s.step a = some t) :
    exec RequestQueue.step s.requests (s.queueAct a).toList = some t.requests := by
  have hstep := step_cases hs
  cases a with
  | request f =>
    obtain ⟨hc, rfl⟩ := hstep
    obtain ⟨hsame, hmove⟩ := s.receive_moves f hc
    rw [queueAct, hs]
    · exact requests_of_moves hsame hmove
    all_goals nofun
  | control ok =>
    obtain ⟨hsame, hmove⟩ := controlStep_moves hstep
    rw [queueAct, hs]
    · exact requests_of_moves hsame hmove
    all_goals nofun
  | timeout =>
    obtain ⟨hsame, hmove⟩ := timeoutStep_moves hstep
    rw [queueAct, hs]
    · exact requests_of_moves hsame hmove
    all_goals nofun
  | gui => exact requests_of_guiStep h.drained hstep
  | attach out =>
    dsimp only at hstep
    unfold attachStep at hstep
    cases hg : s.gui <;> rw [hg] at hstep <;> dsimp only at hstep <;> try cases hstep
    split at hstep <;> cases hstep <;> exact requests_of_hidden rfl (by rw [hg]; rfl) rfl rfl
  | xEvent e =>
    obtain ⟨hg, hevent⟩ := Option.ite_none_right_eq_some.mp hstep
    refine requests_of_hidden rfl ?_ ?_ ?_ <;> cases e <;> cases hevent <;> try rfl
    · rw [hg]
      dsimp only
      split <;> rfl
    · rw [hg]
      dsimp only
      split_ifs <;> rfl

private theorem queueAct_ne_leave (s : Sidecar) (a : Act) : s.queueAct a ≠ some .leave := by
  intro h
  cases a with
  | request | control | timeout =>
    obtain ⟨t, -, hpush⟩ := Option.bind_eq_some_iff.mp h
    obtain ⟨r, -, heq⟩ := Option.map_eq_some_iff.mp hpush
    cases heq
  | gui =>
    rw [queueAct] at h
    split at h
    · cases h
    · obtain ⟨r, -, heq⟩ := Option.map_eq_some_iff.mp h
      cases heq
    · cases h
    · cases h
  | attach | xEvent => cases h

/-- The GUI thread takes up the requests in the order in which they were made, and leaves none out. -/
theorem requests_in_order {as : List Act} (he : exec step initial as = some t) :
    (seen step queueAct initial as).filterMap Requests.Act.taken ++ (t.batch ++ t.queue).map .call =
      (seen step queueAct initial as).filterMap Requests.Act.pushed := by
  have hqueue : exec RequestQueue.step initial.requests (seen step queueAct initial as) = some t.requests :=
    exec_seen_of_step (fun s => ∃ k, Served s k) (fun ⟨_, h⟩ hs => h.keep hs) (fun ⟨_, h⟩ hs => requests_step h hs)
      ⟨0, Served.initial⟩ he
  have hleave : .leave ∉ seen step queueAct initial as := by
    intro hmem
    obtain ⟨u, a, hview⟩ := exists_of_mem_seen hmem
    exact u.queueAct_ne_leave a hview
  have htaken := (RequestQueue.taken_in_order hqueue).2 hleave
  rw [List.map_append]
  exact htaken

end Queue

end Sidecar
end Plughost.Vst3.Editor
