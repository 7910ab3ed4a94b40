import Plughost.Vst3.EditorProtocol

/-! `GuiThread::RequestShow` and `RequestHide` as calls of any number of threads: the
reply cells live on the caller's stack, the request that points at them in the queue. -/
namespace Plughost.Vst3.GuiCalls
open Plughost.Runs Plughost.Simulation
open Plughost.Vst3.Editor (Attached)
open Plughost.Vst3.Requests (Asked RequestKind RequestQueue)

/-- `ShowResult`, without the size. -/
structure ShowResult where
  ok : Bool
  status : BitVec 8
  deriving DecidableEq, Repr

/-- A `Request` with reply pointers: those to the locals of call `id`. -/
structure Request extends Asked where
  /-- Whether `view` is not null. -/
  view : Bool
  id : Nat
  deriving DecidableEq, Repr

abbrev Entry := Requests.Entry Request

/-- Where a call stands. -/
inductive Caller where
  | notMade
  /-- Before the `push_back`. -/
  | push (r : Request)
  /-- Before `unique_lock lk(m)`. -/
  | lock (r : Request)
  /-- `wait_for` evaluates its predicate, holding `m`; `late` once the second is over. -/
  | check (r : Request) (late : Bool)
  | waiting (r : Request)
  | reacquire (r : Request) (late : Bool)
  /-- `m` is released; `failed` if the predicate was false in the end. -/
  | leave (r : Request) (failed : Bool)
  | returnedShow (result : ShowResult)
  | returnedHide (wasOpen : Bool)
  deriving DecidableEq, Repr

/-- The request of a call that is in `wait_for`, or about to be. -/
def Caller.active : Caller → Option Request
  | .lock r | .check r _ | .waiting r | .reacquire r _ => some r
  | .notMade | .push _ | .leave _ _ | .returnedShow _ | .returnedHide _ => none

/-- The request whose cells are among the call's locals. -/
def Caller.request : Caller → Option Request
  | .push r | .lock r | .check r _ | .waiting r | .reacquire r _ | .leave r _ => some r
  | .notMade | .returnedShow _ | .returnedHide _ => none

def Caller.returned : Caller → Bool
  | .returnedShow _ | .returnedHide _ => true
  | .notMade | .push _ | .lock _ | .check _ _ | .waiting _ | .reacquire _ _ | .leave _ _ => false

/-- Where `ThreadMain` stands. -/
inductive Gui where
  | off
  | top
  | drain
  /-- `HandleRequest` has returned. -/
  | handled
  /-- In `EditorWindow::Attach`. -/
  | attach (r : Request)
  /-- In `EditorWindow::Detach`. -/
  | detach (r : Request)
  | writeShow (r : Request) (result : ShowResult)
  | writeHide (r : Request) (wasOpen : Bool)
  /-- `lock_guard lk(*req.replyMutex)`, and what follows under it. -/
  | lockReply (r : Request) | setReady (r : Request) | notifyOne (r : Request) | unlockReply (r : Request)
  /-- X events, idle ticks and `select`. -/
  | events
  | closing
  | exited
  deriving DecidableEq, Repr

/-- The request that is being handled. -/
def Gui.busy : Gui → Option Request
  | .attach r | .detach r | .writeShow r _ | .writeHide r _ | .lockReply r | .setReady r | .notifyOne r
  | .unlockReply r => some r
  | .off | .top | .drain | .handled | .events | .closing | .exited => none

/-- The request whose mutex is held. -/
def Gui.holds : Gui → Option Request
  | .setReady r | .notifyOne r | .unlockReply r => some r
  | _ => none

/-- The request whose reply is written, and about to be marked ready. -/
def Gui.replied : Gui → Option Request
  | .lockReply r | .setReady r => some r
  | _ => none

inductive Owner where
  | caller | gui
  deriving DecidableEq, Repr

/-- The GUI thread's members and all calls with their locals. A window goes by the call
that opened it. -/
structure GuiThread where
  running : Bool
  stopRequested : Bool
  queue : List Entry
  batch : List Entry
  windows : Fin kMaxSlots → Option Nat
  gui : Gui
  caller : Nat → Caller
  replyMutex : Nat → Option Owner
  replyReady : Nat → Bool
  showReply : Nat → ShowResult
  hideReply : Nat → Bool
  /-- The calls that had returned when something was done through their pointers. -/
  strayWrites : List Nat

inductive Act where
  | requestShow (id : Nat) (slotIdx : Int) (view : Bool)
  | requestHide (id : Nat) (slotIdx : Int)
  /-- The next statement of a call. -/
  | caller (id : Nat)
  /-- A waiting call wakes: its second is over, or for no reason. -/
  | wake (id : Nat) (late : Bool)
  /-- The GUI thread's next statement. -/
  | gui
  | attach (out : Attached)
  /-- The window manager closes a window. -/
  | wmClose (i : Fin kMaxSlots)
  | selectFails
  | start | stop
  /-- `Stop` has joined the thread. -/
  | joined
  deriving DecidableEq, Repr

private theorem slot_in_range {slotIdx : Int} (h : ¬ (slotIdx < 0 ∨ kMaxSlots ≤ slotIdx)) :
    slotIdx.toNat < kMaxSlots := by
  omega

/-- The checks on a slot. -/
def slotOf (slotIdx : Int) : Option (Fin kMaxSlots) :=
  if h : slotIdx < 0 ∨ kMaxSlots ≤ slotIdx then none else some ⟨slotIdx.toNat, slot_in_range h⟩

namespace GuiThread

def initial : GuiThread :=
  { running := false, stopRequested := false, queue := [], batch := [], windows := fun _ => none, gui := .off,
    caller := fun _ => .notMade, replyMutex := fun _ => none, replyReady := fun _ => false,
    showReply := fun _ => ⟨false, 7⟩, hideReply := fun _ => false, strayWrites := [] }

def setCaller (s : GuiThread) (id : Nat) (c : Caller) : GuiThread :=
  { s with caller := Function.update s.caller id c }

/-- `RequestShow` up to the queue's lock. -/
def requestShow (s : GuiThread) (id : Nat) (slotIdx : Int) (view : Bool) : GuiThread :=
  if !s.running then s.setCaller id (.returnedShow ⟨false, 7⟩)
  else match slotOf slotIdx with
    | none => s.setCaller id (.returnedShow ⟨false, 6⟩)
    | some i => s.setCaller id (.push ⟨⟨.requestShow, i⟩, view, id⟩)

def requestHide (s : GuiThread) (id : Nat) (slotIdx : Int) : GuiThread :=
  if !s.running then s.setCaller id (.returnedHide false)
  else match slotOf slotIdx with
    | none => s.setCaller id (.returnedHide false)
    | some i => s.setCaller id (.push ⟨⟨.requestHide, i⟩, false, id⟩)

/-- What the call returns, once `m` is released. -/
def answer (s : GuiThread) (r : Request) (failed : Bool) : Caller :=
  match r.kind with
  | .requestShow => .returnedShow (if failed then ⟨false, 5⟩ else s.showReply r.id)
  | .requestHide => .returnedHide (s.hideReply r.id)

def callerStep (s : GuiThread) (id : Nat) : Option GuiThread :=
  match s.caller id with
  | .push r => some { s.setCaller id (.lock r) with queue := s.queue ++ [.call r] }
  | .lock r =>
    if s.replyMutex id = none then
      some { s.setCaller id (.check r false) with replyMutex := Function.update s.replyMutex id (some .caller) }
    else none
  | .reacquire r late =>
    if s.replyMutex id = none then
      some { s.setCaller id (.check r late) with replyMutex := Function.update s.replyMutex id (some .caller) }
    else none
  | .check r late =>
    let c : Caller := if s.replyReady id then .leave r false else if late then .leave r true else .waiting r
    some { s.setCaller id c with replyMutex := Function.update s.replyMutex id none }
  | .leave r failed => some (s.setCaller id (s.answer r failed))
  | .notMade | .waiting _ | .returnedShow _ | .returnedHide _ => none

/-- The cells of a call are written to, or its mutex or condition variable used. -/
def touch (s : GuiThread) (id : Nat) : List Nat :=
  if (s.caller id).returned then s.strayWrites ++ [id] else s.strayWrites

/-- `HandleShow` and `HandleHide`, up to the call into the view or the reply. -/
def handleRequest (s : GuiThread) (r : Request) : Gui :=
  match r.kind with
  | .requestShow =>
    if (s.windows r.slotIdx).isSome then .writeShow r ⟨true, 0⟩
    else if !r.view then .writeShow r ⟨false, 2⟩
    else .attach r
  | .requestHide => if (s.windows r.slotIdx).isNone then .writeHide r false else .detach r

def guiStep (s : GuiThread) : Option GuiThread :=
  match s.gui with
  | .off | .exited | .attach _ => none
  | .top =>
    if s.stopRequested then some { s with gui := .closing }
    else some { s with batch := s.queue, queue := [], gui := .drain }
  | .drain => match s.batch with
    | [] => some { s with gui := if s.stopRequested then .closing else .events }
    | .quit :: rest => some { s with batch := rest, stopRequested := true, gui := .handled }
    | .call r :: rest => some { s with batch := rest, gui := s.handleRequest r }
  | .handled =>
    if s.stopRequested then some { s with batch := [], gui := .closing } else some { s with gui := .drain }
  | .detach r => some { s with windows := Function.update s.windows r.slotIdx none, gui := .writeHide r true }
  | .writeShow r result => some { s with
      showReply := Function.update s.showReply r.id result, strayWrites := s.touch r.id, gui := .lockReply r }
  | .writeHide r wasOpen => some { s with
      hideReply := Function.update s.hideReply r.id wasOpen, strayWrites := s.touch r.id, gui := .lockReply r }
  | .lockReply r =>
    if s.replyMutex r.id = none then some { s with
      replyMutex := Function.update s.replyMutex r.id (some .gui), strayWrites := s.touch r.id, gui := .setReady r }
    else none
  | .setReady r => some { s with
      replyReady := Function.update s.replyReady r.id true, strayWrites := s.touch r.id, gui := .notifyOne r }
  | .notifyOne r => some { s with
      caller := match s.caller r.id with
        | .waiting q => Function.update s.caller r.id (.reacquire q false)
        | _ => s.caller
      strayWrites := s.touch r.id
      gui := .unlockReply r }
  | .unlockReply r => some { s with
      replyMutex := Function.update s.replyMutex r.id none, strayWrites := s.touch r.id, gui := .handled }
  | .events => some { s with gui := .top }
  | .closing => some { s with windows := fun _ => none, gui := .exited }

/-- `EditorWindow::Attach` returns. -/
def attachStep (s : GuiThread) (out : Attached) : Option GuiThread :=
  match s.gui with
  | .attach r =>
    if out = .ok then some { s with
      windows := Function.update s.windows r.slotIdx (some r.id), gui := .writeShow r ⟨true, 0⟩ }
    else some { s with gui := .writeShow r ⟨false, out.status⟩ }
  | _ => none

def step (s : GuiThread) : Act → Option GuiThread
  | .requestShow id slotIdx view => if s.caller id = .notMade then some (s.requestShow id slotIdx view) else none
  | .requestHide id slotIdx => if s.caller id = .notMade then some (s.requestHide id slotIdx) else none
  | .caller id => s.callerStep id
  | .wake id late => match s.caller id with
    | .waiting r => some (s.setCaller id (.reacquire r late))
    | _ => none
  | .gui => s.guiStep
  | .attach out => s.attachStep out
  | .wmClose i => if s.gui = .events then some { s with windows := Function.update s.windows i none } else none
  | .selectFails => if s.gui = .events then some { s with gui := .closing } else none
  | .start =>
    if s.running then some s
    else if s.gui = .off then some { s with running := true, stopRequested := false, gui := .top } else none
  | .stop => if s.running then some { s with queue := s.queue ++ [.quit] } else some s
  | .joined => if s.gui = .exited then some { s with running := false, gui := .off } else none

/-- The requests that the GUI thread has before it: the one it handles, those it has
taken out, and those in the queue. -/
def pending (s : GuiThread) : List Request :=
  s.gui.busy.toList ++ s.batch.filterMap Requests.Entry.request ++ s.queue.filterMap Requests.Entry.request

/-- Nothing was done through the pointers of a call that had returned, and no window is
open by a `RequestShow` that returned a failure. -/
structure Settled (s : GuiThread) : Prop where
  quiet : s.strayWrites = []
  told : ∀ i id result, s.windows i = some id → s.caller id = .returnedShow result → result.ok = true

/-- No wait ends by its timeout while the GUI thread still has the request before it. -/
def InTime (s : GuiThread) : Act → Prop
  | .caller id => ∀ r ∈ s.pending, s.caller id = .check r true → s.replyReady id = true
  | _ => True

/-- The window that call `id` opened is reported as open: the reply that says so is about
to be written, or is written and will be seen. -/
def Granted (s : GuiThread) (id : Nat) : Prop :=
  (∃ r result, s.gui = .writeShow r result ∧ result.ok = true ∧ r.id = id) ∨
    (s.showReply id).ok = true ∧ (s.replyReady id = true ∨ ∃ r, s.gui.replied = some r ∧ r.id = id)

/-- What the call can come to, having opened a window. -/
def Opened (s : GuiThread) (id : Nat) : Prop :=
  match s.caller id with
  | .notMade | .push _ => False
  | .lock _ | .check _ _ | .waiting _ | .reacquire _ _ => s.Granted id
  | .leave r failed => r.kind = .requestShow → failed = false ∧ (s.showReply id).ok = true
  | .returnedShow result => result.ok = true
  | .returnedHide _ => True

/-- The invariant: what the GUI thread has before it is waited for, and locks and replies
are where they are looked for. -/
structure Inv (s : GuiThread) : Prop where
  quiet : s.strayWrites = []
  named : ∀ id r, (s.caller id).request = some r → r.id = id
  awaited : ∀ r ∈ s.pending, (s.caller r.id).active = some r
  once : s.pending.Nodup
  guiHolds : ∀ r, s.gui.holds = some r → s.replyMutex r.id = some .gui
  callerHolds : ∀ id r late, s.caller id = .check r late → s.replyMutex id = some .caller
  ready : ∀ r ∈ s.pending, s.replyReady r.id = true → s.gui = .notifyOne r ∨ s.gui = .unlockReply r
  fresh : ∀ id, (s.caller id = .notMade ∨ ∃ r, s.caller id = .push r) → s.replyReady id = false
  opened : ∀ i id, s.windows i = some id → s.Opened id

namespace Inv
variable {s t : GuiThread}

theorem initial : Inv GuiThread.initial := by
  refine ⟨rfl, ?_, ?_, List.nodup_nil, ?_, ?_, ?_, fun _ _ => rfl, ?_⟩
  · simp [GuiThread.initial, Caller.request]
  · simp [GuiThread.initial, pending, Gui.busy]
  · simp [GuiThread.initial, Gui.holds]
  · simp [GuiThread.initial]
  · simp [GuiThread.initial, pending, Gui.busy]
  · simp [GuiThread.initial]

theorem settled (h : Inv s) : s.Settled := by
  refine ⟨h.quiet, fun i id result hw hc => ?_⟩
  have hopen := h.opened i id hw
  unfold Opened at hopen
  rw [hc] at hopen
  exact hopen

theorem mem_busy {r : Request} (h : s.gui.busy = some r) : r ∈ s.pending := by
  simp [pending, h]

/-- The cells of the request being handled are there. -/
private theorem touch_busy (h : Inv s) {r : Request} (hb : s.gui.busy = some r) : s.touch r.id = [] := by
  have hactive := h.awaited r (mem_busy hb)
  unfold touch
  cases hc : s.caller r.id <;> rw [hc] at hactive <;> first | exact h.quiet | cases hactive

private theorem busy_of_replied {r : Request} (h : s.gui.replied = some r) : s.gui.busy = some r := by
  cases hg : s.gui <;> rw [hg] at h <;> first | exact h | cases h

private theorem replied_or_ready {id : Nat} (h : s.Granted id) (hw : ∀ r result, s.gui ≠ .writeShow r result) :
    (s.showReply id).ok = true ∧ (s.replyReady id = true ∨ ∃ r, s.gui.replied = some r ∧ r.id = id) := by
  rcases h with ⟨r, result, hg, -, -⟩ | h
  · exact absurd hg (hw r result)
  · exact h

/-- A call moves on, or locks or unlocks its mutex, and nothing else changes. -/
private theorem reassign (h : Inv s) {id : Nat} {c : Caller} {m : Nat → Option Owner}
    (hm : ∀ id', id' ≠ id → m id' = s.replyMutex id') (hrequest : ∀ r, c.request = some r → r.id = id)
    (hactive : ∀ r ∈ s.pending, r.id = id → c.active = some r)
    (hgui : ∀ r, s.gui.holds = some r → r.id = id → m id = some .gui)
    (hcheck : ∀ r late, c = .check r late → m id = some .caller)
    (hfresh : (c = .notMade ∨ ∃ r, c = .push r) → s.replyReady id = false)
    (hopened : ∀ i, s.windows i = some id → ({ s.setCaller id c with replyMutex := m } : GuiThread).Opened id) :
    Inv { s.setCaller id c with replyMutex := m } := by
  refine ⟨h.quiet, fun id' r hr => ?_, fun r hr => ?_, h.once, fun r hr => ?_, fun id' r late hr => ?_, h.ready,
    fun id' hid' => ?_, fun i id' hw => ?_⟩
  · by_cases hid : id' = id
    · subst hid
      simp only [setCaller, Function.update_self] at hr
      exact hrequest r hr
    · simp only [setCaller, Function.update_of_ne hid] at hr
      exact h.named id' r hr
  · by_cases hid : r.id = id
    · simp only [setCaller, hid, Function.update_self]
      exact hactive r hr hid
    · simp only [setCaller, Function.update_of_ne hid]
      exact h.awaited r hr
  · dsimp only
    by_cases hid : r.id = id
    · rw [hid]
      exact hgui r hr hid
    · rw [hm r.id hid]
      exact h.guiHolds r hr
  · dsimp only
    by_cases hid : id' = id
    · subst hid
      simp only [setCaller, Function.update_self] at hr
      exact hcheck r late hr
    · simp only [setCaller, Function.update_of_ne hid] at hr
      rw [hm id' hid]
      exact h.callerHolds id' r late hr
  · by_cases hid : id' = id
    · subst hid
      simp only [setCaller, Function.update_self] at hid'
      exact hfresh hid'
    · simp only [setCaller, Function.update_of_ne hid] at hid'
      exact h.fresh id' hid'
  · by_cases hid : id' = id
    · subst hid
      exact hopened i hw
    · have hopen := h.opened i id' hw
      unfold Opened at *
      simp only [setCaller, Function.update_of_ne hid]
      exact hopen

/-- A call that is not in `wait_for` has nothing before the GUI thread. -/
theorem absent (h : Inv s) (id : Nat) (hc : (s.caller id).active = none) : ∀ r ∈ s.pending, r.id ≠ id := by
  intro r hr heq
  have hactive := h.awaited r hr
  rw [heq, hc] at hactive
  cases hactive

/-- The mutex of a request that is being answered is that of a pending one. -/
private theorem mem_holds {r : Request} (h : s.gui.holds = some r) : r ∈ s.pending := by
  refine mem_busy ?_
  cases hg : s.gui <;> rw [hg] at h <;> first | exact h | cases h

/-- A call is entered: it fails at once, or has a request to push. -/
theorem enter (h : Inv s) {id : Nat} {c : Caller} (hc : s.caller id = .notMade)
    (hrequest : ∀ r, c.request = some r → r.id = id) (hcheck : ∀ r late, c ≠ .check r late) :
    Inv (s.setCaller id c) := by
  have habsent := h.absent id (by rw [hc]; rfl)
  refine h.reassign (m := s.replyMutex) (fun _ _ => rfl) hrequest (fun r hr heq => absurd heq (habsent r hr))
    (fun r hr heq => absurd heq (habsent r (mem_holds hr))) (fun r late heq => absurd heq (hcheck r late))
    (fun _ => h.fresh id (.inl hc)) fun i hw => ?_
  have hopen := h.opened i id hw
  unfold Opened at hopen
  rw [hc] at hopen
  exact hopen.elim

/-- An entry goes into the queue; a request's call is waiting for it already. -/
theorem enqueue (h : Inv s) {e : Entry}
    (he : ∀ r, e.request = some r → (s.caller r.id).active = some r ∧ r ∉ s.pending ∧ s.replyReady r.id = false) :
    Inv { s with queue := s.queue ++ [e] } := by
  have hpending : ({ s with queue := s.queue ++ [e] } : GuiThread).pending = s.pending ++ e.request.toList := by
    cases e <;> simp [pending, Requests.Entry.request]
  refine ⟨h.quiet, h.named, fun r hr => ?_, ?_, h.guiHolds, h.callerHolds, fun r hr hready => ?_, h.fresh, h.opened⟩
  · rw [hpending, List.mem_append, Option.mem_toList] at hr
    rcases hr with hr | hr
    · exact h.awaited r hr
    · exact (he r hr).1
  · rw [hpending]
    refine List.nodup_append.mpr ⟨h.once, ?_, fun r hr q hq heq => ?_⟩
    · cases e.request <;> simp
    · subst heq
      exact (he r (Option.mem_toList.mp hq)).2.1 hr
  · rw [hpending, List.mem_append, Option.mem_toList] at hr
    rcases hr with hr | hr
    · exact h.ready r hr hready
    · exact absurd (hready.symm.trans (he r hr).2.2) (by decide)

theorem pushed (h : Inv s) {id : Nat} {r : Request} (hc : s.caller id = .push r) :
    Inv { s.setCaller id (.lock r) with queue := s.queue ++ [.call r] } := by
  have hid : r.id = id := h.named id r (by rw [hc]; rfl)
  have habsent := h.absent id (by rw [hc]; rfl)
  have hlocked : Inv (s.setCaller id (.lock r)) := by
    refine h.reassign (m := s.replyMutex) (fun _ _ => rfl) (fun q hq => ?_) (fun q hq heq => absurd heq (habsent q hq))
      (fun q hq heq => absurd heq (habsent q (mem_holds hq))) (fun _ _ heq => by cases heq) (fun hne => ?_)
      fun i hw => ?_
    · obtain rfl := Option.some.inj hq
      exact hid
    · rcases hne with heq | ⟨_, heq⟩ <;> cases heq
    · have hopen := h.opened i id hw
      unfold Opened at hopen
      rw [hc] at hopen
      exact hopen.elim
  refine hlocked.enqueue fun q hq => ?_
  obtain rfl := Option.some.inj hq
  refine ⟨?_, fun hmem => habsent r hmem hid, hid ▸ h.fresh id (.inr ⟨r, hc⟩)⟩
  simp only [setCaller, hid, Function.update_self]
  rfl

/-- The mutex is free: the call takes it. -/
theorem acquired (h : Inv s) {id : Nat} {r : Request} {late : Bool} (hfree : s.replyMutex id = none)
    (hc : s.caller id = .lock r ∨ ∃ late, s.caller id = .reacquire r late) :
    Inv { s.setCaller id (.check r late) with replyMutex := Function.update s.replyMutex id (some .caller) } := by
  have hactive : (s.caller id).active = some r := by rcases hc with hc | ⟨_, hc⟩ <;> rw [hc] <;> rfl
  have hrequest : (s.caller id).request = some r := by rcases hc with hc | ⟨_, hc⟩ <;> rw [hc] <;> rfl
  refine h.reassign (fun id' hne => Function.update_of_ne hne _ _) (fun q hq => ?_) (fun q hq heq => ?_)
    (fun q hq heq => ?_) (fun _ _ _ => Function.update_self _ _ _) (fun hne => ?_) fun i hw => ?_
  · obtain rfl := Option.some.inj hq
    exact h.named id r hrequest
  · have hq' := h.awaited q hq
    rw [heq, hactive] at hq'
    exact hq'
  · have hheld := h.guiHolds q hq
    rw [heq, hfree] at hheld
    cases hheld
  · rcases hne with heq | ⟨_, heq⟩ <;> cases heq
  · have hopen := h.opened i id hw
    unfold Opened at hopen ⊢
    simp only [setCaller, Function.update_self]
    rcases hc with hc | ⟨_, hc⟩ <;> rw [hc] at hopen <;> exact hopen

/-- While the call holds its mutex, its reply is ready only if the GUI thread is done with it. -/
private theorem done_of_ready (h : Inv s) {id : Nat} {r : Request} {late : Bool} (hc : s.caller id = .check r late)
    (hready : s.replyReady id = true) : ∀ q ∈ s.pending, q.id ≠ id := by
  intro q hq heq
  have hheld := h.callerHolds id r late hc
  have hgui := h.ready q hq (heq ▸ hready)
  have hholds : s.gui.holds = some q := by rcases hgui with hg | hg <;> rw [hg] <;> rfl
  have hmutex := h.guiHolds q hholds
  rw [heq, hheld] at hmutex
  cases hmutex

/-- The predicate is evaluated; the wait is over, or goes on. -/
private theorem checked (h : Inv s) {id : Nat} {r : Request} {late : Bool} (hc : s.caller id = .check r late)
    (hok : ∀ q ∈ s.pending, q.id = id → late = true → s.replyReady id = true) :
    Inv { s.setCaller id (if s.replyReady id then .leave r false else if late then .leave r true else .waiting r) with
      replyMutex := Function.update s.replyMutex id none } := by
  have hid : r.id = id := h.named id r (by rw [hc]; rfl)
  have hheld := h.callerHolds id r late hc
  have hmutex : ∀ q, s.gui.holds = some q → q.id ≠ id := by
    intro q hq heq
    have hgui := h.guiHolds q hq
    rw [heq, hheld] at hgui
    cases hgui
  have hgranted : ∀ i, s.windows i = some id → s.Granted id := by
    intro i hw
    have hopen := h.opened i id hw
    unfold Opened at hopen
    rw [hc] at hopen
    exact hopen
  refine h.reassign (fun id' hne => Function.update_of_ne hne _ _) (fun q hq => ?_) (fun q hq heq => ?_)
    (fun q hq heq => absurd heq (hmutex q hq)) (fun q late' heq => ?_) (fun hne => ?_) fun i hw => ?_
  · split at hq
    · obtain rfl := Option.some.inj hq
      exact hid
    · split at hq <;>
      · obtain rfl := Option.some.inj hq
        exact hid
  · split
    · rename_i hready
      exact absurd heq (h.done_of_ready hc hready q hq)
    · rename_i hready
      split
      · rename_i hlate
        exact absurd (hok q hq heq hlate) hready
      · have hq' := h.awaited q hq
        rw [heq, hc] at hq'
        exact hq'
  · split at heq
    · cases heq
    · split at heq <;> cases heq
  · split at hne
    · rcases hne with heq | ⟨_, heq⟩ <;> cases heq
    · split at hne <;> rcases hne with heq | ⟨_, heq⟩ <;> cases heq
  · have hg := hgranted i hw
    unfold Opened
    simp only [setCaller, Function.update_self]
    by_cases hready : s.replyReady id = true
    · rw [if_pos hready]
      intro _
      refine ⟨rfl, ?_⟩
      rcases hg with ⟨q, result, hgui, -, hq⟩ | ⟨hgood, -⟩
      · exact absurd hq (h.done_of_ready hc hready q (mem_busy (by rw [hgui]; rfl)))
      · exact hgood
    · rw [if_neg hready]
      cases late with
      | true =>
        -- a timeout: the request is not before the GUI thread, so it opened no window
        rcases hg with ⟨q, result, hgui, -, hq⟩ | ⟨-, hdone | ⟨q, hreplied, hq⟩⟩
        · exact absurd (hok q (mem_busy (by rw [hgui]; rfl)) hq rfl) hready
        · exact absurd hdone hready
        · exact absurd (hok q (mem_busy (busy_of_replied hreplied)) hq rfl) hready
      | false => exact hg

/-- The call returns, with what its cells hold. -/
theorem left (h : Inv s) {id : Nat} {r : Request} {failed : Bool} (hc : s.caller id = .leave r failed) :
    Inv (s.setCaller id (s.answer r failed)) := by
  have hid : r.id = id := h.named id r (by rw [hc]; rfl)
  have habsent := h.absent id (by rw [hc]; rfl)
  have hnone : (s.answer r failed).request = none := by
    unfold answer
    split <;> rfl
  have hreturned : (s.answer r failed).returned = true := by
    unfold answer
    split <;> rfl
  refine h.reassign (m := s.replyMutex) (fun _ _ => rfl) (fun q hq => ?_) (fun q hq heq => absurd heq (habsent q hq))
    (fun q hq heq => absurd heq (habsent q (mem_holds hq))) (fun q late heq => ?_) (fun hne => ?_) fun i hw => ?_
  · rw [hnone] at hq
    cases hq
  · rw [heq] at hreturned
    cases hreturned
  · rcases hne with heq | ⟨_, heq⟩ <;> rw [heq] at hreturned <;> cases hreturned
  · have hopen := h.opened i id hw
    unfold Opened at hopen ⊢
    rw [hc] at hopen
    simp only [setCaller, Function.update_self, answer]
    cases hkind : r.kind with
    | requestShow =>
      obtain ⟨rfl, hgood⟩ := hopen hkind
      rw [hid]
      exact hgood
    | requestHide => trivial

/-- A waiting call wakes. -/
theorem woken (h : Inv s) {id : Nat} {r : Request} (late : Bool) (hc : s.caller id = .waiting r) :
    Inv (s.setCaller id (.reacquire r late)) := by
  have hid : r.id = id := h.named id r (by rw [hc]; rfl)
  refine h.reassign (m := s.replyMutex) (fun _ _ => rfl) (fun q hq => ?_) (fun q hq heq => ?_)
    (fun q hq heq => heq ▸ h.guiHolds q hq) (fun _ _ heq => by cases heq) (fun hne => ?_) fun i hw => ?_
  · obtain rfl := Option.some.inj hq
    exact hid
  · have hq' := h.awaited q hq
    rw [heq, hc] at hq'
    exact hq'
  · rcases hne with heq | ⟨_, heq⟩ <;> cases heq
  · have hopen := h.opened i id hw
    unfold Opened at hopen ⊢
    rw [hc] at hopen
    simp only [setCaller, Function.update_self]
    exact hopen

private theorem callerStep (h : Inv s) {id : Nat} (hok : s.InTime (.caller id)) (hs : s.callerStep id = some t) :
    Inv t := by
  unfold GuiThread.callerStep at hs
  cases hc : s.caller id <;> rw [hc] at hs <;> dsimp only at hs
  case push r =>
    cases hs
    exact h.pushed hc
  case lock r =>
    obtain ⟨hfree, heq⟩ := Option.ite_none_right_eq_some.mp hs
    cases heq
    exact h.acquired hfree (.inl hc)
  case reacquire r late =>
    obtain ⟨hfree, heq⟩ := Option.ite_none_right_eq_some.mp hs
    cases heq
    exact h.acquired hfree (.inr ⟨late, hc⟩)
  case check r late =>
    cases hs
    refine h.checked hc fun q hq heq hlate => ?_
    subst hlate
    have hq' := h.awaited q hq
    rw [heq, hc] at hq'
    obtain rfl := Option.some.inj hq'
    exact hok r hq hc
  case leave r failed =>
    cases hs
    exact h.left hc
  all_goals cases hs

theorem Opened.kept {id : Nat} (h : s.Opened id) (hcaller : t.caller = s.caller)
    (hgranted : s.Granted id → t.Granted id)
    (hreply : (s.caller id).active = none → t.showReply id = s.showReply id) : t.Opened id := by
  unfold GuiThread.Opened at *
  rw [hcaller]
  cases hc : s.caller id <;> rw [hc] at h hreply <;> dsimp only at h ⊢
  case lock | check | waiting | reacquire => exact hgranted h
  case leave r failed =>
    rw [hreply rfl]
    exact h
  all_goals exact h

/-- What a step of the GUI thread has to see to. -/
private theorem guided (h : Inv s) (hcaller : t.caller = s.caller) (hquiet : t.strayWrites = [])
    (hpending : t.pending.Sublist s.pending) (hholds : ∀ r, t.gui.holds = some r → t.replyMutex r.id = some .gui)
    (hmutex : ∀ id, s.replyMutex id = some .caller → t.replyMutex id = some .caller)
    (hready : ∀ r ∈ s.pending, r ∈ t.pending → t.replyReady r.id = true →
      t.gui = .notifyOne r ∨ t.gui = .unlockReply r)
    (hfresh : ∀ id, t.replyReady id = true → s.replyReady id = true ∨ ∃ r ∈ s.pending, r.id = id)
    (hopened : ∀ i id, t.windows i = some id → t.Opened id) : Inv t := by
  refine ⟨hquiet, fun id r hr => ?_, fun r hr => ?_, h.once.sublist hpending, hholds, fun id r late hr => ?_,
    fun r hr => hready r (hpending.subset hr) hr, fun id hid => ?_, hopened⟩
  · rw [hcaller] at hr
    exact h.named id r hr
  · rw [hcaller]
    exact h.awaited r (hpending.subset hr)
  · rw [hcaller] at hr
    exact hmutex id (h.callerHolds id r late hr)
  · rw [hcaller] at hid
    by_contra hne
    rcases hfresh id (Bool.eq_true_of_not_eq_false hne) with hold | ⟨r, hr, heq⟩
    · exact absurd (hold.symm.trans (h.fresh id hid)) (by decide)
    · have hactive := h.awaited r hr
      rw [heq] at hactive
      rcases hid with hc | ⟨q, hc⟩ <;> rw [hc] at hactive <;> cases hactive

/-- Steps outside the reply: no reply is under way, none is marked, no window is opened. -/
private theorem quietStep (h : Inv s) (hcaller : t.caller = s.caller) (hquiet : t.strayWrites = [])
    (hpending : t.pending.Sublist s.pending) (hbefore : s.gui.holds = none ∧ s.gui.replied = none ∧
      ∀ r result, s.gui ≠ .writeShow r result) (hafter : t.gui.holds = none)
    (hmutex : t.replyMutex = s.replyMutex) (hready : t.replyReady = s.replyReady)
    (hshow : t.showReply = s.showReply) (hwindows : ∀ i id, t.windows i = some id → s.windows i = some id) :
    Inv t := by
  obtain ⟨hheld, hreplied, hwrite⟩ := hbefore
  refine h.guided hcaller hquiet hpending (fun r hr => ?_) (fun id hid => by rw [hmutex]; exact hid)
    (fun r hr _ hready' => ?_) (fun id hid => .inl (hready ▸ hid)) fun i id hw => ?_
  · rw [hafter] at hr
    cases hr
  · rw [hready] at hready'
    rcases h.ready r hr hready' with hg | hg <;> rw [hg] at hheld <;> cases hheld
  · refine Opened.kept (h.opened i id (hwindows i id hw)) hcaller (fun hg => ?_) fun _ => by rw [hshow]
    obtain ⟨hgood, hdone | ⟨r, hr, -⟩⟩ := replied_or_ready hg hwrite
    · exact .inr ⟨by rw [hshow]; exact hgood, .inl (by rw [hready]; exact hdone)⟩
    · rw [hreplied] at hr
      cases hr

private theorem handleRequest_gui (s : GuiThread) (r : Request) :
    (s.handleRequest r).busy = some r ∧ (s.handleRequest r).holds = none := by
  unfold handleRequest
  split
  · split
    · exact ⟨rfl, rfl⟩
    · split <;> exact ⟨rfl, rfl⟩
  · split <;> exact ⟨rfl, rfl⟩

/-- The request being handled stays in front of the others. -/
private theorem pending_busy {r : Request} (hs : s.gui.busy = some r) (hg : t.gui.busy = some r)
    (hbatch : t.batch = s.batch) (hqueue : t.queue = s.queue) : t.pending.Sublist s.pending := by
  rw [pending, pending, hg, hs, hbatch, hqueue]

/-- Until the reply is marked, no pending request's is. -/
private theorem unready (h : Inv s) (hg : s.gui.holds = none) : ∀ r ∈ s.pending, s.replyReady r.id ≠ true := by
  intro r hr hready
  rcases h.ready r hr hready with heq | heq <;> rw [heq] at hg <;> cases hg

/-- `*showReply = r`: if a window is open by this request, the reply says so. -/
private theorem wroteShow (h : Inv s) {r : Request} {result : ShowResult} (hg : s.gui = .writeShow r result) :
    Inv { s with
      showReply := Function.update s.showReply r.id result, strayWrites := s.touch r.id, gui := .lockReply r } := by
  have hbusy : s.gui.busy = some r := by rw [hg]; rfl
  have hunready := h.unready (by rw [hg]; rfl)
  refine h.guided rfl (h.touch_busy hbusy) (pending_busy hbusy rfl rfl rfl) (fun q hq => by cases hq)
    (fun id hid => hid) (fun q hq _ hready => absurd hready (hunready q hq))
    (fun id hid => .inl hid) fun i id hw => ?_
  refine Opened.kept (h.opened i id hw) rfl (fun hgranted => ?_) fun hc => ?_
  · by_cases hid : id = r.id
    · subst hid
      rcases hgranted with ⟨q, result', hq, hgood, -⟩ | ⟨-, hdone | ⟨q, hq, -⟩⟩
      · rw [hg] at hq
        cases hq
        refine .inr ⟨?_, .inr ⟨r, rfl, rfl⟩⟩
        simpa using hgood
      · exact absurd hdone (hunready r (mem_busy hbusy))
      · rw [hg] at hq
        cases hq
    · rcases hgranted with ⟨q, result', hq, -, hqid⟩ | ⟨hgood, hdone | ⟨q, hq, -⟩⟩
      · rw [hg] at hq
        cases hq
        exact absurd hqid.symm hid
      · refine .inr ⟨?_, .inl hdone⟩
        simpa [Function.update_of_ne hid] using hgood
      · rw [hg] at hq
        cases hq
  · refine Function.update_of_ne (fun heq => ?_) _ _
    have hactive := h.awaited r (mem_busy hbusy)
    rw [← heq, hc] at hactive
    cases hactive

/-- The window is there; the reply that says so comes next. -/
theorem attached (h : Inv s) {r : Request} (hg : s.gui = .attach r) : Inv { s with
    windows := Function.update s.windows r.slotIdx (some r.id), gui := .writeShow r ⟨true, 0⟩ } := by
  have hbusy : s.gui.busy = some r := by rw [hg]; rfl
  have hunready := h.unready (by rw [hg]; rfl)
  refine h.guided rfl h.quiet (pending_busy hbusy rfl rfl rfl) (fun q hq => by cases hq)
    (fun id hid => hid) (fun q hq _ hready => absurd hready (hunready q hq))
    (fun id hid => .inl hid) fun i id hw => ?_
  dsimp only at hw
  by_cases hi : i = r.slotIdx
  · subst hi
    rw [Function.update_self, Option.some.injEq] at hw
    subst hw
    have hactive := h.awaited r (mem_busy hbusy)
    have hgranted : Granted { s with
        windows := Function.update s.windows r.slotIdx (some r.id)
        gui := .writeShow r ⟨true, 0⟩ } r.id := .inl ⟨r, _, rfl, rfl, rfl⟩
    unfold GuiThread.Opened
    dsimp only
    cases hc : s.caller r.id <;> rw [hc] at hactive <;> first | exact hgranted | cases hactive
  · rw [Function.update_of_ne hi] at hw
    refine Opened.kept (h.opened i id hw) rfl (fun hgranted => ?_) fun _ => rfl
    obtain ⟨hgood, hdone | ⟨q, hq, -⟩⟩ := replied_or_ready hgranted (by rw [hg]; exact fun _ _ heq => by cases heq)
    · exact .inr ⟨hgood, .inl hdone⟩
    · rw [hg] at hq
      cases hq

/-- `*hideReply = r`. -/
private theorem wroteHide (h : Inv s) {r : Request} {wasOpen : Bool} (hg : s.gui = .writeHide r wasOpen) :
    Inv { s with
      hideReply := Function.update s.hideReply r.id wasOpen, strayWrites := s.touch r.id, gui := .lockReply r } := by
  have hbusy : s.gui.busy = some r := by rw [hg]; rfl
  exact h.quietStep rfl (h.touch_busy hbusy) (pending_busy hbusy rfl rfl rfl)
    (by rw [hg]; exact ⟨rfl, rfl, fun _ _ heq => by cases heq⟩) rfl rfl rfl rfl fun _ _ hw => hw

/-- The reply's mutex is free: the GUI thread takes it. -/
private theorem lockedReply (h : Inv s) {r : Request} (hg : s.gui = .lockReply r) (hfree : s.replyMutex r.id = none) :
    Inv { s with
      replyMutex := Function.update s.replyMutex r.id (some .gui), strayWrites := s.touch r.id, gui := .setReady r } := by
  have hbusy : s.gui.busy = some r := by rw [hg]; rfl
  have hunready := h.unready (by rw [hg]; rfl)
  refine h.guided rfl (h.touch_busy hbusy) (pending_busy hbusy rfl rfl rfl) (fun q hq => ?_) (fun id hid => ?_)
    (fun q hq _ hready => absurd hready (hunready q hq)) (fun id hid => .inl hid) fun i id hw => ?_
  · obtain rfl := Option.some.inj hq
    exact Function.update_self _ _ _
  · have hne : id ≠ r.id := by
      rintro rfl
      rw [hfree] at hid
      cases hid
    exact (Function.update_of_ne hne _ _).trans hid
  · refine Opened.kept (h.opened i id hw) rfl (fun hgranted => ?_) fun _ => rfl
    obtain ⟨hgood, hdone | ⟨q, hq, hqid⟩⟩ := replied_or_ready hgranted (by rw [hg]; exact fun _ _ heq => by cases heq)
    · exact .inr ⟨hgood, .inl hdone⟩
    · rw [hg] at hq
      exact .inr ⟨hgood, .inr ⟨q, hq, hqid⟩⟩

/-- `*replyReady = true`, under the mutex. -/
theorem marked (h : Inv s) {r : Request} (hg : s.gui = .setReady r) : Inv { s with
    replyReady := Function.update s.replyReady r.id true, strayWrites := s.touch r.id, gui := .notifyOne r } := by
  have hbusy : s.gui.busy = some r := by rw [hg]; rfl
  have hheld := h.guiHolds r (by rw [hg]; rfl)
  refine h.guided rfl (h.touch_busy hbusy) (pending_busy hbusy rfl rfl rfl) (fun q hq => ?_) (fun id hid => hid)
    (fun q hq _ hready => ?_) (fun id hid => ?_) fun i id hw => ?_
  · obtain rfl := Option.some.inj hq
    exact hheld
  · dsimp only at hready
    by_cases hid : q.id = r.id
    · -- the request that the call waits for is the one being answered
      have hq' := h.awaited q hq
      rw [hid, h.awaited r (mem_busy hbusy)] at hq'
      rw [Option.some.inj hq']
      exact .inl rfl
    · rw [Function.update_of_ne hid] at hready
      rcases h.ready q hq hready with heq | heq <;> rw [hg] at heq <;> cases heq
  · dsimp only at hid
    by_cases heq : id = r.id
    · exact .inr ⟨r, mem_busy hbusy, heq.symm⟩
    · rw [Function.update_of_ne heq] at hid
      exact .inl hid
  · refine Opened.kept (h.opened i id hw) rfl (fun hgranted => ?_) fun _ => rfl
    obtain ⟨hgood, hdone | ⟨q, hq, hqid⟩⟩ := replied_or_ready hgranted (by rw [hg]; exact fun _ _ heq => by cases heq)
    · refine .inr ⟨hgood, .inl ?_⟩
      dsimp only
      by_cases heq : id = r.id
      · rw [heq, Function.update_self]
      · rw [Function.update_of_ne heq]
        exact hdone
    · rw [hg] at hq
      obtain rfl := Option.some.inj hq
      refine .inr ⟨hgood, .inl ?_⟩
      dsimp only
      rw [← hqid, Function.update_self]

/-- Under the mutex, before and after the notification. -/
theorem notified (h : Inv s) {r : Request} (hg : s.gui = .notifyOne r) :
    Inv { s with strayWrites := s.touch r.id, gui := .unlockReply r } := by
  have hbusy : s.gui.busy = some r := by rw [hg]; rfl
  have hheld := h.guiHolds r (by rw [hg]; rfl)
  refine h.guided rfl (h.touch_busy hbusy) (pending_busy hbusy rfl rfl rfl) (fun q hq => ?_) (fun id hid => hid)
    (fun q hq _ hready => ?_) (fun id hid => .inl hid) fun i id hw => ?_
  · obtain rfl := Option.some.inj hq
    exact hheld
  · rcases h.ready q hq hready with heq | heq <;> rw [hg] at heq <;> cases heq
    exact .inr rfl
  · refine Opened.kept (h.opened i id hw) rfl (fun hgranted => ?_) fun _ => rfl
    obtain ⟨hgood, hdone | ⟨q, hq, -⟩⟩ := replied_or_ready hgranted (by rw [hg]; exact fun _ _ heq => by cases heq)
    · exact .inr ⟨hgood, .inl hdone⟩
    · rw [hg] at hq
      cases hq

/-- The mutex is released: the request is done with. -/
private theorem unlockedReply (h : Inv s) {r : Request} (hg : s.gui = .unlockReply r) : Inv { s with
    replyMutex := Function.update s.replyMutex r.id none, strayWrites := s.touch r.id, gui := .handled } := by
  have hbusy : s.gui.busy = some r := by rw [hg]; rfl
  have hheld := h.guiHolds r (by rw [hg]; rfl)
  have hpending : s.pending = r :: (s.batch.filterMap Requests.Entry.request ++ s.queue.filterMap Requests.Entry.request) := by
    rw [pending, hbusy]
    rfl
  have honce := h.once
  rw [hpending, List.nodup_cons] at honce
  refine h.guided rfl (h.touch_busy hbusy) ?_ (fun q hq => by cases hq) (fun id hid => ?_)
    (fun q hq hq' hready => ?_) (fun id hid => .inl hid) fun i id hw => ?_
  · rw [hpending]
    exact List.sublist_cons_self _ _
  · have hne : id ≠ r.id := by
      rintro rfl
      rw [hheld] at hid
      cases hid
    exact (Function.update_of_ne hne _ _).trans hid
  · -- no other pending request is marked, and this one stood there once
    rcases h.ready q hq hready with heq | heq <;> rw [hg] at heq <;> cases heq
    exact absurd hq' honce.1
  · refine Opened.kept (h.opened i id hw) rfl (fun hgranted => ?_) fun _ => rfl
    obtain ⟨hgood, hdone | ⟨q, hq, -⟩⟩ := replied_or_ready hgranted (by rw [hg]; exact fun _ _ heq => by cases heq)
    · exact .inr ⟨hgood, .inl hdone⟩
    · rw [hg] at hq
      cases hq

theorem guiStep (h : Inv s) (hs : s.guiStep = some t) : Inv t := by
  unfold GuiThread.guiStep at hs
  cases hg : s.gui <;> rw [hg] at hs <;> dsimp only at hs
  case top =>
    have hbefore : s.gui.holds = none ∧ s.gui.replied = none ∧ ∀ r result, s.gui ≠ .writeShow r result := by
      rw [hg]
      exact ⟨rfl, rfl, fun _ _ heq => by cases heq⟩
    split at hs <;> cases hs
    · refine h.quietStep rfl h.quiet ?_ hbefore rfl rfl rfl rfl fun _ _ hw => hw
      simp [pending, hg, Gui.busy]
    · refine h.quietStep rfl h.quiet ?_ hbefore rfl rfl rfl rfl fun _ _ hw => hw
      simp [pending, hg, Gui.busy]
  case drain =>
    have hbefore : s.gui.holds = none ∧ s.gui.replied = none ∧ ∀ r result, s.gui ≠ .writeShow r result := by
      rw [hg]
      exact ⟨rfl, rfl, fun _ _ heq => by cases heq⟩
    cases hb : s.batch with
    | nil =>
      rw [hb] at hs
      cases hs
      refine h.quietStep rfl h.quiet ?_ hbefore ?_ rfl rfl rfl fun _ _ hw => hw
      · cases hstop : s.stopRequested <;> simp [pending, hg, Gui.busy]
      · dsimp only
        split <;> rfl
    | cons e rest =>
      rw [hb] at hs
      cases e with
      | quit =>
        cases hs
        refine h.quietStep rfl h.quiet ?_ hbefore rfl rfl rfl rfl fun _ _ hw => hw
        simp only [pending, hg, hb]
        exact List.Sublist.refl _
      | call r =>
        cases hs
        obtain ⟨hbusy, hholds⟩ := handleRequest_gui s r
        refine h.quietStep rfl h.quiet ?_ hbefore hholds rfl rfl rfl fun _ _ hw => hw
        simp only [pending, hg, hb, hbusy]
        exact List.Sublist.refl _
  case handled =>
    have hbefore : s.gui.holds = none ∧ s.gui.replied = none ∧ ∀ r result, s.gui ≠ .writeShow r result := by
      rw [hg]
      exact ⟨rfl, rfl, fun _ _ heq => by cases heq⟩
    split at hs <;> cases hs
    · refine h.quietStep rfl h.quiet ?_ hbefore rfl rfl rfl rfl fun _ _ hw => hw
      simp [pending, hg, Gui.busy]
    · refine h.quietStep rfl h.quiet ?_ hbefore rfl rfl rfl rfl fun _ _ hw => hw
      simp [pending, hg, Gui.busy]
  case detach r =>
    cases hs
    have hbusy : s.gui.busy = some r := by rw [hg]; rfl
    refine h.quietStep rfl h.quiet (pending_busy hbusy rfl rfl rfl)
      (by rw [hg]; exact ⟨rfl, rfl, fun _ _ heq => by cases heq⟩) rfl rfl rfl rfl fun i id hw => ?_
    dsimp only at hw
    by_cases hi : i = r.slotIdx
    · rw [hi, Function.update_self] at hw
      cases hw
    · rwa [Function.update_of_ne hi] at hw
  case writeShow r result =>
    cases hs
    exact h.wroteShow hg
  case writeHide r wasOpen =>
    cases hs
    exact h.wroteHide hg
  case lockReply r =>
    obtain ⟨hfree, heq⟩ := Option.ite_none_right_eq_some.mp hs
    cases heq
    exact h.lockedReply hg hfree
  case setReady r =>
    cases hs
    exact h.marked hg
  case notifyOne r =>
    cases hs
    cases hc : s.caller r.id with
    | waiting q =>
      have hwoken := (h.woken false hc).notified (r := r) hg
      simpa [touch, setCaller, hc, Caller.returned] using hwoken
    | _ =>
      have hnotified := h.notified hg
      exact hnotified
  case unlockReply r =>
    cases hs
    exact h.unlockedReply hg
  case events =>
    cases hs
    refine h.quietStep rfl h.quiet ?_ (by rw [hg]; exact ⟨rfl, rfl, fun _ _ heq => by cases heq⟩) rfl rfl rfl rfl
      fun _ _ hw => hw
    simp [pending, hg, Gui.busy]
  case closing =>
    cases hs
    refine h.quietStep rfl h.quiet ?_ (by rw [hg]; exact ⟨rfl, rfl, fun _ _ heq => by cases heq⟩) rfl rfl rfl rfl
      fun _ _ hw => by cases hw
    simp [pending, hg, Gui.busy]
  all_goals cases hs

theorem keep {a : Act} (h : Inv s) (hok : s.InTime a) (hs : s.step a = some t) : Inv t := by
  cases a with
  | requestShow id slotIdx view =>
    obtain ⟨hc, heq⟩ := Option.ite_none_right_eq_some.mp hs
    cases heq
    unfold GuiThread.requestShow
    split
    · exact h.enter hc (by simp [Caller.request]) (by simp)
    · split
      · exact h.enter hc (by simp [Caller.request]) (by simp)
      · refine h.enter hc (fun r hr => ?_) (by simp)
        obtain rfl := Option.some.inj hr
        rfl
  | requestHide id slotIdx =>
    obtain ⟨hc, heq⟩ := Option.ite_none_right_eq_some.mp hs
    cases heq
    unfold GuiThread.requestHide
    split
    · exact h.enter hc (by simp [Caller.request]) (by simp)
    · split
      · exact h.enter hc (by simp [Caller.request]) (by simp)
      · refine h.enter hc (fun r hr => ?_) (by simp)
        obtain rfl := Option.some.inj hr
        rfl
  | caller id => exact h.callerStep hok hs
  | wake id late =>
    simp only [step] at hs
    split at hs
    · rename_i r hc
      cases hs
      exact h.woken late hc
    · cases hs
  | gui => exact h.guiStep hs
  | attach out =>
    simp only [step, attachStep] at hs
    split at hs
    · rename_i r hg
      have hbusy : s.gui.busy = some r := by rw [hg]; rfl
      split at hs <;> cases hs
      · exact h.attached hg
      · exact h.quietStep rfl h.quiet (pending_busy hbusy rfl rfl rfl)
          (by rw [hg]; exact ⟨rfl, rfl, fun _ _ heq => by cases heq⟩) rfl rfl rfl rfl fun _ _ hw => hw
    · cases hs
  | wmClose i =>
    obtain ⟨hg, heq⟩ := Option.ite_none_right_eq_some.mp hs
    cases heq
    refine h.quietStep rfl h.quiet (List.Sublist.refl _)
      (by rw [hg]; exact ⟨rfl, rfl, fun _ _ heq => by cases heq⟩) (by rw [hg]; rfl) rfl rfl rfl fun j id hw => ?_
    dsimp only at hw
    by_cases hj : j = i
    · rw [hj, Function.update_self] at hw
      cases hw
    · rwa [Function.update_of_ne hj] at hw
  | selectFails =>
    obtain ⟨hg, heq⟩ := Option.ite_none_right_eq_some.mp hs
    cases heq
    refine h.quietStep rfl h.quiet ?_ (by rw [hg]; exact ⟨rfl, rfl, fun _ _ heq => by cases heq⟩) rfl rfl rfl rfl
      fun _ _ hw => hw
    simp [pending, hg, Gui.busy]
  | start =>
    simp only [step] at hs
    split at hs
    · cases hs
      exact h
    · obtain ⟨hg, heq⟩ := Option.ite_none_right_eq_some.mp hs
      cases heq
      refine h.quietStep rfl h.quiet ?_ (by rw [hg]; exact ⟨rfl, rfl, fun _ _ heq => by cases heq⟩) rfl rfl rfl rfl
        fun _ _ hw => hw
      simp [pending, hg, Gui.busy]
  | stop =>
    simp only [step] at hs
    split at hs <;> cases hs
    · exact h.enqueue (e := .quit) fun r hr => by cases hr
    · exact h
  | joined =>
    obtain ⟨hg, heq⟩ := Option.ite_none_right_eq_some.mp hs
    cases heq
    refine h.quietStep rfl h.quiet ?_ (by rw [hg]; exact ⟨rfl, rfl, fun _ _ heq => by cases heq⟩) rfl rfl rfl rfl
      fun _ _ hw => hw
    simp [pending, hg, Gui.busy]

end Inv
instance (s : GuiThread) (a : Act) : Decidable (s.InTime a) :=
  match a with
  | .caller id => inferInstanceAs (Decidable (∀ r ∈ s.pending, s.caller id = .check r true → s.replyReady id = true))
  | .requestShow _ _ _ | .requestHide _ _ | .wake _ _ | .gui | .attach _ | .wmClose _ | .selectFails | .start | .stop
  | .joined => .isTrue trivial

/-- In every run in which no wait ends by its timeout while the GUI thread still has the
request before it, no returned call's cells are touched, and a `RequestShow` that
returned a failure has no window open. -/
theorem settled_while_in_time (as : List Act) (hok : Meets step InTime initial as) :
    Always step Settled initial as :=
  always_of_meets Inv (fun hi hok hs => Inv.keep hi hok hs) (fun {_} hi => hi.settled) Inv.initial hok

/-- A call of `RequestShow` up to its wait. -/
def showAndWait (id : Nat) (slotIdx : Int) : List Act := .requestShow id slotIdx true :: List.replicate 3 (.caller id)

/-- A show in time, and a hide that comes when the thread has been stopped and gives up. -/
def stoppedSession : List Act :=
  .start :: showAndWait 0 2 ++ [.gui, .gui, .attach .ok, .gui, .gui, .gui, .gui, .gui] ++
    List.replicate 3 (.caller 0) ++ [.stop, .requestHide 1 2] ++ List.replicate 3 (.caller 1) ++
    List.replicate 7 .gui ++ .wake 1 true :: List.replicate 3 (.caller 1)

theorem settled_while_in_time_stopped : ∃ t, exec step initial stoppedSession = some t ∧ t.gui = .exited ∧
    t.caller 0 = .returnedShow ⟨true, 0⟩ ∧ t.caller 1 = .returnedHide false ∧
    Always step Settled initial stoppedSession := by
  obtain ⟨t, ht, hview⟩ := Option.map_eq_some_iff.mp
    (show (exec step initial stoppedSession).map (fun t => (t.gui, t.caller 0, t.caller 1)) =
      some (.exited, .returnedShow ⟨true, 0⟩, .returnedHide false) by decide +kernel)
  simp only [Prod.mk.injEq] at hview
  obtain ⟨hgui, hshown, hhidden⟩ := hview
  exact ⟨t, ht, hgui, hshown, hhidden, settled_while_in_time _ (meets_of_checks (by decide +kernel))⟩

/-- `attached()` of the plugin takes longer than a second: the call returns status 5, and
its window opens, its cells written to. -/
theorem shown_after_timeout :
    ∃ t, exec step initial (.start :: showAndWait 0 2 ++ [.gui, .gui, .wake 0 true] ++ List.replicate 3 (.caller 0) ++
        [.attach .ok, .gui]) = some t ∧
      t.caller 0 = .returnedShow ⟨false, 5⟩ ∧ t.windows 2 = some 0 ∧ t.strayWrites = [0] ∧ ¬ t.Settled := by
  obtain ⟨t, ht, hview⟩ := Option.map_eq_some_iff.mp
    (show (exec step initial (.start :: showAndWait 0 2 ++ [.gui, .gui, .wake 0 true] ++ List.replicate 3 (.caller 0) ++
        [.attach .ok, .gui])).map (fun t => (t.caller 0, t.windows 2, t.strayWrites)) =
      some (.returnedShow ⟨false, 5⟩, some 0, [0]) by decide +kernel)
  simp only [Prod.mk.injEq] at hview
  obtain ⟨hcaller, hwindow, hstray⟩ := hview
  refine ⟨t, ht, hcaller, hwindow, hstray, fun h => ?_⟩
  have hquiet := h.quiet
  rw [hstray] at hquiet
  cases hquiet

section Queue
variable {s t : GuiThread}

def requests (s : GuiThread) : RequestQueue Request := ⟨s.queue, s.batch, s.gui.busy⟩

/-- What a step is to the queue. -/
def queueAct (s : GuiThread) : Act → Option (Requests.Act Request)
  | .caller id => match s.caller id with
    | .push r => some (.push (.call r))
    | _ => none
  | .stop => if s.running then some (.push .quit) else none
  | .gui => match s.gui with
    | .top => if s.stopRequested then none else some .swap
    | .drain => s.batch.head?.map .take
    | .unlockReply _ => some .handled
    | .handled => if s.stopRequested then some .leave else none
    | _ => none
  | _ => none

/-- Outside `DrainRequests` there is no `local`. -/
def Drained (s : GuiThread) : Prop :=
  s.gui = .off ∨ s.gui = .top ∨ s.gui = .events ∨ s.gui = .closing ∨ s.gui = .exited → s.batch = []

/-- The GUI thread goes on, with the request it has. -/
private theorem requests_of_going {a : Act} (hview : s.queueAct a = none) (hbusy : t.gui.busy = s.gui.busy)
    (hdrained : t.Drained) (hsame : t.batch = s.batch ∧ t.queue = s.queue) :
    exec RequestQueue.step s.requests (s.queueAct a).toList = some t.requests ∧ t.Drained := by
  refine ⟨?_, hdrained⟩
  rw [hview, requests, requests, hbusy, hsame.1, hsame.2]
  rfl

/-- A thread that leaves the queue, `local` and the place in the loop alone. -/
private theorem requests_of_same {a : Act} (h : s.Drained) (hview : s.queueAct a = none)
    (hsame : t.gui = s.gui ∧ t.batch = s.batch ∧ t.queue = s.queue) :
    exec RequestQueue.step s.requests (s.queueAct a).toList = some t.requests ∧ t.Drained := by
  obtain ⟨hgui, hbatch, hqueue⟩ := hsame
  refine requests_of_going hview (by rw [hgui]) ?_ ⟨hbatch, hqueue⟩
  rw [Drained, hgui, hbatch]
  exact h

private theorem requests_callerStep {id : Nat} (h : s.Drained) (hs : s.callerStep id = some t) :
    exec RequestQueue.step s.requests (s.queueAct (.caller id)).toList = some t.requests ∧ t.Drained := by
  unfold callerStep at hs
  cases hc : s.caller id <;> rw [hc] at hs <;> dsimp only at hs
  case push r =>
    cases hs
    rw [queueAct, hc]
    exact ⟨rfl, h⟩
  case lock r | reacquire r late =>
    obtain ⟨-, heq⟩ := Option.ite_none_right_eq_some.mp hs
    cases heq
    exact requests_of_same h (by rw [queueAct, hc]) ⟨rfl, rfl, rfl⟩
  case check r late | leave r failed =>
    cases hs
    exact requests_of_same h (by rw [queueAct, hc]) ⟨rfl, rfl, rfl⟩
  all_goals cases hs

theorem requests_guiStep (h : s.Drained) (hs : s.guiStep = some t) :
    exec RequestQueue.step s.requests (s.queueAct .gui).toList = some t.requests ∧ t.Drained := by
  unfold guiStep at hs
  cases hg : s.gui <;> rw [hg] at hs <;> dsimp only at hs
  case off | exited | attach => cases hs
  case top =>
    have hbatch : s.batch = [] := h (.inr (.inl hg))
    split at hs <;> rename_i hstop <;> cases hs
    · exact requests_of_going (by rw [queueAct, hg]; exact if_pos hstop) (by rw [hg]; rfl) (fun _ => hbatch) ⟨rfl, rfl⟩
    · refine ⟨?_, by simp [Drained]⟩
      rw [queueAct, hg]
      simp [requests, hstop, hg, hbatch, Gui.busy, exec, RequestQueue.step]
  case drain =>
    have hview : s.queueAct .gui = s.batch.head?.map .take := by rw [queueAct, hg]
    split at hs <;> rename_i hbatch <;> cases hs
    · exact requests_of_going (by rw [hview, hbatch]; rfl) (by rw [hg]; dsimp only; split <;> rfl) (fun _ => hbatch)
        ⟨rfl, rfl⟩
    · refine ⟨?_, by simp [Drained]⟩
      rw [hview, requests, requests, hg, hbatch]
      rfl
    · rename_i r rest
      obtain ⟨hbusy, -⟩ := Inv.handleRequest_gui s r
      refine ⟨?_, ?_⟩
      · rw [hview, requests, requests, hg, hbatch, hbusy]
        simp [Gui.busy, exec, RequestQueue.step, Requests.Entry.request]
      · intro hplace
        rcases hplace with hg | hg | hg | hg | hg <;> dsimp only at hg <;> rw [hg] at hbusy <;> cases hbusy
  case handled =>
    split at hs <;> rename_i hstop <;> cases hs
    · refine ⟨?_, fun _ => rfl⟩
      rw [queueAct, hg]
      simp [requests, hstop, hg, Gui.busy, exec, RequestQueue.step]
    · exact requests_of_going (by rw [queueAct, hg]; exact if_neg hstop) (by rw [hg]; rfl) (by simp [Drained]) ⟨rfl, rfl⟩
  case unlockReply r =>
    cases hs
    refine ⟨?_, by simp [Drained]⟩
    rw [queueAct, hg]
    rfl
  case events =>
    cases hs
    exact requests_of_going (by rw [queueAct, hg]) (by rw [hg]; rfl) (fun _ => h (by simp [hg])) ⟨rfl, rfl⟩
  case closing =>
    cases hs
    exact requests_of_going (by rw [queueAct, hg]) (by rw [hg]; rfl) (fun _ => h (by simp [hg])) ⟨rfl, rfl⟩
  case lockReply r =>
    obtain ⟨-, heq⟩ := Option.ite_none_right_eq_some.mp hs
    cases heq
    exact requests_of_going (by rw [queueAct, hg]) (by rw [hg]; rfl) (by simp [Drained]) ⟨rfl, rfl⟩
  all_goals
    cases hs
    exact requests_of_going (by rw [queueAct, hg]) (by rw [hg]; rfl) (by simp [Drained]) ⟨rfl, rfl⟩

/-- The requests of all the callers, and `Stop`'s, go through the queue. -/
theorem requests_step {a : Act} (h : s.Drained) (hs : s.step a = some t) :
    exec RequestQueue.step s.requests (s.queueAct a).toList = some t.requests ∧ t.Drained := by
  cases a with
  | requestShow id slotIdx view =>
    obtain ⟨-, heq⟩ := Option.ite_none_right_eq_some.mp hs
    cases heq
    refine requests_of_same h rfl ?_
    unfold requestShow
    split
    · exact ⟨rfl, rfl, rfl⟩
    · split <;> exact ⟨rfl, rfl, rfl⟩
  | requestHide id slotIdx =>
    obtain ⟨-, heq⟩ := Option.ite_none_right_eq_some.mp hs
    cases heq
    refine requests_of_same h rfl ?_
    unfold requestHide
    split
    · exact ⟨rfl, rfl, rfl⟩
    · split <;> exact ⟨rfl, rfl, rfl⟩
  | caller id => exact requests_callerStep h hs
  | wake id late =>
    rw [step] at hs
    split at hs <;> cases hs
    exact requests_of_same h rfl ⟨rfl, rfl, rfl⟩
  | gui => exact requests_guiStep h hs
  | attach out =>
    rw [step, attachStep] at hs
    cases hg : s.gui <;> rw [hg] at hs <;> dsimp only at hs <;> try cases hs
    split at hs <;> cases hs <;> exact requests_of_going rfl (by rw [hg]; rfl) (by simp [Drained]) ⟨rfl, rfl⟩
  | wmClose i =>
    obtain ⟨-, heq⟩ := Option.ite_none_right_eq_some.mp hs
    cases heq
    exact requests_of_same h rfl ⟨rfl, rfl, rfl⟩
  | selectFails =>
    obtain ⟨hg, heq⟩ := Option.ite_none_right_eq_some.mp hs
    cases heq
    exact requests_of_going rfl (by rw [hg]; rfl) (fun _ => h (by simp [hg])) ⟨rfl, rfl⟩
  | start =>
    rw [step] at hs
    split at hs
    · cases hs
      exact requests_of_same h rfl ⟨rfl, rfl, rfl⟩
    · obtain ⟨hg, heq⟩ := Option.ite_none_right_eq_some.mp hs
      cases heq
      exact requests_of_going rfl (by rw [hg]; rfl) (fun _ => h (.inl hg)) ⟨rfl, rfl⟩
  | stop =>
    rw [step] at hs
    split at hs <;> rename_i hrunning <;> cases hs
    · rw [queueAct, if_pos hrunning]
      exact ⟨rfl, h⟩
    · exact requests_of_same h (if_neg hrunning) ⟨rfl, rfl, rfl⟩
  | joined =>
    obtain ⟨hg, heq⟩ := Option.ite_none_right_eq_some.mp hs
    cases heq
    exact requests_of_going rfl (by rw [hg]; rfl) (fun _ => h (by simp [hg])) ⟨rfl, rfl⟩

/-- Of all callers' requests the GUI thread takes up each at most once, in the order in which they
were pushed; after a `Quit` it leaves out what is behind it in `local`. -/
theorem requests_in_order {as : List Act} (he : exec step initial as = some t) :
    ((seen step queueAct initial as).filterMap Requests.Act.taken ++ (t.batch ++ t.queue)).Sublist
      ((seen step queueAct initial as).filterMap Requests.Act.pushed) :=
  (RequestQueue.taken_in_order (exec_seen_of_step Drained (fun h hs => (requests_step h hs).2)
    (fun h hs => (requests_step h hs).1) (fun _ => rfl) he)).1

end Queue

end GuiThread
end Plughost.Vst3.GuiCalls
