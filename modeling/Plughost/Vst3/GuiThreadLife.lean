import Plughost.Vst3.RequestQueue
import Plughost.Vst3.RunLoopFds
import Plughost.Vst3.SlotTable

/-! The life of the GUI thread: `GuiThread::Start`, `Stop` and the requests, all called by the control
thread, and `ThreadMain` with both of its exits. -/
namespace Plughost.Vst3.GuiLife
open Plughost.Runs Plughost.Simulation Plughost.Vst3.RunLoopFds
open Plughost.Vst3.Requests (Asked RequestKind RequestQueue)

/-- A `Request`, without its view and reply pointers. -/
abbrev Request := Requests.Entry Asked

/-- The errors of `select`. -/
inductive Errno where
  | eintr | ebadf | einval | enomem
  deriving DecidableEq, Repr

/-- What `select` returns; no fd ready is a timeout. -/
inductive SelectResult where
  | ready (fds : List Fd)
  | failed (errno : Errno)
  deriving DecidableEq, Repr

/-- Where the control thread stands. -/
inductive Control where
  | idle
  /-- `Start` has made the thread, and is about to store `running_`. -/
  | created
  /-- `Start` returns. -/
  | started (ok : Bool)
  /-- A request's checks have passed; it is about to be pushed. -/
  | posting (r : Request)
  /-- In `wait_for`, a second at most. -/
  | waiting
  /-- `Stop` is about to push its request, to join the thread, to store `running_`. -/
  | quitting | joining | joined
  deriving DecidableEq, Repr

/-- `Stop` is in progress. -/
def Control.stopping : Control → Bool
  | .quitting | .joining | .joined => true
  | .idle | .created | .started _ | .posting _ | .waiting => false

/-- Where `ThreadMain` stands; `off` when there is no thread to join. -/
inductive Gui where
  | off
  | top
  /-- `DrainRequests`, before the next request. -/
  | draining
  /-- In `HandleShow` or `HandleHide`. -/
  | handling (r : Request)
  /-- `HandleRequest` has returned. -/
  | handled
  /-- X events, idle ticks, timers, and `select`. -/
  | polling
  /-- `DispatchFds`. -/
  | dispatching
  /-- Past the loop: the editors are closed. -/
  | closing
  | exited
  deriving DecidableEq, Repr

/-- There is a thread, and it is in its loop. -/
def Gui.serving : Gui → Bool
  | .off | .closing | .exited => false
  | .top | .draining | .handling _ | .handled | .polling | .dispatching => true

structure GuiThread where
  running : Bool
  stopRequested : Bool
  /-- `thread_.joinable()`. -/
  joinable : Bool
  queue : List Request
  /-- What is left of `local` in `DrainRequests`. -/
  batch : List Request
  runLoop : Option RunLoop
  control : Control
  gui : Gui
  deriving DecidableEq, Repr

inductive Act where
  /-- `Start`; `opened` if `XOpenDisplay` and `pipe` succeed. -/
  | start (opened : Bool)
  | stop
  | requestShow (slotIdx : Int)
  | requestHide (slotIdx : Int)
  /-- The control thread's next statement. -/
  | control
  /-- The GUI thread's next statement. -/
  | gui
  | select (out : SelectResult)
  /-- A plugin registers or unregisters an fd. -/
  | plugin (act : RunLoopFds.Act)
  deriving DecidableEq, Repr

/-- What the two threads do by themselves. -/
def Act.ofHost : Act → Bool
  | .control | .gui => true
  | .start _ | .stop | .requestShow _ | .requestHide _ | .select _ | .plugin _ => false

namespace GuiThread

def initial : GuiThread := ⟨false, false, false, [], [], none, .idle, .off⟩

variable (s : GuiThread)

def start (opened : Bool) : Option GuiThread :=
  if s.running then some { s with control := .started true }
  else if !opened then some { s with control := .started false }
  -- Assigning to a joinable thread ends the process.
  else if s.joinable then none
  else some { s with
    runLoop := some .initial, stopRequested := false, joinable := true, batch := [], gui := .top, control := .created }

def stop : GuiThread := if !s.running && !s.joinable then s else { s with control := .quitting }

/-- `RequestShow` and `RequestHide` up to the queue's lock. -/
def request (kind : RequestKind) (slotIdx : Int) : GuiThread :=
  if !s.running then s
  else match slotIndex slotIdx with
    | none => s
    | some i => { s with control := .posting (.call ⟨kind, i⟩) }

def controlStep : Option GuiThread :=
  match s.control with
  | .idle => none
  | .created => some { s with running := true, control := .started true }
  | .started _ | .waiting => some { s with control := .idle }
  | .posting r => some { s with queue := s.queue ++ [r], control := .waiting }
  | .quitting => some { s with queue := s.queue ++ [.quit], control := .joining }
  | .joining =>
    if !s.joinable then some { s with control := .joined }
    else if s.gui = .exited then some { s with joinable := false, gui := .off, control := .joined }
    else none
  | .joined => some { s with running := false, runLoop := none, control := .idle }

def guiStep : Option GuiThread :=
  match s.gui with
  | .off | .polling | .exited => none
  | .top =>
    if s.stopRequested then some { s with gui := .closing }
    else some { s with batch := s.queue, queue := [], gui := .draining }
  | .draining => match s.batch with
    | [] => some { s with gui := if s.stopRequested then .closing else .polling }
    | .quit :: rest => some { s with batch := rest, stopRequested := true, gui := .handled }
    | r :: rest => some { s with batch := rest, gui := .handling r }
  | .handling _ => some { s with gui := .handled }
  | .handled =>
    if s.stopRequested then some { s with batch := [], gui := .closing } else some { s with gui := .draining }
  | .dispatching => match s.runLoop with
    | none => some { s with gui := .top }
    | some runLoop => match runLoop.snapshot with
      | none => some { s with gui := .top }
      | some [] => (runLoop.step .dispatched).map fun out => { s with runLoop := some out.1, gui := .top }
      | some (_ :: _) => (runLoop.step .call).map fun out => { s with runLoop := some out.1 }
  | .closing => some { s with gui := .exited }

/-- `select` returns, and the loop goes on as it says. -/
def selected : SelectResult → Option GuiThread
  | .failed .eintr => some { s with gui := .top }
  | .failed _ => some { s with gui := .closing }
  | .ready fds => match s.runLoop with
    | none => some { s with gui := .top }
    | some runLoop =>
      let ready := runLoop.collectFds.1.filter (· ∈ fds)
      if ready = [] then some { s with gui := .top }
      else (runLoop.step (.dispatch ready)).map fun out => { s with runLoop := some out.1, gui := .dispatching }

def step (s : GuiThread) : Act → Option GuiThread
  | .start opened => if s.control = .idle then s.start opened else none
  | .stop => if s.control = .idle then some s.stop else none
  | .requestShow slotIdx => if s.control = .idle then some (s.request .requestShow slotIdx) else none
  | .requestHide slotIdx => if s.control = .idle then some (s.request .requestHide slotIdx) else none
  | .control => s.controlStep
  | .gui => s.guiStep
  | .select out => if s.gui = .polling then s.selected out else none
  | .plugin act =>
    if act.ofHost then none
    else s.runLoop.bind fun runLoop => (runLoop.step act).map fun out => { s with runLoop := some out.1 }

/-- The requests that the thread has not come to, in their order. -/
def backlog : List Request := s.batch ++ s.queue

end GuiThread

/-- With `running_` set and no `Stop` in progress the thread is in its loop; so it is when a request is
pushed, and when `Start` reports success. -/
structure Serves (s : GuiThread) : Prop where
  alive : s.running → s.control.stopping = false → s.gui.serving
  posted : ∀ r, s.control = .posting r → s.gui.serving
  success : s.control = .started true → s.gui.serving

/-- And so it stays while both threads go on by themselves. -/
def Safe : GuiThread → Prop := Stays GuiThread.step Act.ofHost Serves

/-- `select` fails, other than by a signal, only during a `Stop`; and no thread is made while the queue
has a `Quit` in it. -/
def Permits (s : GuiThread) : Act → Prop
  | .select (.failed errno) => errno ≠ .eintr → s.control.stopping
  | .start opened => s.running = false → opened → .quit ∉ s.queue
  | _ => True

instance (s : GuiThread) : (act : Act) → Decidable (Permits s act)
  | .select (.failed errno) => inferInstanceAs (Decidable (errno ≠ .eintr → s.control.stopping = true))
  | .start opened => inferInstanceAs (Decidable (s.running = false → opened = true → .quit ∉ s.queue))
  | .stop | .requestShow _ | .requestHide _ | .control | .gui | .select (.ready _) | .plugin _ =>
    inferInstanceAs (Decidable True)

/-- `select` fails by a signal only. -/
def Calm (_ : GuiThread) : Act → Prop
  | .select (.failed errno) => errno = .eintr
  | _ => True

/-- The places at which `local` is empty. -/
def Gui.drained : Gui → Bool
  | .top | .polling | .dispatching => true
  | .off | .draining | .handling _ | .handled | .closing | .exited => false

/-- What the GUI thread's next statement can do. -/
inductive GuiMove (s : GuiThread) : GuiThread → Prop where
  | goOn {gui runLoop} (hfrom : s.gui.serving) (hgui : gui.serving)
      (hdrained : gui.drained → s.gui.drained ∨ s.batch = []) : GuiMove s { s with gui, runLoop }
  | swap (hgui : s.gui = .top) : GuiMove s { s with batch := s.queue, queue := [], gui := .draining }
  | take {r rest} (hgui : s.gui = .draining) (hbatch : s.batch = r :: rest) (hr : r ≠ .quit) :
      GuiMove s { s with batch := rest, gui := .handling r }
  | quit {rest} (hgui : s.gui = .draining) (hbatch : s.batch = .quit :: rest) :
      GuiMove s { s with batch := rest, stopRequested := true, gui := .handled }
  | leave {batch} (hfrom : s.gui.serving) (hstop : s.stopRequested) (hbatch : batch = s.batch ∨ batch = []) :
      GuiMove s { s with batch, gui := .closing }
  | exit (hgui : s.gui = .closing) : GuiMove s { s with gui := .exited }

section Steps
variable {s t : GuiThread} {act : Act} {out : SelectResult}

private theorem guiMove_of_step (h : s.guiStep = some t) : GuiMove s t := by
  unfold GuiThread.guiStep at h
  cases hgui : s.gui with
  | off | polling | exited =>
    rw [hgui] at h
    cases h
  | top =>
    have hserving : s.gui.serving := by rw [hgui]; rfl
    simp only [hgui] at h
    split at h
    · rename_i hstop
      cases h
      exact .leave hserving hstop (.inl rfl)
    · cases h
      exact .swap hgui
  | draining =>
    have hserving : s.gui.serving := by rw [hgui]; rfl
    simp only [hgui] at h
    split at h
    · rename_i hbatch
      cases h
      by_cases hstop : s.stopRequested = true
      · rw [if_pos hstop]
        exact .leave hserving hstop (.inl rfl)
      · rw [if_neg hstop]
        exact .goOn hserving rfl fun _ => .inr hbatch
    · rename_i hbatch
      cases h
      exact .quit hgui hbatch
    · rename_i r rest hne hbatch
      cases h
      exact .take hgui hbatch hne
  | handling r =>
    simp only [hgui] at h
    cases h
    refine .goOn ?_ rfl fun hdrained => ?_
    · rw [hgui]
      rfl
    · cases hdrained
  | handled =>
    have hserving : s.gui.serving := by rw [hgui]; rfl
    simp only [hgui] at h
    split at h
    · rename_i hstop
      cases h
      exact .leave hserving hstop (.inr rfl)
    · cases h
      refine .goOn hserving rfl fun hdrained => ?_
      cases hdrained
  | dispatching =>
    have hserving : s.gui.serving := by rw [hgui]; rfl
    have hdrained : s.gui.drained := by rw [hgui]; rfl
    simp only [hgui] at h
    split at h
    · cases h
      exact .goOn hserving rfl fun _ => .inl hdrained
    split at h
    · cases h
      exact .goOn hserving rfl fun _ => .inl hdrained
    · obtain ⟨out, -, rfl⟩ := Option.map_eq_some_iff.mp h
      exact .goOn hserving rfl fun _ => .inl hdrained
    · obtain ⟨out, -, rfl⟩ := Option.map_eq_some_iff.mp h
      rw [← hgui]
      exact .goOn hserving hserving fun _ => .inl hdrained
  | closing =>
    simp only [hgui] at h
    cases h
    exact .exit hgui

private theorem selected_failed {errno : Errno} (h : errno ≠ .eintr) :
    s.selected (.failed errno) = some { s with gui := .closing } := by
  cases errno with
  | eintr => exact absurd rfl h
  | ebadf | einval | enomem => rfl

/-- After `select` the loop goes on, unless it failed other than by a signal. -/
private theorem guiMove_of_selected (hgui : s.gui = .polling) (hout : ∀ errno, out = .failed errno → errno = .eintr)
    (h : s.selected out = some t) : GuiMove s t := by
  have hserving : s.gui.serving := by rw [hgui]; rfl
  have hdrained : s.gui.drained := by rw [hgui]; rfl
  cases out with
  | failed errno =>
    cases hout errno rfl
    cases h
    exact .goOn hserving rfl fun _ => .inl hdrained
  | ready fds =>
    rw [GuiThread.selected] at h
    split at h
    · cases h
      exact .goOn hserving rfl fun _ => .inl hdrained
    · dsimp only at h
      split at h
      · cases h
        exact .goOn hserving rfl fun _ => .inl hdrained
      · obtain ⟨out, -, rfl⟩ := Option.map_eq_some_iff.mp h
        exact .goOn hserving rfl fun _ => .inl hdrained

private theorem Gui.ne_off {gui : Gui} (h : gui.serving) : gui ≠ .off := by
  rintro rfl
  cases h

/-- What holds in every state, as long as the loop is not left for an error before a `Stop`. -/
structure Inv (s : GuiThread) : Prop where
  alive : s.control.stopping = false → s.running ∨ s.control = .created → s.gui.serving
  off : s.control.stopping = false → s.running = false → s.control ≠ .created → s.gui = .off
  posted : ∀ r, s.control = .posting r → s.running ∧ r ≠ .quit
  started : s.control = .started true → s.running
  joined : s.control = .joined → s.gui = .off
  thread : s.joinable ↔ s.gui ≠ .off
  /-- Before `Stop` pushes its request, no other is on its way. -/
  quiet : s.control.stopping = false ∨ s.control = .quitting → s.gui.serving →
    s.stopRequested = false ∧ .quit ∉ s.backlog

theorem Inv.initial : Inv .initial where
  alive := by
    intro _ h
    cases h with
    | inl hrunning => cases hrunning
    | inr hcreated => cases hcreated
  off := fun _ _ _ => rfl
  posted := by
    intro r h
    cases h
  started := by
    intro h
    cases h
  joined := fun _ => rfl
  thread := by simp [GuiThread.initial]
  quiet := by
    intro _ h
    cases h

private theorem Inv.serves (h : Inv s) : Serves s where
  alive := fun hrunning hstop => h.alive hstop (.inl hrunning)
  posted := by
    intro r hr
    exact h.alive (by rw [hr]; rfl) (.inl (h.posted r hr).1)
  success := by
    intro hs
    exact h.alive (by rw [hs]; rfl) (.inl (h.started hs))

/-- Before a `Stop` a thread is in its loop. -/
private theorem Inv.serving_of_ne_off (h : Inv s) (hstop : s.control.stopping = false) (hgui : s.gui ≠ .off) :
    s.gui.serving := by
  by_cases hcreated : s.control = .created
  · exact h.alive hstop (.inr hcreated)
  · cases hrunning : s.running with
    | true => exact h.alive hstop (.inl hrunning)
    | false => exact absurd (h.off hstop hrunning hcreated) hgui

/-- The GUI thread's part of a step: it leaves its loop only when told to. -/
private theorem Inv.of_gui (h : Inv s)
    (hsame : t.control = s.control ∧ t.running = s.running ∧ t.joinable = s.joinable)
    (hoff : s.gui ≠ .off ∧ t.gui ≠ .off) (hserving : s.control.stopping = false → t.gui.serving)
    (hquiet : s.control.stopping = false ∨ s.control = .quitting → t.gui.serving →
      t.stopRequested = false ∧ .quit ∉ t.backlog) : Inv t := by
  obtain ⟨hcontrol, hrunning, hjoinable⟩ := hsame
  exact
    { alive := fun hstop _ => hserving (hcontrol ▸ hstop)
      off := by
        rw [hcontrol, hrunning]
        exact fun hstop hnot hcreated => absurd (h.off hstop hnot hcreated) hoff.1
      posted := by
        rw [hcontrol, hrunning]
        exact h.posted
      started := by
        rw [hcontrol, hrunning]
        exact h.started
      joined := by
        rw [hcontrol]
        exact fun hjoined => absurd (h.joined hjoined) hoff.1
      thread := by
        rw [hjoinable]
        exact ⟨fun _ => hoff.2, fun _ => h.thread.mpr hoff.1⟩
      quiet := by
        rw [hcontrol]
        exact hquiet }

private theorem guiMove_keeps (h : Inv s) (hmove : GuiMove s t) : Inv t := by
  cases hmove with
  | goOn hfrom hgui hdrained =>
    exact h.of_gui ⟨rfl, rfl, rfl⟩ ⟨Gui.ne_off hfrom, Gui.ne_off hgui⟩ (fun _ => hgui) fun hc _ => h.quiet hc hfrom
  | swap hgui =>
    refine h.of_gui ⟨rfl, rfl, rfl⟩ ⟨by simp [hgui], by simp⟩ (fun _ => rfl) fun hc _ => ?_
    obtain ⟨hstop, hquit⟩ := h.quiet hc (by rw [hgui]; rfl)
    refine ⟨hstop, fun hmem => hquit (List.mem_append_right _ ?_)⟩
    simpa [GuiThread.backlog] using hmem
  | take hgui hbatch hr =>
    refine h.of_gui ⟨rfl, rfl, rfl⟩ ⟨by simp [hgui], by simp⟩ (fun _ => rfl) fun hc _ => ?_
    obtain ⟨hstop, hquit⟩ := h.quiet hc (by rw [hgui]; rfl)
    refine ⟨hstop, fun hmem => hquit ?_⟩
    rw [GuiThread.backlog, hbatch]
    exact List.mem_cons_of_mem _ hmem
  | quit hgui hbatch =>
    refine h.of_gui ⟨rfl, rfl, rfl⟩ ⟨by simp [hgui], by simp⟩ (fun _ => rfl) fun hc _ => ?_
    obtain ⟨-, hquit⟩ := h.quiet hc (by rw [hgui]; rfl)
    rw [GuiThread.backlog, hbatch] at hquit
    exact absurd List.mem_cons_self hquit
  | leave hfrom hstop hbatch =>
    refine h.of_gui ⟨rfl, rfl, rfl⟩ ⟨Gui.ne_off hfrom, by simp⟩ (fun hc => ?_) fun _ hserving => ?_
    · rw [(h.quiet (.inl hc) hfrom).1] at hstop
      cases hstop
    · cases hserving
  | exit hgui =>
    refine h.of_gui ⟨rfl, rfl, rfl⟩ ⟨by simp [hgui], by simp⟩ (fun hc => ?_) fun _ hserving => ?_
    · have hserving := h.serving_of_ne_off hc (by simp [hgui])
      rw [hgui] at hserving
      cases hserving
    · cases hserving

private theorem selected_keeps (h : Inv s) (hgui : s.gui = .polling) (hp : Permits s (.select out))
    (hs : s.selected out = some t) : Inv t := by
  by_cases hout : ∃ errno, out = .failed errno ∧ errno ≠ .eintr
  · obtain ⟨errno, rfl, hne⟩ := hout
    obtain rfl := Option.some.inj ((selected_failed hne).symm.trans hs)
    refine h.of_gui ⟨rfl, rfl, rfl⟩ ⟨by simp [hgui], by simp⟩ (fun hc => ?_) fun _ hserving => ?_
    · rw [hp hne] at hc
      cases hc
    · cases hserving
  · refine guiMove_keeps h (guiMove_of_selected hgui (fun errno heq => ?_) hs)
    by_contra hne
    exact hout ⟨errno, heq, hne⟩

/-- The control thread goes from one place to another with no `Stop` in progress. -/
private theorem Inv.reposition (h : Inv s) (hs : s.control.stopping = false ∧ s.control ≠ .created) {control : Control}
    (hstop : control.stopping = false) (hcreated : control ≠ .created)
    (hposted : ∀ r, control = .posting r → s.running ∧ r ≠ .quit) (hstarted : control = .started true → s.running) :
    Inv { s with control } where
  alive := fun _ hor => h.alive hs.1 (.inl (hor.resolve_right hcreated))
  off := fun _ hrunning _ => h.off hs.1 hrunning hs.2
  posted := hposted
  started := hstarted
  joined := by
    rintro rfl
    cases hstop
  thread := h.thread
  quiet := fun _ => h.quiet (.inl hs.1)

private theorem idle_settled (hidle : s.control = .idle) : s.control.stopping = false ∧ s.control ≠ .created := by
  rw [hidle]
  exact ⟨rfl, by simp⟩

private theorem start_keeps {opened : Bool} (h : Inv s) (hidle : s.control = .idle) (hp : Permits s (.start opened))
    (hs : s.start opened = some t) : Inv t := by
  unfold GuiThread.start at hs
  split at hs
  · rename_i hrunning
    cases hs
    exact h.reposition (idle_settled hidle) rfl (by simp) (by simp) fun _ => hrunning
  rename_i hrunning
  split at hs
  · cases hs
    exact h.reposition (idle_settled hidle) rfl (by simp) (by simp) (by simp)
  rename_i hopened
  split at hs
  · cases hs
  cases hs
  exact
    { alive := fun _ _ => rfl
      off := fun _ _ hcreated => absurd rfl hcreated
      posted := by simp
      started := by simp
      joined := by simp
      thread := by simp
      quiet := fun _ _ => ⟨rfl, hp (by simpa using hrunning) (by simpa using hopened)⟩ }

private theorem stop_keeps (h : Inv s) (hidle : s.control = .idle) : Inv s.stop := by
  unfold GuiThread.stop
  split
  · exact h
  · exact
      { alive := by simp [Control.stopping]
        off := by simp [Control.stopping]
        posted := by simp
        started := by simp
        joined := by simp
        thread := h.thread
        quiet := fun _ => h.quiet (.inl (idle_settled hidle).1) }

private theorem request_keeps {kind : RequestKind} {slotIdx : Int} (h : Inv s) (hidle : s.control = .idle) :
    Inv (s.request kind slotIdx) := by
  unfold GuiThread.request
  split
  · exact h
  rename_i hrunning
  split
  · exact h
  · rename_i i _
    refine h.reposition (idle_settled hidle) rfl (by simp) (fun r hr => ?_) (by simp)
    obtain rfl := Control.posting.inj hr
    exact ⟨by simpa using hrunning, by simp⟩

/-- Once `Stop` has pushed its request, only the thread itself matters. -/
private theorem Inv.of_pushed (hcontrol : t.control = .joining ∨ t.control = .joined)
    (hjoined : t.control = .joined → t.gui = .off) (hthread : t.joinable ↔ t.gui ≠ .off) : Inv t := by
  have hstop : t.control.stopping = true := by rcases hcontrol with heq | heq <;> rw [heq] <;> rfl
  exact
    { alive := by simp [hstop]
      off := by simp [hstop]
      posted := by rcases hcontrol with heq | heq <;> simp [heq]
      started := by rcases hcontrol with heq | heq <;> simp [heq]
      joined := hjoined
      thread := hthread
      quiet := by rcases hcontrol with heq | heq <;> simp [heq, Control.stopping] }

private theorem controlStep_keeps (h : Inv s) (hs : s.controlStep = some t) : Inv t := by
  unfold GuiThread.controlStep at hs
  cases hcontrol : s.control with
  | idle =>
    rw [hcontrol] at hs
    cases hs
  | created =>
    rw [hcontrol] at hs
    cases hs
    exact
      { alive := fun _ _ => h.alive (by rw [hcontrol]; rfl) (.inr hcontrol)
        off := by simp
        posted := by simp
        started := fun _ => rfl
        joined := by simp
        thread := h.thread
        quiet := fun _ => h.quiet (.inl (by rw [hcontrol]; rfl)) }
  | started | waiting =>
    simp only [hcontrol] at hs
    cases hs
    exact h.reposition (by simp [hcontrol, Control.stopping]) rfl (by simp) (by simp) (by simp)
  | posting r =>
    rw [hcontrol] at hs
    cases hs
    have hstop : s.control.stopping = false := by rw [hcontrol]; rfl
    obtain ⟨hrunning, hr⟩ := h.posted r hcontrol
    exact
      { alive := fun _ _ => h.alive hstop (.inl hrunning)
        off := by simp [hrunning]
        posted := by simp
        started := by simp
        joined := by simp
        thread := h.thread
        quiet := by
          intro _ hserving
          obtain ⟨hrequested, hquit⟩ := h.quiet (.inl hstop) hserving
          refine ⟨hrequested, ?_⟩
          rw [GuiThread.backlog, ← List.append_assoc]
          exact fun hmem => (List.mem_append.mp hmem).elim hquit fun hlast => hr (List.mem_singleton.mp hlast).symm }
  | quitting =>
    rw [hcontrol] at hs
    cases hs
    exact .of_pushed (.inl rfl) (by simp) h.thread
  | joining =>
    simp only [hcontrol] at hs
    split at hs
    · rename_i hjoinable
      cases hs
      refine .of_pushed (.inr rfl) (fun _ => not_not.mp fun hgui => ?_) h.thread
      rw [h.thread.mpr hgui] at hjoinable
      cases hjoinable
    · split at hs
      · cases hs
        exact .of_pushed (.inr rfl) (fun _ => rfl) (by simp)
      · cases hs
  | joined =>
    rw [hcontrol] at hs
    cases hs
    have hgui := h.joined hcontrol
    exact
      { alive := by simp
        off := fun _ _ _ => hgui
        posted := by simp
        started := by simp
        joined := by simp
        thread := h.thread
        quiet := by simp [hgui, Gui.serving] }

theorem step_keeps (h : Inv s) (hp : Permits s act) (hs : s.step act = some t) : Inv t := by
  cases act with
  | start opened =>
    obtain ⟨hidle, hs⟩ := Option.ite_none_right_eq_some.mp hs
    exact start_keeps h hidle hp hs
  | stop =>
    obtain ⟨hidle, hs⟩ := Option.ite_none_right_eq_some.mp hs
    exact Option.some.inj hs ▸ stop_keeps h hidle
  | requestShow slotIdx =>
    obtain ⟨hidle, hs⟩ := Option.ite_none_right_eq_some.mp hs
    exact Option.some.inj hs ▸ request_keeps h hidle
  | requestHide slotIdx =>
    obtain ⟨hidle, hs⟩ := Option.ite_none_right_eq_some.mp hs
    exact Option.some.inj hs ▸ request_keeps h hidle
  | control => exact controlStep_keeps h hs
  | gui => exact guiMove_keeps h (guiMove_of_step hs)
  | select out =>
    obtain ⟨hgui, hs⟩ := Option.ite_none_right_eq_some.mp hs
    exact selected_keeps h hgui hp hs
  | plugin act =>
    obtain ⟨-, hs⟩ := Option.ite_none_left_eq_some.mp hs
    obtain ⟨runLoop, -, hs⟩ := Option.bind_eq_some_iff.mp hs
    obtain ⟨out, -, rfl⟩ := Option.map_eq_some_iff.mp hs
    exact { h with quiet := h.quiet }

theorem permits_of_ofHost (hact : act.ofHost) : Permits s act := by
  cases act with
  | control | gui => trivial
  | start | stop | requestShow | requestHide | select | plugin => cases hact

theorem Inv.safe (h : Inv s) : Safe s :=
  stays_of_invariant Inv (fun hi hact hs => step_keeps hi (permits_of_ofHost hact) hs) Inv.serves h

/-- A `Quit` among the requests in hand ends the loop. -/
private theorem leaves_of_quit (batch : List Request) (hquit : .quit ∈ batch) (hgui : s.gui = .draining)
    (hstop : s.stopRequested = false) (hbatch : s.batch = batch) :
    ∃ n t, exec GuiThread.step s (List.replicate n .gui) = some t ∧ t.running = s.running ∧ t.control = s.control ∧
      t.gui = .closing := by
  induction batch generalizing s with
  | nil => cases hquit
  | cons r rest ih =>
    by_cases hr : r = .quit
    · subst hr
      refine ⟨2, { s with batch := [], stopRequested := true, gui := .closing }, ?_, rfl, rfl, rfl⟩
      simp [exec, GuiThread.step, GuiThread.guiStep, hgui, hbatch]
    · have hnext : exec GuiThread.step s [.gui, .gui, .gui] = some { s with batch := rest, gui := .draining } := by
        cases r with
        | quit => exact absurd rfl hr
        | call => simp [exec, GuiThread.step, GuiThread.guiStep, hgui, hbatch, hstop]
      have hrest : .quit ∈ rest := (List.mem_cons.mp hquit).resolve_left (Ne.symm hr)
      obtain ⟨n, t, ht, hrunning, hcontrol, hclosing⟩ :=
        ih (s := { s with batch := rest, gui := .draining }) hrest rfl hstop rfl
      refine ⟨3 + n, t, ?_, hrunning, hcontrol, hclosing⟩
      rw [List.replicate_add, exec_append]
      change (exec GuiThread.step s [.gui, .gui, .gui]).bind _ = _
      rw [hnext]
      exact ht

/-- A loop left with `running_` set, or about to be, is noticed. -/
private theorem permits_of_safe (h : Inv s) (hs : s.step act = some t) (hsafe : Safe t) : Permits s act := by
  cases act with
  | select out =>
    obtain ⟨hgui, hs⟩ := Option.ite_none_right_eq_some.mp hs
    cases out with
    | ready fds => trivial
    | failed errno =>
      intro hne
      by_contra hstop
      have hstop : s.control.stopping = false := by simpa using hstop
      obtain rfl := Option.some.inj ((selected_failed hne).symm.trans hs)
      by_cases hcreated : s.control = .created
      · -- `Start` has yet to store `running_`.
        have hlater := hsafe [.control] { s with gui := .closing, running := true, control := .started true } rfl
          (by simp [exec, GuiThread.step, GuiThread.controlStep, hcreated])
        cases hlater.success rfl
      · cases hrunning : s.running with
        | true => cases (hsafe [] _ rfl rfl).alive hrunning hstop
        | false =>
          have hoff := h.off hstop hrunning hcreated
          rw [hgui] at hoff
          cases hoff
  | start opened =>
    obtain ⟨hidle, hs⟩ := Option.ite_none_right_eq_some.mp hs
    intro hrunning hopened hquit
    unfold GuiThread.start at hs
    rw [if_neg (by simp [hrunning]), if_neg (by simp [hopened])] at hs
    split at hs
    · cases hs
    cases hs
    -- The new thread finds the old `Quit`.
    obtain ⟨n, u, hu, hrun, hcontrol, hgui⟩ := leaves_of_quit (s := { s with
      running := true, runLoop := some .initial, stopRequested := false, joinable := true, batch := s.queue, queue := [],
      gui := .draining, control := .started true }) s.queue hquit rfl rfl rfl
    have hlater := hsafe (.control :: .gui :: List.replicate n .gui) u (by simp [Act.ofHost]) hu
    have hserving := hlater.success hcontrol
    rw [hgui] at hserving
    cases hserving
  | stop | requestShow | requestHide | control | gui | plugin => trivial

end Steps

section Calm
variable {s t : GuiThread} {act : Act} {out : SelectResult}

/-- What holds besides when `select` fails by a signal only: `Stop`'s request comes last, and once
the loop is left nothing is. -/
structure Orderly (s : GuiThread) : Prop where
  drained : s.gui.drained → s.batch = []
  left : s.gui.serving = false → s.backlog = []
  quitting : s.control = .quitting → s.gui.serving
  last : s.control = .joining → s.gui.serving →
    (s.stopRequested = false ∧ ∃ front, s.backlog = front ++ [.quit] ∧ .quit ∉ front) ∨
      s.stopRequested ∧ s.backlog = []

theorem Orderly.initial : Orderly .initial where
  drained := fun _ => rfl
  left := fun _ => rfl
  quitting := by simp [GuiThread.initial]
  last := by simp [GuiThread.initial]

theorem Orderly.of_same (h : Orderly s) (hsame : t.gui = s.gui ∧ t.batch = s.batch ∧ t.queue = s.queue)
    (hcontrol : t.control ≠ .quitting ∧ t.control ≠ .joining) : Orderly t where
  drained := by
    rw [hsame.1, hsame.2.1]
    exact h.drained
  left := by
    rw [GuiThread.backlog, hsame.1, hsame.2.1, hsame.2.2]
    exact h.left
  quitting := fun heq => absurd heq hcontrol.1
  last := fun heq => absurd heq hcontrol.2

/-- When the loop comes to its end, all requests have been taken. -/
private theorem backlog_of_stopRequested (hi : Inv s) (h : Orderly s) (hserving : s.gui.serving)
    (hstop : s.stopRequested) :
    s.control = .joining ∧ s.backlog = [] := by
  have hloud : ¬ (s.control.stopping = false ∨ s.control = .quitting) := by
    intro hc
    rw [(hi.quiet hc hserving).1] at hstop
    cases hstop
  cases hcontrol : s.control with
  | idle | created | started | posting | waiting | quitting => simp [hcontrol, Control.stopping] at hloud
  | joining =>
    rcases h.last hcontrol hserving with ⟨hnot, -⟩ | ⟨-, hnil⟩
    · rw [hnot] at hstop
      cases hstop
    · exact ⟨rfl, hnil⟩
  | joined => exact absurd (hi.joined hcontrol) (Gui.ne_off hserving)

private theorem guiMove_orderly (hi : Inv s) (h : Orderly s) (hmove : GuiMove s t) : Orderly t := by
  cases hmove with
  | goOn hfrom hgui hdrained =>
    exact
      { drained := fun hd => (hdrained hd).elim h.drained id
        left := fun hnot => by simp [hgui] at hnot
        quitting := fun _ => hgui
        last := fun hc _ => h.last hc hfrom }
  | swap hgui =>
    have hbatch := h.drained (by rw [hgui]; rfl)
    have hserving : s.gui.serving := by rw [hgui]; rfl
    exact
      { drained := fun hd => by cases hd
        left := fun hnot => by cases hnot
        quitting := fun _ => rfl
        last := fun hc _ => by simpa [GuiThread.backlog, hbatch] using h.last hc hserving }
  | @take r rest hgui hbatch hr =>
    have hserving : s.gui.serving := by rw [hgui]; rfl
    refine
      { drained := fun hd => by cases hd
        left := fun hnot => by cases hnot
        quitting := fun _ => rfl
        last := fun hc _ => ?_ }
    have hlast := h.last hc hserving
    rw [GuiThread.backlog, hbatch, List.cons_append] at hlast
    rcases hlast with ⟨hstop, front, hfront, hquit⟩ | ⟨-, hnil⟩
    · cases front with
      | nil => exact absurd (List.cons.inj hfront).1 hr
      | cons _ front =>
        exact .inl ⟨hstop, front, (List.cons.inj hfront).2, fun hmem => hquit (List.mem_cons_of_mem _ hmem)⟩
    · cases hnil
  | @quit rest hgui hbatch =>
    have hserving : s.gui.serving := by rw [hgui]; rfl
    refine
      { drained := fun hd => by cases hd
        left := fun hnot => by cases hnot
        quitting := fun _ => rfl
        last := fun hc _ => ?_ }
    have hlast := h.last hc hserving
    rw [GuiThread.backlog, hbatch, List.cons_append] at hlast
    rcases hlast with ⟨-, front, hfront, hquit⟩ | ⟨-, hnil⟩
    · cases front with
      | nil => exact .inr ⟨rfl, (List.cons.inj hfront).2⟩
      | cons r front =>
        rw [← (List.cons.inj hfront).1] at hquit
        exact absurd List.mem_cons_self hquit
    · cases hnil
  | @leave batch hfrom hstop hbatch =>
    obtain ⟨hcontrol, hnil⟩ := backlog_of_stopRequested hi h hfrom hstop
    obtain ⟨hb, hq⟩ := List.append_eq_nil_iff.mp hnil
    exact
      { drained := fun hd => by cases hd
        left := fun _ => by
          change batch ++ s.queue = []
          rw [hq, List.append_nil]
          exact hbatch.elim (fun heq => heq.trans hb) id
        quitting := fun heq => by
          rw [hcontrol] at heq
          cases heq
        last := fun _ hserving => by cases hserving }
  | exit hgui =>
    exact
      { drained := fun hd => by cases hd
        left := fun _ => h.left (by rw [hgui]; rfl)
        quitting := fun heq => by
          have hserving := h.quitting heq
          rw [hgui] at hserving
          cases hserving
        last := fun _ hserving => by cases hserving }

private theorem controlStep_orderly (hi : Inv s) (h : Orderly s) (hs : s.controlStep = some t) : Orderly t := by
  unfold GuiThread.controlStep at hs
  cases hcontrol : s.control with
  | idle =>
    rw [hcontrol] at hs
    cases hs
  | created | started | waiting | joined =>
    simp only [hcontrol] at hs
    cases hs
    exact h.of_same ⟨rfl, rfl, rfl⟩ (by simp)
  | posting r =>
    rw [hcontrol] at hs
    cases hs
    have hserving := hi.serves.posted r hcontrol
    exact
      { drained := h.drained
        left := fun hnot => by simp [hserving] at hnot
        quitting := by simp
        last := by simp }
  | quitting =>
    rw [hcontrol] at hs
    cases hs
    have hserving := h.quitting hcontrol
    obtain ⟨hstop, hquit⟩ := hi.quiet (.inr hcontrol) hserving
    exact
      { drained := h.drained
        left := fun hnot => by simp [hserving] at hnot
        quitting := by simp
        last := fun _ _ => .inl ⟨hstop, s.backlog, (List.append_assoc _ _ _).symm, hquit⟩ }
  | joining =>
    simp only [hcontrol] at hs
    split at hs
    · cases hs
      exact h.of_same ⟨rfl, rfl, rfl⟩ (by simp)
    · split at hs
      · rename_i hgui
        cases hs
        exact
          { drained := fun hd => by cases hd
            left := fun _ => h.left (by rw [hgui]; rfl)
            quitting := by simp
            last := by simp }
      · cases hs

private theorem stop_orderly (hi : Inv s) (h : Orderly s) (hidle : s.control = .idle) : Orderly s.stop := by
  unfold GuiThread.stop
  split
  · exact h
  · rename_i hthread
    have hserving : s.gui.serving := by
      cases hrunning : s.running with
      | true => exact hi.serves.alive hrunning (idle_settled hidle).1
      | false =>
        refine hi.serving_of_ne_off (idle_settled hidle).1 (hi.thread.mp ?_)
        simpa [hrunning] using hthread
    exact
      { drained := h.drained
        left := h.left
        quitting := fun _ => hserving
        last := by simp }

private theorem start_orderly {opened : Bool} (h : Orderly s) (hs : s.start opened = some t) : Orderly t := by
  unfold GuiThread.start at hs
  split at hs
  · cases hs
    exact h.of_same ⟨rfl, rfl, rfl⟩ (by simp)
  split at hs
  · cases hs
    exact h.of_same ⟨rfl, rfl, rfl⟩ (by simp)
  split at hs
  · cases hs
  cases hs
  exact
    { drained := fun _ => rfl
      left := fun hnot => by cases hnot
      quitting := by simp
      last := by simp }

private theorem request_orderly {kind : RequestKind} {slotIdx : Int} (h : Orderly s) :
    Orderly (s.request kind slotIdx) := by
  unfold GuiThread.request
  split
  · exact h
  split
  · exact h
  · exact h.of_same ⟨rfl, rfl, rfl⟩ (by simp)

private theorem step_orderly (hi : Inv s) (h : Orderly s) (hc : Calm s act) (hs : s.step act = some t) : Orderly t := by
  cases act with
  | start opened => exact start_orderly h (Option.ite_none_right_eq_some.mp hs).2
  | stop =>
    obtain ⟨hidle, hs⟩ := Option.ite_none_right_eq_some.mp hs
    exact Option.some.inj hs ▸ stop_orderly hi h hidle
  | requestShow | requestHide =>
    obtain ⟨-, hs⟩ := Option.ite_none_right_eq_some.mp hs
    exact Option.some.inj hs ▸ request_orderly h
  | control => exact controlStep_orderly hi h hs
  | gui => exact guiMove_orderly hi h (guiMove_of_step hs)
  | select out =>
    obtain ⟨hgui, hs⟩ := Option.ite_none_right_eq_some.mp hs
    refine guiMove_orderly hi h (guiMove_of_selected hgui (fun errno heq => ?_) hs)
    subst heq
    exact hc
  | plugin act =>
    obtain ⟨-, hs⟩ := Option.ite_none_left_eq_some.mp hs
    obtain ⟨runLoop, -, hs⟩ := Option.bind_eq_some_iff.mp hs
    obtain ⟨out, -, rfl⟩ := Option.map_eq_some_iff.mp hs
    exact { h with left := h.left, last := h.last }

/-- Then a `Start` that makes a thread finds the queue empty. -/
private theorem permits_of_calm (hi : Inv s) (h : Orderly s) (hc : Calm s act) (hs : s.step act = some t) :
    Permits s act := by
  cases act with
  | select out =>
    cases out with
    | ready fds => trivial
    | failed errno => exact fun hne => absurd hc hne
  | start opened =>
    obtain ⟨hidle, -⟩ := Option.ite_none_right_eq_some.mp hs
    obtain ⟨hstop, hcreated⟩ := idle_settled hidle
    intro hrunning _ hquit
    have hnil := h.left (by rw [hi.off hstop hrunning hcreated]; rfl)
    rw [(List.append_eq_nil_iff.mp hnil).2] at hquit
    cases hquit
  | stop | requestShow | requestHide | control | gui | plugin => trivial

/-- As long as `select` fails by a signal only, the thread serves whenever it should, and every
request pushed has been taken from the queue when it leaves its loop. -/
theorem calm_serves {acts : List Act} (hm : Meets GuiThread.step Calm .initial acts) :
    Always GuiThread.step (fun s => Serves s ∧ (s.gui.serving = false → s.backlog = [])) .initial acts :=
  always_of_meets (fun s => Inv s ∧ Orderly s)
    (fun hi hc hs => ⟨step_keeps hi.1 (permits_of_calm hi.1 hi.2 hc hs) hs, step_orderly hi.1 hi.2 hc hs⟩)
    (fun hi => ⟨hi.1.serves, hi.2.left⟩) ⟨Inv.initial, Orderly.initial⟩ hm

end Calm

/-- The thread is in its loop whenever `running_` says so, in every state and however both threads go
on from there, exactly in the runs in which `select` fails other than by a signal only during a
`Stop` and no later `Start` comes upon the `Quit` that such a failure leaves behind. -/
theorem serves_iff {acts : List Act} {t : GuiThread} (he : exec GuiThread.step .initial acts = some t) :
    Always GuiThread.step Safe .initial acts ↔ Meets GuiThread.step Permits .initial acts :=
  always_iff_meets Inv step_keeps Inv.safe permits_of_safe Inv.initial he

/-- An editor is shown, a signal comes, a plugin's fd is served, the thread stopped and started again. -/
def session : List Act :=
  [.start true, .gui, .gui, .control, .control, .requestShow 0, .control, .select (.failed .eintr), .gui, .gui,
    .plugin (.register (some 10) 7), .gui, .gui, .gui, .control, .select (.ready [7]), .gui, .gui, .stop, .control, .gui,
    .gui, .gui, .gui, .control, .control, .start true, .control, .control]

theorem serves_iff_session : ∃ t, exec GuiThread.step .initial session = some t ∧ t.running = true ∧
    Always GuiThread.step Safe .initial session :=
  ⟨_, rfl, rfl, (serves_iff rfl).mpr (meets_of_checks (by decide))⟩

/-- A plugin has closed an fd that it registered; then `Start` and `RequestShow` are called again. -/
def closedFd : List Act :=
  [.start true, .control, .control, .gui, .gui, .plugin (.register (some 10) 7), .select (.failed .ebadf), .start true,
    .control, .requestShow 0, .control]

/-- The same during a `Stop`, and then a `Start`. -/
def staleQuit : List Act :=
  [.start true, .control, .control, .gui, .gui, .stop, .control, .select (.failed .ebadf), .gui, .control, .control,
    .start true, .control, .gui, .gui, .gui]

/-- `running_` stays set without a thread, and the request is queued to nobody; the thread started
after such a `Stop` ends at once. -/
theorem closedFd_not_served :
    (∃ t, exec GuiThread.step .initial closedFd = some t ∧ t.running = true ∧ t.gui = .closing ∧
      t.queue = [.call ⟨.requestShow, 0⟩] ∧ ¬ Always GuiThread.step Serves .initial closedFd) ∧
    ∃ t, exec GuiThread.step .initial staleQuit = some t ∧ t.running = true ∧ t.gui = .closing ∧
      ¬ Always GuiThread.step Serves .initial staleQuit := by
  constructor
  · refine ⟨_, rfl, rfl, rfl, rfl, fun h => ?_⟩
    cases (h.end rfl).alive rfl rfl
  · refine ⟨_, rfl, rfl, rfl, fun h => ?_⟩
    cases (h.end rfl).alive rfl rfl

namespace GuiThread
section Queue
variable {s t : GuiThread}

/-- The request that is being handled. -/
def busy (s : GuiThread) : Option Asked :=
  match s.gui with
  | .handling r => r.request
  | _ => none

def requests (s : GuiThread) : RequestQueue Asked := ⟨s.queue, s.batch, s.busy⟩

/-- What a step is to the queue. A new thread has no `local`. -/
def queueAct (s : GuiThread) : Act → Option (Requests.Act Asked)
  | .start opened => if !s.running && opened && !s.joinable then some .leave else none
  | .control => match s.control with
    | .posting r => some (.push r)
    | .quitting => some (.push .quit)
    | _ => none
  | .gui => match s.gui with
    | .top => if s.stopRequested then none else some .swap
    | .draining => s.batch.head?.map .take
    | .handling _ => some .handled
    | .handled => if s.stopRequested then some .leave else none
    | _ => none
  | _ => none

/-- Outside `DrainRequests` there is no `local`. -/
def Drained (s : GuiThread) : Prop :=
  match s.gui with
  | .draining | .handling _ | .handled => True
  | .off | .top | .polling | .dispatching | .closing | .exited => s.batch = []

/-- A step that leaves the queue and `local` alone. -/
theorem requests_of_hidden {act : Act} (hview : s.queueAct act = none) (hbusy : t.busy = s.busy) (hdrained : t.Drained)
    (hsame : t.batch = s.batch ∧ t.queue = s.queue) :
    exec RequestQueue.step s.requests (s.queueAct act).toList = some t.requests ∧ t.Drained := by
  refine ⟨?_, hdrained⟩
  rw [hview, requests, requests, hbusy, hsame.1, hsame.2]
  rfl

private theorem requests_start {opened : Bool} (h : s.Drained) (hs : s.start opened = some t) :
    exec RequestQueue.step s.requests (s.queueAct (.start opened)).toList = some t.requests ∧ t.Drained := by
  rw [start] at hs
  split at hs
  · rename_i hrunning
    cases hs
    exact requests_of_hidden (by simp [queueAct, hrunning]) rfl h ⟨rfl, rfl⟩
  split at hs
  · rename_i hopened
    cases hs
    exact requests_of_hidden (by simp at hopened; simp [queueAct, hopened]) rfl h ⟨rfl, rfl⟩
  split at hs
  · cases hs
  · rename_i hrunning hopened hjoinable
    cases hs
    have hnew : (!s.running && opened && !s.joinable) = true := by simp_all
    refine ⟨?_, rfl⟩
    rw [queueAct, if_pos hnew]
    rfl

private theorem requests_controlStep (h : s.Drained) (hs : s.controlStep = some t) :
    exec RequestQueue.step s.requests (s.queueAct .control).toList = some t.requests ∧ t.Drained := by
  unfold controlStep at hs
  cases hc : s.control <;> rw [hc] at hs <;> dsimp only at hs
  case idle => cases hs
  case posting r | quitting =>
    cases hs
    rw [queueAct, hc]
    exact ⟨rfl, h⟩
  case joining =>
    split at hs
    · cases hs
      exact requests_of_hidden (by rw [queueAct, hc]) rfl h ⟨rfl, rfl⟩
    · obtain ⟨hg, heq⟩ := Option.ite_none_right_eq_some.mp hs
      cases heq
      have hbatch : s.batch = [] := by simpa [Drained, hg] using h
      exact requests_of_hidden (by rw [queueAct, hc]) (by simp [busy, hg]) hbatch ⟨rfl, rfl⟩
  all_goals
    cases hs
    exact requests_of_hidden (by rw [queueAct, hc]) rfl h ⟨rfl, rfl⟩

theorem requests_guiStep (h : s.Drained) (hs : s.guiStep = some t) :
    exec RequestQueue.step s.requests (s.queueAct .gui).toList = some t.requests ∧ t.Drained := by
  unfold guiStep at hs
  cases hg : s.gui <;> rw [hg] at hs <;> dsimp only at hs
  case off | polling | exited => cases hs
  case top =>
    have hbatch : s.batch = [] := by simpa [Drained, hg] using h
    split at hs <;> rename_i hstop <;> cases hs
    · exact requests_of_hidden (by simp [queueAct, hg, hstop]) (by simp [busy, hg]) hbatch ⟨rfl, rfl⟩
    · refine ⟨?_, trivial⟩
      simp [queueAct, requests, hstop, busy, hg, hbatch, exec, RequestQueue.step]
  case draining =>
    have hview : s.queueAct .gui = s.batch.head?.map .take := by rw [queueAct, hg]
    split at hs <;> rename_i hbatch <;> cases hs
    · cases s.stopRequested <;>
        exact requests_of_hidden (by rw [hview, hbatch]; rfl) (by simp [busy, hg]) hbatch ⟨rfl, rfl⟩
    · refine ⟨?_, trivial⟩
      rw [hview, hbatch]
      simp [requests, busy, hg, hbatch, exec, RequestQueue.step, Requests.Entry.request]
    · refine ⟨?_, trivial⟩
      rw [hview, hbatch]
      simp [requests, busy, hg, hbatch, exec, RequestQueue.step]
  case handling r =>
    cases hs
    refine ⟨?_, trivial⟩
    rw [queueAct, hg]
    rfl
  case handled =>
    split at hs <;> rename_i hstop <;> cases hs
    · refine ⟨?_, rfl⟩
      simp [queueAct, requests, hstop, busy, hg, exec, RequestQueue.step]
    · exact requests_of_hidden (by simp [queueAct, hg, hstop]) (by simp [busy, hg]) trivial ⟨rfl, rfl⟩
  case dispatching =>
    have hbatch : s.batch = [] := by simpa [Drained, hg] using h
    have hview : s.queueAct .gui = none := by rw [queueAct, hg]
    split at hs
    · cases hs
      exact requests_of_hidden hview (by simp [busy, hg]) hbatch ⟨rfl, rfl⟩
    split at hs
    · cases hs
      exact requests_of_hidden hview (by simp [busy, hg]) hbatch ⟨rfl, rfl⟩
    · obtain ⟨out, -, rfl⟩ := Option.map_eq_some_iff.mp hs
      exact requests_of_hidden hview (by simp [busy, hg]) hbatch ⟨rfl, rfl⟩
    · obtain ⟨out, -, rfl⟩ := Option.map_eq_some_iff.mp hs
      exact requests_of_hidden hview (by simp [busy, hg]) hbatch ⟨rfl, rfl⟩
  case closing =>
    cases hs
    have hbatch : s.batch = [] := by simpa [Drained, hg] using h
    exact requests_of_hidden (by rw [queueAct, hg]) (by simp [busy, hg]) hbatch ⟨rfl, rfl⟩

private theorem requests_selected {out : SelectResult} (h : s.Drained) (hg : s.gui = .polling)
    (hs : s.selected out = some t) :
    exec RequestQueue.step s.requests (s.queueAct (.select out)).toList = some t.requests ∧ t.Drained := by
  have hbatch : s.batch = [] := by simpa [Drained, hg] using h
  have hgo : ∀ {gui : Gui} {runLoop : Option RunLoop}, gui = .top ∨ gui = .closing ∨ gui = .dispatching →
      t = { s with gui, runLoop } →
      exec RequestQueue.step s.requests (s.queueAct (.select out)).toList = some t.requests ∧ t.Drained := by
    rintro gui runLoop hplace rfl
    rcases hplace with rfl | rfl | rfl <;> exact requests_of_hidden rfl (by simp [busy, hg]) hbatch ⟨rfl, rfl⟩
  unfold selected at hs
  split at hs
  · cases hs
    exact hgo (.inl rfl) rfl
  · cases hs
    exact hgo (.inr (.inl rfl)) rfl
  · split at hs
    · cases hs
      exact hgo (.inl rfl) rfl
    · dsimp only at hs
      split at hs
      · cases hs
        exact hgo (.inl rfl) rfl
      · obtain ⟨out, -, rfl⟩ := Option.map_eq_some_iff.mp hs
        exact hgo (.inr (.inr rfl)) rfl

/-- The requests of the control thread, and `Stop`'s, go through the queue. -/
theorem requests_step {act : Act} (h : s.Drained) (hs : s.step act = some t) :
    exec RequestQueue.step s.requests (s.queueAct act).toList = some t.requests ∧ t.Drained := by
  cases act with
  | start opened => exact requests_start h (Option.ite_none_right_eq_some.mp hs).2
  | stop =>
    obtain ⟨-, heq⟩ := Option.ite_none_right_eq_some.mp hs
    cases heq
    unfold stop
    split <;> exact requests_of_hidden rfl rfl h ⟨rfl, rfl⟩
  | requestShow slotIdx | requestHide slotIdx =>
    obtain ⟨-, heq⟩ := Option.ite_none_right_eq_some.mp hs
    cases heq
    unfold request
    split
    · exact requests_of_hidden rfl rfl h ⟨rfl, rfl⟩
    · split <;> exact requests_of_hidden rfl rfl h ⟨rfl, rfl⟩
  | control => exact requests_controlStep h hs
  | gui => exact requests_guiStep h hs
  | select out =>
    obtain ⟨hg, hout⟩ := Option.ite_none_right_eq_some.mp hs
    exact requests_selected h hg hout
  | plugin act =>
    rw [step] at hs
    split at hs
    · cases hs
    · obtain ⟨runLoop, -, hrun⟩ := Option.bind_eq_some_iff.mp hs
      obtain ⟨out, -, rfl⟩ := Option.map_eq_some_iff.mp hrun
      exact requests_of_hidden rfl rfl h ⟨rfl, rfl⟩

/-- Over any calls of `Start` and `Stop` the thread takes up each request at most once, in the order
in which they were pushed. -/
theorem requests_in_order {acts : List Act} (he : exec step .initial acts = some t) :
    ((seen step queueAct .initial acts).filterMap Requests.Act.taken ++ (t.batch ++ t.queue)).Sublist
      ((seen step queueAct .initial acts).filterMap Requests.Act.pushed) :=
  have hinitial : Drained .initial := rfl
  (RequestQueue.taken_in_order (exec_seen_of_step Drained (fun h hs => (requests_step h hs).2)
    (fun h hs => (requests_step h hs).1) hinitial he)).1

end Queue
end GuiThread

end Plughost.Vst3.GuiLife
