import Plughost.Main.ReplySizes
import Plughost.Main.RequestParsing

/-! Requests and their answers: what `controlReader` puts on the wire for one request
after the other, on a socket that stays connected and writable. -/
namespace Plughost.Main
open Plughost.Runs Plughost.Ipc.ControlPipe Plughost.Vst3

/-- There is a reply to the request, and one frame holds it. -/
def Request.Answerable {P V C α : Type} (w : Plugins P V) (ch : SlotTable P V C α) : Request → Prop
  | .loadPlugin path => ch.LoadAnswerable w.loader (kMaxPayloadBytes - 1) 0 path
  | .slotLoadPlugin slot path => ch.LoadAnswerable w.loader (kMaxPayloadBytes - 2) slot.toNat path
  | .slotListParams slot => ch.ListAnswerable w.listParams slot.toNat
  | _ => True

def Request.tag : Request → RequestTag
  | .loadPlugin _ => .loadPlugin
  | .unloadPlugin => .unloadPlugin
  | .slotLoadPlugin _ _ => .slotLoadPlugin
  | .slotUnloadPlugin _ => .slotUnloadPlugin
  | .slotSetBypass _ _ => .slotSetBypass
  | .setChainEnabled _ => .setChainEnabled
  | .slotListParams _ => .slotListParams
  | .slotSetParam _ _ _ => .slotSetParam
  | .slotShowEditor _ => .slotShowEditor
  | .slotHideEditor _ => .slotHideEditor

private theorem Encodes.tag_eq {tag : RequestTag} {p : List Byte} {r : Request} (h : Encodes tag p r) :
    r.tag = tag := by
  cases h <;> rfl

theorem Encodes.namesSlot {tag : RequestTag} {p : List Byte} {r : Request} {slot : Byte} (h : Encodes tag p r)
    (hslot : r.slot = some slot) : tag.namesSlot = true := by
  cases h with
  | loadPlugin | setChainEnabled => cases hslot
  | _ => rfl

section
variable {P V C α G : Type}

/-- A handler sends notices that an editor was closed, and then one answer, which `Send`
takes just when `fits`; a load that crashes leaves only the notices. -/
def Answers (tag : RequestTag) (slot : Byte) (fits : Prop) (t : Control P V C α G) : Outcome P V C α G → Prop
  | .ok t' => ∃ closed f status, t'.sent = t.sent ++ closed ++ [f] ∧ (∀ c ∈ closed, c = editorClosed slot) ∧
      tag.Reports f slot status ∧ (f.fits = true ↔ fits)
  | .error (.crash t') => ¬ fits ∧ ∃ closed, t'.sent = t.sent ++ closed ∧ ∀ c ∈ closed, c = editorClosed slot
  | .error .outside => False

end

private theorem length_appendLoadInfo (body : List Byte) (info : LoadInfo) :
    (appendLoadResult body 0 info.name info.vendor info.version []).length =
      body.length + resultBytes (.ok info) := by
  rw [length_appendLoadResult, if_pos rfl]
  rfl

private theorem length_appendLoadError (body : List Byte) {e : LoadError} (h : e.status ≠ 0) :
    (appendLoadResult body e.status [] [] [] e.message).length = body.length + resultBytes (.error e) := by
  rw [length_appendLoadResult, if_neg h]
  rfl

/-- A payload of `front` bytes and `rest` more. -/
private theorem fits_iff_of_length {f : Frame} {front rest : Nat} (h : f.payload.length = front + rest)
    (hfront : front ≤ kMaxPayloadBytes) : f.fits = true ↔ rest ≤ kMaxPayloadBytes - front := by
  rw [Frame.fits, decide_eq_true_iff, h]
  omega

private theorem fits_loadReply {r : LoadResult} (h : ∀ e, r = .error e → e.status ≠ 0) :
    (loadReply r).fits = true ↔ resultBytes r ≤ kMaxPayloadBytes - 1 := by
  refine fits_iff_of_length ?_ (by decide)
  cases r with
  | ok info => exact length_appendLoadInfo _ _
  | error e => exact length_appendLoadError _ (h e rfl)

private theorem fits_slotLoadReply {r : LoadResult} (slot : Byte) (h : ∀ e, r = .error e → e.status ≠ 0) :
    (slotLoadReply slot r).fits = true ↔ resultBytes r ≤ kMaxPayloadBytes - 2 := by
  refine fits_iff_of_length ?_ (by decide)
  cases r with
  | ok info => exact length_appendLoadInfo _ _
  | error e => exact length_appendLoadError _ (h e rfl)

private theorem reports_chainEnabledResult (slot status : Byte) :
    RequestTag.setChainEnabled.Reports (chainEnabledResult status) slot status := ⟨rfl, rfl, nofun⟩

private theorem reports_loadReply (slot : Byte) (r : LoadResult) :
    ∃ status, RequestTag.loadPlugin.Reports (loadReply r) slot status := by
  cases r with
  | ok info => exact ⟨0, reports_loadResult slot 0 _ _ _ _⟩
  | error e => exact ⟨e.status, reports_loadResult slot e.status _ _ _ _⟩

private theorem reports_slotLoadReply (slot : Byte) (r : LoadResult) :
    ∃ status, RequestTag.slotLoadPlugin.Reports (slotLoadReply slot r) slot status := by
  cases r with
  | ok info => exact ⟨0, reports_slotLoadResult slot 0 _ _ _ _⟩
  | error e => exact ⟨e.status, reports_slotLoadResult slot e.status _ _ _ _⟩

namespace Control
variable {P V C α G : Type} {g : GuiThread G V} {w : Plugins P V} {t : Control P V C α G} {slot : Byte} {r : Request}
  {tag : RequestTag}

/-- The auto-close sends at most its notice. -/
private theorem sent_closeEditor (g : GuiThread G V) (slot : Byte) (t : Control P V C α G) :
    ∃ closed, (t.closeEditor g slot).sent = t.sent ++ closed ∧ ∀ c ∈ closed, c = editorClosed slot := by
  unfold closeEditor
  dsimp only
  split
  · split
    · exact ⟨[editorClosed slot], rfl, by simp⟩
    · exact ⟨[], (List.append_nil _).symm, by simp⟩
  · exact ⟨[], (List.append_nil _).symm, by simp⟩

/-- It leaves alone what a load needs of the chain. -/
private theorem loadAnswerable_closeEditor {room : Nat} {slotIdx : Int} {path : Path} :
    (t.closeEditor g slot).chain.LoadAnswerable w.loader room slotIdx path ↔
      t.chain.LoadAnswerable w.loader room slotIdx path := by
  unfold closeEditor
  dsimp only
  split
  · split
    · unfold SlotTable.LoadAnswerable
      dsimp only [sendFrame, called]
      rw [SlotTable.sampleRate_releaseEditorView, SlotTable.maxBlockSize_releaseEditorView]
    · exact Iff.rfl
  · exact Iff.rfl

private theorem answers_load {room : Nat} (hroom : 100 ≤ room) {path : Path} {reply : LoadResult → Frame}
    (hreports : ∀ r, ∃ status, tag.Reports (reply r) slot status)
    (hfits : ∀ r, (∀ e, r = .error e → e.status ≠ 0) → ((reply r).fits = true ↔ resultBytes r ≤ room)) :
    Answers tag slot (t.chain.LoadAnswerable w.loader room slot.toNat path) t (t.load g w slot path reply) := by
  obtain ⟨closed, hsent, hclosed⟩ := sent_closeEditor g slot t
  have hsettles := SlotTable.settles_loadSlot hroom w.loader (t.closeEditor g slot).chain slot.toNat path
  rw [loadAnswerable_closeEditor] at hsettles
  unfold load
  dsimp only
  cases hl : (t.closeEditor g slot).chain.loadSlot w.loader slot.toNat path with
  | none =>
    rw [hl] at hsettles
    exact ⟨hsettles, closed, hsent, hclosed⟩
  | some result =>
    obtain ⟨r, chain⟩ := result
    rw [hl] at hsettles
    obtain ⟨hroom', hstatus⟩ := hsettles
    obtain ⟨status, hr⟩ := hreports r
    exact ⟨closed, reply r, status, congrArg (· ++ [reply r]) hsent, hclosed, hr, (hfits r hstatus).trans hroom'⟩

private theorem answers_unload {reply : Byte → Frame} (hreports : ∀ st, tag.Reports (reply st) slot st)
    (hfits : ∀ st, (reply st).fits = true) : Answers tag slot True t (.ok (t.unload g slot reply)) := by
  obtain ⟨closed, hsent, hclosed⟩ := sent_closeEditor g slot t
  exact ⟨closed, _, _, congrArg (· ++ [_]) hsent, hclosed, hreports _, by simp [hfits]⟩

/-- One answer and no notice. -/
private theorem answers_frame {t' : Control P V C α G} {f : Frame} {status : Byte} (hsent : t'.sent = t.sent ++ [f])
    (hreports : tag.Reports f slot status) (hfits : f.fits = true) : Answers tag slot True t (.ok t') :=
  ⟨[], f, status, by simpa using hsent, by simp, hreports, by simp [hfits]⟩

private theorem answers_showEditor : Answers .slotShowEditor slot True t (.ok (t.showEditor g w slot)) := by
  have hfits : ∀ st w h, (slotShowEditorResult slot st w h).fits = true := by
    intro st w h
    unfold slotShowEditorResult
    split <;> rfl
  have hanswer : ∀ {t' : Control P V C α G} {st w h}, t'.sent = t.sent ++ [slotShowEditorResult slot st w h] →
      Answers .slotShowEditor slot True t (.ok t') :=
    fun hsent => answers_frame hsent (reports_slotShowEditorResult slot _ _ _) (hfits _ _ _)
  unfold showEditor
  dsimp only
  split
  · exact hanswer rfl
  · split
    · exact hanswer rfl
    · split
      · exact hanswer rfl
      · split
        · exact hanswer rfl
        · unfold showView
          dsimp only
          split
          · exact hanswer rfl
          · exact hanswer rfl

private theorem answers_hideEditor : Answers .slotHideEditor slot True t (.ok (t.hideEditor g slot)) := by
  have hanswer : ∀ {t' : Control P V C α G} {st}, t'.sent = t.sent ++ [slotHideEditorResult slot st] →
      Answers .slotHideEditor slot True t (.ok t') :=
    fun hsent => answers_frame hsent (reports_of_front List.prefix_rfl rfl) rfl
  unfold hideEditor
  dsimp only
  split
  · exact hanswer rfl
  · split
    · exact hanswer rfl
    · split
      · exact hanswer rfl
      · exact hanswer rfl

/-- Whatever a request finds, its handler answers it. -/
private theorem answers_perform (r : Request) :
    Answers r.tag (r.slot.getD 0) (r.Answerable w t.chain) t (t.perform g w r) := by
  cases r with
  | loadPlugin path => exact answers_load (by decide) (reports_loadReply 0) fun r => fits_loadReply
  | unloadPlugin => exact answers_unload (fun st => ⟨rfl, rfl, nofun⟩) fun st => rfl
  | slotLoadPlugin slot path => exact answers_load (by decide) (reports_slotLoadReply slot) fun r => fits_slotLoadReply slot
  | slotUnloadPlugin slot => exact answers_unload (fun st => reports_of_front List.prefix_rfl rfl) fun st => rfl
  | slotSetBypass slot bypass => exact answers_frame rfl (reports_of_front List.prefix_rfl rfl) rfl
  | setChainEnabled enabled => exact answers_frame rfl (reports_chainEnabledResult 0 0) rfl
  | slotSetParam slot paramId normalized => exact answers_frame rfl (reports_slotSetParamResult _ _ _ _) rfl
  | slotShowEditor slot => exact answers_showEditor
  | slotHideEditor slot => exact answers_hideEditor
  | slotListParams slot =>
    have hsent : (t.listParams w slot).sent = t.sent ++ [] ++ [slotParamListResult slot
        (t.chain.listParams w.listParams slot.toNat).1 (t.chain.listParams w.listParams slot.toNat).2] := by
      rw [List.append_nil]
      rfl
    refine ⟨[], _, _, hsent, by simp, reports_slotParamListResult slot _ _, ?_⟩
    rw [Frame.fits, decide_eq_true_iff]
    exact SlotTable.listParams_fits_iff w.listParams t.chain slot.toNat slot

end Control

/-- Each request is answered, under the slot byte in its payload. -/
private theorem answers_handle {P V C α G : Type} (g : GuiThread G V) (w : Plugins P V) {p : List Byte}
    (hp : p.length < 2 ^ 32) (t : Control P V C α G) (tag : RequestTag) :
    ∃ slot, Answers tag slot (∀ r, Encodes tag p r → r.Answerable w t.chain) t (handle g w p t tag) ∧
      ∀ r s, Encodes tag p r → r.slot = some s → s = slot := by
  by_cases htag : tag = .unloadPlugin
  · subst htag
    have hall : (∀ r, Encodes .unloadPlugin p r → r.Answerable w t.chain) ↔ True := iff_true_intro nofun
    refine ⟨0, ?_, nofun⟩
    rw [hall]
    exact Control.answers_perform (w := w) .unloadPlugin
  · obtain ⟨r, hr, -, heq⟩ | ⟨hnone, f, slot, hreports, hfits, heq⟩ :=
      handle_read (g := g) (w := w) (t := t) (p := p) htag
    · have hall : (∀ r', Encodes tag p r' → r'.Answerable w t.chain) ↔ r.Answerable w t.chain :=
        ⟨fun h => h r hr, fun h r' hr' => hr'.unique hr ▸ h⟩
      refine ⟨r.slot.getD 0, ?_, fun r' s hr' hs => ?_⟩
      · rw [heq, hall, ← hr.tag_eq]
        exact Control.answers_perform r
      · rw [← hr'.unique hr, hs]
        rfl
    · have hno : ∀ {r}, ¬ Encodes tag p r := fun hr => absurd (hnone _ hr) (not_le.mpr hp)
      have hall : (∀ r, Encodes tag p r → r.Answerable w t.chain) ↔ True := iff_true_intro fun r hr => absurd hr hno
      refine ⟨slot, ?_, fun r s hr => absurd hr hno⟩
      rw [heq, hall]
      exact Control.answers_frame rfl hreports hfits

/-- A request as `Recv` delivers it, and what the GUI thread, the plugins and the kernel
answer while it is handled. -/
structure Asked (P V G : Type) where
  tag : RequestTag
  payload : List Byte
  received : payload.length < kMaxPayloadBytes
  gui : GuiThread G V
  plugins : Plugins P V
  kernel : Frame → List Sent
  writable : ∀ f, Writes f (kernel f)

/-- Between two requests the other threads do as they like with the chain and the windows. -/
inductive Event (P V C α G : Type) where
  | request (a : Asked P V G)
  | others (chain : SlotTable P V C α) (gui : G)

structure Session (P V C α G : Type) where
  chain : SlotTable P V C α
  gui : G
  asked : List (RequestTag × List Byte)
  stream : Stream
  crashed : Bool

namespace Session
variable {P V C α G : Type}

def initial (chain : SlotTable P V C α) (gui : G) : Session P V C α G := ⟨chain, gui, [], Stream.initial true, false⟩

/-- What a handler has put together goes out. -/
def sending (s : Session P V C α G) (a : Asked P V G) (t : Control P V C α G) (crashed : Bool) :
    Option (Session P V C α G) :=
  (exec Stream.step s.stream (t.sent.map fun f => .send f (a.kernel f))).map fun stream =>
    ⟨t.chain, t.gui, s.asked ++ [(a.tag, a.payload)], stream, crashed⟩

/-- Nothing happens after a crash. -/
def step (s : Session P V C α G) (e : Event P V C α G) : Option (Session P V C α G) :=
  if s.crashed then none
  else match e with
    | .others chain gui => some { s with chain, gui }
    | .request a => match handle a.gui a.plugins a.payload ⟨s.chain, s.gui, [], []⟩ a.tag with
      | .ok t => s.sending a t false
      | .error (.crash t) => s.sending a t true
      | .error .outside => none

/-- The frames on the wire that are not notices. -/
def results (s : Session P V C α G) : List Frame := s.stream.delivered.filter fun f => f.tag != editorClosedTag

/-- A result of the request's kind, with its slot byte. -/
structure IsAnswer (q : RequestTag × List Byte) (f : Frame) : Prop where
  tag : f.tag = q.1.result
  slot : ∀ r slot, Encodes q.1 q.2 r → r.slot = some slot → f.payload[0]? = some slot

/-- There are only whole frames on the wire, and the results among them answer the
requests one by one. -/
def Answered (s : Session P V C α G) : Prop :=
  s.stream.wire = s.stream.delivered.flatMap Frame.bytes ∧ List.Forall₂ IsAnswer s.asked s.results

/-- The condition on a step: a reply exists and fits into a frame. -/
def Answerable (s : Session P V C α G) : Event P V C α G → Prop
  | .request a => ∀ r, Encodes a.tag a.payload r → r.Answerable a.plugins s.chain
  | .others _ _ => True

variable {s t : Session P V C α G} {a : Asked P V G} {e : Event P V C α G}

private theorem result_ne (tag : RequestTag) : tag.result ≠ editorClosedTag := by
  cases tag <;> decide

/-- The notices are not among the results. -/
private theorem filter_closed {slot : Byte} {closed : List Frame} (h : ∀ c ∈ closed, c = editorClosed slot) :
    (closed.filter Frame.fits).filter (fun f => f.tag != editorClosedTag) = [] := by
  rw [List.filter_eq_nil_iff]
  intro c hc
  rw [h c (List.mem_of_mem_filter hc)]
  exact fun hne => bne_iff_ne.mp hne rfl

/-- What a step with a request puts on the wire: the answer, if `Send` takes it. -/
private theorem results_sending {crashed : Bool} {slot : Byte} {u : Control P V C α G} {closed fs : List Frame}
    (hclean : s.stream.Clean) (hsent : u.sent = closed ++ fs) (hclosed : ∀ c ∈ closed, c = editorClosed slot)
    (hfs : ∀ f ∈ fs, f.tag ≠ editorClosedTag) :
    ∃ t, s.sending a u crashed = some t ∧ t.crashed = crashed ∧ t.stream.Clean ∧
      t.asked = s.asked ++ [(a.tag, a.payload)] ∧ t.results = s.results ++ fs.filter Frame.fits := by
  obtain ⟨stream, hstream, hclean', hdelivered⟩ := hclean.sends a.writable u.sent
  refine ⟨⟨u.chain, u.gui, s.asked ++ [(a.tag, a.payload)], stream, crashed⟩, ?_, rfl, hclean', rfl, ?_⟩
  · rw [sending, hstream]
    rfl
  · have hkeep : (fs.filter Frame.fits).filter (fun f => f.tag != editorClosedTag) = fs.filter Frame.fits := by
      rw [List.filter_eq_self]
      intro f hf
      exact bne_iff_ne.mpr (hfs f (List.mem_of_mem_filter hf))
    simp only [results, hdelivered, hsent, List.filter_append, filter_closed hclosed, hkeep, List.nil_append]

/-- A request is taken up, and its answer is put on the wire just when there is one that fits. -/
private theorem step_request (hclean : s.stream.Clean) (hrun : s.crashed = false) (a : Asked P V G) :
    ∃ t, s.step (.request a) = some t ∧ t.stream.Clean ∧ t.asked = s.asked ++ [(a.tag, a.payload)] ∧
      (s.Answerable (.request a) ∧ t.crashed = false ∧
          (∃ f, IsAnswer (a.tag, a.payload) f ∧ t.results = s.results ++ [f]) ∨
        ¬ s.Answerable (.request a) ∧ t.results = s.results) := by
  have hp : a.payload.length < 2 ^ 32 := a.received.trans (by decide)
  obtain ⟨slot, hanswers, hslot⟩ := answers_handle a.gui a.plugins hp ⟨s.chain, s.gui, [], []⟩ a.tag
  have hstep : s.step (.request a) = match handle a.gui a.plugins a.payload ⟨s.chain, s.gui, [], []⟩ a.tag with
      | .ok t => s.sending a t false
      | .error (.crash t) => s.sending a t true
      | .error .outside => none := by
    rw [step, hrun]
    rfl
  rw [hstep]
  match hh : handle a.gui a.plugins a.payload ⟨s.chain, s.gui, [], []⟩ a.tag with
  | .ok u =>
    rw [hh] at hanswers
    obtain ⟨closed, f, status, hsent, hclosed, hreports, hfits⟩ := hanswers
    have htag : ∀ f' ∈ [f], f'.tag ≠ editorClosedTag := by
      intro f' hf'
      rw [List.mem_singleton.mp hf', hreports.result]
      exact result_ne a.tag
    obtain ⟨t, ht, hgoes, hclean', hasked, hresults⟩ := results_sending (a := a) hclean hsent hclosed htag
    have hanswer : IsAnswer (a.tag, a.payload) f := by
      refine ⟨hreports.result, fun r s hr hs => ?_⟩
      rw [hslot r s hr hs]
      exact hreports.slot (hr.namesSlot hs)
    refine ⟨t, ht, hclean', hasked, ?_⟩
    by_cases hf : f.fits = true
    · exact .inl ⟨hfits.mp hf, hgoes, f, hanswer, by simpa [hf] using hresults⟩
    · exact .inr ⟨fun h => hf (hfits.mpr h), by simpa [hf] using hresults⟩
  | .error (.crash u) =>
    rw [hh] at hanswers
    obtain ⟨hno, closed, hsent, hclosed⟩ := hanswers
    have hnil : u.sent = closed ++ [] := by rw [hsent, List.nil_append, List.append_nil]
    obtain ⟨t, ht, -, hclean', hasked, hresults⟩ := results_sending (a := a) hclean hnil hclosed (by simp)
    exact ⟨t, ht, hclean', hasked, .inr ⟨hno, by simpa using hresults⟩⟩
  | .error .outside =>
    rw [hh] at hanswers
    exact hanswers.elim

/-- The invariant: nothing cut, nothing blocked, and every request so far is answered. -/
structure Inv (s : Session P V C α G) : Prop where
  running : s.crashed = false
  clean : s.stream.Clean
  answered : List.Forall₂ IsAnswer s.asked s.results

theorem Inv.initial (chain : SlotTable P V C α) (gui : G) : Inv (Session.initial chain gui) :=
  ⟨rfl, Stream.Clean.initial, .nil⟩

theorem Inv.safe (h : Inv s) : s.Answered := ⟨h.clean.wire, h.answered⟩

theorem Inv.others (h : Inv s) (chain : SlotTable P V C α) (gui : G) :
    s.step (.others chain gui) = some { s with chain, gui } := by
  rw [step, h.running]
  rfl

theorem Inv.keep (h : Inv s) (hok : s.Answerable e) (hs : s.step e = some t) : Inv t := by
  cases e with
  | others chain gui =>
    rw [h.others] at hs
    cases hs
    exact ⟨h.running, h.clean, h.answered⟩
  | request a =>
    obtain ⟨u, hu, hclean, hasked, ⟨-, hgoes, f, hf, hresults⟩ | ⟨hno, -⟩⟩ := step_request h.clean h.running a
    · obtain rfl : u = t := Option.some.inj (hu.symm.trans hs)
      refine ⟨hgoes, hclean, ?_⟩
      rw [hasked, hresults]
      exact List.rel_append h.answered (.cons hf .nil)
    · exact absurd hok hno

theorem Inv.enabled (h : Inv s) (e : Event P V C α G) : ∃ t, s.step e = some t := by
  cases e with
  | others chain gui => exact ⟨_, h.others chain gui⟩
  | request a =>
    obtain ⟨u, hu, -⟩ := step_request h.clean h.running a
    exact ⟨u, hu⟩

private theorem answerable_of_answered (h : Inv s) (hs : s.step e = some t) (ht : t.Answered) : s.Answerable e := by
  cases e with
  | others chain gui => trivial
  | request a =>
    obtain ⟨u, hu, -, hasked, ⟨hok, -⟩ | ⟨-, hresults⟩⟩ := step_request h.clean h.running a
    · exact hok
    · obtain rfl : u = t := Option.some.inj (hu.symm.trans hs)
      -- one request more than there are results
      have hlen := ht.2.length_eq
      rw [hasked, hresults, List.length_append, ← h.answered.length_eq, List.length_singleton] at hlen
      omega

/-- The requests of a run are all taken up, and each answered exactly once and in order,
just when there is a reply to each that fits into a frame. -/
theorem requests_answered_iff (chain : SlotTable P V C α) (gui : G) (events : List (Event P V C α G)) :
    ((∃ t, exec step (initial chain gui) events = some t) ∧ Always step Answered (initial chain gui) events) ↔
      Meets step Answerable (initial chain gui) events := by
  have hkeep : ∀ {s : Session P V C α G} {e t}, Inv s → Answerable s e → step s e = some t → Inv t :=
    fun hi hok hs => hi.keep hok hs
  constructor
  · rintro ⟨⟨t, he⟩, halways⟩
    exact (always_iff_meets Inv hkeep Inv.safe answerable_of_answered (Inv.initial chain gui) he).mp halways
  · intro hmeets
    exact ⟨exec_of_meets Inv hkeep (fun hi _ => hi.enabled _) (Inv.initial chain gui) hmeets,
      always_of_meets Inv hkeep Inv.safe (Inv.initial chain gui) hmeets⟩

/-- A plugin with 40000 parameters that have no name. -/
def manyParams : Plugins Unit Unit :=
  { nothingInstalled with listParams := fun _ => List.replicate 40000 ⟨0, [], [], 0, 0, 0, 0⟩ }

/-- A chain with that plugin in its first slot. -/
def oneLoaded : SlotTable Unit Unit Unit Unit :=
  let ch := (SlotTable.initial 0x40E7700000000000 256 () : SlotTable Unit Unit Unit Unit)
  ((ch.setPointer .vst3 0 (some ⟨some (), none, none⟩)).setFormat 0 .vst3).setLoaded 0 true

/-- A socket that takes one byte at a time. -/
def byteWise (f : Frame) : List Sent := List.replicate f.bytes.length (.accepted 1)

theorem writes_byteWise (f : Frame) : Writes f (byteWise f) := by
  constructor
  · simp [byteWise]
  · rw [byteWise, List.countP_replicate]
    exact Nat.le_refl _

/-- The list of these parameters is never sent. -/
theorem parameter_list_unanswered :
    ∃ a : Asked Unit Unit Unit, a.tag = .slotListParams ∧ a.payload = [0] ∧
      ∃ t, exec step (initial oneLoaded ()) [.request a] = some t ∧ t.asked = [(.slotListParams, [0])] ∧
        t.results = [] ∧ ¬ Always step Answered (initial oneLoaded ()) [.request a] := by
  let a : Asked Unit Unit Unit :=
    ⟨.slotListParams, [0], by decide, notStarted, manyParams, byteWise, writes_byteWise⟩
  have hinv : Inv (initial oneLoaded ()) := Inv.initial oneLoaded ()
  have hno : ¬ (initial oneLoaded ()).Answerable (.request a) := by
    intro h
    have hlist := h _ (.slotListParams 0) () ⟨0, ⟨some (), none, none⟩, rfl, rfl, rfl, rfl⟩
    have hsum : ((manyParams.listParams ()).map paramBytes).sum = 40000 * 33 := by
      rw [show manyParams.listParams () = List.replicate 40000 ⟨0, [], [], 0, 0, 0, 0⟩ from rfl, List.map_replicate,
        List.sum_replicate_nat]
      rfl
    rw [show a.plugins = manyParams from rfl, hsum, kMaxPayloadBytes] at hlist
    omega
  obtain ⟨t, ht, -, hasked, ⟨hok, -⟩ | ⟨-, hresults⟩⟩ := step_request hinv.clean rfl a
  · exact absurd hok hno
  · have he : exec step (initial oneLoaded ()) [.request a] = some t := by
      rw [exec, ht]
      rfl
    exact ⟨a, rfl, rfl, t, he, hasked, hresults, fun h => hno (answerable_of_answered hinv ht (h.end he))⟩

end Session
end Plughost.Main
