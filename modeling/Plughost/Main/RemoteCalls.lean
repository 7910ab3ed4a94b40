import Mathlib.Data.List.ReduceOption
import Plughost.Ipc.Chunking
import Plughost.Main.RackService

/-! Calls over the wire: frames of requests arrive in pieces, `controlReader` handles each as
it is complete, and other threads call into the chain and write to the socket between any two
calls and frames of a handler. The host reads a service. -/
namespace Plughost.Main
open Plughost.Runs Plughost.Simulation Plughost.Scripts Plughost.Decoding Plughost.Ipc.ControlPipe Plughost.Vst3

/-- The `ControlMessageTag` of the request. -/
def RequestTag.request : RequestTag → Byte
  | .loadPlugin => 0x10
  | .unloadPlugin => 0x12
  | .slotLoadPlugin => 0x14
  | .slotUnloadPlugin => 0x16
  | .slotSetBypass => 0x18
  | .setChainEnabled => 0x1A
  | .slotListParams => 0x20
  | .slotSetParam => 0x22
  | .slotShowEditor => 0x30
  | .slotHideEditor => 0x32

/-- The comparisons of `controlReader`, from the top. -/
def RequestTag.ofRequest (tag : Byte) : Option RequestTag := all.find? fun request => request.request == tag

private theorem ofRequest_request (tag : RequestTag) : RequestTag.ofRequest tag.request = some tag := by
  cases tag <;> rfl

/-- The frame asks for this; for nothing, when no handler is for its tag. -/
inductive Carries : Frame → Option Request → Prop where
  | request {tag : RequestTag} {p : List Byte} {r : Request} (h : Encodes tag p r) :
    Carries ⟨tag.request, p⟩ (some r)
  | unload (p : List Byte) : Carries ⟨RequestTag.unloadPlugin.request, p⟩ (some .unloadPlugin)
  | other {f : Frame} (h : RequestTag.ofRequest f.tag = none) : Carries f none

/-- What the GUI thread and the plugins answer while one request is handled. -/
structure Around (P V G : Type) where
  gui : GuiThread G V
  plugins : Plugins P V

/-- One step of one thread. -/
inductive Turn (P V C α G : Type) where
  /-- `controlReader` goes round the loop of `RecvAll`, which may complete a message. -/
  | recv (e : Ipc.ControlPipe.Event) (a : Around P V G)
  /-- Its handler makes its next call, or sends its next frame; `answers` are the socket's. -/
  | handle (answers : List Sent)
  /-- Another thread calls into the chain, or the GUI thread changes. -/
  | chain (c : ChainCall P V C α)
  | gui (gui : G)
  /-- The GUI thread runs the callback, and then the callback's next call or frame. -/
  | async (tag : AsyncEventTag) (slotIdx w h : Int)
  | notify (answers : List Sent)
  /-- A thread of a plugin sends a parameter. -/
  | param (slotIdx : Int) (paramId : BitVec 32) (normalizedValue : BitVec 64) (k : Socket)

/-- The control thread's reader and handler, the GUI thread's callback, and what they share. -/
structure Sidecar (P V C α G : Type) where
  reader : Reader
  machine : Machine P V C α G
  stream : Stream
  handler : Handler P V C α G
  callback : Handler P V C α G

/-- What happens at the service: a request of the host is taken up, an errand goes on by a call
or a message, or the other threads do something. -/
inductive Deed (P V C α G : Type) where
  | request (a : Around P V G) (r : Request)
  | handle
  | chain (c : ChainCall P V C α)
  | gui (gui : G)
  | async (tag : AsyncEventTag) (slotIdx w h : Int)
  | notify
  | param (slotIdx : Int) (paramId : BitVec 32) (normalizedValue : BitVec 64)

/-- The service: what it works on, what it has left to do, the requests it has taken up, and
what it has told the host. -/
structure Service (P V C G : Type) where
  studio : Studio P V C G
  errand : Errand P V C G
  notice : Errand P V C G
  served : List Request
  told : List Message

/-- The message that `Recv` has just returned. -/
def arrived (r t : Reader) : Option Frame := (t.messages.drop r.messages.length).head?

namespace Sidecar
variable {P V C α G : Type}

def initial (stream : List Byte) (chain : SlotTable P V C α) (gui : G) : Sidecar P V C α G :=
  ⟨Reader.initial stream, ⟨chain, gui⟩, Stream.initial true, .done, .done⟩

/-- A frame goes out through `sendFrame`; a call sends none. -/
def put (s : Sidecar P V C α G) (answers : List Sent) : Option Frame → Option (Sidecar P V C α G)
  | none => some s
  | some f => (s.stream.step (.send f answers)).map fun stream => { s with stream }

/-- The body of `controlReader`'s loop for a message: the comparisons, and the payload. -/
def handlerOf (a : Around P V G) (f : Frame) : Handler P V C α G :=
  match RequestTag.ofRequest f.tag with
  | none => .done
  | some tag => .ofRead a.gui a.plugins (readRequest f.payload tag)

def step (s : Sidecar P V C α G) : Turn P V C α G → Option (Sidecar P V C α G)
  | .recv e a =>
    if s.handler.isDone then (s.reader.step e).map fun reader => match arrived s.reader reader with
      | none => { s with reader }
      | some f => { s with reader, handler := handlerOf a f }
    else none
  | .handle answers => (s.handler.advance s.machine).bind fun (o, handler, machine) =>
    { s with handler, machine }.put answers o
  | .chain c => (s.machine.chain.call c).map fun p => { s with machine := { s.machine with chain := p.2 } }
  | .gui gui => some { s with machine := { s.machine with gui } }
  | .async tag slotIdx w h =>
    if s.callback.isDone then some { s with callback := .onAsyncEvent tag slotIdx w h } else none
  | .notify answers => (s.callback.advance s.machine).bind fun (o, callback, machine) =>
    { s with callback, machine }.put answers o
  | .param slotIdx paramId normalizedValue k =>
    if slotIdx < 0 ∨ 0xFF < slotIdx then some s
    else (s.stream.step (.trySend (paramChangedFrame (BitVec.ofInt 8 slotIdx) paramId normalizedValue) k.inFlight
      k.sndBuf k.answer)).map fun stream => { s with stream }

/-- What a turn is to the service, for a host that sends `rs`: the trip that completes a frame is
its request, with the answers of that trip, and a parameter is told when it gets through. -/
def deed? (rs : List (Option Request)) (s : Sidecar P V C α G) : Turn P V C α G → Option (Deed P V C α G)
  | .recv e a =>
    if ((s.reader.step e).bind (arrived s.reader)).isSome then
      (rs[s.reader.messages.length]?.join).map (.request a)
    else none
  | .handle _ => some .handle
  | .chain c => some (.chain c)
  | .gui g => some (.gui g)
  | .async tag slotIdx w h => some (.async tag slotIdx w h)
  | .notify _ => some .notify
  | .param slotIdx paramId normalizedValue k =>
    if HasRoom k then some (.param slotIdx paramId normalizedValue) else none

end Sidecar

namespace Service
variable {P V C α G : Type}

def initial (gui : G) : Service P V C G := ⟨⟨Rack.initial, gui⟩, .done, .done, [], []⟩

def step (sampleRate : BitVec 64) (maxBlockSize : Int) (q : Service P V C G) :
    Deed P V C α G → Option (Service P V C G)
  | .request a r =>
    if q.errand.isDone then some { q with
      errand := .serve a.gui a.plugins sampleRate maxBlockSize r, served := q.served ++ [r] }
    else none
  | .handle => (q.errand.advance q.studio).map fun (o, errand, studio) =>
    { q with errand, studio, told := q.told ++ o.toList }
  | .chain c => (q.studio.rack.call sampleRate maxBlockSize c).map fun p =>
    { q with studio := { q.studio with rack := p.2 } }
  | .gui gui => some { q with studio := { q.studio with gui } }
  | .async tag slotIdx w h =>
    if q.notice.isDone then some { q with notice := .notice tag slotIdx w h } else none
  | .notify => (q.notice.advance q.studio).map fun (o, notice, studio) =>
    { q with notice, studio, told := q.told ++ o.toList }
  | .param slotIdx paramId normalizedValue =>
    if slotIdx < 0 ∨ 0xFF < slotIdx then some q
    else some { q with told := q.told ++ [.paramChanged (BitVec.ofInt 8 slotIdx) paramId normalizedValue] }

end Service

namespace Sidecar
variable {P V C α G : Type} {sampleRate : BitVec 64} {maxBlockSize : Int} {fs : List Frame}
  {rs : List (Option Request)} {s t : Sidecar P V C α G} {q : Service P V C G}

/-- No `Recv` gives up on a frame it has begun, a reply fits one frame, the socket takes a reply
or a notice in the end, and it takes a parameter whole or not at all. -/
def Allowed (s : Sidecar P V C α G) : Turn P V C α G → Prop
  | .recv e _ => s.reader.Prompt e
  | .handle answers => ∀ f next, s.handler = .send f next → f.fits = true ∧ Writes f answers
  | .notify answers => ∀ f next, s.callback = .send f next → Writes f answers
  | .chain _ | .gui _ | .async _ _ _ _ => True
  | .param _ _ _ k => DropsWhole k

/-- The sidecar has got as far as the service: with the host's frames and the requests in them,
with the handler and the errand, and with what is on the wire and what was told. -/
structure Follows (sampleRate : BitVec 64) (maxBlockSize : Int) (fs : List Frame) (rs : List (Option Request))
    (s : Sidecar P V C α G) (q : Service P V C G) : Prop where
  sync : s.reader.InSync fs
  machine : Machine.Stands sampleRate maxBlockSize s.machine q.studio
  handler : Handler.Serves sampleRate maxBlockSize s.handler q.errand
  callback : Script.Follows (Machine.Stands sampleRate maxBlockSize) (fun f m => Tells f m ∧ f.fits = true)
    s.callback q.notice
  clean : s.stream.Clean
  delivered : s.stream.delivered = q.told.map Message.frame
  readable : ∀ m ∈ q.told, m.Proper ∧ m.frame.fits = true
  served : q.served = (rs.take s.reader.messages.length).reduceOption

/-- Back-pressure takes a parameter's frame whole, or drops it. -/
private theorem trySend_of_dropsWhole {k : Socket} (h : DropsWhole k) (slot : Byte) (paramId : BitVec 32)
    (value : BitVec 64) :
    trySendNonBlocking true (paramChangedFrame slot paramId value) k.inFlight k.sndBuf k.answer =
      if HasRoom k then ((paramChangedFrame slot paramId value).bytes, true) else ([], false) := by
  have hfit : ¬ kMaxPayloadBytes < 13 := by decide
  have hlen := length_bytes (paramChangedFrame slot paramId value)
  rw [length_paramChangedFrame] at hlen
  rw [trySendNonBlocking, length_paramChangedFrame, if_neg (by decide), if_neg hfit, HasRoom]
  dsimp only
  cases hblock : wouldBlock k.inFlight k.sndBuf (5 + 13) with
  | true => rfl
  | false =>
    rw [if_neg Bool.false_ne_true, Bool.not_false, Bool.true_and]
    cases hanswer : k.answer with
    | eintr | error => rfl
    | accepted n =>
      dsimp only
      rcases h n hanswer with rfl | hn
      · rfl
      · rw [List.take_of_length_le (by omega), Nat.min_eq_right hn]
        simp [hn]

/-- A call that takes its frame whole or not at all leaves the stream clean. -/
private theorem clean_of_perform {st : Stream} (h : st.Clean) {c : Ipc.ControlPipe.Call} {f : Frame} {whole : Bool}
    (hc : c.perform st.isOpen = if whole then ⟨f, f.bytes, some true⟩ else ⟨f, [], some false⟩) :
    ∃ st', st.step c = some st' ∧ st'.Clean ∧ st'.delivered = st.delivered ++ if whole then [f] else [] := by
  rw [Stream.step, h.free, hc]
  refine ⟨_, rfl, ?_⟩
  cases whole with
  | true =>
    have hdelivered : Stream.delivered
        { st with wire := st.wire ++ f.bytes, log := st.log ++ [⟨f, f.bytes, some true⟩], blocked := false } =
        st.delivered ++ [f] := by
      simp [Stream.delivered]
    refine ⟨⟨h.isOpen, rfl, ?_⟩, hdelivered⟩
    refine Eq.trans ?_ (congrArg (List.flatMap Frame.bytes) hdelivered.symm)
    simp [h.wire]
  | false =>
    have hdelivered : Stream.delivered
        { st with wire := st.wire ++ [], log := st.log ++ [⟨f, [], some false⟩], blocked := false } =
        st.delivered ++ [] := by
      simp [Stream.delivered]
    refine ⟨⟨h.isOpen, rfl, ?_⟩, hdelivered⟩
    refine Eq.trans ?_ (congrArg (List.flatMap Frame.bytes) hdelivered.symm)
    simp [h.wire]

private theorem clean_param {st : Stream} (h : st.Clean) {k : Socket} (hk : DropsWhole k) (slot : Byte)
    (paramId : BitVec 32) (value : BitVec 64) : ∃ st',
      st.step (.trySend (paramChangedFrame slot paramId value) k.inFlight k.sndBuf k.answer) = some st' ∧ st'.Clean ∧
      st'.delivered = st.delivered ++ if HasRoom k then [paramChangedFrame slot paramId value] else [] := by
  refine clean_of_perform h ?_
  rw [Ipc.ControlPipe.Call.perform, h.isOpen, trySend_of_dropsWhole hk]
  cases HasRoom k <;> rfl

/-- What a request's frame is handed to is the request's handler. -/
private theorem handlerOf_of_carries {f : Frame} {r : Request} {a : Around P V G} (h : Carries f (some r))
    (hwf : f.WellFormed) :
    (handlerOf a f : Handler P V C α G) = .perform a.gui a.plugins r := by
  cases h with
  | @request tag p r h =>
    have hle : p.length + 1 ≤ kMaxPayloadBytes := hwf
    have hlt : p.length < 2 ^ 32 := lt_of_lt_of_le (Nat.lt_of_succ_le hle) (by decide)
    rw [handlerOf, ofRequest_request]
    dsimp only
    rw [readRequest_of_encodes h hlt]
    rfl
  | unload p => rfl

/-- A trip completes at most one message. -/
private theorem step_messages {r t : Reader} {e : Ipc.ControlPipe.Event} (h : r.step e = some t) :
    t.messages = r.messages ∧ arrived r t = none ∨ ∃ f, t.messages = r.messages ++ [f] ∧ arrived r t = some f := by
  have hsame : ∀ {r t : Reader}, t.messages = r.messages → arrived r t = none := by
    intro r t h
    rw [arrived, h, List.drop_length]
    rfl
  have hmore : ∀ {r t : Reader} {f}, t.messages = r.messages ++ [f] → arrived r t = some f := by
    intro r t f h
    rw [arrived, h, List.drop_left]
    rfl
  suffices hor : t.messages = r.messages ∨ ∃ f, t.messages = r.messages ++ [f] from
    hor.imp (fun h => ⟨h, hsame h⟩) fun ⟨f, h⟩ => ⟨f, h, hmore h⟩
  unfold Reader.step at h
  split at h
  · cases h
  cases e with
  | deadline | pollError | pollTimeout | recvError =>
    cases h
    exact .inl (Reader.messages_retry r)
  | pollEintr | recvEintr =>
    cases h
    exact .inl rfl
  | hangup | eof =>
    cases h
    exact .inl (Reader.messages_closed r)
  | chunk k =>
    dsimp only at h
    split at h <;> cases h
    obtain hres | ⟨f, hres⟩ | ⟨-, hres⟩ := Reader.received_results
      { r with unread := r.unread.drop (min (k + 1) r.pc.need) } (r.unread.take (min (k + 1) r.pc.need))
    · exact .inl (congrArg (List.filterMap RecvResult.frame?) hres)
    · refine .inr ⟨f, ?_⟩
      rw [Reader.messages, hres, List.filterMap_append]
      rfl
    · refine .inl ?_
      rw [Reader.messages, hres, List.filterMap_append]
      exact List.append_nil _

namespace Follows

theorem initial (fs : List Frame) (rs : List (Option Request)) {chain : SlotTable P V C α}
    (h : SlotTable.Stands sampleRate maxBlockSize chain Rack.initial) (gui : G) :
    Follows sampleRate maxBlockSize fs rs (Sidecar.initial (fs.flatMap Frame.bytes) chain gui)
      (Service.initial gui) where
  sync := Reader.InSync.initial fs
  machine := ⟨h, rfl⟩
  handler := .done
  callback := .done
  clean := Stream.Clean.initial
  delivered := rfl
  readable := fun _ hm => absurd hm List.not_mem_nil
  served := rfl

/-- The host reads the messages that were told off the bytes on the wire. -/
theorem reads (h : Follows sampleRate maxBlockSize fs rs s q) :
    decode (times takeMessage q.told.length) s.stream.wire = some q.told := by
  have hwire : s.stream.wire = q.told.flatMap fun m => m.frame.bytes := by
    rw [h.clean.wire, h.delivered, List.flatMap_map]
  rw [hwire]
  exact decode_messages h.readable

/-- A message that fits, or none, goes out as the service tells it. -/
private theorem putting (h : Follows sampleRate maxBlockSize fs rs s q) {answers : List Sent} {o : Option Frame}
    {o' : Option Message} (htells : Option.Rel Tells o o') (hfits : ∀ f ∈ o, f.fits = true ∧ Writes f answers)
    (hs : s.put answers o = some t) : Follows sampleRate maxBlockSize fs rs t { q with told := q.told ++ o'.toList } := by
  cases htells with
  | none =>
    cases hs
    rw [Option.toList_none, List.append_nil]
    exact h
  | @some f m hfm =>
    obtain ⟨rfl, hproper⟩ := hfm
    obtain ⟨hfit, hwrites⟩ := hfits _ rfl
    obtain ⟨stream, hstream, hclean, hdelivered⟩ := h.clean.send hwrites
    rw [put, hstream] at hs
    cases hs
    refine ⟨h.sync, h.machine, h.handler, h.callback, hclean, ?_, fun m' hm' => ?_, h.served⟩
    · rw [hdelivered, h.delivered, List.filter_singleton, hfit, List.map_append]
      rfl
    · rcases List.mem_append.mp hm' with hm' | hm'
      · exact h.readable m' hm'
      · rw [List.mem_singleton.mp hm']
        exact ⟨hproper, hfit⟩

/-- The service has taken the same turn, and both are as far again. -/
def Kept (sampleRate : BitVec 64) (maxBlockSize : Int) (fs : List Frame) (rs : List (Option Request))
    (s : Sidecar P V C α G) (q : Service P V C G) (d : Turn P V C α G) (t : Sidecar P V C α G) : Prop :=
  ∃ q', exec (Service.step sampleRate maxBlockSize) q (deed? rs s d).toList = some q' ∧
    Follows sampleRate maxBlockSize fs rs t q'

private theorem kept_of_shown {d : Turn P V C α G} {b : Deed P V C α G} {q' : Service P V C G}
    (hd : deed? rs s d = some b)
    (hq : q.step sampleRate maxBlockSize b = some q') (h : Follows sampleRate maxBlockSize fs rs t q') :
    Kept sampleRate maxBlockSize fs rs s q d t := by
  refine ⟨q', exec_option (fun c hc => ?_) (fun hnone => ?_), h⟩
  · rw [hd] at hc
    cases hc
    exact hq
  · rw [hd] at hnone
    cases hnone

private theorem kept_of_hidden {d : Turn P V C α G} (hd : deed? rs s d = none)
    (h : Follows sampleRate maxBlockSize fs rs t q) :
    Kept sampleRate maxBlockSize fs rs s q d t := by
  refine ⟨q, ?_, h⟩
  rw [hd]
  rfl

/-- The message that has come is the next of the host's, with what it asks for. -/
theorem next (h : Follows sampleRate maxBlockSize fs rs s q) (hrs : List.Forall₂ Carries fs rs) {reader : Reader}
    (hsync : reader.InSync fs) {f : Frame} (hmore : reader.messages = s.reader.messages ++ [f]) :
    ∃ o, Carries f o ∧ f ∈ fs ∧ rs[s.reader.messages.length]? = some o ∧
      (rs.take reader.messages.length).reduceOption = q.served ++ o.toList := by
  obtain ⟨todo, hfs, _⟩ := hsync
  rw [hmore, List.append_assoc] at hfs
  have hrest := List.forall₂_drop s.reader.messages.length hrs
  rw [hfs, List.drop_left, List.singleton_append] at hrest
  obtain ⟨o, later, hcarries, -, hdrop⟩ := List.forall₂_cons_left_iff.mp hrest
  have hat : rs[s.reader.messages.length]? = some o := by
    rw [← List.head?_drop, hdrop]
    rfl
  refine ⟨o, hcarries, by simp [hfs], hat, ?_⟩
  rw [hmore, List.length_append, List.length_singleton, List.take_add_one, hat, List.reduceOption_append, h.served]
  cases o <;> rfl

/-- The control thread gets on with a frame, and takes up the request in it. -/
private theorem kept_recv (hwf : ∀ f ∈ fs, f.WellFormed) (hrs : List.Forall₂ Carries fs rs)
    (h : Follows sampleRate maxBlockSize fs rs s q) {e : Ipc.ControlPipe.Event} {a : Around P V G}
    (hprompt : s.reader.Prompt e) (hs : s.step (.recv e a) = some t) :
    Kept sampleRate maxBlockSize fs rs s q (.recv e a) t := by
  rw [step] at hs
  split at hs
  · rename_i hidle
    have hidle' : q.errand.isDone = true := by rw [← h.handler.isDone_eq, hidle]
    obtain ⟨reader, hreader, rfl⟩ := Option.map_eq_some_iff.mp hs
    have hsync := h.sync.keep hwf hprompt hreader
    obtain ⟨hsame, harrived⟩ | ⟨f, hmore, harrived⟩ := step_messages hreader
    · rw [harrived]
      refine kept_of_hidden ?_ ⟨hsync, h.machine, h.handler, h.callback, h.clean, h.delivered, h.readable, ?_⟩
      · rw [deed?, hreader, Option.bind_some, harrived]
        rfl
      · rw [h.served, ← hsame]
    · rw [harrived]
      obtain ⟨o, hcarries, hmem, hat, hserved⟩ := h.next hrs hsync hmore
      have hdeed : deed? rs s (.recv e a) = o.map (.request a) := by
        rw [deed?, hreader, Option.bind_some, harrived, Option.isSome_some, if_pos rfl, hat]
        rfl
      cases o with
      | none =>
        cases hcarries with
        | other hother =>
          have hnone : handlerOf a f = (.done : Handler P V C α G) := by rw [handlerOf, hother]
          rw [Option.toList_none, List.append_nil] at hserved
          refine kept_of_hidden hdeed ⟨hsync, h.machine, ?_, h.callback, h.clean, h.delivered, h.readable, hserved.symm⟩
          dsimp only
          rw [hnone, ← Script.isDone_iff.mp hidle]
          exact h.handler
      | some r =>
        refine kept_of_shown hdeed (if_pos hidle')
          ⟨hsync, h.machine, ?_, h.callback, h.clean, h.delivered, h.readable, hserved.symm⟩
        dsimp only
        rw [handlerOf_of_carries hcarries (hwf f hmem)]
        exact Handler.serves_perform r
  · cases hs

/-- The handler gets on, and so does the errand. -/
private theorem kept_handle (h : Follows sampleRate maxBlockSize fs rs s q) {answers : List Sent}
    (hok : s.Allowed (.handle answers)) (hs : s.step (.handle answers) = some t) :
    Kept sampleRate maxBlockSize fs rs s q (.handle answers) t := by
  obtain ⟨⟨o, handler, machine⟩, hadvance, hput⟩ := Option.bind_eq_some_iff.mp hs
  obtain ⟨o', errand, studio, hadvance', htells, hserves, hstands⟩ := h.handler.advance h.machine hadvance
  have hnow : Follows sampleRate maxBlockSize fs rs { s with handler, machine } { q with errand, studio } :=
    ⟨h.sync, hstands, hserves, h.callback, h.clean, h.delivered, h.readable, h.served⟩
  refine kept_of_shown rfl (by rw [Service.step, hadvance']; rfl) (hnow.putting htells (fun f hf => ?_) hput)
  rw [Option.mem_def.mp hf] at hadvance
  exact hok f handler (Script.send_of_advance hadvance)

private theorem kept_notify (h : Follows sampleRate maxBlockSize fs rs s q) {answers : List Sent}
    (hok : s.Allowed (.notify answers)) (hs : s.step (.notify answers) = some t) :
    Kept sampleRate maxBlockSize fs rs s q (.notify answers) t := by
  obtain ⟨⟨o, callback, machine⟩, hadvance, hput⟩ := Option.bind_eq_some_iff.mp hs
  obtain ⟨o', notice, studio, hadvance', htells, hserves, hstands⟩ := h.callback.advance h.machine hadvance
  have hnow : Follows sampleRate maxBlockSize fs rs { s with callback, machine } { q with notice, studio } :=
    ⟨h.sync, hstands, h.handler, hserves, h.clean, h.delivered, h.readable, h.served⟩
  have hfits : ∀ f ∈ o, f.fits = true := by
    intro f hf
    cases htells with
    | none => cases hf
    | some hfm =>
      cases hf
      exact hfm.2
  have htold : Option.Rel Tells o o' := by
    cases htells with
    | none => exact .none
    | some hfm => exact .some hfm.1
  refine kept_of_shown rfl (by rw [Service.step, hadvance']; rfl)
    (hnow.putting htold (fun f hf => ⟨hfits f hf, ?_⟩) hput)
  rw [Option.mem_def.mp hf] at hadvance
  exact hok f callback (Script.send_of_advance hadvance)

private theorem kept_param (h : Follows sampleRate maxBlockSize fs rs s q) {slotIdx : Int} {paramId : BitVec 32}
    {value : BitVec 64} {k : Socket} (hk : DropsWhole k) (hs : s.step (.param slotIdx paramId value k) = some t) :
    Kept sampleRate maxBlockSize fs rs s q (.param slotIdx paramId value k) t := by
  have hdeed : deed? rs s (.param slotIdx paramId value k) =
      if HasRoom k then some (.param slotIdx paramId value) else none := rfl
  rw [step] at hs
  by_cases hout : slotIdx < 0 ∨ 0xFF < slotIdx
  · rw [if_pos hout] at hs
    cases hs
    cases hroom : HasRoom k with
    | true =>
      rw [hroom] at hdeed
      exact kept_of_shown hdeed (if_pos hout) h
    | false =>
      rw [hroom] at hdeed
      exact kept_of_hidden hdeed h
  · rw [if_neg hout] at hs
    obtain ⟨stream, hstream, hclean, hdelivered⟩ := clean_param h.clean hk (BitVec.ofInt 8 slotIdx) paramId value
    rw [hstream] at hs
    cases hs
    cases hroom : HasRoom k with
    | true =>
      rw [hroom] at hdeed hdelivered
      refine kept_of_shown hdeed (if_neg hout) ⟨h.sync, h.machine, h.handler, h.callback, hclean, ?_, ?_, h.served⟩
      · rw [hdelivered, h.delivered, List.map_append]
        rfl
      · intro m hm
        rcases List.mem_append.mp hm with hm | hm
        · exact h.readable m hm
        · rw [List.mem_singleton.mp hm]
          refine ⟨trivial, decide_eq_true ?_⟩
          rw [show (Message.paramChanged (BitVec.ofInt 8 slotIdx) paramId value).frame =
            paramChangedFrame (BitVec.ofInt 8 slotIdx) paramId value from rfl, length_paramChangedFrame]
          decide
    | false =>
      rw [hroom] at hdeed hdelivered
      refine kept_of_hidden hdeed ⟨h.sync, h.machine, h.handler, h.callback, hclean, ?_, h.readable, h.served⟩
      rw [hdelivered, h.delivered]
      exact List.append_nil _

/-- One turn of the sidecar. -/
theorem keep (hwf : ∀ f ∈ fs, f.WellFormed) (hrs : List.Forall₂ Carries fs rs)
    (h : Follows sampleRate maxBlockSize fs rs s q) {d : Turn P V C α G} (hok : s.Allowed d)
    (hs : s.step d = some t) : Kept sampleRate maxBlockSize fs rs s q d t := by
  cases d with
  | recv e a => exact kept_recv hwf hrs h hok hs
  | handle answers => exact h.kept_handle hok hs
  | chain c =>
    obtain ⟨p, hcall, ht⟩ := Option.map_eq_some_iff.mp hs
    cases ht
    have halike := h.machine.chain.call c
    rw [hcall] at halike
    cases hspec : q.studio.rack.call sampleRate maxBlockSize c with
    | none =>
      rw [hspec] at halike
      cases halike
    | some p' =>
      rw [hspec] at halike
      cases halike with
      | some hp =>
        have hq : q.step sampleRate maxBlockSize (.chain c : Deed P V C α G) =
            some { q with studio := { q.studio with rack := p'.2 } } := by
          rw [Service.step, hspec]
          rfl
        exact kept_of_shown rfl hq
          ⟨h.sync, ⟨hp.2, h.machine.gui⟩, h.handler, h.callback, h.clean, h.delivered, h.readable, h.served⟩
  | gui g =>
    cases hs
    exact kept_of_shown rfl rfl
      ⟨h.sync, ⟨h.machine.chain, rfl⟩, h.handler, h.callback, h.clean, h.delivered, h.readable, h.served⟩
  | async tag slotIdx w hgt =>
    rw [step] at hs
    split at hs
    · rename_i hidle
      have hidle' : q.notice.isDone = true := by rw [← h.callback.isDone_eq, hidle]
      cases hs
      exact kept_of_shown rfl (if_pos hidle') ⟨h.sync, h.machine, h.handler,
        Handler.serves_onAsyncEvent tag slotIdx w hgt, h.clean, h.delivered, h.readable, h.served⟩
    · cases hs
  | notify answers => exact h.kept_notify hok hs
  | param slotIdx paramId value k => exact h.kept_param hok hs

end Follows

/-- Whatever pieces the host's frames come in and whatever the other threads do between the
calls and the frames of a handler, the bytes the host gets are those of a service that does
the same deeds in the same order, with the same answers of the plugins, and the host reads what
it tells. Once the stream is used up, every request has been taken up, and once the control
thread is back in `Recv`, the last of them has been served. -/
theorem serves_over_wire (hwf : ∀ f ∈ fs, f.WellFormed) (hrs : List.Forall₂ Carries fs rs) (zero : α) (gui : G)
    (ds : List (Turn P V C α G))
    (he : exec step (initial (fs.flatMap Frame.bytes) (SlotTable.initial sampleRate maxBlockSize zero) gui) ds = some s)
    (hm : Meets step Allowed
      (initial (fs.flatMap Frame.bytes) (SlotTable.initial sampleRate maxBlockSize zero) gui) ds) :
    ∃ q, exec (Service.step sampleRate maxBlockSize) (Service.initial gui) (seen step (deed? rs)
        (initial (fs.flatMap Frame.bytes) (SlotTable.initial sampleRate maxBlockSize zero) gui) ds) = some q ∧
      decode (times takeMessage q.told.length) s.stream.wire = some q.told ∧
      q.served = (rs.take s.reader.messages.length).reduceOption ∧
      Machine.Stands sampleRate maxBlockSize s.machine q.studio ∧
      s.handler.isDone = q.errand.isDone ∧ s.callback.isDone = q.notice.isDone ∧
      (s.reader.unread = [] → q.served = rs.reduceOption) := by
  obtain ⟨q, hq, hfollows⟩ := exec_seen_related (fun h hok hs => h.keep hwf hrs hok hs)
    (Follows.initial fs rs (SlotTable.stands_initial sampleRate maxBlockSize zero) gui) hm he
  refine ⟨q, hq, hfollows.reads, hfollows.served, hfollows.machine, hfollows.handler.isDone_eq,
    hfollows.callback.isDone_eq, fun hunread => ?_⟩
  rw [hfollows.served, hfollows.sync.complete hunread, hrs.length_eq, List.take_length]

instance (f : Frame) (ks : List Sent) : Decidable (Writes f ks) :=
  decidable_of_iff (.error ∉ ks ∧ f.bytes.length ≤ ks.countP Sent.takes) ⟨fun h => ⟨h.1, h.2⟩, fun h => ⟨h.1, h.2⟩⟩

instance (k : Socket) : Decidable (DropsWhole k) := match hk : k.answer with
  | .accepted n => decidable_of_iff (n = 0 ∨ 18 ≤ n) ⟨fun h m hm => by cases hk.symm.trans hm; exact h, fun h => h n hk⟩
  | .eintr => isTrue fun m hm => by cases hk.symm.trans hm
  | .error => isTrue fun m hm => by cases hk.symm.trans hm

instance (k : Handler P V C α G) (p : Frame → Prop) [DecidablePred p] : Decidable (∀ f next, k = .send f next → p f) :=
  match k with
  | .done | .call _ _ => isTrue nofun
  | .send f _ => decidable_of_iff (p f) ⟨fun h g next hg => by cases hg; exact h, fun h => h f _ rfl⟩

instance (s : Sidecar P V C α G) : (d : Turn P V C α G) → Decidable (s.Allowed d)
  | .recv e _ => inferInstanceAs (Decidable (s.reader.Prompt e))
  | .handle answers => inferInstanceAs (Decidable (∀ f next, s.handler = .send f next → f.fits = true ∧ Writes f answers))
  | .notify answers => inferInstanceAs (Decidable (∀ f next, s.callback = .send f next → Writes f answers))
  | .chain _ | .gui _ | .async _ _ _ _ => isTrue trivial
  | .param _ _ _ k => inferInstanceAs (Decidable (DropsWhole k))

/-- A GUI thread with an open editor. -/
def oneEditor : GuiThread Unit Unit where
  isRunning := fun _ => true
  start := fun g => (true, g)
  requestShow := fun g _ _ _ _ => (⟨false, 3, 0, 0⟩, g)
  requestHide := fun g _ => (true, g)

/-- A heartbeat and an unload in six pieces. The editor is closed, the host is told, a parameter
gets through, and only then comes the result. -/
theorem serves_over_wire_unload :
    ∃ (ds : List (Turn Unit Unit Unit Unit Unit)) (s : Sidecar Unit Unit Unit Unit Unit)
      (q : Service Unit Unit Unit Unit),
      exec step (initial (Frame.bytes ⟨0x03, []⟩ ++ Frame.bytes ⟨0x16, [2]⟩)
        (SlotTable.initial 0x40E7700000000000 256 ()) ()) ds = some s ∧
      exec (Service.step 0x40E7700000000000 256) (Service.initial ()) (seen step
        (deed? [none, some (.slotUnloadPlugin 2)]) (initial (Frame.bytes ⟨0x03, []⟩ ++ Frame.bytes ⟨0x16, [2]⟩)
          (SlotTable.initial 0x40E7700000000000 256 ()) ()) ds) = some q ∧
      q.served = [.slotUnloadPlugin 2] ∧ decode (times takeMessage q.told.length) s.stream.wire = some q.told ∧
      s.stream.wire = (editorClosed 2).bytes ++ (paramChangedFrame 2 7 0).bytes ++ (slotUnloadResult 2 1).bytes := by
  let a : Around Unit Unit Unit := ⟨oneEditor, nothingInstalled⟩
  let answers : List Sent := List.replicate 7 (.accepted 1)
  let ds : List (Turn Unit Unit Unit Unit Unit) := [.recv (.chunk 3) a, .recv (.chunk 0) a, .recv (.chunk 1) a,
    .recv (.chunk 9) a, .recv (.chunk 9) a, .recv (.chunk 9) a, .handle [], .handle [], .handle [], .handle answers,
    .param 2 7 0 ⟨some 0, some 212992, .accepted 18⟩, .handle [], .handle answers]
  let fs : List Frame := [⟨0x03, []⟩, ⟨0x16, [2]⟩]
  have hrs : List.Forall₂ Carries fs [none, some (.slotUnloadPlugin 2)] :=
    .cons (.other rfl) (.cons (.request (.slotUnloadPlugin 2)) .nil)
  obtain ⟨s, hs, hview⟩ := Option.map_eq_some_iff.mp
    (show (exec step (initial (fs.flatMap Frame.bytes) (SlotTable.initial 0x40E7700000000000 256 ()) ()) ds).map
      (fun s => (s.reader.unread, s.stream.wire)) =
      some ([], (editorClosed 2).bytes ++ (paramChangedFrame 2 7 0).bytes ++ (slotUnloadResult 2 1).bytes) by
        decide +kernel)
  obtain ⟨hunread, hwire⟩ := Prod.mk.inj hview
  obtain ⟨q, hq, hreads, -, -, -, -, hall⟩ :=
    serves_over_wire (by decide) hrs () () ds hs (meets_of_checks (by decide +kernel))
  exact ⟨ds, s, q, hs, hq, hall hunread, hreads, hwire⟩

end Sidecar
end Plughost.Main
