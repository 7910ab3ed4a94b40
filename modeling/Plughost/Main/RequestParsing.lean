import Plughost.Ipc.FrameRoundTrip
import Plughost.Ipc.SendStream
import Plughost.Main.Requests

/-! What `controlReader` makes of a payload: a request just when the bytes are those
of one, and nothing but an answer otherwise. -/
namespace Plughost.Main
open Plughost.Ipc.ControlPipe Plughost.Vst3

/-- The slot that a request is about; the old requests mean slot 0. -/
def Request.slotIdx (r : Request) : Int := (r.slot.getD 0).toNat

/-- The call that a request stands for: the one with all its values, or the first
that its handler makes. -/
def Request.call : Request → Called
  | .loadPlugin path => .loadSlot 0 path
  | .unloadPlugin => .unloadSlot 0
  | .slotLoadPlugin slot path => .loadSlot slot.toNat path
  | .slotUnloadPlugin slot => .unloadSlot slot.toNat
  | .slotSetBypass slot bypass => .setSlotBypass slot.toNat bypass
  | .setChainEnabled enabled => .setChainEnabled enabled
  | .slotListParams slot => .listParams slot.toNat
  | .slotSetParam slot paramId normalized => .setParam slot.toNat paramId normalized
  | .slotShowEditor slot => .isSlotLoaded slot.toNat
  | .slotHideEditor _ => .isRunning

/-- The calls about the editor of a slot, which carry no other value. -/
def Called.AboutEditor (slotIdx : Int) : Called → Prop
  | .isRunning | .start => True
  | .requestShow i | .requestHide i | .acquireEditorView i | .acquireEditorIdlePump i | .releaseEditorView i =>
    i = slotIdx
  | _ => False

/-- The handlers of `SlotShowEditor` and `SlotHideEditor` look at the slot themselves. -/
def Request.outOfRange : Request → Prop
  | .slotShowEditor slot | .slotHideEditor slot => kMaxSlots ≤ slot.toNat
  | _ => False

section
variable {P V C α G : Type}

/-- The calls made meanwhile are only about the slot's editor. -/
def Along (slotIdx : Int) (before after : List Called) : Prop :=
  ∃ cs, after = before ++ cs ∧ ∀ c ∈ cs, c.AboutEditor slotIdx

/-- A handler came to the state `t'`, and maybe no further. -/
def Comes (t' : Control P V C α G) : Outcome P V C α G → Prop
  | .ok u => u = t'
  | .error (.crash u) => u = t'
  | .error .outside => False

/-- A handler has called into the chain or the GUI thread. -/
def Reaches (t : Control P V C α G) (o : Outcome P V C α G) : Prop := ∃ t', Comes t' o ∧ t'.calls ≠ t.calls

/-- A handler has passed `r` on: it made the call that `r` stands for, and other calls
only about the editor of its slot. -/
def PassesOn (r : Request) (t : Control P V C α G) (o : Outcome P V C α G) : Prop :=
  ∃ t' mid, Comes t' o ∧ Along r.slotIdx t.calls mid ∧ Along r.slotIdx (mid ++ [r.call]) t'.calls

/-- A handler has answered with this status, in a frame that `Send` takes, and done
nothing else. -/
def Refuses (tag : RequestTag) (status : Byte) (t : Control P V C α G) (o : Outcome P V C α G) : Prop :=
  ∃ f slot, tag.Reports f slot status ∧ f.fits = true ∧ o = .ok (t.sendFrame f)

/-- A handler has answered with this slot and status, and chain, GUI thread and
callbacks are as they were. -/
def Leaves (tag : RequestTag) (slot status : Byte) (t : Control P V C α G) (o : Outcome P V C α G) : Prop :=
  ∃ t' f, o = .ok t' ∧ t'.chain = t.chain ∧ t'.gui = t.gui ∧ t'.sent = t.sent ++ [f] ∧
    tag.Reports f slot status ∧ f.fits = true

end

theorem Along.refl (slotIdx : Int) (l : List Called) : Along slotIdx l l := ⟨[], by simp, by simp⟩

theorem Along.trans {slotIdx : Int} {l l' l'' : List Called} (h : Along slotIdx l l') (h' : Along slotIdx l' l'') :
    Along slotIdx l l'' := by
  obtain ⟨cs, rfl, hcs⟩ := h
  obtain ⟨cs', rfl, hcs'⟩ := h'
  refine ⟨cs ++ cs', List.append_assoc _ _ _, ?_⟩
  intro c hc
  rcases List.mem_append.mp hc with hc | hc
  · exact hcs c hc
  · exact hcs' c hc

theorem Along.called {slotIdx : Int} (l : List Called) {c : Called} (hc : c.AboutEditor slotIdx) :
    Along slotIdx l (l ++ [c]) :=
  ⟨[c], rfl, by simpa using hc⟩

private theorem fits_loadResult {status : Byte} {message : List Byte} (hstatus : status ≠ 0)
    (hlen : message.length ≤ 96) :
    (loadResult status [] [] [] message).fits = true := by
  refine decide_eq_true (Nat.le_trans (Nat.le_of_eq (length_appendLoadResult _ _ _ _ _ _)) ?_)
  rw [if_neg hstatus, List.length_singleton, kMaxPayloadBytes]
  omega

private theorem fits_slotLoadResult {slot status : Byte} {message : List Byte} (hstatus : status ≠ 0)
    (hlen : message.length ≤ 96) : (slotLoadResult slot status [] [] [] message).fits = true := by
  refine decide_eq_true (Nat.le_trans (Nat.le_of_eq (length_appendLoadResult _ _ _ _ _ _)) ?_)
  rw [if_neg hstatus, List.length_cons, List.length_singleton, kMaxPayloadBytes]
  omega

/-- The lengths agree for no path that is too long for `uint32_t`. -/
theorem readPath_append (front : List Byte) (hfront : front.length ≤ 1) (n : BitVec 32) (path : Path) :
    readPath (front ++ (lengthBytes n ++ path)) front.length =
      some (if path.length = n.toNat ∧ (front ++ (lengthBytes n ++ path)).length < 2 ^ 32 then some path else none) := by
  have hread : readU32Le (front ++ (lengthBytes n ++ path)) front.length = some n := by
    have h := readU32Le_appendU32Le front n path
    rwa [appendU32Le, List.append_assoc] at h
  have hlen : (front ++ (lengthBytes n ++ path)).length = front.length + 4 + path.length := by
    rw [List.length_append, List.length_append, length_lengthBytes, Nat.add_assoc]
  have hn := n.isLt
  -- a sum that wraps is below 4, and the payload has at least the four bytes of the length
  have hsum : (front ++ (lengthBytes n ++ path)).length = (BitVec.ofNat 32 (front.length + 4) + n).toNat ↔
      path.length = n.toNat ∧ (front ++ (lengthBytes n ++ path)).length < 2 ^ 32 := by
    rw [hlen, BitVec.toNat_add, BitVec.toNat_ofNat]
    omega
  unfold readPath
  rw [hread]
  dsimp only
  by_cases h : path.length = n.toNat ∧ (front ++ (lengthBytes n ++ path)).length < 2 ^ 32
  · rw [if_neg (not_not_intro (hsum.mpr h)), if_neg (by omega), if_pos h, ← List.append_assoc]
    congr 2
    rw [List.drop_left' (by simp), ← h.1]
    exact List.take_length
  · rw [if_pos (fun he => h (hsum.mp he)), if_neg h]

/-- A payload of the least size begins with a length. -/
private theorem exists_lengthBytes {p : List Byte} (hp : 4 ≤ p.length) : ∃ n path, p = lengthBytes n ++ path := by
  refine ⟨lengthOf (p.take 4), p.drop 4, ?_⟩
  rw [lengthBytes_lengthOf (List.length_take_of_le hp)]
  exact (List.take_append_drop 4 p).symm

private theorem lengthBytes_append_inj {n n' : BitVec 32} {path path' : Path}
    (h : lengthBytes n ++ path = lengthBytes n' ++ path') : n = n' ∧ path = path' := by
  obtain ⟨hn, hpath⟩ := List.append_inj h rfl
  refine ⟨?_, hpath⟩
  rw [← lengthOf_lengthBytes n, hn]
  exact lengthOf_lengthBytes n'

/-- Behind at most one byte there is a path of the length given, or a mismatch. -/
private theorem readPath_cases (front : List Byte) (hfront : front.length ≤ 1) {bytes : List Byte}
    (hbytes : 4 ≤ bytes.length) :
    (∃ n path, bytes = lengthBytes n ++ path ∧ path.length = n.toNat ∧ (front ++ bytes).length < 2 ^ 32 ∧
      readPath (front ++ bytes) front.length = some (some path)) ∨
    (∀ n path, bytes = lengthBytes n ++ path → path.length = n.toNat → 2 ^ 32 ≤ (front ++ bytes).length) ∧
      readPath (front ++ bytes) front.length = some none := by
  obtain ⟨n, path, rfl⟩ := exists_lengthBytes hbytes
  rw [readPath_append front hfront n path]
  by_cases h : path.length = n.toNat ∧ (front ++ (lengthBytes n ++ path)).length < 2 ^ 32
  · rw [if_pos h]
    exact .inl ⟨n, path, rfl, h.1, h.2, rfl⟩
  · rw [if_neg h]
    refine .inr ⟨fun n' path' heq hlen => not_lt.mp fun hlt => h ⟨?_, hlt⟩, rfl⟩
    obtain ⟨rfl, rfl⟩ := lengthBytes_append_inj heq
    exact hlen

section
variable {P V C α G : Type} {g : GuiThread G V} {w : Plugins P V} {tag : RequestTag} {p : List Byte}
  {t : Control P V C α G} {r r' : Request}

/-- The bytes are those of a request that the handler performs, or of none that it can
receive, and it answers 5. -/
def Read (g : GuiThread G V) (w : Plugins P V) (tag : RequestTag) (p : List Byte) (t : Control P V C α G)
    (o : Outcome P V C α G) : Prop :=
  (∃ r, Encodes tag p r ∧ p.length < 2 ^ 32 ∧ o = t.perform g w r) ∨
    (∀ r, Encodes tag p r → 2 ^ 32 ≤ p.length) ∧ Refuses tag 5 t o

private theorem onSlot_eq (malformed : Frame) (request : Byte → Request) :
    onSlot g w p t malformed request = match p with
      | [slot] => t.perform g w (request slot)
      | _ => .ok (t.sendFrame malformed) := by
  unfold onSlot
  match p with
  | [] => rfl
  | [slot] => rfl
  | a :: b :: p =>
    rw [if_pos]
    simp

/-- The handlers of a payload that is one byte. -/
private theorem read_onSlot {malformed : Frame} {request : Byte → Request}
    (hone : ∀ slot, Encodes tag [slot] (request slot)) (honly : ∀ r, Encodes tag p r → p.length = 1)
    (hreports : ∃ slot, tag.Reports malformed slot 5) (hfits : malformed.fits = true) :
    Read g w tag p t (onSlot g w p t malformed request) := by
  rw [onSlot_eq]
  by_cases hp : ∃ slot, p = [slot]
  · obtain ⟨slot, rfl⟩ := hp
    refine .inl ⟨request slot, hone slot, ?_, rfl⟩
    simp
  · refine .inr ⟨fun r hr => ?_, malformed, ?_⟩
    · exact absurd (List.length_eq_one_iff.mp (honly r hr)) hp
    · obtain ⟨slot, hslot⟩ := hreports
      refine ⟨slot, hslot, hfits, ?_⟩
      split
      · rename_i a
        exact absurd ⟨a, rfl⟩ hp
      · rfl

private theorem read_onLoadPlugin : Read g w .loadPlugin p t (onLoadPlugin g w p t) := by
  have htruncated : (loadResult 5 [] [] [] (text "LoadPlugin payload truncated")).fits = true :=
    fits_loadResult (by decide) (length_text_le (by decide))
  have hmismatch : (loadResult 5 [] [] [] (text "LoadPlugin payload size mismatch")).fits = true :=
    fits_loadResult (by decide) (length_text_le (by decide))
  unfold onLoadPlugin
  by_cases hp : p.length < 4
  · rw [if_pos hp]
    refine .inr ⟨fun r hr => ?_, _, 0, reports_loadResult 0 5 _ _ _ _, htruncated, rfl⟩
    cases hr
    simp at hp
  · rw [if_neg hp]
    obtain ⟨n, path, hpath, hlen, hlt, hread⟩ | ⟨hnone, hread⟩ := readPath_cases [] (Nat.zero_le 1) (not_lt.mp hp)
    · rw [List.nil_append, List.length_nil] at hread
      rw [hread]
      exact .inl ⟨.loadPlugin path, hpath ▸ .loadPlugin n path hlen, hlt, rfl⟩
    · rw [List.nil_append, List.length_nil] at hread
      rw [hread]
      refine .inr ⟨fun r hr => ?_, _, 0, reports_loadResult 0 5 _ _ _ _, hmismatch, rfl⟩
      cases hr with
      | loadPlugin n path hlen => exact hnone n path rfl hlen

private theorem read_onSlotLoadPlugin : Read g w .slotLoadPlugin p t (onSlotLoadPlugin g w p t) := by
  have htruncated : (slotLoadResult 0xFF 5 [] [] [] (text "SlotLoadPlugin payload truncated")).fits = true :=
    fits_slotLoadResult (by decide) (length_text_le (by decide))
  have hmismatch : ∀ slot, (slotLoadResult slot 5 [] [] [] (text "SlotLoadPlugin payload size mismatch")).fits = true :=
    fun slot => fits_slotLoadResult (by decide) (length_text_le (by decide))
  unfold onSlotLoadPlugin
  by_cases hp : p.length < 5
  · rw [if_pos hp]
    refine .inr ⟨fun r hr => ?_, _, 0xFF, reports_slotLoadResult 0xFF 5 _ _ _ _, htruncated, rfl⟩
    cases hr
    rw [List.length_cons, List.length_append, length_lengthBytes] at hp
    omega
  · rw [if_neg hp]
    match p with
    | [] => simp at hp
    | slot :: p =>
      have hp' : 4 ≤ p.length := by
        rw [List.length_cons] at hp
        omega
      obtain ⟨n, path, hpath, hlen, hlt, hread⟩ | ⟨hnone, hread⟩ := readPath_cases [slot] (le_refl 1) hp'
      · rw [List.singleton_append, List.length_singleton] at hread
        rw [hread]
        exact .inl ⟨.slotLoadPlugin slot path, hpath ▸ .slotLoadPlugin slot n path hlen, hlt, rfl⟩
      · rw [List.singleton_append, List.length_singleton] at hread
        rw [hread]
        refine .inr ⟨fun r hr => ?_, _, slot, reports_slotLoadResult slot 5 _ _ _ _, hmismatch slot, rfl⟩
        cases hr with
        | slotLoadPlugin slot n path hlen => exact hnone n path rfl hlen

private theorem read_onSlotSetBypass : Read g w .slotSetBypass p t (onSlotSetBypass g w p t) := by
  unfold onSlotSetBypass
  by_cases hp : p.length ≠ 2
  · rw [if_pos hp]
    refine .inr ⟨fun r hr => ?_, _, 0xFF, reports_of_front List.prefix_rfl rfl, rfl, rfl⟩
    cases hr
    exact absurd rfl hp
  · rw [if_neg hp]
    obtain ⟨slot, b, rfl⟩ := List.length_eq_two.mp (not_not.mp hp)
    exact .inl ⟨.slotSetBypass slot (b != 0), .slotSetBypass slot b, by simp, rfl⟩

/-- Thirteen bytes are a slot, a parameter and a value. -/
private theorem exists_setParam (hp : p.length = 13) :
    ∃ slot paramId normalized, p = appendF64Le (appendU32Le [slot] paramId) normalized := by
  match p with
  | [] => simp at hp
  | slot :: p =>
    obtain ⟨paramId, bytes, rfl⟩ := exists_lengthBytes (p := p) (by
      rw [List.length_cons] at hp
      omega)
    have hbytes : bytes.length = 8 := by
      rw [List.length_cons, List.length_append, length_lengthBytes] at hp
      omega
    obtain ⟨normalized, rfl⟩ := exists_f64Bytes hbytes
    exact ⟨slot, paramId, normalized, rfl⟩

private theorem read_onSlotSetParam : Read g w .slotSetParam p t (onSlotSetParam g w p t) := by
  unfold onSlotSetParam
  by_cases hp : p.length ≠ 13
  · rw [if_pos hp]
    refine .inr ⟨fun r hr => ?_, _, 0xFF, reports_slotSetParamResult 0xFF 0 5 0, rfl, rfl⟩
    cases hr
    simp at hp
  · rw [if_neg hp]
    obtain ⟨slot, paramId, normalized, rfl⟩ := exists_setParam (not_not.mp hp)
    refine .inl ⟨.slotSetParam slot paramId normalized, .slotSetParam slot paramId normalized, ?_, ?_⟩
    · simp
    · have hslot : (appendF64Le (appendU32Le [slot] paramId) normalized)[0]? = some slot := rfl
      have hid := readU32Le_appendU32Le [slot] paramId ((List.range 8).map (f64Byte normalized))
      have hvalue := readF64Le_appendF64Le (appendU32Le [slot] paramId) normalized []
      rw [List.append_nil, length_appendU32Le] at hvalue
      change readU32Le (appendF64Le _ normalized) 1 = _ at hid
      change readF64Le _ 5 = _ at hvalue
      rw [hslot, hid, hvalue]

theorem handle_read (htag : tag ≠ .unloadPlugin) : Read g w tag p t (handle g w p t tag) := by
  cases tag with
  | unloadPlugin => exact absurd rfl htag
  | loadPlugin => exact read_onLoadPlugin
  | slotLoadPlugin => exact read_onSlotLoadPlugin
  | slotSetBypass => exact read_onSlotSetBypass
  | slotSetParam => exact read_onSlotSetParam
  | slotUnloadPlugin =>
    exact read_onSlot .slotUnloadPlugin (by rintro _ ⟨⟩; rfl) ⟨0xFF, reports_of_front List.prefix_rfl rfl⟩ rfl
  | setChainEnabled => exact read_onSlot .setChainEnabled (by rintro _ ⟨⟩; rfl) ⟨0, rfl, rfl, nofun⟩ rfl
  | slotListParams =>
    exact read_onSlot .slotListParams (by rintro _ ⟨⟩; rfl) ⟨0xFF, reports_slotParamListResult 0xFF 5 []⟩ rfl
  | slotShowEditor =>
    exact read_onSlot .slotShowEditor (by rintro _ ⟨⟩; rfl) ⟨0xFF, reports_slotShowEditorResult 0xFF 5 0 0⟩ rfl
  | slotHideEditor =>
    exact read_onSlot .slotHideEditor (by rintro _ ⟨⟩; rfl) ⟨0xFF, reports_of_front List.prefix_rfl rfl⟩ rfl

/-- The grammar is unambiguous. -/
theorem Encodes.unique (h : Encodes tag p r) (h' : Encodes tag p r') : r = r' := by
  cases h with
  | loadPlugin n path hlen =>
    generalize hbytes : lengthBytes n ++ path = bytes at h'
    cases h' with
    | loadPlugin n' path' hlen' =>
      obtain ⟨-, rfl⟩ := lengthBytes_append_inj hbytes
      rfl
  | slotLoadPlugin slot n path hlen =>
    generalize hbytes : slot :: (lengthBytes n ++ path) = bytes at h'
    cases h' with
    | slotLoadPlugin slot' n' path' hlen' =>
      obtain ⟨rfl, hrest⟩ := List.cons_eq_cons.mp hbytes
      obtain ⟨-, rfl⟩ := lengthBytes_append_inj hrest
      rfl
  | slotSetParam slot paramId normalized =>
    generalize hbytes : appendF64Le (appendU32Le [slot] paramId) normalized = bytes at h'
    cases h' with
    | slotSetParam slot' paramId' normalized' =>
      obtain ⟨hfront, -⟩ := List.append_inj hbytes rfl
      obtain ⟨rfl, hid⟩ := List.cons_eq_cons.mp hfront
      have hvalue := readF64Le_appendF64Le (appendU32Le [slot] paramId) normalized []
      have hvalue' := readF64Le_appendF64Le (appendU32Le [slot] paramId') normalized' []
      rw [hbytes, length_appendU32Le] at hvalue
      rw [length_appendU32Le, hvalue] at hvalue'
      have hids : lengthBytes paramId ++ [] = lengthBytes paramId' ++ [] := by rwa [List.append_nil, List.append_nil]
      obtain ⟨rfl, -⟩ := lengthBytes_append_inj hids
      rw [Option.some.inj hvalue']
  | _ =>
    cases h'
    rfl

private theorem handle_of_encodes (hr : Encodes tag p r) (hp : p.length < 2 ^ 32) :
    handle g w p t tag = t.perform g w r := by
  have htag : tag ≠ .unloadPlugin := by
    rintro rfl
    cases hr
  obtain ⟨r', hr', -, heq⟩ | ⟨hnone, -⟩ := handle_read (g := g) (w := w) (t := t) (p := p) htag
  · rw [heq, hr.unique hr']
  · exact absurd hp (not_lt.mpr (hnone r hr))

end

namespace Control
variable {P V C α G : Type} {g : GuiThread G V} {w : Plugins P V} {t : Control P V C α G} {slot : Byte} {r : Request}

private theorem closeEditor_of_le (h : kMaxSlots ≤ slot.toNat) : t.closeEditor g slot = t.called .isRunning := by
  unfold closeEditor
  simp [not_lt.mpr h]

private theorem along_closeEditor : Along slot.toNat t.calls (t.closeEditor g slot).calls := by
  have hasked : Along slot.toNat t.calls (t.calls ++ [.isRunning]) := Along.called _ trivial
  have hhidden : Along slot.toNat t.calls (t.calls ++ [.isRunning] ++ [.requestHide slot.toNat]) :=
    hasked.trans (Along.called _ rfl)
  unfold closeEditor
  dsimp only
  split
  · split
    · exact hhidden.trans (Along.called _ rfl)
    · exact hhidden
  · exact hasked

private theorem passesOn_load {path : Path} {reply : LoadResult → Frame} (hslot : r.slot.getD 0 = slot)
    (hcall : r.call = .loadSlot slot.toNat path) : PassesOn r t (t.load g w slot path reply) := by
  subst hslot
  unfold load
  dsimp only
  split
  · refine ⟨_, _, rfl, along_closeEditor (g := g), ?_⟩
    rw [hcall]
    exact Along.refl _ _
  · refine ⟨_, _, rfl, along_closeEditor (g := g), ?_⟩
    rw [hcall]
    exact Along.refl _ _

private theorem passesOn_unload {reply : Byte → Frame} (hslot : r.slot.getD 0 = slot)
    (hcall : r.call = .unloadSlot slot.toNat) : PassesOn r t (.ok (t.unload g slot reply)) := by
  subst hslot
  refine ⟨_, _, rfl, along_closeEditor (g := g), ?_⟩
  rw [hcall]
  exact Along.refl _ _

private theorem passesOn_showEditor (h : ¬ kMaxSlots ≤ slot.toNat) :
    PassesOn (.slotShowEditor slot) t (.ok (t.showEditor g w slot)) := by
  refine ⟨_, t.calls, rfl, Along.refl _ _, ?_⟩
  have hasked := Along.refl slot.toNat (t.calls ++ [.isSlotLoaded slot.toNat])
  have hstarted := hasked.trans (Along.called _ (c := .start) trivial)
  have hview := hstarted.trans (Along.called _ (c := .acquireEditorView slot.toNat) rfl)
  have hpump := hview.trans (Along.called _ (c := .acquireEditorIdlePump slot.toNat) rfl)
  have hshown := hpump.trans (Along.called _ (c := .requestShow slot.toNat) rfl)
  unfold showEditor
  rw [if_neg h]
  dsimp only
  split
  · exact hasked
  · split
    · exact hstarted
    · split
      · exact hview
      · unfold showView
        dsimp only
        split
        · exact hshown.trans (Along.called _ rfl)
        · exact hshown

private theorem passesOn_hideEditor (h : ¬ kMaxSlots ≤ slot.toNat) :
    PassesOn (.slotHideEditor slot) t (.ok (t.hideEditor g slot)) := by
  refine ⟨_, t.calls, rfl, Along.refl _ _, ?_⟩
  have hasked := Along.refl slot.toNat (t.calls ++ [.isRunning])
  have hhidden := hasked.trans (Along.called _ (c := .requestHide slot.toNat) rfl)
  unfold hideEditor
  rw [if_neg h]
  dsimp only
  split
  · exact hasked
  · split
    · exact hhidden.trans (Along.called _ rfl)
    · exact hhidden

private theorem passesOn_perform (h : ¬ r.outOfRange) : PassesOn r t (t.perform g w r) := by
  cases r with
  | loadPlugin path => exact passesOn_load rfl rfl
  | unloadPlugin => exact passesOn_unload rfl rfl
  | slotLoadPlugin slot path => exact passesOn_load rfl rfl
  | slotUnloadPlugin slot => exact passesOn_unload rfl rfl
  | slotShowEditor slot => exact passesOn_showEditor h
  | slotHideEditor slot => exact passesOn_hideEditor h
  | slotSetBypass | setChainEnabled | slotListParams | slotSetParam =>
    exact ⟨_, t.calls, rfl, Along.refl _ _, Along.refl _ _⟩

private theorem slotIndex_of_le (h : kMaxSlots ≤ slot.toNat) : slotIndex slot.toNat = none := by
  unfold slotIndex
  rw [dif_pos]
  omega

private theorem showEditor_of_le (h : kMaxSlots ≤ slot.toNat) :
    t.showEditor g w slot = t.sendFrame (slotShowEditorResult slot 6 0 0) := by
  unfold showEditor
  exact if_pos h

private theorem hideEditor_of_le (h : kMaxSlots ≤ slot.toNat) :
    t.hideEditor g slot = t.sendFrame (slotHideEditorResult slot 6) := by
  unfold hideEditor
  exact if_pos h

/-- A slot out of range is answered 6, by the handler or by the chain. -/
private theorem leaves_perform {tag : RequestTag} {p : List Byte} (hr : Encodes tag p r) (hslot : r.slot = some slot)
    (h : kMaxSlots ≤ slot.toNat) : Leaves tag slot 6 t (t.perform g w r) := by
  have hnone := slotIndex_of_le h
  have hclose := closeEditor_of_le (g := g) (t := t) h
  cases hr with
  | loadPlugin | setChainEnabled => cases hslot
  | slotLoadPlugin slot' n path hlen =>
    obtain rfl : slot' = slot := Option.some.inj hslot
    have hload : t.load g w slot' path (slotLoadReply slot') =
        .ok (((t.called .isRunning).called (.loadSlot slot'.toNat path)).sendFrame
          (slotLoadReply slot' (.error ⟨6, text "invalid slot index"⟩))) := by
      simp only [load, SlotTable.loadSlot, hnone, hclose]
      rfl
    exact ⟨_, _, hload, rfl, rfl, rfl, reports_slotLoadResult slot' 6 _ _ _ _,
      fits_slotLoadResult (by decide) (length_text_le (by decide))⟩
  | slotUnloadPlugin slot' =>
    obtain rfl : slot' = slot := Option.some.inj hslot
    refine ⟨_, slotUnloadResult slot' 6, rfl, ?_, ?_, ?_, reports_of_front List.prefix_rfl rfl, rfl⟩
    all_goals
      simp only [unload, SlotTable.unloadSlot, hnone, hclose]
      rfl
  | slotSetBypass slot' b =>
    obtain rfl : slot' = slot := Option.some.inj hslot
    refine ⟨_, slotBypassResult slot' 6, rfl, ?_, ?_, ?_, reports_of_front List.prefix_rfl rfl, rfl⟩
    all_goals
      simp only [setBypass, SlotTable.setSlotBypass, hnone]
      rfl
  | slotListParams slot' =>
    obtain rfl : slot' = slot := Option.some.inj hslot
    refine ⟨_, slotParamListResult slot' 6 [], rfl, rfl, rfl, ?_, reports_slotParamListResult slot' 6 [], rfl⟩
    simp only [listParams, SlotTable.listParams, hnone]
    rfl
  | slotSetParam slot' paramId normalized =>
    obtain rfl : slot' = slot := Option.some.inj hslot
    refine ⟨_, slotSetParamResult slot' paramId 6 quietNaN, rfl, ?_, ?_, ?_, reports_slotSetParamResult _ _ _ _, rfl⟩
    all_goals
      simp only [setParam, SlotTable.setParam, hnone]
      rfl
  | slotShowEditor slot' =>
    obtain rfl : slot' = slot := Option.some.inj hslot
    exact ⟨_, _, congrArg Except.ok (showEditor_of_le h), rfl, rfl, rfl, reports_slotShowEditorResult slot' 6 0 0, rfl⟩
  | slotHideEditor slot' =>
    obtain rfl : slot' = slot := Option.some.inj hslot
    exact ⟨_, _, congrArg Except.ok (hideEditor_of_le h), rfl, rfl, rfl, reports_of_front List.prefix_rfl rfl, rfl⟩

private theorem reaches_of_passesOn {o : Outcome P V C α G} (h : PassesOn r t o) : Reaches t o := by
  obtain ⟨t', mid, hcomes, ⟨before, rfl, -⟩, after, hafter, -⟩ := h
  refine ⟨t', hcomes, fun heq => ?_⟩
  have hlen := congrArg List.length heq
  rw [hafter] at hlen
  simp only [List.length_append, List.length_singleton] at hlen
  omega

private theorem not_reaches_of_refuses {tag : RequestTag} {status : Byte} {o : Outcome P V C α G}
    (h : Refuses tag status t o) : ¬ Reaches t o := by
  obtain ⟨f, slot, -, -, rfl⟩ := h
  rintro ⟨t', rfl, hne⟩
  exact hne rfl

/-- The handlers that look at the slot themselves call nothing when it is out of range. -/
private theorem refuses_of_outOfRange {tag : RequestTag} {p : List Byte} (hr : Encodes tag p r) (h : r.outOfRange) :
    Refuses tag 6 t (t.perform g w r) := by
  cases hr with
  | slotShowEditor slot =>
    exact ⟨_, slot, reports_slotShowEditorResult slot 6 0 0, rfl, congrArg Except.ok (showEditor_of_le h)⟩
  | slotHideEditor slot =>
    exact ⟨_, slot, reports_of_front List.prefix_rfl rfl, rfl, congrArg Except.ok (hideEditor_of_le h)⟩
  | _ => exact h.elim

end Control

section
variable {P V C α G : Type} (g : GuiThread G V) (w : Plugins P V) (tag : RequestTag) (p : List Byte)
  (t : Control P V C α G)

/-- A payload calls into the chain or the GUI thread just when it is that of a request
with a slot to show or hide, where it has one, and shorter than 4 GiB; it then does so with
the values in it. -/
theorem requests_parsed (htag : tag ≠ .unloadPlugin) :
    (Reaches t (handle g w p t tag) ↔ ∃ r, Encodes tag p r ∧ p.length < 2 ^ 32 ∧ ¬ r.outOfRange) ∧
      (∀ r, Encodes tag p r → p.length < 2 ^ 32 → ¬ r.outOfRange → PassesOn r t (handle g w p t tag)) ∧
      handle g w p t tag ≠ .error .outside ∧
      ((∀ r, Encodes tag p r → 2 ^ 32 ≤ p.length) → Refuses tag 5 t (handle g w p t tag)) ∧
      ∀ r slot, Encodes tag p r → p.length < 2 ^ 32 → r.slot = some slot → kMaxSlots ≤ slot.toNat →
        Leaves tag slot 6 t (handle g w p t tag) := by
  have hpasses : ∀ r, Encodes tag p r → p.length < 2 ^ 32 → ¬ r.outOfRange →
      PassesOn r t (handle g w p t tag) := by
    intro r hr hp hin
    rw [handle_of_encodes hr hp]
    exact Control.passesOn_perform hin
  have hrefuses : (∀ r, Encodes tag p r → 2 ^ 32 ≤ p.length) → Refuses tag 5 t (handle g w p t tag) := by
    intro hnone
    obtain ⟨r, hr, hp, -⟩ | ⟨-, h⟩ := handle_read (g := g) (w := w) (t := t) (p := p) htag
    · exact absurd hp (not_lt.mpr (hnone r hr))
    · exact h
  refine ⟨⟨fun h => ?_, fun ⟨r, hr, hp, hin⟩ => Control.reaches_of_passesOn (hpasses r hr hp hin)⟩, hpasses, ?_,
    hrefuses, fun r slot hr hp hslot hle => ?_⟩
  · by_contra hno
    push Not at hno
    by_cases hsome : ∃ r, Encodes tag p r ∧ p.length < 2 ^ 32
    · obtain ⟨r, hr, hp⟩ := hsome
      rw [handle_of_encodes hr hp] at h
      exact Control.not_reaches_of_refuses (Control.refuses_of_outOfRange hr (hno r hr hp)) h
    · push Not at hsome
      exact Control.not_reaches_of_refuses (hrefuses hsome) h
  · intro he
    obtain ⟨r, hr, hp, heq⟩ | ⟨-, f, slot, -, -, heq⟩ := handle_read (g := g) (w := w) (t := t) (p := p) htag
    · by_cases hin : r.outOfRange
      · obtain ⟨f, slot, -, -, heq'⟩ := Control.refuses_of_outOfRange (g := g) (w := w) (t := t) hr hin
        rw [heq, heq'] at he
        cases he
      · obtain ⟨t', -, hcomes, -⟩ := hpasses r hr hp hin
        rw [he] at hcomes
        exact hcomes
    · rw [heq] at he
      cases he
  · rw [handle_of_encodes hr hp]
    exact Control.leaves_perform hr hslot hle

end

/-- A machine on which no path leads to a plugin. -/
def nothingInstalled : Plugins Unit Unit where
  loader := {
    probeIsVst2 := fun _ => false
    vst3 := fun _ _ _ => .notCreated (text "not a module") false
    vst2 := fun _ _ _ => .notOpened false none
    clap := fun _ _ _ => .noEntry }
  createView := fun _ => none
  listParams := fun _ => []
  setParam := fun p _ _ => (quietNaN, p)

/-- A GUI thread that has not been started, and cannot be. -/
def notStarted : GuiThread Unit Unit where
  isRunning := fun _ => false
  start := fun g => (false, g)
  requestShow := fun g _ _ _ _ => (⟨false, 7, 0, 0⟩, g)
  requestHide := fun g _ => (false, g)

def emptyControl : Control Unit Unit Unit Unit Unit := ⟨SlotTable.initial 0x40E7700000000000 256 (), (), [], []⟩

theorem requests_parsed_bypass :
    PassesOn (.slotSetBypass 2 true) emptyControl
      (handle notStarted nothingInstalled [2, 1] emptyControl .slotSetBypass) :=
  (requests_parsed notStarted nothingInstalled .slotSetBypass [2, 1] emptyControl nofun).2.1
    (.slotSetBypass 2 true) (.slotSetBypass 2 1) (by decide) id

/-- Two payloads that match the grammar and are not passed on: a slot byte that the
handler refuses, and a path of 4 GiB. -/
theorem request_not_passed_on :
    (¬ (Reaches emptyControl (handle notStarted nothingInstalled [8] emptyControl .slotHideEditor) ↔
      ∃ r, Encodes .slotHideEditor [8] r)) ∧
    ¬ (Reaches emptyControl (handle notStarted nothingInstalled
        (lengthBytes 0xFFFFFFFF ++ List.replicate 0xFFFFFFFF 0) emptyControl .loadPlugin) ↔
      ∃ r, Encodes .loadPlugin (lengthBytes 0xFFFFFFFF ++ List.replicate 0xFFFFFFFF 0) r) := by
  constructor
  · intro h
    obtain ⟨t', rfl, hne⟩ := h.mpr ⟨_, .slotHideEditor 8⟩
    exact hne rfl
  · intro h
    have hlen : (List.replicate 0xFFFFFFFF (0 : Byte)).length = 0xFFFFFFFF := List.length_replicate
    generalize List.replicate 0xFFFFFFFF (0 : Byte) = path at h hlen
    have hreach := h.mpr ⟨_, .loadPlugin 0xFFFFFFFF path hlen⟩
    obtain ⟨-, -, hp, -⟩ | ⟨-, hrefuses⟩ := read_onLoadPlugin (g := notStarted) (w := nothingInstalled)
      (t := emptyControl) (p := lengthBytes 0xFFFFFFFF ++ path)
    · rw [List.length_append, hlen, length_lengthBytes] at hp
      omega
    · exact Control.not_reaches_of_refuses hrefuses hreach

end Plughost.Main
