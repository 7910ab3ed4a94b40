import Plughost.Main.Replies

/-! When a reply exists and fits into one frame: the results of `Load` and `ListParams`
by what the loader and the plugin come up with. -/
namespace Plughost.Vst3
open Plughost.Ipc.ControlPipe
variable {P V C α : Type}

/-- `PluginHost::Load` comes to a result whose strings take at most `room` bytes. -/
def Vst3Module.Answerable (room : Nat) (path : Path) : Vst3Module P → Prop
  | .notCreated errorString true => 42 + errorString.length ≤ room
  | .notCreated errorString false => 57 + path.length + errorString.length ≤ room
  | .noAudioEffect => True
  | .notActivated message => 4 + message.length ≤ room
  | .activated _ info => 12 + info.name.length + info.vendor.length + info.version.length ≤ room

/-- So does `Vst2Plugin::Load`, which crashes on a pending error. -/
def Vst2Module.Answerable (room : Nat) (path : Path) : Vst2Module P → Prop
  | .notOpened true pending => pending = none
  | .notOpened false _ => 27 + path.length ≤ room
  | .noEntry | .badEffect => True
  | .activated _ info => 12 + info.name.length + info.vendor.length + info.version.length ≤ room

/-- So does `ClapPlugin::Load`. -/
def ClapModule.Answerable (room : Nat) : ClapModule P → Prop
  | .notOpened pending => pending = none
  | .activated _ info => 12 + info.name.length + info.vendor.length + info.version.length ≤ room
  | _ => True

/-- What the loader of a format finds is answerable. -/
def Loader.Answerable (l : Loader P) (room : Nat) (fmt : SlotFormat) (path : Path) (sampleRate : BitVec 64)
    (maxBlockSize : Int) : Prop :=
  match fmt with
  | .empty => True
  | .vst3 => (l.vst3 path sampleRate maxBlockSize).Answerable room path
  | .vst2 => (l.vst2 path sampleRate maxBlockSize).Answerable room path
  | .clap => (l.clap path sampleRate maxBlockSize).Answerable room

/-- So is a load into the chain, where one takes place. -/
def SlotTable.LoadAnswerable (l : Loader P) (room : Nat) (ch : SlotTable P V C α) (slotIdx : Int) (path : Path) :
    Prop :=
  (slotIndex slotIdx).isSome = true →
    l.Answerable room (detectFormat l.probeIsVst2 path) path ch.sampleRate ch.maxBlockSize

/-- The plugin that the slot's calls go to. -/
def SlotTable.Holds (ch : SlotTable P V C α) (slotIdx : Int) (plugin : P) : Prop :=
  ∃ i host, slotIndex slotIdx = some i ∧ ch.loaded i = true ∧ ch.pointer (ch.format i) i = some host ∧
    host.active = some plugin

/-- The parameters that `ListParams` comes back with fit into one frame. -/
def SlotTable.ListAnswerable (params : P → List ParamInfo) (ch : SlotTable P V C α) (slotIdx : Int) : Prop :=
  ∀ plugin, ch.Holds slotIdx plugin → 6 + ((params plugin).map Main.paramBytes).sum ≤ kMaxPayloadBytes

/-- What the strings of a load's result take in the reply. -/
def resultBytes : LoadResult → Nat
  | .ok info => 12 + info.name.length + info.vendor.length + info.version.length
  | .error e => 4 + e.message.length

/-- A load ends in a result, which takes at most `room` bytes, just when `fits`. -/
def Settles (room : Nat) (fits : Prop) : Option LoadResult → Prop
  | none => ¬ fits
  | some r => (resultBytes r ≤ room ↔ fits) ∧ ∀ e, r = .error e → e.status ≠ 0

theorem Settles.congr {room : Nat} {fits fits' : Prop} {o : Option LoadResult} (h : Settles room fits o)
    (hiff : fits ↔ fits') : Settles room fits' o := by
  cases o with
  | none => exact fun hfits => h (hiff.mpr hfits)
  | some r => exact ⟨h.1.trans hiff, h.2⟩

private theorem settles_info {room : Nat} (info : LoadInfo) :
    Settles room (12 + info.name.length + info.vendor.length + info.version.length ≤ room) (some (.ok info)) :=
  ⟨Iff.rfl, nofun⟩

/-- An error whose text is fixed. -/
private theorem settles_short {room : Nat} (hroom : 100 ≤ room) {e : LoadError} (hlen : e.message.length ≤ 96)
    (hstatus : e.status ≠ 0) : Settles room True (some (.error e)) := by
  refine ⟨⟨fun _ => trivial, fun _ => ?_⟩, fun e' he => ?_⟩
  · rw [resultBytes]
    omega
  · cases he
    exact hstatus

/-- An error whose text is `n` bytes long. -/
private theorem settles_error {room n : Nat} {e : LoadError} (hlen : 4 + e.message.length = n)
    (hstatus : e.status ≠ 0) :
    Settles room (n ≤ room) (some (.error e)) := by
  refine ⟨by rw [resultBytes, hlen], fun e' he => ?_⟩
  cases he
  exact hstatus

private theorem settles_dlopenFailed {room : Nat} (hroom : 100 ≤ room) {start fallback : List Byte} {status : Byte}
    {pending : Option (List Byte)} (hlen : start.length + fallback.length ≤ 96) (hstatus : status ≠ 0) :
    Settles room (pending = none)
      ((dlopenFailed start fallback pending).map fun message => .error ⟨status, message⟩) := by
  cases pending with
  | none =>
    have hmessage : (start ++ fallback).length ≤ 96 := by rwa [List.length_append]
    exact Settles.congr (settles_short hroom hmessage hstatus) (by simp)
  | some message => nofun

namespace SlotHost

private theorem settles_loadVst3 {room : Nat} (hroom : 100 ≤ room) (h : SlotHost P V C) (path : Path)
    (m : Vst3Module P) :
    Settles room (m.Answerable room path) (some (h.loadVst3 path m).1) := by
  cases m with
  | notCreated errorString opens =>
    cases opens with
    | false =>
      refine settles_error ?_ nofun
      have h1 : (text "plugin path not found or not a valid VST3 module: ").length = 50 := length_text _
      have h2 : (text " (").length = 2 := length_text _
      have h3 : (text ")").length = 1 := length_text _
      simp only [List.length_append, h1, h2, h3]
      omega
    | true =>
      refine settles_error ?_ nofun
      have h1 : (text "VST3::Hosting::Module::create failed: ").length = 38 := length_text _
      simp only [List.length_append, h1]
      omega
  | noAudioEffect => exact settles_short hroom (length_text_le (by decide)) nofun
  | notActivated message => exact settles_error rfl nofun
  | activated plugin info => exact settles_info info

private theorem settles_loadVst2 {room : Nat} (hroom : 100 ≤ room) (h : SlotHost P V C) (path : Path)
    (m : Vst2Module P) :
    Settles room (m.Answerable room path) ((h.loadVst2 path m).map Prod.fst) := by
  cases m with
  | notOpened opens pending =>
    cases opens with
    | false =>
      refine settles_error ?_ nofun
      have h1 : (text "plugin path not found: ").length = 23 := length_text _
      simp only [List.length_append, h1]
      omega
    | true =>
      rw [loadVst2, if_pos rfl, Option.map_map]
      exact settles_dlopenFailed hroom (by rw [length_text, length_text]; decide) nofun
  | noEntry | badEffect => exact settles_short hroom (length_text_le (by decide)) nofun
  | activated plugin info => exact settles_info info

private theorem settles_loadClap {room : Nat} (hroom : 100 ≤ room) (h : SlotHost P V C) (m : ClapModule P) :
    Settles room (m.Answerable room) ((h.loadClap m).map Prod.fst) := by
  cases m with
  | notOpened pending =>
    rw [loadClap, Option.map_map]
    exact settles_dlopenFailed hroom (by rw [length_text, length_text]; decide) nofun
  | activated plugin info => exact settles_info info
  | _ => exact settles_short hroom (length_text_le (by decide)) nofun

/-- What `Load` of a format makes of the module it finds. -/
private theorem settles_load {room : Nat} (hroom : 100 ≤ room) (l : Loader P) (h : SlotHost P V C) {fmt : SlotFormat}
    (hfmt : fmt ≠ .empty) (path : Path) (sampleRate : BitVec 64) (maxBlockSize : Int) :
    Settles room (l.Answerable room fmt path sampleRate maxBlockSize)
      ((h.load l fmt path sampleRate maxBlockSize).map Prod.fst) := by
  cases fmt with
  | empty => exact absurd rfl hfmt
  | vst3 => exact settles_loadVst3 hroom h path _
  | vst2 => exact settles_loadVst2 hroom h path _
  | clap => exact settles_loadClap hroom h _

end SlotHost

namespace SlotTable

@[simp] theorem sampleRate_setPointer (ch : SlotTable P V C α) (f : SlotFormat) (i : Fin kMaxSlots)
    (o : Option (SlotHost P V C)) : (ch.setPointer f i o).sampleRate = ch.sampleRate := by
  cases f <;> rfl

@[simp] theorem maxBlockSize_setPointer (ch : SlotTable P V C α) (f : SlotFormat) (i : Fin kMaxSlots)
    (o : Option (SlotHost P V C)) : (ch.setPointer f i o).maxBlockSize = ch.maxBlockSize := by
  cases f <;> rfl

private theorem sampleRate_tearDown (ch : SlotTable P V C α) (i : Fin kMaxSlots) :
    (ch.tearDown i).sampleRate = ch.sampleRate := sampleRate_setPointer _ _ _ _

private theorem maxBlockSize_tearDown (ch : SlotTable P V C α) (i : Fin kMaxSlots) :
    (ch.tearDown i).maxBlockSize = ch.maxBlockSize := maxBlockSize_setPointer _ _ _ _

theorem sampleRate_releaseEditorView (ch : SlotTable P V C α) (slotIdx : Int) :
    (ch.releaseEditorView slotIdx).sampleRate = ch.sampleRate := by
  unfold releaseEditorView
  split
  · rfl
  · split
    · rfl
    · exact sampleRate_setPointer _ _ _ _

theorem maxBlockSize_releaseEditorView (ch : SlotTable P V C α) (slotIdx : Int) :
    (ch.releaseEditorView slotIdx).maxBlockSize = ch.maxBlockSize := by
  unfold releaseEditorView
  split
  · rfl
  · split
    · rfl
    · exact maxBlockSize_setPointer _ _ _ _

/-- The chain hands the result of `Load` on. -/
private theorem fst_loadSlot (l : Loader P) (ch : SlotTable P V C α) {slotIdx : Int} {i : Fin kMaxSlots} {path : Path}
    (hi : slotIndex slotIdx = some i) (hfmt : detectFormat l.probeIsVst2 path ≠ .empty) :
    (ch.loadSlot l slotIdx path).map Prod.fst =
      ((SlotHost.fresh : SlotHost P V C).load l (detectFormat l.probeIsVst2 path) path ch.sampleRate
        ch.maxBlockSize).map Prod.fst := by
  unfold loadSlot
  rw [hi]
  dsimp only
  rw [if_neg hfmt, sampleRate_tearDown, maxBlockSize_tearDown, Option.map_map]
  congr 1
  funext ⟨r, host⟩
  cases r with
  | error e => rfl
  | ok info =>
    dsimp only [Function.comp_apply]
    split <;> rfl

/-- It has two errors of its own. -/
theorem settles_loadSlot {room : Nat} (hroom : 100 ≤ room) (l : Loader P) (ch : SlotTable P V C α) (slotIdx : Int)
    (path : Path) : Settles room (ch.LoadAnswerable l room slotIdx path) ((ch.loadSlot l slotIdx path).map Prod.fst) := by
  unfold LoadAnswerable
  cases hi : slotIndex slotIdx with
  | none =>
    rw [loadSlot_of_none hi]
    refine Settles.congr (settles_short hroom ?_ ?_) (by simp)
    · exact length_text_le (by decide)
    · decide
  | some i =>
    by_cases hfmt : detectFormat l.probeIsVst2 path = .empty
    · unfold loadSlot
      rw [hi]
      dsimp only
      rw [if_pos hfmt, hfmt]
      refine Settles.congr (settles_short hroom ?_ ?_) (by simp [Loader.Answerable])
      · exact length_text_le (by decide)
      · decide
    · rw [fst_loadSlot l ch hi hfmt]
      exact (SlotHost.settles_load hroom l _ hfmt path _ _).congr (by simp)

/-- A list comes from the plugin in the slot. -/
private theorem listParams_of_holds (params : P → List ParamInfo) {ch : SlotTable P V C α} {slotIdx : Int} {plugin : P}
    (h : ch.Holds slotIdx plugin) :
    ch.listParams params slotIdx = if (params plugin).isEmpty then (7, []) else (0, params plugin) := by
  obtain ⟨i, host, hi, hl, hp, hactive⟩ := h
  have hfmt : ch.format i ≠ .empty := by
    intro hf
    rw [hf] at hp
    cases hp
  have hlist : host.listParams params = params plugin := by rw [SlotHost.listParams, hactive]
  unfold listParams
  rw [hi]
  simp only [hl, hfmt, hp, hlist, Bool.not_true, Bool.false_eq_true, if_false]

/-- Where there is none, a status comes back. -/
private theorem listParams_of_not_holds (params : P → List ParamInfo) {ch : SlotTable P V C α} {slotIdx : Int}
    (h : ∀ plugin, ¬ ch.Holds slotIdx plugin) : ∃ st, st ≠ 0 ∧ ch.listParams params slotIdx = (st, []) := by
  unfold listParams
  cases hi : slotIndex slotIdx with
  | none => exact ⟨6, by decide, rfl⟩
  | some i =>
    dsimp only
    cases hl : ch.loaded i with
    | false => exact ⟨1, by decide, rfl⟩
    | true =>
      by_cases hfmt : ch.format i = .empty
      · rw [if_pos hfmt]
        exact ⟨1, by decide, rfl⟩
      · rw [if_neg hfmt]
        cases hp : ch.pointer (ch.format i) i with
        | none => exact ⟨7, by decide, rfl⟩
        | some host =>
          cases hactive : host.active with
          | some plugin => exact absurd ⟨i, host, hi, hl, hp, hactive⟩ (h plugin)
          | none =>
            refine ⟨7, by decide, ?_⟩
            simp [SlotHost.listParams, hactive]

/-- A list is sent whole, or not at all. -/
theorem listParams_fits_iff (params : P → List ParamInfo) (ch : SlotTable P V C α) (slotIdx : Int) (slot : Byte) :
    (Main.slotParamListResult slot (ch.listParams params slotIdx).1 (ch.listParams params slotIdx).2).payload.length ≤
      kMaxPayloadBytes ↔ ch.ListAnswerable params slotIdx := by
  have hstatus : ∀ {st : Byte} {list : List ParamInfo}, st ≠ 0 →
      (Main.slotParamListResult slot st list).payload.length = 2 := by
    intro st list hst
    rw [Main.slotParamListResult, if_neg hst]
    rfl
  by_cases h : ∃ plugin, ch.Holds slotIdx plugin
  · obtain ⟨plugin, hplugin⟩ := h
    have honly : ch.ListAnswerable params slotIdx ↔
        6 + ((params plugin).map Main.paramBytes).sum ≤ kMaxPayloadBytes := by
      refine ⟨fun h => h plugin hplugin, fun hle plugin' h' => ?_⟩
      obtain ⟨i, host, hi, -, hp, hactive⟩ := hplugin
      obtain ⟨j, host', hj, -, hp', hactive'⟩ := h'
      obtain rfl : i = j := Option.some.inj (hi.symm.trans hj)
      obtain rfl : host = host' := Option.some.inj (hp.symm.trans hp')
      obtain rfl : plugin = plugin' := Option.some.inj (hactive.symm.trans hactive')
      exact hle
    rw [honly, listParams_of_holds params hplugin]
    cases hlist : params plugin with
    | nil => exact ⟨fun _ => by decide, fun _ => by rw [hstatus (by decide)]; decide⟩
    | cons p list =>
      rw [if_neg nofun, Main.slotParamListResult, if_pos rfl, Main.length_foldl_appendParam, Main.length_appendU32Le]
      rfl
  · obtain ⟨st, hst, heq⟩ := listParams_of_not_holds params (not_exists.mp h)
    rw [heq, hstatus hst]
    exact ⟨fun _ plugin hplugin => absurd ⟨plugin, hplugin⟩ h, fun _ => by decide⟩

end SlotTable
end Plughost.Vst3
