import Plughost.Ipc.ControlPipe
import Plughost.Vst3.PluginChain

/-! One slot's plugin: the format its path looks like, the host object of that format,
and what `Load` makes of the loader's and the plugin's answers. -/
namespace Plughost.Vst3
open Plughost.Ipc.ControlPipe (Byte)

abbrev Path := List Byte

/-- The bytes of a string literal. -/
def text (s : String) : List Byte := s.toUTF8.toList.map UInt8.toBitVec

private theorem length_toList_loop (b : ByteArray) (i : Nat) (r : List UInt8) :
    (ByteArray.toList.loop b i r).length = r.length + (b.size - i) := by
  fun_induction ByteArray.toList.loop b i r with
  | case1 i r hi ih =>
    rw [ih, List.length_cons]
    omega
  | case2 i r hi =>
    rw [List.length_reverse]
    omega

/-- Unlike the bytes themselves, `decide` can count them. -/
theorem length_text (s : String) : (text s).length = s.utf8ByteSize := by
  rw [text, List.length_map, ByteArray.toList, length_toList_loop, List.length_nil, Nat.zero_add, Nat.sub_zero]
  rfl

theorem length_text_le {s : String} {n : Nat} (h : s.utf8ByteSize ≤ n) : (text s).length ≤ n :=
  (length_text s).trans_le h

structure LoadInfo where
  name : List Byte
  vendor : List Byte
  version : List Byte
  deriving DecidableEq

structure LoadError where
  status : Byte
  message : List Byte
  deriving DecidableEq

/-- A snapshot of one parameter; doubles by their bits. -/
structure ParamInfo where
  id : BitVec 32
  name : List Byte
  units : List Byte
  defaultValue : BitVec 64
  currentValue : BitVec 64
  stepCount : BitVec 32
  flags : Byte
  deriving DecidableEq

/-- `std::nan("")`. -/
def quietNaN : BitVec 64 := 0x7FF8000000000000

/-- `std::isnan`: all exponent bits, and some bit of the mantissa. -/
def isNaN (bits : BitVec 64) : Bool := bits.extractLsb' 52 11 == -1 && bits.setWidth 52 != 0

/-- `std::variant<LoadInfo, LoadError>`. -/
abbrev LoadResult := Except LoadError LoadInfo

def looksLikeClap (path : Path) : Bool := (text ".clap").isSuffixOf path

/-- `probe` is `ProbeIsVst2`: the file opens as a library with an entry symbol. -/
def looksLikeVst2 (probe : Path → Bool) (path : Path) : Bool :=
  if path.length < 4 then false
  else if !(text ".so").isSuffixOf path then false
  else probe path

def detectFormat (probe : Path → Bool) (path : Path) : SlotFormat :=
  if 5 ≤ path.length ∧ (text ".vst3").isSuffixOf path then .vst3
  else if looksLikeClap path then .clap
  else if looksLikeVst2 probe path then .vst2
  else .empty

/-- `dlerror()`: the pending message, which the call clears. -/
def dlerror (pending : Option (List Byte)) : Option (List Byte) × Option (List Byte) := (pending, none)

/-- `start + (dlerror() ? dlerror() : fallback)`. `none` is a string built from a null pointer. -/
def dlopenFailed (start fallback : List Byte) (pending : Option (List Byte)) : Option (List Byte) :=
  let (first, pending) := dlerror pending
  if first.isSome then (dlerror pending).1.map (start ++ ·) else some (start ++ fallback)

/-- What `PluginHost::Load` comes upon. `opens` is whether `fopen` opens the path. -/
inductive Vst3Module (P : Type) where
  | notCreated (errorString : List Byte) (opens : Bool)
  | noAudioEffect
  | notActivated (message : List Byte)
  | activated (plugin : P) (info : LoadInfo)

/-- What `Vst2Plugin::Load` comes upon. -/
inductive Vst2Module (P : Type) where
  | notOpened (opens : Bool) (pending : Option (List Byte))
  | noEntry
  | badEffect
  | activated (plugin : P) (info : LoadInfo)

/-- What `ClapPlugin::Load` comes upon. -/
inductive ClapModule (P : Type) where
  | notOpened (pending : Option (List Byte))
  | noEntry
  | nullMethods
  | entryInitFailed
  | noFactory
  | noAudioEffect
  | notCreated
  | pluginInitFailed
  | notActivated
  | notStarted
  | activated (plugin : P) (info : LoadInfo)

/-- What each format's loader finds behind a path, at a sample rate and block size. -/
structure Loader (P : Type) where
  probeIsVst2 : Path → Bool
  vst3 : Path → BitVec 64 → Int → Vst3Module P
  vst2 : Path → BitVec 64 → Int → Vst2Module P
  clap : Path → BitVec 64 → Int → ClapModule P

/-- A chain-level callback wrapped with the number of its slot. -/
structure Wrapped (C : Type) where
  slotIdx : Int
  callback : C

/-- A `PluginHost`, `Vst2Plugin` or `ClapPlugin`: the active plugin, its editor view
and the parameter callback. -/
structure SlotHost (P V C : Type) where
  active : Option P
  editorView : Option V
  paramChangedCallback : Option (Wrapped C)

namespace SlotHost
variable {P V C : Type}

/-- `std::make_unique`. -/
def fresh : SlotHost P V C := ⟨none, none, none⟩

def isLoaded (h : SlotHost P V C) : Bool := h.active.isSome

/-- The end of a successful `Load`: the new plugin is swapped in, and no view of the
old one stays. -/
def swapIn (h : SlotHost P V C) (plugin : P) : SlotHost P V C := { h with active := some plugin, editorView := none }

/-- `PluginHost::Load`. -/
def loadVst3 (h : SlotHost P V C) (path : Path) : Vst3Module P → LoadResult × SlotHost P V C
  | .notCreated errorString opens =>
    if opens then (.error ⟨2, text "VST3::Hosting::Module::create failed: " ++ errorString⟩, h)
    else (.error ⟨1, text "plugin path not found or not a valid VST3 module: " ++ path ++ text " (" ++
      errorString ++ text ")"⟩, h)
  | .noAudioEffect => (.error ⟨3, text "module has no kVstAudioEffectClass entries"⟩, h)
  | .notActivated message => (.error ⟨4, message⟩, h)
  | .activated plugin info => (.ok info, h.swapIn plugin)

/-- `Vst2Plugin::Load`. -/
def loadVst2 (h : SlotHost P V C) (path : Path) : Vst2Module P → Option (LoadResult × SlotHost P V C)
  | .notOpened opens pending =>
    if opens then (dlopenFailed (text "dlopen failed: ") (text "(no error string)") pending).map
      fun message => (.error ⟨2, message⟩, h)
    else some (.error ⟨1, text "plugin path not found: " ++ path⟩, h)
  | .noEntry => some (.error ⟨3, text "no VST2 entry symbol (VSTPluginMain / main_plugin / main) found"⟩, h)
  | .badEffect => some (.error ⟨4, text "VSTPluginMain returned null or bad-magic AEffect"⟩, h)
  | .activated plugin info => some (.ok info, h.swapIn plugin)

/-- `ClapPlugin::Load`. -/
def loadClap (h : SlotHost P V C) : ClapModule P → Option (LoadResult × SlotHost P V C)
  | .notOpened pending => (dlopenFailed (text "dlopen failed: ") (text "(no error)") pending).map
      fun message => (.error ⟨1, message⟩, h)
  | .noEntry => some (.error ⟨2, text "no clap_entry symbol — not a CLAP plugin"⟩, h)
  | .nullMethods => some (.error ⟨2, text "clap_entry has null required methods"⟩, h)
  | .entryInitFailed => some (.error ⟨4, text "clap_entry->init returned false"⟩, h)
  | .noFactory => some (.error ⟨3, text "no clap.plugin-factory in module"⟩, h)
  | .noAudioEffect => some (.error ⟨3, text "no audio-effect plugin in factory"⟩, h)
  | .notCreated => some (.error ⟨4, text "factory->create_plugin returned null"⟩, h)
  | .pluginInitFailed => some (.error ⟨4, text "plugin->init returned false"⟩, h)
  | .notActivated => some (.error ⟨4, text "plugin->activate returned false"⟩, h)
  | .notStarted => some (.error ⟨4, text "plugin->start_processing returned false"⟩, h)
  | .activated plugin info => some (.ok info, h.swapIn plugin)

/-- `Load` of the object that `LoadSlot` makes for a format; `none` is a crash. -/
def load (l : Loader P) (h : SlotHost P V C) (fmt : SlotFormat) (path : Path) (sampleRate : BitVec 64)
    (maxBlockSize : Int) : Option (LoadResult × SlotHost P V C) :=
  match fmt with
  | .vst3 => some (h.loadVst3 path (l.vst3 path sampleRate maxBlockSize))
  | .vst2 => h.loadVst2 path (l.vst2 path sampleRate maxBlockSize)
  | .clap => h.loadClap (l.clap path sampleRate maxBlockSize)
  | .empty => none

def setParamChangedCallback (h : SlotHost P V C) (wrap : Option (Wrapped C)) : SlotHost P V C :=
  { h with paramChangedCallback := wrap }

/-- The view, created on the first call; `create` is what the plugin then offers. -/
def acquireEditorView (create : P → Option V) (h : SlotHost P V C) : Option V × SlotHost P V C :=
  match h.active with
  | none => (none, h)
  | some p => match h.editorView with
    | some view => (some view, h)
    | none => match create p with
      | none => (none, h)
      | some view => (some view, { h with editorView := some view })

/-- `ListParams`: nothing unless a plugin is active; `params` is what it then lists. -/
def listParams (params : P → List ParamInfo) (h : SlotHost P V C) : List ParamInfo :=
  match h.active with
  | none => []
  | some p => params p

/-- `SetParam`: NaN unless a plugin is active; `set` is what it then answers. -/
def setParam (set : P → BitVec 32 → BitVec 64 → BitVec 64 × P) (h : SlotHost P V C) (paramId : BitVec 32)
    (normalized : BitVec 64) : BitVec 64 × SlotHost P V C :=
  match h.active with
  | none => (quietNaN, h)
  | some p =>
    let (v, p) := set p paramId normalized
    (v, { h with active := some p })

def releaseEditorView (h : SlotHost P V C) : SlotHost P V C := { h with editorView := none }

@[simp] theorem isLoaded_setParamChangedCallback (h : SlotHost P V C) (wrap : Option (Wrapped C)) :
    (h.setParamChangedCallback wrap).isLoaded = h.isLoaded := rfl

@[simp] theorem isLoaded_releaseEditorView (h : SlotHost P V C) : h.releaseEditorView.isLoaded = h.isLoaded := rfl

@[simp] theorem isLoaded_setParam (set : P → BitVec 32 → BitVec 64 → BitVec 64 × P) (h : SlotHost P V C)
    (paramId : BitVec 32) (normalized : BitVec 64) :
    (h.setParam set paramId normalized).2.isLoaded = h.isLoaded := by
  unfold setParam
  split
  · rfl
  · rename_i p hp
    simp [isLoaded, hp]

@[simp] theorem isLoaded_acquireEditorView (create : P → Option V) (h : SlotHost P V C) :
    (h.acquireEditorView create).2.isLoaded = h.isLoaded := by
  unfold acquireEditorView
  split
  · rfl
  · split
    · rfl
    · split <;> rfl

/-- `Load` fails and leaves the object alone, or swaps a plugin in. -/
inductive Loads (h : SlotHost P V C) : LoadResult → SlotHost P V C → Prop
  | failed (e : LoadError) : Loads h (.error e) h
  | swapped (plugin : P) (info : LoadInfo) : Loads h (.ok info) (h.swapIn plugin)

variable {h h' : SlotHost P V C} {path : Path} {r : LoadResult}

private theorem loads_vst3 {m : Vst3Module P} (hl : h.loadVst3 path m = (r, h')) : h.Loads r h' := by
  cases m with
  | notCreated errorString opens =>
    cases opens <;> cases hl <;> exact .failed _
  | noAudioEffect | notActivated =>
    cases hl
    exact .failed _
  | activated =>
    cases hl
    exact .swapped _ _

private theorem loads_vst2 {m : Vst2Module P} (hl : h.loadVst2 path m = some (r, h')) : h.Loads r h' := by
  cases m with
  | notOpened opens pending =>
    cases opens with
    | false =>
      cases hl
      exact .failed _
    | true =>
      obtain ⟨message, -, heq⟩ := Option.map_eq_some_iff.mp hl
      cases heq
      exact .failed _
  | noEntry | badEffect =>
    cases hl
    exact .failed _
  | activated =>
    cases hl
    exact .swapped _ _

private theorem loads_clap {m : ClapModule P} (hl : h.loadClap m = some (r, h')) : h.Loads r h' := by
  cases m with
  | notOpened pending =>
    obtain ⟨message, -, heq⟩ := Option.map_eq_some_iff.mp hl
    cases heq
    exact .failed _
  | activated =>
    cases hl
    exact .swapped _ _
  | _ =>
    cases hl
    exact .failed _

variable {l : Loader P} {fmt : SlotFormat} {sampleRate : BitVec 64} {maxBlockSize : Int}

theorem loads_of_load (hl : load l h fmt path sampleRate maxBlockSize = some (r, h')) : h.Loads r h' := by
  cases fmt with
  | empty => cases hl
  | vst3 => exact loads_vst3 (Option.some.inj hl)
  | vst2 => exact loads_vst2 hl
  | clap => exact loads_clap hl

/-- `Load` reports success exactly when it leaves a plugin active in a fresh object. -/
theorem isLoaded_load (hl : load l fresh fmt path sampleRate maxBlockSize = some (r, h)) : h.isLoaded = r.isOk := by
  cases loads_of_load hl with
  | failed | swapped => rfl

/-- Loading installs no callback. -/
theorem callback_load (hl : load l h fmt path sampleRate maxBlockSize = some (r, h')) :
    h'.paramChangedCallback = h.paramChangedCallback := by
  cases loads_of_load hl with
  | failed | swapped => rfl

end SlotHost
end Plughost.Vst3
