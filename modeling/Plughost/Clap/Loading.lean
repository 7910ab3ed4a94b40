import Plughost.Lib.Monitors
import Plughost.Vst3.PluginLoad

/-! `ClapPlugin::Load` and `Vst2Plugin::Load`: what each acquires and gives back, for every
way the loader, the entry and the plugin answer. -/
namespace Plughost.Clap.Loading
open Plughost.Ipc.ControlPipe (Byte)
open Plughost.Vst3 Plughost.Monitors

/-- What a bring-up acquires, in this order: `dlopen`, `entry->init`, the plugin,
`activate` (`effMainsChanged`), `start_processing` (`effStartProcess`). -/
inductive Resource where
  | library | entryInit | plugin | activation | processing
  deriving DecidableEq, Repr

/-- Whose resource it is: the plugin being loaded's, or the one's that was active before. -/
inductive Owner where
  | fresh | prior
  deriving DecidableEq, Repr

def usesOf (o : Owner) (uses : List (Owner × Use Resource)) : List (Use Resource) :=
  uses.filterMap fun u => if u.1 = o then some u.2 else none

/-- `ClapPlugin::Impl` and `Vst2Plugin::Impl`: a slot object with the info of its last successful load. -/
structure Impl (P V C : Type) extends SlotHost P V C where
  currentInfo : LoadInfo

/-- A format's active record, with what it holds, last acquired first. -/
class Active (P : Type) where
  held : P → List Resource

/-- `TearDownActive`. -/
def tearDownActive {P : Type} [Active P] (p : P) : List (Owner × Use Resource) :=
  (Active.held p).map fun r => (.prior, .release r)

/-- The end of a successful load: the editor wrapper is dropped, the record swapped in
and the one before it torn down. -/
def publish {P V C : Type} [Active P] (h : Impl P V C) (p : P) (info : LoadInfo) :
    (LoadResult × Impl P V C) × List (Owner × Use Resource) :=
  ((.ok info, { h.swapIn p with currentInfo := info }), match h.active with
    | none => []
    | some prior => tearDownActive prior)

/-- What `Load` returns, `none` when a string is built from a null pointer, and what it used. -/
abbrev Outcome (P V C : Type) := Option (LoadResult × Impl P V C) × List (Owner × Use Resource)

/-- A failure, with the hand-written unwinding of its branch. -/
def fail {P V C : Type} (h : Impl P V C) (acquired released : List Resource) (status : Byte) (message : String) :
    Outcome P V C :=
  (some (.error ⟨status, text message⟩, h),
    (acquired.map fun r => (.fresh, .acquire r)) ++ released.map fun r => (.fresh, .release r))

/-! CLAP. -/

/-- A plugin descriptor; `none` is a null string. -/
structure Descriptor where
  id : Option (List Byte)
  name : Option (List Byte)
  vendor : Option (List Byte)
  version : Option (List Byte)
  features : Option (List (List Byte))

/-- How the loader, the entry, the factory and the plugin answer. -/
structure ClapAnswers where
  dlopen : Bool
  dlerror : Option (List Byte)
  clapEntry : Bool
  entryMethods : Bool
  entryInit : Bool
  factory : Bool
  descriptors : List (Option Descriptor)
  createPlugin : Bool
  pluginInit : Bool
  activate : Bool
  startProcessing : Bool

structure ActiveClap where
  dlHandle : Bool
  entryInit : Bool
  plugin : Bool
  active : Bool
  processing : Bool
  info : LoadInfo

/-- `TearDownActive`, by the record's pointers and flags. -/
instance : Active ActiveClap where
  held a := (if a.plugin then
      (if a.processing then [Resource.processing] else []) ++ (if a.active then [.activation] else []) ++ [.plugin]
    else []) ++ (if a.entryInit then [.entryInit] else []) ++ if a.dlHandle then [.library] else []

def isEffect (d : Descriptor) : Bool := (d.features.getD []).contains (text "audio-effect")

/-- The id is empty when there is no effect, or its own id is null or empty. -/
def pickEffectPluginId : List (Option Descriptor) → List Byte × LoadInfo
  | [] => ([], ⟨[], [], []⟩)
  | none :: rest => pickEffectPluginId rest
  | some d :: rest =>
    if isEffect d then
      (d.id.getD [], { name := d.name.getD (text "(unknown)"), vendor := d.vendor.getD (text "(unknown)"),
                       version := d.version.getD [] })
    else pickEffectPluginId rest

variable {V C : Type}

/-- `ClapPlugin::Load`. -/
def loadClap (h : Impl ActiveClap V C) (a : ClapAnswers) : Outcome ActiveClap V C :=
  if !a.dlopen then
    ((dlopenFailed (text "dlopen failed: ") (text "(no error)") a.dlerror).map
      fun message => (.error ⟨1, message⟩, h), [])
  else if !a.clapEntry then
    fail h [.library] [.library] 2 "no clap_entry symbol — not a CLAP plugin"
  else if !a.entryMethods then
    fail h [.library] [.library] 2 "clap_entry has null required methods"
  else if !a.entryInit then
    fail h [.library] [.library] 4 "clap_entry->init returned false"
  else if !a.factory then
    fail h [.library, .entryInit] [.entryInit, .library] 3 "no clap.plugin-factory in module"
  else
    let (pluginId, info) := pickEffectPluginId a.descriptors
    if pluginId.isEmpty then
      fail h [.library, .entryInit] [.entryInit, .library] 3 "no audio-effect plugin in factory"
    else if !a.createPlugin then
      fail h [.library, .entryInit] [.entryInit, .library] 4 "factory->create_plugin returned null"
    else if !a.pluginInit then
      fail h [.library, .entryInit, .plugin] [.plugin, .entryInit, .library] 4 "plugin->init returned false"
    else if !a.activate then
      fail h [.library, .entryInit, .plugin] [.plugin, .entryInit, .library] 4 "plugin->activate returned false"
    else if !a.startProcessing then
      fail h [.library, .entryInit, .plugin, .activation] [.activation, .plugin, .entryInit, .library] 4
        "plugin->start_processing returned false"
    else
      let (out, uses) := publish h ⟨true, true, true, true, true, info⟩ info
      (some out, ([.library, .entryInit, .plugin, .activation, .processing].map fun r => (.fresh, .acquire r)) ++ uses)

/-! VST2. -/

def kEntryPointNames : List (List Byte) := [text "VSTPluginMain", text "main_plugin", text "main"]

def kEffectMagic : BitVec 32 := 0x56737450

/-- How the loader, the file system and the plugin answer; `effect` is the magic of the
`AEffect` that the entry returns. -/
structure Vst2Answers where
  dlopen : Bool
  dlerror : Option (List Byte)
  fopen : Bool
  dlsym : List Byte → Bool
  effect : Option (BitVec 32)
  effectName : List Byte
  vendor : List Byte
  vendorVersion : Int

structure ActiveVst2 where
  dlHandle : Bool
  effect : Bool
  info : LoadInfo

instance : Active ActiveVst2 where
  held a := (if a.effect then [.processing, .activation, .plugin] else []) ++ if a.dlHandle then [.library] else []

def Vst2Answers.info (a : Vst2Answers) : LoadInfo :=
  { name := if a.effectName.isEmpty then text "(unknown)" else a.effectName,
    vendor := if a.vendor.isEmpty then text "(unknown)" else a.vendor,
    version := text (toString a.vendorVersion) }

/-- `Vst2Plugin::Load`. -/
def loadVst2 (path : Path) (h : Impl ActiveVst2 V C) (a : Vst2Answers) : Outcome ActiveVst2 V C :=
  if !a.dlopen then
    if a.fopen then
      ((dlopenFailed (text "dlopen failed: ") (text "(no error string)") a.dlerror).map
        fun message => (.error ⟨2, message⟩, h), [])
    else (some (.error ⟨1, text "plugin path not found: " ++ path⟩, h), [])
  else if !kEntryPointNames.any a.dlsym then
    fail h [.library] [.library] 3 "no VST2 entry symbol (VSTPluginMain / main_plugin / main) found"
  else if a.effect ≠ some kEffectMagic then
    fail h [.library] [.library] 4 "VSTPluginMain returned null or bad-magic AEffect"
  else
    let (out, uses) := publish h ⟨true, true, a.info⟩ a.info
    (some out, ([.library, .plugin, .activation, .processing].map fun r => (.fresh, .acquire r)) ++ uses)

/-- The load returns; a failure gives back what it acquired, last first, and leaves the plugin
and info from before alone; a success holds what the new record says, and the plugin from
before gives back all it held. -/
def Clean {P : Type} [Active P] (before : Impl P V C) (out : Outcome P V C) : Prop :=
  ∃ r after, out.1 = some (r, after) ∧ match r with
    | .error _ => after = before ∧ observe lifo [] (usesOf .fresh out.2) = some [] ∧ usesOf .prior out.2 = []
    | .ok info => after.currentInfo = info ∧
      (∃ p, after.active = some p ∧ observe lifo [] (usesOf .fresh out.2) = some (Active.held p)) ∧
      match before.active with
      | none => usesOf .prior out.2 = []
      | some prior => observe lifo (Active.held prior) (usesOf .prior out.2) = some []

section Clean
variable {P : Type} [Active P] {h : Impl P V C} {p : P} {info : LoadInfo} {acquired released : List Resource}

@[simp] theorem usesOf_append (o : Owner) (us vs : List (Owner × Use Resource)) :
    usesOf o (us ++ vs) = usesOf o us ++ usesOf o vs := List.filterMap_append

@[simp] theorem usesOf_map (o o' : Owner) (use : Resource → Use Resource) (rs : List Resource) :
    usesOf o (rs.map fun r => (o', use r)) = if o' = o then rs.map use else [] := by
  induction rs with
  | nil => simp [usesOf]
  | cons r rs ih =>
    rw [List.map_cons, ← List.singleton_append, usesOf_append, ih]
    split <;> simp_all [usesOf]

/-- A branch that gives back what it acquired, in reverse, is clean. -/
private theorem clean_fail {status : Byte} {message : String} (hr : released = acquired.reverse) :
    Clean h (fail h acquired released status message) := by
  subst hr
  refine ⟨_, _, rfl, rfl, ?_, ?_⟩
  · simp only [fail, usesOf_append, usesOf_map, if_pos]
    rw [observe_append_of (observe_acquire [] acquired)]
    exact observe_release acquired.reverse []
  · simp [fail, -List.map_reverse]

private theorem clean_publish (hp : Active.held p = acquired.reverse) : Clean h (some (publish h p info).1,
    (acquired.map fun r => (.fresh, .acquire r)) ++ (publish h p info).2) := by
  refine ⟨_, _, rfl, rfl, ⟨p, rfl, ?_⟩, ?_⟩
  · have hprior : usesOf .fresh (publish h p info).2 = [] := by
      unfold publish tearDownActive
      split <;> simp [usesOf]
    rw [usesOf_append, hprior, List.append_nil, usesOf_map, if_pos rfl, observe_acquire, hp, List.append_nil]
  · unfold publish tearDownActive
    cases h.active with
    | none => simp [usesOf]
    | some prior =>
      have hrelease := observe_release (Active.held prior) []
      simpa using hrelease

/-- What goes wrong before anything is acquired. -/
private theorem clean_dlopen {message : Option (List Byte)} {status : Byte} :
    Clean h (message.map fun m => (.error ⟨status, m⟩, h), []) ↔ message.isSome := by
  cases message with
  | none =>
    refine iff_of_false ?_ nofun
    rintro ⟨r, after, hout, -⟩
    cases hout
  | some m => exact iff_of_true ⟨_, _, rfl, rfl, rfl, rfl⟩ rfl

end Clean

private theorem dlopenFailed_isSome {start fallback : List Byte} {pending : Option (List Byte)} :
    (dlopenFailed start fallback pending).isSome ↔ pending = none := by
  cases pending <;> simp [dlopenFailed, dlerror]

/-- CLAP loading is clean unless `dlopen` fails with its message pending. -/
theorem loadClap_clean_iff (h : Impl ActiveClap V C) (a : ClapAnswers) :
    Clean h (loadClap h a) ↔ (a.dlopen ∨ a.dlerror = none) := by
  unfold loadClap
  cases a.dlopen with
  | false =>
    rw [or_iff_right Bool.false_ne_true]
    exact clean_dlopen.trans dlopenFailed_isSome
  | true =>
    refine iff_of_true ?_ (.inl rfl)
    cases a.clapEntry; · exact clean_fail rfl
    cases a.entryMethods; · exact clean_fail rfl
    cases a.entryInit; · exact clean_fail rfl
    cases a.factory; · exact clean_fail rfl
    obtain ⟨pluginId, info⟩ := pickEffectPluginId a.descriptors
    cases hid : pluginId.isEmpty with
    | true =>
      simp only [hid, Bool.not_true, Bool.false_eq_true, if_false, if_true]
      exact clean_fail rfl
    | false =>
      simp only [hid, Bool.not_true, Bool.false_eq_true, if_false]
      cases a.createPlugin; · exact clean_fail rfl
      cases a.pluginInit; · exact clean_fail rfl
      cases a.activate; · exact clean_fail rfl
      cases a.startProcessing; · exact clean_fail rfl
      exact clean_publish rfl

/-- VST2 loading is clean unless `dlopen` fails on a file that opens, with its message pending. -/
private theorem loadVst2_clean_iff (path : Path) (h : Impl ActiveVst2 V C) (a : Vst2Answers) :
    Clean h (loadVst2 path h a) ↔ (a.dlopen ∨ a.fopen = false ∨ a.dlerror = none) := by
  unfold loadVst2
  cases a.dlopen with
  | false =>
    rw [or_iff_right Bool.false_ne_true]
    cases a.fopen with
    | false => exact iff_of_true ⟨_, _, rfl, rfl, rfl, rfl⟩ (.inl rfl)
    | true =>
      rw [or_iff_right Bool.true_eq_false.mp]
      exact clean_dlopen.trans dlopenFailed_isSome
  | true =>
    refine iff_of_true ?_ (.inl rfl)
    cases kEntryPointNames.any a.dlsym; · exact clean_fail rfl
    by_cases heff : a.effect = some kEffectMagic
    · rw [if_neg (not_not_intro heff)]
      exact clean_publish rfl
    · rw [if_pos heff]
      exact clean_fail rfl

/-- Both loaders: exactly the loads whose `dlopen` fails with a message to report go wrong, and
for VST2 only if the file itself opens. -/
theorem load_clean_iff (path : Path) (h : Impl ActiveClap V C) (a : ClapAnswers) (h' : Impl ActiveVst2 V C)
    (a' : Vst2Answers) :
    (Clean h (loadClap h a) ↔ (a.dlopen ∨ a.dlerror = none)) ∧
      (Clean h' (loadVst2 path h' a') ↔ (a'.dlopen ∨ a'.fopen = false ∨ a'.dlerror = none)) :=
  ⟨loadClap_clean_iff h a, loadVst2_clean_iff path h' a'⟩

/-- A file that is not a library, with the loader's message about it. -/
theorem loadClap_unclean : ¬ Clean (V := Unit) (C := Unit) ⟨.fresh, ⟨[], [], []⟩⟩ (loadClap ⟨.fresh, ⟨[], [], []⟩⟩
    ⟨false, some (text "invalid ELF header"), false, false, false, false, [], false, false, false, false⟩) := by
  rintro ⟨r, after, hout, -⟩
  cases hout

/-! The slot object's view of a load. -/

def clapModule (a : ClapAnswers) : ClapModule ActiveClap :=
  if !a.dlopen then .notOpened a.dlerror
  else if !a.clapEntry then .noEntry
  else if !a.entryMethods then .nullMethods
  else if !a.entryInit then .entryInitFailed
  else if !a.factory then .noFactory
  else if (pickEffectPluginId a.descriptors).1.isEmpty then .noAudioEffect
  else if !a.createPlugin then .notCreated
  else if !a.pluginInit then .pluginInitFailed
  else if !a.activate then .notActivated
  else if !a.startProcessing then .notStarted
  else .activated ⟨true, true, true, true, true, (pickEffectPluginId a.descriptors).2⟩ (pickEffectPluginId a.descriptors).2

def vst2Module (a : Vst2Answers) : Vst2Module ActiveVst2 :=
  if !a.dlopen then .notOpened a.fopen a.dlerror
  else if !kEntryPointNames.any a.dlsym then .noEntry
  else if a.effect ≠ some kEffectMagic then .badEffect
  else .activated ⟨true, true, a.info⟩ a.info

/-- The slot's `Load` is this one without the resources. -/
theorem loadClap_eq (h : Impl ActiveClap V C) (a : ClapAnswers) :
    (loadClap h a).1.map (fun out => (out.1, out.2.toSlotHost)) = h.toSlotHost.loadClap (clapModule a) := by
  unfold loadClap clapModule
  cases a.dlopen with
  | false => cases a.dlerror <;> rfl
  | true =>
    cases a.clapEntry; · rfl
    cases a.entryMethods; · rfl
    cases a.entryInit; · rfl
    cases a.factory; · rfl
    obtain ⟨pluginId, info⟩ := pickEffectPluginId a.descriptors
    cases hid : pluginId.isEmpty with
    | true =>
      simp only [hid, Bool.not_true, Bool.false_eq_true, if_false, if_true]
      rfl
    | false =>
      simp only [hid, Bool.not_true, Bool.false_eq_true, if_false]
      cases a.createPlugin; · rfl
      cases a.pluginInit; · rfl
      cases a.activate; · rfl
      cases a.startProcessing <;> rfl

theorem loadVst2_eq (path : Path) (h : Impl ActiveVst2 V C) (a : Vst2Answers) :
    (loadVst2 path h a).1.map (fun out => (out.1, out.2.toSlotHost)) = h.toSlotHost.loadVst2 path (vst2Module a) := by
  unfold loadVst2 vst2Module
  cases a.dlopen with
  | false => cases a.fopen <;> cases a.dlerror <;> rfl
  | true =>
    by_cases hsym : kEntryPointNames.any a.dlsym
    · by_cases heff : a.effect = some kEffectMagic
      · simp [hsym, heff, publish, SlotHost.loadVst2]
      · simp [hsym, heff, fail, SlotHost.loadVst2]
    · simp [hsym, fail, SlotHost.loadVst2]

end Plughost.Clap.Loading
