import Plughost.Lib.BoundedQueue
import Plughost.Lib.Ieee
import Plughost.Vst3.PendingChanges
import Plughost.Vst3.SlotTable

/-! `ListParams` and `SetParam` of the three hosts, over whatever the plugin answers, and the plugin
that a request on a slot reaches. -/
namespace Plughost.Vst3.ParamAccess
open Plughost.BoundedQueue Plughost.Ieee Plughost.Ipc.ControlPipe

/-- `ParameterInfo`, the texts as `StringConvert::convert` gives them. -/
structure ParameterInfo where
  id : ParamID
  title : List Byte
  units : List Byte
  stepCount : BitVec 32
  defaultNormalizedValue : BitVec 64
  flags : BitVec 32

def kCanAutomate : BitVec 32 := 1 <<< 0
def kIsReadOnly : BitVec 32 := 1 <<< 1
def kIsList : BitVec 32 := 1 <<< 3
def kIsHidden : BitVec 32 := 1 <<< 4

/-- A VST3 plugin's `IEditController`, on its state. -/
structure EditController (C : Type) where
  getParameterCount : C → BitVec 32
  /-- `none` unless `kResultOk`. -/
  getParameterInfo : C → BitVec 32 → Option ParameterInfo
  getParamNormalized : C → ParamID → BitVec 64
  setParamNormalized : C → ParamID → BitVec 64 → C

/-- A VST2 plugin's `AEffect`; the texts are what the dispatcher leaves in the buffers. -/
structure AEffect (E : Type) where
  numParams : E → BitVec 32
  getParamName : E → BitVec 32 → List Byte
  getParamLabel : E → BitVec 32 → List Byte
  getParameter : E → BitVec 32 → BitVec 32
  setParameter : E → BitVec 32 → BitVec 32 → E

/-- `clap_param_info_t`. -/
structure ClapParamInfo where
  id : BitVec 32
  name : List Byte
  defaultValue : BitVec 64
  flags : BitVec 32

def CLAP_PARAM_IS_AUTOMATABLE : BitVec 32 := 1 <<< 5

/-- A CLAP plugin's `clap_plugin_params`; `getValue` is `none` where it leaves the value alone. -/
structure ClapParams (K : Type) where
  count : K → BitVec 32
  getInfo : K → BitVec 32 → Option ClapParamInfo
  getValue : K → BitVec 32 → Option (BitVec 64)

/-- The code of the plugins. -/
structure Code (C E K : Type) where
  controller : EditController C
  effect : AEffect E
  params : ClapParams K

/-- What the calls use of `ActivePlugin`. -/
structure ActivePlugin (C : Type) where
  controller : Option C
  pendingChanges : List (ParamID × BitVec 64)

/-- What the calls use of `ActiveClap`, and the pending changes of its host. -/
structure ActiveClap (K : Type) where
  plugin : K
  paramsExt : Bool
  pendingChanges : List (ParamID × BitVec 64)

inductive Plugin (C E K : Type) where
  | vst3 (a : ActivePlugin C)
  | vst2 (effect : E)
  | clap (a : ActiveClap K)

/-- A value as the VST3 or VST2 host hands it to a plugin, by its bits. -/
inductive Handed where
  | setParamNormalized (paramId : ParamID) (value : BitVec 64)
  | inputParameterChange (paramId : ParamID) (value : BitVec 64)
  | setParameter (index : BitVec 32) (value : BitVec 32)
  deriving DecidableEq, Repr

/-- `static_cast<float>`. -/
def toFloat (x : BitVec 64) : BitVec 32 := BitVec.ofNat 32 (binary64.convert binary32 x.toNat)

/-- `static_cast<double>`. -/
def toDouble (x : BitVec 32) : BitVec 64 := BitVec.ofNat 64 (binary32.convert binary64 x.toNat)

/-- `a < b` on `double`. -/
def lt (a b : BitVec 64) : Bool := (binary64.decode a.toNat).lt (binary64.decode b.toNat)

/-- `0.0`. -/
def zero : BitVec 64 := 0

/-- `1.0`. -/
def one : BitVec 64 := 0x3FF0000000000000

/-- The two comparisons of `SetParam`. -/
def clamp (normalized : BitVec 64) : BitVec 64 :=
  let normalized := if lt normalized zero then zero else normalized
  if lt one normalized then one else normalized

namespace Plugin
variable {C E K : Type} (code : Code C E K)

/-- `PluginHost::ListParams`, with a controller. -/
def listVst3 (c : C) : List ParamInfo :=
  let count := code.controller.getParameterCount c
  if count.sle 0 then []
  else (List.range count.toNat).filterMap fun i => (code.controller.getParameterInfo c (BitVec.ofNat 32 i)).map fun pi =>
    { id := pi.id, name := pi.title, units := pi.units, defaultValue := pi.defaultNormalizedValue,
      currentValue := code.controller.getParamNormalized c pi.id, stepCount := pi.stepCount,
      flags := (if pi.flags &&& kIsReadOnly ≠ 0 then 0x01 else 0) ||| (if pi.flags &&& kCanAutomate ≠ 0 then 0x02 else 0) |||
        (if pi.flags &&& kIsHidden ≠ 0 then 0x04 else 0) ||| if pi.flags &&& kIsList ≠ 0 then 0x08 else 0 }

/-- `BuildParamInfo`. -/
def buildParamInfo (e : E) (idx : BitVec 32) : ParamInfo :=
  { id := idx, name := code.effect.getParamName e idx, units := code.effect.getParamLabel e idx, defaultValue := 0,
    currentValue := toDouble (code.effect.getParameter e idx), stepCount := 0, flags := 0x02 }

/-- `Vst2Plugin::ListParams`. -/
def listVst2 (e : E) : List ParamInfo :=
  let n := code.effect.numParams e
  if n.sle 0 then [] else (List.range n.toNat).map fun i => buildParamInfo code e (BitVec.ofNat 32 i)

/-- `ClapPlugin::ListParams`, with the extension there. -/
def listClap (k : K) : List ParamInfo :=
  (List.range (code.params.count k).toNat).filterMap fun i => (code.params.getInfo k (BitVec.ofNat 32 i)).map fun pi =>
    { id := pi.id, name := pi.name, units := [], defaultValue := pi.defaultValue,
      currentValue := (code.params.getValue k pi.id).getD 0, stepCount := 0,
      flags := if pi.flags &&& CLAP_PARAM_IS_AUTOMATABLE ≠ 0 then 0x02 else 0 }

def listParams : Plugin C E K → List ParamInfo
  | .vst3 a => match a.controller with
    | none => []
    | some c => listVst3 code c
  | .vst2 e => listVst2 code e
  | .clap a => if a.paramsExt then listClap code a.plugin else []

/-- `SetParam` of the three hosts: the result, the plugin after it, and what it was handed. -/
def setParam (p : Plugin C E K) (paramId : ParamID) (normalized : BitVec 64) :
    BitVec 64 × Plugin C E K × List Handed :=
  match p with
  | .vst3 a => match a.controller with
    | none => (quietNaN, p, [])
    | some c =>
      let normalized := clamp normalized
      let c := code.controller.setParamNormalized c paramId normalized
      (code.controller.getParamNormalized c paramId,
        .vst3 { controller := some c, pendingChanges := push kPendingCap a.pendingChanges (paramId, normalized) },
        [.setParamNormalized paramId normalized])
  | .vst2 e =>
    if code.effect.numParams e ≤ paramId then (quietNaN, p, [])
    else
      let value := toFloat (clamp normalized)
      let e := code.effect.setParameter e paramId value
      (toDouble (code.effect.getParameter e paramId), .vst2 e, [.setParameter paramId value])
  | .clap a =>
    (normalized, .clap { a with pendingChanges := push kPendingCap a.pendingChanges (paramId, normalized) }, [])

/-- `SetParam` as the chain sees it. -/
def set (p : Plugin C E K) (paramId : ParamID) (normalized : BitVec 64) : BitVec 64 × Plugin C E K :=
  ((p.setParam code paramId normalized).1, (p.setParam code paramId normalized).2.1)

/-- The changes that wait for a VST3 plugin's next block. -/
def waiting : Plugin C E K → List (ParamID × BitVec 64)
  | .vst3 a => a.pendingChanges
  | .vst2 _ | .clap _ => []

/-- The drain of `Process`, when it takes the lock: what a VST3 plugin's block is handed, for the ids
that `addParameterData` has a queue for. -/
def drain (hasQueue : ParamID → Bool) : Plugin C E K → Plugin C E K × List Handed
  | .vst3 a => (.vst3 { a with pendingChanges := [] },
      (a.pendingChanges.filter fun pc => hasQueue pc.1).map fun pc => .inputParameterChange pc.1 pc.2)
  | .vst2 e => (.vst2 e, [])
  | .clap a => (.clap { a with pendingChanges := [] }, [])

end Plugin

/-! The clamp, over all patterns. -/

/-- What `std::isnan` tests. -/
theorem isNaN_iff (x : BitVec 64) : isNaN x = true ↔ binary64.decode x.toNat = .nan := by
  have hexp : (x.extractLsb' 52 11 == -1) = decide (x.toNat / 2 ^ 52 % 2 ^ 11 = 2047) := by
    rw [← Bool.coe_iff_coe]
    simp [BitVec.toNat_eq, Nat.shiftRight_eq_div_pow]
  have hfrac : (x.setWidth 52 != 0) = decide (x.toNat % 2 ^ 52 ≠ 0) := by
    rw [← Bool.coe_iff_coe]
    simp [BitVec.toNat_eq]
  have hmagnitude : isNaN x = true ↔ binary64.infinity < x.toNat % binary64.signUnit := by
    rw [isNaN, hexp, hfrac, show binary64.infinity = 2047 * 2 ^ 52 by decide,
      show binary64.signUnit = 2 ^ 63 by decide, Bool.and_eq_true, decide_eq_true_eq, decide_eq_true_eq]
    omega
  rw [hmagnitude]
  unfold Format.decode
  dsimp only
  split
  · simp_all
  · split <;> simp_all

private theorem decode_zero : binary64.decode zero.toNat = .finite 0 := by
  decide +kernel

private theorem decode_one : binary64.decode one.toNat = .finite binary64.one := by
  decide +kernel

/-- Both comparisons are false of a NaN. -/
theorem clamp_of_nan {x : BitVec 64} (h : isNaN x = true) : clamp x = x := by
  have hlow : lt x zero = false := by
    rw [lt, (isNaN_iff x).mp h]
    rfl
  have hhigh : lt one x = false := by
    rw [lt, (isNaN_iff x).mp h, decode_one]
    rfl
  simp only [clamp, hlow, hhigh, Bool.false_eq_true, if_false]

private theorem unit_zero : binary64.Unit zero.toNat := ⟨0, decode_zero, le_rfl, Int.natCast_nonneg _⟩

private theorem unit_one : binary64.Unit one.toNat := ⟨binary64.one, decode_one, Int.natCast_nonneg _, le_rfl⟩

/-- Every other pattern is clamped into `[0, 1]`. -/
theorem unit_clamp {x : BitVec 64} (h : isNaN x = false) : binary64.Unit (clamp x).toNat := by
  have hzero : lt one zero = false := by
    rw [lt, decode_one, decode_zero]
    decide +kernel
  unfold clamp
  dsimp only
  by_cases hlow : lt x zero
  · simp only [hlow, if_true, hzero, Bool.false_eq_true, if_false]
    exact unit_zero
  · simp only [hlow, Bool.false_eq_true, if_false]
    by_cases hhigh : lt one x
    · rw [if_pos hhigh]
      exact unit_one
    · rw [if_neg hhigh]
      rw [lt, decode_zero] at hlow
      rw [lt, decode_one] at hhigh
      cases hx : binary64.decode x.toNat with
      | nan => exact absurd ((isNaN_iff x).mpr hx) (by simp [h])
      | infinite negative =>
        rw [hx] at hlow hhigh
        cases negative
        · exact absurd rfl hhigh
        · exact absurd rfl hlow
      | finite n =>
        rw [hx] at hlow hhigh
        exact ⟨n, hx, Int.not_lt.mp fun h => hlow (decide_eq_true h), Int.not_lt.mp fun h => hhigh (decide_eq_true h)⟩

theorem not_unit_of_nan {F : Format} {bits : Nat} (h : F.decode bits = .nan) : ¬ F.Unit bits := by
  rintro ⟨n, hn, -⟩
  rw [h] at hn
  cases hn

private theorem decode_toFloat (x : BitVec 64) :
    binary32.decode (toFloat x).toNat = binary32.decode (binary64.convert binary32 x.toNat) := by
  rw [toFloat, BitVec.toNat_ofNat, show 2 ^ 32 = binary32.signUnit * 2 by decide, Format.decode_mod]

theorem unit_toFloat {x : BitVec 64} (h : binary64.Unit x.toNat) : binary32.Unit (toFloat x).toNat := by
  obtain ⟨n, hn, hrange⟩ := Format.convert_unit (G := binary32) (by decide) h
  exact ⟨n, (decode_toFloat x).trans hn, hrange⟩

theorem not_unit_toFloat {x : BitVec 64} (h : isNaN x = true) : ¬ binary32.Unit (toFloat x).toNat := by
  refine not_unit_of_nan ?_
  rw [decode_toFloat]
  exact Format.convert_nan (by decide) ((isNaN_iff x).mp h)

section Reached
variable {P V Cb α : Type} {ch : SlotTable P V Cb α} {slotIdx : Int} {i : Fin kMaxSlots} {host : SlotHost P V Cb} {p : P}

/-- The slot, the host object and the plugin that a request reaches. -/
def reached (ch : SlotTable P V Cb α) (slotIdx : Int) : Option (Fin kMaxSlots × SlotHost P V Cb × P) :=
  match slotIndex slotIdx with
  | none => none
  | some i =>
    if !ch.loaded i then none
    else match ch.pointer (ch.format i) i with
      | none => none
      | some host => host.active.map fun p => (i, host, p)

theorem reached_cases (h : reached ch slotIdx = some (i, host, p)) : slotIndex slotIdx = some i ∧
    ch.loaded i = true ∧ ch.format i ≠ .empty ∧ ch.pointer (ch.format i) i = some host ∧ host.active = some p := by
  unfold reached at h
  split at h
  · cases h
  · rename_i j hi
    split at h
    · cases h
    · rename_i hloaded
      split at h
      · cases h
      · rename_i host hpointer
        obtain ⟨q, hq, heq⟩ := Option.map_eq_some_iff.mp h
        cases heq
        refine ⟨hi, by simpa using hloaded, fun hempty => ?_, hpointer, hq⟩
        rw [hempty] at hpointer
        cases hpointer

theorem listParams_of_reached (params : P → List ParamInfo) (h : reached ch slotIdx = some (i, host, p)) :
    (ch.listParams params slotIdx).2 = params p := by
  obtain ⟨hi, hloaded, hformat, hpointer, hactive⟩ := reached_cases h
  simp only [SlotTable.listParams, hi, hloaded, Bool.not_true, Bool.false_eq_true, if_false, if_neg hformat, hpointer,
    SlotHost.listParams, hactive]
  split
  · rename_i hempty
    exact (List.isEmpty_iff.mp hempty).symm
  · rfl

theorem setPointer_self {f : SlotFormat} {o : Option (SlotHost P V Cb)} (h : ch.pointer f i = o) :
    ch.setPointer f i o = ch := by
  subst h
  cases f <;> simp only [SlotTable.setPointer, SlotTable.pointer, Function.update_eq_self]

/-- A request that reaches no plugin is refused and changes nothing. -/
theorem setParam_of_unreached (set : P → BitVec 32 → BitVec 64 → BitVec 64 × P) (h : reached ch slotIdx = none)
    (paramId : BitVec 32) (normalized : BitVec 64) :
    (ch.setParam set slotIdx paramId normalized).1 ≠ 0 ∧ (ch.setParam set slotIdx paramId normalized).2.2 = ch := by
  have hnan : isNaN quietNaN = true := by decide
  unfold SlotTable.setParam
  split
  · exact ⟨show (6 : Byte) ≠ 0 by decide, rfl⟩
  · rename_i j hi
    split
    · exact ⟨show (1 : Byte) ≠ 0 by decide, rfl⟩
    · rename_i hloaded
      split
      · exact ⟨show (1 : Byte) ≠ 0 by decide, rfl⟩
      · cases hpointer : ch.pointer (ch.format j) j with
        | none =>
          dsimp only
          rw [hnan]
          exact ⟨show (7 : Byte) ≠ 0 by decide, rfl⟩
        | some host =>
          have hactive : host.active = none := by
            simpa only [reached, hi, hloaded, Bool.false_eq_true, if_false, hpointer, Option.map_eq_none_iff] using h
          simp only [SlotHost.setParam, hactive, setPointer_self hpointer]
          rw [hnan]
          exact ⟨show (7 : Byte) ≠ 0 by decide, rfl⟩

theorem setParam_of_reached (set : P → BitVec 32 → BitVec 64 → BitVec 64 × P)
    (h : reached ch slotIdx = some (i, host, p)) (paramId : BitVec 32) (normalized : BitVec 64) :
    let (v, p) := set p paramId normalized
    ch.setParam set slotIdx paramId normalized = (if isNaN v then 7 else 0, if isNaN v then quietNaN else v,
      ch.setPointer (ch.format i) i (some { host with active := some p })) := by
  obtain ⟨hi, hloaded, hformat, hpointer, hactive⟩ := reached_cases h
  simp only [SlotTable.setParam, hi, hloaded, Bool.not_true, Bool.false_eq_true, if_false, if_neg hformat, hpointer,
    SlotHost.setParam, hactive]
  split <;> rfl

end Reached
end Plughost.Vst3.ParamAccess
