import Plughost.Vst3.ParamAccess

/-! `PluginChain::SetParam` against `PluginChain::ListParams`: an id that is not listed is refused,
and nothing changes, or not, by format. -/
namespace Plughost.Vst3.ParamAccess
open Plughost.BoundedQueue
variable {C E K V Cb α : Type} {code : Code C E K} {ch : SlotTable (Plugin C E K) V Cb α} {slotIdx : Int}
  {paramId : ParamID} {normalized : BitVec 64}

/-- The ids that `ListParams` reports. -/
def listedIds (code : Code C E K) (ch : SlotTable (Plugin C E K) V Cb α) (slotIdx : Int) : List ParamID :=
  (ch.listParams (Plugin.listParams code) slotIdx).2.map ParamInfo.id

/-- Status 0 for a listed id only; for any other a failure, and the chain with its plugins and
their pending changes as before. -/
def Honours (code : Code C E K) (ch : SlotTable (Plugin C E K) V Cb α) (slotIdx : Int) (paramId : ParamID)
    (normalized : BitVec 64) : Prop :=
  ((ch.setParam (Plugin.set code) slotIdx paramId normalized).1 = 0 → paramId ∈ listedIds code ch slotIdx) ∧
    (paramId ∉ listedIds code ch slotIdx → (ch.setParam (Plugin.set code) slotIdx paramId normalized).1 ≠ 0 ∧
      (ch.setParam (Plugin.set code) slotIdx paramId normalized).2.2 = ch)

/-- The queue is full of one entry. -/
def FullOf (q : List (ParamID × BitVec 64)) (x : ParamID × BitVec 64) : Prop := kPendingCap ≤ q.length ∧ ∀ y ∈ q, y = x

/-- The host refuses the call by itself, or the call happens to do nothing: the plugin takes no
notice and reads back as NaN, and the queue is full of the very entry pushed. -/
def Plugin.Unmoved (code : Code C E K) (p : Plugin C E K) (paramId : ParamID) (normalized : BitVec 64) : Prop :=
  match p with
  | .vst3 a => ∀ c, a.controller = some c → isNaN (code.controller.getParamNormalized c paramId) ∧
      code.controller.setParamNormalized c paramId (clamp normalized) = c ∧
        FullOf a.pendingChanges (paramId, clamp normalized)
  | .vst2 e => paramId < code.effect.numParams e → isNaN (toDouble (code.effect.getParameter e paramId)) ∧
      code.effect.setParameter e paramId (toFloat (clamp normalized)) = e
  | .clap a => isNaN normalized ∧ FullOf a.pendingChanges (paramId, normalized)

private theorem Plugin.set_vst3 (c : C) (q : List (ParamID × BitVec 64)) :
    (vst3 ⟨some c, q⟩ : Plugin C E K).set code paramId normalized =
      (code.controller.getParamNormalized (code.controller.setParamNormalized c paramId (clamp normalized)) paramId,
        vst3 ⟨some (code.controller.setParamNormalized c paramId (clamp normalized)),
          push kPendingCap q (paramId, clamp normalized)⟩) := rfl

private theorem Plugin.set_clap (plugin : K) (paramsExt : Bool) (q : List (ParamID × BitVec 64)) :
    (clap ⟨plugin, paramsExt, q⟩ : Plugin C E K).set code paramId normalized =
      (normalized, clap ⟨plugin, paramsExt, push kPendingCap q (paramId, normalized)⟩) := rfl

private theorem Plugin.unmoved_iff {p : Plugin C E K} :
    (isNaN (p.set code paramId normalized).1 ∧ (p.set code paramId normalized).2 = p) ↔
      p.Unmoved code paramId normalized := by
  cases p with
  | vst3 a =>
    obtain ⟨controller, q⟩ := a
    cases controller with
    | none =>
      refine ⟨fun _ c hc => ?_, fun _ => ⟨show isNaN quietNaN = true by decide, rfl⟩⟩
      cases hc
    | some c =>
      rw [set_vst3]
      constructor
      · rintro ⟨hnan, hsame⟩ _ ⟨⟩
        obtain ⟨hset, hq⟩ := ActivePlugin.mk.inj (Plugin.vst3.inj hsame)
        have hset := Option.some.inj hset
        rw [hset] at hnan
        exact ⟨hnan, hset, (push_eq_self_iff (by decide)).mp hq⟩
      · intro h
        obtain ⟨hnan, hset, hq⟩ := h c rfl
        rw [hset, (push_eq_self_iff (by decide)).mpr hq]
        exact ⟨hnan, rfl⟩
  | vst2 e =>
    by_cases hid : code.effect.numParams e ≤ paramId
    · simp only [Plugin.set, Plugin.setParam, if_pos hid]
      exact ⟨fun _ hlt => absurd hid (BitVec.not_le.mpr hlt), fun _ => ⟨by decide, trivial⟩⟩
    · have hlt : paramId < code.effect.numParams e := BitVec.not_le.mp hid
      simp only [Plugin.set, Plugin.setParam, if_neg hid, Plugin.vst2.injEq]
      constructor
      · rintro ⟨hnan, hset⟩ _
        rw [hset] at hnan
        exact ⟨hnan, hset⟩
      · intro h
        obtain ⟨hnan, hset⟩ := h hlt
        rw [hset]
        exact ⟨hnan, rfl⟩
  | clap a =>
    obtain ⟨plugin, paramsExt, q⟩ := a
    rw [set_clap]
    constructor
    · rintro ⟨hnan, hsame⟩
      obtain ⟨-, -, hq⟩ := ActiveClap.mk.inj (Plugin.clap.inj hsame)
      exact ⟨hnan, (push_eq_self_iff (by decide)).mp hq⟩
    · rintro ⟨hnan, hq⟩
      rw [(push_eq_self_iff (by decide)).mpr hq]
      exact ⟨hnan, rfl⟩

/-- A slot keeps the plugin it has just when it is put back as it was. -/
private theorem setPointer_eq_iff {i : Fin kMaxSlots} {host : SlotHost (Plugin C E K) V Cb} {p q : Plugin C E K}
    (h : reached ch slotIdx = some (i, host, p)) :
    ch.setPointer (ch.format i) i (some { host with active := some q }) = ch ↔ q = p := by
  obtain ⟨-, -, hformat, hpointer, hactive⟩ := reached_cases h
  have hhost : { host with active := some p } = host := by
    rw [← hactive]
  constructor
  · intro hsame
    have hnew := SlotTable.pointer_setPointer ch (ch.format i) (ch.format i) i (some { host with active := some q }) hformat
    rw [hsame, hpointer, if_pos rfl] at hnew
    have hq := congrArg SlotHost.active (Option.some.inj hnew)
    rw [hactive] at hq
    exact (Option.some.inj hq).symm
  · rintro rfl
    rw [hhost]
    exact setPointer_self hpointer

/-- The contract holds of a call exactly when its id is listed, or the plugin it reaches, if any,
stays unmoved. -/
theorem honours_iff : Honours code ch slotIdx paramId normalized ↔ paramId ∈ listedIds code ch slotIdx ∨
    ∀ i host p, reached ch slotIdx = some (i, host, p) → p.Unmoved code paramId normalized := by
  unfold Honours
  by_cases hid : paramId ∈ listedIds code ch slotIdx
  · exact ⟨fun _ => .inl hid, fun _ => ⟨fun _ => hid, fun hno => absurd hid hno⟩⟩
  · simp only [hid, imp_false, not_false_iff, forall_true_left, false_or]
    cases hr : reached ch slotIdx with
    | none =>
      obtain ⟨hstatus, hafter⟩ := setParam_of_unreached (Plugin.set code) hr paramId normalized
      exact ⟨fun _ _ _ _ h => (nomatch h), fun _ => ⟨hstatus, hstatus, hafter⟩⟩
    | some r =>
      obtain ⟨i, host, p⟩ := r
      have hcall := setParam_of_reached (Plugin.set code) hr paramId normalized
      dsimp only at hcall
      rw [hcall]
      have hstatus : ((if isNaN (Plugin.set code p paramId normalized).1 then 7 else 0 : BitVec 8) ≠ 0) ↔
          isNaN (Plugin.set code p paramId normalized).1 := by
        split <;> simp_all
      simp only [setPointer_eq_iff hr, hstatus, Plugin.unmoved_iff]
      constructor
      · rintro ⟨-, h⟩ _ _ _ ⟨⟩
        exact h
      · intro h
        have hp := h i host p rfl
        exact ⟨(Plugin.unmoved_iff.mpr hp).1, hp⟩

/-- The ids that a VST2 plugin with a count is listed with are those it accepts. -/
private theorem vst2_listed {e : E} (h : BitVec.slt 0 (code.effect.numParams e) = true) :
    paramId ∈ (Plugin.listParams code (.vst2 e)).map ParamInfo.id ↔ paramId < code.effect.numParams e := by
  have hpos : (code.effect.numParams e).sle 0 = false := by
    rw [BitVec.sle_eq_not_slt, h, Bool.not_true]
  simp only [Plugin.listParams, Plugin.listVst2, hpos, Bool.false_eq_true, if_false, List.map_map, List.mem_map,
    List.mem_range, Function.comp_apply, Plugin.buildParamInfo]
  constructor
  · rintro ⟨k, hk, rfl⟩
    rw [BitVec.lt_def, BitVec.toNat_ofNat]
    exact (Nat.mod_le _ _).trans_lt hk
  · intro hlt
    exact ⟨paramId.toNat, hlt, by rw [BitVec.ofNat_toNat, BitVec.setWidth_eq]⟩

/-- With a count that is not negative the VST2 host keeps the contract. -/
theorem honours_vst2 {i : Fin kMaxSlots} {host : SlotHost (Plugin C E K) V Cb} {e : E}
    (hr : reached ch slotIdx = some (i, host, .vst2 e)) (h : BitVec.sle 0 (code.effect.numParams e) = true) :
    Honours code ch slotIdx paramId normalized := by
  refine honours_iff.mpr ?_
  by_cases hlt : paramId < code.effect.numParams e
  · refine .inl ?_
    rw [listedIds, listParams_of_reached _ hr]
    refine (vst2_listed ?_).mpr hlt
    have hpos : code.effect.numParams e ≠ 0 := fun hzero => by simp [hzero] at hlt
    rw [BitVec.slt_eq_sle_and_ne, h]
    simpa using hpos.symm
  · refine .inr fun j host' p hp => ?_
    rw [hr] at hp
    cases hp
    exact fun hid => absurd hid hlt

/-- A VST2 plugin that counts -1 parameters, lists none and reads 0 throughout. -/
def uncounted : Code Unit Unit Unit where
  controller := ⟨fun _ => 0, fun _ _ => none, fun _ _ => 0, fun _ _ _ => ()⟩
  effect := ⟨fun _ => -1, fun _ _ => [], fun _ _ => [], fun _ _ => 0, fun _ _ _ => ()⟩
  params := ⟨fun _ => 0, fun _ _ => none, fun _ _ => none⟩

/-- It, in slot 0 of a chain. -/
def uncountedChain : SlotTable (Plugin Unit Unit Unit) Unit Unit Unit :=
  (SlotTable.initial 0 64 ()).plugged 0 .vst2 ⟨some (.vst2 ()), none, none⟩

/-- Parameter 7 of it is set. -/
theorem honours_fails : ¬ Honours uncounted uncountedChain 0 7 0 := by
  intro h
  have hstatus : (uncountedChain.setParam (Plugin.set uncounted) 0 7 0).1 = 0 := by decide +kernel
  have hlisted := h.1 hstatus
  revert hlisted
  decide +kernel

end Plughost.Vst3.ParamAccess
