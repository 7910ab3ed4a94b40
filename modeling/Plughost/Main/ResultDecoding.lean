import Mathlib.Algebra.BigOperators.Group.List.Basic
import Plughost.Lib.Decoding
import Plughost.Main.ParamChanged
import Plughost.Main.Replies

/-! The host's side of the result bodies: decoders that follow their layouts, and
that they get back all that a body small enough to be sent was made of. -/
namespace Plughost.Main
open Plughost.Ipc.ControlPipe Plughost.Vst3 Plughost.Decoding

def takeU32Le : Decoder Byte (BitVec 32) := fun p => (readU32Le p 0).map (·, p.drop 4)

def takeF64Le : Decoder Byte (BitVec 64) := fun p => (readF64Le p 0).map (·, p.drop 8)

def takeString : Decoder Byte (List Byte) := do
  let size ← takeU32Le
  items size.toNat

def takeParam : Decoder Byte ParamInfo := do
  let id ← takeU32Le
  let name ← takeString
  let units ← takeString
  let defaultValue ← takeF64Le
  let currentValue ← takeF64Le
  let stepCount ← takeU32Le
  let flags ← item
  pure { id, name, units, defaultValue, currentValue, stepCount, flags }

/-- The status, and name, vendor and version, or the error message alone. -/
def takeLoadResult : Decoder Byte (Byte × List (List Byte)) := do
  let status ← item
  let strings ← times takeString (if status = 0 then 3 else 1)
  pure (status, strings)

def takeSlotLoadResult : Decoder Byte (Byte × Byte × List (List Byte)) := do
  let slot ← item
  let result ← takeLoadResult
  pure (slot, result)

/-- No list comes with a failure. -/
def takeSlotParamListResult : Decoder Byte (Byte × Byte × List ParamInfo) := do
  let slot ← item
  let status ← item
  if status = 0 then
    let count ← takeU32Le
    let params ← times takeParam count.toNat
    pure (slot, status, params)
  else pure (slot, status, [])

def takeSlotSetParamResult : Decoder Byte (Byte × BitVec 32 × Byte × BitVec 64) := do
  let slot ← item
  let paramId ← takeU32Le
  let status ← item
  let actual ← takeF64Le
  pure (slot, paramId, status, actual)

def takeParamChanged : Decoder Byte (Byte × BitVec 32 × BitVec 64) := do
  let slot ← item
  let paramId ← takeU32Le
  let normalizedValue ← takeF64Le
  pure (slot, paramId, normalizedValue)

/-- The strings that a load result carries. -/
def loadStrings (status : Byte) (name vendor version errorMessage : List Byte) : List (List Byte) :=
  if status = 0 then [name, vendor, version] else [errorMessage]

/-- Bodies small enough for `Send` decode, whole, to what they report; so they differ where the reports do. -/
def UniquelyDecodable {ι ρ : Type} (d : Decoder Byte ρ) (body : ι → List Byte) (report : ι → ρ) : Prop :=
  (∀ i, (body i).length ≤ kMaxPayloadBytes → decode d (body i) = some (report i)) ∧
    ∀ i j, (body i).length ≤ kMaxPayloadBytes → body i = body j → report i = report j

private theorem uniquelyDecodable_of_reads {ι ρ : Type} {d : Decoder Byte ρ} {body : ι → List Byte} {report : ι → ρ}
    (h : ∀ i, (body i).length ≤ kMaxPayloadBytes → Reads d (body i) (report i)) : UniquelyDecodable d body report := by
  refine ⟨fun i hi => (h i hi).decode, fun i j hi heq => ?_⟩
  have hj := (h j (heq ▸ hi)).decode
  rw [← heq, (h i hi).decode] at hj
  exact Option.some.inj hj

theorem reads_takeU32Le (v : BitVec 32) : Reads takeU32Le (lengthBytes v) v := by
  intro rest
  have hread := readU32Le_appendU32Le [] v rest
  rw [appendU32Le, List.nil_append] at hread
  change (readU32Le (lengthBytes v ++ rest) 0).map (·, (lengthBytes v ++ rest).drop 4) = _
  rw [show (0 : Nat) = ([] : List Byte).length from rfl, hread, Option.map_some, List.drop_left' (length_lengthBytes v)]

private theorem reads_takeF64Le (bits : BitVec 64) : Reads takeF64Le ((List.range 8).map (f64Byte bits)) bits := by
  intro rest
  have hread := readF64Le_appendF64Le [] bits rest
  rw [appendF64Le, List.nil_append] at hread
  change (readF64Le ((List.range 8).map (f64Byte bits) ++ rest) 0).map (·, List.drop 8 _) = _
  rw [show (0 : Nat) = ([] : List Byte).length from rfl, hread, Option.map_some, List.drop_left' (by simp)]

/-- A length of less than 32 bits survives the cast. -/
private theorem reads_takeString {s : List Byte} (h : s.length < 2 ^ 32) : Reads takeString (appendString [] s) s := by
  have hsize : (BitVec.ofNat 32 s.length).toNat = s.length := by
    rw [BitVec.toNat_ofNat, Nat.mod_eq_of_lt h]
  apply (reads_takeU32Le _).bind
  rw [hsize]
  exact reads_items s

private theorem appendString_eq (body s : List Byte) : appendString body s = body ++ appendString [] s := by
  simp [appendString, appendU32Le]

/-- A parameter's bytes, piece by piece. -/
private theorem appendParam_eq (body : List Byte) (p : ParamInfo) : appendParam body p = body ++ (lengthBytes p.id ++
    (appendString [] p.name ++ (appendString [] p.units ++ ((List.range 8).map (f64Byte p.defaultValue) ++
      ((List.range 8).map (f64Byte p.currentValue) ++ (lengthBytes p.stepCount ++ [p.flags])))))) := by
  rw [appendParam, appendString_eq _ p.units, appendString_eq _ p.name]
  simp only [appendU32Le, appendF64Le, List.append_assoc]

private theorem reads_takeParam {p : ParamInfo} (hname : p.name.length < 2 ^ 32) (hunits : p.units.length < 2 ^ 32) :
    Reads takeParam (appendParam [] p) p := by
  rw [appendParam_eq, List.nil_append]
  apply (reads_takeU32Le p.id).bind
  apply (reads_takeString hname).bind
  apply (reads_takeString hunits).bind
  apply (reads_takeF64Le p.defaultValue).bind
  apply (reads_takeF64Le p.currentValue).bind
  apply (reads_takeU32Le p.stepCount).bind
  exact (reads_item p.flags).bind_pure _

private theorem foldl_appendParam_eq (params : List ParamInfo) (body : List Byte) :
    params.foldl appendParam body = body ++ params.flatMap (appendParam []) := by
  induction params generalizing body with
  | nil => exact (List.append_nil body).symm
  | cons p params ih =>
    rw [List.foldl_cons, ih, List.flatMap_cons, appendParam_eq, appendParam_eq [], List.nil_append, List.append_assoc]

/-- The strings of a load result, one after the other. -/
theorem appendLoadResult_eq (body : List Byte) (status : Byte) (name vendor version errorMessage : List Byte) :
    appendLoadResult body status name vendor version errorMessage =
      body ++ (loadStrings status name vendor version errorMessage).flatMap (appendString []) := by
  unfold appendLoadResult loadStrings
  split
  · rw [appendString_eq _ version, appendString_eq _ vendor, appendString_eq _ name]
    simp
  · rw [appendString_eq]
    simp

private theorem length_loadStrings (status : Byte) (name vendor version errorMessage : List Byte) :
    (loadStrings status name vendor version errorMessage).length = if status = 0 then 3 else 1 := by
  unfold loadStrings
  split <;> rfl

/-- An element's encoding is no longer than the list's. -/
private theorem length_le_flatMap {α : Type} (f : α → List Byte) {as : List α} {a : α} (h : a ∈ as) :
    (f a).length ≤ (as.flatMap f).length :=
  (List.sublist_flatten_of_mem (List.mem_map_of_mem h)).length_le

theorem reads_takeLoadResult (status : Byte) (name vendor version errorMessage : List Byte)
    (h : (appendLoadResult [status] status name vendor version errorMessage).length ≤ kMaxPayloadBytes) :
    Reads takeLoadResult (appendLoadResult [status] status name vendor version errorMessage)
      (status, loadStrings status name vendor version errorMessage) := by
  rw [appendLoadResult_eq] at h ⊢
  apply (reads_item status).bind
  have hstrings : Reads (times takeString (loadStrings status name vendor version errorMessage).length)
      ((loadStrings status name vendor version errorMessage).flatMap (appendString []))
      (loadStrings status name vendor version errorMessage) := by
    apply reads_times
    intro s hs
    have hle := length_le_flatMap (appendString []) hs
    have hmax : kMaxPayloadBytes < 2 ^ 32 := by decide
    rw [length_appendString, List.length_nil] at hle
    rw [List.length_append] at h
    exact reads_takeString (by omega)
  rw [length_loadStrings] at hstrings
  exact hstrings.bind_pure (status, ·)

private theorem reads_takeSlotLoadResult (slot status : Byte) (name vendor version errorMessage : List Byte)
    (h : (slotLoadResult slot status name vendor version errorMessage).payload.length ≤ kMaxPayloadBytes) :
    Reads takeSlotLoadResult (slotLoadResult slot status name vendor version errorMessage).payload
      (slot, status, loadStrings status name vendor version errorMessage) := by
  have hsplit : (slotLoadResult slot status name vendor version errorMessage).payload =
      [slot] ++ appendLoadResult [status] status name vendor version errorMessage := by
    rw [slotLoadResult, appendLoadResult_eq, appendLoadResult_eq]
    rfl
  rw [hsplit, List.length_append] at h
  rw [hsplit]
  apply (reads_item slot).bind
  exact (reads_takeLoadResult status name vendor version errorMessage (by omega)).bind_pure (slot, ·)

/-- The bound on the body bounds the number of parameters and each of their strings. -/
private theorem reads_takeParams {params : List ParamInfo}
    (h : (params.flatMap (appendParam [])).length ≤ kMaxPayloadBytes) :
    params.length < 2 ^ 32 ∧ Reads (times takeParam params.length) (params.flatMap (appendParam [])) params := by
  have hmax : kMaxPayloadBytes < 2 ^ 32 := by decide
  constructor
  · have hsum : params.length ≤ (params.flatMap (appendParam [])).length := by
      have hall := length_foldl_appendParam params []
      have hcard := List.length_le_sum_of_one_le (params.map paramBytes) (fun n hn => by
        obtain ⟨p, -, rfl⟩ := List.mem_map.mp hn
        rw [paramBytes]
        omega)
      rw [foldl_appendParam_eq, List.nil_append, List.length_nil, Nat.zero_add] at hall
      rw [List.length_map] at hcard
      rw [hall]
      exact hcard
    omega
  · apply reads_times
    intro p hp
    have hle := length_le_flatMap (appendParam []) hp
    rw [length_appendParam, paramBytes] at hle
    exact reads_takeParam (by omega) (by omega)

theorem reads_takeSlotParamListResult (slot status : Byte) (params : List ParamInfo)
    (h : (slotParamListResult slot status params).payload.length ≤ kMaxPayloadBytes) :
    Reads takeSlotParamListResult (slotParamListResult slot status params).payload
      (slot, status, if status = 0 then params else []) := by
  unfold slotParamListResult at h ⊢
  by_cases hstatus : status = 0
  · simp only [if_pos hstatus] at h ⊢
    rw [foldl_appendParam_eq, appendU32Le] at h ⊢
    rw [List.length_append] at h
    obtain ⟨hcount, hparams⟩ := @reads_takeParams params (by omega)
    have hsize : (BitVec.ofNat 32 params.length).toNat = params.length := by
      rw [BitVec.toNat_ofNat, Nat.mod_eq_of_lt hcount]
    rw [List.append_assoc]
    apply (reads_item slot).bind
    apply (reads_item status).bind
    rw [if_pos hstatus]
    apply (reads_takeU32Le _).bind
    rw [hsize]
    exact hparams.bind_pure fun params => (slot, status, params)
  · simp only [if_neg hstatus]
    apply (reads_item slot).bind
    apply (reads_item status).bind
    rw [if_neg hstatus]
    exact Reads.pure (slot, status, [])

theorem reads_takeSlotSetParamResult (slot : Byte) (paramId : BitVec 32) (status : Byte) (actual : BitVec 64) :
    Reads takeSlotSetParamResult (slotSetParamResult slot paramId status actual).payload (slot, paramId, status, actual) := by
  have hsplit : (slotSetParamResult slot paramId status actual).payload =
      [slot] ++ (lengthBytes paramId ++ ([status] ++ (List.range 8).map (f64Byte actual))) := by
    simp [slotSetParamResult, appendF64Le, appendU32Le]
  rw [hsplit]
  apply (reads_item slot).bind
  apply (reads_takeU32Le paramId).bind
  apply (reads_item status).bind
  exact (reads_takeF64Le actual).bind_pure fun actual => (slot, paramId, status, actual)

theorem reads_takeParamChanged (slot : Byte) (paramId : BitVec 32) (normalizedValue : BitVec 64) :
    Reads takeParamChanged (paramChangedFrame slot paramId normalizedValue).payload (slot, paramId, normalizedValue) := by
  have hsplit : (paramChangedFrame slot paramId normalizedValue).payload =
      [slot] ++ (lengthBytes paramId ++ (List.range 8).map (f64Byte normalizedValue)) := by
    simp [paramChangedFrame, appendF64Le, appendU32Le]
  rw [hsplit]
  apply (reads_item slot).bind
  apply (reads_takeU32Le paramId).bind
  exact (reads_takeF64Le normalizedValue).bind_pure fun value => (slot, paramId, value)

/-- Each result body that `Send` accepts decodes, from its first byte to its last,
to the status, the strings, the parameters and the values it was built from. -/
theorem results_uniquely_decodable :
    UniquelyDecodable takeLoadResult
      (fun (status, name, vendor, version, errorMessage) => (loadResult status name vendor version errorMessage).payload)
      (fun (status, name, vendor, version, errorMessage) => (status, loadStrings status name vendor version errorMessage)) ∧
    UniquelyDecodable takeSlotLoadResult
      (fun (slot, status, name, vendor, version, errorMessage) =>
        (slotLoadResult slot status name vendor version errorMessage).payload)
      (fun (slot, status, name, vendor, version, errorMessage) =>
        (slot, status, loadStrings status name vendor version errorMessage)) ∧
    UniquelyDecodable takeSlotParamListResult (fun (slot, status, params) => (slotParamListResult slot status params).payload)
      (fun (slot, status, params) => (slot, status, if status = 0 then params else [])) ∧
    UniquelyDecodable takeSlotSetParamResult
      (fun (slot, paramId, status, actual) => (slotSetParamResult slot paramId status actual).payload) id ∧
    UniquelyDecodable takeParamChanged
      (fun (slot, paramId, normalizedValue) => (paramChangedFrame slot paramId normalizedValue).payload) id ∧
    (∀ front v back, readU32Le (appendU32Le front v ++ back) front.length = some v) ∧
    ∀ front bits back, readF64Le (appendF64Le front bits ++ back) front.length = some bits := by
  refine ⟨?_, ?_, ?_, ?_, ?_, readU32Le_appendU32Le, readF64Le_appendF64Le⟩ <;> apply uniquelyDecodable_of_reads
  · intro ⟨status, name, vendor, version, errorMessage⟩ h
    exact reads_takeLoadResult status name vendor version errorMessage h
  · intro ⟨slot, status, name, vendor, version, errorMessage⟩ h
    exact reads_takeSlotLoadResult slot status name vendor version errorMessage h
  · intro ⟨slot, status, params⟩ h
    exact reads_takeSlotParamListResult slot status params h
  · intro ⟨slot, paramId, status, actual⟩ _
    exact reads_takeSlotSetParamResult slot paramId status actual
  · intro ⟨slot, paramId, normalizedValue⟩ _
    exact reads_takeParamChanged slot paramId normalizedValue

/-- Two parameters: an empty name, a zero byte in a unit, a NaN and a step count of -1. -/
theorem results_uniquely_decodable_list :
    let params : List ParamInfo := [⟨7, [], [0x64, 0], quietNaN, 0x8000000000000000, -1, 3⟩,
      ⟨0xFFFFFFFF, [0x41], [], 0, quietNaN, 1, 0⟩]
    decode takeSlotParamListResult (slotParamListResult 2 0 params).payload = some (2, 0, params) := by
  intro params
  exact results_uniquely_decodable.2.2.1.1 (2, 0, params) (by decide)

end Plughost.Main
