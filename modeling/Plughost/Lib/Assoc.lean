import Mathlib.Data.List.Basic
import Mathlib.Data.List.Perm.Basic

/-! Lists of keys with their values: looking up, and taking an entry out. Nothing here names a program. -/
namespace Plughost.Assoc
variable {κ ν : Type*} [DecidableEq κ] {k : κ} {v : ν} {kvs rest : List (κ × ν)}

theorem mem_of_lookup (h : kvs.lookup k = some v) : (k, v) ∈ kvs := by
  obtain ⟨front, back, heq, -⟩ := List.lookup_eq_some_iff.mp h
  rw [heq]
  exact List.mem_append_right front List.mem_cons_self

/-- Looking up after a key has been filtered out. -/
theorem lookup_filter_ne (k k' : κ) (kvs : List (κ × ν)) :
    (kvs.filter fun kv => kv.1 != k).lookup k' = if k' = k then none else kvs.lookup k' := by
  induction kvs with
  | nil => simp
  | cons kv kvs ih =>
    by_cases hkv : kv.1 = k
    · rw [List.filter_cons_of_neg (by simp [hkv]), ih]
      split
      · rfl
      · rename_i hne
        rw [List.lookup_cons, beq_false_of_ne (by rw [hkv]; exact hne)]
    · rw [List.filter_cons_of_pos (by simpa using hkv), List.lookup_cons, List.lookup_cons, ih]
      by_cases heq : k' = kv.1
      · simp [heq, hkv]
      · rw [beq_false_of_ne heq]

/-- The first entry of a key, and the others. -/
def extract (k : κ) (kvs : List (κ × ν)) : Option (ν × List (κ × ν)) :=
  (kvs.lookup k).map fun v => (v, kvs.eraseP fun kv => kv.1 == k)

private theorem perm_of_lookup (h : kvs.lookup k = some v) : kvs.Perm ((k, v) :: kvs.eraseP fun kv => kv.1 == k) := by
  induction kvs with
  | nil => cases h
  | cons kv kvs ih =>
    rw [List.lookup_cons] at h
    by_cases hk : kv.1 = k
    · rw [beq_iff_eq.mpr hk.symm] at h
      rw [List.eraseP_cons_of_pos (by simpa using hk), ← hk]
      cases h
      exact List.Perm.refl _
    · rw [beq_false_of_ne (Ne.symm hk)] at h
      rw [List.eraseP_cons_of_neg (by simpa using hk)]
      exact ((ih h).cons kv).trans (List.Perm.swap _ _ _)

theorem perm_of_extract (h : extract k kvs = some (v, rest)) : kvs.Perm ((k, v) :: rest) := by
  obtain ⟨v', hv, hout⟩ := Option.map_eq_some_iff.mp h
  cases hout
  exact perm_of_lookup hv

end Plughost.Assoc
