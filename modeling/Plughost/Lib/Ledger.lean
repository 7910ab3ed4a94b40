import Plughost.Lib.BoundedQueue

/-! The history of a bounded queue: what became of each entry, in the order in
which the entries were pushed. Nothing here names a program. -/
namespace Plughost.BoundedQueue
variable {α : Type*}

/-- The entries that have left the queue, each with whether it was dropped, and
those still in it. Entries leave oldest first, so the two parts are the whole
sequence pushed so far, in order. -/
structure Ledger (α : Type*) where
  settled : List (α × Bool)
  queued : List α

namespace Ledger
variable (j : Ledger α)

def empty : Ledger α := ⟨[], []⟩

/-- The oldest entry still queued leaves. -/
def settle (dropped : Bool) : Ledger α :=
  match j.queued with
  | [] => j
  | x :: rest => ⟨j.settled ++ [(x, dropped)], rest⟩

def enqueue (x : α) : Ledger α := { j with queued := j.queued ++ [x] }

/-- A push into a queue of at most `cap` entries: at the bound the oldest one is dropped. -/
def push (cap : Nat) (x : α) : Ledger α := (if cap ≤ j.queued.length then j.settle true else j).enqueue x

/-- Everything pushed so far. -/
def entries : List α := j.settled.map Prod.fst ++ j.queued

/-- What the consumer took. -/
def taken : List α := (j.settled.filter fun e => !e.2).map Prod.fst

def dropped : List α := (j.settled.filter fun e => e.2).map Prod.fst

/-- The sequence pushed with the dropped entries removed. -/
def kept : List α := j.taken ++ j.queued

theorem kept_sublist : j.kept.Sublist j.entries :=
  List.Sublist.append (List.filter_sublist.map Prod.fst) (List.Sublist.refl _)

/-- No entry is lost or counted twice. -/
theorem length_entries : j.entries.length = j.taken.length + j.dropped.length + j.queued.length := by
  have hsplit := List.length_eq_countP_add_countP (fun e : α × Bool => e.2) (l := j.settled)
  simp only [entries, taken, dropped, List.length_append, List.length_map, ← List.countP_eq_length_filter]
  simp only [Bool.not_eq_true, Bool.decide_eq_false] at hsplit
  omega

section Settle
variable {j} {x : α} {rest : List α}

private theorem settle_eq (h : j.queued = x :: rest) (d : Bool) : j.settle d = ⟨j.settled ++ [(x, d)], rest⟩ := by
  rw [settle, h]

theorem entries_settle (d : Bool) : (j.settle d).entries = j.entries := by
  cases h : j.queued with
  | nil => rw [settle, h]
  | cons x rest => simp [settle_eq h, entries, h]

theorem queued_settle (d : Bool) : (j.settle d).queued = j.queued.tail := by
  cases h : j.queued with
  | nil => rw [settle, h, h, List.tail_nil]
  | cons x rest => rw [settle_eq h, List.tail_cons]

private theorem taken_settle_true : (j.settle true).taken = j.taken := by
  cases h : j.queued with
  | nil => rw [settle, h]
  | cons x rest => simp [settle_eq h, taken]

theorem taken_settle_false (h : j.queued = x :: rest) : (j.settle false).taken = j.taken ++ [x] := by
  simp [settle_eq h, taken]

theorem dropped_settle_false : (j.settle false).dropped = j.dropped := by
  cases h : j.queued with
  | nil => rw [settle, h]
  | cons x rest => simp [settle_eq h, dropped]

private theorem dropped_settle_true (h : j.queued = x :: rest) : (j.settle true).dropped = j.dropped ++ [x] := by
  simp [settle_eq h, dropped]

end Settle

variable {cap : Nat} (x : α)

@[simp] theorem entries_push : (j.push cap x).entries = j.entries ++ [x] := by
  have henq : ∀ k : Ledger α, (k.enqueue x).entries = k.entries ++ [x] := fun k => by
    simp [enqueue, entries]
  rw [push, henq]
  split
  · rw [entries_settle]
  · rfl

@[simp] theorem taken_push : (j.push cap x).taken = j.taken := by
  have henq : ∀ k : Ledger α, (k.enqueue x).taken = k.taken := fun _ => rfl
  rw [push, henq]
  split
  · exact taken_settle_true
  · rfl

@[simp] theorem queued_push : (j.push cap x).queued = BoundedQueue.push cap j.queued x := by
  rw [push, BoundedQueue.push, enqueue]
  split
  · rw [queued_settle]
  · rfl

theorem dropped_push (hcap : 0 < cap) : (j.push cap x).dropped =
    j.dropped ++ if cap ≤ j.queued.length then j.queued.take 1 else [] := by
  have henq : ∀ k : Ledger α, (k.enqueue x).dropped = k.dropped := fun _ => rfl
  rw [push, henq]
  split
  · rename_i hfull
    cases h : j.queued with
    | nil =>
      rw [h, List.length_nil] at hfull
      omega
    | cons y rest => rw [dropped_settle_true h, List.take_succ_cons, List.take_zero]
  · rw [List.append_nil]

/-- A push never takes the queue past its bound. -/
theorem queued_push_le (hcap : 0 < cap) (h : j.queued.length ≤ cap) : (j.push cap x).queued.length ≤ cap := by
  rw [queued_push, BoundedQueue.push]
  split
  · rw [List.length_append, List.length_tail, List.length_singleton]
    omega
  · rw [List.length_append, List.length_singleton]
    omega

end Ledger
end Plughost.BoundedQueue
