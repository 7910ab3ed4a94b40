import Plughost.Lib.Simulation
import Plughost.Vst3.PluginChain

/-! `GuiThread::queue_` and `DrainRequests`, for whatever is kept of a request: the calling
threads push, the GUI thread swaps the queue out and handles what it has taken one by one. -/
namespace Plughost.Vst3.Requests
open Plughost.Runs Plughost.Simulation

inductive RequestKind where
  | requestShow | requestHide
  deriving DecidableEq, Repr

/-- `GuiThread::Request`, without view, pump and reply pointers. -/
structure Asked where
  kind : RequestKind
  slotIdx : Fin kMaxSlots
  deriving DecidableEq, Repr

/-- An entry of `queue_`; `quit` has no reply pointers. -/
inductive Entry (ρ : Type) where
  | call (r : ρ)
  | quit
  deriving DecidableEq, Repr

variable {ρ : Type}

def Entry.request : Entry ρ → Option ρ
  | .call r => some r
  | .quit => none

/-- `queue_`, what is left of `local` in `DrainRequests`, and the request that is being handled. -/
structure RequestQueue (ρ : Type) where
  queue : List (Entry ρ)
  batch : List (Entry ρ)
  busy : Option ρ

inductive Act (ρ : Type) where
  | push (e : Entry ρ)
  | swap
  | take (e : Entry ρ)
  | handled
  /-- `local` goes with what is left in it. -/
  | leave
  deriving DecidableEq, Repr

def Act.pushed : Act ρ → Option (Entry ρ)
  | .push e => some e
  | _ => none

def Act.taken : Act ρ → Option (Entry ρ)
  | .take e => some e
  | _ => none

namespace RequestQueue

def empty : RequestQueue ρ := ⟨[], [], none⟩

def step [DecidableEq ρ] (s : RequestQueue ρ) : Act ρ → Option (RequestQueue ρ)
  | .push e => some { s with queue := s.queue ++ [e] }
  | .swap => if s.batch = [] ∧ s.busy = none then some { s with batch := s.queue, queue := [] } else none
  | .take e => if s.batch.head? = some e ∧ s.busy = none then
      some { s with batch := s.batch.tail, busy := e.request } else none
  | .handled => some { s with busy := none }
  | .leave => some { s with batch := [], busy := none }

/-- The entries that have not been taken. -/
def backlog (s : RequestQueue ρ) : List (Entry ρ) := s.batch ++ s.queue

section Order
variable [DecidableEq ρ] {s t : RequestQueue ρ} {a : Act ρ} {as : List (Act ρ)}

private theorem step_backlog (hs : s.step a = some t) :
    (a.taken.toList ++ t.backlog).Sublist (s.backlog ++ a.pushed.toList) ∧
    (a ≠ .leave → a.taken.toList ++ t.backlog = s.backlog ++ a.pushed.toList) := by
  have hsame (h : a.taken.toList ++ t.backlog = s.backlog ++ a.pushed.toList) :
      (a.taken.toList ++ t.backlog).Sublist (s.backlog ++ a.pushed.toList) ∧
      (a ≠ .leave → a.taken.toList ++ t.backlog = s.backlog ++ a.pushed.toList) :=
    ⟨h ▸ List.Sublist.refl _, fun _ => h⟩
  cases a with
  | push e =>
    cases hs
    refine hsame ?_
    simp [backlog, Act.taken, Act.pushed]
  | swap =>
    obtain ⟨⟨hbatch, -⟩, heq⟩ := Option.ite_none_right_eq_some.mp hs
    cases heq
    refine hsame ?_
    simp [backlog, Act.taken, Act.pushed, hbatch]
  | take e =>
    obtain ⟨⟨hhead, -⟩, heq⟩ := Option.ite_none_right_eq_some.mp hs
    cases heq
    refine hsame ?_
    have hbatch := List.cons_head?_tail hhead
    simp only [backlog, Act.taken, Act.pushed, Option.toList_some, Option.toList_none, List.append_nil]
    conv_rhs => rw [← hbatch]
    rfl
  | handled =>
    cases hs
    exact hsame (List.append_nil _).symm
  | leave =>
    cases hs
    refine ⟨?_, fun h => absurd rfl h⟩
    exact (List.sublist_append_right s.batch s.queue).trans (List.sublist_append_left _ _)

/-- Entries are taken in the order in which they were pushed, each at most once; and with `local`
never left before its end, none is passed over. -/
theorem taken_in_order (he : exec step s as = some t) :
    (as.filterMap Act.taken ++ t.backlog).Sublist (s.backlog ++ as.filterMap Act.pushed) ∧
    (.leave ∉ as → as.filterMap Act.taken ++ t.backlog = s.backlog ++ as.filterMap Act.pushed) := by
  induction as using List.reverseRecOn generalizing t with
  | nil =>
    cases he
    simp
  | append_singleton as a ih =>
    obtain ⟨u, hu, hs⟩ := exec_concat_some he
    obtain ⟨hsub, heq⟩ := ih hu
    obtain ⟨hone, hall⟩ := step_backlog hs
    have htaken : (as ++ [a]).filterMap Act.taken = as.filterMap Act.taken ++ a.taken.toList := by
      rw [List.filterMap_append]
      cases h : a.taken <;> simp [h]
    have hpushed : (as ++ [a]).filterMap Act.pushed = as.filterMap Act.pushed ++ a.pushed.toList := by
      rw [List.filterMap_append]
      cases h : a.pushed <;> simp [h]
    rw [htaken, hpushed, List.append_assoc, ← List.append_assoc s.backlog]
    refine ⟨?_, fun hleave => ?_⟩
    · refine (hone.append_left _).trans ?_
      rw [← List.append_assoc]
      exact hsub.append_right _
    · rw [List.mem_append, not_or, List.mem_singleton] at hleave
      rw [hall fun h => hleave.2 h.symm, ← heq hleave.1, List.append_assoc]

end Order
end RequestQueue
end Plughost.Vst3.Requests
