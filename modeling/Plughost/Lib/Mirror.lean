import Mathlib.Data.List.Basic

/-! Copies of a value that is kept elsewhere: it is changed on request, or by others,
and each change is reported by a notice. Requests and notices take their time, in order.
Nothing here names a program. -/
namespace Plughost.Mirror
variable {V : Type*}

/-- The value, the requests that have not reached it, and the notices not yet read. -/
structure Remote (V : Type*) where
  value : V
  requests : List V
  notices : List V

namespace Remote
variable (m : Remote V) (v x : V)

def ask : Remote V := { m with requests := m.requests ++ [v] }

/-- The oldest request comes to `v`, which is what was asked for or not, and is reported. -/
def grant : Option (Remote V) :=
  match m.requests with
  | [] => none
  | _ :: rest => some ⟨v, rest, m.notices ++ [v]⟩

/-- The oldest request asks for the value as it is, which nobody reports. -/
def ignore [DecidableEq V] : Option (Remote V) :=
  match m.requests with
  | [] => none
  | r :: rest => if r = m.value then some { m with requests := rest } else none

/-- The value is changed, or confirmed, by others. -/
def change : Remote V := { m with value := v, notices := m.notices ++ [v] }

def read : Option (V × Remote V) :=
  match m.notices with
  | [] => none
  | e :: rest => some (e, { m with notices := rest })

/-- Nothing is on its way in either direction. -/
def Settled : Prop := m.requests = [] ∧ m.notices = []

/-- The newest notice is of the value as it is. -/
def Reported : Prop := ∀ e, m.notices.getLast? = some e → e = m.value

/-- The copy is right if no notice is to come, not even one that a request brings about. -/
def Mirrored : Prop := m.notices = [] → (∀ r ∈ m.requests, r = m.value) → x = m.value

variable {m v x} {m' : Remote V}

theorem Mirrored.settled (h : m.Mirrored x) (hs : m.Settled) : x = m.value :=
  h hs.2 fun r hr => absurd hr (by rw [hs.1]; exact List.not_mem_nil)

theorem Mirrored.ask (h : m.Mirrored x) : (m.ask v).Mirrored x :=
  fun hn hr => h hn fun r hin => hr r (List.mem_append_left [v] hin)

/-- Who asks for a value may take it for granted at once. -/
theorem mirrored_ask : (m.ask v).Mirrored v :=
  fun _ hr => hr v (List.mem_append_right m.requests List.mem_cons_self)

theorem Reported.ask (h : m.Reported) : (m.ask v).Reported := h

theorem reported_of_notice {w : V} {rs ns : List V} : (⟨w, rs, ns ++ [w]⟩ : Remote V).Reported := by
  intro e he
  rw [List.getLast?_append, List.getLast?_singleton, Option.some_or] at he
  exact (Option.some.inj he).symm

theorem mirrored_of_notice {w : V} {rs ns : List V} : (⟨w, rs, ns ++ [w]⟩ : Remote V).Mirrored x :=
  fun hn _ => absurd hn (List.append_ne_nil_of_right_ne_nil ns (List.cons_ne_nil w []))

theorem grant_cases (h : m.grant v = some m') : ∃ rs, m' = ⟨v, rs, m.notices ++ [v]⟩ := by
  unfold grant at h
  split at h <;> cases h
  exact ⟨_, rfl⟩

theorem ignore_cases [DecidableEq V] (h : m.ignore = some m') :
    m.requests = m.value :: m'.requests ∧ m'.value = m.value ∧ m'.notices = m.notices := by
  unfold ignore at h
  split at h
  · cases h
  · rename_i r rest hreq
    split at h <;> cases h
    rename_i hr
    exact ⟨by rw [hreq, hr], rfl, rfl⟩

theorem Mirrored.ignore [DecidableEq V] (h : m.Mirrored x) (hs : m.ignore = some m') : m'.Mirrored x := by
  obtain ⟨hreq, hvalue, hnotices⟩ := ignore_cases hs
  intro hn hr
  rw [hnotices] at hn
  rw [hvalue] at hr ⊢
  refine h hn fun r hin => ?_
  rw [hreq] at hin
  rcases List.mem_cons.mp hin with rfl | hin
  · rfl
  · exact hr r hin

theorem Reported.ignore [DecidableEq V] (h : m.Reported) (hs : m.ignore = some m') : m'.Reported := by
  obtain ⟨-, hvalue, hnotices⟩ := ignore_cases hs
  intro e he
  rw [hnotices] at he
  rw [hvalue]
  exact h e he

theorem read_cases {e : V} (h : m.read = some (e, m')) :
    m.notices = e :: m'.notices ∧ m'.value = m.value ∧ m'.requests = m.requests := by
  unfold read at h
  split at h <;> cases h
  exact ⟨by assumption, rfl, rfl⟩

/-- Who takes over what each notice says has the value when the last has been read. -/
theorem mirrored_read {e : V} (h : m.Reported) (hs : m.read = some (e, m')) : m'.Mirrored e := by
  obtain ⟨hnotices, hvalue, -⟩ := read_cases hs
  intro hn _
  rw [hvalue]
  exact h e (by rw [hnotices, hn]; rfl)

theorem Reported.read {e : V} (h : m.Reported) (hs : m.read = some (e, m')) : m'.Reported := by
  obtain ⟨hnotices, hvalue, -⟩ := read_cases hs
  intro d hd
  rw [hvalue]
  refine h d ?_
  cases hrest : m'.notices with
  | nil =>
    rw [hrest] at hd
    cases hd
  | cons f fs =>
    rw [hrest] at hd
    rw [hnotices, hrest, List.getLast?_cons_cons]
    exact hd

end Remote
end Plughost.Mirror
