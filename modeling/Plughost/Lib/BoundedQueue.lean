import Mathlib.Data.List.DropRight

/-! A bounded queue that drops its oldest entry on overflow, and the last value
a keyed sequence holds for a key. Nothing here names a program. -/
namespace Plughost.BoundedQueue
variable {α ι V : Type*}

/-- `if (q.size() >= cap) q.pop_front(); q.push_back(x);` -/
def push (cap : Nat) (q : List α) (x : α) : List α := (if cap ≤ q.length then q.tail else q) ++ [x]

theorem mem_of_mem_push {cap : Nat} {q : List α} {x y : α} (h : y ∈ push cap q x) : y ∈ q ∨ y = x := by
  unfold push at h
  rcases List.mem_append.mp h with hq | hx
  · split at hq
    · exact .inl (List.mem_of_mem_tail hq)
    · exact .inl hq
  · exact .inr (List.mem_singleton.mp hx)

private theorem eq_of_rotated {q : List α} {x y : α} (h : q ++ [x] = y :: q) : ∀ z ∈ y :: q, z = x := by
  induction q generalizing y with
  | nil =>
    obtain ⟨rfl, -⟩ := List.cons_eq_cons.mp h
    exact fun z hz => List.mem_singleton.mp hz
  | cons z q ih =>
    obtain ⟨rfl, hrest⟩ := List.cons_eq_cons.mp h
    have htail := ih hrest
    exact List.forall_mem_cons.mpr ⟨htail z List.mem_cons_self, htail⟩

/-- A push changes nothing only where a full queue holds the pushed entry throughout. -/
theorem push_eq_self_iff {cap : Nat} (hcap : 0 < cap) {q : List α} {x : α} :
    push cap q x = q ↔ cap ≤ q.length ∧ ∀ y ∈ q, y = x := by
  unfold push
  split
  · rename_i hfull
    simp only [hfull, true_and]
    constructor
    · intro h
      cases q with
      | nil => exact fun y hy => nomatch hy
      | cons y q => exact eq_of_rotated h
    · intro h
      obtain ⟨n, hn⟩ := Nat.exists_eq_succ_of_ne_zero (by omega : q.length ≠ 0)
      rw [List.eq_replicate_of_mem h, hn, List.replicate_succ, List.tail_cons, ← List.replicate_succ',
        List.replicate_succ]
  · rename_i hroom
    refine ⟨fun h => ?_, fun h => absurd h.1 hroom⟩
    have := congrArg List.length h
    simp at this

/-- Over any pushes the queue holds the last `cap` of them. -/
theorem push_rtake {cap : Nat} (hcap : 0 < cap) (xs : List α) (x : α) :
    push cap (xs.rtake cap) x = (xs ++ [x]).rtake cap := by
  obtain ⟨n, rfl⟩ : ∃ n, cap = n + 1 := ⟨cap - 1, by omega⟩
  rw [List.rtake_concat_succ, push]
  congr 1
  simp only [List.rtake, List.length_drop, List.tail_drop]
  split
  · congr 1
    omega
  · congr 1
    omega

theorem foldl_push {cap : Nat} (hcap : 0 < cap) (xs ys : List α) :
    ys.foldl (push cap) (xs.rtake cap) = (xs ++ ys).rtake cap := by
  induction ys using List.reverseRecOn with
  | nil => simp
  | append_singleton ys y ih =>
    rw [List.foldl_append, ih, List.foldl_cons, List.foldl_nil, push_rtake hcap, List.append_assoc]

private theorem rtake_suffix (xs : List α) (n : Nat) : ∃ front, front ++ xs.rtake n = xs :=
  ⟨xs.take (xs.length - n), List.take_append_drop _ _⟩

/-- `Q` holds of the last element that satisfies `p` and of what stands before it. -/
def AtLast (p : α → Prop) (Q : List α → α → Prop) (xs : List α) : Prop :=
  ∀ front x back, xs = front ++ x :: back → p x → (∀ y ∈ back, ¬ p y) → Q front x

section AtLast
variable {p : α → Prop} {Q : List α → α → Prop} {xs : List α} {a : α}

theorem atLast_nil : AtLast p Q [] := by
  intro front x back h
  simp at h

theorem atLast_of_not (h : ∀ x ∈ xs, ¬ p x) : AtLast p Q xs :=
  fun _ x _ hxs hx _ => absurd hx (h x (by simp [hxs]))

/-- The last element being no match, the last match stands before it. -/
theorem atLast_concat_of_not (ha : ¬ p a) : AtLast p Q (xs ++ [a]) ↔ AtLast p Q xs := by
  constructor
  · intro h front x back hxs hx hback
    refine h front x (back ++ [a]) (by rw [hxs]; simp) hx fun y hy => ?_
    rcases List.mem_append.mp hy with hy | hy
    · exact hback y hy
    · rw [List.mem_singleton.mp hy]
      exact ha
  · intro h front x back hxs hx hback
    rcases List.eq_nil_or_concat back with rfl | ⟨back, b, rfl⟩
    · obtain ⟨-, hlast⟩ := List.append_inj' hxs rfl
      cases hlast
      exact absurd hx ha
    · rw [List.concat_eq_append, ← List.cons_append, ← List.append_assoc] at hxs
      obtain ⟨hfront, -⟩ := List.append_inj' hxs rfl
      rw [List.concat_eq_append] at hback
      exact h front x back hfront hx fun y hy => hback y (List.mem_append_left _ hy)

theorem atLast_concat (ha : p a) : AtLast p Q (xs ++ [a]) ↔ Q xs a := by
  constructor
  · exact fun h => h xs a [] rfl ha (by simp)
  · intro h front x back hxs hx hback
    rcases List.eq_nil_or_concat back with rfl | ⟨back, b, rfl⟩
    · obtain ⟨rfl, hlast⟩ := List.append_inj' hxs rfl
      cases hlast
      exact h
    · rw [List.concat_eq_append, ← List.cons_append, ← List.append_assoc] at hxs
      obtain ⟨-, hlast⟩ := List.append_inj' hxs rfl
      cases hlast
      exact absurd ha (hback a (by simp))

/-- The last match stands before elements that do not match. -/
theorem atLast_append_of_not {ys : List α} (hys : ∀ y ∈ ys, ¬ p y) (h : AtLast p Q xs) : AtLast p Q (xs ++ ys) := by
  induction ys using List.reverseRecOn with
  | nil => simpa using h
  | append_singleton ys y ih =>
    rw [← List.append_assoc]
    exact (atLast_concat_of_not (hys y (by simp))).mpr (ih fun x hx => hys x (by simp [hx]))

end AtLast

variable [DecidableEq ι]

/-- The value the last entry for `id` carries. -/
def lastValue (id : ι) (q : List (ι × V)) : Option V :=
  q.foldl (fun v p => if p.1 = id then some p.2 else v) none

@[simp] theorem lastValue_nil (id : ι) : lastValue id ([] : List (ι × V)) = none := rfl

theorem lastValue_concat (id : ι) (q : List (ι × V)) (p : ι × V) :
    lastValue id (q ++ [p]) = if p.1 = id then some p.2 else lastValue id q := by
  simp [lastValue]

theorem lastValue_append (id : ι) (a b : List (ι × V)) :
    lastValue id (a ++ b) = (lastValue id b).or (lastValue id a) := by
  induction b using List.reverseRecOn with
  | nil => simp
  | append_singleton b p ih =>
    rw [← List.append_assoc, lastValue_concat, lastValue_concat, ih]
    split <;> simp

/-- What the back of a sequence says about a key is what the sequence says. -/
theorem lastValue_of_rtake {id : ι} {q : List (ι × V)} {n : Nat} {v : V}
    (h : lastValue id (q.rtake n) = some v) : lastValue id q = some v := by
  obtain ⟨front, hq⟩ := rtake_suffix q n
  rw [← hq, lastValue_append, h, Option.some_or]

theorem lastValue_isSome {id : ι} {q : List (ι × V)} : (lastValue id q).isSome ↔ ∃ p ∈ q, p.1 = id := by
  induction q using List.reverseRecOn with
  | nil => simp
  | append_singleton q p ih =>
    rw [lastValue_concat]
    by_cases h : p.1 = id
    · simp [h]
    · rw [if_neg h, ih]
      simp [h]

/-- An entry can be taken out without changing any key's last value when a later
entry has its key, or the entries before it already gave its value. -/
theorem lastValue_without {front rest : List (ι × V)} {p : ι × V} :
    (∀ id, lastValue id (front ++ rest) = lastValue id (front ++ p :: rest)) ↔
      (lastValue p.1 rest).isSome ∨ lastValue p.1 front = some p.2 := by
  have hone : ∀ id, lastValue id [p] = if p.1 = id then some p.2 else none := fun id => by
    rw [← List.nil_append [p], lastValue_concat, lastValue_nil]
  have hsplit : ∀ id, lastValue id (front ++ p :: rest) =
      (lastValue id rest).or ((if p.1 = id then some p.2 else none).or (lastValue id front)) := by
    intro id
    rw [← List.singleton_append, ← List.append_assoc, lastValue_append, lastValue_append, hone]
  constructor
  · intro h
    have hp := h p.1
    rw [hsplit, lastValue_append, if_pos rfl] at hp
    cases hrest : lastValue p.1 rest with
    | some v => exact .inl rfl
    | none =>
      rw [hrest] at hp
      exact .inr hp
  · intro h id
    rw [hsplit, lastValue_append]
    by_cases hid : p.1 = id
    · subst hid
      rw [if_pos rfl]
      rcases h with hsome | hfront
      · obtain ⟨v, hv⟩ := Option.isSome_iff_exists.mp hsome
        rw [hv, Option.some_or, Option.some_or]
      · rw [hfront, Option.some_or]
    · rw [if_neg hid, Option.none_or]

/-- What gets through of a keyed sequence ends on a key's last value exactly when
its last entry gets through or repeats what got through before. -/
theorem lastValue_filter_iff {β : Type*} (entry : β → ι × V) (keep : β → Bool) (id : ι) (xs : List β) :
    lastValue id ((xs.filter keep).map entry) = lastValue id (xs.map entry) ↔
      AtLast (fun x => (entry x).1 = id) (fun front x =>
        keep x = true ∨ lastValue id ((front.filter keep).map entry) = some (entry x).2) xs := by
  induction xs using List.reverseRecOn with
  | nil => exact ⟨fun _ => atLast_nil, fun _ => rfl⟩
  | append_singleton xs x ih =>
    have hall : lastValue id ((xs ++ [x]).map entry) =
        if (entry x).1 = id then some (entry x).2 else lastValue id (xs.map entry) := by
      rw [List.map_append, List.map_singleton, lastValue_concat]
    have hkept : lastValue id (((xs ++ [x]).filter keep).map entry) =
        if keep x = true ∧ (entry x).1 = id then some (entry x).2 else lastValue id ((xs.filter keep).map entry) := by
      rw [List.filter_append, List.map_append]
      cases hk : keep x with
      | true => simp [hk, lastValue_concat]
      | false => simp [hk]
    rw [hall, hkept]
    by_cases hid : (entry x).1 = id
    · refine Iff.trans ?_ (atLast_concat (p := fun y => (entry y).1 = id) hid).symm
      rw [if_pos hid]
      cases hk : keep x with
      | true => simp [hid]
      | false => simp
    · refine Iff.trans ?_ (atLast_concat_of_not (p := fun y => (entry y).1 = id) hid).symm
      rw [if_neg hid, if_neg (fun h => hid h.2), ih]

end Plughost.BoundedQueue
