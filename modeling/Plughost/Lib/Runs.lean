import Mathlib.Data.List.Basic
import Mathlib.Data.List.Infix

/-! Finite runs of a partial step function, and the rules by which a fact about
one step becomes a fact about a whole run. Nothing here names a program. -/
namespace Plughost.Runs
variable {σ α : Type*} {step : σ → α → Option σ} {s t : σ} {a : α} {as : List α}

/-- The state a list of actions leads to, when each of them is enabled in turn. -/
def exec (step : σ → α → Option σ) : σ → List α → Option σ
  | s, [] => some s
  | s, a :: as => (step s a).bind (exec step · as)

/-- Every state the run visits, the first and the last included, satisfies `P`. -/
def Always (step : σ → α → Option σ) (P : σ → Prop) (s : σ) (as : List α) : Prop :=
  ∀ bs t, bs <+: as → exec step s bs = some t → P t

/-- Every step of the run is taken from a state and by an action that satisfy `ok`. -/
def Meets (step : σ → α → Option σ) (ok : σ → α → Prop) (s : σ) (as : List α) : Prop :=
  ∀ bs a t, bs ++ [a] <+: as → exec step s bs = some t → ok t a

/-- The run takes this step, from `u` by `a` to `v`. -/
def Takes (step : σ → α → Option σ) (s : σ) (as : List α) (u : σ) (a : α) (v : σ) : Prop :=
  ∃ before after, as = before ++ a :: after ∧ exec step s before = some u ∧ step u a = some v

@[simp] theorem exec_nil : exec step s [] = some s := rfl

theorem exec_append (as bs : List α) :
    exec step s (as ++ bs) = (exec step s as).bind (exec step · bs) := by
  induction as generalizing s with
  | nil => rfl
  | cons a as ih =>
    simp only [List.cons_append, exec]
    cases step s a with
    | none => rfl
    | some u => exact ih

theorem exec_concat (as : List α) (a : α) :
    exec step s (as ++ [a]) = (exec step s as).bind (step · a) := by
  rw [exec_append]
  congr 1
  funext u
  simp only [exec]
  cases step u a <;> rfl

theorem exec_concat_some {u : σ} (h : exec step s (as ++ [a]) = some u) :
    ∃ t, exec step s as = some t ∧ step t a = some u := by
  rw [exec_concat] at h
  exact Option.bind_eq_some_iff.mp h

/-- A longer run takes the steps of a shorter one. -/
theorem Takes.concat {u v : σ} {b : α} (h : Takes step s as u b v) : Takes step s (as ++ [a]) u b v := by
  obtain ⟨before, after, rfl, hu, hv⟩ := h
  exact ⟨before, after ++ [a], by rw [List.append_assoc, List.cons_append], hu, hv⟩

theorem takes_last {u v : σ} (he : exec step s as = some u) (hs : step u a = some v) :
    Takes step s (as ++ [a]) u a v := ⟨as, [], rfl, he, hs⟩

theorem Meets.front {ok : σ → α → Prop} (h : Meets step ok s (as ++ [a])) : Meets step ok s as :=
  fun bs b t hb he => h bs b t (hb.trans (List.prefix_append as [a])) he

theorem Meets.last {ok : σ → α → Prop} (h : Meets step ok s (as ++ [a]))
    (he : exec step s as = some t) : ok t a := h as a t List.prefix_rfl he

theorem Meets.concat {ok : σ → α → Prop} (h : Meets step ok s as)
    (hlast : ∀ t, exec step s as = some t → ok t a) : Meets step ok s (as ++ [a]) := by
  intro bs b v hb hv
  rcases List.prefix_concat_iff.mp hb with heq | hlt
  · obtain ⟨rfl, hba⟩ := List.append_inj' heq rfl
    cases hba
    exact hlast v hv
  · exact h bs b v hlt hv

private theorem Meets.of_prefix {ok : σ → α → Prop} {bs : List α} (h : Meets step ok s as) (hb : bs <+: as) :
    Meets step ok s bs := fun cs a t hc he => h cs a t (hc.trans hb) he

theorem Meets.true : Meets step (fun _ _ => True) s as := fun _ _ _ _ _ => trivial

theorem Always.end {P : σ → Prop} (h : Always step P s as) (he : exec step s as = some t) : P t :=
  h as t List.prefix_rfl he

/-- Along a run that stays in `P` every step leads into `P`. -/
theorem Always.meets {P : σ → Prop} (h : Always step P s as) :
    Meets step (fun u a => ∀ t, step u a = some t → P t) s as := by
  intro bs a u hb hu t ht
  refine h (bs ++ [a]) t hb ?_
  rw [exec_concat, hu]
  exact ht

/-- What is left of a run after a first part of it. -/
theorem Always.rest {P : σ → Prop} {bs : List α} (h : Always step P s (as ++ bs)) (he : exec step s as = some t) :
    Always step P t bs := by
  intro cs u hc hu
  refine h (as ++ cs) u ((List.prefix_append_right_inj as).mpr hc) ?_
  rw [exec_append, he]
  exact hu

theorem meets_cons {ok : σ → α → Prop} :
    Meets step ok s (a :: as) ↔ ok s a ∧ ∀ t, step s a = some t → Meets step ok t as := by
  constructor
  · intro h
    refine ⟨h [] a s (by simp) rfl, fun t ht bs b u hb hu => h (a :: bs) b u ?_ ?_⟩
    · rw [List.cons_append, List.cons_prefix_cons]
      exact ⟨rfl, hb⟩
    · rw [exec, ht]
      exact hu
  · rintro ⟨ha, hrest⟩ bs b u hb hu
    cases bs with
    | nil =>
      obtain ⟨rfl, -⟩ := List.cons_prefix_cons.mp hb
      cases hu
      exact ha
    | cons c bs =>
      obtain ⟨rfl, hbs⟩ := List.cons_prefix_cons.mp hb
      obtain ⟨t, ht, hrun⟩ := Option.bind_eq_some_iff.mp hu
      exact hrest t ht bs b u hbs hrun

/-- The condition, step by step, on a given run. -/
def checks (step : σ → α → Option σ) (ok : σ → α → Prop) [∀ s a, Decidable (ok s a)] : σ → List α → Bool
  | _, [] => true
  | s, a :: as => decide (ok s a) && match step s a with
    | some t => checks step ok t as
    | none => true

theorem meets_of_checks {ok : σ → α → Prop} [∀ s a, Decidable (ok s a)]
    (h : checks step ok s as = true) : Meets step ok s as := by
  induction as generalizing s with
  | nil =>
    intro bs b t hb
    simp at hb
  | cons a as ih =>
    simp only [checks, Bool.and_eq_true, decide_eq_true_eq] at h
    refine meets_cons.mpr ⟨h.1, fun t ht => ih ?_⟩
    simpa only [ht] using h.2

/-- The induction over runs: an invariant that every permitted step keeps holds
at the end of every run whose steps are all permitted. -/
theorem invariant (Inv : σ → Prop) {ok : σ → α → Prop}
    (keep : ∀ {s a t}, Inv s → ok s a → step s a = some t → Inv t)
    (h0 : Inv s) (hm : Meets step ok s as) (he : exec step s as = some t) : Inv t := by
  induction as using List.reverseRecOn generalizing t with
  | nil => cases he; exact h0
  | append_singleton as a ih =>
    obtain ⟨u, hu, hs⟩ := exec_concat_some he
    exact keep (ih hm.front hu) (hm.last hu) hs

/-- The same rule when every step is permitted. -/
theorem invariant_of_step (Inv : σ → Prop) (keep : ∀ {s a t}, Inv s → step s a = some t → Inv t)
    (h0 : Inv s) (he : exec step s as = some t) : Inv t :=
  invariant Inv (fun hi _ hs => keep hi hs) h0 Meets.true he

/-- Permitted actions that are always enabled can be taken one after the other. -/
theorem exec_of_meets (Inv : σ → Prop) {ok : σ → α → Prop}
    (keep : ∀ {s a t}, Inv s → ok s a → step s a = some t → Inv t)
    (enabled : ∀ {s a}, Inv s → ok s a → ∃ t, step s a = some t)
    (h0 : Inv s) (hm : Meets step ok s as) : ∃ t, exec step s as = some t := by
  induction as using List.reverseRecOn with
  | nil => exact ⟨s, rfl⟩
  | append_singleton as a ih =>
    obtain ⟨u, hu⟩ := ih hm.front
    obtain ⟨t, ht⟩ := enabled (invariant Inv keep h0 hm.front hu) (hm.last hu)
    exact ⟨t, by rw [exec_concat, hu]; exact ht⟩

/-- Along a run that keeps an invariant, conditions that agree under it are the same. -/
theorem meets_congr (Inv : σ → Prop) {ok ok' : σ → α → Prop}
    (keep : ∀ {s a t}, Inv s → step s a = some t → Inv t)
    (agree : ∀ {s a t}, Inv s → step s a = some t → (ok s a ↔ ok' s a))
    (h0 : Inv s) (he : exec step s as = some t) : Meets step ok s as ↔ Meets step ok' s as := by
  have hat : ∀ bs a u, bs ++ [a] <+: as → exec step s bs = some u → (ok u a ↔ ok' u a) := by
    rintro bs a u ⟨cs, rfl⟩ hu
    rw [exec_append, exec_concat, hu] at he
    obtain ⟨v, hv, -⟩ := Option.bind_eq_some_iff.mp he
    exact agree (invariant_of_step Inv keep h0 hu) hv
  exact ⟨fun h bs a u hb hu => (hat bs a u hb hu).mp (h bs a u hb hu),
    fun h bs a u hb hu => (hat bs a u hb hu).mpr (h bs a u hb hu)⟩

/-- An invariant that implies `P` makes `P` hold throughout a permitted run. -/
theorem always_of_meets (Inv : σ → Prop) {P : σ → Prop} {ok : σ → α → Prop}
    (keep : ∀ {s a t}, Inv s → ok s a → step s a = some t → Inv t) (safe : ∀ {s}, Inv s → P s)
    (h0 : Inv s) (hm : Meets step ok s as) : Always step P s as :=
  fun _ _ hb he => safe (invariant Inv keep h0 (hm.of_prefix hb) he)

/-- When, in addition, a forbidden step leaves `P`, the permitted runs are
exactly the runs that stay in `P`. -/
theorem always_iff_meets (Inv : σ → Prop) {P : σ → Prop} {ok : σ → α → Prop}
    (keep : ∀ {s a t}, Inv s → ok s a → step s a = some t → Inv t) (safe : ∀ {s}, Inv s → P s)
    (breaks : ∀ {s a t}, Inv s → step s a = some t → P t → ok s a)
    (h0 : Inv s) (he : exec step s as = some t) : Always step P s as ↔ Meets step ok s as := by
  constructor
  · intro hp
    induction as using List.reverseRecOn generalizing t with
    | nil =>
      intro bs b u hb
      simp at hb
    | append_singleton as a ih =>
      obtain ⟨u, hu, hs⟩ := exec_concat_some he
      have hfront := ih hu fun bs v hb hv => hp bs v (hb.trans (List.prefix_append as [a])) hv
      refine hfront.concat fun v hv => ?_
      obtain rfl : v = u := by rw [hv] at hu; exact Option.some.inj hu
      exact breaks (invariant Inv keep h0 hfront hu) hs (hp.end he)
  · exact always_of_meets Inv keep safe h0

/-- However the run goes on by actions of one kind, `P` holds all the way. -/
def Stays (step : σ → α → Option σ) (kind : α → Bool) (P : σ → Prop) (s : σ) : Prop :=
  ∀ as t, as.all kind → exec step s as = some t → P t

theorem stays_of_invariant (Inv : σ → Prop) {kind : α → Bool} {P : σ → Prop}
    (keep : ∀ {s a t}, Inv s → kind a → step s a = some t → Inv t) (safe : ∀ {s}, Inv s → P s) (h0 : Inv s) :
    Stays step kind P s := by
  intro as t hkind he
  have hmeets : Meets step (fun _ a => kind a) s as := fun bs a u hb _ =>
    List.all_eq_true.mp hkind a (hb.subset (List.mem_append_right bs List.mem_cons_self))
  exact safe (invariant Inv keep h0 hmeets he)

theorem Meets.of_forall {q : α → Prop} (h : ∀ a ∈ as, q a) : Meets step (fun _ a => q a) s as :=
  fun bs a _ hb _ => h a (hb.subset (List.mem_append_right bs List.mem_cons_self))

/-- What every step says of its action holds of all the actions of a run. -/
theorem forall_of_steps (Inv : σ → Prop) {q : α → Prop} (keep : ∀ {s a t}, Inv s → step s a = some t → Inv t)
    (tells : ∀ {s a t}, Inv s → step s a = some t → q a) (h0 : Inv s) (he : exec step s as = some t) :
    ∀ a ∈ as, q a := by
  induction as generalizing s with
  | nil => exact fun _ ha => absurd ha List.not_mem_nil
  | cons a as ih =>
    obtain ⟨u, hu, hrest⟩ := Option.bind_eq_some_iff.mp he
    intro b hb
    rcases List.mem_cons.mp hb with rfl | hin
    · exact tells h0 hu
    · exact ih (keep h0 hu) hrest b hin

/-- A measure that no step raises, and that each counted action lowers, bounds how
often such an action is taken. -/
theorem countP_le_measure (Inv : σ → Prop) (rank : σ → Nat) (counted : α → Bool)
    (keep : ∀ {s a t}, Inv s → step s a = some t → Inv t)
    (falls : ∀ {s a t}, Inv s → step s a = some t → rank t + (if counted a then 1 else 0) ≤ rank s)
    (h0 : Inv s) (he : exec step s as = some t) : as.countP counted + rank t ≤ rank s := by
  induction as generalizing s with
  | nil => cases he; simp
  | cons a as ih =>
    obtain ⟨u, hu, hrest⟩ := Option.bind_eq_some_iff.mp he
    have hlater := ih (keep h0 hu) hrest
    have hnow := falls h0 hu
    rw [List.countP_cons]
    omega

end Plughost.Runs
