import Plughost.Lib.Runs

/-! Monitors of a sequence of events: automata that refuse an event that breaks
the rule they stand for. Nothing here names a program. -/
namespace Plughost.Monitors
open Plughost.Runs
variable {σ α ε μ : Type*} {monitor : μ → ε → Option μ} {m n : μ} {es fs : List ε}

/-- The monitor's state after a sequence of events, when it refuses none of them. -/
def observe (monitor : μ → ε → Option μ) (m : μ) (es : List ε) : Option μ := es.foldlM monitor m

@[simp] theorem observe_nil : observe monitor m [] = some m := rfl

@[simp] theorem observe_cons (e : ε) :
    observe monitor m (e :: es) = (monitor m e).bind (observe monitor · es) := rfl

theorem observe_append : observe monitor m (es ++ fs) = (observe monitor m es).bind (observe monitor · fs) :=
  List.foldlM_append

/-- After an accepted first part only the rest is still to be judged. -/
theorem observe_append_of (h : observe monitor m es = some n) :
    observe monitor m (es ++ fs) = observe monitor n fs := by
  rw [observe_append, h, Option.bind_some]

/-- A system whose steps emit events, run with the events recorded. -/
def recorded (step : σ → α → Option (σ × List ε)) (p : σ × List ε) (a : α) : Option (σ × List ε) :=
  (step p.1 a).map fun out => (out.1, p.2 ++ out.2)

/-- The monitor refuses none of the events recorded so far. -/
def Accepts (monitor : μ → ε → Option μ) (m : μ) (p : σ × List ε) : Prop := ∃ n, observe monitor m p.2 = some n

section Recorded
variable {step : σ → α → Option (σ × List ε)} {s : σ} {p : σ × List ε} {as : List α}

/-- A relation between the system and its monitor that the permitted steps keep, of the recorded system. -/
private theorem recorded_keeps (R : σ → μ → Prop) (ok : σ → α → Prop) {q r : σ × List ε} {a : α}
    (keep : ∀ {s a t es m}, R s m → ok s a → step s a = some (t, es) → ∃ n, observe monitor m es = some n ∧ R t n)
    (hq : ∃ n, observe monitor m q.2 = some n ∧ R q.1 n) (hok : ok q.1 a) (hstep : recorded step q a = some r) :
    ∃ n, observe monitor m r.2 = some n ∧ R r.1 n := by
  obtain ⟨n, hn, hR⟩ := hq
  obtain ⟨⟨t, es⟩, hst, rfl⟩ := Option.map_eq_some_iff.mp hstep
  obtain ⟨n', hn', hR'⟩ := keep hR hok hst
  exact ⟨n', by rw [observe_append_of hn, hn'], hR'⟩

/-- The monitor accepts the runs whose steps are permitted. -/
private theorem accepts_of_meets (R : σ → μ → Prop) {ok : σ → α → Prop}
    (keep : ∀ {s a t es m}, R s m → ok s a → step s a = some (t, es) → ∃ n, observe monitor m es = some n ∧ R t n)
    (h0 : R s m) (hm : Meets (recorded step) (fun q a => ok q.1 a) (s, []) as) :
    Always (recorded step) (Accepts monitor m) (s, []) as :=
  always_of_meets (fun q => ∃ n, observe monitor m q.2 = some n ∧ R q.1 n)
    (fun hq hok hstep => recorded_keeps R ok keep hq hok hstep) (fun hq => hq.imp fun _ h => h.1) ⟨m, rfl, h0⟩ hm

/-- The monitor accepts every run of a system whose steps all keep the relation. -/
theorem accepts_of_steps (R : σ → μ → Prop)
    (keep : ∀ {s a t es m}, R s m → step s a = some (t, es) → ∃ n, observe monitor m es = some n ∧ R t n)
    (h0 : R s m) : Always (recorded step) (Accepts monitor m) (s, []) as :=
  accepts_of_meets R (fun hR (_ : True) hst => keep hR hst) h0 Meets.true

/-- When the permitted steps keep a relation between the system and its monitor, and the others
are refused, the runs that the monitor accepts are those whose steps are all permitted. -/
theorem accepts_iff_meets (R : σ → μ → Prop) {ok : σ → α → Prop}
    (keep : ∀ {s a t es m}, R s m → ok s a → step s a = some (t, es) → ∃ n, observe monitor m es = some n ∧ R t n)
    (breaks : ∀ {s a t es m n}, R s m → step s a = some (t, es) → observe monitor m es = some n → ok s a)
    (h0 : R s m) (he : exec (recorded step) (s, []) as = some p) :
    Always (recorded step) (Accepts monitor m) (s, []) as ↔ Meets (recorded step) (fun q a => ok q.1 a) (s, []) as := by
  refine always_iff_meets (fun q => ∃ n, observe monitor m q.2 = some n ∧ R q.1 n)
    (fun hq hok hstep => recorded_keeps R ok keep hq hok hstep) ?_ ?_ ⟨m, rfl, h0⟩ he
  · rintro q ⟨n, hn, -⟩
    exact ⟨n, hn⟩
  · rintro q a r ⟨n, hn, hR⟩ hstep ⟨n', hn'⟩
    obtain ⟨⟨t, es⟩, hst, rfl⟩ := Option.map_eq_some_iff.mp hstep
    rw [observe_append_of hn] at hn'
    exact breaks hR hst hn'

/-- What was recorded before a run stands in front of what the run records. -/
theorem exec_recorded (s : σ) (es : List ε) (as : List α) :
    exec (recorded step) (s, es) as = (exec (recorded step) (s, []) as).map fun p => (p.1, es ++ p.2) := by
  induction as generalizing s es with
  | nil => simp
  | cons a as ih =>
    simp only [exec, recorded]
    cases step s a with
    | none => rfl
    | some out =>
      simp only [Option.map_some, Option.bind_some, List.nil_append]
      rw [ih, ih out.1 out.2, Option.map_map]
      congr 1
      funext p
      simp only [Function.comp_apply, List.append_assoc]

/-- The monitor goes on accepting, whichever steps of one kind come next: when outside the relation
such steps lead to a refusal, the runs of which this holds are those whose steps are all permitted. -/
theorem foreseen_iff_meets (R : σ → μ → Prop) {ok : σ → α → Prop} {kind : α → Bool}
    (keep : ∀ {s a t es m}, R s m → ok s a → step s a = some (t, es) → ∃ n, observe monitor m es = some n ∧ R t n)
    (free : ∀ {s a}, kind a → ok s a)
    (doomed : ∀ {s m}, ¬ R s m → ∃ as p, as.all kind ∧ exec (recorded step) (s, []) as = some p ∧
      observe monitor m p.2 = none)
    (leaves : ∀ {s a t es m n}, R s m → step s a = some (t, es) → observe monitor m es = some n → R t n → ok s a)
    (h0 : R s m) (he : exec (recorded step) (s, []) as = some p) :
    Always (recorded step) (Stays (recorded step) kind (Accepts monitor m)) (s, []) as ↔
      Meets (recorded step) (fun q a => ok q.1 a) (s, []) as := by
  refine always_iff_meets (fun q => ∃ n, observe monitor m q.2 = some n ∧ R q.1 n)
    (fun hq hok hstep => recorded_keeps R ok keep hq hok hstep) ?_ ?_ ⟨m, rfl, h0⟩ he
  · intro q hq
    exact stays_of_invariant (fun q => ∃ n, observe monitor m q.2 = some n ∧ R q.1 n)
      (fun hq hkind hstep => recorded_keeps R ok keep hq (free hkind) hstep) (fun hq => hq.imp fun _ h => h.1) hq
  · rintro q a r ⟨n, hn, hR⟩ hstep hstays
    obtain ⟨⟨t, es⟩, hst, rfl⟩ := Option.map_eq_some_iff.mp hstep
    obtain ⟨n', hn'⟩ := hstays [] _ rfl rfl
    rw [observe_append_of hn] at hn'
    refine leaves hR hst hn' (by_contra fun hno => ?_)
    obtain ⟨bs, p, hbs, hp, hrefuse⟩ := doomed hno
    obtain ⟨n'', hn''⟩ := hstays bs (p.1, (q.2 ++ es) ++ p.2) hbs (by rw [exec_recorded, hp]; rfl)
    rw [observe_append_of (n := n') (by rw [observe_append_of hn, hn']), hrefuse] at hn''
    cases hn''

end Recorded

/-- What a rule that leaves choices open makes of a sequence of events, each choice made in some way. -/
inductive Admits (rule : μ → ε → μ → Prop) : μ → List ε → μ → Prop
  | nil (m : μ) : Admits rule m [] m
  | cons {m n k : μ} {e : ε} {es : List ε} (first : rule m e n) (rest : Admits rule n es k) : Admits rule m (e :: es) k

section Admits
variable {rule : μ → ε → μ → Prop} {k : μ}

theorem admits_one {e : ε} (h : rule m e n) : Admits rule m [e] n := .cons h (.nil n)

theorem admits_append : Admits rule m (es ++ fs) k ↔ ∃ n, Admits rule m es n ∧ Admits rule n fs k := by
  constructor
  · intro h
    induction es generalizing m with
    | nil => exact ⟨m, .nil m, h⟩
    | cons e es ih =>
      obtain - | ⟨first, rest⟩ := h
      obtain ⟨n, hfront, hback⟩ := ih rest
      exact ⟨n, .cons first hfront, hback⟩
  · rintro ⟨n, hfront, hback⟩
    induction hfront with
    | nil => exact hback
    | cons first _ ih => exact .cons first (ih hback)

/-- When every permitted step is matched, event by event, by the rule, the permitted runs are admitted. -/
theorem admitted_of_meets (R : σ → μ → Prop) {step : σ → α → Option (σ × List ε)} {ok : σ → α → Prop} {s : σ}
    {as : List α}
    (keep : ∀ {s a t es m}, R s m → ok s a → step s a = some (t, es) → ∃ n, Admits rule m es n ∧ R t n)
    (h0 : R s m) (hm : Meets (recorded step) (fun q a => ok q.1 a) (s, []) as) :
    Always (recorded step) (fun p => ∃ n, Admits rule m p.2 n) (s, []) as := by
  refine always_of_meets (fun p => ∃ n, Admits rule m p.2 n ∧ R p.1 n) ?_ ?_ ⟨m, .nil m, h0⟩ hm
  · rintro q a r ⟨n, hn, hR⟩ hok hstep
    obtain ⟨⟨t, es⟩, hst, rfl⟩ := Option.map_eq_some_iff.mp hstep
    obtain ⟨n', hn', hR'⟩ := keep hR hok hst
    exact ⟨n', admits_append.mpr ⟨n, hn, hn'⟩, hR'⟩
  · rintro q ⟨n, hn, -⟩
    exact ⟨n, hn⟩

end Admits

/-- A resource is acquired, or given back. -/
inductive Use (ρ : Type*) where
  | acquire (r : ρ)
  | release (r : ρ)
  deriving DecidableEq

variable {ρ : Type*} [DecidableEq ρ]

/-- Resources are given back in the reverse of the order in which they were acquired. -/
def lifo : List ρ → Use ρ → Option (List ρ)
  | held, .acquire r => some (r :: held)
  | [], .release _ => none
  | top :: held, .release r => if top = r then some held else none

theorem observe_acquire (held rs : List ρ) : observe lifo held (rs.map .acquire) = some (rs.reverse ++ held) := by
  induction rs generalizing held with
  | nil => rfl
  | cons r rs ih =>
    rw [List.map_cons, observe_cons, lifo, Option.bind_some, ih, List.reverse_cons, List.append_assoc,
      List.singleton_append]

/-- Giving back everything held, last acquired first. -/
theorem observe_release (held rest : List ρ) : observe lifo (held ++ rest) (held.map .release) = some rest := by
  induction held with
  | nil => rfl
  | cons r held ih =>
    rw [List.map_cons, List.cons_append, observe_cons, lifo, if_pos rfl]
    exact ih

end Plughost.Monitors
