import Mathlib.Data.Option.Basic
import Plughost.Lib.Runs

/-! A system that refines another: each of its steps is a step of the other on the
abstracted states, or is not seen there. Nothing here names a program. -/
namespace Plughost.Simulation
open Plughost.Runs
variable {σ τ α β : Type*} {step : σ → α → Option σ} {spec : τ → β → Option τ}
  {Inv : σ → Prop} {abs : σ → τ} {view : σ → α → Option β} {s t : σ} {as : List α}

/-- The specification's actions that a run of the implementation amounts to. -/
def seen (step : σ → α → Option σ) (view : σ → α → Option β) : σ → List α → List β
  | _, [] => []
  | s, a :: as => (view s a).toList ++ match step s a with
    | some t => seen step view t as
    | none => []

theorem exists_of_mem_seen {b : β} (h : b ∈ seen step view s as) : ∃ u a, view u a = some b := by
  induction as generalizing s with
  | nil => cases h
  | cons a as ih =>
    rcases List.mem_append.mp h with hview | hrest
    · exact ⟨s, a, Option.mem_toList.mp hview⟩
    · cases hs : step s a with
      | none =>
        rw [hs] at hrest
        cases hrest
      | some t =>
        rw [hs] at hrest
        exact ih hrest

/-- A step that the view shows is that step of the specification; one that it does
not show leaves the abstraction as it was. -/
structure Refines (step : σ → α → Option σ) (spec : τ → β → Option τ) (Inv : σ → Prop) (abs : σ → τ)
    (view : σ → α → Option β) : Prop where
  keep : ∀ {s a t}, Inv s → step s a = some t → Inv t
  shown : ∀ {s a t b}, Inv s → step s a = some t → view s a = some b → spec (abs s) b = some (abs t)
  hidden : ∀ {s a t}, Inv s → step s a = some t → view s a = none → abs t = abs s

theorem exec_option {b : Option β} {u v : τ} (hshown : ∀ c, b = some c → spec u c = some v)
    (hhidden : b = none → v = u) : exec spec u b.toList = some v := by
  cases b with
  | none => rw [hhidden rfl]; rfl
  | some c => simp [exec, hshown c rfl]

/-- A run of the implementation is a run of the specification. -/
theorem Refines.exec_seen (h : Refines step spec Inv abs view) (hi : Inv s) (he : exec step s as = some t) :
    exec spec (abs s) (seen step view s as) = some (abs t) := by
  induction as generalizing s with
  | nil => cases he; rfl
  | cons a as ih =>
    obtain ⟨u, hu, hrest⟩ := Option.bind_eq_some_iff.mp he
    have hone : exec spec (abs s) (view s a).toList = some (abs u) :=
      exec_option (fun _ hb => h.shown hi hu hb) (fun hb => h.hidden hi hu hb)
    simp only [seen, hu]
    rw [exec_append, hone]
    exact ih (h.keep hi hu) hrest

/-- A component of a system runs on its own actions. -/
theorem exec_component {f : σ → τ} {g : α → Option β}
    (hstep : ∀ {s a t}, step s a = some t → exec spec (f s) (g a).toList = some (f t))
    (he : exec step s as = some t) : exec spec (f s) (as.filterMap g) = some (f t) := by
  induction as generalizing s with
  | nil => cases he; rfl
  | cons a as ih =>
    obtain ⟨u, hu, hrest⟩ := Option.bind_eq_some_iff.mp he
    have hcons : (a :: as).filterMap g = (g a).toList ++ as.filterMap g := by
      rw [List.filterMap_cons]
      cases g a <;> rfl
    rw [hcons, exec_append, hstep hu]
    exact ih hrest

/-- Of the actions of one kind, exactly those are seen that each step shows. -/
theorem filter_seen {p : β → Bool} {f : α → Option β} (hview : ∀ {s a t}, step s a = some t → (view s a).filter p = f a)
    (he : exec step s as = some t) : (seen step view s as).filter p = as.filterMap f := by
  induction as generalizing s with
  | nil => rfl
  | cons a as ih =>
    obtain ⟨u, hu, hrest⟩ := Option.bind_eq_some_iff.mp he
    simp only [seen, hu, List.filter_append, ih hrest]
    rw [List.filterMap_cons, ← hview hu]
    cases view s a with
    | none => rfl
    | some b =>
      by_cases hb : p b
      · simp [hb, Option.filter]
      · simp [hb, Option.filter]

/-- Conditions on the specification's steps, met by what each step shows. -/
theorem Refines.meets_seen (h : Refines step spec Inv abs view) {ok : σ → α → Prop} {allowed : τ → β → Prop}
    (himp : ∀ {s a b}, Inv s → ok s a → view s a = some b → allowed (abs s) b) (hi : Inv s)
    (hm : Meets step ok s as) (he : exec step s as = some t) :
    Meets spec allowed (abs s) (seen step view s as) := by
  induction as generalizing s with
  | nil =>
    intro bs b u hb
    simp [seen] at hb
  | cons a as ih =>
    obtain ⟨u, hu, hrest⟩ := Option.bind_eq_some_iff.mp he
    obtain ⟨ha, htail⟩ := meets_cons.mp hm
    have hlater := ih (h.keep hi hu) (htail u hu) hrest
    simp only [seen, hu]
    cases hb : view s a with
    | none => simpa only [Option.toList_none, List.nil_append, ← h.hidden hi hu hb] using hlater
    | some b =>
      refine meets_cons.mpr ⟨himp hi ha hb, fun v hv => ?_⟩
      rw [h.shown hi hu hb] at hv
      cases hv
      exact hlater

/-- Related systems: where each allowed step is, on related states, the specification's step
that the view shows, or none, a run is a run of the specification. -/
theorem exec_seen_related {R : σ → τ → Prop} {ok : σ → α → Prop} {u : τ}
    (hstep : ∀ {s a t u}, R s u → ok s a → step s a = some t → ∃ v, exec spec u (view s a).toList = some v ∧ R t v)
    (hR : R s u) (hm : Meets step ok s as) (he : exec step s as = some t) :
    ∃ v, exec spec u (seen step view s as) = some v ∧ R t v := by
  induction as generalizing s u with
  | nil =>
    cases he
    exact ⟨u, rfl, hR⟩
  | cons a as ih =>
    obtain ⟨s', hs', hrest⟩ := Option.bind_eq_some_iff.mp he
    obtain ⟨ha, htail⟩ := meets_cons.mp hm
    obtain ⟨u', hu', hR'⟩ := hstep hR ha hs'
    obtain ⟨v, hv, hRv⟩ := ih hR' (htail s' hs') hrest
    refine ⟨v, ?_, hRv⟩
    simp only [seen, hs']
    rw [exec_append, hu']
    exact hv

/-- The abstraction of a run is a run of the specification. -/
theorem exec_seen_of_step (Inv : σ → Prop) (keep : ∀ {s a t}, Inv s → step s a = some t → Inv t)
    (hstep : ∀ {s a t}, Inv s → step s a = some t → exec spec (abs s) (view s a).toList = some (abs t))
    (hi : Inv s) (he : exec step s as = some t) : exec spec (abs s) (seen step view s as) = some (abs t) := by
  have hall : Meets step (fun _ _ => True) s as := Meets.true
  have hone : ∀ {s a t u}, abs s = u ∧ Inv s → True → step s a = some t →
      ∃ v, exec spec u (view s a).toList = some v ∧ abs t = v ∧ Inv t := by
    rintro s a t _ ⟨rfl, hi⟩ - hs
    exact ⟨abs t, hstep hi hs, rfl, keep hi hs⟩
  obtain ⟨u, hu, rfl, -⟩ := exec_seen_related hone ⟨rfl, hi⟩ hall he
  exact hu

section Answers
variable {ρ : Type*} {call : σ → α → Option (ρ × σ)} {call' : τ → α → Option (ρ × τ)} {R : σ → τ → Prop} {u : τ}

/-- A machine's answers to one call after the other, and the state it is left in. -/
def answers (call : σ → α → Option (ρ × σ)) : σ → List α → Option (List ρ × σ)
  | s, [] => some ([], s)
  | s, a :: as => (call s a).bind fun p => (answers call p.2 as).map fun q => (p.1 :: q.1, q.2)

/-- The same answer and related states. -/
def Matches (R : σ → τ → Prop) (p : ρ × σ) (q : ρ × τ) : Prop := p.1 = q.1 ∧ R p.2 q.2

/-- The same answer and related states, or no answer from either. -/
def Alike (R : σ → τ → Prop) : Option (ρ × σ) → Option (ρ × τ) → Prop := Option.Rel (Matches R)

theorem Alike.intro {r : ρ} (h : R s u) : Alike R (some (r, s)) (some (r, u)) := .some ⟨rfl, h⟩

theorem Matches.intro {r : ρ} (h : R s u) : Matches R (r, s) (r, u) := ⟨rfl, h⟩

theorem Matches.alike {ρ' : Type*} {p : ρ × σ} {q : ρ × τ} (h : Matches R p q) (f : ρ → ρ') :
    Alike R (some (f p.1, p.2)) (some (f q.1, q.2)) := .some ⟨congrArg f h.1, h.2⟩

theorem Alike.map {ρ' : Type*} {o : Option (ρ × σ)} {o' : Option (ρ × τ)} (f : ρ → ρ') (h : Alike R o o') :
    Alike R (o.map fun p => (f p.1, p.2)) (o'.map fun p => (f p.1, p.2)) := by
  cases h with
  | none => exact .none
  | some hp => exact .some ⟨congrArg f hp.1, hp.2⟩

theorem Alike.bind {ρ' : Type*} {o : Option (ρ × σ)} {o' : Option (ρ × τ)} {f : ρ × σ → Option (ρ' × σ)}
    {f' : ρ × τ → Option (ρ' × τ)} (h : Alike R o o') (hf : ∀ r s u, R s u → Alike R (f (r, s)) (f' (r, u))) :
    Alike R (o.bind f) (o'.bind f') := by
  cases h with
  | none => exact .none
  | @some p q hp =>
    obtain ⟨r, s⟩ := p
    obtain ⟨r', u⟩ := q
    obtain ⟨rfl, hR⟩ := hp
    exact hf r s u hR

/-- Machines that answer each call alike answer every sequence of calls alike. -/
theorem alike_answers (h : ∀ {s u} a, R s u → Alike R (call s a) (call' u a)) (hR : R s u) (as : List α) :
    Alike R (answers call s as) (answers call' u as) := by
  induction as generalizing s u with
  | nil => exact .intro hR
  | cons a as ih => exact (h a hR).bind fun r s u hsu => (ih hsu).map (r :: ·)

/-- What each call keeps, any calls keep. -/
theorem answers_keep (Inv : σ → Prop) {allowed : α → Prop}
    (keep : ∀ {s a r t}, Inv s → allowed a → call s a = some (r, t) → Inv t) {rs : List ρ} (hi : Inv s)
    (hall : ∀ a ∈ as, allowed a) (he : answers call s as = some (rs, t)) : Inv t := by
  induction as generalizing s rs with
  | nil =>
    cases he
    exact hi
  | cons a as ih =>
    obtain ⟨⟨r, u⟩, hu, hrest⟩ := Option.bind_eq_some_iff.mp he
    obtain ⟨⟨rest, v⟩, hv, heq⟩ := Option.map_eq_some_iff.mp hrest
    cases heq
    exact ih (keep hi (hall a (List.mem_cons_self ..)) hu) (fun b hb => hall b (List.mem_cons_of_mem _ hb)) hv

end Answers

end Plughost.Simulation
