import Plughost.Lib.Simulation

/-! Threads that call into a shared state and send messages, one atomic call or message at
a time, so that other threads may go on in between. Nothing here names a program. -/
namespace Plughost.Scripts
open Plughost.Simulation

/-- What a thread has left to do. A call may fail for good, which is a crash. -/
inductive Script (σ μ : Type) : Type 1 where
  | done
  | call {ρ : Type} (f : σ → Option (ρ × σ)) (next : ρ → Script σ μ)
  | send (m : μ) (next : Script σ μ)

namespace Script
variable {σ τ μ ν ρ : Type} {R : σ → τ → Prop} {M : μ → ν → Prop} {s t : σ} {u v : τ}
  {k k' : Script σ μ} {l : Script τ ν}

/-- A call that only looks. -/
def ask (f : σ → ρ) (next : ρ → Script σ μ) : Script σ μ := .call (fun s => some (f s, s)) next

/-- A call that does not fail. -/
def run (f : σ → ρ × σ) (next : ρ → Script σ μ) : Script σ μ := .call (fun s => some (f s)) next

/-- A call without an answer. -/
def act (f : σ → σ) (next : Script σ μ) : Script σ μ := .call (fun s => some ((), f s)) fun _ => next

def isDone : Script σ μ → Bool
  | .done => true
  | _ => false

theorem isDone_iff : k.isDone = true ↔ k = .done := by
  cases k <;> simp [isDone]

/-- The next call, or the next message. -/
def advance : Script σ μ → σ → Option (Option μ × Script σ μ × σ)
  | .done, _ => none
  | .call f next, s => (f s).map fun p => (none, next p.1, p.2)
  | .send m next, s => some (some m, next, s)

theorem send_of_advance {m : μ} (h : k.advance s = some (some m, k', t)) : k = .send m k' := by
  cases k with
  | done => cases h
  | call f next =>
    obtain ⟨p, -, heq⟩ := Option.map_eq_some_iff.mp h
    cases heq
  | send m' next =>
    cases h
    rfl

/-- The whole script, with nothing in between: what it sends, and the state behind it. -/
def alone : Script σ μ → σ → Option (List μ × σ)
  | .done, s => some ([], s)
  | .call f next, s => (f s).bind fun p => (next p.1).alone p.2
  | .send m next, s => (next.alone s).map fun p => (m :: p.1, p.2)

/-- On related states the calls answer alike, and the messages correspond. -/
inductive Follows (R : σ → τ → Prop) (M : μ → ν → Prop) : Script σ μ → Script τ ν → Prop where
  | done : Follows R M .done .done
  | call {ρ : Type} {f : σ → Option (ρ × σ)} {f' : τ → Option (ρ × τ)} {next : ρ → Script σ μ}
    {next' : ρ → Script τ ν} (alike : ∀ {s u}, R s u → Alike R (f s) (f' u))
    (later : ∀ {s u r t v}, R s u → f s = some (r, t) → f' u = some (r, v) → Follows R M (next r) (next' r)) :
    Follows R M (.call f next) (.call f' next')
  | send {m : μ} {n : ν} {next : Script σ μ} {next' : Script τ ν} (said : M m n) (later : Follows R M next next') :
    Follows R M (.send m next) (.send n next')

namespace Follows

theorem ask {f : σ → ρ} {f' : τ → ρ} {next : ρ → Script σ μ} {next' : ρ → Script τ ν}
    (hf : ∀ {s u}, R s u → f s = f' u) (later : ∀ {s u}, R s u → Follows R M (next (f s)) (next' (f s))) :
    Follows R M (.ask f next) (.ask f' next') := by
  refine .call (fun {s u} h => by rw [hf h]; exact .intro h) fun {s u r t v} h hs hu => ?_
  cases hs
  exact later h

theorem run {f : σ → ρ × σ} {f' : τ → ρ × τ} {next : ρ → Script σ μ} {next' : ρ → Script τ ν}
    (hf : ∀ {s u}, R s u → Matches R (f s) (f' u))
    (later : ∀ {s u}, R s u → (f s).1 = (f' u).1 → Follows R M (next (f s).1) (next' (f s).1)) :
    Follows R M (.run f next) (.run f' next') := by
  refine .call (fun {s u} h => .some (hf h)) fun {s u r t v} h hs hu => ?_
  have hr : (f s).1 = r := congrArg Prod.fst (Option.some.inj hs)
  subst hr
  exact later h (hf h).1

theorem act {f : σ → σ} {f' : τ → τ} {next : Script σ μ} {next' : Script τ ν} (hf : ∀ {s u}, R s u → R (f s) (f' u))
    (later : Follows R M next next') : Follows R M (.act f next) (.act f' next') :=
  .call (fun h => .intro (hf h)) fun _ _ _ => later

theorem isDone_eq (h : Follows R M k l) : k.isDone = l.isDone := by
  cases h <;> rfl

/-- Scripts that follow one another advance together. -/
theorem advance (h : Follows R M k l) (hR : R s u) {o : Option μ} (hs : k.advance s = some (o, k', t)) :
    ∃ o' l' v, l.advance u = some (o', l', v) ∧ Option.Rel M o o' ∧ Follows R M k' l' ∧ R t v := by
  cases h with
  | done => cases hs
  | @call ρ f f' next next' alike later =>
    obtain ⟨⟨r, t'⟩, hf, heq⟩ := Option.map_eq_some_iff.mp hs
    cases heq
    have hboth := alike hR
    rw [hf] at hboth
    cases hf' : f' u with
    | none =>
      rw [hf'] at hboth
      cases hboth
    | some p =>
      rw [hf'] at hboth
      obtain ⟨r', v⟩ := p
      cases hboth with
      | some hp =>
        obtain ⟨rfl, hRv⟩ := hp
        exact ⟨none, next' r, v, by rw [Script.advance, hf']; rfl, .none, later hR hf hf', hRv⟩
  | send said later =>
    cases hs
    exact ⟨_, _, u, rfl, .some said, later, hR⟩

end Follows
end Script
end Plughost.Scripts
