import Mathlib.Data.List.Basic
import Mathlib.Logic.Function.Iterate

/-! Left-to-right composition of stages that may refuse their input. A stage
that refuses passes the value on unchanged; its own state may still move. -/
namespace Plughost.Pipeline
variable {ι S X L : Type*} (f : ι → S → X → Option X × S)

/-- What one stage makes of a value. -/
def stage (i : ι) (p : S × X) : S × X := ((f i p.1 p.2).2, (f i p.1 p.2).1.getD p.2)

/-- The stages in list order. -/
def through (is : List ι) (p : S × X) : S × X := is.foldl (fun p i => stage f i p) p

variable {f}

private theorem through_cons (i : ι) (is : List ι) (p : S × X) :
    through f (i :: is) p = through f is (stage f i p) := rfl

/-- While every stage still to come refuses the value, it comes out as it went
in. `Q` is what the earlier stages leave true of the state for the later ones. -/
theorem through_refused {Q : List ι → S → Prop} {x : X}
    (h : ∀ i is s, Q (i :: is) s → (f i s x).1 = none ∧ Q is (f i s x).2) {is : List ι} {s : S}
    (hq : Q is s) : (through f is (s, x)).2 = x := by
  induction is generalizing s with
  | nil => rfl
  | cons i is ih =>
    obtain ⟨hnone, hrest⟩ := h i is s hq
    rw [through_cons, stage, hnone]
    exact ih hrest

/-- What every stage keeps, of the state and the value, the composition keeps. -/
theorem through_keeps {P : S × X → Prop} (h : ∀ i p, P p → P (stage f i p)) {p : S × X} (is : List ι) (hp : P p) :
    P (through f is p) := by
  induction is generalizing p with
  | nil => exact hp
  | cons i is ih => exact ih (h i p hp)

/-- Stages of which some, known beforehand, apply one map, and the others nothing: the composition
applies it once for each such stage. -/
theorem through_marks {P : S × X → Prop} {marked : ι → Bool} {g : X → X}
    (h : ∀ i p, P p → P (stage f i p) ∧ (stage f i p).2 = if marked i then g p.2 else p.2) {p : S × X}
    (is : List ι) (hp : P p) : (through f is p).2 = g^[is.countP marked] p.2 := by
  induction is generalizing p with
  | nil => rfl
  | cons i is ih =>
    obtain ⟨hkeep, hvalue⟩ := h i p hp
    rw [through_cons, ih hkeep, hvalue, List.countP_cons]
    cases marked i <;> rfl

/-- A loop whose body follows one stage at a time computes the composition. -/
theorem loop_follows {body : L → ι → L} {R : L → S × X → Prop}
    (follow : ∀ {l p} i, R l p → R (body l i) (stage f i p)) {l : L} {p : S × X} (is : List ι)
    (h : R l p) : R (is.foldl body l) (through f is p) := by
  induction is generalizing l p with
  | nil => exact h
  | cons i is ih => exact ih (follow i h)

end Plughost.Pipeline
