import Plughost.Lib.Runs
import Plughost.Vst3.PluginChain

/-! `PluginChain::Process` against `LoadSlot` / `UnloadSlot`, one shared access
a step. An object is the slot object with its one `Active*` record, by number. -/
namespace Plughost.Vst3.SlotLifetime
open Plughost.Runs

abbrev Slot := Fin kMaxSlots

/-- Where the audio thread stands in `Process`: which load comes next, and which
object it has in hand. -/
inductive Audio where
  | idle | master
  | loadedGate (i : Slot) | bypassGate (i : Slot) | formatGate (i : Slot)
  /-- Testing the pointer of the format it read. -/
  | test (i : Slot) (f : SlotFormat)
  /-- The pointer was not null; it is read again for the call. -/
  | call (i : Slot) (f : SlotFormat) (o : Nat)
  /-- In the object's `Process`, before it loads `active`. -/
  | entered (i : Slot) (o : Nat)
  /-- `active` was not null: the record is in hand, the callback about to start. -/
  | ready (i : Slot) (o : Nat)
  | inCallback (i : Slot) (o : Nat)
  | leaving (i : Slot) (o : Nat)
  /-- A member call through a null pointer. -/
  | fault
  deriving DecidableEq, Repr

/-- The object whose `Process` the audio thread is in or about to enter. -/
def Audio.holds : Audio → Option Nat
  | .call _ _ o | .entered _ o | .ready _ o | .inCallback _ o | .leaving _ o => some o
  | _ => none

/-- What the control thread goes on to after the old plugin is gone: `UnloadSlot`
returns, `LoadSlot` builds an object of the detected format, or returns its error. -/
inductive After where
  | unloaded
  | create (f : SlotFormat)
  | failed
  deriving DecidableEq, Repr

/-- Where the control thread stands in `UnloadSlot` or `LoadSlot`, under `chainMutex_`. -/
inductive Control where
  | idle
  | clearLoaded (i : Slot) (k : After)
  | readFormat (i : Slot) (k : After)
  | test (i : Slot) (f : SlotFormat) (k : After)
  /-- The slot object's `Unload`: `active.exchange(nullptr)`. -/
  | exchange (i : Slot) (f : SlotFormat) (o : Nat) (k : After)
  /-- Past the fence: `TearDownActive` starts. -/
  | tearDown (i : Slot) (f : SlotFormat) (o : Nat) (k : After)
  | delete (i : Slot) (f : SlotFormat) (o : Nat) (k : After)
  /-- The `unique_ptr`'s `reset`. -/
  | reset (i : Slot) (f : SlotFormat) (k : After)
  | storeEmpty (i : Slot) (k : After)
  | make (i : Slot) (f : SlotFormat)
  /-- The new object's `Load`, up to its `active.exchange(fresh)`. -/
  | load (i : Slot) (f : SlotFormat) (o : Nat)
  | storeFormat (i : Slot) (f : SlotFormat)
  | storeLoaded (i : Slot)
  deriving DecidableEq, Repr

/-- The shared words, the two threads, and what has been done to each object. -/
structure Chain where
  masterEnabled : Bool
  loaded : Slot → Bool
  bypass : Slot → Bool
  format : Slot → SlotFormat
  pointer : SlotFormat → Slot → Option Nat
  active : Nat → Bool
  next : Nat
  audio : Audio
  control : Control
  tornDown : Nat → Bool
  deleted : Nat → Bool
  gone : Nat → Bool

inductive Act where
  /-- The host loop calls `Process` again. -/
  | process
  /-- The audio thread steps; a plugin that may not process this block is left at once. -/
  | audio (accept : Bool)
  | loadSlot (i : Slot) (f : SlotFormat)
  | unloadSlot (i : Slot)
  /-- The control thread steps; `ok` is whether a `Load` succeeds. -/
  | control (ok : Bool)
  | setBypass (i : Slot) (b : Bool)
  | setMaster (b : Bool)
  deriving DecidableEq, Repr

/-- The loop goes on to the next slot, or `Process` returns. -/
def nextSlot (i : Slot) : Audio := if h : i.val + 1 < kMaxSlots then .loadedGate ⟨i.val + 1, h⟩ else .idle

namespace Chain

/-- A chain as constructed. -/
def initial (master : Bool) : Chain :=
  { masterEnabled := master, loaded := fun _ => false, bypass := fun _ => false,
    format := fun _ => .empty, pointer := fun _ _ => none, active := fun _ => false, next := 0,
    audio := .idle, control := .idle,
    tornDown := fun _ => false, deleted := fun _ => false, gone := fun _ => false }

def setPointer (s : Chain) (f : SlotFormat) (i : Slot) (p : Option Nat) : SlotFormat → Slot → Option Nat :=
  Function.update s.pointer f (Function.update (s.pointer f) i p)

/-- The audio thread's next access. -/
def audioStep (s : Chain) (accept : Bool) : Option Chain :=
  match s.audio with
  | .idle | .fault => none
  | .master => some { s with audio := if s.masterEnabled then .loadedGate 0 else .idle }
  | .loadedGate i => some { s with audio := if s.loaded i then .bypassGate i else nextSlot i }
  | .bypassGate i => some { s with audio := if s.bypass i then nextSlot i else .formatGate i }
  | .formatGate i => some { s with audio := if s.format i = .empty then nextSlot i else .test i (s.format i) }
  | .test i f => some { s with audio := match s.pointer f i with
      | some o => .call i f o
      | none => nextSlot i }
  | .call i f _ => some { s with audio := match s.pointer f i with
      | some o => .entered i o
      | none => .fault }
  | .entered i o => some { s with audio := if s.active o then .ready i o else nextSlot i }
  | .ready i o => some { s with audio := if accept then .inCallback i o else .leaving i o }
  | .inCallback i o => some { s with audio := .leaving i o }
  | .leaving i _ => some { s with audio := nextSlot i }

/-- The control thread's next access. -/
def controlStep (s : Chain) (ok : Bool) : Option Chain :=
  match s.control with
  | .idle => none
  | .clearLoaded i k => some { s with loaded := Function.update s.loaded i false, control := .readFormat i k }
  | .readFormat i k => some { s with
      control := if s.format i = .empty then .storeEmpty i k else .test i (s.format i) k }
  | .test i f k => some { s with control := match s.pointer f i with
      | some o => .exchange i f o k
      | none => .storeEmpty i k }
  | .exchange i f o k => some { s with
      active := Function.update s.active o false,
      control := if s.active o then .tearDown i f o k else .reset i f k }
  | .tearDown i f o k => some { s with
      tornDown := Function.update s.tornDown o true, control := .delete i f o k }
  | .delete i f o k => some { s with deleted := Function.update s.deleted o true, control := .reset i f k }
  | .reset i f k => some { s with
      pointer := s.setPointer f i none,
      gone := fun o => s.gone o || s.pointer f i = some o,
      control := if k = .failed then .idle else .storeEmpty i k }
  | .storeEmpty i k => some { s with
      format := Function.update s.format i .empty,
      control := match k with
        | .create .empty | .unloaded | .failed => .idle
        | .create f => .make i f }
  -- Assigning to the `unique_ptr` destroys what it pointed at.
  | .make i f => some { s with
      pointer := s.setPointer f i (some s.next), next := s.next + 1,
      gone := fun o => s.gone o || s.pointer f i = some o,
      control := .load i f s.next }
  | .load i f o => if ok then some { s with
      active := Function.update s.active o true, control := .storeFormat i f }
    else some { s with control := .reset i f .failed }
  | .storeFormat i f => some { s with format := Function.update s.format i f, control := .storeLoaded i }
  | .storeLoaded i => some { s with loaded := Function.update s.loaded i true, control := .idle }

def step (s : Chain) : Act → Option Chain
  | .process => if s.audio = .idle then some { s with audio := .master } else none
  | .audio accept => s.audioStep accept
  | .loadSlot i f => if s.control = .idle then some { s with control := .clearLoaded i (.create f) } else none
  | .unloadSlot i => if s.control = .idle then some { s with control := .clearLoaded i .unloaded } else none
  | .control ok => s.controlStep ok
  | .setBypass i b => some { s with bypass := Function.update s.bypass i b }
  | .setMaster b => some { s with masterEnabled := b }

/-- No object the audio thread is in, or about to enter, has been touched by destruction. -/
def Safe (s : Chain) : Prop :=
  ∀ o, s.audio.holds = some o → s.tornDown o = false ∧ s.deleted o = false ∧ s.gone o = false

instance (s : Chain) : Decidable s.Safe :=
  match h : s.audio.holds with
  | none => .isTrue fun o ho => by rw [h] at ho; cases ho
  | some o => decidable_of_iff (s.tornDown o = false ∧ s.deleted o = false ∧ s.gone o = false)
      ⟨fun hs o' ho' => by rw [h] at ho'; cases ho'; exact hs, fun hs => hs o h⟩

/-- The object whose destruction the control thread begins with its next step. -/
def condemned (s : Chain) : Option Nat :=
  match s.control with
  | .tearDown _ _ o _ => some o
  | .reset i f _ | .make i f => s.pointer f i
  | _ => none

/-- The steps that keep the promise: destruction of an object begins only while
the audio thread is not between that object's pointer test and its return, and
no pointer test falls between the start of a teardown and the `reset`. -/
def Spared (s : Chain) : Act → Prop
  | .control _ => ∀ o, s.condemned = some o → s.tornDown o = false → s.audio.holds ≠ some o
  | .audio _ => ∀ i f o, s.audio = .test i f → s.pointer f i = some o → s.tornDown o = false
  | _ => True

/-- The invariant: nothing held is touched, a tested pointer still stands, and
distinct slots point at distinct objects. -/
structure Inv (s : Chain) : Prop where
  safe : s.Safe
  held : ∀ i f o, s.audio = .call i f o → s.pointer f i = some o
  alive : ∀ f i o, s.pointer f i = some o → s.gone o = false ∧ o < s.next
  distinct : ∀ f i f' i' o, s.pointer f i = some o → s.pointer f' i' = some o → f = f' ∧ i = i'
  fresh : ∀ o, s.next ≤ o → s.gone o = false
  deletedTorn : ∀ o, s.deleted o = true → s.tornDown o = true
  deleting : ∀ i f o k, s.control = .delete i f o k → s.tornDown o = true

end Chain

@[simp] theorem holds_nextSlot (i : Slot) : (nextSlot i).holds = none := by
  unfold nextSlot
  split <;> rfl

private theorem nextSlot_ne_call (i j : Slot) (f : SlotFormat) (o : Nat) : nextSlot i ≠ .call j f o := by
  unfold nextSlot
  split <;> nofun

namespace Chain
variable {s t : Chain}

private theorem setPointer_same (s : Chain) (f : SlotFormat) (i : Slot) (p : Option Nat) :
    s.setPointer f i p f i = p := by simp [setPointer]

private theorem setPointer_of_ne (s : Chain) {f f' : SlotFormat} {i i' : Slot} (p : Option Nat)
    (h : ¬ (f' = f ∧ i' = i)) : s.setPointer f i p f' i' = s.pointer f' i' := by
  unfold setPointer
  by_cases hf : f' = f
  · subst hf
    rw [Function.update_self, Function.update_of_ne fun hi => h ⟨rfl, hi⟩]
  · rw [Function.update_of_ne hf]

namespace Inv

theorem initial (master : Bool) : Inv (Chain.initial master) where
  safe o ho := by cases ho
  held i f o h := by cases h
  alive f i o h := by cases h
  distinct f i f' i' o h := by cases h
  fresh o _ := rfl
  deletedTorn o h := by cases h
  deleting i f o k h := by cases h

/-- The audio thread moves, with nothing in hand that is touched. -/
private theorem withAudio (h : Inv s) {x : Audio}
    (hsafe : ∀ o, x.holds = some o → s.tornDown o = false ∧ s.deleted o = false ∧ s.gone o = false)
    (hheld : ∀ i f o, x = .call i f o → s.pointer f i = some o) : Inv { s with audio := x } :=
  { h with safe := hsafe, held := hheld }

/-- In particular it may let go of what it held, or keep it. -/
theorem move (h : Inv s) {x : Audio} (hx : x.holds = none ∨ x.holds = s.audio.holds)
    (hcall : ∀ i f o, x ≠ .call i f o) : Inv { s with audio := x } := by
  refine h.withAudio (fun o ho => ?_) fun i f o hx => absurd hx (hcall i f o)
  rcases hx with hx | hx <;> rw [hx] at ho
  · cases ho
  · exact h.safe o ho

theorem audioStep (h : Inv s) {accept : Bool} (hok : Spared s (.audio accept))
    (hs : s.audioStep accept = some t) : Inv t := by
  unfold Chain.audioStep at hs
  cases ha : s.audio <;> rw [ha] at hs <;> cases hs
  case master => split <;> exact h.move (.inl rfl) nofun
  case loadedGate i =>
    split
    · exact h.move (.inl rfl) nofun
    · exact h.move (.inl (holds_nextSlot i)) (nextSlot_ne_call i)
  case bypassGate i =>
    split
    · exact h.move (.inl (holds_nextSlot i)) (nextSlot_ne_call i)
    · exact h.move (.inl rfl) nofun
  case formatGate i =>
    split
    · exact h.move (.inl (holds_nextSlot i)) (nextSlot_ne_call i)
    · exact h.move (.inl rfl) nofun
  case test i f =>
    cases hp : s.pointer f i with
    | none => exact h.move (.inl (holds_nextSlot i)) (nextSlot_ne_call i)
    | some o =>
      have htorn := hok i f o ha hp
      refine h.withAudio (fun o' ho' => ?_) fun i' f' o' hcall => ?_
      · cases ho'
        refine ⟨htorn, ?_, (h.alive f i o hp).1⟩
        by_contra hdel
        have := h.deletedTorn o (by simpa using hdel)
        rw [htorn] at this
        cases this
      · cases hcall
        exact hp
  case call i f o =>
    rw [h.held i f o ha]
    exact h.move (.inr (by rw [ha]; rfl)) nofun
  case entered i o =>
    split
    · exact h.move (.inr (by rw [ha]; rfl)) nofun
    · exact h.move (.inl (holds_nextSlot i)) (nextSlot_ne_call i)
  case ready i o => split <;> exact h.move (.inr (by rw [ha]; rfl)) nofun
  case inCallback i o => exact h.move (.inr (by rw [ha]; rfl)) nofun
  case leaving i o => exact h.move (.inl (holds_nextSlot i)) (nextSlot_ne_call i)

/-- What a step that begins or goes on with a destruction touches is not held. -/
private theorem not_held (h : Inv s) {ok : Bool} {o : Nat} (hok : Spared s (.control ok))
    (hc : s.condemned = some o) : s.audio.holds ≠ some o := by
  cases ht : s.tornDown o with
  | false => exact hok o hc ht
  | true =>
    intro hheld
    have := (h.safe o hheld).1
    rw [ht] at this
    cases this

/-- The pointer of slot `i` is overwritten, and what it pointed at is destroyed. -/
private theorem overwrite (h : Inv s) {ok : Bool} {f : SlotFormat} {i : Slot} {p : Option Nat}
    {next : Nat} {control : Control} (hok : Spared s (.control ok)) (hc : s.condemned = s.pointer f i)
    (hp : p = none ∧ next = s.next ∨ p = some s.next ∧ next = s.next + 1)
    (hdel : ∀ i f o k, control ≠ .delete i f o k) :
    Inv { s with pointer := s.setPointer f i p, next, control, gone := fun o => s.gone o || s.pointer f i = some o } := by
  have hnot : ∀ o, s.pointer f i = some o → s.audio.holds ≠ some o := fun o ho =>
    h.not_held hok (by rw [hc, ho])
  have hle : s.next ≤ next := by omega
  have hnew : ∀ f' i' o, s.setPointer f i p f' i' = some o →
      s.pointer f' i' = some o ∧ ¬ (f' = f ∧ i' = i) ∨ o = s.next ∧ next = s.next + 1 ∧ f' = f ∧ i' = i := by
    intro f' i' o ho
    by_cases heq : f' = f ∧ i' = i
    · obtain ⟨rfl, rfl⟩ := heq
      rw [setPointer_same] at ho
      rcases hp with ⟨rfl, -⟩ | ⟨rfl, hn⟩
      · cases ho
      · cases ho
        exact .inr ⟨rfl, hn, rfl, rfl⟩
    · rw [setPointer_of_ne s p heq] at ho
      exact .inl ⟨ho, heq⟩
  refine ⟨fun o ho => ?_, fun i' f' o ha => ?_, fun f' i' o ho => ?_, fun f₁ i₁ f₂ i₂ o h₁ h₂ => ?_,
    fun o ho => ?_, h.deletedTorn, fun i' f' o k hk => absurd hk (hdel i' f' o k)⟩
  · obtain ⟨h1, h2, h3⟩ := h.safe o ho
    refine ⟨h1, h2, ?_⟩
    simp only [h3, Bool.false_or, decide_eq_false_iff_not]
    exact fun hpo => hnot o hpo ho
  · have hold := h.held i' f' o ha
    change s.setPointer f i p f' i' = some o
    rw [setPointer_of_ne s p fun heq => ?_]
    · exact hold
    · obtain ⟨rfl, rfl⟩ := heq
      exact hnot o hold (by rw [ha]; rfl)
  · rcases hnew f' i' o ho with ⟨hold, hne⟩ | ⟨rfl, hn, -, -⟩
    · obtain ⟨hgone, hlt⟩ := h.alive f' i' o hold
      refine ⟨?_, Nat.lt_of_lt_of_le hlt hle⟩
      simp only [hgone, Bool.false_or, decide_eq_false_iff_not]
      exact fun hpo => hne (h.distinct f' i' f i o hold hpo)
    · refine ⟨?_, by dsimp only; omega⟩
      simp only [h.fresh _ le_rfl, Bool.false_or, decide_eq_false_iff_not]
      exact fun hpo => absurd (h.alive f i _ hpo).2 (Nat.lt_irrefl _)
  · rcases hnew f₁ i₁ o h₁ with ⟨hold₁, -⟩ | ⟨rfl, -, rfl, rfl⟩ <;>
      rcases hnew f₂ i₂ _ h₂ with ⟨hold₂, -⟩ | ⟨hnext, -, rfl, rfl⟩
    · exact h.distinct _ _ _ _ _ hold₁ hold₂
    · rw [hnext] at hold₁
      exact absurd (h.alive _ _ _ hold₁).2 (Nat.lt_irrefl _)
    · exact absurd (h.alive _ _ _ hold₂).2 (Nat.lt_irrefl _)
    · exact ⟨rfl, rfl⟩
  · dsimp only at ho ⊢
    simp only [h.fresh o (by omega), Bool.false_or, decide_eq_false_iff_not]
    intro hpo
    have := (h.alive f i o hpo).2
    omega

theorem tearDown (h : Inv s) {ok : Bool} {i : Slot} {f : SlotFormat} {o : Nat} {k : After}
    (hok : Spared s (.control ok)) (hc : s.control = .tearDown i f o k) :
    Inv { s with tornDown := Function.update s.tornDown o true, control := .delete i f o k } := by
  have hnot := h.not_held hok (o := o) (by simp [condemned, hc])
  refine { h with safe := fun o' ho' => ?_, deletedTorn := fun o' ho' => ?_, deleting := fun _ _ o' _ ho' => ?_ }
  · have hne : o' ≠ o := fun heq => hnot (by rw [← heq]; exact ho')
    simpa [Function.update_of_ne hne] using h.safe o' ho'
  · dsimp only
    by_cases heq : o' = o
    · rw [heq, Function.update_self]
    · rw [Function.update_of_ne heq]
      exact h.deletedTorn o' ho'
  · cases ho'
    exact Function.update_self ..

private theorem delete (h : Inv s) {i : Slot} {f : SlotFormat} {o : Nat} {k : After}
    (hc : s.control = .delete i f o k) :
    Inv { s with deleted := Function.update s.deleted o true, control := .reset i f k } := by
  have htorn := h.deleting i f o k hc
  refine { h with safe := fun o' ho' => ?_, deletedTorn := fun o' ho' => ?_, deleting := nofun }
  · obtain ⟨h1, h2, h3⟩ := h.safe o' ho'
    have hne : o' ≠ o := by
      rintro rfl
      rw [htorn] at h1
      cases h1
    exact ⟨h1, by dsimp only; rw [Function.update_of_ne hne]; exact h2, h3⟩
  · by_cases heq : o' = o
    · rw [heq]
      exact htorn
    · dsimp only at ho'
      rw [Function.update_of_ne heq] at ho'
      exact h.deletedTorn o' ho'

theorem controlStep (h : Inv s) {ok : Bool} (hok : Spared s (.control ok))
    (hs : s.controlStep ok = some t) : Inv t := by
  unfold Chain.controlStep at hs
  cases hc : s.control <;> rw [hc] at hs <;> dsimp only at hs
  case idle => cases hs
  case tearDown i f o k =>
    cases hs
    exact h.tearDown hok hc
  case delete i f o k =>
    cases hs
    exact h.delete hc
  case reset i f k =>
    cases hs
    exact h.overwrite hok (by simp [condemned, hc]) (.inl ⟨rfl, rfl⟩) (by split <;> nofun)
  case make i f =>
    cases hs
    exact h.overwrite hok (by simp [condemned, hc]) (.inr ⟨rfl, rfl⟩) nofun
  case load i f o => split at hs <;> cases hs <;> exact { h with deleting := nofun }
  case readFormat i k =>
    cases hs
    exact { h with deleting := by dsimp only; split <;> nofun }
  case test i f k =>
    cases hs
    exact { h with deleting := by dsimp only; split <;> nofun }
  case exchange i f o k =>
    cases hs
    exact { h with deleting := by dsimp only; split <;> nofun }
  case storeEmpty i k =>
    cases hs
    exact { h with deleting := by dsimp only; split <;> nofun }
  all_goals cases hs; exact { h with deleting := nofun }

theorem keep {a : Act} (h : Inv s) (hok : Spared s a) (hs : s.step a = some t) : Inv t := by
  cases a with
  | process =>
    simp only [Chain.step] at hs
    split at hs <;> cases hs
    exact h.move (.inl rfl) nofun
  | audio accept => exact h.audioStep hok hs
  | loadSlot i f | unloadSlot i =>
    simp only [Chain.step] at hs
    split at hs <;> cases hs
    exact { h with deleting := nofun }
  | control ok => exact h.controlStep hok hs
  | setBypass i b | setMaster b =>
    cases hs
    exact { h with }

end Inv

/-- A step outside the condition leads to an unsafe state. -/
private theorem spared_of_safe {a : Act} (hs : s.step a = some t) (ht : t.Safe) : Spared s a := by
  cases a with
  | audio accept =>
    intro i f o ha hp
    simp only [Chain.step, Chain.audioStep, ha, hp] at hs
    cases hs
    exact (ht o rfl).1
  | control ok =>
    intro o hc _ hheld
    simp only [Chain.step] at hs
    unfold condemned at hc
    split at hc <;> rename_i hcon <;> try cases hc
    all_goals
      simp only [Chain.controlStep, hcon] at hs
      cases hs
      have hsafe := ht o hheld
    · simp at hsafe
    · simp [hc] at hsafe
    · simp [hc] at hsafe
  | _ => trivial

/-- The promise of the swap and the fence, that nothing destroyed is in use,
holds in exactly the runs where no destruction begins under the audio thread's
hands and no pointer test falls between a teardown and its `reset`. -/
theorem safe_iff_spared (master : Bool) (as : List Act) (t : Chain)
    (he : exec step (Chain.initial master) as = some t) :
    Always step Safe (Chain.initial master) as ↔ Meets step Spared (Chain.initial master) as :=
  always_iff_meets Inv (fun hi hok hs => hi.keep hok hs) Inv.safe
    (fun _ hs ht => spared_of_safe hs ht) (Inv.initial master) he

/-- `LoadSlot` of a VST3 into slot 0, and the control steps it takes. -/
def loadFirst : List Act := .loadSlot 0 .vst3 :: List.replicate 7 (.control true)

/-- `UnloadSlot` runs to its end while the audio thread is in the plugin's callback. -/
theorem unload_under_callback :
    ∃ as t, exec step (Chain.initial true) as = some t ∧ t.audio = .inCallback 0 0 ∧
      t.tornDown 0 = true ∧ t.deleted 0 = true ∧ t.gone 0 = true ∧
      ¬ Always step Safe (Chain.initial true) as := by
  let as : List Act := loadFirst ++ .process :: List.replicate 8 (.audio true) ++
    .unloadSlot 0 :: List.replicate 8 (.control true)
  obtain ⟨t, ht, hview⟩ := Option.map_eq_some_iff.mp
    (show (exec step (Chain.initial true) as).map (fun t => (t.audio, t.control, t.tornDown 0, t.deleted 0,
      t.gone 0)) = some (.inCallback 0 0, .idle, true, true, true) by decide)
  simp only [Prod.mk.injEq] at hview
  obtain ⟨ha, -, h1, h2, h3⟩ := hview
  refine ⟨as, t, ht, ha, h1, h2, h3, fun hsafe => ?_⟩
  have hgone := (hsafe.end ht 0 (by rw [ha]; rfl)).2.2
  rw [h3] at hgone
  cases hgone

instance (s : Chain) : (act : Act) → Decidable (Spared s act)
  | .control _ => inferInstanceAs (Decidable (∀ o ∈ s.condemned, s.tornDown o = false → s.audio.holds ≠ some o))
  | .audio _ => match haudio : s.audio with
    | .test i f => decidable_of_iff (∀ o ∈ s.pointer f i, s.tornDown o = false)
        ⟨fun h j g o hj ho => by cases haudio.symm.trans hj; exact h o ho, fun h o ho => h i f o haudio ho⟩
    | .idle | .master | .loadedGate _ | .bypassGate _ | .formatGate _ | .call _ _ _ | .entered _ _ | .ready _ _
    | .inCallback _ _ | .leaving _ _ | .fault => isTrue fun i f o h => by cases haudio.symm.trans h
  | .process | .loadSlot _ _ | .unloadSlot _ | .setBypass _ _ | .setMaster _ => isTrue trivial

/-- A whole block, then a whole `UnloadSlot`: the run meets the condition. -/
theorem safe_iff_spared_when_apart : ∃ as t, exec step (Chain.initial true) as = some t ∧
    t.gone 0 = true ∧ Always step Safe (Chain.initial true) as := by
  let as : List Act := loadFirst ++ .process :: List.replicate 17 (.audio true) ++
    .unloadSlot 0 :: List.replicate 8 (.control true)
  obtain ⟨t, ht, hview⟩ := Option.map_eq_some_iff.mp
    (show (exec step (Chain.initial true) as).map (fun t => (t.audio, t.gone 0)) = some (.idle, true) by decide)
  exact ⟨as, t, ht, (Prod.mk.inj hview).2, (safe_iff_spared true as t ht).mpr (meets_of_checks (by decide))⟩

end Chain
end Plughost.Vst3.SlotLifetime
