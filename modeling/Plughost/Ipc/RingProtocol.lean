import Plughost.Ipc.ShmRing
import Mathlib.Logic.Function.Basic

/-! One producer and one consumer on a shared ring, stepping independently.
Loads, stores and slot accesses interleave in one sequentially consistent order. -/
namespace Plughost.Ipc
open Plughost.Runs

/-- Where the producer stands. `filling` owns the pointer `Acquire` returned. -/
inductive Producer where
  | idle
  | acquiring (head : BitVec 64)
  | filling (slot : Nat)
  | publishing (slot : Nat) (head : BitVec 64)
  deriving DecidableEq, Repr

/-- Where the consumer stands. `holding` owns the pointer `Read` returned. -/
inductive Consumer where
  | idle
  | reading (tail : BitVec 64)
  | holding (slot : Nat)
  | releasing (slot : Nat) (tail : BitVec 64)
  deriving DecidableEq, Repr

/-- The shared words, the two program counters, and the history of the run:
the blocks published, and for each released block what the consumer saw in its slot. -/
structure ShmRing (σ : Type*) where
  head : BitVec 64
  tail : BitVec 64
  slots : Nat → σ
  producer : Producer
  consumer : Consumer
  published : List σ
  seen : List σ
  obtained : List (List σ)

inductive ProducerAct (σ : Type*) where
  | acquireHead | acquireTail | fill (write : σ → σ) | publishHead | publishStore

inductive ConsumerAct where
  | readTail | readHead | look | releaseTail | releaseStore
  deriving DecidableEq, Repr

inductive RingAct (σ : Type*) where
  | produce (a : ProducerAct σ)
  | consume (a : ConsumerAct)

namespace ShmRing
variable {σ : Type*} (g : RingGeometry)

/-- `Acquire`: load head, then load tail and decide. -/
def acquireHead (r : ShmRing σ) : Option (ShmRing σ) :=
  match r.producer with
  | .idle => some { r with producer := .acquiring r.head }
  | _ => none

def acquireTail (r : ShmRing σ) : Option (ShmRing σ) :=
  match r.producer with
  | .acquiring head =>
    if g.full head r.tail then some { r with producer := .idle }
    else some { r with producer := .filling (g.slotAt head) }
  | _ => none

/-- One write access, of any part of the slot, through the acquired pointer. -/
def fill (write : σ → σ) (r : ShmRing σ) : Option (ShmRing σ) :=
  match r.producer with
  | .filling slot => some { r with slots := Function.update r.slots slot (write (r.slots slot)) }
  | _ => none

/-- `Publish`: load head again, then store its successor. -/
def publishHead (r : ShmRing σ) : Option (ShmRing σ) :=
  match r.producer with
  | .filling slot => some { r with producer := .publishing slot r.head }
  | _ => none

def publishStore (r : ShmRing σ) : Option (ShmRing σ) :=
  match r.producer with
  | .publishing slot head => some { r with
      head := head + 1, producer := .idle, published := r.published ++ [r.slots slot] }
  | _ => none

/-- `Read`: load tail, then load head and decide. -/
def readTail (r : ShmRing σ) : Option (ShmRing σ) :=
  match r.consumer with
  | .idle => some { r with consumer := .reading r.tail }
  | _ => none

def readHead (r : ShmRing σ) : Option (ShmRing σ) :=
  match r.consumer with
  | .reading tail =>
    if r.head = tail then some { r with consumer := .idle }
    else some { r with consumer := .holding (g.slotAt tail), seen := [r.slots (g.slotAt tail)] }
  | _ => none

/-- One read access through the pointer `Read` returned. -/
def look (r : ShmRing σ) : Option (ShmRing σ) :=
  match r.consumer with
  | .holding slot => some { r with seen := r.seen ++ [r.slots slot] }
  | _ => none

/-- `Release`: load tail again, then store its successor. -/
def releaseTail (r : ShmRing σ) : Option (ShmRing σ) :=
  match r.consumer with
  | .holding slot => some { r with consumer := .releasing slot r.tail }
  | _ => none

def releaseStore (r : ShmRing σ) : Option (ShmRing σ) :=
  match r.consumer with
  | .releasing _ tail => some { r with
      tail := tail + 1, consumer := .idle, seen := [], obtained := r.obtained ++ [r.seen] }
  | _ => none

def produce (r : ShmRing σ) : ProducerAct σ → Option (ShmRing σ)
  | .acquireHead => r.acquireHead
  | .acquireTail => r.acquireTail g
  | .fill write => r.fill write
  | .publishHead => r.publishHead
  | .publishStore => r.publishStore

def consume (r : ShmRing σ) : ConsumerAct → Option (ShmRing σ)
  | .readTail => r.readTail
  | .readHead => r.readHead g
  | .look => r.look
  | .releaseTail => r.releaseTail
  | .releaseStore => r.releaseStore

def step (r : ShmRing σ) : RingAct σ → Option (ShmRing σ)
  | .produce a => r.produce g a
  | .consume a => r.consume g a

/-- Slot of the `i`-th block counted from the tail the ring started with. -/
abbrev slotOf (c : BitVec 64) (i : Nat) : Nat := g.slotAt (c + BitVec.ofNat 64 i)

/-- Both sides idle, any slot contents, any tail counter `c` and `n` blocks waiting. -/
def initial (c : BitVec 64) (slots : Nat → σ) (n : Nat) : ShmRing σ :=
  { head := c + BitVec.ofNat 64 n, tail := c, slots := slots, producer := .idle, consumer := .idle,
    published := (List.range n).map fun i => slots (slotOf g c i), seen := [], obtained := [] }

variable {g}

/-- Every access of one `Read` window found the complete `i`-th published block. -/
def Saw (r : ShmRing σ) (i : Nat) (xs : List σ) : Prop :=
  xs ≠ [] ∧ ∀ x ∈ xs, r.published[i]? = some x

def ProducerOk (g : RingGeometry) (c : BitVec 64) (r : ShmRing σ) : Prop :=
  match r.producer with
  | .idle => True
  | .acquiring head => head = r.head
  | .filling slot => slot = slotOf g c r.published.length ∧
      r.published.length < r.obtained.length + g.slotCount.toNat
  | .publishing slot head => slot = slotOf g c r.published.length ∧
      r.published.length < r.obtained.length + g.slotCount.toNat ∧ head = r.head

def ConsumerOk (g : RingGeometry) (c : BitVec 64) (r : ShmRing σ) : Prop :=
  match r.consumer with
  | .idle => True
  | .reading tail => tail = r.tail
  | .holding slot => slot = slotOf g c r.obtained.length ∧ r.obtained.length < r.published.length ∧
      Saw r r.obtained.length r.seen
  | .releasing slot tail => slot = slotOf g c r.obtained.length ∧
      r.obtained.length < r.published.length ∧ Saw r r.obtained.length r.seen ∧ tail = r.tail

section Cases
variable {r t : ShmRing σ}

theorem acquireHead_cases (hs : r.acquireHead = some t) :
    r.producer = .idle ∧ t = { r with producer := .acquiring r.head } := by
  unfold acquireHead at hs
  split at hs <;> cases hs
  exact ⟨‹_›, rfl⟩

theorem acquireTail_cases (hs : r.acquireTail g = some t) : ∃ head, r.producer = .acquiring head ∧
    (g.full head r.tail = true ∧ t = { r with producer := .idle } ∨
      ¬ g.full head r.tail = true ∧ t = { r with producer := .filling (g.slotAt head) }) := by
  unfold acquireTail at hs
  split at hs <;> try cases hs
  rename_i head hpc
  split at hs <;> cases hs
  · exact ⟨head, hpc, .inl ⟨‹_›, rfl⟩⟩
  · exact ⟨head, hpc, .inr ⟨‹_›, rfl⟩⟩

theorem fill_cases {write : σ → σ} (hs : r.fill write = some t) : ∃ slot, r.producer = .filling slot ∧
    t = { r with slots := Function.update r.slots slot (write (r.slots slot)) } := by
  unfold fill at hs
  split at hs <;> cases hs
  exact ⟨_, ‹_›, rfl⟩

theorem publishHead_cases (hs : r.publishHead = some t) : ∃ slot, r.producer = .filling slot ∧
    t = { r with producer := .publishing slot r.head } := by
  unfold publishHead at hs
  split at hs <;> cases hs
  exact ⟨_, ‹_›, rfl⟩

theorem publishStore_cases (hs : r.publishStore = some t) :
    ∃ slot head, r.producer = .publishing slot head ∧ t = { r with
      head := head + 1, producer := .idle, published := r.published ++ [r.slots slot] } := by
  unfold publishStore at hs
  split at hs <;> cases hs
  exact ⟨_, _, ‹_›, rfl⟩

theorem readTail_cases (hs : r.readTail = some t) :
    r.consumer = .idle ∧ t = { r with consumer := .reading r.tail } := by
  unfold readTail at hs
  split at hs <;> cases hs
  exact ⟨‹_›, rfl⟩

theorem readHead_cases (hs : r.readHead g = some t) : ∃ tail, r.consumer = .reading tail ∧
    (r.head = tail ∧ t = { r with consumer := .idle } ∨ r.head ≠ tail ∧
      t = { r with consumer := .holding (g.slotAt tail), seen := [r.slots (g.slotAt tail)] }) := by
  unfold readHead at hs
  split at hs <;> try cases hs
  rename_i tail hpc
  split at hs <;> cases hs
  · exact ⟨tail, hpc, .inl ⟨‹_›, rfl⟩⟩
  · exact ⟨tail, hpc, .inr ⟨‹_›, rfl⟩⟩

theorem look_cases (hs : r.look = some t) : ∃ slot, r.consumer = .holding slot ∧
    t = { r with seen := r.seen ++ [r.slots slot] } := by
  unfold look at hs
  split at hs <;> cases hs
  exact ⟨_, ‹_›, rfl⟩

theorem releaseTail_cases (hs : r.releaseTail = some t) : ∃ slot, r.consumer = .holding slot ∧
    t = { r with consumer := .releasing slot r.tail } := by
  unfold releaseTail at hs
  split at hs <;> cases hs
  exact ⟨_, ‹_›, rfl⟩

theorem releaseStore_cases (hs : r.releaseStore = some t) :
    ∃ slot tail, r.consumer = .releasing slot tail ∧ t = { r with
      tail := tail + 1, consumer := .idle, seen := [], obtained := r.obtained ++ [r.seen] } := by
  unfold releaseStore at hs
  split at hs <;> cases hs
  exact ⟨_, _, ‹_›, rfl⟩

/-- The producer's steps leave the consumer's words alone and only append. -/
theorem produce_frame {a : ProducerAct σ} (hs : r.produce g a = some t) :
    t.consumer = r.consumer ∧ t.obtained = r.obtained ∧ r.published <+: t.published := by
  cases a with
  | acquireHead => obtain ⟨-, rfl⟩ := acquireHead_cases hs; exact ⟨rfl, rfl, List.prefix_rfl⟩
  | acquireTail =>
    obtain ⟨head, -, ⟨-, rfl⟩ | ⟨-, rfl⟩⟩ := acquireTail_cases hs
    all_goals exact ⟨rfl, rfl, List.prefix_rfl⟩
  | fill write => obtain ⟨slot, -, rfl⟩ := fill_cases hs; exact ⟨rfl, rfl, List.prefix_rfl⟩
  | publishHead => obtain ⟨slot, -, rfl⟩ := publishHead_cases hs; exact ⟨rfl, rfl, List.prefix_rfl⟩
  | publishStore =>
    obtain ⟨slot, head, -, rfl⟩ := publishStore_cases hs
    exact ⟨rfl, rfl, List.prefix_append _ _⟩

/-- The consumer's steps leave the producer's words and every slot alone. -/
theorem consume_frame {a : ConsumerAct} (hs : r.consume g a = some t) :
    t.producer = r.producer ∧ t.slots = r.slots ∧ t.published = r.published := by
  cases a with
  | readTail => obtain ⟨-, rfl⟩ := readTail_cases hs; exact ⟨rfl, rfl, rfl⟩
  | readHead =>
    obtain ⟨tail, -, ⟨-, rfl⟩ | ⟨-, rfl⟩⟩ := readHead_cases hs
    all_goals exact ⟨rfl, rfl, rfl⟩
  | look => obtain ⟨slot, -, rfl⟩ := look_cases hs; exact ⟨rfl, rfl, rfl⟩
  | releaseTail => obtain ⟨slot, -, rfl⟩ := releaseTail_cases hs; exact ⟨rfl, rfl, rfl⟩
  | releaseStore => obtain ⟨slot, tail, -, rfl⟩ := releaseStore_cases hs; exact ⟨rfl, rfl, rfl⟩

end Cases

/-- What ties both counters, both stale snapshots and the slots together. -/
structure Inv (g : RingGeometry) (c : BitVec 64) (r : ShmRing σ) : Prop where
  head : r.head = c + BitVec.ofNat 64 r.published.length
  tail : r.tail = c + BitVec.ofNat 64 r.obtained.length
  order : r.obtained.length ≤ r.published.length
  room : r.published.length ≤ r.obtained.length + g.slotCount.toNat
  stored : ∀ (i : Nat) (x : σ), r.obtained.length ≤ i → r.published[i]? = some x →
    r.slots (slotOf g c i) = x
  saw : ∀ (i : Nat) (xs : List σ), r.obtained[i]? = some xs → Saw r i xs
  producerOk : ProducerOk g c r
  consumerOk : ConsumerOk g c r

namespace Inv
variable {c : BitVec 64} {r t : ShmRing σ}

private theorem occupancy (h : Inv g c r) :
    (r.head - r.tail).toNat = r.published.length - r.obtained.length := by
  have := g.slotCount.isLt
  have := h.room
  rw [h.head, h.tail]
  exact toNat_sub_of_counts c h.order (by omega)

theorem full_iff (h : Inv g c r) :
    g.full r.head r.tail = true ↔ r.published.length = r.obtained.length + g.slotCount.toNat := by
  have := h.order
  have := h.room
  rw [g.full_iff, h.occupancy]
  omega

/-- The head meets the tail only when every published block has been released. -/
theorem empty_iff (h : Inv g c r) : r.head = r.tail ↔ r.published.length = r.obtained.length := by
  constructor
  · intro heq
    have hocc := h.occupancy
    have := h.order
    rw [heq, BitVec.sub_self] at hocc
    simp only [BitVec.toNat_ofNat, Nat.zero_mod] at hocc
    omega
  · intro heq
    rw [h.head, h.tail, heq]

theorem initial (c : BitVec 64) (slots : Nat → σ) {n : Nat} (hn : n ≤ g.slotCount.toNat) :
    Inv g c (ShmRing.initial g c slots n) where
  head := by simp [ShmRing.initial]
  tail := by simp [ShmRing.initial]
  order := by simp [ShmRing.initial]
  room := by simpa [ShmRing.initial] using hn
  stored i x _ hx := by
    simp only [ShmRing.initial, List.getElem?_map, Option.map_eq_some_iff] at hx ⊢
    obtain ⟨j, hj, rfl⟩ := hx
    obtain ⟨hlt, hji⟩ := List.getElem?_eq_some_iff.mp hj
    rw [List.getElem_range] at hji
    rw [hji]
  saw i xs hxs := by simp [ShmRing.initial] at hxs
  producerOk := trivial
  consumerOk := trivial

theorem acquireHead (h : Inv g c r) (hs : r.acquireHead = some t) : Inv g c t := by
  obtain ⟨-, rfl⟩ := acquireHead_cases hs
  exact { h with producerOk := rfl }

theorem acquireTail (h : Inv g c r) (hs : r.acquireTail g = some t) : Inv g c t := by
  obtain ⟨head, hpc, ⟨-, rfl⟩ | ⟨hfull, rfl⟩⟩ := acquireTail_cases hs
  · exact { h with producerOk := trivial }
  · obtain rfl : head = r.head := by simpa [ProducerOk, hpc] using h.producerOk
    have hlt : r.published.length < r.obtained.length + g.slotCount.toNat := by
      have := h.room
      rw [h.full_iff] at hfull
      omega
    exact { h with producerOk := ⟨by rw [h.head], hlt⟩ }

/-- The producer writes only the slot of the block it will publish next, which
no unreleased block occupies. -/
theorem fill {write : σ → σ} (h : Inv g c r) (hs : r.fill write = some t) : Inv g c t := by
  obtain ⟨slot, hpc, rfl⟩ := fill_cases hs
  have hp : slot = slotOf g c r.published.length ∧
      r.published.length < r.obtained.length + g.slotCount.toNat := by
    simpa [ProducerOk, hpc] using h.producerOk
  obtain ⟨rfl, hroom⟩ := hp
  refine { h with stored := ?_, producerOk := ?_, consumerOk := h.consumerOk }
  · intro i x hi hx
    obtain ⟨hlt, -⟩ := List.getElem?_eq_some_iff.mp hx
    dsimp only at hi hlt ⊢
    have hne := g.slotAt_add_ne c hlt (by omega)
    rw [Function.update_of_ne hne]
    exact h.stored i x hi hx
  · simpa [ProducerOk, hpc] using hroom

theorem publishHead (h : Inv g c r) (hs : r.publishHead = some t) : Inv g c t := by
  obtain ⟨slot, hpc, rfl⟩ := publishHead_cases hs
  have hp := h.producerOk
  simp only [ProducerOk, hpc] at hp
  exact { h with producerOk := ⟨hp.1, hp.2, rfl⟩ }

private theorem saw_append (r : ShmRing σ) (x : σ) {i : Nat} {xs : List σ} (h : Saw r i xs)
    (t : ShmRing σ) (ht : t.published = r.published ++ [x]) : Saw t i xs := by
  refine ⟨h.1, fun y hy => ?_⟩
  have hget := h.2 y hy
  obtain ⟨hlt, -⟩ := List.getElem?_eq_some_iff.mp hget
  rw [ht, List.getElem?_append_left hlt]
  exact hget

theorem publishStore (h : Inv g c r) (hs : r.publishStore = some t) : Inv g c t := by
  obtain ⟨slot, head, hpc, rfl⟩ := publishStore_cases hs
  have hp := h.producerOk
  simp only [ProducerOk, hpc] at hp
  obtain ⟨rfl, hroom, rfl⟩ := hp
  refine ⟨?_, h.tail, ?_, ?_, ?_, ?_, trivial, ?_⟩
  · simp only [List.length_append, List.length_singleton, h.head, BitVec.ofNat_add, BitVec.add_assoc]
    rfl
  · have := h.order
    simp only [List.length_append, List.length_singleton]
    omega
  · simp only [List.length_append, List.length_singleton]
    omega
  · intro i x hi hx
    rcases Nat.lt_or_ge i r.published.length with hlt | hge
    · rw [List.getElem?_append_left hlt] at hx
      exact h.stored i x hi hx
    · rw [List.getElem?_append_right hge] at hx
      obtain ⟨hz, hx⟩ := List.getElem?_eq_some_iff.mp hx
      obtain rfl : i = r.published.length := by simp only [List.length_singleton] at hz; omega
      simpa using hx
  · exact fun i xs hxs => saw_append r _ (h.saw i xs hxs) _ rfl
  · have hc := h.consumerOk
    cases hcon : r.consumer with
    | idle => simp [ConsumerOk]
    | reading tail => simpa [ConsumerOk, hcon] using hc
    | holding slot =>
      simp only [ConsumerOk, hcon] at hc ⊢
      exact ⟨hc.1, by simp only [List.length_append]; omega, saw_append r _ hc.2.2 _ rfl⟩
    | releasing slot tail =>
      simp only [ConsumerOk, hcon] at hc ⊢
      exact ⟨hc.1, by simp only [List.length_append]; omega, saw_append r _ hc.2.2.1 _ rfl, hc.2.2.2⟩

theorem readTail (h : Inv g c r) (hs : r.readTail = some t) : Inv g c t := by
  obtain ⟨-, rfl⟩ := readTail_cases hs
  exact { h with consumerOk := rfl }

theorem readHead (h : Inv g c r) (hs : r.readHead g = some t) : Inv g c t := by
  obtain ⟨tail, hpc, ⟨-, rfl⟩ | ⟨hne, rfl⟩⟩ := readHead_cases hs
  · exact { h with consumerOk := trivial }
  · obtain rfl : tail = r.tail := by simpa [ConsumerOk, hpc] using h.consumerOk
    have hlt : r.obtained.length < r.published.length := by
      have := h.order
      rw [ne_eq, h.empty_iff] at hne
      omega
    have hslot : g.slotAt r.tail = slotOf g c r.obtained.length := by rw [h.tail]
    have hget : r.published[r.obtained.length]? = some (r.slots (g.slotAt r.tail)) := by
      rw [hslot, h.stored _ _ le_rfl (List.getElem?_eq_getElem hlt), List.getElem?_eq_getElem hlt]
    refine { h with consumerOk := ⟨hslot, hlt, by simp, ?_⟩ }
    intro x hx
    rw [List.mem_singleton.mp hx]
    exact hget

theorem look (h : Inv g c r) (hs : r.look = some t) : Inv g c t := by
  obtain ⟨slot, hpc, rfl⟩ := look_cases hs
  have hc := h.consumerOk
  simp only [ConsumerOk, hpc] at hc
  obtain ⟨rfl, hlt, hsaw⟩ := hc
  refine { h with consumerOk := ?_ }
  simp only [ConsumerOk, hpc]
  refine ⟨trivial, hlt, by simp, fun x hx => ?_⟩
  rcases List.mem_append.mp hx with hx | hx
  · exact hsaw.2 x hx
  · rw [List.mem_singleton.mp hx, h.stored _ _ le_rfl (List.getElem?_eq_getElem hlt)]
    exact List.getElem?_eq_getElem hlt

theorem releaseTail (h : Inv g c r) (hs : r.releaseTail = some t) : Inv g c t := by
  obtain ⟨slot, hpc, rfl⟩ := releaseTail_cases hs
  have hc := h.consumerOk
  simp only [ConsumerOk, hpc] at hc
  exact { h with consumerOk := ⟨hc.1, hc.2.1, hc.2.2, rfl⟩ }

theorem releaseStore (h : Inv g c r) (hs : r.releaseStore = some t) : Inv g c t := by
  obtain ⟨slot, tail, hpc, rfl⟩ := releaseStore_cases hs
  have hc := h.consumerOk
  simp only [ConsumerOk, hpc] at hc
  obtain ⟨rfl, hlt, hsaw, rfl⟩ := hc
  refine ⟨h.head, ?_, ?_, ?_, ?_, ?_, ?_, trivial⟩
  · simp only [List.length_append, List.length_singleton, h.tail, BitVec.ofNat_add, BitVec.add_assoc]
    rfl
  · simp only [List.length_append, List.length_singleton]
    omega
  · have := h.room
    simp only [List.length_append, List.length_singleton]
    omega
  · intro i x hi hx
    simp only [List.length_append, List.length_singleton] at hi
    exact h.stored i x (by omega) hx
  · intro i xs hxs
    rcases Nat.lt_or_ge i r.obtained.length with hi | hi
    · rw [List.getElem?_append_left hi] at hxs
      exact h.saw i xs hxs
    · rw [List.getElem?_append_right hi] at hxs
      obtain ⟨hz, rfl⟩ := List.getElem?_eq_some_iff.mp hxs
      obtain rfl : i = r.obtained.length := by simp only [List.length_singleton] at hz; omega
      simpa [Saw] using hsaw
  · have hp := h.producerOk
    cases hprod : r.producer with
    | idle => simp [ProducerOk]
    | acquiring head => simpa [ProducerOk, hprod] using hp
    | filling slot =>
      simp only [ProducerOk, hprod, List.length_append, List.length_singleton] at hp ⊢
      exact ⟨hp.1, by omega⟩
    | publishing slot head =>
      simp only [ProducerOk, hprod, List.length_append, List.length_singleton] at hp ⊢
      exact ⟨hp.1, by omega, hp.2.2⟩

theorem produce {a : ProducerAct σ} (h : Inv g c r) (hs : r.produce g a = some t) : Inv g c t := by
  cases a with
  | acquireHead => exact h.acquireHead hs
  | acquireTail => exact h.acquireTail hs
  | fill write => exact h.fill hs
  | publishHead => exact h.publishHead hs
  | publishStore => exact h.publishStore hs

theorem consume {a : ConsumerAct} (h : Inv g c r) (hs : r.consume g a = some t) : Inv g c t := by
  cases a with
  | readTail => exact h.readTail hs
  | readHead => exact h.readHead hs
  | look => exact h.look hs
  | releaseTail => exact h.releaseTail hs
  | releaseStore => exact h.releaseStore hs

theorem exec {as : List (RingAct σ)} (h : Inv g c r) (he : Runs.exec (ShmRing.step g) r as = some t) :
    Inv g c t := by
  refine invariant_of_step (Inv g c) (fun {_ a _} hi hs => ?_) h he
  cases a with
  | produce a => exact hi.produce hs
  | consume a => exact hi.consume hs

end Inv

/-- The slot behind the pointer the producer holds between `Acquire` and `Publish`. -/
def acquiredSlot (r : ShmRing σ) : Option Nat :=
  match r.producer with
  | .filling slot | .publishing slot _ => some slot
  | _ => none

/-- The slot behind the pointer the consumer holds between `Read` and `Release`. -/
def readSlot (r : ShmRing σ) : Option Nat :=
  match r.consumer with
  | .holding slot | .releasing slot _ => some slot
  | _ => none

/-- The contract of the ring at one moment of a run. -/
structure Safe (g : RingGeometry) (r : ShmRing σ) : Prop where
  /-- The `i`-th release gave the consumer the `i`-th published block, whole, at every access. -/
  inOrder : ∀ (i : Nat) (xs : List σ), r.obtained[i]? = some xs →
    xs ≠ [] ∧ ∀ x ∈ xs, r.published[i]? = some x
  /-- What is published and not yet released is exactly what the counters say. -/
  noLoss : r.obtained.length + (r.head - r.tail).toNat = r.published.length
  bounded : (r.head - r.tail).toNat ≤ g.slotCount.toNat
  /-- `Acquire` never hands out the slot of a block not yet released. -/
  acquired : ∀ slot, r.acquiredSlot = some slot →
    ∀ k < (r.head - r.tail).toNat, g.slotAt (r.tail + BitVec.ofNat 64 k) ≠ slot
  /-- `Read` never hands out an unpublished slot, and what it hands out stays whole. -/
  read : ∀ slot, r.readSlot = some slot → r.head ≠ r.tail ∧ slot = g.slotAt r.tail ∧
    r.published[r.obtained.length]? = some (r.slots slot)
  /-- When `Acquire` is about to return nullptr, the ring is full. -/
  refused : ∀ t, r.acquireTail g = some t → t.producer = .idle →
    (r.head - r.tail).toNat = g.slotCount.toNat

namespace Inv
variable {c : BitVec 64} {r : ShmRing σ}

theorem acquiredSlot (h : Inv g c r) {slot : Nat} (hs : r.acquiredSlot = some slot) :
    slot = slotOf g c r.published.length ∧
      r.published.length < r.obtained.length + g.slotCount.toNat := by
  have hp := h.producerOk
  unfold ShmRing.acquiredSlot at hs
  split at hs <;> cases hs
  all_goals rename_i hpc; simp only [ProducerOk, hpc] at hp
  · exact hp
  · exact ⟨hp.1, hp.2.1⟩

theorem readSlot (h : Inv g c r) {slot : Nat} (hs : r.readSlot = some slot) :
    slot = slotOf g c r.obtained.length ∧ r.obtained.length < r.published.length := by
  have hc := h.consumerOk
  unfold ShmRing.readSlot at hs
  split at hs <;> cases hs
  all_goals rename_i hpc; simp only [ConsumerOk, hpc] at hc; exact ⟨hc.1, hc.2.1⟩

theorem refused (h : Inv g c r) {t : ShmRing σ} (hs : r.acquireTail g = some t)
    (hidle : t.producer = .idle) : (r.head - r.tail).toNat = g.slotCount.toNat := by
  obtain ⟨head, hpc, ⟨hfull, rfl⟩ | ⟨-, rfl⟩⟩ := acquireTail_cases hs
  · obtain rfl : head = r.head := by simpa [ProducerOk, hpc] using h.producerOk
    rw [h.full_iff] at hfull
    rw [h.occupancy]
    omega
  · cases hidle

theorem safe (h : Inv g c r) : Safe g r where
  inOrder i xs hxs := h.saw i xs hxs
  noLoss := by
    have := h.order
    rw [h.occupancy]
    omega
  bounded := by
    have := h.room
    rw [h.occupancy]
    omega
  acquired slot hs k hk := by
    obtain ⟨rfl, hroom⟩ := h.acquiredSlot hs
    rw [h.occupancy] at hk
    rw [h.tail, BitVec.add_assoc, ← BitVec.ofNat_add]
    exact g.slotAt_add_ne c (by omega) (by omega)
  read slot hs := by
    obtain ⟨rfl, hlt⟩ := h.readSlot hs
    refine ⟨fun heq => ?_, by rw [h.tail], ?_⟩
    · rw [h.empty_iff] at heq
      omega
    · rw [h.stored _ _ le_rfl (List.getElem?_eq_getElem hlt)]
      exact List.getElem?_eq_getElem hlt
  refused t hs hidle := h.refused hs hidle

end Inv

/-- Both counters may start anywhere and wrap; any interleaving of the two
sides keeps the whole contract. -/
theorem spsc_ring_safe (g : RingGeometry) (c : BitVec 64) (slots : Nat → σ)
    (as : List (RingAct σ)) (r : ShmRing σ)
    (he : exec (ShmRing.step g) (ShmRing.initial g c slots 0) as = some r) : Safe g r :=
  ((Inv.initial c slots (Nat.zero_le _)).exec he).safe

/-- Two slots and counters that start one below 2^64: the second block is
published across the wrap while the first is still being read. -/
theorem spsc_ring_safe_across_wrap :
    ∃ (g : RingGeometry) (as : List (RingAct Nat)) (r : ShmRing Nat),
      exec (ShmRing.step g) (ShmRing.initial g (BitVec.ofNat 64 (2^64 - 1)) (fun _ => 0) 0) as = some r ∧
      (r.published, r.obtained, r.head, r.producer) = ([7, 8], [[7, 7]], 1, .idle) ∧ Safe g r := by
  let g : RingGeometry := ⟨2, 64, by decide⟩
  let as : List (RingAct Nat) := [.produce .acquireHead, .produce .acquireTail,
    .produce (.fill fun _ => 7), .produce .publishHead, .produce .publishStore, .produce .acquireHead,
    .consume .readTail, .consume .readHead, .produce .acquireTail, .produce (.fill fun _ => 8),
    .consume .look, .produce .publishHead, .produce .publishStore, .produce .acquireHead,
    .produce .acquireTail, .consume .releaseTail, .consume .releaseStore]
  obtain ⟨r, hr, hview⟩ := Option.map_eq_some_iff.mp
    (show (exec (ShmRing.step g) (ShmRing.initial g (BitVec.ofNat 64 (2^64 - 1)) (fun _ => 0) 0) as).map
      (fun r => (r.published, r.obtained, r.head, r.producer)) = some ([7, 8], [[7, 7]], 1, .idle) by decide)
  exact ⟨g, as, r, hr, hview, spsc_ring_safe g _ _ as r hr⟩

end ShmRing
end Plughost.Ipc
