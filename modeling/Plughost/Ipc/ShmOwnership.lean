import Plughost.Ipc.ShmCreation
import Plughost.Lib.Assoc
import Plughost.Lib.Runs

/-! The objects of class `ShmRingMapping`: what they do to mappings and names when they are made,
moved and destroyed. -/
namespace Plughost.Ipc.Ownership
open Plughost.Runs Plughost.Assoc

abbrev ObjId := Nat

/-- A shared-memory object of the system. -/
abbrev Inode := Nat

/-- What `mmap` returned: the mapping's number, what it is of, and its length. -/
structure Mapped where
  id : Nat
  inode : Inode
  bytes : BitVec 64
  deriving DecidableEq, Repr

/-- The pointers of a `ShmRing`, by the mapping that they point into. -/
structure ShmRing where
  control : Option Mapped
  slots : Option Mapped
  deriving DecidableEq, Repr

/-- All fields of a `ShmRingMapping`. -/
structure ShmRingMapping where
  name : String
  mappingBytes : BitVec 64
  mapping : Option Mapped
  control : Option Mapped
  slots : Option Mapped
  ownsName : Bool
  ring : ShmRing
  deriving DecidableEq, Repr

/-- A call of `shm_unlink`: the name, the shared-memory object that had it, and the one that the
caller made, if it acts for one. -/
structure Unlink where
  name : String
  hit : Option Inode
  maker : Option Inode
  deriving DecidableEq, Repr

/-- The objects, the names under `/dev/shm`, and what has been done so far: the mappings made and
undone, the shared-memory objects that `CreateNew` made, those opened, and the calls of `shm_unlink`. -/
structure System where
  objects : List (ObjId × ShmRingMapping)
  names : List (String × Inode)
  inodes : Nat
  mmaps : List Mapped
  munmaps : List (Mapped × BitVec 64)
  created : List Inode
  opened : List Inode
  unlinks : List Unlink
  deriving DecidableEq, Repr

inductive Act where
  /-- `CreateNew` into an object. -/
  | create (o : ObjId) (name : String) (frames channels sampleRate slotCount : BitVec 32) (calls : CreateCalls)
  /-- `OpenExisting`; the region is what it finds under the name, where there is something. -/
  | openExisting (o : ObjId) (name : String) (frames channels sampleRate slotCount : BitVec 32) (calls : OpenCalls)
    (region : Region)
  /-- The move constructor; `left` is what the other object's `name_` is left with. -/
  | moveConstruct (o other : ObjId) (left : String)
  | moveAssign (o other : ObjId) (left : String)
  | destroy (o : ObjId)
  deriving DecidableEq, Repr

namespace ShmRingMapping

/-- The fields that a move takes over. -/
def taken (m : ShmRingMapping) : ShmRingMapping := { m with ring := ⟨m.control, m.slots⟩ }

/-- What a move leaves. -/
def movedFrom (left : String) : ShmRingMapping := ⟨left, 0, none, none, none, false, ⟨none, none⟩⟩

/-- A pointer of the object is into the mapping. -/
def Refers (m : ShmRingMapping) (r : Mapped) : Prop :=
  m.mapping = some r ∨ m.control = some r ∨ m.slots = some r ∨ m.ring.control = some r ∨ m.ring.slots = some r

/-- The shared-memory object whose name the object owns. -/
def owned (m : ShmRingMapping) : Option Inode := if m.ownsName then m.mapping.map Mapped.inode else none

end ShmRingMapping

namespace System

/-- Before any object; the names that are there already are others'. -/
def initial (leftover : List String) : System :=
  ⟨[], leftover.zipIdx, leftover.length, [], [], [], [], []⟩

variable (s : System)

def shmUnlink (name : String) (maker : Option Inode) : System :=
  { s with
    names := s.names.filter fun n => n.1 != name
    unlinks := ⟨name, s.names.lookup name, maker⟩ :: s.unlinks }

/-- `shm_open(O_CREAT | O_EXCL)` of a name that is free. -/
def shmCreate (name : String) : System :=
  { s with names := (name, s.inodes) :: s.names, inodes := s.inodes + 1, created := s.inodes :: s.created }

def munmap (raw : Mapped) (bytes : BitVec 64) : System := { s with munmaps := (raw, bytes) :: s.munmaps }

/-- `mmap`. -/
def map (inode : Inode) (bytes : BitVec 64) : Mapped × System :=
  let raw : Mapped := ⟨s.mmaps.length, inode, bytes⟩
  (raw, { s with mmaps := raw :: s.mmaps })

/-- The fields are set up. -/
def setUp (o : ObjId) (name : String) (raw : Mapped) (ownsName : Bool) : System :=
  { s with objects :=
    (o, ⟨name, raw.bytes, some raw, some raw, some raw, ownsName, ⟨some raw, some raw⟩⟩) :: s.objects }

/-- What an object holds is let go, in the destructor and before an assignment. -/
def release (m : ShmRingMapping) : System :=
  let s := match m.mapping with
    | some raw => s.munmap raw m.mappingBytes
    | none => s
  if m.ownsName && m.name != "" then s.shmUnlink m.name (m.mapping.map Mapped.inode) else s

def create (o : ObjId) (name : String) (frames channels sampleRate slotCount : BitVec 32) (calls : CreateCalls) :
    System :=
  match createNew name frames channels sampleRate slotCount calls with
  | .error .slotCount | .error .name => s
  | .error .shmOpen => s.shmUnlink name none
  | .error .ftruncate | .error .mmap =>
    let s := s.shmUnlink name none
    (s.shmCreate name).shmUnlink name (some s.inodes)
  | .ok c =>
    let s := s.shmUnlink name none
    let out := (s.shmCreate name).map s.inodes c.mapping.mappingBytes
    out.2.setUp o name out.1 true

/-- `inode` is what has the name. -/
def openName (o : ObjId) (name : String) (inode : Inode) (attempt : Except OpenError Ipc.ShmRingMapping)
    (size : BitVec 64) : System :=
  match attempt with
  | .error .name | .error .slotCount | .error .shmOpen => s
  | .error .fstat | .error .tooSmall | .error .mmap => { s with opened := inode :: s.opened }
  | .error .geometryMismatch =>
    let out := { s with opened := inode :: s.opened }.map inode size
    out.2.munmap out.1 size
  | .ok m =>
    let out := { s with opened := inode :: s.opened }.map inode m.mappingBytes
    out.2.setUp o name out.1 false

def step : Act → Option System
  | .create o name frames channels sampleRate slotCount calls =>
    if (s.objects.lookup o).isSome then none
    else some (s.create o name frames channels sampleRate slotCount calls)
  | .openExisting o name frames channels sampleRate slotCount calls region =>
    if (s.objects.lookup o).isSome then none
    else
      match s.names.lookup name with
      | some inode =>
        let attempt := (Ipc.openExisting name frames channels sampleRate slotCount calls region []).1
        some (s.openName o name inode attempt region.size)
      | none => some s
  | .moveConstruct o other left =>
    if (s.objects.lookup o).isSome then none
    else (extract other s.objects).map fun (m, rest) =>
      { s with objects := (o, m.taken) :: (other, .movedFrom left) :: rest }
  | .moveAssign o other left =>
    if o = other then if (s.objects.lookup o).isSome then some s else none
    else (extract o s.objects).bind fun (m, rest) => (extract other rest).map fun (m', rest) =>
      { s.release m with objects := (o, m'.taken) :: (other, .movedFrom left) :: rest }
  | .destroy o => (extract o s.objects).map fun (m, rest) => { s.release m with objects := rest }

/-- How often the mapping was unmapped, and how many objects hold it. -/
def unmappings (r : Mapped) : Nat := s.munmaps.countP fun u => u.1 = r
def holders (r : Mapped) : Nat := s.objects.countP fun om => om.2.mapping = some r

/-- How often the name of the shared-memory object was unlinked, and how many objects own it. -/
def unlinkings (i : Inode) : Nat := s.unlinks.countP fun u => u.hit = some i
def owners (i : Inode) : Nat := s.objects.countP fun om => om.2.owned = some i

end System

/-- Every mapping has one holder or has been unmapped, once and in its length; what an object points at
it holds. Every name created has one owner or has been unlinked, once and for the object that was made
under it; nobody unlinks a name on behalf of another, and none that was only opened. -/
structure Linear (s : System) : Prop where
  distinct : s.mmaps.Nodup
  mappings : ∀ r, s.unmappings r + s.holders r = s.mmaps.count r
  lengths : ∀ u ∈ s.munmaps, u.2 = u.1.bytes
  pointers : ∀ om ∈ s.objects, ∀ r, om.2.Refers r → om.2.mapping = some r
  names : ∀ i ∈ s.created, s.unlinkings i + s.owners i = 1
  made : ∀ u ∈ s.unlinks, ∀ i ∈ s.created, u.hit = some i → u.maker = some i
  own : ∀ u ∈ s.unlinks, ∀ i, u.maker = some i → u.hit = some i
  spared : ∀ i ∈ s.opened, i ∉ s.created → s.unlinkings i = 0

/-- Nothing points into a mapping that has been unmapped, and it was unmapped once. -/
theorem Linear.unmapped {s : System} (h : Linear s) : ∀ u ∈ s.munmaps,
    s.unmappings u.1 = 1 ∧ ∀ om ∈ s.objects, ¬ om.2.Refers u.1 := by
  intro u hu
  have hpos : 0 < s.unmappings u.1 := List.countP_pos_iff.mpr ⟨u, hu, decide_eq_true rfl⟩
  have hcount := h.mappings u.1
  have hle := List.nodup_iff_count_le_one.mp h.distinct u.1
  refine ⟨by omega, fun om hom hr => ?_⟩
  have hheld : 0 < s.holders u.1 := List.countP_pos_iff.mpr ⟨om, hom, decide_eq_true (h.pointers om hom _ hr)⟩
  omega

/-- When no object holds anything any more, all has been undone once. -/
theorem Linear.settled {s : System} (h : Linear s) (hnone : ∀ om ∈ s.objects, om.2.mapping = none) :
    (∀ r ∈ s.mmaps, s.unmappings r = 1) ∧ ∀ i ∈ s.created, s.unlinkings i = 1 := by
  constructor
  · intro r hr
    have hheld : s.holders r = 0 := List.countP_eq_zero.mpr fun om hom => by simp [hnone om hom]
    rw [← List.count_eq_one_of_mem h.distinct hr, ← h.mappings r, hheld]
    rfl
  · intro i hi
    have howned : s.owners i = 0 := List.countP_eq_zero.mpr fun om hom => by
      simp [ShmRingMapping.owned, hnone om hom]
    rw [← h.names i hi, howned]
    rfl

/-- No `CreateNew` whose arguments pass takes the name of what one of the objects has made or opened. -/
def Permits (s : System) : Act → Prop
  | .create _ name _ _ _ slotCount _ => isPowerOfTwo slotCount → name.toList.head? = some '/' →
    ∀ i ∈ s.names.lookup name, i ∉ s.created ∧ i ∉ s.opened
  | _ => True

section Maps
variable {objects rest : List (ObjId × ShmRingMapping)} {mmaps : List Mapped} {munmaps : List (Mapped × BitVec 64)}
  {o other : ObjId} {m : ShmRingMapping} {raw : Mapped}

/-- The fields of an object agree. -/
structure ShmRingMapping.Whole (m : ShmRingMapping) : Prop where
  control : m.control = m.mapping
  slots : m.slots = m.mapping
  ring : m.ring = ⟨m.mapping, m.mapping⟩
  bytes : ∀ r, m.mapping = some r → m.mappingBytes = r.bytes

theorem ShmRingMapping.Whole.taken (h : m.Whole) : m.taken.Whole where
  control := h.control
  slots := h.slots
  ring := by
    change ShmRing.mk m.control m.slots = _
    rw [h.control, h.slots]
    rfl
  bytes := h.bytes

private theorem ShmRingMapping.Whole.mapping_of_refers (h : m.Whole) {r : Mapped} (hr : m.Refers r) :
    m.mapping = some r := by
  unfold Refers at hr
  rw [h.control, h.slots, h.ring] at hr
  simpa using hr

/-- The half of the invariant that is about mappings. -/
structure Maps (objects : List (ObjId × ShmRingMapping)) (mmaps : List Mapped) (munmaps : List (Mapped × BitVec 64)) :
    Prop where
  distinct : mmaps.Nodup
  fresh : ∀ r ∈ mmaps, r.id < mmaps.length
  count : ∀ r, (munmaps.countP fun u => u.1 = r) + (objects.countP fun om => om.2.mapping = some r) = mmaps.count r
  lengths : ∀ u ∈ munmaps, u.2 = u.1.bytes
  whole : ∀ om ∈ objects, om.2.Whole

private theorem Maps.perm (h : Maps objects mmaps munmaps) (hp : objects.Perm rest) : Maps rest mmaps munmaps :=
  { h with
    count := by
      intro r
      rw [← hp.countP_eq]
      exact h.count r
    whole := fun om hom => h.whole om (hp.mem_iff.mpr hom) }

private theorem Maps.not_mem (h : Maps objects mmaps munmaps) (hid : raw.id = mmaps.length) : raw ∉ mmaps := by
  intro hmem
  exact absurd (h.fresh raw hmem) (by omega)

private theorem fresh_cons (h : Maps objects mmaps munmaps) (hid : raw.id = mmaps.length) :
    ∀ r ∈ raw :: mmaps, r.id < (raw :: mmaps).length := by
  refine List.forall_mem_cons.mpr ⟨?_, fun r hr => Nat.lt_succ_of_lt (h.fresh r hr)⟩
  rw [List.length_cons, hid]
  exact Nat.lt_succ_self _

/-- A new mapping goes to a new object. -/
theorem Maps.setUp (h : Maps objects mmaps munmaps) (hid : raw.id = mmaps.length) (o : ObjId) (name : String)
    (ownsName : Bool) :
    Maps ((o, ⟨name, raw.bytes, some raw, some raw, some raw, ownsName, ⟨some raw, some raw⟩⟩) :: objects)
      (raw :: mmaps) munmaps where
  distinct := List.nodup_cons.mpr ⟨h.not_mem hid, h.distinct⟩
  fresh := fresh_cons h hid
  count := by
    intro r
    rw [List.countP_cons, List.count_cons, ← h.count r]
    simp only [Option.some.injEq, decide_eq_true_eq, beq_iff_eq]
    omega
  lengths := h.lengths
  whole := by
    refine List.forall_mem_cons.mpr ⟨⟨rfl, rfl, rfl, fun r hr => ?_⟩, h.whole⟩
    cases hr
    rfl

/-- A new mapping is given up at once. -/
private theorem Maps.munmap (h : Maps objects mmaps munmaps) (hid : raw.id = mmaps.length) :
    Maps objects (raw :: mmaps) ((raw, raw.bytes) :: munmaps) where
  distinct := List.nodup_cons.mpr ⟨h.not_mem hid, h.distinct⟩
  fresh := fresh_cons h hid
  count := by
    intro r
    rw [List.countP_cons, List.count_cons, ← h.count r]
    simp only [decide_eq_true_eq, beq_iff_eq]
    omega
  lengths := List.forall_mem_cons.mpr ⟨rfl, h.lengths⟩
  whole := h.whole

/-- The mappings undone when an object lets go. -/
def munmapsOf (m : ShmRingMapping) : List (Mapped × BitVec 64) :=
  m.mapping.toList.map fun raw => (raw, m.mappingBytes)

theorem Maps.release (h : Maps ((o, m) :: rest) mmaps munmaps) : Maps rest mmaps (munmapsOf m ++ munmaps) :=
  { h with
    count := by
      intro r
      have hcount := h.count r
      rw [List.countP_cons] at hcount
      dsimp only at hcount
      rw [← hcount, List.countP_append]
      have hown : ((munmapsOf m).countP fun u => u.1 = r) = if decide (m.mapping = some r) = true then 1 else 0 := by
        unfold munmapsOf
        cases hm : m.mapping with
        | none => rfl
        | some raw => simp [List.countP_singleton]
      rw [hown]
      omega
    lengths := by
      intro u hu
      rcases List.mem_append.mp hu with hnew | hold
      · obtain ⟨raw, hraw, rfl⟩ := List.mem_map.mp hnew
        exact (h.whole _ List.mem_cons_self).bytes raw (Option.mem_toList.mp hraw)
      · exact h.lengths u hold
    whole := fun om hom => h.whole om (List.mem_cons_of_mem _ hom) }

theorem Maps.move (h : Maps ((other, m) :: rest) mmaps munmaps) (o : ObjId) (left : String) :
    Maps ((o, m.taken) :: (other, .movedFrom left) :: rest) mmaps munmaps :=
  { h with
    count := by
      intro r
      rw [← h.count r]
      simp only [List.countP_cons, ShmRingMapping.taken, ShmRingMapping.movedFrom, reduceCtorEq, decide_false,
        Bool.false_eq_true, ↓reduceIte]
      omega
    whole := by
      obtain ⟨hm, hrest⟩ := List.forall_mem_cons.mp h.whole
      refine List.forall_mem_cons.mpr ⟨hm.taken, List.forall_mem_cons.mpr ⟨⟨rfl, rfl, rfl, fun r hr => ?_⟩, hrest⟩⟩
      cases hr }

end Maps

section Names
variable {objects rest : List (ObjId × ShmRingMapping)} {names : List (String × Inode)} {inodes : Nat}
  {created opened : List Inode} {unlinks : List Unlink} {o other : ObjId} {m : ShmRingMapping} {name : String}
  {i : Inode}

private theorem ShmRingMapping.owned_eq_none (hm : m.ownsName = false) : m.owned = none := by
  rw [owned, hm]
  rfl

/-- The half of the invariant that is about names. -/
structure Names (objects : List (ObjId × ShmRingMapping)) (names : List (String × Inode)) (inodes : Nat)
    (created opened : List Inode) (unlinks : List Unlink) : Prop where
  count : ∀ i ∈ created,
    (unlinks.countP fun u => u.hit = some i) + (objects.countP fun om => om.2.owned = some i) = 1
  made : ∀ u ∈ unlinks, ∀ i ∈ created, u.hit = some i → u.maker = some i
  own : ∀ u ∈ unlinks, ∀ i, u.maker = some i → u.hit = some i
  spared : ∀ i ∈ opened, i ∉ created → (unlinks.countP fun u => u.hit = some i) = 0
  /-- An owner's name stands for what the owner has made. -/
  bound : ∀ om ∈ objects, ∀ i, om.2.owned = some i →
    names.lookup om.2.name = some i ∧ i ∈ created ∧ om.2.name ≠ ""
  holds : ∀ om ∈ objects, om.2.ownsName → om.2.mapping.isSome
  distinct : (names.map Prod.snd).Nodup
  gone : ∀ u ∈ unlinks, ∀ n ∈ names, u.hit ≠ some n.2
  below : (∀ n ∈ names, n.2 < inodes) ∧ (∀ i ∈ created, i < inodes) ∧ (∀ i ∈ opened, i < inodes) ∧
    ∀ u ∈ unlinks, ∀ i, u.hit = some i → i < inodes

private theorem Names.perm (h : Names objects names inodes created opened unlinks) (hp : objects.Perm rest) :
    Names rest names inodes created opened unlinks :=
  { h with
    count := by
      intro i hi
      rw [← hp.countP_eq]
      exact h.count i hi
    bound := fun om hom => h.bound om (hp.mem_iff.mpr hom)
    holds := fun om hom => h.holds om (hp.mem_iff.mpr hom) }

/-- What is bound to a name loses it for good. -/
private theorem Names.gone_filter (h : Names objects names inodes created opened unlinks) (maker : Option Inode) :
    ∀ u ∈ (⟨name, names.lookup name, maker⟩ : Unlink) :: unlinks, ∀ n ∈ names.filter fun n => n.1 != name,
      u.hit ≠ some n.2 := by
  intro u hu n hn hhit
  obtain ⟨hmem, hne⟩ := List.mem_filter.mp hn
  rcases List.mem_cons.mp hu with rfl | hold
  · have hsame := List.inj_on_of_nodup_map h.distinct (mem_of_lookup hhit) hmem rfl
    rw [← hsame] at hne
    simp at hne
  · exact h.gone u hold n hmem hhit

private theorem Names.below_filter (h : Names objects names inodes created opened unlinks) (maker : Option Inode) :
    (∀ n ∈ names.filter fun n => n.1 != name, n.2 < inodes) ∧ (∀ i ∈ created, i < inodes) ∧
      (∀ i ∈ opened, i < inodes) ∧
      ∀ u ∈ (⟨name, names.lookup name, maker⟩ : Unlink) :: unlinks, ∀ i, u.hit = some i → i < inodes := by
  obtain ⟨hnames, hcreated, hopened, hunlinks⟩ := h.below
  refine ⟨fun n hn => hnames n (List.mem_of_mem_filter hn), hcreated, hopened, ?_⟩
  refine List.forall_mem_cons.mpr ⟨fun i hhit => ?_, hunlinks⟩
  exact hnames _ (mem_of_lookup hhit)

/-- `CreateNew` frees a name that no object has to do with. -/
private theorem Names.recover (h : Names objects names inodes created opened unlinks)
    (hname : ∀ i ∈ names.lookup name, i ∉ created ∧ i ∉ opened) :
    Names objects (names.filter fun n => n.1 != name) inodes created opened
      (⟨name, names.lookup name, none⟩ :: unlinks) where
  count := by
    intro i hi
    rw [List.countP_cons_of_neg (by simpa using fun hhit => (hname i hhit).1 hi)]
    exact h.count i hi
  made := List.forall_mem_cons.mpr ⟨fun i hi hhit => absurd hi (hname i hhit).1, h.made⟩
  own := by
    refine List.forall_mem_cons.mpr ⟨fun i hmaker => ?_, h.own⟩
    cases hmaker
  spared := by
    intro i hi hnot
    rw [List.countP_cons_of_neg (by simpa using fun hhit => (hname i hhit).2 hi)]
    exact h.spared i hi hnot
  bound := by
    intro om hom i howned
    obtain ⟨hlookup, hcreated, hne⟩ := h.bound om hom i howned
    refine ⟨?_, hcreated, hne⟩
    rw [lookup_filter_ne, if_neg ?_]
    · exact hlookup
    · intro heq
      exact (hname i (heq ▸ hlookup)).1 hcreated
  holds := h.holds
  distinct := h.distinct.sublist (List.filter_sublist.map Prod.snd)
  gone := h.gone_filter none
  below := h.below_filter none

/-- Something is opened under a name. -/
private theorem Names.openName (h : Names objects names inodes created opened unlinks) (hname : (name, i) ∈ names) :
    Names objects names inodes created (i :: opened) unlinks :=
  { h with
    spared := by
      refine List.forall_mem_cons.mpr ⟨fun _ => ?_, h.spared⟩
      refine List.countP_eq_zero.mpr fun u hu hhit => ?_
      exact h.gone u hu (name, i) hname (of_decide_eq_true hhit)
    below := by
      obtain ⟨hnames, hcreated, hopened, hunlinks⟩ := h.below
      exact ⟨hnames, hcreated, List.forall_mem_cons.mpr ⟨hnames (name, i) hname, hopened⟩, hunlinks⟩ }

/-- An object comes that owns no name. -/
theorem Names.add (h : Names objects names inodes created opened unlinks) (o : ObjId) (hm : m.ownsName = false) :
    Names ((o, m) :: objects) names inodes created opened unlinks :=
  { h with
    count := by
      intro i hi
      rw [List.countP_cons_of_neg (by simp [ShmRingMapping.owned_eq_none hm])]
      exact h.count i hi
    bound := by
      refine List.forall_mem_cons.mpr ⟨fun i howned => ?_, h.bound⟩
      rw [ShmRingMapping.owned_eq_none hm] at howned
      cases howned
    holds := by
      refine List.forall_mem_cons.mpr ⟨fun howns => ?_, h.holds⟩
      rw [hm] at howns
      cases howns }

/-- What is created next has not been unlinked, and nobody owns it. -/
private theorem Names.count_next (h : Names objects names inodes created opened unlinks) :
    (unlinks.countP fun u => u.hit = some inodes) = 0 ∧ (objects.countP fun om => om.2.owned = some inodes) = 0 := by
  obtain ⟨-, hcreated, -, hunlinks⟩ := h.below
  constructor
  · refine List.countP_eq_zero.mpr fun u hu hhit => ?_
    exact absurd (hunlinks u hu inodes (of_decide_eq_true hhit)) (Nat.lt_irrefl _)
  · refine List.countP_eq_zero.mpr fun om hom howned => ?_
    exact absurd (hcreated inodes (h.bound om hom inodes (of_decide_eq_true howned)).2.1) (Nat.lt_irrefl _)

private theorem Names.ne_next (h : Names objects names inodes created opened unlinks) (hi : i ∈ created) : i ≠ inodes :=
  Nat.ne_of_lt (h.below.2.1 i hi)

private theorem Names.hit_ne_next (h : Names objects names inodes created opened unlinks) {u : Unlink}
    (hu : u ∈ unlinks) :
    u.hit ≠ some inodes := fun hhit => Nat.lt_irrefl _ (h.below.2.2.2 u hu inodes hhit)

/-- A name that is free is created and goes to a new object. -/
theorem Names.setUp (h : Names objects names inodes created opened unlinks) (hfree : names.lookup name = none)
    (hname : name ≠ "") (o : ObjId) (hm : m.name = name) (howned : m.owned = some inodes) :
    Names ((o, m) :: objects) ((name, inodes) :: names) (inodes + 1) (inodes :: created) opened unlinks where
  count := by
    obtain ⟨hunlinks, hobjects⟩ := h.count_next
    refine List.forall_mem_cons.mpr ⟨?_, fun i hi => ?_⟩
    · rw [List.countP_cons_of_pos (by simpa using howned), hunlinks, hobjects]
    · have hother : m.owned ≠ some i := by
        rw [howned]
        exact fun heq => h.ne_next hi (Option.some.inj heq).symm
      rw [List.countP_cons_of_neg (by simpa using hother)]
      exact h.count i hi
  made := by
    intro u hu i hi hhit
    rcases List.mem_cons.mp hi with rfl | hold
    · exact absurd hhit (h.hit_ne_next hu)
    · exact h.made u hu i hold hhit
  own := h.own
  spared := fun i hi hnot => h.spared i hi fun hcreated => hnot (List.mem_cons_of_mem _ hcreated)
  bound := by
    refine List.forall_mem_cons.mpr ⟨fun i hi => ?_, fun om hom i hi => ?_⟩
    · obtain rfl := Option.some.inj (howned.symm.trans hi)
      refine ⟨?_, List.mem_cons_self, hm ▸ hname⟩
      rw [List.lookup_cons, hm, beq_self_eq_true]
    · obtain ⟨hlookup, hcreated, hne⟩ := h.bound om hom i hi
      refine ⟨?_, List.mem_cons_of_mem _ hcreated, hne⟩
      rw [List.lookup_cons, beq_false_of_ne ?_]
      · exact hlookup
      · rintro rfl
        rw [hfree] at hlookup
        cases hlookup
  holds := by
    refine List.forall_mem_cons.mpr ⟨fun howns => ?_, h.holds⟩
    unfold ShmRingMapping.owned at howned
    rw [howns] at howned
    obtain ⟨raw, hraw, -⟩ := Option.map_eq_some_iff.mp howned
    rw [hraw]
    rfl
  distinct := by
    refine List.nodup_cons.mpr ⟨fun hmem => ?_, h.distinct⟩
    obtain ⟨n, hn, heq⟩ := List.mem_map.mp hmem
    exact Nat.ne_of_lt (h.below.1 n hn) heq
  gone := fun u hu => List.forall_mem_cons.mpr ⟨h.hit_ne_next hu, h.gone u hu⟩
  below := by
    obtain ⟨hnames, hcreated, hopened, hunlinks⟩ := h.below
    refine ⟨List.forall_mem_cons.mpr ⟨Nat.lt_succ_self _, fun n hn => Nat.lt_succ_of_lt (hnames n hn)⟩,
      List.forall_mem_cons.mpr ⟨Nat.lt_succ_self _, fun i hi => Nat.lt_succ_of_lt (hcreated i hi)⟩,
      fun i hi => Nat.lt_succ_of_lt (hopened i hi), fun u hu i hhit => Nat.lt_succ_of_lt (hunlinks u hu i hhit)⟩

/-- A name has one owner. -/
private theorem Names.sole_owner (h : Names ((o, m) :: rest) names inodes created opened unlinks)
    (hm : m.owned = some i) :
    (unlinks.countP fun u => u.hit = some i) = 0 ∧ (rest.countP fun om => om.2.owned = some i) = 0 := by
  obtain ⟨-, hcreated, -⟩ := h.bound _ List.mem_cons_self i hm
  have hone := h.count i hcreated
  rw [List.countP_cons_of_pos (by simpa using hm)] at hone
  omega

/-- An object that owns a name unlinks it. -/
theorem Names.release (h : Names ((o, m) :: rest) names inodes created opened unlinks) (hm : m.owned = some i) :
    Names rest (names.filter fun n => n.1 != m.name) inodes created opened
      (⟨m.name, names.lookup m.name, some i⟩ :: unlinks) := by
  obtain ⟨hlookup, hcreated, -⟩ := h.bound _ List.mem_cons_self i hm
  obtain ⟨hunlinks, hrest⟩ := h.sole_owner hm
  dsimp only at hlookup
  exact
    { count := by
        intro j hj
        by_cases hij : i = j
        · subst hij
          rw [List.countP_cons_of_pos (by simpa using hlookup), hunlinks, hrest]
        · have hcount := h.count j hj
          rw [List.countP_cons_of_neg (by simpa [hm] using hij)] at hcount
          rw [List.countP_cons_of_neg (by simpa [hlookup] using hij)]
          exact hcount
      made := List.forall_mem_cons.mpr ⟨fun j _ hhit => hlookup.symm.trans hhit, h.made⟩
      own := List.forall_mem_cons.mpr ⟨fun j hmaker => hlookup.trans hmaker, h.own⟩
      spared := by
        intro j hj hnot
        rw [List.countP_cons_of_neg ?_]
        · exact h.spared j hj hnot
        · rw [hlookup, decide_eq_true_eq]
          rintro heq
          cases heq
          exact hnot hcreated
      bound := by
        intro om hom j howned
        obtain ⟨hbound, hmade, hne⟩ := h.bound om (List.mem_cons_of_mem _ hom) j howned
        refine ⟨?_, hmade, hne⟩
        rw [lookup_filter_ne, if_neg ?_]
        · exact hbound
        · -- Another owner of the name would own what was made under it.
          intro heq
          rw [heq, hlookup] at hbound
          rw [← hbound] at howned
          exact List.countP_eq_zero.mp hrest om hom (decide_eq_true howned)
      holds := fun om hom => h.holds om (List.mem_cons_of_mem _ hom)
      distinct := h.distinct.sublist (List.filter_sublist.map Prod.snd)
      gone := h.gone_filter (some i)
      below := h.below_filter (some i) }

/-- An object goes that owns no name. -/
theorem Names.drop (h : Names ((o, m) :: rest) names inodes created opened unlinks) (hm : m.owned = none) :
    Names rest names inodes created opened unlinks :=
  { h with
    count := by
      intro i hi
      have hcount := h.count i hi
      rw [List.countP_cons_of_neg (by simp [hm])] at hcount
      exact hcount
    bound := fun om hom => h.bound om (List.mem_cons_of_mem _ hom)
    holds := fun om hom => h.holds om (List.mem_cons_of_mem _ hom) }

/-- A name is created and, as something after it fails, unlinked again. -/
private theorem Names.undo (h : Names objects names inodes created opened unlinks) (hfree : names.lookup name = none)
    (hname : name ≠ "") :
    Names objects (((name, inodes) :: names).filter fun n => n.1 != name) (inodes + 1) (inodes :: created) opened
      (⟨name, ((name, inodes) :: names).lookup name, some inodes⟩ :: unlinks) :=
  -- As if an object had been set up and destroyed.
  (h.setUp hfree hname (m := ⟨name, 0, some ⟨0, inodes, 0⟩, none, none, true, ⟨none, none⟩⟩) 0 rfl rfl).release rfl

theorem Names.move (h : Names ((other, m) :: rest) names inodes created opened unlinks) (o : ObjId) (left : String) :
    Names ((o, m.taken) :: (other, .movedFrom left) :: rest) names inodes created opened unlinks := by
  have htaken : Names ((o, m.taken) :: rest) names inodes created opened unlinks :=
    { h with
      bound := List.forall_mem_cons.mpr (List.forall_mem_cons.mp h.bound)
      holds := List.forall_mem_cons.mpr (List.forall_mem_cons.mp h.holds) }
  exact (htaken.add other rfl).perm (List.Perm.swap _ _ _)

end Names

/-- Both halves, at a state. -/
structure Inv (s : System) : Prop where
  maps : Maps s.objects s.mmaps s.munmaps
  names : Names s.objects s.names s.inodes s.created s.opened s.unlinks

private theorem Inv.linear {s : System} (h : Inv s) : Linear s where
  distinct := h.maps.distinct
  mappings := h.maps.count
  lengths := h.maps.lengths
  pointers := fun om hom _ hr => (h.maps.whole om hom).mapping_of_refers hr
  names := h.names.count
  made := h.names.made
  own := h.names.own
  spared := h.names.spared

theorem Inv.initial (leftover : List String) : Inv (.initial leftover) where
  maps :=
    { distinct := List.nodup_nil
      fresh := List.forall_mem_nil _
      count := fun _ => rfl
      lengths := List.forall_mem_nil _
      whole := List.forall_mem_nil _ }
  names :=
    { count := List.forall_mem_nil _
      made := List.forall_mem_nil _
      own := List.forall_mem_nil _
      spared := List.forall_mem_nil _
      bound := List.forall_mem_nil _
      holds := List.forall_mem_nil _
      distinct := by
        change (leftover.zipIdx.map Prod.snd).Nodup
        rw [List.zipIdx_map_snd]
        exact List.nodup_range'
      gone := List.forall_mem_nil _
      below := by
        refine ⟨fun n hn => ?_, List.forall_mem_nil _, List.forall_mem_nil _, List.forall_mem_nil _⟩
        exact List.snd_lt_of_mem_zipIdx hn }

section Steps
variable {s t : System} {o other : ObjId} {m : ShmRingMapping} {rest : List (ObjId × ShmRingMapping)} {name : String}
  {frames channels sampleRate slotCount : BitVec 32} {calls : CreateCalls}

/-- `CreateNew` with arguments that it refuses does nothing. -/
private theorem create_of_refused (h : ¬ (isPowerOfTwo slotCount ∧ name.toList.head? = some '/')) :
    s.create o name frames channels sampleRate slotCount calls = s := by
  unfold System.create createNew
  by_cases hpow : isPowerOfTwo slotCount = true
  · rw [dif_pos hpow, if_pos fun hname => h ⟨hpow, hname⟩]
  · rw [dif_neg hpow]

/-- With others it unlinks the name, and then creates nothing, gives up what it created, or sets up an object. -/
private theorem create_of_valid (s : System) (o : ObjId) (frames channels sampleRate : BitVec 32) (calls : CreateCalls)
    (h : isPowerOfTwo slotCount ∧ name.toList.head? = some '/') :
    (s.create o name frames channels sampleRate slotCount calls = s.shmUnlink name none ∨
      s.create o name frames channels sampleRate slotCount calls =
        ((s.shmUnlink name none).shmCreate name).shmUnlink name (some s.inodes)) ∨
    ∃ bytes, s.create o name frames channels sampleRate slotCount calls =
      (((s.shmUnlink name none).shmCreate name).map s.inodes bytes).2.setUp o name
        ⟨s.mmaps.length, s.inodes, bytes⟩ true := by
  unfold System.create createNew
  rw [dif_pos h.1, if_neg (not_not.mpr h.2)]
  dsimp only
  by_cases hopen : (!calls.shmOpen) = true
  · rw [if_pos hopen]
    exact .inl (.inl rfl)
  rw [if_neg hopen]
  by_cases htruncate : (!calls.ftruncate) = true
  · rw [if_pos htruncate]
    exact .inl (.inr rfl)
  rw [if_neg htruncate]
  cases calls.mmap with
  | none => exact .inl (.inr rfl)
  | some raw => exact .inr ⟨_, rfl⟩

private theorem ne_empty_of_head (h : name.toList.head? = some '/') : name ≠ "" := by
  rintro rfl
  cases h

theorem Inv.create (h : Inv s)
    (hp : Permits s (.create o name frames channels sampleRate slotCount calls)) :
    Inv (s.create o name frames channels sampleRate slotCount calls) := by
  by_cases hvalid : isPowerOfTwo slotCount ∧ name.toList.head? = some '/'
  swap
  · rw [create_of_refused hvalid]
    exact h
  have hrecover := h.names.recover (hp hvalid.1 hvalid.2)
  have hfree : (s.names.filter fun n => n.1 != name).lookup name = none := by
    rw [lookup_filter_ne, if_pos rfl]
  have hname := ne_empty_of_head hvalid.2
  rcases create_of_valid s o frames channels sampleRate calls hvalid with (heq | heq) | ⟨bytes, heq⟩
  · rw [heq]
    exact ⟨h.maps, hrecover⟩
  · rw [heq]
    exact ⟨h.maps, hrecover.undo hfree hname⟩
  · rw [heq]
    exact ⟨h.maps.setUp rfl o name true, hrecover.setUp hfree hname o rfl rfl⟩

private theorem Inv.openName (h : Inv s) {inode : Inode} (hname : (name, inode) ∈ s.names)
    (attempt : Except OpenError Ipc.ShmRingMapping) (size : BitVec 64) : Inv (s.openName o name inode attempt size) := by
  have hopened := h.names.openName hname
  cases attempt with
  | ok m => exact ⟨h.maps.setUp rfl o name false, hopened.add o rfl⟩
  | error e =>
    cases e with
    | name | slotCount | shmOpen => exact h
    | fstat | tooSmall | mmap => exact ⟨h.maps, hopened⟩
    | geometryMismatch => exact ⟨h.maps.munmap rfl, hopened⟩

/-- What an object holds is let go, and the object is there no more. -/
theorem Inv.release (hmaps : Maps ((o, m) :: rest) s.mmaps s.munmaps)
    (hnames : Names ((o, m) :: rest) s.names s.inodes s.created s.opened s.unlinks) :
    Inv { s.release m with objects := rest } := by
  have hreleased := hmaps.release
  unfold System.release
  unfold munmapsOf at hreleased
  cases howns : m.ownsName with
  | true =>
    obtain ⟨raw, hraw⟩ := Option.isSome_iff_exists.mp (hnames.holds _ List.mem_cons_self howns)
    dsimp only at hraw
    have howned : m.owned = some raw.inode := by
      unfold ShmRingMapping.owned
      rw [if_pos howns, hraw]
      rfl
    have hne := (hnames.bound _ List.mem_cons_self _ howned).2.2
    rw [hraw] at hreleased ⊢
    rw [if_pos (by simpa using hne)]
    exact ⟨hreleased, hnames.release howned⟩
  | false =>
    have howned := ShmRingMapping.owned_eq_none howns
    rw [Bool.false_and, if_neg Bool.false_ne_true]
    cases hraw : m.mapping with
    | none =>
      rw [hraw] at hreleased
      exact ⟨hreleased, hnames.drop howned⟩
    | some raw =>
      rw [hraw] at hreleased
      exact ⟨hreleased, hnames.drop howned⟩

theorem step_keeps {a : Act} (h : Inv s) (hp : Permits s a) (hs : s.step a = some t) : Inv t := by
  cases a with
  | create o name frames channels sampleRate slotCount calls =>
    rw [System.step] at hs
    split at hs
    · cases hs
    · cases hs
      exact h.create hp
  | openExisting o name frames channels sampleRate slotCount calls region =>
    rw [System.step] at hs
    split at hs
    · cases hs
    split at hs
    · rename_i inode hlookup
      cases hs
      exact h.openName (mem_of_lookup hlookup) _ _
    · cases hs
      exact h
  | moveConstruct o other left =>
    rw [System.step] at hs
    split at hs
    · cases hs
    obtain ⟨⟨m, rest⟩, hm, hout⟩ := Option.map_eq_some_iff.mp hs
    cases hout
    have hperm := perm_of_extract hm
    exact ⟨(h.maps.perm hperm).move o left, (h.names.perm hperm).move o left⟩
  | moveAssign o other left =>
    rw [System.step] at hs
    split at hs
    · split at hs
      · cases hs
        exact h
      · cases hs
    · obtain ⟨⟨m, rest⟩, hm, hs⟩ := Option.bind_eq_some_iff.mp hs
      obtain ⟨⟨m', rest'⟩, hm', hout⟩ := Option.map_eq_some_iff.mp hs
      cases hout
      have hperm := perm_of_extract hm
      have hreleased := Inv.release (h.maps.perm hperm) (h.names.perm hperm)
      have hperm' := perm_of_extract hm'
      exact ⟨(hreleased.maps.perm hperm').move o left, (hreleased.names.perm hperm').move o left⟩
  | destroy o =>
    obtain ⟨⟨m, rest⟩, hm, hout⟩ := Option.map_eq_some_iff.mp hs
    cases hout
    have hperm := perm_of_extract hm
    exact Inv.release (h.maps.perm hperm) (h.names.perm hperm)

/-- Whatever becomes of a `CreateNew` that is not refused, the name was unlinked first. -/
private theorem unlinked_of_valid (s : System) (o : ObjId) (frames channels sampleRate : BitVec 32)
    (calls : CreateCalls)
    (h : isPowerOfTwo slotCount ∧ name.toList.head? = some '/') :
    let t := s.create o name frames channels sampleRate slotCount calls
    ⟨name, s.names.lookup name, none⟩ ∈ t.unlinks ∧ t.opened = s.opened ∧ s.created ⊆ t.created ∧
      t.created ⊆ s.inodes :: s.created := by
  intro t
  rcases create_of_valid s o frames channels sampleRate calls h with (heq | heq) | ⟨bytes, heq⟩
  · rw [show t = _ from heq]
    exact ⟨List.mem_cons_self, rfl, List.Subset.refl _, List.subset_cons_self _ _⟩
  · rw [show t = _ from heq]
    exact ⟨List.mem_cons_of_mem _ List.mem_cons_self, rfl, List.subset_cons_self _ _, List.Subset.refl _⟩
  · rw [show t = _ from heq]
    exact ⟨List.mem_cons_self, rfl, List.subset_cons_self _ _, List.Subset.refl _⟩

/-- A `CreateNew` that takes the name of one of the objects breaks the accounts, whatever it then does. -/
private theorem permits_of_linear {a : Act} (h : Inv s) (hs : s.step a = some t) (hl : Linear t) : Permits s a := by
  cases a with
  | create o name frames channels sampleRate slotCount calls =>
    intro hpow hhead i hi
    rw [System.step] at hs
    split at hs
    · cases hs
    cases hs
    obtain ⟨hunlink, hopened, hcreated, hcreated'⟩ :=
      unlinked_of_valid s o frames channels sampleRate calls ⟨hpow, hhead⟩
    have hnot : i ∉ s.created := by
      intro hmem
      have hmade := hl.made _ hunlink i (hcreated hmem) hi
      cases hmade
    refine ⟨hnot, fun hmem => ?_⟩
    have hspared := hl.spared i (hopened ▸ hmem) ?_
    · exact List.countP_eq_zero.mp hspared _ hunlink (decide_eq_true hi)
    · intro hnew
      rcases List.mem_cons.mp (hcreated' hnew) with hnext | hold
      · exact Nat.ne_of_lt (h.names.below.2.2.1 i hmem) hnext
      · exact hnot hold
  | openExisting | moveConstruct | moveAssign | destroy => trivial

end Steps

instance : ∀ (s : System) (a : Act), Decidable (Permits s a)
  | s, .create _ name _ _ _ slotCount _ =>
    inferInstanceAs (Decidable (isPowerOfTwo slotCount → name.toList.head? = some '/' →
      ∀ i ∈ s.names.lookup name, i ∉ s.created ∧ i ∉ s.opened))
  | _, .openExisting _ _ _ _ _ _ _ _ => .isTrue trivial
  | _, .moveConstruct _ _ _ => .isTrue trivial
  | _, .moveAssign _ _ _ => .isTrue trivial
  | _, .destroy _ => .isTrue trivial

/-- Whatever the objects go through, mappings and names are accounted for exactly in the runs that
call `CreateNew` only for names under which none of the objects has made or opened anything. -/
theorem linear_iff (leftover : List String) (acts : List Act) {t : System}
    (he : exec System.step (.initial leftover) acts = some t) :
    Always System.step Linear (.initial leftover) acts ↔ Meets System.step Permits (.initial leftover) acts :=
  always_iff_meets Inv step_keeps Inv.linear permits_of_linear (Inv.initial leftover) he

/-- Two rings, one under a name from before, moved, assigned to themselves and over one another. -/
def moves : List Act :=
  [.create 0 "/a" 256 1 48000 8 ⟨true, true, some 0x7F0000000000⟩, .moveConstruct 1 0 "", .moveAssign 1 1 "",
    .create 2 "/old" 256 1 48000 8 ⟨true, true, some 0x7F0000003000⟩,
    .openExisting 3 "/old" 256 1 48000 8 ⟨true, true, true⟩ ⟨12288, ⟨8, 1088, 256, 1, 48000⟩⟩,
    .moveAssign 1 2 "", .moveAssign 3 1 "", .destroy 0, .destroy 1, .destroy 2, .destroy 3]

theorem linear_iff_moves : ∃ t, exec System.step (.initial ["/old"]) moves = some t ∧
    Always System.step Linear (.initial ["/old"]) moves ∧ t.objects = [] ∧ t.munmaps.length = 3 :=
  ⟨_, rfl, (linear_iff ["/old"] moves rfl).mpr (meets_of_checks (by decide)), rfl, rfl⟩

/-- A ring is made anew under its name. -/
def recreation : List Act :=
  [.create 0 "/a" 256 1 48000 8 ⟨true, true, some 0x7F0000000000⟩,
    .create 1 "/a" 256 1 48000 8 ⟨true, true, some 0x7F0000003000⟩, .moveAssign 0 1 "", .destroy 1]

/-- The assignment unlinks the name of the ring that it takes over, which has an owner then and no name. -/
theorem recreation_unlinks_successor : ∃ t, exec System.step (.initial []) recreation = some t ∧
    t.objects.map (fun om => om.2.owned) = [some 1] ∧ t.names = [] ∧
    ¬ Always System.step Linear (.initial []) recreation := by
  refine ⟨_, rfl, rfl, rfl, fun h => ?_⟩
  have hmade := (h.end rfl).made ⟨"/a", some 1, some 0⟩ List.mem_cons_self 1 List.mem_cons_self rfl
  cases hmade

end Plughost.Ipc.Ownership
