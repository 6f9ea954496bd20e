import Mathlib
import TraceSyscallObj.X86.CcHelper

/-!
# The list of memory mappings (`memory_mapping.c`)

The list collects pairs of a physical and a virtual range for a dump of the guest's memory.  A
mapping is named by the number of mappings that were there when it was made, so `last_mapping` is
such a number; mappings are never removed.

* `memoryMappingListAddMergeSorted`: the function, with the scan as a choice of what to do;
* `Range.pairs`, `MemoryMappingList.pairs`: the set of address pairs that is meant;
* `Partner`, `Fits`: the mapping a new range is joined to, and when this is done right;
* `mappings_exact`: the list stays sorted, and in a run of joins that fit it holds the pairs of all
  calls;
* `merge_below`: a range joined from below moves the virtual start only.
-/

namespace Mapping
open Function X86

/-! ## the model -/

structure MemoryMapping (t : Target) where
  physAddr : BitVec 64
  virtAddr : TargetUlong t
  length : BitVec 64

structure MemoryMappingList (t : Target) where
  num : Nat
  head : List Nat
  mapping : Nat → MemoryMapping t
  lastMapping : Option Nat

structure Range where
  physAddr : BitVec 64
  virtAddr : BitVec 64
  length : BitVec 64

section
variable {t : Target}

/-- the virtual address as it enters 64-bit arithmetic -/
def MemoryMapping.virt (m : MemoryMapping t) : BitVec 64 := m.virtAddr.setWidth 64

def memoryMappingListInit (garbage : Nat → MemoryMapping t) : MemoryMappingList t where
  num := 0
  head := []
  mapping := garbage
  lastMapping := none

def addMappingSorted (mapping : Nat → MemoryMapping t) (x : Nat) : List Nat → List Nat
  | [] => [x]
  | p :: ps =>
    if (mapping p).physAddr ≥ (mapping x).physAddr then x :: p :: ps
    else p :: addMappingSorted mapping x ps

def createNewMemoryMapping (s : MemoryMappingList t) (r : Range) : MemoryMappingList t :=
  let mapping := update s.mapping s.num ⟨r.physAddr, r.virtAddr.setWidth _, r.length⟩
  { num := s.num + 1, mapping := mapping, lastMapping := some s.num,
    head := addMappingSorted mapping s.num s.head }

def mappingContiguous (m : MemoryMapping t) (physAddr virtAddr : BitVec 64) : Prop :=
  physAddr = m.physAddr + m.length ∧ virtAddr = m.virt + m.length

instance (m : MemoryMapping t) (p v : BitVec 64) : Decidable (mappingContiguous m p v) :=
  inferInstanceAs (Decidable (_ ∧ _))

def mappingHaveSameRegion (m : MemoryMapping t) (physAddr length : BitVec 64) : Prop :=
  ¬ (physAddr + length < m.physAddr ∨ physAddr ≥ m.physAddr + m.length)

instance (m : MemoryMapping t) (p l : BitVec 64) : Decidable (mappingHaveSameRegion m p l) :=
  inferInstanceAs (Decidable (¬ _))

def mappingConflict (m : MemoryMapping t) (physAddr virtAddr : BitVec 64) : Prop :=
  virtAddr - m.virt ≠ physAddr - m.physAddr

instance (m : MemoryMapping t) (p v : BitVec 64) : Decidable (mappingConflict m p v) :=
  inferInstanceAs (Decidable (_ ≠ _))

/-- the first half of `mapping_merge`; `phys_addr` stays -/
def extendBelow (m : MemoryMapping t) (virtAddr : BitVec 64) : MemoryMapping t :=
  if virtAddr < m.virt then
    { m with length := m.length + (m.virt - virtAddr), virtAddr := virtAddr.setWidth _ }
  else m

/-- the second half -/
def extendAbove (m : MemoryMapping t) (virtAddr length : BitVec 64) : MemoryMapping t :=
  if virtAddr + length > m.virt + m.length then
    { m with length := virtAddr + length - m.virt }
  else m

def mappingMerge (m : MemoryMapping t) (virtAddr length : BitVec 64) : MemoryMapping t :=
  extendAbove (extendBelow m virtAddr) virtAddr length

/-- what the scan of the list ends with -/
inductive Action
  | extend (i : Nat)
  | merge (i : Nat)
  | create
  deriving DecidableEq

def scan (s : MemoryMappingList t) (r : Range) : List Nat → Action
  | [] => .create
  | i :: is =>
    if mappingContiguous (s.mapping i) r.physAddr r.virtAddr then .extend i
    -- create a new region before memory_mapping
    else if r.physAddr + r.length < (s.mapping i).physAddr then .create
    else if mappingHaveSameRegion (s.mapping i) r.physAddr r.length then
      if mappingConflict (s.mapping i) r.physAddr r.virtAddr then scan s r is else .merge i
    else scan s r is

/-- the cached mapping is tried first -/
def choose (s : MemoryMappingList t) (r : Range) : Action :=
  if s.head = [] then .create
  else
    match s.lastMapping with
    | some i =>
      if mappingContiguous (s.mapping i) r.physAddr r.virtAddr then .extend i else scan s r s.head
    | none => scan s r s.head

/-- one mapping is changed and becomes the cached one -/
def MemoryMappingList.modify (s : MemoryMappingList t) (i : Nat)
    (f : MemoryMapping t → MemoryMapping t) : MemoryMappingList t :=
  { s with mapping := update s.mapping i (f (s.mapping i)), lastMapping := some i }

def memoryMappingListAddMergeSorted (s : MemoryMappingList t) (r : Range) : MemoryMappingList t :=
  match choose s r with
  | .extend i => s.modify i fun m => { m with length := m.length + r.length }
  | .merge i => s.modify i fun m => mappingMerge m r.virtAddr r.length
  | .create => createNewMemoryMapping s r

/-! ## what the list means -/

/-- a run of pairs `(p + i, v + i)` -/
def diagonal (p v n : Nat) : Set (Nat × Nat) := {x | ∃ i < n, x = (p + i, v + i)}

lemma diagonal_union {p v n d k : Nat} (h : d ≤ n) :
    diagonal p v n ∪ diagonal (p + d) (v + d) k = diagonal p v (max n (d + k)) := by
  ext x
  constructor
  · rintro (⟨i, hi, rfl⟩ | ⟨i, hi, rfl⟩)
    · exact ⟨i, by omega, rfl⟩
    · exact ⟨d + i, by omega, by simp only [Nat.add_assoc]⟩
  rintro ⟨i, hi, rfl⟩
  by_cases hin : i < n
  · exact .inl ⟨i, hin, rfl⟩
  · refine .inr ⟨i - d, by omega, ?_⟩
    simp only [Prod.mk.injEq]
    omega

def MemoryMapping.pairs (m : MemoryMapping t) : Set (Nat × Nat) :=
  diagonal m.physAddr.toNat m.virt.toNat m.length.toNat

def Range.pairs (r : Range) : Set (Nat × Nat) :=
  diagonal r.physAddr.toNat r.virtAddr.toNat r.length.toNat

def MemoryMappingList.pairs (s : MemoryMappingList t) : Set (Nat × Nat) :=
  {x | ∃ i ∈ s.head, x ∈ (s.mapping i).pairs}

def MemoryMappingList.Sorted (s : MemoryMappingList t) : Prop :=
  s.head.Pairwise fun i j => (s.mapping i).physAddr ≤ (s.mapping j).physAddr

/-- not empty, and no address of it wraps -/
structure Range.Valid (t : Target) (r : Range) : Prop where
  pos : 0 < r.length.toNat
  phys : r.physAddr.toNat + r.length.toNat ≤ 2 ^ 64
  virt : r.virtAddr.toNat + r.length.toNat ≤ 2 ^ t.bits

/-! ## joining a range to a mapping -/

def Passes (m : MemoryMapping t) (r : Range) : Prop :=
  ¬ mappingContiguous m r.physAddr r.virtAddr ∧ ¬ r.physAddr + r.length < m.physAddr ∧
    (mappingHaveSameRegion m r.physAddr r.length → mappingConflict m r.physAddr r.virtAddr)

/-- the range meets the mapping, with the same offset between the addresses -/
def Meets (m : MemoryMapping t) (r : Range) : Prop :=
  ¬ r.physAddr + r.length < m.physAddr ∧ mappingHaveSameRegion m r.physAddr r.length ∧
    ¬ mappingConflict m r.physAddr r.virtAddr

/-- the mapping that the range is joined to: the cached one if the range continues it, else the
first one of the list that it continues or meets -/
def Partner (s : MemoryMappingList t) (r : Range) (i : Nat) : Prop :=
  (s.lastMapping = some i ∧ mappingContiguous (s.mapping i) r.physAddr r.virtAddr) ∨
    ((∀ j, s.lastMapping = some j → ¬ mappingContiguous (s.mapping j) r.physAddr r.virtAddr) ∧
      ∃ A B, s.head = A ++ i :: B ∧ (∀ a ∈ A, Passes (s.mapping a) r) ∧
        (mappingContiguous (s.mapping i) r.physAddr r.virtAddr ∨ Meets (s.mapping i) r))

/-- A range that continues the mapping does so below the top of both address spaces; any other
range starts at or above the virtual start, and ends at the top only if the mapping does. -/
def Fits (m : MemoryMapping t) (r : Range) : Prop :=
  (mappingContiguous m r.physAddr r.virtAddr →
    m.physAddr.toNat + m.length.toNat < 2 ^ 64 ∧ m.virt.toNat + m.length.toNat < 2 ^ 64 ∧
      m.length.toNat + r.length.toNat < 2 ^ 64) ∧
  (¬ mappingContiguous m r.physAddr r.virtAddr → m.virt ≤ r.virtAddr ∧
    (r.virtAddr.toNat + r.length.toNat = 2 ^ 64 ↔ m.virt.toNat + m.length.toNat = 2 ^ 64))

instance (m : MemoryMapping t) (r : Range) : Decidable (Fits m r) :=
  inferInstanceAs (Decidable ((_ → _) ∧ (_ → _)))

structure MemoryMapping.Good (m : MemoryMapping t) : Prop where
  pos : 0 < m.length.toNat
  phys : m.physAddr.toNat + m.length.toNat ≤ 2 ^ 64
  virt : m.virt.toNat + m.length.toNat ≤ 2 ^ t.bits

lemma two_pow_bits_le (t : Target) : 2 ^ t.bits ≤ 2 ^ 64 := by
  cases t <;> decide

lemma virt_of_lt {p l : BitVec 64} {v : BitVec 64} (h : v.toNat < 2 ^ t.bits) :
    (MemoryMapping.mk (t := t) p (v.setWidth _) l).virt = v := by
  apply BitVec.eq_of_toNat_eq
  show ((v.setWidth t.bits).setWidth 64).toNat = v.toNat
  rw [BitVec.toNat_setWidth, BitVec.toNat_setWidth, Nat.mod_eq_of_lt h,
    Nat.mod_eq_of_lt (by omega)]

variable {m : MemoryMapping t} {r : Range}

lemma grow {l : BitVec 64} {d : Nat} (hg : m.Good) (hr : r.Valid t)
    (hp : r.physAddr.toNat = m.physAddr.toNat + d) (hv : r.virtAddr.toNat = m.virt.toNat + d)
    (hd : d ≤ m.length.toNat) (hl : l.toNat = max m.length.toNat (d + r.length.toNat)) :
    ({ m with length := l } : MemoryMapping t).Good ∧
      ({ m with length := l } : MemoryMapping t).pairs = m.pairs ∪ r.pairs := by
  obtain ⟨h1, h2, h3⟩ := hg
  obtain ⟨h4, h5, h6⟩ := hr
  refine ⟨⟨?_, ?_, ?_⟩, ?_⟩
  · show 0 < l.toNat
    omega
  · show m.physAddr.toNat + l.toNat ≤ _
    omega
  · show m.virt.toNat + l.toNat ≤ _
    omega
  · show diagonal m.physAddr.toNat m.virt.toNat l.toNat = _
    rw [hl, ← diagonal_union hd, Range.pairs, hp, hv]
    rfl

lemma extend_good (hg : m.Good) (hr : r.Valid t) (hc : mappingContiguous m r.physAddr r.virtAddr)
    (hf : Fits m r) :
    ({ m with length := m.length + r.length } : MemoryMapping t).Good ∧
      ({ m with length := m.length + r.length } : MemoryMapping t).pairs = m.pairs ∪ r.pairs := by
  obtain ⟨h1, h2, h3⟩ := hf.1 hc
  obtain ⟨hp, hv⟩ := hc
  refine grow (d := m.length.toNat) hg hr ?_ ?_ (Nat.le_refl _) ?_
  · rw [hp, BitVec.toNat_add, Nat.mod_eq_of_lt h1]
  · rw [hv, BitVec.toNat_add, Nat.mod_eq_of_lt h2]
  · rw [BitVec.toNat_add, Nat.mod_eq_of_lt h3, Nat.max_eq_right (by omega)]

lemma Meets.offset (h : Meets m r) (hr : r.Valid t) (hv : m.virt ≤ r.virtAddr)
    (htop : r.virtAddr.toNat + r.length.toNat = 2 ^ 64 ↔
      m.virt.toNat + m.length.toNat = 2 ^ 64) :
    ∃ d, d < m.length.toNat ∧ r.physAddr.toNat = m.physAddr.toNat + d ∧
      r.virtAddr.toNat = m.virt.toNat + d := by
  obtain ⟨h1, h2, h3⟩ := h
  obtain ⟨r1, r2, r3⟩ := hr
  have hb := two_pow_bits_le t
  have hconf : r.virtAddr - m.virt = r.physAddr - m.physAddr := by
    exact not_not.mp h3
  have hin : ¬ r.physAddr ≥ m.physAddr + m.length := by
    exact (not_or.mp h2).2
  -- below the mapping, the virtual range would have to end at the top
  refine ⟨r.physAddr.toNat - m.physAddr.toNat, ?_, ?_, ?_⟩
  · bv_omega
  · bv_omega
  · bv_omega

lemma merge_good (hg : m.Good) (hr : r.Valid t) (hc : ¬ mappingContiguous m r.physAddr r.virtAddr)
    (hm : Meets m r) (hf : Fits m r) :
    (mappingMerge m r.virtAddr r.length).Good ∧
      (mappingMerge m r.virtAddr r.length).pairs = m.pairs ∪ r.pairs ∧
      (mappingMerge m r.virtAddr r.length).physAddr = m.physAddr := by
  obtain ⟨hv, htop⟩ := hf.2 hc
  obtain ⟨d, hd, hp, hv'⟩ := hm.offset hr hv htop
  have hb := two_pow_bits_le t
  have hbelow : extendBelow m r.virtAddr = m := by
    rw [extendBelow, if_neg (by bv_omega)]
  rw [mappingMerge, hbelow]
  have g3 := hg.virt
  have r3 := hr.virt
  by_cases hgt : r.virtAddr + r.length > m.virt + m.length
  · rw [extendAbove, if_pos hgt]
    obtain ⟨h1, h2⟩ := grow (d := d) (l := r.virtAddr + r.length - m.virt) hg hr hp hv'
      (by omega) (by bv_omega)
    exact ⟨h1, h2, rfl⟩
  · rw [extendAbove, if_neg hgt]
    obtain ⟨h1, h2⟩ := grow (d := d) (l := m.length) hg hr hp hv' (by omega) (by bv_omega)
    exact ⟨h1, h2, rfl⟩

/-! ## one call -/

variable {s : MemoryMappingList t}

lemma scan_cases {A is : List Nat} (hh : s.head = A ++ is) (hA : ∀ a ∈ A, Passes (s.mapping a) r) :
    scan s r is = .create ∨ ∃ i B A', s.head = A' ++ i :: B ∧ (∀ a ∈ A', Passes (s.mapping a) r) ∧
      (scan s r is = .extend i ∧ mappingContiguous (s.mapping i) r.physAddr r.virtAddr ∨
        scan s r is = .merge i ∧ ¬ mappingContiguous (s.mapping i) r.physAddr r.virtAddr ∧
          Meets (s.mapping i) r) := by
  induction is generalizing A with
  | nil => exact .inl rfl
  | cons i is ih =>
    have hnext : Passes (s.mapping i) r → s.head = (A ++ [i]) ++ is ∧
        ∀ a ∈ A ++ [i], Passes (s.mapping a) r := by
      intro hp
      refine ⟨by rw [hh, List.append_assoc, List.singleton_append], ?_⟩
      exact List.forall_mem_append.mpr ⟨hA, List.forall_mem_singleton.mpr hp⟩
    rw [scan]
    by_cases hc : mappingContiguous (s.mapping i) r.physAddr r.virtAddr
    · rw [if_pos hc]
      exact .inr ⟨i, is, A, hh, hA, .inl ⟨rfl, hc⟩⟩
    rw [if_neg hc]
    by_cases hlt : r.physAddr + r.length < (s.mapping i).physAddr
    · rw [if_pos hlt]
      exact .inl rfl
    rw [if_neg hlt]
    by_cases hsame : mappingHaveSameRegion (s.mapping i) r.physAddr r.length
    · rw [if_pos hsame]
      by_cases hconf : mappingConflict (s.mapping i) r.physAddr r.virtAddr
      · rw [if_pos hconf]
        obtain ⟨h1, h2⟩ := hnext ⟨hc, hlt, fun _ => hconf⟩
        exact ih h1 h2
      · rw [if_neg hconf]
        exact .inr ⟨i, is, A, hh, hA, .inr ⟨rfl, hc, hlt, hsame, hconf⟩⟩
    · rw [if_neg hsame]
      obtain ⟨h1, h2⟩ := hnext ⟨hc, hlt, fun k => absurd k hsame⟩
      exact ih h1 h2

/-- **What a call does**: it makes a mapping, or joins the range to its partner. -/
theorem choose_cases (s : MemoryMappingList t) (r : Range) :
    choose s r = .create ∨ ∃ i, Partner s r i ∧
      (choose s r = .extend i ∧ mappingContiguous (s.mapping i) r.physAddr r.virtAddr ∨
        choose s r = .merge i ∧ ¬ mappingContiguous (s.mapping i) r.physAddr r.virtAddr ∧
          Meets (s.mapping i) r) := by
  unfold choose
  by_cases hh : s.head = []
  · rw [if_pos hh]
    exact .inl rfl
  rw [if_neg hh]
  have hscan : (∀ j, s.lastMapping = some j →
      ¬ mappingContiguous (s.mapping j) r.physAddr r.virtAddr) →
      scan s r s.head = .create ∨ ∃ i, Partner s r i ∧
        (scan s r s.head = .extend i ∧ mappingContiguous (s.mapping i) r.physAddr r.virtAddr ∨
          scan s r s.head = .merge i ∧ ¬ mappingContiguous (s.mapping i) r.physAddr r.virtAddr ∧
            Meets (s.mapping i) r) := by
    intro hlast
    rcases scan_cases (s := s) (r := r) (A := []) rfl (by simp) with h | ⟨i, B, A, h1, h2, h3⟩
    · exact .inl h
    · refine .inr ⟨i, .inr ⟨hlast, A, B, h1, h2, ?_⟩, h3⟩
      exact h3.imp (fun h => h.2) (fun h => h.2.2)
  cases hl : s.lastMapping with
  | none => exact hscan fun j hj => by rw [hl] at hj; cases hj
  | some i =>
    by_cases hc : mappingContiguous (s.mapping i) r.physAddr r.virtAddr
    · simp only [if_pos hc]
      exact .inr ⟨i, .inl ⟨hl, hc⟩, .inl ⟨rfl, hc⟩⟩
    · simp only [if_neg hc]
      refine hscan fun j hj => ?_
      rw [hl] at hj
      injection hj with hj
      exact hj ▸ hc

/-! ## the invariant of the list -/

structure Inv (s : MemoryMappingList t) : Prop where
  nodup : s.head.Nodup
  fresh : ∀ i ∈ s.head, i < s.num
  last : ∀ i, s.lastMapping = some i → i ∈ s.head
  sorted : s.Sorted

variable {i : Nat}

lemma Partner.mem (h : Partner s r i) (hs : Inv s) : i ∈ s.head := by
  rcases h with ⟨hl, -⟩ | ⟨-, A, B, hh, -⟩
  · exact hs.last i hl
  · rw [hh]
    exact List.mem_append_right _ List.mem_cons_self

lemma addMappingSorted_perm (mapping : Nat → MemoryMapping t) (x : Nat) (ps : List Nat) :
    (addMappingSorted mapping x ps).Perm (x :: ps) := by
  induction ps with
  | nil => exact .refl _
  | cons p ps ih =>
    rw [addMappingSorted]
    split
    · exact .refl _
    · exact (ih.cons p).trans (.swap x p ps)

lemma addMappingSorted_sorted {mapping : Nat → MemoryMapping t} {ps : List Nat} (x : Nat)
    (h : ps.Pairwise fun i j => (mapping i).physAddr ≤ (mapping j).physAddr) :
    (addMappingSorted mapping x ps).Pairwise fun i j =>
      (mapping i).physAddr ≤ (mapping j).physAddr := by
  induction ps with
  | nil => exact List.pairwise_singleton ..
  | cons p ps ih =>
    obtain ⟨h1, h2⟩ := List.pairwise_cons.mp h
    rw [addMappingSorted]
    split
    · rename_i hge
      refine List.pairwise_cons.mpr ⟨fun q hq => ?_, h⟩
      rcases List.mem_cons.mp hq with rfl | hq
      · exact hge
      · exact BitVec.le_trans hge (h1 q hq)
    · rename_i hlt
      refine List.pairwise_cons.mpr ⟨fun q hq => ?_, ih h2⟩
      rcases List.mem_cons.mp ((addMappingSorted_perm mapping x ps).mem_iff.mp hq) with rfl | hq
      · bv_omega
      · exact h1 q hq

variable {f : MemoryMapping t → MemoryMapping t}

lemma Inv.modify (h : Inv s) (hi : i ∈ s.head) (hf : (f (s.mapping i)).physAddr =
      (s.mapping i).physAddr) : Inv (s.modify i f) := by
  refine ⟨h.nodup, h.fresh, fun j hj => ?_, ?_⟩
  · injection hj with hj
    exact hj ▸ hi
  have hphys : ∀ j, ((s.modify i f).mapping j).physAddr = (s.mapping j).physAddr := by
    intro j
    show (update s.mapping i (f (s.mapping i)) j).physAddr = _
    by_cases hj : j = i
    · rw [hj, update_self, hf]
    · rw [update_of_ne hj]
  show s.head.Pairwise fun a b =>
    ((s.modify i f).mapping a).physAddr ≤ ((s.modify i f).mapping b).physAddr
  simp only [hphys]
  exact h.sorted

lemma create_mapping (h : Inv s) (r : Range)
    (hi : i ∈ s.head) : (createNewMemoryMapping s r).mapping i = s.mapping i :=
  update_of_ne (Nat.ne_of_lt (h.fresh i hi)) _ _

lemma mem_create_head (r : Range) :
    i ∈ (createNewMemoryMapping s r).head ↔ i = s.num ∨ i ∈ s.head :=
  (addMappingSorted_perm _ _ _).mem_iff.trans List.mem_cons

lemma Inv.create (h : Inv s) (r : Range) : Inv (createNewMemoryMapping s r) := by
  have hperm := addMappingSorted_perm (createNewMemoryMapping s r).mapping s.num s.head
  refine ⟨?_, fun i hi => ?_, fun i hi => ?_, ?_⟩
  · refine hperm.nodup_iff.mpr (List.nodup_cons.mpr ⟨fun hn => ?_, h.nodup⟩)
    exact Nat.lt_irrefl _ (h.fresh _ hn)
  · show i < s.num + 1
    rcases (mem_create_head r).mp hi with rfl | hi
    · exact Nat.lt_succ_self _
    · exact Nat.lt_succ_of_lt (h.fresh i hi)
  · injection hi with hi
    exact (mem_create_head r).mpr (.inl hi.symm)
  · refine addMappingSorted_sorted _ (h.sorted.imp_of_mem fun {a b} ha hb hab => ?_)
    have hold := fun i hi => create_mapping h r (i := i) hi
    rw [hold a ha, hold b hb]
    exact hab

lemma merge_physAddr (m : MemoryMapping t) (v l : BitVec 64) :
    (mappingMerge m v l).physAddr = m.physAddr := by
  have h1 : ∀ m : MemoryMapping t, (extendAbove m v l).physAddr = m.physAddr := by
    intro m
    unfold extendAbove
    split <;> rfl
  rw [mappingMerge, h1]
  unfold extendBelow
  split <;> rfl

lemma Inv.add (h : Inv s) (r : Range) : Inv (memoryMappingListAddMergeSorted s r) := by
  unfold memoryMappingListAddMergeSorted
  rcases choose_cases s r with hc | ⟨i, hp, ⟨hc, -⟩ | ⟨hc, -, -⟩⟩
  · rw [hc]
    exact h.create r
  · rw [hc]
    exact h.modify (hp.mem h) rfl
  · rw [hc]
    exact h.modify (hp.mem h) (merge_physAddr _ _ _)

/-! ## the pairs -/

lemma pairs_modify (hi : i ∈ s.head) {R : Set (Nat × Nat)}
    (hf : (f (s.mapping i)).pairs = (s.mapping i).pairs ∪ R) :
    (s.modify i f).pairs = s.pairs ∪ R := by
  have hself : (s.modify i f).mapping i = f (s.mapping i) := update_self ..
  have hother : ∀ j, j ≠ i → (s.modify i f).mapping j = s.mapping j :=
    fun j hj => update_of_ne hj ..
  ext x
  constructor
  · rintro ⟨j, hj, hx⟩
    by_cases hji : j = i
    · rw [hji, hself, hf] at hx
      exact hx.imp (fun hx => ⟨i, hi, hx⟩) id
    · rw [hother j hji] at hx
      exact .inl ⟨j, hj, hx⟩
  · rintro (⟨j, hj, hx⟩ | hx)
    · refine ⟨j, hj, ?_⟩
      by_cases hji : j = i
      · rw [hji, hself, hf]
        exact .inl (hji ▸ hx)
      · rwa [hother j hji]
    · refine ⟨i, hi, ?_⟩
      rw [hself, hf]
      exact .inr hx

lemma create_new (hr : r.Valid t) :
    ((createNewMemoryMapping s r).mapping s.num).Good ∧
      ((createNewMemoryMapping s r).mapping s.num).pairs = r.pairs := by
  have hself : (createNewMemoryMapping s r).mapping s.num =
      ⟨r.physAddr, r.virtAddr.setWidth _, r.length⟩ := update_self ..
  have hpos := hr.pos
  have hvirt := hr.virt
  have hv : (MemoryMapping.mk (t := t) r.physAddr (r.virtAddr.setWidth _) r.length).virt =
      r.virtAddr := virt_of_lt (by omega)
  rw [hself]
  refine ⟨⟨hr.pos, hr.phys, ?_⟩, ?_⟩
  · rw [hv]
    exact hr.virt
  · rw [MemoryMapping.pairs, hv]
    rfl

lemma pairs_create (h : Inv s) (hr : r.Valid t) :
    (createNewMemoryMapping s r).pairs = s.pairs ∪ r.pairs := by
  ext x
  constructor
  · rintro ⟨j, hj, hx⟩
    rcases (mem_create_head r).mp hj with rfl | hj
    · rw [(create_new hr).2] at hx
      exact .inr hx
    · rw [create_mapping h r hj] at hx
      exact .inl ⟨j, hj, hx⟩
  · rintro (⟨j, hj, hx⟩ | hx)
    · refine ⟨j, (mem_create_head r).mpr (.inr hj), ?_⟩
      rwa [create_mapping h r hj]
    · refine ⟨s.num, (mem_create_head r).mpr (.inl rfl), ?_⟩
      rwa [(create_new hr).2]

def AllGood (s : MemoryMappingList t) : Prop := ∀ i ∈ s.head, (s.mapping i).Good

lemma AllGood.modify (h : AllGood s) (hf : (f (s.mapping i)).Good) : AllGood (s.modify i f) := by
  intro j hj
  by_cases hji : j = i
  · rw [hji, show (s.modify i f).mapping i = f (s.mapping i) from update_self ..]
    exact hf
  · rw [show (s.modify i f).mapping j = s.mapping j from update_of_ne hji ..]
    exact h j hj

def Clean (s : MemoryMappingList t) (r : Range) : Prop := ∀ i, Partner s r i → Fits (s.mapping i) r

lemma add_exact (h : Inv s) (hg : AllGood s) (hr : r.Valid t)
    (hc : Clean s r) : AllGood (memoryMappingListAddMergeSorted s r) ∧
      (memoryMappingListAddMergeSorted s r).pairs = s.pairs ∪ r.pairs := by
  unfold memoryMappingListAddMergeSorted
  rcases choose_cases s r with hch | ⟨i, hp, ⟨hch, hcont⟩ | ⟨hch, hcont, hm⟩⟩
  · rw [hch]
    refine ⟨fun i hi => ?_, pairs_create h hr⟩
    rcases (mem_create_head r).mp hi with rfl | hi
    · exact (create_new hr).1
    · rw [create_mapping h r hi]
      exact hg i hi
  · rw [hch]
    obtain ⟨h1, h2⟩ := extend_good (hg i (hp.mem h)) hr hcont (hc i hp)
    exact ⟨hg.modify h1, pairs_modify (hp.mem h) h2⟩
  · rw [hch]
    obtain ⟨h1, h2, -⟩ := merge_good (hg i (hp.mem h)) hr hcont hm (hc i hp)
    exact ⟨hg.modify h1, pairs_modify (hp.mem h) h2⟩

/-! ## runs -/

/-- the lists reached by calls with valid ranges, each of which meets the condition `Q` -/
inductive Reached (t : Target) (Q : MemoryMappingList t → Range → Prop) :
    List Range → MemoryMappingList t → Prop
  | init (garbage : Nat → MemoryMapping t) : Reached t Q [] (memoryMappingListInit garbage)
  | add {rs : List Range} {s : MemoryMappingList t} {r : Range} (h : Reached t Q rs s)
      (hr : r.Valid t) (hq : Q s r) :
      Reached t Q (rs ++ [r]) (memoryMappingListAddMergeSorted s r)

variable {rs : List Range}

lemma Reached.inv {Q : MemoryMappingList t → Range → Prop} (h : Reached t Q rs s) : Inv s := by
  induction h with
  | init garbage => exact ⟨List.nodup_nil, by simp [memoryMappingListInit],
      by simp [memoryMappingListInit], List.Pairwise.nil⟩
  | add h hr hq ih => exact ih.add _

lemma Reached.exact (h : Reached t Clean rs s) :
    AllGood s ∧ s.pairs = {x | ∃ r ∈ rs, x ∈ r.pairs} := by
  induction h with
  | init garbage =>
    refine ⟨by simp [AllGood, memoryMappingListInit], ?_⟩
    simp [MemoryMappingList.pairs, memoryMappingListInit]
  | @add rs s r h hr hq ih =>
    obtain ⟨h1, h2⟩ := add_exact h.inv ih.1 hr hq
    refine ⟨h1, ?_⟩
    rw [h2, ih.2]
    ext x
    constructor
    · rintro (⟨r', hr', hx⟩ | hx)
      · exact ⟨r', List.mem_append_left _ hr', hx⟩
      · exact ⟨r, List.mem_append_right _ List.mem_cons_self, hx⟩
    · rintro ⟨r', hr', hx⟩
      rcases List.mem_append.mp hr' with hr' | hr'
      · exact .inl ⟨r', hr', hx⟩
      · rw [List.mem_singleton.mp hr'] at hx
        exact .inr hx

/-- **The list stays sorted whatever the calls; when every range fits the mapping it is joined to,
the list holds exactly the pairs of the calls so far.** -/
theorem mappings_exact (t : Target) (rs : List Range) (s : MemoryMappingList t) :
    (Reached t (fun _ _ => True) rs s → s.Sorted) ∧
      (Reached t Clean rs s → s.Sorted ∧ s.pairs = {x | ∃ r ∈ rs, x ∈ r.pairs}) :=
  ⟨fun h => h.inv.sorted, fun h => ⟨h.inv.sorted, h.exact.2⟩⟩

instance (t : Target) (r : Range) : Decidable (r.Valid t) :=
  decidable_of_iff (0 < r.length.toNat ∧ r.physAddr.toNat + r.length.toNat ≤ 2 ^ 64 ∧
      r.virtAddr.toNat + r.length.toNat ≤ 2 ^ t.bits)
    ⟨fun h => ⟨h.1, h.2.1, h.2.2⟩, fun h => ⟨h.pos, h.phys, h.virt⟩⟩

lemma Reached.add_of_fits (h : Reached t Clean rs s) (hr : r.Valid t)
    (hf : ∀ i ∈ s.head, Fits (s.mapping i) r) :
    Reached t Clean (rs ++ [r]) (memoryMappingListAddMergeSorted s r) :=
  h.add hr fun i hp => hf i (hp.mem h.inv)

def noMappings : MemoryMappingList .x86_64 := memoryMappingListInit fun _ => ⟨0, 0, 0⟩

/-- a page, a half that continues it, a range that overlaps the half, and one apart -/
def upwards : List Range := [⟨0x1000, 0x1000, 0x1000⟩, ⟨0x2000, 0x2000, 0x800⟩,
  ⟨0x2400, 0x2400, 0x1000⟩, ⟨0x8000, 0x9000, 0x100⟩]

theorem mappings_exact_upwards : ∃ s, upwards.foldl memoryMappingListAddMergeSorted noMappings = s ∧
    s.head.length = 2 ∧ s.Sorted ∧ s.pairs = {x | ∃ r ∈ upwards, x ∈ r.pairs} := by
  have h1 : Reached .x86_64 Clean [] noMappings := .init _
  have h2 := h1.add_of_fits (r := ⟨0x1000, 0x1000, 0x1000⟩) (by decide) (by decide)
  have h3 := h2.add_of_fits (r := ⟨0x2000, 0x2000, 0x800⟩) (by decide) (by decide)
  have h4 := h3.add_of_fits (r := ⟨0x2400, 0x2400, 0x1000⟩) (by decide) (by decide)
  have h5 := h4.add_of_fits (r := ⟨0x8000, 0x9000, 0x100⟩) (by decide) (by decide)
  exact ⟨_, rfl, by decide, (mappings_exact .x86_64 upwards _).2 h5⟩

/-- a page and then the one below it -/
def downwards : List Range := [⟨0x2000, 0x2000, 0x1000⟩, ⟨0x1000, 0x1000, 0x1000⟩]

/-- the joined mapping starts at the old physical and the new virtual address: a pair that no call
gave, and the first pair of the second call is lost -/
theorem merge_below : ∃ s, Reached .x86_64 (fun _ _ => True) downwards s ∧
    (0x2000, 0x1000) ∈ s.pairs ∧ (∀ r ∈ downwards, (0x2000, 0x1000) ∉ r.pairs) ∧
    (0x1000, 0x1000) ∉ s.pairs := by
  have h1 : Reached .x86_64 (fun _ _ => True) [] noMappings := .init _
  have h2 := h1.add (r := ⟨0x2000, 0x2000, 0x1000⟩) (by decide) trivial
  have h3 := h2.add (r := ⟨0x1000, 0x1000, 0x1000⟩) (by decide) trivial
  refine ⟨_, h3, ⟨0, by decide, 0, by decide, rfl⟩, ?_, ?_⟩
  · rintro r hr ⟨i, -, hi⟩
    have hr' : r = ⟨0x2000, 0x2000, 0x1000⟩ ∨ r = ⟨0x1000, 0x1000, 0x1000⟩ := by
      simpa [downwards] using hr
    obtain ⟨h4, h5⟩ := Prod.mk.inj hi
    rcases hr' with rfl | rfl
    · have e1 : 0x2000 = 0x2000 + i := h4
      have e2 : 0x1000 = 0x2000 + i := h5
      omega
    · have e1 : 0x2000 = 0x1000 + i := h4
      have e2 : 0x1000 = 0x1000 + i := h5
      omega
  · rintro ⟨j, hj, i, -, hi⟩
    have hj' : j = 0 := by
      have hh : j ∈ [0] := hj
      simpa using hh
    subst hj'
    have h4 : 0x1000 = 0x2000 + i := (Prod.mk.inj hi).1
    omega

end
end Mapping
