import Mathlib
import TraceSyscallObj.Lib.Checked

/-!
# The tree of physical pages

Model of `phys_page_set` and `phys_page_find` of `exec.c`.  The nodes are an array of tables of
`L2_SIZE` entries; an entry is a leaf with a section, or names the node below it.  A leaf may stand
on any level and is then the section of all pages below.

* `physPageSet`, `physPageFind`: the code;
* `Own`: the nodes below an entry are a tree, in a given set of nodes;
* `setLevel_spec`: the pages of a free run get the leaf, all others keep theirs, and the run takes
  at most two new nodes on each level.
-/

namespace Phys
open Function

/-- `1 << L2_BITS` -/
def l2Size : Nat := 1024

/-- `PHYS_MAP_NODE_NIL` -/
def nodeNil : Nat := 32767

/-- `PHYS_SECTION_UNASSIGNED` -/
def sectionUnassigned : Nat := 0

inductive Fault
  | assertion
  /-- the assertion in `phys_section_add` that the number of sections is less than a page -/
  | sectionsFull
  /-- `phys_page_set_level` with level -1 -/
  | level
  /-- an index outside of `sections` or a table outside of the subpages -/
  | wild
  | fuel
  deriving DecidableEq

structure PhysPageEntry where
  isLeaf : Bool
  ptr : Nat
  deriving DecidableEq

/-- the nodes of `next_map` -/
structure NodeMap where
  nodesNb : Nat
  nodesNbAlloc : Nat
  nodes : Nat → Nat → PhysPageEntry

def physMapNodeReserve (nodes : Nat) (map : NodeMap) : NodeMap :=
  if map.nodesNb + nodes > map.nodesNbAlloc then
    { map with nodesNbAlloc := max (max (map.nodesNbAlloc * 2) 16) (map.nodesNb + nodes) }
  else map

def NodeMap.fill (map : NodeMap) (n : Nat) (e : PhysPageEntry) : NodeMap :=
  { map with nodes := update map.nodes n fun _ => e }

def NodeMap.write (map : NodeMap) (n i : Nat) (e : PhysPageEntry) : NodeMap :=
  { map with nodes := update map.nodes n (update (map.nodes n) i e) }

def physMapNodeAlloc (map : NodeMap) : Except Fault (Nat × NodeMap) :=
  let ret := map.nodesNb
  let map := { map with nodesNb := map.nodesNb + 1 }
  if ret = nodeNil then .error .assertion
  else if ret = map.nodesNbAlloc then .error .assertion
  else .ok (ret, map.fill ret ⟨false, nodeNil⟩)

/-! ## setting pages -/

/-- `*index` and `*nb` with the nodes -/
structure SetState where
  map : NodeMap
  index : Nat
  nb : Nat

/-- the loop over the entries of the node `ptr` from `slot` on; `n` are left -/
def setSlots (descend : PhysPageEntry → SetState → Except Fault (PhysPageEntry × SetState))
    (leaf step ptr : Nat) : Nat → Nat → SetState → Except Fault SetState
  | 0, _, s => .ok s
  | n + 1, slot, s =>
    if s.nb = 0 then .ok s
    else if s.index % step = 0 ∧ s.nb ≥ step then
      setSlots descend leaf step ptr n (slot + 1)
        { map := s.map.write ptr slot ⟨true, leaf⟩, index := s.index + step, nb := s.nb - step }
    else do
      let (lp, s) ← descend (s.map.nodes ptr slot) s
      setSlots descend leaf step ptr n (slot + 1) { s with map := s.map.write ptr slot lp }

def ensureNode (level : Nat) (lp : PhysPageEntry) (map : NodeMap) :
    Except Fault (PhysPageEntry × NodeMap) :=
  if lp.isLeaf = false ∧ lp.ptr = nodeNil then do
    let (ret, map) ← physMapNodeAlloc map
    return ({ lp with ptr := ret },
      if level = 0 then map.fill ret ⟨true, sectionUnassigned⟩ else map)
  else return (lp, map)

def setBelow (descend : PhysPageEntry → SetState → Except Fault (PhysPageEntry × SetState))
    (leaf level : Nat) (lp : PhysPageEntry) (s : SetState) :
    Except Fault (PhysPageEntry × SetState) := do
  let (lp, map) ← ensureNode level lp s.map
  let slot := s.index / l2Size ^ level % l2Size
  let s ← setSlots descend leaf (l2Size ^ level) lp.ptr (l2Size - slot) slot { s with map := map }
  return (lp, s)

def physPageSetLevel (leaf : Nat) :
    Nat → PhysPageEntry → SetState → Except Fault (PhysPageEntry × SetState)
  | 0 => setBelow (fun _ _ => .error .level) leaf 0
  | level + 1 => setBelow (physPageSetLevel leaf level) leaf (level + 1)

/-- `levels` is `P_L2_LEVELS`; the result is the new `d->phys_map` -/
def physPageSet (levels : Nat) (root : PhysPageEntry) (index nb leaf : Nat) (map : NodeMap) :
    Except Fault (PhysPageEntry × NodeMap) := do
  let map := physMapNodeReserve (3 * levels) map
  let (root, s) ← physPageSetLevel leaf (levels - 1) root { map := map, index := index, nb := nb }
  return (root, s.map)

/-- the number of the section of a page, below an entry on the given level -/
def physPageFind (nodes : Nat → Nat → PhysPageEntry) : Nat → PhysPageEntry → Nat → Nat
  | 0, lp, _ => lp.ptr
  | i + 1, lp, index =>
    if lp.isLeaf then lp.ptr
    else if lp.ptr = nodeNil then sectionUnassigned
    else physPageFind nodes i (nodes lp.ptr (index / l2Size ^ i % l2Size)) index

/-! ## trees of nodes -/

/-- the entries of the node `p` own disjoint sets of nodes in `fp` -/
structure Children (own : PhysPageEntry → Set Nat → Prop) (entries : Nat → PhysPageEntry)
    (p : Nat) (fp : Set Nat) (fps : Nat → Set Nat) : Prop where
  mem : p ∈ fp
  each : ∀ i < l2Size, own (entries i) (fps i)
  subset : ∀ i < l2Size, fps i ⊆ fp
  notMem : ∀ i < l2Size, p ∉ fps i
  apart : ∀ i < l2Size, ∀ j < l2Size, i ≠ j → Disjoint (fps i) (fps j)

/-- the nodes below the entry are a tree of the nodes in `fp`; on the lowest level there are only
leaves, and a higher leaf has a section -/
def Own (nodes : Nat → Nat → PhysPageEntry) : Nat → PhysPageEntry → Set Nat → Prop
  | 0, e, _ => e.isLeaf = true
  | k + 1, e, fp =>
    (e.isLeaf = true ∧ e.ptr ≠ sectionUnassigned) ∨ (e.isLeaf = false ∧ e.ptr = nodeNil) ∨
      (e.isLeaf = false ∧ e.ptr ≠ nodeNil ∧
        ∃ fps, Children (Own nodes k) (nodes e.ptr) e.ptr fp fps)

variable {e : PhysPageEntry} {k : Nat} {fp : Set Nat}

section
variable {nodes nodes' : Nat → Nat → PhysPageEntry}

lemma Own.congr : ∀ {e : PhysPageEntry} {fp : Set Nat}, Own nodes k e fp →
    (∀ n ∈ fp, nodes' n = nodes n) → Own nodes' k e fp := by
  induction k with
  | zero =>
    intro e fp h _
    exact h
  | succ k ih =>
    intro e fp h heq
    rcases h with h | h | ⟨h1, h2, fps, hc⟩
    · exact .inl h
    · exact .inr (.inl h)
    · refine .inr (.inr ⟨h1, h2, fps, hc.mem, fun i hi => ?_, hc.subset, hc.notMem, hc.apart⟩)
      rw [heq e.ptr hc.mem]
      exact ih (hc.each i hi) fun n hn => heq n (hc.subset i hi hn)

lemma find_leaf (h : e.isLeaf = true) (j : Nat) : physPageFind nodes k e j = e.ptr := by
  cases k with
  | zero => rfl
  | succ k => rw [physPageFind, if_pos h]

lemma find_nil (h1 : e.isLeaf = false) (h2 : e.ptr = nodeNil)
    (j : Nat) : physPageFind nodes (k + 1) e j = sectionUnassigned := by
  rw [physPageFind, if_neg (by rw [h1]; exact Bool.false_ne_true), if_pos h2]

lemma find_node (h1 : e.isLeaf = false) (h2 : e.ptr ≠ nodeNil)
    (j : Nat) : physPageFind nodes (k + 1) e j =
      physPageFind nodes k (nodes e.ptr (j / l2Size ^ k % l2Size)) j := by
  rw [physPageFind, if_neg (by rw [h1]; exact Bool.false_ne_true), if_neg h2]

lemma find_mod {n : Nat} (hk : k ≤ n) (j : Nat) :
    physPageFind nodes k e (j % l2Size ^ n) = physPageFind nodes k e j := by
  induction k generalizing e with
  | zero => rfl
  | succ k ih =>
    have hdigit : j % l2Size ^ n / l2Size ^ k % l2Size = j / l2Size ^ k % l2Size := by
      obtain ⟨i, rfl⟩ := Nat.exists_eq_add_of_lt hk
      rw [Nat.add_assoc, Nat.pow_add, Nat.mod_mul_right_div_self]
      exact Nat.mod_mod_of_dvd _ (dvd_pow_self _ (Nat.succ_ne_zero i))
    rw [physPageFind, physPageFind, hdigit, ih (Nat.le_of_succ_le hk)]

lemma find_congr : ∀ {e : PhysPageEntry} {fp : Set Nat}, Own nodes k e fp →
    (∀ n ∈ fp, nodes' n = nodes n) → ∀ j, physPageFind nodes' k e j = physPageFind nodes k e j := by
  induction k with
  | zero =>
    intro e fp _ _ j
    rfl
  | succ k ih =>
    intro e fp h heq j
    rcases h with h | h | ⟨h1, h2, fps, hc⟩
    · rw [find_leaf h.1, find_leaf h.1]
    · rw [find_nil h.1 h.2, find_nil h.1 h.2]
    · rw [find_node h1 h2, find_node h1 h2, heq e.ptr hc.mem]
      have hi : j / l2Size ^ k % l2Size < l2Size := Nat.mod_lt _ (by decide)
      exact ih (hc.each _ hi) (fun n hn => heq n (hc.subset _ hi hn)) j

end

/-! ## one entry of a node -/

variable {i : Nat}

section
variable {map map₁ : NodeMap} {p slot : Nat} {fps : Nat → Set Nat}
  {e : PhysPageEntry}

lemma write_self (i : Nat) : (map.write p slot e).nodes p i =
    if i = slot then e else map.nodes p i := by
  show update map.nodes p _ p i = _
  rw [update_self, update_apply]

lemma write_other {n : Nat} (h : n ≠ p) : (map.write p slot e).nodes n = map.nodes n :=
  update_of_ne h _ _

variable (hc : Children (Own map.nodes k) (map.nodes p) p fp fps) (hslot : slot < l2Size)
  (hfp : ∀ n ∈ fp, n < map.nodesNb)
  (hframe : ∀ n, n ∉ fps slot → n < map.nodesNb → map₁.nodes n = map.nodes n)
include hc hslot hfp hframe

lemma Children.other (hi : i < l2Size) (hne : i ≠ slot) : ∀ n ∈ fps i,
    (map₁.write p slot e).nodes n = map.nodes n := by
  intro n hn
  have hnp : n ≠ p := fun h => hc.notMem i hi (h ▸ hn)
  rw [write_other hnp]
  exact hframe n (Set.disjoint_left.mp (hc.apart i hi slot hslot hne) hn)
    (hfp n (hc.subset i hi hn))

lemma Children.entry (hne : i ≠ slot) : (map₁.write p slot e).nodes p i = map.nodes p i := by
  rw [write_self, if_neg hne, hframe p (hc.notMem slot hslot) (hfp p hc.mem)]

/-- **one entry has changed, with the nodes below it** -/
theorem Children.write (he : Own map₁.nodes k e (fps slot ∪ Set.Ico map.nodesNb map₁.nodesNb)) :
    Children (Own (map₁.write p slot e).nodes k) ((map₁.write p slot e).nodes p) p
      (fp ∪ Set.Ico map.nodesNb map₁.nodesNb)
      (update fps slot (fps slot ∪ Set.Ico map.nodesNb map₁.nodesNb)) := by
  have hp : p < map.nodesNb := hfp p hc.mem
  have hnew : ∀ i < l2Size, Disjoint (fps i) (Set.Ico map.nodesNb map₁.nodesNb) := by
    intro i hi
    rw [Set.disjoint_left]
    intro n hn hn'
    exact absurd hn'.1 (Nat.not_le.mpr (hfp n (hc.subset i hi hn)))
  have hpnew : p ∉ fps slot ∪ Set.Ico map.nodesNb map₁.nodesNb := by
    rintro (h | h)
    · exact hc.notMem slot hslot h
    · exact absurd h.1 (Nat.not_le.mpr hp)
  refine ⟨.inl hc.mem, fun i hi => ?_, fun i hi => ?_, fun i hi => ?_, fun i hi j hj hij => ?_⟩
  · by_cases hne : i = slot
    · subst hne
      rw [write_self, if_pos rfl, update_self]
      exact he.congr fun n hn => write_other fun h => hpnew (h ▸ hn)
    · rw [hc.entry hslot hfp hframe hne, update_of_ne hne]
      exact (hc.each i hi).congr (hc.other hslot hfp hframe hi hne)
  · by_cases hne : i = slot
    · subst hne
      rw [update_self]
      exact Set.union_subset_union_left _ (hc.subset i hi)
    · rw [update_of_ne hne]
      exact (hc.subset i hi).trans Set.subset_union_left
  · by_cases hne : i = slot
    · subst hne
      rw [update_self]
      exact hpnew
    · rw [update_of_ne hne]
      exact hc.notMem i hi
  · by_cases hi' : i = slot
    · subst hi'
      rw [update_self, update_of_ne (Ne.symm hij), Set.disjoint_union_left]
      exact ⟨hc.apart i hi j hj hij, (hnew j hj).symm⟩
    rw [update_of_ne hi']
    by_cases hj' : j = slot
    · subst hj'
      rw [update_self, Set.disjoint_union_right]
      exact ⟨hc.apart i hi j hj hij, hnew i hi⟩
    · rw [update_of_ne hj']
      exact hc.apart i hi j hj hij

lemma Children.find_other (hi : i < l2Size) (hne : i ≠ slot) (j : Nat) :
    physPageFind (map₁.write p slot e).nodes k ((map₁.write p slot e).nodes p i) j =
      physPageFind map.nodes k (map.nodes p i) j := by
  rw [hc.entry hslot hfp hframe hne]
  exact find_congr (hc.each i hi) (hc.other hslot hfp hframe hi hne) j

omit hframe in
lemma Children.find_self (he : Own map₁.nodes k e (fps slot ∪ Set.Ico map.nodesNb map₁.nodesNb))
    (j : Nat) : physPageFind (map₁.write p slot e).nodes k ((map₁.write p slot e).nodes p slot) j =
      physPageFind map₁.nodes k e j := by
  rw [write_self, if_pos rfl]
  refine find_congr he (fun n hn => write_other ?_) j
  rintro rfl
  rcases hn with h | h
  · exact hc.notMem slot hslot h
  · exact absurd h.1 (Nat.not_le.mpr (hfp _ hc.mem))

end

/-! ## runs of pages -/

def SetState.Has (s : SetState) (j : Nat) : Prop := s.index ≤ j ∧ j < s.index + s.nb

instance (s : SetState) (j : Nat) : Decidable (s.Has j) := inferInstanceAs (Decidable (_ ∧ _))

def fresh (s s' : SetState) : Set Nat := Set.Ico s.map.nodesNb s'.map.nodesNb

/-- what setting pages may do to the rest -/
structure Grows (fp : Set Nat) (s s' : SetState) : Prop where
  alloc : s'.map.nodesNbAlloc = s.map.nodesNbAlloc
  le : s.map.nodesNb ≤ s'.map.nodesNb
  frame : ∀ n, n ∉ fp → n < s.map.nodesNb → s'.map.nodes n = s.map.nodes n
  total : s'.index + s'.nb = s.index + s.nb

lemma Grows.refl (fp : Set Nat) (s : SetState) : Grows fp s s :=
  ⟨rfl, Nat.le_refl _, fun _ _ _ => rfl, rfl⟩

lemma Grows.trans {s s₁ s₂ : SetState} (h₁ : Grows fp s s₁)
    (h₂ : Grows (fp ∪ fresh s s₁) s₁ s₂) : Grows fp s s₂ := by
  refine ⟨h₂.alloc.trans h₁.alloc, h₁.le.trans h₂.le, fun n hn hlt => ?_, h₂.total.trans h₁.total⟩
  rw [h₂.frame n ?_ (Nat.lt_of_lt_of_le hlt h₁.le), h₁.frame n hn hlt]
  rintro (h | h)
  · exact hn h
  · exact absurd h.1 (Nat.not_le.mpr hlt)

lemma fresh_trans {s s₁ s₂ : SetState} (h₁ : s.map.nodesNb ≤ s₁.map.nodesNb)
    (h₂ : s₁.map.nodesNb ≤ s₂.map.nodesNb) : fresh s s₁ ∪ fresh s₁ s₂ = fresh s s₂ :=
  Set.Ico_union_Ico_eq_Ico h₁ h₂

/-- the new nodes for the pages up to `stop`: one on each lower level where the run begins, and one
where it ends -/
def slotCost (level step stop : Nat) (s : SetState) : Nat :=
  if s.nb = 0 then 0
  else (if s.index % step = 0 then 0 else level) + if s.index + s.nb < stop then level else 0

/-- the new nodes below a node for the block `q` -/
def nodeCost (level q : Nat) (s : SetState) : Nat :=
  slotCost level (l2Size ^ level) ((q * l2Size + l2Size) * l2Size ^ level) s

def Room (s : SetState) (cost : Nat) : Prop :=
  s.map.nodesNb + cost ≤ s.map.nodesNbAlloc ∧ s.map.nodesNb + cost ≤ nodeNil

/-- the pages of the block `q` of an entry with `k` levels below it have been set -/
structure EntrySet (leaf k q : Nat) (e : PhysPageEntry) (fp : Set Nat) (s : SetState)
    (e' : PhysPageEntry) (s' : SetState) : Prop where
  grows : Grows fp s s'
  own : Own s'.map.nodes k e' (fp ∪ fresh s s')
  find : ∀ j, j / l2Size ^ k = q → physPageFind s'.map.nodes k e' j =
    if s.Has j then leaf else physPageFind s.map.nodes k e j
  stop : s'.index ≤ (q + 1) * l2Size ^ k ∧ (s'.nb = 0 ∨ s'.index = (q + 1) * l2Size ^ k)

/-- `descend` sets the pages of a block on the level above `level` -/
def Sets (leaf level : Nat)
    (descend : PhysPageEntry → SetState → Except Fault (PhysPageEntry × SetState)) : Prop :=
  ∀ (e : PhysPageEntry) (s : SetState) (fp : Set Nat) (q : Nat), Own s.map.nodes (level + 1) e fp →
    (∀ n ∈ fp, n < s.map.nodesNb) → 0 < s.nb → s.index / l2Size ^ (level + 1) = q →
    (∀ j, j / l2Size ^ (level + 1) = q → s.Has j →
      physPageFind s.map.nodes (level + 1) e j = sectionUnassigned) →
    Room s (1 + slotCost level (l2Size ^ level) ((q + 1) * l2Size ^ (level + 1)) s) →
    ∃ e' s', descend e s = .ok (e', s') ∧ EntrySet leaf (level + 1) q e fp s e' s' ∧
      s'.map.nodesNb ≤ s.map.nodesNb +
        (1 + slotCost level (l2Size ^ level) ((q + 1) * l2Size ^ (level + 1)) s)

/-- the entries of the node `ptr` for the block `q` have been set -/
structure SlotsSet (leaf level ptr q : Nat) (fp : Set Nat) (s s' : SetState) : Prop where
  grows : Grows fp s s'
  children : ∃ fps, Children (Own s'.map.nodes level) (s'.map.nodes ptr) ptr (fp ∪ fresh s s') fps
  find : ∀ i < l2Size, ∀ j, j / l2Size ^ level = q * l2Size + i →
    physPageFind s'.map.nodes level (s'.map.nodes ptr i) j =
      if s.Has j then leaf else physPageFind s.map.nodes level (s.map.nodes ptr i) j
  stop : s'.index ≤ (q * l2Size + l2Size) * l2Size ^ level ∧
    (s'.nb = 0 ∨ s'.index = (q * l2Size + l2Size) * l2Size ^ level)

variable {t j : Nat}

lemma block_bounds {step : Nat} (hstep : 0 < step) (h : j / step = t) :
    t * step ≤ j ∧ j < t * step + step := by
  have h1 := Nat.div_mul_le_self j step
  have h2 := Nat.lt_div_mul_add hstep (a := j)
  rw [h] at h1 h2
  exact ⟨h1, h2⟩

lemma has_next {step u : Nat} {s s₁ : SetState} (hstep : 0 < step) (ht : s.index / step = t)
    (htotal : s₁.index + s₁.nb = s.index + s.nb) (hle : s₁.index ≤ (t + 1) * step)
    (hstop : s₁.nb = 0 ∨ s₁.index = (t + 1) * step) (hj : j / step = u) :
    s₁.Has j ↔ s.Has j ∧ u ≠ t := by
  obtain ⟨h1, h2⟩ := block_bounds hstep ht
  obtain ⟨j1, j2⟩ := block_bounds hstep hj
  rw [Nat.succ_mul] at hle hstop
  unfold SetState.Has
  rcases Nat.lt_trichotomy u t with hlt | heq | hgt
  · have hmul := Nat.mul_le_mul_right step (Nat.succ_le_of_lt hlt)
    rw [Nat.succ_mul] at hmul
    omega
  · subst heq
    omega
  · have hmul := Nat.mul_le_mul_right step (Nat.succ_le_of_lt hgt)
    rw [Nat.succ_mul] at hmul
    omega

section
variable {leaf level ptr q slot : Nat} {s s₁ s' : SetState}

lemma SlotsSet.cons (hg : Grows fp s s₁)
    (hhas : ∀ i j, j / l2Size ^ level = q * l2Size + i → (s₁.Has j ↔ s.Has j ∧ i ≠ slot))
    (hfind : ∀ i < l2Size, ∀ j, j / l2Size ^ level = q * l2Size + i →
      physPageFind s₁.map.nodes level (s₁.map.nodes ptr i) j =
        if s.Has j ∧ i = slot then leaf else physPageFind s.map.nodes level (s.map.nodes ptr i) j)
    (h : SlotsSet leaf level ptr q (fp ∪ fresh s s₁) s₁ s') :
    SlotsSet leaf level ptr q fp s s' := by
  refine ⟨hg.trans h.grows, ?_, fun i hi j hj => ?_, h.stop⟩
  · have hc := h.children
    rw [Set.union_assoc, fresh_trans hg.le h.grows.le] at hc
    exact hc
  rw [h.find i hi j hj, hfind i hi j hj]
  have hiff := hhas i j hj
  by_cases hs : s.Has j
  · by_cases heq : i = slot
    · rw [if_neg (fun h => (hiff.mp h).2 heq), if_pos ⟨hs, heq⟩, if_pos hs]
    · rw [if_pos (hiff.mpr ⟨hs, heq⟩), if_pos hs]
  · rw [if_neg (fun h => hs (hiff.mp h).1), if_neg (fun h => hs h.1), if_neg hs]

lemma SlotsSet.done {fps : Nat → Set Nat}
    (hc : Children (Own s.map.nodes level) (s.map.nodes ptr) ptr fp fps)
    (hle : s.index ≤ (q * l2Size + l2Size) * l2Size ^ level)
    (hstop : s.nb = 0 ∨ s.index = (q * l2Size + l2Size) * l2Size ^ level) :
    SlotsSet leaf level ptr q fp s s := by
  have hfresh : fp ∪ fresh s s = fp := by
    unfold fresh
    rw [Set.Ico_self, Set.union_empty]
  refine ⟨.refl fp s, ⟨fps, by rw [hfresh]; exact hc⟩, fun i hi j hj => ?_, hle, hstop⟩
  rw [if_neg]
  rintro ⟨h1, h2⟩
  obtain ⟨-, j2⟩ := block_bounds (Nat.pow_pos (by decide)) hj
  have hmul : (q * l2Size + i) * l2Size ^ level + l2Size ^ level ≤
      (q * l2Size + l2Size) * l2Size ^ level := by
    rw [← Nat.succ_mul]
    exact Nat.mul_le_mul_right _ (by omega)
  rcases hstop with hstop | hstop
  · omega
  · omega

end

lemma slotCost_descend {l stop : Nat} (s s₀ : SetState) (ht : s.index / l2Size ^ (l + 1) = t)
    (hnb : 0 < s.nb) (hnot : ¬ (s.index % l2Size ^ (l + 1) = 0 ∧ s.nb ≥ l2Size ^ (l + 1)))
    (hblock : (t + 1) * l2Size ^ (l + 1) ≤ stop) (htotal : s₀.index + s₀.nb = s.index + s.nb)
    (hstop : s₀.nb = 0 ∨ s₀.index = (t + 1) * l2Size ^ (l + 1)) :
    1 + slotCost l (l2Size ^ l) ((t + 1) * l2Size ^ (l + 1)) s +
      slotCost (l + 1) (l2Size ^ (l + 1)) stop s₀ ≤
        slotCost (l + 1) (l2Size ^ (l + 1)) stop s := by
  have hdvd : s.index % l2Size ^ (l + 1) = 0 → s.index % l2Size ^ l = 0 := fun h =>
    Nat.mod_eq_zero_of_dvd ((pow_dvd_pow l2Size (Nat.le_succ l)).trans (Nat.dvd_of_mod_eq_zero h))
  have halign : s.index % l2Size ^ (l + 1) = 0 → s.index = t * l2Size ^ (l + 1) := fun h => by
    rw [← ht, Nat.div_mul_cancel (Nat.dvd_of_mod_eq_zero h)]
  have hself : (t + 1) * l2Size ^ (l + 1) % l2Size ^ (l + 1) = 0 := Nat.mul_mod_left _ _
  have hnext : (t + 1) * l2Size ^ (l + 1) = t * l2Size ^ (l + 1) + l2Size ^ (l + 1) :=
    Nat.succ_mul _ _
  unfold slotCost
  rw [if_neg (Nat.ne_of_gt hnb), if_neg (Nat.ne_of_gt hnb), htotal]
  by_cases hend : s.index + s.nb < (t + 1) * l2Size ^ (l + 1)
  · -- the run ends in the block
    have hzero : s₀.nb = 0 := by omega
    rw [if_pos hend, if_pos hzero, if_pos (show s.index + s.nb < stop by omega)]
    by_cases hal : s.index % l2Size ^ (l + 1) = 0
    · rw [if_pos hal, if_pos (hdvd hal)]
      omega
    · rw [if_neg hal]
      split
      · omega
      · omega
  · -- the run goes on behind the block, so it begins inside of it
    have hal : ¬ s.index % l2Size ^ (l + 1) = 0 := by
      intro h
      exact hnot ⟨h, by omega⟩
    rw [if_neg hend, if_neg hal]
    have hrest : (if s₀.nb = 0 then 0 else (if s₀.index % l2Size ^ (l + 1) = 0 then 0 else l + 1) +
        if s.index + s.nb < stop then l + 1 else 0) ≤
          if s.index + s.nb < stop then l + 1 else 0 := by
      rcases hstop with h | h
      · rw [if_pos h]
        exact Nat.zero_le _
      · rw [h, hself, if_pos rfl, Nat.zero_add]
        split
        · exact Nat.zero_le _
        · exact Nat.le_refl _
    have hfirst : (if s.index % l2Size ^ l = 0 then 0 else l) ≤ l := by
      split
      · exact Nat.zero_le _
      · exact Nat.le_refl _
    omega

section
variable {leaf level ptr q slot n : Nat} {fps : Nat → Set Nat} {s : SetState}
  {descend : PhysPageEntry → SetState → Except Fault (PhysPageEntry × SetState)}

lemma setSlots_round (hleaf : leaf ≠ sectionUnassigned)
    (hdesc : ∀ l, level = l + 1 → Sets leaf l descend) (hslot : slot < l2Size) (hnb : 0 < s.nb)
    (hindex : s.index / l2Size ^ level = q * l2Size + slot)
    (hc : Children (Own s.map.nodes level) (s.map.nodes ptr) ptr fp fps)
    (hfp : ∀ n ∈ fp, n < s.map.nodesNb)
    (hfree : ∀ j, j / l2Size ^ level = q * l2Size + slot → s.Has j →
      physPageFind s.map.nodes level (s.map.nodes ptr slot) j = sectionUnassigned)
    (hroom : Room s (nodeCost level q s)) :
    ∃ e s₀, setSlots descend leaf (l2Size ^ level) ptr (n + 1) slot s =
        setSlots descend leaf (l2Size ^ level) ptr n (slot + 1)
          { s₀ with map := s₀.map.write ptr slot e } ∧
      EntrySet leaf level (q * l2Size + slot) (s.map.nodes ptr slot) (fps slot) s e s₀ ∧
      s₀.map.nodesNb + nodeCost level q s₀ ≤ s.map.nodesNb + nodeCost level q s := by
  have hpos : 0 < l2Size ^ level := Nat.pow_pos (by decide)
  have hblock : (q * l2Size + slot + 1) * l2Size ^ level ≤
      (q * l2Size + l2Size) * l2Size ^ level := Nat.mul_le_mul_right _ (by omega)
  rw [setSlots, if_neg (Nat.ne_of_gt hnb)]
  by_cases hfull : s.index % l2Size ^ level = 0 ∧ s.nb ≥ l2Size ^ level
  · have hstart : s.index = (q * l2Size + slot) * l2Size ^ level := by
      rw [← hindex, Nat.div_mul_cancel (Nat.dvd_of_mod_eq_zero hfull.1)]
    have hnext : (q * l2Size + slot + 1) * l2Size ^ level = s.index + l2Size ^ level := by
      rw [Nat.succ_mul, hstart]
    rw [if_pos hfull]
    refine ⟨⟨true, leaf⟩, ⟨s.map, s.index + l2Size ^ level, s.nb - l2Size ^ level⟩, rfl,
      ⟨⟨rfl, Nat.le_refl _, fun _ _ _ => rfl, ?_⟩, ?_, fun j hj => ?_, ?_⟩, ?_⟩
    · show s.index + l2Size ^ level + (s.nb - l2Size ^ level) = s.index + s.nb
      omega
    · cases level with
      | zero => rfl
      | succ l => exact .inl ⟨rfl, hleaf⟩
    · obtain ⟨j1, j2⟩ := block_bounds hpos hj
      rw [find_leaf rfl, if_pos (show s.Has j from ⟨by omega, by omega⟩)]
    · exact ⟨Nat.le_of_eq hnext.symm, .inr hnext.symm⟩
    · have htotal : s.index + l2Size ^ level + (s.nb - l2Size ^ level) = s.index + s.nb := by
        omega
      have hmod : (s.index + l2Size ^ level) % l2Size ^ level = 0 := by
        rw [Nat.add_mod_right]
        exact hfull.1
      unfold nodeCost slotCost
      rw [htotal, if_neg (Nat.ne_of_gt hnb), hfull.1]
      split
      · exact Nat.le_add_right _ _
      · exact Nat.le_refl _
  · rw [if_neg hfull]
    cases level with
    | zero =>
      -- on the lowest level every entry is one page
      exact absurd ⟨Nat.mod_one _, hnb⟩ hfull
    | succ l =>
      have hle : 1 + slotCost l (l2Size ^ l) ((q * l2Size + slot + 1) * l2Size ^ (l + 1)) s ≤
          nodeCost (l + 1) q s := by
        have := slotCost_descend s ⟨s.map, s.index + s.nb, 0⟩ hindex hnb hfull hblock rfl
          (.inl rfl)
        exact Nat.le_trans (Nat.le_add_right _ _) this
      obtain ⟨e, s₀, hok, hset, hcost⟩ := hdesc l rfl (s.map.nodes ptr slot) s (fps slot)
        (q * l2Size + slot) (hc.each slot hslot) (fun n hn => hfp n (hc.subset slot hslot hn)) hnb
        hindex hfree ⟨by have := hroom.1; omega, by have := hroom.2; omega⟩
      refine ⟨e, s₀, ?_, hset, ?_⟩
      · rw [hok]
        rfl
      · have : _ + nodeCost (l + 1) q s₀ ≤ nodeCost (l + 1) q s :=
          slotCost_descend s s₀ hindex hnb hfull hblock hset.grows.total hset.stop.2
        omega

lemma setSlots_spec (q ptr : Nat) (hleaf : leaf ≠ sectionUnassigned)
    (hdesc : ∀ l, level = l + 1 → Sets leaf l descend) (n : Nat) :
    ∀ (slot : Nat) (s : SetState) (fp : Set Nat) (fps : Nat → Set Nat), slot + n = l2Size →
      s.index ≤ (q * l2Size + l2Size) * l2Size ^ level →
      (0 < s.nb → s.index / l2Size ^ level = q * l2Size + slot ∧
        (n = 0 → s.index = (q * l2Size + l2Size) * l2Size ^ level)) →
      Children (Own s.map.nodes level) (s.map.nodes ptr) ptr fp fps →
      (∀ x ∈ fp, x < s.map.nodesNb) →
      (∀ i < l2Size, ∀ j, j / l2Size ^ level = q * l2Size + i → s.Has j →
        physPageFind s.map.nodes level (s.map.nodes ptr i) j = sectionUnassigned) →
      Room s (nodeCost level q s) →
      ∃ s', setSlots descend leaf (l2Size ^ level) ptr n slot s = .ok s' ∧
        SlotsSet leaf level ptr q fp s s' ∧
          s'.map.nodesNb ≤ s.map.nodesNb + nodeCost level q s := by
  have hpos : 0 < l2Size ^ level := Nat.pow_pos (by decide)
  induction n with
  | zero =>
    intro slot s fp fps _ hle hindex hc _ _ _
    refine ⟨s, rfl, .done hc hle ?_, Nat.le_add_right _ _⟩
    by_cases hnb : s.nb = 0
    · exact .inl hnb
    · exact .inr ((hindex (Nat.pos_of_ne_zero hnb)).2 rfl)
  | succ n ih =>
    intro slot s fp fps hslots hle hindex hc hfp hfree hroom
    by_cases hnb : s.nb = 0
    · refine ⟨s, ?_, .done hc hle (.inl hnb), Nat.le_add_right _ _⟩
      rw [setSlots, if_pos hnb]
    have hslot : slot < l2Size := by omega
    have ht := (hindex (Nat.pos_of_ne_zero hnb)).1
    obtain ⟨e, s₀, hok, hset, hcost⟩ := setSlots_round (n := n) hleaf hdesc hslot
      (Nat.pos_of_ne_zero hnb) ht hc hfp (hfree slot hslot) hroom
    -- the state behind the entry
    obtain ⟨s₁, hs₁⟩ : ∃ s₁ : SetState, s₁ = { s₀ with map := s₀.map.write ptr slot e } := ⟨_, rfl⟩
    have hmap : s₁.map = s₀.map.write ptr slot e := by rw [hs₁]
    have hindex₁ : s₁.index = s₀.index := by rw [hs₁]
    have hnb₁ : s₁.nb = s₀.nb := by rw [hs₁]
    have hnodes₁ : s₁.map.nodesNb = s₀.map.nodesNb := by rw [hs₁]; rfl
    have hcost₁ : nodeCost level q s₁ = nodeCost level q s₀ := by
      unfold nodeCost slotCost
      rw [hindex₁, hnb₁]
    have hframe := hset.grows.frame
    have hgrows : Grows fp s s₁ := by
      refine ⟨by rw [hs₁]; exact hset.grows.alloc, by rw [hnodes₁]; exact hset.grows.le,
        fun x hx hlt => ?_, by rw [hindex₁, hnb₁]; exact hset.grows.total⟩
      have hne : x ≠ ptr := fun h => hx (h ▸ hc.mem)
      rw [hmap, write_other hne]
      exact hframe x (fun h => hx (hc.subset slot hslot h)) hlt
    have hnext : (q * l2Size + slot + 1) * l2Size ^ level ≤
        (q * l2Size + l2Size) * l2Size ^ level := Nat.mul_le_mul_right _ (by omega)
    have hhas : ∀ i j, j / l2Size ^ level = q * l2Size + i → (s₁.Has j ↔ s.Has j ∧ i ≠ slot) := by
      intro i j hj
      rw [has_next hpos ht hgrows.total (by rw [hindex₁]; exact hset.stop.1)
        (by rw [hindex₁, hnb₁]; exact hset.stop.2) hj]
      constructor
      · exact fun h => ⟨h.1, fun heq => h.2 (by rw [heq])⟩
      · exact fun h => ⟨h.1, fun heq => h.2 (by omega)⟩
    have hfind : ∀ i < l2Size, ∀ j, j / l2Size ^ level = q * l2Size + i →
        physPageFind s₁.map.nodes level (s₁.map.nodes ptr i) j =
          if s.Has j ∧ i = slot then leaf
          else physPageFind s.map.nodes level (s.map.nodes ptr i) j := by
      intro i hi j hj
      rw [hmap]
      by_cases heq : i = slot
      · subst heq
        rw [hc.find_self hslot hfp hset.own, hset.find j hj]
        simp only [and_true]
      · rw [hc.find_other hslot hfp hframe hi heq, if_neg (fun h => heq h.2)]
    have hc₁ : Children (Own s₁.map.nodes level) (s₁.map.nodes ptr) ptr (fp ∪ fresh s s₁)
        (update fps slot (fps slot ∪ fresh s s₁)) := by
      rw [show fresh s s₁ = fresh s s₀ by unfold fresh; rw [hnodes₁], hmap]
      exact hc.write hslot hfp hframe hset.own
    have hstart : 0 < s₁.nb → s₁.index / l2Size ^ level = q * l2Size + (slot + 1) ∧
        (n = 0 → s₁.index = (q * l2Size + l2Size) * l2Size ^ level) := by
      intro hpos₁
      have hstop := hset.stop.2.resolve_left (by rw [hnb₁] at hpos₁; exact Nat.ne_of_gt hpos₁)
      rw [hindex₁, hstop]
      refine ⟨by rw [Nat.mul_div_cancel _ hpos, Nat.add_assoc], fun hn => ?_⟩
      rw [show q * l2Size + slot + 1 = q * l2Size + l2Size by omega]
    obtain ⟨s', hok', hset', hcost'⟩ := ih (slot + 1) s₁ (fp ∪ fresh s s₁) _ (by omega)
      (by rw [hindex₁]; exact Nat.le_trans hset.stop.1 hnext) hstart hc₁
      (fun x hx => by
        rcases hx with hx | hx
        · exact Nat.lt_of_lt_of_le (hfp x hx) hgrows.le
        · exact hx.2)
      (fun i hi j hj hj₁ => by
        have h1 := (hhas i j hj).mp hj₁
        rw [hfind i hi j hj, if_neg (fun h => h1.2 h.2)]
        exact hfree i hi j hj h1.1)
      (by
        have h1 := hgrows.alloc
        have h2 := hroom.1
        have h3 := hroom.2
        exact ⟨by omega, by omega⟩)
    refine ⟨s', ?_, .cons hgrows hhas hfind hset', by omega⟩
    rw [hok, ← hs₁, hok']

lemma ensureNode_spec {q : Nat} {s : SetState} (hnb : 0 < s.nb)
    (hown : Own s.map.nodes (level + 1) e fp) (hindex : s.index / l2Size ^ (level + 1) = q)
    (hfree : ∀ j, j / l2Size ^ (level + 1) = q → s.Has j →
      physPageFind s.map.nodes (level + 1) e j = sectionUnassigned) (hroom : Room s 1) :
    ∃ e' map', ensureNode level e s.map = .ok (e', map') ∧ e'.isLeaf = false ∧ e'.ptr ≠ nodeNil ∧
      Grows fp s { s with map := map' } ∧ map'.nodesNb ≤ s.map.nodesNb + 1 ∧
      (∃ fps, Children (Own map'.nodes level) (map'.nodes e'.ptr) e'.ptr
        (fp ∪ fresh s { s with map := map' }) fps) ∧
      ∀ j, physPageFind map'.nodes (level + 1) e' j =
        physPageFind s.map.nodes (level + 1) e j := by
  rcases hown with ⟨hleaf, hsec⟩ | ⟨h1, h2⟩ | ⟨h1, h2, fps, hc⟩
  · -- the first page to be set has a section
    have hfirst := hfree s.index hindex ⟨Nat.le_refl _, Nat.lt_add_of_pos_right hnb⟩
    rw [find_leaf hleaf] at hfirst
    exact absurd hfirst hsec
  · obtain ⟨r1, r2⟩ := hroom
    have hnil : s.map.nodesNb ≠ nodeNil := by omega
    have halloc : s.map.nodesNb ≠ s.map.nodesNbAlloc := by omega
    obtain ⟨entry, hentry⟩ : ∃ entry : PhysPageEntry, entry =
      if level = 0 then ⟨true, sectionUnassigned⟩ else ⟨false, nodeNil⟩ := ⟨_, rfl⟩
    refine ⟨{ e with ptr := s.map.nodesNb }, { s.map with
      nodesNb := s.map.nodesNb + 1,
      nodes := update s.map.nodes s.map.nodesNb fun _ => entry }, ?_, h1, hnil,
      ⟨rfl, Nat.le_succ _, fun n _ hlt => update_of_ne (Nat.ne_of_lt hlt) _ _, rfl⟩,
      Nat.le_refl _, ?_, fun j => ?_⟩
    · unfold ensureNode physMapNodeAlloc
      rw [if_pos ⟨h1, h2⟩]
      rw [if_neg hnil, if_neg halloc]
      show Except.ok _ = Except.ok _
      rw [hentry]
      unfold NodeMap.fill
      split
      · rw [update_idem]
      · rfl
    · refine ⟨fun _ => ∅, .inr ⟨Nat.le_refl _, Nat.lt_succ_self _⟩, fun i _ => ?_,
        fun i _ => Set.empty_subset _, fun i _ => Set.notMem_empty _,
        fun i _ j _ _ => Set.disjoint_empty _⟩
      dsimp only
      rw [update_self, hentry]
      cases level with
      | zero => rfl
      | succ l => exact .inr (.inl ⟨rfl, rfl⟩)
    · rw [find_nil h1 h2, find_node (e := { e with ptr := s.map.nodesNb }) h1 hnil]
      dsimp only
      rw [update_self, hentry]
      cases level with
      | zero => rfl
      | succ l => exact find_nil rfl rfl j
  · refine ⟨e, s.map, ?_, h1, h2, .refl fp s, Nat.le_succ _, ⟨fps, ?_⟩, fun j => rfl⟩
    · unfold ensureNode
      rw [if_neg (fun h => h2 h.2)]
      rfl
    · have hfresh : fp ∪ fresh s { s with map := s.map } = fp := by
        unfold fresh
        rw [Set.Ico_self, Set.union_empty]
      rw [hfresh]
      exact hc

lemma slot_iff (hi : i < l2Size) :
    (j / l2Size ^ (level + 1) = q ∧ j / l2Size ^ level % l2Size = i) ↔
      j / l2Size ^ level = q * l2Size + i := by
  rw [Nat.pow_succ, ← Nat.div_div_eq_div_mul]
  unfold l2Size at *
  omega

lemma setBelow_sets (hleaf : leaf ≠ sectionUnassigned)
    (hdesc : ∀ l, level = l + 1 → Sets leaf l descend) :
    Sets leaf level (setBelow descend leaf level) := by
  intro e s fp q hown hfp hnb hindex hfree hroom
  have hstop : (q * l2Size + l2Size) * l2Size ^ level = (q + 1) * l2Size ^ (level + 1) := by
    rw [Nat.pow_succ, ← Nat.succ_mul, Nat.mul_comm (l2Size ^ level), Nat.mul_assoc]
  rw [← hstop] at hroom ⊢
  change Room s (1 + nodeCost level q s) at hroom
  obtain ⟨e', map', hnode, h1, h2, hgrows, hcost, ⟨fps, hc⟩, hsame⟩ := ensureNode_spec hnb hown
    hindex hfree ⟨by have := hroom.1; omega, by have := hroom.2; omega⟩
  have hslot : s.index / l2Size ^ level % l2Size < l2Size := Nat.mod_lt _ (by decide)
  have hfirst := (slot_iff hslot).mp ⟨hindex, rfl⟩
  obtain ⟨-, hlast⟩ := block_bounds (Nat.pow_pos (by decide)) hindex
  have hslotCost : nodeCost level q { s with map := map' } = nodeCost level q s := rfl
  obtain ⟨s', hok, hset, hcost'⟩ := setSlots_spec q e'.ptr hleaf hdesc
    (l2Size - s.index / l2Size ^ level % l2Size) (s.index / l2Size ^ level % l2Size)
    { s with map := map' } (fp ∪ fresh s { s with map := map' }) fps (by omega)
    (by
      show s.index ≤ _
      rw [hstop, Nat.succ_mul]
      omega)
    (fun _ => ⟨hfirst, fun h => by omega⟩) hc
    (fun x hx => by
      rcases hx with hx | hx
      · exact Nat.lt_of_lt_of_le (hfp x hx) hgrows.le
      · exact hx.2)
    (fun i hi j hj hhas => by
      obtain ⟨hq, hmod⟩ := (slot_iff hi).mpr hj
      have hsec := hsame j
      rw [find_node h1 h2, hmod] at hsec
      exact hsec.trans (hfree j hq hhas))
    (by
      have r1 := hroom.1
      have r2 := hroom.2
      have r3 : map'.nodesNbAlloc = s.map.nodesNbAlloc := hgrows.alloc
      exact ⟨show map'.nodesNb + _ ≤ map'.nodesNbAlloc by omega,
        show map'.nodesNb + _ ≤ nodeNil by omega⟩)
  have hcost'' : s'.map.nodesNb ≤ map'.nodesNb + _ := hcost'
  have hall : s'.map.nodesNb ≤ s.map.nodesNb + (1 + nodeCost level q s) := by omega
  refine ⟨e', s', ?_, ⟨hgrows.trans hset.grows, ?_, fun j hj => ?_, ?_⟩, hall⟩
  · unfold setBelow
    rw [hnode]
    show Except.bind (setSlots _ _ _ _ _ _ _) _ = _
    rw [hok]
    rfl
  · obtain ⟨fps', hc'⟩ := hset.children
    rw [Set.union_assoc, fresh_trans hgrows.le hset.grows.le] at hc'
    exact .inr (.inr ⟨h1, h2, fps', hc'⟩)
  · have hmod : j / l2Size ^ level % l2Size < l2Size := Nat.mod_lt _ (by decide)
    have hsec := hsame j
    rw [find_node h1 h2] at hsec
    rw [find_node h1 h2, hset.find _ hmod j ((slot_iff hmod).mp ⟨hj, rfl⟩), hsec]
    rfl
  · rw [← hstop]
    exact hset.stop

/-- **setting a run of pages that have no section yet** -/
theorem setLevel_spec (hleaf : leaf ≠ sectionUnassigned) (level : Nat) :
    Sets leaf level (physPageSetLevel leaf level) := by
  induction level with
  | zero => exact setBelow_sets hleaf fun l h => by cases h
  | succ l ih => exact setBelow_sets hleaf fun l' h => by cases h; exact ih

end

/-! ## the whole tree -/

lemma reserve_spec (nodes : Nat) (map : NodeMap) :
    (physMapNodeReserve nodes map).nodesNb = map.nodesNb ∧
      (physMapNodeReserve nodes map).nodes = map.nodes ∧
      map.nodesNb + nodes ≤ (physMapNodeReserve nodes map).nodesNbAlloc := by
  unfold physMapNodeReserve
  split
  · exact ⟨rfl, rfl, Nat.le_max_right _ _⟩
  · exact ⟨rfl, rfl, by omega⟩

def pageCount (levels : Nat) : Nat := l2Size ^ levels

/-- **`phys_page_set`** -/
theorem physPageSet_spec {levels : Nat} (hlevels : 0 < levels) {root : PhysPageEntry}
    {map : NodeMap} {index nb leaf : Nat} (hown : Own map.nodes levels root fp)
    (hfp : ∀ n ∈ fp, n < map.nodesNb) (hnb : 0 < nb) (hrange : index + nb ≤ pageCount levels)
    (hleaf : leaf ≠ sectionUnassigned) (hfree : ∀ j, index ≤ j → j < index + nb →
      physPageFind map.nodes levels root j = sectionUnassigned)
    (hroom : map.nodesNb + (2 * levels - 1) ≤ nodeNil) :
    ∃ root' map', physPageSet levels root index nb leaf map = .ok (root', map') ∧
      Own map'.nodes levels root' (fp ∪ Set.Ico map.nodesNb map'.nodesNb) ∧
      map.nodesNb ≤ map'.nodesNb ∧ map'.nodesNb ≤ map.nodesNb + (2 * levels - 1) ∧
      ∀ j < pageCount levels, physPageFind map'.nodes levels root' j =
        if index ≤ j ∧ j < index + nb then leaf else physPageFind map.nodes levels root j := by
  obtain ⟨level, rfl⟩ := Nat.exists_eq_succ_of_ne_zero (Nat.ne_of_gt hlevels)
  obtain ⟨h1, h2, h3⟩ := reserve_spec (3 * (level + 1)) map
  have hcost : slotCost level (l2Size ^ level) ((0 + 1) * l2Size ^ (level + 1))
      ⟨physMapNodeReserve (3 * (level + 1)) map, index, nb⟩ ≤ 2 * level := by
    unfold slotCost
    split
    · exact Nat.zero_le _
    split
    · split
      · omega
      · omega
    · split
      · omega
      · omega
  have hblock : ∀ j, j < l2Size ^ (level + 1) → j / l2Size ^ (level + 1) = 0 :=
    fun j hj => Nat.div_eq_of_lt hj
  obtain ⟨root', s', hok, hset, hle⟩ := setLevel_spec hleaf level root
    ⟨physMapNodeReserve (3 * (level + 1)) map, index, nb⟩ fp 0 (by rw [h2]; exact hown)
    (by rw [h1]; exact hfp) hnb
    (hblock index (Nat.lt_of_lt_of_le (Nat.lt_add_of_pos_right hnb) hrange))
    (fun j _ hj => by
      rw [h2]
      exact hfree j hj.1 hj.2)
    (by
      unfold Room
      dsimp only
      exact ⟨by omega, by omega⟩)
  have hnodes : map.nodesNb ≤ s'.map.nodesNb := by rw [← h1]; exact hset.grows.le
  refine ⟨root', s'.map, ?_, ?_, hnodes, ?_, fun j hj => ?_⟩
  · unfold physPageSet
    show Except.bind (physPageSetLevel leaf level root _) _ = _
    rw [hok]
    rfl
  · have hown' := hset.own
    unfold fresh at hown'
    rw [h1] at hown'
    exact hown'
  · dsimp only at hle
    omega
  · have hfind := hset.find j (hblock j hj)
    rw [h2] at hfind
    exact hfind

end Phys
