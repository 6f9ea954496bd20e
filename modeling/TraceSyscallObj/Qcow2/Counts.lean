import TraceSyscallObj.Qcow2.Refcount

/-!
# What the refcount structures say

The clusters of the refcount table and of its blocks are counted like all others.  `own` is the
count of a cluster without these references; allocating blocks and growing the table leaves it
alone.

* `Sound`: every entry of the table has a block of its own, and all of them are counted;
* `Moved`: from one state to another, `own` changed by `δ` and new metadata lies in free clusters
  behind the allocation pointer;
* `Moved.trans`;
* `getRefcount_store`: one count is written.
-/

namespace Qcow2
open Function
variable (g : Config)

namespace Config

lemma clusterSize_pos : 0 < g.clusterSize := Nat.two_pow_pos _

lemma refcountBlockClusters_pos : 0 < g.refcountBlockClusters := Nat.two_pow_pos _

lemma clusterSize_dvd : 256 ∣ g.clusterSize := by
  have h : (256 : Nat) = 2 ^ 8 := rfl
  rw [h]
  exact Nat.pow_dvd_pow 2 (Nat.le_trans (by decide) g.min_le)

end Config

def Present (s : Refs) (c : Nat) : Prop :=
  c / g.refcountBlockClusters < s.refcountTableSize ∧
    s.refcountTable (c / g.refcountBlockClusters) ≠ 0

def IsBlock (s : Refs) (c : Nat) : Prop :=
  ∃ i, i < s.refcountTableSize ∧ s.refcountTable i ≠ 0 ∧ s.refcountTable i / g.clusterSize = c

def tableClusters (s : Refs) : Nat :=
  (s.refcountTableSize * 8 + (g.clusterSize - 1)) / g.clusterSize

def InTable (s : Refs) (c : Nat) : Prop :=
  s.refcountTableOffset / g.clusterSize ≤ c ∧
    c < s.refcountTableOffset / g.clusterSize + tableClusters g s

def IsMeta (s : Refs) (c : Nat) : Prop := IsBlock g s c ∨ InTable g s c

instance (s : Refs) (c : Nat) : Decidable (IsBlock g s c) :=
  inferInstanceAs (Decidable (∃ i, i < _ ∧ _))

instance (s : Refs) (c : Nat) : Decidable (InTable g s c) := inferInstanceAs (Decidable (_ ∧ _))

instance (s : Refs) (c : Nat) : Decidable (IsMeta g s c) := inferInstanceAs (Decidable (_ ∨ _))

/-- the references that the refcount structures make themselves -/
def metaRefs (s : Refs) (c : Nat) : Nat := if IsMeta g s c then 1 else 0

/-- the count without the references of the refcount structures -/
def own (s : Refs) (c : Nat) : Int := getRefcount g s c - metaRefs g s c

/-- every entry of the table has a block of its own -/
structure TableOk (s : Refs) : Prop where
  aligned : ∀ i < s.refcountTableSize, s.refcountTable i % g.clusterSize = 0
  inj : ∀ i < s.refcountTableSize, ∀ j < s.refcountTableSize,
    s.refcountTable i ≠ 0 → s.refcountTable i = s.refcountTable j → i = j

structure Sound (s : Refs) : Prop extends TableOk g s where
  tableAligned : s.refcountTableOffset % g.clusterSize = 0
  apart : ∀ c, IsBlock g s c → ¬ InTable g s c
  counted : ∀ c, IsMeta g s c → 1 ≤ getRefcount g s c
  header : 1 ≤ own g s 0

/-- from `s` to `s'` the counts change by `δ`; blocks are added only for clusters in `T` and
behind the allocation pointer -/
structure Moved (s s' : Refs) (δ : Nat → Int) (T : Nat → Prop) : Prop where
  sound : Sound g s'
  own : ∀ c, own g s' c = own g s c + δ c
  free : s.freeClusterIndex ≤ s'.freeClusterIndex
  keeps : ∀ i < s.refcountTableSize, s.refcountTable i ≠ 0 →
    i < s'.refcountTableSize ∧ s'.refcountTable i = s.refcountTable i
  fresh : ∀ c, IsMeta g s' c → ¬ IsMeta g s c →
    getRefcount g s c = 0 ∧ s.freeClusterIndex ≤ c
  hooks : ∀ i < s'.refcountTableSize, s'.refcountTable i ≠ 0 →
    (i < s.refcountTableSize ∧ s.refcountTable i ≠ 0) ∨
      ∃ c, c / g.refcountBlockClusters = i ∧ (s.freeClusterIndex ≤ c ∨ T c)
  bytes : s'.freeByteOffset = s.freeByteOffset
  cached : s'.cacheDiscards = s.cacheDiscards

section basic
variable {g} {s s' s'' : Refs} {c k : Nat} {δ δ' : Nat → Int} {T T' : Nat → Prop}

lemma getRefcount_of_present (h : Present g s c) :
    getRefcount g s c =
      (s.refcountBlock (s.refcountTable (c / g.refcountBlockClusters))
        (c % g.refcountBlockClusters)).toNat := by
  unfold getRefcount
  rw [if_neg (Nat.not_le.2 h.1), if_neg h.2]

lemma getRefcount_of_not_present (h : ¬ Present g s c) : getRefcount g s c = 0 := by
  unfold getRefcount
  simp only
  split
  · rfl
  · split
    · rfl
    · rename_i h1 h2
      exact absurd ⟨Nat.not_le.1 h1, h2⟩ h

lemma getRefcount_le : getRefcount g s c ≤ 0xffff := by
  by_cases h : Present g s c
  · rw [getRefcount_of_present h]
    exact Nat.le_of_lt_succ (BitVec.isLt _)
  · rw [getRefcount_of_not_present h]
    exact Nat.zero_le _

lemma present_of_pos (h : 1 ≤ getRefcount g s c) : Present g s c := by
  by_contra hn
  rw [getRefcount_of_not_present hn] at h
  omega

lemma metaRefs_of (h : IsMeta g s c) : metaRefs g s c = 1 := if_pos h

lemma metaRefs_of_not (h : ¬ IsMeta g s c) : metaRefs g s c = 0 := if_neg h

lemma Sound.own_nonneg (h : Sound g s) (c : Nat) : 0 ≤ own g s c := by
  unfold Qcow2.own
  by_cases hm : IsMeta g s c
  · have := h.counted c hm
    rw [metaRefs_of hm]
    omega
  · rw [metaRefs_of_not hm]
    omega

lemma getRefcount_eq (c : Nat) : (getRefcount g s c : Int) = own g s c + metaRefs g s c := by
  unfold own
  omega

section
variable (h : Sound g s) (h0 : getRefcount g s c = 0)
include h h0

lemma Sound.not_meta : ¬ IsMeta g s c := by
  intro hm
  have := h.counted c hm
  omega

lemma Sound.own_zero : own g s c = 0 := by
  have := getRefcount_eq (g := g) (s := s) c
  rw [metaRefs_of_not (h.not_meta h0)] at this
  omega

lemma Sound.ne_zero : c ≠ 0 := by
  rintro rfl
  have := h.header
  have := h.own_zero h0
  omega

end

lemma Moved.refl (h : Sound g s) : Moved g s s (fun _ => 0) T where
  sound := h
  own _ := (Int.add_zero _).symm
  free := Nat.le_refl _
  keeps _ hi _ := ⟨hi, rfl⟩
  fresh _ hm hn := absurd hm hn
  hooks _ hi hne := .inl ⟨hi, hne⟩
  bytes := rfl
  cached := rfl

section
variable (h : Moved g s s' δ T)
include h

lemma Moved.present (hc : Present g s c) : Present g s' c := by
  obtain ⟨hlt, heq⟩ := h.keeps _ hc.1 hc.2
  refine ⟨hlt, ?_⟩
  rw [heq]
  exact hc.2

lemma Moved.trans (h' : Moved g s' s'' δ' T') (hδ : ∀ c, 0 ≤ δ c)
    (hT : ∀ c, T' c → T c) : Moved g s s'' (fun c => δ c + δ' c) T where
  sound := h'.sound
  own c := by rw [h'.own, h.own, Int.add_assoc]
  free := Nat.le_trans h.free h'.free
  keeps i hi hne := by
    obtain ⟨hi', heq⟩ := h.keeps i hi hne
    obtain ⟨hi'', heq'⟩ := h'.keeps i hi' (by rwa [heq])
    exact ⟨hi'', heq'.trans heq⟩
  fresh c hm hn := by
    by_cases hm' : IsMeta g s' c
    · exact h.fresh c hm' hn
    obtain ⟨h0, hle⟩ := h'.fresh c hm hm'
    refine ⟨?_, Nat.le_trans h.free hle⟩
    -- free afterwards and not used by the refcount structures: free before
    have hown := h.own c
    have hd := hδ c
    have hrc := getRefcount_eq (g := g) (s := s) c
    rw [h.sound.own_zero h0] at hown
    rw [metaRefs_of_not hn] at hrc
    omega
  hooks i hi hne := by
    obtain ⟨hi', hne'⟩ | ⟨c, hc, hle | hT'⟩ := h'.hooks i hi hne
    · exact h.hooks i hi' hne'
    · exact .inr ⟨c, hc, .inl (Nat.le_trans h.free hle)⟩
    · exact .inr ⟨c, hc, .inr (hT c hT')⟩
  bytes := h'.bytes.trans h.bytes
  cached := h'.cached.trans h.cached

lemma Moved.congr (hδ : ∀ c, δ c = δ' c) (hT : ∀ c, T c → T' c) : Moved g s s' δ' T' where
  sound := h.sound
  own c := by rw [h.own, hδ]
  free := h.free
  keeps := h.keeps
  fresh := h.fresh
  hooks i hi hne := by
    obtain h' | ⟨c, hc, hle | hT'⟩ := h.hooks i hi hne
    · exact .inl h'
    · exact .inr ⟨c, hc, .inl hle⟩
    · exact .inr ⟨c, hc, .inr (hT c hT')⟩
  bytes := h.bytes
  cached := h.cached

end

end basic

/-! ## one count -/

def setCount (s : Refs) (k v : Nat) : Refs :=
  { s with
    refcountBlock :=
      let block := s.refcountTable (k / g.refcountBlockClusters)
      update s.refcountBlock block
        (update (s.refcountBlock block) (k % g.refcountBlockClusters)
          (BitVec.ofNat 16 v)) }

/-- the counts change by `δ`, the table does not -/
structure Counted (s s' : Refs) (δ : Nat → Int) : Prop where
  table : s'.refcountTable = s.refcountTable
  size : s'.refcountTableSize = s.refcountTableSize
  offset : s'.refcountTableOffset = s.refcountTableOffset
  counts : ∀ c, (getRefcount g s' c : Int) = getRefcount g s c + δ c
  bytes : s'.freeByteOffset = s.freeByteOffset
  cached : s'.cacheDiscards = s.cacheDiscards

section store
variable {g} {s s' s'' : Refs} {c k v : Nat} {δ δ' : Nat → Int}

lemma getRefcount_setCount (hs : TableOk g s) (hk : Present g s k) (hv : v ≤ 0xffff) :
    getRefcount g (setCount g s k v) c = if c = k then v else getRefcount g s c := by
  by_cases hc : Present g s c
  · have hc' : Present g (setCount g s k v) c := hc
    rw [getRefcount_of_present hc', getRefcount_of_present hc]
    unfold setCount
    simp only
    by_cases hblock : s.refcountTable (c / g.refcountBlockClusters) =
        s.refcountTable (k / g.refcountBlockClusters)
    · -- the same block: the same entry of the table
      have hi := hs.inj _ hc.1 _ hk.1 hc.2 hblock
      rw [hblock, update_self]
      by_cases hck : c = k
      · subst hck
        rw [if_pos rfl, update_self, BitVec.toNat_ofNat, Nat.mod_eq_of_lt (by omega)]
      have hmod : c % g.refcountBlockClusters ≠ k % g.refcountBlockClusters := by
        intro hmod
        have h1 := Nat.div_add_mod c g.refcountBlockClusters
        have h2 := Nat.div_add_mod k g.refcountBlockClusters
        rw [hi, hmod] at h1
        exact hck (h1.symm.trans h2)
      rw [if_neg hck, update_of_ne hmod]
    · have hck : c ≠ k := by
        rintro rfl
        exact hblock rfl
      rw [if_neg hck, update_of_ne hblock]
  · have hc' : ¬ Present g (setCount g s k v) c := hc
    have hck : c ≠ k := by
      rintro rfl
      exact hc hk
    rw [getRefcount_of_not_present hc', getRefcount_of_not_present hc, if_neg hck]

lemma Counted.refl : Counted g s s (fun _ => 0) :=
  ⟨rfl, rfl, rfl, fun _ => (Int.add_zero _).symm, rfl, rfl⟩

section
variable (h : Counted g s s' δ)
include h

lemma Counted.trans (h' : Counted g s' s'' δ') : Counted g s s'' (fun c => δ c + δ' c) where
  table := h'.table.trans h.table
  size := h'.size.trans h.size
  offset := h'.offset.trans h.offset
  counts c := by rw [h'.counts, h.counts, Int.add_assoc]
  bytes := h'.bytes.trans h.bytes
  cached := h'.cached.trans h.cached

lemma Counted.congr (hδ : ∀ c, δ c = δ' c) : Counted g s s' δ' :=
  ⟨h.table, h.size, h.offset, fun c => by rw [h.counts, hδ], h.bytes, h.cached⟩

lemma Counted.present_iff : Present g s' c ↔ Present g s c := by
  unfold Present
  rw [h.table, h.size]

lemma Counted.isBlock_iff : IsBlock g s' c ↔ IsBlock g s c := by
  unfold IsBlock
  rw [h.table, h.size]

lemma Counted.inTable_iff : InTable g s' c ↔ InTable g s c := by
  unfold InTable tableClusters
  rw [h.offset, h.size]

lemma Counted.isMeta_iff : IsMeta g s' c ↔ IsMeta g s c :=
  or_congr h.isBlock_iff h.inTable_iff

lemma Counted.own_eq (c : Nat) : own g s' c = own g s c + δ c := by
  have hm : metaRefs g s' c = metaRefs g s c := by
    unfold metaRefs
    simp only [h.isMeta_iff]
  unfold own
  rw [h.counts]
  omega

lemma Counted.tableOk (hs : TableOk g s) : TableOk g s' := by
  constructor
  · rw [h.table, h.size]
    exact hs.aligned
  · rw [h.table, h.size]
    exact hs.inj

lemma Counted.sound (hs : Sound g s) (hδ : ∀ c, 0 ≤ Qcow2.own g s c + δ c)
    (h0 : 1 ≤ Qcow2.own g s 0 + δ 0) : Sound g s' where
  toTableOk := h.tableOk hs.toTableOk
  tableAligned := by
    rw [h.offset]
    exact hs.tableAligned
  apart c := by
    rw [h.isBlock_iff, h.inTable_iff]
    exact hs.apart c
  counted c hm := by
    have hrc := getRefcount_eq (g := g) (s := s') c
    have := hδ c
    rw [h.own_eq, metaRefs_of hm] at hrc
    omega
  header := by
    rw [h.own_eq]
    exact h0

lemma Counted.sound_up (hs : Sound g s) (hδ : ∀ c, 0 ≤ δ c) : Sound g s' := by
  refine h.sound hs (fun c => ?_) ?_
  · exact Int.add_nonneg (hs.own_nonneg c) (hδ c)
  · have := hs.header
    have := hδ 0
    omega

lemma Counted.moved {T : Nat → Prop} (hs : Sound g s) (hδ : ∀ c, 0 ≤ δ c)
    (hfree : s'.freeClusterIndex = s.freeClusterIndex) : Moved g s s' δ T where
  sound := h.sound_up hs hδ
  own := h.own_eq
  free := Nat.le_of_eq hfree.symm
  keeps i hi hne := by
    rw [h.table, h.size]
    exact ⟨hi, rfl⟩
  fresh c hm hn := absurd (h.isMeta_iff.1 hm) hn
  hooks i hi hne := by
    rw [h.table] at hne
    rw [h.size] at hi
    exact .inl ⟨hi, hne⟩
  bytes := h.bytes
  cached := h.cached

end

lemma storeRefcount_inv {type : DiscardType}
    (hs : TableOk g s) (hk : Present g s k) (hv : v ≤ 0xffff)
    (h : storeRefcount g (s.refcountTable (k / g.refcountBlockClusters)) k v type s =
      .ok () s') :
    Counted g s s' (fun c => if c = k then (v : Int) - getRefcount g s k else 0) ∧
    s'.freeClusterIndex =
      if v = 0 ∧ k < s.freeClusterIndex then k else s.freeClusterIndex := by
  have hcount : ∀ c, (getRefcount g (setCount g s k v) c : Int) =
      getRefcount g s c + if c = k then (v : Int) - getRefcount g s k else 0 := by
    intro c
    rw [getRefcount_setCount hs hk hv]
    split
    · rename_i hck
      rw [hck]
      omega
    · omega
  unfold storeRefcount at h
  simp only at h
  split at h
  · split at h
    · cases h
      exact ⟨⟨rfl, rfl, rfl, hcount, rfl, rfl⟩, rfl⟩
    · cases h
  · cases h
    exact ⟨⟨rfl, rfl, rfl, hcount, rfl, rfl⟩, rfl⟩

end store

end Qcow2
