import TraceSyscallObj.Qcow2.Update

/-!
# A new refcount block in the table

The block is hooked into the table, or into a larger table that replaces the old one together
with blocks that describe the new metadata.

* `NewBlock`, `Hooked`: before and after;
* `hook_hooked`: the table has room;
* `getRefcount_grown`, `own_grown`, `sound_grown`: the state with the larger table;
* `growRefcountTable_hooked`: the old table is freed as well.
-/

namespace Qcow2
open Function
variable {s' : Refs}

/-! ## hooking the new block up -/

section hook
variable (g : Config)

/-- cluster `b` is to hold the block for `k`; `x` is the count of `b` in itself -/
structure NewBlock (s : Refs) (k b : Nat) (counts : Nat → BitVec 16) (x : Nat) : Prop where
  missing : ¬ Present g s k
  unused : ¬ IsMeta g s b
  pos : b ≠ 0
  before : b < s.freeClusterIndex
  cluster : k < s.freeClusterIndex
  counts : ∀ c, c / g.refcountBlockClusters = k / g.refcountBlockClusters →
    (counts (c % g.refcountBlockClusters)).toNat = if c = b then x else 0
  self : b / g.refcountBlockClusters ≠ k / g.refcountBlockClusters → x = 0
  once : own g s b + x = 1

/-- the block for `k` is in the table, and no other count has changed -/
structure Hooked (s s' : Refs) (k b : Nat) (x : Nat) : Prop where
  sound : Sound g s'
  own : ∀ c, own g s' c = own g s c + if c = b then (x : Int) - 1 else 0
  free : s'.freeClusterIndex = s.freeClusterIndex
  keeps : ∀ i < s.refcountTableSize, s.refcountTable i ≠ 0 →
    i < s'.refcountTableSize ∧ s'.refcountTable i = s.refcountTable i
  fresh : ∀ c, IsMeta g s' c → IsMeta g s c ∨ c = b ∨
    (getRefcount g s c = 0 ∧ s.freeClusterIndex ≤ c)
  hooks : ∀ i < s'.refcountTableSize, s'.refcountTable i ≠ 0 →
    (i < s.refcountTableSize ∧ s.refcountTable i ≠ 0) ∨ i = k / g.refcountBlockClusters ∨
      s.freeClusterIndex ≤ i * g.refcountBlockClusters
  present : Present g s' k
  block : s'.refcountTable (k / g.refcountBlockClusters) = b * g.clusterSize
  bytes : s'.freeByteOffset = s.freeByteOffset
  cached : s'.cacheDiscards = s.cacheDiscards

def hook (s : Refs) (k b : Nat) (counts : Nat → BitVec 16) : Refs :=
  { setBlock s (b * g.clusterSize) counts with
    refcountTable :=
      update s.refcountTable (k / g.refcountBlockClusters) (b * g.clusterSize) }

variable {g} {s : Refs} {k b c x : Nat} {counts : Nat → BitVec 16}

lemma NewBlock.offset_pos (h : NewBlock g s k b counts x) : b * g.clusterSize ≠ 0 :=
  Nat.mul_ne_zero h.pos (Nat.pos_iff_ne_zero.1 g.clusterSize_pos)

lemma NewBlock.table_ne (h : NewBlock g s k b counts x) {i : Nat}
    (hi : i < s.refcountTableSize) : s.refcountTable i ≠ b * g.clusterSize := by
  intro heq
  refine h.unused (.inl ⟨i, hi, ?_, ?_⟩)
  · rw [heq]
    exact h.offset_pos
  · rw [heq, Nat.mul_div_cancel _ g.clusterSize_pos]

lemma hook_self : (hook g s k b counts).refcountTable (k / g.refcountBlockClusters) =
    b * g.clusterSize := update_self ..

lemma hook_ne {i : Nat} (hi : i ≠ k / g.refcountBlockClusters) :
    (hook g s k b counts).refcountTable i = s.refcountTable i := update_of_ne hi ..

lemma getRefcount_kept (hlt : c / g.refcountBlockClusters < s'.refcountTableSize ↔
      c / g.refcountBlockClusters < s.refcountTableSize)
    (he : s'.refcountTable (c / g.refcountBlockClusters) =
      s.refcountTable (c / g.refcountBlockClusters))
    (hb : Present g s c → ∀ l, s'.refcountBlock (s.refcountTable (c / g.refcountBlockClusters)) l =
      s.refcountBlock (s.refcountTable (c / g.refcountBlockClusters)) l) :
    getRefcount g s' c = getRefcount g s c := by
  have hiff : Present g s' c ↔ Present g s c := and_congr hlt (by rw [he])
  by_cases hp : Present g s c
  · rw [getRefcount_of_present (hiff.2 hp), getRefcount_of_present hp, he, hb hp]
  · rw [getRefcount_of_not_present (mt hiff.1 hp), getRefcount_of_not_present hp]

section
variable (h : NewBlock g s k b counts x)
include h

lemma NewBlock.getRefcount_self (hc : c / g.refcountBlockClusters = k / g.refcountBlockClusters)
    (hlt : k / g.refcountBlockClusters < s'.refcountTableSize)
    (he : s'.refcountTable (k / g.refcountBlockClusters) = b * g.clusterSize)
    (hb : ∀ l, s'.refcountBlock (b * g.clusterSize) l = counts l) :
    getRefcount g s' c = getRefcount g s c + if c = b then x else 0 := by
  have hold : ¬ Present g s c := by
    unfold Present
    rw [hc]
    exact h.missing
  rw [← hc] at hlt he
  have hnew : Present g s' c := ⟨hlt, he ▸ h.offset_pos⟩
  rw [getRefcount_of_present hnew, he, hb, getRefcount_of_not_present hold, Nat.zero_add,
    ← h.counts c hc]

lemma NewBlock.not_self (hc : c / g.refcountBlockClusters ≠ k / g.refcountBlockClusters) :
    (if c = b then x else 0) = 0 := by
  split
  · rename_i hcb
    exact h.self (hcb ▸ hc)
  · rfl

/-- `N` are clusters of new metadata, `G` those that are metadata no more -/
lemma NewBlock.own_eq {N G : Nat → Prop} [DecidablePred N] [DecidablePred G]
    (hrc : getRefcount g s' c =
      getRefcount g s c + (if c = b then x else 0) + if N c then 1 else 0)
    (hmeta : IsMeta g s' c ↔ IsMeta g s c ∧ ¬ G c ∨ c = b ∨ N c)
    (hgone : G c → IsMeta g s c) (hnew : N c → ¬ IsMeta g s c ∧ c ≠ b) :
    own g s' c = own g s c + (if c = b then (x : Int) - 1 else 0) + if G c then 1 else 0 := by
  have hb : c = b → ¬ IsMeta g s c := fun e => e ▸ h.unused
  unfold own metaRefs
  rw [hrc]
  by_cases hm : IsMeta g s c
  · have hcb : c ≠ b := fun e => hb e hm
    have hn : ¬ N c := fun e => (hnew e).1 hm
    by_cases hg : G c
    · simp only [hmeta, hm, hcb, hn, hg, not_true_eq_false, and_false, or_false, if_true, if_false]
      omega
    · simp only [hmeta, hm, hcb, hn, hg, not_false_eq_true, and_self, true_or, if_false]
      omega
  · have hg : ¬ G c := mt hgone hm
    by_cases hcb : c = b
    · have hn : ¬ N c := fun e => (hnew e).2 hcb
      subst hcb
      simp only [hmeta, hm, hn, hg, true_or, or_true, if_true, if_false]
      omega
    · simp only [hmeta, hm, hcb, false_and, false_or, if_false]
      split
      · omega
      · omega

lemma NewBlock.own_nonneg (hs : Sound g s) (c : Nat) :
    0 ≤ own g s c + if c = b then (x : Int) - 1 else 0 := by
  have hown := hs.own_nonneg c
  have honce := h.once
  split
  · rename_i hcb
    rw [hcb]
    omega
  · omega

variable (ht : k / g.refcountBlockClusters < s.refcountTableSize)
include ht

lemma getRefcount_hook :
    getRefcount g (hook g s k b counts) c = getRefcount g s c + if c = b then x else 0 := by
  by_cases hc : c / g.refcountBlockClusters = k / g.refcountBlockClusters
  · exact h.getRefcount_self hc ht hook_self fun l => congrFun (update_self ..) l
  · rw [h.not_self hc]
    refine getRefcount_kept Iff.rfl (hook_ne hc) fun hp l => congrFun ?_ l
    exact update_of_ne (h.table_ne hp.1) ..

lemma isBlock_hook : IsBlock g (hook g s k b counts) c ↔ IsBlock g s c ∨ c = b := by
  have hzero : s.refcountTable (k / g.refcountBlockClusters) = 0 := by
    by_contra hne
    exact h.missing ⟨ht, hne⟩
  constructor
  · rintro ⟨i, hi, hne, hdiv⟩
    by_cases hik : i = k / g.refcountBlockClusters
    · right
      rw [← hdiv, hik, hook_self, Nat.mul_div_cancel _ g.clusterSize_pos]
    · left
      rw [hook_ne hik] at hne hdiv
      exact ⟨i, hi, hne, hdiv⟩
  · rintro (⟨i, hi, hne, hdiv⟩ | rfl)
    · have hik : i ≠ k / g.refcountBlockClusters := by
        rintro rfl
        exact hne hzero
      exact ⟨i, hi, by rwa [hook_ne hik], by rwa [hook_ne hik]⟩
    · refine ⟨_, ht, ?_, ?_⟩
      · rw [hook_self]
        exact h.offset_pos
      · rw [hook_self, Nat.mul_div_cancel _ g.clusterSize_pos]

lemma isMeta_hook : IsMeta g (hook g s k b counts) c ↔ IsMeta g s c ∨ c = b := by
  unfold IsMeta
  rw [isBlock_hook h ht]
  exact or_right_comm

lemma own_hook (c : Nat) :
    own g (hook g s k b counts) c = own g s c + if c = b then (x : Int) - 1 else 0 := by
  have hown : own g (hook g s k b counts) c = _ + if False then 1 else 0 :=
    h.own_eq (N := fun _ => False) (G := fun _ => False) (getRefcount_hook h ht)
      (by simp only [isMeta_hook h ht, not_false_eq_true, and_true, or_false]) False.elim False.elim
  rwa [if_neg id, add_zero] at hown

lemma hook_hooked (hs : Sound g s) : Hooked g s (hook g s k b counts) k b x where
  sound := {
    aligned := fun i hi => by
      by_cases hik : i = k / g.refcountBlockClusters
      · rw [hik, hook_self, Nat.mul_mod_left]
      · rw [hook_ne hik]
        exact hs.aligned i hi
    inj := fun i hi j hj hne heq => by
      by_cases hik : i = k / g.refcountBlockClusters
      · by_cases hjk : j = k / g.refcountBlockClusters
        · rw [hik, hjk]
        · rw [hik, hook_self, hook_ne hjk] at heq
          exact absurd heq.symm (h.table_ne hj)
      · rw [hook_ne hik] at hne heq
        by_cases hjk : j = k / g.refcountBlockClusters
        · rw [hjk, hook_self] at heq
          exact absurd heq (h.table_ne hi)
        · rw [hook_ne hjk] at heq
          exact hs.inj i hi j hj hne heq
    tableAligned := hs.tableAligned
    apart := fun c hc hin => by
      obtain hc | rfl := (isBlock_hook h ht).1 hc
      · exact hs.apart c hc hin
      · exact h.unused (.inr hin)
    counted := fun c hc => by
      have hrc := getRefcount_eq (g := g) (s := hook g s k b counts) c
      have hown := h.own_nonneg hs c
      rw [own_hook h ht, metaRefs_of hc] at hrc
      omega
    header := by
      have := hs.header
      rw [own_hook h ht, if_neg h.pos.symm]
      omega }
  own := own_hook h ht
  free := rfl
  keeps i hi hne := by
    have hik : i ≠ k / g.refcountBlockClusters := by
      rintro rfl
      exact h.missing ⟨hi, hne⟩
    exact ⟨hi, hook_ne hik⟩
  fresh c hc := ((isMeta_hook h ht).1 hc).imp_right .inl
  hooks i hi hne := by
    by_cases hik : i = k / g.refcountBlockClusters
    · exact .inr (.inl hik)
    · rw [hook_ne hik] at hne
      exact .inl ⟨hi, hne⟩
  present := ⟨ht, by rw [hook_self]; exact h.offset_pos⟩
  block := hook_self
  bytes := rfl
  cached := rfl

end

end hook

/-! ## a larger table -/

section grow
variable (g : Config)

def grown (s : Refs) (k b : Nat) (counts : Nat → BitVec 16) (tableSize blocksUsed : Nat) : Refs :=
  switchTable g (setBlock s (b * g.clusterSize) counts) (k / g.refcountBlockClusters)
    (b * g.clusterSize) tableSize blocksUsed

/-- what the sizes of the larger table have to be -/
structure Growth (s : Refs) (k tableSize blocksUsed : Nat) : Prop where
  small : s.refcountTableSize ≤ k / g.refcountBlockClusters
  behind : s.freeClusterIndex ≤ blocksUsed * g.refcountBlockClusters
  fits : NewFits g s.refcountTableSize (k / g.refcountBlockClusters) tableSize blocksUsed
  lt : tableSize < 2 ^ 32

variable {g} {s : Refs} {k b c x i tableSize blocksUsed : Nat} {counts : Nat → BitVec 16}

lemma Growth.entry_lt (hg : Growth g s k tableSize blocksUsed) (hk : k < s.freeClusterIndex) :
    k / g.refcountBlockClusters < blocksUsed := by
  rw [Nat.div_lt_iff_lt_mul g.refcountBlockClusters_pos]
  exact Nat.lt_of_lt_of_le hk hg.behind

section
variable (hg : Growth g s k tableSize blocksUsed) (hk : k < s.freeClusterIndex)
include hg hk

lemma Growth.not_present (hc : blocksUsed * g.refcountBlockClusters ≤ c) : ¬ Present g s c := by
  intro hp
  have h1 := hg.entry_lt hk
  have h2 := hg.small
  have h3 : blocksUsed ≤ c / g.refcountBlockClusters :=
    (Nat.le_div_iff_mul_le g.refcountBlockClusters_pos).2 hc
  have := hp.1
  omega

lemma Growth.meta_lt (hs : Sound g s) (hm : IsMeta g s c) :
    c < blocksUsed * g.refcountBlockClusters := by
  by_contra hle
  exact hg.not_present hk (Nat.not_lt.1 hle) (present_of_pos (hs.counted c hm))

end

lemma metaClusters_eq (hlt : tableSize < 2 ^ 32) :
    (metaClusters g tableSize).1 = (tableSize * 8 + (g.clusterSize - 1)) / g.clusterSize := by
  have hcs : 512 ≤ g.clusterSize := by
    have : (512 : Nat) = 2 ^ 9 := rfl
    rw [this]
    exact Nat.pow_le_pow_right (by decide) g.min_le
  have hn : (tableSize * 8 + (g.clusterSize - 1)) / g.clusterSize < 2 ^ 31 := by
    rw [Nat.div_lt_iff_lt_mul g.clusterSize_pos]
    omega
  unfold metaClusters Config.sizeToClusters
  generalize (tableSize * 8 + (g.clusterSize - 1)) / g.clusterSize = n at hn ⊢
  rw [Int.bmod_eq_of_le (by omega) (by omega)]
  rfl

lemma nextRefcountTableSize_lt {fuel size m n : Nat}
    (h : nextRefcountTableSize g fuel size m = some n) : n < 2 ^ 32 := by
  obtain ⟨a, -, rfl⟩ := Option.map_eq_some_iff.1 h
  exact Nat.mod_lt _ (by decide)

lemma settleTableSize_lt {loopFuel size used fuel m n : Nat}
    (h : settleTableSize g loopFuel size used fuel m = some n) : n < 2 ^ 32 := by
  induction fuel generalizing m with
  | zero => cases h
  | succ fuel ih =>
    obtain ⟨m', hm', h⟩ := Option.bind_eq_some_iff.1 h
    split at h
    · rename_i heq
      cases h
      rw [← heq]
      exact nextRefcountTableSize_lt hm'
    · exact ih h

lemma newTableSize_lt {fuel m free n used : Nat} (h : newTableSize g fuel m free = some (n, used)) :
    n < 2 ^ 32 := by
  obtain ⟨first, -, h⟩ := Option.bind_eq_some_iff.1 h
  obtain ⟨size, hsize, h⟩ := Option.bind_eq_some_iff.1 h
  cases h
  exact settleTableSize_lt hsize

lemma grown_new (hi : blocksUsed ≤ i) (hi' : i < blocksUsed + (metaClusters g tableSize).2) :
    (grown g s k b counts tableSize blocksUsed).refcountTable i =
      (blocksUsed * g.refcountBlockClusters + (i - blocksUsed)) * g.clusterSize := if_pos ⟨hi, hi'⟩

lemma grown_self (hk : k / g.refcountBlockClusters < blocksUsed) :
    (grown g s k b counts tableSize blocksUsed).refcountTable (k / g.refcountBlockClusters) =
      b * g.clusterSize :=
  (if_neg (by omega)).trans (if_pos rfl)

lemma grown_old (hg : Growth g s k tableSize blocksUsed) (hk : k < s.freeClusterIndex)
    (hi : i < s.refcountTableSize) :
    (grown g s k b counts tableSize blocksUsed).refcountTable i = s.refcountTable i := by
  have h1 := hg.entry_lt hk
  have h2 := hg.small
  exact (if_neg (by omega)).trans ((if_neg (by omega)).trans (if_pos hi))

lemma grown_none (hi : ¬ (blocksUsed ≤ i ∧ i < blocksUsed + (metaClusters g tableSize).2))
    (hk : i ≠ k / g.refcountBlockClusters) (hold : s.refcountTableSize ≤ i) :
    (grown g s k b counts tableSize blocksUsed).refcountTable i = 0 :=
  (if_neg hi).trans ((if_neg hk).trans (if_neg (Nat.not_lt.2 hold)))

lemma grown_block_new {j l : Nat} (hj : j < (metaClusters g tableSize).2) :
    (grown g s k b counts tableSize blocksUsed).refcountBlock
        ((blocksUsed * g.refcountBlockClusters + j) * g.clusterSize) l =
      if j * g.refcountBlockClusters + l <
          (metaClusters g tableSize).1 + (metaClusters g tableSize).2 then 1 else 0 := by
  have hpos := g.clusterSize_pos
  have h1 : blocksUsed * g.refcountBlockClusters * g.clusterSize ≤
      (blocksUsed * g.refcountBlockClusters + j) * g.clusterSize :=
    Nat.mul_le_mul_right _ (Nat.le_add_right _ _)
  have h2 : (blocksUsed * g.refcountBlockClusters + j) * g.clusterSize <
      (blocksUsed * g.refcountBlockClusters + (metaClusters g tableSize).2) * g.clusterSize :=
    Nat.mul_lt_mul_of_pos_right (by omega) hpos
  refine (if_pos ⟨h1, h2⟩).trans ?_
  rw [Nat.mul_div_cancel _ hpos, Nat.add_sub_cancel_left]

lemma grown_block_old {l : Nat} (hc : c < blocksUsed * g.refcountBlockClusters) :
    (grown g s k b counts tableSize blocksUsed).refcountBlock (c * g.clusterSize) l =
      (setBlock s (b * g.clusterSize) counts).refcountBlock (c * g.clusterSize) l := by
  have h1 : c * g.clusterSize < blocksUsed * g.refcountBlockClusters * g.clusterSize :=
    Nat.mul_lt_mul_of_pos_right hc g.clusterSize_pos
  exact if_neg (by omega)

def InNew (g : Config) (tableSize blocksUsed c : Nat) : Prop :=
  blocksUsed * g.refcountBlockClusters ≤ c ∧
    c < blocksUsed * g.refcountBlockClusters + (metaClusters g tableSize).2 +
      (metaClusters g tableSize).1

instance (g : Config) (tableSize blocksUsed c : Nat) :
    Decidable (InNew g tableSize blocksUsed c) := inferInstanceAs (Decidable (_ ∧ _))

section
variable (hs : Sound g s) (h : NewBlock g s k b counts x) (hg : Growth g s k tableSize blocksUsed)

section
include h hg

lemma getRefcount_grown_new (hi : blocksUsed ≤ c / g.refcountBlockClusters)
    (hi' : c / g.refcountBlockClusters < blocksUsed + (metaClusters g tableSize).2) :
    getRefcount g (grown g s k b counts tableSize blocksUsed) c =
      if InNew g tableSize blocksUsed c then 1 else 0 := by
  have hpos := g.refcountBlockClusters_pos
  have hk := hg.entry_lt h.cluster
  have hdm := Nat.div_add_mod c g.refcountBlockClusters
  have hentry : (grown g s k b counts tableSize blocksUsed).refcountTable
      (c / g.refcountBlockClusters) = _ := grown_new hi hi'
  have hp : Present g (grown g s k b counts tableSize blocksUsed) c := by
    refine ⟨Nat.lt_of_lt_of_le hi' hg.fits.2.2.1, ?_⟩
    rw [hentry]
    refine Nat.mul_ne_zero ?_ (Nat.pos_iff_ne_zero.1 g.clusterSize_pos)
    have : 0 < blocksUsed * g.refcountBlockClusters := Nat.mul_pos (Nat.zero_lt_of_lt hk) hpos
    omega
  have hj : c / g.refcountBlockClusters - blocksUsed < (metaClusters g tableSize).2 := by omega
  rw [getRefcount_of_present hp, hentry, grown_block_new hj]
  have hsplit : c = blocksUsed * g.refcountBlockClusters +
      ((c / g.refcountBlockClusters - blocksUsed) * g.refcountBlockClusters +
        c % g.refcountBlockClusters) := by
    rw [← Nat.add_assoc, ← Nat.add_mul, Nat.add_sub_cancel' hi, Nat.mul_comm]
    exact hdm.symm
  split
  · rename_i hlt
    have hin : InNew g tableSize blocksUsed c := ⟨by omega, by omega⟩
    rw [if_pos hin]
    rfl
  · rename_i hlt
    have hin : ¬ InNew g tableSize blocksUsed c := fun hin => by
      have := hin.2
      omega
    rw [if_neg hin]
    rfl

end

include hg in
lemma inNew_entry (hc : InNew g tableSize blocksUsed c) :
    blocksUsed ≤ c / g.refcountBlockClusters ∧
      c / g.refcountBlockClusters < blocksUsed + (metaClusters g tableSize).2 := by
  have hpos := g.refcountBlockClusters_pos
  have hfits := hg.fits.2.2.2
  constructor
  · exact (Nat.le_div_iff_mul_le hpos).2 hc.1
  · rw [Nat.div_lt_iff_lt_mul hpos, Nat.add_mul]
    have := hc.2
    omega

include hs h hg in
lemma getRefcount_grown (c : Nat) :
    getRefcount g (grown g s k b counts tableSize blocksUsed) c =
      getRefcount g s c + (if c = b then x else 0) +
        if InNew g tableSize blocksUsed c then 1 else 0 := by
  have hpos := g.refcountBlockClusters_pos
  have hk := hg.entry_lt h.cluster
  have hb := Nat.lt_of_lt_of_le h.before hg.behind
  by_cases hnew : blocksUsed ≤ c / g.refcountBlockClusters ∧
      c / g.refcountBlockClusters < blocksUsed + (metaClusters g tableSize).2
  · -- counted by a new block
    have hc : blocksUsed * g.refcountBlockClusters ≤ c :=
      (Nat.le_div_iff_mul_le hpos).1 hnew.1
    rw [getRefcount_grown_new h hg hnew.1 hnew.2,
      getRefcount_of_not_present (hg.not_present h.cluster hc), if_neg (by omega : ¬ c = b)]
    omega
  rw [if_neg fun hin => hnew (inNew_entry hg hin), Nat.add_zero]
  by_cases hself : c / g.refcountBlockClusters = k / g.refcountBlockClusters
  · -- counted by the block of `k`
    refine h.getRefcount_self hself hg.fits.2.1 (grown_self hk) fun l => ?_
    rw [grown_block_old hb]
    exact congrFun (update_self ..) l
  rw [h.not_self hself, Nat.add_zero]
  by_cases hold : c / g.refcountBlockClusters < s.refcountTableSize
  · -- counted as before
    refine getRefcount_kept (iff_of_true (Nat.lt_of_lt_of_le hold hg.fits.1) hold)
      (grown_old hg h.cluster hold) fun hp l => ?_
    have hal := Nat.div_mul_cancel (Nat.dvd_of_mod_eq_zero (hs.aligned _ hold))
    have hblock : IsBlock g s (s.refcountTable (c / g.refcountBlockClusters) / g.clusterSize) :=
      ⟨_, hold, hp.2, rfl⟩
    rw [← hal, grown_block_old (hg.meta_lt h.cluster hs (.inl hblock)), hal]
    exact congrFun (update_of_ne (h.table_ne hold) ..) l
  · have hp : ¬ Present g s c := fun hh => hold hh.1
    have hp' : ¬ Present g (grown g s k b counts tableSize blocksUsed) c := by
      intro hh
      exact hh.2 (grown_none hnew hself (Nat.not_lt.1 hold))
    rw [getRefcount_of_not_present hp', getRefcount_of_not_present hp]

section
include h hg

lemma isBlock_grown :
    IsBlock g (grown g s k b counts tableSize blocksUsed) c ↔
      IsBlock g s c ∨ c = b ∨ (blocksUsed * g.refcountBlockClusters ≤ c ∧
        c < blocksUsed * g.refcountBlockClusters + (metaClusters g tableSize).2) := by
  have hk := hg.entry_lt h.cluster
  have hpos : 0 < blocksUsed * g.refcountBlockClusters :=
    Nat.mul_pos (Nat.zero_lt_of_lt hk) g.refcountBlockClusters_pos
  constructor
  · rintro ⟨i, hi, hne, hdiv⟩
    by_cases hnew : blocksUsed ≤ i ∧ i < blocksUsed + (metaClusters g tableSize).2
    · rw [grown_new hnew.1 hnew.2, Nat.mul_div_cancel _ g.clusterSize_pos] at hdiv
      exact .inr (.inr (by omega))
    by_cases hself : i = k / g.refcountBlockClusters
    · rw [hself, grown_self hk, Nat.mul_div_cancel _ g.clusterSize_pos] at hdiv
      exact .inr (.inl hdiv.symm)
    by_cases hold : i < s.refcountTableSize
    · rw [grown_old hg h.cluster hold] at hne hdiv
      exact .inl ⟨i, hold, hne, hdiv⟩
    · exact absurd (grown_none hnew hself (Nat.not_lt.1 hold)) hne
  · rintro (⟨i, hi, hne, hdiv⟩ | rfl | ⟨hle, hlt⟩)
    · refine ⟨i, Nat.lt_of_lt_of_le hi hg.fits.1, ?_, ?_⟩
      · rwa [grown_old hg h.cluster hi]
      · rwa [grown_old hg h.cluster hi]
    · refine ⟨_, hg.fits.2.1, ?_, ?_⟩
      · rw [grown_self hk]
        exact h.offset_pos
      · rw [grown_self hk, Nat.mul_div_cancel _ g.clusterSize_pos]
    · obtain ⟨j, rfl⟩ := Nat.exists_eq_add_of_le hle
      have hi' : blocksUsed + j < blocksUsed + (metaClusters g tableSize).2 := by omega
      refine ⟨blocksUsed + j, Nat.lt_of_lt_of_le hi' hg.fits.2.2.1, ?_, ?_⟩
      · rw [grown_new (Nat.le_add_right _ _) hi']
        exact Nat.mul_ne_zero (by omega) (Nat.pos_iff_ne_zero.1 g.clusterSize_pos)
      · rw [grown_new (Nat.le_add_right _ _) hi', Nat.mul_div_cancel _ g.clusterSize_pos,
          Nat.add_sub_cancel_left]

end

include hg in
lemma inTable_grown :
    InTable g (grown g s k b counts tableSize blocksUsed) c ↔
      blocksUsed * g.refcountBlockClusters + (metaClusters g tableSize).2 ≤ c ∧
        c < blocksUsed * g.refcountBlockClusters + (metaClusters g tableSize).2 +
          (metaClusters g tableSize).1 := by
  have hoff : (grown g s k b counts tableSize blocksUsed).refcountTableOffset =
      (blocksUsed * g.refcountBlockClusters + (metaClusters g tableSize).2) * g.clusterSize := rfl
  have hsize : tableClusters g (grown g s k b counts tableSize blocksUsed) =
      (metaClusters g tableSize).1 := (metaClusters_eq hg.lt).symm
  unfold InTable
  rw [hoff, hsize, Nat.mul_div_cancel _ g.clusterSize_pos]

include h hg in
lemma isMeta_grown :
    IsMeta g (grown g s k b counts tableSize blocksUsed) c ↔
      IsBlock g s c ∨ c = b ∨ InNew g tableSize blocksUsed c := by
  unfold IsMeta InNew
  rw [isBlock_grown h hg, inTable_grown hg]
  constructor
  · rintro ((hb | rfl | hn) | hn)
    · exact .inl hb
    · exact .inr (.inl rfl)
    · exact .inr (.inr (by omega))
    · exact .inr (.inr (by omega))
  · rintro (hb | rfl | hn)
    · exact .inl (.inl hb)
    · exact .inl (.inr (.inl rfl))
    · by_cases hlt : c < blocksUsed * g.refcountBlockClusters + (metaClusters g tableSize).2
      · exact .inl (.inr (.inr ⟨hn.1, hlt⟩))
      · exact .inr ⟨Nat.not_lt.1 hlt, hn.2⟩

include hs h hg in
lemma own_grown (c : Nat) :
    own g (grown g s k b counts tableSize blocksUsed) c =
      own g s c + (if c = b then (x : Int) - 1 else 0) + if InTable g s c then 1 else 0 := by
  refine h.own_eq (getRefcount_grown hs h hg c) ?_ .inr fun hnew => ⟨fun hm => ?_, ?_⟩
  · rw [isMeta_grown h hg]
    refine or_congr_left ⟨fun hb => ⟨.inl hb, hs.apart c hb⟩, fun hm => ?_⟩
    exact hm.1.resolve_right hm.2
  · exact Nat.not_lt.2 hnew.1 (hg.meta_lt h.cluster hs hm)
  · have hb := Nat.lt_of_lt_of_le h.before hg.behind
    have := hnew.1
    omega

include h hg in
lemma grown_cases (hne : (grown g s k b counts tableSize blocksUsed).refcountTable i ≠ 0) :
    (i < s.refcountTableSize ∧
      (grown g s k b counts tableSize blocksUsed).refcountTable i = s.refcountTable i) ∨
    (i = k / g.refcountBlockClusters ∧
      (grown g s k b counts tableSize blocksUsed).refcountTable i = b * g.clusterSize) ∨
    (blocksUsed ≤ i ∧ (grown g s k b counts tableSize blocksUsed).refcountTable i =
      (blocksUsed * g.refcountBlockClusters + (i - blocksUsed)) * g.clusterSize) := by
  by_cases hnew : blocksUsed ≤ i ∧ i < blocksUsed + (metaClusters g tableSize).2
  · exact .inr (.inr ⟨hnew.1, grown_new hnew.1 hnew.2⟩)
  by_cases hself : i = k / g.refcountBlockClusters
  · subst hself
    exact .inr (.inl ⟨rfl, grown_self (hg.entry_lt h.cluster)⟩)
  by_cases hold : i < s.refcountTableSize
  · exact .inl ⟨hold, grown_old hg h.cluster hold⟩
  · exact absurd (grown_none hnew hself (Nat.not_lt.1 hold)) hne

include hs hg in
lemma Growth.table_lt (hk : k < s.freeClusterIndex) (hi : i < s.refcountTableSize)
    (hne : s.refcountTable i ≠ 0) :
    s.refcountTable i < blocksUsed * g.refcountBlockClusters * g.clusterSize := by
  have hlt := hg.meta_lt hk hs (.inl ⟨i, hi, hne, rfl⟩)
  rwa [Nat.div_lt_iff_lt_mul g.clusterSize_pos] at hlt

section
include hs h hg

lemma tableOk_grown : TableOk g (grown g s k b counts tableSize blocksUsed) := by
  have hpos := g.clusterSize_pos
  have hb : b * g.clusterSize < blocksUsed * g.refcountBlockClusters * g.clusterSize :=
    Nat.mul_lt_mul_of_pos_right (Nat.lt_of_lt_of_le h.before hg.behind) hpos
  have hnew : ∀ j, blocksUsed * g.refcountBlockClusters * g.clusterSize ≤
      (blocksUsed * g.refcountBlockClusters + j) * g.clusterSize :=
    fun j => Nat.mul_le_mul_right _ (Nat.le_add_right _ _)
  refine ⟨fun i hi => ?_, fun i hi j hj hne heq => ?_⟩
  · by_cases hne : (grown g s k b counts tableSize blocksUsed).refcountTable i = 0
    · rw [hne, Nat.zero_mod]
    · obtain ⟨hlt, heq⟩ | ⟨-, heq⟩ | ⟨-, heq⟩ := grown_cases h hg hne
      · rw [heq]
        exact hs.aligned i hlt
      · rw [heq, Nat.mul_mod_left]
      · rw [heq, Nat.mul_mod_left]
  · have hne' := hne
    rw [heq] at hne'
    obtain ⟨hi', hei⟩ | ⟨hi', hei⟩ | ⟨hi', hei⟩ := grown_cases h hg hne
    · rw [hei] at hne heq
      have hilt := hg.table_lt hs h.cluster hi' hne
      obtain ⟨hj', hej⟩ | ⟨hj', hej⟩ | ⟨hj', hej⟩ := grown_cases h hg hne'
      · exact hs.inj i hi' j hj' hne (heq.trans hej)
      · exact absurd (heq.trans hej) (h.table_ne hi')
      · have := hnew (j - blocksUsed)
        omega
    · rw [hei] at heq
      obtain ⟨hj', hej⟩ | ⟨hj', hej⟩ | ⟨hj', hej⟩ := grown_cases h hg hne'
      · exact absurd (hej.symm.trans heq.symm) (h.table_ne hj')
      · rw [hi', hj']
      · have := hnew (j - blocksUsed)
        omega
    · rw [hei] at heq
      have := hnew (i - blocksUsed)
      obtain ⟨hj', hej⟩ | ⟨hj', hej⟩ | ⟨hj', hej⟩ := grown_cases h hg hne'
      · rw [hej] at hne'
        have := hg.table_lt hs h.cluster hj' hne'
        omega
      · omega
      · have := Nat.eq_of_mul_eq_mul_right hpos (heq.trans hej)
        omega

lemma sound_grown : Sound g (grown g s k b counts tableSize blocksUsed) where
  toTableOk := tableOk_grown hs h hg
  tableAligned := Nat.mul_mod_left _ _
  apart c hblock hin := by
    have hb := Nat.lt_of_lt_of_le h.before hg.behind
    rw [inTable_grown hg] at hin
    obtain hc | rfl | hc := (isBlock_grown h hg).1 hblock
    · have := hg.meta_lt h.cluster hs (.inl hc)
      omega
    · omega
    · omega
  counted c hm := by
    have hrc := getRefcount_eq (g := g) (s := grown g s k b counts tableSize blocksUsed) c
    have hown := h.own_nonneg hs c
    rw [own_grown hs h hg, metaRefs_of hm] at hrc
    split at hrc <;> omega
  header := by
    have := hs.header
    rw [own_grown hs h hg, if_neg h.pos.symm]
    split <;> omega

lemma grown_hooked (hc : Counted g (grown g s k b counts tableSize blocksUsed) s'
      (rangeDelta g s.refcountTableOffset (s.refcountTableSize * 8) (-1)))
    (hfree : s'.freeClusterIndex = s.freeClusterIndex) : Hooked g s s' k b x := by
  have hcov : ∀ c, rangeDelta g s.refcountTableOffset (s.refcountTableSize * 8) (-1) c =
      -(if InTable g s c then 1 else 0) := by
    intro c
    have hiff : Covers g s.refcountTableOffset (s.refcountTableSize * 8) c ↔ InTable g s c :=
      covers_aligned hs.tableAligned
    unfold rangeDelta
    by_cases hin : InTable g s c
    · rw [if_pos (hiff.2 hin), if_pos hin]
    · rw [if_neg fun hh => hin (hiff.1 hh), if_neg hin]
      rfl
  have hown : ∀ c, own g (grown g s k b counts tableSize blocksUsed) c +
      rangeDelta g s.refcountTableOffset (s.refcountTableSize * 8) (-1) c =
        own g s c + if c = b then (x : Int) - 1 else 0 := by
    intro c
    rw [hcov, own_grown hs h hg]
    omega
  have hk := hg.entry_lt h.cluster
  exact {
    sound := by
      refine hc.sound (sound_grown hs h hg) (fun c => ?_) ?_
      · rw [hown]
        exact h.own_nonneg hs c
      · rw [hown, if_neg h.pos.symm]
        have := hs.header
        omega
    own := fun c => by rw [hc.own_eq, hown]
    free := hfree
    keeps := fun i hi hne => by
      rw [hc.size, hc.table]
      exact ⟨Nat.lt_of_lt_of_le hi hg.fits.1, grown_old hg h.cluster hi⟩
    fresh := fun c hm => by
      obtain hblock | hcb | hnew := (isMeta_grown h hg).1 (hc.isMeta_iff.1 hm)
      · exact .inl (.inl hblock)
      · exact .inr (.inl hcb)
      · refine .inr (.inr ⟨?_, Nat.le_trans hg.behind hnew.1⟩)
        exact getRefcount_of_not_present (hg.not_present h.cluster hnew.1)
    hooks := fun i hi hne => by
      rw [hc.table] at hne
      obtain ⟨hi', heq⟩ | ⟨hi', -⟩ | ⟨hi', -⟩ := grown_cases h hg hne
      · rw [heq] at hne
        exact .inl ⟨hi', hne⟩
      · exact .inr (.inl hi')
      · exact .inr (.inr (Nat.le_trans hg.behind (Nat.mul_le_mul_right _ hi')))
    present := by
      rw [hc.present_iff]
      exact ⟨hg.fits.2.1, by rw [grown_self hk]; exact h.offset_pos⟩
    block := by
      rw [hc.table]
      exact grown_self hk
    bytes := hc.bytes
    cached := hc.cached }

end

end

lemma growRefcountTable_hooked {upd : Update} {fuel : Nat} (hupd : FreeOk g upd)
    (hs : Sound g s) (h : NewBlock g s k b counts x)
    (hsmall : s.refcountTableSize ≤ k / g.refcountBlockClusters)
    (hrun : growRefcountTable g upd fuel (k / g.refcountBlockClusters) (b * g.clusterSize)
      (setBlock s (b * g.clusterSize) counts) = .ok () s') : Hooked g s s' k b x := by
  unfold growRefcountTable at hrun
  split at hrun
  · cases hrun
  rename_i tableSize blocksUsed hsize
  split at hrun
  · cases hrun
  rename_i hbehind
  split at hrun
  · rename_i hfits
    simp only at hrun
    split at hrun
    · cases hrun
    have hg : Growth g s k tableSize blocksUsed :=
      ⟨hsmall, Nat.not_lt.1 hbehind, hfits, newTableSize_lt hsize⟩
    split at hrun
    · rename_i s1 hfree
      have hc : Counted g (grown g s k b counts tableSize blocksUsed) s1
          (rangeDelta g s.refcountTableOffset (s.refcountTableSize * 8) (-1)) := by
        refine hupd _ _ _ _ _ (tableOk_grown hs h hg) (fun c hcov => ?_) hfree
        have hin : InTable g s c := (covers_aligned hs.tableAligned).1 hcov
        have := hs.counted c (.inr hin)
        rw [getRefcount_grown hs h hg]
        omega
      cases hrun
      exact grown_hooked hs h hg ⟨hc.table, hc.size, hc.offset, hc.counts, hc.bytes, hc.cached⟩ rfl
    · cases hrun
  · cases hrun

end grow

end Qcow2
