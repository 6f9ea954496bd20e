import TraceSyscallObj.Qcow2.AllocBlock

/-!
# `qcow2_alloc_clusters`

* `allocClusters_inv`: the clusters are free before, counted once after, and apart from all new
  metadata;
* `fitting_update`: buffers are overrun only by a growth of the table that does not fit;
* `allocClusters_right_iff`: a call as a whole.
-/

namespace Qcow2
open Run
variable {g : Config} {s s' : Refs} {fuel depth size offset length n : Nat}

def Config.clustersFor (g : Config) (size : Nat) : Nat :=
  (size + (g.clusterSize - 1)) / g.clusterSize

lemma covers_clusters {a c : Nat} :
    Covers g (a * g.clusterSize) size c ↔ a ≤ c ∧ c < a + g.clustersFor size := by
  rw [covers_aligned (Nat.mul_mod_left _ _), Nat.mul_div_cancel _ g.clusterSize_pos]
  rfl

lemma Config.sizeToClusters_eq (h : g.clustersFor size < 2 ^ 31) :
    g.sizeToClusters size = g.clustersFor size := by
  unfold Config.clustersFor at h
  unfold Config.sizeToClusters Config.clustersFor
  generalize (size + (g.clusterSize - 1)) / g.clusterSize = m at h ⊢
  exact Int.bmod_eq_of_le (by omega) (by omega)

lemma Moved.count_of_free {p c : Nat} {δ : Nat → Int} {T : Nat → Prop} (hs : Sound g s)
    (hm : Moved g (s.withFree p) s' δ T) (h0 : getRefcount g s c = 0) (hc : c < p) :
    ¬ IsMeta g s' c ∧ (getRefcount g s' c : Int) = δ c := by
  have hmeta : ¬ IsMeta g s' c := fun hmeta =>
    Nat.not_le.2 hc (hm.fresh c hmeta (hs.not_meta h0)).2
  have hrc := getRefcount_eq (g := g) (s := s') c
  have hown : Qcow2.own g (s.withFree p) c = 0 := hs.own_zero h0
  rw [hm.own, metaRefs_of_not hmeta] at hrc
  exact ⟨hmeta, by omega⟩

lemma allocClusters_inv (hs : Sound g s) (hsize : g.clustersFor size < 2 ^ 31)
    (h : qcow2AllocClusters g fuel size s = .ok offset s') :
    ∃ a, offset = a * g.clusterSize ∧ s.freeClusterIndex ≤ a ∧
      (∀ c, a ≤ c → c < a + g.clustersFor size → getRefcount g s c = 0) ∧
      Moved g (s.withFree (a + g.clustersFor size)) s'
        (fun c => if a ≤ c ∧ c < a + g.clustersFor size then 1 else 0)
        (fun c => a ≤ c ∧ c < a + g.clustersFor size) := by
  obtain ⟨_, s1, hnoref, h⟩ := bind_inv h
  obtain ⟨a, rfl, rfl, hle, hall⟩ :=
    allocClustersNoref_inv (Config.sizeToClusters_eq hsize) hnoref
  obtain ⟨_, s2, hupd, h⟩ := bind_inv h
  cases h
  refine ⟨a, rfl, hle, hall, ?_⟩
  refine (updateOk fuel fuel _ _ _ _ _ (hs.withFree _) (fun c hc => .inl ?_) hupd).congr
    (fun c => if_congr covers_clusters rfl rfl) (fun c hc => covers_clusters.1 hc)
  exact (covers_clusters.1 hc).2

/-! ## growths of the table -/

section growths
variable {upd : Update} {alloc : Nat → RefM Nat}

/-- all growths so far fit -/
def Refs.Roomy (g : Config) (fuel : Nat) (s : Refs) : Prop := ∀ gr ∈ s.growths, gr.Fits g fuel

/-- all growths fit, up to one that ends the program with an overrun -/
abbrev Fitting (g : Config) (fuel : Nat) {α : Type} (x : RefM α) : Prop :=
  Guards (Refs.Roomy g fuel) (· = .overrun) x

lemma roomy_append (hs : s.Roomy g fuel) {gr : TableGrowth}
    (h : s'.growths = s.growths ++ [gr]) : s'.Roomy g fuel ↔ gr.Fits g fuel := by
  unfold Refs.Roomy
  rw [h, List.forall_mem_append, List.forall_mem_singleton]
  exact and_iff_right hs

lemma fitting_dropErrno {x : RefM Unit} (hx : Fitting g fuel x) : Fitting g fuel (dropErrno x) := by
  intro s hs
  have h := hx s hs
  unfold dropErrno
  split
  · rename_i heq
    rw [heq] at h
    exact h.2 nofun
  · exact h

lemma fitting_noref (size : Nat) : Fitting g fuel (allocClustersNoref g n size) := by
  have hloop : ∀ nb m i, Fitting g fuel (norefLoop g nb m i) := by
    intro nb m
    induction m with
    | zero => exact fun _ s hs => iff_of_true hs nofun
    | succ m ih =>
      intro i s hs
      unfold norefLoop
      dsimp only
      split
      · split
        · exact ih 0 _ hs
        · exact ih (i + 1) _ hs
      · exact hs
  exact (hloop _ n 0).bind fun _ s hs => hs

lemma growth_fits_iff {i m b : Nat}
    (h : newTableSize g fuel s.refcountTableSize s.freeClusterIndex = some (m, b)) :
    (s.growth i).Fits g fuel ↔ NewFits g s.refcountTableSize i m b := by
  simp only [TableGrowth.Fits, Refs.growth, h]

lemma fitting_grow (hupd : ∀ o l a t, Fitting g fuel (upd o l a t)) (i b : Nat) :
    Fitting g fuel (growRefcountTable g upd fuel i b) := by
  intro s hs
  unfold growRefcountTable
  split
  · exact iff_of_true hs (by decide)
  rename_i tableSize blocksUsed hsize
  have hfits := growth_fits_iff (i := i) hsize
  split
  · exact iff_of_true hs (by decide)
  split
  · rename_i hnew
    simp only
    split
    · exact iff_of_true hs (by decide)
    -- the old table is freed in a state that remembers the growth
    have hroom : (switchTable g s i b tableSize blocksUsed).Roomy g fuel :=
      (roomy_append hs rfl).2 (hfits.2 hnew)
    have hfree := fitting_dropErrno (hupd s.refcountTableOffset (s.refcountTableSize * 8 : Nat) (-1)
      .other) _ hroom
    split
    · rename_i heq
      rw [heq] at hfree
      exact hfree
    · rename_i heq
      rw [heq] at hfree
      exact hfree
  · rename_i hnew
    refine iff_of_false (fun hr => hnew ?_) (not_not_intro rfl)
    exact hfits.1 ((roomy_append hs rfl).1 hr)

lemma fitting_alloc (hupd : ∀ o l a t, Fitting g fuel (upd o l a t)) (k : Nat) :
    Fitting g fuel (allocRefcountBlock g upd fuel k) := by
  refine Guards.bind (fun _ hs => hs) fun s => .ite (fun _ hs => hs) ?_
  refine (fitting_noref _).bind fun b => Guards.bind ?_ fun _ => Guards.bind ?_ fun _ => ?_
  · exact .ite (fun _ hs => hs) ((hupd _ _ _ _).bind fun _ _ hs => hs)
  · intro s hs
    unfold flushBlock
    split
    · exact iff_of_true hs nofun
    · exact hs
  · intro s hs
    show Ends _ _ ((if _ then _ else _ : RefM Nat) s)
    split
    · exact hs
    · exact Guards.bind (f := fun _ => pure b) (fitting_grow hupd _ _) (fun _ _ h => h) s hs

lemma fitting_store (block k v : Nat) (type : DiscardType) :
    Fitting g fuel (storeRefcount g block k v type) := by
  intro s hs
  cases h : storeRefcount g block k v type s with
  | ok _ s' =>
    unfold storeRefcount at h
    simp only at h
    split at h
    · split at h
      · cases h
        exact hs
      · cases h
    · cases h
      exact hs
  | error f s' =>
    have hf := storeRefcount_error h
    unfold storeRefcount at h
    simp only at h
    split at h
    · split at h
      · cases h
      · cases h
        exact iff_of_true hs (by rw [hf]; nofun)
    · cases h

lemma fitting_loop (halloc : ∀ k, Fitting g fuel (alloc k)) (addend : Int) (type : DiscardType)
    (n k : Nat) (cur : Option (Nat × Nat)) :
    Fitting g fuel (updateLoop g alloc addend type n k cur) := by
  induction n generalizing k cur with
  | zero => exact fun s hs => hs
  | succ n ih =>
    intro s hs
    have hblock : Fitting g fuel (blockFor g alloc cur k) := by
      unfold blockFor
      split
      · exact .ite (fun _ hs => hs) (halloc k)
      · exact halloc k
    have h := hblock s hs
    unfold updateLoop
    split
    · rename_i heq
      rw [heq] at h
      exact h.2 nofun
    · rename_i heq
      rw [heq] at h
      exact h
    rename_i block s₁ heq
    rw [heq] at h
    simp only
    split
    · exact h
    have hstore := fitting_store block k (((s₁.refcountBlock block
      (k % g.refcountBlockClusters)).toNat : Int) + addend).toNat type s₁ h
    split
    · rename_i heq
      rw [heq] at hstore
      exact hstore
    · rename_i heq
      rw [heq] at hstore
      exact ih _ _ _ hstore

/-- **buffers are overrun only by a growth of the table that does not fit** -/
theorem fitting_update (depth offset : Nat) (length addend : Int) (type : DiscardType) :
    Fitting g fuel (updateRefcount g fuel depth offset length addend type) := by
  induction depth generalizing offset length addend type with
  | zero => exact fun s hs => iff_of_true hs nofun
  | succ depth ih =>
    have hsettle : ∀ success, Fitting g fuel (settleDiscards g success) := by
      intro success s hs
      unfold settleDiscards qcow2ProcessDiscards
      split
      · exact hs
      · exact hs
    refine .ite (fun s hs => iff_of_true hs nofun) (.ite (fun _ hs => hs) ?_)
    refine (fitting_loop (fitting_alloc ih) _ _ _ _ _).bind fun r => ?_
    unfold finishUpdate
    split
    · exact hsettle true
    · exact (hsettle false).bind fun _ => (fitting_dropErrno (ih _ _ _ _)).bind fun _ s hs =>
        iff_of_true hs nofun

lemma fitting_allocClusters (size : Nat) : Fitting g fuel (qcow2AllocClusters g fuel size) :=
  (fitting_noref size).bind fun _ => (fitting_update _ _ _ _ _).bind fun _ _ hs => hs

end growths

/-! ## a call as a whole -/

section whole
variable {U : Nat → Prop} {maxTable : Nat}

/-- `U` are the clusters in use, those of the refcount structures apart -/
structure Image (g : Config) (s : Refs) (U : Nat → Prop) : Prop extends TableOk g s where
  tableAligned : s.refcountTableOffset % g.clusterSize = 0
  apart : ∀ c, IsBlock g s c → ¬ InTable g s c
  header : U 0
  other : ∀ c, U c → ¬ IsMeta g s c
  counted : ∀ c, U c ∨ IsMeta g s c → 1 ≤ getRefcount g s c

lemma Image.sound (h : Image g s U) : Sound g s where
  toTableOk := h.toTableOk
  tableAligned := h.tableAligned
  apart := h.apart
  counted c hm := h.counted c (.inr hm)
  header := by
    have := h.counted 0 (.inl h.header)
    unfold Qcow2.own
    rw [metaRefs_of_not (h.other 0 h.header)]
    omega

/-- `c` became a cluster of the refcount structures -/
def NewMeta (g : Config) (s s' : Refs) (c : Nat) : Prop := IsMeta g s' c ∧ ¬ IsMeta g s c

/-- the clusters returned and those for new metadata were not in use and have one reference each;
those that are still in use keep their counts -/
structure Allocated (g : Config) (s : Refs) (U : Nat → Prop) (size offset : Nat) (s' : Refs) :
    Prop where
  image : Image g s' fun c => U c ∨ Covers g offset size c
  unused : ∀ c, Covers g offset size c → ¬ U c ∧ ¬ IsMeta g s c
  unusedMeta : ∀ c, NewMeta g s s' c → ¬ U c ∧ ¬ Covers g offset size c
  one : ∀ c, Covers g offset size c ∨ NewMeta g s s' c → getRefcount g s' c = 1
  same : ∀ c, ¬ Covers g offset size c → ¬ NewMeta g s s' c → U c ∨ IsMeta g s' c →
    getRefcount g s' c = getRefcount g s c

structure AllocRight (g : Config) (s : Refs) (U : Nat → Prop) (size : Nat)
    (r : EStateM.Result Fault Refs Nat) : Prop where
  allocated : ∀ offset s', r = .ok offset s' → Allocated g s U size offset s'
  inside : ∀ s', r ≠ .error .overrun s'

lemma allocClusters_allocated (hi : Image g s U) (hsize : g.clustersFor size < 2 ^ 31)
    (h : qcow2AllocClusters g fuel size s = .ok offset s') : Allocated g s U size offset s' := by
  have hs := hi.sound
  obtain ⟨a, rfl, hle, hall, hm⟩ := allocClusters_inv hs hsize h
  have hcov : ∀ c, Covers g (a * g.clusterSize) size c ↔ a ≤ c ∧ c < a + g.clustersFor size :=
    fun c => covers_clusters
  have hfresh : ∀ c, NewMeta g s s' c → getRefcount g s c = 0 ∧ a + g.clustersFor size ≤ c :=
    fun c hc => hm.fresh c hc.1 hc.2
  have hown : ∀ c, own g s' c = own g s c + _ := fun c => hm.own c
  have hunused : ∀ c, getRefcount g s c = 0 → ¬ U c ∧ ¬ IsMeta g s c := by
    intro c h0
    refine ⟨fun hu => ?_, hs.not_meta h0⟩
    have := hi.counted c (.inl hu)
    omega
  have hset : ∀ c, Covers g (a * g.clusterSize) size c →
      ¬ IsMeta g s' c ∧ getRefcount g s' c = 1 := by
    intro c hc
    obtain ⟨h1, h2⟩ := (hcov c).1 hc
    obtain ⟨hmeta, hrc⟩ := hm.count_of_free hs (hall c h1 h2) h2
    exact ⟨hmeta, by omega⟩
  have hone := fun c hc => (hset c hc).2
  have hnew : ∀ c, U c ∨ Covers g (a * g.clusterSize) size c → ¬ IsMeta g s' c := by
    rintro c (hu | hr) hmeta
    · exact (hunused c (hfresh c ⟨hmeta, hi.other c hu⟩).1).1 hu
    · exact (hset c hr).1 hmeta
  have hsame : ∀ c, ¬ Covers g (a * g.clusterSize) size c → ¬ NewMeta g s s' c →
      U c ∨ IsMeta g s' c → getRefcount g s' c = getRefcount g s c := by
    intro c hr hn hc
    have hrc := getRefcount_eq (g := g) (s := s) c
    have hrc' := getRefcount_eq (g := g) (s := s') c
    rw [hown, if_neg fun hh => hr ((hcov c).2 hh)] at hrc'
    have : metaRefs g s' c = metaRefs g s c := by
      obtain hu | hmeta := hc
      · rw [metaRefs_of_not (hnew c (.inl hu)), metaRefs_of_not (hi.other c hu)]
      · have hold : IsMeta g s c := by
          by_contra hold
          exact hn ⟨hmeta, hold⟩
        rw [metaRefs_of hmeta, metaRefs_of hold]
    omega
  exact {
    image := {
      toTableOk := hm.sound.toTableOk
      tableAligned := hm.sound.tableAligned
      apart := hm.sound.apart
      header := .inl hi.header
      other := hnew
      counted := fun c hc => by
        obtain (hu | hr) | hmeta := hc
        · by_cases hr : Covers g (a * g.clusterSize) size c
          · rw [hone c hr]
          · rw [hsame c hr (fun hn => hnew c (.inl hu) hn.1) (.inl hu)]
            exact hi.counted c (.inl hu)
        · rw [hone c hr]
        · exact hm.sound.counted c hmeta }
    unused := fun c hc => hunused c (hall c ((hcov c).1 hc).1 ((hcov c).1 hc).2)
    unusedMeta := fun c hc => by
      obtain ⟨h0, hge⟩ := hfresh c hc
      refine ⟨(hunused c h0).1, fun hr => ?_⟩
      have := (hcov c).1 hr
      omega
    one := fun c hc => by
      obtain hr | hn := hc
      · exact hone c hr
      · obtain ⟨h0, hge⟩ := hfresh c hn
        have hrc := getRefcount_eq (g := g) (s := s') c
        rw [hown, hs.own_zero h0, metaRefs_of hn.1] at hrc
        omega
    same := hsame }

def config512 (maxFile : Nat) : Config :=
  ⟨9, by decide, by decide, fun _ => false, rfl, maxFile⟩

/-- a table of `m` clusters behind the header and its blocks behind it; all clusters that it covers
are in use -/
def fullRefs (m : Nat) : Refs where
  refcountTable i := if i < 64 * m then (m + 1 + i) * 512 else 0
  refcountTableSize := 64 * m
  refcountTableOffset := 512
  refcountBlock _ _ := 1
  freeClusterIndex := 64 * m * 256
  freeByteOffset := 0
  cacheDiscards := false
  discards := []
  discarded := []
  growths := []

lemma fullRefs_count {m maxFile c : Nat} (h : c < 64 * m * 256) :
    getRefcount (config512 maxFile) (fullRefs m) c = 1 := by
  have hlt : c / 256 < 64 * m := by omega
  have hp : Present (config512 maxFile) (fullRefs m) c := by
    refine ⟨hlt, ?_⟩
    show (if c / 256 < 64 * m then (m + 1 + c / 256) * 512 else 0) ≠ 0
    rw [if_pos hlt]
    omega
  rw [getRefcount_of_present hp]
  rfl

lemma fullRefs_meta {m maxFile c : Nat} (h : IsMeta (config512 maxFile) (fullRefs m) c) :
    1 ≤ c ∧ c < m + 1 + 64 * m := by
  obtain ⟨i, hi, -, rfl⟩ | ⟨h1, h2⟩ := h
  · change i < 64 * m at hi
    have : (fullRefs m).refcountTable i = (m + 1 + i) * 512 := if_pos hi
    rw [this]
    show 1 ≤ (m + 1 + i) * 512 / 512 ∧ (m + 1 + i) * 512 / 512 < m + 1 + 64 * m
    omega
  · change 512 / 512 ≤ c at h1
    change c < 512 / 512 + (64 * m * 8 + (512 - 1)) / 512 at h2
    omega

lemma fullRefs_image {m : Nat} (maxFile : Nat) (hm : 1 ≤ m) :
    Image (config512 maxFile) (fullRefs m) (· = 0) where
  aligned i hi := by
    show (if i < 64 * m then (m + 1 + i) * 512 else 0) % 512 = 0
    split <;> omega
  inj i hi j hj hne heq := by
    change i < 64 * m at hi
    change j < 64 * m at hj
    change (if i < 64 * m then (m + 1 + i) * 512 else 0) =
      if j < 64 * m then (m + 1 + j) * 512 else 0 at heq
    rw [if_pos hi, if_pos hj] at heq
    omega
  tableAligned := Nat.mod_self 512
  apart c hb hin := by
    obtain ⟨i, hi, -, rfl⟩ := hb
    have heq : (fullRefs m).refcountTable i = (m + 1 + i) * 512 := if_pos hi
    rw [heq] at hin
    have : (m + 1 + i) * 512 / 512 < 512 / 512 + (64 * m * 8 + (512 - 1)) / 512 := hin.2
    omega
  header := rfl
  other c hc hmeta := by
    have := fullRefs_meta hmeta
    omega
  counted c hc := by
    have hlt : c < m + 1 + 64 * m := by
      obtain hc | hmeta := hc
      · omega
      · exact (fullRefs_meta hmeta).2
    rw [fullRefs_count (by omega)]

end whole

end Qcow2
