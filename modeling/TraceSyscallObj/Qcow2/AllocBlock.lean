import TraceSyscallObj.Qcow2.BlockTable

/-!
# `alloc_refcount_block`

A new refcount block lies in a free cluster.  It describes itself, or it is counted by a block
that is there or made in turn.

* `allocClustersNoref_inv`: the clusters found are free;
* `allocRefcountBlock_ok`: what the function promises, if `update_refcount` keeps its promises;
* `updateOk`: what `update_refcount` promises, at every depth.
-/

namespace Qcow2
open Run

/-! ## free clusters -/

section noref
variable {g : Config} {s s' : Refs} {n fuel i size : Nat}

def Refs.withFree (s : Refs) (f : Nat) : Refs := { s with freeClusterIndex := f }

/-- the last `i` clusters before the pointer are free -/
lemma norefLoop_inv (hi : i ≤ s.freeClusterIndex) (hin : i ≤ n)
    (hfree : ∀ c, s.freeClusterIndex - i ≤ c → c < s.freeClusterIndex → getRefcount g s c = 0)
    (h : norefLoop g n fuel i s = .ok () s') :
    ∃ a, s' = s.withFree (a + n) ∧ s.freeClusterIndex - i ≤ a ∧
      ∀ c, a ≤ c → c < a + n → getRefcount g s c = 0 := by
  induction fuel generalizing i s with
  | zero => cases h
  | succ fuel ih =>
    unfold norefLoop at h
    split at h
    · rename_i hlt
      split at h
      · obtain ⟨a, ha, hle, hall⟩ := ih (Nat.zero_le _) (Nat.zero_le _)
          (fun c hle hlt' => by simp only at hle hlt'; omega) h
        exact ⟨a, ha, by simp only at hle; omega, hall⟩
      rename_i h0
      rw [not_not] at h0
      obtain ⟨a, ha, hle, hall⟩ := ih (by simp only; omega) (by omega)
        (fun c hle hlt' => by
          simp only at hle hlt'
          by_cases hc : c = s.freeClusterIndex
          · rw [hc]
            exact h0
          · exact hfree c (by omega) (by omega)) h
      exact ⟨a, ha, by simp only at hle; omega, hall⟩
    · rename_i hlt
      have hs : s' = s := by
        cases h
        rfl
      have hin' : i = n := by omega
      subst hs hin'
      refine ⟨s'.freeClusterIndex - i, ?_, Nat.le_refl _, fun c hle hlt => hfree c hle (by omega)⟩
      rw [Nat.sub_add_cancel hi]
      rfl

lemma allocClustersNoref_inv {offset : Nat} (hn : g.sizeToClusters size = n)
    (h : allocClustersNoref g fuel size s = .ok offset s') :
    ∃ a, offset = a * g.clusterSize ∧ s' = s.withFree (a + n) ∧ s.freeClusterIndex ≤ a ∧
      ∀ c, a ≤ c → c < a + n → getRefcount g s c = 0 := by
  unfold allocClustersNoref at h
  rw [hn] at h
  obtain ⟨_, s1, hloop, h⟩ := bind_inv h
  obtain ⟨a, rfl, hle, hall⟩ := norefLoop_inv (Nat.zero_le _) (Nat.zero_le _)
    (fun c hle hlt => by omega) hloop
  cases h
  refine ⟨a, ?_, rfl, hle, hall⟩
  have : (((s.withFree (a + n)).freeClusterIndex : Int) - n).toNat = a := by
    unfold Refs.withFree
    simp only
    omega
  rw [this]

lemma Config.sizeToClusters_one (g : Config) : g.sizeToClusters g.clusterSize = (1 : Nat) := by
  have hpos := g.clusterSize_pos
  have : (g.clusterSize + (g.clusterSize - 1)) / g.clusterSize = 1 := by
    rw [Nat.add_div_left _ hpos, Nat.div_eq_of_lt (by omega)]
  unfold Config.sizeToClusters
  rw [this]
  rfl

end noref

/-! ## the whole function -/

section alloc
variable {g : Config} {s s' u : Refs} {upd : Update} {fuel k b c x : Nat}

lemma Sound.withFree (h : Sound g s) (f : Nat) : Sound g (s.withFree f) :=
  ⟨⟨h.aligned, h.inj⟩, h.tableAligned, h.apart, h.counted, h.header⟩

lemma inSameRefcountBlock_iff :
    inSameRefcountBlock g (b * g.clusterSize) (k * g.clusterSize) = true ↔
      b / g.refcountBlockClusters = k / g.refcountBlockClusters := by
  unfold inSameRefcountBlock
  rw [beq_iff_eq, Nat.mul_comm b, Nat.mul_comm k, Nat.mul_div_mul_left _ _ g.clusterSize_pos,
    Nat.mul_div_mul_left _ _ g.clusterSize_pos]

lemma initBlock_inv (hupd : UpdateOk g upd) (hs : Sound g s) (hk : k < s.freeClusterIndex)
    (hmiss : ¬ Present g s k) (hle : s.freeClusterIndex ≤ b) (h0 : getRefcount g s b = 0)
    (h : initBlock g upd k (b * g.clusterSize) (s.withFree (b + 1)) = .ok () s') :
    ∃ u counts x, s' = setBlock u (b * g.clusterSize) counts ∧ NewBlock g u k b counts x ∧
      Moved g (s.withFree (b + 1)) u (fun c => if c = b then 1 - (x : Int) else 0) (· = b) := by
  have hs1 := hs.withFree (b + 1)
  have hun : ¬ IsMeta g s b := hs.not_meta h0
  have hown : own g s b = 0 := hs.own_zero h0
  unfold initBlock at h
  by_cases hself : inSameRefcountBlock g (b * g.clusterSize) (k * g.clusterSize) = true
  · rw [if_pos hself] at h
    rw [inSameRefcountBlock_iff] at hself
    cases h
    refine ⟨s.withFree (b + 1), _, 1, rfl, ?_, ?_⟩
    · exact {
        missing := hmiss
        unused := hun
        pos := hs.ne_zero h0
        before := Nat.lt_succ_self b
        cluster := Nat.lt_succ_of_le (Nat.le_of_lt (Nat.lt_of_lt_of_le hk hle))
        counts := fun c hc => by
          rw [Nat.mul_div_cancel _ g.clusterSize_pos]
          by_cases hcb : c = b
          · rw [if_pos hcb, if_pos (by rw [hcb])]
            rfl
          have hne : c % g.refcountBlockClusters ≠ b % g.refcountBlockClusters := by
            intro hmod
            have h1 := Nat.div_add_mod c g.refcountBlockClusters
            have h2 := Nat.div_add_mod b g.refcountBlockClusters
            rw [hc, ← hself, hmod] at h1
            exact hcb (h1.symm.trans h2)
          rw [if_neg hcb, if_neg hne]
          rfl
        self := fun hne => absurd hself hne
        once := by
          show own g s b + 1 = 1
          omega }
    · refine (Moved.refl hs1).congr (fun c => ?_) fun _ h => h
      split <;> rfl
  · rw [if_neg hself] at h
    rw [inSameRefcountBlock_iff] at hself
    obtain ⟨_, u, hu, h⟩ := bind_inv h
    cases h
    have hm : Moved g (s.withFree (b + 1)) u (fun c => if c = b then 1 else 0) (· = b) := by
      refine (hupd _ _ _ _ _ hs1 (fun c hc => .inl ?_) hu).congr (fun c => ?_)
        fun c hc => covers_cluster.1 hc
      · rw [covers_cluster.1 hc]
        exact Nat.lt_succ_self b
      · unfold rangeDelta
        by_cases hcb : c = b
        · rw [if_pos (covers_cluster.2 hcb), if_pos hcb]
        · rw [if_neg fun hh => hcb (covers_cluster.1 hh), if_neg hcb]
    refine ⟨u, _, 0, rfl, ?_, hm.congr (fun c => by split <;> rfl) fun _ h => h⟩
    exact {
      missing := fun hp => by
        -- blocks were added only behind the pointer, and `k` lies before it
        obtain hold | ⟨c, hc, hh⟩ := hm.hooks _ hp.1 hp.2
        · exact hmiss hold
        have hbc : b ≤ c := by
          obtain hh | hh := hh
          · exact Nat.le_of_lt hh
          · exact Nat.le_of_eq hh.symm
        have h1 : k / g.refcountBlockClusters ≤ b / g.refcountBlockClusters :=
          Nat.div_le_div_right (by omega)
        have h2 : b / g.refcountBlockClusters ≤ c / g.refcountBlockClusters :=
          Nat.div_le_div_right hbc
        omega
      unused := fun hmeta => by
        have := (hm.fresh b hmeta hun).2
        exact absurd this (Nat.not_le.2 (Nat.lt_succ_self b))
      pos := hs.ne_zero h0
      before := Nat.lt_of_lt_of_le (Nat.lt_succ_self b) hm.free
      cluster := Nat.lt_of_lt_of_le
        (Nat.lt_succ_of_le (Nat.le_of_lt (Nat.lt_of_lt_of_le hk hle))) hm.free
      counts := fun c _ => by
        split <;> rfl
      self := fun _ => rfl
      once := by
        have h1 : own g u b = own g s b + _ := hm.own b
        omega }

lemma flushBlock_inv {nb : Nat} (h : flushBlock g nb s = .ok () s') : s' = s := by
  unfold flushBlock at h
  split at h
  · cases h
  · cases h
    rfl

lemma Hooked.moved (hle : s.freeClusterIndex ≤ b) (h0 : getRefcount g s b = 0)
    (hm : Moved g (s.withFree (b + 1)) u (fun c => if c = b then 1 - (x : Int) else 0) (· = b))
    (hh : Hooked g u s' k b x) : Moved g s s' (fun _ => 0) (· = k) where
  sound := hh.sound
  own c := by
    have h1 : Qcow2.own g u c = Qcow2.own g s c + _ := hm.own c
    rw [hh.own]
    split <;> omega
  free := by
    rw [hh.free]
    exact Nat.le_trans hle (Nat.le_of_lt hm.free)
  keeps i hi hne := by
    obtain ⟨hi', heq⟩ := hm.keeps i hi hne
    obtain ⟨hi'', heq'⟩ := hh.keeps i hi' (by rw [heq]; exact hne)
    exact ⟨hi'', heq'.trans heq⟩
  fresh c hmeta hn := by
    obtain hu | rfl | ⟨hu, hfree⟩ := hh.fresh c hmeta
    · obtain ⟨hc, hfree⟩ := hm.fresh c hu hn
      exact ⟨hc, Nat.le_trans hle (Nat.le_of_lt hfree)⟩
    · exact ⟨h0, hle⟩
    have hbc : b < c := Nat.lt_of_lt_of_le hm.free hfree
    have h1 : Qcow2.own g u c = Qcow2.own g s c + _ := hm.own c
    have hrc := getRefcount_eq (g := g) (s := s) c
    rw [hm.sound.own_zero hu] at h1
    rw [metaRefs_of_not hn] at hrc
    exact ⟨by omega, Nat.le_trans hle (Nat.le_of_lt hbc)⟩
  hooks i hi hne := by
    obtain ⟨hi', hne'⟩ | rfl | hfree := hh.hooks i hi hne
    · obtain hold | ⟨c, hc, hcase⟩ := hm.hooks i hi' hne'
      · exact .inl hold
      · refine .inr ⟨c, hc, .inl ?_⟩
        obtain hcase | rfl := hcase
        · exact Nat.le_trans hle (Nat.le_of_lt hcase)
        · exact hle
    · exact .inr ⟨k, rfl, .inr rfl⟩
    · refine .inr ⟨i * g.refcountBlockClusters, ?_, .inl ?_⟩
      · rw [Nat.mul_div_cancel _ g.refcountBlockClusters_pos]
      · exact Nat.le_trans hle (Nat.le_of_lt (Nat.lt_of_lt_of_le hm.free hfree))
  bytes := hh.bytes.trans hm.bytes
  cached := hh.cached.trans hm.cached

lemma allocRefcountBlock_ok (hupd : UpdateOk g upd) (hfree : FreeOk g upd) :
    AllocOk g (allocRefcountBlock g upd fuel) := by
  intro s s' k nb hs hk h
  by_cases hp : Present g s k
  · rw [allocRefcountBlock_finds upd fuel s k hs.toTableOk hp] at h
    cases h
    exact ⟨.refl hs, hp, rfl⟩
  have hk' := hk.resolve_right hp
  change (if _ then _ else _ : RefM Nat) s = _ at h
  rw [if_neg (hs.toTableOk.missing hp)] at h
  obtain ⟨_, s1, hnoref, h⟩ := bind_inv h
  obtain ⟨b, rfl, rfl, hle, hall⟩ := allocClustersNoref_inv g.sizeToClusters_one hnoref
  have h0 := hall b (Nat.le_refl _) (Nat.lt_succ_self _)
  obtain ⟨_, s2, hinit, h⟩ := bind_inv h
  obtain ⟨u, counts, x, rfl, hnew, hm⟩ := initBlock_inv hupd hs hk' hp hle h0 hinit
  obtain ⟨_, s3, hflush, h⟩ := bind_inv h
  obtain rfl := flushBlock_inv hflush
  have hh : Hooked g u s' k b x ∧ nb = b * g.clusterSize := by
    change (if _ then _ else _ : RefM Nat) _ = _ at h
    split at h
    · rename_i ht
      cases h
      exact ⟨hook_hooked hnew ht hm.sound, rfl⟩
    · rename_i ht
      obtain ⟨_, s3, hgrow, h⟩ := bind_inv h
      cases h
      exact ⟨growRefcountTable_hooked hfree hm.sound hnew (Nat.not_lt.1 ht) hgrow, rfl⟩
  exact ⟨hh.1.moved hle h0 hm, hh.1.present, hh.2.trans hh.1.block.symm⟩

/-- **counting up keeps the refcount structures sound and changes no other count** -/
theorem updateOk (fuel depth : Nat) : UpdateOk g (updateRefcount g fuel depth) := by
  induction depth with
  | zero =>
    intro s s' offset length type _ _ h
    cases h
  | succ depth ih =>
    exact updateRefcount_updateOk (allocRefcountBlock_ok ih updateRefcount_freeOk)

end alloc

end Qcow2
