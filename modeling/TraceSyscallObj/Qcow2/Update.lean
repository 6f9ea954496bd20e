import TraceSyscallObj.Lib.Checked
import TraceSyscallObj.Lib.Run
import TraceSyscallObj.Qcow2.Counts

/-!
# `update_refcount`

The loop over the clusters of a range, once where all blocks are there and once where they may
have to be made.

* `Covers`: the clusters that a range of bytes touches;
* `updateRefcount_present`: all blocks are there: every cluster of the range is counted up or down;
* `UpdateOk`, `AllocOk`: what `update_refcount` and `alloc_refcount_block` promise each other;
* `updateRefcount_ok`: from `AllocOk` to `UpdateOk`.
-/

namespace Qcow2
open Run
variable (g : Config) {offset : Nat}

/-- `length` bytes at `offset` touch cluster `c` -/
def Covers (offset length c : Nat) : Prop :=
  0 < length ∧ offset / g.clusterSize ≤ c ∧ c ≤ (offset + length - 1) / g.clusterSize

instance (offset length c : Nat) : Decidable (Covers g offset length c) :=
  inferInstanceAs (Decidable (_ ∧ _ ∧ _))

/-- `addend` for each cluster of a range -/
def rangeDelta (offset length : Nat) (addend : Int) (c : Nat) : Int :=
  if Covers g offset length c then addend else 0

section covers
variable {g} {b c : Nat}

lemma covers_aligned {length : Nat} (hal : offset % g.clusterSize = 0) :
    Covers g offset length c ↔ offset / g.clusterSize ≤ c ∧
      c < offset / g.clusterSize + (length + (g.clusterSize - 1)) / g.clusterSize := by
  have hpos := g.clusterSize_pos
  obtain ⟨q, rfl⟩ := Nat.dvd_of_mod_eq_zero hal
  unfold Covers
  by_cases hlen : length = 0
  · subst hlen
    have h0 : (0 + (g.clusterSize - 1)) / g.clusterSize = 0 := Nat.div_eq_of_lt (by omega)
    omega
  · have h1 : (g.clusterSize * q + length - 1) / g.clusterSize =
        q + (length - 1) / g.clusterSize := by
      rw [Nat.add_sub_assoc (by omega), Nat.mul_add_div hpos]
    have h2 : (length + (g.clusterSize - 1)) / g.clusterSize =
        (length - 1) / g.clusterSize + 1 := by
      rw [← Nat.add_div_right _ hpos]
      congr 1
      omega
    rw [Nat.mul_div_cancel_left _ hpos]
    omega

lemma covers_cluster : Covers g (b * g.clusterSize) g.clusterSize c ↔ c = b := by
  have hpos := g.clusterSize_pos
  have h1 : (g.clusterSize + (g.clusterSize - 1)) / g.clusterSize = 1 := by
    rw [Nat.add_div_left _ hpos, Nat.div_eq_of_lt (by omega)]
  rw [covers_aligned (Nat.mul_mod_left _ _), Nat.mul_div_cancel _ hpos]
  omega

end covers

variable {f : Fault} {k : Nat}

section runs
variable {g} {s s' : Refs}

lemma dropErrno_inv {x : RefM Unit} (h : dropErrno x s = .ok () s') :
    x s = .ok () s' ∨ ∃ e, x s = .error (.errno e) s' := by
  unfold dropErrno at h
  split at h
  · rename_i e s1 heq
    cases h
    exact .inr ⟨e, heq⟩
  · exact .inl h

lemma settleDiscards_counted {success : Bool} (h : settleDiscards g success s = .ok () s') :
    Counted g s s' (fun _ => 0) ∧ s'.freeClusterIndex = s.freeClusterIndex := by
  unfold settleDiscards qcow2ProcessDiscards at h
  split at h
  · cases h
    exact ⟨.refl, rfl⟩
  · cases h
    exact ⟨⟨rfl, rfl, rfl, fun _ => (Int.add_zero _).symm, rfl, rfl⟩, rfl⟩

lemma settleDiscards_ne_error {success : Bool} : settleDiscards g success s ≠ .error f s' := by
  unfold settleDiscards qcow2ProcessDiscards
  intro h
  split at h <;> cases h

lemma finishUpdate_some {upd : Update} {addend : Int} {e : Errno} :
    finishUpdate g upd offset addend (some (k, e)) s ≠ .ok () s' := by
  intro h
  obtain ⟨_, _, _, h⟩ := bind_inv h
  obtain ⟨_, _, _, h⟩ := bind_inv h
  cases h

lemma updateRefcount_inv {fuel depth : Nat} {length addend : Int} {type : DiscardType}
    (hlen : 0 < length)
    (h : updateRefcount g fuel (depth + 1) offset length addend type s = .ok () s') :
    ∃ s1, updateLoop g (allocRefcountBlock g (updateRefcount g fuel depth) fuel) addend type
        ((offset + length.toNat - 1) / g.clusterSize - offset / g.clusterSize + 1)
        (offset / g.clusterSize) none s = .ok none s1 ∧
      Counted g s1 s' (fun _ => 0) ∧ s'.freeClusterIndex = s1.freeClusterIndex := by
  unfold updateRefcount at h
  rw [if_neg (by omega), if_neg (by omega)] at h
  obtain ⟨r, s1, hloop, h⟩ := bind_inv h
  cases r with
  | some p => exact absurd h finishUpdate_some
  | none => exact ⟨s1, hloop, settleDiscards_counted h⟩

end runs

/-! ## all blocks are there -/

variable {cur : Option (Nat × Nat)} {n : Nat}

section present
variable {g} {s s' : Refs} {alloc : Nat → RefM Nat} {addend : Int} {type : DiscardType}

/-- the block kept from the last cluster is the one of its table entry -/
def CurOk (s : Refs) (cur : Option (Nat × Nat)) : Prop :=
  ∀ t b, cur = some (t, b) →
    t < s.refcountTableSize ∧ s.refcountTable t = b ∧ s.refcountTable t ≠ 0

/-- blocks that are there are found -/
def Finds (g : Config) (alloc : Nat → RefM Nat) : Prop :=
  ∀ s c, TableOk g s → Present g s c →
    alloc c s = .ok (s.refcountTable (c / g.refcountBlockClusters)) s

lemma blockFor_present (hfinds : Finds g alloc) (hs : TableOk g s) (hcur : CurOk s cur)
    (hk : Present g s k) :
    blockFor g alloc cur k s = .ok (s.refcountTable (k / g.refcountBlockClusters)) s := by
  unfold blockFor
  cases cur with
  | none => exact hfinds s k hs hk
  | some p =>
    obtain ⟨t, b⟩ := p
    simp only
    split
    · rename_i ht
      obtain ⟨-, hb, -⟩ := hcur t b rfl
      rw [← ht, hb]
      rfl
    · exact hfinds s k hs hk

lemma CurOk.none : CurOk s none := by
  intro t b h
  cases h

lemma CurOk.some (hk : Present g s k) :
    CurOk s (some (k / g.refcountBlockClusters, s.refcountTable (k / g.refcountBlockClusters))) := by
  rintro t b h
  cases h
  exact ⟨hk.1, rfl, hk.2⟩

lemma Counted.entry {δ : Nat → Int} (hc : Counted g s s' δ) (hk : Present g s k) :
    Present g s' k ∧ s.refcountTable (k / g.refcountBlockClusters) =
      s'.refcountTable (k / g.refcountBlockClusters) :=
  ⟨hc.present_iff.2 hk, by rw [hc.table]⟩

/-- how the loop ends: after all clusters, or where a count leaves its range -/
inductive LoopEnd (s : Refs) (addend : Int) (k n : Nat) : Option (Nat × Errno) → Nat → Prop where
  | done : LoopEnd s addend k n none (k + n)
  | failed {j : Nat} (hle : k ≤ j) (hlt : j < k + n)
      (hbad : (getRefcount g s j : Int) + addend < 0 ∨ 0xffff < (getRefcount g s j : Int) + addend) :
      LoopEnd s addend k n (some (j, .einval)) j

lemma updateLoop_present (hfinds : Finds g alloc) {r : Option (Nat × Errno)} (hs : TableOk g s)
    (hcur : CurOk s cur) (hp : ∀ c, k ≤ c → c < k + n → Present g s c)
    (h : updateLoop g alloc addend type n k cur s = .ok r s') :
    ∃ stop, LoopEnd (g := g) s addend k n r stop ∧
      Counted g s s' (fun c => if k ≤ c ∧ c < stop then addend else 0) := by
  induction n generalizing k cur s with
  | zero =>
    cases h
    refine ⟨k, .done, Counted.refl.congr fun c => ?_⟩
    rw [if_neg (by omega)]
  | succ n ih =>
    have hk := hp k (Nat.le_refl _) (by omega)
    unfold updateLoop at h
    rw [blockFor_present hfinds hs hcur hk] at h
    simp only at h
    rw [← getRefcount_of_present hk] at h
    split at h
    · rename_i hbad
      cases h
      refine ⟨k, .failed (Nat.le_refl _) (by omega) hbad, Counted.refl.congr fun c => ?_⟩
      rw [if_neg (by omega)]
    · rename_i hok
      split at h
      · cases h
      rename_i s1 hstore
      obtain ⟨hc, -⟩ := storeRefcount_inv hs hk (by omega) hstore
      obtain ⟨hk1, hblock⟩ := hc.entry hk
      rw [hblock] at h
      obtain ⟨stop, hend, hc'⟩ := ih (hc.tableOk hs) (.some hk1)
        (fun c hle hlt => hc.present_iff.2 (hp c (by omega) (by omega))) h
      have hstop : k + 1 ≤ stop := by
        cases hend with
        | done => omega
        | failed hle hlt hbad => exact hle
      refine ⟨stop, ?_, (hc.trans hc').congr fun c => ?_⟩
      · cases hend with
        | done =>
          rw [show k + 1 + n = k + (n + 1) by omega]
          exact .done
        | failed hle hlt hbad =>
          refine .failed (by omega) (by omega) ?_
          have hcj := hc.counts stop
          rw [if_neg (by omega)] at hcj
          rwa [hcj] at hbad
      · by_cases hck : c = k
        · rw [if_pos hck]
          omega
        · rw [if_neg hck, Int.zero_add]
          by_cases hin : k + 1 ≤ c ∧ c < stop
          · rw [if_pos hin, if_pos (by omega)]
          · rw [if_neg hin, if_neg (by omega)]

lemma mergeAdjacent_error {d : Region} {kept ps : List Region}
    (h : mergeAdjacent d kept ps = .error f) : f = .assert := by
  induction ps generalizing d kept with
  | nil => cases h
  | cons p ps ih =>
    unfold mergeAdjacent at h
    split at h
    · exact ih h
    · split at h
      · exact ih h
      · cases h
        rfl

lemma updateRefcountDiscard_error {length : Nat} {ds : List Region}
    (h : updateRefcountDiscard offset length ds = .error f) : f = .assert := by
  obtain h | ⟨q, -, h⟩ := Checked.bind_error_inv h
  · unfold joinDiscard at h
    split at h
    · simp only at h
      split at h
      · cases h
      · cases h
        rfl
    · cases h
  · obtain h | ⟨d, -, h⟩ := Checked.bind_error_inv h
    · exact mergeAdjacent_error h
    · obtain h | ⟨d, -, h⟩ := Checked.bind_error_inv h
      · exact mergeAdjacent_error h
      · cases h

lemma storeRefcount_error {block v : Nat}
    (h : storeRefcount g block k v type s = .error f s') : f = .assert := by
  unfold storeRefcount at h
  simp only at h
  split at h
  · split at h
    · cases h
    · rename_i e heq
      cases h
      exact updateRefcountDiscard_error heq
  · cases h

lemma updateLoop_present_error (hfinds : Finds g alloc) (hs : TableOk g s) (hcur : CurOk s cur)
    (hp : ∀ c, k ≤ c → c < k + n → Present g s c)
    (h : updateLoop g alloc addend type n k cur s = .error f s') : f = .assert := by
  induction n generalizing k cur s with
  | zero => cases h
  | succ n ih =>
    have hk := hp k (Nat.le_refl _) (by omega)
    unfold updateLoop at h
    rw [blockFor_present hfinds hs hcur hk] at h
    simp only at h
    split at h
    · cases h
    split at h
    · rename_i hstore
      cases h
      exact storeRefcount_error hstore
    rename_i s1 hstore
    obtain ⟨hc, -⟩ := storeRefcount_inv hs hk (by omega) hstore
    obtain ⟨hk1, hblock⟩ := hc.entry hk
    rw [hblock] at h
    exact ih (hc.tableOk hs) (.some hk1)
      (fun c hle hlt => hc.present_iff.2 (hp c (by omega) (by omega))) h

lemma reftOffset_eq {t : Nat} (h : t % g.clusterSize = 0) : reftOffset t = t := by
  have := Nat.dvd_of_mod_eq_zero h
  exact Nat.div_mul_cancel (Nat.dvd_trans g.clusterSize_dvd this)

lemma TableOk.missing {s : Refs} {c : Nat} (hs : TableOk g s) (hp : ¬ Present g s c) :
    ¬ (c / g.refcountBlockClusters < s.refcountTableSize ∧
      reftOffset (s.refcountTable (c / g.refcountBlockClusters)) ≠ 0) := by
  rintro ⟨hlt, hne⟩
  rw [reftOffset_eq (hs.aligned _ hlt)] at hne
  exact hp ⟨hlt, hne⟩

lemma allocRefcountBlock_finds (upd : Update) (fuel : Nat) :
    Finds g (allocRefcountBlock g upd fuel) := by
  intro s c hs hc
  have heq := reftOffset_eq (hs.aligned _ hc.1)
  show (if _ then _ else _ : RefM Nat) s = _
  rw [heq, if_pos ⟨hc.1, hc.2⟩]
  rfl

variable {fuel depth length : Nat}

lemma covers_iff (g : Config) (offset : Nat) (hlen : 0 < length) (c : Nat) :
    Covers g offset length c ↔ offset / g.clusterSize ≤ c ∧ c < offset / g.clusterSize +
      ((offset + ((length : Nat) : Int).toNat - 1) / g.clusterSize - offset / g.clusterSize + 1) := by
  have : offset / g.clusterSize ≤ (offset + length - 1) / g.clusterSize :=
    Nat.div_le_div_right (by omega)
  rw [Int.toNat_natCast]
  unfold Covers
  omega

lemma loopDelta_eq (g : Config) (offset : Nat) (hlen : 0 < length) (addend : Int) (c : Nat) :
    (if offset / g.clusterSize ≤ c ∧ c < offset / g.clusterSize +
        ((offset + ((length : Nat) : Int).toNat - 1) / g.clusterSize - offset / g.clusterSize + 1)
      then addend else 0) = rangeDelta g offset length addend c :=
  if_congr (covers_iff g offset hlen c).symm rfl rfl

lemma updateRefcount_zero {r : EStateM.Result Fault Refs Unit}
    (h : updateRefcount g fuel (depth + 1) offset (0 : Nat) addend type s = r) : r = .ok () s := by
  subst h
  rfl

section
variable (hs : TableOk g s) (hp : ∀ c, Covers g offset length c → Present g s c)
include hs hp

lemma updateRefcount_present
    (h : updateRefcount g fuel depth offset length addend type s = .ok () s') :
    Counted g s s' (rangeDelta g offset length addend) := by
  cases depth with
  | zero => cases h
  | succ depth =>
    by_cases hlen : length = 0
    · subst hlen
      cases updateRefcount_zero h
      refine Counted.refl.congr fun c => ?_
      rw [rangeDelta, if_neg (by unfold Covers; omega)]
    · have hpos : 0 < length := by omega
      obtain ⟨s1, hloop, hfin, -⟩ := updateRefcount_inv (by omega) h
      obtain ⟨stop, hstop, hc⟩ := updateLoop_present (allocRefcountBlock_finds _ _) hs .none
        (fun c hle hlt => hp c ((covers_iff g offset hpos c).2 ⟨hle, hlt⟩)) hloop
      cases hstop
      exact (hc.trans hfin).congr fun c => by rw [Int.add_zero, loopDelta_eq g offset hpos]

lemma updateRefcount_present_error
    (h : updateRefcount g fuel depth offset length addend type s = .error f s') :
    f = .hang ∨ f = .assert ∨ ∃ c, Covers g offset length c ∧
      ((getRefcount g s c : Int) + addend < 0 ∨ 0xffff < (getRefcount g s c : Int) + addend) := by
  cases depth with
  | zero =>
    cases h
    exact .inl rfl
  | succ depth =>
    by_cases hlen : length = 0
    · subst hlen
      cases updateRefcount_zero h
    have hpos : 0 < length := by omega
    have hcov := covers_iff g offset hpos
    unfold updateRefcount at h
    rw [if_neg (by omega), if_neg (by omega)] at h
    obtain hloop | ⟨r, s1, hloop, h⟩ := bind_error_inv h
    · exact .inr (.inl (updateLoop_present_error (allocRefcountBlock_finds _ _) hs .none
        (fun c hle hlt => hp c ((hcov c).2 ⟨hle, hlt⟩)) hloop))
    · obtain ⟨stop, hstop, hc⟩ := updateLoop_present (allocRefcountBlock_finds _ _) hs .none
        (fun c hle hlt => hp c ((hcov c).2 ⟨hle, hlt⟩)) hloop
      cases hstop with
      | done => exact absurd h settleDiscards_ne_error
      | failed hle hlt hbad => exact .inr (.inr ⟨stop, (hcov stop).2 ⟨hle, hlt⟩, hbad⟩)

end

end present

/-! ## blocks may have to be made -/

section moved

/-- counting up clusters that were set aside before the pointer, or that are counted already -/
def UpdateOk (upd : Update) : Prop :=
  ∀ (s s' : Refs) (offset length : Nat) (type : DiscardType), Sound g s →
    (∀ c, Covers g offset length c → c < s.freeClusterIndex ∨ Present g s c) →
    upd offset length 1 type s = .ok () s' →
    Moved g s s' (rangeDelta g offset length 1) (Covers g offset length)

/-- counting down clusters that are counted -/
def FreeOk (upd : Update) : Prop :=
  ∀ (s s' : Refs) (offset length : Nat) (type : DiscardType), TableOk g s →
    (∀ c, Covers g offset length c → 1 ≤ getRefcount g s c) →
    dropErrno (upd offset length (-1) type) s = .ok () s' →
    Counted g s s' (rangeDelta g offset length (-1))

def AllocOk (alloc : Nat → RefM Nat) : Prop :=
  ∀ (s s' : Refs) (k b : Nat), Sound g s → k < s.freeClusterIndex ∨ Present g s k →
    alloc k s = .ok b s' →
    Moved g s s' (fun _ => 0) (· = k) ∧ Present g s' k ∧
      b = s'.refcountTable (k / g.refcountBlockClusters)

variable {g} {s s' : Refs} {alloc : Nat → RefM Nat} {type : DiscardType}
  {fuel depth offset length : Nat}

lemma updateRefcount_free_error {f : Fault} (hs : TableOk g s)
    (hc : ∀ c, Covers g offset length c → 1 ≤ getRefcount g s c)
    (h : updateRefcount g fuel depth offset length (-1) type s = .error f s') :
    f = .hang ∨ f = .assert := by
  obtain h | h | ⟨c, hcov, hbad⟩ :=
    updateRefcount_present_error hs (fun c hcov => present_of_pos (hc c hcov)) h
  · exact .inl h
  · exact .inr h
  · have := hc c hcov
    have := getRefcount_le (g := g) (s := s) (c := c)
    omega

lemma updateRefcount_freeOk : FreeOk g (updateRefcount g fuel depth) := by
  intro s s' offset length type hs hc h
  obtain h | ⟨e, h⟩ := dropErrno_inv h
  · exact updateRefcount_present hs (fun c hcov => present_of_pos (hc c hcov)) h
  · obtain h | h := updateRefcount_free_error hs hc h
    · cases h
    · cases h

lemma storeRefcount_moved (hs : Sound g s) (hk : Present g s k)
    (hv : (getRefcount g s k : Int) + 1 ≤ 0xffff)
    (h : storeRefcount g (s.refcountTable (k / g.refcountBlockClusters)) k
      ((getRefcount g s k : Int) + 1).toNat type s = .ok () s') :
    Moved g s s' (fun c => if c = k then 1 else 0) (· = k) ∧
      s'.refcountTableSize = s.refcountTableSize ∧ Present g s' k ∧
      s.refcountTable (k / g.refcountBlockClusters) =
        s'.refcountTable (k / g.refcountBlockClusters) := by
  obtain ⟨hc, hfree⟩ := storeRefcount_inv hs.toTableOk hk (by omega) h
  refine ⟨(hc.congr fun c => ?_).moved hs (fun c => ?_) ?_, hc.size, hc.entry hk⟩
  · split <;> omega
  · split <;> decide
  · rw [hfree, if_neg (by omega)]

section
variable (halloc : AllocOk g alloc) (hs : Sound g s) (hcur : CurOk s cur)
include halloc hs hcur

lemma blockFor_moved {b : Nat} (hk : k < s.freeClusterIndex ∨ Present g s k)
    (h : blockFor g alloc cur k s = .ok b s') : Moved g s s' (fun _ => 0) (· = k) ∧ Present g s' k ∧
      b = s'.refcountTable (k / g.refcountBlockClusters) := by
  unfold blockFor at h
  cases cur with
  | none => exact halloc s s' k b hs hk h
  | some p =>
    obtain ⟨t, block⟩ := p
    simp only at h
    split at h
    · rename_i ht
      obtain ⟨hlt, hb, hne⟩ := hcur t block rfl
      cases h
      subst ht
      exact ⟨.refl hs, ⟨hlt, hne⟩, hb.symm⟩
    · exact halloc s s' k b hs hk h

lemma updateLoop_moved (hp : ∀ c, k ≤ c → c < k + n → c < s.freeClusterIndex ∨ Present g s c)
    (h : updateLoop g alloc 1 type n k cur s = .ok none s') :
    Moved g s s' (fun c => if k ≤ c ∧ c < k + n then 1 else 0) (fun c => k ≤ c ∧ c < k + n) := by
  induction n generalizing k cur s with
  | zero =>
    cases h
    refine (Moved.refl (T := fun _ => False) hs).congr (fun c => ?_) fun _ h => h.elim
    rw [if_neg (by omega)]
  | succ n ih =>
    unfold updateLoop at h
    split at h
    · cases h
    · cases h
    rename_i b s1 hb
    obtain ⟨hm1, hk1, rfl⟩ := blockFor_moved halloc hs hcur (hp k (Nat.le_refl _) (by omega)) hb
    have hs1 := hm1.sound
    simp only at h
    rw [← getRefcount_of_present hk1] at h
    split at h
    · cases h
    rename_i hok
    split at h
    · cases h
    rename_i s2 hstore
    obtain ⟨hm2, -, hk2, hblock⟩ := storeRefcount_moved hs1 hk1 (by omega) hstore
    rw [hblock] at h
    have hm3 := ih hm2.sound (.some hk2) (fun c hle hlt => ?_) h
    · have h12 : Moved g s s2 (fun c => if c = k then 1 else 0)
          (fun c => k ≤ c ∧ c < k + (n + 1)) :=
        (hm1.trans hm2 (fun _ => Int.le_refl 0) (fun _ h => h)).congr
          (fun c => Int.zero_add _) (fun c h => by omega)
      have h13 := h12.trans hm3 (fun c => by split <;> decide) (fun c h => by omega)
      refine h13.congr (fun c => ?_) (fun c h => h)
      by_cases hck : c = k
      · rw [if_pos hck, if_neg (by omega), if_pos (by omega)]
        rfl
      · rw [if_neg hck, Int.zero_add]
        by_cases hin : k + 1 ≤ c ∧ c < k + 1 + n
        · rw [if_pos hin, if_pos (by omega)]
        · rw [if_neg hin, if_neg (by omega)]
    · obtain hlt' | hpres := hp c (by omega) (by omega)
      · exact .inl (Nat.lt_of_lt_of_le hlt' (Nat.le_trans hm1.free hm2.free))
      · exact .inr (hm2.present (hm1.present hpres))

end

lemma updateRefcount_updateOk
    (halloc : AllocOk g (allocRefcountBlock g (updateRefcount g fuel depth) fuel)) :
    UpdateOk g (updateRefcount g fuel (depth + 1)) := by
  intro s s' offset length type hs hp h
  by_cases hlen : length = 0
  · subst hlen
    cases updateRefcount_zero h
    refine (Moved.refl (T := fun _ => False) hs).congr (fun c => ?_) fun _ h => h.elim
    rw [rangeDelta, if_neg (by unfold Covers; omega)]
  · have hpos : 0 < length := by omega
    obtain ⟨s1, hloop, hfin, hfree⟩ := updateRefcount_inv (by omega) h
    have hcov := covers_iff g offset hpos
    have hm := updateLoop_moved halloc hs .none (fun c hle hlt => hp c ((hcov c).2 ⟨hle, hlt⟩)) hloop
    have hm' : Moved g s1 s' (fun _ => 0) (fun _ => False) :=
      hfin.moved hm.sound (fun _ => Int.le_refl 0) hfree
    refine (hm.trans hm' (fun c => by split <;> decide) (fun _ h => h.elim)).congr
      (fun c => ?_) (fun c h => (hcov c).2 h)
    rw [Int.add_zero, loopDelta_eq g offset hpos]

end moved

end Qcow2
