import TraceSyscallObj.Qcow2.AllocClusters
import TraceSyscallObj.Qcow2.Entry

/-!
# `qcow2_alloc_bytes`

Compressed extents are packed one behind another through `free_byte_offset`.

* `Place`: at the start of a free cluster, into the current cluster, or across its end;
* `PlacedBytes`: one more reference for each cluster of the extent, and where the next one will go;
* `allocBytes_placed`.
-/

namespace Qcow2
open Run
variable {g : Config} {s s' : Refs} {fuel size offset c x : Nat}

def Refs.withBytes (s : Refs) (b : Nat) : Refs := { s with freeByteOffset := b }

lemma TableOk.withBytes (h : TableOk g s) (b : Nat) : TableOk g (s.withBytes b) :=
  ⟨h.aligned, h.inj⟩

lemma Sound.withBytes (h : Sound g s) (b : Nat) : Sound g (s.withBytes b) :=
  ⟨⟨h.aligned, h.inj⟩, h.tableAligned, h.apart, h.counted, h.header⟩

lemma covers_one : Covers g (x * g.clusterSize) 1 c ↔ c = x := by
  have hpos := g.clusterSize_pos
  have h1 : (1 + (g.clusterSize - 1)) / g.clusterSize = 1 := by
    rw [Nat.add_sub_cancel' hpos, Nat.div_self hpos]
  rw [covers_aligned (Nat.mul_mod_left _ _), Nat.mul_div_cancel _ hpos]
  omega

lemma addReference_inv (hs : TableOk g s) (hp : Present g s x)
    (hroom : getRefcount g s x < 0xffff) (h : addReference g fuel x s = .ok () s') :
    Counted g s s' fun c => if c = x then 1 else 0 := by
  have hp' : ∀ c, Covers g (x * g.clusterSize) 1 c → Present g s c := by
    intro c hc
    rw [covers_one.1 hc]
    exact hp
  obtain h | ⟨e, h⟩ := dropErrno_inv h
  · obtain ⟨_, s1, h1, h⟩ := bind_inv h
    cases h
    obtain ⟨_, s2, h2, h1⟩ := bind_inv h1
    cases h1
    refine (updateRefcount_present hs hp' h2).congr fun c => ?_
    unfold rangeDelta
    by_cases hc : c = x
    · rw [if_pos (covers_one.2 hc), if_pos hc]
    · rw [if_neg fun hh => hc (covers_one.1 hh), if_neg hc]
  · obtain h | ⟨_, _, _, h⟩ := bind_error_inv h
    · obtain h | ⟨_, _, _, h⟩ := bind_error_inv h
      · change updateRefcount g fuel fuel _ (1 : Nat) 1 .never s = _ at h
        obtain ⟨c, hc, hbad⟩ :=
          ((updateRefcount_present_error hs hp' h).resolve_left nofun).resolve_left nofun
        rw [covers_one.1 hc] at hbad
        omega
      · cases h
    · cases h

lemma allocClusters_one (hs : Sound g s)
    (h : qcow2AllocClusters g fuel g.clusterSize s = .ok offset s') :
    ∃ x, offset = x * g.clusterSize ∧ getRefcount g s x = 0 ∧
      Moved g (s.withFree (x + 1)) s' (fun c => if c = x then 1 else 0) (· = x) := by
  have hone : g.clustersFor g.clusterSize = 1 := by
    have hpos := g.clusterSize_pos
    unfold Config.clustersFor
    rw [Nat.add_div_left _ hpos, Nat.div_eq_of_lt (by omega)]
  obtain ⟨x, rfl, -, hall, hm⟩ := allocClusters_inv hs (by rw [hone]; decide) h
  rw [hone] at hall hm
  refine ⟨x, rfl, hall x (Nat.le_refl _) (Nat.lt_succ_self _),
    hm.congr (fun c => ?_) (fun c hc => ?_)⟩
  · by_cases hc : c = x
    · rw [if_pos (by omega), if_pos hc]
    · rw [if_neg (by omega), if_neg hc]
  · omega

lemma placeBytes_inv (hs : TableOk g s) (hp : s.freeByteOffset % g.clusterSize ≠ 0 →
      Present g s (s.freeByteOffset / g.clusterSize) ∧
      getRefcount g s (s.freeByteOffset / g.clusterSize) < 0xffff)
    (h : placeBytes g fuel size s = .ok offset s') :
    offset = s.freeByteOffset ∧
    Counted g (s.withBytes (if g.clusterSize - s.freeByteOffset % g.clusterSize = size then 0
        else s.freeByteOffset + size)) s'
      fun c => if s.freeByteOffset % g.clusterSize ≠ 0 ∧ c = s.freeByteOffset / g.clusterSize
        then 1 else 0 := by
  unfold placeBytes at h
  simp only at h
  split at h
  · rename_i hne
    obtain ⟨_, s1, hadd, h⟩ := bind_inv h
    cases h
    have hc := addReference_inv (hs.withBytes (if g.clusterSize - s.freeByteOffset % g.clusterSize =
      size then 0 else s.freeByteOffset + size)) (hp hne).1 (hp hne).2 hadd
    refine ⟨rfl, hc.congr fun c => ?_⟩
    by_cases hc : c = s.freeByteOffset / g.clusterSize
    · rw [if_pos hc, if_pos ⟨hne, hc⟩]
    · rw [if_neg hc, if_neg fun hh => hc hh.2]
  · rename_i hne
    cases h
    refine ⟨rfl, Counted.refl.congr fun c => ?_⟩
    rw [if_neg fun hh => hne hh.1]

/-- where an extent is put -/
inductive Place (g : Config) (s : Refs) (size offset : Nat) : Prop where
  /-- at the start of a free cluster -/
  | start (x : Nat) (heq : offset = x * g.clusterSize) (hfree : getRefcount g s x = 0)
  /-- into the current cluster -/
  | inside (heq : offset = s.freeByteOffset) (hne : s.freeByteOffset ≠ 0)
      (hfits : offset % g.clusterSize + size ≤ g.clusterSize)
  /-- across the end of the current cluster, the next one being free -/
  | across (heq : offset = s.freeByteOffset) (hne : s.freeByteOffset ≠ 0)
      (hover : g.clusterSize < offset % g.clusterSize + size)
      (hfree : getRefcount g s (offset / g.clusterSize + 1) = 0)

lemma Place.last (hp : Place g s size offset) (hsize : size ≤ g.clusterSize)
    (hmod : (offset + size) % g.clusterSize ≠ 0) :
    getRefcount g s ((offset + size) / g.clusterSize) = 0 ∨
      s.freeByteOffset ≠ 0 ∧ offset = s.freeByteOffset ∧
        (offset + size) / g.clusterSize = offset / g.clusterSize := by
  have hcs := g.clusterSize_pos
  have hdm := Nat.div_add_mod offset g.clusterSize
  have hlt := Nat.mod_lt offset hcs
  have hin : offset % g.clusterSize + size ≤ g.clusterSize →
      (offset + size) / g.clusterSize = offset / g.clusterSize := by
    intro hfits
    have heq : offset + size = g.clusterSize * (offset / g.clusterSize) +
        (offset % g.clusterSize + size) := by omega
    have hne : offset % g.clusterSize + size ≠ g.clusterSize := by
      intro hfull
      rw [heq, hfull, ← Nat.mul_succ, Nat.mul_mod_right] at hmod
      exact hmod rfl
    have hz : (offset % g.clusterSize + size) / g.clusterSize = 0 := Nat.div_eq_of_lt (by omega)
    rw [heq, Nat.mul_add_div hcs, hz, Nat.add_zero]
  cases hp with
  | start x heq h0 =>
    left
    have hal : offset % g.clusterSize = 0 := by
      rw [heq]
      exact Nat.mul_mod_left _ _
    rw [hin (by omega), heq, Nat.mul_div_cancel _ hcs]
    exact h0
  | inside heq hne hfits => exact .inr ⟨hne, heq, hin hfits⟩
  | across heq hne hover h0 =>
    left
    have hsum : offset + size = g.clusterSize * (offset / g.clusterSize + 1) +
        (offset % g.clusterSize + size - g.clusterSize) := by
      rw [Nat.mul_succ]
      omega
    have hz : (offset % g.clusterSize + size - g.clusterSize) / g.clusterSize = 0 :=
      Nat.div_eq_of_lt (by omega)
    rw [hsum, Nat.mul_add_div hcs, hz]
    exact h0

structure PlacedBytes (g : Config) (s : Refs) (size offset : Nat) (s' : Refs) : Prop where
  sound : Sound g s'
  own : ∀ c, own g s' c = own g s c + if Covers g offset size c then 1 else 0
  fresh : ∀ c, IsMeta g s' c → ¬ IsMeta g s c →
    getRefcount g s c = 0 ∧ ¬ Covers g offset size c
  present : ∀ c, Present g s c → Present g s' c
  place : Place g s size offset
  next : s'.freeByteOffset ≠ 0 →
    s'.freeByteOffset = offset + size ∧ (offset + size) % g.clusterSize ≠ 0

lemma covers_inside (hpos : 0 < size) (hfits : offset % g.clusterSize + size ≤ g.clusterSize) :
    Covers g offset size c ↔ c = offset / g.clusterSize := by
  have hdm := Nat.div_add_mod offset g.clusterSize
  have hlast : (offset + size - 1) / g.clusterSize = offset / g.clusterSize := by
    have : offset + size - 1 = g.clusterSize * (offset / g.clusterSize) +
        (offset % g.clusterSize + size - 1) := by omega
    have hz : (offset % g.clusterSize + size - 1) / g.clusterSize = 0 :=
      Nat.div_eq_of_lt (by omega)
    rw [this, Nat.mul_add_div g.clusterSize_pos, hz, Nat.add_zero]
  unfold Covers
  omega

lemma covers_across (hsize : size ≤ g.clusterSize)
    (hover : g.clusterSize < offset % g.clusterSize + size) :
    Covers g offset size c ↔ c = offset / g.clusterSize ∨ c = offset / g.clusterSize + 1 := by
  have hpos := g.clusterSize_pos
  have hdm := Nat.div_add_mod offset g.clusterSize
  have hmod := Nat.mod_lt offset hpos
  have hlast : (offset + size - 1) / g.clusterSize = offset / g.clusterSize + 1 := by
    have : offset + size - 1 = g.clusterSize * (offset / g.clusterSize + 1) +
        (offset % g.clusterSize + size - 1 - g.clusterSize) := by
      rw [Nat.mul_succ]
      omega
    have hz : (offset % g.clusterSize + size - 1 - g.clusterSize) / g.clusterSize = 0 :=
      Nat.div_eq_of_lt (by omega)
    rw [this, Nat.mul_add_div hpos, hz]
  unfold Covers
  omega

lemma mod_next (hpos : 0 < size) (hfits : offset % g.clusterSize + size < g.clusterSize) :
    (offset + size) % g.clusterSize ≠ 0 := by
  have hdm := Nat.div_add_mod offset g.clusterSize
  have : offset + size = g.clusterSize * (offset / g.clusterSize) +
      (offset % g.clusterSize + size) := by omega
  rw [this, Nat.mul_add_mod, Nat.mod_eq_of_lt hfits]
  omega

lemma placed_start {s1 : Refs} (hpos : 0 < size) (hsize : size ≤ g.clusterSize)
    (h0 : getRefcount g s x = 0)
    (hm : Moved g (s.withFree (x + 1)) s1 (fun c => if c = x then 1 else 0) (· = x))
    (h : placeBytes g fuel size (s1.withBytes (x * g.clusterSize)) = .ok offset s') :
    PlacedBytes g s size offset s' := by
  have hal : x * g.clusterSize % g.clusterSize = 0 := Nat.mul_mod_left _ _
  obtain ⟨rfl, hc⟩ := placeBytes_inv (hm.sound.withBytes _).toTableOk
    (fun hne => absurd hal hne) h
  have hb : s'.freeByteOffset = if g.clusterSize - x * g.clusterSize % g.clusterSize = size then 0
      else x * g.clusterSize + size := hc.bytes
  have hδ : Counted g (s1.withBytes _) s' fun _ => 0 := hc.congr fun c => by
    rw [if_neg fun hh => hh.1 hal]
  have hfits : x * g.clusterSize % g.clusterSize + size ≤ g.clusterSize := by omega
  have hcov : ∀ c, Covers g (x * g.clusterSize) size c ↔ c = x := by
    intro c
    rw [covers_inside hpos hfits, Nat.mul_div_cancel _ g.clusterSize_pos]
  show PlacedBytes g s size (x * g.clusterSize) s'
  exact {
    sound := hδ.sound_up (hm.sound.withBytes _) fun _ => Int.le_refl 0
    own := fun c => by
      have h1 : Qcow2.own g s1 c = Qcow2.own g s c + _ := hm.own c
      have h2 : Qcow2.own g s' c = Qcow2.own g s1 c + _ := hδ.own_eq c
      rw [h2, h1, Int.add_zero]
      by_cases hcx : c = x
      · rw [if_pos hcx, if_pos ((hcov c).2 hcx)]
      · rw [if_neg hcx, if_neg fun hh => hcx ((hcov c).1 hh)]
    fresh := fun c hmeta hn => by
      obtain ⟨hc0, hle⟩ := hm.fresh c (hδ.isMeta_iff.1 hmeta) hn
      refine ⟨hc0, fun hh => ?_⟩
      rw [(hcov c).1 hh] at hle
      exact absurd hle (Nat.not_le.2 (Nat.lt_succ_self x))
    present := fun c hp => hδ.present_iff.2 (hm.present (c := c) hp)
    place := .start x rfl h0
    next := fun hne => by
      rw [hb] at hne ⊢
      split
      · rename_i heq
        rw [if_pos heq] at hne
        exact absurd rfl hne
      · exact ⟨rfl, mod_next hpos (by omega)⟩ }

/-- the cluster at `free_byte_offset` can take another extent -/
structure TailOk (g : Config) (s : Refs) : Prop where
  started : s.freeByteOffset % g.clusterSize ≠ 0
  present : Present g s (s.freeByteOffset / g.clusterSize)
  data : ¬ IsMeta g s (s.freeByteOffset / g.clusterSize)
  room : getRefcount g s (s.freeByteOffset / g.clusterSize) < 0xffff

lemma placed_inside (hs : Sound g s) (hpos : 0 < size) (hne : s.freeByteOffset ≠ 0)
    (ht : TailOk g s) (hfits : s.freeByteOffset % g.clusterSize + size ≤ g.clusterSize)
    (h : placeBytes g fuel size s = .ok offset s') : PlacedBytes g s size offset s' := by
  obtain ⟨rfl, hc⟩ := placeBytes_inv hs.toTableOk (fun _ => ⟨ht.present, ht.room⟩) h
  have hb : s'.freeByteOffset = if g.clusterSize - s.freeByteOffset % g.clusterSize = size then 0
      else s.freeByteOffset + size := hc.bytes
  have hcov : ∀ c, Covers g s.freeByteOffset size c ↔ c = s.freeByteOffset / g.clusterSize :=
    fun c => covers_inside hpos hfits
  have hδ : ∀ c, (if s.freeByteOffset % g.clusterSize ≠ 0 ∧
      c = s.freeByteOffset / g.clusterSize then (1 : Int) else 0) =
        if Covers g s.freeByteOffset size c then 1 else 0 := by
    intro c
    by_cases hcx : c = s.freeByteOffset / g.clusterSize
    · rw [if_pos ⟨ht.started, hcx⟩, if_pos ((hcov c).2 hcx)]
    · rw [if_neg fun hh => hcx hh.2, if_neg fun hh => hcx ((hcov c).1 hh)]
  have hc' := hc.congr hδ
  have hs1 := hs.withBytes (if g.clusterSize - s.freeByteOffset % g.clusterSize = size then 0
    else s.freeByteOffset + size)
  exact {
    sound := hc'.sound_up hs1 fun c => by split <;> decide
    own := fun c => hc'.own_eq c
    fresh := fun c hmeta hn => absurd (hc'.isMeta_iff.1 hmeta) hn
    present := fun c hp => hc'.present_iff.2 hp
    place := .inside rfl hne hfits
    next := fun hne' => by
      rw [hb] at hne' ⊢
      split
      · rename_i heq
        rw [if_pos heq] at hne'
        exact absurd rfl hne'
      · exact ⟨rfl, mod_next hpos (by omega)⟩ }

lemma placed_across {s1 s2 : Refs} (hsize : size ≤ g.clusterSize)
    (hne : s.freeByteOffset ≠ 0) (ht : TailOk g s)
    (hover : g.clusterSize < s.freeByteOffset % g.clusterSize + size)
    (hx : x = s.freeByteOffset / g.clusterSize + 1) (h0 : getRefcount g s x = 0)
    (hm : Moved g (s.withFree (x + 1)) s1 (fun c => if c = x then 1 else 0) (· = x))
    (h : addReference g fuel (s.freeByteOffset / g.clusterSize) s1 = .ok () s2) :
    PlacedBytes g s size s.freeByteOffset (s2.withBytes (s.freeByteOffset + size)) := by
  have hown1 : ∀ c, own g s1 c = own g s c + _ := fun c => hm.own c
  -- new metadata lies behind the new cluster, so the current one is still a data cluster
  have hdata : ¬ IsMeta g s1 (s.freeByteOffset / g.clusterSize) := by
    intro hmeta
    have hle : x + 1 ≤ s.freeByteOffset / g.clusterSize := (hm.fresh _ hmeta ht.data).2
    omega
  have hroom : getRefcount g s1 (s.freeByteOffset / g.clusterSize) < 0xffff := by
    have h1 := getRefcount_eq (g := g) (s := s1) (s.freeByteOffset / g.clusterSize)
    have h2 := getRefcount_eq (g := g) (s := s) (s.freeByteOffset / g.clusterSize)
    have h3 := ht.room
    rw [hown1, metaRefs_of_not hdata, if_neg (by omega)] at h1
    omega
  have hc := addReference_inv hm.sound.toTableOk
    (hm.present (c := s.freeByteOffset / g.clusterSize) ht.present) hroom h
  have hcov : ∀ c, Covers g s.freeByteOffset size c ↔ c = s.freeByteOffset / g.clusterSize ∨
      c = s.freeByteOffset / g.clusterSize + 1 := fun c => covers_across hsize hover
  have hmod := Nat.mod_lt s.freeByteOffset g.clusterSize_pos
  have hdm := Nat.div_add_mod s.freeByteOffset g.clusterSize
  exact {
    sound := (hc.sound_up hm.sound fun c => by split <;> decide).withBytes _
    own := fun c => by
      have h1 : Qcow2.own g s2 c = Qcow2.own g s1 c + _ := hc.own_eq c
      show Qcow2.own g s2 c = _
      rw [h1, hown1]
      by_cases hcov' : Covers g s.freeByteOffset size c
      · rw [if_pos hcov']
        obtain hcx | hcx := (hcov c).1 hcov'
        · rw [if_neg (by omega), if_pos hcx]
          omega
        · rw [if_pos (by omega)]
          omega
      · have hne1 : c ≠ s.freeByteOffset / g.clusterSize := fun hh => hcov' ((hcov c).2 (.inl hh))
        have hne2 : c ≠ x := fun hh => hcov' ((hcov c).2 (.inr (hh.trans hx)))
        rw [if_neg hcov']
        omega
    fresh := fun c hmeta hn => by
      obtain ⟨hc0, hle⟩ := hm.fresh c (hc.isMeta_iff.1 hmeta) hn
      change x + 1 ≤ c at hle
      refine ⟨hc0, fun hh => ?_⟩
      have := (hcov c).1 hh
      omega
    present := fun c hp => hc.present_iff.2 (hm.present (c := c) hp)
    place := .across rfl hne hover (by rw [← hx]; exact h0)
    next := fun _ => by
      refine ⟨rfl, ?_⟩
      have heq : s.freeByteOffset + size = g.clusterSize * (s.freeByteOffset / g.clusterSize + 1) +
          (s.freeByteOffset % g.clusterSize + size - g.clusterSize) := by
        rw [Nat.mul_succ]
        omega
      rw [heq, Nat.mul_add_mod, Nat.mod_eq_of_lt (by omega)]
      omega }

/-- **what `qcow2_alloc_bytes` does** -/
theorem allocBytes_placed (hs : Sound g s) (ht : s.freeByteOffset ≠ 0 → TailOk g s)
    (h : qcow2AllocBytes g fuel size s = .ok offset s') :
    0 < size ∧ size ≤ g.clusterSize ∧ PlacedBytes g s size offset s' := by
  unfold qcow2AllocBytes at h
  split at h
  · cases h
  rename_i hsize
  rw [not_not] at hsize
  obtain ⟨hpos, hsize⟩ := hsize
  refine ⟨hpos, hsize, ?_⟩
  obtain ⟨_, s1, hstart, h⟩ := bind_inv h
  change (if _ then _ else _ : RefM Nat) s1 = _ at h
  by_cases h0 : s.freeByteOffset = 0
  · unfold startBytes at hstart
    rw [if_pos h0] at hstart
    obtain ⟨_, s2, halloc, hstart⟩ := bind_inv hstart
    obtain ⟨x, rfl, hfree, hm⟩ := allocClusters_one hs halloc
    cases hstart
    have hal : x * g.clusterSize % g.clusterSize = 0 := Nat.mul_mod_left _ _
    rw [hal, Nat.sub_zero, if_pos hsize] at h
    exact placed_start hpos hsize hfree hm h
  · unfold startBytes at hstart
    rw [if_neg h0] at hstart
    cases hstart
    have ht := ht h0
    split at h
    · exact placed_inside hs hpos h0 ht (by omega) h
    obtain ⟨_, s1, halloc, h⟩ := bind_inv h
    obtain ⟨x, rfl, hfree, hm⟩ := allocClusters_one hs halloc
    have hb : s1.freeByteOffset = s.freeByteOffset := hm.bytes
    change (if _ then _ else _ : RefM Nat) s1 = _ at h
    rw [hb] at h
    split at h
    · rename_i heq
      obtain ⟨_, s2, hadd, h⟩ := bind_inv h
      cases h
      refine placed_across hsize h0 ht (by omega) ?_ hfree hm hadd
      rw [← Nat.succ_mul] at heq
      exact (Nat.eq_of_mul_eq_mul_right g.clusterSize_pos heq).symm
    · obtain ⟨_, s2, hset, h⟩ := bind_inv h
      cases hset
      exact placed_start hpos hsize hfree hm h

/-- **a compressed entry says where its extent lies**: the sectors that are read hold all of it, and
the range that is freed touches the clusters that `qcow2_alloc_bytes` counted for it -/
theorem compressed_extent_decoded (g : Config) (offset size : Nat) (hpos : 1 ≤ size)
    (hsize : size ≤ g.clusterSize) (hoff : offset < 2 ^ g.csizeShift) :
    (∃ r, decompressRead g (compressedEntry g offset size) = r ∧
      r.sector * 512 + r.sectorOffset = offset ∧ size ≤ r.csize ∧
      offset + size ≤ (r.sector + r.nbCsectors) * 512) ∧
    (∃ start length, (∀ fuel n type,
        qcow2FreeAnyClusters g fuel (compressedEntry g offset size) n type =
          qcow2FreeClusters g fuel start length type) ∧
      ∀ c, Covers g start length c ↔ Covers g offset size c) ∧
    ∀ fuel s s', Sound g s → (s.freeByteOffset ≠ 0 → TailOk g s) →
      qcow2AllocBytes g fuel size s = .ok offset s' →
      ∀ c, own g s' c = own g s c + if Covers g offset size c then 1 else 0 := by
  refine ⟨⟨_, decompressRead_compressedEntry hoff hsize, ?_⟩,
    ⟨_, _, fun fuel n type => freeAny_compressedEntry hoff hsize, fun c => covers_sectors hpos⟩, ?_⟩
  · refine ⟨?_, ?_, ?_⟩
    · change offset / 512 * 512 + offset % 512 = offset
      omega
    · change size ≤ ((offset + size - 1) / 512 - offset / 512 + 1) * 512 - offset % 512
      omega
    · change offset + size ≤ (offset / 512 + ((offset + size - 1) / 512 - offset / 512 + 1)) * 512
      omega
  · intro fuel s s' hs ht h
    obtain ⟨_, _, hplaced⟩ := allocBytes_placed hs ht h
    exact hplaced.own

theorem compressed_extent_decoded_across :
    ∃ r, decompressRead (config512 0) (compressedEntry (config512 0) 1000 512) = r ∧
      r.sector * 512 + r.sectorOffset = 1000 ∧ 512 ≤ r.csize ∧
      1000 + 512 ≤ (r.sector + r.nbCsectors) * 512 :=
  (compressed_extent_decoded (config512 0) 1000 512 (by decide) (by decide) (by decide)).1

end Qcow2
