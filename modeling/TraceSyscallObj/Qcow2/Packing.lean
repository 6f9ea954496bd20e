import TraceSyscallObj.Qcow2.AllocBytes

/-!
# Live extents and clusters

Compressed extents and normal clusters are allocated, and live ones freed, in any order.

* `Disk`, `Op.step`: the image together with the allocations that are live;
* `Packed`: live allocations are disjoint, and the counts are the numbers of allocations that touch
  a cluster;
* `fitting_step`: a step overruns buffers only by a growth of the table that does not fit;
* `packed_of_clean`: runs in which the cluster at `free_byte_offset` was not handed out again.
-/

namespace Qcow2.Packing
open List Run
variable {a : Alloc}

inductive Alloc where
  | cluster (index : Nat)
  | extent (offset size : Nat)
deriving DecidableEq

def Alloc.region (g : Config) : Alloc → Region
  | .cluster index => ⟨index * g.clusterSize, g.clusterSize⟩
  | .extent offset size => ⟨offset, size⟩

def Alloc.Touches (g : Config) (a : Alloc) (c : Nat) : Prop :=
  Covers g (a.region g).offset (a.region g).bytes c

instance (g : Config) (a : Alloc) (c : Nat) : Decidable (a.Touches g c) :=
  inferInstanceAs (Decidable (Covers ..))

/-- the number of live allocations that touch a cluster -/
def touching (g : Config) (live : List Alloc) (c : Nat) : Nat :=
  live.countP fun a => decide (a.Touches g c)

structure Disk where
  refs : Refs
  live : List Alloc

inductive Op where
  | allocBytes (size : Nat)
  | allocClusters (size : Nat)
  /-- `n` clusters in a row, with one call -/
  | freeClusters (index n : Nat) (type : DiscardType)
  | freeBytes (offset size : Nat) (type : DiscardType)

/-- `Alloc.cluster (index + i)` for an `i < n` -/
def Alloc.inRow (index n : Nat) : Alloc → Bool
  | .cluster c => decide (index ≤ c ∧ c < index + n)
  | .extent _ _ => false

def clusterRow (index n : Nat) : List Alloc := (List.range' index n).map .cluster

section step
variable (g : Config) (fuel : Nat)

/-- a call on the image, and what becomes of the live allocations -/
def Disk.call {α : Type} (x : RefM α) (live : α → List Alloc) : EStateM Fault Disk Unit := fun d =>
  match x d.refs with
  | .ok a s => .ok () ⟨s, live a⟩
  | .error f s => .error f ⟨s, d.live⟩

/-- only live allocations are freed; another call is no step of a run -/
def Op.step : Op → EStateM Fault Disk Unit
  | .allocBytes size => fun d =>
    Disk.call (qcow2AllocBytes g fuel size) (fun offset => .extent offset size :: d.live) d
  | .allocClusters size => fun d =>
    Disk.call (qcow2AllocClusters g fuel size)
      (fun offset => clusterRow (offset / g.clusterSize) (g.clustersFor size) ++ d.live) d
  | .freeClusters index n type => fun d =>
    if ∀ c ∈ List.range' index n, .cluster c ∈ d.live then
      Disk.call (qcow2FreeClusters g fuel (index * g.clusterSize) (n * g.clusterSize) type)
        (fun _ => d.live.filter fun a => !a.inRow index n) d
    else .error .assert d
  | .freeBytes offset size type => fun d =>
    if .extent offset size ∈ d.live then
      Disk.call (qcow2FreeAnyClusters g fuel (compressedEntry g offset size) 1 type)
        (fun _ => d.live.erase (.extent offset size)) d
    else .error .assert d

end step

/-- the references of the header and the live allocations -/
def liveRefs (g : Config) (live : List Alloc) (c : Nat) : Nat :=
  (if c = 0 then 1 else 0) + touching g live c

structure Packed (g : Config) (d : Disk) : Prop where
  disjoint : d.live.Pairwise fun a b => (a.region g).Apart (b.region g)
  /-- the header and the refcount structures are not handed out -/
  reserved : ∀ c, c = 0 ∨ IsMeta g d.refs c → touching g d.live c = 0
  counts : ∀ c, getRefcount g d.refs c = liveRefs g d.live c + metaRefs g d.refs c

/-- the state before a step is no trap: the cluster at `free_byte_offset` has not been handed out
again and has room for one more reference, the number of clusters is an `int`, and the offset of
an extent fits into its entry -/
def Op.Clean (g : Config) : Op → Disk → Prop
  | .allocBytes _, d => d.refs.freeByteOffset ≠ 0 →
      .cluster (d.refs.freeByteOffset / g.clusterSize) ∉ d.live ∧
      ¬ IsMeta g d.refs (d.refs.freeByteOffset / g.clusterSize) ∧
      touching g d.live (d.refs.freeByteOffset / g.clusterSize) < 0xffff
  | .allocClusters size, _ => g.clustersFor size < 2 ^ 31
  | .freeClusters _ _ _, _ => True
  | .freeBytes offset _ _, _ => offset < 2 ^ g.csizeShift

/-! ## one step -/

section packed
variable {g : Config} {d d' : Disk} {live live' : List Alloc} {s' : Refs} {δ : Nat → Int}
  {fuel size offset n c index : Nat} {type : DiscardType}

/-- the cluster at `free_byte_offset` has no extents behind it -/
structure Current (g : Config) (s : Refs) (live : List Alloc) : Prop where
  started : s.freeByteOffset % g.clusterSize ≠ 0
  present : Present g s (s.freeByteOffset / g.clusterSize)
  data : s.freeByteOffset / g.clusterSize ≠ 0
  tail : ∀ offset n, .extent offset n ∈ live → offset + n ≤ s.freeByteOffset ∨
    (s.freeByteOffset / g.clusterSize + 1) * g.clusterSize ≤ offset

structure PackInv (g : Config) (d : Disk) : Prop extends Packed g d where
  sound : Sound g d.refs
  size : ∀ offset n, .extent offset n ∈ d.live → 0 < n ∧ n ≤ g.clusterSize
  current : d.refs.freeByteOffset ≠ 0 → Current g d.refs d.live

lemma Current.mono {s : Refs} (h : Current g s live)
    (hb : s'.freeByteOffset = s.freeByteOffset) (hp : ∀ c, Present g s c → Present g s' c)
    (hlive : ∀ offset n, .extent offset n ∈ live' → .extent offset n ∈ live) :
    Current g s' live' := by
  constructor
  · rw [hb]
    exact h.started
  · rw [hb]
    exact hp _ h.present
  · rw [hb]
    exact h.data
  · rw [hb]
    exact fun offset n hmem => h.tail offset n (hlive offset n hmem)

lemma apart_cluster (hn : 0 < n) (h : ¬ Covers g offset n c) :
    offset + n ≤ c * g.clusterSize ∨ (c + 1) * g.clusterSize ≤ offset := by
  have hpos := g.clusterSize_pos
  by_contra hcon
  rw [not_or, Nat.not_le, Nat.not_le] at hcon
  refine h ⟨hn, ?_, ?_⟩
  · exact Nat.le_of_lt_succ ((Nat.div_lt_iff_lt_mul hpos).2 hcon.2)
  · exact (Nat.le_div_iff_mul_le hpos).2 (by omega)

lemma touches_cluster : (Alloc.cluster index).Touches g c ↔ c = index := covers_cluster

lemma not_touches (h : touching g live c = 0) (ha : a ∈ live) : ¬ a.Touches g c := by
  have := List.countP_eq_zero.1 h a ha
  simpa using this

lemma touching_cons (a : Alloc) :
    touching g (a :: live) c = touching g live c + if a.Touches g c then 1 else 0 := by
  unfold touching
  rw [countP_cons]
  by_cases h : a.Touches g c
  · rw [if_pos h, if_pos (decide_eq_true h)]
  · rw [if_neg h, if_neg (by simpa using h)]

lemma Packed.own_eq (h : Packed g d) (c : Nat) : own g d.refs c = liveRefs g d.live c := by
  have h1 := getRefcount_eq (g := g) (s := d.refs) c
  have h2 := h.counts c
  omega

lemma Packed.touching_free (h : Packed g d) (h0 : getRefcount g d.refs c = 0) :
    touching g d.live c = 0 := by
  have := h.counts c
  unfold liveRefs at this
  omega

lemma PackInv.bytes_pos (h : PackInv g d) (ha : a ∈ d.live) : 0 < (a.region g).bytes := by
  cases a with
  | cluster index => exact g.clusterSize_pos
  | extent offset n => exact (h.size offset n ha).1

lemma PackInv.apart_free (h : PackInv g d) (h0 : getRefcount g d.refs c = 0)
    (ha : a ∈ d.live) : (a.region g).offset + (a.region g).bytes ≤ c * g.clusterSize ∨
      (c + 1) * g.clusterSize ≤ (a.region g).offset :=
  apart_cluster (h.bytes_pos ha) (not_touches (h.touching_free h0) ha)

section
variable (h : PackInv g d) (hclean : (Op.allocBytes size).Clean g d)
include h hclean

lemma PackInv.tailOk (hne : d.refs.freeByteOffset ≠ 0) : TailOk g d.refs := by
  obtain ⟨-, hdata, hroom⟩ := hclean hne
  refine ⟨(h.current hne).started, (h.current hne).present, hdata, ?_⟩
  rw [h.counts, metaRefs_of_not hdata]
  unfold liveRefs
  rw [if_neg ((h.current hne).data)]
  omega

lemma PackInv.covers_data (hpos : 0 < size) (hsize : size ≤ g.clusterSize)
    (hp : Place g d.refs size offset) (hc : Covers g offset size c) :
    c ≠ 0 ∧ ¬ IsMeta g d.refs c := by
  have hfree : ∀ x, getRefcount g d.refs x = 0 → x ≠ 0 ∧ ¬ IsMeta g d.refs x :=
    fun x hx => ⟨h.sound.ne_zero hx, h.sound.not_meta hx⟩
  cases hp with
  | start x heq h0 =>
    subst heq
    have hal : x * g.clusterSize % g.clusterSize = 0 := Nat.mul_mod_left _ _
    rw [covers_inside hpos (by omega), Nat.mul_div_cancel _ g.clusterSize_pos] at hc
    rw [hc]
    exact hfree x h0
  | inside heq hne hfits =>
    rw [covers_inside hpos hfits] at hc
    rw [hc, heq]
    exact ⟨(h.current hne).data, (hclean hne).2.1⟩
  | across heq hne hover h0 =>
    rw [covers_across hsize hover] at hc
    obtain hc | hc := hc
    · rw [hc, heq]
      exact ⟨(h.current hne).data, (hclean hne).2.1⟩
    · rw [hc]
      exact hfree _ h0

lemma PackInv.apart_extent (hsize : size ≤ g.clusterSize) (hp : Place g d.refs size offset)
    (ha : a ∈ d.live) :
    (a.region g).offset + (a.region g).bytes ≤ offset ∨ offset + size ≤ (a.region g).offset := by
  have hbytes := h.bytes_pos ha
  have hdm := Nat.div_add_mod d.refs.freeByteOffset g.clusterSize
  -- behind `free_byte_offset` there is nothing in the current cluster
  have hcur : d.refs.freeByteOffset ≠ 0 →
      (a.region g).offset + (a.region g).bytes ≤ d.refs.freeByteOffset ∨
        (d.refs.freeByteOffset / g.clusterSize + 1) * g.clusterSize ≤ (a.region g).offset := by
    intro hne
    cases a with
    | extent o n => exact (h.current hne).tail o n ha
    | cluster i =>
      have hi : i ≠ d.refs.freeByteOffset / g.clusterSize := by
        rintro rfl
        exact (hclean hne).1 ha
      show i * g.clusterSize + g.clusterSize ≤ _ ∨ _ ≤ i * g.clusterSize
      obtain hlt | hlt := Nat.lt_or_gt_of_ne hi
      · have := Nat.mul_le_mul_right g.clusterSize hlt
        rw [Nat.succ_mul, Nat.mul_comm (d.refs.freeByteOffset / g.clusterSize)] at this
        omega
      · exact .inr (Nat.mul_le_mul_right _ hlt)
  have hend : (d.refs.freeByteOffset / g.clusterSize + 1) * g.clusterSize =
      d.refs.freeByteOffset + (g.clusterSize - d.refs.freeByteOffset % g.clusterSize) := by
    have := Nat.mod_lt d.refs.freeByteOffset g.clusterSize_pos
    rw [Nat.succ_mul, Nat.mul_comm]
    omega
  cases hp with
  | start x heq h0 =>
    have := h.apart_free h0 ha
    rw [Nat.succ_mul] at this
    omega
  | inside heq hne hfits =>
    rw [heq] at hfits ⊢
    omega
  | across heq hne hover h0 =>
    have h2 := h.apart_free h0 ha
    rw [heq] at hover h2 ⊢
    rw [Nat.succ_mul (_ + 1)] at h2
    omega

end

lemma PackInv.tail_next (h : PackInv g d) (hsize : size ≤ g.clusterSize)
    (hp : Place g d.refs size offset) (hmod : (offset + size) % g.clusterSize ≠ 0) {o : Nat}
    (hmem : .extent o n ∈ d.live) :
    o + n ≤ offset + size ∨ ((offset + size) / g.clusterSize + 1) * g.clusterSize ≤ o := by
  obtain h0 | ⟨hne, heq, hdiv⟩ := hp.last hsize hmod
  · have h1 : o + n ≤ _ ∨ _ ≤ o := h.apart_free h0 hmem
    have h2 := Nat.div_mul_le_self (offset + size) g.clusterSize
    omega
  · have := (h.current hne).tail o n hmem
    rw [hdiv, heq]
    omega

lemma Disk.call_inv {α : Type} {x : RefM α} {f : α → List Alloc}
    (h : Disk.call x f d = .ok () d') : ∃ a, x d.refs = .ok a d'.refs ∧ d'.live = f a := by
  unfold Disk.call at h
  split at h
  · rename_i a s heq
    cases h
    exact ⟨a, heq, rfl⟩
  · cases h

lemma counts_of_own (hown : own g s' c = liveRefs g live c) :
    getRefcount g s' c = liveRefs g live c + metaRefs g s' c := by
  have := getRefcount_eq (g := g) (s := s') c
  omega

lemma step_allocBytes (h : PackInv g d) (hclean : (Op.allocBytes size).Clean g d)
    (hrun : (Op.allocBytes size).step g fuel d = .ok () d') : PackInv g d' := by
  obtain ⟨offset, hrun, hlive⟩ := Disk.call_inv hrun
  obtain ⟨s', live'⟩ := d'
  change live' = _ at hlive
  change qcow2AllocBytes g fuel size d.refs = .ok offset s' at hrun
  obtain ⟨hpos, hsize, hp⟩ := allocBytes_placed h.sound (h.tailOk hclean) hrun
  have htouch : ∀ c, touching g live' c =
      touching g d.live c + if Covers g offset size c then 1 else 0 := by
    intro c
    rw [hlive, touching_cons]
    rfl
  have hdata : ∀ c, Covers g offset size c → c ≠ 0 ∧ ¬ IsMeta g d.refs c :=
    fun c hc => h.covers_data hclean hpos hsize hp.place hc
  have hapart : ∀ a ∈ d.live, (a.region g).offset + (a.region g).bytes ≤ offset ∨
      offset + size ≤ (a.region g).offset := fun a ha => h.apart_extent hclean hsize hp.place ha
  -- `free_byte_offset` lies in the last cluster of the extent
  have hlast : s'.freeByteOffset ≠ 0 →
      Covers g offset size (s'.freeByteOffset / g.clusterSize) := by
    intro hne
    obtain ⟨heq, hmod⟩ := hp.next hne
    rw [heq]
    have hdiv : (offset + size) / g.clusterSize = (offset + size - 1) / g.clusterSize := by
      have hdm := Nat.div_add_mod (offset + size) g.clusterSize
      have hlt := Nat.mod_lt (offset + size) g.clusterSize_pos
      have hsub : offset + size - 1 = g.clusterSize * ((offset + size) / g.clusterSize) +
          ((offset + size) % g.clusterSize - 1) := by omega
      have hz : ((offset + size) % g.clusterSize - 1) / g.clusterSize = 0 :=
        Nat.div_eq_of_lt (by omega)
      rw [hsub, Nat.mul_add_div g.clusterSize_pos, hz, Nat.add_zero]
    rw [hdiv]
    exact ⟨hpos, Nat.div_le_div_right (by omega), Nat.le_refl _⟩
  exact {
    disjoint := by
      show List.Pairwise _ live'
      rw [hlive]
      refine List.pairwise_cons.2 ⟨fun a ha => ?_, h.disjoint⟩
      exact (hapart a ha).symm
    reserved := fun c hc => by
      have hc' : ¬ Covers g offset size c ∧ touching g d.live c = 0 := by
        obtain hc | hmeta := hc
        · exact ⟨fun hcov => (hdata c hcov).1 hc, h.reserved c (.inl hc)⟩
        · by_cases hold : IsMeta g d.refs c
          · exact ⟨fun hcov => (hdata c hcov).2 hold, h.reserved c (.inr hold)⟩
          · obtain ⟨h0, hcov⟩ := hp.fresh c hmeta hold
            exact ⟨hcov, h.touching_free h0⟩
      show touching g live' c = 0
      rw [htouch, hc'.2, if_neg hc'.1]
    counts := fun c => by
      refine counts_of_own ?_
      show own g s' c = liveRefs g live' c
      rw [hp.own, h.own_eq]
      unfold liveRefs
      rw [htouch]
      push_cast
      rw [Int.add_assoc]
    sound := hp.sound
    size := fun o n hmem => by
      change .extent o n ∈ live' at hmem
      rw [hlive] at hmem
      obtain heq | hmem := List.mem_cons.1 hmem
      · cases heq
        exact ⟨hpos, hsize⟩
      · exact h.size o n hmem
    current := fun hne => by
      obtain ⟨heq, hmod⟩ := hp.next hne
      exact {
        started := by
          show s'.freeByteOffset % _ ≠ 0
          rw [heq]
          exact hmod
        present := by
          refine present_of_pos ?_
          have h1 := getRefcount_eq (g := g) (s := s') (s'.freeByteOffset / g.clusterSize)
          have h2 := h.sound.own_nonneg (s'.freeByteOffset / g.clusterSize)
          rw [hp.own, if_pos (hlast hne)] at h1
          show 1 ≤ getRefcount g s' (s'.freeByteOffset / g.clusterSize)
          omega
        data := (hdata _ (hlast hne)).1
        tail := fun o n hmem => by
          change .extent o n ∈ live' at hmem
          rw [hlive] at hmem
          show o + n ≤ s'.freeByteOffset ∨
            (s'.freeByteOffset / g.clusterSize + 1) * g.clusterSize ≤ o
          obtain hnew | hmem := List.mem_cons.1 hmem
          · cases hnew
            exact .inl (Nat.le_of_eq heq.symm)
          · rw [heq]
            exact h.tail_next hsize hp.place hmod hmem } }

lemma touching_clusterRow :
    touching g (clusterRow index n) c = if index ≤ c ∧ c < index + n then 1 else 0 := by
  have hcount : touching g (clusterRow index n) c = (List.range' index n).count c := by
    unfold touching clusterRow List.count
    rw [countP_map]
    refine countP_congr fun i _ => ?_
    simp only [Function.comp_apply, decide_eq_true_eq, beq_iff_eq, touches_cluster]
    exact eq_comm
  rw [hcount]
  by_cases hc : index ≤ c ∧ c < index + n
  · rw [if_pos hc]
    exact count_eq_one_of_mem (nodup_range' 1) (by simp; omega)
  · rw [if_neg hc]
    refine List.count_eq_zero.2 fun hmem => hc ?_
    simp at hmem
    omega

lemma step_allocClusters (h : PackInv g d) (hclean : (Op.allocClusters size).Clean g d)
    (hrun : (Op.allocClusters size).step g fuel d = .ok () d') : PackInv g d' := by
  obtain ⟨offset, hrun, hlive⟩ := Disk.call_inv hrun
  obtain ⟨s', live'⟩ := d'
  change live' = _ at hlive
  change qcow2AllocClusters g fuel size d.refs = .ok offset s' at hrun
  obtain ⟨a, rfl, -, hall, hm⟩ := allocClusters_inv h.sound hclean hrun
  rw [Nat.mul_div_cancel _ g.clusterSize_pos] at hlive
  have htouch : ∀ c, touching g live' c = (if a ≤ c ∧ c < a + g.clustersFor size then 1 else 0) +
      touching g d.live c := by
    intro c
    rw [hlive, ← touching_clusterRow (g := g)]
    unfold touching
    rw [countP_append]
  have hfresh : ∀ c, IsMeta g s' c → ¬ IsMeta g d.refs c →
      getRefcount g d.refs c = 0 ∧ a + g.clustersFor size ≤ c := hm.fresh
  have hb : s'.freeByteOffset = d.refs.freeByteOffset := hm.bytes
  have hextent : ∀ o n, .extent o n ∈ live' → .extent o n ∈ d.live := by
    intro o n hmem
    rw [hlive] at hmem
    obtain hmem | hmem := List.mem_append.1 hmem
    · unfold clusterRow at hmem
      obtain ⟨_, _, heq⟩ := List.mem_map.1 hmem
      cases heq
    · exact hmem
  exact {
    disjoint := by
      show List.Pairwise _ live'
      rw [hlive]
      refine List.pairwise_append.2 ⟨?_, h.disjoint, fun b hb e he => ?_⟩
      · unfold clusterRow
        rw [pairwise_map]
        refine (nodup_range' 1).imp fun {i j} hij => ?_
        show i * g.clusterSize + g.clusterSize ≤ j * g.clusterSize ∨
          j * g.clusterSize + g.clusterSize ≤ i * g.clusterSize
        rw [← Nat.succ_mul, ← Nat.succ_mul]
        obtain hlt | hlt := Nat.lt_or_gt_of_ne hij
        · exact .inl (Nat.mul_le_mul_right _ hlt)
        · exact .inr (Nat.mul_le_mul_right _ hlt)
      · unfold clusterRow at hb
        obtain ⟨i, hi, rfl⟩ := List.mem_map.1 hb
        rw [mem_range'_1] at hi
        have := h.apart_free (hall i hi.1 hi.2) he
        rw [Nat.succ_mul] at this
        exact this.symm
    reserved := fun c hc => by
      have h0 : ¬ (a ≤ c ∧ c < a + g.clustersFor size) ∧ touching g d.live c = 0 := by
        obtain hc | hmeta := hc
        · refine ⟨fun hin => ?_, h.reserved c (.inl hc)⟩
          exact h.sound.ne_zero (hall c hin.1 hin.2) hc
        · by_cases hold : IsMeta g d.refs c
          · refine ⟨fun hin => ?_, h.reserved c (.inr hold)⟩
            exact h.sound.not_meta (hall c hin.1 hin.2) hold
          · obtain ⟨h0, hle⟩ := hfresh c hmeta hold
            exact ⟨by omega, h.touching_free h0⟩
      show touching g live' c = 0
      rw [htouch, if_neg h0.1, h0.2]
    counts := fun c => by
      refine counts_of_own ?_
      have h1 : own g s' c = own g d.refs c + _ := hm.own c
      show own g s' c = liveRefs g live' c
      rw [h1, h.own_eq]
      unfold liveRefs
      rw [htouch]
      push_cast
      omega
    sound := hm.sound
    size := fun o n hmem => h.size o n (hextent o n hmem)
    current := fun hne =>
      (h.current (hb ▸ hne)).mono hb (fun c hp => hm.present (c := c) hp) hextent }

lemma step_free (h : PackInv g d) (hc : Counted g d.refs s' δ) (hsub : live'.Sublist d.live)
    (htouch : ∀ c, (touching g live' c : Int) = touching g d.live c + δ c) :
    PackInv g ⟨s', live'⟩ := by
  have hb : s'.freeByteOffset = d.refs.freeByteOffset := hc.bytes
  have hown : ∀ c, own g d.refs c + δ c = liveRefs g live' c := by
    intro c
    rw [h.own_eq]
    unfold liveRefs
    push_cast
    rw [htouch]
    omega
  exact {
    disjoint := h.disjoint.sublist hsub
    reserved := fun c hc' => by
      have h0 := h.reserved c (hc'.imp id hc.isMeta_iff.1)
      exact Nat.le_zero.1 (h0 ▸ hsub.countP_le)
    counts := fun c => counts_of_own (by
      show own g s' c = liveRefs g live' c
      rw [hc.own_eq, hown])
    sound := by
      refine hc.sound h.sound (fun c => ?_) ?_
      · rw [hown]
        omega
      · rw [hown]
        unfold liveRefs
        rw [if_pos rfl]
        omega
    size := fun o n hmem => h.size o n (hsub.subset hmem)
    current := fun hne =>
      (h.current (hb ▸ hne)).mono hb (fun _ hp => hc.present_iff.2 hp)
        fun _ _ hmem => hsub.subset hmem }

lemma covers_row : Covers g (index * g.clusterSize) (n * g.clusterSize) c ↔
    index ≤ c ∧ c < index + n := by
  have hpos := g.clusterSize_pos
  have hn : (n * g.clusterSize + (g.clusterSize - 1)) / g.clusterSize = n := by
    rw [Nat.mul_comm, Nat.mul_add_div hpos, Nat.div_eq_of_lt (by omega), Nat.add_zero]
  rw [covers_aligned (Nat.mul_mod_left _ _), Nat.mul_div_cancel _ hpos, hn]

lemma PackInv.nodup (h : PackInv g d) : d.live.Nodup := by
  refine List.Pairwise.imp_of_mem (fun {a b} ha _ hab heq => ?_) h.disjoint
  have := h.bytes_pos ha
  rw [← heq] at hab
  unfold Region.Apart at hab
  omega

lemma touching_filter (h : PackInv g d) (hmem : ∀ c ∈ List.range' index n, .cluster c ∈ d.live)
    (c : Nat) :
    (touching g (d.live.filter fun a => !a.inRow index n) c : Int) =
      touching g d.live c + rangeDelta g (index * g.clusterSize) (n * g.clusterSize) (-1) c := by
  have hsplit := countP_eq_countP_filter_add d.live
    (fun a => decide (a.Touches g c)) fun a => a.inRow index n
  have hrow : (d.live.filter fun a => a.inRow index n).countP (fun a => decide (a.Touches g c)) =
      if index ≤ c ∧ c < index + n then 1 else 0 := by
    rw [countP_filter]
    by_cases hc : index ≤ c ∧ c < index + n
    · rw [if_pos hc, ← count_eq_one_of_mem h.nodup (hmem c (by simp; omega))]
      refine countP_congr fun a _ => ?_
      cases a with
      | cluster i =>
        simp only [Alloc.inRow, Bool.and_eq_true, decide_eq_true_eq, touches_cluster, beq_iff_eq,
          Alloc.cluster.injEq]
        omega
      | extent o m => simp [Alloc.inRow]
    · rw [if_neg hc, countP_eq_zero]
      intro a _
      cases a with
      | cluster i =>
        simp only [Alloc.inRow, Bool.and_eq_true, decide_eq_true_eq, touches_cluster]
        omega
      | extent o m => simp [Alloc.inRow]
  unfold rangeDelta touching
  rw [hsplit, hrow]
  by_cases hc : index ≤ c ∧ c < index + n
  · rw [if_pos (covers_row.2 hc)]
    push_cast
    omega
  · rw [if_neg fun hh => hc (covers_row.1 hh)]
    push_cast
    omega

lemma freeClusters_counted {s : Refs} (hs : TableOk g s)
    (hc : ∀ c, Covers g offset size c → 1 ≤ getRefcount g s c)
    (h : qcow2FreeClusters g fuel offset size type s = .ok () s') :
    Counted g s s' (rangeDelta g offset size (-1)) :=
  updateRefcount_freeOk s s' offset size type hs hc h

section
variable (h : PackInv g d)
include h

lemma PackInv.counted (ha : a ∈ d.live) (hc : a.Touches g c) : 1 ≤ getRefcount g d.refs c := by
  have : 0 < touching g d.live c := List.countP_pos_iff.2 ⟨a, ha, decide_eq_true hc⟩
  rw [h.counts]
  unfold liveRefs
  omega

lemma step_freeClusters (hrun : (Op.freeClusters index n type).step g fuel d = .ok () d') :
    PackInv g d' := by
  change (if _ then Disk.call _ _ d else .error .assert d) = _ at hrun
  split at hrun
  · rename_i hmem
    obtain ⟨_, hrun, hlive⟩ := Disk.call_inv hrun
    obtain ⟨s', live'⟩ := d'
    change live' = _ at hlive
    have hc := freeClusters_counted h.sound.toTableOk (fun c hc => by
      have hin := covers_row.1 hc
      exact h.counted (hmem c (by simp; omega)) (touches_cluster.2 rfl)) hrun
    refine step_free h hc ?_ ?_
    · rw [hlive]
      exact filter_sublist
    · rw [hlive]
      exact touching_filter h hmem
  · cases hrun

lemma step_freeBytes (hclean : (Op.freeBytes offset size type).Clean g d)
    (hrun : (Op.freeBytes offset size type).step g fuel d = .ok () d') : PackInv g d' := by
  change (if _ then Disk.call _ _ d else .error .assert d) = _ at hrun
  split at hrun
  · rename_i hmem
    obtain ⟨_, hrun, hlive⟩ := Disk.call_inv hrun
    obtain ⟨s', live'⟩ := d'
    change live' = _ at hlive
    obtain ⟨hpos, hsize⟩ := h.size offset size hmem
    rw [freeAny_compressedEntry hclean hsize] at hrun
    have hc : Counted g d.refs s' (rangeDelta g (offset / 512 * 512)
        (((offset + size - 1) / 512 - offset / 512 + 1) * 512) (-1)) :=
      freeClusters_counted h.sound.toTableOk
        (fun c hc => h.counted hmem ((covers_sectors hpos).1 hc)) hrun
    refine step_free h hc ?_ fun c => ?_
    · rw [hlive]
      exact erase_sublist
    have hperm : touching g d.live c = touching g (.extent offset size :: live') c := by
      rw [hlive]
      exact (perm_cons_erase hmem).countP_eq _
    rw [hperm, touching_cons]
    unfold rangeDelta
    by_cases hcov : Covers g offset size c
    · rw [if_pos ((covers_sectors hpos).2 hcov),
        if_pos (show (Alloc.extent offset size).Touches g c from hcov)]
      omega
    · rw [if_neg fun hh => hcov ((covers_sectors hpos).1 hh),
        if_neg (show ¬ (Alloc.extent offset size).Touches g c from hcov)]
      omega
  · cases hrun

lemma PackInv.step {op : Op} (hclean : op.Clean g d) (hrun : op.step g fuel d = .ok () d') :
    PackInv g d' := by
  cases op with
  | allocBytes size => exact step_allocBytes h hclean hrun
  | allocClusters size => exact step_allocClusters h hclean hrun
  | freeClusters index n type => exact step_freeClusters h hrun
  | freeBytes offset size type => exact step_freeBytes h hclean hrun

end

end packed

/-! ## whole runs -/

section fitting
variable {g : Config} {fuel : Nat}

lemma fitting_addReference (c : Nat) : Fitting g fuel (addReference g fuel c) :=
  fitting_dropErrno (Guards.bind ((fitting_update _ _ _ _ _).bind fun _ _ h => h) fun _ _ h => h)

lemma fitting_placeBytes (size : Nat) : Fitting g fuel (placeBytes g fuel size) := by
  intro s hs
  unfold placeBytes
  dsimp only
  split
  · exact Guards.bind (f := fun _ => pure _) (fitting_addReference _) (fun _ _ h => h) _ hs
  · exact hs

lemma fitting_allocBytes (size : Nat) : Fitting g fuel (qcow2AllocBytes g fuel size) := by
  have hextend : Fitting g fuel (extendBytes g fuel size) := by
    refine (fitting_allocClusters _).bind fun offset s hs => ?_
    show Ends _ _ ((if _ then _ else _ : RefM Nat) s)
    split
    · refine Guards.bind (fitting_addReference _) (fun _ => ?_) s hs
      exact fun _ h => h
    · exact fitting_placeBytes size _ hs
  refine .ite (fun s hs => iff_of_true hs nofun) (Guards.bind (fun s hs => ?_) fun _ =>
    Guards.bind (fun _ h => h) fun s => .ite (fitting_placeBytes size) hextend)
  unfold startBytes
  split
  · refine Guards.bind (fitting_allocClusters _) (fun _ => ?_) s hs
    exact fun _ h => h
  · exact hs

lemma fitting_step (op : Op) :
    Guards (fun d => d.refs.Roomy g fuel) (· = .overrun) (op.step g fuel) := by
  have hcall : ∀ {α : Type} {x : RefM α} {live : α → List Alloc}, Fitting g fuel x →
      Guards (fun d => d.refs.Roomy g fuel) (· = .overrun) (Disk.call x live) := by
    intro α x live hx d hd
    have h := hx d.refs hd
    unfold Disk.call
    split <;> rename_i heq <;> rw [heq] at h <;> exact h
  intro d hd
  cases op with
  | allocBytes size => exact hcall (fitting_allocBytes size) d hd
  | allocClusters size => exact hcall (fitting_allocClusters size) d hd
  | freeClusters index n type =>
    unfold Op.step
    dsimp only
    split
    · exact hcall (fitting_dropErrno (fitting_update _ _ _ _ _)) d hd
    · exact iff_of_true hd nofun
  | freeBytes offset size type =>
    unfold Op.step
    dsimp only
    split
    · refine hcall ?_ d hd
      unfold qcow2FreeAnyClusters
      split
      · exact fitting_dropErrno (fitting_update _ _ _ _ _)
      · exact fitting_dropErrno (fitting_update _ _ _ _ _)
      · exact fun _ h => h
      · exact fun _ h => h
    · exact iff_of_true hd nofun

end fitting

/-- an image that was just opened -/
structure Opened (g : Config) (d : Disk) : Prop extends Packed g d where
  sound : Sound g d.refs
  size : ∀ offset n, .extent offset n ∈ d.live → 0 < n ∧ n ≤ g.clusterSize
  bytes : d.refs.freeByteOffset = 0
  growths : d.refs.growths = []

/-- **while the cluster at `free_byte_offset` is not handed out again, live allocations are
disjoint and exactly counted; no buffer is overrun unless the table grows beyond its buffers** -/
theorem packed_of_clean {g : Config} {d : Disk} {ops : List Op} (fuel : Nat) (ho : Opened g d)
    (hclean : Meets (Op.step g fuel) (Op.Clean g) d ops) :
    Visits (Op.step g fuel) (Packed g) d ops ∧
      ∀ d', runAll (Op.step g fuel) ops d = .error .overrun d' →
        ∃ gr ∈ d'.refs.growths, ¬ gr.Fits g fuel := by
  have hinv : PackInv g d :=
    { toPacked := ho.toPacked
      sound := ho.sound
      size := ho.size
      current := fun hne => absurd ho.bytes hne }
  refine ⟨visits_of_meets (P := fun _ => PackInv g)
    (fun _ op d d' h hq hrun => h.step hq hrun) (fun _ d h => h.toPacked) hinv hclean,
    fun d' hrun => ?_⟩
  have hroomy : d.refs.Roomy g fuel := fun gr hgr => by
    rw [ho.growths] at hgr
    cases hgr
  have hfit := Guards.runAll (fun op => fitting_step op) ops d hroomy
  rw [hrun] at hfit
  by_contra hall
  push Not at hall
  exact hfit.1 hall rfl

instance (g : Config) (op : Op) (d : Disk) : Decidable (op.Clean g d) :=
  match op with
  | .allocBytes _ => inferInstanceAs (Decidable (_ → _ ∧ _ ∧ _))
  | .allocClusters _ => inferInstanceAs (Decidable (_ < _))
  | .freeClusters _ _ _ => isTrue trivial
  | .freeBytes _ _ _ => inferInstanceAs (Decidable (_ < _))

/-- header, refcount table and refcount block in the clusters 0, 1 and 2 -/
def freshRefs : Refs where
  refcountTable i := if i = 0 then 1024 else 0
  refcountTableSize := 64
  refcountTableOffset := 512
  refcountBlock _ j := if j < 3 then 1 else 0
  freeClusterIndex := 0
  freeByteOffset := 0
  cacheDiscards := false
  discards := []
  discarded := []
  growths := []

lemma freshRefs_present (maxFile c : Nat) : Present (config512 maxFile) freshRefs c ↔ c < 256 := by
  have : Present (config512 maxFile) freshRefs c ↔
      c / 256 < 64 ∧ (if c / 256 = 0 then 1024 else 0) ≠ 0 := Iff.rfl
  rw [this]
  split <;> omega

lemma freshRefs_count (maxFile c : Nat) :
    getRefcount (config512 maxFile) freshRefs c = if c < 3 then 1 else 0 := by
  by_cases hp : c < 256
  · rw [getRefcount_of_present ((freshRefs_present maxFile c).2 hp)]
    show (if c % 256 < 3 then (1 : BitVec 16) else 0).toNat = _
    rw [Nat.mod_eq_of_lt hp]
    split <;> rfl
  · rw [getRefcount_of_not_present fun h => hp ((freshRefs_present maxFile c).1 h),
      if_neg (by omega)]

lemma freshRefs_meta (maxFile c : Nat) :
    IsMeta (config512 maxFile) freshRefs c ↔ c = 1 ∨ c = 2 := by
  have hblock : IsBlock (config512 maxFile) freshRefs c ↔ c = 2 := by
    constructor
    · rintro ⟨i, -, hne, rfl⟩
      change (if i = 0 then 1024 else 0) ≠ 0 at hne
      show (if i = 0 then 1024 else 0) / 512 = 2
      split at hne
      · rename_i h0
        rw [if_pos h0]
      · exact absurd rfl hne
    · rintro rfl
      refine ⟨0, by decide, by decide, ?_⟩
      show 1024 / 512 = 2
      rfl
  have htable : InTable (config512 maxFile) freshRefs c ↔ c = 1 := by
    show 512 / 512 ≤ c ∧ c < 512 / 512 + (64 * 8 + (512 - 1)) / 512 ↔ c = 1
    omega
  unfold IsMeta
  rw [hblock, htable, or_comm]

lemma freshRefs_opened (maxFile : Nat) : Opened (config512 maxFile) ⟨freshRefs, []⟩ where
  disjoint := .nil
  reserved _ _ := rfl
  counts c := by
    show getRefcount _ freshRefs c = (if c = 0 then 1 else 0) + 0 + metaRefs _ freshRefs c
    unfold metaRefs
    rw [freshRefs_count]
    simp only [freshRefs_meta]
    split <;> split <;> split <;> omega
  sound := {
    aligned := fun i _ => by
      show (if i = 0 then 1024 else 0) % 512 = 0
      split <;> rfl
    inj := fun i _ j _ hne heq => by
      change (if i = 0 then 1024 else 0) ≠ 0 at hne
      change (if i = 0 then 1024 else 0) = if j = 0 then 1024 else 0 at heq
      split at hne
      · rename_i hi
        rw [if_pos hi] at heq
        split at heq
        · omega
        · cases heq
      · exact absurd rfl hne
    tableAligned := Nat.mod_self 512
    apart := fun c hb hin => by
      have h1 := hin.2
      obtain ⟨i, -, hne, rfl⟩ := hb
      change (if i = 0 then 1024 else 0) ≠ 0 at hne
      change (if i = 0 then 1024 else 0) / 512 < 512 / 512 + (64 * 8 + (512 - 1)) / 512 at h1
      split at hne
      · rename_i hi
        rw [if_pos hi] at h1
        omega
      · exact hne rfl
    counted := fun c hm => by
      have := (freshRefs_meta maxFile c).1 hm
      rw [freshRefs_count, if_pos (by omega)]
    header := by
      unfold own metaRefs
      rw [freshRefs_count]
      simp only [freshRefs_meta]
      decide }
  size _ _ hmem := by cases hmem
  bytes := rfl
  growths := rfl

/-- three extents, the second across two clusters; a cluster is allocated and two are freed -/
theorem packed_of_clean_across :
    Visits (Op.step (config512 (2 ^ 30)) 20) (Packed (config512 (2 ^ 30))) ⟨freshRefs, []⟩
      [.allocBytes 100, .allocBytes 500, .allocClusters 512, .freeBytes 1536 100 .other,
        .allocBytes 50, .freeClusters 5 1 .request, .freeBytes 1636 500 .other] :=
  (packed_of_clean 20 (freshRefs_opened _) (by decide +kernel)).1

/-- The first extent is freed and its cluster allocated; the next extent still goes behind the
first one, into that cluster. -/
theorem extent_overlaps :
    Opened (config512 (2 ^ 30)) ⟨freshRefs, []⟩ ∧
    ∃ d, runAll (Op.step (config512 (2 ^ 30)) 20)
        [.allocBytes 100, .freeBytes 1536 100 .other, .allocClusters 512, .allocBytes 100]
        ⟨freshRefs, []⟩ = .ok () d ∧
      d.live = [.extent 1636 100, .cluster 3] ∧ ¬ Packed (config512 (2 ^ 30)) d := by
  refine ⟨freshRefs_opened _, _, eq_ok (by decide +kernel), ?_, fun h => ?_⟩
  · decide +kernel
  have hlive : (stateOf (runAll (Op.step (config512 (2 ^ 30)) 20)
      [.allocBytes 100, .freeBytes 1536 100 .other, .allocClusters 512, .allocBytes 100]
      ⟨freshRefs, []⟩)).live = [.extent 1636 100, .cluster 3] := by decide +kernel
  have := h.disjoint
  rw [hlive] at this
  revert this
  decide

end Qcow2.Packing
