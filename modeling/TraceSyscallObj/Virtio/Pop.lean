import TraceSyscallObj.Lib.Checked
import TraceSyscallObj.Virtio.Queue

/-!
# What popping all heads of a virtqueue collects

The chain of a head is a list of buffers, which popping sorts into the two sides of an element.

* `Chain`, `links`: a chain in guest memory, as a relation and as a list;
* `collectHead_inv`: a head that can be popped has a sound chain;
* `popHeads`, `countedHeads`: the heads on offer as popping and counting find them;
* `drain_inv`: the elements of a ring that can be popped;
* `drain_ne_hang`: popping ends.
-/

namespace Virtio
open ByteMem Checked List

/-! ## chains -/

structure Buf where
  write : Bool
  sg : Sg

def bufAt (m : Mem) (descPa : BitVec 64) (i : Nat) : Buf :=
  ⟨decide (vringDescFlags m descPa i &&& VRING_DESC_F_WRITE ≠ 0),
    ⟨vringDescAddr m descPa i, vringDescLen m descPa i⟩⟩

/-- the buffers from descriptor `i` on, none of its links leading out of the table -/
inductive Chain (m : Mem) (descPa : BitVec 64) (max : Nat) : Nat → List Buf → Prop where
  | last {i : Nat} (h : vringDescFlags m descPa i &&& VRING_DESC_F_NEXT = 0) :
      Chain m descPa max i [bufAt m descPa i]
  | link {i : Nat} {l : List Buf} (h : vringDescFlags m descPa i &&& VRING_DESC_F_NEXT ≠ 0)
      (hlt : (vringDescNext m descPa i).toNat < max)
      (hl : Chain m descPa max (vringDescNext m descPa i).toNat l) :
      Chain m descPa max i (bufAt m descPa i :: l)

/-- at most `n` buffers from descriptor `i` on -/
def links (m : Mem) (descPa : BitVec 64) : (n i : Nat) → List Buf
  | 0, _ => []
  | n + 1, i =>
    bufAt m descPa i ::
      if vringDescFlags m descPa i &&& VRING_DESC_F_NEXT = 0 then []
      else links m descPa n (vringDescNext m descPa i).toNat

section chain
variable {m : Mem} {descPa : BitVec 64} {max i n : Nat} {l : List Buf}

lemma Chain.links_eq (h : Chain m descPa max i l) (hn : l.length ≤ n) : links m descPa n i = l := by
  induction h generalizing n with
  | last h =>
    obtain ⟨n, rfl⟩ := Nat.exists_eq_add_one.2 (Nat.lt_of_lt_of_le Nat.zero_lt_one hn)
    rw [links, if_pos h]
  | link h hlt hl ih =>
    obtain ⟨n, rfl⟩ := Nat.exists_eq_add_one.2 (Nat.lt_of_lt_of_le (Nat.succ_pos _) hn)
    rw [links, if_neg h, ih (Nat.le_of_succ_le_succ hn)]

lemma nextDesc_last (h : vringDescFlags m descPa i &&& VRING_DESC_F_NEXT = 0) :
    virtqueueNextDesc m descPa i max = .ok max := if_pos h

lemma nextDesc_link (h : vringDescFlags m descPa i &&& VRING_DESC_F_NEXT ≠ 0)
    (hlt : (vringDescNext m descPa i).toNat < max) :
    virtqueueNextDesc m descPa i max = .ok (vringDescNext m descPa i).toNat := by
  unfold virtqueueNextDesc
  rw [if_neg h]
  exact if_neg (by omega)

lemma nextDesc_out (h : vringDescFlags m descPa i &&& VRING_DESC_F_NEXT ≠ 0)
    (hle : max ≤ (vringDescNext m descPa i).toNat) :
    ∃ report, virtqueueNextDesc m descPa i max = .error (.exit report) := by
  unfold virtqueueNextDesc
  rw [if_neg h]
  exact ⟨_, if_pos hle⟩

lemma nextDesc_inv {j : Nat} (h : virtqueueNextDesc m descPa i max = .ok j) :
    (vringDescFlags m descPa i &&& VRING_DESC_F_NEXT = 0 ∧ j = max) ∨
    (vringDescFlags m descPa i &&& VRING_DESC_F_NEXT ≠ 0 ∧
      (vringDescNext m descPa i).toNat < max ∧ j = (vringDescNext m descPa i).toNat) := by
  by_cases hf : vringDescFlags m descPa i &&& VRING_DESC_F_NEXT = 0
  · rw [nextDesc_last hf] at h
    exact .inl ⟨hf, (Except.ok.inj h).symm⟩
  by_cases hlt : (vringDescNext m descPa i).toNat < max
  · rw [nextDesc_link hf hlt] at h
    exact .inr ⟨hf, hlt, (Except.ok.inj h).symm⟩
  · obtain ⟨report, hout⟩ := nextDesc_out hf (Nat.le_of_not_lt hlt)
    rw [hout] at h
    cases h

lemma nextDesc_ne_hang : virtqueueNextDesc m descPa i max ≠ .error .hang := by
  unfold virtqueueNextDesc
  intro h
  split at h
  · cases h
  · simp only at h
    split at h <;> cases h

end chain

/-! ## collecting -/

def writes (l : List Buf) : List Sg := (l.filter (·.write)).map (·.sg)
def reads (l : List Buf) : List Sg := (l.filter (!·.write)).map (·.sg)

lemma sides_write {b : Buf} (hb : b.write = true) : writes [b] = [b.sg] ∧ reads [b] = [] := by
  simp [writes, reads, hb]

lemma sides_read {b : Buf} (hb : b.write = false) : writes [b] = [] ∧ reads [b] = [b.sg] := by
  simp [writes, reads, hb]

variable {r : List Sg × List Sg}

section collect
variable {m : Mem} {descPa : BitVec 64} {max fuel i : Nat} {ins outs : List Sg}

lemma addSg_inv (h : addSg m descPa i ins outs = .ok r) :
    r = (ins ++ writes [bufAt m descPa i], outs ++ reads [bufAt m descPa i]) := by
  unfold addSg at h
  by_cases hw : vringDescFlags m descPa i &&& VRING_DESC_F_WRITE ≠ 0
  · rw [if_pos hw] at h
    rw [(sides_write (decide_eq_true hw)).1, (sides_write (decide_eq_true hw)).2, append_nil]
    split at h
    · cases h
    · cases h
      rfl
  · rw [if_neg hw] at h
    rw [(sides_read (decide_eq_false hw)).1, (sides_read (decide_eq_false hw)).2, append_nil]
    split at h
    · cases h
    · cases h
      rfl

lemma writes_cons (b : Buf) (l : List Buf) : writes (b :: l) = writes [b] ++ writes l := by
  unfold writes
  rw [← map_append, ← filter_append]
  rfl

lemma reads_cons (b : Buf) (l : List Buf) : reads (b :: l) = reads [b] ++ reads l := by
  unfold reads
  rw [← map_append, ← filter_append]
  rfl

lemma length_writes_reads_singleton (b : Buf) : (writes [b]).length + (reads [b]).length = 1 := by
  unfold writes reads
  cases hw : b.write <;> simp [hw]

lemma collect_inv (h : collect m descPa max fuel i ins outs = .ok r) :
    ∃ l, Chain m descPa max i l ∧ ins.length + outs.length + l.length ≤ max ∧
      r = (ins ++ writes l, outs ++ reads l) := by
  induction fuel generalizing i ins outs with
  | zero => cases h
  | succ fuel ih =>
    obtain ⟨sgs, hadd, h⟩ := bind_ok_inv h
    have hone := length_writes_reads_singleton (bufAt m descPa i)
    cases addSg_inv hadd
    by_cases hlen : max < (ins ++ writes [bufAt m descPa i]).length +
        (outs ++ reads [bufAt m descPa i]).length
    · rw [if_pos hlen] at h
      cases h
    rw [if_neg hlen] at h
    rw [length_append, length_append] at hlen
    obtain ⟨j, hj, h⟩ := bind_ok_inv h
    obtain ⟨hf, rfl⟩ | ⟨hf, hlt, rfl⟩ := nextDesc_inv hj
    · rw [if_pos rfl] at h
      cases h
      exact ⟨_, .last hf, by rw [length_singleton]; omega, rfl⟩
    rw [if_neg (by omega)] at h
    obtain ⟨l, hl, hle, rfl⟩ := ih h
    rw [length_append, length_append] at hle
    refine ⟨_, .link hf hlt hl, by rw [length_cons]; omega, ?_⟩
    simp only [writes_cons (bufAt m descPa i) l, reads_cons (bufAt m descPa i) l,
      append_assoc]

lemma addSg_ne_hang : addSg m descPa i ins outs ≠ .error .hang := by
  unfold addSg
  intro h
  split at h <;> split at h <;> cases h

lemma addSg_length (h : addSg m descPa i ins outs = .ok r) :
    r.1.length + r.2.length = ins.length + outs.length + 1 := by
  have hone := length_writes_reads_singleton (bufAt m descPa i)
  rw [addSg_inv h]
  simp only [length_append]
  omega

lemma collect_ne_hang (h0 : 0 < fuel) (hf : max < fuel + (ins.length + outs.length)) :
    collect m descPa max fuel i ins outs ≠ .error .hang := by
  induction fuel generalizing i ins outs with
  | zero => cases h0
  | succ fuel ih =>
    refine bind_ne_error addSg_ne_hang fun sgs hsgs => ?_
    have hlen := addSg_length hsgs
    split
    · exact fun h => nomatch h
    · refine bind_ne_error nextDesc_ne_hang fun j _ => ?_
      split
      · exact fun h => nomatch h
      · exact ih (by omega) (by omega)

end collect

/-! ## the chain of a head -/

section head
variable (m : Mem) (vq : VirtQueue) (h : Nat)

def Indirect : Prop := vringDescFlags m vq.vring.desc h &&& VRING_DESC_F_INDIRECT ≠ 0

instance : Decidable (Indirect m vq h) := inferInstanceAs (Decidable (_ ≠ _))

def tableSize : Nat := (vringDescLen m vq.vring.desc h).toNat / descSize

def chainOf : List Buf :=
  if Indirect m vq h then links m (vringDescAddr m vq.vring.desc h) (tableSize m vq h) 0
  else links m vq.vring.desc vq.vring.num h

/-- the entries of the ring's own table that head `h` takes -/
def slots : Nat := if Indirect m vq h then 1 else (chainOf m vq h).length

/-- a chain that stays in its table and ends -/
structure Sound : Prop where
  aligned : Indirect m vq h → (vringDescLen m vq.vring.desc h).toNat % descSize = 0
  indirect : Indirect m vq h →
    Chain m (vringDescAddr m vq.vring.desc h) (tableSize m vq h) 0 (chainOf m vq h) ∧
      (chainOf m vq h).length ≤ tableSize m vq h
  direct : ¬ Indirect m vq h →
    Chain m vq.vring.desc vq.vring.num h (chainOf m vq h) ∧
      (chainOf m vq h).length ≤ vq.vring.num

end head

section head
variable {m : Mem} {vq : VirtQueue} {h fuel : Nat}

lemma tableSize_lt (m : Mem) (vq : VirtQueue) (h : Nat) : tableSize m vq h < 2 ^ 28 := by
  unfold tableSize descSize
  omega

lemma collectHead_indirect (hi : Indirect m vq h) :
    collectHead fuel m vq h =
      if (vringDescLen m vq.vring.desc h).toNat % descSize ≠ 0 then
        .error (.exit "Invalid size for indirect buffer table")
      else
        collect m (vringDescAddr m vq.vring.desc h) (tableSize m vq h) fuel 0 [] [] := if_pos hi

lemma collectHead_direct (hi : ¬ Indirect m vq h) :
    collectHead fuel m vq h = collect m vq.vring.desc vq.vring.num fuel h [] [] := if_neg hi

lemma collectHead_inv (hr : collectHead fuel m vq h = .ok r) :
    Sound m vq h ∧ r = (writes (chainOf m vq h), reads (chainOf m vq h)) := by
  by_cases hi : Indirect m vq h
  · rw [collectHead_indirect hi] at hr
    by_cases hal : (vringDescLen m vq.vring.desc h).toNat % descSize ≠ 0
    · rw [if_pos hal] at hr
      cases hr
    rw [if_neg hal] at hr
    obtain ⟨l, hl, hle, rfl⟩ := collect_inv hr
    have hlen : l.length ≤ tableSize m vq h := by simpa using hle
    have heq : chainOf m vq h = l := by rw [chainOf, if_pos hi, hl.links_eq hlen]
    rw [heq]
    refine ⟨⟨fun _ => not_not.1 hal, fun _ => ?_, fun hn => absurd hi hn⟩, by simp⟩
    rw [heq]
    exact ⟨hl, hlen⟩
  · rw [collectHead_direct hi] at hr
    obtain ⟨l, hl, hle, rfl⟩ := collect_inv hr
    have hlen : l.length ≤ vq.vring.num := by simpa using hle
    have heq : chainOf m vq h = l := by rw [chainOf, if_neg hi, hl.links_eq hlen]
    rw [heq]
    refine ⟨⟨fun hn => absurd hn hi, fun hn => absurd hn hi, fun _ => ?_⟩, by simp⟩
    rw [heq]
    exact ⟨hl, hlen⟩

lemma collectHead_ne_hang (hf : 2 ^ 28 ≤ fuel) (hnum : vq.vring.num < fuel) :
    collectHead fuel m vq h ≠ .error .hang := by
  have hsize := tableSize_lt m vq h
  by_cases hi : Indirect m vq h
  · rw [collectHead_indirect hi]
    split
    · exact fun h => nomatch h
    · exact collect_ne_hang (by omega) (by simp only [length_nil]; omega)
  · rw [collectHead_direct hi]
    exact collect_ne_hang (by omega) (by simp only [length_nil]; omega)

end head

/-! ## the heads -/

/-- the heads from index `idx` on, where `place` says how an index wraps -/
def headsFrom (m : Mem) (vq : VirtQueue) (place : Nat → Nat) (idx : Nat) : List Nat :=
  (List.range (vringAvailIdx m vq - BitVec.ofNat 16 idx).toNat).map fun j =>
    (vringAvailRing m vq (place (idx + j) % vq.vring.num)).toNat

def popHeads (m : Mem) (vq : VirtQueue) : List Nat :=
  headsFrom m vq (· % 2 ^ 16) vq.lastAvailIdx.toNat

def countedHeads (m : Mem) (vq : VirtQueue) : List Nat :=
  headsFrom m vq id vq.lastAvailIdx.toNat

section heads
variable {m : Mem} {vq : VirtQueue} {place : Nat → Nat} {idx : Nat}

lemma headsFrom_nil (h : (vringAvailIdx m vq - BitVec.ofNat 16 idx).toNat = 0) :
    headsFrom m vq place idx = [] := by
  unfold headsFrom
  rw [h]
  rfl

section
variable (h : (vringAvailIdx m vq - BitVec.ofNat 16 idx).toNat ≠ 0)
include h

lemma left_succ : (vringAvailIdx m vq - BitVec.ofNat 16 idx).toNat =
      (vringAvailIdx m vq - BitVec.ofNat 16 (idx + 1)).toNat + 1 := by
  rw [BitVec.toNat_sub, BitVec.toNat_ofNat] at h ⊢
  rw [BitVec.toNat_sub, BitVec.toNat_ofNat]
  omega

lemma headsFrom_cons : headsFrom m vq place idx =
      (vringAvailRing m vq (place idx % vq.vring.num)).toNat ::
        headsFrom m vq place (idx + 1) := by
  unfold headsFrom
  rw [left_succ h, range_succ_eq_map, map_cons, map_map]
  refine congrArg₂ _ rfl (map_congr_left fun j _ => ?_)
  simp only [Function.comp_apply]
  rw [Nat.add_right_comm, Nat.add_assoc]

end

lemma ofNat_lastAvailIdx : BitVec.ofNat 16 vq.lastAvailIdx.toNat = vq.lastAvailIdx := by
  rw [BitVec.ofNat_toNat, BitVec.setWidth_eq]

lemma numHeads_inv {n : Nat} (h : virtqueueNumHeads m vq idx = .ok n) :
    n = (vringAvailIdx m vq - BitVec.ofNat 16 idx).toNat ∧ n ≤ vq.vring.num := by
  unfold virtqueueNumHeads at h
  simp only at h
  split at h
  · cases h
  · cases h
    exact ⟨rfl, by omega⟩

lemma getHead_inv {n : Nat} (h : virtqueueGetHead m vq idx = .ok n) :
    n = (vringAvailRing m vq (idx % vq.vring.num)).toNat ∧ n < vq.vring.num := by
  unfold virtqueueGetHead at h
  simp only at h
  split at h
  · cases h
  · cases h
    exact ⟨rfl, by omega⟩

lemma numHeads_ok (h : (vringAvailIdx m vq - BitVec.ofNat 16 idx).toNat ≤ vq.vring.num) :
    virtqueueNumHeads m vq idx = .ok (vringAvailIdx m vq - BitVec.ofNat 16 idx).toNat :=
  if_neg (by omega)

lemma getHead_ok (h : (vringAvailRing m vq (idx % vq.vring.num)).toNat < vq.vring.num) :
    virtqueueGetHead m vq idx = .ok (vringAvailRing m vq (idx % vq.vring.num)).toNat :=
  if_neg (by omega)

lemma numHeads_out (h : ¬ (vringAvailIdx m vq - BitVec.ofNat 16 idx).toNat ≤ vq.vring.num) :
    ∃ report, virtqueueNumHeads m vq idx = .error (.exit report) := ⟨_, if_pos (by omega)⟩

lemma getHead_out (h : ¬ (vringAvailRing m vq (idx % vq.vring.num)).toNat < vq.vring.num) :
    ∃ report, virtqueueGetHead m vq idx = .error (.exit report) := ⟨_, if_pos (by omega)⟩

lemma numHeads_ne_hang : virtqueueNumHeads m vq idx ≠ .error .hang := by
  unfold virtqueueNumHeads
  simp only
  split <;> exact fun h => nomatch h

lemma getHead_ne_hang : virtqueueGetHead m vq idx ≠ .error .hang := by
  unfold virtqueueGetHead
  simp only
  split <;> exact fun h => nomatch h

lemma headsFrom_wrap :
    headsFrom m vq (· % 2 ^ 16) (idx % 2 ^ 16) = headsFrom m vq (· % 2 ^ 16) idx := by
  have hn : BitVec.ofNat 16 (idx % 2 ^ 16) = BitVec.ofNat 16 idx := by
    apply BitVec.eq_of_toNat_eq
    rw [BitVec.toNat_ofNat, BitVec.toNat_ofNat, Nat.mod_mod]
  unfold headsFrom
  rw [hn]
  refine map_congr_left fun j _ => ?_
  simp only [Nat.mod_add_mod]

def VirtQueue.advance (vq : VirtQueue) : VirtQueue :=
  { vq with lastAvailIdx := vq.lastAvailIdx + 1 }

lemma popHeads_cons (h : (vringAvailIdx m vq - vq.lastAvailIdx).toNat ≠ 0) :
    popHeads m vq =
      (vringAvailRing m vq (vq.lastAvailIdx.toNat % vq.vring.num)).toNat ::
        popHeads m vq.advance := by
  have hlt := vq.lastAvailIdx.isLt
  unfold popHeads
  rw [headsFrom_cons (by rw [ofNat_lastAvailIdx]; exact h), Nat.mod_eq_of_lt hlt, ← headsFrom_wrap]
  refine congrArg _ ?_
  rfl

end heads

/-! ## popping all heads -/

/-- what popping makes of head `h` -/
def elemOf (m : Mem) (vq : VirtQueue) (h : Nat) : VirtQueueElement :=
  ⟨h, writes (chainOf m vq h), reads (chainOf m vq h)⟩

/-- every head that popping reaches is good -/
structure WellFormed (m : Mem) (vq : VirtQueue) : Prop where
  few : (vringAvailIdx m vq - vq.lastAvailIdx).toNat ≤ vq.vring.num
  lt : ∀ h ∈ popHeads m vq, h < vq.vring.num
  sound : ∀ h ∈ popHeads m vq, Sound m vq h

section drain
variable {m : Mem} {vq : VirtQueue} {chainFuel fuel : Nat}

lemma pop_inv {r : Option (VirtQueueElement × VirtQueue)}
    (h : virtqueuePop chainFuel m vq = .ok r) :
    (vringAvailIdx m vq - vq.lastAvailIdx).toNat ≤ vq.vring.num ∧
    (((vringAvailIdx m vq - vq.lastAvailIdx).toNat = 0 ∧ r = none) ∨
    ((vringAvailIdx m vq - vq.lastAvailIdx).toNat ≠ 0 ∧
      ∃ head, head = (vringAvailRing m vq (vq.lastAvailIdx.toNat % vq.vring.num)).toNat ∧
        head < vq.vring.num ∧ Sound m vq head ∧ r = some (elemOf m vq head, vq.advance))) := by
  obtain ⟨n, hn, h⟩ := bind_ok_inv h
  obtain ⟨hn, hle⟩ := numHeads_inv hn
  rw [ofNat_lastAvailIdx] at hn
  subst hn
  refine ⟨hle, ?_⟩
  by_cases h0 : (vringAvailIdx m vq - vq.lastAvailIdx).toNat = 0
  · rw [if_pos h0] at h
    cases h
    exact .inl ⟨h0, rfl⟩
  rw [if_neg h0] at h
  obtain ⟨head, hhead, h⟩ := bind_ok_inv h
  obtain ⟨sgs, hsgs, h⟩ := bind_ok_inv h
  obtain ⟨hsound, rfl⟩ := collectHead_inv hsgs
  obtain ⟨heq, hlt⟩ := getHead_inv hhead
  cases h
  exact .inr ⟨h0, head, heq, hlt, hsound, rfl⟩

lemma drain_inv {elems : List VirtQueueElement} (h : drain m chainFuel fuel vq = .ok elems) :
    WellFormed m vq ∧ elems = (popHeads m vq).map (elemOf m vq) := by
  induction fuel generalizing vq elems with
  | zero => cases h
  | succ fuel ih =>
    obtain ⟨r, hr, h⟩ := bind_ok_inv h
    obtain ⟨hfew, ⟨h0, rfl⟩ | ⟨h0, head, hhead, hlt, hsound, rfl⟩⟩ := pop_inv hr
    · have hnil : popHeads m vq = [] := headsFrom_nil (by rw [ofNat_lastAvailIdx]; exact h0)
      cases h
      exact ⟨⟨hfew, by simp [hnil], by simp [hnil]⟩, by rw [hnil]; rfl⟩
    obtain ⟨rest, hrest, h⟩ := bind_ok_inv h
    obtain ⟨hwf, rfl⟩ := ih hrest
    cases h
    have hcons := popHeads_cons h0
    rw [← hhead] at hcons
    rw [hcons]
    refine ⟨⟨hfew, ?_, ?_⟩, rfl⟩
    · rw [hcons]
      exact List.forall_mem_cons.2 ⟨hlt, hwf.lt⟩
    · rw [hcons]
      refine List.forall_mem_cons.2 ⟨hsound, fun h hh => ?_⟩
      have := hwf.sound h hh
      exact ⟨this.aligned, this.indirect, this.direct⟩

lemma pop_ne_hang (hf : 2 ^ 28 ≤ chainFuel) (hnum : vq.vring.num < chainFuel) :
    virtqueuePop chainFuel m vq ≠ .error .hang := by
  refine bind_ne_error numHeads_ne_hang fun n _ => ?_
  split
  · exact fun h => nomatch h
  · refine bind_ne_error getHead_ne_hang fun head _ => ?_
    exact bind_ne_error (collectHead_ne_hang hf hnum) fun sgs _ h => nomatch h

lemma drain_ne_hang (hf : 2 ^ 28 ≤ chainFuel) (hnum : vq.vring.num < chainFuel)
    (hn : (vringAvailIdx m vq - vq.lastAvailIdx).toNat < fuel) :
    drain m chainFuel fuel vq ≠ .error .hang := by
  induction fuel generalizing vq with
  | zero => omega
  | succ fuel ih =>
    refine bind_ne_error (pop_ne_hang hf hnum) fun r hr => ?_
    obtain ⟨-, ⟨-, rfl⟩ | ⟨h0, head, -, -, -, rfl⟩⟩ := pop_inv hr
    · exact fun h => nomatch h
    · refine bind_ne_error (ih hnum ?_) fun elems _ h => nomatch h
      have hadv : vq.advance.lastAvailIdx = vq.lastAvailIdx + 1 := rfl
      have hsame : vringAvailIdx m vq.advance = vringAvailIdx m vq := rfl
      bv_omega

end drain

end Virtio
