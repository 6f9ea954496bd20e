import TraceSyscallObj.Qcow2.Update

/-!
# Table entries (`block/qcow2.h`)

* `getClusterType`, `hostOffset`, `compressedOffset`, `csectors`: what an entry says;
* `compressedEntry`: the entry that `qcow2_alloc_compressed_cluster_offset` writes;
* `qcow2FreeAnyClusters`;
* `decompressRead`: what `qcow2_decompress_cluster` reads;
* `covers_sectors`: the sectors of an extent touch the clusters of its bytes.
-/

namespace Qcow2
open BitVec

/-- an entry of an L1 or L2 table -/
abbrev Entry := BitVec 64

def oflagCompressed : Entry := 0x4000000000000000#64

/-- the cluster reads as all zeros -/
def oflagZero : Entry := 0x1#64

/-- `L1E_OFFSET_MASK` and `L2E_OFFSET_MASK` -/
def offsetMask : Entry := 0x00ffffffffffff00#64

inductive ClusterType where
  | unallocated
  | normal
  | compressed
  | zero
deriving DecidableEq

def getClusterType (l2Entry : Entry) : ClusterType :=
  if l2Entry &&& oflagCompressed ≠ 0 then .compressed
  else if l2Entry &&& oflagZero ≠ 0 then .zero
  else if l2Entry &&& offsetMask = 0 then .unallocated
  else .normal

/-- the byte offset in an entry that is not compressed -/
def hostOffset (entry : Entry) : Nat := (entry &&& offsetMask).toNat

section compressed
variable (g : Config)

def Config.csizeShift : Nat := 62 - (g.clusterBits - 8)

def Config.csizeMask : Entry := BitVec.ofNat 64 (2 ^ (g.clusterBits - 8) - 1)

def Config.clusterOffsetMask : Entry := BitVec.ofNat 64 (2 ^ g.csizeShift - 1)

/-- `nb_csectors` -/
def csectors (l2Entry : Entry) : Nat := ((l2Entry >>> g.csizeShift) &&& g.csizeMask).toNat + 1

/-- the start of the first sector -/
def compressedOffset (l2Entry : Entry) : Nat :=
  (l2Entry &&& g.clusterOffsetMask).toNat / 512 * 512

/-- the sectors that `qcow2_decompress_cluster` reads, and the bytes in them that it inflates -/
structure CompressedRead where
  sector : Nat
  nbCsectors : Nat
  sectorOffset : Nat
  csize : Nat
deriving DecidableEq

def decompressRead (clusterOffset : Entry) : CompressedRead :=
  let coffset := (clusterOffset &&& g.clusterOffsetMask).toNat
  { sector := coffset / 512
    nbCsectors := csectors g clusterOffset
    sectorOffset := coffset % 512
    csize := csectors g clusterOffset * 512 - coffset % 512 }

def compressedEntry (offset size : Nat) : Entry :=
  let nbCsectors := (offset + size - 1) / 512 - offset / 512
  BitVec.ofNat 64 offset |||
    (oflagCompressed ||| (BitVec.ofNat 64 nbCsectors <<< g.csizeShift))

def qcow2FreeAnyClusters (fuel : Nat) (l2Entry : Entry) (nbClusters : Nat) (type : DiscardType) :
    RefM Unit :=
  match getClusterType l2Entry with
  | .compressed =>
    qcow2FreeClusters g fuel (compressedOffset g l2Entry) (csectors g l2Entry * 512) type
  | .normal => qcow2FreeClusters g fuel (hostOffset l2Entry) (nbClusters * g.clusterSize) type
  | .unallocated => pure ()
  | .zero => pure ()

end compressed

section decode
variable {g : Config} {offset size c : Nat}

lemma Config.csizeShift_add (g : Config) : g.csizeShift + (g.clusterBits - 8) = 62 := by
  have := g.le_max
  unfold Config.csizeShift
  omega

lemma Config.sectors_mul (g : Config) : 512 * 2 ^ (g.clusterBits - 9) = g.clusterSize := by
  have := g.min_le
  have h : (512 : Nat) = 2 ^ 9 := rfl
  rw [h, ← Nat.pow_add]
  congr 1
  omega

lemma sectors_lt (offset : Nat) (hsize : size ≤ g.clusterSize) :
    (offset + size - 1) / 512 - offset / 512 < 2 ^ (g.clusterBits - 8) := by
  have := g.min_le
  have hmul := g.sectors_mul
  have hpow : 2 ^ (g.clusterBits - 8) = 2 * 2 ^ (g.clusterBits - 9) := by
    rw [← Nat.pow_succ']
    congr 1
    omega
  have hpos : 0 < 2 ^ (g.clusterBits - 9) := Nat.two_pow_pos _
  rw [hpow]
  generalize 2 ^ (g.clusterBits - 9) = k at hmul hpos ⊢
  omega

section
variable (hoff : offset < 2 ^ g.csizeShift) (hsize : size ≤ g.clusterSize)
include hoff hsize

lemma compressedEntry_toNat :
    (compressedEntry g offset size).toNat = 2 ^ 62 +
      (2 ^ g.csizeShift * ((offset + size - 1) / 512 - offset / 512) + offset) := by
  have hn := sectors_lt offset hsize
  have hadd := g.csizeShift_add
  unfold compressedEntry
  generalize (offset + size - 1) / 512 - offset / 512 = n at hn ⊢
  have hpow : 2 ^ g.csizeShift * 2 ^ (g.clusterBits - 8) = 2 ^ 62 := by
    rw [← Nat.pow_add, hadd]
  have hlt : 2 ^ g.csizeShift * n + offset < 2 ^ 62 := by
    have h1 : 2 ^ g.csizeShift * (n + 1) ≤ 2 ^ g.csizeShift * 2 ^ (g.clusterBits - 8) :=
      Nat.mul_le_mul_left _ hn
    rw [Nat.mul_succ] at h1
    omega
  have hn62 : n * 1 ≤ 2 ^ g.csizeShift * n := by
    rw [Nat.mul_comm]
    exact Nat.mul_le_mul_right _ (Nat.two_pow_pos _)
  have hshift : (BitVec.ofNat 64 n <<< g.csizeShift).toNat = 2 ^ g.csizeShift * n := by
    rw [toNat_shiftLeft, toNat_ofNat, Nat.shiftLeft_eq,
      Nat.mod_eq_of_lt (a := n) (by omega), Nat.mul_comm, Nat.mod_eq_of_lt (by omega)]
  have hflag : oflagCompressed.toNat = 2 ^ 62 := rfl
  rw [toNat_or, toNat_or, hshift, hflag, toNat_ofNat,
    Nat.mod_eq_of_lt (by omega), Nat.or_comm, Nat.or_assoc,
    ← Nat.two_pow_add_eq_or_of_lt hoff, ← Nat.mul_one (2 ^ 62),
    ← Nat.two_pow_add_eq_or_of_lt hlt]

lemma compressedEntry_coffset :
    (compressedEntry g offset size &&& g.clusterOffsetMask).toNat = offset := by
  have hle : g.csizeShift ≤ 62 := by
    have := g.csizeShift_add
    omega
  have hpow : 2 ^ g.csizeShift ≤ 2 ^ 62 := Nat.pow_le_pow_right (by decide) hle
  have hmask : g.clusterOffsetMask.toNat = 2 ^ g.csizeShift - 1 := by
    unfold Config.clusterOffsetMask
    rw [toNat_ofNat, Nat.mod_eq_of_lt (by omega)]
  have hdvd : 2 ^ 62 = 2 ^ g.csizeShift * 2 ^ (g.clusterBits - 8) := by
    rw [← Nat.pow_add, g.csizeShift_add]
  rw [toNat_and, hmask, Nat.and_two_pow_sub_one_eq_mod, compressedEntry_toNat hoff hsize,
    hdvd, ← Nat.add_assoc, ← Nat.mul_add, Nat.mul_add_mod, Nat.mod_eq_of_lt hoff]

lemma compressedEntry_csectors :
    csectors g (compressedEntry g offset size) = (offset + size - 1) / 512 - offset / 512 + 1 := by
  have hn := sectors_lt offset hsize
  have hmask : g.csizeMask.toNat = 2 ^ (g.clusterBits - 8) - 1 := by
    have : 2 ^ (g.clusterBits - 8) ≤ 2 ^ 13 := by
      have := g.le_max
      exact Nat.pow_le_pow_right (by decide) (by omega)
    unfold Config.csizeMask
    rw [toNat_ofNat, Nat.mod_eq_of_lt (by omega)]
  have hdvd : 2 ^ 62 = 2 ^ g.csizeShift * 2 ^ (g.clusterBits - 8) := by
    rw [← Nat.pow_add, g.csizeShift_add]
  have hdiv : (compressedEntry g offset size).toNat / 2 ^ g.csizeShift =
      2 ^ (g.clusterBits - 8) + ((offset + size - 1) / 512 - offset / 512) := by
    rw [compressedEntry_toNat hoff hsize, hdvd, ← Nat.add_assoc, ← Nat.mul_add,
      Nat.mul_add_div (Nat.two_pow_pos _), Nat.div_eq_of_lt hoff, Nat.add_zero]
  unfold csectors
  rw [toNat_and, hmask, toNat_ushiftRight, Nat.shiftRight_eq_div_pow, hdiv,
    Nat.and_two_pow_sub_one_eq_mod, Nat.add_mod_left, Nat.mod_eq_of_lt hn]

lemma decompressRead_compressedEntry :
    decompressRead g (compressedEntry g offset size) =
      ⟨offset / 512, (offset + size - 1) / 512 - offset / 512 + 1, offset % 512,
        ((offset + size - 1) / 512 - offset / 512 + 1) * 512 - offset % 512⟩ := by
  unfold decompressRead
  rw [compressedEntry_coffset hoff hsize, compressedEntry_csectors hoff hsize]

omit hoff hsize in
lemma compressedEntry_type : getClusterType (compressedEntry g offset size) = .compressed := by
  unfold getClusterType
  rw [if_pos]
  unfold compressedEntry
  simp only
  intro h
  have hbit := congrArg (BitVec.getLsbD · 62) h
  simp [oflagCompressed] at hbit

lemma freeAny_compressedEntry {fuel n : Nat} {type : DiscardType} :
    qcow2FreeAnyClusters g fuel (compressedEntry g offset size) n type =
      qcow2FreeClusters g fuel (offset / 512 * 512)
        (((offset + size - 1) / 512 - offset / 512 + 1) * 512) type := by
  unfold qcow2FreeAnyClusters compressedOffset
  rw [compressedEntry_type]
  rw [compressedEntry_coffset hoff hsize, compressedEntry_csectors hoff hsize]

end

lemma covers_sectors (hpos : 0 < size) :
    Covers g (offset / 512 * 512) (((offset + size - 1) / 512 - offset / 512 + 1) * 512) c ↔
      Covers g offset size c := by
  have hmul := g.sectors_mul
  have hlast : offset / 512 * 512 + ((offset + size - 1) / 512 - offset / 512 + 1) * 512 - 1 =
      (offset + size - 1) / 512 * 512 + 511 := by omega
  have hdiv : ∀ x, x / 512 * 512 / g.clusterSize = x / g.clusterSize := by
    intro x
    rw [← hmul, ← Nat.div_div_eq_div_mul, ← Nat.div_div_eq_div_mul, Nat.mul_div_cancel _ (by decide)]
  have hdiv' : ∀ x, (x / 512 * 512 + 511) / g.clusterSize = x / g.clusterSize := by
    intro x
    rw [← hmul, ← Nat.div_div_eq_div_mul, ← Nat.div_div_eq_div_mul]
    congr 1
    omega
  unfold Covers
  rw [hlast, hdiv, hdiv']
  omega

end decode

end Qcow2
