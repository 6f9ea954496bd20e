import Mathlib

/-!
# Reference counts and allocation of clusters (`block/qcow2-refcount.c`)

The refcount table names refcount blocks, which hold a 16-bit count for each cluster of the image
file.  Both lie in clusters that are counted themselves.

* `Refs`: the refcount structures, the allocation pointers and the discard queue;
* `getRefcount`, `updateRefcount`, `allocRefcountBlock`, `growRefcountTable`;
* `allocClustersNoref`, `qcow2AllocClusters`, `qcow2AllocBytes`;
* `qcow2FreeClusters`, `updateRefcountDiscard`, `qcow2ProcessDiscards`.

Reads and writes of the image file succeed below `maxFile`, and the caches hold what the file
will hold.  Offsets and indices are natural numbers.  Loops and the mutual recursion take fuel.
-/

namespace Qcow2
open Function

inductive Errno where
  | einval
  | efbig
deriving DecidableEq

inductive Fault where
  | errno (e : Errno)
  /-- a write past the end of a buffer -/
  | overrun
  | assert
  /-- a write to the image file fails; runs are not followed any further -/
  | io
  | hang
deriving DecidableEq

inductive DiscardType where
  | never
  | always
  | request
  | snapshot
  | other
deriving DecidableEq

/-- what is fixed while the image is open -/
structure Config where
  clusterBits : Nat
  min_le : 9 ≤ clusterBits
  le_max : clusterBits ≤ 21
  discardPassthrough : DiscardType → Bool
  never : discardPassthrough .never = false
  /-- the size up to which the image file can be written -/
  maxFile : Nat

namespace Config
variable (g : Config)

def clusterSize : Nat := 2 ^ g.clusterBits

/-- the number of counts in a refcount block (`REFCOUNT_SHIFT` is 1) -/
def refcountBlockClusters : Nat := 2 ^ (g.clusterBits - 1)

/-- the number of entries of the refcount table in a cluster -/
def tableEntries : Nat := 2 ^ (g.clusterBits - 3)

/-- as `int` -/
def sizeToClusters (size : Nat) : Int :=
  Int.bmod ((size + (g.clusterSize - 1)) / g.clusterSize : Nat) (2 ^ 32)

end Config

/-- `Qcow2DiscardRegion` -/
structure Region where
  offset : Nat
  bytes : Nat
deriving DecidableEq

def Region.Apart (r r' : Region) : Prop :=
  r.offset + r.bytes ≤ r'.offset ∨ r'.offset + r'.bytes ≤ r.offset

instance (r r' : Region) : Decidable (r.Apart r') := inferInstanceAs (Decidable (_ ∨ _))

/-- where the refcount table is made larger, for the sake of one of its entries -/
structure TableGrowth where
  refcountTableSize : Nat
  freeClusterIndex : Nat
  refcountTableIndex : Nat
deriving DecidableEq

structure Refs where
  /-- byte offsets of the refcount blocks, 0 for none -/
  refcountTable : Nat → Nat
  refcountTableSize : Nat
  refcountTableOffset : Nat
  /-- the counts of the block at a byte offset -/
  refcountBlock : Nat → Nat → BitVec 16
  freeClusterIndex : Nat
  freeByteOffset : Nat
  cacheDiscards : Bool
  discards : List Region
  /-- the calls of `bdrv_discard`, each with the counts at that moment -/
  discarded : List (Region × (Nat → Nat))
  /-- the growths of the table so far, up to one that overruns its buffers -/
  growths : List TableGrowth

abbrev RefM := EStateM Fault Refs

def throwErrno {α : Type} (e : Errno) : RefM α := throw (.errno e)

/-- a call whose error code is dropped -/
def dropErrno (x : RefM Unit) : RefM Unit := fun s =>
  match x s with
  | .error (.errno _) s' => .ok () s'
  | r => r

/-- the two regions touch or overlap, as `update_refcount_discard` tests it -/
def Region.meets (d : Region) (offset length : Nat) : Prop :=
  max (offset + length) (d.offset + d.bytes) - min offset d.offset ≤ length + d.bytes

instance (d : Region) (offset length : Nat) : Decidable (d.meets offset length) :=
  inferInstanceAs (Decidable (_ ≤ _))

/-- the queue split at the first region that the new one is joined to -/
def findMeets (offset length : Nat) : List Region → List Region →
    Option (List Region × Region × List Region)
  | _, [] => none
  | pre, d :: post =>
    if d.meets offset length then some (pre, d, post)
    else findMeets offset length (pre ++ [d]) post

/-- merges the regions of a part of the queue that are adjacent to `d` into it -/
def mergeAdjacent : Region → List Region → List Region → Except Fault (Region × List Region)
  | d, kept, [] => .ok (d, kept)
  | d, kept, p :: ps =>
    if d.offset + d.bytes < p.offset ∨ p.offset + p.bytes < d.offset then
      mergeAdjacent d (kept ++ [p]) ps
    else if p.offset = d.offset + d.bytes ∨ d.offset = p.offset + p.bytes then
      mergeAdjacent ⟨min d.offset p.offset, d.bytes + p.bytes⟩ kept ps
    else .error .assert

/-- the queue with the new region, which may be joined to one that is there -/
def joinDiscard (offset length : Nat) (ds : List Region) :
    Except Fault (List Region × Region × List Region) :=
  match findMeets offset length [] ds with
  | some (pre, d, post) =>
    let newStart := min offset d.offset
    let newEnd := max (offset + length) (d.offset + d.bytes)
    if d.bytes + length = newEnd - newStart then .ok (pre, ⟨newStart, newEnd - newStart⟩, post)
    else .error .assert
  | none => .ok (ds, ⟨offset, length⟩, [])

def updateRefcountDiscard (offset length : Nat) (ds : List Region) :
    Except Fault (List Region) := do
  let q ← joinDiscard offset length ds
  let before ← mergeAdjacent q.2.1 [] q.1
  let behind ← mergeAdjacent before.1 [] q.2.2
  .ok (before.2 ++ behind.1 :: behind.2)

section refcount
variable (g : Config)

def getRefcount (s : Refs) (clusterIndex : Nat) : Nat :=
  let refcountTableIndex := clusterIndex / g.refcountBlockClusters
  if s.refcountTableSize ≤ refcountTableIndex then 0
  else
    let refcountBlockOffset := s.refcountTable refcountTableIndex
    if refcountBlockOffset = 0 then 0
    else (s.refcountBlock refcountBlockOffset (clusterIndex % g.refcountBlockClusters)).toNat

/-- `success` if the return code handed over is not negative -/
def qcow2ProcessDiscards (success : Bool) : RefM Unit := fun s =>
  .ok () { s with
    discards := []
    discarded :=
      if success then s.discarded ++ s.discards.map fun d => (d, getRefcount g s)
      else s.discarded }

/-- `clusters`, grown by half until there are `minClusters`; both are `unsigned int` -/
def nextTableClusters (minClusters : Nat) : (fuel clusters : Nat) → Option Nat
  | 0, _ => none
  | fuel + 1, clusters =>
    if clusters < minClusters then
      nextTableClusters minClusters fuel ((clusters * 3 + 1) % 2 ^ 32 / 2)
    else some clusters

/-- the result is an `unsigned int` -/
def nextRefcountTableSize (fuel refcountTableSize minSize : Nat) : Option Nat :=
  (nextTableClusters (minSize % 2 ^ 32 / g.tableEntries + 1) fuel
    (max 1 (refcountTableSize / g.tableEntries))).map (· * g.tableEntries % 2 ^ 32)

def inSameRefcountBlock (offsetA offsetB : Nat) : Bool :=
  offsetA / (g.clusterSize * g.refcountBlockClusters) ==
    offsetB / (g.clusterSize * g.refcountBlockClusters)

/-- one pass over the sizes of the new metadata: clusters of the table, clusters of new blocks -/
def metaClusters (tableSize : Nat) : Nat × Nat :=
  let tableClusters := (g.sizeToClusters (tableSize * 8)).toNat
  (tableClusters, 1 + (tableClusters + g.refcountBlockClusters - 1) / g.refcountBlockClusters)

/-- the `do … while` that settles the size of the new table -/
def settleTableSize (loopFuel refcountTableSize blocksUsed : Nat) :
    (fuel tableSize : Nat) → Option Nat
  | 0, _ => none
  | fuel + 1, tableSize => do
    let (tableClusters, blocksClusters) := metaClusters g tableSize
    let tableSize' ← nextRefcountTableSize g loopFuel refcountTableSize
      (blocksUsed + (tableClusters + blocksClusters + g.refcountBlockClusters - 1) /
        g.refcountBlockClusters)
    if tableSize' = tableSize then some tableSize
    else settleTableSize loopFuel refcountTableSize blocksUsed fuel tableSize'

/-- the size of the table after growing, and the first table entry for the new metadata -/
def newTableSize (fuel refcountTableSize freeClusterIndex : Nat) : Option (Nat × Nat) := do
  let blocksUsed := (freeClusterIndex + g.refcountBlockClusters - 1) / g.refcountBlockClusters
  let first ← nextRefcountTableSize g fuel refcountTableSize (blocksUsed + 1)
  let tableSize ← settleTableSize g fuel refcountTableSize blocksUsed fuel first
  some (tableSize, blocksUsed)

def Refs.growth (s : Refs) (refcountTableIndex : Nat) : TableGrowth :=
  ⟨s.refcountTableSize, s.freeClusterIndex, refcountTableIndex⟩

/-- the new table in place of the old one, with its blocks behind `meta_offset` -/
def switchTable (s : Refs) (refcountTableIndex newBlock tableSize blocksUsed : Nat) : Refs :=
  let tableClusters := (metaClusters g tableSize).1
  let blocksClusters := (metaClusters g tableSize).2
  let metaCluster := blocksUsed * g.refcountBlockClusters
  { s with
    refcountTable := fun i =>
      if blocksUsed ≤ i ∧ i < blocksUsed + blocksClusters then
        (metaCluster + (i - blocksUsed)) * g.clusterSize
      else if i = refcountTableIndex then newBlock
      else if i < s.refcountTableSize then s.refcountTable i
      else 0
    refcountBlock := fun o j =>
      if metaCluster * g.clusterSize ≤ o ∧ o < (metaCluster + blocksClusters) * g.clusterSize then
        if (o / g.clusterSize - metaCluster) * g.refcountBlockClusters + j <
            tableClusters + blocksClusters then 1
        else 0
      else s.refcountBlock o j
    refcountTableSize := tableSize
    refcountTableOffset := (metaCluster + blocksClusters) * g.clusterSize
    growths := s.growths ++ [s.growth refcountTableIndex] }

/-- nothing is written past the end of `new_table` and of `new_blocks` -/
def NewFits (refcountTableSize refcountTableIndex tableSize blocksUsed : Nat) : Prop :=
  refcountTableSize ≤ tableSize ∧ refcountTableIndex < tableSize ∧
  blocksUsed + (metaClusters g tableSize).2 ≤ tableSize ∧
  (metaClusters g tableSize).1 + (metaClusters g tableSize).2 ≤
    (metaClusters g tableSize).2 * g.refcountBlockClusters

instance (m i n b : Nat) : Decidable (NewFits g m i n b) :=
  inferInstanceAs (Decidable (_ ∧ _ ∧ _ ∧ _))

/-- the buffers of the size that is settled on have room -/
def TableGrowth.Fits (fuel : Nat) (gr : TableGrowth) : Prop :=
  match newTableSize g fuel gr.refcountTableSize gr.freeClusterIndex with
  | none => True
  | some (tableSize, blocksUsed) =>
    NewFits g gr.refcountTableSize gr.refcountTableIndex tableSize blocksUsed

instance (fuel : Nat) (gr : TableGrowth) : Decidable (gr.Fits g fuel) := by
  unfold TableGrowth.Fits
  split <;> infer_instance

/-- the search with its `retry`, `i` clusters being free so far -/
def norefLoop (nbClusters : Int) : (fuel i : Nat) → RefM Unit
  | 0, _ => throw .hang
  | fuel + 1, i => fun s =>
    if (i : Int) < nbClusters then
      let s' := { s with freeClusterIndex := s.freeClusterIndex + 1 }
      if getRefcount g s s.freeClusterIndex ≠ 0 then norefLoop nbClusters fuel 0 s'
      else norefLoop nbClusters fuel (i + 1) s'
    else .ok () s

def allocClustersNoref (fuel size : Nat) : RefM Nat := do
  let nbClusters := g.sizeToClusters size
  norefLoop g nbClusters fuel 0
  let s ← get
  pure (((s.freeClusterIndex : Int) - nbClusters).toNat * g.clusterSize)

/-- `update_refcount` as `alloc_refcount_block` calls it: offset, length, addend, type -/
abbrev Update := Nat → Int → Int → DiscardType → RefM Unit

/-- the second half of `alloc_refcount_block`, where the table is too small -/
def growRefcountTable (upd : Update) (fuel refcountTableIndex newBlock : Nat) : RefM Unit :=
  fun s =>
  match newTableSize g fuel s.refcountTableSize s.freeClusterIndex with
  | none => .error .hang s
  | some (tableSize, blocksUsed) =>
    if blocksUsed * g.refcountBlockClusters < s.freeClusterIndex then .error .assert s
    else if NewFits g s.refcountTableSize refcountTableIndex tableSize blocksUsed then
      let s' := switchTable g s refcountTableIndex newBlock tableSize blocksUsed
      if g.maxFile < s'.refcountTableOffset + tableSize * 8 then .error .io s
      else
      match dropErrno (upd s.refcountTableOffset (s.refcountTableSize * 8 : Nat) (-1) .other) s' with
      | .ok () s'' => .ok () { s'' with freeClusterIndex := s'.freeClusterIndex }
      | .error e s'' => .error e s''
    else .error .overrun { s with growths := s.growths ++ [s.growth refcountTableIndex] }

/-- the byte offset of a table entry without its reserved bits (`REFT_OFFSET_MASK`) -/
def reftOffset (entry : Nat) : Nat := entry / 256 * 256

def setBlock (s : Refs) (offset : Nat) (counts : Nat → BitVec 16) : Refs :=
  { s with refcountBlock := update s.refcountBlock offset counts }

/-- counts the new block, in itself if it describes itself -/
def initBlock (upd : Update) (clusterIndex newBlock : Nat) : RefM Unit :=
  if inSameRefcountBlock g newBlock (clusterIndex * g.clusterSize) then
    modify fun s =>
      setBlock s newBlock fun j =>
        if j = newBlock / g.clusterSize % g.refcountBlockClusters then 1 else 0
  else do
    upd newBlock g.clusterSize 1 .never
    modify fun s => setBlock s newBlock fun _ => 0

def flushBlock (newBlock : Nat) : RefM Unit := fun s =>
  if g.maxFile < newBlock + g.clusterSize then .error .io s else .ok () s

/-- the block that counts a cluster, made if it is not there -/
def allocRefcountBlock (upd : Update) (fuel clusterIndex : Nat) : RefM Nat := do
  let refcountTableIndex := clusterIndex / g.refcountBlockClusters
  let s ← get
  if refcountTableIndex < s.refcountTableSize ∧
      reftOffset (s.refcountTable refcountTableIndex) ≠ 0 then
    pure (reftOffset (s.refcountTable refcountTableIndex))
  else
    let newBlock ← allocClustersNoref g fuel g.clusterSize
    initBlock g upd clusterIndex newBlock
    flushBlock g newBlock
    let s ← get
    if refcountTableIndex < s.refcountTableSize then
      set { s with refcountTable := update s.refcountTable refcountTableIndex newBlock }
      pure newBlock
    else
      growRefcountTable g upd fuel refcountTableIndex newBlock
      pure newBlock

/-- the new count of a cluster goes into its block -/
def storeRefcount (block clusterIndex refcount : Nat) (type : DiscardType) : RefM Unit := fun s =>
  let s' := { s with
    freeClusterIndex :=
      if refcount = 0 ∧ clusterIndex < s.freeClusterIndex then clusterIndex
      else s.freeClusterIndex
    refcountBlock := update s.refcountBlock block
      (update (s.refcountBlock block) (clusterIndex % g.refcountBlockClusters)
        (BitVec.ofNat 16 refcount)) }
  if refcount = 0 ∧ g.discardPassthrough type = true then
    match updateRefcountDiscard (clusterIndex * g.clusterSize) g.clusterSize s'.discards with
    | .ok ds => .ok () { s' with discards := ds }
    | .error e => .error e s'
  else .ok () s'

/-- the block of a cluster: the one at hand if it is described by the same table entry -/
def blockFor (alloc : Nat → RefM Nat) (cur : Option (Nat × Nat)) (clusterIndex : Nat) : RefM Nat :=
  match cur with
  | some (tableIndex, block) =>
    if tableIndex = clusterIndex / g.refcountBlockClusters then pure block
    else alloc clusterIndex
  | none => alloc clusterIndex

/-- the loop over `n` clusters, with the cluster where it fails -/
def updateLoop (alloc : Nat → RefM Nat) (addend : Int) (type : DiscardType) :
    (n clusterIndex : Nat) → Option (Nat × Nat) → RefM (Option (Nat × Errno))
  | 0, _, _ => pure none
  | n + 1, clusterIndex, cur => fun s =>
    match blockFor g alloc cur clusterIndex s with
    | .error (.errno e) s' => .ok (some (clusterIndex, e)) s'
    | .error f s' => .error f s'
    | .ok block s' =>
      let refcount : Int :=
        ((s'.refcountBlock block (clusterIndex % g.refcountBlockClusters)).toNat : Int) + addend
      if refcount < 0 ∨ 0xffff < refcount then .ok (some (clusterIndex, .einval)) s'
      else
        match storeRefcount g block clusterIndex refcount.toNat type s' with
        | .error f s'' => .error f s''
        | .ok () s'' =>
          updateLoop alloc addend type n (clusterIndex + 1)
            (some (clusterIndex / g.refcountBlockClusters, block)) s''

/-- the queue is worked off unless the caller caches discards -/
def settleDiscards (success : Bool) : RefM Unit := fun s =>
  if s.cacheDiscards = true then .ok () s else qcow2ProcessDiscards g success s

/-- the part of `update_refcount` behind the label `fail` -/
def finishUpdate (upd : Update) (offset : Nat) (addend : Int) :
    Option (Nat × Errno) → RefM Unit
  | none => settleDiscards g true
  | some (clusterIndex, e) => do
    settleDiscards g false
    dropErrno
      (upd offset ((clusterIndex * g.clusterSize : Nat) - (offset : Int)) (-addend) .never)
    throwErrno e

def updateRefcount (fuel : Nat) : (depth : Nat) → Update
  | 0, _, _, _, _ => throw .hang
  | depth + 1, offset, length, addend, type =>
    if length < 0 then throwErrno .einval
    else if length = 0 then pure ()
    else do
      let start := offset / g.clusterSize
      let last := (offset + length.toNat - 1) / g.clusterSize
      let r ← updateLoop g (allocRefcountBlock g (updateRefcount fuel depth) fuel) addend type
        (last - start + 1) start none
      finishUpdate g (updateRefcount fuel depth) offset addend r

end refcount

/-! ## the interface -/

section api
variable (g : Config) (fuel : Nat)

def updateClusterRefcount (clusterIndex : Nat) (addend : Int) (type : DiscardType) : RefM Nat := do
  updateRefcount g fuel fuel (clusterIndex * g.clusterSize) 1 addend type
  let s ← get
  pure (getRefcount g s clusterIndex)

def qcow2AllocClusters (size : Nat) : RefM Nat := do
  let offset ← allocClustersNoref g fuel size
  updateRefcount g fuel fuel offset size 1 .never
  pure offset

def qcow2FreeClusters (offset size : Nat) (type : DiscardType) : RefM Unit :=
  dropErrno (updateRefcount g fuel fuel offset size (-1) type)

/-- one more reference to a cluster; the result is not looked at -/
def addReference (clusterIndex : Nat) : RefM Unit :=
  dropErrno do
    let _ ← updateClusterRefcount g fuel clusterIndex 1 .never
    pure ()

/-- the branch of `qcow2_alloc_bytes` with enough space in the current cluster -/
def placeBytes (size : Nat) : RefM Nat := fun s =>
  let offset := s.freeByteOffset
  let freeInCluster := g.clusterSize - offset % g.clusterSize
  let s' := { s with freeByteOffset := if freeInCluster = size then 0 else offset + size }
  if offset % g.clusterSize ≠ 0 then
    (do
      addReference g fuel (offset / g.clusterSize)
      pure offset : RefM Nat) s'
  else .ok offset s'

/-- the branch that takes another cluster -/
def extendBytes (size : Nat) : RefM Nat := do
  let offset ← qcow2AllocClusters g fuel g.clusterSize
  let s ← get
  if s.freeByteOffset / g.clusterSize * g.clusterSize + g.clusterSize = offset then
    -- contiguous: the extent runs on into the new cluster
    addReference g fuel (s.freeByteOffset / g.clusterSize)
    modify fun s' => { s' with freeByteOffset := s.freeByteOffset + size }
    pure s.freeByteOffset
  else
    set { s with freeByteOffset := offset }
    placeBytes g fuel size

/-- a first cluster for compressed data -/
def startBytes : RefM Unit := fun s =>
  if s.freeByteOffset = 0 then
    (do
      let offset ← qcow2AllocClusters g fuel g.clusterSize
      modify fun s' => { s' with freeByteOffset := offset } : RefM Unit) s
  else .ok () s

def qcow2AllocBytes (size : Nat) : RefM Nat :=
  if ¬ (0 < size ∧ size ≤ g.clusterSize) then throw .assert
  else do
    startBytes g fuel
    let s ← get
    if size ≤ g.clusterSize - s.freeByteOffset % g.clusterSize then placeBytes g fuel size
    else extendBytes g fuel size

end api

end Qcow2
