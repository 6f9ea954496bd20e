import Mathlib
import TraceSyscallObj.Lib.ByteMem

/-!
# The available side of a virtqueue (`hw/virtio/virtio.c`)

The guest puts heads of descriptor chains into the ring `avail`.  The device asks how many bytes
they offer, and pops them one at a time.  All of it is read from guest memory, which is given.

* `virtqueueNumHeads`, `virtqueueGetHead`, `virtqueueNextDesc`: the checked reads;
* `virtqueueGetAvailBytes`, `virtqueueAvailBytes`: the count over all heads;
* `virtqueuePop`, `drain`: one element, all of them.

A loop that follows guest data takes fuel and ends in `hang` without it.
-/

namespace Virtio
open ByteMem

/-- how a call ends other than by returning: `exit(1)` after a report, or never -/
inductive Stop where
  | exit (report : String)
  | hang
deriving DecidableEq

def VRING_DESC_F_NEXT : BitVec 16 := 1
def VRING_DESC_F_WRITE : BitVec 16 := 2
def VRING_DESC_F_INDIRECT : BitVec 16 := 4
def VIRTQUEUE_MAX_SIZE : Nat := 1024

/-- `sizeof(VRingDesc)` -/
def descSize : Nat := 16

/-- `num` is at most `VIRTQUEUE_MAX_SIZE` by `virtio_add_queue` and `virtio_queue_set_num`, but
`virtio_load` takes it from the stream as it is.  Below `2^32 - 1` the counts of buffers do not
wrap and are numbers here. -/
structure VRing where
  num : Nat
  desc : BitVec 64
  avail : BitVec 64

structure VirtQueue where
  vring : VRing
  lastAvailIdx : BitVec 16

/-! ## reads of guest memory -/

def lduw (m : Mem) (a : BitVec 64) : BitVec 16 := m (a + 1) ++ m a

section reads
variable (m : Mem) (descPa : BitVec 64) (i : Nat)

def vringDescAddr : BitVec 64 := ldq m (descPa + BitVec.ofNat 64 (descSize * i))
def vringDescLen : BitVec 32 := ldl m (descPa + BitVec.ofNat 64 (descSize * i + 8))
def vringDescFlags : BitVec 16 := lduw m (descPa + BitVec.ofNat 64 (descSize * i + 12))
def vringDescNext : BitVec 16 := lduw m (descPa + BitVec.ofNat 64 (descSize * i + 14))

end reads

def vringAvailIdx (m : Mem) (vq : VirtQueue) : BitVec 16 := lduw m (vq.vring.avail + 2)

def vringAvailRing (m : Mem) (vq : VirtQueue) (i : Nat) : BitVec 16 :=
  lduw m (vq.vring.avail + BitVec.ofNat 64 (4 + 2 * i))

def virtqueueNumHeads (m : Mem) (vq : VirtQueue) (idx : Nat) : Except Stop Nat :=
  let availIdx := vringAvailIdx m vq
  let numHeads := (availIdx - BitVec.ofNat 16 idx).toNat
  let moved := availIdx.toNat
  if vq.vring.num < numHeads then
    .error (.exit s!"Guest moved used index from {idx} to {moved}")
  else .ok numHeads

def virtqueueGetHead (m : Mem) (vq : VirtQueue) (idx : Nat) : Except Stop Nat :=
  let head := (vringAvailRing m vq (idx % vq.vring.num)).toNat
  if vq.vring.num ≤ head then .error (.exit s!"Guest says index {head} is available")
  else .ok head

/-- the next descriptor, `max` at the end of the chain -/
def virtqueueNextDesc (m : Mem) (descPa : BitVec 64) (i max : Nat) : Except Stop Nat :=
  if vringDescFlags m descPa i &&& VRING_DESC_F_NEXT = 0 then .ok max
  else
    let next := (vringDescNext m descPa i).toNat
    if max ≤ next then .error (.exit s!"Desc next is {next}") else .ok next

/-! ## bytes on offer -/

structure Totals where
  inTotal : BitVec 32
  outTotal : BitVec 32
deriving DecidableEq

/-- the counters are `unsigned int` -/
def Totals.count (t : Totals) (m : Mem) (descPa : BitVec 64) (i : Nat) : Totals :=
  if vringDescFlags m descPa i &&& VRING_DESC_F_WRITE ≠ 0 then
    { t with inTotal := t.inTotal + vringDescLen m descPa i }
  else { t with outTotal := t.outTotal + vringDescLen m descPa i }

def Totals.Enough (t : Totals) (maxIn maxOut : BitVec 32) : Prop :=
  maxIn ≤ t.inTotal ∧ maxOut ≤ t.outTotal

instance (t : Totals) (maxIn maxOut : BitVec 32) : Decidable (t.Enough maxIn maxOut) :=
  inferInstanceAs (Decidable (_ ∧ _))

/-- where the loop over one chain leaves off: `goto done`, or the end of the chain -/
inductive Counted where
  | done (t : Totals)
  | next (numBufs : Nat) (t : Totals)

section count
variable (m : Mem) (maxIn maxOut : BitVec 32)

/-- the `do … while` over one chain -/
def countChain (descPa : BitVec 64) (max : Nat) :
    (fuel i numBufs : Nat) → Totals → Except Stop Counted
  | 0, _, _, _ => .error .hang
  | fuel + 1, i, numBufs, t =>
    if max < numBufs + 1 then .error (.exit "Looped descriptor")
    else
      let t := t.count m descPa i
      if t.Enough maxIn maxOut then .ok (.done t)
      else do
        let i ← virtqueueNextDesc m descPa i max
        if i = max then .ok (.next (numBufs + 1) t)
        else countChain descPa max fuel i (numBufs + 1) t

/-- the body of the loop over the heads; `num_bufs` of an indirect table counts once -/
def countHead (fuel : Nat) (vq : VirtQueue) (i totalBufs : Nat) (t : Totals) :
    Except Stop Counted :=
  let descPa := vq.vring.desc
  if vringDescFlags m descPa i &&& VRING_DESC_F_INDIRECT ≠ 0 then
    let len := (vringDescLen m descPa i).toNat
    if len % descSize ≠ 0 then .error (.exit "Invalid size for indirect buffer table")
    else if vq.vring.num ≤ totalBufs then .error (.exit "Looped descriptor")
    else do
      match ← countChain m maxIn maxOut (vringDescAddr m descPa i) (len / descSize) fuel 0 0 t with
      | .done t => .ok (.done t)
      | .next _ t => .ok (.next (totalBufs + 1) t)
  else countChain m maxIn maxOut descPa vq.vring.num fuel i totalBufs t

/-- the loop over the heads; `idx` is an `unsigned int` that does not wrap at 16 bits -/
def countHeads (chainFuel : Nat) (vq : VirtQueue) :
    (fuel idx totalBufs : Nat) → Totals → Except Stop Totals
  | 0, _, _, _ => .error .hang
  | fuel + 1, idx, totalBufs, t => do
    let numHeads ← virtqueueNumHeads m vq idx
    if numHeads = 0 then .ok t
    else
      let i ← virtqueueGetHead m vq idx
      match ← countHead m maxIn maxOut chainFuel vq i totalBufs t with
      | .done t => .ok t
      | .next totalBufs t => countHeads chainFuel vq fuel (idx + 1) totalBufs t

def virtqueueGetAvailBytes (fuel : Nat) (vq : VirtQueue) : Except Stop Totals :=
  countHeads m maxIn maxOut fuel vq fuel vq.lastAvailIdx.toNat 0 ⟨0, 0⟩

end count

def virtqueueAvailBytes (fuel : Nat) (m : Mem) (vq : VirtQueue) (inBytes outBytes : BitVec 32) :
    Except Stop Bool := do
  let t ← virtqueueGetAvailBytes m inBytes outBytes fuel vq
  .ok (decide (t.Enough inBytes outBytes))

/-! ## popping -/

structure Sg where
  addr : BitVec 64
  len : BitVec 32
deriving DecidableEq

structure VirtQueueElement where
  index : Nat
  inSg : List Sg
  outSg : List Sg
deriving DecidableEq

/-- the next slot of `in_sg` or of `out_sg` -/
def addSg (m : Mem) (descPa : BitVec 64) (i : Nat) (inSg outSg : List Sg) :
    Except Stop (List Sg × List Sg) :=
  let sg : Sg := ⟨vringDescAddr m descPa i, vringDescLen m descPa i⟩
  if vringDescFlags m descPa i &&& VRING_DESC_F_WRITE ≠ 0 then
    if VIRTQUEUE_MAX_SIZE ≤ inSg.length then
      .error (.exit "Too many write descriptors in indirect table")
    else .ok (inSg ++ [sg], outSg)
  else if VIRTQUEUE_MAX_SIZE ≤ outSg.length then
    .error (.exit "Too many read descriptors in indirect table")
  else .ok (inSg, outSg ++ [sg])

/-- the `do … while` that collects one chain -/
def collect (m : Mem) (descPa : BitVec 64) (max : Nat) :
    (fuel i : Nat) → (inSg outSg : List Sg) → Except Stop (List Sg × List Sg)
  | 0, _, _, _ => .error .hang
  | fuel + 1, i, inSg, outSg => do
    let sgs ← addSg m descPa i inSg outSg
    if max < sgs.1.length + sgs.2.length then .error (.exit "Looped descriptor")
    else
      let i ← virtqueueNextDesc m descPa i max
      if i = max then .ok sgs else collect m descPa max fuel i sgs.1 sgs.2

def collectHead (fuel : Nat) (m : Mem) (vq : VirtQueue) (i : Nat) :
    Except Stop (List Sg × List Sg) :=
  let descPa := vq.vring.desc
  if vringDescFlags m descPa i &&& VRING_DESC_F_INDIRECT ≠ 0 then
    let len := (vringDescLen m descPa i).toNat
    if len % descSize ≠ 0 then .error (.exit "Invalid size for indirect buffer table")
    else collect m (vringDescAddr m descPa i) (len / descSize) fuel 0 [] []
  else collect m descPa vq.vring.num fuel i [] []

/-- `none` where the source returns 0 -/
def virtqueuePop (fuel : Nat) (m : Mem) (vq : VirtQueue) :
    Except Stop (Option (VirtQueueElement × VirtQueue)) := do
  let numHeads ← virtqueueNumHeads m vq vq.lastAvailIdx.toNat
  if numHeads = 0 then .ok none
  else
    let head ← virtqueueGetHead m vq vq.lastAvailIdx.toNat
    let sgs ← collectHead fuel m vq head
    .ok (some (⟨head, sgs.1, sgs.2⟩, { vq with lastAvailIdx := vq.lastAvailIdx + 1 }))

def drain (m : Mem) (chainFuel : Nat) : (fuel : Nat) → VirtQueue →
    Except Stop (List VirtQueueElement)
  | 0, _ => .error .hang
  | fuel + 1, vq => do
    match ← virtqueuePop chainFuel m vq with
    | none => .ok []
    | some (elem, vq) => do
      let elems ← drain m chainFuel fuel vq
      .ok (elem :: elems)

end Virtio
