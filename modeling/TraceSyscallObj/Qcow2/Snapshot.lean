import Mathlib.Tactic.Common

/-!
# The list of internal snapshots (`block/qcow2-snapshot.c`)

Creating and deleting a snapshot changes an array and its length in memory and writes a new snapshot
table.  The operations on the image are given by their results `io k`, in the order of the calls.

* `qcow2SnapshotCreate`, `qcow2SnapshotDelete`;
* `snapshot_failure_iff`: when a failed call leaves array and length in step.
-/

namespace Qcow2

structure QCowSnapshot where
  l1TableOffset : Int
  l1Size : Nat
  idStr : List Char
  name : List Char

structure SnapshotInfo where
  idStr : List Char
  name : List Char

structure SnapshotState where
  /-- the entries of the array; a cell that `memmove` leaves behind is no entry -/
  snapshots : List QCowSnapshot
  nbSnapshots : Nat
  snapshotsOffset : Int
  l1Size : Nat

def EEXIST : Int := 17
def ENOENT : Int := 2

def SnapshotState.entries (s : SnapshotState) : List QCowSnapshot := s.snapshots.take s.nbSnapshots

/-- `strtoul` stands for the C library's and the conversion to `int` -/
def findNewSnapshotId (strtoul : List Char → Int) (s : SnapshotState) : List Char :=
  let idMax := s.entries.foldl (fun m sn => max m (strtoul sn.idStr)) 0
  (toString (idMax + 1)).toList

def findSnapshotById (s : SnapshotState) (idStr : List Char) : Option Nat :=
  s.entries.findIdx? (·.idStr = idStr)

def findSnapshotByIdOrName (s : SnapshotState) (name : List Char) : Option Nat :=
  (findSnapshotById s name).or (s.entries.findIdx? (·.name = name))

section
variable (io : Nat → Int)

/-- `n` operations from the `c`th on, up to the first that fails -/
def operations (c n : Nat) : Except Int Unit :=
  match (List.range n).find? fun k => io (c + k) < 0 with
  | some k => .error (io (c + k))
  | none => .ok ()

/-- allocation and flush; header, extra data, id and name of each snapshot; flush and the pointer in
the image header -/
def qcow2WriteSnapshots (c : Nat) (s : SnapshotState) : Except Int SnapshotState := do
  operations io c (2 + 4 * s.nbSnapshots + 2)
  return { s with snapshotsOffset := io c }

variable (strtoul : List Char → Int) (info : SnapshotInfo)

/-- an id is generated if none is passed -/
def snapshotId (s : SnapshotState) : List Char :=
  if info.idStr = [] then findNewSnapshotId strtoul s else info.idStr

def qcow2SnapshotCreate (s : SnapshotState) : Except Int Unit × SnapshotState :=
  let idStr := snapshotId strtoul info s
  if (findSnapshotById s idStr).isSome then (.error (-EEXIST), s)
  else
    -- `qcow2_alloc_clusters`, `bdrv_pwrite` and `qcow2_update_snapshot_refcount` for the L1 table
    match operations io 0 3 with
    | .error e => (.error e, s)
    | .ok () =>
      let sn := { l1TableOffset := io 0, l1Size := s.l1Size, idStr, name := info.name }
      let new := { s with snapshots := s.entries ++ [sn], nbSnapshots := s.nbSnapshots + 1 }
      match qcow2WriteSnapshots io 3 new with
      | .error e => (.error e, { new with snapshots := s.snapshots })
      | .ok s => (.ok (), s)

def qcow2SnapshotDelete (id : List Char) (s : SnapshotState) : Except Int Unit × SnapshotState :=
  match findSnapshotByIdOrName s id with
  | none => (.error (-ENOENT), s)
  | some i =>
    let new := { s with snapshots := s.snapshots.eraseIdx i, nbSnapshots := s.nbSnapshots - 1 }
    match qcow2WriteSnapshots io 0 new with
    | .error e => (.error e, new)
    -- the clusters of the snapshot, and the copied flags of the active table
    | .ok s => (operations io (2 + 4 * new.nbSnapshots + 2) 2, s)

/-! ## failures -/

def Fails (c n : Nat) : Prop := ∃ k < n, io (c + k) < 0

def TableFails (s : SnapshotState) : Prop :=
  ¬ (findSnapshotById s (snapshotId strtoul info s)).isSome ∧ ¬ Fails io 0 3 ∧
    Fails io 3 (2 + 4 * (s.nbSnapshots + 1) + 2)

/-- the length is the number of entries -/
def InStep (s : SnapshotState) : Prop := s.nbSnapshots = s.snapshots.length

variable {io strtoul info} {s : SnapshotState} {e : Int}

lemma operations_error {c n : Nat} (h : operations io c n = .error e) : Fails io c n := by
  unfold operations at h
  split at h
  · rename_i k hk
    exact ⟨k, List.mem_range.mp (List.mem_of_find?_eq_some hk), by simpa using List.find?_some hk⟩
  · cases h

lemma operations_ok {c n : Nat} (h : operations io c n = .ok ()) : ¬ Fails io c n := by
  rintro ⟨k, hk, hr⟩
  unfold operations at h
  split at h
  · cases h
  · rename_i hnone
    exact List.find?_eq_none.mp hnone k (List.mem_range.mpr hk) (by simpa using hr)

lemma create_inStep_iff (hs : InStep s) :
    (∀ e, (qcow2SnapshotCreate io strtoul info s).1 = .error e →
      InStep (qcow2SnapshotCreate io strtoul info s).2 ∧
        (qcow2SnapshotCreate io strtoul info s).2.snapshots = s.snapshots) ↔
      ¬ TableFails io strtoul info s := by
  unfold qcow2SnapshotCreate TableFails
  dsimp only
  by_cases hid : (findSnapshotById s (snapshotId strtoul info s)).isSome
  · rw [if_pos hid]
    exact iff_of_true (fun _ _ => ⟨hs, rfl⟩) fun h => h.1 hid
  rw [if_neg hid]
  cases h3 : operations io 0 3 with
  | error e => exact iff_of_true (fun _ _ => ⟨hs, rfl⟩) fun h => h.2.1 (operations_error h3)
  | ok _ =>
    unfold qcow2WriteSnapshots
    cases hw : operations io 3 (2 + 4 * (s.nbSnapshots + 1) + 2) with
    | error e =>
      refine iff_of_false (fun h => ?_) (not_not.mpr ⟨hid, operations_ok h3, operations_error hw⟩)
      have hlen : s.nbSnapshots + 1 = s.snapshots.length := (h e rfl).1
      unfold InStep at hs
      omega
    | ok _ => exact iff_of_true (fun _ h => nomatch h) fun h => operations_ok hw h.2.2

lemma delete_inStep (hs : InStep s) (id : List Char) : InStep (qcow2SnapshotDelete io id s).2 := by
  unfold qcow2SnapshotDelete
  cases hi : findSnapshotByIdOrName s id with
  | none => exact hs
  | some i =>
    have hlt : i < s.entries.length := by
      rcases Option.or_eq_some_iff.mp hi with h | ⟨-, h⟩
      · exact (List.findIdx?_eq_some_iff_getElem.mp h).1
      · exact (List.findIdx?_eq_some_iff_getElem.mp h).1
    have hlen : s.nbSnapshots - 1 = (s.snapshots.eraseIdx i).length := by
      rw [List.length_eraseIdx_of_lt (Nat.lt_of_lt_of_le hlt (List.length_take_le' ..)), hs]
    unfold qcow2WriteSnapshots
    dsimp only
    cases operations io 0 (2 + 4 * (s.nbSnapshots - 1) + 2) with
    | error e => exact hlen
    | ok _ => exact hlen

/-- **a failed call keeps the length in step unless the new table of a creation cannot be written** -/
theorem snapshot_failure_iff (io : Nat → Int) (strtoul : List Char → Int) (info : SnapshotInfo)
    (id : List Char) (s : SnapshotState) (hs : InStep s) :
    ((∀ e, (qcow2SnapshotCreate io strtoul info s).1 = .error e →
        InStep (qcow2SnapshotCreate io strtoul info s).2 ∧
          (qcow2SnapshotCreate io strtoul info s).2.snapshots = s.snapshots) ∧
      ∀ e, (qcow2SnapshotDelete io id s).1 = .error e →
        InStep (qcow2SnapshotDelete io id s).2) ↔ ¬ TableFails io strtoul info s := by
  rw [create_inStep_iff hs]
  exact and_iff_left fun _ _ => delete_inStep hs id
end

/-- the second operation on the image fails -/
def secondFails (k : Nat) : Int := if k = 1 then -5 else 0

def oneSnapshot : SnapshotState := ⟨[⟨0x10000, 1, ['1'], ['b']⟩], 1, 0x20000, 1⟩

/-- the L1 table of a second snapshot cannot be written, nor the table without the first one -/
theorem snapshot_failure_one :
    let create := qcow2SnapshotCreate secondFails (fun _ => 1) ⟨[], ['a']⟩ oneSnapshot
    let delete := qcow2SnapshotDelete secondFails ['b'] oneSnapshot
    create.1 = .error (-5) ∧ InStep create.2 ∧ create.2.snapshots = oneSnapshot.snapshots ∧
      delete.1 = .error (-5) ∧ delete.2.nbSnapshots = 0 ∧ InStep delete.2 := by
  have h := (snapshot_failure_iff secondFails (fun _ => 1) ⟨[], ['a']⟩ ['b'] oneSnapshot rfl).mpr
    fun h => h.2.1 ⟨1, by decide, by decide⟩
  exact ⟨rfl, (h.1 _ rfl).1, (h.1 _ rfl).2, rfl, rfl, h.2 _ rfl⟩

/-- the image header cannot be written -/
theorem snapshot_header_fails :
    let r := qcow2SnapshotCreate (fun k => if k = 10 then -5 else 0) (fun _ => 0) ⟨['a'], []⟩
      ⟨[], 0, 0, 1⟩
    r.1 = .error (-5) ∧ r.2.nbSnapshots = 1 ∧ r.2.snapshots = [] :=
  ⟨rfl, rfl, rfl⟩

end Qcow2
