import Mathlib.Data.List.Basic

/-!
# Vectors of buffers (`util/iov.c`)

`addrs iov` is the list of the addresses an array of elements denotes, one after the other.
Everything is said about `window`, a piece of it.

* `pieces`: what the elements hold between two positions, `addrs_pieces`;
* `copyLoop_spec`, `copyLoop_offset`: the loop of `iov_copy`;
* `iov_copy_iff`: its result, and when the assertion behind it holds.

Sizes are numbers: buffers lie in one address space.
-/

namespace Iov
open List

structure IoVec where
  iovBase : Nat
  iovLen : Nat
deriving DecidableEq, Repr

inductive Fault where
  | assertion
deriving DecidableEq, Repr

def iovSize : List IoVec → Nat
  | [] => 0
  | v :: vs => v.iovLen + iovSize vs

def addrs (iov : List IoVec) : List Nat := iov.flatMap fun v => List.range' v.iovBase v.iovLen

variable {iov : List IoVec} {offset bytes : Nat}

@[simp] lemma addrs_nil : addrs [] = [] := rfl

@[simp] lemma addrs_cons (v : IoVec) (vs : List IoVec) :
    addrs (v :: vs) = List.range' v.iovBase v.iovLen ++ addrs vs := rfl

@[simp] lemma addrs_append (us vs : List IoVec) : addrs (us ++ vs) = addrs us ++ addrs vs :=
  flatMap_append

lemma addrs_prefix {us vs : List IoVec} (h : us <+: vs) : addrs us <+: addrs vs := by
  obtain ⟨ws, rfl⟩ := h
  rw [addrs_append]
  exact prefix_append _ _

@[simp] lemma iovSize_cons (v : IoVec) (vs : List IoVec) :
    iovSize (v :: vs) = v.iovLen + iovSize vs := rfl

lemma length_addrs (iov : List IoVec) : (addrs iov).length = iovSize iov := by
  induction iov with
  | nil => rfl
  | cons v vs ih => rw [addrs_cons, length_append, length_range', ih, iovSize_cons]

/-! ## one element at an offset -/

lemma drop_addrs_skip {v : IoVec} {vs : List IoVec} (h : v.iovLen ≤ offset) :
    (addrs (v :: vs)).drop offset = (addrs vs).drop (offset - v.iovLen) := by
  rw [addrs_cons, drop_append, length_range',
    drop_eq_nil_of_le (by rw [length_range']; exact h), nil_append]

lemma drop_addrs_enter {v : IoVec} {vs : List IoVec} (h : offset < v.iovLen) :
    (addrs (v :: vs)).drop offset
      = List.range' (v.iovBase + offset) (v.iovLen - offset) ++ addrs vs := by
  rw [addrs_cons, drop_append, length_range', drop_range', Nat.mul_one,
    show offset - v.iovLen = 0 by omega, drop_zero]

lemma take_range' (a n k : Nat) : (List.range' a n).take k = List.range' a (min k n) := by
  refine ext_getElem (by simp) fun i h1 h2 => ?_
  simp

lemma take_range'_append (a n k : Nat) (l : List Nat) :
    (List.range' a n ++ l).take k = List.range' a (min n k) ++ l.take (k - min n k) := by
  rw [take_append, length_range', take_range']
  rcases Nat.le_total n k with h | h
  · rw [Nat.min_eq_left h, Nat.min_eq_right h]
  · rw [Nat.min_eq_right h, Nat.min_eq_left h, Nat.sub_self, Nat.sub_eq_zero_of_le h]

/-- the addresses of a transfer -/
abbrev window (iov : List IoVec) (offset bytes : Nat) : List Nat :=
  ((addrs iov).drop offset).take bytes

lemma length_window (iov : List IoVec) (offset bytes : Nat) :
    (window iov offset bytes).length = min bytes (iovSize iov - offset) := by
  rw [length_take, length_drop, length_addrs]

/-! ## copying the elements -/

/-- the loop of `iov_copy`: the elements stored and the offset left at the end -/
def copyLoop : List IoVec → Nat → Nat → Nat → List IoVec × Nat
  | [], _, offset, _ => ([], offset)
  | v :: vs, dstIovCnt, offset, bytes =>
    if dstIovCnt = 0 ∨ bytes = 0 then ([], offset)
    else if v.iovLen ≤ offset then copyLoop vs dstIovCnt (offset - v.iovLen) bytes
    else
      let len := min bytes (v.iovLen - offset)
      let (dst, rest) := copyLoop vs (dstIovCnt - 1) 0 (bytes - len)
      (⟨v.iovBase + offset, len⟩ :: dst, rest)

/-- the elements stored to `dst_iov`; their number is what `iov_copy` returns -/
def iovCopy (dstIovCnt : Nat) (iov : List IoVec) (offset bytes : Nat) :
    Except Fault (List IoVec) :=
  let (dst, offset) := copyLoop iov dstIovCnt offset bytes
  if offset = 0 then .ok dst else .error .assertion

/-- the pieces of the elements between the positions `lo` and `hi`, without the empty ones -/
def pieces : List IoVec → Nat → Nat → List IoVec
  | [], _, _ => []
  | v :: vs, lo, hi =>
    (if lo < min v.iovLen hi then [⟨v.iovBase + lo, min v.iovLen hi - lo⟩] else [])
      ++ pieces vs (lo - v.iovLen) (hi - v.iovLen)

lemma pieces_eq_nil (iov : List IoVec) {lo hi : Nat} (h : hi ≤ lo) : pieces iov lo hi = [] := by
  induction iov generalizing lo hi with
  | nil => rfl
  | cons v vs ih => rw [pieces, if_neg (by omega), ih (by omega), append_nil]

lemma addrs_pieces (iov : List IoVec) (offset bytes : Nat) :
    addrs (pieces iov offset (offset + bytes)) = window iov offset bytes := by
  induction iov generalizing offset bytes with
  | nil => simp [pieces]
  | cons v vs ih =>
    rw [pieces, addrs_append, window]
    by_cases hskip : v.iovLen ≤ offset
    · rw [if_neg (by omega), drop_addrs_skip hskip, addrs_nil, nil_append,
        show offset + bytes - v.iovLen = offset - v.iovLen + bytes by omega, ih]
    · rw [drop_addrs_enter (by omega), take_range'_append,
        show offset - v.iovLen = 0 by omega,
        show offset + bytes - v.iovLen = 0 + (bytes - min (v.iovLen - offset) bytes) by omega, ih]
      split
      · rw [addrs_cons, addrs_nil, append_nil,
          show min v.iovLen (offset + bytes) - offset = min (v.iovLen - offset) bytes by omega]
        rfl
      · rw [show bytes = 0 by omega]
        simp

lemma copyLoop_spec (iov : List IoVec) (cnt offset bytes : Nat) :
    (copyLoop iov cnt offset bytes).1 = (pieces iov offset (offset + bytes)).take cnt := by
  induction iov generalizing cnt offset bytes with
  | nil => simp [copyLoop, pieces]
  | cons v vs ih =>
    rw [copyLoop]
    by_cases hstop : cnt = 0 ∨ bytes = 0
    · rw [if_pos hstop]
      obtain rfl | rfl := hstop
      · rfl
      · rw [Nat.add_zero, pieces_eq_nil _ (Nat.le_refl _), take_nil]
    · rw [if_neg hstop, pieces]
      by_cases hskip : v.iovLen ≤ offset
      · rw [if_pos hskip, if_neg (by omega), nil_append, ih,
          show offset + bytes - v.iovLen = offset - v.iovLen + bytes by omega]
      · obtain ⟨n, rfl⟩ : ∃ n, cnt = n + 1 := ⟨cnt - 1, by omega⟩
        rw [if_neg hskip, if_pos (by omega), singleton_append, take_succ_cons,
          show offset - v.iovLen = 0 by omega,
          show min v.iovLen (offset + bytes) - offset = min bytes (v.iovLen - offset) by omega,
          show offset + bytes - v.iovLen = 0 + (bytes - min bytes (v.iovLen - offset)) by omega,
          ← ih]
        rfl

lemma copyLoop_offset (cnt bytes : Nat) (h : offset ≤ iovSize iov) :
    (copyLoop iov cnt offset bytes).2 = 0 ↔ offset = 0 ∨ bytes ≠ 0 ∧ cnt ≠ 0 := by
  induction iov generalizing cnt offset bytes with
  | nil =>
    have h0 : offset = 0 := Nat.le_zero.mp h
    exact iff_of_true h0 (.inl h0)
  | cons v vs ih =>
    rw [iovSize_cons] at h
    rw [copyLoop]
    by_cases hstop : cnt = 0 ∨ bytes = 0
    · rw [if_pos hstop]
      omega
    · rw [if_neg hstop]
      by_cases hskip : v.iovLen ≤ offset
      · rw [if_pos hskip, ih _ _ (by omega)]
        omega
      · rw [if_neg hskip]
        exact iff_of_true ((ih _ _ (Nat.zero_le _)).mpr (.inl rfl)) (by omega)

/-- **`iov_copy` stores the first pieces of the bytes from `offset` on, a prefix of these bytes
and all `min bytes (size - offset)` of them unless there are more pieces than elements, exactly
when it need not skip anything or has both a byte and an element to store** -/
theorem iov_copy_iff (iov : List IoVec) (dstIovCnt offset bytes : Nat) (h : offset ≤ iovSize iov) :
    (∃ dst, iovCopy dstIovCnt iov offset bytes = .ok dst ∧
      dst = (pieces iov offset (offset + bytes)).take dstIovCnt ∧
      addrs dst <+: window iov offset bytes ∧
      ((pieces iov offset (offset + bytes)).length ≤ dstIovCnt →
        addrs dst = window iov offset bytes ∧
        iovSize dst = min bytes (iovSize iov - offset))) ↔
    offset = 0 ∨ bytes ≠ 0 ∧ dstIovCnt ≠ 0 := by
  rw [← copyLoop_offset dstIovCnt bytes h, ← addrs_pieces, ← length_window, ← addrs_pieces,
    length_addrs]
  have hdst := copyLoop_spec iov dstIovCnt offset bytes
  constructor
  · rintro ⟨dst, hrun, -⟩
    by_contra hne
    cases (if_neg hne).symm.trans hrun
  · intro h0
    refine ⟨_, if_pos h0, hdst, ?_, fun hroom => ?_⟩
    · rw [hdst]
      exact addrs_prefix <| take_prefix _ _
    · rw [hdst, take_of_length_le hroom]
      exact ⟨rfl, rfl⟩

theorem iov_copy_two :
    ∃ dst, iovCopy 2 [⟨100, 2⟩, ⟨7, 0⟩, ⟨40, 3⟩, ⟨9, 9⟩] 1 4 = .ok dst ∧
      dst = (pieces [⟨100, 2⟩, ⟨7, 0⟩, ⟨40, 3⟩, ⟨9, 9⟩] 1 5).take 2 ∧
      addrs dst <+: [101, 40, 41, 42] ∧
      ((pieces [⟨100, 2⟩, ⟨7, 0⟩, ⟨40, 3⟩, ⟨9, 9⟩] 1 5).length ≤ 2 →
        addrs dst = [101, 40, 41, 42] ∧ iovSize dst = 4) :=
  (iov_copy_iff [⟨100, 2⟩, ⟨7, 0⟩, ⟨40, 3⟩, ⟨9, 9⟩] 2 1 4 (by decide)).mpr (by decide)

/-- two elements hold the first two of three pieces, each to its end -/
example : iovCopy 2 [⟨100, 2⟩, ⟨7, 0⟩, ⟨40, 3⟩, ⟨9, 9⟩] 1 9 = .ok [⟨101, 1⟩, ⟨40, 3⟩] := by decide

theorem iov_copy_no_bytes : iovCopy 1 [⟨100, 2⟩] 1 0 = .error .assertion := by decide

end Iov
