import Mathlib.Data.List.Induction
import TraceSyscallObj.Util.Iov

/-!
# Cutting bytes off a vector of buffers (`util/iov.c`)

* `frontLoop_spec`, `backLoop_spec`: the loops on what is left of the array;
* `iov_discards`: the two functions.
-/

namespace Iov
open List

/-- the array, `*iov` as an index into it, `*iov_cnt` and the number of bytes cut off -/
structure Discarded where
  array : List IoVec
  iov : Nat
  iovCnt : Nat
  total : Nat

/-- the elements that the caller still has -/
def Discarded.left (r : Discarded) : List IoVec := (r.array.drop r.iov).take r.iovCnt

/-- the loop of `iov_discard_front`; the array has no element at an index for which there is none -/
def frontLoop (iov : List IoVec) : (iovCnt cur bytes total : Nat) → Option Discarded
  | 0, cur, _, total => some ⟨iov, cur, 0, total⟩
  | iovCnt + 1, cur, bytes, total => do
    let v ← iov[cur]?
    if bytes < v.iovLen then
      some ⟨iov.set cur ⟨v.iovBase + bytes, v.iovLen - bytes⟩, cur, iovCnt + 1, total + bytes⟩
    else frontLoop iov iovCnt (cur + 1) (bytes - v.iovLen) (total + v.iovLen)

def iovDiscardFront (iov : List IoVec) (bytes : Nat) : Option Discarded :=
  frontLoop iov iov.length 0 bytes 0

/-- the loop of `iov_discard_back`, in which `cur` is the last of the `iovCnt` elements -/
def backLoop (iov : List IoVec) : (iovCnt bytes total : Nat) → Option Discarded
  | 0, _, total => some ⟨iov, 0, 0, total⟩
  | cur + 1, bytes, total => do
    let v ← iov[cur]?
    if bytes < v.iovLen then
      some ⟨iov.set cur ⟨v.iovBase, v.iovLen - bytes⟩, 0, cur + 1, total + bytes⟩
    else backLoop iov cur (bytes - v.iovLen) (total + v.iovLen)

def iovDiscardBack (iov : List IoVec) (bytes : Nat) : Option Discarded :=
  backLoop iov iov.length bytes 0

lemma frontLoop_spec (us vs : List IoVec) (bytes total : Nat) :
    ∃ r, frontLoop (us ++ vs) vs.length us.length bytes total = some r ∧
      r.total = total + min bytes (iovSize vs) ∧ addrs r.left = (addrs vs).drop bytes := by
  induction vs generalizing us bytes total with
  | nil => exact ⟨_, rfl, by simp [iovSize], by simp [Discarded.left]⟩
  | cons v vs ih =>
    have hv : (us ++ v :: vs)[us.length]? = some v := by simp
    rw [length_cons, frontLoop, hv, iovSize_cons]
    simp only [Option.bind_eq_bind, Option.bind_some]
    split
    · rename_i hlt
      refine ⟨_, rfl, ?_, ?_⟩
      · change total + bytes = _
        omega
      · rw [drop_addrs_enter hlt]
        simp [Discarded.left]
    · rename_i hge
      obtain ⟨r, hr, htotal, hleft⟩ := ih (us ++ [v]) (bytes - v.iovLen) (total + v.iovLen)
      rw [append_assoc, length_append] at hr
      refine ⟨r, hr, ?_, ?_⟩
      · rw [htotal]
        omega
      · rw [hleft, drop_addrs_skip (Nat.not_lt.1 hge)]

lemma backLoop_spec (us vs : List IoVec) (bytes total : Nat) :
    ∃ r, backLoop (us ++ vs) us.length bytes total = some r ∧
      r.total = total + min bytes (iovSize us) ∧
      addrs r.left = (addrs us).take (iovSize us - bytes) := by
  induction us using List.reverseRecOn generalizing vs bytes total with
  | nil => exact ⟨_, rfl, by simp [iovSize], by simp [Discarded.left]⟩
  | append_singleton us v ih =>
    have hv : (us ++ [v] ++ vs)[us.length]? = some v := by simp
    have hsize : iovSize (us ++ [v]) = iovSize us + v.iovLen := by
      rw [← length_addrs, ← length_addrs]
      simp
    rw [length_append, length_singleton, backLoop, hv, hsize, addrs_append,
      take_append, length_addrs]
    simp only [Option.bind_eq_bind, Option.bind_some]
    split
    · rename_i hlt
      refine ⟨_, rfl, ?_, ?_⟩
      · change total + bytes = _
        omega
      · rw [take_of_length_le (by rw [length_addrs]; omega),
          show iovSize us + v.iovLen - bytes - iovSize us = v.iovLen - bytes by omega]
        simp [Discarded.left, take_append, take_of_length_le]
    · rename_i hge
      obtain ⟨r, hr, htotal, hleft⟩ := ih (v :: vs) (bytes - v.iovLen) (total + v.iovLen)
      refine ⟨r, by rwa [append_assoc], ?_, ?_⟩
      · rw [htotal]
        omega
      · rw [hleft, show iovSize us + v.iovLen - bytes = iovSize us - (bytes - v.iovLen) by omega,
          Nat.sub_eq_zero_of_le (Nat.sub_le _ _), take_zero, append_nil]

/-- **`iov_discard_front` and `iov_discard_back` cut off `min bytes size` bytes and no others**, and
read no element outside the array -/
theorem iov_discards (iov : List IoVec) (bytes : Nat) :
    (∃ r, iovDiscardFront iov bytes = some r ∧ r.total = min bytes (iovSize iov) ∧
      addrs r.left = (addrs iov).drop r.total) ∧
    ∃ r, iovDiscardBack iov bytes = some r ∧ r.total = min bytes (iovSize iov) ∧
      addrs r.left = (addrs iov).take (iovSize iov - r.total) := by
  obtain ⟨r, hr, htotal, hleft⟩ := frontLoop_spec [] iov bytes 0
  obtain ⟨r', hr', htotal', hleft'⟩ := backLoop_spec iov [] bytes 0
  rw [Nat.zero_add] at htotal htotal'
  rw [append_nil] at hr'
  refine ⟨⟨r, hr, htotal, ?_⟩, r', hr', htotal', ?_⟩
  · rw [hleft, htotal]
    rcases Nat.le_total bytes (iovSize iov) with h | h
    · rw [Nat.min_eq_left h]
    · rw [Nat.min_eq_right h, drop_eq_nil_of_le (by rwa [length_addrs]),
        drop_eq_nil_of_le (Nat.le_of_eq (length_addrs iov))]
  · rw [hleft']
    congr 1
    omega

end Iov
