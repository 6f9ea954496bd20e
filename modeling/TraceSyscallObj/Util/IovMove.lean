import Mathlib.Data.List.Nodup
import TraceSyscallObj.Lib.Bytes
import TraceSyscallObj.Util.Iov

/-!
# Filling, reading and clearing a vector of buffers (`util/iov.c`)

`iov_from_buf`, `iov_to_buf` and `iov_memset` are one loop with three ways to handle a piece.

* `moveLoop_eq`: the loop handles the bytes of the window one by one;
* `moveAll_store`, `moveAll_fetch` what that leaves behind;
* `iov_moves`: the three functions on disjoint buffers.
-/

namespace Iov
open Bytes Function List

variable {iov : List IoVec} {offset bytes done : Nat}

/-! ## the loop of the three movers -/

section mover
variable {σ : Type} (move : σ → Nat → Nat → Nat → σ)

/-- the loop of `iov_from_buf`, `iov_to_buf` and `iov_memset`; `move s a done len` handles `len`
bytes at the address `a` that are the bytes `done ...` of the transfer -/
def moveLoop (bytes : Nat) : List IoVec → Nat → Nat → σ → Except Fault (Nat × σ)
  | [], offset, done, s => if offset = 0 then .ok (done, s) else .error .assertion
  | v :: vs, offset, done, s =>
    if offset ≠ 0 ∨ done < bytes then
      if offset < v.iovLen then
        let len := min (v.iovLen - offset) (bytes - done)
        moveLoop bytes vs 0 (done + len) (move s (v.iovBase + offset) done len)
      else
        moveLoop bytes vs (offset - v.iovLen) done s
    else if offset = 0 then .ok (done, s) else .error .assertion

variable (one : σ → Nat → Nat → σ)

/-- the addresses `as` one by one, the first one being byte `done` of the transfer -/
def moveAll : List Nat → Nat → σ → σ
  | [], _, s => s
  | a :: as, done, s => moveAll as (done + 1) (one s a done)

lemma moveAll_append (as bs : List Nat) (done : Nat) (s : σ) :
    moveAll one (as ++ bs) done s = moveAll one bs (done + as.length) (moveAll one as done s) := by
  induction as generalizing done s with
  | nil => rfl
  | cons a as ih =>
    rw [length_cons, show done + (as.length + 1) = done + 1 + as.length by omega]
    exact ih (done + 1) (one s a done)

variable {move one}

/-- **the loop handles the bytes from `offset` on, one by one, and its assertion holds** -/
theorem moveLoop_eq
    (hmove : ∀ s a done len, move s a done len = moveAll one (List.range' a len) done s)
    (s : σ) (h : offset ≤ iovSize iov) (hdone : done ≤ bytes) :
    moveLoop move bytes iov offset done s
      = .ok (done + min (bytes - done) (iovSize iov - offset),
          moveAll one (((addrs iov).drop offset).take (bytes - done)) done s) := by
  induction iov generalizing offset done s with
  | nil =>
    obtain rfl : offset = 0 := Nat.le_zero.mp h
    rw [addrs_nil, drop_nil, take_nil]
    show Except.ok (done, s) = Except.ok (done + min (bytes - done) 0, s)
    rw [Nat.min_zero, Nat.add_zero]
  | cons v vs ih =>
    rw [iovSize_cons] at h ⊢
    rw [moveLoop]
    by_cases hgo : offset ≠ 0 ∨ done < bytes
    · rw [if_pos hgo]
      by_cases hin : offset < v.iovLen
      · rw [if_pos hin, ih _ (Nat.zero_le _) (by omega), drop_addrs_enter hin,
          take_range'_append, moveAll_append, length_range', hmove, Nat.sub_add_eq]
        refine congrArg (fun n => Except.ok (n, _)) ?_
        omega
      · rw [if_neg hin, ih _ (by omega) hdone, drop_addrs_skip (by omega)]
        refine congrArg (fun n => Except.ok (done + min (bytes - done) n, _)) ?_
        omega
    · rw [if_neg hgo, if_pos (by omega), show bytes - done = 0 by omega]
      rfl

end mover

/-! ## the three movers -/

/-- `memset(dst + d, c, n)` -/
def memset (m : Buf) (a : Nat) (c : Byte) (n : Nat) : Buf :=
  fun k => if a ≤ k ∧ k < a + n then c else m k

def iovFromBuf (m : Buf) (iov : List IoVec) (offset : Nat) (buf : Buf) (bytes : Nat) :
    Except Fault (Nat × Buf) :=
  moveLoop (fun m a done len => memcpy m a buf done len) bytes iov offset 0 m

def iovToBuf (m : Buf) (iov : List IoVec) (offset : Nat) (buf : Buf) (bytes : Nat) :
    Except Fault (Nat × Buf) :=
  moveLoop (fun buf a done len => memcpy buf done m a len) bytes iov offset 0 buf

/-- the fill value is converted to an unsigned character -/
def iovMemset (m : Buf) (iov : List IoVec) (offset : Nat) (fillc : BitVec 32) (bytes : Nat) :
    Except Fault (Nat × Buf) :=
  moveLoop (fun m a _ len => memset m a (fillc.truncate 8) len) bytes iov offset 0 m

abbrev store (src : Buf) (m : Buf) (a done : Nat) : Buf := update m a (src done)

abbrev fetch (m : Buf) (buf : Buf) (a done : Nat) : Buf := update buf done (m a)

lemma memcpy_succ (src m : Buf) (a done len : Nat) :
    memcpy m a src done (len + 1)
      = memcpy (update m a (src done)) (a + 1) src (done + 1) len := by
  funext k
  by_cases hk : k = a
  · subst hk
    show ite _ _ _ = ite _ _ _
    rw [if_pos (by omega), if_neg (by omega), update_self, Nat.sub_self, Nat.add_zero]
  · show ite _ _ _ = ite _ _ _
    rw [update_of_ne hk]
    by_cases hin : a ≤ k ∧ k < a + (len + 1)
    · rw [if_pos hin, if_pos (by omega), show done + 1 + (k - (a + 1)) = done + (k - a) by omega]
    · rw [if_neg hin, if_neg (by omega)]

lemma memcpy_zero (src m : Buf) (a done : Nat) : memcpy m a src done 0 = m :=
  funext fun _ => if_neg (by omega)

lemma memcpy_store (src m : Buf) (a done len : Nat) :
    memcpy m a src done len = moveAll (store src) (List.range' a len) done m := by
  induction len generalizing a done m with
  | zero => exact memcpy_zero ..
  | succ len ih => rw [memcpy_succ, ih, range'_succ, moveAll]

lemma memcpy_fetch (src buf : Buf) (a done len : Nat) :
    memcpy buf done src a len = moveAll (fetch src) (List.range' a len) done buf := by
  induction len generalizing a done buf with
  | zero => exact memcpy_zero ..
  | succ len ih => rw [memcpy_succ, ih, range'_succ, moveAll]

lemma moveAll_store (src : Buf) {as : List Nat} (hn : as.Nodup) (done : Nat) (m : Buf) :
    (∀ i (hi : i < as.length), moveAll (store src) as done m as[i] = src (done + i)) ∧
    ∀ a ∉ as, moveAll (store src) as done m a = m a := by
  induction as generalizing done m with
  | nil => exact ⟨fun i hi => absurd hi (Nat.not_lt_zero i), fun a _ => rfl⟩
  | cons b as ih =>
    obtain ⟨hb, hn⟩ := List.nodup_cons.mp hn
    obtain ⟨hin, hout⟩ := ih hn (done + 1) (store src m b done)
    refine ⟨fun i hi => ?_, fun a ha => ?_⟩
    · cases i with
      | zero => exact (hout b hb).trans (update_self ..)
      | succ i =>
        rw [show done + (i + 1) = done + 1 + i by omega]
        exact hin i (Nat.lt_of_succ_lt_succ hi)
    · obtain ⟨hab, ha⟩ := ne_and_not_mem_of_not_mem_cons ha
      exact (hout a ha).trans (update_of_ne hab ..)

lemma moveAll_fetch (m : Buf) (as : List Nat) (done : Nat) (buf : Buf) :
    (∀ i (hi : i < as.length), moveAll (fetch m) as done buf (done + i) = m as[i]) ∧
    ∀ k, k < done ∨ done + as.length ≤ k → moveAll (fetch m) as done buf k = buf k := by
  induction as generalizing done buf with
  | nil => exact ⟨fun i hi => absurd hi (Nat.not_lt_zero i), fun k _ => rfl⟩
  | cons b as ih =>
    obtain ⟨hin, hout⟩ := ih (done + 1) (fetch m buf b done)
    refine ⟨fun i hi => ?_, fun k hk => ?_⟩
    · cases i with
      | zero => exact (hout done (by omega)).trans (update_self ..)
      | succ i =>
        rw [show done + (i + 1) = done + 1 + i by omega]
        exact hin i (Nat.lt_of_succ_lt_succ hi)
    · rw [length_cons] at hk
      exact (hout k (by omega)).trans (update_of_ne (by omega) ..)

section
variable (m buf : Buf) (h : offset ≤ iovSize iov)
include h

lemma iovFromBuf_eq : iovFromBuf m iov offset buf bytes
    = .ok (min bytes (iovSize iov - offset),
        moveAll (store buf) (window iov offset bytes) 0 m) := by
  rw [iovFromBuf, moveLoop_eq (fun s a d n => memcpy_store buf s a d n) m h (Nat.zero_le _),
    Nat.zero_add, Nat.sub_zero]

lemma iovToBuf_eq : iovToBuf m iov offset buf bytes
    = .ok (min bytes (iovSize iov - offset),
        moveAll (fetch m) (window iov offset bytes) 0 buf) := by
  rw [iovToBuf, moveLoop_eq (fun s a d n => memcpy_fetch m s a d n) buf h (Nat.zero_le _),
    Nat.zero_add, Nat.sub_zero]

lemma iovMemset_eq (c : BitVec 32) : iovMemset m iov offset c bytes
    = .ok (min bytes (iovSize iov - offset),
        moveAll (store fun _ => c.truncate 8) (window iov offset bytes) 0 m) :=
  iovFromBuf_eq m (fun _ => c.truncate 8) h

end

/-- **the three movers are `memcpy` and `memset` on the concatenation of disjoint buffers**: they
return, the assertion holding, and handle the `min bytes (size - offset)` bytes from `offset` on
and no other; reading back gives what was written -/
theorem iov_moves (m buf : Buf) (iov : List IoVec) (offset bytes : Nat) (fillc : BitVec 32)
    (hdisjoint : (addrs iov).Nodup) (h : offset ≤ iovSize iov) :
    let n := min bytes (iovSize iov - offset)
    let w := window iov offset bytes
    w.length = n ∧
    (∃ m', iovFromBuf m iov offset buf bytes = .ok (n, m') ∧
      (∀ i (hi : i < w.length), m' w[i] = buf i) ∧ (∀ a ∉ w, m' a = m a) ∧
      ∀ buf', ∃ back, iovToBuf m' iov offset buf' bytes = .ok (n, back) ∧
        ∀ i < n, back i = buf i) ∧
    (∃ buf', iovToBuf m iov offset buf bytes = .ok (n, buf') ∧
      (∀ i (hi : i < w.length), buf' i = m w[i]) ∧ ∀ i, n ≤ i → buf' i = buf i) ∧
    ∃ m', iovMemset m iov offset fillc bytes = .ok (n, m') ∧
      (∀ a ∈ w, m' a = fillc.truncate 8) ∧ ∀ a ∉ w, m' a = m a := by
  intro n w
  have hlen : w.length = n := length_window iov offset bytes
  have hn : w.Nodup := (hdisjoint.sublist (drop_sublist ..)).sublist (take_sublist ..)
  obtain ⟨hin, hout⟩ := moveAll_store buf hn 0 m
  obtain ⟨hset, hkeep⟩ := moveAll_store (fun _ => fillc.truncate 8) hn 0 m
  simp only [Nat.zero_add] at hin
  refine ⟨hlen, ⟨_, iovFromBuf_eq m buf h, hin, hout, fun buf' => ?_⟩,
    ⟨_, iovToBuf_eq m buf h, ?_, ?_⟩, ⟨_, iovMemset_eq m h fillc, ?_, hkeep⟩⟩
  · refine ⟨_, iovToBuf_eq _ buf' h, fun i hi => ?_⟩
    have hi' : i < w.length := hlen ▸ hi
    have hback := (moveAll_fetch (moveAll (store buf) w 0 m) w 0 buf').1 i hi'
    rw [Nat.zero_add] at hback
    exact hback.trans (hin i hi')
  · intro i hi
    have hback := (moveAll_fetch m w 0 buf).1 i hi
    rwa [Nat.zero_add] at hback
  · exact fun i hi => (moveAll_fetch m w 0 buf).2 i (.inr (by omega))
  · intro a ha
    obtain ⟨i, hi, rfl⟩ := getElem_of_mem ha
    exact hset i hi

/-- a transfer over three elements, the middle one empty -/
theorem iov_moves_three : iovFromBuf (fun _ => 0) [⟨100, 2⟩, ⟨7, 0⟩, ⟨40, 3⟩] 1 (fun i => i + 1) 3
      = .ok (3, moveAll (store fun i => i + 1) [101, 40, 41] 0 fun _ => 0) ∧
    ∃ m', iovFromBuf (fun _ => 0) [⟨100, 2⟩, ⟨7, 0⟩, ⟨40, 3⟩] 1 (fun i => i + 1) 3 = .ok (3, m') ∧
      m' 102 = 0 := by
  refine ⟨iovFromBuf_eq _ _ (by decide), ?_⟩
  obtain ⟨-, ⟨m', hrun, -, hout, -⟩, -⟩ :=
    iov_moves (fun _ => 0) (fun i => i + 1) [⟨100, 2⟩, ⟨7, 0⟩, ⟨40, 3⟩] 1 3 0 (by decide) (by decide)
  exact ⟨m', hrun, hout 102 (by decide)⟩

end Iov
