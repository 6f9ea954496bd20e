import Mathlib.Algebra.Group.Nat.Defs
import Mathlib.Tactic.Common

/-!
# Byte memory

A memory of bytes with little-endian words of 32 and 64 bits.  A store of a word changes aligned
words only at its own address.

* `ldl`, `ldq`, `stl`: loads and the store of 32 bits;
* `ldl_stl_same`, `ldl_stl_ne`;
* `ldq_stl_same`, `ldq_stl_ne`.
-/

namespace ByteMem
open BitVec

abbrev Mem := BitVec 64 → BitVec 8

def ldl (m : Mem) (a : BitVec 64) : BitVec 32 := m (a + 3) ++ m (a + 2) ++ m (a + 1) ++ m a

def ldq (m : Mem) (a : BitVec 64) : BitVec 64 := ldl m (a + 4) ++ ldl m a

def stl (m : Mem) (a : BitVec 64) (v : BitVec 32) : Mem := fun x =>
  if (x - a).toNat < 4 then (v >>> (8 * (x - a).toNat)).setWidth 8 else m x

variable {m : Mem} {a b : BitVec 64} {v : BitVec 32}

lemma stl_at (i : Nat) (hi : i < 4) :
    stl m a v (a + BitVec.ofNat 64 i) = (v >>> (8 * i)).setWidth 8 := by
  have hsub : (a + BitVec.ofNat 64 i - a).toNat = i := by
    rw [BitVec.add_comm, BitVec.add_sub_cancel, toNat_ofNat, Nat.mod_eq_of_lt (by omega)]
  unfold stl
  rw [hsub, if_pos hi]

lemma cut_append {n : Nat} (x : BitVec n) (j k i : Nat) :
    (x >>> (i + k)).setWidth j ++ (x >>> i).setWidth k = (x >>> i).setWidth (j + k) := by
  refine eq_of_getLsbD_eq fun l hl => ?_
  rw [getLsbD_append]
  by_cases hk : l < k
  · simp [hk, hl]
  · have hsub : l - k < j := by omega
    have hidx : i + k + (l - k) = i + l := by omega
    simp [hk, hl, hsub, hidx]

lemma ldl_stl_same : ldl (stl m a v) a = v := by
  have h3 : stl m a v (a + 3) = _ := stl_at 3 (by decide)
  have h2 : stl m a v (a + 2) = _ := stl_at 2 (by decide)
  have h1 : stl m a v (a + 1) = _ := stl_at 1 (by decide)
  have h0 : stl m a v (a + 0) = _ := stl_at 0 (by decide)
  rw [show a + 0 = a from BitVec.add_zero a] at h0
  have c2 := cut_append v 8 8 16
  have c1 := cut_append v (8 + 8) 8 8
  have c0 := cut_append v (8 + 8 + 8) 8 0
  unfold ldl
  rw [h3, h2, h1, h0]
  calc _ = (v >>> 0).setWidth (8 + 8 + 8 + 8) := by rw [← c0, ← c1, ← c2]
    _ = v := by rw [ushiftRight_zero, setWidth_eq]

section
variable (ha : a.toNat % 4 = 0) (hb : b.toNat % 4 = 0) (hne : a ≠ b)
include ha hb hne

lemma stl_off (i : Nat) (hi : i < 4) :
    stl m a v (b + BitVec.ofNat 64 i) = m (b + BitVec.ofNat 64 i) := by
  have hne' : a.toNat ≠ b.toNat := fun h => hne (eq_of_toNat_eq h)
  have hsub : ¬ (b + BitVec.ofNat 64 i - a).toNat < 4 := by
    rw [toNat_sub, toNat_add, toNat_ofNat]
    omega
  unfold stl
  rw [if_neg hsub]

lemma ldl_stl_ne : ldl (stl m a v) b = ldl m b := by
  have h3 : stl m a v (b + 3) = _ := stl_off ha hb hne 3 (by decide)
  have h2 : stl m a v (b + 2) = _ := stl_off ha hb hne 2 (by decide)
  have h1 : stl m a v (b + 1) = _ := stl_off ha hb hne 1 (by decide)
  have h0 : stl m a v (b + 0) = m (b + 0) := stl_off ha hb hne 0 (by decide)
  rw [show b + 0 = b from BitVec.add_zero b] at h0
  unfold ldl
  rw [h3, h2, h1, h0]
  rfl

end

lemma ldq_stl_same (ha : a.toNat % 8 = 0) : ldq (stl m a v) a = ldl m (a + 4) ++ v := by
  have hhigh : (a + 4).toNat = a.toNat + 4 := by
    show (a.toNat + 4) % _ = _
    omega
  have hne : a ≠ a + 4 := fun h => by
    have := congrArg BitVec.toNat h
    omega
  unfold ldq
  rw [ldl_stl_same, ldl_stl_ne (by omega) (by omega) hne]

lemma ldq_stl_ne (ha : a.toNat % 8 = 0) (hb : b.toNat % 8 = 0) (hne : a ≠ b) :
    ldq (stl m a v) b = ldq m b := by
  have hhigh : (b + 4).toNat = b.toNat + 4 := by
    show (b.toNat + 4) % _ = _
    omega
  have hne' : a ≠ b + 4 := fun h => by
    have := congrArg BitVec.toNat h
    omega
  unfold ldq
  rw [ldl_stl_ne (by omega) (by omega) hne, ldl_stl_ne (by omega) (by omega) hne']

end ByteMem
