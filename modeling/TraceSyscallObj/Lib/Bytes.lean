import Mathlib.Tactic.Common

/-!
# Words of bytes and the test for a zero byte

A buffer is a function of the index.  `word buf n i` is the `n`-byte word at `i`, the first byte
lowest.  `zeroBytes x` is the bit trick `(x - 0x..0101) & ~x & 0x..8080`.

* `word_eq_iff`: two words are equal iff their bytes are;
* `zeroBytes_ne_zero`: the trick is exact: it is not zero iff some byte of the word is zero.
-/

namespace Bytes
open BitVec

abbrev Byte := BitVec 8
abbrev Buf := Nat → Byte

def word (buf : Buf) : (n : Nat) → (i : Nat) → BitVec (8 * n)
  | 0, _ => 0
  | n + 1, i => word buf n (i + 1) ++ buf i

/-- `0x..010101` -/
def ones : (n : Nat) → BitVec (8 * n)
  | 0 => 0
  | n + 1 => ones n ++ 1#8

def zeroBytes {n : Nat} (x : BitVec (8 * n)) : BitVec (8 * n) :=
  (x - ones n) &&& ~~~x &&& (ones n <<< 7)

/-- `memcpy(dst + d, src + i, n)` -/
def memcpy (dst : Buf) (d : Nat) (src : Buf) (i n : Nat) : Buf :=
  fun k => if d ≤ k ∧ k < d + n then src (i + (k - d)) else dst k

/-! ## a word and its lowest byte -/

section
variable {w : Nat} {a c : BitVec w} {b d : Byte}

lemma append_toNat (a : BitVec w) (b : Byte) : (a ++ b).toNat = 256 * a.toNat + b.toNat := by
  rw [toNat_append, ← Nat.shiftLeft_add_eq_or_of_lt b.isLt]
  omega

lemma append_inj : a ++ b = c ++ d ↔ a = c ∧ b = d := by
  constructor
  · intro h
    have h1 := congrArg BitVec.toNat h
    rw [append_toNat, append_toNat] at h1
    constructor
    · apply eq_of_toNat_eq
      omega
    · apply eq_of_toNat_eq
      omega
  · intro ⟨h1, h2⟩
    rw [h1, h2]

lemma mod_of_lt_two_mul {P n : Nat} (h : n < 2 * P) : n % P = if n < P then n else n - P := by
  split
  · exact Nat.mod_eq_of_lt ‹_›
  · rw [Nat.mod_eq_sub_mod (by omega), Nat.mod_eq_of_lt (by omega)]

lemma append_sub (a c : BitVec w) (h : d ≤ b) : (a ++ b) - (c ++ d) = (a - c) ++ (b - d) := by
  apply eq_of_toNat_eq
  rw [append_toNat, toNat_sub, append_toNat, append_toNat, toNat_sub,
    toNat_sub]
  have ha := a.isLt
  have hc := c.isLt
  have h' : d.toNat ≤ b.toNat := h
  rw [show 2 ^ (w + 8) = 256 * 2 ^ w by rw [Nat.pow_add]; omega]
  generalize 2 ^ w = P at *
  rw [mod_of_lt_two_mul (P := P) (by omega), mod_of_lt_two_mul (P := 256 * P) (by omega)]
  split <;> split <;> omega

end

lemma ones_shift (n : Nat) : ones (n + 1) <<< 7 = (ones n <<< 7) ++ 128#8 := by
  apply eq_of_toNat_eq
  show ((ones n ++ 1#8) <<< 7).toNat = _
  rw [append_toNat, toNat_shiftLeft, toNat_shiftLeft, append_toNat,
    Nat.shiftLeft_eq, Nat.shiftLeft_eq]
  rw [show 2 ^ (8 * n + 8) = 256 * 2 ^ (8 * n) by rw [Nat.pow_add]; omega]
  have hP : 0 < 2 ^ (8 * n) := Nat.two_pow_pos _
  generalize 2 ^ (8 * n) = P at *
  show (256 * (ones n).toNat + 1) * 2 ^ 7 % (256 * P) = 256 * ((ones n).toNat * 2 ^ 7 % P) + 128
  have hlt := Nat.mod_lt ((ones n).toNat * 2 ^ 7) hP
  have e : (256 * (ones n).toNat + 1) * 2 ^ 7
      = 256 * ((ones n).toNat * 2 ^ 7 % P) + 128 + 256 * P * ((ones n).toNat * 2 ^ 7 / P) := by
    have h := Nat.mod_add_div ((ones n).toNat * 2 ^ 7) P
    rw [Nat.mul_assoc]
    omega
  rw [e, Nat.add_mul_mod_self_left, Nat.mod_eq_of_lt (by omega)]

/-! ## words -/

lemma word_eq_iff (b c : Buf) (n i : Nat) :
    word b n i = word c n i ↔ ∀ k < n, b (i + k) = c (i + k) := by
  induction n generalizing i with
  | zero => simp [word]
  | succ n ih =>
    show word b n (i + 1) ++ b i = word c n (i + 1) ++ c i ↔ _
    rw [append_inj, ih]
    constructor
    · intro ⟨h1, h2⟩ k hk
      cases k with
      | zero => exact h2
      | succ k =>
        have h3 := h1 k (by omega)
        rwa [show i + 1 + k = i + (k + 1) by omega] at h3
    · intro h
      refine ⟨fun k hk => ?_, h 0 (by omega)⟩
      rw [show i + 1 + k = i + (k + 1) by omega]
      exact h (k + 1) (by omega)

lemma zeroBytes_append {n : Nat} (x : BitVec (8 * n)) {b : Byte} (hb : b ≠ 0) :
    zeroBytes (n := n + 1) (x ++ b) = zeroBytes x ++ 0#8 := by
  have h1 : 1#8 ≤ b := by bv_omega
  have h2 : (b - 1#8) &&& ~~~b &&& 128#8 = 0#8 := by
    revert b
    decide
  show ((x ++ b) - (ones n ++ 1#8)) &&& ~~~(x ++ b) &&& ones (n + 1) <<< 7 = _
  rw [append_sub _ _ h1, ones_shift, not_append, and_append, and_append, h2]
  rfl

lemma setWidth_append {w : Nat} (a : BitVec w) (b : Byte) : (a ++ b).setWidth 8 = b := by
  apply eq_of_toNat_eq
  rw [toNat_setWidth, append_toNat]
  omega

lemma setWidth_borrow {w : Nat} (a c : BitVec w) :
    ((a ++ 0#8) - (c ++ 1#8)).setWidth 8 = 255#8 := by
  apply eq_of_toNat_eq
  rw [toNat_setWidth, toNat_sub, append_toNat, append_toNat]
  have hc := c.isLt
  rw [show 2 ^ (w + 8) = 256 * 2 ^ w by rw [Nat.pow_add]; omega]
  generalize 2 ^ w = P at *
  rw [Nat.mod_mod_of_dvd _ (Nat.dvd_mul_right _ _)]
  show (256 * P - (256 * c.toNat + 1) + (256 * a.toNat + 0)) % 256 = 255
  omega

lemma zeroBytes_append_zero {n : Nat} (x : BitVec (8 * n)) :
    zeroBytes (n := n + 1) (x ++ 0#8) ≠ 0 := by
  intro h
  have h1 : ((x ++ 0#8) - (ones n ++ 1#8)) &&& ~~~(x ++ 0#8) &&& (ones n <<< 7 ++ 128#8) = 0 := by
    rw [← ones_shift]
    exact h
  have h2 := congrArg (BitVec.setWidth 8) h1
  rw [setWidth_and, setWidth_and, setWidth_not (by omega), setWidth_borrow,
    setWidth_append, setWidth_append] at h2
  simp at h2

/-- **The test is exact.** -/
theorem zeroBytes_ne_zero (b c : Buf) (n i : Nat) :
    zeroBytes (word b n i ^^^ word c n i) ≠ 0 ↔ ∃ k < n, b (i + k) = c (i + k) := by
  induction n generalizing i with
  | zero =>
    constructor
    · intro h
      exact absurd (eq_of_zero_length rfl) h
    · intro ⟨k, hk, _⟩
      omega
  | succ n ih =>
    have e : word b (n + 1) i ^^^ word c (n + 1) i
        = (word b n (i + 1) ^^^ word c n (i + 1)) ++ (b i ^^^ c i) := xor_append
    rw [e]
    by_cases h : b i = c i
    · constructor
      · intro _
        exact ⟨0, by omega, h⟩
      · intro _
        rw [h, BitVec.xor_self]
        exact zeroBytes_append_zero _
    · have hx : b i ^^^ c i ≠ 0 := fun k => h (BitVec.xor_eq_zero_iff.mp k)
      rw [zeroBytes_append _ hx]
      have e2 : zeroBytes (word b n (i + 1) ^^^ word c n (i + 1)) ++ 0#8 ≠ 0 ↔
          zeroBytes (word b n (i + 1) ^^^ word c n (i + 1)) ≠ 0 := by
        rw [show (0 : BitVec (8 * n + 8)) = 0#(8 * n) ++ 0#8 from BitVec.zero_append_zero.symm,
          ne_eq, append_inj]
        simp
      refine e2.trans ((ih (i + 1)).trans ?_)
      constructor
      · intro ⟨k, hk, hkk⟩
        exact ⟨k + 1, by omega, by rwa [show i + (k + 1) = i + 1 + k by omega]⟩
      · intro ⟨k, hk, hkk⟩
        cases k with
        | zero => exact absurd hkk h
        | succ k => exact ⟨k, by omega, by rwa [show i + 1 + k = i + (k + 1) by omega]⟩

end Bytes
