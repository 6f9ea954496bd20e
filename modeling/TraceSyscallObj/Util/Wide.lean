import TraceSyscallObj.X86.Division

/-!
# Arithmetic in two words

Model of `mulu64`, `muls64` in `util/host-utils.c` (without `CONFIG_INT128`), of `muldiv64` in
`qemu-common.h` and of `qemu/int128.h`.  Signed words wrap around.

* `mul64_nat`: the product from four products of half words;
* `products_exact`: the three multiplications;
* `int128_exact`: the operations on `Int128` against those on integers modulo `2 ^ 128`.
-/

namespace Wide
open BitVec
open X86 (Pair append_nat append_int toInt_cases)

/-! ## products -/

/-- a value in a `uint64_t` -/
def u64 (x : Nat) : Nat := x % 2 ^ 64

/-- the half words of the union `LL` -/
def low (x : Nat) : Nat := x % 2 ^ 32
def high (x : Nat) : Nat := x / 2 ^ 32 % 2 ^ 32
def ll (low high : Nat) : BitVec 64 := .ofNat 64 (low + 2 ^ 32 * high)

/-- `plow` and `phigh` -/
def mul64 (a b : BitVec 64) : Pair :=
  let rl := u64 (low a.toNat * low b.toNat)
  let rm := u64 (low a.toNat * high b.toNat)
  let rn := u64 (high a.toNat * low b.toNat)
  let rh := u64 (high a.toNat * high b.toNat)
  let c := u64 (high rl + low rm + low rn)
  let c' := u64 (high c + high rm + high rn + low rh)
  ⟨ll (low rl) (low c), ll (low c') (low (high rh + high c'))⟩

def mulu64 (a b : BitVec 64) : Pair := mul64 a b

def muls64 (a b : BitVec 64) : Pair :=
  let p := mul64 a b
  let rh := if b.slt 0 then p.high - a else p.high
  ⟨p.low, if a.slt 0 then rh - b else rh⟩

def muldiv64 (a : BitVec 64) (b c : BitVec 32) : BitVec 64 :=
  let rl := u64 (low a.toNat * b.toNat)
  let rh := u64 (u64 (high a.toNat * b.toNat) + rl / 2 ^ 32)
  ll (low (u64 (u64 (rh % c.toNat * 2 ^ 32) + low rl) / c.toNat)) (low (rh / c.toNat))

lemma half_mul_le {x y : Nat} (hx : x < 2 ^ 32) (hy : y < 2 ^ 32) :
    x * y ≤ (2 ^ 32 - 1) * (2 ^ 32 - 1) := Nat.mul_le_mul (Nat.le_of_lt_succ hx) (Nat.le_of_lt_succ hy)

lemma halves (a : BitVec 64) : a.toNat = low a.toNat + 2 ^ 32 * high a.toNat ∧
    low a.toNat < 2 ^ 32 ∧ high a.toNat < 2 ^ 32 := by
  have ha := a.isLt
  unfold low high
  omega

lemma mul64_nat (a b : BitVec 64) : (mul64 a b).nat = a.toNat * b.toNat := by
  unfold mul64 Pair.nat ll
  obtain ⟨ha, hal, hah⟩ := halves a
  obtain ⟨hb, hbl, hbh⟩ := halves b
  have hrl := half_mul_le hal hbl
  have hrm := half_mul_le hal hbh
  have hrn := half_mul_le hah hbl
  have hrh := half_mul_le hah hbh
  have hmul : a.toNat * b.toNat = low a.toNat * low b.toNat + 2 ^ 32 *
      (low a.toNat * high b.toNat + high a.toNat * low b.toNat) +
        2 ^ 64 * (high a.toNat * high b.toNat) := by
    nth_rewrite 1 [ha, hb]
    ring
  rw [hmul, toNat_ofNat, toNat_ofNat]
  generalize low a.toNat * low b.toNat = rl at *
  generalize low a.toNat * high b.toNat = rm at *
  generalize high a.toNat * low b.toNat = rn at *
  generalize high a.toNat * high b.toNat = rh at *
  unfold low high u64
  clear hmul ha hb hal hah hbl hbh
  omega

lemma toInt_sub_toNat (a : BitVec 64) : a.slt 0 = true ∧ a.toInt - a.toNat = -2 ^ 64 ∨
    a.slt 0 = false ∧ a.toInt - a.toNat = 0 := by
  have hslt : a.slt 0 = decide (a.toInt < 0) := rfl
  rw [hslt, decide_eq_true_eq, decide_eq_false_iff_not]
  have := toInt_cases (by decide) a
  omega

lemma muls64_int (a b : BitVec 64) : (muls64 a b).int = a.toInt * b.toInt := by
  have hnat : ((mul64 a b).nat : Int) = a.toNat * b.toNat := by
    rw [mul64_nat]
    exact Int.natCast_mul ..
  have hbound : (a.toInt * b.toInt).natAbs ≤ 2 ^ 63 * 2 ^ 63 := by
    have hA := toInt_cases (by decide) a
    have hB := toInt_cases (by decide) b
    rw [Int.natAbs_mul]
    exact Nat.mul_le_mul (by omega) (by omega)
  have hmul : a.toInt * b.toInt = a.toNat * b.toNat + (a.toInt - a.toNat) * b.toNat +
      (b.toInt - b.toNat) * a.toNat + (a.toInt - a.toNat) * (b.toInt - b.toNat) := by ring
  have hhigh := toInt_cases (by decide) (muls64 a b).high
  unfold Pair.int
  unfold Pair.nat at hnat
  unfold muls64 at hhigh ⊢
  -- one subtraction from the high word for each sign; the bound decides among the wrapped values
  rcases toInt_sub_toNat a with ⟨ha, ha'⟩ | ⟨ha, ha'⟩ <;>
    rcases toInt_sub_toNat b with ⟨hb, hb'⟩ | ⟨hb, hb'⟩ <;>
    simp only [ha, hb, ha', hb', toNat_sub, if_true, Bool.false_eq_true, if_false]
      at hmul hhigh ⊢ <;>
    omega

lemma muldiv64_eq (a : BitVec 64) (b c : BitVec 32) (hc : 0 < c.toNat)
    (hfit : a.toNat * b.toNat / c.toNat < 2 ^ 64) :
    (muldiv64 a b c).toNat = a.toNat * b.toNat / c.toNat := by
  obtain ⟨ha, hal, hah⟩ := halves a
  have hrl := half_mul_le hal b.isLt
  have hrh := half_mul_le hah b.isLt
  have hmul : a.toNat * b.toNat = low a.toNat * b.toNat + 2 ^ 32 * (high a.toNat * b.toNat) := by
    nth_rewrite 1 [ha]
    ring
  have hlt := c.isLt
  rw [hmul] at hfit ⊢
  unfold muldiv64
  generalize low a.toNat * b.toNat = rl at *
  generalize high a.toNat * b.toNat = rh at *
  obtain ⟨R, hR⟩ : ∃ R, u64 (u64 rh + u64 rl / 2 ^ 32) = R := ⟨_, rfl⟩
  unfold low u64 at *
  dsimp only
  rw [hR, ll, toNat_ofNat]
  -- the quotient of the upper part, then that of its remainder with the lower part
  have hr := Nat.mod_lt R hc
  have hdiv := congrArg (2 ^ 32 * ·) (Nat.div_add_mod R c.toNat)
  have hsplit : rl + 2 ^ 32 * rh =
      R % c.toNat * 2 ^ 32 + rl % 2 ^ 32 + c.toNat * (2 ^ 32 * (R / c.toNat)) := by
    rw [Nat.mul_left_comm]
    omega
  have hrest : (R % c.toNat * 2 ^ 32 % 2 ^ 64 + rl % 2 ^ 64 % 2 ^ 32) % 2 ^ 64 =
      R % c.toNat * 2 ^ 32 + rl % 2 ^ 32 := by omega
  have hlow : (R % c.toNat * 2 ^ 32 + rl % 2 ^ 32) / c.toNat < 2 ^ 32 :=
    Nat.div_lt_of_lt_mul (by omega)
  rw [hsplit, Nat.add_mul_div_left _ _ hc] at hfit ⊢
  rw [hrest]
  generalize (R % c.toNat * 2 ^ 32 + rl % 2 ^ 32) / c.toNat = x at hfit hlow ⊢
  generalize R / c.toNat = q at hfit ⊢
  omega

/-- **The products are exact, and `muldiv64` is the rounded down quotient where that fits.** -/
theorem products_exact :
    (∀ a b, (mulu64 a b).nat = a.toNat * b.toNat) ∧
    (∀ a b, (muls64 a b).int = a.toInt * b.toInt) ∧
    ∀ a b c, 0 < c.toNat → a.toNat * b.toNat / c.toNat < 2 ^ 64 →
      (muldiv64 a b c).toNat = a.toNat * b.toNat / c.toNat :=
  ⟨mul64_nat, muls64_int, muldiv64_eq⟩

/-! ## `Int128` -/

structure Int128 where
  lo : BitVec 64
  hi : BitVec 64

namespace Int128

def value (a : Int128) : Int := a.hi.toInt * 2 ^ 64 + a.lo.toNat

def bits (a : Int128) : BitVec 128 := a.hi ++ a.lo

lemma bits_toNat (a : Int128) : a.bits.toNat = a.hi.toNat * 2 ^ 64 + a.lo.toNat :=
  append_nat ⟨a.lo, a.hi⟩

lemma bits_toInt (a : Int128) : a.bits.toInt = a.value := append_int ⟨a.lo, a.hi⟩

end Int128

def int128And (a b : Int128) : Int128 := ⟨a.lo &&& b.lo, a.hi &&& b.hi⟩

def int128Rshift (a : Int128) (n : Nat) : Int128 :=
  if n = 0 then a
  else
    let h := a.hi.sshiftRight (n &&& 63)
    if 64 ≤ n then ⟨h, h.sshiftRight 63⟩
    else ⟨a.lo >>> n ||| a.hi <<< (64 - n), h⟩

def int128Add (a b : Int128) : Int128 :=
  let lo := a.lo + b.lo
  ⟨lo, a.hi + b.hi + if lo < a.lo then 1 else 0⟩

def int128Neg (a : Int128) : Int128 :=
  let lo := -a.lo
  ⟨lo, ~~~a.hi + if lo = 0#64 then 1 else 0⟩

def int128Sub (a b : Int128) : Int128 :=
  ⟨a.lo - b.lo, a.hi - b.hi - if a.lo < b.lo then 1 else 0⟩

def int128Eq (a b : Int128) : Bool := a.lo == b.lo && a.hi == b.hi

def int128Ge (a b : Int128) : Bool := b.hi.slt a.hi || (a.hi == b.hi && b.lo.ule a.lo)

def int128Lt (a b : Int128) : Bool := !int128Ge a b
def int128Le (a b : Int128) : Bool := int128Ge b a
def int128Gt (a b : Int128) : Bool := !int128Le a b

def int128Min (a b : Int128) : Int128 := if int128Le a b then a else b
def int128Max (a b : Int128) : Int128 := if int128Ge a b then a else b

lemma toNat_carry (p : Prop) [Decidable p] :
    (if p then (1 : BitVec 64) else 0).toNat = if p then 1 else 0 := apply_ite BitVec.toNat ..

lemma add_bits (a b : Int128) : (int128Add a b).bits = a.bits + b.bits := by
  apply eq_of_toNat_eq
  unfold int128Add
  simp only [Int128.bits_toNat, toNat_add, lt_def, toNat_carry]
  split
  · omega
  · omega

lemma neg_bits (a : Int128) : (int128Neg a).bits = -a.bits := by
  apply eq_of_toNat_eq
  unfold int128Neg
  simp only [Int128.bits_toNat, toNat_add, toNat_not, toNat_neg, ← toNat_inj, toNat_zero,
    toNat_carry]
  split
  · omega
  · omega

lemma sub_bits (a b : Int128) : (int128Sub a b).bits = a.bits - b.bits := by
  apply eq_of_toNat_eq
  unfold int128Sub
  simp only [Int128.bits_toNat, toNat_sub, lt_def, toNat_carry]
  split
  · omega
  · omega

lemma and_bits (a b : Int128) : (int128And a b).bits = a.bits &&& b.bits :=
  and_append.symm

lemma rshift_bits (a : Int128) (n : Nat) (hn : n < 128) :
    (int128Rshift a n).bits = a.bits.sshiftRight n := by
  unfold int128Rshift Int128.bits
  rw [show n &&& 63 = n % 64 from Nat.and_two_pow_sub_one_eq_mod n 6]
  have hlo := a.lo.getLsbD_of_ge
  have hmsb := msb_eq_getLsbD_last a.hi
  split
  · next h => rw [h, sshiftRight_zero]
  apply eq_of_getLsbD_eq
  intro i hi
  split
  · next h =>
    simp only [getLsbD_append, getLsbD_sshiftRight, msb_append, msb_sshiftRight, hmsb]
    generalize a.lo.getLsbD = f
    generalize a.hi.getLsbD = g
    clear hlo hmsb
    grind
  · next h =>
    rw [Nat.mod_eq_of_lt (Nat.lt_of_not_le h)]
    simp only [getLsbD_append, getLsbD_sshiftRight, getLsbD_or, getLsbD_ushiftRight,
      getLsbD_shiftLeft, msb_append, hmsb]
    generalize a.lo.getLsbD = f at hlo
    generalize a.hi.getLsbD = g
    clear hmsb
    grind

lemma rshift_value (a : Int128) (n : Nat) (hn : n < 128) :
    (int128Rshift a n).value = a.value / 2 ^ n := by
  rw [← Int128.bits_toInt, rshift_bits a n hn, toInt_sshiftRight, Int.shiftRight_eq_div_pow,
    Int128.bits_toInt]
  rfl

lemma ge_iff (a b : Int128) : int128Ge a b ↔ b.value ≤ a.value := by
  unfold int128Ge Int128.value
  have ha := a.lo.isLt
  have hb := b.lo.isLt
  simp only [Bool.or_eq_true, Bool.and_eq_true, beq_iff_eq, slt_iff_toInt_lt, ule_iff_toNat_le,
    ← toInt_inj]
  omega

lemma lt_iff (a b : Int128) : int128Lt a b ↔ a.value < b.value := by
  unfold int128Lt
  rw [Bool.not_eq_true', Bool.eq_false_iff, Ne, ge_iff, Int.not_le]

lemma eq_iff (a b : Int128) : int128Eq a b ↔ a.value = b.value := by
  unfold int128Eq Int128.value
  have ha := a.lo.isLt
  have hb := b.lo.isLt
  simp only [Bool.and_eq_true, beq_iff_eq, ← toInt_inj (x := a.hi), ← toNat_inj]
  omega

/-- **`Int128` computes modulo `2 ^ 128`, shifts by rounding down and orders as the integers.** -/
theorem int128_exact (a b : Int128) :
    (int128Add a b).value = (a.value + b.value).bmod (2 ^ 128) ∧
    (int128Sub a b).value = (a.value - b.value).bmod (2 ^ 128) ∧
    (int128Neg a).value = (-a.value).bmod (2 ^ 128) ∧
    BitVec.ofInt 128 (int128And a b).value =
      BitVec.ofInt 128 a.value &&& BitVec.ofInt 128 b.value ∧
    (∀ n < 128, (int128Rshift a n).value = a.value / 2 ^ n) ∧
    (int128Ge a b ↔ b.value ≤ a.value) ∧ (int128Lt a b ↔ a.value < b.value) ∧
    (int128Le a b ↔ a.value ≤ b.value) ∧ (int128Gt a b ↔ b.value < a.value) ∧
    (int128Eq a b ↔ a.value = b.value) ∧
    (int128Min a b).value = min a.value b.value ∧
    (int128Max a b).value = max a.value b.value := by
  refine ⟨?_, ?_, ?_, ?_, rshift_value a, ge_iff a b, lt_iff a b, ge_iff b a, lt_iff b a,
    eq_iff a b, ?_, ?_⟩
  · rw [← Int128.bits_toInt, add_bits, toInt_add, Int128.bits_toInt, Int128.bits_toInt]
  · rw [← Int128.bits_toInt, sub_bits, toInt_sub, Int128.bits_toInt, Int128.bits_toInt]
  · rw [← Int128.bits_toInt, neg_bits, toInt_neg, Int128.bits_toInt]
  · simp only [← Int128.bits_toInt, ofInt_toInt, and_bits]
  · unfold int128Min int128Le
    rw [apply_ite Int128.value]
    simp only [ge_iff, min_def]
  · unfold int128Max
    rw [apply_ite Int128.value, max_comm]
    simp only [ge_iff, max_def]

end Wide
