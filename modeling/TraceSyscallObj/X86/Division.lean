import TraceSyscallObj.Lib.Checked
import TraceSyscallObj.Lib.Restoring
import TraceSyscallObj.X86.Flags
import TraceSyscallObj.X86.IntHelper

/-!
# The division helpers divide

The 8-bit, 16-bit and 32-bit helpers divide in a host type that is wide enough for the dividend and
check the quotient afterwards.  For the signed ones the host type of the dividend is as wide as the
dividend itself from 16 bits on, and then the least dividend divided by -1 has no quotient on the
host.

* `Outcome`: what a division of `n` by `d` has to give;
* `signed_outcome`: the host division meets it unless the host quotient overflows;
* `div64_spec`, `idiv64_spec`;
* `divides_iff`.
-/

namespace X86
open BitVec

/-! ## what the helpers are for -/

section
variable {t : Target}

def DivOp.width : DivOp t → Nat
  | .divb | .idivb => 8
  | .divw | .idivw => 16
  | .divl | .idivl => 32
  | .divq | .idivq => 64

def DivOp.signed : DivOp t → Bool
  | .divb | .divw | .divl | .divq => false
  | .idivb | .idivw | .idivl | .idivq => true

def value (signed : Bool) {w : Nat} (x : BitVec w) : Int := if signed then x.toInt else x.toNat

/-- `AX`, or the pair of the `w`-bit registers -/
def DivOp.dividend (op : DivOp t) (env : Regs t) : Int :=
  if op.width = 8 then value op.signed (env.eax.setWidth 16)
  else value op.signed (env.edx.setWidth op.width ++ env.eax.setWidth op.width)

def DivOp.divisor (op : DivOp t) (t0 : TargetUlong t) : Int := value op.signed (t0.setWidth op.width)

def DivOp.quotient (op : DivOp t) (env : Regs t) : Int := value op.signed (env.eax.setWidth op.width)

/-- in `AH`, or in the high register -/
def DivOp.remainder (op : DivOp t) (env : Regs t) : Int :=
  if op.width = 8 then value op.signed ((env.eax >>> 8).setWidth op.width)
  else value op.signed (env.edx.setWidth op.width)

def holds (signed : Bool) (w : Nat) (x : Int) : Prop :=
  if signed then fits w x = true else 0 ≤ x ∧ x < (2 ^ w : Nat)

structure DivOp.Divides (op : DivOp t) (env : Regs t) (t0 : TargetUlong t) : Prop where
  raises : op.divisor t0 = 0 ∨ ¬ holds op.signed op.width ((op.dividend env).tdiv (op.divisor t0)) →
    op.run env t0 = .error .divz
  stores : op.divisor t0 ≠ 0 → holds op.signed op.width ((op.dividend env).tdiv (op.divisor t0)) →
    ∃ env', op.run env t0 = .ok env' ∧
      op.dividend env = op.divisor t0 * op.quotient env' + op.remainder env' ∧
      (op.remainder env').natAbs < (op.divisor t0).natAbs ∧
      (op.remainder env' = 0 ∨ (op.remainder env' < 0 ↔ op.dividend env < 0))
end

/-! ## the arithmetic -/

/-- quotient and remainder of `n` by `d` as words -/
structure Outcome (signed : Bool) (w : Nat) (n d : Int)
    (res : Except DivFault (BitVec w × BitVec w)) : Prop where
  raises : d = 0 ∨ ¬ holds signed w (n.tdiv d) → res = .error .divz
  stores : d ≠ 0 → holds signed w (n.tdiv d) →
    ∃ q r, res = .ok (q, r) ∧ value signed q = n.tdiv d ∧ value signed r = n.tmod d

lemma tmod_natAbs (n d : Int) : n.tmod d =
    if n < 0 then -((n.natAbs % d.natAbs : Nat) : Int) else (n.natAbs % d.natAbs : Nat) := by
  have habs : (n.tmod d).natAbs = n.natAbs % d.natAbs := Int.natAbs_tmod n d
  by_cases hn : n < 0
  · rw [if_pos hn]
    have hneg := Int.tmod_nonneg d (show 0 ≤ -n by omega)
    rw [Int.neg_tmod] at hneg
    omega
  · rw [if_neg hn]
    have := Int.tmod_nonneg d (show 0 ≤ n by omega)
    omega

lemma tmod_bound (n : Int) {d : Int} (hd : d ≠ 0) :
    (n.tmod d).natAbs < d.natAbs ∧ (n.tmod d = 0 ∨ (n.tmod d < 0 ↔ n < 0)) := by
  have hlt := Nat.mod_lt n.natAbs (Int.natAbs_pos.mpr hd)
  rw [tmod_natAbs]
  split <;> omega

lemma Outcome.divides {t : Target} (op : DivOp t) {env : Regs t} {t0 : TargetUlong t}
    {res : Except DivFault (BitVec op.width × BitVec op.width)}
    (h : Outcome op.signed op.width (op.dividend env) (op.divisor t0) res)
    {store : BitVec op.width → BitVec op.width → Regs t}
    (hrun : op.run env t0 = res.map fun qr => store qr.1 qr.2)
    (hstore : ∀ q r, op.quotient (store q r) = value op.signed q ∧
      op.remainder (store q r) = value op.signed r) : op.Divides env t0 := by
  constructor
  · intro hd
    rw [hrun, h.raises hd]
    rfl
  · intro hd hfits
    obtain ⟨q, r, hres, hq, hr⟩ := h.stores hd hfits
    refine ⟨store q r, by rw [hrun, hres]; rfl, ?_⟩
    rw [(hstore q r).1, (hstore q r).2, hq, hr]
    exact ⟨(Int.mul_tdiv_add_tmod _ _).symm, tmod_bound _ hd⟩

lemma fits_iff (w : Nat) (x : Int) :
    fits w x = true ↔ -((2 ^ (w - 1) : Nat) : Int) ≤ x ∧ x < (2 ^ (w - 1) : Nat) := by
  unfold fits
  rw [Bool.and_eq_true, decide_eq_true_iff, decide_eq_true_iff]

section
variable {N k : Nat}

lemma bmod_of_fits (hk : 0 < k) {x : Int} (hx : fits k x = true) : x.bmod (2 ^ k) = x := by
  rw [fits_iff] at hx
  have hpow := two_pow_eq hk
  refine Int.bmod_eq_of_le ?_ ?_ <;> rw [hpow] <;> omega

lemma fits_bmod (hk : 0 < k) (x : Int) : fits k (x.bmod (2 ^ k)) = true := by
  rw [fits_iff]
  have hpow := two_pow_eq hk
  have h1 := Int.le_bmod (x := x) (Nat.two_pow_pos k)
  have h2 := Int.bmod_lt (x := x) (Nat.two_pow_pos k)
  omega

lemma toInt_fits (hk : 0 < k) (x : BitVec k) : fits k x.toInt = true := by
  rw [toInt_eq_toNat_bmod]
  exact fits_bmod hk _

lemma toInt_cut (hkN : k ≤ N) (x : BitVec N) : (x.setWidth k).toInt = x.toInt.bmod (2 ^ k) := by
  rw [toInt_setWidth, toInt_eq_toNat_bmod,
    Int.bmod_bmod_of_dvd (Nat.pow_dvd_pow 2 hkN)]

/-- `q != (int8_t)q` and the like -/
lemma cut_signExtend (hk : 0 < k) (hkN : k ≤ N) (x : BitVec N) :
    x = (x.setWidth k).signExtend N ↔ fits k x.toInt = true := by
  rw [← toInt_inj, toInt_signExtend_of_le hkN, toInt_cut hkN]
  constructor
  · intro h
    rw [h]
    exact fits_bmod hk _
  · exact fun h => (bmod_of_fits hk h).symm

/-! ## host divisions -/

section
variable (num den : BitVec N)

lemma umod_eq : umod num den = (udiv num den).map fun _ => num % den := by
  unfold umod udiv
  split <;> rfl

lemma smod_eq : smod num den = (sdiv num den).map fun _ => num.srem den := by
  unfold smod sdiv
  split <;> rfl
end

/-- a signed helper: divide, then check the quotient -/
def signedCore (k : Nat) (num den : BitVec N) : Except DivFault (BitVec k × BitVec k) := do
  if den = 0 then .error .divz
  let q ← sdiv num den
  let r ← smod num den
  if q ≠ (q.setWidth k).signExtend N then .error .divz
  return (q.setWidth k, r.setWidth k)

lemma toInt_eq_zero (den : BitVec N) : den = 0 ↔ den.toInt = 0 := by
  rw [← toInt_inj]
  exact Iff.of_eq (congrArg (den.toInt = ·) toInt_zero)

lemma eq_intMin_iff (hN : 0 < N) (x : BitVec N) :
    x = BitVec.intMin N ↔ x.toInt = -((2 ^ (N - 1) : Nat) : Int) := by
  rw [← toInt_inj, toInt_intMin_of_pos hN]
  norm_cast

lemma eq_neg_one_iff (hN : 0 < N) (x : BitVec N) : x = -1 ↔ x.toInt = -1 := by
  rw [← toInt_inj, show (-1 : BitVec N) = -1#N from rfl, neg_one_eq_allOnes,
    toInt_allOnes, if_pos hN]

lemma overflow_quotient (hk : 0 < k) (hkN : k < N) :
    ¬ fits k ((-((2 ^ (N - 1) : Nat) : Int)).tdiv (-1)) = true := by
  have hlt : 2 ^ (k - 1) < 2 ^ (N - 1) := Nat.pow_lt_pow_right (by decide) (by omega)
  rw [Int.tdiv_neg, Int.tdiv_one, fits_iff]
  omega

variable {num den : BitVec N}

lemma signedCore_zero (hden : den = 0) : signedCore k num den = .error .divz := by
  unfold signedCore
  rw [if_pos hden]
  rfl

lemma signedCore_overflow (hN : 0 < N)
    (h : num = BitVec.intMin N ∧ den = -1) : signedCore k num den = .error .undefined := by
  have hden : den ≠ 0 := by
    rw [ne_eq, toInt_eq_zero, (eq_neg_one_iff hN den).mp h.2]
    decide
  unfold signedCore
  rw [if_neg hden]
  unfold sdiv
  rw [if_pos (.inr h)]
  rfl

lemma signedCore_eq (hden : den ≠ 0) (h : ¬ (num = BitVec.intMin N ∧ den = -1)) :
    signedCore k num den =
      if num.sdiv den ≠ ((num.sdiv den).setWidth k).signExtend N then .error .divz
      else .ok ((num.sdiv den).setWidth k, (num.srem den).setWidth k) := by
  have hdef : ¬ (den = 0 ∨ (num = BitVec.intMin N ∧ den = -1)) := fun hc => hc.elim hden h
  unfold signedCore
  rw [if_neg hden]
  unfold sdiv smod
  rw [if_neg hdef, if_neg hdef]
  rfl

/-- **the host division is right unless its quotient overflows** -/
theorem signed_outcome (hk : 0 < k) (hkN : k < N)
    (hden : fits k den.toInt = true) (hover : ¬ (num = BitVec.intMin N ∧ den = -1)) :
    Outcome true k num.toInt den.toInt (signedCore k num den) := by
  by_cases hzero : den = 0
  · exact ⟨fun _ => signedCore_zero hzero, fun hd => absurd ((toInt_eq_zero den).mp hzero) hd⟩
  have hd : den.toInt ≠ 0 := fun h0 => hzero ((toInt_eq_zero den).mpr h0)
  have hq := toInt_sdiv_of_ne_or_ne num den (Decidable.not_and_iff_or_not.mp hover)
  have hr := toInt_srem num den
  rw [signedCore_eq hzero hover]
  constructor
  · intro hbad
    rw [if_pos]
    rw [ne_eq, cut_signExtend hk (by omega), hq]
    exact hbad.resolve_left hd
  · intro _ hfits
    rw [if_neg]
    · refine ⟨_, _, rfl, ?_, ?_⟩
      · show ((num.sdiv den).setWidth k).toInt = _
        rw [toInt_cut (by omega), hq, bmod_of_fits hk hfits]
      show ((num.srem den).setWidth k).toInt = _
      have hbound := (tmod_bound num.toInt hd).1
      rw [fits_iff] at hden
      rw [toInt_cut (by omega), hr, bmod_of_fits hk]
      rw [fits_iff]
      omega
    · rw [ne_eq, cut_signExtend hk (by omega), hq]
      exact fun hne => hne hfits

def unsignedCore (k : Nat) (num den : BitVec N) : Except DivFault (BitVec k × BitVec k) := do
  if den = 0 then .error .divz
  let q ← udiv num den
  let r ← umod num den
  if 2 ^ k ≤ q.toNat then .error .divz
  return (q.setWidth k, r.setWidth k)

lemma unsignedCore_zero (hden : den = 0) : unsignedCore k num den = .error .divz := by
  unfold unsignedCore
  rw [if_pos hden]
  rfl

lemma unsignedCore_eq (hden : den ≠ 0) :
    unsignedCore k num den =
      if 2 ^ k ≤ (num / den).toNat then .error .divz
      else .ok ((num / den).setWidth k, (num % den).setWidth k) := by
  unfold unsignedCore
  rw [if_neg hden]
  unfold udiv umod
  rw [if_neg hden, if_neg hden]
  rfl

lemma unsigned_outcome (hden : den.toNat < 2 ^ k) :
    Outcome false k num.toNat den.toNat (unsignedCore k num den) := by
  have hzero : den = 0 ↔ den.toNat = 0 := by
    rw [← toNat_inj]
    exact Iff.of_eq (congrArg (den.toNat = ·) toNat_zero)
  have hq : ((num.toNat : Int).tdiv den.toNat) = (num.toNat / den.toNat : Nat) := rfl
  have hr : ((num.toNat : Int).tmod den.toNat) = (num.toNat % den.toNat : Nat) := rfl
  by_cases hd : den = 0
  · refine ⟨fun _ => unsignedCore_zero hd, fun hne => ?_⟩
    exact absurd (Int.natCast_eq_zero.mpr (hzero.mp hd)) hne
  have hd' : den.toNat ≠ 0 := fun h => hd (hzero.mpr h)
  rw [unsignedCore_eq hd, toNat_udiv]
  constructor
  · intro hbad
    rw [if_pos]
    have hbad : ¬ (0 ≤ ((num.toNat : Int).tdiv den.toNat) ∧
        ((num.toNat : Int).tdiv den.toNat) < (2 ^ k : Nat)) :=
      hbad.resolve_left (fun h => hd' (Int.natCast_eq_zero.mp h))
    generalize num.toNat / den.toNat = q at *
    omega
  · intro _ hfits
    have hfits : 0 ≤ ((num.toNat : Int).tdiv den.toNat) ∧
        ((num.toNat : Int).tdiv den.toNat) < (2 ^ k : Nat) := hfits
    rw [if_neg (by omega)]
    refine ⟨_, _, rfl, ?_, ?_⟩
    · show (((num / den).setWidth k).toNat : Int) = _
      rw [toNat_setWidth, toNat_udiv, Nat.mod_eq_of_lt (by omega), hq]
    · show (((num % den).setWidth k).toNat : Int) = _
      have hlt := Nat.mod_lt num.toNat (Nat.pos_of_ne_zero hd')
      rw [toNat_setWidth, toNat_umod, Nat.mod_eq_of_lt (by omega), hr]
end

/-! ## registers -/

section
variable {n : Nat}

lemma getLsbD_mask (k i : Nat) :
    (BitVec.ofNat n (2 ^ k - 1)).getLsbD i = (decide (i < n) && decide (i < k)) := by
  rw [getLsbD_ofNat, Nat.testBit_two_pow_sub_one]

/-- `x & 0xff` and the like -/
lemma and_mask (k : Nat) (x : BitVec n) :
    x &&& BitVec.ofNat n (2 ^ k - 1) = (x.setWidth k).setWidth n := by
  refine eq_of_getLsbD_eq fun i hi => ?_
  rw [getLsbD_and, getLsbD_mask, getLsbD_setWidth, getLsbD_setWidth,
    decide_eq_true hi, Bool.true_and, Bool.true_and, Bool.and_comm]

lemma or_shift_eq_append {k m : Nat} (lo hi : BitVec k) (hm : k + k ≤ m) :
    (lo.setWidth m ||| hi.setWidth m <<< k).setWidth (k + k) = hi ++ lo := by
  refine eq_of_getLsbD_eq fun i hi' => ?_
  rw [getLsbD_append]
  have him : i < m := by omega
  by_cases hk : i < k
  · simp [hk, hi', him]
  · simp [hi', him, getLsbD_of_ge lo i (by omega)]
end

section
variable {t : Target} (env : Regs t)

lemma lt_bits {i : Nat} (hi : i < 32) : i < t.bits := by
  cases t
  · exact hi
  · exact Nat.lt_trans hi (by decide)

lemma getLsbD_keep (x : TargetUlong t) {i : Nat} (hi : i < 16) :
    (x &&& ~~~(0xffff : TargetUlong t)).getLsbD i = false := by
  have hmask : (0xffff : TargetUlong t) = BitVec.ofNat t.bits (2 ^ 16 - 1) := rfl
  rw [hmask, getLsbD_and, BitVec.getLsbD_not, getLsbD_mask]
  simp [hi]

lemma storeByte_low (q r : BitVec 8) :
    (storeByte env (q.setWidth 32) (r.setWidth 32)).eax.setWidth 8 = q := by
  refine eq_of_getLsbD_eq fun i hi => ?_
  have hbits : i < t.bits := lt_bits (by omega)
  rw [getLsbD_setWidth]
  show (_ && ((env.eax &&& ~~~(0xffff : TargetUlong t)) ||| _ ||| _).getLsbD i) = _
  rw [getLsbD_or, getLsbD_or, getLsbD_keep _ (by omega)]
  simp [hi, hbits]

lemma storeByte_high (q r : BitVec 8) :
    ((storeByte env (q.setWidth 32) (r.setWidth 32)).eax >>> 8).setWidth 8 = r := by
  refine eq_of_getLsbD_eq fun i hi => ?_
  have hbits : 8 + i < t.bits := lt_bits (by omega)
  rw [getLsbD_setWidth, getLsbD_ushiftRight]
  show (_ && ((env.eax &&& ~~~(0xffff : TargetUlong t)) ||| _ ||| _).getLsbD (8 + i)) = _
  rw [getLsbD_or, getLsbD_or, getLsbD_keep _ (by omega)]
  have h32 : 8 + i < 32 ∧ i < 32 := by omega
  simp [hi, hbits, h32]

lemma setWidth_replace (x : TargetUlong t) (q : BitVec 16) :
    ((x &&& ~~~(0xffff : TargetUlong t)) ||| (q.setWidth 32).setWidth t.bits).setWidth 16 = q := by
  refine eq_of_getLsbD_eq fun i hi => ?_
  have hbits : i < t.bits := lt_bits (by omega)
  rw [getLsbD_setWidth, getLsbD_or, getLsbD_keep _ hi]
  simp [hi, hbits]

lemma setWidth_back (q : BitVec 32) : (q.setWidth t.bits).setWidth 32 = q := by
  refine eq_of_getLsbD_eq fun i hi => ?_
  have hbits : i < t.bits := lt_bits hi
  simp [hi, hbits]

lemma dividend_word :
    ((env.eax &&& (0xffff : TargetUlong t)) ||| (env.edx &&& (0xffff : TargetUlong t)) <<< 16).setWidth 32 =
      env.edx.setWidth 16 ++ env.eax.setWidth 16 := by
  have hmask : (0xffff : TargetUlong t) = BitVec.ofNat t.bits (2 ^ 16 - 1) := rfl
  rw [hmask, and_mask, and_mask]
  exact or_shift_eq_append (k := 16) _ _ (by cases t <;> decide)

lemma dividend_long :
    (env.eax.setWidth 32).setWidth 64 ||| (env.edx.setWidth 32).setWidth 64 <<< 32 =
      env.edx.setWidth 32 ++ env.eax.setWidth 32 := by
  have h := or_shift_eq_append (env.eax.setWidth 32) (env.edx.setWidth 32) (Nat.le_refl 64)
  exact h

/-! ## the helpers up to 32 bits -/

/-- `helper_divb_AL` and `helper_divw_AX` -/
def maskedUnsigned (limit num den : BitVec 32) (store : BitVec 32 → BitVec 32 → Regs t) :
    Except DivFault (Regs t) := do
  if den = 0 then .error .divz
  let q ← udiv num den
  if q > limit then .error .divz
  let q := q &&& limit
  let r := (← umod num den) &&& limit
  return store q r

/-- `helper_idivb_AL` and `helper_idivw_AX` -/
def maskedSigned (k : Nat) (limit num den : BitVec 32) (store : BitVec 32 → BitVec 32 → Regs t) :
    Except DivFault (Regs t) := do
  if den = 0 then .error .divz
  let q ← sdiv num den
  if q ≠ (q.setWidth k).signExtend 32 then .error .divz
  let q := q &&& limit
  let r := (← smod num den) &&& limit
  return store q r

lemma maskedUnsigned_eq {k : Nat} (hk : k < 32) (num den : BitVec 32)
    (store : BitVec 32 → BitVec 32 → Regs t) :
    maskedUnsigned (BitVec.ofNat 32 (2 ^ k - 1)) num den store =
      (unsignedCore k num den).map fun qr => store (qr.1.setWidth 32) (qr.2.setWidth 32) := by
  have hover : ∀ q : BitVec 32, q > BitVec.ofNat 32 (2 ^ k - 1) ↔ 2 ^ k ≤ q.toNat := by
    intro q
    have := Nat.two_pow_pos k
    have := Nat.pow_lt_pow_right (show 1 < 2 by decide) hk
    rw [gt_iff_lt, lt_def, toNat_ofNat]
    omega
  unfold maskedUnsigned unsignedCore
  by_cases hden : den = 0
  · rw [if_pos hden, if_pos hden]
    rfl
  rw [if_neg hden, if_neg hden, umod_eq]
  cases udiv num den with
  | error e => rfl
  | ok q =>
    show (if q > _ then _ else _) = Except.map _ (if 2 ^ k ≤ q.toNat then _ else _)
    by_cases hq : 2 ^ k ≤ q.toNat
    · rw [if_pos ((hover q).mpr hq), if_pos hq]
      rfl
    · rw [if_neg (fun h => hq ((hover q).mp h)), if_neg hq]
      show Except.ok (store _ _) = Except.ok (store _ _)
      rw [and_mask, and_mask]

lemma maskedSigned_eq (k : Nat) (num den : BitVec 32) (store : BitVec 32 → BitVec 32 → Regs t) :
    maskedSigned k (BitVec.ofNat 32 (2 ^ k - 1)) num den store =
      (signedCore k num den).map fun qr => store (qr.1.setWidth 32) (qr.2.setWidth 32) := by
  unfold maskedSigned signedCore
  by_cases hden : den = 0
  · rw [if_pos hden, if_pos hden]
    rfl
  rw [if_neg hden, if_neg hden, smod_eq]
  cases sdiv num den with
  | error e => rfl
  | ok q =>
    show (if q ≠ _ then _ else _) = Except.map _ (if q ≠ _ then _ else _)
    split
    · rfl
    · show Except.ok (store _ _) = Except.ok (store _ _)
      rw [and_mask, and_mask]

variable (t0 : TargetUlong t)

def storeLong (q r : BitVec 32) : Regs t := { eax := q.setWidth t.bits, edx := r.setWidth t.bits }

lemma helperDivbAL_eq : helperDivbAL env t0 =
    (unsignedCore 8 (env.eax.setWidth 32 &&& 0xffff) (t0.setWidth 32 &&& 0xff)).map
      fun qr => storeByte env (qr.1.setWidth 32) (qr.2.setWidth 32) :=
  maskedUnsigned_eq (show 8 < 32 by decide) _ _ (storeByte env)

lemma helperDivwAX_eq : helperDivwAX env t0 =
    (unsignedCore 16 (env.edx.setWidth 16 ++ env.eax.setWidth 16) (t0.setWidth 32 &&& 0xffff)).map
      fun qr => storeWord env (qr.1.setWidth 32) (qr.2.setWidth 32) := by
  rw [← dividend_word]
  exact maskedUnsigned_eq (show 16 < 32 by decide) _ _ (storeWord env)

lemma helperIdivbAL_eq : helperIdivbAL env t0 =
    (signedCore 8 ((env.eax.setWidth 16).signExtend 32) ((t0.setWidth 8).signExtend 32)).map
      fun qr => storeByte env (qr.1.setWidth 32) (qr.2.setWidth 32) :=
  maskedSigned_eq 8 _ _ (storeByte env)

lemma helperIdivwAX_eq : helperIdivwAX env t0 =
    (signedCore 16 (env.edx.setWidth 16 ++ env.eax.setWidth 16)
      ((t0.setWidth 16).signExtend 32)).map
      fun qr => storeWord env (qr.1.setWidth 32) (qr.2.setWidth 32) := by
  rw [← dividend_word]
  exact maskedSigned_eq 16 _ _ (storeWord env)

lemma helperDivlEAX_eq : helperDivlEAX env t0 =
    (unsignedCore 32 (env.edx.setWidth 32 ++ env.eax.setWidth 32)
      ((t0.setWidth 32).setWidth 64)).map fun qr => storeLong qr.1 qr.2 := by
  unfold helperDivlEAX
  rw [dividend_long]
  generalize env.edx.setWidth 32 ++ env.eax.setWidth 32 = num
  generalize t0.setWidth 32 = den
  have hzero : den.setWidth 64 = 0 ↔ den = 0 := by
    constructor
    · intro h
      have := congrArg (BitVec.setWidth 32) h
      simpa using this
    · intro h
      rw [h]
      rfl
  unfold unsignedCore
  by_cases hden : den = 0
  · rw [if_pos hden, if_pos (hzero.mpr hden)]
    rfl
  rw [if_neg hden, if_neg fun h => hden (hzero.mp h), umod_eq]
  cases udiv num (den.setWidth 64) with
  | error e => rfl
  | ok q =>
    show (if q > 0xffffffff then _ else _) = Except.map _ (if 2 ^ 32 ≤ q.toNat then _ else _)
    by_cases hq : 2 ^ 32 ≤ q.toNat
    · rw [if_pos (show q > 0xffffffff from hq), if_pos hq]
      rfl
    · rw [if_neg (show ¬ q > 0xffffffff from hq), if_neg hq]
      rfl

lemma helperIdivlEAX_eq : helperIdivlEAX env t0 =
    (signedCore 32 (env.edx.setWidth 32 ++ env.eax.setWidth 32)
      ((t0.setWidth 32).signExtend 64)).map fun qr => storeLong qr.1 qr.2 := by
  unfold helperIdivlEAX
  rw [dividend_long]
  generalize env.edx.setWidth 32 ++ env.eax.setWidth 32 = num
  generalize t0.setWidth 32 = den
  have hzero : den.signExtend 64 = 0 ↔ den = 0 := by
    rw [toInt_eq_zero, toInt_eq_zero, toInt_signExtend_of_le (by decide)]
  unfold signedCore
  by_cases hden : den = 0
  · rw [if_pos hden, if_pos (hzero.mpr hden)]
    rfl
  rw [if_neg hden, if_neg fun h => hden (hzero.mp h), smod_eq]
  cases sdiv num (den.signExtend 64) with
  | error e => rfl
  | ok q =>
    show (if q ≠ _ then _ else _) = Except.map _ (if q ≠ _ then _ else _)
    split <;> rfl

variable {env t0} (op : DivOp t) {N : Nat} (num den : BitVec N)
  (store : BitVec op.width → BitVec op.width → Regs t)

lemma DivOp.width_pos (op : DivOp t) : 0 < op.width := by
  cases op <;> exact Nat.zero_lt_succ _

lemma unsigned_divides (hs : op.signed = false) (hnum : op.dividend env = num.toNat)
    (hden : op.divisor t0 = den.toNat)
    (hrun : op.run env t0 = (unsignedCore op.width num den).map fun qr => store qr.1 qr.2)
    (hstore : ∀ q r, op.quotient (store q r) = value op.signed q ∧
      op.remainder (store q r) = value op.signed r) : op.Divides env t0 := by
  refine Outcome.divides op ?_ hrun hstore
  rw [hnum, hden, hs]
  refine unsigned_outcome ?_
  have hlt : op.divisor t0 < (2 ^ op.width : Nat) := by
    unfold DivOp.divisor value
    rw [hs]
    exact Int.ofNat_lt.mpr (BitVec.isLt _)
  rw [hden] at hlt
  exact Int.ofNat_lt.mp hlt

/-- **a signed helper is right unless the host division overflows** -/
theorem signed_divides_iff (hs : op.signed = true) (hN : op.width < N)
    (hnum : op.dividend env = num.toInt) (hden : op.divisor t0 = den.toInt)
    (hrun : op.run env t0 = (signedCore op.width num den).map fun qr => store qr.1 qr.2)
    (hstore : ∀ q r, op.quotient (store q r) = value op.signed q ∧
      op.remainder (store q r) = value op.signed r) :
    op.Divides env t0 ↔
      ¬ (op.dividend env = -((2 ^ (N - 1) : Nat) : Int) ∧ op.divisor t0 = -1) := by
  have hfits : fits op.width den.toInt = true := by
    rw [← hden]
    unfold DivOp.divisor value
    rw [hs]
    exact toInt_fits op.width_pos _
  have hextreme : num = BitVec.intMin N ∧ den = -1 ↔
      op.dividend env = -((2 ^ (N - 1) : Nat) : Int) ∧ op.divisor t0 = -1 := by
    rw [eq_intMin_iff (by omega), eq_neg_one_iff (by omega), hnum, hden]
  constructor
  · intro h hover
    have hraises := h.raises (.inr (by
      rw [hover.1, hover.2, hs]
      exact overflow_quotient op.width_pos hN))
    rw [hrun, signedCore_overflow (by omega) (hextreme.mpr hover)] at hraises
    cases hraises
  · intro hover
    refine Outcome.divides op ?_ hrun hstore
    rw [hnum, hden, hs]
    exact signed_outcome op.width_pos hN hfits fun h => hover (hextreme.mp h)

lemma value_mask {k n : Nat} (hk : k ≤ 32) (x : BitVec n) :
    value false (x.setWidth k) = (x.setWidth 32 &&& BitVec.ofNat 32 (2 ^ k - 1)).toNat := by
  rw [and_mask, toNat_setWidth_of_le hk, setWidth_setWidth_of_le _ hk]
  rfl

lemma value_signExtend {k m : Nat} (hk : k ≤ m) (x : BitVec k) :
    value true x = (x.signExtend m).toInt := by
  rw [toInt_signExtend_of_le hk]
  rfl

lemma storeByte_reads (signed : Bool) (q r : BitVec 8) :
    let env' := storeByte env (q.setWidth 32) (r.setWidth 32)
    value signed (env'.eax.setWidth 8) = value signed q ∧
      value signed ((env'.eax >>> 8).setWidth 8) = value signed r :=
  ⟨congrArg _ (storeByte_low env q r), congrArg _ (storeByte_high env q r)⟩

lemma storeWord_reads (signed : Bool) (q r : BitVec 16) :
    let env' := storeWord env (q.setWidth 32) (r.setWidth 32)
    value signed (env'.eax.setWidth 16) = value signed q ∧
      value signed (env'.edx.setWidth 16) = value signed r :=
  ⟨congrArg _ (setWidth_replace _ q), congrArg _ (setWidth_replace _ r)⟩

lemma storeLong_reads (signed : Bool) (q r : BitVec 32) :
    value signed ((storeLong (t := t) q r).eax.setWidth 32) = value signed q ∧
      value signed ((storeLong (t := t) q r).edx.setWidth 32) = value signed r :=
  ⟨congrArg _ (setWidth_back q), congrArg _ (setWidth_back r)⟩

lemma divb_divides : (DivOp.divb (t := t)).Divides env t0 :=
  unsigned_divides .divb (env.eax.setWidth 32 &&& 0xffff) (t0.setWidth 32 &&& 0xff)
    (fun q r => storeByte env (q.setWidth 32) (r.setWidth 32)) rfl
    (value_mask (show 16 ≤ 32 by decide) env.eax) (value_mask (show 8 ≤ 32 by decide) t0)
    (helperDivbAL_eq env t0) (storeByte_reads false)

lemma divw_divides : (DivOp.divw (t := t)).Divides env t0 :=
  unsigned_divides .divw (env.edx.setWidth 16 ++ env.eax.setWidth 16)
    (t0.setWidth 32 &&& 0xffff) (fun q r => storeWord env (q.setWidth 32) (r.setWidth 32)) rfl rfl
    (value_mask (show 16 ≤ 32 by decide) t0) (helperDivwAX_eq env t0) (storeWord_reads false)

lemma divl_divides : (DivOp.divl (t := t)).Divides env t0 := by
  have hden : (DivOp.divl (t := t)).divisor t0 = ((t0.setWidth 32).setWidth 64).toNat := by
    rfl
  exact unsigned_divides .divl (env.edx.setWidth 32 ++ env.eax.setWidth 32) _ storeLong
    rfl rfl hden (helperDivlEAX_eq env t0) (storeLong_reads false)

lemma idivb_divides : (DivOp.idivb (t := t)).Divides env t0 := by
  refine (signed_divides_iff .idivb ((env.eax.setWidth 16).signExtend 32)
    ((t0.setWidth 8).signExtend 32) (fun q r => storeByte env (q.setWidth 32) (r.setWidth 32)) rfl
    (show 8 < 32 by decide) (value_signExtend (show 16 ≤ 32 by decide) (env.eax.setWidth 16))
    (value_signExtend (show 8 ≤ 32 by decide) (t0.setWidth 8)) (helperIdivbAL_eq env t0)
    (storeByte_reads true)).mpr fun hover => ?_
  have hmin : (env.eax.setWidth 16).toInt = -((2 ^ (32 - 1) : Nat) : Int) := hover.1
  have hfits := toInt_fits (show 0 < 16 by decide) (env.eax.setWidth 16)
  rw [fits_iff] at hfits
  omega

lemma DivOp.dividend_pair (h : op.width ≠ 8) (hs : op.signed = true) : op.dividend env =
    (env.edx.setWidth op.width ++ env.eax.setWidth op.width).toInt := by
  unfold DivOp.dividend value
  rw [if_neg h, if_pos hs]

lemma idivw_dividend : (DivOp.idivw (t := t)).dividend env =
    (env.edx.setWidth 16 ++ env.eax.setWidth 16 : BitVec 32).toInt :=
  DivOp.dividend_pair .idivw (show 16 ≠ 8 by decide) rfl

lemma idivl_dividend : (DivOp.idivl (t := t)).dividend env =
    (env.edx.setWidth 32 ++ env.eax.setWidth 32 : BitVec 64).toInt :=
  DivOp.dividend_pair .idivl (show 32 ≠ 8 by decide) rfl

lemma idivw_divides_iff : (DivOp.idivw (t := t)).Divides env t0 ↔
    ¬ ((DivOp.idivw (t := t)).dividend env = -((2 ^ 31 : Nat) : Int) ∧
      (DivOp.idivw (t := t)).divisor t0 = -1) :=
  signed_divides_iff .idivw _ _ (fun q r => storeWord env (q.setWidth 32) (r.setWidth 32)) rfl
    (show 16 < 32 by decide) idivw_dividend
    (value_signExtend (show 16 ≤ 32 by decide) (t0.setWidth 16)) (helperIdivwAX_eq env t0)
    (storeWord_reads true)

lemma idivl_divides_iff : (DivOp.idivl (t := t)).Divides env t0 ↔
    ¬ ((DivOp.idivl (t := t)).dividend env = -((2 ^ 63 : Nat) : Int) ∧
      (DivOp.idivl (t := t)).divisor t0 = -1) :=
  signed_divides_iff (t := t) .idivl _ _ storeLong rfl (show 32 < 64 by decide) idivl_dividend
    (value_signExtend (show 32 ≤ 64 by decide) (t0.setWidth 32)) (helperIdivlEAX_eq env t0)
    (storeLong_reads true)
end

/-! ## 128 bits by 64 bits -/

def Pair.nat (p : Pair) : Nat := p.high.toNat * 2 ^ 64 + p.low.toNat

variable {x : BitVec 64}

lemma toNat_shift_in {y : BitVec 64} (hy : y.toNat ≤ 1) :
    (x <<< 1 ||| y).toNat = 2 * x.toNat % 2 ^ 64 + y.toNat := by
  have heven : 2 * x.toNat % 2 ^ 64 = 2 ^ 1 * (x.toNat % 2 ^ 63) := by omega
  rw [toNat_or, toNat_shiftLeft, Nat.shiftLeft_eq, Nat.mul_comm, heven,
    ← Nat.two_pow_add_eq_or_of_lt (by omega)]

lemma toNat_top (x : BitVec 64) : (x >>> 63).toNat = x.toNat / 2 ^ 63 := by
  rw [toNat_ushiftRight, Nat.shiftRight_eq_div_pow]

variable {b : BitVec 64} {p : Pair}

lemma div64Step_eq (hlt : p.high < b) :
    ((div64Step b p).high.toNat, (div64Step b p).low.toNat) =
        Restoring.step 64 b.toNat (p.high.toNat, p.low.toNat) ∧ (div64Step b p).high < b := by
  have hlt' : p.high.toNat < b.toNat := hlt
  have htop := toNat_top p.low
  have ha1 := toNat_shift_in (x := p.high) (y := p.low >>> 63) (by omega)
  have hcarry : p.high >>> 63 ≠ 0 ↔ 2 ^ 63 ≤ p.high.toNat := by
    have h0 : (p.high >>> 63).toNat = p.high.toNat / 2 ^ 63 := toNat_top p.high
    rw [ne_eq, ← toNat_inj]
    show ¬ (_ = 0) ↔ _
    omega
  have hs1 : (p.low <<< 1 ||| 1).toNat = 2 * p.low.toNat % 2 ^ 64 + 1 := toNat_shift_in (by decide)
  have hs0 : (p.low <<< 1 ||| 0).toNat = 2 * p.low.toNat % 2 ^ 64 + 0 := toNat_shift_in (by decide)
  unfold div64Step Restoring.step
  generalize p.high <<< 1 ||| p.low >>> 63 = a1 at *
  by_cases hge : b.toNat ≤ 2 * p.high.toNat + p.low.toNat / 2 ^ (64 - 1)
  · have hcond : p.high >>> 63 ≠ 0 ∨ a1 ≥ b := by
      rw [hcarry, ge_iff_le, le_def]
      omega
    have hsub : (a1 - b).toNat = 2 * p.high.toNat + p.low.toNat / 2 ^ (64 - 1) - b.toNat := by
      rw [toNat_sub]
      omega
    rw [if_pos hcond, if_pos hge]
    refine ⟨Prod.ext hsub ?_, ?_⟩
    · dsimp only
      omega
    · rw [lt_def]
      dsimp only
      omega
  · have hcond : ¬ (p.high >>> 63 ≠ 0 ∨ a1 ≥ b) := by
      rw [hcarry, ge_iff_le, le_def]
      omega
    rw [if_neg hcond, if_neg hge]
    refine ⟨Prod.ext ?_ ?_, ?_⟩
    · dsimp only
      omega
    · dsimp only
      omega
    · rw [lt_def]
      dsimp only
      omega

lemma div64Step_iterate (n : Nat) (hlt : p.high < b) :
    (((div64Step b)^[n] p).high.toNat, ((div64Step b)^[n] p).low.toNat) =
        (Restoring.step 64 b.toNat)^[n] (p.high.toNat, p.low.toNat) := by
  induction n generalizing p with
  | zero => rfl
  | succ n ih =>
    rw [Function.iterate_succ_apply, Function.iterate_succ_apply, ← (div64Step_eq hlt).1]
    exact ih (div64Step_eq hlt).2

lemma div64_overflow (hb : b ≠ 0) (hge : b ≤ p.high) : div64 p b = .ok none := by
  have hb' : b.toNat ≠ 0 := fun h => hb (eq_of_toNat_eq h)
  have hhigh : p.high ≠ 0 := by
    rintro h
    rw [h] at hge
    exact hb' (Nat.le_zero.mp hge)
  unfold div64
  rw [if_neg hhigh, if_pos hge]
  rfl

/-- **the bit-serial division divides** -/
theorem div64_spec (hlt : p.high < b) :
    ∃ r, div64 p b = .ok (some r) ∧ r.low.toNat = p.nat / b.toNat ∧
      r.high.toNat = p.nat % b.toNat := by
  have hlt' : p.high.toNat < b.toNat := hlt
  have hb : b ≠ 0 := by
    rintro rfl
    exact absurd hlt' (Nat.not_lt_zero _)
  unfold div64
  by_cases hzero : p.high = 0
  · rw [if_pos hzero]
    unfold udiv umod
    rw [if_neg hb, if_neg hb]
    have hnat : p.nat = p.low.toNat := by
      unfold Pair.nat
      rw [hzero]
      show 0 * _ + _ = _
      omega
    exact ⟨_, rfl, by rw [hnat]; rfl, by rw [hnat]; rfl⟩
  · rw [if_neg hzero, if_neg (by rw [ge_iff_le, le_def]; omega)]
    refine ⟨_, rfl, ?_⟩
    have hrun := div64Step_iterate 64 hlt
    rw [Restoring.run_step hlt' p.low.isLt] at hrun
    exact ⟨congrArg Prod.snd hrun, congrArg Prod.fst hrun⟩

lemma tdiv_natAbs (n d : Int) : n.tdiv d =
    if decide (n < 0) ^^ decide (d < 0) then -((n.natAbs / d.natAbs : Nat) : Int)
    else (n.natAbs / d.natAbs : Nat) := by
  have habs : (n.tdiv d).natAbs = n.natAbs / d.natAbs := Int.natAbs_tdiv n d
  by_cases hn : n < 0 <;> by_cases hd : d < 0
  · have := Int.tdiv_nonneg_of_nonpos_of_nonpos (Int.le_of_lt hn) (Int.le_of_lt hd)
    rw [decide_eq_true hn, decide_eq_true hd, if_neg (by decide)]
    omega
  · have := Int.tdiv_nonneg (show 0 ≤ -n by omega) (Int.not_lt.mp hd)
    rw [Int.neg_tdiv] at this
    rw [decide_eq_true hn, decide_eq_false hd, Bool.xor_false, if_pos rfl]
    omega
  · have := Int.tdiv_nonpos_of_nonneg_of_nonpos (Int.not_lt.mp hn) (Int.le_of_lt hd)
    rw [decide_eq_false hn, decide_eq_true hd, Bool.false_xor, if_pos rfl]
    omega
  · have := Int.tdiv_nonneg (Int.not_lt.mp hn) (Int.not_lt.mp hd)
    rw [decide_eq_false hn, decide_eq_false hd, Bool.xor_false, if_neg Bool.false_ne_true]
    omega

def Pair.int (p : Pair) : Int := p.high.toInt * 2 ^ 64 + p.low.toNat

lemma neg128_nat (hp : p.nat ≠ 0) : (neg128 p).nat = 2 ^ 128 - p.nat := by
  have hl : (~~~p.low + 1).toNat = (2 ^ 64 - p.low.toNat) % 2 ^ 64 := by
    rw [toNat_add, toNat_not]
    show (_ + 1) % _ = _
    omega
  have hh : (~~~p.high).toNat = 2 ^ 64 - 1 - p.high.toNat := toNat_not
  have hh1 : (~~~p.high + 1).toNat = (2 ^ 64 - p.high.toNat) % 2 ^ 64 := by
    show (_ + 1) % _ = _
    omega
  have hzero : ∀ x : BitVec 64, x + 0 = x := BitVec.add_zero
  have hcarry : ~~~p.low + 1 < 1 ↔ p.low.toNat = 0 := by
    rw [lt_def]
    show _ < 1 ↔ _
    omega
  unfold neg128 add128 Pair.nat at *
  dsimp only
  rw [hzero]
  by_cases h0 : p.low.toNat = 0
  · rw [if_pos (hcarry.mpr h0)]
    omega
  · rw [if_neg (fun h => h0 (hcarry.mp h))]
    omega

lemma idiv64_dividend (p : Pair) :
    p.high.slt 0 = decide (p.int < 0) ∧
      (if p.high.slt 0 then neg128 p else p).nat = p.int.natAbs := by
  have hcases := toInt_cases (by decide) p.high
  have hneg : p.high.slt 0 = decide (p.int < 0) := by
    rw [slt_eq_decide, decide_eq_decide]
    show p.high.toInt < 0 ↔ _
    unfold Pair.int
    omega
  refine ⟨hneg, ?_⟩
  by_cases h : p.int < 0
  · rw [hneg, if_pos (decide_eq_true h)]
    unfold Pair.int at *
    have hp : p.nat ≠ 0 := by
      unfold Pair.nat
      omega
    rw [neg128_nat hp]
    unfold Pair.nat
    omega
  · rw [hneg, if_neg (by simpa using h)]
    unfold Pair.int Pair.nat at *
    omega

lemma idiv64_divisor (b : BitVec 64) :
    b.slt 0 = decide (b.toInt < 0) ∧ (if b.slt 0 then -b else b).toNat = b.toInt.natAbs := by
  have hcases := toInt_cases (by decide) b
  have hneg : b.slt 0 = decide (b.toInt < 0) := by
    rfl
  refine ⟨hneg, ?_⟩
  by_cases h : b.toInt < 0
  · rw [hneg, if_pos (decide_eq_true h), toNat_neg]
    omega
  · rw [hneg, if_neg (by simpa using h)]
    omega

def pairResult (p : Option Pair) : Except DivFault (BitVec 64 × BitVec 64) :=
  match p with
  | none => .error .divz
  | some p => .ok (p.low, p.high)

lemma toInt_of_lt (h : x.toNat < 2 ^ 63) : x.toInt = x.toNat := by
  have := toInt_cases (by decide) x
  omega

lemma toInt_neg_of_le (h : x.toNat ≤ 2 ^ 63) : (-x).toInt = -x.toNat := by
  have hneg : (-x).toNat = (2 ^ 64 - x.toNat) % 2 ^ 64 := toNat_neg x
  have := toInt_cases (by decide) (-x)
  omega

lemma Outcome.overflow {signed : Bool} {w : Nat} {n d : Int}
    (hbig : ¬ holds signed w (n.tdiv d)) : Outcome signed w n d (.error .divz) :=
  ⟨fun _ => rfl, fun _ h => absurd h hbig⟩

lemma Outcome.checked {signed : Bool} {n d : Int} {big : Prop} [Decidable big] (hd : d ≠ 0)
    (hbig : big ↔ ¬ holds signed 64 (n.tdiv d)) (hq : ¬ big → value signed p.low = n.tdiv d)
    (hr : value signed p.high = n.tmod d) :
    ∃ o, (if big then pure none else pure (some p) : Except DivFault (Option Pair)) = .ok o ∧
      Outcome signed 64 n d (pairResult o) := by
  by_cases h : big
  · rw [if_pos h]
    exact ⟨none, rfl, .overflow (hbig.mp h)⟩
  · rw [if_neg h]
    refine ⟨some p, rfl, fun hbad => ?_, fun _ _ => ⟨_, _, rfl, hq h, hr⟩⟩
    exact absurd (hbig.mpr (hbad.resolve_left hd)) h

lemma divq_outcome (hb : b ≠ 0) :
    ∃ o, div64 p b = .ok o ∧ Outcome false 64 p.nat b.toNat (pairResult o) := by
  have hb' : 0 < b.toNat := Nat.pos_of_ne_zero fun h => hb (eq_of_toNat_eq h)
  have hq : ((p.nat : Int).tdiv b.toNat) = (p.nat / b.toNat : Nat) := rfl
  by_cases hge : b ≤ p.high
  · refine ⟨none, div64_overflow hb hge, Outcome.overflow ?_⟩
    have hbig : 2 ^ 64 ≤ p.nat / b.toNat := by
      rw [Nat.le_div_iff_mul_le hb', Nat.mul_comm]
      exact Nat.le_trans (Nat.mul_le_mul_right _ hge) (Nat.le_add_right _ _)
    show ¬ (_ ∧ _)
    generalize p.nat / b.toNat = q at *
    omega
  · obtain ⟨r, hr, hlow, hhigh⟩ := div64_spec (BitVec.not_le.mp hge)
    refine ⟨some r, hr, fun hbad => ?_, fun _ _ => ⟨r.low, r.high, rfl, ?_, ?_⟩⟩
    · have hlt := r.low.isLt
      refine absurd hbad (not_or.mpr ⟨by omega, not_not.mpr ?_⟩)
      show _ ∧ _
      generalize p.nat / b.toNat = q at *
      omega
    · show (r.low.toNat : Int) = _
      rw [hlow, hq]
    · show (r.high.toNat : Int) = _
      rw [hhigh]
      rfl

lemma idivq_outcome (hb : b ≠ 0) :
    ∃ o, idiv64 p b = .ok o ∧ Outcome true 64 p.int b.toInt (pairResult o) := by
  obtain ⟨hsa, hnum⟩ := idiv64_dividend p
  obtain ⟨hsb, hden⟩ := idiv64_divisor b
  have hb0 : b.toInt ≠ 0 := fun h => hb ((toInt_eq_zero b).mpr h)
  have hble : b.toInt.natAbs ≤ 2 ^ 63 := by
    have := toInt_cases (by decide) b
    omega
  have hdiv := tdiv_natAbs p.int b.toInt
  have hmod := tmod_natAbs p.int b.toInt
  unfold idiv64
  dsimp only
  rw [hsa, hsb] at *
  generalize (if decide (p.int < 0) = true then neg128 p else p) = p' at *
  generalize (if decide (b.toInt < 0) = true then -b else b) = b' at *
  generalize p.int = n at *
  have hb' : 0 < b'.toNat := by omega
  by_cases hge : b' ≤ p'.high
  · have hne : b' ≠ 0 := by
      rintro rfl
      exact absurd hb' (by decide)
    rw [div64_overflow hne hge]
    refine ⟨none, rfl, Outcome.overflow ?_⟩
    have hbig : 2 ^ 64 ≤ n.natAbs / b.toInt.natAbs := by
      rw [← hnum, ← hden, Nat.le_div_iff_mul_le hb', Nat.mul_comm]
      exact Nat.le_trans (Nat.mul_le_mul_right _ hge) (Nat.le_add_right _ _)
    show ¬ fits 64 _ = true
    rw [fits_iff, hdiv]
    generalize n.natAbs / b.toInt.natAbs = q at *
    split <;> omega
  obtain ⟨r, hr, hlow, hhigh⟩ := div64_spec (BitVec.not_le.mp hge)
  rw [hr]
  rw [hnum, hden] at hlow hhigh
  have hmodlt := Nat.mod_lt n.natAbs (show 0 < b.toInt.natAbs by omega)
  have hrem : (if decide (n < 0) = true then -r.high else r.high).toInt = n.tmod b.toInt := by
    rw [hmod]
    by_cases hn : n < 0
    · rw [if_pos (decide_eq_true hn), if_pos hn, toInt_neg_of_le (by omega), hhigh]
    · rw [if_neg (by simpa using hn), if_neg hn, toInt_of_lt (by omega), hhigh]
  have hhalf : ((1 : BitVec 64) <<< 63).toNat = 2 ^ 63 := by decide
  show ∃ o, (if (decide (n < 0) ^^ decide (b.toInt < 0)) = true then
    (if r.low > (1 : BitVec 64) <<< 63 then _ else _) else
    (if r.low ≥ (1 : BitVec 64) <<< 63 then _ else _)) = _ ∧ _
  by_cases hs : (decide (n < 0) ^^ decide (b.toInt < 0)) = true
  · rw [if_pos hs] at hdiv ⊢
    rw [← hlow] at hdiv
    refine Outcome.checked (p := ⟨-r.low, _⟩) hb0 ?_ (fun hbig => ?_) hrem
    · show _ ↔ ¬ fits 64 _ = true
      rw [gt_iff_lt, lt_def, fits_iff]
      omega
    · rw [gt_iff_lt, lt_def] at hbig
      show (-r.low).toInt = _
      rw [hdiv, toInt_neg_of_le (by omega)]
  · rw [if_neg hs] at hdiv ⊢
    rw [← hlow] at hdiv
    refine Outcome.checked (p := ⟨r.low, _⟩) hb0 ?_ (fun hbig => ?_) hrem
    · show _ ↔ ¬ fits 64 _ = true
      rw [ge_iff_le, le_def, fits_iff]
      omega
    · rw [ge_iff_le, le_def] at hbig
      show r.low.toInt = _
      rw [hdiv, toInt_of_lt (by omega)]

lemma append_nat (p : Pair) : (p.high ++ p.low).toNat = p.nat := by
  unfold Pair.nat
  rw [toNat_append, ← Nat.shiftLeft_add_eq_or_of_lt p.low.isLt, Nat.shiftLeft_eq]

lemma append_int (p : Pair) : (p.high ++ p.low).toInt = p.int := by
  have hcases := toInt_cases (by decide) p.high
  have hcases' := toInt_cases (by decide) (p.high ++ p.low)
  have happ := append_nat p
  unfold Pair.int
  unfold Pair.nat at happ
  omega

section
variable (env : Regs .x86_64) (t0 : BitVec 64)

lemma setWidth_self (x : TargetUlong .x86_64) : BitVec.setWidth 64 x = x := setWidth_eq x

lemma divq_dividend : DivOp.divq.dividend env = (Pair.mk env.eax env.edx).nat := by
  exact congrArg Int.ofNat (append_nat ⟨env.eax, env.edx⟩)

lemma idivq_dividend : DivOp.idivq.dividend env = (Pair.mk env.eax env.edx).int := by
  exact append_int ⟨env.eax, env.edx⟩

lemma storePair_reads (signed : Bool) (q r : BitVec 64) :
    value signed (BitVec.setWidth 64 (Regs.mk (t := .x86_64) q r).eax) = value signed q ∧
      value signed (BitVec.setWidth 64 (Regs.mk (t := .x86_64) q r).edx) = value signed r :=
  ⟨congrArg _ (setWidth_self q), congrArg _ (setWidth_self r)⟩

/-- the body of `helper_divq_EAX` and `helper_idivq_EAX` -/
lemma pair_run {p : Pair} {div : Pair → BitVec 64 → Except DivFault (Option Pair)}
    {o : Option Pair} (hzero : t0 ≠ 0) (ho : div p t0 = .ok o) :
    (do if t0 = 0 then Except.error .divz
        storePair (← div p t0)) = (pairResult o).map fun qr => ⟨qr.1, qr.2⟩ := by
  rw [if_neg hzero]
  rw [ho]
  cases o <;> rfl

lemma divq_divides : DivOp.divq.Divides env t0 := by
  by_cases hzero : t0 = 0
  · subst hzero
    exact ⟨fun _ => rfl, fun hne => absurd rfl hne⟩
  obtain ⟨o, ho, hout⟩ := divq_outcome (p := ⟨env.eax, env.edx⟩) hzero
  rw [← divq_dividend] at hout
  exact Outcome.divides .divq hout (pair_run t0 hzero ho) (storePair_reads false)

lemma idivq_divides : DivOp.idivq.Divides env t0 := by
  by_cases hzero : t0 = 0
  · subst hzero
    exact ⟨fun _ => rfl, fun hne => absurd rfl hne⟩
  obtain ⟨o, ho, hout⟩ := idivq_outcome (p := ⟨env.eax, env.edx⟩) hzero
  rw [← idivq_dividend] at hout
  exact Outcome.divides .idivq hout (pair_run t0 hzero ho) (storePair_reads true)
end

/-! ## all helpers -/

/-- the least dividend of two words by -1 -/
def DivOp.HostOverflow {t : Target} (op : DivOp t) (env : Regs t) (t0 : TargetUlong t) : Prop :=
  op.signed = true ∧ (op.width = 16 ∨ op.width = 32) ∧
    op.dividend env = -((2 ^ (2 * op.width - 1) : Nat) : Int) ∧ op.divisor t0 = -1

section
variable {t : Target} {env : Regs t} {t0 : TargetUlong t} {op : DivOp t}

lemma DivOp.hostOverflow_iff (hs : op.signed = true)
    (hw : op.width = 16 ∨ op.width = 32) : op.HostOverflow env t0 ↔
      op.dividend env = -((2 ^ (2 * op.width - 1) : Nat) : Int) ∧ op.divisor t0 = -1 :=
  ⟨fun h => h.2.2, fun h => ⟨hs, hw, h⟩⟩

lemma DivOp.not_hostOverflow
    (h : ¬ (op.signed = true ∧ (op.width = 16 ∨ op.width = 32))) : ¬ op.HostOverflow env t0 :=
  fun hover => h ⟨hover.1, hover.2.1⟩

/-- **every helper divides, unless the host cannot** -/
theorem divides_iff (op : DivOp t) (env : Regs t) (t0 : TargetUlong t) :
    op.Divides env t0 ↔ ¬ op.HostOverflow env t0 := by
  cases op with
  | divb => exact iff_of_true divb_divides (DivOp.not_hostOverflow fun h => nomatch h.1)
  | divw => exact iff_of_true divw_divides (DivOp.not_hostOverflow fun h => nomatch h.1)
  | divl => exact iff_of_true divl_divides (DivOp.not_hostOverflow fun h => nomatch h.1)
  | divq => exact iff_of_true (divq_divides env t0) (DivOp.not_hostOverflow fun h => nomatch h.1)
  | idivb => exact iff_of_true idivb_divides (DivOp.not_hostOverflow fun h => by
      rcases h.2 with h | h <;> cases h)
  | idivw =>
    rw [idivw_divides_iff, DivOp.hostOverflow_iff rfl (.inl rfl)]
    rfl
  | idivl =>
    rw [idivl_divides_iff, DivOp.hostOverflow_iff rfl (.inr rfl)]
    rfl
  | idivq => exact iff_of_true (idivq_divides env t0) (DivOp.not_hostOverflow fun h => by
      rcases h.2 with h | h <;> cases h)

/-- `idiv %cx` with `dx:ax = 0x8000:0` and `cx = 0xffff`, and `idiv %ecx` likewise -/
theorem least_dividend_undefined :
    (DivOp.idivw (t := .x86_64)).run { eax := 0, edx := 0x8000 } 0xffff = .error .undefined ∧
      (DivOp.idivl (t := .x86_64)).run { eax := 0, edx := 0x80000000 } 0xffffffff =
        .error .undefined := by
  decide +kernel
end

end X86
