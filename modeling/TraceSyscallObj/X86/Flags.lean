import TraceSyscallObj.X86.CcHelper

/-!
# The flags of the stored operations

The translator stores the result of an operation and one operand; the helpers compute the flags from
them when they are needed.  `Insn.flags` says what the flags are, on unbounded integers.

* `Insn`, `Insn.flags`: the operations and their flags, `af` where it is defined;
* `Stored`: what the translator stores, with any garbage above the operand;
* `flags_architectural`.
-/

namespace X86
open BitVec
variable {t : Target}

/-! ## the architecture -/

structure Flags where
  cf : Bool
  pf : Bool
  zf : Bool
  sf : Bool
  of : Bool
  /-- `none` where the architecture leaves it open -/
  af : Option Bool

/-- additions, subtractions, logic and shifts by one -/
inductive Insn
  | add
  | adc
  | sub
  | sbb
  | inc
  | dec
  | and
  | or
  | xor
  | shl
  | sar
  deriving DecidableEq

section
variable {w : Nat}

/-- an even number of ones in the low byte -/
def parity (r : BitVec w) : Bool := (List.range 8).countP (r.getLsbD ·) % 2 == 0

/-- a signed number of `w` bits -/
def fits (w : Nat) (x : Int) : Bool := -(2 ^ (w - 1) : Nat) ≤ x && x < (2 ^ (w - 1) : Nat)

def Flags.ofResult (r : BitVec w) (cf of : Bool) (af : Option Bool) : Flags :=
  { cf := cf, pf := parity r, zf := r == 0, sf := r.msb, of := of, af := af }

/-- `a + b + c` -/
def sumFlags (a b : BitVec w) (c : Bool) : Flags :=
  .ofResult (a + b + (BitVec.ofBool c).setWidth w) (2 ^ w ≤ a.toNat + b.toNat + c.toNat)
    (!fits w (a.toInt + b.toInt + c.toNat)) (some (16 ≤ a.toNat % 16 + b.toNat % 16 + c.toNat))

/-- `a - b - c` -/
def differenceFlags (a b : BitVec w) (c : Bool) : Flags :=
  .ofResult (a - b - (BitVec.ofBool c).setWidth w) (a.toNat < b.toNat + c.toNat)
    (!fits w (a.toInt - b.toInt - c.toNat)) (some (a.toNat % 16 < b.toNat % 16 + c.toNat))

def Insn.result (i : Insn) (a b : BitVec w) (c : Bool) : BitVec w :=
  match i with
  | .add => a + b
  | .adc => a + b + (BitVec.ofBool c).setWidth w
  | .sub => a - b
  | .sbb => a - b - (BitVec.ofBool c).setWidth w
  | .inc => a + 1
  | .dec => a - 1
  | .and => a &&& b
  | .or => a ||| b
  | .xor => a ^^^ b
  | .shl => a <<< 1
  | .sar => a.sshiftRight 1

def Insn.flags (i : Insn) (a b : BitVec w) (c : Bool) : Flags :=
  match i with
  | .add => sumFlags a b false
  | .adc => sumFlags a b c
  | .sub => differenceFlags a b false
  | .sbb => differenceFlags a b c
  | .inc => { sumFlags a 1 false with cf := c }
  | .dec => { differenceFlags a 1 false with cf := c }
  | .and => .ofResult (a &&& b) false false none
  | .or => .ofResult (a ||| b) false false none
  | .xor => .ofResult (a ^^^ b) false false none
  -- the bit shifted out, and whether the sign changes
  | .shl => .ofResult (a <<< 1) a.msb (a.msb ^^ (a <<< 1).msb) none
  | .sar => .ofResult (a.sshiftRight 1) (a.getLsbD 0) false none
end

def flag (b : Bool) (mask : BitVec 32) : BitVec 32 := if b then mask else 0

def Flags.word (f : Flags) (af : Bool) : BitVec 32 :=
  flag f.cf CC_C ||| flag f.pf CC_P ||| flag af CC_A ||| flag f.zf CC_Z ||| flag f.sf CC_S |||
    flag f.of CC_O

/-! ## what is stored -/

def Insn.ccOp (i : Insn) (s : OpSize) : CCOp :=
  match i with
  | .add => .add s
  | .adc => .adc s
  | .sub => .sub s
  | .sbb => .sbb s
  | .inc => .inc s
  | .dec => .dec s
  | .and | .or | .xor => .logic s
  | .shl => .shl s
  | .sar => .sar s

/-- `cc_dst`, `cc_src` and `cc_src2` after the operation on `a` and `b` with carry-in `c`; only the
carry is stored as a whole word -/
structure Stored {t : Target} (i : Insn) {w : Nat} (a b : BitVec w) (c : Bool)
    (dst src1 src2 : TargetUlong t) : Prop where
  dst : dst.setWidth w = i.result a b c
  second : i = .add ∨ i = .adc ∨ i = .sub ∨ i = .sbb → src1.setWidth w = b
  shifted : i = .shl ∨ i = .sar → src1.setWidth w = a
  kept : i = .inc ∨ i = .dec → src1 = (BitVec.ofBool c).setWidth t.bits
  carry : i = .adc ∨ i = .sbb → src2 = (BitVec.ofBool c).setWidth t.bits

/-! ## single flags -/

lemma parityTable_spec : ∀ i < 256,
    parityTable.getD i 0 = flag ((List.range 8).countP (i.testBit ·) % 2 == 0) CC_P := by
  decide +kernel

section
variable {w : Nat} (dst : BitVec w)

lemma pfOf_eq : pfOf dst = flag (parity dst) CC_P := by
  unfold pfOf parity
  rw [parityTable_spec _ (Nat.mod_lt _ (by decide))]
  have hbits : ∀ i ∈ List.range 8, (dst.toNat % 256).testBit i = dst.getLsbD i := by
    intro i hi
    have hlt : i < 8 := List.mem_range.mp hi
    rw [show (256 : Nat) = 2 ^ 8 from rfl, Nat.testBit_mod_two_pow, decide_eq_true hlt]
    rfl
  congr 3
  exact List.countP_congr fun i hi => by rw [hbits i hi]

lemma zfOf_eq : zfOf dst = flag (dst == 0) CC_Z := by
  unfold zfOf int flag
  cases dst == 0 <;> rfl

lemma lshift_msb (x : BitVec w) (hw : 0 < w) (hwt : w ≤ t.bits) {k : Nat}
    (hk : 0 < k) (hk32 : k ≤ 32) (hkt : k ≤ t.bits) :
    (lshift t (x.setWidth t.bits) (k - w)).setWidth 32 &&& BitVec.twoPow 32 (k - 1) =
      flag x.msb (BitVec.twoPow 32 (k - 1)) := by
  have hbit : ((lshift t (x.setWidth t.bits) (k - w)).setWidth 32).getLsbD (k - 1) = x.msb := by
    rw [getLsbD_setWidth, decide_eq_true (by omega : k - 1 < 32),
      msb_eq_getLsbD_last]
    unfold lshift
    split
    next hn =>
      have hamount : ((k : Int) - w).toNat = k - w := by omega
      rw [hamount, getLsbD_shiftLeft, getLsbD_setWidth]
      have h1 : k - 1 - (k - w) = w - 1 := by omega
      rw [h1, decide_eq_true (by omega : k - 1 < t.bits),
        decide_eq_false (by omega : ¬ k - 1 < k - w), decide_eq_true (by omega : w - 1 < t.bits)]
      rfl
    next hn =>
      have hamount : (-((k : Int) - w)).toNat = w - k := by omega
      rw [hamount, getLsbD_sshiftRight]
      have h1 : w - k + (k - 1) = w - 1 := by omega
      rw [h1, decide_eq_false (by omega : ¬ t.bits ≤ k - 1), if_pos (by omega),
        getLsbD_setWidth, decide_eq_true (by omega : w - 1 < t.bits)]
      rfl
  rw [and_twoPow, hbit]
  rfl

lemma sfOf_eq (hw : 0 < w) (hwt : w ≤ t.bits) : sfOf t dst = flag dst.msb CC_S := by
  have h8 : 8 ≤ t.bits := by cases t <;> decide
  exact lshift_msb dst hw hwt (k := 8) (by decide) (by decide) h8

lemma ofOf_eq (x : BitVec w) (hw : 0 < w) (hwt : w ≤ t.bits) : ofOf t x = flag x.msb CC_O := by
  have h12 : 12 ≤ t.bits := by cases t <;> decide
  exact lshift_msb x hw hwt (k := 12) (by decide) (by decide) h12

lemma afOf_eq (dst src1 src2 : BitVec w) :
    afOf dst src1 src2 = flag ((dst ^^^ src1 ^^^ src2).getLsbD 4) CC_A := by
  unfold afOf
  rw [show CC_A = BitVec.twoPow 32 4 from rfl, and_twoPow, getLsbD_setWidth]
  rfl

lemma flag_mul (b : Bool) (mask : BitVec 32) : int b * mask = flag b mask := by
  cases b
  · exact zero_mul
  · exact BitVec.one_mul mask

/-! ## sums and differences -/

lemma mod_of_lt_two_mul {x n : Nat} (h : x < 2 * n) : x % n = if x < n then x else x - n := by
  split
  next hlt => exact Nat.mod_eq_of_lt hlt
  next hge => rw [Nat.mod_eq_sub_mod (by omega), Nat.mod_eq_of_lt (by omega)]

lemma toNat_carry (hw : 0 < w) (c : Bool) : ((BitVec.ofBool c).setWidth w).toNat = c.toNat := by
  rw [toNat_setWidth, toNat_ofBool]
  have h2 : 2 ^ 1 ≤ 2 ^ w := Nat.pow_le_pow_right (by decide) hw
  exact Nat.mod_eq_of_lt (by have := c.toNat_le; omega)

lemma toNat_sum (hw : 0 < w) (a b : BitVec w) (c : Bool) :
    (a + b + (BitVec.ofBool c).setWidth w).toNat =
      if a.toNat + b.toNat + c.toNat < 2 ^ w then a.toNat + b.toNat + c.toNat
      else a.toNat + b.toNat + c.toNat - 2 ^ w := by
  have hc := c.toNat_le
  rw [toNat_add, toNat_add, toNat_carry hw, Nat.mod_add_mod]
  exact mod_of_lt_two_mul (by omega)

lemma xor_decide (p q : Prop) [Decidable p] [Decidable q] :
    (decide p ^^ decide q) = decide (¬ (p ↔ q)) := by
  by_cases hp : p <;> by_cases hq : q <;> simp [hp]

lemma not_fits (w : Nat) (x : Int) :
    (!fits w x) = decide (¬ (-((2 ^ (w - 1) : Nat) : Int) ≤ x ∧ x < (2 ^ (w - 1) : Nat))) := by
  unfold fits
  rw [← Bool.decide_and, decide_not]

section
variable (hw : 0 < w)
include hw

lemma two_pow_eq : 2 ^ w = 2 * 2 ^ (w - 1) := by
  rw [← Nat.pow_succ', Nat.succ_eq_add_one, Nat.sub_add_cancel hw]

lemma toInt_cases (a : BitVec w) : a.toNat < 2 * 2 ^ (w - 1) ∧
      (2 ^ (w - 1) ≤ a.toNat ∧ a.toInt = a.toNat - 2 * (2 ^ (w - 1) : Nat) ∨
        a.toNat < 2 ^ (w - 1) ∧ a.toInt = a.toNat) := by
  have ha := a.isLt
  rw [two_pow_eq hw] at ha
  rw [toInt_eq_toNat_cond, two_pow_eq hw]
  split <;> omega

lemma sum_overflow (a b : BitVec w) (c : Bool) :
    ((b ^^^ a ^^^ -1) &&& (b ^^^ (a + b + (BitVec.ofBool c).setWidth w))).msb =
      !fits w (a.toInt + b.toInt + c.toNat) := by
  have hr := toNat_sum hw a b c
  generalize a + b + (BitVec.ofBool c).setWidth w = r at hr ⊢
  have ha := toInt_cases hw a
  have hb := toInt_cases hw b
  have hc := c.toNat_le
  have hm1 : (-1#w).msb = true := by
    rw [neg_one_eq_allOnes, msb_allOnes hw]
  have hm1 : (-1 : BitVec w).msb = true := hm1
  rw [msb_and, msb_xor, msb_xor, msb_xor, hm1, msb_eq_decide,
    msb_eq_decide, msb_eq_decide, xor_decide, xor_decide, Bool.xor_true, ← decide_not,
    ← Bool.decide_and, not_fits, decide_eq_decide]
  rw [two_pow_eq hw] at hr
  generalize 2 ^ (w - 1) = m at *
  split at hr <;> omega

lemma carry_ne_zero (c : Bool) : ((BitVec.ofBool c).setWidth w ≠ 0) = (c = true) := by
  have hc := toNat_carry hw c
  cases c with
  | true =>
    refine propext ⟨fun _ => rfl, fun _ h => ?_⟩
    rw [h] at hc
    cases hc.symm.trans toNat_zero
  | false => exact propext ⟨fun h => absurd (eq_of_toNat_eq hc) h, fun h => nomatch h⟩

lemma sum_carry (a b : BitVec w) (c : Bool) :
    (if c = true then decide (a + b + (BitVec.ofBool c).setWidth w ≤ b)
      else decide (a + b + (BitVec.ofBool c).setWidth w < b)) =
      decide (2 ^ w ≤ a.toNat + b.toNat + c.toNat) := by
  have hr := toNat_sum hw a b c
  cases c with
  | true =>
    rw [if_pos rfl, decide_eq_decide, le_def, hr, Bool.toNat_true]
    split <;> omega
  | false =>
    rw [if_neg Bool.false_ne_true, decide_eq_decide, lt_def, hr, Bool.toNat_false]
    split <;> omega

end

lemma sum_adjust (hw : 4 < w) (a b : BitVec w) (c : Bool) :
    ((a + b + (BitVec.ofBool c).setWidth w) ^^^ b ^^^ a).getLsbD 4 =
      decide (16 ≤ a.toNat % 16 + b.toNat % 16 + c.toNat) := by
  rw [getLsbD_xor, getLsbD_xor, getLsbD_add_add_bool hw]
  have hcarry : BitVec.carry 4 a b c = decide (16 ≤ a.toNat % 16 + b.toNat % 16 + c.toNat) := rfl
  rw [hcarry]
  cases a.getLsbD 4 <;> cases b.getLsbD 4 <;> simp

lemma difference_add (a b c : BitVec w) : a - b - c + b + c = a := by
  rw [BitVec.add_assoc, BitVec.add_comm b c, ← BitVec.add_assoc, BitVec.sub_add_cancel,
    BitVec.sub_add_cancel]

lemma sum_sub (a b c : BitVec w) : a + b + c - b - c = a := by
  rw [BitVec.add_assoc, BitVec.add_comm b c, ← BitVec.add_assoc, BitVec.add_sub_cancel,
    BitVec.add_sub_cancel]

lemma difference_overflow (hw : 0 < w) (a b : BitVec w) (c : Bool) :
    ((a ^^^ b) &&& (a ^^^ (a - b - (BitVec.ofBool c).setWidth w))).msb =
      !fits w (a.toInt - b.toInt - c.toNat) := by
  have hr := toNat_sum hw (a - b - (BitVec.ofBool c).setWidth w) b c
  rw [difference_add] at hr
  generalize a - b - (BitVec.ofBool c).setWidth w = r at hr ⊢
  have ha := toInt_cases hw a
  have hb := toInt_cases hw b
  have hc := c.toNat_le
  have hrlt := r.isLt
  rw [msb_and, msb_xor, msb_xor, msb_eq_decide, msb_eq_decide,
    msb_eq_decide, xor_decide, xor_decide, ← Bool.decide_and, not_fits, decide_eq_decide]
  rw [two_pow_eq hw] at hr hrlt
  generalize 2 ^ (w - 1) = m at *
  split at hr <;> omega

lemma difference_borrow (a b : BitVec w) (c : Bool) :
    (if c = true then decide (a ≤ b) else decide (a < b)) =
      decide (a.toNat < b.toNat + c.toNat) := by
  cases c with
  | true =>
    rw [if_pos rfl, decide_eq_decide]
    exact Nat.lt_succ_iff.symm
  | false =>
    rw [if_neg Bool.false_ne_true, decide_eq_decide]
    exact Iff.rfl

lemma difference_adjust (hw : 4 < w) (a b : BitVec w) (c : Bool) :
    ((a - b - (BitVec.ofBool c).setWidth w) ^^^ a ^^^ b).getLsbD 4 =
      decide (a.toNat % 16 < b.toNat % 16 + c.toNat) := by
  have hsum := toNat_sum (by omega) (a - b - (BitVec.ofBool c).setWidth w) b c
  have hadjust := sum_adjust hw (a - b - (BitVec.ofBool c).setWidth w) b c
  rw [difference_add] at hsum hadjust
  generalize a - b - (BitVec.ofBool c).setWidth w = r at *
  have hswap : r ^^^ a ^^^ b = a ^^^ b ^^^ r := by
    rw [xor_assoc, BitVec.xor_comm]
  have hpow : 2 ^ w = 16 * 2 ^ (w - 4) := by
    rw [show (16 : Nat) = 2 ^ 4 from rfl, ← Nat.pow_add]
    congr 1
    omega
  rw [hswap, hadjust, decide_eq_decide]
  generalize 2 ^ (w - 4) = m at *
  split at hsum <;> omega

/-! ## the functions of the template -/

section
variable (hw : 4 < w) (hwt : w ≤ t.bits) (a b : BitVec w) (c : Bool)
include hw hwt a b c

lemma computeAllAdc_eq :
    ∃ af, computeAllAdc t (a + b + (BitVec.ofBool c).setWidth w) b ((BitVec.ofBool c).setWidth w) =
      (sumFlags a b c).word af ∧ (sumFlags a b c).af = some af := by
  refine ⟨_, ?_, rfl⟩
  have hw0 : 0 < w := by omega
  unfold computeAllAdc
  simp only [sum_sub, carry_ne_zero hw0]
  rw [sum_carry hw0, pfOf_eq, afOf_eq, sum_adjust hw, zfOf_eq, sfOf_eq _ hw0 hwt, ofOf_eq _ hw0 hwt,
    sum_overflow hw0]
  rfl

lemma computeAllSbb_eq :
    ∃ af, computeAllSbb t (a - b - (BitVec.ofBool c).setWidth w) b ((BitVec.ofBool c).setWidth w) =
      (differenceFlags a b c).word af ∧ (differenceFlags a b c).af = some af := by
  refine ⟨_, ?_, rfl⟩
  have hw0 : 0 < w := by omega
  unfold computeAllSbb
  simp only [difference_add, carry_ne_zero hw0]
  rw [difference_borrow, pfOf_eq, afOf_eq, difference_adjust hw, zfOf_eq, sfOf_eq _ hw0 hwt,
    ofOf_eq _ hw0 hwt, difference_overflow hw0]
  rfl

end

lemma computeCAdc_eq (hw : 0 < w) (a b : BitVec w) (c : Bool) :
    computeCAdc (a + b + (BitVec.ofBool c).setWidth w) b ((BitVec.ofBool c).setWidth w) =
      int (sumFlags a b c).cf := by
  unfold computeCAdc
  simp only [carry_ne_zero hw]
  rw [sum_carry hw]
  rfl

lemma computeCSbb_eq (hw : 0 < w) (a b : BitVec w) (c : Bool) :
    computeCSbb (a - b - (BitVec.ofBool c).setWidth w) b ((BitVec.ofBool c).setWidth w) =
      int (differenceFlags a b c).cf := by
  unfold computeCSbb
  simp only [difference_add, carry_ne_zero hw]
  rw [difference_borrow]
  rfl

lemma carry_false : (BitVec.ofBool false).setWidth w = 0 := by
  exact eq_of_toNat_eq (by simp)

lemma sum_false (a b : BitVec w) : a + b + (BitVec.ofBool false).setWidth w = a + b := by
  rw [carry_false]
  exact BitVec.add_zero _

lemma difference_false (a b : BitVec w) : a - b - (BitVec.ofBool false).setWidth w = a - b := by
  rw [carry_false]
  exact BitVec.sub_zero _

lemma computeAllAdd_eq (dst src1 : BitVec w) :
    computeAllAdd t dst src1 = computeAllAdc t dst src1 0 := by
  unfold computeAllAdd computeAllAdc
  simp

lemma computeAllSub_eq (dst src2 : BitVec w) :
    computeAllSub t dst src2 = computeAllSbb t dst src2 0 := by
  unfold computeAllSub computeAllSbb
  simp

lemma toNat_one (hw : 1 < w) : (1 : BitVec w).toNat = 1 := by
  have h2 : 2 ^ 1 < 2 ^ w := Nat.pow_lt_pow_right (by decide) hw
  have hlt : 1 < 2 ^ w := by omega
  exact Nat.mod_eq_of_lt hlt

lemma toNat_signMask (hw : 1 < w) : (signMask : BitVec w).toNat = 2 ^ (w - 1) := by
  have hlt : 2 ^ (w - 1) < 2 ^ w := Nat.pow_lt_pow_right (by decide) (by omega)
  unfold signMask
  rw [toNat_shiftLeft, toNat_one hw, Nat.one_shiftLeft]
  exact Nat.mod_eq_of_lt hlt

lemma inc_overflow (hw : 1 < w) (a : BitVec w) :
    (a + 1 == signMask) = !fits w (a.toInt + (1 : BitVec w).toInt + (false.toNat : Int)) := by
  have hr := toNat_sum (by omega) a 1 false
  rw [sum_false] at hr
  have ha := toInt_cases (by omega) a
  have hb := toInt_cases (by omega) (1 : BitVec w)
  have hm : 2 ^ 1 ≤ 2 ^ (w - 1) := Nat.pow_le_pow_right (by decide) (by omega)
  rw [Bool.beq_eq_decide_eq, not_fits, decide_eq_decide, ← toNat_inj, toNat_signMask hw, hr]
  rw [toNat_one hw] at hb ⊢
  rw [Bool.toNat_false, two_pow_eq (by omega : 0 < w)] at *
  generalize 2 ^ (w - 1) = m at *
  split <;> omega

lemma dec_overflow (hw : 1 < w) (a : BitVec w) :
    (a - 1 == signMask - 1) = !fits w (a.toInt - (1 : BitVec w).toInt - (false.toNat : Int)) := by
  have ha := toInt_cases (by omega) a
  have hb := toInt_cases (by omega) (1 : BitVec w)
  have hm : 2 ^ 1 ≤ 2 ^ (w - 1) := Nat.pow_le_pow_right (by decide) (by omega)
  have hsub : a - 1 = signMask - 1 ↔ a = signMask :=
    ⟨fun h => by rw [← BitVec.sub_add_cancel a 1, h, BitVec.sub_add_cancel], fun h => by rw [h]⟩
  rw [Bool.beq_eq_decide_eq, not_fits, decide_eq_decide, hsub, ← toNat_inj, toNat_signMask hw]
  rw [toNat_one hw] at hb
  rw [Bool.toNat_false] at *
  generalize 2 ^ (w - 1) = m at *
  omega

lemma setWidth_carry (hw : 0 < w) (c : Bool) :
    ((BitVec.ofBool c).setWidth w).setWidth 32 = flag c CC_C := by
  refine eq_of_toNat_eq ?_
  rw [toNat_setWidth, toNat_carry hw]
  cases c <;> rfl

section
variable (hw : 4 < w) (hwt : w ≤ t.bits) (a : BitVec w) (c : Bool)
include hw hwt a c

lemma computeAllInc_eq : ∃ af, computeAllInc t (a + 1) ((BitVec.ofBool c).setWidth w) =
      ({ sumFlags a 1 false with cf := c } : Flags).word af ∧ (sumFlags a 1 false).af = some af := by
  refine ⟨_, ?_, rfl⟩
  have haf := sum_adjust hw a 1 false
  rw [sum_false, xor_assoc, BitVec.xor_comm 1 a, ← xor_assoc] at haf
  unfold computeAllInc
  simp only
  rw [show a + 1 - 1 = a from BitVec.add_sub_cancel a 1, setWidth_carry (by omega), pfOf_eq, afOf_eq,
    haf, zfOf_eq, sfOf_eq _ (by omega) hwt, inc_overflow (by omega), flag_mul]
  unfold Flags.word sumFlags
  rw [sum_false]
  rfl

lemma computeAllDec_eq : ∃ af, computeAllDec t (a - 1) ((BitVec.ofBool c).setWidth w) =
      ({ differenceFlags a 1 false with cf := c } : Flags).word af ∧
      (differenceFlags a 1 false).af = some af := by
  refine ⟨_, ?_, rfl⟩
  have haf := difference_adjust hw a 1 false
  rw [difference_false] at haf
  unfold computeAllDec
  simp only
  rw [show a - 1 + 1 = a from BitVec.sub_add_cancel a 1, setWidth_carry (by omega), pfOf_eq, afOf_eq,
    haf, zfOf_eq, sfOf_eq _ (by omega) hwt, dec_overflow (by omega), flag_mul]
  unfold Flags.word differenceFlags
  rw [difference_false]
  rfl

end

lemma computeAllLogic_eq (hw : 0 < w) (hwt : w ≤ t.bits) (r : BitVec w) :
    computeAllLogic t r = (Flags.ofResult r false false none).word false := by
  unfold computeAllLogic
  rw [pfOf_eq, zfOf_eq, sfOf_eq _ hw hwt]
  unfold Flags.word flag Flags.ofResult
  simp

lemma computeCShl_eq (a : BitVec w) : computeCShl a = flag a.msb CC_C := by
  unfold computeCShl
  rw [show CC_C = BitVec.twoPow 32 0 from rfl, and_twoPow, getLsbD_setWidth, msb_eq_getLsbD_last]
  rfl

lemma computeAllShl_eq (hw : 0 < w) (hwt : w ≤ t.bits) (a : BitVec w) :
    computeAllShl t (a <<< 1) a =
      (Flags.ofResult (a <<< 1) a.msb (a.msb ^^ (a <<< 1).msb) none).word false := by
  unfold computeAllShl
  rw [computeCShl_eq, pfOf_eq, zfOf_eq, sfOf_eq _ hw hwt, ofOf_eq _ hw hwt]
  unfold Flags.word flag Flags.ofResult
  simp

lemma computeAllSar_eq (hw : 0 < w) (hwt : w ≤ t.bits) (a : BitVec w) :
    computeAllSar t (a.sshiftRight 1) a =
      (Flags.ofResult (a.sshiftRight 1) (a.getLsbD 0) false none).word false := by
  have hcf : a.setWidth 32 &&& 1 = flag (a.getLsbD 0) CC_C := by
    rw [show (1 : BitVec 32) = BitVec.twoPow 32 0 from rfl, and_twoPow,
      getLsbD_setWidth]
    rfl
  unfold computeAllSar
  rw [hcf, pfOf_eq, zfOf_eq, sfOf_eq _ hw hwt, ofOf_eq _ hw hwt]
  unfold Flags.word flag Flags.ofResult
  simp
end

/-! ## all operations -/

lemma word_signExtend (f : Flags) (af : Bool) (t : Target) :
    (f.word af).signExtend t.bits = (f.word af).setWidth t.bits := by
  have hmsb : (f.word af).msb = false := by
    unfold Flags.word flag
    cases f.cf <;> cases f.pf <;> cases af <;> cases f.zf <;> cases f.sf <;> cases f.of <;> rfl
  exact signExtend_eq_setWidth_of_msb_false hmsb

lemma OpSize.bits_gt (s : OpSize) : 4 < s.bits := by cases s <;> decide

lemma sized_eq {s : OpSize} (hs : s.bits ≤ t.bits) (f : Nat → BitVec 32) :
    sized t s f = (f s.bits).signExtend t.bits := by
  unfold sized
  rw [if_neg]
  rintro ⟨rfl, rfl⟩
  exact absurd hs (by decide)

/-- a function of the template gives all flags -/
def Gives (f : Flags) (word : BitVec 32) : Prop :=
  ∃ af, word = f.word af ∧ ∀ x, f.af = some x → af = x

lemma Gives.of_some {f : Flags} {word : BitVec 32}
    (h : ∃ af, word = f.word af ∧ f.af = some af) : Gives f word := by
  obtain ⟨af, h1, h2⟩ := h
  exact ⟨af, h1, fun x hx => Option.some.inj (h2.symm.trans hx)⟩

lemma Gives.of_none {f : Flags} {word : BitVec 32} (h : word = f.word false)
    (haf : f.af = none) : Gives f word :=
  ⟨false, h, fun x hx => by rw [haf] at hx; cases hx⟩

lemma setWidth_setWidth_carry {s : OpSize} (hs : s.bits ≤ t.bits) (c : Bool) :
    ((BitVec.ofBool c).setWidth t.bits).setWidth s.bits = (BitVec.ofBool c).setWidth s.bits := by
  have hw := s.bits_gt
  have hw0 : 0 < s.bits := by omega
  refine eq_of_toNat_eq ?_
  have hlt := ((BitVec.ofBool c).setWidth s.bits).isLt
  rw [toNat_carry hw0] at hlt
  rw [toNat_setWidth, toNat_carry (by omega), toNat_carry hw0, Nat.mod_eq_of_lt hlt]

lemma int_signExtend (b : Bool) (t : Target) :
    (int b).signExtend t.bits = (BitVec.ofBool b).setWidth t.bits := by
  cases b <;> cases t <;> rfl

section
variable {s : OpSize} (hs : s.bits ≤ t.bits) {i : Insn} {a b : BitVec s.bits} {c : Bool}
  {dst src1 src2 : TargetUlong t} (h : Stored i a b c dst src1 src2)
include hs h

lemma stored_flags :
    ∃ word, helperCcComputeAll t dst src1 src2 (i.ccOp s) = word.signExtend t.bits ∧
      Gives (i.flags a b c) word := by
  have hw := s.bits_gt
  have hw0 : 0 < s.bits := by omega
  have hcarry := setWidth_setWidth_carry hs
  have hdst := h.dst
  cases i with
  | add =>
    refine ⟨_, sized_eq hs fun w => computeAllAdd t (dst.setWidth w) (src1.setWidth w),
      .of_some ?_⟩
    rw [hdst, h.second (by decide), computeAllAdd_eq]
    have hadc := computeAllAdc_eq hw hs a b false
    rw [sum_false, carry_false] at hadc
    exact hadc
  | adc =>
    refine ⟨_, sized_eq hs fun w => computeAllAdc t (dst.setWidth w) (src1.setWidth w) (src2.setWidth w),
      .of_some ?_⟩
    rw [hdst, h.second (by decide), h.carry (by decide), hcarry]
    exact computeAllAdc_eq hw hs a b c
  | sub =>
    refine ⟨_, sized_eq hs fun w => computeAllSub t (dst.setWidth w) (src1.setWidth w),
      .of_some ?_⟩
    rw [hdst, h.second (by decide), computeAllSub_eq]
    have hsbb := computeAllSbb_eq hw hs a b false
    rw [difference_false, carry_false] at hsbb
    exact hsbb
  | sbb =>
    refine ⟨_, sized_eq hs fun w => computeAllSbb t (dst.setWidth w) (src1.setWidth w) (src2.setWidth w),
      .of_some ?_⟩
    rw [hdst, h.second (by decide), h.carry (by decide), hcarry]
    exact computeAllSbb_eq hw hs a b c
  | inc =>
    refine ⟨_, sized_eq hs fun w => computeAllInc t (dst.setWidth w) (src1.setWidth w),
      .of_some ?_⟩
    rw [hdst, h.kept (by decide), hcarry]
    exact computeAllInc_eq hw hs a c
  | dec =>
    refine ⟨_, sized_eq hs fun w => computeAllDec t (dst.setWidth w) (src1.setWidth w),
      .of_some ?_⟩
    rw [hdst, h.kept (by decide), hcarry]
    exact computeAllDec_eq hw hs a c
  | and | or | xor =>
    refine ⟨_, sized_eq hs fun w => computeAllLogic t (dst.setWidth w),
      .of_none ?_ rfl⟩
    rw [hdst]
    exact computeAllLogic_eq hw0 hs _
  | shl =>
    refine ⟨_, sized_eq hs fun w => computeAllShl t (dst.setWidth w) (src1.setWidth w),
      .of_none ?_ rfl⟩
    rw [hdst, h.shifted (by decide)]
    exact computeAllShl_eq hw0 hs a
  | sar =>
    refine ⟨_, sized_eq hs fun w => computeAllSar t (dst.setWidth w) (src1.setWidth w),
      .of_none ?_ rfl⟩
    rw [hdst, h.shifted (by decide)]
    exact computeAllSar_eq hw0 hs a

lemma stored_carry :
    helperCcComputeC t dst src1 src2 (i.ccOp s) =
      (BitVec.ofBool (i.flags a b c).cf).setWidth t.bits := by
  have hw := s.bits_gt
  have hw0 : 0 < s.bits := by omega
  have hcarry := setWidth_setWidth_carry hs
  have hdst := h.dst
  cases i with
  | add =>
    refine (sized_eq hs fun w => computeCAdd (dst.setWidth w) (src1.setWidth w)).trans ?_
    rw [hdst, h.second (by decide), ← int_signExtend]
    have hadc := computeCAdc_eq hw0 a b false
    rw [sum_false, carry_false] at hadc
    exact congrArg _ hadc
  | adc =>
    refine (sized_eq hs fun w =>
      computeCAdc (dst.setWidth w) (src1.setWidth w) (src2.setWidth w)).trans ?_
    rw [hdst, h.second (by decide), h.carry (by decide), hcarry, ← int_signExtend]
    exact congrArg _ (computeCAdc_eq hw0 a b c)
  | sub =>
    refine (sized_eq hs fun w => computeCSub (dst.setWidth w) (src1.setWidth w)).trans ?_
    rw [hdst, h.second (by decide), ← int_signExtend]
    have hsbb := computeCSbb_eq hw0 a b false
    rw [difference_false, carry_false] at hsbb
    refine (congrArg _ ?_).trans (congrArg _ hsbb)
    unfold computeCSub computeCSbb
    rw [show a - b + b + (0 : BitVec s.bits) = a - b + b from BitVec.add_zero _]
    rfl
  | sbb =>
    refine (sized_eq hs fun w =>
      computeCSbb (dst.setWidth w) (src1.setWidth w) (src2.setWidth w)).trans ?_
    rw [hdst, h.second (by decide), h.carry (by decide), hcarry, ← int_signExtend]
    exact congrArg _ (computeCSbb_eq hw0 a b c)
  | inc | dec => exact h.kept (by decide)
  | and | or | xor => cases t <;> rfl
  | shl =>
    refine (sized_eq hs fun w => computeCShl (src1.setWidth w)).trans ?_
    rw [h.shifted (by decide), computeCShl_eq]
    exact int_signExtend a.msb t
  | sar =>
    have hlsb : a.getLsbD 0 = src1.getLsbD 0 := by
      rw [← h.shifted (by decide), getLsbD_setWidth, decide_eq_true hw0, Bool.true_and]
    show src1 &&& 1 = (BitVec.ofBool (a.getLsbD 0)).setWidth t.bits
    rw [hlsb]
    exact and_one_eq_setWidth_ofBool_getLsbD

end

/-- **The flags computed from what is stored are those of the architecture.** -/
theorem flags_architectural (t : Target) (s : OpSize) (hs : s.bits ≤ t.bits) (i : Insn)
    (a b : BitVec s.bits) (c : Bool) (dst src1 src2 : TargetUlong t)
    (h : Stored i a b c dst src1 src2) :
    (∃ af, helperCcComputeAll t dst src1 src2 (i.ccOp s) =
        ((i.flags a b c).word af).setWidth t.bits ∧ ∀ x, (i.flags a b c).af = some x → af = x) ∧
      helperCcComputeC t dst src1 src2 (i.ccOp s) =
        (BitVec.ofBool (i.flags a b c).cf).setWidth t.bits := by
  obtain ⟨word, hword, af, rfl, haf⟩ := stored_flags hs h
  exact ⟨⟨af, hword.trans (word_signExtend _ af t), haf⟩, stored_carry hs h⟩

/-- 0x7f + 0xff + 1 on bytes, with garbage in the rest of the word -/
theorem flags_architectural_adc :
    Stored (t := .x86_64) .adc (0x7f#8) (0xff#8) true 0x1237f 0x45ff 1 ∧
      (∃ af, helperCcComputeAll .x86_64 0x1237f 0x45ff 1 (.adc .b) =
        ((Insn.adc.flags (0x7f#8) (0xff#8) true).word af).setWidth 64 ∧
        ∀ x, (Insn.adc.flags (0x7f#8) (0xff#8) true).af = some x → af = x) ∧
      helperCcComputeC .x86_64 0x1237f 0x45ff 1 (.adc .b) =
        (BitVec.ofBool (Insn.adc.flags (0x7f#8) (0xff#8) true).cf).setWidth 64 := by
  have h : Stored (t := .x86_64) .adc (0x7f#8) (0xff#8) true 0x1237f 0x45ff 1 :=
    ⟨by decide, fun _ => by decide, fun h => absurd h (by decide), fun h => absurd h (by decide),
      fun _ => by decide⟩
  exact ⟨h, flags_architectural .x86_64 .b (by decide) .adc (0x7f#8) (0xff#8) true _ _ _ h⟩

example : helperCcComputeAll .x86_64 0x1237f 0x45ff 1 (.adc .b) = 0x11 := by decide

end X86
