import TraceSyscallObj.Lib.Bits

/-!
# Deposit and extract of bits

`helper_pdep` and `helper_pext` consume the set bits of a mask from the lowest one on.  In round `n`
the one moves bit `n` of the source to that bit, the other moves that bit to bit `n`.

* `getLsbD_depositLoop` the loop, bit by bit;
* `pdep_pext`: the two helpers undo each other on the bits of the mask.
-/

namespace X86
open Bits
variable {w : Nat}

/-- the loop of both helpers over the set bits of `mask`; `place` gives the bit of `src` that is read
and the bit of `dest` that it goes to -/
def depositLoop (place : Nat → Nat → Nat × Nat) (src : BitVec w) (n : Nat) (mask dest : BitVec w) :
    BitVec w :=
  if h : mask = 0#w then dest
  else
    have := popcount_clearLowest h
    let (i, o) := place n (lowest mask)
    depositLoop place src (n + 1) (clearLowest mask) (dest ||| (((src >>> i) &&& 1#w) <<< o))
termination_by popcount mask

def helperPdep (src mask : BitVec w) : BitVec w := depositLoop (fun i o => (i, o)) src 0 mask 0#w

def helperPext (src mask : BitVec w) : BitVec w := depositLoop (fun o i => (i, o)) src 0 mask 0#w

/-- the bit `b` of the mask is reached in round `n + rank mask b` -/
lemma getLsbD_depositLoop (place : Nat → Nat → Nat × Nat) (src : BitVec w) (n : Nat)
    (mask dest : BitVec w) (k : Nat) :
    (depositLoop place src n mask dest).getLsbD k = true ↔ dest.getLsbD k = true ∨
      k < w ∧ ∃ b, mask.getLsbD b = true ∧ k = (place (n + rank mask b) b).2 ∧
        src.getLsbD (place (n + rank mask b) b).1 = true := by
  induction n, mask, dest using depositLoop.induct place src with
  | case1 n dest =>
    rw [depositLoop, dif_pos rfl]
    simp only [BitVec.getLsbD_zero, Bool.false_eq_true, false_and, exists_false, and_false, or_false]
  | case2 n mask dest hne _ i o hp ih =>
    have hrest : ∀ b, (clearLowest mask).getLsbD b = true →
        n + 1 + rank (clearLowest mask) b = n + rank mask b := by
      intro b hb
      rw [rank_clearLowest hne (lowest_lt_of_clearLowest hne hb)]
      omega
    rw [depositLoop, dif_neg hne, hp, ih, exists_lowest hne, BitVec.getLsbD_or, rank_lowest]
    simp only [getLsbD_move, hp, Nat.add_zero, Bool.or_eq_true, Bool.and_eq_true, decide_eq_true_eq,
      or_assoc, ← and_or_left]
    refine or_congr_right (and_congr_right fun _ => or_congr_right ?_)
    exact exists_congr fun b => and_congr_right fun hb => by rw [hrest b hb]

lemma getLsbD_helperPdep (src mask : BitVec w) (b : Nat) :
    (helperPdep src mask).getLsbD b = true ↔
      mask.getLsbD b = true ∧ src.getLsbD (rank mask b) = true := by
  rw [helperPdep, getLsbD_depositLoop]
  simp only [BitVec.getLsbD_zero, Bool.false_eq_true, false_or, Nat.zero_add]
  constructor
  · rintro ⟨_, c, hc, rfl, hs⟩
    exact ⟨hc, hs⟩
  · rintro ⟨hb, hs⟩
    exact ⟨BitVec.lt_of_getLsbD hb, b, hb, rfl, hs⟩

lemma getLsbD_helperPext (src mask : BitVec w) (k : Nat) :
    (helperPext src mask).getLsbD k = true ↔
      ∃ b, mask.getLsbD b = true ∧ k = rank mask b ∧ src.getLsbD b = true := by
  simp only [helperPext, getLsbD_depositLoop, BitVec.getLsbD_zero, Bool.false_eq_true, false_or,
    Nat.zero_add]
  refine and_iff_right_of_imp ?_
  rintro ⟨b, hb, rfl, _⟩
  exact Nat.lt_of_le_of_lt (Nat.count_le _) (BitVec.lt_of_getLsbD hb)

/-- **`helper_pdep` and `helper_pext` undo each other** on the bits of the mask -/
theorem pdep_pext (src mask : BitVec w) :
    (helperPext (helperPdep src mask) mask).toNat = src.toNat % 2 ^ popcount mask ∧
    helperPdep (helperPext src mask) mask = src &&& mask ∧
    ∀ b, (helperPdep src mask).getLsbD b = true → mask.getLsbD b = true := by
  refine ⟨Nat.eq_of_testBit_eq fun k => ?_, BitVec.eq_of_getLsbD_eq fun b _ => ?_, fun b h => ?_⟩
  · change (helperPext (helperPdep src mask) mask).getLsbD k = _
    rw [Bool.eq_iff_iff, getLsbD_helperPext, Nat.testBit_mod_two_pow, Bool.and_eq_true,
      decide_eq_true_eq]
    constructor
    · rintro ⟨b, hb, rfl, hs⟩
      exact ⟨rank_lt_popcount hb, ((getLsbD_helperPdep ..).mp hs).2⟩
    · rintro ⟨hk, hs⟩
      obtain ⟨b, hb, rfl⟩ := exists_rank hk
      exact ⟨b, hb, rfl, (getLsbD_helperPdep ..).mpr ⟨hb, hs⟩⟩
  · rw [Bool.eq_iff_iff, getLsbD_helperPdep, BitVec.getLsbD_and, Bool.and_eq_true,
      getLsbD_helperPext]
    constructor
    · rintro ⟨hb, c, hc, heq, hs⟩
      exact ⟨Nat.count_injective hb hc heq ▸ hs, hb⟩
    · rintro ⟨hs, hb⟩
      exact ⟨hb, b, hb, rfl, hs⟩
  · exact ((getLsbD_helperPdep ..).mp h).1

end X86
