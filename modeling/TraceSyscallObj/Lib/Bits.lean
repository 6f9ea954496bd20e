import Mathlib.Data.Nat.Bitwise
import Mathlib.Data.Nat.Count

/-!
# Masks and the lowest set bit of a machine word

* `getLsbD_range`: the bits of `(2 << l) - (1 << s)` are those from `s` to `l`;
* `getLsbD_below`: the bits of `(1 << b) - 1` are those below `b`;
* `getLsbD_clearLowest` `x & (x - 1)` is `x` without its lowest set bit;
* `popcount`: the number of set bits;
* `count_window`: counting a set word by word;
* `rank`: the number of set bits below a bit.
-/

namespace Bits
open BitVec
variable {w : Nat}

def lowest (x : BitVec w) : Nat := x.ctz.toNat

def clearLowest (x : BitVec w) : BitVec w := x &&& (x - 1#w)

def popcount (x : BitVec w) : Nat := Nat.count (fun j => x.getLsbD j = true) w

lemma exists_bit_iff (x : BitVec w) : x ≠ 0#w ↔ ∃ j, x.getLsbD j = true := by
  constructor
  · intro h
    by_contra hn
    apply h
    apply eq_of_getLsbD_eq
    intro i hi
    rw [getLsbD_zero]
    cases hb : x.getLsbD i with
    | false => rfl
    | true => exact absurd ⟨i, hb⟩ hn
  · rintro ⟨j, hj⟩ rfl
    rw [getLsbD_zero] at hj
    cases hj

variable {x : BitVec w} {j : Nat}

lemma getLsbD_range {s l : Nat} (hs : s ≤ l) (hl : l < w) (j : Nat) :
    (2#w <<< l - 1#w <<< s).getLsbD j = (decide (s ≤ j) && decide (j ≤ l)) := by
  have hsl : 2 ^ s < 2 ^ w := Nat.pow_lt_pow_right (by decide) (by omega)
  have hle : 2 ^ s ≤ 2 ^ (l + 1) := Nat.pow_le_pow_right (by decide) (by omega)
  have hlw : 2 ^ (l + 1) ≤ 2 ^ w := Nat.pow_le_pow_right (by decide) (by omega)
  have hpos : 0 < 2 ^ s := Nat.two_pow_pos s
  have h2 : (2#w <<< l).toNat = 2 ^ (l + 1) % 2 ^ w := by
    rw [toNat_shiftLeft, toNat_ofNat, Nat.shiftLeft_eq, Nat.mod_mul_mod, pow_succ,
      Nat.mul_comm]
  have h1 : (1#w <<< s).toNat = 2 ^ s := by
    rw [toNat_shiftLeft, toNat_ofNat, Nat.shiftLeft_eq, Nat.mod_mul_mod, Nat.one_mul,
      Nat.mod_eq_of_lt hsl]
  have hn : (2#w <<< l - 1#w <<< s).toNat = 2 ^ (l + 1) - 2 ^ s := by
    rw [toNat_sub, h1, h2]
    generalize 2 ^ s = a at *
    generalize 2 ^ (l + 1) = b at *
    generalize 2 ^ w = c at *
    rcases Nat.lt_or_ge b c with hb | hb
    · rw [Nat.mod_eq_of_lt hb, show c - a + b = c + (b - a) by omega, Nat.add_mod_left,
        Nat.mod_eq_of_lt (by omega)]
    · have : b = c := by omega
      rw [this, Nat.mod_self, Nat.add_zero, Nat.mod_eq_of_lt (by omega)]
  have hf : 2 ^ (l + 1) - 2 ^ s = 2 ^ s * (2 ^ (l + 1 - s) - 1) := by
    rw [Nat.mul_sub, Nat.mul_one, ← pow_add, show s + (l + 1 - s) = l + 1 by omega]
  rw [BitVec.getLsbD, hn, hf, Nat.testBit_two_pow_mul, Nat.testBit_two_pow_sub_one]
  by_cases hj : s ≤ j
  · have : j - s < l + 1 - s ↔ j ≤ l := by omega
    simp only [this]
  · simp only [hj, decide_false, Bool.false_and]

lemma getLsbD_one_shift {s : Nat} (hs : s < w) (j : Nat) :
    (1#w <<< s).getLsbD j = decide (j = s) := by
  have hsl : 2 ^ s < 2 ^ w := Nat.pow_lt_pow_right (by decide) hs
  have h1 : (1#w <<< s).toNat = 2 ^ s := by
    rw [toNat_shiftLeft, toNat_ofNat, Nat.shiftLeft_eq, Nat.mod_mul_mod, Nat.one_mul,
      Nat.mod_eq_of_lt hsl]
  rw [BitVec.getLsbD, h1, Nat.testBit_two_pow]
  exact decide_eq_decide.mpr eq_comm

variable {b : Nat}

lemma getLsbD_below (hb : b < w) (j : Nat) : (1#w <<< b - 1#w).getLsbD j = decide (j < b) := by
  have hbw : 2 ^ b < 2 ^ w := Nat.pow_lt_pow_right (by decide) hb
  have hone : 1 < 2 ^ w := Nat.one_lt_two_pow (by omega)
  have hpos : 0 < 2 ^ b := Nat.two_pow_pos b
  have hn : (1#w <<< b - 1#w).toNat = 2 ^ b - 1 := by
    rw [toNat_sub, toNat_shiftLeft, toNat_ofNat, Nat.shiftLeft_eq,
      Nat.mod_mul_mod, Nat.one_mul, Nat.mod_eq_of_lt hbw, Nat.mod_eq_of_lt hone,
      show 2 ^ w - 1 + 2 ^ b = 2 ^ w + (2 ^ b - 1) by omega, Nat.add_mod_left,
      Nat.mod_eq_of_lt (by omega)]
  rw [BitVec.getLsbD, hn, Nat.testBit_two_pow_sub_one]

lemma getLsbD_not (hj : j < w) : (~~~x).getLsbD j = !x.getLsbD j := by
  rw [BitVec.getLsbD_not, decide_eq_true hj, Bool.true_and]

section Lowest
variable {x : BitVec w} (hx : x ≠ 0#w)
include hx

lemma getLsbD_lowest : x.getLsbD (lowest x) = true := getLsbD_true_ctz_of_ne_zero hx

lemma lowest_lt : lowest x < w := lt_of_getLsbD (getLsbD_lowest hx)

omit hx in
lemma lowest_le (hj : x.getLsbD j = true) : lowest x ≤ j := by
  by_contra hn
  have h : x.getLsbD j = false := getLsbD_false_of_lt_ctz (by unfold lowest at hn; omega)
  rw [h] at hj
  cases hj

lemma toNat_lowest : ∃ q, x.toNat = 2 ^ (lowest x + 1) * q + 2 ^ lowest x := by
  refine ⟨x.toNat / 2 ^ (lowest x + 1), ?_⟩
  have hm : x.toNat % 2 ^ (lowest x + 1) = 2 ^ lowest x := by
    apply Nat.eq_of_testBit_eq
    intro j
    rw [Nat.testBit_mod_two_pow, Nat.testBit_two_pow]
    rcases Nat.lt_trichotomy j (lowest x) with h | h | h
    · have hb : x.toNat.testBit j = false := getLsbD_false_of_lt_ctz h
      rw [hb, Bool.and_false, decide_eq_false (by omega)]
    · have hb : x.toNat.testBit j = true := h ▸ getLsbD_lowest hx
      rw [hb, Bool.and_true, decide_eq_true (by omega), decide_eq_true h.symm]
    · rw [decide_eq_false (by omega), Bool.false_and, decide_eq_false (by omega)]
  have := Nat.div_add_mod x.toNat (2 ^ (lowest x + 1))
  rw [hm] at this
  exact this.symm

lemma getLsbD_clearLowest (j : Nat) :
    (clearLowest x).getLsbD j = (x.getLsbD j && decide (j ≠ lowest x)) := by
  obtain ⟨q, hq⟩ := toNat_lowest hx
  have hlt := lowest_lt hx
  have hone : 1 < 2 ^ w := Nat.one_lt_two_pow (by omega)
  have hpos : 0 < 2 ^ lowest x := Nat.two_pow_pos _
  have hsub : (x - 1#w).toNat = 2 ^ (lowest x + 1) * q + (2 ^ lowest x - 1) := by
    rw [toNat_sub, toNat_ofNat, Nat.mod_eq_of_lt hone,
      show 2 ^ w - 1 + x.toNat = 2 ^ w + (x.toNat - 1) by omega, Nat.add_mod_left,
      Nat.mod_eq_of_lt (by omega)]
    omega
  have hb : x.getLsbD j = if j < lowest x + 1 then (2 ^ lowest x).testBit j
      else q.testBit (j - (lowest x + 1)) := by
    rw [BitVec.getLsbD, hq]
    exact Nat.testBit_two_pow_mul_add q (by omega) j
  have hb' : (x - 1#w).getLsbD j = if j < lowest x + 1 then (2 ^ lowest x - 1).testBit j
      else q.testBit (j - (lowest x + 1)) := by
    rw [BitVec.getLsbD, hsub]
    exact Nat.testBit_two_pow_mul_add q (by omega) j
  rw [clearLowest, getLsbD_and, hb, hb']
  -- below, at and above the lowest set bit
  rcases Nat.lt_trichotomy j (lowest x) with h | h | h
  · rw [if_pos (by omega), Nat.testBit_two_pow, decide_eq_false (by omega),
      Bool.false_and, Bool.false_and]
  · rw [if_pos (by omega), if_pos (by omega), Nat.testBit_two_pow_sub_one,
      decide_eq_false (by omega), decide_eq_false (not_not.mpr h)]
  · rw [if_neg (by omega), if_neg (by omega), Bool.and_self, decide_eq_true (by omega),
      Bool.and_true]

end Lowest

/-! ## counting -/

section Count
variable {p q : Nat → Prop} [DecidablePred p] [DecidablePred q] {a b s l : Nat}

lemma count_of_none (hab : a ≤ b) (h : ∀ m, a ≤ m → m < b → ¬ p m) :
    Nat.count p b = Nat.count p a := by
  have h0 : Nat.count (fun k => p (a + k)) (b - a) = 0 :=
    Nat.count_iff_forall_not.mpr fun m hm => h (a + m) (by omega) (by omega)
  have hadd := Nat.count_add p a (b - a)
  rw [show a + (b - a) = b by omega, h0] at hadd
  exact hadd

lemma count_congr (h : ∀ m, m < b → (p m ↔ q m)) : Nat.count p b = Nat.count q b := by
  induction b with
  | zero => rfl
  | succ b ih =>
    rw [Nat.count_succ, Nat.count_succ, ih fun m hm => h m (by omega)]
    simp only [h b (by omega)]

lemma count_above (hab : a ≤ b) (h : ∀ m, a ≤ m → (q m ↔ p m)) :
    Nat.count q b + Nat.count p a = Nat.count p b + Nat.count q a := by
  have hp := Nat.count_add p a (b - a)
  have hq := Nat.count_add q a (b - a)
  have he : Nat.count (fun k => q (a + k)) (b - a) = Nat.count (fun k => p (a + k)) (b - a) :=
    count_congr fun m _ => h (a + m) (by omega)
  rw [show a + (b - a) = b by omega] at hp hq
  omega

lemma count_union (h : ∀ m, q m ↔ p m ∨ (s ≤ m ∧ m ≤ l)) (hs : s ≤ l) (hl : l < b) :
    Nat.count q b + Nat.count p (l + 1) = Nat.count p b + Nat.count p s + (l + 1 - s) := by
  have h1 : Nat.count q s = Nat.count p s :=
    count_congr fun m hm => (h m).trans (or_iff_left (by omega))
  have h2 : Nat.count (fun k => q (s + k)) (l + 1 - s) = l + 1 - s :=
    Nat.count_iff_forall.mpr fun m hm => (h (s + m)).mpr (.inr (by omega))
  have h3 := Nat.count_add q s (l + 1 - s)
  have h4 := count_above (p := p) (q := q) (a := l + 1) (b := b) hl
    fun m hm => (h m).trans (or_iff_left (by omega))
  rw [show s + (l + 1 - s) = l + 1 by omega] at h3
  omega

lemma count_diff (h : ∀ m, q m ↔ p m ∧ ¬ (s ≤ m ∧ m ≤ l)) (hs : s ≤ l) (hl : l < b) :
    Nat.count q b + Nat.count p (l + 1) = Nat.count p b + Nat.count p s := by
  have h1 : Nat.count q s = Nat.count p s :=
    count_congr fun m hm => (h m).trans (and_iff_left (by omega))
  have h2 : Nat.count q (l + 1) = Nat.count q s :=
    count_of_none (by omega) fun m hm1 hm2 hq => ((h m).mp hq).2 (by omega)
  have h3 := count_above (p := p) (q := q) (a := l + 1) (b := b) hl
    fun m hm => (h m).trans (and_iff_left (by omega))
  omega

end Count

/-- `x` bits of a word that holds what is left of a set from `a` on -/
lemma count_window {p : Nat → Prop} [DecidablePred p] {a base : Nat} {v : BitVec w}
    (hgap : ∀ m, a ≤ m → m < base → ¬ p m)
    (hv : ∀ j, j < w → (v.getLsbD j = true ↔ a ≤ base + j ∧ p (base + j))) (x : Nat) (hx : x ≤ w) :
    Nat.count p (max a (base + x)) = Nat.count p a + Nat.count (fun j => v.getLsbD j = true) x := by
  induction x with
  | zero =>
    apply count_of_none (Nat.le_max_left _ _)
    intro m h1 h2
    exact hgap m h1 (by omega)
  | succ x ih =>
    rw [Nat.count_succ (fun j => v.getLsbD j = true), ← Nat.add_assoc (Nat.count p a),
      ← ih (by omega)]
    by_cases ha : a ≤ base + x
    · have hiff : v.getLsbD x = true ↔ p (base + x) :=
        (hv x (by omega)).trans (and_iff_right ha)
      rw [show max a (base + (x + 1)) = base + x + 1 by omega,
        show max a (base + x) = base + x by omega, Nat.count_succ]
      simp only [hiff]
    · have hf : ¬ v.getLsbD x = true := fun h => ha ((hv x (by omega)).mp h).1
      rw [if_neg hf, show max a (base + (x + 1)) = a by omega,
        show max a (base + x) = a by omega, Nat.add_zero]

lemma popcount_below (v : BitVec w) (hb : b < w) :
    popcount (v &&& (1#w <<< b - 1#w)) = Nat.count (fun j => v.getLsbD j = true) b := by
  unfold popcount
  simp only [getLsbD_and, getLsbD_below hb, Bool.and_eq_true, decide_eq_true_eq]
  rw [count_of_none (a := b) (by omega) fun m h1 _ h => absurd h.2 (by omega)]
  exact count_congr fun m hm => and_iff_left hm

def rank (x : BitVec w) (b : Nat) : Nat := Nat.count (fun j => x.getLsbD j = true) b

lemma rank_lowest (x : BitVec w) : rank x (lowest x) = 0 :=
  Nat.count_iff_forall_not.mpr fun _ hm h => Nat.not_le.2 hm (lowest_le h)

lemma rank_clearLowest (hx : x ≠ 0#w) (hb : lowest x < b) :
    rank x b = rank (clearLowest x) b + 1 := by
  have hdiff := count_diff (p := fun j => x.getLsbD j = true)
    (q := fun j => (clearLowest x).getLsbD j = true) (s := lowest x) (l := lowest x) (b := b)
    (fun m => by
      rw [getLsbD_clearLowest hx, Bool.and_eq_true, decide_eq_true_eq]
      exact and_congr_right fun _ => not_congr (by omega))
    (Nat.le_refl _) hb
  rw [Nat.count_succ, if_pos (getLsbD_lowest hx)] at hdiff
  unfold rank at *
  omega

lemma lowest_lt_of_clearLowest (hx : x ≠ 0#w)
    (hb : (clearLowest x).getLsbD b = true) : lowest x < b := by
  rw [getLsbD_clearLowest hx, Bool.and_eq_true, decide_eq_true_eq] at hb
  exact Nat.lt_of_le_of_ne (lowest_le hb.1) (Ne.symm hb.2)

lemma exists_lowest (hx : x ≠ 0#w) {P : Nat → Prop} :
    (∃ b, x.getLsbD b = true ∧ P b) ↔
      P (lowest x) ∨ ∃ b, (clearLowest x).getLsbD b = true ∧ P b := by
  simp only [getLsbD_clearLowest hx, Bool.and_eq_true, decide_eq_true_eq]
  constructor
  · rintro ⟨b, hb, hP⟩
    by_cases heq : b = lowest x
    · exact .inl (heq ▸ hP)
    · exact .inr ⟨b, ⟨hb, heq⟩, hP⟩
  · rintro (hP | ⟨b, ⟨hb, _⟩, hP⟩)
    · exact ⟨lowest x, getLsbD_lowest hx, hP⟩
    · exact ⟨b, hb, hP⟩

lemma exists_rank {k b : Nat} (h : k < rank x b) : ∃ j, x.getLsbD j = true ∧ rank x j = k := by
  induction b with
  | zero => exact absurd h (Nat.not_lt_zero _)
  | succ b ih =>
    unfold rank at h
    rw [Nat.count_succ] at h
    by_cases hk : k < rank x b
    · exact ih hk
    · unfold rank at hk
      split at h
      · rename_i hb
        exact ⟨b, hb, by unfold rank; omega⟩
      · omega

lemma rank_lt_popcount (h : x.getLsbD j = true) :
    rank x j < popcount x := Nat.count_strict_mono h (lt_of_getLsbD h)

lemma popcount_clearLowest (hx : x ≠ 0#w) : popcount (clearLowest x) < popcount x := by
  have hr : rank x w = _ := rank_clearLowest hx (lowest_lt hx)
  unfold rank at hr
  unfold popcount
  omega

lemma getLsbD_move (x : BitVec w) (i o b : Nat) :
    (((x >>> i) &&& 1#w) <<< o).getLsbD b = (decide (b < w) && (decide (b = o) && x.getLsbD i)) := by
  by_cases hb : b < w
  · rcases Nat.lt_trichotomy b o with h | h | h
    · simp [h, Nat.ne_of_lt h]
    · subst h
      simp [hb]
    · simp [Nat.ne_of_gt h, Nat.sub_ne_zero_of_lt h]
  · simp [hb]

end Bits
