import Mathlib.Tactic.Ring

/-!
# Restoring division

A number of two words is divided by a word, one bit of the quotient per turn.  The pair is shifted
to the left, the divisor is subtracted from the high word if it fits, and the bit of the quotient
enters at the low end.

* `step`: one turn, on natural numbers;
* `Inv`: after `i` turns the low word holds `i` bits of the quotient;
* `run_step`: after a whole word of turns: remainder and quotient.
-/

namespace Restoring
variable (W b : Nat)

/-- high and low word -/
def step (s : Nat × Nat) : Nat × Nat :=
  let x := 2 * s.1 + s.2 / 2 ^ (W - 1)
  let y := 2 * (s.2 % 2 ^ (W - 1))
  if b ≤ x then (x - b, y + 1) else (x, y)

/-- `n` is divided, `q` is the quotient so far and `h` what is left of the low word -/
def Inv (n i : Nat) (s : Nat × Nat) : Prop :=
  s.1 < b ∧ s.2 < 2 ^ W ∧ ∃ q h, q < 2 ^ i ∧ s.2 = 2 ^ i * h + q ∧
    n * 2 ^ i = s.1 * 2 ^ W + 2 ^ i * h + q * b * 2 ^ W

variable {W b} {n i : Nat} {s : Nat × Nat}

lemma split_low (hi : i < W) {q h : Nat} (hq : q < 2 ^ i) (hs : s.2 = 2 ^ i * h + q)
    (hlt : s.2 < 2 ^ W) :
    ∃ bit h', bit ≤ 1 ∧ s.2 / 2 ^ (W - 1) = bit ∧ h = h' + bit * 2 ^ (W - 1 - i) ∧
      s.2 % 2 ^ (W - 1) = 2 ^ i * h' + q := by
  have hpow : 2 ^ (W - 1) = 2 ^ i * 2 ^ (W - 1 - i) := by
    rw [← Nat.pow_add]
    congr 1
    omega
  have hW : 2 ^ W = 2 * 2 ^ (W - 1) := by
    rw [← Nat.pow_succ']
    congr 1
    omega
  have hdiv := Nat.div_add_mod s.2 (2 ^ (W - 1))
  have hbit : s.2 / 2 ^ (W - 1) ≤ 1 := by
    have := (Nat.div_lt_iff_lt_mul (Nat.two_pow_pos (W - 1))).mpr (hW ▸ hlt)
    omega
  generalize s.2 / 2 ^ (W - 1) = bit at *
  have hle : bit * 2 ^ (W - 1 - i) ≤ h := by
    by_contra hgt
    have hstep : 2 ^ i * (h + 1) ≤ 2 ^ i * (bit * 2 ^ (W - 1 - i)) :=
      Nat.mul_le_mul_left _ (by omega)
    have hcomm : 2 ^ i * (bit * 2 ^ (W - 1 - i)) = 2 ^ (W - 1) * bit := by
      rw [hpow]
      ring
    rw [Nat.mul_add] at hstep
    omega
  refine ⟨bit, h - bit * 2 ^ (W - 1 - i), hbit, rfl, by omega, ?_⟩
  have hsplit : 2 ^ i * h = 2 ^ i * (h - bit * 2 ^ (W - 1 - i)) + 2 ^ (W - 1) * bit := by
    rw [hpow]
    calc 2 ^ i * h
        = 2 ^ i * (h - bit * 2 ^ (W - 1 - i) + bit * 2 ^ (W - 1 - i)) := by
          rw [Nat.sub_add_cancel hle]
      _ = 2 ^ i * (h - bit * 2 ^ (W - 1 - i)) + 2 ^ i * 2 ^ (W - 1 - i) * bit := by ring
  omega

lemma Inv.step (hi : i < W) (hinv : Inv W b n i s) : Inv W b n (i + 1) (step W b s) := by
  obtain ⟨hrem, hlow, q, h, hq, hs, hn⟩ := hinv
  obtain ⟨bit, h', hbit, hdiv, hh, hmod⟩ := split_low hi hq hs hlow
  have hpow : 2 ^ (i + 1) * 2 ^ (W - 1 - i) = 2 ^ W := by
    rw [← Nat.pow_add]
    congr 1
    omega
  have hW : 2 ^ W = 2 * 2 ^ (W - 1) := by
    rw [← Nat.pow_succ']
    congr 1
    omega
  -- the shifted pair stands for twice the number
  have hshift : n * 2 ^ (i + 1) =
      (2 * s.1 + bit) * 2 ^ W + 2 ^ (i + 1) * h' + 2 * q * b * 2 ^ W := by
    calc n * 2 ^ (i + 1) = 2 * (n * 2 ^ i) := by ring
      _ = 2 * (s.1 * 2 ^ W + 2 ^ i * (h' + bit * 2 ^ (W - 1 - i)) + q * b * 2 ^ W) := by rw [hn, hh]
      _ = (2 * s.1) * 2 ^ W + bit * (2 ^ (i + 1) * 2 ^ (W - 1 - i)) + 2 ^ (i + 1) * h' +
          2 * q * b * 2 ^ W := by ring
      _ = (2 * s.1 + bit) * 2 ^ W + 2 ^ (i + 1) * h' + 2 * q * b * 2 ^ W := by
          rw [hpow]
          ring
  unfold Restoring.step
  rw [hdiv]
  dsimp only
  have hlow' : 2 * (2 ^ i * h' + q) = 2 ^ (i + 1) * h' + 2 * q := by ring
  split
  next hle =>
    refine ⟨by dsimp only; omega, by dsimp only; omega, 2 * q + 1, h', by omega,
      by dsimp only; omega, ?_⟩
    obtain ⟨y, hy⟩ := Nat.exists_eq_add_of_le hle
    rw [hshift, hy, Nat.add_sub_cancel_left]
    ring
  next hgt =>
    exact ⟨by dsimp only; omega, by dsimp only; omega, 2 * q, h', by omega, by dsimp only; omega,
      hshift⟩

lemma Inv.iterate (h0 : Inv W b n 0 s) : ∀ i ≤ W, Inv W b n i ((Restoring.step W b)^[i] s) := by
  intro i
  induction i with
  | zero => exact fun _ => h0
  | succ i ih =>
    intro hi
    rw [Function.iterate_succ_apply']
    exact (ih (by omega)).step (by omega)

/-- **the pair ends as remainder and quotient** -/
theorem run_step {hi lo : Nat} (hhi : hi < b) (hlo : lo < 2 ^ W) :
    (step W b)^[W] (hi, lo) = ((hi * 2 ^ W + lo) % b, (hi * 2 ^ W + lo) / b) := by
  have h0 : Inv W b (hi * 2 ^ W + lo) 0 (hi, lo) :=
    ⟨hhi, hlo, 0, lo, by decide, by dsimp only; omega, by dsimp only; omega⟩
  obtain ⟨hrem, hlow, q, h, hq, hs, hn⟩ := h0.iterate W (Nat.le_refl W)
  generalize (step W b)^[W] (hi, lo) = s at *
  have hzero : h = 0 := by
    by_contra hne
    have := Nat.le_mul_of_pos_right (2 ^ W) (Nat.pos_of_ne_zero hne)
    omega
  rw [hzero, Nat.mul_zero, Nat.zero_add] at hs
  rw [hzero, Nat.mul_zero] at hn
  have hcancel : hi * 2 ^ W + lo = s.1 + b * q :=
    Nat.eq_of_mul_eq_mul_right (Nat.two_pow_pos W) (by rw [hn]; ring)
  rw [hcancel, Nat.add_mul_mod_self_left, Nat.mod_eq_of_lt hrem,
    Nat.add_mul_div_left _ _ (by omega), Nat.div_eq_of_lt hrem, Nat.zero_add, ← hs]

end Restoring
