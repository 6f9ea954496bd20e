import TraceSyscallObj.HBitmap.Levels

/-!
# The iterator over a live bitmap

`up k n` is the node of level `k` above `n`: for a bit of the last level the bit of level `k` that
covers it, for a word of the last level the word of level `k` on the path to it.  The iterator
stores, for every level, the bits of the word on its path that are still to come.

* `Pending hbi m`: bit `m` of the last level is below a stored bit;
* `IterOk hb hbi p`: the stored bits are nodes of the live bitmap after the path, and no bit before
  `p` is stored;
* `curWord_spec`: the iterator moves to the next word and loses no pending bit.
-/

namespace Hierarchical
open Function Bits

def up (k n : Nat) : Nat := n / 64 ^ (6 - k)

lemma up_last (n : Nat) : up 6 n = n := by
  show n / 64 ^ 0 = n
  rw [pow_zero, Nat.div_one]

lemma up_succ {k : Nat} (hk : k < 6) (n : Nat) : up k n = up (k + 1) n / 64 := by
  show n / 64 ^ (6 - k) = n / 64 ^ (6 - (k + 1)) / 64
  rw [Nat.div_div_eq_div_mul, ← pow_succ, show 6 - (k + 1) + 1 = 6 - k by omega]

lemma up_word (k n : Nat) : up k (n / 64) = up k n / 64 := by
  show n / 64 / 64 ^ (6 - k) = n / 64 ^ (6 - k) / 64
  rw [Nat.div_div_eq_div_mul, Nat.div_div_eq_div_mul, Nat.mul_comm]

lemma up_bit {k : Nat} (hk : k < 6) (n : Nat) : up (k + 1) (n / 64) = up k n := by
  rw [up_word, up_succ hk]

lemma up_congr {k k' a b : Nat} (hk : k ≤ k') (hk' : k' ≤ 6) (h : up k' a = up k' b) :
    up k a = up k b := by
  obtain ⟨d, rfl⟩ := Nat.exists_eq_add_of_le hk
  induction d with
  | zero => exact h
  | succ d ih =>
    apply ih (by omega) (by omega)
    have hd : k + d < 6 := by omega
    rw [up_succ hd a, up_succ hd b]
    exact congrArg (· / 64) h

lemma up_mono (k : Nat) {a b : Nat} (h : a ≤ b) : up k a ≤ up k b := Nat.div_le_div_right h

lemma lt_of_up_lt {k a b : Nat} (h : up k a < up k b) : a < b := by
  by_contra hn
  have := up_mono k (show b ≤ a by omega)
  omega

lemma up_zero_of_lt {n : Nat} (h : n < 2 ^ 41) : up 0 n < 63 := by
  show n / 64 ^ 6 < 63
  omega

lemma eq_or_part {k a b : Nat} (hk : k ≤ 6) (h : up k a = up k b) :
    a = b ∨ ∃ k', k ≤ k' ∧ k' < 6 ∧ up k' a = up k' b ∧ up (k' + 1) a ≠ up (k' + 1) b := by
  obtain ⟨d, hd⟩ : ∃ d, d = 6 - k := ⟨_, rfl⟩
  induction d generalizing k with
  | zero =>
    have h6 : k = 6 := by omega
    rw [h6, up_last, up_last] at h
    exact .inl h
  | succ d ih =>
    by_cases he : up (k + 1) a = up (k + 1) b
    · rcases ih (by omega) he (by omega) with h1 | ⟨k', h1, h2, h3, h4⟩
      · exact .inl h1
      · exact .inr ⟨k', by omega, h2, h3, h4⟩
    · exact .inr ⟨k, Nat.le_refl _, by omega, h, he⟩

/-! ## pending bits -/

def PendingAt (hbi : HBitmapIter) (k m : Nat) : Prop :=
  up k (m / 64) = up k hbi.pos ∧ (hbi.cur k).getLsbD (up k m % 64) = true

def Pending (hbi : HBitmapIter) (m : Nat) : Prop := ∃ k ≤ 6, PendingAt hbi k m

/-- only the sentinel is left -/
def Ended (hbi : HBitmapIter) : Prop :=
  (∀ k, 1 ≤ k → k ≤ 6 → hbi.cur k = 0#64) ∧ hbi.cur 0 = 1#64 <<< 63

structure IterOk (hb : HBitmap) (hbi : HBitmapIter) (p : Nat) : Prop where
  granularity : hbi.granularity = hb.granularity
  pos_lt : hbi.pos < 2 ^ 35
  low : ∀ j, (hbi.cur 6).getLsbD j = true →
    p ≤ 64 * hbi.pos + j ∧ bit (hb.levels 6) (64 * hbi.pos + j) = true
  high : ∀ k < 6, ∀ j, (hbi.cur k).getLsbD j = true → (k = 0 ∧ j = 63) ∨
    (up (k + 1) hbi.pos < 64 * up k hbi.pos + j ∧ hb.levels (k + 1) (64 * up k hbi.pos + j) ≠ 0#64)
  sentinel : (hbi.cur 0).getLsbD 63 = true
  here : Ended hbi ∨ p ≤ 64 * (hbi.pos + 1)

section
variable {hb : HBitmap} {hbi : HBitmapIter} {p : Nat} (hc : Consistent hb)
include hc

lemma bit_up {m : Nat} (hm : bit (hb.levels 6) m = true) {k : Nat} (hk : k ≤ 6) :
    bit (hb.levels k) (up k m) = true := by
  obtain ⟨d, hd⟩ : ∃ d, d = 6 - k := ⟨_, rfl⟩
  induction d generalizing k with
  | zero =>
    have h6 : k = 6 := by omega
    rw [h6, up_last]
    exact hm
  | succ d ih =>
    have h1 := ih (k := k + 1) (by omega) (by omega)
    have hsize := hc.inside m hm
    have hle := hc.size_le
    have hs : ¬ (k = 0 ∧ up k m = 63) := by
      rintro ⟨rfl, h63⟩
      have := up_zero_of_lt (show m < 2 ^ 41 by omega)
      omega
    rw [hc.linked k (by omega) _ hs, ne_zero_iff]
    exact ⟨up (k + 1) m, (up_succ (by omega) m).symm, h1⟩

lemma pos_lt_of_pendingAt (h : IterOk hb hbi p) {k m : Nat} (hk : k < 6)
    (hm : bit (hb.levels 6) m = true) (hp : PendingAt hbi k m) : hbi.pos < m / 64 := by
  have hsize := hc.inside m hm
  have hle := hc.size_le
  have hnode : 64 * up k hbi.pos + up k m % 64 = up (k + 1) (m / 64) := by
    rw [← hp.1, up_word, up_bit hk]
    omega
  rcases h.high k hk _ hp.2 with ⟨rfl, h63⟩ | ⟨h1, -⟩
  · have := up_zero_of_lt (show m < 2 ^ 41 by omega)
    omega
  · rw [hnode] at h1
    exact lt_of_up_lt h1

end

lemma not_pending_of_ended {hb : HBitmap} {hbi : HBitmapIter} {m : Nat} (hc : Consistent hb)
    (he : Ended hbi) (hm : bit (hb.levels 6) m = true) : ¬ Pending hbi m := by
  rintro ⟨k, hk, h1, h2⟩
  rcases Nat.eq_zero_or_pos k with rfl | hpos
  · rw [he.2, getLsbD_one_shift (by decide), decide_eq_true_eq] at h2
    have hsize := hc.inside m hm
    have hle := hc.size_le
    have := up_zero_of_lt (show m < 2 ^ 41 by omega)
    omega
  · rw [he.1 k hpos hk, BitVec.getLsbD_zero] at h2
    cases h2

/-! ## the search for the next word -/

lemma skipUp_spec (cur : Words) (i : Nat) : ∀ pos, (∃ k < i, cur k ≠ 0#64) →
    ∃ k < i, skipUp cur i pos = .ok (k, pos / 64 ^ (i - k)) ∧ cur k ≠ 0#64 ∧
      ∀ k', k < k' → k' < i → cur k' = 0#64 := by
  induction i with
  | zero =>
    rintro pos ⟨k, hk, -⟩
    omega
  | succ i ih =>
    rintro pos ⟨k, hk, hne⟩
    rw [skipUp]
    split
    · rename_i h0
      have hki : k ≠ i := fun h => hne (h ▸ h0)
      obtain ⟨k', h1, h2, h3, h4⟩ := ih (pos / 64) ⟨k, by omega, hne⟩
      refine ⟨k', by omega, ?_, h3, fun k'' h5 h6 => ?_⟩
      · rw [h2, Nat.div_div_eq_div_mul, ← pow_succ', show i - k' + 1 = i + 1 - k' by omega]
      · rcases Nat.lt_or_ge k'' i with h7 | h7
        · exact h4 k'' h5 h7
        · rw [show k'' = i by omega]
          exact h0
    · rename_i h0
      refine ⟨i, by omega, ?_, h0, fun k' h1 h2 => absurd h2 (by omega)⟩
      rw [show i + 1 - i = 1 by omega, pow_one]

lemma skipDown_spec {hb : HBitmap} (hc : Consistent hb) (n : Nat) : ∀ (q : Nat) (curs : Words),
    n ≤ 5 → hb.levels (6 - n) q ≠ 0#64 →
      ∃ pos curs', skipDown hb.levels n q (hb.levels (6 - n) q) curs =
          .ok (pos, hb.levels 6 pos, curs') ∧
        up (6 - n) pos = q ∧ hb.levels 6 pos ≠ 0#64 ∧
        (∀ k, k < 6 - n ∨ 6 ≤ k → curs' k = curs k) ∧
        (∀ k, 6 - n ≤ k → k < 6 → hb.levels k (up k pos) ≠ 0#64 ∧
          curs' k = clearLowest (hb.levels k (up k pos)) ∧
          up (k + 1) pos = 64 * up k pos + lowest (hb.levels k (up k pos))) := by
  induction n with
  | zero =>
    intro q curs _ hne
    refine ⟨q, curs, ?_, up_last q, hne, fun k _ => rfl, fun k h1 h2 => absurd h2 (by omega)⟩
    rw [skipDown, if_neg hne]
  | succ n ih =>
    intro q curs hn hne
    rw [skipDown, if_neg hne]
    obtain ⟨w, hw⟩ : ∃ w, w = hb.levels (6 - (n + 1)) q := ⟨_, rfl⟩
    rw [← hw] at hne ⊢
    have hlow := lowest_lt hne
    have hbit : bit (hb.levels (6 - (n + 1))) (q * 64 + lowest w) = true := by
      unfold bit
      rw [show (q * 64 + lowest w) / 64 = q by omega,
        show (q * 64 + lowest w) % 64 = lowest w by omega, ← hw]
      exact getLsbD_lowest hne
    have hnext : hb.levels (6 - n) (q * 64 + lowest w) ≠ 0#64 := by
      have h := (hc.linked (6 - (n + 1)) (by omega) (q * 64 + lowest w) (by omega)).mp hbit
      rwa [show 6 - (n + 1) + 1 = 6 - n by omega] at h
    obtain ⟨pos, curs', h1, h2, h3, h4, h5⟩ := ih (q * 64 + lowest w)
      (update curs (5 - n) (clearLowest w)) (by omega) hnext
    have hq : up (6 - (n + 1)) pos = q := by
      rw [up_succ (by omega), show 6 - (n + 1) + 1 = 6 - n by omega]
      omega
    refine ⟨pos, curs', h1, hq, h3, fun k hk => ?_, fun k hk1 hk2 => ?_⟩
    · rw [h4 k (by omega), update_of_ne (by omega)]
    · rcases Nat.eq_or_lt_of_le hk1 with rfl | hlt
      · rw [hq, ← hw, h4 _ (by omega), show 6 - (n + 1) = 5 - n by omega, update_self,
          show 5 - n + 1 = 6 - n by omega, h2]
        exact ⟨hne, rfl, by omega⟩
      · exact h5 k (by omega) hk2

/-- the iterator with `w` as the word of the last level -/
def load (hbi : HBitmapIter) (w : Word) : HBitmapIter :=
  { hbi with cur := update hbi.cur 6 w }

lemma load_cur_last (hbi : HBitmapIter) (w : Word) : (load hbi w).cur 6 = w := by
  show update hbi.cur 6 w 6 = w
  rw [update_self]

lemma load_cur {k : Nat} (hk : k ≠ 6) (hbi : HBitmapIter) (w : Word) :
    (load hbi w).cur k = hbi.cur k := by
  show update hbi.cur 6 w k = hbi.cur k
  rw [update_of_ne hk]

lemma sentinel_only {c : Word} (hne : c ≠ 0#64) (h : lowest c = 63) : c = 1#64 <<< 63 := by
  apply BitVec.eq_of_getLsbD_eq
  intro j hj
  rw [getLsbD_one_shift (by decide)]
  by_cases h63 : j = 63
  · rw [decide_eq_true h63, h63, ← h]
    exact getLsbD_lowest hne
  rw [decide_eq_false h63]
  cases hb : c.getLsbD j with
  | false => rfl
  | true =>
    have := lowest_le hb
    omega

/-- the iterator took the lowest stored bit of level `k` and went down from there -/
structure Moved (hb : HBitmap) (hbi : HBitmapIter) (k : Nat) (hbi' : HBitmapIter) : Prop where
  lt : k < 6
  granularity : hbi'.granularity = hbi.granularity
  ne_zero : hbi.cur k ≠ 0#64
  zero : ∀ k', k < k' → k' ≤ 6 → hbi.cur k' = 0#64
  more : ¬ (k = 0 ∧ lowest (hbi.cur k) = 63)
  node : up (k + 1) hbi'.pos = 64 * up k hbi.pos + lowest (hbi.cur k)
  above : ∀ k' < k, hbi'.cur k' = hbi.cur k'
  at_level : hbi'.cur k = clearLowest (hbi.cur k)
  below : ∀ k', k < k' → k' < 6 → hb.levels k' (up k' hbi'.pos) ≠ 0#64 ∧
    hbi'.cur k' = clearLowest (hb.levels k' (up k' hbi'.pos)) ∧
    up (k' + 1) hbi'.pos = 64 * up k' hbi'.pos + lowest (hb.levels k' (up k' hbi'.pos))
  word : hb.levels 6 hbi'.pos ≠ 0#64

namespace Moved
variable {hb : HBitmap} {hbi hbi' : HBitmapIter} {k p : Nat} (hm : Moved hb hbi k hbi')
include hm

lemma up_eq {k' : Nat} (hk : k' ≤ k) : up k' hbi'.pos = up k' hbi.pos := by
  have hlow := lowest_lt hm.ne_zero
  have hk0 := hm.lt
  refine up_congr hk (by omega) ?_
  rw [up_succ hk0 hbi'.pos, hm.node]
  omega

lemma pos_lt (h : IterOk hb hbi p) : hbi.pos < hbi'.pos := by
  rcases h.high k hm.lt _ (getLsbD_lowest hm.ne_zero) with hs | ⟨h1, -⟩
  · exact absurd hs hm.more
  · rw [← hm.node] at h1
    exact lt_of_up_lt h1

lemma not_ended : ¬ Ended hbi := by
  rintro ⟨he, h0⟩
  have hk := hm.lt
  rcases Nat.eq_zero_or_pos k with hk0 | hk0
  · refine hm.more ⟨hk0, ?_⟩
    have hlow := getLsbD_lowest hm.ne_zero
    rw [hk0, h0, getLsbD_one_shift (by decide), decide_eq_true_eq] at hlow
    rw [hk0, h0]
    exact hlow
  · exact hm.ne_zero (he k hk0 (by omega))

lemma iterOk (hc : Consistent hb) (h : IterOk hb hbi p) :
    IterOk hb (load hbi' (hb.levels 6 hbi'.pos)) p := by
  have hpos := hm.pos_lt h
  have hp : p ≤ 64 * (hbi.pos + 1) := h.here.resolve_left hm.not_ended
  obtain ⟨n, hn1, hn2⟩ := (ne_zero_iff _ _).mp hm.word
  have hsize := hc.inside n hn2
  have hle := hc.size_le
  refine ⟨hm.granularity.trans h.granularity, ?_, fun j hj => ?_, fun k' hk' j hj => ?_, ?_, .inr ?_⟩
  · show hbi'.pos < 2 ^ 35
    omega
  · show p ≤ 64 * hbi'.pos + j ∧ bit (hb.levels 6) (64 * hbi'.pos + j) = true
    have hlt := BitVec.lt_of_getLsbD hj
    refine ⟨by omega, ?_⟩
    unfold bit
    rwa [show (64 * hbi'.pos + j) / 64 = hbi'.pos by omega,
      show (64 * hbi'.pos + j) % 64 = j by omega]
  · show (k' = 0 ∧ j = 63) ∨ (up (k' + 1) hbi'.pos < 64 * up k' hbi'.pos + j ∧
      hb.levels (k' + 1) (64 * up k' hbi'.pos + j) ≠ 0#64)
    rw [load_cur (by omega)] at hj
    rcases Nat.lt_trichotomy k' k with hlt | rfl | hgt
    · rw [hm.above k' hlt] at hj
      rw [hm.up_eq (show k' + 1 ≤ k by omega), hm.up_eq (show k' ≤ k by omega)]
      exact h.high k' hk' j hj
    · rw [hm.at_level, getLsbD_clearLowest hm.ne_zero, Bool.and_eq_true, decide_eq_true_eq] at hj
      have hlow := lowest_le hj.1
      rw [hm.node, hm.up_eq (Nat.le_refl _)]
      rcases h.high k' hk' j hj.1 with hs | ⟨-, h2⟩
      · exact .inl hs
      · exact .inr ⟨by omega, h2⟩
    · obtain ⟨h1, h2, h3⟩ := hm.below k' hgt hk'
      rw [h2, getLsbD_clearLowest h1, Bool.and_eq_true, decide_eq_true_eq] at hj
      have hlow := lowest_le hj.1
      have hlt := BitVec.lt_of_getLsbD hj.1
      refine .inr ⟨by omega, (hc.linked k' hk' _ (by omega)).mp ?_⟩
      unfold bit
      rw [show (64 * up k' hbi'.pos + j) / 64 = up k' hbi'.pos by omega,
        show (64 * up k' hbi'.pos + j) % 64 = j by omega]
      exact hj.1
  · rw [load_cur (by decide)]
    rcases Nat.eq_zero_or_pos k with hk0 | hk0
    · rw [← hk0, hm.at_level, getLsbD_clearLowest hm.ne_zero, Bool.and_eq_true, decide_eq_true_eq]
      refine ⟨hk0 ▸ h.sentinel, fun h63 => hm.more ⟨hk0, h63.symm⟩⟩
    · rw [hm.above 0 hk0]
      exact h.sentinel
  · show p ≤ 64 * (hbi'.pos + 1)
    omega

lemma pending (hc : Consistent hb) {m : Nat} (hbit : bit (hb.levels 6) m = true)
    (h : Pending hbi m) : Pending (load hbi' (hb.levels 6 hbi'.pos)) m := by
  obtain ⟨k₀, hk₀, h1, h2⟩ := h
  have hk := hm.lt
  -- above the level that was left nothing changed
  have hle : k₀ ≤ k := by
    by_contra hn
    rw [hm.zero k₀ (by omega) hk₀, BitVec.getLsbD_zero] at h2
    cases h2
  rcases Nat.lt_or_eq_of_le hle with hlt | rfl
  · refine ⟨k₀, hk₀, h1.trans (hm.up_eq hle).symm, ?_⟩
    rw [load_cur (by omega), hm.above k₀ hlt]
    exact h2
  by_cases hl : up k₀ m % 64 = lowest (hbi.cur k₀)
  · -- the bit is below the node that was taken: follow the path to where the two part
    have hword := up_word k₀ m
    have hnode : up (k₀ + 1) (m / 64) = up (k₀ + 1) hbi'.pos := by
      rw [hm.node, up_bit hk]
      omega
    rcases eq_or_part (by omega) hnode with he | ⟨k', hk1, hk2, he, hne⟩
    · refine ⟨6, Nat.le_refl _, congrArg (up 6) he, ?_⟩
      rw [up_last, ← he]
      exact hbit
    obtain ⟨g1, g2, g3⟩ := hm.below k' (by omega) hk2
    have hb := bit_up hc hbit (k := k') (by omega)
    have hword' := up_word k' m
    unfold bit at hb
    rw [← hword', he] at hb
    refine ⟨k', by omega, he, ?_⟩
    rw [load_cur (by omega), g2, getLsbD_clearLowest g1, hb, Bool.true_and, decide_eq_true_eq]
    intro hlow
    apply hne
    rw [up_bit hk2]
    omega
  · refine ⟨k₀, hk₀, h1.trans (hm.up_eq hle).symm, ?_⟩
    rw [load_cur (by omega), hm.at_level, getLsbD_clearLowest hm.ne_zero, h2, Bool.true_and,
      decide_eq_true_eq]
    exact hl

end Moved

section
variable {hb : HBitmap} {hbi : HBitmapIter} {p : Nat} (hc : Consistent hb) (h : IterOk hb hbi p)
include hc h

lemma hbitmapIterSkipWords_spec (h6 : hbi.cur 6 = 0#64) :
    (hbitmapIterSkipWords hb hbi = .ok (0#64, hbi) ∧ Ended hbi) ∨
      ∃ k hbi', hbitmapIterSkipWords hb hbi = .ok (hb.levels 6 hbi'.pos, hbi') ∧
        Moved hb hbi k hbi' := by
  have hs : hbi.cur 0 ≠ 0#64 := (exists_bit_iff _).mpr ⟨63, h.sentinel⟩
  obtain ⟨k, hk, hup, hne, hzero⟩ := skipUp_spec hbi.cur 6 hbi.pos ⟨0, by omega, hs⟩
  have hzero' : ∀ k', k < k' → k' ≤ 6 → hbi.cur k' = 0#64 := by
    intro k' h1 h2
    rcases Nat.lt_or_ge k' 6 with hlt | hge
    · exact hzero k' h1 hlt
    · rw [show k' = 6 by omega]
      exact h6
  by_cases hend : k = 0 ∧ hbi.cur k = 1#64 <<< 63
  · refine .inl ⟨?_, fun k' h1 h2 => hzero' k' (by omega) h2, ?_⟩
    · simp only [hbitmapIterSkipWords, bind, Except.bind, pure, Except.pure, hup, if_pos hend]
    · rw [← hend.2, hend.1]
  have hmore : ¬ (k = 0 ∧ lowest (hbi.cur k) = 63) :=
    fun hl => hend ⟨hl.1, sentinel_only hne hl.2⟩
  rcases h.high k hk _ (getLsbD_lowest hne) with hl | ⟨-, hnode⟩
  · exact absurd hl hmore
  obtain ⟨n, hn⟩ : ∃ n, 6 - k = n + 1 := ⟨5 - k, by omega⟩
  rw [show k + 1 = 6 - n by omega, Nat.mul_comm] at hnode
  obtain ⟨pos, curs, g1, g2, g3, g4, g5⟩ := skipDown_spec hc n
    (up k hbi.pos * 64 + lowest (hbi.cur k))
    (update hbi.cur k (clearLowest (hbi.cur k))) (by omega) hnode
  have hdown : skipDown hb.levels (6 - k) (hbi.pos / 64 ^ (6 - k)) (hbi.cur k) hbi.cur =
      .ok (pos, hb.levels 6 pos, curs) := by
    rw [show hbi.pos / 64 ^ (6 - k) = up k hbi.pos from rfl, hn, skipDown, if_neg hne,
      show 5 - n = k by omega]
    exact g1
  refine .inr ⟨k, { hbi with pos := pos, cur := curs }, ?_, hk, rfl, hne, hzero', hmore, ?_,
    fun k' hk' => ?_, ?_, fun k' h1 h2 => g5 k' (by omega) h2, g3⟩
  · simp only [hbitmapIterSkipWords, bind, Except.bind, pure, Except.pure, hup, if_neg hend,
      hdown]
  · rw [show k + 1 = 6 - n by omega, Nat.mul_comm]
    exact g2
  · exact (g4 k' (by omega)).trans (update_of_ne (by omega) _ _)
  · exact (g4 k (by omega)).trans (update_self _ _ _)

lemma curWord_spec :
    (curWord hb hbi = .ok (0#64, hbi) ∧ Ended hbi) ∨
      ∃ w hbi', curWord hb hbi = .ok (w, hbi') ∧ w ≠ 0#64 ∧ IterOk hb (load hbi' w) p ∧
        ¬ Ended hbi ∧
        ∀ m, bit (hb.levels 6) m = true → Pending hbi m → Pending (load hbi' w) m := by
  by_cases h6 : hbi.cur 6 = 0#64
  · rw [curWord, if_pos h6]
    rcases hbitmapIterSkipWords_spec hc h h6 with h1 | ⟨k, hbi', h1, hm⟩
    · exact .inl h1
    · exact .inr ⟨_, hbi', h1, hm.word, hm.iterOk hc h, hm.not_ended,
        fun m hbit hpend => hm.pending hc hbit hpend⟩
  · have hsame : load hbi (hbi.cur 6) = hbi := by
      unfold load
      rw [update_eq_self]
    refine .inr ⟨_, hbi, if_neg h6, h6, ?_, fun he => h6 (he.1 6 (by omega) (by omega)),
      fun m _ hpend => ?_⟩
    · rw [hsame]
      exact h
    · rw [hsame]
      exact hpend

end

/-! ## the start of an iteration -/

lemma getLsbD_initWord (lv : Levels) (i q j : Nat) : (initWord lv i q).getLsbD j = true ↔
    (lv i (q / 64)).getLsbD j = true ∧ (if i = 6 then q % 64 ≤ j else q % 64 < j) := by
  by_cases hj : j < 64
  · rw [initWord]
    split
    · rw [BitVec.getLsbD_and, getLsbD_not hj, getLsbD_below (by omega)]
      simp only [Bool.and_eq_true, Bool.not_eq_true', decide_eq_false_iff_not, Nat.not_lt]
    rw [BitVec.getLsbD_and, BitVec.getLsbD_and, getLsbD_not hj, getLsbD_not hj,
      getLsbD_below (by omega), getLsbD_one_shift (by omega)]
    simp only [Bool.and_eq_true, Bool.not_eq_true', decide_eq_false_iff_not]
    constructor
    · rintro ⟨⟨h1, h2⟩, h3⟩
      exact ⟨h1, by omega⟩
    · rintro ⟨h1, h2⟩
      exact ⟨⟨h1, by omega⟩, by omega⟩
  · constructor
    · intro h
      exact absurd (BitVec.lt_of_getLsbD h) hj
    · rintro ⟨h, -⟩
      exact absurd (BitVec.lt_of_getLsbD h) hj

lemma initCur_spec (lv : Levels) (n : Nat) : ∀ (pos : Nat) (curs : Words) (k : Nat),
    initCur lv n pos curs k =
      if k < n then initWord lv k (pos / 64 ^ (n - 1 - k)) else curs k := by
  induction n with
  | zero =>
    intro pos curs k
    rfl
  | succ n ih =>
    intro pos curs k
    rw [initCur, ih]
    rcases Nat.lt_trichotomy k n with h | rfl | h
    · rw [if_pos h, if_pos (by omega), Nat.div_div_eq_div_mul, ← pow_succ',
        show n - 1 - k + 1 = n + 1 - 1 - k by omega]
    · rw [if_neg (by omega), if_pos (by omega), update_self,
        show k + 1 - 1 - k = 0 by omega, pow_zero, Nat.div_one]
    · rw [if_neg (by omega), if_neg (by omega), update_of_ne (by omega)]

lemma hbitmapIterInit_spec {hb : HBitmap} (hc : Consistent hb) {first : Nat}
    (hf : first >>> hb.granularity < hb.size) :
    ∃ hbi, hbitmapIterInit hb first = .ok hbi ∧ IterOk hb hbi (first >>> hb.granularity) ∧
      ∀ m, first >>> hb.granularity ≤ m → bit (hb.levels 6) m = true → Pending hbi m := by
  have hsize := hc.size_le
  refine ⟨_, if_pos hf, ?_⟩
  generalize first >>> hb.granularity = p at hf
  have hcur : ∀ k ≤ 6, initCur hb.levels 7 p (fun _ => 0#64) k = initWord hb.levels k (up k p) := by
    intro k hk
    rw [initCur_spec, if_pos (by omega)]
    rfl
  constructor
  · refine ⟨rfl, ?_, fun j hj => ?_, fun k hk j hj => ?_, ?_, .inr ?_⟩
    · show p / 64 < 2 ^ 35
      omega
    · show p ≤ 64 * (p / 64) + j ∧ bit (hb.levels 6) (64 * (p / 64) + j) = true
      have hj' : (initCur hb.levels 7 p (fun _ => 0#64) 6).getLsbD j = true := hj
      rw [hcur 6 (Nat.le_refl _), up_last, getLsbD_initWord, if_pos rfl] at hj'
      have hlt := BitVec.lt_of_getLsbD hj'.1
      refine ⟨by omega, ?_⟩
      unfold bit
      rw [show (64 * (p / 64) + j) / 64 = p / 64 by omega,
        show (64 * (p / 64) + j) % 64 = j by omega]
      exact hj'.1
    · show (k = 0 ∧ j = 63) ∨ (up (k + 1) (p / 64) < 64 * up k (p / 64) + j ∧
        hb.levels (k + 1) (64 * up k (p / 64) + j) ≠ 0#64)
      have hj' : (initCur hb.levels 7 p (fun _ => 0#64) k).getLsbD j = true := hj
      rw [hcur k (by omega), getLsbD_initWord, if_neg (by omega), ← up_word] at hj'
      have hlt := BitVec.lt_of_getLsbD hj'.1
      have hword := up_word k p
      by_cases hs : k = 0 ∧ j = 63
      · exact .inl hs
      refine .inr ⟨?_, (hc.linked k hk _ ?_).mp ?_⟩
      · rw [up_bit hk]
        omega
      · rintro ⟨rfl, h63⟩
        omega
      · unfold bit
        rw [show (64 * up k (p / 64) + j) / 64 = up k (p / 64) by omega,
          show (64 * up k (p / 64) + j) % 64 = j by omega]
        exact hj'.1
    · show (initCur hb.levels 7 p (fun _ => 0#64) 0).getLsbD 63 = true
      have h0 := up_zero_of_lt (show p < 2 ^ 41 by omega)
      rw [hcur 0 (by omega), getLsbD_initWord, if_neg (by decide), Nat.div_eq_of_lt (by omega)]
      exact ⟨hc.sentinel, by omega⟩
    · show p ≤ 64 * (p / 64 + 1)
      omega
  · intro m hm hbit
    have hin := hc.inside m hbit
    have h0 : up 0 (m / 64) = up 0 (p / 64) := by
      have h1 := up_zero_of_lt (show m < 2 ^ 41 by omega)
      have h2 := up_zero_of_lt (show p < 2 ^ 41 by omega)
      rw [up_word, up_word]
      omega
    rcases eq_or_part (by omega) h0 with he | ⟨k, -, hk, he, hne⟩
    · refine ⟨6, Nat.le_refl _, congrArg (up 6) he, ?_⟩
      show (initCur hb.levels 7 p (fun _ => 0#64) 6).getLsbD (up 6 m % 64) = true
      rw [hcur 6 (Nat.le_refl _), up_last, up_last, getLsbD_initWord, if_pos rfl, ← he]
      exact ⟨hbit, by omega⟩
    · refine ⟨k, by omega, he, ?_⟩
      show (initCur hb.levels 7 p (fun _ => 0#64) k).getLsbD (up k m % 64) = true
      have hb := bit_up hc hbit (k := k) (by omega)
      have hmono := up_mono k hm
      have hw := up_word k m
      have hw' := up_word k p
      rw [up_bit hk, up_bit hk] at hne
      unfold bit at hb
      rw [← hw, he] at hb
      rw [hcur k (by omega), getLsbD_initWord, if_neg (by omega), ← up_word]
      exact ⟨hb, by omega⟩

end Hierarchical
