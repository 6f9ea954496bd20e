import TraceSyscallObj.HBitmap.Refine

/-!
# Setting and resetting no items

`hbitmap_set` and `hbitmap_reset` take the last item of the range to be `start + count - 1`.  With
`count` 0 that is the item before `start`, on 64 bits: an item of the same group, of the group
before, or the last item of all.

* `boundedSet`, `boundedReset`: the two functions with the bounds of the last level's words;
* `set_range_iff`, `reset_range_iff`: a range is left as it was;
* `Settled`: the groups that are touched have their bits already;
* `no_items_iff`: when a call with no items changes nothing.
-/

namespace Hierarchical

/-- `hbitmap_set` where the words of the last level are an array, as `hbitmap_alloc` makes it -/
def boundedSet (hb : HBitmap) (start count : Nat) : Except Fault HBitmap :=
  if lastItem start count >>> hb.granularity / 64 < levelSize hb.size then hbitmapSet hb start count
  else .error .bounds

def boundedReset (hb : HBitmap) (start count : Nat) : Except Fault HBitmap :=
  if lastItem start count >>> hb.granularity / 64 < levelSize hb.size then
    hbitmapReset hb start count
  else .error .bounds

/-! ## the last level determines the others -/

lemma words_ext {ws ws' : Words} (h : ∀ n, bit ws' n = bit ws n) : ws' = ws := by
  funext k
  apply BitVec.eq_of_getLsbD_eq
  intro j hj
  have := h (64 * k + j)
  unfold bit at this
  rwa [show (64 * k + j) / 64 = k by omega, show (64 * k + j) % 64 = j by omega] at this

lemma levels_ext {lv lv' : Levels} (hl : ∀ i < 6, Linked lv i) (hl' : ∀ i < 6, Linked lv' i)
    (h0 : bit (lv 0) 63 = true) (h0' : bit (lv' 0) 63 = true)
    (h : ∀ n, bit (lv' 6) n = bit (lv 6) n) (d : Nat) : ∀ i, i + d = 6 → lv' i = lv i := by
  -- from the last level up
  induction d with
  | zero =>
    intro i hi
    obtain rfl : i = 6 := by omega
    exact words_ext h
  | succ d ih =>
    intro i hi
    have hnext : lv' (i + 1) = lv (i + 1) := ih (i + 1) (by omega)
    apply words_ext
    intro n
    by_cases hn : i = 0 ∧ n = 63
    · obtain ⟨rfl, rfl⟩ := hn
      rw [h0, h0']
    · have hbit := hl' i (by omega) n hn
      rw [hnext, ← hl i (by omega) n hn] at hbit
      exact Bool.eq_iff_iff.mpr hbit

lemma levels_kept_iff {hb : HBitmap} {lv : Levels} {f : Nat → Bool} (hc : Consistent hb)
    (h : Adjusted 6 hb.levels lv f) : lv = hb.levels ↔ ∀ n, f n = bit (hb.levels 6) n := by
  constructor
  · rintro rfl n
    exact (h.bits n).symm
  · intro hsame
    funext i
    by_cases hi : 6 < i
    · exact h.above i hi
    · exact levels_ext hc.linked h.linked hc.sentinel (h.sentinel hc.sentinel)
        (fun n => (h.bits n).trans (hsame n)) (6 - i) i (by omega)

/-! ## ranges -/

section
variable {hb : HBitmap} {start count s l c : Nat}

lemma count_full {p : Nat → Prop} [DecidablePred p] (h : ∀ n, s ≤ n → n ≤ l → p n)
    (hs : s ≤ l) : Nat.count p (l + 1) = Nat.count p s + (l + 1 - s) := by
  have hsplit : l + 1 = s + (l + 1 - s) := by omega
  rw [hsplit, Nat.count_add, Nat.add_sub_cancel_left]
  congr 1
  rw [Nat.count_eq_card_filter_range, Finset.filter_true_of_mem, Finset.card_range]
  intro k hk
  exact h _ (by omega) (by have := Finset.mem_range.mp hk; omega)

lemma set_range_iff (hc : Consistent hb) (hs : s ≤ l) (hstart : start >>> hb.granularity = s)
    (hlast : lastItem start count >>> hb.granularity = l) (hcount : hbCountBetween hb s l = .ok c)
    (hrank : c + rank hb s = rank hb (l + 1)) :
    hbitmapSet hb start count = .ok hb ↔ ∀ n, s ≤ n → n ≤ l → bit (hb.levels 6) n = true := by
  obtain ⟨lv, h1, hlv⟩ := hbSetBetween_spec 6 hb.levels s l hs hc.linked
  rw [hbitmapSet_eq hstart hlast hcount h1]
  constructor
  · intro h n hn hn'
    have hsame := (levels_kept_iff hc hlv).mp (congrArg HBitmap.levels (Except.ok.inj h)) n
    rwa [decide_eq_true ⟨hn, hn'⟩, Bool.or_true, eq_comm] at hsame
  · intro h
    have hkept : lv = hb.levels := (levels_kept_iff hc hlv).mpr fun n => by
      by_cases hn : s ≤ n ∧ n ≤ l
      · rw [h n hn.1 hn.2, Bool.true_or]
      · rw [decide_eq_false hn, Bool.or_false]
    have hfull : rank hb (l + 1) = rank hb s + (l + 1 - s) := count_full h hs
    have hzero : BitVec.ofNat 64 l - BitVec.ofNat 64 s + 1#64 - BitVec.ofNat 64 c = 0#64 := by
      have h2 := congrArg (BitVec.ofNat 64) (show l + 1 = c + s by omega)
      rw [BitVec.ofNat_add, BitVec.ofNat_add] at h2
      grind
    rw [hkept, hzero, BitVec.add_zero]

lemma reset_range_iff (hc : Consistent hb) (hs : s ≤ l) (hl : l < 2 ^ 41)
    (hstart : start >>> hb.granularity = s)
    (hlast : lastItem start count >>> hb.granularity = l) (hcount : hbCountBetween hb s l = .ok c)
    (hrank : c + rank hb s = rank hb (l + 1)) :
    hbitmapReset hb start count = .ok hb ↔ ∀ n, s ≤ n → n ≤ l → bit (hb.levels 6) n = false := by
  obtain ⟨lv, h1, hlv⟩ := hbResetBetween_spec 6 hb.levels s l hs (by omega) hc.linked
  rw [hbitmapReset_eq hstart hlast hcount h1]
  constructor
  · intro h n hn hn'
    have hsame := (levels_kept_iff hc hlv).mp (congrArg HBitmap.levels (Except.ok.inj h)) n
    rwa [decide_eq_true ⟨hn, hn'⟩, Bool.not_true, Bool.and_false, eq_comm] at hsame
  · intro h
    have hkept : lv = hb.levels := (levels_kept_iff hc hlv).mpr fun n => by
      by_cases hn : s ≤ n ∧ n ≤ l
      · rw [h n hn.1 hn.2, Bool.false_and]
      · rw [decide_eq_false hn, Bool.not_false, Bool.and_true]
    have hnone : rank hb (l + 1) = rank hb s := by
      apply rank_of_none (by omega)
      intro m hm hm'
      rw [h m hm (by omega)]
      exact Bool.false_ne_true
    have hc' : c = 0 := by omega
    rw [hkept, hc', BitVec.sub_zero]

end

/-! ## no items -/

section
variable {hb : HBitmap} {start : Nat}

lemma lastItem_zero (hstart : start < 2 ^ 64) :
    lastItem start 0 = if start = 0 then 2 ^ 64 - 1 else start - 1 := by
  unfold lastItem
  split
  · omega
  · omega

lemma group_ne_zero {g : Nat} (h0 : start ≠ 0) (hmod : start % 2 ^ g = 0) : start >>> g ≠ 0 := by
  intro hq
  have hdm := Nat.div_add_mod start (2 ^ g)
  rw [← Nat.shiftRight_eq_div_pow, hq] at hdm
  omega

lemma group_before {g : Nat} (h0 : start ≠ 0) :
    (start - 1) >>> g = if start % 2 ^ g = 0 then start >>> g - 1 else start >>> g := by
  have hpos : 0 < 2 ^ g := Nat.two_pow_pos g
  have hdm := Nat.div_add_mod start (2 ^ g)
  split
  · rename_i hz
    rw [Nat.shiftRight_eq_div_pow, Nat.shiftRight_eq_div_pow, Nat.div_eq_iff hpos, Nat.sub_mul,
      Nat.mul_comm (start / 2 ^ g)]
    omega
  · rw [Nat.shiftRight_eq_div_pow, Nat.shiftRight_eq_div_pow, Nat.div_eq_iff hpos,
      Nat.mul_comm (start / 2 ^ g)]
    omega

lemma hbCountBetween_outside {s l : Nat} (hg : s * 2 ^ hb.granularity < 2 ^ 64)
    (h : ¬ s < hb.size) : hbCountBetween hb s l = .error .assertion := by
  unfold hbCountBetween hbitmapIterInit
  rw [group_first hg]
  rw [if_neg h]
  rfl

/-- the groups that a call with no items touches have the bit `b` already: the group of an item
inside it, or every group for the first item -/
def Settled (hb : HBitmap) (start : Nat) (b : Bool) : Prop :=
  start >>> hb.granularity < hb.size ∧
    ((start % 2 ^ hb.granularity ≠ 0 ∧ bit (hb.levels 6) (start >>> hb.granularity) = b) ∨
      (start = 0 ∧ 2 ^ (64 - hb.granularity) ≤ 64 * levelSize hb.size ∧
        ∀ n < 2 ^ (64 - hb.granularity), bit (hb.levels 6) n = b))

lemma group_mul_lt (hstart : start < 2 ^ 64) (g : Nat) : start >>> g * 2 ^ g < 2 ^ 64 := by
  rw [Nat.shiftRight_eq_div_pow]
  have := Nat.div_mul_le_self start (2 ^ g)
  omega

lemma levelSize_le (hc : Consistent hb) : 64 * levelSize hb.size ≤ 2 ^ 41 := by
  have := hc.size_le
  unfold levelSize
  omega

lemma bounded_range {l : Nat} (hc : Consistent hb) (hstart : start < 2 ^ 64)
    (hin : start >>> hb.granularity < hb.size) (hl : lastItem start 0 >>> hb.granularity = l)
    (hle : start >>> hb.granularity ≤ l) :
    (boundedSet hb start 0 = .ok hb ↔ l < 64 * levelSize hb.size ∧
      ∀ n, start >>> hb.granularity ≤ n → n ≤ l → bit (hb.levels 6) n = true) ∧
    (boundedReset hb start 0 = .ok hb ↔ l < 64 * levelSize hb.size ∧
      ∀ n, start >>> hb.granularity ≤ n → n ≤ l → bit (hb.levels 6) n = false) := by
  have hsize := levelSize_le hc
  unfold boundedSet boundedReset
  rw [hl]
  by_cases hb64 : l / 64 < levelSize hb.size
  · have hlt : l < 64 * levelSize hb.size := by omega
    obtain ⟨c, hcount, hrank⟩ :=
      hbCountBetween_spec hc hle hin (by omega) (group_mul_lt hstart _)
    rw [if_pos hb64, if_pos hb64, set_range_iff hc hle rfl hl hcount hrank,
      reset_range_iff hc hle (by omega) rfl hl hcount hrank]
    exact ⟨(and_iff_right hlt).symm, (and_iff_right hlt).symm⟩
  · have hlt : ¬ l < 64 * levelSize hb.size := by omega
    rw [if_neg hb64, if_neg hb64]
    exact ⟨iff_of_false (by rintro ⟨⟩) fun h => hlt h.1, iff_of_false (by rintro ⟨⟩) fun h => hlt h.1⟩

lemma between_inverted {s l : Nat} (h : l < s) (level : Nat) (lv : Levels) :
    hbSetBetween level lv s l = .error .assertion ∧
      hbResetBetween level lv s l = .error .assertion := by
  have hlt : ¬ s / 64 < l / 64 := by omega
  have hno : ¬ (l / 64 = s / 64 ∧ s ≤ l) := by omega
  have hset : ∀ ws, setLevel ws s l = .error .assertion := by
    intro ws
    unfold setLevel hbSetElem
    rw [if_neg hlt, if_neg hno]
    rfl
  have hreset : ∀ ws, resetLevel ws s l = .error .assertion := by
    intro ws
    unfold resetLevel hbResetElem
    rw [if_neg hlt, if_neg hno]
    rfl
  cases level with
  | zero | succ level =>
    unfold hbSetBetween hbResetBetween
    rw [hset, hreset]
    exact ⟨rfl, rfl⟩

lemma bounded_ne_ok (hstart : start < 2 ^ 64) (h : start >>> hb.granularity < hb.size →
      lastItem start 0 >>> hb.granularity < start >>> hb.granularity) :
    boundedSet hb start 0 ≠ .ok hb ∧ boundedReset hb start 0 ≠ .ok hb := by
  have hg := group_mul_lt hstart hb.granularity
  unfold boundedSet boundedReset hbitmapSet hbitmapReset
  generalize lastItem start 0 >>> hb.granularity = l at h ⊢
  generalize start >>> hb.granularity = s at h hg ⊢
  dsimp only
  by_cases hin : s < hb.size
  · obtain ⟨hset, hreset⟩ := between_inverted (h hin) 6 hb.levels
    rw [hset, hreset]
    cases hbCountBetween hb s l with
    | error e | ok c => constructor <;> split <;> rintro ⟨⟩
  · rw [hbCountBetween_outside hg hin]
    constructor <;> split <;> rintro ⟨⟩

lemma settled_zero_iff (hin : 0 < hb.size) (b : Bool) :
    Settled hb 0 b ↔ 2 ^ (64 - hb.granularity) - 1 < 64 * levelSize hb.size ∧
      ∀ n, 0 >>> hb.granularity ≤ n → n ≤ 2 ^ (64 - hb.granularity) - 1 →
        bit (hb.levels 6) n = b := by
  have hpos : 0 < 2 ^ (64 - hb.granularity) := Nat.two_pow_pos _
  unfold Settled
  rw [Nat.zero_shiftRight]
  constructor
  · rintro ⟨-, ⟨hmod, -⟩ | ⟨-, hfit, hall⟩⟩
    · exact absurd (Nat.zero_mod _) hmod
    · exact ⟨by omega, fun n _ hn => hall n (by omega)⟩
  · rintro ⟨hfit, hall⟩
    exact ⟨hin, .inr ⟨rfl, by omega, fun n hn => hall n (by omega) (by omega)⟩⟩

lemma settled_inside_iff (hin : start >>> hb.granularity < hb.size) (h0 : start ≠ 0)
    (hmod : start % 2 ^ hb.granularity ≠ 0) (b : Bool) :
    Settled hb start b ↔ start >>> hb.granularity < 64 * levelSize hb.size ∧
      ∀ n, start >>> hb.granularity ≤ n → n ≤ start >>> hb.granularity →
        bit (hb.levels 6) n = b := by
  constructor
  · rintro ⟨-, ⟨-, hbit⟩ | ⟨h, -⟩⟩
    · refine ⟨by unfold levelSize; omega, fun n hn hn' => ?_⟩
      rw [show n = start >>> hb.granularity by omega]
      exact hbit
    · exact absurd h h0
  · rintro ⟨-, hall⟩
    exact ⟨hin, .inl ⟨hmod, hall _ (Nat.le_refl _) (Nat.le_refl _)⟩⟩

/-- **A call with no items changes nothing exactly when what it touches has its bits already.**
An item on the edge of its group makes the assertions fail. -/
theorem no_items_iff (hc : Consistent hb) (hstart : start < 2 ^ 64) :
    (boundedSet hb start 0 = .ok hb ↔ Settled hb start true) ∧
      (boundedReset hb start 0 = .ok hb ↔ Settled hb start false) := by
  have hlast := lastItem_zero hstart
  by_cases hin : start >>> hb.granularity < hb.size
  · by_cases h0 : start = 0
    · -- every item
      subst h0
      have hpow : 2 ^ 64 = 2 ^ hb.granularity * 2 ^ (64 - hb.granularity) := by
        rw [← Nat.pow_add, Nat.add_sub_cancel' hc.granularity_lt.le]
      have hpos : 0 < 2 ^ (64 - hb.granularity) := Nat.two_pow_pos _
      have hl : lastItem 0 0 >>> hb.granularity = 2 ^ (64 - hb.granularity) - 1 := by
        rw [hlast, if_pos rfl, Nat.shiftRight_eq_div_pow, hpow]
        have hle := Nat.le_mul_of_pos_right (2 ^ hb.granularity) hpos
        have hg := Nat.two_pow_pos hb.granularity
        rw [Nat.div_eq_iff hg, Nat.sub_mul, Nat.mul_comm (2 ^ (64 - _))]
        generalize 2 ^ hb.granularity * 2 ^ (64 - hb.granularity) = all at hle ⊢
        omega
      have hs0 : (0 : Nat) >>> hb.granularity = 0 := Nat.zero_shiftRight _
      rw [settled_zero_iff (hs0 ▸ hin), settled_zero_iff (hs0 ▸ hin)]
      exact bounded_range hc hstart hin hl (by omega)
    rw [if_neg h0] at hlast
    have hgroup := group_before (g := hb.granularity) h0
    by_cases hmod : start % 2 ^ hb.granularity = 0
    · -- the range ends before it starts
      have hlt : lastItem start 0 >>> hb.granularity < start >>> hb.granularity := by
        rw [hlast, hgroup, if_pos hmod]
        exact Nat.sub_one_lt (group_ne_zero h0 hmod)
      obtain ⟨hset, hreset⟩ := bounded_ne_ok hstart fun _ => hlt
      have hno : ∀ b, ¬ Settled hb start b := by
        rintro b ⟨-, ⟨h, -⟩ | ⟨h, -⟩⟩
        · exact h hmod
        · exact h0 h
      exact ⟨iff_of_false hset (hno true), iff_of_false hreset (hno false)⟩
    · -- the group of `start`
      rw [settled_inside_iff hin h0 hmod, settled_inside_iff hin h0 hmod]
      exact bounded_range hc hstart hin (by rw [hlast, hgroup, if_neg hmod]) (Nat.le_refl _)
  · obtain ⟨hset, hreset⟩ := bounded_ne_ok hstart fun h => absurd h hin
    exact ⟨iff_of_false hset fun h => hin h.1, iff_of_false hreset fun h => hin h.1⟩

end

/-- in the middle of a group that is clear, and of one that is set -/
theorem no_items_iff_sixteen : boundedReset sixteen 1 0 = .ok sixteen ∧
    ∃ hb', hbitmapSet sixteen 4 2 = .ok hb' ∧ boundedSet hb' 5 0 = .ok hb' := by
  have hc : Consistent sixteen := consistent_empty (by decide) (by decide)
  obtain ⟨hb', hset, hc', hsize, hgran, hbits⟩ := hbitmapSet_spec hc
    (show Inside sixteen 4 2 by decide)
  refine ⟨(no_items_iff hc (by decide)).2.mpr ⟨by decide, .inl ⟨by decide, by decide⟩⟩, hb', hset,
    (no_items_iff hc' (by decide)).1.mpr ?_⟩
  unfold Settled
  rw [hsize, hgran, hbits]
  exact ⟨by decide, .inl ⟨by decide, by decide⟩⟩

/-- no items from item 1 on set the group of items 0 and 1, and from item 2 on fail an assertion -/
theorem no_items_set_group :
    (∃ hb', boundedSet sixteen 1 0 = .ok hb' ∧ hbitmapGet sixteen 0 = false ∧
      hbitmapGet hb' 0 = true) ∧
    boundedSet sixteen 2 0 = .error .assertion ∧ boundedReset sixteen 2 0 = .error .assertion :=
  ⟨⟨_, rfl, by decide, by decide⟩, rfl, rfl⟩

end Hierarchical
