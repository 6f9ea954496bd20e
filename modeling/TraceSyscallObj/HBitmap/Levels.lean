import TraceSyscallObj.HBitmap.Model

/-!
# Setting and resetting a range in all levels

A call works on one level and passes the words that became non-zero, or zero, on to the level
above.

* `setLevel_spec`, `resetLevel_spec`: one level;
* `hbSetBetween_spec`, `hbResetBetween_spec`: the recursion keeps the levels linked.
-/

namespace Hierarchical
open Function Bits

lemma bit_update (ws : Words) (i : Nat) (w : Word) (n : Nat) :
    bit (update ws i w) n = if n / 64 = i then w.getLsbD (n % 64) else bit ws n := by
  unfold bit
  rw [update_apply]
  split
  · rfl
  · rfl

lemma ne_zero_iff (ws : Words) (k : Nat) : ws k ≠ 0#64 ↔ ∃ n, n / 64 = k ∧ bit ws n = true := by
  rw [exists_bit_iff]
  constructor
  · rintro ⟨j, hj⟩
    have hlt := BitVec.lt_of_getLsbD hj
    refine ⟨64 * k + j, by omega, ?_⟩
    unfold bit
    rwa [show (64 * k + j) / 64 = k by omega, show (64 * k + j) % 64 = j by omega]
  · rintro ⟨n, rfl, hn⟩
    exact ⟨n % 64, hn⟩

lemma getLsbD_elemMask {start last : Nat} (hw : last / 64 = start / 64) (h : start ≤ last)
    (n : Nat) (hn : n / 64 = start / 64) :
    (elemMask start last).getLsbD (n % 64) = decide (start ≤ n ∧ n ≤ last) := by
  rw [elemMask, getLsbD_range (by omega) (by omega), ← Bool.decide_and]
  apply decide_eq_decide.mpr
  omega

lemma or_63 (start : Nat) : start ||| 63 = 64 * (start / 64) + 63 := by
  have h := Nat.shiftLeft_add_eq_or_of_lt (show start % 64 < 2 ^ 6 by omega) (start / 64)
  have h63 : start % 64 ||| 63 = 63 := by
    have : start % 64 < 64 := by omega
    generalize start % 64 = r at this
    revert r
    decide
  have hs : start = (start / 64) <<< 6 ||| start % 64 := by
    omega
  have h' := Nat.shiftLeft_add_eq_or_of_lt (show 63 < 2 ^ 6 by decide) (start / 64)
  rw [hs, Nat.or_assoc, h63]
  omega

/-! ## one level -/

lemma fillWords_spec (fill : Word) (hit : Word → Bool) (lastpos : Nat) (fuel : Nat) :
    ∀ (ws : Words) (i next : Nat) (changed : Bool), i < lastpos → lastpos - i ≤ fuel →
      ∃ ws' changed', fillWords fill hit lastpos fuel ws i next changed =
          .ok (ws', lastpos, next + 64 * (lastpos - i - 1), changed') ∧
        (∀ k, ws' k = if i < k ∧ k < lastpos then fill else ws k) ∧
        (changed' = true ↔ changed = true ∨ ∃ k, i < k ∧ k < lastpos ∧ hit (ws k) = true) := by
  induction fuel with
  | zero =>
    intro ws i next changed hi hf
    omega
  | succ fuel ih =>
    intro ws i next changed hi hf
    rw [fillWords]
    split
    · rename_i hlast
      refine ⟨ws, changed, ?_, ?_, ?_⟩
      · rw [hlast, show lastpos - i - 1 = 0 by omega, Nat.add_zero]
      · intro k
        rw [if_neg (by omega)]
      · constructor
        · exact Or.inl
        · rintro (h | ⟨k, h1, h2, -⟩)
          · exact h
          · omega
    · rename_i hlast
      obtain ⟨ws', changed', h1, h2, h3⟩ := ih (update ws (i + 1) fill) (i + 1)
        (next + 64) (changed || hit (ws (i + 1))) (by omega) (by omega)
      refine ⟨ws', changed', ?_, ?_, ?_⟩
      · rw [h1, show next + 64 + 64 * (lastpos - (i + 1) - 1) = next + 64 * (lastpos - i - 1) by omega]
      · intro k
        rw [h2 k, update_apply]
        by_cases hk : k = i + 1
        · rw [if_neg (by omega), if_pos hk, if_pos (by omega)]
        · by_cases hk' : i + 1 < k ∧ k < lastpos
          · rw [if_pos hk', if_pos (by omega)]
          · rw [if_neg hk', if_neg hk, if_neg (by omega)]
      · rw [h3, Bool.or_eq_true, or_assoc]
        apply or_congr_right
        constructor
        · rintro (h | ⟨k, hk1, hk2, hk3⟩)
          · exact ⟨i + 1, by omega, by omega, h⟩
          · rw [update_of_ne (by omega)] at hk3
            exact ⟨k, by omega, hk2, hk3⟩
        · rintro ⟨k, hk1, hk2, hk3⟩
          by_cases hk : k = i + 1
          · exact .inl (hk ▸ hk3)
          · refine .inr ⟨k, by omega, hk2, ?_⟩
            rwa [update_of_ne hk]

section
variable (elem : Word) (start last : Nat) (hw : last / 64 = start / 64) (h : start ≤ last)
include elem start last hw h

lemma hbSetElem_ok :
    hbSetElem elem start last = .ok (elem ||| elemMask start last, elem == 0#64) := by
  rw [hbSetElem, if_pos ⟨hw, h⟩]

lemma hbResetElem_ok : hbResetElem elem start last = .ok (elem &&& ~~~elemMask start last,
      elem != 0#64 && (elem &&& ~~~elemMask start last) == 0#64) := by
  rw [hbResetElem, if_pos ⟨hw, h⟩]

end

section
variable (ws : Words) (start last : Nat) (hw : last / 64 = start / 64) (h : start ≤ last) (n : Nat)
include ws start last hw h n

lemma bit_setElem :
    bit (update ws (start / 64) (ws (start / 64) ||| elemMask start last)) n =
      (bit ws n || decide (start ≤ n ∧ n ≤ last)) := by
  rw [bit_update]
  split
  · rename_i hn
    rw [BitVec.getLsbD_or, getLsbD_elemMask hw h n hn, ← hn]
    rfl
  · rw [decide_eq_false (by omega), Bool.or_false]

lemma bit_resetElem :
    bit (update ws (start / 64) (ws (start / 64) &&& ~~~elemMask start last)) n =
      (bit ws n && !decide (start ≤ n ∧ n ≤ last)) := by
  rw [bit_update]
  split
  · rename_i hn
    rw [BitVec.getLsbD_and, getLsbD_not (by omega), getLsbD_elemMask hw h n hn, ← hn]
    rfl
  · rw [decide_eq_false (by omega), Bool.not_false, Bool.and_true]

end

lemma bit_fill {ws ws' : Words} {i lastpos : Nat} {fill : Word}
    (h : ∀ k, ws' k = if i < k ∧ k < lastpos then fill else ws k) (n : Nat) :
    bit ws' n = if i < n / 64 ∧ n / 64 < lastpos then fill.getLsbD (n % 64) else bit ws n := by
  unfold bit
  rw [h]
  split
  · rfl
  · rfl

lemma setLevel_spec (ws : Words) {start last : Nat} (h : start ≤ last) :
    ∃ ws' changed, setLevel ws start last = .ok (ws', changed) ∧
      (∀ n, bit ws' n = (bit ws n || decide (start ≤ n ∧ n ≤ last))) ∧
      (changed = false → ∀ k, start / 64 ≤ k → k ≤ last / 64 → ws k ≠ 0#64) := by
  have hnext : (start ||| 63) + 1 = 64 * (start / 64) + 64 := by rw [or_63]
  by_cases hlt : start / 64 < last / 64
  · have h1 := hbSetElem_ok (ws (start / 64)) start (64 * (start / 64) + 64 - 1) (by omega)
      (by omega)
    have hb1 := bit_setElem ws start (64 * (start / 64) + 64 - 1) (by omega) (by omega)
    generalize hw1 : ws (start / 64) ||| elemMask start (64 * (start / 64) + 64 - 1) = w1 at h1 hb1
    obtain ⟨ws2, c2, h2, hw2, hc2⟩ := fillWords_spec (~~~0#64) (· == 0#64) (last / 64)
      (last / 64 - start / 64) (update ws (start / 64) w1) (start / 64)
      (64 * (start / 64) + 64) (ws (start / 64) == 0#64) hlt (by omega)
    rw [show 64 * (start / 64) + 64 + 64 * (last / 64 - start / 64 - 1) = 64 * (last / 64) by omega]
      at h2
    have h3 := hbSetElem_ok (ws2 (last / 64)) (64 * (last / 64)) last (by omega) (by omega)
    have hb3 := bit_setElem ws2 (64 * (last / 64)) last (by omega) (by omega)
    rw [show 64 * (last / 64) / 64 = last / 64 by omega] at hb3
    refine ⟨_, c2 || ws2 (last / 64) == 0#64, ?_, fun n => (hb3 n).trans ?_, fun hc k hk1 hk2 => ?_⟩
    · rw [setLevel, if_pos hlt]
      simp only [bind, Except.bind, pure, Except.pure, hnext, h1, h2, h3]
    · rw [bit_fill hw2, hb1]
      by_cases hn : start / 64 < n / 64 ∧ n / 64 < last / 64
      · have hin : start ≤ n ∧ n ≤ last := by omega
        rw [if_pos hn, getLsbD_not (by omega), BitVec.getLsbD_zero, Bool.not_false, Bool.true_or,
          decide_eq_true hin, Bool.or_true]
      · rw [if_neg hn, Bool.or_assoc, ← Bool.decide_or]
        congr 1
        apply decide_eq_decide.mpr
        omega
    · obtain ⟨hc1, hc3⟩ := Bool.or_eq_false_iff.mp hc
      rw [← Bool.not_eq_true, hc2, not_or] at hc1
      rcases Nat.eq_or_lt_of_le hk1 with hk | hk
      · exact hk ▸ fun h0 => hc1.1 (beq_iff_eq.mpr h0)
      have hk0 : update ws (start / 64) w1 k = ws k := update_of_ne (by omega) _ _
      rcases Nat.eq_or_lt_of_le hk2 with hl | hl
      · rw [hw2, if_neg (by omega), ← hl, hk0] at hc3
        exact beq_eq_false_iff_ne.mp hc3
      · intro h0
        exact hc1.2 ⟨k, hk, hl, beq_iff_eq.mpr (hk0.trans h0)⟩
  · have hw : last / 64 = start / 64 := by omega
    refine ⟨_, ws (start / 64) == 0#64, ?_, bit_setElem ws start last hw h, fun hc k hk1 hk2 => ?_⟩
    · rw [setLevel, if_neg hlt]
      simp only [bind, Except.bind, pure, Except.pure, hbSetElem_ok _ start last hw h]
    · rw [show k = start / 64 by omega]
      exact beq_eq_false_iff_ne.mp hc

/-- the range for the level above: `Z k` if word `k` was blanked, `E k` if it is zero -/
lemma trim_spec {s l : Nat} (hlt : s < l) {Z E : Nat → Prop} {b d c : Bool}
    (hb : b = true ↔ Z s) (hd : d = true ↔ Z l)
    (hc : c = true ↔ b = true ∨ ∃ k, s < k ∧ k < l ∧ Z k)
    (hZ : ∀ k, Z k → E k) (hE : ∀ k, s < k → k < l → E k) :
    ((c || d) = true → s ≤ (if b then s else s + 1) ∧
      (if b then s else s + 1) ≤ (if d then l else l - 1) ∧ (if d then l else l - 1) ≤ l ∧
      ∀ k, (if b then s else s + 1) ≤ k → k ≤ (if d then l else l - 1) → E k) ∧
    ∀ k, s ≤ k → k ≤ l → Z k → (c || d) = true ∧ (if b then s else s + 1) ≤ k ∧
      k ≤ (if d then l else l - 1) := by
  constructor
  · intro h
    refine ⟨by grind, by grind, by grind, by grind⟩
  · intro k h1 h2 h3
    refine ⟨by grind, by grind, by grind⟩

lemma resetLevel_spec (ws : Words) {start last : Nat} (h : start ≤ last) :
    ∃ ws' pos lastpos changed, resetLevel ws start last = .ok (ws', pos, lastpos, changed) ∧
      (∀ n, bit ws' n = (bit ws n && !decide (start ≤ n ∧ n ≤ last))) ∧
      (changed = true → start / 64 ≤ pos ∧ pos ≤ lastpos ∧ lastpos ≤ last / 64 ∧
        ∀ k, pos ≤ k → k ≤ lastpos → ws' k = 0#64) ∧
      (∀ k, ws k ≠ 0#64 → ws' k = 0#64 → changed = true ∧ pos ≤ k ∧ k ≤ lastpos) := by
  have hnext : (start ||| 63) + 1 = 64 * (start / 64) + 64 := by rw [or_63]
  by_cases hlt : start / 64 < last / 64
  · have h1 := hbResetElem_ok (ws (start / 64)) start (64 * (start / 64) + 64 - 1) (by omega)
      (by omega)
    have hb1 := bit_resetElem ws start (64 * (start / 64) + 64 - 1) (by omega) (by omega)
    generalize hw1 : ws (start / 64) &&& ~~~elemMask start (64 * (start / 64) + 64 - 1) = w1
      at h1 hb1
    generalize hbl : (ws (start / 64) != 0#64 && w1 == 0#64) = blanked at h1
    obtain ⟨ws2, c2, h2, hw2, hc2⟩ := fillWords_spec 0#64 (· != 0#64) (last / 64)
      (last / 64 - start / 64) (update ws (start / 64) w1) (start / 64)
      (64 * (start / 64) + 64) blanked hlt (by omega)
    rw [show 64 * (start / 64) + 64 + 64 * (last / 64 - start / 64 - 1) = 64 * (last / 64) by omega]
      at h2
    have h3 := hbResetElem_ok (ws2 (last / 64)) (64 * (last / 64)) last (by omega) (by omega)
    have hb3 := bit_resetElem ws2 (64 * (last / 64)) last (by omega) (by omega)
    rw [show 64 * (last / 64) / 64 = last / 64 by omega] at hb3
    have hlast : ws2 (last / 64) = ws (last / 64) := by
      rw [hw2, if_neg (by omega), update_of_ne (by omega)]
    generalize hw3 : ws2 (last / 64) &&& ~~~elemMask (64 * (last / 64)) last = w3 at h3 hb3
    generalize hbl' : (ws2 (last / 64) != 0#64 && w3 == 0#64) = blanked' at h3
    rw [hlast] at hbl'
    simp only [bne_iff_ne] at hc2
    -- the words of the range, and the others
    have hat0 : update ws2 (last / 64) w3 (start / 64) = w1 := by
      rw [update_of_ne (by omega), hw2, if_neg (by omega), update_self]
    have hat1 : update ws2 (last / 64) w3 (last / 64) = w3 := update_self _ _ _
    have hmid : ∀ k, start / 64 < k → k < last / 64 →
        update ws2 (last / 64) w3 k = 0#64 := by
      intro k hk1 hk2
      rw [update_of_ne (by omega), hw2, if_pos ⟨hk1, hk2⟩]
    have hout : ∀ k, ¬ (start / 64 ≤ k ∧ k ≤ last / 64) →
        update ws2 (last / 64) w3 k = ws k := by
      intro k hk
      rw [update_of_ne (by omega), hw2, if_neg (by omega), update_of_ne (by omega)]
    obtain ⟨ht1, ht2⟩ := trim_spec hlt (b := blanked) (d := blanked') (c := c2)
      (Z := fun k => ws k ≠ 0#64 ∧ update ws2 (last / 64) w3 k = 0#64)
      (E := fun k => update ws2 (last / 64) w3 k = 0#64)
      (by rw [← hbl, Bool.and_eq_true_iff, bne_iff_ne, beq_iff_eq, hat0])
      (by rw [← hbl', Bool.and_eq_true_iff, bne_iff_ne, beq_iff_eq, hat1])
      (by
        rw [hc2]
        apply or_congr_right
        constructor
        · rintro ⟨k, hk1, hk2, hk3⟩
          rw [update_of_ne (by omega)] at hk3
          exact ⟨k, hk1, hk2, hk3, hmid k hk1 hk2⟩
        · rintro ⟨k, hk1, hk2, hk3, -⟩
          refine ⟨k, hk1, hk2, ?_⟩
          rwa [update_of_ne (by omega)])
      (fun k hk => hk.2) hmid
    refine ⟨_, if blanked then start / 64 else start / 64 + 1,
      if blanked' then last / 64 else last / 64 - 1, c2 || blanked', ?_,
      fun n => (hb3 n).trans ?_, ht1, fun k hk hk' => ?_⟩
    · rw [resetLevel, if_pos hlt]
      simp only [bind, Except.bind, pure, Except.pure, hnext, h1, h2, h3]
    · rw [bit_fill hw2, hb1]
      by_cases hn : start / 64 < n / 64 ∧ n / 64 < last / 64
      · have hin : start ≤ n ∧ n ≤ last := by omega
        rw [if_pos hn, BitVec.getLsbD_zero, Bool.false_and, decide_eq_true hin, Bool.not_true,
          Bool.and_false]
      · rw [if_neg hn, Bool.and_assoc, ← Bool.not_or, ← Bool.decide_or]
        congr 2
        apply decide_eq_decide.mpr
        omega
    · by_cases hin : start / 64 ≤ k ∧ k ≤ last / 64
      · exact ht2 k hin.1 hin.2 ⟨hk, hk'⟩
      · rw [hout k hin] at hk'
        exact absurd hk' hk
  · have hw : last / 64 = start / 64 := by omega
    have h1 := hbResetElem_ok (ws (start / 64)) start last hw h
    have hb1 := bit_resetElem ws start last hw h
    generalize ws (start / 64) &&& ~~~elemMask start last = w1 at h1 hb1
    refine ⟨_, start / 64, if ws (start / 64) != 0#64 && w1 == 0#64 then last / 64 else
      last / 64 - 1, ws (start / 64) != 0#64 && w1 == 0#64, ?_, hb1, fun hc => ?_,
      fun k hk hk' => ?_⟩
    · rw [resetLevel, if_neg hlt]
      simp only [bind, Except.bind, pure, Except.pure, h1]
    · rw [if_pos hc]
      refine ⟨Nat.le_refl _, by omega, Nat.le_refl _, fun k hk1 hk2 => ?_⟩
      rw [show k = start / 64 by omega, update_self]
      exact beq_iff_eq.mp (Bool.and_eq_true_iff.mp hc).2
    · rw [update_apply] at hk'
      split at hk'
      · rename_i hks
        subst hks
        have hc : (ws (start / 64) != 0#64 && w1 == 0#64) = true := by
          rw [Bool.and_eq_true_iff, bne_iff_ne, beq_iff_eq]
          exact ⟨hk, hk'⟩
        rw [if_pos hc]
        exact ⟨hc, Nat.le_refl _, by omega⟩
      · exact absurd hk' hk

/-! ## all levels -/

lemma linked_congr {lv lv' : Levels} {i : Nat} (h : lv' i = lv i) (h' : lv' (i + 1) = lv (i + 1))
    (hl : Linked lv i) : Linked lv' i := by
  intro n hn
  rw [h, h']
  exact hl n hn

/-- `lv'` is `lv` with the bits `f` in level `level`, and the levels above adjusted to them -/
structure Adjusted (level : Nat) (lv lv' : Levels) (f : Nat → Bool) : Prop where
  above : ∀ i, level < i → lv' i = lv i
  bits : ∀ n, bit (lv' level) n = f n
  linked : ∀ i < level, Linked lv' i
  sentinel : bit (lv 0) 63 = true → bit (lv' 0) 63 = true

section
variable {lv lv' : Levels} {level : Nat} {ws : Words} {f g : Nat → Bool}

lemma adjusted_zero (hbits : ∀ n, bit ws n = f n) (h63 : bit (lv 0) 63 = true → f 63 = true) :
    Adjusted 0 lv (update lv 0 ws) f := by
  refine ⟨fun i hi => update_of_ne (by omega) _ _, ?_, fun i hi => absurd hi (by omega), ?_⟩
  · rw [update_self]
    exact hbits
  · rw [update_self, hbits]
    exact h63

lemma linked_update (hl : ∀ i < level + 1, Linked lv i) :
    ∀ i < level, Linked (update lv (level + 1) ws) i := by
  intro i hi
  exact linked_congr (update_of_ne (by omega) _ _) (update_of_ne (by omega) _ _)
    (hl i (by omega))

lemma adjusted_stay (hl : ∀ i < level + 1, Linked lv i) (hbits : ∀ n, bit ws n = f n)
    (hsame : ∀ k, lv (level + 1) k ≠ 0#64 ↔ ws k ≠ 0#64) :
    Adjusted (level + 1) lv (update lv (level + 1) ws) f := by
  refine ⟨fun i hi => update_of_ne (by omega) _ _, ?_, fun i hi => ?_, ?_⟩
  · rw [update_self]
    exact hbits
  · rcases Nat.lt_or_ge i level with hi' | hi'
    · exact linked_update hl i hi'
    have hil : i = level := by omega
    subst hil
    intro n hn
    rw [update_of_ne (by omega), update_self, hl i hi n hn]
    exact hsame n
  · rw [update_of_ne (by omega)]
    exact id

lemma adjusted_up (h : Adjusted level (update lv (level + 1) ws) lv' g)
    (hbits : ∀ n, bit ws n = f n) (hl : Linked lv level)
    (hword : ∀ n, (bit (lv level) n = true ↔ lv (level + 1) n ≠ 0#64) →
      (g n = true ↔ ws n ≠ 0#64)) : Adjusted (level + 1) lv lv' f := by
  have hat : lv' (level + 1) = ws := (h.above _ (by omega)).trans (update_self _ _ _)
  refine ⟨fun i hi => ?_, fun n => ?_, fun i hi => ?_, fun h63 => ?_⟩
  · exact (h.above i (by omega)).trans (update_of_ne (by omega) _ _)
  · rw [hat, hbits]
  · rcases Nat.lt_or_ge i level with hi' | hi'
    · exact h.linked i hi'
    have hil : i = level := by omega
    subst hil
    intro n hn
    rw [h.bits, hat]
    exact hword n (hl n hn)
  · refine h.sentinel ?_
    rwa [update_of_ne (by omega)]
end

lemma hbSetBetween_spec (level : Nat) : ∀ (lv : Levels) (start last : Nat), start ≤ last →
    (∀ i < level, Linked lv i) → ∃ lv', hbSetBetween level lv start last = .ok lv' ∧
      Adjusted level lv lv' fun n => bit (lv level) n || decide (start ≤ n ∧ n ≤ last) := by
  induction level with
  | zero =>
    intro lv start last h _
    obtain ⟨ws, c, h1, h2, -⟩ := setLevel_spec (lv 0) h
    refine ⟨update lv 0 ws, ?_, adjusted_zero h2 fun h63 => ?_⟩
    · simp only [hbSetBetween, bind, Except.bind, pure, Except.pure, h1]
    · rw [h63, Bool.true_or]
  | succ level ih =>
    intro lv start last h hl
    obtain ⟨ws, c, h1, h2, h3⟩ := setLevel_spec (lv (level + 1)) h
    have hnz : ∀ k, ws k ≠ 0#64 ↔ lv (level + 1) k ≠ 0#64 ∨ (start / 64 ≤ k ∧ k ≤ last / 64) := by
      intro k
      simp only [ne_zero_iff, h2, Bool.or_eq_true, decide_eq_true_eq]
      constructor
      · rintro ⟨n, hn, hb | hb⟩
        · exact .inl ⟨n, hn, hb⟩
        · exact .inr (by omega)
      · rintro (⟨n, hn, hb⟩ | hk)
        · exact ⟨n, hn, .inl hb⟩
        · refine ⟨max start (64 * k), ?_, .inr ?_⟩
          · omega
          · omega
    cases c with
    | false =>
      refine ⟨update lv (level + 1) ws, ?_, adjusted_stay hl h2 fun k => ?_⟩
      · simp only [hbSetBetween, h1]
        rfl
      -- every word of the range had a bit set before
      · rw [hnz]
        constructor
        · exact Or.inl
        · rintro (hk | hk)
          · exact hk
          · exact h3 rfl k hk.1 hk.2
    | true =>
      obtain ⟨lv', g1, g2⟩ := ih (update lv (level + 1) ws) (start / 64) (last / 64)
        (by omega) (linked_update hl)
      refine ⟨lv', ?_, adjusted_up g2 h2 (hl level (by omega)) fun n hn => ?_⟩
      · simp only [hbSetBetween, h1]
        exact g1
      · rw [hnz, update_of_ne (by omega), Bool.or_eq_true, decide_eq_true_eq, hn]

lemma hbResetBetween_spec (level : Nat) : ∀ (lv : Levels) (start last : Nat), start ≤ last →
    last < 63 * 64 ^ level → (∀ i < level, Linked lv i) →
      ∃ lv', hbResetBetween level lv start last = .ok lv' ∧
        Adjusted level lv lv' fun n => bit (lv level) n && !decide (start ≤ n ∧ n ≤ last) := by
  induction level with
  | zero =>
    intro lv start last h hlast _
    obtain ⟨ws, p, l, c, h1, h2, -, -⟩ := resetLevel_spec (lv 0) h
    refine ⟨update lv 0 ws, ?_, adjusted_zero h2 fun h63 => ?_⟩
    · simp only [hbResetBetween, bind, Except.bind, pure, Except.pure, h1]
    · rw [h63, decide_eq_false (by omega)]
      rfl
  | succ level ih =>
    intro lv start last h hlast hl
    obtain ⟨ws, p, l, c, h1, h2, h3, h4⟩ := resetLevel_spec (lv (level + 1)) h
    have hkeep : ∀ k, ws k ≠ 0#64 → lv (level + 1) k ≠ 0#64 := by
      intro k
      simp only [ne_zero_iff, h2, Bool.and_eq_true]
      rintro ⟨n, hn, hb, -⟩
      exact ⟨n, hn, hb⟩
    cases c with
    | false =>
      refine ⟨update lv (level + 1) ws, ?_, adjusted_stay hl h2 fun k => ⟨?_, hkeep k⟩⟩
      · simp only [hbResetBetween, h1]
        rfl
      -- no word became zero
      · intro hk hk'
        exact absurd (h4 k hk hk').1 (by decide)
    | true =>
      obtain ⟨hp1, hp2, hp3, hp4⟩ := h3 rfl
      obtain ⟨lv', g1, g2⟩ := ih (update lv (level + 1) ws) p l hp2 (by omega)
        (linked_update hl)
      refine ⟨lv', ?_, adjusted_up g2 h2 (hl level (by omega)) fun n hn => ?_⟩
      · simp only [hbResetBetween, h1]
        exact g1
      · rw [update_of_ne (by omega), Bool.and_eq_true, hn, Bool.not_eq_true',
          decide_eq_false_iff_not]
        constructor
        · rintro ⟨hk1, hk2⟩ hk'
          exact hk2 (h4 n hk1 hk').2
        · intro hk
          exact ⟨hkeep n hk, fun hk2 => hk (hp4 n hk2.1 hk2.2)⟩

end Hierarchical
