import TraceSyscallObj.HBitmap.Iter
import TraceSyscallObj.Lib.Run

/-!
# The bitmap is a set of groups

* `hbCountBetween_spec`: the count taken through the iterator;
* `hbitmapSet_spec`, `hbitmapReset_spec`: one call keeps the bitmap consistent;
* `hbitmap_refines`: any sequence of calls.
-/

namespace Hierarchical
open Bits Run
variable {hb : HBitmap} {size : Nat}

/-! ## counting through the iterator -/

section
variable {hbi : HBitmapIter} {p p' : Nat} {w w' : Word}

lemma IterOk.advance (h : IterOk hb (load hbi w) p)
    (hw : ∀ j, w'.getLsbD j = true → w.getLsbD j = true ∧ p' ≤ 64 * hbi.pos + j)
    (hp : p' ≤ 64 * (hbi.pos + 1)) : IterOk hb (load hbi w') p' := by
  refine ⟨h.granularity, h.pos_lt, fun j hj => ?_, fun k hk j hj => ?_, ?_, .inr hp⟩
  · rw [load_cur_last] at hj
    obtain ⟨h1, h2⟩ := hw j hj
    exact ⟨h2, (h.low j (by rwa [load_cur_last])).2⟩
  · rw [load_cur (by omega)] at hj
    exact h.high k hk j (by rwa [load_cur (by omega)])
  · have hs := h.sentinel
    exact hs

lemma Pending.advance {m : Nat} (h : Pending (load hbi w) m)
    (hw : m / 64 = hbi.pos → w.getLsbD (m % 64) = true → w'.getLsbD (m % 64) = true) :
    Pending (load hbi w') m := by
  obtain ⟨k, hk, h1, h2⟩ := h
  refine ⟨k, hk, h1, ?_⟩
  by_cases h6 : k = 6
  · subst h6
    have h1' : m / 64 = hbi.pos := by
      have : up 6 (m / 64) = up 6 hbi.pos := h1
      rwa [up_last, up_last] at this
    rw [up_last] at h2 ⊢
    exact hw h1' h2
  · rw [load_cur h6] at h2 ⊢
    exact h2

lemma Pending.word (hc : Consistent hb) (h : IterOk hb (load hbi w) p) {m : Nat}
    (hm : bit (hb.levels 6) m = true) (hp : Pending (load hbi w) m) :
    (m / 64 = hbi.pos ∧ w.getLsbD (m % 64) = true) ∨ hbi.pos < m / 64 := by
  obtain ⟨k, hk, hat⟩ := hp
  rcases Nat.lt_or_eq_of_le hk with hlt | rfl
  · exact .inr (pos_lt_of_pendingAt hc h hlt hm hat)
  · obtain ⟨h1, h2⟩ := hat
    rw [up_last] at h2
    rw [up_last, up_last] at h1
    exact .inl ⟨h1, h2⟩

/-- every set bit from `p` on is still to come -/
def Complete (hb : HBitmap) (hbi : HBitmapIter) (p : Nat) : Prop :=
  ∀ m, p ≤ m → bit (hb.levels 6) m = true → Pending hbi m

/-- `w` is what is left from `p` on in word `pos`, the first one with a bit -/
structure NextWord (hb : HBitmap) (p pos : Nat) (w : Word) : Prop where
  pos_lt : pos < 2 ^ 35
  le : p / 64 ≤ pos
  gap : ∀ m, p ≤ m → m < 64 * pos → ¬ bit (hb.levels 6) m = true
  bits : ∀ j, j < 64 → (w.getLsbD j = true ↔
    p ≤ 64 * pos + j ∧ bit (hb.levels 6) (64 * pos + j) = true)

lemma hbitmapIterNextWord_spec (hc : Consistent hb) (h : IterOk hb hbi p)
    (hall : Complete hb hbi p) :
    (hbitmapIterNextWord hb hbi = .ok (2 ^ 64 - 1, 0#64, hbi) ∧
      ∀ m, p ≤ m → ¬ bit (hb.levels 6) m = true) ∨
    ∃ pos w hbi', hbitmapIterNextWord hb hbi = .ok (pos, w, hbi') ∧ NextWord hb p pos w ∧
      p ≤ 64 * (pos + 1) ∧ IterOk hb hbi' (64 * (pos + 1)) ∧ Complete hb hbi' (64 * (pos + 1)) := by
  rcases curWord_spec hc h with ⟨h1, hend⟩ | ⟨w, hbi', h1, hw, h2, -, h3⟩
  · left
    refine ⟨?_, fun m hm hbit => not_pending_of_ended hc hend hbit (hall m hm hbit)⟩
    simp only [hbitmapIterNextWord, bind, Except.bind, pure, Except.pure, h1, if_true]
  right
  obtain ⟨j, hj⟩ := (exists_bit_iff w).mp hw
  have hjl := BitVec.lt_of_getLsbD hj
  obtain ⟨hpj, -⟩ := h2.low j (by rwa [load_cur_last])
  have hpj' : p ≤ 64 * hbi'.pos + j := hpj
  have hword : ∀ m, p ≤ m → bit (hb.levels 6) m = true →
      (m / 64 = hbi'.pos ∧ w.getLsbD (m % 64) = true) ∨ hbi'.pos < m / 64 :=
    fun m hm hbit => Pending.word hc h2 hbit (h3 m hbit (hall m hm hbit))
  refine ⟨hbi'.pos, w, load hbi' 0#64, ?_, ⟨h2.pos_lt, by omega, fun m hm hlt hbit => ?_,
    fun j hj => ⟨fun hb => ?_, fun hb => ?_⟩⟩, by omega, ?_, fun m hm hbit => ?_⟩
  · simp only [hbitmapIterNextWord, bind, Except.bind, pure, h1, if_neg hw]
    rfl
  · rcases hword m hm hbit with hm' | hm'
    · omega
    · omega
  · exact h2.low j (by rwa [load_cur_last])
  · rcases hword _ hb.1 hb.2 with ⟨-, hm'⟩ | hm'
    · rwa [show (64 * hbi'.pos + j) % 64 = j by omega] at hm'
    · omega
  · refine h2.advance (fun j hj => ?_) (Nat.le_refl _)
    rw [BitVec.getLsbD_zero] at hj
    cases hj
  · refine (h3 m hbit (hall m (by omega) hbit)).advance fun hm' _ => ?_
    omega

end

abbrev rank (hb : HBitmap) (n : Nat) : Nat := Nat.count (fun m => bit (hb.levels 6) m = true) n

lemma rank_of_none {p e : Nat} (hpe : p ≤ e)
    (h : ∀ m, p ≤ m → m < e → ¬ bit (hb.levels 6) m = true) : rank hb e = rank hb p :=
  count_of_none hpe h

lemma NextWord.rank {p pos x : Nat} {w : Word} (h : NextWord hb p pos w)
    (hx : x ≤ 64) (hp : p ≤ 64 * pos + x) :
    rank hb (64 * pos + x) = rank hb p + Nat.count (fun j => w.getLsbD j = true) x := by
  have hw := count_window h.gap h.bits x hx
  rwa [Nat.max_eq_right hp] at hw

lemma countLoop_spec (hc : Consistent hb) {e : Nat} (he : e ≤ 2 ^ 41)
    (fuel : Nat) : ∀ (hbi : HBitmapIter) (p count : Nat), IterOk hb hbi p → Complete hb hbi p →
      p ≤ e → e / 64 - p / 64 < fuel →
      ∃ pos cur count', countLoop hb (e / 64) fuel hbi count = .ok (pos, cur, count') ∧
        count' + (if pos = e / 64 then popcount (cur &&& (1#64 <<< (e % 64) - 1#64)) else 0) +
          rank hb p = count + rank hb e := by
  induction fuel with
  | zero =>
    intro hbi p count _ _ _ hf
    omega
  | succ fuel ih =>
    intro hbi p count h hall hpe hf
    rcases hbitmapIterNextWord_spec hc h hall with ⟨h1, hnone⟩ | ⟨pos, w, hbi', h1, hn, hp, h2, h3⟩
    · -- the end of the bitmap
      refine ⟨2 ^ 64 - 1, 0#64, count, ?_, ?_⟩
      · have hle : e / 64 ≤ 2 ^ 64 - 1 := by omega
        simp only [countLoop, bind, Except.bind, pure, Except.pure, h1, if_pos hle]
      · rw [if_neg (by omega), rank_of_none hpe fun m hm _ => hnone m hm]
        omega
    · have hle := hn.le
      rcases Nat.lt_trichotomy pos (e / 64) with hlt | heq | hgt
      · obtain ⟨pos', cur', count', h4, h5⟩ := ih hbi' (64 * (pos + 1)) (count + popcount w) h2 h3
          (by omega) (by omega)
        refine ⟨pos', cur', count', ?_, ?_⟩
        · simp only [countLoop, bind, Except.bind, h1, if_neg (show ¬ e / 64 ≤ pos by omega)]
          exact h4
        · have hr : rank hb (64 * pos + 64) = rank hb p + popcount w :=
            hn.rank (Nat.le_refl 64) (by omega)
          rw [show 64 * pos + 64 = 64 * (pos + 1) by omega] at hr
          omega
      · refine ⟨pos, w, count, ?_, ?_⟩
        · simp only [countLoop, bind, Except.bind, pure, Except.pure, h1,
            if_pos (show e / 64 ≤ pos by omega)]
        · have hr := hn.rank (show e % 64 ≤ 64 by omega) (by omega)
          rw [show 64 * pos + e % 64 = e by omega] at hr
          rw [if_pos heq, popcount_below w (by omega)]
          omega
      · refine ⟨pos, w, count, ?_, ?_⟩
        · simp only [countLoop, bind, Except.bind, pure, Except.pure, h1,
            if_pos (show e / 64 ≤ pos by omega)]
        · rw [if_neg (by omega), rank_of_none hpe fun m hm hm' => hn.gap m hm (by omega)]
          omega

lemma group_first {g n : Nat} (h : n * 2 ^ g < 2 ^ 64) : ((n <<< g) % 2 ^ 64) >>> g = n := by
  rw [Nat.shiftLeft_eq, Nat.mod_eq_of_lt h, Nat.shiftRight_eq_div_pow,
    Nat.mul_div_cancel _ (Nat.two_pow_pos _)]

lemma hbCountBetween_spec (hc : Consistent hb) {start last : Nat}
    (hs : start ≤ last) (hsize : start < hb.size) (hl : last < 2 ^ 41)
    (hg : start * 2 ^ hb.granularity < 2 ^ 64) :
    ∃ c, hbCountBetween hb start last = .ok c ∧ c + rank hb start = rank hb (last + 1) := by
  have he : (last + 1) % 2 ^ 64 = last + 1 := Nat.mod_eq_of_lt (by omega)
  have hfirst := group_first hg
  have hin : ((start <<< hb.granularity) % 2 ^ 64) >>> hb.granularity < hb.size := by
    rw [hfirst]
    omega
  obtain ⟨hbi, h1, h2, h3⟩ := hbitmapIterInit_spec hc hin
  rw [hfirst] at h2 h3
  obtain ⟨pos, cur, count, h4, h5⟩ := countLoop_spec hc (e := last + 1) (by omega)
    ((last + 1) / 64 + 1) hbi start 0 h2 h3 (by omega) (by omega)
  by_cases hp : pos = (last + 1) / 64
  · rw [if_pos hp] at h5
    refine ⟨_, ?_, h5.trans (Nat.zero_add _)⟩
    simp only [hbCountBetween, bind, Except.bind, pure, Except.pure, he, h1, h4, if_pos hp]
  · rw [if_neg hp] at h5
    refine ⟨count, ?_, h5.trans (Nat.zero_add _)⟩
    simp only [hbCountBetween, bind, Except.bind, pure, Except.pure, he, h1, h4, if_neg hp]

/-! ## one call -/

/-- a range of at least one item that ends inside the bitmap -/
def Inside (hb : HBitmap) (start count : Nat) : Prop :=
  1 ≤ count ∧ start + count ≤ 2 ^ 64 ∧ (start + count - 1) >>> hb.granularity < hb.size

instance (hb : HBitmap) (start count : Nat) : Decidable (Inside hb start count) :=
  inferInstanceAs (Decidable (_ ∧ _ ∧ _))

def Covers (g start count n : Nat) : Prop := start >>> g ≤ n ∧ n ≤ (start + count - 1) >>> g

instance (g start count n : Nat) : Decidable (Covers g start count n) :=
  inferInstanceAs (Decidable (_ ∧ _))

lemma lastItem_eq {start count : Nat} (h1 : 1 ≤ count) (h2 : start + count ≤ 2 ^ 64) :
    lastItem start count = start + count - 1 := by
  rw [lastItem, show start + count + (2 ^ 64 - 1) = start + count - 1 + 2 ^ 64 by omega,
    Nat.add_mod_right, Nat.mod_eq_of_lt (by omega)]

lemma count_after_set {r r' c s l : Nat} (hs : s ≤ l) (h : r' + c = r + (l + 1 - s)) :
    BitVec.ofNat 64 r + (BitVec.ofNat 64 l - BitVec.ofNat 64 s + 1#64 - BitVec.ofNat 64 c) =
      BitVec.ofNat 64 r' := by
  have h1 := congrArg (BitVec.ofNat 64) h
  have h2 := congrArg (BitVec.ofNat 64) (show l + 1 = (l + 1 - s) + s by omega)
  rw [BitVec.ofNat_add, BitVec.ofNat_add] at h1 h2
  grind

lemma count_after_reset {r r' c : Nat} (h : r' + c = r) :
    BitVec.ofNat 64 r - BitVec.ofNat 64 c = BitVec.ofNat 64 r' := by
  rw [← h, BitVec.ofNat_add, BitVec.add_sub_cancel]

section
variable {start count s l c : Nat} {lv : Levels}
  (hstart : start >>> hb.granularity = s) (hlast : lastItem start count >>> hb.granularity = l)
  (hcount : hbCountBetween hb s l = .ok c)
include hstart hlast hcount

lemma hbitmapSet_eq (h : hbSetBetween 6 hb.levels s l = .ok lv) :
    hbitmapSet hb start count = .ok { hb with
      count := hb.count + (BitVec.ofNat 64 l - BitVec.ofNat 64 s + 1#64 - BitVec.ofNat 64 c)
      levels := lv } := by
  unfold hbitmapSet
  rw [hlast, hstart]
  show Except.bind _ _ = _
  rw [hcount]
  rw [h]
  rfl

lemma hbitmapReset_eq (h : hbResetBetween 6 hb.levels s l = .ok lv) :
    hbitmapReset hb start count = .ok { hb with
      count := hb.count - BitVec.ofNat 64 c, levels := lv } := by
  unfold hbitmapReset
  rw [hlast, hstart]
  show Except.bind _ _ = _
  rw [hcount]
  rw [h]
  rfl
end

section
variable {start count : Nat} (hc : Consistent hb) (hin : Inside hb start count)
include hc hin

lemma countRange :
    start >>> hb.granularity ≤ (start + count - 1) >>> hb.granularity ∧
      ∃ c, hbCountBetween hb (start >>> hb.granularity)
          (lastItem start count >>> hb.granularity) = .ok c ∧
        c + rank hb (start >>> hb.granularity) =
          rank hb ((start + count - 1) >>> hb.granularity + 1) := by
  obtain ⟨h1, h2, h3⟩ := hin
  have hle : start >>> hb.granularity ≤ (start + count - 1) >>> hb.granularity := by
    rw [Nat.shiftRight_eq_div_pow, Nat.shiftRight_eq_div_pow]
    exact Nat.div_le_div_right (by omega)
  refine ⟨hle, ?_⟩
  rw [lastItem_eq h1 h2]
  have hsize := hc.size_le
  apply hbCountBetween_spec hc hle (by omega) (by omega)
  rw [Nat.shiftRight_eq_div_pow]
  have := Nat.div_mul_le_self start (2 ^ hb.granularity)
  omega

lemma hbitmapSet_spec : ∃ hb', hbitmapSet hb start count = .ok hb' ∧ Consistent hb' ∧
    hb'.size = hb.size ∧ hb'.granularity = hb.granularity ∧
    ∀ n, bit (hb'.levels 6) n =
      (bit (hb.levels 6) n || decide (Covers hb.granularity start count n)) := by
  obtain ⟨hle, c, hcount, hrank⟩ := countRange hc hin
  obtain ⟨hin1, hin2, hin3⟩ := hin
  rw [lastItem_eq hin1 hin2] at hcount
  obtain ⟨lv, h1, -, h3, h4, h5⟩ := hbSetBetween_spec 6 hb.levels _ _ hle hc.linked
  generalize hs : start >>> hb.granularity = s at hle hcount hrank h1 h3
  generalize hl : (start + count - 1) >>> hb.granularity = l at hle hcount hrank h1 h3 hin3
  have hu : Nat.count (fun n => bit (lv 6) n = true) hb.size + rank hb (l + 1) =
      rank hb hb.size + rank hb s + (l + 1 - s) := count_union
    (fun m => by rw [h3, Bool.or_eq_true, decide_eq_true_eq]) hle hin3
  refine ⟨_, hbitmapSet_eq hs (by rw [lastItem_eq hin1 hin2, hl]) hcount h1,
    ⟨hc.size_le, hc.granularity_lt, h4, h5 hc.sentinel, fun n hn => ?_, ?_⟩, rfl, rfl, fun n => ?_⟩
  · have hn' : bit (lv 6) n = true := hn
    show n < hb.size
    rw [h3, Bool.or_eq_true, decide_eq_true_eq] at hn'
    rcases hn' with hn' | hn'
    · exact hc.inside n hn'
    · omega
  · show hb.count + _ = BitVec.ofNat 64 (Nat.count (fun n => bit (lv 6) n = true) hb.size)
    rw [hc.count]
    apply count_after_set hle
    show _ = rank hb hb.size + _
    omega
  · show bit (lv 6) n = _
    rw [h3, ← hs, ← hl]
    rfl

lemma hbitmapReset_spec : ∃ hb', hbitmapReset hb start count = .ok hb' ∧ Consistent hb' ∧
    hb'.size = hb.size ∧ hb'.granularity = hb.granularity ∧
    ∀ n, bit (hb'.levels 6) n =
      (bit (hb.levels 6) n && !decide (Covers hb.granularity start count n)) := by
  obtain ⟨hle, c, hcount, hrank⟩ := countRange hc hin
  obtain ⟨hin1, hin2, hin3⟩ := hin
  have hsize := hc.size_le
  rw [lastItem_eq hin1 hin2] at hcount
  obtain ⟨lv, h1, -, h3, h4, h5⟩ := hbResetBetween_spec 6 hb.levels _ _ hle (by omega) hc.linked
  generalize hs : start >>> hb.granularity = s at hle hcount hrank h1 h3
  generalize hl : (start + count - 1) >>> hb.granularity = l at hle hcount hrank h1 h3 hin3
  have hu : Nat.count (fun n => bit (lv 6) n = true) hb.size + rank hb (l + 1) =
      rank hb hb.size + rank hb s := count_diff
    (fun m => by rw [h3, Bool.and_eq_true, Bool.not_eq_true', decide_eq_false_iff_not]) hle hin3
  refine ⟨_, hbitmapReset_eq hs (by rw [lastItem_eq hin1 hin2, hl]) hcount h1,
    ⟨hc.size_le, hc.granularity_lt, h4, h5 hc.sentinel, fun n hn => ?_, ?_⟩, rfl, rfl, fun n => ?_⟩
  · have hn' : bit (lv 6) n = true := hn
    rw [h3, Bool.and_eq_true] at hn'
    exact hc.inside n hn'.1
  · show hb.count - _ = BitVec.ofNat 64 (Nat.count (fun n => bit (lv 6) n = true) hb.size)
    rw [hc.count]
    apply count_after_reset
    show _ = rank hb hb.size
    omega
  · show bit (lv 6) n = _
    rw [h3, ← hs, ← hl]
    rfl

end

/-! ## any sequence of calls -/

lemma bit_emptyLevels {i n : Nat} (h : ¬ (i = 0 ∧ n = 63)) : bit (emptyLevels i) n = false := by
  unfold bit
  cases i with
  | succ i => exact BitVec.getLsbD_zero
  | zero =>
    cases hn : n / 64 with
    | succ k => exact BitVec.getLsbD_zero
    | zero =>
      show (1#64 <<< 63).getLsbD (n % 64) = false
      rw [getLsbD_one_shift (by decide), decide_eq_false (by omega)]

lemma consistent_empty {g : Nat} (hs : size ≤ 2 ^ 41) (hg : g < 64) :
    Consistent { size := size, count := 0#64, granularity := g, levels := emptyLevels } := by
  refine ⟨hs, hg, fun i _ n hn => ?_, ?_, fun n hn => ?_, ?_⟩
  · show bit (emptyLevels i) n = true ↔ emptyLevels (i + 1) n ≠ 0#64
    rw [bit_emptyLevels hn]
    exact ⟨fun h => absurd h (by decide), fun h => absurd rfl h⟩
  · show (1#64 <<< 63).getLsbD 63 = true
    decide
  · have hn' : bit (emptyLevels 6) n = true := hn
    rw [bit_emptyLevels (by omega)] at hn'
    cases hn'
  · have h0 : Nat.count (fun n => bit (emptyLevels 6) n = true) size = 0 := by
      refine Nat.count_iff_forall_not.mpr fun m _ hm => ?_
      rw [bit_emptyLevels (by omega)] at hm
      cases hm
    show 0#64 = BitVec.ofNat 64 (Nat.count (fun n => bit (emptyLevels 6) n = true) size)
    rw [h0]

lemma hbitmapAlloc_spec {granularity : Int} (h : hbitmapAlloc size granularity = .ok hb) :
    Consistent hb ∧ hb.granularity = granularity.toNat ∧ hb.levels = emptyLevels := by
  rw [hbitmapAlloc] at h
  split at h
  · rename_i hg
    generalize ((size + 2 ^ granularity.toNat - 1) % 2 ^ 64) >>> granularity.toNat = size' at h
    simp only at h
    split at h
    · rename_i hsize
      injection h with h
      subst h
      exact ⟨consistent_empty hsize.1 (by omega), rfl, rfl⟩
    · cases h
  · cases h

inductive Call
  | set (start count : Nat)
  | reset (start count : Nat)
  deriving DecidableEq

def Call.apply (hb : HBitmap) : Call → Except Fault HBitmap
  | .set start count => hbitmapSet hb start count
  | .reset start count => hbitmapReset hb start count

def Call.Inside (hb : HBitmap) : Call → Prop
  | .set start count => Hierarchical.Inside hb start count
  | .reset start count => Hierarchical.Inside hb start count

instance (hb : HBitmap) (c : Call) : Decidable (c.Inside hb) := by
  cases c with
  | set start count | reset start count =>
    exact inferInstanceAs (Decidable (Hierarchical.Inside hb start count))

def step (c : Call) : EStateM Fault HBitmap Unit := lift fun hb => c.apply hb

/-- group `n` was covered by a set more recent than any reset that covers it -/
def Marked (g : Nat) (calls : List Call) (n : Nat) : Prop :=
  ∃ pre start count post, calls = pre ++ .set start count :: post ∧ Covers g start count n ∧
    ∀ start' count', .reset start' count' ∈ post → ¬ Covers g start' count' n

def Untouched (g : Nat) (calls : List Call) (n : Nat) : Prop :=
  ∀ start count, .reset start count ∈ calls → ¬ Covers g start count n

lemma marked_cons (g : Nat) (c : Call) (cs : List Call) (n : Nat) :
    Marked g (c :: cs) n ↔ Marked g cs n ∨
      ∃ start count, c = .set start count ∧ Covers g start count n ∧ Untouched g cs n := by
  constructor
  · rintro ⟨pre, start, count, post, heq, h1, h2⟩
    cases pre with
    | nil =>
      injection heq with hc hcs
      exact .inr ⟨start, count, hc, h1, hcs ▸ h2⟩
    | cons c' pre =>
      injection heq with _ hcs
      exact .inl ⟨pre, start, count, post, hcs, h1, h2⟩
  · rintro (⟨pre, start, count, post, heq, h1, h2⟩ | ⟨start, count, hc, h1, h2⟩)
    · exact ⟨c :: pre, start, count, post, congrArg (c :: ·) heq, h1, h2⟩
    · exact ⟨[], start, count, cs, congrArg (· :: cs) hc, h1, h2⟩

def mark (g n : Nat) (b : Bool) : Call → Bool
  | .set start count => b || decide (Covers g start count n)
  | .reset start count => b && !decide (Covers g start count n)

lemma foldl_mark (g n : Nat) (calls : List Call) : ∀ b : Bool,
    calls.foldl (mark g n) b = true ↔ Marked g calls n ∨ (b = true ∧ Untouched g calls n) := by
  induction calls with
  | nil =>
    intro b
    constructor
    · intro h
      exact .inr ⟨h, fun _ _ hm => absurd hm List.not_mem_nil⟩
    · rintro (⟨pre, start, count, post, heq, -⟩ | h)
      · cases pre with
        | nil | cons c pre => cases heq
      · exact h.1
  | cons c cs ih =>
    intro b
    rw [List.foldl_cons, ih, marked_cons, or_assoc]
    apply or_congr_right
    cases c with
    | set start count =>
      rw [mark, Bool.or_eq_true, decide_eq_true_eq]
      constructor
      · rintro ⟨h1 | h1, h2⟩
        · refine .inr ⟨h1, fun s k hm => h2 s k ?_⟩
          exact (List.mem_cons.mp hm).resolve_left (by intro h; cases h)
        · exact .inl ⟨start, count, rfl, h1, h2⟩
      · rintro (⟨s, k, hc, h1, h2⟩ | ⟨h1, h2⟩)
        · cases hc
          exact ⟨.inr h1, h2⟩
        · exact ⟨.inl h1, fun s k hm => h2 s k (List.mem_cons_of_mem _ hm)⟩
    | reset start count =>
      rw [mark, Bool.and_eq_true, Bool.not_eq_true', decide_eq_false_iff_not]
      constructor
      · rintro ⟨⟨h1, h2⟩, h3⟩
        refine .inr ⟨h1, fun s k hm => ?_⟩
        rcases List.mem_cons.mp hm with hm | hm
        · cases hm
          exact h2
        · exact h3 s k hm
      · rintro (⟨s, k, hc, -⟩ | ⟨h1, h2⟩)
        · cases hc
        · exact ⟨⟨h1, h2 start count List.mem_cons_self⟩,
            fun s k hm => h2 s k (List.mem_cons_of_mem _ hm)⟩

lemma apply_spec (hc : Consistent hb) {c : Call} (hin : c.Inside hb) :
    ∃ hb', c.apply hb = .ok hb' ∧ Consistent hb' ∧ hb'.size = hb.size ∧
      hb'.granularity = hb.granularity ∧
      ∀ n, bit (hb'.levels 6) n = mark hb.granularity n (bit (hb.levels 6) n) c := by
  cases c with
  | set start count => exact hbitmapSet_spec hc hin
  | reset start count => exact hbitmapReset_spec hc hin

lemma Call.Inside.congr {hb' : HBitmap} (hs : hb'.size = hb.size)
    (hg : hb'.granularity = hb.granularity) {c : Call} (h : c.Inside hb) : c.Inside hb' := by
  cases c with
  | set start count | reset start count =>
    show Hierarchical.Inside hb' start count
    unfold Hierarchical.Inside
    rw [hs, hg]
    exact h

lemma run_spec (calls : List Call) : ∀ {hb : HBitmap}, Consistent hb →
    (∀ c ∈ calls, c.Inside hb) →
    ∃ hb', runAll step calls hb = .ok () hb' ∧ Consistent hb' ∧
      hb'.granularity = hb.granularity ∧
      ∀ n, bit (hb'.levels 6) n = calls.foldl (mark hb.granularity n) (bit (hb.levels 6) n) := by
  induction calls with
  | nil =>
    intro hb hc _
    exact ⟨hb, rfl, hc, rfl, fun n => rfl⟩
  | cons c cs ih =>
    intro hb hc hin
    obtain ⟨hb₁, h1, h2, hs, hg, h3⟩ := apply_spec hc (hin c List.mem_cons_self)
    obtain ⟨hb', h4, h5, h6, h7⟩ := ih h2
      fun c' hc' => (hin c' (List.mem_cons_of_mem _ hc')).congr hs hg
    refine ⟨hb', ?_, h5, h6.trans hg, fun n => ?_⟩
    · have hstep : step c hb = .ok () hb₁ := lift_ok (f := fun hb => c.apply hb) h1
      rw [runAll_cons_ok hstep, h4]
    · rw [h7, h3, hg, List.foldl_cons]

lemma hbitmapGet_eq (hb : HBitmap) (item : Nat) :
    hbitmapGet hb item = bit (hb.levels 6) (item >>> hb.granularity) := by
  unfold hbitmapGet bit
  generalize item >>> hb.granularity = pos
  rw [Bool.eq_iff_iff, bne_iff_ne, exists_bit_iff]
  constructor
  · rintro ⟨j, hj⟩
    rw [BitVec.getLsbD_and, getLsbD_one_shift (by omega), Bool.and_eq_true, decide_eq_true_eq] at hj
    exact hj.2 ▸ hj.1
  · intro h
    refine ⟨pos % 64, ?_⟩
    rw [BitVec.getLsbD_and, getLsbD_one_shift (by omega), h, decide_eq_true rfl]
    rfl

/-- **The bitmap refines a set of groups.**  After any calls with ranges inside the bitmap, an item
is set iff its group was last touched by a set, the levels are linked, and the count is exact. -/
theorem hbitmap_refines {granularity : Int}
    (ha : hbitmapAlloc size granularity = .ok hb) (calls : List Call)
    (hin : ∀ c ∈ calls, c.Inside hb) :
    ∃ hb', runAll step calls hb = .ok () hb' ∧
      (∀ item, hbitmapGet hb' item = true ↔
        Marked hb.granularity calls (item >>> hb.granularity)) ∧
      (∀ i < 6, ∀ n, ¬ (i = 0 ∧ n = 63) →
        (bit (hb'.levels i) n = true ↔ hb'.levels (i + 1) n ≠ 0#64)) ∧
      hb'.count.toNat = setBits hb' := by
  obtain ⟨hc, -, hempty⟩ := hbitmapAlloc_spec ha
  obtain ⟨hb', h1, h2, h3, h4⟩ := run_spec calls hc hin
  refine ⟨hb', h1, fun item => ?_, fun i hi n hn => h2.linked i hi n hn, ?_⟩
  · rw [hbitmapGet_eq, h3, h4, hempty, bit_emptyLevels (by omega), foldl_mark]
    exact or_iff_left fun h => absurd h.1 (by decide)
  · have hle : setBits hb' ≤ hb'.size := Nat.count_le _
    have hsize := h2.size_le
    rw [h2.count, BitVec.toNat_ofNat, Nat.mod_eq_of_lt (by omega)]

/-- 16 items in groups of two -/
def sixteen : HBitmap :=
  { size := 8, count := 0#64, granularity := 1, levels := emptyLevels }

theorem hbitmap_refines_sixteen : hbitmapAlloc 16 1 = .ok sixteen ∧
    ∃ hb', runAll step [.set 0 9, .reset 1 3, .set 9 2] sixteen = .ok () hb' ∧
      hb'.count.toNat = setBits hb' := by
  have ha : hbitmapAlloc 16 1 = .ok sixteen := rfl
  obtain ⟨hb', h1, -, -, h2⟩ := hbitmap_refines ha [.set 0 9, .reset 1 3, .set 9 2] (by decide)
  exact ⟨ha, hb', h1, h2⟩

end Hierarchical
