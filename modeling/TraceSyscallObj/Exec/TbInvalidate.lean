import TraceSyscallObj.Exec.TbLink

/-!
# Invalidation of a range of bytes

* `setBits_bit`, `buildPageBitmap_settles`: the bitmap has exactly the bytes of code on the page;
* `invalidateLoop_settles`: the loop takes out what it hits, and follows the null pointer when it
  hits both parts of one block;
* `range_settles`: the same of `tb_invalidate_phys_page_range`;
* `Reachable`, `inv_of_reachable`: the states after links, jumps and invalidations;
* `invalidate_exact_iff`.
-/

namespace Tb
open Function List
open X86 (Target TargetUlong TARGET_PAGE_MASK)
open Threads Checked

/-! ## The bitmap -/

variable (tab : Bitmap)

lemma bit_update (i : Nat) (v : BitVec 8) (k : Nat) :
    Bitmap.bit (update tab i v) k =
      if k / 8 = i then v.getLsbD (k % 8) else tab.bit k := by
  unfold Bitmap.bit
  by_cases h : k / 8 = i
  · rw [if_pos h, h, update_self]
  · rw [if_neg h, update_of_ne h]

lemma orByte_bit (i : Nat) (mask : BitVec 32) (k : Nat) :
    (orByte tab i mask).bit k = (tab.bit k || (decide (k / 8 = i) && mask.getLsbD (k % 8))) := by
  rw [orByte, bit_update]
  by_cases h : k / 8 = i
  · have h8 : k % 8 < 8 := Nat.mod_lt _ (by decide)
    rw [if_pos h, BitVec.getLsbD_or, BitVec.getLsbD_setWidth, decide_eq_true h8, decide_eq_true h,
      Bitmap.bit, h]
  · rw [if_neg h, decide_eq_false h, Bool.false_and, Bool.or_false]

lemma mask_above : ∀ a < 8, ∀ j < 8,
    ((0xff : BitVec 32) <<< a).getLsbD j = decide (a ≤ j) := by decide

lemma mask_under : ∀ a < 8, ∀ j < 8,
    (~~~((0xff : BitVec 32) <<< a)).getLsbD j = decide (j < a) := by decide

lemma fillBytes_bit (start end1 k : Nat) (hstart : start % 8 = 0) (hend : end1 % 8 = 0) :
    (fillBytes tab start end1).bit k = (tab.bit k || decide (start ≤ k ∧ k < end1)) := by
  fun_induction fillBytes tab start end1 with
  | case1 tab start h ih =>
    rw [ih (by omega), bit_update]
    by_cases hk : k / 8 = start / 8
    · have h8 : (0xff : BitVec 8).getLsbD (k % 8) = true :=
        (by decide : ∀ j < 8, (0xff : BitVec 8).getLsbD j = true) _ (Nat.mod_lt _ (by decide))
      have hin : start ≤ k ∧ k < end1 := by omega
      rw [if_pos hk, h8, decide_eq_true hin, Bool.true_or, Bool.or_true]
    · rw [if_neg hk]
      congr 1
      exact decide_eq_decide.mpr (by omega)
  | case2 tab start h =>
    have hout : ¬ (start ≤ k ∧ k < end1) := by omega
    rw [decide_eq_false hout, Bool.or_false]

lemma setBits_bit (start len k : Nat) :
    (setBits tab start len).bit k =
      (tab.bit k || decide (start ≤ k ∧ k < start + len)) := by
  have hs8 : start % 8 < 8 := Nat.mod_lt _ (by decide)
  have he8 : (start + len) % 8 < 8 := Nat.mod_lt _ (by decide)
  have hk8 : k % 8 < 8 := Nat.mod_lt _ (by decide)
  unfold setBits
  by_cases hbyte : start / 8 * 8 = (start + len) / 8 * 8
  · simp only [if_pos hbyte]
    by_cases hlen : start < start + len
    · rw [if_pos hlen, orByte_bit, BitVec.getLsbD_and, mask_above _ hs8 _ hk8,
        mask_under _ he8 _ hk8, ← Bool.decide_and, ← Bool.decide_and]
      congr 1
      exact decide_eq_decide.mpr (by omega)
    · have hout : ¬ (start ≤ k ∧ k < start + len) := by omega
      rw [if_neg hlen, decide_eq_false hout, Bool.or_false]
  · simp only [if_neg hbyte]
    by_cases hlast : (start + len) / 8 * 8 < start + len
    · rw [if_pos hlast, orByte_bit, fillBytes_bit _ _ _ _ (by omega) (by omega), orByte_bit,
        mask_above _ hs8 _ hk8, mask_under _ he8 _ hk8, ← Bool.decide_and, ← Bool.decide_and,
        Bool.or_assoc, Bool.or_assoc, ← Bool.decide_or, ← Bool.decide_or]
      congr 1
      exact decide_eq_decide.mpr (by omega)
    · rw [if_neg hlast, fillBytes_bit _ _ _ _ (by omega) (by omega), orByte_bit,
        mask_above _ hs8 _ hk8, ← Bool.decide_and, Bool.or_assoc, ← Bool.decide_or]
      congr 1
      exact decide_eq_decide.mpr (by omega)

section
variable {t : Target} {s : State t} {L : Set Nat}

def bitmapOf (s : State t) (xs : List PagePtr) (tab : Bitmap) : Bitmap :=
  xs.foldl (fun tab q => setBits tab ((s.tb q.1).pageSpan q.2).1
    (((s.tb q.1).pageSpan q.2).2 - ((s.tb q.1).pageSpan q.2).1)) tab

variable {xs : List PagePtr} {tab : Bitmap} {p : Option PagePtr}

lemma bitmapLoop_ok {fuel : Nat}
    (hl : Leads PageCell.pageNext s.pageList p xs none) (hf : xs.length < fuel) :
    bitmapLoop s fuel p tab = .ok (bitmapOf s xs tab) := by
  induction xs generalizing p fuel tab with
  | nil =>
    obtain ⟨fuel, rfl⟩ : ∃ k, fuel = k + 1 := ⟨fuel - 1, by simp only [length_nil] at hf; omega⟩
    rw [show p = none from hl]
    rfl
  | cons x xs ih =>
    obtain ⟨fuel, rfl⟩ : ∃ k, fuel = k + 1 := ⟨fuel - 1, by rw [length_cons] at hf; omega⟩
    rw [hl.1]
    exact ih hl.2 (Nat.lt_of_succ_lt_succ hf)

lemma bitmapOf_bit (s : State t) (xs : List PagePtr) (tab : Bitmap) (k : Nat) :
    (bitmapOf s xs tab).bit k = true ↔ tab.bit k = true ∨
      ∃ q ∈ xs, ((s.tb q.1).pageSpan q.2).1 ≤ k ∧ k < ((s.tb q.1).pageSpan q.2).2 := by
  induction xs generalizing tab with
  | nil => simp [bitmapOf]
  | cons x xs ih =>
    have hcons : bitmapOf s (x :: xs) tab = bitmapOf s xs (setBits tab ((s.tb x.1).pageSpan x.2).1
      (((s.tb x.1).pageSpan x.2).2 - ((s.tb x.1).pageSpan x.2).1)) := rfl
    rw [hcons, ih, setBits_bit, Bool.or_eq_true, decide_eq_true_iff, or_assoc]
    refine or_congr_right ?_
    simp only [mem_cons, exists_eq_or_imp]
    refine or_congr_left ?_
    omega

variable {s' : State t}

lemma Inv.congr (hs : Inv s L) (htb : s'.tb = s.tb) (hhash : s'.tbPhysHash = s.tbPhysHash)
    (hpage : s'.pageList = s.pageList) (hjmp : s'.jmpList = s.jmpList) (hmap : s'.l1Map = s.l1Map)
    (hbit : ∀ i tab, s'.codeBitmap i = some tab → s.codeBitmap i = some tab ∨
      ∀ k < TARGET_PAGE_SIZE, tab.bit k = true ↔ ∃ p : PagePtr, p.1 ∈ L ∧
        (s.tb p.1).page p.2 = some i ∧ ((s.tb p.1).pageSpan p.2).1 ≤ k ∧
          k < ((s.tb p.1).pageSpan p.2).2) : Inv s' L := by
  obtain ⟨H, hH⟩ := hs.hash
  obtain ⟨F, hF⟩ := hs.page
  refine ⟨⟨H, hH.congr hhash htb⟩, ⟨F, hF.congr hpage htb⟩, hjmp ▸ hs.jump, htb ▸ hs.placed,
    by rw [htb, hmap]; exact hs.mapped, fun i tab hi => ?_⟩
  rw [htb]
  rcases hbit i tab hi with h | h
  · exact hs.bitmap i tab h
  · exact h

lemma countWrite_settles (hs : Inv s L) (i : Nat) (w : Bool) :
    ∃ s', Settles (fun fuel => countWrite fuel s i w) (.ok s') ∧ Inv s' L ∧ s'.tb = s.tb ∧
      (s.codeBitmap i = none → s'.codeWriteCount i = s.codeWriteCount i + 1 ∧
        (s'.codeBitmap i ≠ none ↔
          SMC_BITMAP_USE_THRESHOLD ≤ s.codeWriteCount i + 1 ∧ w = true)) := by
  cases hb : s.codeBitmap i with
  | some tab =>
    refine ⟨s, ⟨0, fun fuel _ => ?_⟩, hs, rfl, fun h => nomatch h⟩
    simp only [countWrite, hb]
  | none =>
    by_cases hcond : (decide (SMC_BITMAP_USE_THRESHOLD ≤ s.codeWriteCount i + 1) && w) = true
    · obtain ⟨F, hF⟩ := hs.page
      have hloop : ∀ fuel, (F i).length < fuel →
          bitmapLoop { s with
            codeWriteCount := update s.codeWriteCount i (s.codeWriteCount i + 1) }
            fuel (s.pageList (.firstTb i)) (fun _ => 0) = .ok (bitmapOf s (F i) fun _ => 0) :=
        fun fuel hf => bitmapLoop_ok (hF.family.leads i (Set.mem_univ i)) hf
      refine ⟨{ s with
        codeWriteCount := update s.codeWriteCount i (s.codeWriteCount i + 1)
        codeBitmap := update s.codeBitmap i (some (bitmapOf s (F i) fun _ => 0)) },
        ⟨(F i).length + 1, fun fuel hf => ?_⟩, ?_, rfl, fun _ => ⟨update_self _ _ _, ?_⟩⟩
      · simp only [countWrite, hb, if_pos hcond, buildPageBitmap]
        rw [hloop fuel hf]
        rfl
      · refine hs.congr rfl rfl rfl rfl rfl fun j tab hj => ?_
        by_cases hji : j = i
        · subst hji
          have hj : bitmapOf s (F j) (fun _ => 0) = tab :=
            Option.some.inj ((update_self j _ s.codeBitmap).symm.trans hj)
          refine .inr fun k _ => ?_
          rw [← hj, bitmapOf_bit]
          simp only [hF.mem, and_assoc, Bitmap.bit, BitVec.getLsbD_zero, Bool.false_eq_true,
            false_or, show (0 : BitVec 8) = 0#8 from rfl]
        · exact .inl ((update_of_ne hji _ _).symm.trans hj)
      · show update s.codeBitmap i _ i ≠ none ↔ _
        rw [Bool.and_eq_true, decide_eq_true_iff] at hcond
        rw [update_self]
        exact ⟨fun _ => hcond, fun _ => Option.some_ne_none _⟩
    · refine ⟨{ s with
        codeWriteCount := update s.codeWriteCount i (s.codeWriteCount i + 1) },
        ⟨0, fun fuel _ => ?_⟩, hs.congr rfl rfl rfl rfl rfl fun j tab hj => .inl hj, rfl,
        fun _ => ⟨update_self _ _ _, fun h => absurd hb h, fun h => ?_⟩⟩
      · simp only [countWrite, hb, if_neg hcond]
      · rw [Bool.and_eq_true, decide_eq_true_iff] at hcond
        exact absurd h hcond

/-! ## The loop -/

variable {start stop : Nat}

def LoopEnds (start stop : Nat) (p : Option PagePtr) (s : State t) (r : Except Fault (State t)) :
    Prop :=
  ∃ k, ∀ fuel n, k ≤ fuel → k ≤ n → invalidateLoop fuel start stop n p s = r

lemma loopEnds_none : LoopEnds start stop none s (.ok s) := by
  refine ⟨1, fun fuel n _ hn => ?_⟩
  obtain ⟨n, rfl⟩ : ∃ j, n = j + 1 := ⟨n - 1, by omega⟩
  rfl

variable {q : PagePtr} {r : Except Fault (State t)}

lemma loopEnds_skip (hhit : (s.tb q.1).hit q.2 start stop = false)
    (h : LoopEnds start stop (s.pageList (.pageNext q)) s r) :
    LoopEnds start stop (some q) s r := by
  obtain ⟨k, hk⟩ := h
  refine ⟨k + 1, fun fuel n hf hn => ?_⟩
  obtain ⟨n, rfl⟩ : ∃ j, n = j + 1 := ⟨n - 1, by omega⟩
  simp only [invalidateLoop, hhit]
  exact hk fuel n (by omega) (by omega)

variable {s1 : State t}

lemma loopEnds_take (hhit : (s.tb q.1).hit q.2 start stop = true)
    (h1 : Settles (fun fuel => tbPhysInvalidate fuel s q.1 none) (.ok s1))
    (h : LoopEnds start stop (s.pageList (.pageNext q)) s1 r) :
    LoopEnds start stop (some q) s r := by
  obtain ⟨k, hk⟩ := h
  obtain ⟨k1, hk1⟩ := h1
  refine ⟨k + k1 + 1, fun fuel n hf hn => ?_⟩
  obtain ⟨n, rfl⟩ : ∃ j, n = j + 1 := ⟨n - 1, by omega⟩
  simp only [invalidateLoop, hhit, hk1 fuel (by omega)]
  exact hk fuel n (by omega) (by omega)

lemma loopEnds_fault {e : Fault} (hhit : (s.tb q.1).hit q.2 start stop = true)
    (h1 : Settles (fun fuel => tbPhysInvalidate fuel s q.1 none) (.error e)) :
    LoopEnds start stop (some q) s (.error e) := by
  obtain ⟨k1, hk1⟩ := h1
  refine ⟨k1 + 1, fun fuel n hf hn => ?_⟩
  obtain ⟨n, rfl⟩ : ∃ j, n = j + 1 := ⟨n - 1, by omega⟩
  simp only [invalidateLoop, hhit, hk1 fuel (by omega)]
  rfl

def hitSet (s : State t) (start stop : Nat) (xs : List PagePtr) : Set Nat :=
  {tb | ∃ n, (tb, n) ∈ xs ∧ (s.tb tb).hit n start stop = true}

def BothHit (s : State t) (start stop : Nat) (xs : List PagePtr) : Prop :=
  ∃ tb, (tb, 1) ∈ xs ∧ (tb, 0) ∈ xs ∧ (s.tb tb).hit 1 start stop = true ∧
    (s.tb tb).hit 0 start stop = true

lemma hitSet_cons_of_not (hq : (s.tb q.1).hit q.2 start stop = false) :
    hitSet s start stop (q :: xs) = hitSet s start stop xs := by
  ext tb
  refine exists_congr fun n => and_congr_left fun h => ?_
  rw [mem_cons, or_iff_right]
  rintro rfl
  exact absurd h (by rw [hq]; exact Bool.false_ne_true)

lemma hitSet_cons_of_hit (hq : (s.tb q.1).hit q.2 start stop = true) :
    hitSet s start stop (q :: xs) = insert q.1 (hitSet s start stop xs) := by
  ext tb
  constructor
  · rintro ⟨n, hn, h⟩
    rcases List.mem_cons.mp hn with rfl | hn
    · exact .inl rfl
    · exact .inr ⟨n, hn, h⟩
  · rintro (rfl | ⟨n, hn, h⟩)
    · exact ⟨q.2, mem_cons_self, hq⟩
    · exact ⟨n, mem_cons_of_mem _ hn, h⟩

lemma bothHit_cons
    (hq : ¬ ((q.1, 1) ∈ q :: xs ∧ (q.1, 0) ∈ q :: xs ∧ (s.tb q.1).hit 1 start stop = true ∧
      (s.tb q.1).hit 0 start stop = true)) :
    BothHit s start stop (q :: xs) ↔ BothHit s start stop xs := by
  refine exists_congr fun tb => ?_
  constructor
  · intro h
    have hne : ∀ n, (tb, n) ≠ q := by
      intro n e
      have e1 : tb = q.1 := congrArg Prod.fst e
      exact hq (e1 ▸ h)
    exact ⟨(List.mem_cons.mp h.1).resolve_left (hne 1),
      (List.mem_cons.mp h.2.1).resolve_left (hne 0), h.2.2⟩
  · rintro ⟨h1, h0, hh⟩
    exact ⟨mem_cons_of_mem _ h1, mem_cons_of_mem _ h0, hh⟩

/-- the loop over `xs` takes out the blocks that are hit, or fails at one that is hit twice -/
def LoopDoes (start stop : Nat) (s : State t) (L : Set Nat) (xs : List PagePtr) : Prop :=
  (BothHit s start stop xs → LoopEnds start stop xs.head? s (.error .null)) ∧
  (¬ BothHit s start stop xs → ∃ s', LoopEnds start stop xs.head? s (.ok s') ∧
    Inv s' (L \ hitSet s start stop xs) ∧ s'.tb = s.tb)

lemma LoopDoes.before {L1 : Set Nat} {ys : List PagePtr} (h : LoopDoes start stop s1 L1 ys)
    (htb : s1.tb = s.tb) (hboth : BothHit s start stop xs ↔ BothHit s start stop ys)
    (hset : L \ hitSet s start stop xs = L1 \ hitSet s start stop ys)
    (hstep : ∀ r, LoopEnds start stop ys.head? s1 r → LoopEnds start stop xs.head? s r) :
    LoopDoes start stop s L xs := by
  unfold LoopDoes BothHit hitSet at h
  rw [htb] at h
  obtain ⟨h1, h2⟩ := h
  refine ⟨fun hb => hstep _ (h1 (hboth.mp hb)), fun hb => ?_⟩
  obtain ⟨s', h3, h4, h5⟩ := h2 fun hys => hb (hboth.mpr hys)
  exact ⟨s', hstep _ h3, hset ▸ h4, h5⟩

lemma diff_insert_eq (A B : Set Nat) (x : Nat) : A \ insert x B = (A \ {x}) \ B := by
  ext y
  simp only [Set.mem_sdiff, Set.mem_insert_iff]
  tauto

lemma Leads.eq_head {m : PageCell → Option PagePtr}
    (h : Leads PageCell.pageNext m p xs none) : p = xs.head? := by
  cases xs with
  | nil => exact h
  | cons x xs => exact h.1

lemma append_cons_right {α : Type} {x : α} {a b c d : List α} (hnd : (a ++ x :: b).Nodup)
    (h : a ++ x :: b = c ++ x :: d) : a = c ∧ b = d := by
  have hx := (List.nodup_middle.mp hnd).notMem
  obtain ⟨h1, -, h2⟩ := (append_cons_inj_of_notMem
    (fun hm => hx (mem_append_left _ hm)) fun hm => hx (mem_append_right _ hm)).mp h
  exact ⟨h1, h2⟩

variable {F : Nat → List PagePtr} {i tb : Nat} {ks : List PagePtr}

lemma PageLists.after (hF : PageLists s L F) {n : Fin 2} (he : F i = ks ++ (tb, n) :: xs) :
    (n = 1 ∧ ∃ ys, xs = (tb, 0) :: ys ∧ ∀ q ∈ ys, q.1 ≠ tb) ∨ ∀ q ∈ xs, q.1 ≠ tb := by
  have hpage : ∀ q ∈ (tb, n) :: xs, q.1 ∈ L ∧ (s.tb q.1).page q.2 = some i := fun q hq =>
    (hF.mem i q).mp (he ▸ mem_append_right _ hq)
  have hnd := hF.family.nodup i (Set.mem_univ i)
  rw [he] at hnd
  have hself : (tb, n) ∉ xs := (List.nodup_cons.mp (List.nodup_append.mp hnd).2.1).1
  by_cases hno : ∀ q ∈ xs, q.1 ≠ tb
  · exact .inr hno
  obtain ⟨htb, hn⟩ := hpage _ mem_cons_self
  obtain ⟨⟨tb1, n1⟩, hno⟩ := not_forall.mp hno
  obtain ⟨hq, hno⟩ := Classical.not_imp.mp hno
  obtain rfl : tb1 = tb := not_not.mp hno
  obtain ⟨-, hn1⟩ := hpage _ (mem_cons_of_mem _ hq)
  rcases zero_or_one n with rfl | rfl
  · -- the second part came before
    obtain rfl : n1 = 1 := (zero_or_one n1).resolve_left fun e => hself (e ▸ hq)
    obtain ⟨pre, post, e⟩ := hF.twice i tb1 htb hn hn1
    have e1 : ks ++ (tb1, 0) :: xs = (pre ++ [(tb1, 1)]) ++ (tb1, 0) :: post := by
      rw [← he, e, append_assoc]
      rfl
    obtain ⟨h1, -⟩ := append_cons_right hnd e1
    have hmem : (tb1, 1) ∈ ks := h1 ▸ mem_append_right _ mem_cons_self
    exact absurd rfl ((List.nodup_append.mp hnd).2.2 _ hmem _ (mem_cons_of_mem _ hq))
  · obtain rfl : n1 = 0 := (zero_or_one n1).resolve_right fun e => hself (e ▸ hq)
    obtain ⟨pre, post, e⟩ := hF.twice i tb1 htb hn1 hn
    obtain ⟨-, h2⟩ := append_cons_right hnd (he.symm.trans e)
    refine .inl ⟨rfl, post, h2, fun q hq hqtb => ?_⟩
    obtain ⟨tb2, n2⟩ := q
    obtain rfl : tb2 = tb1 := hqtb
    rw [h2] at hnd hself
    rcases zero_or_one n2 with rfl | rfl
    · have hnd2 := (List.nodup_cons.mp (List.nodup_append.mp hnd).2.1).2
      exact (List.nodup_cons.mp hnd2).1 hq
    · exact hself (mem_cons_of_mem _ hq)

lemma filter_of_ne (h : ∀ q ∈ xs, q.1 ≠ tb) :
    xs.filter (fun p => !decide (p.1 = tb)) = xs :=
  List.filter_eq_self.mpr fun q hq => by
    rw [Bool.not_eq_true', decide_eq_false_iff_not]
    exact h q hq

/-- **The blocks that are hit are taken out, one after the other; a block that is hit on both parts
is invalidated a second time.** -/
theorem invalidateLoop_settles (start stop : Nat) (xs : List PagePtr) :
    ∀ {s : State t} {L : Set Nat} {F : Nat → List PagePtr} {ks : List PagePtr}, Inv s L →
      PageLists s L F → F i = ks ++ xs → LoopDoes start stop s L xs := by
  induction hlen : xs.length using Nat.strong_induction_on generalizing xs with
  | _ len ih =>
    intro s L F ks hs hF he
    cases xs with
    | nil =>
      refine ⟨fun ⟨tb, h, _⟩ => (nomatch h), fun _ => ⟨s, loopEnds_none, ?_, rfl⟩⟩
      have : L \ hitSet s start stop [] = L := by
        ext tb
        simp [hitSet]
      rwa [this]
    | cons q xs =>
      obtain ⟨tb, n⟩ := q
      have hlead := hF.family.leads i (Set.mem_univ i)
      rw [he, leads_append] at hlead
      have hnext : s.pageList (.pageNext (tb, n)) = xs.head? := Tb.Leads.eq_head hlead.2
      rw [length_cons] at hlen
      cases hhit : (s.tb tb).hit n start stop with
      | false =>
        have hks : F i = (ks ++ [(tb, n)]) ++ xs := by rw [he, append_assoc]; rfl
        refine (ih xs.length (by omega) xs rfl hs hF hks).before rfl (bothHit_cons fun h => ?_)
          (by rw [hitSet_cons_of_not hhit]) fun r hr => loopEnds_skip hhit (hnext ▸ hr)
        rcases zero_or_one n with rfl | rfl
        · exact absurd h.2.2.2 (by rw [hhit]; exact Bool.false_ne_true)
        · exact absurd h.2.2.1 (by rw [hhit]; exact Bool.false_ne_true)
      | true =>
        have htb : tb ∈ L := ((hF.mem i (tb, n)).mp (he ▸ mem_append_right _ mem_cons_self)).1
        obtain ⟨s1, hs1, hinv1, hF1, htb1, hkeep⟩ := tbPhysInvalidate_linked hs hF htb
        have hwithout : without tb F i = ks.filter (fun p => !decide (p.1 = tb)) ++
            xs.filter (fun p => !decide (p.1 = tb)) := by
          rw [without, he, filter_append, filter_cons_of_neg (by simp)]
        rcases hF.after he with ⟨rfl, ys, rfl, hys⟩ | hxs
        · -- the next pointer leads to the block that has just been taken out
          rw [filter_cons_of_neg (by simp), filter_of_ne hys] at hwithout
          rw [length_cons] at hlen
          have hnext0 : s1.pageList (.pageNext (tb, 0)) = ys.head? := by
            rw [hkeep (tb, 0) rfl]
            exact Tb.Leads.eq_head hlead.2.2
          cases hhit0 : (s.tb tb).hit 0 start stop with
          | true =>
            have hboth : BothHit s start stop ((tb, 1) :: (tb, 0) :: ys) :=
              ⟨tb, mem_cons_self, mem_cons_of_mem _ mem_cons_self, hhit, hhit0⟩
            refine ⟨fun _ => loopEnds_take hhit hs1 (hnext ▸ ?_), fun hno => absurd hboth hno⟩
            refine loopEnds_fault (by rw [htb1]; exact hhit0) (tbPhysInvalidate_unlinked hinv1 ?_)
            exact fun h => h.2 rfl
          | false =>
            have hno : ∀ q : PagePtr, q.1 = tb → ∀ zs, ¬ ((q.1, 1) ∈ q :: zs ∧
                (q.1, 0) ∈ q :: zs ∧ (s.tb q.1).hit 1 start stop = true ∧
                  (s.tb q.1).hit 0 start stop = true) := by
              rintro q rfl zs h
              exact absurd h.2.2.2 (by rw [hhit0]; exact Bool.false_ne_true)
            refine (ih ys.length (by omega) ys rfl hinv1 hF1 hwithout).before htb1
              ((bothHit_cons (hno (tb, 1) rfl _)).trans (bothHit_cons (hno (tb, 0) rfl _)))
              (by rw [hitSet_cons_of_hit hhit, hitSet_cons_of_not hhit0, diff_insert_eq])
              fun r hr => loopEnds_take hhit hs1 (hnext ▸ ?_)
            exact loopEnds_skip (by rw [htb1]; exact hhit0) (hnext0 ▸ hr)
        · rw [filter_of_ne hxs] at hwithout
          refine (ih xs.length (by omega) xs rfl hinv1 hF1 hwithout).before htb1
            (bothHit_cons fun h => ?_) (by rw [hitSet_cons_of_hit hhit, diff_insert_eq])
            fun r hr => loopEnds_take hhit hs1 (hnext ▸ hr)
          have hself : ∀ n1, (tb, n1) ∈ (tb, n) :: xs → n1 = n := fun n1 h1 =>
            (List.mem_cons.mp h1).elim (fun e => congrArg Prod.snd e)
              fun h1 => absurd rfl (hxs _ h1)
          exact absurd ((hself 1 h.1).trans (hself 0 h.2.1).symm) (by decide)

/-! ## Bytes -/

def TranslationBlock.physAddr (b : TranslationBlock t) (i : Nat) : Option Nat :=
  if b.pcOffset + i < TARGET_PAGE_SIZE then some (b.pageAddr0 + (b.pcOffset + i))
  else b.pageAddr1.map (· + (b.pcOffset + i - TARGET_PAGE_SIZE))

def TranslationBlock.ByteIn (b : TranslationBlock t) (i start stop : Nat) : Prop :=
  i < b.size ∧ ∃ a, b.physAddr i = some a ∧ start ≤ a ∧ a < stop

def TranslationBlock.HasByteIn (b : TranslationBlock t) (start stop : Nat) : Prop :=
  ∃ i, b.ByteIn i start stop

/-- the range has a byte of the block before the end of its first page, and one after it -/
def TranslationBlock.TwiceIn (b : TranslationBlock t) (start stop : Nat) : Prop :=
  ∃ i j, b.pcOffset + i < TARGET_PAGE_SIZE ∧ TARGET_PAGE_SIZE ≤ b.pcOffset + j ∧
    b.ByteIn i start stop ∧ b.ByteIn j start stop

/-- the address is inside of one of the two parts of the block, and not at its start -/
def TranslationBlock.Around (b : TranslationBlock t) (a : Nat) : Prop :=
  ∃ i, i + 1 < b.size ∧ b.pcOffset + (i + 1) ≠ TARGET_PAGE_SIZE ∧ b.physAddr (i + 1) = some a

/-- the part `n` is on the page of the start, and the range reaches it -/
def TranslationBlock.Reached (b : TranslationBlock t) (n : Fin 2) (start stop : Nat) : Prop :=
  b.page n = some (start / TARGET_PAGE_SIZE) ∧ b.hit n start stop = true

def InPage (start stop : Nat) : Prop :=
  start ≤ stop ∧ stop ≤ (start / TARGET_PAGE_SIZE + 1) * TARGET_PAGE_SIZE

instance (start stop : Nat) : Decidable (InPage start stop) :=
  inferInstanceAs (Decidable (_ ∧ _))

variable {b : TranslationBlock t}

lemma pcOffset_lt : b.pcOffset < TARGET_PAGE_SIZE := Nat.mod_lt _ (by decide)

lemma endOffset_eq (h : TARGET_PAGE_SIZE < b.pcOffset + b.size) :
    b.endOffset = b.pcOffset + b.size - TARGET_PAGE_SIZE := by
  obtain ⟨q, -, hbits⟩ := page_dvd t
  have hle := b.size_le
  have hofs : b.pcOffset < TARGET_PAGE_SIZE := pcOffset_lt
  rw [TranslationBlock.endOffset, BitVec.toNat_add, BitVec.toNat_ofNat, Nat.add_mod_mod, hbits,
    Nat.mod_mul_right_mod, Nat.add_mod]
  show (b.pcOffset + b.size % TARGET_PAGE_SIZE) % TARGET_PAGE_SIZE = _
  simp only [TARGET_PAGE_SIZE] at *
  omega

lemma page_zero (hb : Placed b) : b.page 0 = some i ↔ b.pageAddr0 = i * TARGET_PAGE_SIZE := by
  have h := hb.aligned0
  show some (b.pageAddr0 / TARGET_PAGE_SIZE) = some i ↔ _
  rw [Option.some.injEq]
  simp only [TARGET_PAGE_SIZE] at *
  omega

lemma page_one (hb : Placed b) : b.page 1 = some i ↔ b.pageAddr1 = some (i * TARGET_PAGE_SIZE) := by
  show b.pageAddr1.map (· / TARGET_PAGE_SIZE) = some i ↔ _
  cases h : b.pageAddr1 with
  | none => simp
  | some a =>
    have ha := hb.aligned1 a h
    rw [Option.map_some, Option.some.injEq, Option.some.injEq]
    simp only [TARGET_PAGE_SIZE] at *
    omega

lemma hit_zero : b.hit 0 start stop = true ↔
    start < b.pageAddr0 + b.pcOffset + b.size ∧ b.pageAddr0 + b.pcOffset < stop := by
  rw [TranslationBlock.hit, Bool.and_eq_true, decide_eq_true_iff, decide_eq_true_iff]
  exact Iff.rfl

lemma hit_one {a : Nat} (hb : Placed b) (ha : b.pageAddr1 = some a) :
    TARGET_PAGE_SIZE < b.pcOffset + b.size ∧
    (b.hit 1 start stop = true ↔
      start < a + (b.pcOffset + b.size - TARGET_PAGE_SIZE) ∧ a < stop) := by
  have hsecond := hb.second.mp (by rw [ha]; exact Option.some_ne_none _)
  have hspan : b.span 1 = (a, a + b.endOffset) := by
    rw [TranslationBlock.span, ha]
    rfl
  rw [TranslationBlock.hit, Bool.and_eq_true, decide_eq_true_iff, decide_eq_true_iff, hspan,
    endOffset_eq hsecond]
  exact ⟨hsecond, Iff.rfl⟩

lemma physAddr_zero (h : b.pcOffset + i < TARGET_PAGE_SIZE) :
    b.physAddr i = some (b.pageAddr0 + (b.pcOffset + i)) := if_pos h

lemma physAddr_one {a : Nat} (h : TARGET_PAGE_SIZE ≤ b.pcOffset + i) (ha : b.pageAddr1 = some a) :
    b.physAddr i = some (a + (b.pcOffset + i - TARGET_PAGE_SIZE)) := by
  rw [TranslationBlock.physAddr, if_neg (Nat.not_lt.mpr h), ha]
  rfl

lemma byteIn_one (hb : Placed b) (h : TARGET_PAGE_SIZE ≤ b.pcOffset + i)
    (hi : i < b.size) : ∃ a, b.pageAddr1 = some a :=
  Option.ne_none_iff_exists'.mp (hb.second.mpr (by omega))

section
variable (hb : Placed b) (hin : InPage start stop) (hlt : start < stop)
include hb hin hlt

/-- **The first part is hit when one of its bytes is in the range.** -/
theorem reached_zero_iff : b.Reached 0 start stop ↔
      ∃ i, b.pcOffset + i < TARGET_PAGE_SIZE ∧ b.ByteIn i start stop := by
  have hal := hb.aligned0
  have hpos := b.size_pos
  obtain ⟨-, hend⟩ := hin
  rw [TranslationBlock.Reached, page_zero hb, hit_zero]
  constructor
  · rintro ⟨hp, h1, h2⟩
    have hin : b.pcOffset + (max start (b.pageAddr0 + b.pcOffset) - (b.pageAddr0 + b.pcOffset)) <
        TARGET_PAGE_SIZE := by
      simp only [TARGET_PAGE_SIZE] at *
      omega
    exact ⟨_, hin, by omega, _, physAddr_zero hin, by omega, by omega⟩
  · rintro ⟨i, hi, hsize, a, ha, h1, h2⟩
    rw [physAddr_zero hi, Option.some.injEq] at ha
    simp only [TARGET_PAGE_SIZE] at *
    omega

lemma reached_one_iff : b.Reached 1 start stop ↔
      ∃ i, TARGET_PAGE_SIZE ≤ b.pcOffset + i ∧ b.ByteIn i start stop := by
  have hofs : b.pcOffset < TARGET_PAGE_SIZE := pcOffset_lt
  obtain ⟨-, hend⟩ := hin
  rw [TranslationBlock.Reached, page_one hb]
  constructor
  · rintro ⟨hp, h⟩
    obtain ⟨hsecond, hiff⟩ := hit_one hb hp
    rw [hiff] at h
    have hin : TARGET_PAGE_SIZE ≤ b.pcOffset + (max start (start / TARGET_PAGE_SIZE *
        TARGET_PAGE_SIZE) - start / TARGET_PAGE_SIZE * TARGET_PAGE_SIZE +
          (TARGET_PAGE_SIZE - b.pcOffset)) := by omega
    exact ⟨_, hin, by omega, _, physAddr_one hin hp, by omega, by omega⟩
  · rintro ⟨i, hi, hsize, a, ha, h1, h2⟩
    obtain ⟨p, hp⟩ := byteIn_one hb hi hsize
    have hal := hb.aligned1 p hp
    rw [physAddr_one hi hp, Option.some.injEq] at ha
    rw [(hit_one hb hp).2, hp, Option.some.injEq]
    have hle := b.size_le
    simp only [TARGET_PAGE_SIZE] at *
    omega

lemma hasByteIn_iff : b.HasByteIn start stop ↔ ∃ n, b.Reached n start stop := by
  rw [Fin.exists_fin_two, reached_zero_iff hb hin hlt, reached_one_iff hb hin hlt]
  constructor
  · rintro ⟨i, hi⟩
    rcases Nat.lt_or_ge (b.pcOffset + i) TARGET_PAGE_SIZE with h | h
    · exact .inl ⟨i, h, hi⟩
    · exact .inr ⟨i, h, hi⟩
  · rintro (⟨i, -, hi⟩ | ⟨i, -, hi⟩)
    · exact ⟨i, hi⟩
    · exact ⟨i, hi⟩

lemma twiceIn_iff : b.TwiceIn start stop ↔ ∀ n, b.Reached n start stop := by
  rw [Fin.forall_fin_two, reached_zero_iff hb hin hlt, reached_one_iff hb hin hlt]
  constructor
  · rintro ⟨i, j, hi, hj, h1, h2⟩
    exact ⟨⟨i, hi, h1⟩, j, hj, h2⟩
  · rintro ⟨⟨i, hi, h1⟩, j, hj, h2⟩
    exact ⟨i, j, hi, hj, h1, h2⟩

end

lemma around_iff (hb : Placed b) : b.Around start ↔ ∃ n, b.Reached n start start := by
  have hofs : b.pcOffset < TARGET_PAGE_SIZE := pcOffset_lt
  have hal := hb.aligned0
  simp only [TranslationBlock.Reached]
  rw [Fin.exists_fin_two, page_zero hb, page_one hb, hit_zero]
  constructor
  · rintro ⟨i, hi, hne, ha⟩
    rcases Nat.lt_or_ge (b.pcOffset + (i + 1)) TARGET_PAGE_SIZE with h | h
    · rw [physAddr_zero h, Option.some.injEq] at ha
      refine .inl ?_
      simp only [TARGET_PAGE_SIZE] at *
      omega
    · obtain ⟨p, hp⟩ := byteIn_one hb h hi
      have hal1 := hb.aligned1 p hp
      have hle := b.size_le
      rw [physAddr_one h hp, Option.some.injEq] at ha
      refine .inr ?_
      rw [(hit_one hb hp).2, hp, Option.some.injEq]
      simp only [TARGET_PAGE_SIZE] at *
      omega
  · rintro (⟨hp, h1, h2⟩ | ⟨hp, h⟩)
    · have hin : b.pcOffset + (start - (b.pageAddr0 + b.pcOffset) - 1 + 1) < TARGET_PAGE_SIZE := by
        simp only [TARGET_PAGE_SIZE] at *
        omega
      refine ⟨start - (b.pageAddr0 + b.pcOffset) - 1, by omega, by omega, ?_⟩
      rw [physAddr_zero hin, Option.some.injEq]
      omega
    · obtain ⟨hsecond, hiff⟩ := hit_one hb hp
      rw [hiff] at h
      have hin : TARGET_PAGE_SIZE ≤ b.pcOffset + (start - start / TARGET_PAGE_SIZE *
          TARGET_PAGE_SIZE - 1 + (TARGET_PAGE_SIZE - b.pcOffset) + 1) := by omega
      refine ⟨start - start / TARGET_PAGE_SIZE * TARGET_PAGE_SIZE - 1 +
        (TARGET_PAGE_SIZE - b.pcOffset), by omega, by omega, ?_⟩
      rw [physAddr_one hin hp, Option.some.injEq]
      omega

/-! ## A whole range -/

def reached (s : State t) (L : Set Nat) (start stop : Nat) : Set Nat :=
  {tb | tb ∈ L ∧ ∃ n, (s.tb tb).page n = some (start / TARGET_PAGE_SIZE) ∧
    (s.tb tb).hit n start stop = true}

lemma hitSet_eq (hF : PageLists s L F) :
    hitSet s start stop (F (start / TARGET_PAGE_SIZE)) = reached s L start stop := by
  ext tb
  constructor
  · rintro ⟨n, hn, hhit⟩
    obtain ⟨hL, hpage⟩ := (hF.mem _ _).mp hn
    exact ⟨hL, n, hpage, hhit⟩
  · rintro ⟨hL, n, hpage, hhit⟩
    exact ⟨n, (hF.mem _ _).mpr ⟨hL, hpage⟩, hhit⟩

lemma bothHit_iff (hF : PageLists s L F) :
    BothHit s start stop (F (start / TARGET_PAGE_SIZE)) ↔
      ∃ tb ∈ L, ∀ n, (s.tb tb).Reached n start stop := by
  unfold TranslationBlock.Reached
  refine exists_congr fun tb => ?_
  rw [hF.mem, hF.mem, Fin.forall_fin_two]
  tauto

lemma inv_dropEmptyPage (hs : Inv s L) (p : Nat) :
    Inv (dropEmptyPage s p) L ∧ (dropEmptyPage s p).tb = s.tb := by
  unfold dropEmptyPage
  cases s.pageList (.firstTb p) with
  | some q => exact ⟨hs, rfl⟩
  | none =>
    exact ⟨hs.congr rfl rfl rfl rfl rfl fun i tab hi => .inl (update_none_eq_some hi).1, rfl⟩

/-- **What the range reaches is taken out; a block that is reached on both parts is fatal.** -/
theorem range_settles (hs : Inv s L) (start stop : Nat) (w : Bool) :
    ((∃ tb ∈ L, ∀ n, (s.tb tb).Reached n start stop) →
      Settles (fun fuel => tbInvalidatePhysPageRange fuel s start stop w) (.error .null)) ∧
    ((¬ ∃ tb ∈ L, ∀ n, (s.tb tb).Reached n start stop) →
      ∃ s', Settles (fun fuel => tbInvalidatePhysPageRange fuel s start stop w) (.ok s') ∧
        Inv s' (L \ reached s L start stop) ∧ s'.tb = s.tb) := by
  cases hfind : pageFind s (start / TARGET_PAGE_SIZE) with
  | none =>
    have hno : ∀ tb ∈ L, ∀ n, (s.tb tb).page n ≠ some (start / TARGET_PAGE_SIZE) := by
      intro tb htb n hn
      rw [pageFind, if_pos (hs.mapped tb htb n _ hn)] at hfind
      cases hfind
    refine ⟨?_, fun _ => ⟨s, ⟨0, fun fuel _ => ?_⟩, ?_, rfl⟩⟩
    · rintro ⟨tb, htb, h⟩
      exact absurd (h 0).1 (hno tb htb 0)
    · simp only [tbInvalidatePhysPageRange, hfind]
    have hnone : ∀ tb ∈ L, tb ∉ reached s L start stop := by
      rintro tb htb ⟨-, n, hn, -⟩
      exact hno tb htb n hn
    have : L \ reached s L start stop = L := by
      ext tb
      exact ⟨fun h => h.1, fun h => ⟨h, hnone tb h⟩⟩
    rwa [this]
  | some p =>
    obtain rfl : start / TARGET_PAGE_SIZE = p := by
      rw [pageFind] at hfind
      split at hfind
      · exact Option.some.inj hfind
      · cases hfind
    obtain ⟨s1, hs1, hinv1, htb1, -⟩ := countWrite_settles hs (start / TARGET_PAGE_SIZE) w
    obtain ⟨F, hF⟩ := hinv1.page
    have hall : F (start / TARGET_PAGE_SIZE) = [] ++ F (start / TARGET_PAGE_SIZE) := rfl
    obtain ⟨hcrash, hok⟩ := invalidateLoop_settles start stop _ hinv1 hF hall
    have hhead : (F (start / TARGET_PAGE_SIZE)).head? =
        s1.pageList (.firstTb (start / TARGET_PAGE_SIZE)) :=
      (Tb.Leads.eq_head (hF.family.leads _ (Set.mem_univ _))).symm
    rw [hhead, bothHit_iff hF, htb1] at hcrash hok
    have hloop : ∀ r, LoopEnds start stop (s1.pageList (.firstTb (start / TARGET_PAGE_SIZE))) s1 r →
        Settles (fun fuel => invalidateLoop fuel start stop fuel
          (s1.pageList (.firstTb (start / TARGET_PAGE_SIZE))) s1) r := by
      rintro r ⟨k, hk⟩
      exact ⟨k, fun fuel hf => hk fuel fuel hf hf⟩
    simp only [tbInvalidatePhysPageRange, hfind]
    refine ⟨fun hb => hs1.bind (hloop _ (hcrash hb)).bind_error, fun hb => ?_⟩
    obtain ⟨s2, hs2, hinv2, htb2⟩ := hok hb
    rw [hitSet_eq hF] at hinv2
    obtain ⟨hinv3, htb3⟩ := inv_dropEmptyPage hinv2 (start / TARGET_PAGE_SIZE)
    refine ⟨_, hs1.bind ((hloop _ hs2).bind (settles_const _)), ?_, htb3.trans htb2⟩
    unfold reached at hinv3 ⊢
    rwa [htb1] at hinv3

lemma range_inv {w : Bool} (hs : Inv s L)
    (h : Settles (fun fuel => tbInvalidatePhysPageRange fuel s start stop w) (.ok s')) :
    (¬ ∃ tb ∈ L, ∀ n, (s.tb tb).Reached n start stop) ∧ Inv s' (L \ reached s L start stop) := by
  obtain ⟨hcrash, hok⟩ := range_settles hs start stop w
  by_cases hb : ∃ tb ∈ L, ∀ n, (s.tb tb).Reached n start stop
  · cases h.unique (hcrash hb)
  · obtain ⟨s1, hs1, hinv, -⟩ := hok hb
    cases h.unique hs1
    exact ⟨hb, hinv⟩

/-! ## Reachable states -/

/-- in the physical hash table -/
def Linked (s : State t) (tb : Nat) : Prop :=
  ∃ h xs, Leads HashCell.physHashNext s.tbPhysHash (s.tbPhysHash (.tbPhysHash h)) xs none ∧ tb ∈ xs

def OnPage (s : State t) (i : Nat) (p : PagePtr) : Prop :=
  ∃ xs, Leads PageCell.pageNext s.pageList (s.pageList (.firstTb i)) xs none ∧ p ∈ xs

inductive Reachable : State t → Prop
  | init (tbs : Nat → TranslationBlock t) (hash : Nat → Option Nat)
    (page : PagePtr → Option PagePtr) (jmp : JmpPtr → Option JmpPtr) :
    Reachable (init tbs hash page jmp)
  | genCode {s : State t} {tb : Nat} (c : Code t) (frame : TargetUlong t → Nat) :
    Reachable s → ¬ Linked s tb → Reachable (tbGenCode s tb c frame)
  | addJump {s : State t} {tb tbNext : Nat} (n : Fin 2) :
    Reachable s → Linked s tb → Linked s tbNext → Reachable (tbAddJump s tb n tbNext)
  | range {s s' : State t} {start stop : Nat} (w : Bool) : Reachable s → InPage start stop →
    Settles (fun fuel => tbInvalidatePhysPageRange fuel s start stop w) (.ok s') → Reachable s'
  | fast {s s' : State t} {start len : Nat} : Reachable s → InPage start (start + len) →
    Settles (fun fuel => tbInvalidatePhysPageFast fuel s start len) (.ok s') → Reachable s'

lemma linked_iff (hs : Inv s L) : Linked s tb ↔ tb ∈ L := by
  obtain ⟨F, hF⟩ := hs.hash
  constructor
  · rintro ⟨h, xs, hxs, hmem⟩
    obtain ⟨rfl, -⟩ := Leads.unique (E := (· = none)) hxs
      (hF.family.leads h (Set.mem_univ h)) rfl rfl
      (fun x _ => Option.some_ne_none x) fun x _ => Option.some_ne_none x
    exact ((hF.mem h tb).mp hmem).1
  · intro htb
    exact ⟨(s.tb tb).hash, _, hF.family.leads _ (Set.mem_univ _), (hF.mem _ tb).mpr ⟨htb, rfl⟩⟩

lemma onPage_iff (hs : Inv s L) {p : PagePtr} :
    OnPage s i p ↔ p.1 ∈ L ∧ (s.tb p.1).page p.2 = some i := by
  obtain ⟨F, hF⟩ := hs.page
  rw [← hF.mem]
  constructor
  · rintro ⟨xs, hxs, hmem⟩
    obtain ⟨rfl, -⟩ := Leads.unique (E := (· = none)) hxs
      (hF.family.leads i (Set.mem_univ i)) rfl rfl
      (fun x _ => Option.some_ne_none x) fun x _ => Option.some_ne_none x
    exact hmem
  · exact fun h => ⟨_, hF.family.leads i (Set.mem_univ i), h⟩

variable {w : Bool} {len : Nat}

lemma inv_of_fast (hs : Inv s L)
    (h : Settles (fun fuel => tbInvalidatePhysPageFast fuel s start len) (.ok s')) :
    ∃ L', Inv s' L' := by
  have hkeep : Settles (fun _ => (.ok s : Except Fault (State t))) (.ok s') → ∃ L', Inv s' L' := by
    intro h
    cases h.unique (settles_const _)
    exact ⟨L, hs⟩
  unfold tbInvalidatePhysPageFast at h
  cases hfind : pageFind s (start / TARGET_PAGE_SIZE) with
  | none =>
    simp only [hfind] at h
    exact hkeep h
  | some p =>
    cases hbit : s.codeBitmap p with
    | none =>
      simp only [hfind, hbit] at h
      exact ⟨_, (range_inv hs h).2⟩
    | some tab =>
      by_cases hz : tab.bits start len = 0
      · simp only [hfind, hbit, hz] at h
        exact hkeep h
      · simp only [hfind, hbit, hz, ne_eq] at h
        exact ⟨_, (range_inv hs h).2⟩

lemma inv_of_reachable (h : Reachable s) : ∃ L, Inv s L := by
  induction h with
  | init tbs hash page jmp => exact ⟨∅, inv_init tbs hash page jmp⟩
  | genCode c frame _ hno ih =>
    obtain ⟨L, hs⟩ := ih
    exact ⟨_, inv_tbGenCode hs fun htb => hno ((linked_iff hs).mpr htb)⟩
  | addJump n _ h1 h2 ih =>
    obtain ⟨L, hs⟩ := ih
    exact ⟨L, inv_tbAddJump hs ((linked_iff hs).mp h1) ((linked_iff hs).mp h2) n⟩
  | range w _ _ h ih =>
    obtain ⟨L, hs⟩ := ih
    exact ⟨_, (range_inv hs h).2⟩
  | fast _ _ h ih =>
    obtain ⟨L, hs⟩ := ih
    exact inv_of_fast hs h

/-! ## The fast path -/

lemma bits_ne_zero_iff (tab : Bitmap) (start : Nat) (hlen : len ≤ 8) :
    tab.bits start len ≠ 0 ↔ ∃ k, start % TARGET_PAGE_SIZE ≤ k ∧
      k < start % TARGET_PAGE_SIZE + len ∧ k / 8 = start % TARGET_PAGE_SIZE / 8 ∧
        tab.bit k = true := by
  rw [show (0 : BitVec 32) = 0#32 from rfl, Bits.exists_bit_iff]
  have hbit : ∀ j, (tab.bits start len).getLsbD j =
      ((tab (start % TARGET_PAGE_SIZE / 8)).getLsbD (start % TARGET_PAGE_SIZE % 8 + j) &&
        decide (j < len)) := by
    intro j
    unfold Bitmap.bits
    rw [BitVec.getLsbD_and, BitVec.getLsbD_ushiftRight, BitVec.getLsbD_setWidth,
      show (1 : BitVec 32) = 1#32 from rfl, Bits.getLsbD_below (by omega)]
    by_cases h : start % TARGET_PAGE_SIZE % 8 + j < 32
    · rw [decide_eq_true h, Bool.true_and]
    · rw [decide_eq_false h,
        BitVec.getLsbD_of_ge _ _ (by omega), Bool.false_and]
  constructor
  · rintro ⟨j, hj⟩
    rw [hbit, Bool.and_eq_true, decide_eq_true_iff] at hj
    have hlt : start % TARGET_PAGE_SIZE % 8 + j < 8 := BitVec.lt_of_getLsbD hj.1
    refine ⟨start % TARGET_PAGE_SIZE + j, by omega, by omega, by omega, ?_⟩
    rw [Bitmap.bit, show (start % TARGET_PAGE_SIZE + j) / 8 = start % TARGET_PAGE_SIZE / 8 by omega,
      show (start % TARGET_PAGE_SIZE + j) % 8 = start % TARGET_PAGE_SIZE % 8 + j by omega]
    exact hj.1
  · rintro ⟨k, h1, h2, h3, h4⟩
    refine ⟨k - start % TARGET_PAGE_SIZE, ?_⟩
    rw [hbit, Bool.and_eq_true, decide_eq_true_iff]
    refine ⟨?_, by omega⟩
    rw [Bitmap.bit, h3] at h4
    rwa [show start % TARGET_PAGE_SIZE % 8 + (k - start % TARGET_PAGE_SIZE) = k % 8 by omega]

lemma hasByteIn_iff_byte :
    b.HasByteIn start stop ↔ ∃ a, start ≤ a ∧ a < stop ∧ b.HasByteIn a (a + 1) := by
  constructor
  · rintro ⟨i, hi, a, ha, h1, h2⟩
    exact ⟨a, h1, h2, i, hi, a, ha, Nat.le_refl a, Nat.lt_succ_self a⟩
  · rintro ⟨a, h1, h2, i, hi, a', ha, h3, h4⟩
    exact ⟨i, hi, a', ha, by omega, by omega⟩

/-- **The bitmap of a page has the bytes of the linked blocks.** -/
theorem bit_iff (hs : Inv s L) (hi : s.codeBitmap i = some tab) {k : Nat}
    (hk : k < TARGET_PAGE_SIZE) :
    tab.bit k = true ↔ ∃ tb ∈ L,
      (s.tb tb).HasByteIn (i * TARGET_PAGE_SIZE + k) (i * TARGET_PAGE_SIZE + k + 1) := by
  have hdiv : (i * TARGET_PAGE_SIZE + k) / TARGET_PAGE_SIZE = i := by
    simp only [TARGET_PAGE_SIZE] at *
    omega
  have hin : InPage (i * TARGET_PAGE_SIZE + k) (i * TARGET_PAGE_SIZE + k + 1) := by
    refine ⟨by omega, ?_⟩
    simp only [TARGET_PAGE_SIZE] at *
    omega
  rw [hs.bitmap i tab hi k hk, Prod.exists]
  refine exists_congr fun tb => ?_
  simp only [exists_and_left]
  refine and_congr_right fun htb => ?_
  have hb := hs.placed tb htb
  simp only [hasByteIn_iff hb hin (by omega), TranslationBlock.Reached, hdiv]
  refine exists_congr fun n => and_congr_right fun hn => ?_
  rcases zero_or_one n with rfl | rfl
  · rw [hit_zero, (page_zero hb).mp hn]
    show (s.tb tb).pcOffset ≤ k ∧ k < min ((s.tb tb).pcOffset + (s.tb tb).size) TARGET_PAGE_SIZE ↔ _
    omega
  · obtain ⟨hsecond, hiff⟩ := hit_one hb ((page_one hb).mp hn)
    rw [hiff]
    show 0 ≤ k ∧ k < (s.tb tb).endOffset ↔ _
    rw [endOffset_eq hsecond]
    omega

lemma bits_iff (hs : Inv s L) (hlen : len ≤ 8)
    (hi : s.codeBitmap (start / TARGET_PAGE_SIZE) = some tab) :
    tab.bits start len ≠ 0 ↔ ∃ tb ∈ L,
      (s.tb tb).HasByteIn start (min (start + len) ((start / 8 + 1) * 8)) := by
  have hdm : start / TARGET_PAGE_SIZE * TARGET_PAGE_SIZE + start % TARGET_PAGE_SIZE = start :=
    Nat.div_add_mod' _ _
  rw [bits_ne_zero_iff tab start hlen]
  constructor
  · rintro ⟨k, h1, h2, h3, h4⟩
    have hk : k < TARGET_PAGE_SIZE := by
      simp only [TARGET_PAGE_SIZE] at *
      omega
    obtain ⟨tb, htb, hbyte⟩ := (bit_iff hs hi hk).mp h4
    refine ⟨tb, htb, hasByteIn_iff_byte.mpr ⟨_, ?_, ?_, hbyte⟩⟩
    · omega
    · simp only [TARGET_PAGE_SIZE] at *
      omega
  · rintro ⟨tb, htb, hbyte⟩
    obtain ⟨a, h1, h2, hbyte⟩ := hasByteIn_iff_byte.mp hbyte
    have ha : a = start / TARGET_PAGE_SIZE * TARGET_PAGE_SIZE + a % TARGET_PAGE_SIZE := by
      simp only [TARGET_PAGE_SIZE] at *
      omega
    have hbit : tab.bit (a % TARGET_PAGE_SIZE) = true := by
      refine (bit_iff hs hi (Nat.mod_lt _ (by decide))).mpr ⟨tb, htb, ?_⟩
      rw [← ha]
      exact hbyte
    refine ⟨a % TARGET_PAGE_SIZE, ?_, ?_, ?_, hbit⟩
    · simp only [TARGET_PAGE_SIZE] at *
      omega
    · simp only [TARGET_PAGE_SIZE] at *
      omega
    · simp only [TARGET_PAGE_SIZE] at *
      omega

/-! ## The result -/

/-- the call ends, takes exactly the blocks with a byte in the range off the hash lists and the page
lists, and leaves all lists well formed -/
def RangeExact (s : State t) (start stop : Nat) (w : Bool) : Prop :=
  ∃ s', Settles (fun fuel => tbInvalidatePhysPageRange fuel s start stop w) (.ok s') ∧
    (∀ tb, Linked s' tb ↔ Linked s tb ∧ ¬ (s.tb tb).HasByteIn start stop) ∧
    (∀ i p, OnPage s' i p ↔ OnPage s i p ∧ ¬ (s.tb p.1).HasByteIn start stop) ∧
    ∃ L, Inv s' L

/-- a call for bytes of a block is not cut short -/
def NoSkip (s : State t) (start len : Nat) : Prop :=
  (∃ tb, Linked s tb ∧ (s.tb tb).HasByteIn start (start + len)) → ∀ fuel,
    tbInvalidatePhysPageFast fuel s start len =
      tbInvalidatePhysPageRange fuel s start (start + len) true

lemma not_both_of_empty (hb : Placed b) : ¬ ∀ n, b.Reached n start start := by
  intro h
  obtain ⟨hp0, h0⟩ := h 0
  obtain ⟨hp1, h1⟩ := h 1
  rw [page_zero hb] at hp0
  rw [page_one hb] at hp1
  have hle := b.size_le
  rw [hit_zero] at h0
  rw [(hit_one hb hp1).2] at h1
  omega

lemma rangeExact_of (hs : Inv s L) (hboth : ¬ ∃ tb ∈ L, ∀ n, (s.tb tb).Reached n start stop)
    (hreach : ∀ tb ∈ L, tb ∈ reached s L start stop ↔ (s.tb tb).HasByteIn start stop) :
    RangeExact s start stop w := by
  obtain ⟨s', hs', hinv, htb⟩ := (range_settles hs start stop w).2 hboth
  refine ⟨s', hs', fun tb => ?_, fun i p => ?_, _, hinv⟩
  · rw [linked_iff hinv, linked_iff hs]
    exact and_congr_right fun h => not_congr (hreach tb h)
  rw [onPage_iff hinv, onPage_iff hs, htb]
  constructor
  · rintro ⟨⟨h1, h2⟩, h3⟩
    exact ⟨⟨h1, h3⟩, fun h => h2 ((hreach _ h1).mpr h)⟩
  · rintro ⟨⟨h1, h3⟩, h2⟩
    exact ⟨⟨h1, fun h => h2 ((hreach _ h1).mp h)⟩, h3⟩

lemma rangeExact_iff (hs : Inv s L) (hin : InPage start stop) (w : Bool) :
    RangeExact s start stop w ↔ (∀ tb, Linked s tb → ¬ (s.tb tb).TwiceIn start stop) ∧
      (start = stop → ∀ tb, Linked s tb → ¬ (s.tb tb).Around start) := by
  simp only [linked_iff hs]
  rcases Nat.lt_or_ge start stop with hlt | hge
  · -- a block is reached exactly when it has a byte in the range
    have htwice := fun tb htb => twiceIn_iff (hs.placed tb htb) hin hlt
    have hreach : ∀ tb ∈ L, tb ∈ reached s L start stop ↔ (s.tb tb).HasByteIn start stop := by
      intro tb htb
      rw [hasByteIn_iff (hs.placed tb htb) hin hlt]
      exact ⟨fun h => h.2, fun h => ⟨htb, h⟩⟩
    constructor
    · rintro ⟨s', hs', -⟩
      refine ⟨fun tb htb h2 => ?_, fun e => absurd e (by omega)⟩
      exact (range_inv hs hs').1 ⟨tb, htb, (htwice tb htb).mp h2⟩
    · rintro ⟨h, -⟩
      refine rangeExact_of hs ?_ hreach
      rintro ⟨tb, htb, h2⟩
      exact h tb htb ((htwice tb htb).mpr h2)
  · -- an empty range has no byte, but may lie inside of a block
    obtain rfl : start = stop := by
      have := hin.1
      omega
    have hnone : ∀ tb, ¬ (s.tb tb).HasByteIn start start := by
      rintro tb ⟨i, -, a, -, h1, h2⟩
      omega
    have hboth : ¬ ∃ tb ∈ L, ∀ n, (s.tb tb).Reached n start start := fun ⟨tb, htb, h⟩ =>
      not_both_of_empty (hs.placed tb htb) h
    constructor
    · rintro ⟨s', hs', hlinked, -⟩
      refine ⟨fun tb _ ⟨i, _, _, _, h, _⟩ => hnone tb ⟨i, h⟩, fun _ tb htb ha => ?_⟩
      obtain ⟨-, hinv⟩ := range_inv hs hs'
      have hstill := (hlinked tb).mpr ⟨(linked_iff hs).mpr htb, hnone tb⟩
      rw [linked_iff hinv] at hstill
      exact hstill.2 ⟨htb, (around_iff (hs.placed tb htb)).mp ha⟩
    · rintro ⟨-, h⟩
      refine rangeExact_of hs hboth fun tb htb => ⟨fun hr => ?_, fun hb => absurd hb (hnone tb)⟩
      exact absurd ((around_iff (hs.placed tb htb)).mpr hr.2) (h rfl tb htb)

lemma reached_of_byte (hs : Inv s L) (htb : tb ∈ L) (hin : InPage start stop)
    (hbyte : (s.tb tb).HasByteIn start stop) : (∃ n, (s.tb tb).Reached n start stop) ∧
      pageFind s (start / TARGET_PAGE_SIZE) = some (start / TARGET_PAGE_SIZE) := by
  have hlt : start < stop := by
    obtain ⟨i, -, a, -, h1, h2⟩ := hbyte
    omega
  obtain ⟨n, hn⟩ := (hasByteIn_iff (hs.placed tb htb) hin hlt).mp hbyte
  exact ⟨⟨n, hn⟩, if_pos (hs.mapped tb htb n _ hn.1)⟩

lemma noSkip_iff (hs : Inv s L) (hlen : len ≤ 8) (hin : InPage start (start + len)) :
    NoSkip s start len ↔ (s.codeBitmap (start / TARGET_PAGE_SIZE) ≠ none →
      (∃ tb, Linked s tb ∧ (s.tb tb).HasByteIn start (start + len)) →
      ∃ tb, Linked s tb ∧ (s.tb tb).HasByteIn start (min (start + len) ((start / 8 + 1) * 8))) := by
  unfold NoSkip
  simp only [linked_iff hs]
  constructor
  · intro h hmap hex
    obtain ⟨tab, htab⟩ := Option.ne_none_iff_exists'.mp hmap
    rw [← bits_iff hs hlen htab]
    intro hz
    -- the call returns at once, but the invalidation would have taken a block out
    obtain ⟨tb, htb, hbyte⟩ := hex
    obtain ⟨hreached, hfind⟩ := reached_of_byte hs htb hin hbyte
    have hfast : ∀ fuel, tbInvalidatePhysPageRange fuel s start (start + len) true = .ok s := by
      intro fuel
      rw [← h ⟨tb, htb, hbyte⟩ fuel]
      simp only [tbInvalidatePhysPageFast, hfind, htab, hz, ne_eq, not_true_eq_false, if_false]
    have hsame : Settles (fun fuel => tbInvalidatePhysPageRange fuel s start (start + len) true)
        (.ok s) := ⟨0, fun fuel _ => hfast fuel⟩
    have hstill := (linked_iff (range_inv hs hsame).2).mp ((linked_iff hs).mpr htb)
    exact hstill.2 ⟨htb, hreached⟩
  · intro h hex fuel
    obtain ⟨tb, htb, hbyte⟩ := hex
    obtain ⟨hreached, hfind⟩ := reached_of_byte hs htb hin hbyte
    cases htab : s.codeBitmap (start / TARGET_PAGE_SIZE) with
    | none => simp only [tbInvalidatePhysPageFast, hfind, htab]
    | some tab =>
      have hz := (bits_iff hs hlen htab).mpr
        (h (by rw [htab]; exact Option.some_ne_none tab) ⟨tb, htb, hbyte⟩)
      simp only [tbInvalidatePhysPageFast, hfind, htab, hz, ne_eq, not_false_eq_true, if_true]

/-- **a write of 1, 2, 4 or 8 bytes to a multiple of its length is not cut short** -/
theorem noSkip_of_dvd_eight (hs : Reachable s) (h8 : len ∣ 8) (hd : len ∣ start) :
    NoSkip s start len := by
  obtain ⟨L, hinv⟩ := inv_of_reachable hs
  have hle : len ≤ 8 := Nat.le_of_dvd (by decide) h8
  -- both ends of the range are multiples of its length, and so is the end of the bitmap's byte
  have hbyte : start + len ≤ (start / 8 + 1) * 8 := by
    obtain ⟨k, hk⟩ := h8
    obtain ⟨q, rfl⟩ := hd
    have hlt : q < (len * q / 8 + 1) * k := by
      refine Nat.lt_of_mul_lt_mul_left (a := len) ?_
      calc len * q < (len * q / 8 + 1) * 8 := by omega
        _ = len * ((len * q / 8 + 1) * k) := by rw [Nat.mul_left_comm, ← hk]
    calc len * q + len = len * (q + 1) := by rw [Nat.mul_succ]
      _ ≤ len * ((len * q / 8 + 1) * k) := Nat.mul_le_mul_left len hlt
      _ = (len * q / 8 + 1) * 8 := by rw [Nat.mul_left_comm, ← hk]
  have hin : InPage start (start + len) := by
    refine ⟨by omega, ?_⟩
    simp only [TARGET_PAGE_SIZE]
    omega
  rw [noSkip_iff hinv hle hin, Nat.min_eq_left hbyte]
  exact fun _ h => h

/-! ## A page that is written often -/

lemma invalidateLoop_miss (hF : PageLists s L F) (he : F i = ks ++ xs)
    (hmiss : ∀ q ∈ xs, (s.tb q.1).hit q.2 start stop = false) :
    LoopEnds start stop xs.head? s (.ok s) := by
  induction xs generalizing ks with
  | nil => exact loopEnds_none
  | cons q xs ih =>
    have hlead := hF.family.leads i (Set.mem_univ i)
    rw [he, leads_append] at hlead
    have hks : F i = (ks ++ [q]) ++ xs := by rw [he, append_assoc]; rfl
    refine loopEnds_skip (hmiss q mem_cons_self) ?_
    rw [Tb.Leads.eq_head hlead.2]
    exact ih hks fun x hx => hmiss x (mem_cons_of_mem q hx)

lemma range_miss (hs : Inv s L) {p : PagePtr} (hp : p.1 ∈ L)
    (hpage : (s.tb p.1).page p.2 = some (start / TARGET_PAGE_SIZE))
    (hmiss : ∀ tb ∈ L, ∀ n, (s.tb tb).page n = some (start / TARGET_PAGE_SIZE) →
      (s.tb tb).hit n start stop = false)
    (h1 : Settles (fun fuel => countWrite fuel s (start / TARGET_PAGE_SIZE) w) (.ok s1)) :
    Settles (fun fuel => tbInvalidatePhysPageRange fuel s start stop w) (.ok s1) := by
  obtain ⟨s', hs', hinv, htb, -⟩ := countWrite_settles hs (start / TARGET_PAGE_SIZE) w
  cases h1.unique hs'
  obtain ⟨F, hF⟩ := hinv.page
  have hmem : p ∈ F (start / TARGET_PAGE_SIZE) := (hF.mem _ p).mpr ⟨hp, htb ▸ hpage⟩
  have hhead : (F (start / TARGET_PAGE_SIZE)).head? =
      s1.pageList (.firstTb (start / TARGET_PAGE_SIZE)) :=
    (Tb.Leads.eq_head (hF.family.leads _ (Set.mem_univ _))).symm
  have hall : F (start / TARGET_PAGE_SIZE) = [] ++ F (start / TARGET_PAGE_SIZE) := rfl
  have hno : ∀ q ∈ F (start / TARGET_PAGE_SIZE), (s1.tb q.1).hit q.2 start stop = false := by
    intro q hq
    obtain ⟨hq1, hq2⟩ := (hF.mem _ q).mp hq
    rw [htb] at hq2 ⊢
    exact hmiss q.1 hq1 q.2 hq2
  obtain ⟨k, hk⟩ := invalidateLoop_miss hF hall hno
  rw [hhead] at hk
  have hfind : pageFind s (start / TARGET_PAGE_SIZE) = some (start / TARGET_PAGE_SIZE) :=
    if_pos (hs.mapped p.1 hp p.2 _ hpage)
  have hdrop : dropEmptyPage s1 (start / TARGET_PAGE_SIZE) = s1 := by
    unfold dropEmptyPage
    rw [← hhead]
    cases hx : F (start / TARGET_PAGE_SIZE) with
    | nil =>
      rw [hx] at hmem
      cases hmem
    | cons q xs => rfl
  simp only [tbInvalidatePhysPageRange, hfind]
  refine h1.bind (Settles.bind ⟨k, fun fuel hf => hk fuel fuel hf hf⟩ ?_)
  rw [hdrop]
  exact settles_const _

lemma bitmap_made (k : Nat) : ∀ {s : State t}, Reachable s → Inv s L → InPage start stop →
    ∀ {p : PagePtr}, p.1 ∈ L → (s.tb p.1).page p.2 = some (start / TARGET_PAGE_SIZE) →
    (∀ tb ∈ L, ∀ n, (s.tb tb).page n = some (start / TARGET_PAGE_SIZE) →
      (s.tb tb).hit n start stop = false) →
    s.codeBitmap (start / TARGET_PAGE_SIZE) = none →
    (s.codeWriteCount (start / TARGET_PAGE_SIZE)).toNat + k = 9 →
    ∃ s', Reachable s' ∧ Inv s' L ∧ s'.tb = s.tb ∧
      s'.codeBitmap (start / TARGET_PAGE_SIZE) ≠ none := by
  induction k with
  | zero =>
    intro s hr hs hin p hp hpage hmiss hb hc
    obtain ⟨s1, hs1, hinv, htb, hcount⟩ := countWrite_settles hs (start / TARGET_PAGE_SIZE) true
    refine ⟨s1, .range true hr hin (range_miss hs hp hpage hmiss hs1), hinv, htb, ?_⟩
    rw [(hcount hb).2]
    refine ⟨?_, rfl⟩
    show 10 ≤ (_ + 1) % 2 ^ 32
    omega
  | succ k ih =>
    intro s hr hs hin p hp hpage hmiss hb hc
    obtain ⟨s1, hs1, hinv, htb, hcount⟩ := countWrite_settles hs (start / TARGET_PAGE_SIZE) true
    obtain ⟨hc1, hb1⟩ := hcount hb
    have hnone : s1.codeBitmap (start / TARGET_PAGE_SIZE) = none := by
      refine Classical.byContradiction fun h => ?_
      have h10 := (hb1.mp h).1
      have h10 : 10 ≤ ((s.codeWriteCount (start / TARGET_PAGE_SIZE)).toNat + 1) % 2 ^ 32 := h10
      omega
    obtain ⟨s2, hr2, hinv2, htb2, hb2⟩ := ih (.range true hr hin (range_miss hs hp hpage hmiss hs1))
      hinv hin hp (htb ▸ hpage) (htb ▸ hmiss) hnone (by
        rw [hc1]
        show (_ + 1) % 2 ^ 32 + k = 9
        omega)
    exact ⟨s2, hr2, hinv2, htb2.trans htb, hb2⟩

/-- **In every reachable state, invalidation of a range is exact unless it reaches a block on both
of its pages or is empty and inside of a block; the fast path misses code only past the byte of the
bitmap that its start is in.** -/
theorem invalidate_exact_iff (hs : Reachable s) :
    (∀ start stop w, InPage start stop → (RangeExact s start stop w ↔
      (∀ tb, Linked s tb → ¬ (s.tb tb).TwiceIn start stop) ∧
        (start = stop → ∀ tb, Linked s tb → ¬ (s.tb tb).Around start))) ∧
    ∀ start len, len ≤ 8 → len ∣ start → InPage start (start + len) → (NoSkip s start len ↔
      (s.codeBitmap (start / TARGET_PAGE_SIZE) ≠ none →
        (∃ tb, Linked s tb ∧ (s.tb tb).HasByteIn start (start + len)) →
        ∃ tb, Linked s tb ∧
          (s.tb tb).HasByteIn start (min (start + len) ((start / 8 + 1) * 8)))) := by
  obtain ⟨L, hinv⟩ := inv_of_reachable hs
  exact ⟨fun start stop w hin => rangeExact_iff hinv hin w,
    fun start len hlen _ hin => noSkip_iff hinv hlen hin⟩

/-! ## One block -/

/-- before the first block is made -/
def noBlock : State t :=
  init (fun _ => ⟨0, 1, 0, none, by decide, by decide⟩) (fun _ => none) (fun _ => none)
    fun _ => none

/-- the block 0 is linked, at the RAM page `frame` -/
def oneBlock (c : Code t) (frame : Nat) : State t := tbGenCode noBlock 0 c fun _ => frame

variable (c : Code t) (frame : Nat)

lemma oneBlock_reachable : Reachable (oneBlock c frame) :=
  .genCode c _ (.init _ _ _ _) fun h => (linked_iff (inv_init _ _ _ _)).mp h

lemma oneBlock_inv : Inv (oneBlock c frame) {0} := by
  have h : Inv (oneBlock c frame) (insert 0 ∅) :=
    inv_tbGenCode (inv_init _ _ _ _) (Set.notMem_empty 0)
  rwa [show insert 0 (∅ : Set Nat) = {0} by ext; simp] at h

lemma oneBlock_tb :
    (oneBlock c frame).tb 0 = newBlock c fun _ => frame := tbGenCode_tb_self

lemma oneBlock_codeBitmap (frame i : Nat) : (oneBlock c frame).codeBitmap i = none := by
  cases h : (oneBlock c frame).codeBitmap i with
  | none => rfl
  | some tab => cases (tbGenCode_codeBitmap h).1

/-- sixteen bytes at the start of a page -/
def shortCode : Code .x86_64 where
  pc := 0x400000
  size := 16
  size_pos := by decide
  size_le := by decide

theorem invalidate_exact_short :
    Reachable (oneBlock shortCode 1) ∧ RangeExact (oneBlock shortCode 1) 0x1008 0x100c true := by
  refine ⟨oneBlock_reachable _ _,
    ((invalidate_exact_iff (oneBlock_reachable _ _)).1 0x1008 0x100c true (by decide)).mpr
      ⟨fun tb htb => ?_, fun e => absurd e (by decide)⟩⟩
  rw [linked_iff (oneBlock_inv _ _)] at htb
  subst htb
  rintro ⟨i, j, -, hj, -, hsize, -⟩
  have hj : 4096 ≤ 0 + j := hj
  have hsize : j < 16 := hsize
  omega

/-- one byte of code, at the start of a byte of the bitmap -/
def byteCode : Code .x86_64 where
  pc := 0x400010
  size := 1
  size_pos := by decide
  size_le := by decide

lemma byteCode_bitmap : ∃ s : State .x86_64, Reachable s ∧ Inv s {0} ∧
    s.tb 0 = newBlock byteCode (fun _ => 1) ∧ s.codeBitmap 1 ≠ none := by
  have hpage : (newBlock byteCode fun _ => 1).page 0 = some 1 := by decide +kernel
  have hmiss : ∀ n, (newBlock byteCode fun _ => 1).page n = some 1 →
      (newBlock byteCode fun _ => 1).hit n 0x1100 0x1101 = false := by decide +kernel
  have hin : InPage 0x1100 0x1101 := by decide
  have hcount : ((oneBlock byteCode 1).codeWriteCount 1).toNat + 9 = 9 := by decide +kernel
  obtain ⟨s, hr, hinv, htb, hbit⟩ := bitmap_made 9 (oneBlock_reachable byteCode 1)
    (oneBlock_inv byteCode 1) hin (p := (0, 0)) rfl (oneBlock_tb byteCode 1 ▸ hpage)
    (by rintro tb rfl; exact oneBlock_tb byteCode 1 ▸ hmiss) (oneBlock_codeBitmap byteCode 1 _)
    hcount
  exact ⟨s, hr, hinv, by rw [htb, oneBlock_tb], hbit⟩

/-- the bitmap is there, and four bytes at the code are not skipped -/
theorem noSkip_bitmap : ∃ s : State .x86_64, Reachable s ∧ s.codeBitmap 1 ≠ none ∧
    (s.tb 0).HasByteIn 0x1010 0x1014 ∧ NoSkip s 0x1010 4 := by
  obtain ⟨s, hr, -, htb, hbit⟩ := byteCode_bitmap
  refine ⟨s, hr, hbit, ?_, noSkip_of_dvd_eight hr (by decide) (by decide)⟩
  rw [htb]
  exact ⟨0, by decide, 0x1010, by decide +kernel, by decide, by decide⟩

/-- sixteen bytes across the end of a page, with the same RAM page behind both virtual pages -/
def acrossCode : Code .x86_64 where
  pc := 0x400ff8
  size := 16
  size_pos := by decide
  size_le := by decide

/-- a write over the whole page follows the null pointer; and when ten writes have made the bitmap,
a write of three bytes that ends on the code is skipped -/
theorem invalidate_not_exact :
    (Reachable (oneBlock acrossCode 1) ∧ InPage 0x1000 0x2000 ∧
      Settles (fun fuel =>
        tbInvalidatePhysPageRange fuel (oneBlock acrossCode 1) 0x1000 0x2000 false)
        (.error .null) ∧ ¬ RangeExact (oneBlock acrossCode 1) 0x1000 0x2000 false) ∧
    ∃ s : State .x86_64, Reachable s ∧ 3 ∣ 0x100e ∧ InPage 0x100e (0x100e + 3) ∧
      ¬ NoSkip s 0x100e 3 := by
  constructor
  · have hboth : ∀ n, (newBlock acrossCode fun _ => 1).page n = some 1 ∧
        (newBlock acrossCode fun _ => 1).hit n 0x1000 0x2000 = true := by decide +kernel
    have hcrash := (range_settles (oneBlock_inv acrossCode 1) 0x1000 0x2000 false).1
      ⟨0, rfl, oneBlock_tb acrossCode 1 ▸ hboth⟩
    refine ⟨oneBlock_reachable _ _, by decide, hcrash, fun ⟨s', hs', _⟩ => ?_⟩
    cases hcrash.unique hs'
  · obtain ⟨s, hr, hinv, hblock, hbit⟩ := byteCode_bitmap
    refine ⟨s, hr, by decide, by decide, fun h => ?_⟩
    rw [noSkip_iff hinv (by decide) (by decide)] at h
    have hbyte : (newBlock byteCode fun _ => 1).HasByteIn 0x100e (0x100e + 3) :=
      ⟨0, by decide, 0x1010, by decide +kernel, by decide, by decide⟩
    obtain ⟨tb, htb', i, hi, a, ha, h1, h2⟩ :=
      h hbit ⟨0, (linked_iff hinv).mpr rfl, by rw [hblock]; exact hbyte⟩
    rw [linked_iff hinv] at htb'
    subst htb'
    rw [hblock] at hi ha
    have hi : i < 1 := hi
    obtain rfl : i = 0 := by omega
    have ha' : (newBlock byteCode fun _ => 1).physAddr 0 = some 0x1010 := by decide +kernel
    rw [ha', Option.some.injEq] at ha
    subst ha
    exact absurd h2 (by decide)

end
end Tb
