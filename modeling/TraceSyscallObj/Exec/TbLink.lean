import TraceSyscallObj.Exec.TbInv
import TraceSyscallObj.Lib.Bits

/-!
# A new block, a new jump

* `newBlock`, `placed_newBlock`: the block that `tb_gen_code` makes: it is on a second page exactly
  when its bytes reach beyond the first;
* `inv_tbGenCode`, `inv_tbAddJump`, `inv_init`.
-/

namespace Tb
open Function
open X86 (Target TargetUlong TARGET_PAGE_MASK)
open Threads

section
variable {t : Target}

/-! ## Page numbers -/

lemma toNat_and_pageMask (x : TargetUlong t) :
    (x &&& TARGET_PAGE_MASK t.bits).toNat = x.toNat / TARGET_PAGE_SIZE * TARGET_PAGE_SIZE := by
  have hmask : x &&& TARGET_PAGE_MASK t.bits = (x >>> 12) <<< 12 := by
    have hlow : (0xfff : TargetUlong t) = BitVec.ofNat t.bits (2 ^ 12 - 1) := rfl
    refine BitVec.eq_of_getLsbD_eq fun i hi => ?_
    unfold TARGET_PAGE_MASK
    rw [BitVec.getLsbD_and, BitVec.getLsbD_not, hlow, BitVec.getLsbD_ofNat,
      Nat.testBit_two_pow_sub_one, BitVec.getLsbD_shiftLeft,
      BitVec.getLsbD_ushiftRight, decide_eq_true hi]
    by_cases h12 : i < 12
    · simp [h12]
    · rw [show 12 + (i - 12) = i by omega]
      simp [h12]
  rw [hmask, BitVec.toNat_shiftLeft, BitVec.toNat_ushiftRight, Nat.shiftRight_eq_div_pow,
    Nat.shiftLeft_eq]
  refine Nat.mod_eq_of_lt ?_
  omega

lemma page_dvd (t : Target) : ∃ q, 1 < q ∧ 2 ^ t.bits = TARGET_PAGE_SIZE * q := by
  cases t
  · exact ⟨2 ^ 20, by decide, by decide⟩
  · exact ⟨2 ^ 52, by decide, by decide⟩

variable (c : Code t)

lemma mask_ne_iff :
    c.pc &&& TARGET_PAGE_MASK t.bits ≠
        (c.pc + BitVec.ofNat t.bits c.size - 1) &&& TARGET_PAGE_MASK t.bits ↔
      TARGET_PAGE_SIZE < c.pc.toNat % TARGET_PAGE_SIZE + c.size := by
  obtain ⟨q, hq, hbits⟩ := page_dvd t
  have hpos := c.size_pos
  have hle := c.size_le
  have hlast : (c.pc + BitVec.ofNat t.bits c.size - 1).toNat =
      (c.pc.toNat + (c.size - 1)) % 2 ^ t.bits := by
    have e : c.pc + BitVec.ofNat t.bits c.size - 1 = c.pc + BitVec.ofNat t.bits (c.size - 1) := by
      have : BitVec.ofNat t.bits c.size = BitVec.ofNat t.bits (c.size - 1) + 1 := by
        conv_lhs => rw [show c.size = c.size - 1 + 1 by omega]
        rw [BitVec.ofNat_add]
        rfl
      rw [this, ← BitVec.add_assoc, BitVec.add_sub_cancel]
    rw [e, BitVec.toNat_add, BitVec.toNat_ofNat, Nat.add_mod_mod]
  rw [Ne, ← BitVec.toNat_inj, toNat_and_pageMask, toNat_and_pageMask, hlast, hbits]
  simp only [TARGET_PAGE_SIZE] at *
  -- the sum wraps at most once
  by_cases hwrap : c.pc.toNat + (c.size - 1) < 4096 * q
  · rw [Nat.mod_eq_of_lt hwrap]
    omega
  · rw [Nat.mod_eq_sub_mod (by omega), Nat.mod_eq_of_lt (by omega)]
    omega

/-! ## The new block -/

def newBlock (c : Code t) (frame : TargetUlong t → Nat) : TranslationBlock t where
  pc := c.pc
  size := c.size
  pageAddr0 := getPageAddrCode frame c.pc / TARGET_PAGE_SIZE * TARGET_PAGE_SIZE
  pageAddr1 :=
    let virtPage2 := (c.pc + BitVec.ofNat t.bits c.size - 1) &&& TARGET_PAGE_MASK t.bits
    if c.pc &&& TARGET_PAGE_MASK t.bits ≠ virtPage2 then some (getPageAddrCode frame virtPage2)
    else none
  size_pos := c.size_pos
  size_le := c.size_le

variable (frame : TargetUlong t → Nat)

lemma getPageAddrCode_masked (x : TargetUlong t) :
    getPageAddrCode frame (x &&& TARGET_PAGE_MASK t.bits) % TARGET_PAGE_SIZE = 0 := by
  rw [getPageAddrCode, toNat_and_pageMask, Nat.mul_mod_left, Nat.add_zero, Nat.mul_mod_left]

lemma placed_newBlock : Placed (newBlock c frame) := by
  refine ⟨Nat.mul_mod_left _ _, fun a ha => ?_, ?_⟩
  · simp only [newBlock] at ha
    split at ha
    · cases ha
      exact getPageAddrCode_masked frame _
    · cases ha
  · show (newBlock c frame).pageAddr1 ≠ none ↔ _ < c.pc.toNat % TARGET_PAGE_SIZE + c.size
    rw [← mask_ne_iff c]
    simp only [newBlock]
    split <;> simp_all

lemma newBlock_physPc :
    (newBlock c frame).pageAddr0 + (newBlock c frame).pcOffset = getPageAddrCode frame c.pc := by
  show getPageAddrCode frame c.pc / TARGET_PAGE_SIZE * TARGET_PAGE_SIZE +
    c.pc.toNat % TARGET_PAGE_SIZE = _
  have : getPageAddrCode frame c.pc % TARGET_PAGE_SIZE = c.pc.toNat % TARGET_PAGE_SIZE := by
    rw [getPageAddrCode, Nat.mul_add_mod_self_right, Nat.mod_mod]
  rw [← this, Nat.div_add_mod']

variable {s : State t} {L : Set Nat} {tb : Nat} {c : Code t} {frame : TargetUlong t → Nat}

lemma tbGenCode_eq : tbGenCode s tb c frame =
    tbLinkPage { s with
      tb := update s.tb tb
        { s.tb tb with pc := c.pc, size := c.size, size_pos := c.size_pos, size_le := c.size_le } }
      tb (getPageAddrCode frame c.pc) (newBlock c frame).pageAddr1 := rfl

lemma newBlock_page1 :
    (newBlock c frame).page 1 = (newBlock c frame).pageAddr1.map (· / TARGET_PAGE_SIZE) := rfl

lemma tbGenCode_tb : (tbGenCode s tb c frame).tb = update s.tb tb (newBlock c frame) := by
  have hb : newBlock c frame = { newBlock c frame with pageAddr1 := (newBlock c frame).pageAddr1 } :=
    rfl
  rw [tbGenCode_eq, hb]
  cases (newBlock c frame).pageAddr1 with
  | none | some a =>
    simp only [tbLinkPage, tbAllocPage, setPageAddr, pageFindAlloc, invalidatePageBitmap,
      update_self, update_idem]
    rfl

/-! ## Linking -/

/-- the new block is in front, and with its second part before the first -/
def withBlock (b : TranslationBlock t) (tb : Nat) (F : Nat → List PagePtr) (i : Nat) :
    List PagePtr :=
  (if b.page 1 = some i then [(tb, 1)] else []) ++ ((if b.page 0 = some i then [(tb, 0)] else []) ++
    F i)

variable {F : Nat → List PagePtr}

lemma mem_withBlock {b : TranslationBlock t} {i : Nat} {p : PagePtr} :
    p ∈ withBlock b tb F i ↔ (p.1 = tb ∧ b.page p.2 = some i) ∨ p ∈ F i := by
  obtain ⟨tb1, n⟩ := p
  rw [withBlock, List.mem_append, List.mem_append, ← or_assoc]
  refine or_congr_left ?_
  rcases zero_or_one n with rfl | rfl
  · simp [and_comm]
  · simp [and_comm]

lemma tbAllocPage_family {n : Fin 2} {a : Nat}
    (hF : Family PageCell.pageNext PageCell.firstTb (fun _ => none) Set.univ s.pageList F)
    (hnew : ∀ i, (tb, n) ∉ F i) :
    Family PageCell.pageNext PageCell.firstTb (fun _ => none) Set.univ
      (tbAllocPage s tb n a).pageList
      (update F (a / TARGET_PAGE_SIZE) ((tb, n) :: F (a / TARGET_PAGE_SIZE))) :=
  hF.push pageNext_injective firstTb_injective (Set.mem_univ _) (fun i _ => hnew i)
    fun i _ e => by cases e

lemma tbGenCode_family (hF : PageLists s L F) (htb : tb ∉ L) :
    Family PageCell.pageNext PageCell.firstTb (fun _ => none) Set.univ
      (tbGenCode s tb c frame).pageList (withBlock (newBlock c frame) tb F) := by
  have hnew : ∀ n i, (tb, n) ∉ F i := fun n i h => htb ((hF.mem i _).mp h).1
  have h0 : (newBlock c frame).page 0 =
      some ((newBlock c frame).pageAddr0 / TARGET_PAGE_SIZE) := rfl
  have hfirst : update F ((newBlock c frame).pageAddr0 / TARGET_PAGE_SIZE)
      ((tb, 0) :: F ((newBlock c frame).pageAddr0 / TARGET_PAGE_SIZE)) =
        fun i => (if (newBlock c frame).page 0 = some i then [(tb, 0)] else []) ++ F i := by
    funext i
    rw [h0]
    by_cases hi : i = (newBlock c frame).pageAddr0 / TARGET_PAGE_SIZE
    · rw [hi, update_self, if_pos rfl]
      rfl
    · rw [update_of_ne hi, if_neg fun e => hi (Option.some.inj e).symm]
      rfl
  have hstep := tbAllocPage_family (a := (newBlock c frame).pageAddr0) hF.family (hnew 0)
  rw [hfirst] at hstep
  rw [tbGenCode_eq]
  cases h1 : (newBlock c frame).pageAddr1 with
  | none =>
    refine Eq.mp (congrArg _ ?_) hstep
    funext i
    have hnone : (newBlock c frame).page 1 ≠ some i := by
      rw [newBlock_page1, h1]
      exact fun e => (nomatch e)
    rw [withBlock, if_neg hnone]
    rfl
  | some a =>
    have hnew1 : ∀ i, (tb, 1) ∉
        (if (newBlock c frame).page 0 = some i then [((tb, 0) : PagePtr)] else []) ++ F i := by
      intro i hi
      rcases List.mem_append.mp hi with hi | hi
      · split at hi
        · cases List.mem_singleton.mp hi
        · cases hi
      · exact hnew 1 i hi
    have hstep := tbAllocPage_family (a := a) hstep hnew1
    refine Eq.mp (congrArg _ ?_) hstep
    funext i
    rw [withBlock, newBlock_page1, h1, Option.map_some]
    by_cases hi : i = a / TARGET_PAGE_SIZE
    · rw [hi, update_self, if_pos rfl]
      rfl
    · rw [update_of_ne hi, if_neg fun e => hi (Option.some.inj e).symm]
      rfl

lemma tbGenCode_tb_of_ne {tb1 : Nat} (h : tb1 ≠ tb) : (tbGenCode s tb c frame).tb tb1 = s.tb tb1 := by
  rw [tbGenCode_tb, update_of_ne h]

lemma tbGenCode_tb_self : (tbGenCode s tb c frame).tb tb = newBlock c frame := by
  rw [tbGenCode_tb, update_self]

lemma tbGenCode_iff {P : Nat → TranslationBlock t → Prop} (htb : tb ∉ L) (tb1 : Nat) :
    (tb1 ∈ insert tb L ∧ P tb1 ((tbGenCode s tb c frame).tb tb1)) ↔
      (tb1 = tb ∧ P tb (newBlock c frame)) ∨ (tb1 ∈ L ∧ P tb1 (s.tb tb1)) := by
  by_cases h : tb1 = tb
  · subst h
    rw [tbGenCode_tb_self]
    simp [htb]
  · rw [tbGenCode_tb_of_ne h]
    simp [h]

lemma pageLists_tbGenCode (hF : PageLists s L F) (htb : tb ∉ L) :
    PageLists (tbGenCode s tb c frame) (insert tb L) (withBlock (newBlock c frame) tb F) where
  family := tbGenCode_family hF htb
  mem := fun i p => by
    rw [mem_withBlock, hF.mem]
    exact (tbGenCode_iff (P := fun _ b => b.page p.2 = some i) htb p.1).symm
  twice := fun i tb1 h1 h2 h3 => by
    rcases Set.mem_insert_iff.mp h1 with rfl | hL
    · rw [tbGenCode_tb_self] at h2 h3
      refine ⟨[], F i, ?_⟩
      rw [withBlock, if_pos h2, if_pos h3]
      rfl
    · have hne : tb1 ≠ tb := fun e => htb (e ▸ hL)
      rw [tbGenCode_tb_of_ne hne] at h2 h3
      obtain ⟨pre, post, e⟩ := hF.twice i tb1 hL h2 h3
      refine ⟨(if (newBlock c frame).page 1 = some i then [(tb, 1)] else []) ++
        ((if (newBlock c frame).page 0 = some i then [(tb, 0)] else []) ++ pre), post, ?_⟩
      rw [withBlock, e, List.append_assoc, List.append_assoc]

lemma hashLists_tbGenCode {F : Nat → List Nat} (hF : HashLists s L F) (htb : tb ∉ L) :
    HashLists (tbGenCode s tb c frame) (insert tb L)
      (update F (newBlock c frame).hash (tb :: F (newBlock c frame).hash)) where
  family := by
    have hnew : ∀ h ∈ (Set.univ : Set Nat), tb ∉ F h := fun h _ hm => htb ((hF.mem h tb).mp hm).1
    have := hF.family.push physHashNext_injective tbPhysHash_injective
      (Set.mem_univ (newBlock c frame).hash) hnew fun h _ e => by cases e
    refine Eq.mp (congrArg (Family _ _ _ _ · _) ?_) this
    rw [TranslationBlock.hash, newBlock_physPc, tbGenCode_eq]
    cases (newBlock c frame).pageAddr1 <;> rfl
  mem := fun h tb1 => by
    rw [tbGenCode_iff (P := fun _ b => b.hash = h) htb tb1, ← hF.mem]
    by_cases hh : h = (newBlock c frame).hash
    · rw [hh]
      simp
    · rw [update_of_ne hh]
      simp [Ne.symm hh]

lemma jumpLists_tbGenCode {F : Nat → List JmpPtr} (hF : JumpLists s.jmpList L F) (htb : tb ∉ L) :
    JumpLists (tbGenCode s tb c frame).jmpList (insert tb L) (update F tb []) := by
  have hjmp : (tbGenCode s tb c frame).jmpList = update (update
      (update s.jmpList (tb, 2) (some (tb, 2))) (tb, 0) none) (tb, 1) none := by
    rw [tbGenCode_eq]
    cases (newBlock c frame).pageAddr1 <;> rfl
  have hself : (tbGenCode s tb c frame).jmpList (tb, 2) = some (tb, 2) ∧
      (tbGenCode s tb c frame).jmpList (tb, 0) = none ∧
      (tbGenCode s tb c frame).jmpList (tb, 1) = none := by
    rw [hjmp]
    simp
  have hold : ∀ p : JmpPtr, p.1 ≠ tb → (tbGenCode s tb c frame).jmpList p = s.jmpList p := by
    intro p hp
    have hne : ∀ n, p ≠ (tb, n) := fun n e => hp (congrArg Prod.fst e)
    rw [hjmp, update_of_ne (hne 1), update_of_ne (hne 0),
      update_of_ne (hne 2)]
  have hF' : ∀ T ∈ L, update F tb [] T = F T := by
    intro T hT
    have hne : T ≠ tb := fun e => htb (e ▸ hT)
    exact update_of_ne hne _ _
  have hsub : ∀ T ∈ insert tb L, ∀ p ∈ update F tb [] T, T ∈ L ∧ p ∈ F T := by
    intro T hT p hp
    rcases Set.mem_insert_iff.mp hT with rfl | hT
    · rw [update_self] at hp
      cases hp
    · rw [hF' T hT] at hp
      exact ⟨hT, hp⟩
  have hcell : ∀ T ∈ L, ∀ p ∈ F T, p.1 ≠ tb := fun T hT p hp e =>
    htb (e ▸ (hF.mem T hT p hp).1)
  refine ⟨⟨fun T hT => ?_, fun T hT => ?_, fun T hT T' hT' p h1 h2 => ?_,
    fun T hT T' hT' p h1 e => ?_⟩, fun T hT p hp => ?_, fun p hp hp2 hm => ?_⟩
  · rcases Set.mem_insert_iff.mp hT with rfl | hT
    · rw [update_self]
      exact hself.1
    · rw [hF' T hT, hold (T, 2) fun e => htb ((show T = tb from e) ▸ hT)]
      exact (hF.family.leads T hT).congr fun p hp => hold p (hcell T hT p hp)
  · rcases Set.mem_insert_iff.mp hT with rfl | hT
    · rw [update_self]
      exact List.nodup_nil
    · rw [hF' T hT]
      exact hF.family.nodup T hT
  · obtain ⟨hT, h1⟩ := hsub T hT p h1
    obtain ⟨hT', h2⟩ := hsub T' hT' p h2
    exact hF.family.disjoint T hT T' hT' p h1 h2
  · obtain ⟨hT, h1⟩ := hsub T hT p h1
    exact (hF.mem T hT p h1).2 (congrArg Prod.snd (show p = (T', 2) from e))
  · obtain ⟨hT, hp⟩ := hsub T hT p hp
    exact ⟨Set.mem_insert_of_mem tb (hF.mem T hT p hp).1, (hF.mem T hT p hp).2⟩
  · have hptb : p.1 ≠ tb := by
      intro e
      obtain ⟨tb1, n⟩ := p
      subst e
      rcases (by decide : ∀ n : Fin 3, n ≠ 2 → n = 0 ∨ n = 1) n hp2 with rfl | rfl
      · exact hm hself.2.1
      · exact hm hself.2.2
    rw [hold p hptb] at hm
    obtain ⟨T, hT, hpT⟩ := hF.listed p ((Set.mem_insert_iff.mp hp).resolve_left hptb) hp2 hm
    exact ⟨T, Set.mem_insert_of_mem tb hT, by rwa [hF' T hT]⟩

lemma tbGenCode_l1Map :
    (∀ k, s.l1Map k = true → (tbGenCode s tb c frame).l1Map k = true) ∧
      ∀ n i, (newBlock c frame).page n = some i →
        (tbGenCode s tb c frame).l1Map (i / L2_SIZE) = true := by
  have hset : ∀ (f : Nat → Bool) (i k : Nat), f k = true → update f i true k = true := by
    intro f i k h
    by_cases e : k = i
    · rw [e, update_self]
    · rw [update_of_ne e, h]
  rw [tbGenCode_eq]
  cases h1 : (newBlock c frame).pageAddr1 with
  | none =>
    refine ⟨fun k hk => hset _ _ _ hk, fun n i hi => ?_⟩
    rcases zero_or_one n with rfl | rfl
    · cases hi
      exact update_self _ _ _
    · rw [newBlock_page1, h1] at hi
      cases hi
  | some a =>
    refine ⟨fun k hk => hset _ _ _ (hset _ _ _ hk), fun n i hi => ?_⟩
    rcases zero_or_one n with rfl | rfl
    · cases hi
      exact hset _ _ _ (update_self _ _ _)
    · rw [newBlock_page1, h1] at hi
      cases hi
      exact update_self _ _ _

lemma tbGenCode_codeBitmap {i : Nat} {tab : Bitmap}
    (h : (tbGenCode s tb c frame).codeBitmap i = some tab) :
    s.codeBitmap i = some tab ∧ ∀ n, (newBlock c frame).page n ≠ some i := by
  rw [tbGenCode_eq] at h
  cases h1 : (newBlock c frame).pageAddr1 with
  | none =>
    rw [h1] at h
    obtain ⟨h, hne⟩ := update_none_eq_some h
    refine ⟨h, fun n hn => ?_⟩
    rcases zero_or_one n with rfl | rfl
    · exact hne (Option.some.inj hn)
    · rw [newBlock_page1, h1] at hn
      cases hn
  | some a =>
    rw [h1] at h
    obtain ⟨h, hne1⟩ := update_none_eq_some h
    obtain ⟨h, hne0⟩ := update_none_eq_some h
    refine ⟨h, fun n hn => ?_⟩
    rcases zero_or_one n with rfl | rfl
    · exact hne0 (Option.some.inj hn)
    · rw [newBlock_page1, h1] at hn
      exact hne1 (Option.some.inj hn)

/-- **A new block is put on its lists.** -/
theorem inv_tbGenCode (hs : Inv s L) (htb : tb ∉ L) :
    Inv (tbGenCode s tb c frame) (insert tb L) := by
  obtain ⟨H, hH⟩ := hs.hash
  obtain ⟨F, hF⟩ := hs.page
  obtain ⟨J, hJ⟩ := hs.jump
  refine ⟨⟨_, hashLists_tbGenCode hH htb⟩, ⟨_, pageLists_tbGenCode hF htb⟩,
    ⟨_, jumpLists_tbGenCode hJ htb⟩, fun tb1 h1 => ?_, fun tb1 h1 n i hi => ?_,
    fun i tab hi k hk => ?_⟩
  · rcases Set.mem_insert_iff.mp h1 with rfl | h1
    · rw [tbGenCode_tb_self]
      exact placed_newBlock c frame
    · have hne : tb1 ≠ tb := fun e => htb (e ▸ h1)
      rw [tbGenCode_tb_of_ne hne]
      exact hs.placed tb1 h1
  · rcases Set.mem_insert_iff.mp h1 with rfl | h1
    · rw [tbGenCode_tb_self] at hi
      exact tbGenCode_l1Map.2 n i hi
    · have hne : tb1 ≠ tb := fun e => htb (e ▸ h1)
      rw [tbGenCode_tb_of_ne hne] at hi
      exact tbGenCode_l1Map.1 _ (hs.mapped tb1 h1 n i hi)
  · obtain ⟨hi, hno⟩ := tbGenCode_codeBitmap hi
    rw [hs.bitmap i tab hi k hk]
    refine exists_congr fun p => ?_
    rw [tbGenCode_iff (P := fun _ b => b.page p.2 = some i ∧ (b.pageSpan p.2).1 ≤ k ∧
      k < (b.pageSpan p.2).2) htb p.1]
    exact ⟨Or.inr, fun h => h.resolve_left fun h => hno p.2 h.2.1⟩

lemma inv_tbAddJump (hs : Inv s L) {tbNext : Nat} (htb : tb ∈ L) (hnext : tbNext ∈ L)
    (n : Fin 2) : Inv (tbAddJump s tb n tbNext) L := by
  cases hp : s.jmpList (tb, n.castSucc) with
  | some q =>
    simp only [tbAddJump, hp]
    exact hs
  | none =>
    obtain ⟨J, hJ⟩ := hs.jump
    have hn2 : n.castSucc ≠ 2 := castSucc_ne_two n
    have hnew : ∀ T ∈ L, (tb, n.castSucc) ∉ J T := fun T hT hmem => hJ.ne_none hT hmem hp
    have hfam := hJ.family.push Function.injective_id jmpFirst_injective hnext hnew
      fun T _ e => hn2 (congrArg Prod.snd e)
    have hjump : JumpLists (update (update s.jmpList (tb, n.castSucc)
        (s.jmpList (tbNext, 2))) (tbNext, 2) (some (tb, n.castSucc))) L
        (update J tbNext ((tb, n.castSucc) :: J tbNext)) := by
      refine ⟨hfam, fun T hT p hpT => ?_, fun p hpL hp2 hm => ?_⟩
      · by_cases e : T = tbNext
        · rw [e, update_self] at hpT
          rcases List.mem_cons.mp hpT with rfl | hpT
          · exact ⟨htb, hn2⟩
          · exact hJ.mem tbNext hnext p hpT
        · rw [update_of_ne e] at hpT
          exact hJ.mem T hT p hpT
      · have hne : p ≠ (tbNext, 2) := fun e => hp2 (congrArg Prod.snd e)
        rw [update_of_ne hne] at hm
        by_cases e : p = (tb, n.castSucc)
        · exact ⟨tbNext, hnext, by rw [update_self, e]; exact List.mem_cons_self⟩
        rw [update_of_ne e] at hm
        obtain ⟨T, hT, hpT⟩ := hJ.listed p hpL hp2 hm
        refine ⟨T, hT, ?_⟩
        by_cases e : T = tbNext
        · rw [e, update_self]
          exact List.mem_cons_of_mem _ (e ▸ hpT)
        · rwa [update_of_ne e]
    simp only [tbAddJump, hp]
    obtain ⟨H, hH⟩ := hs.hash
    obtain ⟨F, hF⟩ := hs.page
    exact ⟨⟨H, hH.congr rfl rfl⟩, ⟨F, hF.congr rfl rfl⟩, ⟨_, hjump⟩, hs.placed, hs.mapped, hs.bitmap⟩

lemma inv_init (tbs : Nat → TranslationBlock t) (hash : Nat → Option Nat)
    (page : PagePtr → Option PagePtr) (jmp : JmpPtr → Option JmpPtr) :
    Inv (init tbs hash page jmp) ∅ where
  hash := ⟨fun _ => [], ⟨fun _ _ => rfl, fun _ _ => List.nodup_nil, fun _ _ _ _ _ h => (nomatch h),
    fun _ _ _ _ _ h => (nomatch h)⟩, fun _ _ => ⟨fun h => (nomatch h), fun h => (nomatch h.1)⟩⟩
  page := ⟨fun _ => [], ⟨fun _ _ => rfl, fun _ _ => List.nodup_nil, fun _ _ _ _ _ h => (nomatch h),
    fun _ _ _ _ _ h => (nomatch h)⟩, fun _ _ => ⟨fun h => (nomatch h), fun h => (nomatch h.1)⟩,
    fun _ _ h => (nomatch h)⟩
  jump := ⟨fun _ => [], ⟨fun _ h => (nomatch h), fun _ h => (nomatch h), fun _ h => (nomatch h),
    fun _ h => (nomatch h)⟩, fun _ h => (nomatch h), fun _ h => (nomatch h)⟩
  placed := fun _ h => (nomatch h)
  mapped := fun _ h => (nomatch h)
  bitmap := fun _ _ h => (nomatch h)

end
end Tb
