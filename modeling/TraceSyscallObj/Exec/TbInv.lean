import TraceSyscallObj.Exec.TbLists
import TraceSyscallObj.Lib.Checked

/-!
# The lists of the linked blocks

`Inv s L`: exactly the blocks of `L` are linked, and every list is well formed.

* `HashLists`, `PageLists`, `JumpLists`: what is on the lists of each kind;
* `tbPhysInvalidate_linked`: a linked block is taken off all its lists, and nothing else changes on
  them;
* `tbPhysInvalidate_unlinked`: for any other block the hash list is followed to its end and beyond;
* `inv_tbGenCode`, `inv_tbAddJump`: a new block, a new jump.
-/

namespace Tb
open Function List
open X86 (Target TargetUlong TARGET_PAGE_MASK)
open Threads Checked
variable {F : Nat → List PagePtr}

section
variable {t : Target}

def TranslationBlock.hash (b : TranslationBlock t) : Nat :=
  tbPhysHashFunc (b.pageAddr0 + b.pcOffset)

def TranslationBlock.page (b : TranslationBlock t) (n : Fin 2) : Option Nat :=
  (b.pageAddr n).map (· / TARGET_PAGE_SIZE)

structure HashLists (s : State t) (L : Set Nat) (F : Nat → List Nat) : Prop where
  family : Family HashCell.physHashNext HashCell.tbPhysHash (fun _ => none) Set.univ s.tbPhysHash F
  mem : ∀ h tb, tb ∈ F h ↔ tb ∈ L ∧ (s.tb tb).hash = h

structure PageLists (s : State t) (L : Set Nat) (F : Nat → List PagePtr) : Prop where
  family : Family PageCell.pageNext PageCell.firstTb (fun _ => none) Set.univ s.pageList F
  mem : ∀ i p, p ∈ F i ↔ p.1 ∈ L ∧ (s.tb p.1).page p.2 = some i
  /-- a block with two parts in one page is there twice, in this order -/
  twice : ∀ i, ∀ tb ∈ L, (s.tb tb).page 0 = some i → (s.tb tb).page 1 = some i →
    ∃ pre post, F i = pre ++ (tb, 1) :: (tb, 0) :: post

structure JumpLists (m : JmpPtr → Option JmpPtr) (L : Set Nat) (F : Nat → List JmpPtr) : Prop where
  family : Family id (fun tb => (tb, 2)) (fun tb => some (tb, 2)) L m F
  mem : ∀ tb ∈ L, ∀ p ∈ F tb, p.1 ∈ L ∧ p.2 ≠ 2
  listed : ∀ p, p.1 ∈ L → p.2 ≠ 2 → m p ≠ none → ∃ tb ∈ L, p ∈ F tb

/-- the page addresses of a linked block -/
structure Placed (b : TranslationBlock t) : Prop where
  aligned0 : b.pageAddr0 % TARGET_PAGE_SIZE = 0
  aligned1 : ∀ a, b.pageAddr1 = some a → a % TARGET_PAGE_SIZE = 0
  second : b.pageAddr1 ≠ none ↔ TARGET_PAGE_SIZE < b.pcOffset + b.size

def Bitmap.bit (tab : Bitmap) (k : Nat) : Bool := (tab (k / 8)).getLsbD (k % 8)

structure Inv (s : State t) (L : Set Nat) : Prop where
  hash : ∃ F, HashLists s L F
  page : ∃ F, PageLists s L F
  jump : ∃ F, JumpLists s.jmpList L F
  placed : ∀ tb ∈ L, Placed (s.tb tb)
  mapped : ∀ tb ∈ L, ∀ n i, (s.tb tb).page n = some i → s.l1Map (i / L2_SIZE) = true
  bitmap : ∀ i tab, s.codeBitmap i = some tab → ∀ k < TARGET_PAGE_SIZE,
    tab.bit k = true ↔ ∃ p : PagePtr, p.1 ∈ L ∧ (s.tb p.1).page p.2 = some i ∧
      ((s.tb p.1).pageSpan p.2).1 ≤ k ∧ k < ((s.tb p.1).pageSpan p.2).2

lemma physHashNext_injective : Injective HashCell.physHashNext :=
  fun _ _ h => HashCell.physHashNext.inj h

lemma tbPhysHash_injective : Injective HashCell.tbPhysHash :=
  fun _ _ h => HashCell.tbPhysHash.inj h

lemma pageNext_injective : Injective PageCell.pageNext :=
  fun _ _ h => PageCell.pageNext.inj h

lemma firstTb_injective : Injective PageCell.firstTb :=
  fun _ _ h => PageCell.firstTb.inj h

lemma zero_or_one : ∀ n : Fin 2, n = 0 ∨ n = 1 := by decide

lemma castSucc_ne_two : ∀ n : Fin 2, n.castSucc ≠ 2 := by decide

lemma jmpFirst_injective : Injective (fun tb : Nat => ((tb, 2) : JmpPtr)) :=
  fun _ _ h => (Prod.mk.inj h).1

/-! ## The hash list -/

variable {s : State t} {L : Set Nat} {tb : Nat}

lemma eraseP_eq_filter {α : Type} {p : α → Bool} {xs : List α} {q : α} (hnd : xs.Nodup)
    (hq : q ∈ xs) (hpq : p q = true) (huniq : ∀ x ∈ xs, p x = true → x = q) :
    xs.eraseP p = xs.filter (fun x => !p x) := by
  obtain ⟨a, pre, post, hpre, ha, e, e'⟩ := exists_of_eraseP hq hpq
  have haq : a = q := huniq a (e ▸ mem_append_right _ mem_cons_self) ha
  have hpost : ∀ x ∈ post, (!p x) = true := by
    intro x hx
    rw [Bool.not_eq_true', Bool.eq_false_iff]
    intro hpx
    have hxq := huniq x (e ▸ mem_append_right _ (mem_cons_of_mem a hx)) hpx
    have hnd' := (List.nodup_append.mp (e ▸ hnd)).2.1
    exact (List.nodup_cons.mp hnd').1 (haq ▸ hxq ▸ hx)
  have hpre' : ∀ x ∈ pre, (!p x) = true := fun x hx => by simpa using hpre x hx
  rw [e', e, filter_append, filter_cons_of_neg (by simp [ha]),
    List.filter_eq_self.mpr hpre', List.filter_eq_self.mpr hpost]

lemma tbHashRemove_linked {F : Nat → List Nat} (hF : HashLists s L F) (htb : tb ∈ L) :
    ∃ m, Settles (fun fuel => tbHashRemove fuel s (s.tb tb).hash tb)
        (.ok { s with tbPhysHash := m }) ∧
      ∃ F', HashLists { s with tbPhysHash := m } (L \ {tb}) F' := by
  have hmem : tb ∈ F (s.tb tb).hash := (hF.mem _ tb).mpr ⟨htb, rfl⟩
  obtain ⟨m, hm, hfam, -⟩ := hF.family.unlink (fun tb1 => decide (tb1 = tb))
    physHashNext_injective tbPhysHash_injective (Set.mem_univ (s.tb tb).hash)
    ⟨tb, hmem, decide_eq_true rfl⟩
  refine ⟨m, ⟨(F (s.tb tb).hash).length + 1, fun fuel hf => ?_⟩, _, hfam, fun h tb1 => ?_⟩
  · show unlink _ _ fuel _ _ >>= _ = _
    rw [hm fuel hf]
    rfl
  have herase : (F (s.tb tb).hash).eraseP (fun tb1 => decide (tb1 = tb)) =
      (F (s.tb tb).hash).filter (fun tb1 => !decide (tb1 = tb)) :=
    eraseP_eq_filter (hF.family.nodup _ (Set.mem_univ _)) hmem (decide_eq_true rfl)
      fun x _ hx => of_decide_eq_true hx
  show tb1 ∈ update F (s.tb tb).hash _ h ↔ (tb1 ∈ L ∧ tb1 ≠ tb) ∧ (s.tb tb1).hash = h
  by_cases hh : h = (s.tb tb).hash
  · rw [hh, update_self, herase, mem_filter, hF.mem]
    simp only [Bool.not_eq_true', decide_eq_false_iff_not]
    tauto
  rw [update_of_ne hh, hF.mem]
  constructor
  · rintro ⟨h1, rfl⟩
    exact ⟨⟨h1, fun e => hh (e ▸ rfl)⟩, rfl⟩
  · rintro ⟨⟨h1, -⟩, h2⟩
    exact ⟨h1, h2⟩

lemma tbHashRemove_unlinked {F : Nat → List Nat} (hF : HashLists s L F) (htb : tb ∉ L) (h : Nat) :
    Settles (fun fuel => tbHashRemove fuel s h tb) (.error .null) := by
  refine ⟨(F h).length + 1, fun fuel hf => ?_⟩
  show unlink _ _ fuel _ _ >>= _ = _
  rw [unlink_null (hF.family.leads h (Set.mem_univ h)) (fun x hx => ?_) hf]
  · rfl
  · exact decide_eq_false fun e => htb (e ▸ ((hF.mem h x).mp hx).1)

/-! ## The page lists -/

lemma update_none_eq_some {B : Nat → Option Bitmap} {j k : Nat} {tab : Bitmap}
    (h : update B j none k = some tab) : B k = some tab ∧ j ≠ k := by
  by_cases e : k = j
  · rw [e, update_self] at h
    cases h
  · rw [update_of_ne e] at h
    exact ⟨h, fun e' => e e'.symm⟩

/-- what one removal from a page list leaves as it is -/
structure SameBut (s s' : State t) : Prop where
  tb : s'.tb = s.tb
  tbPhysHash : s'.tbPhysHash = s.tbPhysHash
  jmpList : s'.jmpList = s.jmpList
  l1Map : s'.l1Map = s.l1Map

variable {i : Nat}

lemma removeFromPage_settles {n : Fin 2}
    (hF : Family PageCell.pageNext PageCell.firstTb (fun _ => none) Set.univ s.pageList F)
    (hmap : s.l1Map (i / L2_SIZE) = true) (hpage : (s.tb tb).page n = some i)
    (hmem : ∃ p ∈ F i, p.1 = tb) :
    ∃ s', Settles (fun fuel => removeFromPage fuel s tb n none) (.ok s') ∧ SameBut s s' ∧
      Family PageCell.pageNext PageCell.firstTb (fun _ => none) Set.univ s'.pageList
        (update F i ((F i).eraseP fun p => p.1 = tb)) ∧
      (∀ p : PagePtr, p.1 = tb → s'.pageList (.pageNext p) = s.pageList (.pageNext p)) ∧
      s'.codeBitmap = update s.codeBitmap i none := by
  obtain ⟨p, hp, hptb⟩ := hmem
  obtain ⟨a, ha, hai⟩ := Option.map_eq_some_iff.mp hpage
  obtain ⟨m, hm, hfam, hkeep⟩ := hF.unlink (fun p => decide (p.1 = tb)) pageNext_injective
    firstTb_injective (Set.mem_univ i) ⟨p, hp, decide_eq_true hptb⟩
  refine ⟨invalidatePageBitmap { s with pageList := m } i,
    ⟨(F i).length + 1, fun fuel hf => ?_⟩, ⟨rfl, rfl, rfl, rfl⟩, hfam, fun q hq => ?_, rfl⟩
  · have hfind : pageFind s (a / TARGET_PAGE_SIZE) = some i := by
      rw [pageFind, hai, if_pos hmap]
    simp only [removeFromPage, ha, hfind]
    show (unlink _ _ fuel _ _ >>= _) >>= _ = _
    rw [hm fuel hf]
    rfl
  · exact hkeep q (decide_eq_true hq) fun j _ e => by cases e

def without (tb : Nat) (F : Nat → List PagePtr) (i : Nat) : List PagePtr :=
  (F i).filter fun p => !decide (p.1 = tb)

variable {s' : State t}

lemma PageLists.without (hF : PageLists s L F) (htb : s'.tb = s.tb)
    (hfam : Family PageCell.pageNext PageCell.firstTb (fun _ => none) Set.univ s'.pageList
      (Tb.without tb F)) : PageLists s' (L \ {tb}) (Tb.without tb F) where
  family := hfam
  mem := fun i p => by
    rw [Tb.without, mem_filter, hF.mem, htb]
    show _ ↔ (p.1 ∈ L ∧ p.1 ≠ tb) ∧ _
    simp only [Bool.not_eq_true', decide_eq_false_iff_not]
    tauto
  twice := fun i tb1 h1 h2 h3 => by
    obtain ⟨hL, hne⟩ : tb1 ∈ L ∧ tb1 ≠ tb := h1
    rw [htb] at h2 h3
    obtain ⟨pre, post, e⟩ := hF.twice i tb1 hL h2 h3
    refine ⟨pre.filter fun p => !decide (p.1 = tb), post.filter fun p => !decide (p.1 = tb), ?_⟩
    simp only [Tb.without, e, filter_append, filter_cons, hne, decide_false,
      Bool.not_false, if_true]

lemma PageLists.erase_once (hF : PageLists s L F) {p : PagePtr}
    (hp : p ∈ F i) (honce : ∀ n, (s.tb p.1).page n = some i → n = p.2) :
    (F i).eraseP (fun q => decide (q.1 = p.1)) = Tb.without p.1 F i := by
  refine eraseP_eq_filter (hF.family.nodup i (Set.mem_univ i)) hp (decide_eq_true rfl) ?_
  rintro ⟨tb, n⟩ hq e
  have e : tb = p.1 := of_decide_eq_true e
  subst e
  exact Prod.ext rfl (honce n ((hF.mem i _).mp hq).2)

lemma PageLists.without_of_not_mem (hF : PageLists s L F)
    (hi : ∀ n, (s.tb tb).page n ≠ some i) : Tb.without tb F i = F i := by
  refine List.filter_eq_self.mpr fun p hp => ?_
  rw [Bool.not_eq_true', decide_eq_false_iff_not]
  rintro rfl
  exact hi p.2 ((hF.mem i p).mp hp).2

lemma PageLists.erase_twice (hF : PageLists s L F) (htb : tb ∈ L)
    (h0 : (s.tb tb).page 0 = some i) (h1 : (s.tb tb).page 1 = some i) :
    ((F i).eraseP fun p => decide (p.1 = tb)).eraseP (fun p => decide (p.1 = tb)) =
        Tb.without tb F i ∧
      ∃ p ∈ (F i).eraseP (fun p => decide (p.1 = tb)), p.1 = tb := by
  obtain ⟨pre, post, e⟩ := hF.twice i tb htb h0 h1
  have hnd := hF.family.nodup i (Set.mem_univ i)
  rw [e] at hnd
  obtain ⟨-, hnd2, hdis⟩ := List.nodup_append.mp hnd
  obtain ⟨hn1, hnd3⟩ := List.nodup_cons.mp hnd2
  obtain ⟨hn0, -⟩ := List.nodup_cons.mp hnd3
  have hpre : ∀ p ∈ pre, ¬ decide (p.1 = tb) = true := by
    rintro ⟨tb1, n⟩ hp e1
    have e1 : tb1 = tb := of_decide_eq_true e1
    subst e1
    rcases zero_or_one n with rfl | rfl
    · exact hdis _ hp _ (mem_cons_of_mem _ mem_cons_self) rfl
    · exact hdis _ hp _ mem_cons_self rfl
  have hpost : ∀ p ∈ post, (!decide (p.1 = tb)) = true := by
    rintro ⟨tb1, n⟩ hp
    rw [Bool.not_eq_true', decide_eq_false_iff_not]
    intro e1
    subst e1
    rcases zero_or_one n with rfl | rfl
    · exact hn0 hp
    · exact hn1 (mem_cons_of_mem _ hp)
  have hself : ∀ n : Fin 2, decide ((tb, n).1 = tb) = true := fun n => decide_eq_true rfl
  have hfirst : (F i).eraseP (fun p => decide (p.1 = tb)) = pre ++ (tb, 0) :: post := by
    rw [e, eraseP_append_right _ hpre]
    exact congrArg _ (eraseP_cons_of_pos (hself 1))
  refine ⟨?_, (tb, 0), hfirst ▸ mem_append_right _ mem_cons_self, rfl⟩
  have hpre' : ∀ p ∈ pre, (!decide (p.1 = tb)) = true := fun p hp => by simpa using hpre p hp
  rw [hfirst, eraseP_append_right _ hpre, Tb.without, e, filter_append,
    filter_cons_of_neg (by simp), filter_cons_of_neg (by simp),
    List.filter_eq_self.mpr hpost, List.filter_eq_self.mpr hpre']
  exact congrArg _ (eraseP_cons_of_pos (hself 0))

def removeFromPages (fuel : Nat) (s : State t) (tb : Nat) : Except Fault (State t) := do
  let s ← removeFromPage fuel s tb 0 none
  removeFromPage fuel s tb 1 none

lemma removeFromPages_settles (hF : PageLists s L F)
    (hmap : ∀ n i, (s.tb tb).page n = some i → s.l1Map (i / L2_SIZE) = true) (htb : tb ∈ L) :
    ∃ s', Settles (fun fuel => removeFromPages fuel s tb) (.ok s') ∧ SameBut s s' ∧
      PageLists s' (L \ {tb}) (Tb.without tb F) ∧
      (∀ p : PagePtr, p.1 = tb → s'.pageList (.pageNext p) = s.pageList (.pageNext p)) ∧
      ∀ i tab, s'.codeBitmap i = some tab →
        s.codeBitmap i = some tab ∧ ∀ n, (s.tb tb).page n ≠ some i := by
  obtain ⟨i, hi⟩ : ∃ i, (s.tb tb).page 0 = some i := ⟨_, rfl⟩
  have h0 : (tb, 0) ∈ F i := (hF.mem i (tb, 0)).mpr ⟨htb, hi⟩
  obtain ⟨s1, hs1, hsame1, hfam1, hkeep1, hbit1⟩ :=
    removeFromPage_settles hF.family (hmap 0 i hi) hi ⟨(tb, 0), h0, rfl⟩
  cases hj : (s.tb tb).page 1 with
  | none =>
    have hfin : update F i ((F i).eraseP fun p => decide (p.1 = tb)) =
        Tb.without tb F := by
      funext k
      by_cases hk : k = i
      · subst hk
        rw [update_self]
        refine hF.erase_once h0 fun n hn => ?_
        rcases zero_or_one n with rfl | rfl
        · rfl
        · rw [hj] at hn
          cases hn
      · rw [update_of_ne hk]
        refine (hF.without_of_not_mem fun n hn => ?_).symm
        rcases zero_or_one n with rfl | rfl
        · exact hk (Option.some.inj (hn.symm.trans hi))
        · rw [hj] at hn
          cases hn
    refine ⟨s1, hs1.bind ?_, hsame1, hF.without hsame1.tb (hfin ▸ hfam1), hkeep1,
      fun k tab hk => ?_⟩
    · have hnil : (s1.tb tb).pageAddr 1 = none := by
        rw [hsame1.tb]
        exact Option.map_eq_none_iff.mp hj
      refine ⟨0, fun fuel _ => ?_⟩
      simp only [removeFromPage, hnil]
    · rw [hbit1] at hk
      obtain ⟨h1, h2⟩ := update_none_eq_some hk
      refine ⟨h1, fun n hn => ?_⟩
      rcases zero_or_one n with rfl | rfl
      · exact h2 (Option.some.inj (hi.symm.trans hn))
      · rw [hj] at hn
        cases hn
  | some j =>
    have h1 : (tb, 1) ∈ F j := (hF.mem j (tb, 1)).mpr ⟨htb, hj⟩
    have hj1 : (s1.tb tb).page 1 = some j := by rw [hsame1.tb, hj]
    have hmap1 : s1.l1Map (j / L2_SIZE) = true := by rw [hsame1.l1Map, hmap 1 j hj]
    have hmem1 : ∃ p ∈ update F i ((F i).eraseP fun p => decide (p.1 = tb)) j,
        p.1 = tb := by
      by_cases hij : j = i
      · subst hij
        rw [update_self]
        exact (hF.erase_twice htb hi hj).2
      · rw [update_of_ne hij]
        exact ⟨(tb, 1), h1, rfl⟩
    obtain ⟨s2, hs2, hsame2, hfam2, hkeep2, hbit2⟩ :=
      removeFromPage_settles hfam1 hmap1 hj1 hmem1
    have hfin : update (update F i ((F i).eraseP fun p => decide (p.1 = tb))) j
        ((update F i ((F i).eraseP fun p => decide (p.1 = tb)) j).eraseP
          fun p => decide (p.1 = tb)) = Tb.without tb F := by
      funext k
      by_cases hij : j = i
      · subst hij
        by_cases hk : k = j
        · subst hk
          rw [update_self, update_self]
          exact (hF.erase_twice htb hi hj).1
        · rw [update_of_ne hk, update_of_ne hk]
          refine (hF.without_of_not_mem fun n hn => ?_).symm
          rcases zero_or_one n with rfl | rfl
          · exact hk (Option.some.inj (hn.symm.trans hi))
          · exact hk (Option.some.inj (hn.symm.trans hj))
      · have hone : ∀ n, (s.tb tb).page n = some i → n = 0 := by
          intro n hn
          rcases zero_or_one n with rfl | rfl
          · rfl
          · exact absurd (Option.some.inj (hj.symm.trans hn)) hij
        have htwo : ∀ n, (s.tb tb).page n = some j → n = 1 := by
          intro n hn
          rcases zero_or_one n with rfl | rfl
          · exact absurd (Option.some.inj (hn.symm.trans hi)) hij
          · rfl
        by_cases hk : k = j
        · subst hk
          rw [update_self, update_of_ne hij]
          exact hF.erase_once h1 htwo
        rw [update_of_ne hk]
        by_cases hki : k = i
        · subst hki
          rw [update_self]
          exact hF.erase_once h0 hone
        · rw [update_of_ne hki]
          refine (hF.without_of_not_mem fun n hn => ?_).symm
          rcases zero_or_one n with rfl | rfl
          · exact hki (Option.some.inj (hn.symm.trans hi))
          · exact hk (Option.some.inj (hn.symm.trans hj))
    refine ⟨s2, hs1.bind hs2, ⟨hsame2.tb.trans hsame1.tb, hsame2.tbPhysHash.trans hsame1.tbPhysHash,
      hsame2.jmpList.trans hsame1.jmpList, hsame2.l1Map.trans hsame1.l1Map⟩,
      hF.without (hsame2.tb.trans hsame1.tb) (hfin ▸ hfam2),
      fun p hp => (hkeep2 p hp).trans (hkeep1 p hp), fun k tab hk => ?_⟩
    rw [hbit2, hbit1] at hk
    obtain ⟨h2, h3⟩ := update_none_eq_some hk
    obtain ⟨h4, h5⟩ := update_none_eq_some h2
    refine ⟨h4, fun n hn => ?_⟩
    rcases zero_or_one n with rfl | rfl
    · exact h5 (Option.some.inj (hi.symm.trans hn))
    · exact h3 (Option.some.inj (hj.symm.trans hn))

/-! ## The jump lists -/

section jumps
variable {m : JmpPtr → Option JmpPtr} {F : Nat → List JmpPtr}

lemma Leads.ne_none {p z : Option JmpPtr} {xs : List JmpPtr} (hl : Leads id m p xs z)
    (hz : z ≠ none) : ∀ x ∈ xs, m x ≠ none := by
  induction xs generalizing p with
  | nil => exact fun x hx => by cases hx
  | cons y xs ih =>
    intro x hx
    rcases List.mem_cons.mp hx with rfl | hx
    · cases xs with
      | nil =>
        rw [show m x = z from hl.2]
        exact hz
      | cons w xs =>
        rw [show m x = some w from hl.2.1]
        exact Option.some_ne_none w
    · exact ih hl.2 x hx

variable {T : Nat}

lemma JumpLists.ne_none (hF : JumpLists m L F) (hT : T ∈ L) {p : JmpPtr}
    (hp : p ∈ F T) : m p ≠ none :=
  Tb.Leads.ne_none (hF.family.leads T hT) (Option.some_ne_none _) p hp

lemma lastCell_mem_of_ne {pre : List JmpPtr}
    (h : (lastCell id ((T, 2) : JmpPtr) pre).2 ≠ 2) : lastCell id ((T, 2) : JmpPtr) pre ∈ pre := by
  have hmem : lastCell id ((T, 2) : JmpPtr) pre ∈ (T, 2) :: pre.map id := lastCell_mem
  rw [map_id] at hmem
  exact (List.mem_cons.mp hmem).resolve_left fun e => h (congrArg Prod.snd e)

lemma JumpLists.cut (hF : JumpLists m L F) (hT : T ∈ L) {p : JmpPtr} {pre post : List JmpPtr}
    (he : F T = pre ++ p :: post) :
    JumpLists (update (update m (lastCell id (T, 2) pre) (m p)) p none) L
      (update F T (pre ++ post)) := by
  have hfam := hF.family.cut Function.injective_id jmpFirst_injective hT he
  have hpT : p ∈ F T := he ▸ mem_append_right _ mem_cons_self
  have hp2 : p.2 ≠ 2 := (hF.mem T hT p hpT).2
  have hnd := hF.family.nodup T hT
  rw [he] at hnd
  have hsub : ∀ T' q, q ∈ update F T (pre ++ post) T' → q ∈ F T' := by
    intro T' q hq
    by_cases hT' : T' = T
    · rw [hT', update_self] at hq
      rw [hT', he]
      rcases List.mem_append.mp hq with h | h
      · exact mem_append_left _ h
      · exact mem_append_right _ (mem_cons_of_mem p h)
    · rwa [update_of_ne hT'] at hq
  have hgone : ∀ T' ∈ L, p ∉ update F T (pre ++ post) T' := by
    intro T' hT' hp
    obtain rfl : T' = T := hF.family.disjoint T' hT' T hT p (hsub T' p hp) hpT
    rw [update_self] at hp
    exact (List.nodup_middle.mp hnd).notMem hp
  refine ⟨hfam.congr (fun _ h => h) fun T' hT' => ⟨?_, fun x hx => ?_⟩,
    fun T' hT' q hq => hF.mem T' hT' q (hsub T' q hq), fun q hq hq2 hm => ?_⟩
  · exact update_of_ne (fun e : ((T', 2) : JmpPtr) = p => hp2 (e ▸ rfl)) _ _
  · exact update_of_ne (fun e => hgone T' hT' ((show x = p from e) ▸ hx)) _ _
  have hqp : q ≠ p := fun e => hm (e ▸ update_self _ _ _)
  rw [update_of_ne hqp] at hm
  have hmq : m q ≠ none := by
    by_cases hlast : q = lastCell id (T, 2) pre
    · rw [hlast] at hq2 ⊢
      exact hF.ne_none hT (he ▸ mem_append_left _ (lastCell_mem_of_ne hq2))
    · rwa [update_of_ne hlast] at hm
  obtain ⟨T', hT', hqT⟩ := hF.listed q hq hq2 hmq
  refine ⟨T', hT', ?_⟩
  by_cases e : T' = T
  · rw [e, update_self]
    rw [e, he] at hqT
    rcases List.mem_append.mp hqT with h | h
    · exact mem_append_left _ h
    · exact mem_append_right _ ((List.mem_cons.mp h).resolve_left hqp)
  · rwa [update_of_ne e]

lemma tbJmpRemove_settles (hF : JumpLists s.jmpList L F) (htb : tb ∈ L) (n : Fin 2) :
    ∃ m', Settles (fun fuel => tbJmpRemove fuel s tb n) (.ok { s with jmpList := m' }) ∧
      (∃ F', JumpLists m' L F') ∧ m' (tb, n.castSucc) = none ∧
      ∀ p, p.2 ≠ 2 → s.jmpList p = none → m' p = none := by
  cases hp : s.jmpList (tb, n.castSucc) with
  | none =>
    refine ⟨s.jmpList, ⟨0, fun fuel _ => ?_⟩, ⟨F, hF⟩, hp, fun p _ h => h⟩
    simp only [tbJmpRemove, hp]
  | some q =>
    have hn2 : n.castSucc ≠ 2 := castSucc_ne_two n
    have hpn : s.jmpList (tb, n.castSucc) ≠ none := by rw [hp]; exact Option.some_ne_none q
    obtain ⟨T, hT, hmem⟩ := hF.listed (tb, n.castSucc) htb hn2 hpn
    obtain ⟨pre, post, he⟩ := append_of_mem hmem
    have hround : Leads id s.jmpList (s.jmpList (tb, n.castSucc)) (post ++ (T, 2) :: pre)
        (some (tb, n.castSucc)) := Leads.rotate (he ▸ hF.family.leads T hT)
    have hnd := hF.family.nodup T hT
    rw [he] at hnd
    have hne : ∀ x ∈ post ++ (T, 2) :: pre, decide (x = (tb, n.castSucc)) = false := by
      intro x hx
      rw [decide_eq_false_iff_not]
      rintro rfl
      rcases List.mem_append.mp hx with h | h
      · exact (List.nodup_middle.mp hnd).notMem (mem_append_right _ h)
      · rcases List.mem_cons.mp h with h | h
        · exact hn2 (Prod.mk.inj h).2
        · exact (List.nodup_middle.mp hnd).notMem (mem_append_left _ h)
    refine ⟨_, ⟨(post ++ (T, 2) :: pre).length + 1, fun fuel hf => ?_⟩, ⟨_, hF.cut hT he⟩,
      update_self _ _ _, fun p hp2 hpn => ?_⟩
    · simp only [tbJmpRemove, hp]
      rw [unlink_ok hround hne (decide_eq_true rfl) hf, lastCell_append, ← hp]
      rfl
    · by_cases e : p = (tb, n.castSucc)
      · rw [e, hp] at hpn
        cases hpn
      · rw [update_of_ne e, update_of_ne, hpn]
        intro e1
        rw [e1] at hp2 hpn
        exact hF.ne_none hT (he ▸ mem_append_left _ (lastCell_mem_of_ne hp2)) hpn

lemma resetJumps_ok {p : Option JmpPtr} {xs : List JmpPtr} {fuel : Nat}
    (hl : Leads id m p xs (some (T, 2))) (hnd : xs.Nodup) (hxs : ∀ x ∈ xs, x.2 ≠ 2)
    (hf : xs.length < fuel) : resetJumps fuel p m = .ok fun q => if q ∈ xs then none else m q := by
  induction xs generalizing p m fuel with
  | nil =>
    obtain ⟨fuel, rfl⟩ : ∃ k, fuel = k + 1 := ⟨fuel - 1, by simp only [length_nil] at hf; omega⟩
    rw [show p = some (T, 2) from hl]
    simp [resetJumps]
  | cons x xs ih =>
    obtain ⟨fuel, rfl⟩ : ∃ k, fuel = k + 1 := ⟨fuel - 1, by rw [length_cons] at hf; omega⟩
    obtain ⟨hx, hnd⟩ := List.nodup_cons.mp hnd
    rw [hl.1, resetJumps]
    simp only [if_neg (hxs x mem_cons_self)]
    have hne : ∀ y ∈ xs, y ≠ x := fun y hy e => hx (e ▸ hy)
    have hl' : Leads id (update m x none) (m x) xs (some (T, 2)) :=
      hl.2.congr fun y hy => update_of_ne (hne y hy) _ _
    rw [ih hl' hnd (fun y hy => hxs y (mem_cons_of_mem x hy)) (Nat.lt_of_succ_lt_succ hf)]
    congr 1
    funext q
    by_cases hq : q = x
    · rw [hq, if_neg hx, if_pos mem_cons_self, update_self]
    · simp only [mem_cons, hq, false_or, update_of_ne hq]

lemma suppressJumps_settles (hF : JumpLists s.jmpList L F) (htb : tb ∈ L)
    (hown : ∀ n, n ≠ 2 → s.jmpList (tb, n) = none) :
    ∃ m', Settles (fun fuel => suppressJumps fuel s tb) (.ok { s with jmpList := m' }) ∧
      JumpLists m' (L \ {tb}) F := by
  have hxs : ∀ x ∈ F tb, x.2 ≠ 2 := fun x hx => (hF.mem tb htb x hx).2
  refine ⟨update (fun q => if q ∈ F tb then none else s.jmpList q) (tb, 2) (some (tb, 2)),
    ⟨(F tb).length + 1, fun fuel hf => ?_⟩, ?_⟩
  · simp only [suppressJumps]
    rw [resetJumps_ok (hF.family.leads tb htb) (hF.family.nodup tb htb) hxs hf]
    rfl
  · have hother : ∀ T ∈ L \ {tb}, ∀ x ∈ F T, x ∉ F tb := fun T hT x hx hx' =>
      hT.2 (hF.family.disjoint T hT.1 tb htb x hx hx')
    refine ⟨hF.family.congr (fun T hT => hT.1) fun T hT => ⟨?_, fun x hx => ?_⟩, fun T hT p hp => ?_,
      fun p hp hp2 hm => ?_⟩
    · have hne : ((T, 2) : JmpPtr) ≠ (tb, 2) := fun e => hT.2 (Prod.mk.inj e).1
      rw [update_of_ne hne, if_neg fun h => hxs _ h rfl]
    · have hne : x ≠ (tb, 2) := fun e => (hF.mem T hT.1 x hx).2 (e ▸ rfl)
      show update _ (tb, 2) _ x = _
      rw [update_of_ne hne, if_neg (hother T hT x hx)]
      rfl
    · obtain ⟨h1, h2⟩ := hF.mem T hT.1 p hp
      refine ⟨⟨h1, fun e => ?_⟩, h2⟩
      have e : p = (tb, p.2) := Prod.ext e rfl
      exact hF.ne_none hT.1 hp (e ▸ hown p.2 h2)
    · have hne : p ≠ (tb, 2) := fun e => hp2 (e ▸ rfl)
      rw [update_of_ne hne] at hm
      have hpF : p ∉ F tb := fun h => hm (if_pos h)
      rw [if_neg hpF] at hm
      obtain ⟨T, hT, hpT⟩ := hF.listed p hp.1 hp2 hm
      exact ⟨T, ⟨hT, fun e => hpF ((show T = tb from e) ▸ hpT)⟩, hpT⟩

end jumps

/-! ## One block -/

lemma HashLists.congr {F : Nat → List Nat} (hF : HashLists s L F)
    (hlist : s'.tbPhysHash = s.tbPhysHash) (htb : s'.tb = s.tb) : HashLists s' L F where
  family := hlist ▸ hF.family
  mem := htb ▸ hF.mem

lemma PageLists.congr (hF : PageLists s L F)
    (hlist : s'.pageList = s.pageList) (htb : s'.tb = s.tb) : PageLists s' L F where
  family := hlist ▸ hF.family
  mem := htb ▸ hF.mem
  twice := htb ▸ hF.twice

def removeJumps (fuel : Nat) (s : State t) (tb : Nat) : Except Fault (State t) := do
  let s ← tbJmpRemove fuel s tb 0
  let s ← tbJmpRemove fuel s tb 1
  suppressJumps fuel s tb

lemma removeJumps_settles {F : Nat → List JmpPtr} (hF : JumpLists s.jmpList L F) (htb : tb ∈ L) :
    ∃ m', Settles (fun fuel => removeJumps fuel s tb) (.ok { s with jmpList := m' }) ∧
      ∃ F', JumpLists m' (L \ {tb}) F' := by
  obtain ⟨m1, hs1, ⟨F1, hF1⟩, hn1, -⟩ := tbJmpRemove_settles hF htb 0
  obtain ⟨m2, hs2, ⟨F2, hF2⟩, hn2, hkeep⟩ :=
    tbJmpRemove_settles (s := { s with jmpList := m1 }) hF1 htb 1
  have hown : ∀ n : Fin 3, n ≠ 2 → m2 (tb, n) = none := by
    intro n hn
    rcases (by decide : ∀ n : Fin 3, n ≠ 2 → n = 0 ∨ n = 1) n hn with rfl | rfl
    · exact hkeep (tb, 0) (show (0 : Fin 3) ≠ 2 by decide) hn1
    · exact hn2
  obtain ⟨m3, hs3, hF3⟩ := suppressJumps_settles (s := { s with jmpList := m2 }) hF2 htb hown
  exact ⟨m3, hs1.bind (hs2.bind hs3), F2, hF3⟩

lemma tbPhysInvalidate_eq (fuel : Nat) (s : State t) (tb : Nat) :
    tbPhysInvalidate fuel s tb none = tbHashRemove fuel s (s.tb tb).hash tb >>= fun s =>
      removeFromPages fuel s tb >>= fun s => removeJumps fuel s tb := by
  simp only [tbPhysInvalidate, removeFromPages, removeJumps, bind_assoc, TranslationBlock.hash]

/-- **A linked block is taken off all its lists.** -/
theorem tbPhysInvalidate_linked (hs : Inv s L) (hF : PageLists s L F) (htb : tb ∈ L) :
    ∃ s', Settles (fun fuel => tbPhysInvalidate fuel s tb none) (.ok s') ∧ Inv s' (L \ {tb}) ∧
      PageLists s' (L \ {tb}) (without tb F) ∧ s'.tb = s.tb ∧
      ∀ p : PagePtr, p.1 = tb → s'.pageList (.pageNext p) = s.pageList (.pageNext p) := by
  obtain ⟨H, hH⟩ := hs.hash
  obtain ⟨J, hJ⟩ := hs.jump
  obtain ⟨m1, hs1, H', hH'⟩ := tbHashRemove_linked hH htb
  obtain ⟨s2, hs2, hsame, hF2, hkeep, hbit⟩ :=
    removeFromPages_settles (s := { s with tbPhysHash := m1 }) (hF.congr rfl rfl)
      (hs.mapped tb htb) htb
  obtain ⟨m3, hs3, J', hJ'⟩ := removeJumps_settles (s := s2) (hsame.jmpList ▸ hJ) htb
  refine ⟨{ s2 with jmpList := m3 }, ?_, ?_, hF2.congr rfl rfl, hsame.tb, hkeep⟩
  · simp only [tbPhysInvalidate_eq]
    exact hs1.bind (hs2.bind hs3)
  have htbs : s2.tb = s.tb := hsame.tb
  refine ⟨⟨H', hH'.congr hsame.tbPhysHash hsame.tb⟩, ⟨_, hF2.congr rfl rfl⟩, ⟨J', hJ'⟩,
    fun tb1 h1 => ?_, fun tb1 h1 n i hi => ?_, fun i tab hi k hk => ?_⟩
  · show Placed (s2.tb tb1)
    rw [htbs]
    exact hs.placed tb1 h1.1
  · show s2.l1Map _ = true
    rw [htbs] at hi
    rw [hsame.l1Map]
    exact hs.mapped tb1 h1.1 n i hi
  · obtain ⟨hi, hno⟩ := hbit i tab hi
    rw [hs.bitmap i tab hi k hk]
    constructor
    · rintro ⟨p, hp, hpage, hspan⟩
      refine ⟨p, ⟨hp, fun e => hno p.2 (e ▸ hpage)⟩, ?_⟩
      rw [htbs]
      exact ⟨hpage, hspan⟩
    · rintro ⟨p, ⟨hp, -⟩, h⟩
      rw [htbs] at h
      exact ⟨p, hp, h⟩

lemma tbPhysInvalidate_unlinked (hs : Inv s L) (htb : tb ∉ L) :
    Settles (fun fuel => tbPhysInvalidate fuel s tb none) (.error .null) := by
  obtain ⟨H, hH⟩ := hs.hash
  exact (tbHashRemove_unlinked hH htb _).bind_error

end
end Tb
