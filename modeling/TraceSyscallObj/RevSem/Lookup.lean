import Mathlib.Algebra.Group.Nat.Defs
import TraceSyscallObj.RevSem.TreeRun

/-!
# Lookups in a search tree of any shape

`ds_code_rbtFind2` steers by the start keys and tests the range.  The tree here is any binary
search tree in memory, balanced or not, whose ranges are disjoint sets of addresses below `2^32`.

* `IsSearchTree`: the links hold the tree and its keys increase from left to right;
* `Entry.has`: the range `[key, key + size)` on numbers, without the wrap of the test;
* `Unhidden`: no empty node stands above one that reaches across it;
* `searchIn_all_iff`: the search in a subtree finds all its nodes exactly when it is `Unhidden`;
* `find2_exact_iff`: the same for the function, with the ranges that end at `2^32`.
-/

namespace RevSem
open PTree Run
variable {e : Entry}

/-- A binary search tree in memory; its shape and its colours are not constrained. -/
structure IsSearchTree (s : TreeState) (t : CTree Ptr) : Prop where
  holds : Holds s.live s.links [] t
  ordered : Ordered s.keyOf t

def Entry.stop (e : Entry) : Nat := e.key.toNat + e.size.toNat

def Entry.has (e : Entry) (a : KeyType) : Prop := e.key.toNat ≤ a.toNat ∧ a.toNat < e.stop

/-- the ranges of the nodes share no address -/
def RangesDisjoint (s : TreeState) (t : CTree Ptr) : Prop :=
  ∀ p ∈ t.ptrs, ∀ q ∈ t.ptrs, p ≠ q → ∀ a, ¬ ((s.entryOf p).has a ∧ (s.entryOf q).has a)

/-- nor do they wrap past `2^32` -/
structure RangesApart (s : TreeState) (t : CTree Ptr) : Prop where
  disjoint : RangesDisjoint s t
  nowrap : ∀ p ∈ t.ptrs, (s.entryOf p).stop ≤ 2 ^ 32

/-- what the lookup of `a` should return -/
def FindsRight (H : Host) (s : TreeState) (t : CTree Ptr) (a : KeyType) : Prop :=
  ∃ p, dsCodeRbtFind2 H a s = .ok p s ∧
    (p ≠ .null → p ∈ t.ptrs ∧ (s.entryOf p).has a) ∧
    (p = .null ↔ ∀ q ∈ t.ptrs, ¬ (s.entryOf q).has a)

/-- An empty node hides what lies to its left and reaches past the byte at its key: for the bytes
behind it the search turns right. -/
def Unhidden (s : TreeState) : CTree Ptr → Prop
  | .leaf => True
  | .node _ l p r =>
    ((s.entryOf p).size = 0 → ∀ q ∈ l.ptrs, (s.entryOf q).stop ≤ (s.keyOf p).toNat + 1) ∧
      Unhidden s l ∧ Unhidden s r

section
variable {s : TreeState} {t : CTree Ptr} {a : KeyType}

lemma covers_iff_has (h : e.stop < 2 ^ 32) : e.covers a ↔ e.has a := by
  unfold Entry.stop at h
  unfold Entry.covers Entry.has Entry.stop
  bv_omega

lemma Entry.has_key (h : e.size ≠ 0) : e.has e.key := by
  unfold Entry.has Entry.stop
  bv_omega

lemma Entry.has_top (h : e.stop = 2 ^ 32) : e.has (-1) ∧ ¬ e.covers (-1) := by
  unfold Entry.stop at h
  unfold Entry.covers Entry.has Entry.stop
  constructor
  · bv_omega
  · bv_omega

lemma searchIn_mem (ho : Ordered s.keyOf t) (h : searchIn s a t ≠ .null) :
    searchIn s a t ∈ t.ptrs := by
  rcases searchIn_spec (a := a) ho with ⟨h1, -⟩ | ⟨h1, -⟩
  · exact h1
  · exact absurd h1 h

/-- **The search finds every node at every address of its range exactly when no node is hidden.** -/
theorem searchIn_all_iff (ho : Ordered s.keyOf t) (hnull : ∀ p ∈ t.ptrs, p ≠ .null)
    (hd : ∀ p ∈ t.ptrs, ∀ q ∈ t.ptrs, p ≠ q → ∀ a, ¬ ((s.entryOf p).has a ∧ (s.entryOf q).has a))
    (htop : ∀ p ∈ t.ptrs, (s.entryOf p).stop < 2 ^ 32) :
    (∀ a, ∀ q ∈ t.ptrs, (s.entryOf q).has a → searchIn s a t = q) ↔ Unhidden s t := by
  induction t with
  | leaf => exact ⟨fun _ => trivial, fun _ a q hq => by simp [CTree.ptrs] at hq⟩
  | node c l p r ihl ihr =>
    have hl : ∀ q ∈ l.ptrs, q ∈ (CTree.node c l p r).ptrs := fun q hq => by simp [CTree.ptrs, hq]
    have hr : ∀ q ∈ r.ptrs, q ∈ (CTree.node c l p r).ptrs := fun q hq => by simp [CTree.ptrs, hq]
    have hp : p ∈ (CTree.node c l p r).ptrs := by simp [CTree.ptrs]
    obtain ⟨hkl, hkr⟩ := Ordered.node (show Ordered s.keyOf (plug [] _) from ho)
    obtain ⟨hol, hor⟩ := ho.subtrees
    have hne_l : ∀ q ∈ l.ptrs, q ≠ p := fun q hq e => by
      have := hkl q hq
      rw [e] at this
      bv_omega
    have hne_r : ∀ q ∈ r.ptrs, q ≠ p := fun q hq e => by
      have := hkr q hq
      rw [e] at this
      bv_omega
    have hlr : ∀ q ∈ l.ptrs, q ∉ r.ptrs := fun q h1 h2 => by
      have := hkl q h1
      have := hkr q h2
      bv_omega
    -- the root does not take the search at an address of another node
    have hmiss : ∀ q ∈ (CTree.node c l p r).ptrs, q ≠ p → ∀ a, (s.entryOf q).has a →
        searchIn s a (.node c l p r) = if a ≤ s.keyOf p then searchIn s a l else searchIn s a r := by
      intro q hq hne a ha
      exact if_neg fun hc => hd q hq p hp hne a ⟨ha, (covers_iff_has (htop p hp)).mp hc⟩
    have hright : ∀ q ∈ r.ptrs, ∀ a, (s.entryOf q).has a → ¬ a ≤ s.keyOf p := by
      intro q hq a ha hle
      have h1 : s.keyOf p < s.keyOf q := hkr q hq
      have h2 : (s.keyOf q).toNat ≤ a.toNat := ha.1
      bv_omega
    have el := ihl hol (fun p hp => hnull p (hl p hp)) (fun p hp q hq => hd p (hl p hp) q (hl q hq))
      (fun p hp => htop p (hl p hp))
    have er := ihr hor (fun p hp => hnull p (hr p hp)) (fun p hp q hq => hd p (hr p hp) q (hr q hq))
      (fun p hp => htop p (hr p hp))
    constructor
    · intro hall
      -- a node on the left is never found by a search that turns right
      have hleft : ∀ q ∈ l.ptrs, ∀ a, (s.entryOf q).has a → a ≤ s.keyOf p ∧ searchIn s a l = q := by
        intro q hq a ha
        have hfind := hall a q (hl q hq) ha
        rw [hmiss q (hl q hq) (hne_l q hq) a ha] at hfind
        by_cases hle : a ≤ s.keyOf p
        · rw [if_pos hle] at hfind
          exact ⟨hle, hfind⟩
        · rw [if_neg hle] at hfind
          subst hfind
          exact absurd (searchIn_mem hor (hnull _ (hl _ hq))) (hlr _ hq)
      refine ⟨fun _ q hq => ?_, el.mp fun a q hq ha => (hleft q hq a ha).2,
        er.mp fun a q hq ha => ?_⟩
      · by_contra hlt
        have hstop := htop q (hl q hq)
        have hkq : s.keyOf q < s.keyOf p := hkl q hq
        have ha : (s.entryOf q).has (s.keyOf p + 1) := by
          have hkey : (s.entryOf q).key = s.keyOf q := rfl
          unfold Entry.has
          bv_omega
        have hle := (hleft q hq _ ha).1
        bv_omega
      · have hfind := hall a q (hr q hq) ha
        rwa [hmiss q (hr q hq) (hne_r q hq) a ha, if_neg (hright q hq a ha)] at hfind
    · rintro ⟨hempty, hul, hur⟩ a q hq ha
      by_cases hqp : q = p
      · subst hqp
        exact if_pos ((covers_iff_has (htop q hq)).mpr ha)
      rw [hmiss q hq hqp a ha]
      rw [CTree.ptrs, List.mem_append, List.mem_cons] at hq
      rcases hq with hq | hq | hq
      · have hle : a ≤ s.keyOf p := by
          by_contra hgt
          have hkq : s.keyOf q < s.keyOf p := hkl q hq
          have hlt : a.toNat < (s.entryOf q).stop := ha.2
          by_cases hz : (s.entryOf p).size = 0
          · have := hempty hz q hq
            bv_omega
          · refine hd q (hl q hq) p hp (hne_l q hq) (s.keyOf p) ⟨⟨?_, ?_⟩, Entry.has_key hz⟩
            · show (s.keyOf q).toNat ≤ _
              bv_omega
            · bv_omega
        rw [if_pos hle]
        exact el.mpr hul a q hq ha
      · exact absurd hq hqp
      · rw [if_neg (hright q hq a ha)]
        exact er.mpr hur a q hq ha

variable {H : Host}

lemma IsSearchTree.ne_null (h : IsSearchTree s t) : ∀ p ∈ t.ptrs, p ≠ .null :=
  fun _ hp => (h.holds.node_ne hp).2.1

lemma IsSearchTree.findsRight_iff (h : IsSearchTree s t) (hf : t.ptrs.length < H.fuel) :
    FindsRight H s t a ↔
      (searchIn s a t ≠ .null → searchIn s a t ∈ t.ptrs ∧ (s.entryOf (searchIn s a t)).has a) ∧
        (searchIn s a t = .null ↔ ∀ q ∈ t.ptrs, ¬ (s.entryOf q).has a) := by
  unfold FindsRight
  rw [h.holds.find2_search hf]
  constructor
  · rintro ⟨p, hp, h1⟩
    injection hp with hp
    rwa [← hp] at h1
  · exact fun h1 => ⟨_, rfl, h1⟩

lemma FindsRight.eq {q : Ptr} (h : FindsRight H s t a) (hs : IsSearchTree s t)
    (ha : RangesApart s t) (hf : t.ptrs.length < H.fuel) (hq : q ∈ t.ptrs)
    (hqa : (s.entryOf q).has a) : searchIn s a t = q := by
  obtain ⟨h1, h2⟩ := (hs.findsRight_iff hf).mp h
  obtain ⟨hpt, hpa⟩ := h1 fun e => h2.mp e q hq hqa
  by_contra e
  exact ha.disjoint _ hpt q hq e a ⟨hpa, hqa⟩

/-- **Lookups are right at every address exactly when no range ends at `2^32` and no empty node
hides another one.** -/
theorem find2_exact_iff (H : Host) (h : IsSearchTree s t) (ha : RangesApart s t)
    (hf : t.ptrs.length < H.fuel) :
    (∀ a, FindsRight H s t a) ↔
      (∀ p ∈ t.ptrs, (s.entryOf p).stop < 2 ^ 32) ∧ Unhidden s t := by
  have hspec := fun a => searchIn_spec (a := a) h.ordered
  have hiff := searchIn_all_iff h.ordered h.ne_null ha.disjoint
  constructor
  · intro hall
    have htop : ∀ p ∈ t.ptrs, (s.entryOf p).stop < 2 ^ 32 := by
      intro p hp
      by_contra hge
      obtain ⟨hhas, hcov⟩ := Entry.has_top (e := s.entryOf p) (by have := ha.nowrap p hp; omega)
      obtain rfl := (hall (-1)).eq h ha hf hp hhas
      rcases hspec (-1) with ⟨-, h2⟩ | ⟨h2, -⟩
      · exact hcov h2
      · exact h.ne_null _ hp h2
    exact ⟨htop, (hiff htop).mp fun a q hq hqa => (hall a).eq h ha hf hq hqa⟩
  · rintro ⟨htop, hun⟩ a
    have hfound := (hiff htop).mpr hun a
    refine (h.findsRight_iff hf).mpr ⟨fun hp => ?_, fun hp q hq hqa => ?_, fun hnone => ?_⟩
    · rcases hspec a with ⟨h2, h3⟩ | ⟨h2, -⟩
      · exact ⟨h2, (covers_iff_has (htop _ h2)).mp h3⟩
      · exact absurd h2 hp
    · exact h.ne_null q hq ((hfound q hq hqa).symm.trans hp)
    · rcases hspec a with ⟨h2, h3⟩ | ⟨h2, -⟩
      · exact absurd ((covers_iff_has (htop _ h2)).mp h3) (hnone _ h2)
      · exact h2

end

/-! ## two objects, the second to the left of the first -/

def twoObjects (k n k' n' : KeyType) : List TreeOp := [.insert k n noRecord, .insert k' n' noRecord]

def twoNodes : CTree Ptr := .node .black (.node .red .leaf (.cell 2) .leaf) (.cell 1) .leaf

lemma isSearchTree_twoNodes {s : TreeState} (hroot : s.root = .cell 1) (hlive : s.live = [2, 1])
    (h1 : s.links.Cell (.cell 1) .null .black .left (.cell 2) .sentinel)
    (h2 : s.links.Cell (.cell 2) (.cell 1) .red .left .sentinel .sentinel)
    (hnil : s.links.color .sentinel = .black ∧ ∀ d, s.links.child .sentinel d = .sentinel)
    (hk : s.keyOf (.cell 2) < s.keyOf (.cell 1)) : IsSearchTree s twoNodes := by
  refine ⟨⟨⟨trivial, ⟨h1, ⟨h2, trivial, trivial⟩, trivial⟩, by decide, hroot, ?_, hnil.1, hnil.2⟩,
    rfl, rfl, ?_⟩, ?_⟩
  · show ∀ p ∈ [Ptr.cell 2, .cell 1], p ≠ .sentinel ∧ p ≠ .null
    decide
  · show ∀ p ∈ [Ptr.cell 2, .cell 1], p.validIn s.live
    rw [hlive]
    decide
  · show ([s.keyOf (.cell 2), s.keyOf (.cell 1)]).Pairwise (· < ·)
    simpa using hk

lemma rangesApart_twoNodes {s : TreeState} (h : (s.entryOf (.cell 1)).size = 0 ∨
      (s.entryOf (.cell 2)).stop ≤ (s.entryOf (.cell 1)).key.toNat)
    (h1 : (s.entryOf (.cell 1)).stop ≤ 2 ^ 32) (h2 : (s.entryOf (.cell 2)).stop ≤ 2 ^ 32) :
    RangesApart s twoNodes := by
  have hd : ∀ a, (s.entryOf (.cell 2)).has a → ¬ (s.entryOf (.cell 1)).has a := by
    intro a ⟨_, hlt⟩ ⟨hge, hlt'⟩
    rcases h with h | h
    · have hstop : (s.entryOf (.cell 1)).stop = (s.entryOf (.cell 1)).key.toNat := by
        rw [Entry.stop, h]
        rfl
      omega
    · omega
  constructor
  · intro p hp q hq hne a ⟨hpa, hqa⟩
    have hp' : p = .cell 2 ∨ p = .cell 1 := by simpa [twoNodes, CTree.ptrs] using hp
    have hq' : q = .cell 2 ∨ q = .cell 1 := by simpa [twoNodes, CTree.ptrs] using hq
    rcases hp' with rfl | rfl
    · rcases hq' with rfl | rfl
      · exact hne rfl
      · exact hd a hpa hqa
    · rcases hq' with rfl | rfl
      · exact hd a hqa hpa
      · exact hne rfl
  · intro p hp
    have hp' : p = .cell 2 ∨ p = .cell 1 := by simpa [twoNodes, CTree.ptrs] using hp
    rcases hp' with rfl | rfl
    · exact h2
    · exact h1

/-- an empty object at 15, then ten bytes at 10: the lookup of 17 turns right at the empty one -/
theorem find2_not_exact : ∃ s, runOps (.bump 4) (twoObjects 15 0 10 10) (.init blank) = .ok () s ∧
    IsSearchTree s twoNodes ∧ RangesApart s twoNodes ∧ (s.entryOf (.cell 2)).has 17 ∧
    dsCodeRbtFind2 (.bump 4) 17 s = .ok .null s := by
  have hrun := eq_ok (r := runOps (.bump 4) (twoObjects 15 0 10 10) (.init blank)) (by decide)
  refine ⟨_, hrun, isSearchTree_twoNodes (by decide) (by decide) ?_ ?_ ?_ (by decide),
    rangesApart_twoNodes (.inl (by decide)) ?_ ?_, ?_, rfl⟩
  · unfold Links.Cell
    decide
  · unfold Links.Cell
    decide
  · refine ⟨by decide, fun d => ?_⟩
    cases d <;> decide
  · unfold Entry.stop
    decide
  · unfold Entry.stop
    decide
  · unfold Entry.has Entry.stop
    decide

/-- five bytes at 20, then ten bytes at 10 -/
theorem find2_exact_neighbours : ∃ s,
    runOps (.bump 4) (twoObjects 20 5 10 10) (.init blank) = .ok () s ∧
    ∀ a, FindsRight (.bump 4) s twoNodes a := by
  have hrun := eq_ok (r := runOps (.bump 4) (twoObjects 20 5 10 10) (.init blank)) (by decide)
  refine ⟨_, hrun, (find2_exact_iff (.bump 4)
    (isSearchTree_twoNodes (by decide) (by decide) ?_ ?_ ?_ (by decide))
    (rangesApart_twoNodes (.inr ?_) ?_ ?_) (by decide)).mpr ⟨?_, ?_, ?_, ?_⟩⟩
  · unfold Links.Cell
    decide
  · unfold Links.Cell
    decide
  · refine ⟨by decide, fun d => ?_⟩
    cases d <;> decide
  · unfold Entry.stop
    decide
  · unfold Entry.stop
    decide
  · unfold Entry.stop
    decide
  · show ∀ p ∈ [Ptr.cell 2, .cell 1], _
    decide
  · intro h
    exact absurd h (by decide)
  · exact ⟨fun _ q hq => (nomatch hq), trivial, trivial⟩
  · trivial

end RevSem
