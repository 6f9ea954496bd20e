import TraceSyscallObj.RevSem.Lookup

/-!
# What an erasure leaves behind, and when an insertion is refused

* `erase_exact_iff`: `rbtErase` removes the record of its node exactly when that node has a free
  side or its successor carries the same name: the name is not copied;
* `insert_ok_iff`: the assertion of `ds_code_all_insert_rb` holds exactly when no object that the
  eviction loop cannot see (empty, or up to the end of the address space) starts at the new address.
-/

namespace RevSem
open PTree Run
variable {z : Ptr}

section
variable {s : TreeState} {t : CTree Ptr}

/-! ## erasing -/

/-- the node of the next key carries the name of `z` -/
def SameNameNext (s : TreeState) (t : CTree Ptr) (z : Ptr) : Prop :=
  ∃ A y B, t.ptrs = A ++ z :: y :: B ∧ (s.record y).objName = (s.record z).objName

lemma movedRecord_eq_iff {r r' : Record} : movedRecord r' r = r' ↔ r'.objName = r.objName := by
  constructor
  · intro h
    exact (congrArg Record.objName h).symm
  · intro h
    unfold movedRecord
    rw [← h]

lemma next_unique {A A' B B' : List Ptr} {y y' : Ptr} (hn : (A ++ z :: y :: B).Nodup)
    (h : A ++ z :: y :: B = A' ++ z :: y' :: B') : y = y' := by
  have hA : z ∉ A := fun hz => (List.nodup_append.mp hn).2.2 z hz z List.mem_cons_self rfl
  have hB : z ∉ y :: B := (List.nodup_cons.mp (List.nodup_append.mp hn).2.1).1
  obtain ⟨-, -, h⟩ := (List.append_cons_inj_of_notMem hA hB).mp h
  injection h

lemma erase_records_perm {A B : List Ptr} (hp : t.ptrs = A ++ z :: B) :
    ((s.records t).erase (s.record z)).Perm ((A ++ B).map s.record) := by
  have h : (s.records t).Perm (s.record z :: (A ++ B).map s.record) := by
    unfold TreeState.records
    rw [hp]
    exact List.perm_middle.map s.record
  have h' := h.erase (s.record z)
  rwa [List.erase_cons_head] at h'

lemma ErasedAt.perm_iff {left : List Record} (h : ErasedAt s t z left)
    (hn : t.ptrs.Nodup) : left.Perm ((s.records t).erase (s.record z)) ↔
      (s.mem z).left = .sentinel ∨ (s.mem z).right = .sentinel ∨ SameNameNext s t z := by
  cases h with
  | out A B hp hfree hl =>
    rw [hl]
    exact ⟨fun _ => hfree.elim .inl fun k => .inr (.inl k), fun _ => (erase_records_perm hp).symm⟩
  | moved A y B hp hfree hl =>
    have hperm := erase_records_perm (s := s) hp
    have hname : left.Perm ((s.records t).erase (s.record z)) ↔
        (s.record y).objName = (s.record z).objName := by
      rw [hl, ← movedRecord_eq_iff]
      constructor
      · intro hP
        have hP' := hP.trans hperm
        rw [List.map_append, List.perm_append_left_iff] at hP'
        have hsingle : [movedRecord (s.record y) (s.record z)].Perm [s.record y] :=
          (List.perm_append_right_iff (B.map s.record)).mp hP'
        exact List.singleton_perm_singleton.mp hsingle
      · intro e
        rw [e]
        rw [List.map_append] at hperm
        exact hperm.symm
    rw [hname]
    constructor
    · exact fun e => .inr (.inr ⟨A, y, B, hp, e⟩)
    · rintro (k | k | ⟨A', y', B', hp', e⟩)
      · exact absurd (.inl k) hfree
      · exact absurd (.inr k) hfree
      · rw [next_unique (hp ▸ hn) (hp.symm.trans hp')]
        exact e

/-- **`rbtErase` removes the record of `z` and no other exactly when the node of `z` goes or its
successor has the same name.** -/
theorem erase_exact_iff (H : Host) (h : IsRbTree s t) (hz : z ∈ t.ptrs)
    (hf : t.ptrs.length < H.fuel) :
    ∃ s' t', rbtErase H z s = .ok .ok s' ∧ IsRbTree s' t' ∧
      ((s'.records t').Perm ((s.records t).erase (s.record z)) ↔
        (s.mem z).left = .sentinel ∨ (s.mem z).right = .sentinel ∨ SameNameNext s t z) := by
  obtain ⟨s', t', hrun, ht', hat⟩ := rbtErase_at H h hz hf
  exact ⟨s', t', hrun, ht', hat.perm_iff h.holds.nodup⟩

def threeState : TreeState where
  root := .cell 1
  mem
    | .cell 1 => ⟨⟨⟨20, 5, 0, 0⟩, ⟨"inode", by decide⟩⟩, .cell 2, .cell 3, .null, .black⟩
    | .cell 2 => ⟨⟨⟨10, 5, 0, 0⟩, ⟨"file", by decide⟩⟩, .sentinel, .sentinel, .cell 1, .red⟩
    | .cell 3 => ⟨⟨⟨30, 5, 0, 0⟩, ⟨"task", by decide⟩⟩, .sentinel, .sentinel, .cell 1, .red⟩
    | _ => ⟨noRecord, .sentinel, .sentinel, .null, .black⟩
  live := [3, 2, 1]
  mallocs := 3
  database _ := none

def threeNodes : CTree Ptr :=
  .node .black (.node .red .leaf (.cell 2) .leaf) (.cell 1) (.node .red .leaf (.cell 3) .leaf)

lemma threeState_isRbTree : IsRbTree threeState threeNodes := by
  have h1 : threeState.links.Cell (.cell 1) .null .black .left (.cell 2) (.cell 3) := by
    unfold Links.Cell
    decide
  have h2 : threeState.links.Cell (.cell 2) (.cell 1) .red .left .sentinel .sentinel := by
    unfold Links.Cell
    decide
  have h3 : threeState.links.Cell (.cell 3) (.cell 1) .red .left .sentinel .sentinel := by
    unfold Links.Cell
    decide
  refine ⟨⟨⟨trivial, ⟨h1, ⟨h2, trivial, trivial⟩, h3, trivial, trivial⟩, by decide, by decide, ?_,
    by decide, fun d => ?_⟩, rfl, rfl, ?_⟩, ⟨rfl, ?_, ?_⟩, ?_⟩
  · show ∀ p ∈ [Ptr.cell 2, .cell 1, .cell 3], p ≠ .sentinel ∧ p ≠ .null
    decide
  · cases d <;> decide
  · show ∀ p ∈ [Ptr.cell 2, .cell 1, .cell 3], p.validIn threeState.live
    decide
  · simp [threeNodes, NoRR, CTree.color]
  · exact ⟨1, 0, rfl, ⟨rfl, rfl⟩, rfl, rfl⟩
  · show ([threeState.keyOf (.cell 2), threeState.keyOf (.cell 1),
      threeState.keyOf (.cell 3)]).Pairwise (· < ·)
    decide

/-- the leaf `file` goes with its record -/
theorem erase_exact_leaf : ∃ s' t', rbtErase (.bump 8) (.cell 2) threeState = .ok .ok s' ∧
    IsRbTree s' t' ∧ (s'.records t').Perm
      ((threeState.records threeNodes).erase (threeState.record (.cell 2))) := by
  obtain ⟨s', t', h1, h2, h3⟩ :=
    erase_exact_iff (.bump 8) (z := .cell 2) threeState_isRbTree (by decide) (by decide)
  exact ⟨s', t', h1, h2, h3.mpr (.inl (by decide))⟩

/-- the root `inode` has two children: `task` moves into its node and is called `inode` from then
on -/
theorem erase_keeps_name : ∃ s' t', rbtErase (.bump 8) (.cell 1) threeState = .ok .ok s' ∧
    IsRbTree s' t' ∧ ¬ (s'.records t').Perm
      ((threeState.records threeNodes).erase (threeState.record (.cell 1))) := by
  obtain ⟨s', t', h1, h2, h3⟩ :=
    rbtErase_at (.bump 8) (z := .cell 1) threeState_isRbTree (by decide) (by decide)
  refine ⟨s', t', h1, h2, fun hP => ?_⟩
  rcases (h3.perm_iff (by decide)).mp hP with k | k | ⟨A, y, B, hp, k⟩
  · exact absurd k (by decide)
  · exact absurd k (by decide)
  · have hp' : [Ptr.cell 2] ++ .cell 1 :: .cell 3 :: [] = A ++ .cell 1 :: y :: B := hp
    rw [← next_unique (by decide) hp'] at k
    exact absurd k (by decide)

/-! ## inserting -/

/-- the eviction loop would find every object that starts at `start` -/
def StartVisible (s : TreeState) (start : KeyType) : Prop :=
  ∀ t, IsRbTree s t → ∀ q ∈ t.ptrs, s.keyOf q = start → start < start + (s.mem q).size

lemma covers_start_iff {e : Entry} : e.covers e.key ↔ e.key < e.key + e.size := by
  unfold Entry.covers
  bv_omega

lemma startVisible_iff {es : List Entry} {start : KeyType} (h : Stores s es) :
    StartVisible s start ↔ ∀ e ∈ es, e.key = start → e.covers e.key := by
  obtain ⟨t, ht, rfl⟩ := h
  constructor
  · intro hv e he hk
    obtain ⟨q, hq, rfl⟩ := mem_entries.mp he
    rw [covers_start_iff, hk]
    exact hv t ht q hq hk
  · intro hv t' ht' q hq hk
    rw [ht'.unique ht] at hq
    have hc := covers_start_iff.mp (hv _ (mem_entries.mpr ⟨q, hq, rfl⟩) hk)
    have hk' : (s.entryOf q).key = start := hk
    rw [hk'] at hc
    exact hc

lemma Stores.insert_cases {es : List Entry} (H : Host) (h : Stores s es)
    (hf : es.length < H.fuel) (start size : KeyType) (p : Record) :
    ((∃ s', dsCodeAllInsertRb H start size p s = .ok () s') ∧ StartVisible s start) ∨
      ((∃ s', dsCodeAllInsertRb H start size p s = .error .insertAssert s') ∧
        ¬ StartVisible s start) := by
  obtain ⟨s', es', hev, hcase⟩ := dsCodeAllInsertRb_spec H start size p h hf
  rw [startVisible_iff h]
  rcases hcase with ⟨e, he, hk, hrun, -⟩ | ⟨A, B, hrun, rfl, hs'⟩
  · refine .inr ⟨⟨s', hrun⟩, fun hv => ?_⟩
    have hm : Missed es' e.key := by
      rw [hk]
      exact hev.missed
    exact hm.not_covers he (hv e (hev.sub.subset he) hk)
  · refine .inl ⟨⟨s', hrun⟩, fun e he hk => ?_⟩
    -- an object that the loop leaves in place has another key than the new one
    rcases hev.covered e he with hin | hc
    · exact absurd hk (key_ne_middle hs'.keys hin)
    · rw [hk]
      exact hc

lemma stores_of_run (H : Host) {garbage : Ptr → NodeType} {ops : List TreeOp}
    (hf : ops.length < H.fuel) (hrun : runOps H ops (.init garbage) = .ok () s) :
    ∃ es, Stores s es ∧ es.length < H.fuel := by
  rcases runAll_total (fun n i s h _ => h.exec i) (init_ready H garbage hf)
    (meets_true _ ops) with ⟨s₁, h1, es, h2, h3⟩ | ⟨e, s₁, h1, -⟩
  · have e : s = s₁ := by
      have hrun' : runAll (TreeOp.exec H) ops (.init garbage) = .ok () s := hrun
      rw [h1] at hrun'
      injection hrun' with _ hrun'
      exact hrun'.symm
    subst e
    exact ⟨es, h2, by omega⟩
  · have hrun' : runAll (TreeOp.exec H) ops (.init garbage) = .ok () s := hrun
    rw [h1] at hrun'
    cases hrun'

/-- **From every reachable tree, an insertion is accepted exactly when the eviction loop can see
every object that starts at its address**; otherwise it reaches the assertion. -/
theorem insert_ok_iff (H : Host) (garbage : Ptr → NodeType) (ops : List TreeOp)
    (hf : ops.length < H.fuel) (hrun : runOps H ops (.init garbage) = .ok () s)
    (start size : KeyType) (p : Record) :
    ((∃ s', dsCodeAllInsertRb H start size p s = .ok () s') ∨
      ∃ s', dsCodeAllInsertRb H start size p s = .error .insertAssert s') ∧
    ((∀ s', dsCodeAllInsertRb H start size p s ≠ .error .insertAssert s') ↔
      StartVisible s start) := by
  obtain ⟨es, hs, hlen⟩ := stores_of_run H hf hrun
  rcases hs.insert_cases H hlen start size p with ⟨⟨s', hok⟩, hv⟩ | ⟨⟨s', herr⟩, hv⟩
  · refine ⟨.inl ⟨s', hok⟩, fun _ => hv, fun _ s'' herr => ?_⟩
    rw [hok] at herr
    cases herr
  · exact ⟨.inr ⟨s', herr⟩, fun hno => absurd herr (hno s'), fun k => absurd k hv⟩

lemma twoNodes_balanced : Balanced twoNodes := by
  refine ⟨rfl, ?_, 1, 0, rfl, ⟨rfl, rfl⟩, rfl⟩
  simp [twoNodes, NoRR, CTree.color]

/-- another object at the start of the second one, which is seen and evicted -/
theorem insert_ok_again : ∃ s,
    runOps (.bump 4) (twoObjects 20 5 10 10) (.init blank) = .ok () s ∧
    ∀ s', dsCodeAllInsertRb (.bump 4) 10 7 noRecord s ≠ .error .insertAssert s' := by
  have hrun := eq_ok (r := runOps (.bump 4) (twoObjects 20 5 10 10) (.init blank)) (by decide)
  refine ⟨_, hrun, (insert_ok_iff (.bump 4) blank _ (by decide) hrun 10 7 noRecord).2.mpr ?_⟩
  have hcell1 : (stateOf (runOps (.bump 4) (twoObjects 20 5 10 10) (.init blank))).links.Cell
      (.cell 1) .null .black .left (.cell 2) .sentinel := by
    unfold Links.Cell
    decide
  have hcell2 : (stateOf (runOps (.bump 4) (twoObjects 20 5 10 10) (.init blank))).links.Cell
      (.cell 2) (.cell 1) .red .left .sentinel .sentinel := by
    unfold Links.Cell
    decide
  have htree := isSearchTree_twoNodes (by decide) (by decide) hcell1 hcell2
    ⟨by decide, fun d => by cases d <;> decide⟩ (by decide)
  intro t ht
  rw [ht.unique ⟨htree.holds, twoNodes_balanced, htree.ordered⟩]
  decide

/-- an allocation of no bytes, then another one at the same address -/
theorem insert_refused : ∃ s s',
    runOps (.bump 4) [.insert 100 0 noRecord] (.init blank) = .ok () s ∧
    dsCodeAllInsertRb (.bump 4) 100 8 noRecord s = .error .insertAssert s' :=
  ⟨_, _, eq_ok (by decide), eq_error (by decide)⟩

end
end RevSem
