import TraceSyscallObj.RevSem.ObjTree

/-!
# Runs of insertions and deletions on the object tree

* `runOps_isRbTree`: whatever the calls, the memory holds a red-black search tree;
* `overlapping_objects`: an insertion may leave an older object under the new one;
* `disjoint_iff_clear`: the ranges stay disjoint in a run exactly if each new range meets no object
  but the one that is looked up at its start.
-/

namespace RevSem
open PTree Run

inductive TreeOp where
  | insert (start size : KeyType) (p : Record)
  | delete (addr : KeyType)

def TreeOp.exec (H : Host) : TreeOp → TreeM Unit
  | .insert start size p => dsCodeAllInsertRb H start size p
  | .delete addr => dsCodeAllDeleteRb H addr

def runOps (H : Host) (ops : List TreeOp) : TreeM Unit := runAll (TreeOp.exec H) ops

section
variable {s s' : TreeState} {t : CTree Ptr} {es : List Entry}

lemma init_stores (garbage : Ptr → NodeType) : Stores (.init garbage) [] := by
  refine ⟨.leaf, ⟨⟨⟨trivial, trivial, ?_, rfl, ?_, rfl, ?_⟩, rfl, rfl, ?_⟩, ?_, ?_⟩, rfl⟩
  · simp [plug, CTree.ptrs]
  · simp [plug, CTree.ptrs]
  · intro d
    cases d <;> rfl
  · simp [plug, CTree.ptrs]
  · exact ⟨rfl, trivial, 0, rfl⟩
  · simp [Ordered, CTree.ptrs]

variable (H : Host)

lemma exec_spec (op : TreeOp) (h : Stores s es) (hf : es.length < H.fuel) :
    ∃ s' es', Stores s' es' ∧ es'.length ≤ es.length + 1 ∧
      (op.exec H s = .ok () s' ∨ op.exec H s = .error .insertAssert s') := by
  cases op with
  | delete addr =>
    obtain ⟨s', es', h1, h2, h3⟩ := dsCodeAllDeleteRb_spec H addr h hf
    have hlen := h3.sub.length_le
    exact ⟨s', es', h2, by omega, .inl h1⟩
  | insert start size p =>
    obtain ⟨s', es', h1, h2⟩ := dsCodeAllInsertRb_spec H start size p h hf
    have hlen := h1.sub.length_le
    rcases h2 with ⟨e, -, -, hrun, hs'⟩ | ⟨A, B, hrun, rfl, hs'⟩
    · exact ⟨s', es', hs', by omega, .inr hrun⟩
    · refine ⟨s', _, hs', ?_, .inl hrun⟩
      simp only [List.length_append, List.length_cons] at hlen ⊢
      omega

/-- a state from which `n` more calls stay within the loop bound -/
def Ready (H : Host) (n : Nat) (s : TreeState) : Prop :=
  ∃ es, Stores s es ∧ es.length + n < H.fuel

lemma init_ready (garbage : Ptr → NodeType) {n : Nat} (hf : n < H.fuel) :
    Ready H n (.init garbage) := ⟨[], init_stores garbage, by simpa using hf⟩

lemma Ready.exec {H : Host} {n : Nat} (h : Ready H (n + 1) s) (op : TreeOp) :
    (∃ s', op.exec H s = .ok () s' ∧ Ready H n s') ∨
      ∃ e s', op.exec H s = .error e s' ∧ e = .insertAssert ∧ ∃ es, Stores s' es := by
  obtain ⟨es, h1, h2⟩ := h
  obtain ⟨s', es', h3, h4, h5⟩ := exec_spec H op h1 (by omega)
  rcases h5 with h5 | h5
  · exact .inl ⟨s', h5, es', h3, by omega⟩
  · exact .inr ⟨_, s', h5, rfl, es', h3⟩

/-! ## what a valid tree says about the memory -/

lemma IsRbTree.root_mem (h : IsRbTree s t) (hr : s.root ≠ .sentinel) : s.root ∈ t.ptrs := by
  have hroot : s.root = s.links.rootOf t := h.holds.root
  rw [hroot] at hr ⊢
  exact Links.rootOf_mem (fun e => hr (by rw [e]; rfl))

lemma IsRbTree.child (h : IsRbTree s t) {p : Ptr} (hp : p ∈ t.ptrs) (d : Dir)
    (hc : (s.mem p).child d ≠ .sentinel) :
    (s.mem p).child d ∈ t.ptrs ∧ (s.mem ((s.mem p).child d)).parent = p := by
  obtain ⟨fs, c, l, r, e⟩ := exists_focus hp
  obtain ⟨a, b, e'⟩ := CTree.exists_mk d c l p r
  have hf : Holds s.live s.links fs (CTree.mk d c a p b) := by
    apply Holds.focus fs
    rw [← e', ← e]
    exact h.holds
  have hch : (s.mem p).child d = s.links.rootOf a := hf.cell.2.2.1
  have ha : a ≠ .leaf := by
    intro k
    rw [hch, k] at hc
    exact hc rfl
  rw [hch]
  refine ⟨?_, hf.down.parent_root ha⟩
  rw [e, e']
  exact mem_plug.mpr (.inl (CTree.mem_ptrs_mk.mpr (.inl (Links.rootOf_mem ha))))

lemma runOps_stores (garbage : Ptr → NodeType) (ops : List TreeOp)
    (hf : ops.length < H.fuel) : ∃ s es, Stores s es ∧
      (runOps H ops (.init garbage) = .ok () s ∨
        runOps H ops (.init garbage) = .error .insertAssert s) := by
  rcases runAll_total (fun n i s h _ => h.exec i) (init_ready H garbage hf)
    (meets_true _ ops) with ⟨s, h1, es, h2, -⟩ | ⟨e, s, h1, rfl, es, h2⟩
  · exact ⟨s, es, h2, .inl h1⟩
  · exact ⟨s, es, h2, .inr h1⟩

/-- **The object tree is a red-black search tree after every sequence of calls**; the only fault
is the assertion in `ds_code_all_insert_rb`. -/
theorem runOps_isRbTree (H : Host) (garbage : Ptr → NodeType) (ops : List TreeOp)
    (hf : ops.length < H.fuel) :
    ∃ s t, (runOps H ops (.init garbage) = .ok () s ∨
        runOps H ops (.init garbage) = .error .insertAssert s) ∧
      IsRbTree s t ∧
      (∀ p ∈ t.ptrs, ∀ d, (s.mem p).child d ≠ .sentinel →
        (s.mem p).child d ∈ t.ptrs ∧ (s.mem ((s.mem p).child d)).parent = p) ∧
      (s.mem .sentinel).color = .black ∧ (s.mem .sentinel).left = .sentinel ∧
      (s.mem .sentinel).right = .sentinel := by
  obtain ⟨s, es, ⟨t, ht, -⟩, hrun⟩ := runOps_stores H garbage ops hf
  exact ⟨s, t, hrun, ht, fun p hp d hc => ht.child hp d hc, ht.holds.nilColor,
    ht.holds.nilChild .left, ht.holds.nilChild .right⟩

/-- cells that were never written -/
def blank (_ : Ptr) : NodeType :=
  { left := .null, right := .null, parent := .null, color := .black,
    key := 0, size := 0, type := 0, pc := 0, objName := emptyName }

def noRecord : Record := { key := 0, size := 0, type := 0, pc := 0, objName := emptyName }

theorem runOps_isRbTree_three : ∃ s t,
    (runOps (.bump 4) [.insert 100 10 noRecord, .insert 200 8 noRecord, .delete 104]
        (.init blank) = .ok () s ∨
      runOps (.bump 4) [.insert 100 10 noRecord, .insert 200 8 noRecord, .delete 104]
        (.init blank) = .error .insertAssert s) ∧ IsRbTree s t := by
  obtain ⟨s, t, h1, h2, -⟩ := runOps_isRbTree (.bump 4) blank
    [.insert 100 10 noRecord, .insert 200 8 noRecord, .delete 104] (by decide)
  exact ⟨s, t, h1, h2⟩

/-! ## disjoint ranges -/

/-- the addresses of an object: `size` bytes from `key` on, modulo `2^32` -/
def Entry.range (e : Entry) (a : KeyType) : Prop := a - e.key < e.size

def DisjointRanges (s : TreeState) : Prop :=
  ∀ t, IsRbTree s t → ∀ p ∈ t.ptrs, ∀ q ∈ t.ptrs, p ≠ q →
    ∀ a, ¬ ((s.entryOf p).range a ∧ (s.entryOf q).range a)

/-- the new range meets no object other than the one that is looked up at its start -/
def ClearAt (H : Host) (start size : KeyType) (s : TreeState) : Prop :=
  ∀ t, IsRbTree s t → ∀ q ∈ t.ptrs, ∀ a, a - start < size → (s.entryOf q).range a →
    dsCodeRbtFind2 H start s = .ok q s

def TreeOp.Clear (H : Host) : TreeOp → TreeState → Prop
  | .insert start size _, s => ClearAt H start size s
  | .delete _, _ => True

lemma Entry.covers.range {e : Entry} {a : KeyType} (h : e.covers a) : e.range a := by
  obtain ⟨h1, h2⟩ := h
  unfold Entry.range
  bv_omega

lemma IsRbTree.unique {t' : CTree Ptr} (h : IsRbTree s t) (h' : IsRbTree s t') : t = t' := by
  refine h.holds.sub.unique h'.holds.sub ?_ ?_ ?_
  · have h1 : s.root = s.links.rootOf t := h.holds.root
    have h2 : s.root = s.links.rootOf t' := h'.holds.root
    exact h1.symm.trans h2
  · exact fun p hp => (h.holds.proper_sub hp).1
  · exact fun p hp => (h'.holds.proper_sub hp).1

lemma Stores.unique {es' : List Entry} (h : Stores s es) (h' : Stores s es') : es = es' := by
  obtain ⟨t, ht, rfl⟩ := h
  obtain ⟨t', ht', rfl⟩ := h'
  rw [ht.unique ht']

lemma IsRbTree.entryOf_inj (h : IsRbTree s t) {p q : Ptr} (hp : p ∈ t.ptrs) (hq : q ∈ t.ptrs)
    (he : s.entryOf p = s.entryOf q) : p = q := by
  have ho : (t.ptrs.map s.keyOf).Pairwise (· < ·) := h.ordered
  have hn : (t.ptrs.map s.keyOf).Nodup := ho.imp (fun hlt e => by bv_omega)
  have hk : s.keyOf p = s.keyOf q := congrArg Entry.key he
  exact List.inj_on_of_nodup_map hn hp hq hk

def DisjointEntries (es : List Entry) : Prop :=
  ∀ e ∈ es, ∀ e' ∈ es, e ≠ e' → ∀ a, ¬ (e.range a ∧ e'.range a)

lemma disjointRanges_iff (h : Stores s es) : DisjointRanges s ↔ DisjointEntries es := by
  obtain ⟨t, ht, rfl⟩ := h
  constructor
  · intro hd e he e' he' hne a
    obtain ⟨p, hp, rfl⟩ := mem_entries.mp he
    obtain ⟨q, hq, rfl⟩ := mem_entries.mp he'
    exact hd t ht p hp q hq (fun k => hne (by rw [k])) a
  · intro hd t' ht' p hp q hq hne a
    have e := ht.unique ht'
    subst e
    refine hd _ (mem_entries.mpr ⟨p, hp, rfl⟩) _ (mem_entries.mpr ⟨q, hq, rfl⟩) ?_ a
    exact fun k => hne (ht.entryOf_inj hp hq k)

lemma clearAt_iff {start size : KeyType} (h : Stores s es) (hf : es.length < H.fuel) :
    ClearAt H start size s ↔ ∀ e ∈ es, ∀ a, a - start < size → e.range a →
      ∃ q, dsCodeRbtFind2 H start s = .ok q s ∧ q ≠ .null ∧ s.entryOf q = e := by
  obtain ⟨t, ht, rfl⟩ := h
  rw [length_entries] at hf
  constructor
  · intro hc e he a ha hr
    obtain ⟨q, hq, rfl⟩ := mem_entries.mp he
    exact ⟨q, hc t ht q hq a ha hr, (ht.holds.node_ne hq).2.1, rfl⟩
  intro hc t' ht' q hq a ha hr
  have e := ht.unique ht'
  subst e
  obtain ⟨q', h1, h2, h3⟩ := hc _ (mem_entries.mpr ⟨q, hq, rfl⟩) a ha hr
  obtain ⟨p, h4, h5⟩ := ht.find2 H hf start
  rw [h1] at h4
  injection h4 with h4
  subst h4
  rcases h5 with ⟨h5, -⟩ | ⟨h5, -⟩
  · rw [h1, ht.entryOf_inj h5 hq h3]
  · exact absurd h5 h2

lemma disjoint_insert {A B : List Entry} {start size : KeyType} {p : Record}
    (hk : ((A ++ newEntry start size p :: B).map Entry.key).Pairwise (· < ·)) :
    DisjointEntries (A ++ newEntry start size p :: B) ↔ DisjointEntries (A ++ B) ∧
      ∀ e ∈ A ++ B, ∀ a, a - start < size → ¬ e.range a := by
  have hmem : ∀ e, e ∈ A ++ newEntry start size p :: B ↔ e = newEntry start size p ∨ e ∈ A ++ B :=
    fun e => mem_middle
  have hnew : newEntry start size p ∉ A ++ B := fun hm => key_ne_middle hk hm rfl
  constructor
  · intro hd
    refine ⟨fun e he e' he' hne => hd e ((hmem e).mpr (.inr he)) e' ((hmem e').mpr (.inr he')) hne,
      fun e he a ha hr => ?_⟩
    refine hd e ((hmem e).mpr (.inr he)) _ ((hmem _).mpr (.inl rfl)) ?_ a ⟨hr, ha⟩
    exact fun k => hnew (k ▸ he)
  · intro ⟨hd, hc⟩ e he e' he' hne a hr
    rcases (hmem e).mp he with rfl | he
    · rcases (hmem e').mp he' with rfl | he'
      · exact hne rfl
      · exact hc e' he' a hr.1 hr.2
    · rcases (hmem e').mp he' with rfl | he'
      · exact hc e he a hr.2 hr.1
      · exact hd e he e' he' hne a hr

lemma DisjointEntries.sublist {es es' : List Entry} (h : DisjointEntries es)
    (hs : es'.Sublist es) : DisjointEntries es' :=
  fun e he e' he' => h e (hs.subset he) e' (hs.subset he')

lemma exec_disjoint {op : TreeOp} (h : Stores s es) (hf : es.length < H.fuel)
    (hd : DisjointRanges s) (hrun : op.exec H s = .ok () s') :
    DisjointRanges s' ↔ op.Clear H s := by
  rw [disjointRanges_iff h] at hd
  cases op with
  | delete addr =>
    obtain ⟨s₁, es', h1, h2, h3⟩ := dsCodeAllDeleteRb_spec H addr h hf
    have e : s₁ = s' := by
      have hrun' : dsCodeAllDeleteRb H addr s = .ok () s' := hrun
      rw [h1] at hrun'
      injection hrun'
    subst e
    rw [disjointRanges_iff h2]
    exact ⟨fun _ => trivial, fun _ => hd.sublist h3.sub⟩
  | insert start size p =>
    obtain ⟨s₁, es', hev, hcase⟩ := dsCodeAllInsertRb_spec H start size p h hf
    have hrun' : dsCodeAllInsertRb H start size p s = .ok () s' := hrun
    rcases hcase with ⟨e, -, -, hrun₁, -⟩ | ⟨A, B, hrun₁, rfl, hs₁⟩
    · rw [hrun₁] at hrun'
      cases hrun'
    have e : s₁ = s' := by
      rw [hrun₁] at hrun'
      injection hrun'
    subst e
    show DisjointRanges s₁ ↔ ClearAt H start size s
    rw [disjointRanges_iff hs₁, disjoint_insert hs₁.keys, clearAt_iff H h hf]
    constructor
    · intro ⟨_, hc⟩ e he a ha hr
      have hgone : e ∉ A ++ B := fun k => hc e k a ha hr
      have hcov := (hev.covered e he).resolve_left hgone
      obtain ⟨t, ht, het⟩ := h
      rw [← het, length_entries] at hf
      obtain ⟨q, hfind, hq⟩ := ht.find2 H hf start
      rcases hq with ⟨hq, hcq⟩ | ⟨rfl, -⟩
      · refine ⟨q, hfind, (ht.holds.node_ne hq).2.1, ?_⟩
        by_contra hne
        have hqe : s.entryOf q ∈ es := het ▸ mem_entries.mpr ⟨q, hq, rfl⟩
        exact hd _ hqe e he hne start ⟨hcq.range, hcov.range⟩
      · rw [hev.none hfind] at hgone
        exact absurd he hgone
    · intro hc
      refine ⟨hd.sublist hev.sub, fun e he a ha hr => ?_⟩
      obtain ⟨q, hfind, hne, hqe⟩ := hc e (hev.sub.subset he) a ha hr
      exact hev.first q hfind hne (hqe ▸ he)

/-- **The ranges stay disjoint exactly as long as every insertion is clear**: a run of clear
insertions visits states with disjoint ranges only, and a run without a failed assertion that
does so consists of clear insertions. -/
theorem disjoint_iff_clear (H : Host) (garbage : Ptr → NodeType) (ops : List TreeOp)
    (hf : ops.length < H.fuel) :
    (Meets (TreeOp.exec H) (TreeOp.Clear H) (.init garbage) ops →
      Visits (TreeOp.exec H) DisjointRanges (.init garbage) ops) ∧
    (∀ s, runOps H ops (.init garbage) = .ok () s →
      Visits (TreeOp.exec H) DisjointRanges (.init garbage) ops →
      Meets (TreeOp.exec H) (TreeOp.Clear H) (.init garbage) ops) := by
  have hinit : Ready H ops.length (.init garbage) := init_ready H garbage hf
  have hd : DisjointRanges (.init garbage) := by
    rw [disjointRanges_iff (init_stores garbage)]
    intro e he
    cases he
  generalize TreeState.init garbage = s₀ at hinit hd
  constructor
  · intro hm
    refine visits_of_meets (P := fun n s => Ready H n s ∧ DisjointRanges s) ?_ (fun _ _ h => h.2)
      ⟨hinit, hd⟩ hm
    intro n op s s' h hc hrun
    obtain ⟨es, h1, h2⟩ := h.1
    refine ⟨?_, (exec_disjoint H h1 (by omega) h.2 hrun).mpr hc⟩
    rcases h.1.exec op with ⟨s₁, h3, h4⟩ | ⟨e, s₁, h3, -⟩
    · rw [h3] at hrun
      injection hrun with _ hrun
      exact hrun ▸ h4
    · rw [h3] at hrun
      cases hrun
  · intro s hrun hv
    induction ops generalizing s₀ with
    | nil => trivial
    | cons op ops ih =>
      obtain ⟨s₁, h1, h2⟩ := runAll_cons_inv hrun
      obtain ⟨es, h3, h4⟩ := hinit
      have hd₁ := (hv.2 s₁ h1).head
      refine ⟨(exec_disjoint H h3 (by simp at h4; omega) hd h1).mp hd₁, fun s' hs' => ?_⟩
      rw [h1] at hs'
      injection hs' with _ hs'
      subst hs'
      have hr : Ready H (ops.length + 1) s₀ := ⟨es, h3, h4⟩
      rcases hr.exec op with ⟨s₂, h5, h6⟩ | ⟨e, s₂, h5, -⟩
      · rw [h1] at h5
        injection h5 with _ h5
        subst h5
        exact ih (by simp at hf; omega) _ h6 hd₁ h2 (hv.2 _ h1)
      · rw [h1] at h5
        cases h5

/-- ten bytes at 100, then twenty bytes at 95 -/
def coveringOps : List TreeOp := [.insert 100 10 noRecord, .insert 95 20 noRecord]

/-- the older object survives under the newer one -/
theorem overlapping_objects : ∃ s, runOps (.bump 4) coveringOps (.init blank) = .ok () s ∧
    ¬ DisjointRanges s := by
  have hrun := eq_ok (r := runOps (.bump 4) coveringOps (.init blank)) (by decide)
  obtain ⟨s, hs⟩ : ∃ s, s = stateOf (runOps (.bump 4) coveringOps (.init blank)) := ⟨_, rfl⟩
  rw [← hs] at hrun
  obtain ⟨s₁, es, ⟨t, ht, -⟩, hrun₁⟩ := runOps_stores (.bump 4) blank coveringOps (by decide)
  have e : s₁ = s := by
    rcases hrun₁ with hrun₁ | hrun₁
    · rw [hrun] at hrun₁
      injection hrun₁ with _ h
      exact h.symm
    · rw [hrun] at hrun₁
      cases hrun₁
  subst e
  have hroot : s₁.root = .cell 1 := by rw [hs]; decide
  have hleft : (s₁.mem (.cell 1)).child .left = .cell 2 := by rw [hs]; decide
  have hp : Ptr.cell 1 ∈ t.ptrs := hroot ▸ ht.root_mem (by rw [hroot]; decide)
  have hq : Ptr.cell 2 ∈ t.ptrs := hleft ▸ (ht.child hp .left (by rw [hleft]; decide)).1
  have h1 : (s₁.entryOf (.cell 1)).range 100 := by rw [hs]; unfold Entry.range; decide
  have h2 : (s₁.entryOf (.cell 2)).range 100 := by rw [hs]; unfold Entry.range; decide
  exact ⟨s₁, hrun, fun hd => hd t ht _ hp _ hq (by decide) 100 ⟨h1, h2⟩⟩

lemma clearAt_init (garbage : Ptr → NodeType) (start size : KeyType)
    (hf : 0 < H.fuel) : ClearAt H start size (.init garbage) := by
  rw [clearAt_iff H (init_stores garbage) hf]
  intro e he
  cases he

lemma clearAt_of_live {start size : KeyType} (h : ∀ n ∈ s.live, ∀ a, a - start < size →
    (s.entryOf (.cell n)).range a → dsCodeRbtFind2 H start s = .ok (.cell n) s) :
    ClearAt H start size s := by
  intro t ht q hq a ha hr
  obtain ⟨h1, h2, h3⟩ := ht.holds.node_ne hq
  cases q with
  | null => exact absurd rfl h2
  | sentinel => exact absurd rfl h1
  | cell n => exact h n h3 a ha hr

/-- two objects, and a third one over the first -/
theorem disjoint_iff_clear_three : Visits (TreeOp.exec (.bump 4)) DisjointRanges (.init blank)
    [.insert 100 10 noRecord, .insert 200 8 noRecord, .insert 105 20 noRecord] := by
  refine (disjoint_iff_clear (.bump 4) blank _ (by decide)).1 ⟨clearAt_init _ _ _ _ (by decide),
    fun s₁ h₁ => ⟨?_, fun s₂ h₂ => ⟨?_, fun _ _ => trivial⟩⟩⟩
  all_goals
    obtain rfl : stateOf (TreeOp.exec (.bump 4) (.insert 100 10 noRecord) (.init blank)) = s₁ := by
      rw [h₁]
      rfl
  · refine clearAt_of_live _ (List.forall_mem_singleton.mpr fun a ha hr => ?_)
    have hr : a - 100 < 10 := hr
    bv_omega
  · obtain rfl : stateOf (TreeOp.exec (.bump 4) (.insert 200 8 noRecord)
        (stateOf (TreeOp.exec (.bump 4) (.insert 100 10 noRecord) (.init blank)))) = s₂ := by
      rw [h₂]
      rfl
    refine clearAt_of_live _ (List.forall_mem_cons.mpr ⟨fun a ha hr => ?_,
      List.forall_mem_singleton.mpr fun a ha hr => rfl⟩)
    have hr : a - 200 < 8 := hr
    bv_omega

end
end RevSem
