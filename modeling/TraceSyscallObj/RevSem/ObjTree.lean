import TraceSyscallObj.RevSem.RbErase

/-!
# The interface of the object tree

`Stores s es`: the memory `s` holds a red-black search tree whose entries are `es`, from left to
right.  Each function of the interface is specified on these lists:

* `IsRbTree.find2`: a lookup returns an entry that covers the address, and misses an entry only
  behind another one that starts in between (`Missed`);
* `eraseLoop_spec`: the eviction loop removes what it finds, until there is nothing to find
  (`Evicts`);
* `dsCodeAllDeleteRb_spec`, `dsCodeAllInsertRb_spec`.
-/

namespace RevSem
open List PTree Run

/-- the test of `ds_code_rbtFind2`; the sum wraps -/
def Entry.covers (e : Entry) (a : KeyType) : Prop := e.key ≤ a ∧ a < e.key + e.size

instance (e : Entry) (a : KeyType) : Decidable (e.covers a) :=
  inferInstanceAs (Decidable (_ ∧ _))

def TreeState.entries (s : TreeState) (t : CTree Ptr) : List Entry :=
  (s.records t).map Record.toEntry

def TreeState.entryOf (s : TreeState) (p : Ptr) : Entry := (s.record p).toEntry

/-- a lookup of `a` may miss an entry only if another one starts between them -/
def Missed (es : List Entry) (a : KeyType) : Prop :=
  ∀ e ∈ es, e.covers a → ∃ e' ∈ es, e.key < e'.key ∧ e'.key < a ∧ ¬ e'.covers a

def Stores (s : TreeState) (es : List Entry) : Prop := ∃ t, IsRbTree s t ∧ s.entries t = es

section
variable {s s' : TreeState} {t : CTree Ptr} {ctx : List (Frame Ptr)} {a : KeyType}
  {es es' : List Entry}

lemma entries_eq (s : TreeState) (t : CTree Ptr) : s.entries t = t.ptrs.map s.entryOf := by
  rw [TreeState.entries, TreeState.records, map_map]
  rfl

variable {e : Entry}

lemma mem_entries : e ∈ s.entries t ↔ ∃ p ∈ t.ptrs, s.entryOf p = e := by
  rw [entries_eq, mem_map]

lemma length_entries (s : TreeState) (t : CTree Ptr) : (s.entries t).length = t.ptrs.length := by
  rw [entries_eq, length_map]

lemma Missed.not_covers (h : Missed es e.key) (he : e ∈ es) : ¬ e.covers e.key := by
  intro hc
  obtain ⟨e', -, h1, h2, -⟩ := h e he hc
  bv_omega

/-! ## looking up -/

/-- the search, on the tree -/
def searchIn (s : TreeState) (a : KeyType) : CTree Ptr → Ptr
  | .leaf => .null
  | .node _ l p r =>
    if (s.entryOf p).covers a then p
    else if a ≤ s.keyOf p then searchIn s a l
    else searchIn s a r

lemma find2Loop_eq_search (fuel : Nat) (h : Holds s.live s.links ctx t)
    (hf : t.ptrs.length < fuel) :
    find2Loop a fuel (s.links.rootOf t) s = .ok (searchIn s a t) s := by
  induction t generalizing ctx fuel with
  | leaf =>
    obtain ⟨fuel, rfl⟩ : ∃ m, fuel = m + 1 := ⟨fuel - 1, by omega⟩
    rfl
  | node c l p r ihl ihr =>
    obtain ⟨fuel, rfl⟩ : ∃ m, fuel = m + 1 := ⟨fuel - 1, by omega⟩
    have hlen : l.ptrs.length + (r.ptrs.length + 1) < fuel + 1 := by simpa [CTree.ptrs] using hf
    have hm : Holds s.live s.links ctx (CTree.mk .left c l p r) := h
    obtain ⟨hp1, -, hp3⟩ := h.node_ne (p := p) (by simp [CTree.ptrs])
    show find2Loop a (fuel + 1) p s = _
    rw [find2Loop, if_pos hp1, bind_ok (load_ok hp3), searchIn]
    by_cases hc : (s.entryOf p).covers a
    · rw [if_pos hc, if_pos (show (s.mem p).key ≤ a ∧ a < (s.mem p).key + (s.mem p).size from hc)]
      rfl
    rw [if_neg hc, if_neg (show ¬ ((s.mem p).key ≤ a ∧ a < (s.mem p).key + (s.mem p).size) from hc)]
    show find2Loop a fuel (s.links.child p (if a ≤ s.keyOf p then .left else .right)) s = _
    by_cases hle : a ≤ s.keyOf p
    · rw [if_pos hle, if_pos hle, hm.cell.2.2.1]
      exact ihl fuel hm.down (by omega)
    · rw [if_neg hle, if_neg hle, show s.links.child p .right = _ from hm.cell.2.2.2]
      exact ihr fuel hm.down_flip (by omega)

lemma searchIn_spec (ho : Ordered s.keyOf t) :
    searchIn s a t ∈ t.ptrs ∧ (s.entryOf (searchIn s a t)).covers a ∨
      searchIn s a t = .null ∧ Missed (s.entries t) a := by
  induction t with
  | leaf => exact .inr ⟨rfl, fun e he => by simp [entries_eq, CTree.ptrs] at he⟩
  | node c l p r ihl ihr =>
    obtain ⟨hkl, hkr⟩ := Ordered.node (show Ordered s.keyOf (plug [] _) from ho)
    obtain ⟨hol, hor⟩ := ho.subtrees
    have hent : s.entries (.node c l p r) = s.entries l ++ s.entryOf p :: s.entries r := by
      simp [entries_eq, CTree.ptrs]
    rw [searchIn]
    by_cases hc : (s.entryOf p).covers a
    · rw [if_pos hc]
      exact .inl ⟨by simp [CTree.ptrs], hc⟩
    rw [if_neg hc]
    by_cases hle : a ≤ s.keyOf p
    · rw [if_pos hle]
      rcases ihl hol with ⟨h2, h3⟩ | ⟨h2, h3⟩
      · exact .inl ⟨by simp [CTree.ptrs, h2], h3⟩
      refine .inr ⟨h2, fun e he hcov => ?_⟩
      rw [hent, mem_append, mem_cons] at he
      rcases he with he | rfl | he
      · obtain ⟨e', he', h4⟩ := h3 e he hcov
        exact ⟨e', by rw [hent]; exact mem_append_left _ he', h4⟩
      · exact absurd hcov hc
      · obtain ⟨q', hq', rfl⟩ := mem_entries.mp he
        have h5 : s.keyOf p < s.keyOf q' := hkr q' hq'
        have h6 : s.keyOf q' ≤ a := hcov.1
        bv_omega
    · have hgt : s.keyOf p < a := by bv_omega
      rw [if_neg hle]
      rcases ihr hor with ⟨h2, h3⟩ | ⟨h2, h3⟩
      · exact .inl ⟨by simp [CTree.ptrs, h2], h3⟩
      refine .inr ⟨h2, fun e he hcov => ?_⟩
      rw [hent, mem_append, mem_cons] at he
      rcases he with he | rfl | he
      · obtain ⟨q', hq', rfl⟩ := mem_entries.mp he
        exact ⟨s.entryOf p, by rw [hent]; simp, hkl q' hq', hgt, hc⟩
      · exact absurd hcov hc
      · obtain ⟨e', he', h4⟩ := h3 e he hcov
        exact ⟨e', by rw [hent]; exact mem_append_right _ (mem_cons_of_mem _ he'), h4⟩

variable {p : Ptr}

lemma Holds.find2_search {H : Host} (h : Holds s.live s.links [] t) (hf : t.ptrs.length < H.fuel)
    (a : KeyType) : dsCodeRbtFind2 H a s = .ok (searchIn s a t) s := by
  rw [dsCodeRbtFind2, bind_ok h.getRoot_ok]
  exact find2Loop_eq_search H.fuel h hf

lemma searchIn_congr (h : ∀ q ∈ t.ptrs, (s'.entryOf q).covers a ↔ (s.entryOf q).covers a)
    (hk : s'.keyOf = s.keyOf) : searchIn s' a t = searchIn s a t := by
  induction t with
  | leaf => rfl
  | node c l p r ihl ihr =>
    have hl := ihl fun q hq => h q (by simp [CTree.ptrs, hq])
    have hr := ihr fun q hq => h q (by simp [CTree.ptrs, hq])
    have hp := h p (by simp [CTree.ptrs])
    unfold searchIn
    rw [hk, hl, hr]
    simp only [hp]

variable (H : Host)

/-- **What a lookup returns.** -/
theorem IsRbTree.find2 (h : IsRbTree s t) (hf : t.ptrs.length < H.fuel) (a : KeyType) :
    ∃ p, dsCodeRbtFind2 H a s = .ok p s ∧
      (p ∈ t.ptrs ∧ (s.entryOf p).covers a ∨ p = .null ∧ Missed (s.entries t) a) :=
  ⟨_, h.holds.find2_search hf a, searchIn_spec h.ordered⟩

lemma Stores.find2 (h : Stores s es) (hf : es.length < H.fuel) (a : KeyType) :
    ∃ p, dsCodeRbtFind2 H a s = .ok p s ∧
      (p ≠ .null ∧ p.validIn s.live ∧ s.entryOf p ∈ es ∧ (s.entryOf p).covers a ∨
        p = .null ∧ Missed es a) := by
  obtain ⟨t, ht, rfl⟩ := h
  rw [length_entries] at hf
  obtain ⟨p, hfind, ⟨hp, hc⟩ | hmiss⟩ := ht.find2 H hf a
  · obtain ⟨-, hne, hv⟩ := ht.holds.node_ne hp
    exact ⟨p, hfind, .inl ⟨hne, hv, mem_entries.mpr ⟨p, hp, rfl⟩, hc⟩⟩
  · exact ⟨p, hfind, .inr hmiss⟩

lemma Stores.of_find2 {H : Host} (h : Stores s es) (hf : es.length < H.fuel)
    (hfind : dsCodeRbtFind2 H a s = .ok p s) (hne : p ≠ .null) :
    s.entryOf p ∈ es ∧ (s.entryOf p).covers a := by
  obtain ⟨q, hq, hcase⟩ := h.find2 H hf a
  rw [hfind] at hq
  injection hq with hq
  subst hq
  obtain ⟨-, -, hmem, hc⟩ := hcase.resolve_right (fun k => hne k.1)
  exact ⟨hmem, hc⟩

/-! ## erasing -/

lemma IsRbTree.keys (h : IsRbTree s t) : ((s.entries t).map Entry.key).Pairwise (· < ·) :=
  (ordered_iff s t).mp h.ordered

lemma Stores.keys (h : Stores s es) : (es.map Entry.key).Pairwise (· < ·) := by
  obtain ⟨t, ht, rfl⟩ := h
  exact ht.keys

lemma eq_of_key {e' : Entry} (h : (es.map Entry.key).Pairwise (· < ·)) (he : e ∈ es)
    (he' : e' ∈ es) (hk : e.key = e'.key) : e = e' := by
  have hn : (es.map Entry.key).Nodup := h.imp (fun hlt e => by bv_omega)
  exact inj_on_of_nodup_map hn he he' hk

variable {A B : List Entry}

lemma mem_middle {n x : Entry} : x ∈ A ++ n :: B ↔ x = n ∨ x ∈ A ++ B :=
  List.perm_middle.mem_iff.trans mem_cons

lemma key_ne_middle {n x : Entry} (h : ((A ++ n :: B).map Entry.key).Pairwise (· < ·))
    (hx : x ∈ A ++ B) : x.key ≠ n.key := by
  rw [map_append] at h
  obtain ⟨-, h2, h3⟩ := List.pairwise_append.mp h
  rcases List.mem_append.mp hx with hA | hB
  · have := h3 _ (mem_map_of_mem hA) _ (mem_cons_self ..)
    bv_omega
  · have := (List.pairwise_cons.mp h2).1 _ (mem_map_of_mem hB)
    bv_omega

lemma IsRbTree.erase (h : IsRbTree s t) (hp : p ∈ t.ptrs) (hf : t.ptrs.length < H.fuel) :
    ∃ s' A B, rbtErase H p s = .ok .ok s' ∧ Stores s' (A ++ B) ∧
      s.entries t = A ++ s.entryOf p :: B ∧ (A ++ B).length < t.ptrs.length := by
  obtain ⟨s', t', A, B, h1, h2, h3, h4⟩ := rbtErase_spec H h hp hf
  have hsplit : s.entries t = A.map Record.toEntry ++ s.entryOf p :: B.map Record.toEntry := by
    rw [TreeState.entries, h3, map_append]
    rfl
  refine ⟨s', A.map Record.toEntry, B.map Record.toEntry, h1, ⟨t', h2, ?_⟩, hsplit, ?_⟩
  · rw [TreeState.entries, h4.entries, map_append]
  · rw [← length_entries s t, hsplit]
    simp only [length_append, length_cons]
    omega

/-- **What the eviction loop at `a` leaves of `es`.** -/
structure Evicts (H : Host) (s : TreeState) (a : KeyType) (es es' : List Entry) : Prop where
  sub : es'.Sublist es
  covered : ∀ e ∈ es, e ∈ es' ∨ e.covers a
  missed : Missed es' a
  none : dsCodeRbtFind2 H a s = .ok .null s → es' = es
  first : ∀ p, dsCodeRbtFind2 H a s = .ok p s → p ≠ .null → s.entryOf p ∉ es'

lemma Evicts.refl (hfind : dsCodeRbtFind2 H a s = .ok .null s) (hm : Missed es a) :
    Evicts H s a es es := by
  refine ⟨List.Sublist.refl _, fun e he => .inl he, hm, fun _ => rfl, fun p hp hne => ?_⟩
  rw [hfind] at hp
  injection hp with hp
  exact absurd hp.symm hne

lemma Evicts.step (h : IsRbTree s t) (hfind : dsCodeRbtFind2 H a s = .ok p s)
    (hne : p ≠ .null) (hc : (s.entryOf p).covers a) (he : s.entries t = A ++ s.entryOf p :: B)
    (hev : Evicts H s' a (A ++ B) es') : Evicts H s a (s.entries t) es' := by
  have hkeys := h.keys
  rw [he] at hkeys
  refine ⟨?_, fun e hmem => ?_, hev.missed, fun hn => ?_, fun q hq _ => ?_⟩
  · rw [he]
    refine hev.sub.trans ?_
    exact (List.Sublist.refl A).append (sublist_cons_self _ B)
  · rw [he] at hmem
    rcases mem_middle.mp hmem with rfl | hmem
    · exact .inr hc
    · exact hev.covered e hmem
  · rw [hfind] at hn
    injection hn with hn
    exact absurd hn hne
  · rw [hfind] at hq
    injection hq with hq
    rw [← hq]
    exact fun hmem => key_ne_middle hkeys (hev.sub.subset hmem) rfl

/-- **The eviction loop ends, with nothing left to find.** -/
theorem eraseLoop_spec (a : KeyType) (fuel : Nat) (h : Stores s es)
    (hf : es.length < fuel) (hH : es.length < H.fuel) :
    ∃ s' es', eraseLoop H a fuel s = .ok () s' ∧ Stores s' es' ∧ Evicts H s a es es' := by
  induction fuel generalizing s es with
  | zero => omega
  | succ fuel ih =>
    obtain ⟨t, ht, rfl⟩ := h
    rw [length_entries] at hf hH
    obtain ⟨p, hfind, hp⟩ := ht.find2 H hH a
    rcases hp with ⟨hp, hc⟩ | ⟨rfl, hm⟩
    · have hne := (ht.holds.node_ne hp).2.1
      obtain ⟨s₁, A, B, h1, h2, h3, h4⟩ := ht.erase H hp hH
      obtain ⟨s', es', h5, h6, h7⟩ := ih h2 (by omega) (by omega)
      refine ⟨s', es', ?_, h6, Evicts.step H ht hfind hne hc h3 h7⟩
      rw [eraseLoop, bind_ok hfind, if_neg hne, bind_ok h1]
      exact h5
    · refine ⟨s, _, ?_, ⟨t, ht, rfl⟩, Evicts.refl H hfind hm⟩
      rw [eraseLoop, bind_ok hfind]
      rfl

lemma dsCodeAllDeleteRb_null (h : dsCodeRbtFind2 H a s = .ok .null s) :
    dsCodeAllDeleteRb H a s = .ok () s := by
  rw [dsCodeAllDeleteRb, bind_ok h]
  rfl

/-- a deletion is one more round of the loop -/
lemma dsCodeAllDeleteRb_eq (h : dsCodeRbtFind2 H a s = .ok p s) :
    dsCodeAllDeleteRb H a s = eraseLoop H a (H.fuel + 1) s := by
  rw [dsCodeAllDeleteRb, eraseLoop, bind_ok h, bind_ok h]
  by_cases hp : p = .null
  · rw [if_pos hp, if_neg (fun k => k hp)]
  · rw [if_neg hp, if_pos hp]
    rfl

/-- **Deleting an address evicts the objects found at it.** -/
theorem dsCodeAllDeleteRb_spec (a : KeyType) (h : Stores s es) (hH : es.length < H.fuel) :
    ∃ s' es', dsCodeAllDeleteRb H a s = .ok () s' ∧ Stores s' es' ∧ Evicts H s a es es' := by
  obtain ⟨p, hfind, -⟩ := h.find2 H hH a
  rw [dsCodeAllDeleteRb_eq H hfind]
  exact eraseLoop_spec H a (H.fuel + 1) h (by omega) hH

/-! ## inserting -/

def newEntry (a size : KeyType) (p : Record) : Entry := (newRecord a size p).toEntry

lemma rbtInsert2_spec (a size : KeyType) (p : Record) (h : Stores s es) (hH : es.length < H.fuel) :
    ∃ s' es', Evicts H s a es es' ∧
      ((∃ e st, e ∈ es' ∧ e.key = a ∧ st ≠ .ok ∧ rbtInsert2 H a size p s = .ok st s' ∧
          Stores s' es') ∨
        ∃ A B, rbtInsert2 H a size p s = .ok .ok s' ∧ es' = A ++ B ∧
          Stores s' (A ++ newEntry a size p :: B)) := by
  obtain ⟨s₁, es', h1, h2, h3⟩ := eraseLoop_spec H a H.fuel h hH hH
  have hlen := h3.sub.length_le
  obtain ⟨t, ht, he⟩ := h2
  have hlen' : t.ptrs.length < H.fuel := by
    rw [← length_entries s₁ t, he]
    omega
  rcases rbtInsert_spec H ht hlen' a size p with h5 | h5
  · obtain ⟨q, st, hq, hk, hst, hrun⟩ := h5
    refine ⟨s₁, es', h3, .inl ⟨s₁.entryOf q, st, ?_, hk, hst, ?_, ⟨t, ht, he⟩⟩⟩
    · rw [← he]
      exact mem_entries.mpr ⟨q, hq, rfl⟩
    · rw [rbtInsert2, bind_ok h1]
      exact hrun
  · obtain ⟨s₂, t₂, A, B, hrun, h6, h7, h8⟩ := h5
    refine ⟨s₂, es', h3,
      .inr ⟨A.map Record.toEntry, B.map Record.toEntry, ?_, ?_, t₂, h6, ?_⟩⟩
    · rw [rbtInsert2, bind_ok h1]
      exact hrun
    · rw [← he, TreeState.entries, h7, map_append]
    · rw [TreeState.entries, h8, map_append]
      rfl

/-- the database after `set_createSys` -/
def TreeState.created (s : TreeState) (obj : BitVec 64) (data : DataIntem) : TreeState :=
  match s.database obj with
  | some _ => s
  | none => { s with database := fun t => if t = obj then some data else s.database t }

lemma Stores.created (h : Stores s es) (obj : BitVec 64) (data : DataIntem) :
    Stores (s.created obj data) es := by
  unfold TreeState.created
  split
  · exact h
  · obtain ⟨t, ht, he⟩ := h
    exact ⟨t, ⟨ht.holds, ht.balanced, ht.ordered⟩, he⟩

variable {q : Ptr}

lemma Stores.created_find2 (h : Stores s es) (hf : es.length < H.fuel) (obj : BitVec 64)
    (data : DataIntem) (hq : dsCodeRbtFind2 H a s = .ok q s) :
    dsCodeRbtFind2 H a (s.created obj data) = .ok q (s.created obj data) := by
  obtain ⟨t, ht, rfl⟩ := h
  rw [length_entries] at hf
  have hany : ∀ db, dsCodeRbtFind2 H a { s with database := db } =
      .ok (searchIn s a t) { s with database := db } := by
    intro db
    rw [Holds.find2_search (s := { s with database := db }) ht.holds hf]
    exact congrArg (EStateM.Result.ok · _) (searchIn_congr (fun _ _ => Iff.rfl) rfl)
  injection (hany s.database).symm.trans hq with hq'
  unfold TreeState.created
  split
  · exact hq
  · rw [hany, hq']

/-- **Inserting an object evicts at its start address**; the assertion fails exactly when an
object that no lookup can find starts there. -/
theorem dsCodeAllInsertRb_spec (a size : KeyType) (p : Record) (h : Stores s es)
    (hH : es.length < H.fuel) :
    ∃ s' es', Evicts H s a es es' ∧
      ((∃ e, e ∈ es' ∧ e.key = a ∧ dsCodeAllInsertRb H a size p s = .error .insertAssert s' ∧
          Stores s' es') ∨
        ∃ A B, dsCodeAllInsertRb H a size p s = .ok () s' ∧ es' = A ++ B ∧
          Stores s' (A ++ newEntry a size p :: B)) := by
  obtain ⟨data, hd⟩ : ∃ data : DataIntem, data = ⟨p.pc, size, p.objName.val⟩ := ⟨_, rfl⟩
  have hcreate : setCreateSys p.type data s = .ok () (s.created p.type data) := rfl
  obtain ⟨s', es', h1, h2⟩ := rbtInsert2_spec H a size p (h.created p.type data) hH
  have hev : Evicts H s a es es' := by
    refine ⟨h1.sub, h1.covered, h1.missed, fun hn => ?_, fun q hq hne => ?_⟩
    · exact h1.none (h.created_find2 H hH _ _ hn)
    · have hfirst := h1.first q (h.created_find2 H hH _ _ hq) hne
      unfold TreeState.created at hfirst
      split at hfirst
      · exact hfirst
      · exact hfirst
  rw [hd] at hcreate h2
  refine ⟨s', es', hev, ?_⟩
  rcases h2 with ⟨e, st, he, hk, hst, hrun, hs'⟩ | ⟨A, B, hrun, he, hs'⟩
  · refine .inl ⟨e, he, hk, ?_, hs'⟩
    rw [dsCodeAllInsertRb, bind_ok hcreate, bind_ok hrun, if_pos hst]
    rfl
  · refine .inr ⟨A, B, ?_, he, hs'⟩
    rw [dsCodeAllInsertRb, bind_ok hcreate, bind_ok hrun]
    rfl

end
end RevSem
