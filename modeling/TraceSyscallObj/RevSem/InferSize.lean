import TraceSyscallObj.RevSem.Edges

/-!
# Sizes inferred from accesses (`infer_size.c`)

An access that falls into an object sets the size of its node from the end of the access; the
maximum over a type is kept in the database.  The lookup that assigns an access to an object uses
the sizes that the accesses write.

* `handleMemAccess`: the access, for either operand;
* `searchIn`: the lookup as a function on the tree;
* `SizesRight`: sizes only grow, and bytes stay with their object;
* `Access.Grows`: an access that lets the object grow, into free bytes;
* `sizesRight_of_grows`: what holds in a run of such accesses.
-/

namespace RevSem
open Function PTree Run

/-- a memory operand: its address and its length in bytes -/
structure Access where
  addr : Addr
  len : KeyType
  deriving DecidableEq, Repr

/-- the object tree with three history variables: the largest size that a node has had, the
accesses with the nodes they were assigned to, and the sizes handed to `update_traced_size` -/
structure InferState where
  tree : TreeState
  peak : Ptr → KeyType
  assigned : List (Ptr × Access)
  observed : List (Ptr × KeyType)

abbrev InferM := EStateM Fault InferState

/-- the sizes are compared as `int` -/
def updateTracedSize (obj : BitVec 64) (size : KeyType) (s : TreeState) : TreeState :=
  match s.database obj with
  | none => s
  | some data =>
    if data.size.slt size then
      { s with database := update s.database obj (some { data with size := size }) }
    else s

/-- `p->size = addr-p->key + size + 1` -/
def newSize (n : NodeType) (m : Access) : KeyType := m.addr - n.key + m.len + 1

def sizeNode (m : Access) (p : Ptr) : TreeM KeyType := do
  let n ← load p
  store p fun n => { n with size := newSize n m }
  modify (updateTracedSize n.type (newSize n m))
  pure (newSize n m)

/-- the node that the access is assigned to, with its new size -/
def accessTree (H : Host) (m : Access) : TreeM (Option (Ptr × KeyType)) := do
  let p ← dsCodeRbtFind2 H m.addr
  if p = .null then pure none
  else
    let size ← sizeNode m p
    pure (some (p, size))

def InferState.note (σ : InferState) (m : Access) (p : Ptr) (size : KeyType) : InferState :=
  { σ with
    peak := update σ.peak p (if σ.peak p < size then size else σ.peak p)
    assigned := (p, m) :: σ.assigned
    observed := (p, size) :: σ.observed }

def takeAccess (H : Host) (m : Access) : InferM Unit := fun σ =>
  match accessTree H m σ.tree with
  | .ok none t => .ok () { σ with tree := t }
  | .ok (some (p, size)) t => .ok () ({ σ with tree := t }.note m p size)
  | .error f t => .error f { σ with tree := t }

/-- `none`: the operand is not in memory -/
def handleMemAccess (H : Host) : Option Access → InferM Unit
  | none => pure ()
  | some m => takeAccess H m

def dsCodeHandleMemAccess0 (H : Host) (op0 : Option Access) : InferM Unit := handleMemAccess H op0

def dsCodeHandleMemAccess1 (H : Host) (op1 : Option Access) : InferM Unit := handleMemAccess H op1

inductive InferOp where
  | access0 (op : Option Access)
  | access1 (op : Option Access)
  deriving DecidableEq, Repr

def InferOp.exec (H : Host) : InferOp → InferM Unit
  | .access0 op => dsCodeHandleMemAccess0 H op
  | .access1 op => dsCodeHandleMemAccess1 H op

def InferOp.operand : InferOp → Option Access
  | .access0 op | .access1 op => op

def InferState.start (s : TreeState) : InferState := ⟨s, fun p => (s.mem p).size, [], []⟩

def Access.has (m : Access) (b : Addr) : Prop :=
  m.addr.toNat ≤ b.toNat ∧ b.toNat < m.addr.toNat + m.len.toNat

/-- **No size has decreased, every byte assigned to an object is found there, and no object is
smaller than a size observed for it.** -/
structure SizesRight (H : Host) (t : CTree Ptr) (σ : InferState) : Prop where
  kept : ∀ p ∈ t.ptrs, σ.peak p ≤ (σ.tree.mem p).size
  found : ∀ pm ∈ σ.assigned, ∀ b, pm.2.has b → dsCodeRbtFind2 H b σ.tree = .ok pm.1 σ.tree
  seen : ∀ pn ∈ σ.observed, pn.2 ≤ (σ.tree.mem pn.1).size

/-- what makes an access to the object `p` harmless, on the state before it -/
structure GrowsAt (H : Host) (t : CTree Ptr) (s : TreeState) (m : Access) (p : Ptr) : Prop where
  /-- the access reaches the last byte of the object or goes past it -/
  grows : (s.entryOf p).stop ≤ m.addr.toNat + m.len.toNat + 1
  fits : m.addr.toNat + m.len.toNat + 1 < 2 ^ 32
  /-- the bytes that the object gains are found nowhere -/
  free : ∀ b : Addr, (s.entryOf p).stop ≤ b.toNat → b.toNat ≤ m.addr.toNat + m.len.toNat →
    foundAt H s b = .null
  /-- an accessed byte is found in the object already, or it is gained and no object starts
  before it behind the start of this one -/
  reached : ∀ b, m.has b → foundAt H s b = p ∨ (s.entryOf p).stop ≤ b.toNat ∧
    ∀ q ∈ t.ptrs, ¬ (s.keyOf p < s.keyOf q ∧ s.keyOf q ≤ b)

def Access.Grows (H : Host) (t : CTree Ptr) (m : Access) (s : TreeState) : Prop :=
  foundAt H s m.addr ≠ .null → GrowsAt H t s m (foundAt H s m.addr)

def InferOp.Grows (H : Host) (t : CTree Ptr) (i : InferOp) (σ : InferState) : Prop :=
  ∀ m, i.operand = some m → m.Grows H t σ.tree

/-! ## the lookup on the tree -/

section search
variable {H : Host} {s s' : TreeState} {t : CTree Ptr}
  {a b : KeyType} {p q : Ptr}

section
variable (hother : ∀ q ≠ p, (s'.entryOf q).covers a ↔ (s.entryOf q).covers a)
include hother

lemma searchIn_grow (hmore : (s.entryOf p).covers a → (s'.entryOf p).covers a)
    (hk : s'.keyOf = s.keyOf) (h : searchIn s a t = p) (hne : p ≠ .null) : searchIn s' a t = p := by
  induction t with
  | leaf => exact absurd h.symm hne
  | node c l x r ihl ihr =>
    unfold searchIn at h ⊢
    by_cases hc' : (s'.entryOf x).covers a
    · rw [if_pos hc']
      by_contra hx
      rw [if_pos ((hother x hx).mp hc')] at h
      exact hx h
    have hc : ¬ (s.entryOf x).covers a := by
      intro hc
      rw [if_pos hc] at h
      exact hc' (h ▸ hmore (h ▸ hc))
    rw [if_neg hc] at h
    rw [if_neg hc', hk]
    by_cases hle : a ≤ s.keyOf x
    · rw [if_pos hle] at h ⊢
      exact ihl h
    · rw [if_neg hle] at h ⊢
      exact ihr h

lemma searchIn_gain (hcov : (s'.entryOf p).covers a) (hk : s'.keyOf = s.keyOf)
    (ho : Ordered s.keyOf t) (hmem : p ∈ t.ptrs) (hnot : ∀ q ∈ t.ptrs, q ≠ .null)
    (h : searchIn s a t = .null) (hnear : ∀ q ∈ t.ptrs, ¬ (s.keyOf p < s.keyOf q ∧ s.keyOf q ≤ a)) :
    searchIn s' a t = p := by
  induction t with
  | leaf => cases hmem
  | node c l x r ihl ihr =>
    have hx : x ∈ (CTree.node c l x r).ptrs := by simp [CTree.ptrs]
    have hl : ∀ q ∈ l.ptrs, q ∈ (CTree.node c l x r).ptrs := fun q hq => by simp [CTree.ptrs, hq]
    have hr : ∀ q ∈ r.ptrs, q ∈ (CTree.node c l x r).ptrs := fun q hq => by simp [CTree.ptrs, hq]
    have hpa : s.keyOf p ≤ a := by
      rw [← hk]
      exact hcov.1
    unfold searchIn at h ⊢
    by_cases hxp : x = p
    · rw [hxp, if_pos hcov]
    by_cases hc : (s.entryOf x).covers a
    · rw [if_pos hc] at h
      exact absurd h (hnot x hx)
    have hc' : ¬ (s'.entryOf x).covers a := fun hc' => hc ((hother x hxp).mp hc')
    rw [if_neg hc] at h
    rw [if_neg hc', hk]
    obtain ⟨hol, hor⟩ := ho.subtrees
    have hnode : Ordered s.keyOf (plug [] (.node c l x r)) := ho
    obtain ⟨hkl, hkr⟩ := hnode.node
    rw [CTree.ptrs, List.mem_append, List.mem_cons] at hmem
    rcases hmem with hmem | rfl | hmem
    · -- `p` lies to the left, and `x` is not between `p` and the byte
      have hlt := hkl p hmem
      have hle : a ≤ s.keyOf x := by
        have := hnear x hx
        bv_omega
      rw [if_pos hle] at h ⊢
      exact ihl hol hmem (fun q hq => hnot q (hl q hq)) h fun q hq => hnear q (hl q hq)
    · exact absurd rfl hxp
    · have hlt := hkr p hmem
      have hle : ¬ a ≤ s.keyOf x := by bv_omega
      rw [if_neg hle] at h ⊢
      exact ihr hor hmem (fun q hq => hnot q (hr q hq)) h fun q hq => hnear q (hr q hq)

end

end search

/-! ## one access -/

/-- `s'` is `s` with another size in the node `p` -/
structure Resized (s s' : TreeState) (p : Ptr) (n : KeyType) : Prop where
  live : s'.live = s.live
  links : s'.links = s.links
  key : s'.keyOf = s.keyOf
  self : s'.entryOf p = { s.entryOf p with size := n }
  other : ∀ q ≠ p, s'.entryOf q = s.entryOf q

section access
variable {H : Host} {s s' : TreeState} {t : CTree Ptr} {m : Access} {p q : Ptr} {b : Addr}
  {n : KeyType} {σ σ' : InferState}

lemma store_resized (s : TreeState) (p : Ptr) (m : Access) :
    Resized s (s.store p fun n => { n with size := newSize n m }) p (newSize (s.mem p) m) := by
  refine ⟨rfl, store_links s p fun _ => ⟨rfl, rfl, rfl, rfl⟩, ?_, ?_, ?_⟩
  · funext q
    show (if q = p then _ else s.mem q : NodeType).key = (s.mem q).key
    by_cases h : q = p <;> simp [h]
  · show (if p = p then _ else s.mem p : NodeType).toEntry = _
    rw [if_pos rfl]
    rfl
  · intro q hq
    show (if q = p then _ else s.mem q : NodeType).toEntry = _
    rw [if_neg hq]
    rfl

lemma updateTracedSize_resized (h : Resized s s' p n) (obj : BitVec 64) (size : KeyType) :
    Resized s (updateTracedSize obj size s') p n := by
  unfold updateTracedSize
  split
  · exact h
  · split
    · exact ⟨h.live, h.links, h.key, h.self, h.other⟩
    · exact h

section
variable (hr : Resized s s' p n)
include hr

lemma Resized.isSearchTree (h : IsSearchTree s t) : IsSearchTree s' t := by
  refine ⟨?_, ?_⟩
  · rw [hr.live, hr.links]
    exact h.holds
  · rw [hr.key]
    exact h.ordered

lemma Resized.size_self : (s'.mem p).size = n :=
  congrArg Entry.size hr.self

lemma Resized.size_other (hq : q ≠ p) : (s'.mem q).size = (s.mem q).size :=
  congrArg Entry.size (hr.other q hq)

lemma Resized.covers_other (hq : q ≠ p) : (s'.entryOf q).covers b ↔ (s.entryOf q).covers b := by
  rw [hr.other q hq]

end

lemma sizeNode_ok (m : Access) (hp : p.validIn s.live) :
    ∃ s', sizeNode m p s = .ok (newSize (s.mem p) m) s' ∧
      Resized s s' p (newSize (s.mem p) m) := by
  refine ⟨_, ?_, updateTracedSize_resized (store_resized s p m) (s.mem p).type
    (newSize (s.mem p) m)⟩
  unfold sizeNode
  rw [bind_ok (load_ok hp), bind_ok (store_ok hp)]
  rfl

lemma accessTree_spec (h : IsSearchTree s t) (hf : t.ptrs.length < H.fuel) (m : Access) :
    foundAt H s m.addr = .null ∧ accessTree H m s = .ok none s ∨
      foundAt H s m.addr ∈ t.ptrs ∧ (s.entryOf (foundAt H s m.addr)).covers m.addr ∧
      ∃ s', accessTree H m s =
          .ok (some (foundAt H s m.addr, newSize (s.mem (foundAt H s m.addr)) m)) s' ∧
        Resized s s' (foundAt H s m.addr) (newSize (s.mem (foundAt H s m.addr)) m) := by
  obtain ⟨hrun, hp⟩ := h.find2_found hf m.addr
  unfold accessTree
  rw [bind_ok hrun]
  by_cases hnull : foundAt H s m.addr = .null
  · left
    rw [if_pos hnull]
    exact ⟨hnull, rfl⟩
  right
  obtain ⟨hmem, hcov⟩ := hp hnull
  obtain ⟨s', hs', hres⟩ := sizeNode_ok m (h.holds.node_ne hmem).2.2
  refine ⟨hmem, hcov, s', ?_, hres⟩
  rw [if_neg hnull, bind_ok hs']
  rfl

lemma grow_arith {k n a l : KeyType} (hk : k ≤ a) (ha : a < k + n)
    (hg : k.toNat + n.toNat ≤ a.toNat + l.toNat + 1) (hf : a.toNat + l.toNat + 1 < 2 ^ 32) :
    k.toNat + n.toNat < 2 ^ 32 ∧ n ≤ a - k + l + 1 ∧
      k.toNat + (a - k + l + 1).toNat = a.toNat + l.toNat + 1 := by
  refine ⟨?_, ?_, ?_⟩ <;> bv_omega

section
variable (hg : GrowsAt H t s m p) (hcov : (s.entryOf p).covers m.addr)
include hg hcov

lemma GrowsAt.range : (s.entryOf p).stop < 2 ^ 32 ∧ (s.mem p).size ≤ newSize (s.mem p) m ∧
      ((s.keyOf p).toNat + (newSize (s.mem p) m).toNat = m.addr.toNat + m.len.toNat + 1) :=
  grow_arith hcov.1 hcov.2 hg.grows hg.fits

lemma GrowsAt.covers_iff (hr : Resized s s' p (newSize (s.mem p) m)) : (s'.entryOf p).covers b ↔
      (s.entryOf p).covers b ∨ (s.entryOf p).stop ≤ b.toNat ∧
        b.toNat ≤ m.addr.toNat + m.len.toNat := by
  obtain ⟨hstop, hle, hnew⟩ := hg.range hcov
  have hgrows := hg.grows
  have hfits := hg.fits
  rw [hr.self, covers_iff_has hstop]
  have hstop' : ({ s.entryOf p with size := newSize (s.mem p) m } : Entry).stop < 2 ^ 32 := by
    show (s.keyOf p).toNat + (newSize (s.mem p) m).toNat < _
    rw [hnew]
    exact hfits
  rw [covers_iff_has hstop']
  show (s.keyOf p).toNat ≤ b.toNat ∧ b.toNat < (s.keyOf p).toNat + (newSize (s.mem p) m).toNat ↔
    (s.keyOf p).toNat ≤ b.toNat ∧ b.toNat < (s.entryOf p).stop ∨ _
  have hkey : (s.keyOf p).toNat ≤ (s.entryOf p).stop := Nat.le_add_right _ _
  omega

end

variable (hg : GrowsAt H t s m p) (hcov : (s.entryOf p).covers m.addr)
  (hr : Resized s s' p (newSize (s.mem p) m))
include hg hcov hr

section
variable (h : IsSearchTree s t) (hf : t.ptrs.length < H.fuel)
include h hf

lemma GrowsAt.search_kept (hq : searchIn s b t = q) (hne : q ≠ .null) : searchIn s' b t = q := by
  by_cases hqp : q = p
  · subst hqp
    exact searchIn_grow (fun x hx => hr.covers_other hx)
      (fun hc => (hg.covers_iff hcov hr).mpr (.inl hc)) hr.key hq hne
  refine (searchIn_congr (fun x _ => ?_) hr.key).trans hq
  by_cases hx : x = p
  · subst hx
    rw [hg.covers_iff hcov hr]
    refine ⟨fun hc => hc.resolve_right ?_, .inl⟩
    -- a byte that the object gains is found nowhere
    rintro ⟨h1, h2⟩
    have hnull := hg.free b h1 h2
    rw [h.foundAt_eq hf, hq] at hnull
    exact hne hnull
  · exact hr.covers_other hx

lemma GrowsAt.search_new (hp : p ∈ t.ptrs) (hb : m.has b) : searchIn s' b t = p := by
  have hne : p ≠ .null := (h.holds.node_ne hp).2.1
  rcases hg.reached b hb with hfound | ⟨hstop, hnear⟩
  · rw [h.foundAt_eq hf] at hfound
    exact hg.search_kept hcov hr h hf hfound hne
  have hle : b.toNat ≤ m.addr.toNat + m.len.toNat := Nat.le_of_lt hb.2
  have hnull := hg.free b hstop hle
  rw [h.foundAt_eq hf] at hnull
  exact searchIn_gain (fun x hx => hr.covers_other hx)
    ((hg.covers_iff hcov hr).mpr (.inr ⟨hstop, hle⟩)) hr.key h.ordered hp
    (fun x hx => (h.holds.node_ne hx).2.1) hnull hnear

end

omit hg hcov hr

end access

/-! ## runs -/

/-- the invariant of a run: the nodes named in the history are nodes of the tree -/
structure InferInv (H : Host) (t : CTree Ptr) (σ : InferState) : Prop extends SizesRight H t σ where
  search : IsSearchTree σ.tree t
  assigned_mem : ∀ pm ∈ σ.assigned, pm.1 ∈ t.ptrs
  observed_mem : ∀ pn ∈ σ.observed, pn.1 ∈ t.ptrs

section runs
variable {H : Host} {s : TreeState} {t : CTree Ptr} {σ : InferState}

lemma InferInv.start (h : IsSearchTree s t) : InferInv H t (.start s) where
  kept p _ := BitVec.le_refl _
  found pm hpm := by cases hpm
  seen pn hpn := by cases hpn
  search := h
  assigned_mem pm hpm := by cases hpm
  observed_mem pn hpn := by cases hpn

section
variable (hi : InferInv H t σ) (hf : t.ptrs.length < H.fuel)
include hi hf

lemma InferInv.access {m : Access} (hgrows : m.Grows H t σ.tree) :
    ∃ σ', takeAccess H m σ = .ok () σ' ∧ InferInv H t σ' := by
  unfold takeAccess
  rcases accessTree_spec hi.search hf m with ⟨-, hrun⟩ | ⟨hp, hcov, s', hrun, hr⟩
  · rw [hrun]
    exact ⟨σ, rfl, hi⟩
  have hg := hgrows (hi.search.holds.node_ne hp).2.1
  rw [hrun]
  refine ⟨_, rfl, ?_⟩
  generalize foundAt H σ.tree m.addr = p at *
  obtain ⟨-, hle, -⟩ := hg.range hcov
  have hsearch' := hr.isSearchTree hi.search
  -- no size has become smaller
  have hsize : ∀ q, (σ.tree.mem q).size ≤ (s'.mem q).size := by
    intro q
    by_cases hq : q = p
    · rw [hq, hr.size_self]
      exact hle
    · rw [hr.size_other hq]
      exact BitVec.le_refl _
  constructor
  · constructor
    · intro q hq
      show update σ.peak p _ q ≤ (s'.mem q).size
      by_cases hqp : q = p
      · subst hqp
        rw [update_self, hr.size_self]
        split
        · exact BitVec.le_refl _
        · exact BitVec.le_trans (hi.kept q hq) hle
      · rw [update_of_ne hqp]
        exact BitVec.le_trans (hi.kept q hq) (hsize q)
    · intro pm hpm b hb
      show dsCodeRbtFind2 H b s' = .ok pm.1 s'
      rw [hsearch'.holds.find2_search hf]
      rcases List.mem_cons.mp hpm with rfl | hpm
      · rw [hg.search_new hcov hr hi.search hf hp hb]
      · have hold := hi.found pm hpm b hb
        rw [hi.search.holds.find2_search hf] at hold
        injection hold with hold
        rw [hg.search_kept hcov hr hi.search hf hold
          (hi.search.holds.node_ne (hi.assigned_mem pm hpm)).2.1]
    · intro pn hpn
      show pn.2 ≤ (s'.mem pn.1).size
      rcases List.mem_cons.mp hpn with rfl | hpn
      · rw [hr.size_self]
        exact BitVec.le_refl _
      · exact BitVec.le_trans (hi.seen pn hpn) (hsize pn.1)
  · exact hsearch'
  · intro pm hpm
    rcases List.mem_cons.mp hpm with rfl | hpm
    · exact hp
    · exact hi.assigned_mem pm hpm
  · intro pn hpn
    rcases List.mem_cons.mp hpn with rfl | hpn
    · exact hp
    · exact hi.observed_mem pn hpn

lemma InferInv.step (i : InferOp) (hg : i.Grows H t σ) :
    ∃ σ', i.exec H σ = .ok () σ' ∧ InferInv H t σ' := by
  have hexec : i.exec H = handleMemAccess H i.operand := by cases i <;> rfl
  rw [hexec]
  cases hop : i.operand with
  | none => exact ⟨σ, rfl, hi⟩
  | some m => exact hi.access hf (hg m hop)

end

/-- **In every run of accesses that let their objects grow, sizes never decrease, bytes stay with
their objects, and no object is smaller than observed.** -/
theorem sizesRight_of_grows (h : IsSearchTree s t) (hf : t.ptrs.length < H.fuel)
    (ops : List InferOp) (hm : Meets (InferOp.exec H) (InferOp.Grows H t) (.start s) ops) :
    Visits (InferOp.exec H) (SizesRight H t) (.start s) ops ∧
      ∃ σ', runAll (InferOp.exec H) ops (.start s) = .ok () σ' := by
  have hstep : ∀ (n : Nat) (i : InferOp) (σ : InferState), InferInv H t σ → i.Grows H t σ →
      ∃ σ', i.exec H σ = .ok () σ' ∧ InferInv H t σ' :=
    fun _ i _ hi hg => hi.step hf i hg
  refine ⟨visits_of_ok (P := fun _ => InferInv H t) hstep (fun _ _ hi => hi.toSizesRight)
    (.start h) hm, ?_⟩
  obtain ⟨σ', hrun, -⟩ := runAll_ok (P := fun _ => InferInv H t) hstep (.start h) hm
  exact ⟨σ', hrun⟩

end runs

/-! ## accesses to the object of 16 bytes at `0xc0100000` -/

/-- the last byte and one behind it, then the next byte -/
def growing : List InferOp :=
  [.access0 (some ⟨0xc010000f, 2⟩), .access1 none, .access0 (some ⟨0xc0100011, 1⟩)]

/-- an inner word, then the first word -/
def shrinking : List InferOp :=
  [.access0 (some ⟨0xc0100008, 4⟩), .access0 (some ⟨0xc0100000, 4⟩)]

def grown : InferState :=
  stateOf (InferOp.exec (.bump 4) (.access0 (some ⟨0xc010000f, 2⟩)) (.start twoPlaces.tree))

lemma growsAt_first : GrowsAt (.bump 4) twoNodes twoPlaces.tree ⟨0xc010000f, 2⟩ (.cell 2) := by
  have hstop : (twoPlaces.tree.entryOf (.cell 2)).stop = 0xc0100010 := by
    decide
  refine ⟨by rw [hstop]; decide, by decide, fun b h1 h2 => ?_, fun b hb => ?_⟩
  · have hb : b = 0xc0100010 ∨ b = 0xc0100011 := by
      bv_omega
    rcases hb with rfl | rfl <;> decide
  · have hb' : b = 0xc010000f ∨ b = 0xc0100010 := by
      obtain ⟨h1, h2⟩ := hb
      bv_omega
    rcases hb' with rfl | rfl
    · exact .inl (by decide)
    · refine .inr ⟨by rw [hstop]; decide, by decide⟩

lemma growsAt_next : GrowsAt (.bump 4) twoNodes grown.tree ⟨0xc0100011, 1⟩ (.cell 2) := by
  have hstop : (grown.tree.entryOf (.cell 2)).stop = 0xc0100012 := by
    decide
  refine ⟨by rw [hstop]; decide, by decide, fun b h1 h2 => ?_, fun b hb => .inl ?_⟩
  · have hb : b = 0xc0100012 := by
      bv_omega
    rw [hb]
    decide
  · have hb' : b = 0xc0100011 := by
      obtain ⟨h1, h2⟩ := hb
      bv_omega
    rw [hb']
    decide

theorem sizesRight_growing :
    Visits (InferOp.exec (.bump 4)) (SizesRight (.bump 4) twoNodes) (.start twoPlaces.tree)
      growing := by
  refine (sizesRight_of_grows twoPlaces_search (by decide) growing ?_).1
  refine .cons ?_ (eq_ok (by decide)) (.cons ?_ rfl (.cons ?_ (eq_ok (by decide)) trivial))
  · intro m hm _
    cases hm
    exact growsAt_first
  · intro m hm
    cases hm
  · intro m hm _
    cases hm
    exact growsAt_next

/-- **The second access makes the object smaller, and the bytes of the first one are lost.** -/
theorem size_shrinks : IsSearchTree twoPlaces.tree twoNodes ∧
    faultOf (runAll (InferOp.exec (.bump 4)) shrinking (.start twoPlaces.tree)) = none ∧
    ¬ SizesRight (.bump 4) twoNodes
      (stateOf (runAll (InferOp.exec (.bump 4)) shrinking (.start twoPlaces.tree))) ∧
    foundAt (.bump 4) (stateOf (runAll (InferOp.exec (.bump 4)) shrinking
      (.start twoPlaces.tree))).tree 0xc0100008 = .null := by
  refine ⟨twoPlaces_search, by decide, fun h => ?_, by decide⟩
  exact absurd (h.kept (.cell 2) (by decide)) (by decide)

end RevSem
