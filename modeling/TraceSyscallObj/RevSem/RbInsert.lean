import TraceSyscallObj.Lib.Order
import TraceSyscallObj.RevSem.RbFixup

/-!
# `rbtInsert`

`IsRbTree s t`: the memory `s` holds the tree `t`, and `t` is a red-black search tree.  The
records of the nodes, from left to right, are what the tree stores (`TreeState.records`);
`rbtInsert_spec` says that an insertion adds one record, or returns a status other than
`RBT_STATUS_OK` and changes nothing when the key is there already.
-/

namespace RevSem
open PTree Run

def TreeState.keyOf (s : TreeState) (p : Ptr) : KeyType := (s.mem p).key
def TreeState.records (s : TreeState) (t : CTree Ptr) : List Record := t.ptrs.map s.record

/-- **A valid red-black search tree in memory.** -/
structure IsRbTree (s : TreeState) (t : CTree Ptr) : Prop where
  holds : Holds s.live s.links [] t
  balanced : Balanced t
  ordered : Ordered s.keyOf t

section
variable {s s' : TreeState} {t : CTree Ptr} {ctx fs : List (Frame Ptr)} {key size : KeyType}

lemma rest_record (h : s'.rest = s.rest) : s'.record = s.record :=
  congrArg (fun r => r.2.2.2) h

lemma rest_live (h : s'.rest = s.rest) : s'.live = s.live := congrArg (fun r => r.1) h

lemma keyOf_record (s : TreeState) (p : Ptr) : s.keyOf p = (s.record p).key := rfl

variable {p : Ptr} {live : List Nat} {L : Links Ptr}

lemma Holds.node_ne (h : Holds live L ctx t)
    (hp : p ∈ t.ptrs) : p ≠ .sentinel ∧ p ≠ .null ∧ p.validIn live := by
  obtain ⟨h1, h2⟩ := h.proper_sub hp
  rw [h.nil_eq] at h1
  rw [h.null_eq] at h2
  exact ⟨h1, h2, h.valid p (mem_plug.mpr (.inl hp))⟩

/-! ## the search for the parent -/

/-- the three statuses of a key that is there already -/
def foundStatus (size size' : KeyType) : RbtStatus :=
  if size = size' then .duplicateKey else if size ≤ size' then .reallocSmall else .reallocLarge

lemma foundStatus_ne_ok (size size' : KeyType) : foundStatus size size' ≠ .ok := by
  unfold foundStatus
  split
  · decide
  · split <;> decide

variable {g : Ptr}

lemma findParent_found {fuel : Nat} (hp : p ≠ .sentinel) (hv : p.validIn s.live)
    (hk : s.keyOf p = key) :
    findParent key size (fuel + 1) p g s = .ok (.error (foundStatus size (s.mem p).size)) s := by
  have hk' : key = (s.mem p).key := hk.symm
  rw [findParent, if_pos hp, bind_ok (load_ok hv), if_pos hk']
  unfold foundStatus
  split
  · rfl
  · split <;> rfl

lemma findParent_step {fuel : Nat} (hp : p ≠ .sentinel) (hv : p.validIn s.live)
    (hk : s.keyOf p ≠ key) : findParent key size (fuel + 1) p g s = findParent key size fuel
      (s.links.child p (if key < s.keyOf p then .left else .right)) p s := by
  have hk' : ¬ key = (s.mem p).key := fun e => hk e.symm
  rw [findParent, if_pos hp, bind_ok (load_ok hv), if_neg hk']
  rfl

/-- the keys left and right of a hole -/
def Between (s : TreeState) (key : KeyType) (fs : List (Frame Ptr)) : Prop :=
  (∀ p ∈ before fs, s.keyOf p < key) ∧ ∀ p ∈ after fs, key < s.keyOf p

lemma Between.left {c : Color} {l r : CTree Ptr} (h : Between s key ctx)
    (ho : Ordered s.keyOf (plug ctx (.node c l p r))) (hp : key < s.keyOf p) :
    Between s key (⟨.left, c, p, r⟩ :: ctx) := by
  refine ⟨fun q hq => h.1 q (by simpa [before] using hq), fun q hq => ?_⟩
  simp only [after, List.cons_append, List.mem_cons, List.mem_append] at hq
  rcases hq with rfl | hq | hq
  · exact hp
  · exact BitVec.lt_trans hp (ho.node.2 q hq)
  · exact h.2 q hq

lemma Between.right {c : Color} {l r : CTree Ptr} (h : Between s key ctx)
    (ho : Ordered s.keyOf (plug ctx (.node c l p r))) (hp : s.keyOf p < key) :
    Between s key (⟨.right, c, p, l⟩ :: ctx) := by
  refine ⟨fun q hq => ?_, fun q hq => h.2 q (by simpa [after] using hq)⟩
  simp only [before, List.mem_append, List.mem_singleton] at hq
  rcases hq with hq | hq | rfl
  · exact h.1 q hq
  · exact BitVec.lt_trans (ho.node.1 q hq) hp
  · exact hp

lemma findParent_spec (size : KeyType) (fuel : Nat) (h : Holds s.live s.links ctx t)
    (ho : Ordered s.keyOf (plug ctx t)) (hb : Between s key ctx) (hf : t.ptrs.length < fuel) :
    (∃ p st, p ∈ t.ptrs ∧ s.keyOf p = key ∧ st ≠ .ok ∧
      findParent key size fuel (s.links.rootOf t) (s.links.top ctx) s = .ok (.error st) s) ∨
    (∃ fs, plug fs .leaf = plug ctx t ∧ Between s key fs ∧
      findParent key size fuel (s.links.rootOf t) (s.links.top ctx) s
        = .ok (.ok (s.links.top fs)) s) := by
  induction t generalizing ctx fuel with
  | leaf =>
    obtain ⟨fuel, rfl⟩ : ∃ m, fuel = m + 1 := ⟨fuel - 1, by omega⟩
    refine .inr ⟨ctx, rfl, hb, ?_⟩
    rfl
  | node c l p r ihl ihr =>
    obtain ⟨fuel, rfl⟩ : ∃ m, fuel = m + 1 := ⟨fuel - 1, by omega⟩
    have hlen : l.ptrs.length + (r.ptrs.length + 1) < fuel + 1 := by simpa [CTree.ptrs] using hf
    obtain ⟨hp1, -, hp3⟩ := h.node_ne (p := p) (by simp [CTree.ptrs])
    have hm : Holds s.live s.links ctx (CTree.mk .left c l p r) := h
    show (∃ q st, q ∈ (CTree.node c l p r).ptrs ∧ s.keyOf q = key ∧ st ≠ .ok ∧
        findParent key size (fuel + 1) p (s.links.top ctx) s = .ok (.error st) s) ∨
      (∃ fs, plug fs .leaf = plug ctx (.node c l p r) ∧ Between s key fs ∧
        findParent key size (fuel + 1) p (s.links.top ctx) s = .ok (.ok (s.links.top fs)) s)
    by_cases hk : s.keyOf p = key
    · refine .inl ⟨p, _, by simp [CTree.ptrs], hk, ?_, findParent_found hp1 hp3 hk⟩
      exact foundStatus_ne_ok _ _
    rw [findParent_step hp1 hp3 hk]
    by_cases hlt : key < s.keyOf p
    · rw [if_pos hlt, hm.cell.2.2.1]
      rcases ihl fuel hm.down ho (hb.left ho hlt) (by omega) with h1 | h1
      · obtain ⟨q, st, hq, h2⟩ := h1
        exact .inl ⟨q, st, by simp [CTree.ptrs, hq], h2⟩
      · exact .inr h1
    · have hgt : s.keyOf p < key := by bv_omega
      rw [if_neg hlt, show s.links.child p .right = s.links.rootOf r from hm.cell.2.2.2]
      rcases ihr fuel hm.down_flip ho (hb.right ho hgt) (by omega) with h1 | h1
      · obtain ⟨q, st, hq, h2⟩ := h1
        exact .inl ⟨q, st, by simp [CTree.ptrs, hq], h2⟩
      · exact .inr h1

/-! ## the new node -/

def newRecord (key size : KeyType) (p : Record) : Record :=
  { key := key, size := size, type := p.type, pc := p.pc, objName := p.objName }

lemma store_record (s : TreeState) (x : Ptr) (f : NodeType → NodeType) (q : Ptr) :
    (s.store x f).record q = if q = x then (f (s.mem q)).toRecord else s.record q := by
  show (if q = x then f (s.mem q) else s.mem q).toRecord = _
  split <;> rfl

lemma store_links (s : TreeState) (x : Ptr) {f : NodeType → NodeType}
    (hf : ∀ n, (f n).left = n.left ∧ (f n).right = n.right ∧ (f n).parent = n.parent ∧
      (f n).color = n.color) : (s.store x f).links = s.links := by
  simp only [TreeState.links, TreeState.store, Links.mk.injEq, true_and]
  refine ⟨?_, ?_, ?_⟩
  · funext q d
    cases d <;> by_cases h : q = x <;> simp [h, NodeType.child, hf]
  · funext q
    by_cases h : q = x <;> simp [h, hf]
  · funext q
    by_cases h : q = x <;> simp [h, hf]

lemma linkNode_does {x : Ptr} (hx : x.validIn live)
    (hn : L.nil = .sentinel) : Does live (linkNode x g) L () (L.fresh x g) := by
  unfold linkNode Links.fresh
  rw [hn]
  exact (setParent_does hx).bind ((setChild_does hx _).bind ((setChild_does hx _).bind
    (setColor_does hx)))

lemma fillNode_ok {x : Ptr} (key size : KeyType) (p : Record) (hx : x.validIn s.live) :
    ∃ s', fillNode x key size p s = .ok () s' ∧ s'.links = s.links ∧ s'.live = s.live ∧
      ∀ q, s'.record q = if q = x then newRecord key size p else s.record q :=
  ⟨_, store_ok hx, store_links s x fun _ => ⟨rfl, rfl, rfl, rfl⟩, rfl,
    fun q => store_record s x _ q⟩

lemma newNode_spec (H : Host) (s : TreeState) (key size : KeyType) (p : Record) (g : Ptr) :
    ∃ s', newNode H key size p g s = .ok (.cell (H.malloc s.mallocs s.live)) s' ∧
      s'.links = s.links.fresh (.cell (H.malloc s.mallocs s.live)) g ∧
      s'.live = H.malloc s.mallocs s.live :: s.live ∧
      ∀ q, s'.record q = if q = .cell (H.malloc s.mallocs s.live) then newRecord key size p
        else s.record q := by
  obtain ⟨n, hn⟩ : ∃ n, n = H.malloc s.mallocs s.live := ⟨_, rfl⟩
  rw [← hn]
  obtain ⟨s₁, hs₁⟩ : ∃ s₁ : TreeState,
      s₁ = { s with live := n :: s.live, mallocs := s.mallocs + 1 } := ⟨_, rfl⟩
  have hmalloc : mallocNode H s = .ok (.cell n) s₁ := by rw [hs₁, hn]; rfl
  have hlive : s₁.live = n :: s.live := by rw [hs₁]
  have hx : (Ptr.cell n).validIn s₁.live := by rw [hlive]; exact List.mem_cons_self ..
  obtain ⟨s₂, h1, h2, h3⟩ := linkNode_does (L := s₁.links) (g := g) hx rfl s₁ rfl rfl
  have hx₂ : (Ptr.cell n).validIn s₂.live := by rw [rest_live h3]; exact hx
  obtain ⟨s₃, h4, h5, h6, h7⟩ := fillNode_ok key size p hx₂
  refine ⟨s₃, ?_, ?_, ?_, fun q => ?_⟩
  · rw [newNode, bind_ok hmalloc, bind_ok h1, bind_ok h4]
    rfl
  · rw [h5, h2, hs₁]
    rfl
  · rw [h6, rest_live h3, hlive]
  · rw [h7, rest_record h3, hs₁]
    rfl

/-- the side on which `hang` puts the node -/
def hangSide (s : TreeState) (key : KeyType) (g : Ptr) : Dir :=
  if key ≤ s.keyOf g then .left else .right

lemma hang_spec (s : TreeState) (key : KeyType) (x : Ptr)
    (hg : g ≠ .null → g.validIn s.live) : ∃ s', hang key g x s = .ok () s' ∧
      s'.links = (if g ≠ s.links.null then s.links.setChild g (hangSide s key g) x
        else s.links.setRoot x) ∧ s'.rest = s.rest := by
  unfold hang
  by_cases h : g = .null
  · rw [if_neg (fun k => k h), if_neg (fun k => k h)]
    obtain ⟨s', h1, h2, h3⟩ := setRoot_does (v := x) s rfl rfl
    exact ⟨s', h1, h2, h3⟩
  have hn : g ≠ s.links.null := h
  rw [if_pos h, if_pos hn, bind_ok (load_ok (hg h))]
  unfold hangSide
  by_cases hk : key ≤ (s.mem g).key
  · rw [if_pos hk, if_pos (show key ≤ s.keyOf g from hk)]
    exact setChild_does (hg h) .left s rfl rfl
  · rw [if_neg hk, if_neg (show ¬ key ≤ s.keyOf g from hk)]
    exact setChild_does (hg h) .right s rfl rfl

lemma hangSide_eq {f : Frame Ptr} (h : Between s key (f :: fs)) : hangSide s key f.ptr = f.side := by
  obtain ⟨side, color, ptr, sib⟩ := f
  cases side with
  | left =>
    have hlt := h.2 ptr (by simp [after])
    exact if_pos (by bv_omega)
  | right =>
    have hlt := h.1 ptr (by simp [before])
    exact if_neg (by bv_omega)

lemma Holds.focus (fs : List (Frame Ptr))
    (h : Holds live L [] (plug fs t)) : Holds live L fs t := by
  have hat := h.toAt.focus fs
  rw [List.append_nil] at hat
  exact ⟨hat, h.nil_eq, h.null_eq, h.valid⟩

lemma malloc_not_mem (H : Host) (k : Nat)
    (h : Holds live L ctx t) : Ptr.cell (H.malloc k live) ∉ (plug ctx t).ptrs := by
  intro hm
  exact H.malloc_fresh k live (h.valid _ hm)

lemma hang_newNode (H : Host) (size : KeyType) (p : Record) (h : Holds s.live s.links fs .leaf)
    (hb : Between s key fs) :
    ∃ x s' s'', newNode H key size p (s.links.top fs) s = .ok x s' ∧
      hang key (s.links.top fs) x s' = .ok () s'' ∧ x ∉ (plug fs .leaf).ptrs ∧
      Holds s''.live s''.links fs (.node .red .leaf x .leaf) ∧
      ∀ q, s''.record q = if q = x then newRecord key size p else s.record q := by
  obtain ⟨s₁, h1, h2, h3, h4⟩ := newNode_spec H s key size p (s.links.top fs)
  have hx := malloc_not_mem H s.mallocs h
  obtain ⟨x, hxe⟩ : ∃ x, x = Ptr.cell (H.malloc s.mallocs s.live) := ⟨_, rfl⟩
  rw [← hxe] at h1 h2 h4 hx
  have hmono : ∀ q : Ptr, q.validIn s.live → q.validIn s₁.live := by
    intro q hq
    rw [h3]
    cases q with
    | null | sentinel => exact hq
    | cell n => exact List.mem_cons_of_mem _ hq
  obtain ⟨s₂, h6, h7, h8⟩ := hang_spec s₁ key x (fun hne => hmono _ (h.valid_top hne))
  have hside : ∀ f fs', fs = f :: fs' → hangSide s₁ key (s.links.top fs) = f.side := by
    intro f fs' e
    subst e
    have hfx : f.ptr ≠ x := fun e => hx (e ▸ mem_plug.mpr (.inr (mem_ctx_cons.mpr (.inl rfl))))
    have hk : s₁.keyOf f.ptr = s.keyOf f.ptr := by
      rw [keyOf_record, h4, if_neg hfx]
      rfl
    rw [← hangSide_eq hb]
    show hangSide s₁ key f.ptr = _
    unfold hangSide
    rw [hk]
  have hlinks : s₂.links = s.links.attach x (s.links.top fs) (hangSide s₁ key (s.links.top fs)) := by
    rw [h7, h2]
    rfl
  refine ⟨x, s₁, s₂, h1, h6, hx, ?_, fun q => ?_⟩
  · have hat := h.toAt.attach hx (by rw [hxe]; exact Ptr.noConfusion)
      (by rw [hxe]; exact Ptr.noConfusion) hside
    rw [← hlinks] at hat
    refine ⟨hat, rfl, rfl, fun q hq => ?_⟩
    rw [rest_live h8]
    rcases mem_plug.mp hq with hq | hq
    · have hqx : q = x := by simpa [CTree.ptrs] using hq
      rw [hqx, hxe, h3]
      exact List.mem_cons_self ..
    · exact hmono q (h.valid q (mem_plug.mpr (.inr hq)))
  · rw [rest_record h8, h4]

lemma Holds.getRoot_ok (h : Holds s.live s.links [] t) : getRoot s = .ok (s.links.rootOf t) s := by
  exact congrArg (EStateM.Result.ok · s) h.root

/-- **An insertion adds one record**, unless the key is there already: then the status is not
`RBT_STATUS_OK` and nothing changes. -/
theorem rbtInsert_spec (H : Host) (h : IsRbTree s t) (hf : t.ptrs.length < H.fuel)
    (key size : KeyType) (p : Record) :
    (∃ q st, q ∈ t.ptrs ∧ s.keyOf q = key ∧ st ≠ .ok ∧ rbtInsert H key size p s = .ok st s) ∨
    (∃ s' t' A B, rbtInsert H key size p s = .ok .ok s' ∧ IsRbTree s' t' ∧
      s.records t = A ++ B ∧ s'.records t' = A ++ newRecord key size p :: B) := by
  have hb : Between s key [] := ⟨fun q hq => by simp [before] at hq, fun q hq => by simp [after] at hq⟩
  rcases findParent_spec size H.fuel h.holds h.ordered hb hf with h1 | h1
  · obtain ⟨q, st, hq, hk, hst, hrun⟩ := h1
    have hrun' : findParent key size H.fuel (s.links.rootOf t) .null s = .ok (.error st) s := hrun
    refine .inl ⟨q, st, hq, hk, hst, ?_⟩
    rw [rbtInsert, bind_ok h.holds.getRoot_ok, bind_ok hrun']
    rfl
  · obtain ⟨fs, hplug, hbt, hrun⟩ := h1
    have hplug' : plug fs .leaf = t := hplug
    subst hplug'
    have hrun' : findParent key size H.fuel (s.links.rootOf (plug fs .leaf)) .null s
        = .ok (.ok (s.links.top fs)) s := hrun
    obtain ⟨x, s₁, s₂, h1, h2, hx, h3, h4⟩ := hang_newNode H size p (h.holds.focus fs) hbt
    have hlen : fs.length < H.fuel := by
      have := length_le_plug fs (.leaf : CTree Ptr)
      omega
    obtain ⟨L', t', h6, h7, h8, h9⟩ := insertFixup_does H.fuel h3 (RedFocus.new h.balanced x) hlen
    obtain ⟨s₃, h10, h11, h12⟩ := h6 s₂ rfl rfl
    have hrec : ∀ q, s₃.record q = if q = x then newRecord key size p else s.record q := by
      intro q
      rw [rest_record h12, h4]
    have hold : ∀ q ∈ (plug fs .leaf).ptrs, s₃.record q = s.record q := by
      intro q hq
      have hqx : ¬ q = x := fun e => hx (e ▸ hq)
      rw [hrec, if_neg hqx]
    refine .inr ⟨s₃, t', (before fs).map s.record, (after fs).map s.record, ?_, ⟨?_, h8, ?_⟩, ?_, ?_⟩
    · have h10' : insertFixup H.fuel x s₂ = .ok () s₃ := h10
      rw [rbtInsert, bind_ok h.holds.getRoot_ok, bind_ok hrun']
      dsimp only
      rw [bind_ok h1, bind_ok h2, bind_ok h10']
      rfl
    · rw [h11, rest_live h12]
      exact h7
    · have hxk : s₃.keyOf x = key := by
        rw [keyOf_record, hrec, if_pos rfl]
        rfl
      refine (h.ordered.attach s₃.keyOf (fun q hq => ?_) ?_ ?_).ptrs h9
      · rw [keyOf_record, hold q hq]
        rfl
      · rw [hxk]
        exact hbt.1
      · rw [hxk]
        exact hbt.2
    · show (plug fs .leaf).ptrs.map s.record = _
      rw [plug_ptrs, CTree.ptrs, List.append_nil, List.map_append]
    · show t'.ptrs.map s₃.record = _
      have hb' : (before fs).map s₃.record = (before fs).map s.record :=
        List.map_congr_left (fun q hq => hold q (mem_plug.mpr (.inr (by simp [hq]))))
      have ha' : (after fs).map s₃.record = (after fs).map s.record :=
        List.map_congr_left (fun q hq => hold q (mem_plug.mpr (.inr (by simp [hq]))))
      rw [h9, plug_ptrs, CTree.ptrs, CTree.ptrs, List.nil_append, List.append_assoc, List.map_append,
        List.singleton_append, List.map_cons, hb', ha', hrec, if_pos rfl]

end
end RevSem
