import TraceSyscallObj.RevSem.RbTree

/-!
# The tree in memory: painting and rotating

`Holds live L ctx t` is `At L ctx t` for the memory of the program: the shared leaf is the static
`sentinel`, the parent of the root is the null pointer, and every node is an allocated cell.
Each primitive of the fixup loops is shown to run without a fault and to take the tree to the
expected one.
-/

namespace RevSem
open PTree

structure Holds (live : List Nat) (L : Links Ptr) (ctx : List (Frame Ptr)) (t : CTree Ptr) : Prop
    extends At L ctx t where
  nil_eq : L.nil = .sentinel
  null_eq : L.null = .null
  valid : ∀ p ∈ (plug ctx t).ptrs, p.validIn live

section
variable {live : List Nat} {L : Links Ptr} {ctx fs : List (Frame Ptr)} {t : CTree Ptr}

lemma Holds.valid_root (h : Holds live L ctx t) : (L.rootOf t).validIn live := by
  by_cases ht : t = .leaf
  · rw [ht]
    show L.nil.validIn live
    rw [h.nil_eq]
    trivial
  · exact h.valid _ (mem_plug.mpr (.inl (Links.rootOf_mem ht)))

variable {f : Frame Ptr}

lemma Holds.valid_frame (h : Holds live L (f :: fs) t) : f.ptr.validIn live :=
  h.valid _ (mem_plug.mpr (.inr (mem_ctx_cons.mpr (.inl rfl))))

lemma Holds.up (h : Holds live L (f :: fs) t) :
    Holds live L fs (CTree.mk f.side f.color t f.ptr f.sib) :=
  ⟨h.toAt.up, h.nil_eq, h.null_eq, h.valid⟩

variable {d : Dir} {c : Color} {a : CTree Ptr} {p : Ptr} {b : CTree Ptr}

lemma Holds.down
    (h : Holds live L ctx (CTree.mk d c a p b)) : Holds live L (⟨d, c, p, b⟩ :: ctx) a :=
  ⟨h.toAt.down, h.nil_eq, h.null_eq, h.valid⟩

lemma Holds.down_flip
    (h : Holds live L ctx (CTree.mk d c a p b)) : Holds live L (⟨d.flip, c, p, a⟩ :: ctx) b := by
  rw [← CTree.mk_flip] at h
  exact h.down

lemma Holds.across (h : Holds live L (f :: fs) t) :
    Holds live L (⟨f.side.flip, f.color, f.ptr, t⟩ :: fs) f.sib := h.up.down_flip

lemma Holds.whole (h : Holds live L ctx t) : Holds live L [] (plug ctx t) :=
  ⟨h.toAt.whole, h.nil_eq, h.null_eq, h.valid⟩

lemma Holds.setColor (h : Holds live L ctx t) (ht : t ≠ .leaf) (c : Color) :
    Holds live (L.setColor (L.rootOf t) c) ctx (t.paint c) := by
  refine ⟨h.toAt.setColor ht c, h.nil_eq, h.null_eq, ?_⟩
  rw [plug_ptrs_congr ctx (CTree.ptrs_paint c t)]
  exact h.valid

lemma Holds.setColor_mk (h : Holds live L ctx (CTree.mk d c a p b)) (c' : Color) :
    Holds live (L.setColor p c') ctx (CTree.mk d c' a p b) := by
  have h' := h.setColor CTree.mk_ne_leaf c'
  rwa [Links.rootOf_mk, CTree.paint_mk] at h'

lemma Holds.setColor_frame (h : Holds live L (f :: fs) t) (c : Color) :
    Holds live (L.setColor f.ptr c) (⟨f.side, c, f.ptr, f.sib⟩ :: fs) t :=
  (h.up.setColor_mk c).down

lemma Holds.setColor_sib (h : Holds live L (f :: fs) t) (hs : f.sib ≠ .leaf)
    (c : Color) : Holds live (L.setColor (L.rootOf f.sib) c)
      (⟨f.side, f.color, f.ptr, f.sib.paint c⟩ :: fs) t := by
  have h' := (h.across.setColor hs c).across
  simpa only [Dir.flip_flip] using h'

lemma Holds.setColor_frame₂ {g : Frame Ptr} (h : Holds live L (f :: g :: fs) t) (c : Color) :
    Holds live (L.setColor g.ptr c) (f :: ⟨g.side, c, g.ptr, g.sib⟩ :: fs) t :=
  (h.up.setColor_frame c).down

lemma Holds.setColor_uncle {g : Frame Ptr} (h : Holds live L (f :: g :: fs) t)
    (hs : g.sib ≠ .leaf) (c : Color) : Holds live (L.setColor (L.rootOf g.sib) c)
      (f :: ⟨g.side, g.color, g.ptr, g.sib.paint c⟩ :: fs) t :=
  (h.up.setColor_sib hs c).down

variable {c' : Color} {x y : Ptr} {e : CTree Ptr}

lemma Holds.rotate (h : Holds live L ctx (CTree.mk d c a x (CTree.mk d c' b y e))) :
    Holds live (L.rotate d x) ctx (CTree.mk d c' (CTree.mk d c a x b) y e) := by
  refine ⟨h.toAt.rotate, (Links.rotate_nil L d x).trans h.nil_eq,
    (Links.rotate_null L d x).trans h.null_eq, ?_⟩
  rw [plug_ptrs_congr ctx (CTree.ptrs_rotate d c' c c c' a x b y e)]
  exact h.valid

/-! ## the primitives run -/

lemma adopt_does {b v : Ptr} (hb : b.validIn live) (hn : L.nil = .sentinel) :
    Does live (adopt b v) L () (L.adopt b v) := by
  unfold adopt Links.adopt
  rw [hn]
  by_cases h : b = .sentinel
  · rw [if_neg (fun k => k h), if_neg (fun k => k h)]
    exact Does.pure ()
  · rw [if_pos h, if_pos h]
    exact setParent_does hb

lemma relink_does {g : Ptr} (hg : g ≠ .null → g.validIn live)
    (hu : L.null = .null) : Does live (relink d g x y) L () (L.relink d g x y) := by
  unfold relink Links.relink
  rw [hu]
  by_cases h : g = .null
  · rw [if_neg (fun k => k h), if_neg (fun k => k h)]
    exact setRoot_does
  · rw [if_pos h]
    apply (childOf_does (hg h) d rfl).bind
    split
    · exact setChild_does (hg h) d
    · exact setChild_does (hg h) d.flip

lemma Holds.valid_top (h : Holds live L ctx t) (hne : L.top ctx ≠ .null) :
    (L.top ctx).validIn live := by
  cases ctx with
  | nil => exact absurd h.null_eq hne
  | cons f fs => exact h.valid_frame

/-- **`rotateLeft` and `rotateRight` run without a fault.** -/
theorem Holds.rotate_does (h : Holds live L ctx (CTree.mk d c a x (CTree.mk d c' b y e))) :
    Does live (RevSem.rotate d x) L () (L.rotate d x) := by
  have hcx := h.cell
  have hcy := h.down_flip.cell
  rw [Links.rootOf_mk] at hcx
  have hx : x.validIn live := by simpa using h.valid_root
  have hy : y.validIn live := by simpa using h.down_flip.valid_root
  have hb : (L.rootOf b).validIn live := h.down_flip.down.valid_root
  have hxn := h.proper_sub (p := x) (CTree.mem_ptrs_mk.mpr (.inr (.inl rfl)))
  obtain ⟨-, hxr, -, -, -⟩ := CTree.nodup_mk.mp (nodup_of_plug h.nodup)
  simp only [CTree.mem_ptrs_mk, not_or] at hxr
  have hxb := Links.ne_rootOf hxr.1 hxn.1
  have hxy := hxr.2.1
  have e1 : L.child x d.flip = y := hcx.2.2.2
  have e2 : L.child y d = L.rootOf b := hcy.2.2.1
  unfold RevSem.rotate Links.rotate
  dsimp only
  rw [e1, e2]
  apply (childOf_does hx _ e1).bind
  apply (childOf_does hy _ e2).bind
  apply (setChild_does hx _).bind
  have e3 : (L.setChild x d.flip (L.rootOf b)).child y d = L.rootOf b := by
    rw [Links.setChild_child, if_neg (fun k => hxy k.1.symm), e2]
  apply (childOf_does hy _ e3).bind
  rw [e3]
  apply (adopt_does (L := L.setChild x d.flip (L.rootOf b)) hb h.nil_eq).bind
  have hpar : ((L.setChild x d.flip (L.rootOf b)).adopt (L.rootOf b) x).parent x = L.top ctx := by
    rw [Links.adopt_parent, if_neg (fun k => hxb k.1)]
    exact hcx.1
  apply (parentOf_does hx hpar).bind
  rw [hpar]
  apply (adopt_does hy (by rw [Links.adopt_nil]; exact h.nil_eq)).bind
  have hpar' : (((L.setChild x d.flip (L.rootOf b)).adopt (L.rootOf b) x).adopt y
      (L.top ctx)).parent x = L.top ctx := by
    rw [Links.adopt_parent, if_neg (fun k => hxy k.1), hpar]
  apply (parentOf_does hx hpar').bind
  rw [hpar']
  have hnull : (((L.setChild x d.flip (L.rootOf b)).adopt (L.rootOf b) x).adopt y
      (L.top ctx)).null = .null := by
    rw [Links.adopt_null, Links.adopt_null]
    exact h.null_eq
  apply (relink_does h.valid_top hnull).bind
  apply (setChild_does hy d).bind
  apply adopt_does hx
  rw [Links.setChild_nil, Links.relink_nil, Links.adopt_nil, Links.adopt_nil]
  exact h.nil_eq

section
variable (h : Holds live L ctx (CTree.mk d c (CTree.mk d c' a x b) y e))
include h

lemma Holds.flip : Holds live L ctx (CTree.mk d.flip c e y (CTree.mk d.flip c' b x a)) := by
  rw [CTree.mk_flip, CTree.mk_flip]
  exact h

lemma Holds.rotate_flip :
    Holds live (L.rotate d.flip y) ctx (CTree.mk d c' a x (CTree.mk d c b y e)) := by
  have h' := h.flip.rotate
  rwa [CTree.mk_flip, CTree.mk_flip] at h'

end

end
end RevSem
