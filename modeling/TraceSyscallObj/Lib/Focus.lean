import TraceSyscallObj.Lib.Links

/-!
# Moving the focus, painting and rotating

The links after `rotate`, `splice` and `attach` are computed field by field, as a pointer program
writes them (including its tests against the sentinel and against the missing parent); the
theorems `At.rotate`, `At.splice`, `At.attach` say which tree they hold.
-/

namespace PTree
variable {P : Type} {L : Links P} {ctx fs : List (Frame P)} {b t : CTree P} {d : Dir}

lemma root_plug_congr (L : Links P) (fs : List (Frame P)) {t t' : CTree P}
    (h : L.rootOf t = L.rootOf t') : L.rootOf (plug fs t) = L.rootOf (plug fs t') := by
  induction fs generalizing t t' with
  | nil => exact h
  | cons f fs ih =>
    apply ih
    rw [Frame.fill, Frame.fill, Links.rootOf_mk, Links.rootOf_mk]

lemma root_plug_cons (L : Links P) (f : Frame P) (fs : List (Frame P)) (t t' : CTree P) :
    L.rootOf (plug (f :: fs) t) = L.rootOf (plug (f :: fs) t') := by
  apply root_plug_congr L fs
  rw [Frame.fill, Frame.fill, Links.rootOf_mk, Links.rootOf_mk]

/-! ## reading the fields -/

variable {c : Color} {a : CTree P} {p : P}

lemma At.cell (h : At L ctx (CTree.mk d c a p b)) :
    L.Cell p (L.top ctx) c d (L.rootOf a) (L.rootOf b) := (Links.rep_mk.mp h.sub).1

variable {f : Frame P}

lemma At.frame (h : At L (f :: fs) t) :
    L.Cell f.ptr (L.top fs) f.color f.side (L.rootOf t) (L.rootOf f.sib) := h.around.1

lemma At.proper_sub (h : At L ctx t) (hp : p ∈ t.ptrs) : p ≠ L.nil ∧ p ≠ L.null :=
  h.proper p (mem_plug.mpr (.inl hp))

lemma At.proper_ctx (h : At L ctx t) (hp : p ∈ before ctx ++ after ctx) :
    p ≠ L.nil ∧ p ≠ L.null :=
  h.proper p (mem_plug.mpr (.inr hp))

lemma At.proper_frame (h : At L (f :: fs) t) : f.ptr ≠ L.nil ∧ f.ptr ≠ L.null :=
  h.proper_ctx (mem_ctx_cons.mpr (.inl rfl))

lemma At.color_root (h : At L ctx t) : L.color (L.rootOf t) = t.color := by
  cases t with
  | leaf => exact h.nilColor
  | node c l p r => exact h.sub.1.2.1

lemma At.top_ne_null (h : At L (f :: fs) t) : L.top (f :: fs) ≠ L.null :=
  h.proper_frame.2

lemma At.parent_root (h : At L ctx t) (ht : t ≠ .leaf) : L.parent (L.rootOf t) = L.top ctx := by
  cases t with
  | leaf => exact absurd rfl ht
  | node c l p r => exact h.sub.1.1

lemma At.root_ne_sib (h : At L (f :: fs) t) (ht : t ≠ .leaf) : L.rootOf t ≠ L.rootOf f.sib := by
  intro e
  have hm : L.rootOf t ∈ t.ptrs := Links.rootOf_mem ht
  have hn : (plug fs (f.fill t)).ptrs.Nodup := h.nodup
  have hd := CTree.nodup_mk.mp (nodup_of_plug hn)
  by_cases hs : f.sib = .leaf
  · rw [hs] at e
    exact (h.proper_sub hm).1 e
  · exact hd.2.2.2.2 _ hm (e ▸ Links.rootOf_mem hs)

lemma At.frame_nodup (h : At L (f :: fs) t) :
    f.ptr ∉ t.ptrs ∧ f.ptr ∉ f.sib.ptrs ∧ f.ptr ∉ before fs ++ after fs := by
  have hn : (plug fs (f.fill t)).ptrs.Nodup := h.nodup
  have hd := CTree.nodup_mk.mp (nodup_of_plug hn)
  refine ⟨hd.1, hd.2.1, not_mem_ctx hn ?_⟩
  exact CTree.mem_ptrs_mk.mpr (.inr (.inl rfl))

/-! ## moving the focus -/

lemma At.up (h : At L (f :: fs) t) :
    At L fs (CTree.mk f.side f.color t f.ptr f.sib) where
  around := by rw [Links.rootOf_mk]; exact h.around.2.2
  sub := Links.rep_mk.mpr ⟨h.around.1, h.sub, h.around.2.1⟩
  nodup := h.nodup
  root := h.root
  proper := h.proper
  nilColor := h.nilColor
  nilChild := h.nilChild

lemma At.down (h : At L ctx (CTree.mk d c a p b)) : At L (⟨d, c, p, b⟩ :: ctx) a := by
  obtain ⟨hc, ha, hb⟩ := Links.rep_mk.mp h.sub
  have har := h.around
  rw [Links.rootOf_mk] at har
  exact ⟨⟨hc, hb, har⟩, ha, h.nodup, h.root, h.proper, h.nilColor, h.nilChild⟩

lemma At.down_flip (h : At L ctx (CTree.mk d c a p b)) : At L (⟨d.flip, c, p, a⟩ :: ctx) b := by
  rw [← CTree.mk_flip] at h
  exact h.down

lemma At.whole (h : At L ctx t) : At L [] (plug ctx t) := by
  induction ctx generalizing t with
  | nil => exact h
  | cons f fs ih => exact ih h.up

lemma At.focus (fs : List (Frame P)) (h : At L ctx (plug fs t)) : At L (fs ++ ctx) t := by
  induction fs generalizing t with
  | nil => exact h
  | cons f fs ih => exact (ih h).down

/-! ## painting -/

variable [DecidableEq P]

lemma At.setColor (h : At L ctx t) (ht : t ≠ .leaf) (c : Color) :
    At (L.setColor (L.rootOf t) c) ctx (t.paint c) := by
  cases t with
  | leaf => exact absurd rfl ht
  | node c₀ l p r =>
    have hd := (CTree.nodup_mk (d := .left) (c := c₀)).mp (nodup_of_plug h.nodup)
    have hp := h.proper_sub (p := p) (by simp [CTree.ptrs])
    have hsame : ∀ q, q ≠ p → L.Same (L.setColor p c) q := by
      intro q hq
      refine ⟨rfl, ?_, fun _ => rfl⟩
      rw [Links.setColor_color, if_neg hq]
    have hctx := not_mem_ctx h.nodup (p := p) (by simp [CTree.ptrs])
    obtain ⟨hc, hl, hr⟩ := h.sub
    have hplug : (plug ctx (CTree.node c l p r)).ptrs = (plug ctx (CTree.node c₀ l p r)).ptrs :=
      plug_ptrs_congr ctx rfl
    refine ⟨?_, ⟨⟨hc.1, ?_, hc.2.2⟩, ?_, ?_⟩, ?_, ?_, ?_, ?_, h.nilChild⟩
    · exact h.around.congr rfl rfl (fun q hq => hsame q (fun e => hctx (e ▸ hq)))
    · show (if p = p then c else L.color p) = c
      rw [if_pos rfl]
    · exact hl.congr rfl (fun q hq => hsame q (fun e => hd.1 (e ▸ hq)))
    · exact hr.congr rfl (fun q hq => hsame q (fun e => hd.2.1 (e ▸ hq)))
    · show (plug ctx (CTree.node c l p r)).ptrs.Nodup
      rw [hplug]; exact h.nodup
    · show L.root = L.rootOf (plug ctx (CTree.node c l p r))
      rw [h.root]
      exact root_plug_congr L ctx rfl
    · intro q hq
      exact h.proper q (hplug ▸ hq)
    · show (if L.nil = p then c else L.color L.nil) = .black
      rw [if_neg (fun e => hp.1 e.symm)]; exact h.nilColor

/-! ## rotating -/

namespace Links

/-- `v` becomes the parent of `b`, unless `b` is the sentinel -/
def adopt (L : Links P) (b v : P) : Links P := if b ≠ L.nil then L.setParent b v else L

/-- `y` takes the place of `x` below `g` (or as the root, when there is no `g`); `x` is looked
for on the side `d` first -/
def relink (L : Links P) (d : Dir) (g x y : P) : Links P :=
  if g ≠ L.null then
    if x = L.child g d then L.setChild g d y else L.setChild g d.flip y
  else L.setRoot y

/-- the rotation of the node `x` to the side `d`, in the order in which the fields are written -/
def rotate (L : Links P) (d : Dir) (x : P) : Links P :=
  let y := L.child x d.flip
  let L₁ := L.setChild x d.flip (L.child y d)
  let L₂ := L₁.adopt (L₁.child y d) x
  let L₃ := L₂.adopt y (L₂.parent x)
  let L₄ := L₃.relink d (L₃.parent x) x y
  (L₄.setChild y d x).adopt x y

section fields
variable (L : Links P) (d : Dir) (b v g x y : P)

@[simp] lemma adopt_nil : (L.adopt b v).nil = L.nil := by unfold adopt; split <;> rfl
@[simp] lemma adopt_null : (L.adopt b v).null = L.null := by unfold adopt; split <;> rfl
@[simp] lemma adopt_root : (L.adopt b v).root = L.root := by unfold adopt; split <;> rfl
@[simp] lemma adopt_child : (L.adopt b v).child = L.child := by unfold adopt; split <;> rfl
@[simp] lemma adopt_color : (L.adopt b v).color = L.color := by unfold adopt; split <;> rfl

lemma adopt_parent (q : P) :
    (L.adopt b v).parent q = if q = b ∧ b ≠ L.nil then v else L.parent q := by
  unfold adopt
  by_cases h : b = L.nil
  · rw [if_neg (fun e => e h), if_neg (fun e => e.2 h)]
  · rw [if_pos h, setParent_parent]
    simp only [h, ne_eq, not_false_eq_true, and_true]

@[simp] lemma relink_nil : (L.relink d g x y).nil = L.nil := by
  unfold relink; split_ifs <;> rfl
@[simp] lemma relink_null : (L.relink d g x y).null = L.null := by
  unfold relink; split_ifs <;> rfl
@[simp] lemma relink_parent : (L.relink d g x y).parent = L.parent := by
  unfold relink; split_ifs <;> rfl
@[simp] lemma relink_color : (L.relink d g x y).color = L.color := by
  unfold relink; split_ifs <;> rfl

lemma relink_root : (L.relink d g x y).root = if g = L.null then y else L.root := by
  unfold relink
  by_cases h : g = L.null
  · rw [if_neg (fun e => e h), if_pos h, setRoot_root]
  · rw [if_pos h]
    split_ifs <;> rfl

lemma relink_child_root (q : P) (e : Dir) (h : g = L.null) :
    (L.relink d g x y).child q e = L.child q e := by
  unfold relink
  rw [if_neg (fun e => e h), setRoot_child]

lemma relink_child (s : Dir) (h : g ≠ L.null) (hs : L.child g s = x)
    (hs' : L.child g s.flip ≠ x) (q : P) (e : Dir) :
    (L.relink d g x y).child q e = if q = g ∧ e = s then y else L.child q e := by
  unfold relink
  rw [if_pos h]
  by_cases hd : d = s
  · rw [if_pos (by rw [hd, hs]), setChild_child, hd]
  · have hd' : d = s.flip := Dir.eq_flip_of_ne hd
    rw [if_neg (by rw [hd']; exact fun e => hs' e.symm), setChild_child, hd', Dir.flip_flip]

end fields

@[simp] lemma rotate_nil (L : Links P) (d : Dir) (x : P) : (L.rotate d x).nil = L.nil := by
  simp [rotate]
@[simp] lemma rotate_null (L : Links P) (d : Dir) (x : P) : (L.rotate d x).null = L.null := by
  simp [rotate]
@[simp] lemma rotate_color (L : Links P) (d : Dir) (x : P) : (L.rotate d x).color = L.color := by
  simp [rotate]

section
variable {x y b : P} (hy : L.child x d.flip = y) (hb : L.child y d = b) (hxy : x ≠ y)
  (hxb : x ≠ b)
include hy hb hxy hxb

lemma rotate_parent (hxn : x ≠ L.nil) (q : P) : (L.rotate d x).parent q =
    if q = x then y else if q = y ∧ y ≠ L.nil then L.parent x
    else if q = b ∧ b ≠ L.nil then x else L.parent q := by
  have hyx : ¬ (y = x ∧ d = d.flip) := fun e => hxy e.1.symm
  simp only [rotate, adopt_parent, hy, hb, setChild_child, if_neg hyx, setChild_parent,
    relink_parent, setChild_nil, relink_nil, adopt_nil, hxb, and_true,
    ne_eq, hxn, not_false_eq_true]
  rfl

lemma rotate_root : (L.rotate d x).root = if L.parent x = L.null then y else L.root := by
  have hyx : ¬ (y = x ∧ d = d.flip) := fun e => hxy e.1.symm
  simp only [rotate, adopt_parent, hy, hb, setChild_child, if_neg hyx, setChild_parent,
    adopt_root, setChild_root, relink_root, adopt_null, setChild_null,
    hxy, hxb, false_and, if_false]

lemma rotate_child_root (hg : L.parent x = L.null) (q : P) (e : Dir) :
    (L.rotate d x).child q e =
      if q = y ∧ e = d then x else if q = x ∧ e = d.flip then b else L.child q e := by
  have hyx : ¬ (y = x ∧ d = d.flip) := fun e => hxy e.1.symm
  simp only [rotate, adopt_parent, hy, hb, setChild_child, if_neg hyx, setChild_parent,
    adopt_child, hxy, hxb, false_and, if_false, hg]
  rw [relink_child_root _ _ _ _ _ _ _ (by rw [adopt_null, adopt_null, setChild_null]), adopt_child,
    adopt_child, setChild_child]

lemma rotate_child (s : Dir) (hg : L.parent x ≠ L.null) (hgx : L.parent x ≠ x)
    (hs : L.child (L.parent x) s = x) (hs' : L.child (L.parent x) s.flip ≠ x)
    (q : P) (e : Dir) : (L.rotate d x).child q e =
      if q = y ∧ e = d then x else if q = L.parent x ∧ e = s then y
      else if q = x ∧ e = d.flip then b else L.child q e := by
  have hyx : ¬ (y = x ∧ d = d.flip) := fun e => hxy e.1.symm
  have hgx' : ∀ e, ¬ (L.parent x = x ∧ e = d.flip) := fun _ e => hgx e.1
  simp only [rotate, adopt_parent, hy, hb, setChild_child, if_neg hyx, setChild_parent,
    adopt_child, hxy, hxb, false_and, if_false]
  rw [relink_child _ _ _ _ _ s (by rwa [adopt_null, adopt_null])
    (by rw [adopt_child, adopt_child, setChild_child, if_neg (hgx' s), hs])
    (by rwa [adopt_child, adopt_child, setChild_child, if_neg (hgx' _)]), adopt_child,
    adopt_child, setChild_child]

end
end Links

variable {c' : Color} {e : CTree P}

/-- the subtree below a rotation: the fields of its nodes are those of the rotated tree -/
lemma Links.rep_rotate {L' : Links P} {x g : P} {y : P}
    (hr : L.Rep g (CTree.mk d c a x (CTree.mk d c' b y e)))
    (hnd : (CTree.mk d c a x (CTree.mk d c' b y e)).ptrs.Nodup)
    (hnil : ∀ p ∈ (CTree.mk d c a x (CTree.mk d c' b y e)).ptrs, p ≠ L.nil) (hn : L'.nil = L.nil)
    (hcol : L'.color = L.color)
    (hpar : ∀ q, L'.parent q = if q = x then y else if q = y ∧ y ≠ L.nil then L.parent x
      else if q = L.rootOf b ∧ L.rootOf b ≠ L.nil then x else L.parent q)
    (hch : ∀ q ∈ (CTree.mk d c a x (CTree.mk d c' b y e)).ptrs, ∀ s, L'.child q s =
      if q = y ∧ s = d then x else if q = x ∧ s = d.flip then L.rootOf b else L.child q s) :
    L'.Rep g (CTree.mk d c' (CTree.mk d c a x b) y e) := by
  obtain ⟨hcx, hra, hrest⟩ := Links.rep_mk.mp hr
  obtain ⟨hcy, hrb, hre⟩ := Links.rep_mk.mp hrest
  obtain ⟨hxa, hxr, hda, hdr, har⟩ := CTree.nodup_mk.mp hnd
  obtain ⟨hyb, hye, hdb, hde, hbe⟩ := CTree.nodup_mk.mp hdr
  simp only [CTree.mem_ptrs_mk, not_or] at hnil hch hxr har
  obtain ⟨hxb, hxy, hxe⟩ := hxr
  have hyn : y ≠ L.nil := hnil y (by tauto)
  have hroot : b ≠ .leaf → L.rootOf b ∈ b.ptrs := Links.rootOf_mem
  -- nodes other than `x`, `y` and the root of `b` keep their fields
  have hsame : ∀ q ∈ (CTree.mk d c a x (CTree.mk d c' b y e)).ptrs, q ≠ x → q ≠ y →
      (q = L.rootOf b → b = .leaf) → L.Same L' q := by
    intro q hq hqx hqy hqb
    have hqb' : ¬ (q = L.rootOf b ∧ L.rootOf b ≠ L.nil) := by
      rintro ⟨h1, h2⟩
      rw [hqb h1] at h2
      exact h2 rfl
    simp only [CTree.mem_ptrs_mk] at hq
    refine ⟨?_, congr_fun hcol q, fun s => ?_⟩
    · rw [hpar, if_neg hqx, if_neg (fun k => hqy k.1), if_neg hqb']
    · rw [hch q hq, if_neg (fun k => hqy k.1), if_neg (fun k => hqx k.1)]
  have hyd : L'.child y d = x := by rw [hch y (by tauto), if_pos ⟨rfl, rfl⟩]
  have hyf : L'.child y d.flip = L.rootOf e := by
    rw [hch y (by tauto), if_neg (fun k => d.flip_ne k.2), if_neg (fun k => hxy k.1.symm)]
    exact hcy.2.2.2
  have hxd : L'.child x d = L.rootOf a := by
    rw [hch x (by tauto), if_neg (fun k => hxy k.1), if_neg (fun k => d.ne_flip k.2)]
    exact hcx.2.2.1
  have hxf : L'.child x d.flip = L.rootOf b := by
    rw [hch x (by tauto), if_neg (fun k => hxy k.1), if_pos ⟨rfl, rfl⟩]
  have hxp : L'.parent x = y := by rw [hpar, if_pos rfl]
  have hyp : L'.parent y = g := by
    rw [hpar, if_neg (fun k => hxy k.symm), if_pos ⟨rfl, hyn⟩]
    exact hcx.1
  refine Links.rep_mk.mpr ⟨⟨hyp, ?_, ?_, ?_⟩, Links.rep_mk.mpr ⟨⟨hxp, ?_, ?_, ?_⟩, ?_, ?_⟩, ?_⟩
  · rw [hcol]; exact hcy.2.1
  · rw [Links.rootOf_mk, hyd]
  · rw [Links.rootOf_congr hn, hyf]
  · rw [hcol]; exact hcx.2.1
  · rw [Links.rootOf_congr hn, hxd]
  · rw [Links.rootOf_congr hn, hxf]
  · refine hra.congr hn (fun q hq => hsame q (CTree.mem_ptrs_mk.mpr (.inl hq)) ?_ ?_ ?_)
    · rintro rfl; exact hxa hq
    · rintro rfl; exact (har q hq).2.1 rfl
    · intro k
      by_contra hb
      exact (har q hq).1 (k ▸ hroot hb)
  · refine hrb.reparent hn hdb (fun q hq hqr => hsame q ?_ ?_ ?_ ?_) (fun hb => ⟨?_, ?_, fun s => ?_⟩)
    · exact CTree.mem_ptrs_mk.mpr (.inr (.inr (CTree.mem_ptrs_mk.mpr (.inl hq))))
    · rintro rfl; exact hxb hq
    · rintro rfl; exact hyb hq
    · intro k; exact absurd k hqr
    · have h1 : L.rootOf b ≠ x := fun k => hxb (k ▸ hroot hb)
      have h2 : L.rootOf b ≠ y := fun k => hyb (k ▸ hroot hb)
      have h3 : L.rootOf b ≠ L.nil := hnil _ (.inr (.inr (.inl (hroot hb))))
      rw [hpar, if_neg h1, if_neg (fun k => h2 k.1), if_pos ⟨rfl, h3⟩]
    · rw [hcol]
    · have h1 : L.rootOf b ≠ x := fun k => hxb (k ▸ hroot hb)
      have h2 : L.rootOf b ≠ y := fun k => hyb (k ▸ hroot hb)
      rw [hch _ (.inr (.inr (.inl (hroot hb)))), if_neg (fun k => h2 k.1), if_neg (fun k => h1 k.1)]
  · refine hre.congr hn (fun q hq => hsame q ?_ ?_ ?_ ?_)
    · exact CTree.mem_ptrs_mk.mpr (.inr (.inr (CTree.mem_ptrs_mk.mpr (.inr (.inr hq)))))
    · rintro rfl; exact hxe hq
    · rintro rfl; exact hye hq
    · intro k
      by_contra hb
      exact hbe q (k ▸ hroot hb) hq

/-- **A rotation in memory is the rotation of the tree.** -/
theorem At.rotate {x : P} {y : P} (h : At L ctx (CTree.mk d c a x (CTree.mk d c' b y e))) :
    At (L.rotate d x) ctx (CTree.mk d c' (CTree.mk d c a x b) y e) := by
  have hcx := h.cell
  have hcy := h.down_flip.cell
  rw [Links.rootOf_mk] at hcx
  have hsub := nodup_of_plug h.nodup
  have hxin : x ∈ (CTree.mk d c a x (CTree.mk d c' b y e)).ptrs := CTree.mem_ptrs_mk.mpr (.inr (.inl rfl))
  have hyin : y ∈ (CTree.mk d c a x (CTree.mk d c' b y e)).ptrs :=
    CTree.mem_ptrs_mk.mpr (.inr (.inr (CTree.mem_ptrs_mk.mpr (.inr (.inl rfl)))))
  have hxn := h.proper_sub hxin
  have hyn := h.proper_sub hyin
  obtain ⟨-, hxr, -, -, -⟩ := CTree.nodup_mk.mp hsub
  simp only [CTree.mem_ptrs_mk, not_or] at hxr
  obtain ⟨hxb, hxy, -⟩ := hxr
  have hxb' := Links.ne_rootOf hxb hxn.1
  have hpar := Links.rotate_parent hcx.2.2.2 hcy.2.2.1 hxy hxb' hxn.1
  have hroot := Links.rotate_root hcx.2.2.2 hcy.2.2.1 hxy hxb'
  have hptrs := plug_ptrs_congr ctx (CTree.ptrs_rotate d c' c c c' a x b y e)
  have hnil : ∀ p ∈ (CTree.mk d c a x (CTree.mk d c' b y e)).ptrs, p ≠ L.nil :=
    fun p hp => (h.proper_sub hp).1
  have hproper : ∀ p ∈ (plug ctx (CTree.mk d c' (CTree.mk d c a x b) y e)).ptrs,
      p ≠ (L.rotate d x).nil ∧ p ≠ (L.rotate d x).null := by
    rw [hptrs, Links.rotate_nil, Links.rotate_null]
    exact h.proper
  have hnilx : ¬ (L.nil = x) := fun k => hxn.1 k.symm
  have hnily : ¬ (L.nil = y) := fun k => hyn.1 k.symm
  rw [hcx.1] at hroot
  cases ctx with
  | nil =>
    have hch := Links.rotate_child_root hcx.2.2.2 hcy.2.2.1 hxy hxb' hcx.1
    refine ⟨trivial, ?_, hptrs ▸ h.nodup, ?_, hproper, ?_, fun s => ?_⟩
    · have hrep := Links.rep_rotate h.sub hsub hnil (Links.rotate_nil L d x)
        (Links.rotate_color L d x) hpar (fun q _ s => hch q s)
      rwa [Links.top_congr (Links.rotate_null L d x)]
    · rw [hroot]
      exact (if_pos rfl).trans (Links.rootOf_mk ..).symm
    · rw [Links.rotate_color, Links.rotate_nil]; exact h.nilColor
    · rw [Links.rotate_nil, hch, if_neg (fun k => hnily k.1), if_neg (fun k => hnilx k.1)]
      exact h.nilChild s
  | cons f fs =>
    have hf := h.frame
    rw [Links.rootOf_mk] at hf
    have hfn := h.proper_frame
    have hnd := h.frame_nodup
    have hfx : f.ptr ≠ x := fun k => hnd.1 (k ▸ hxin)
    have hpx : L.parent x = f.ptr := hcx.1
    have hsib : L.child f.ptr f.side.flip ≠ x := by
      have := h.root_ne_sib (by cases d <;> simp [CTree.mk])
      rw [Links.rootOf_mk] at this
      rw [hf.2.2.2]
      exact this.symm
    have hch := Links.rotate_child hcx.2.2.2 hcy.2.2.1 hxy hxb' f.side (hpx ▸ hfn.2) (hpx ▸ hfx)
      (hpx ▸ hf.2.2.1) (hpx ▸ hsib)
    rw [hpx] at hch
    have hbctx : ∀ q ∈ before (f :: fs) ++ after (f :: fs),
        q ∉ (CTree.mk d c a x (CTree.mk d c' b y e)).ptrs :=
      fun q hq hm => not_mem_ctx h.nodup hm hq
    -- a node of the surroundings is neither `x` nor `y` nor the root of `b`
    have hctxpar : ∀ q ∈ before (f :: fs) ++ after (f :: fs), (L.rotate d x).parent q = L.parent q := by
      intro q hq
      have hm := hbctx q hq
      simp only [CTree.mem_ptrs_mk, not_or] at hm
      obtain ⟨-, hqx, hqb, hqy, -⟩ := hm
      have hqb' : ¬ (q = L.rootOf b ∧ L.rootOf b ≠ L.nil) := by
        rintro ⟨h1, h2⟩
        by_cases hbl : b = .leaf
        · rw [hbl] at h2; exact h2 rfl
        · exact hqb (h1 ▸ Links.rootOf_mem hbl)
      rw [hpar, if_neg hqx, if_neg (fun k => hqy k.1), if_neg hqb']
    have hctxch : ∀ q ∈ before (f :: fs) ++ after (f :: fs), ∀ s, (L.rotate d x).child q s =
        if q = f.ptr ∧ s = f.side then y else L.child q s := by
      intro q hq s
      have hm := hbctx q hq
      simp only [CTree.mem_ptrs_mk, not_or] at hm
      obtain ⟨-, hqx, -, hqy, -⟩ := hm
      rw [hch, if_neg (fun k => hqy k.1), if_neg (fun k : q = x ∧ _ => hqx k.1)]
    have hfin : f.ptr ∈ before (f :: fs) ++ after (f :: fs) := mem_ctx_cons.mpr (.inl rfl)
    refine ⟨?_, ?_, hptrs ▸ h.nodup, ?_, hproper, ?_, fun s => ?_⟩
    · rw [Links.rootOf_mk]
      refine h.around.rehole (Links.rotate_nil L d x) (Links.rotate_null L d x) ?_ hnd.2
        (hctxpar _ hfin) (by rw [Links.rotate_color]) ?_ ?_
      · intro q hq hqf
        refine ⟨hctxpar q hq, by rw [Links.rotate_color], fun s => ?_⟩
        rw [hctxch q hq, if_neg (fun k => hqf k.1)]
      · rw [hctxch _ hfin, if_pos ⟨rfl, rfl⟩]
      · rw [hctxch _ hfin, if_neg (fun k => f.side.flip_ne k.2)]
    · refine Links.rep_rotate h.sub hsub hnil (Links.rotate_nil L d x)
        (Links.rotate_color L d x) hpar (fun q hq s => ?_)
      rw [hch, if_neg (fun k : q = f.ptr ∧ _ => hnd.1 (k.1 ▸ hq))]
    · rw [hroot, if_neg h.top_ne_null, h.root, Links.rootOf_congr (Links.rotate_nil L d x)]
      exact root_plug_cons L f fs _ _
    · rw [Links.rotate_color, Links.rotate_nil]; exact h.nilColor
    · rw [Links.rotate_nil, hch, if_neg (fun k => hnily k.1), if_neg (fun k => hfn.1 k.1.symm),
        if_neg (fun k => hnilx k.1)]
      exact h.nilChild s

lemma At.rotate_parent_nil {x : P} {y : P} (h : At L ctx (CTree.mk d c a x (CTree.mk d c' b y e))) :
    (L.rotate d x).parent L.nil = L.parent L.nil := by
  have hcx := h.cell
  have hcy := h.down_flip.cell
  rw [Links.rootOf_mk] at hcx
  have hx := h.proper_sub (p := x) (CTree.mem_ptrs_mk.mpr (.inr (.inl rfl)))
  have hy := h.down_flip.proper_sub (p := y) (CTree.mem_ptrs_mk.mpr (.inr (.inl rfl)))
  obtain ⟨-, hxr, -, -, -⟩ := CTree.nodup_mk.mp (nodup_of_plug h.nodup)
  simp only [CTree.mem_ptrs_mk, not_or] at hxr
  have hxb' := Links.ne_rootOf hxr.1 hx.1
  rw [Links.rotate_parent hcx.2.2.2 hcy.2.2.1 hxr.2.1 hxb' hx.1, if_neg (fun k => hx.1 k.symm),
    if_neg (fun k => hy.1 k.1.symm), if_neg (fun k => k.2 k.1.symm)]

end PTree
