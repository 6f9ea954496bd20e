import TraceSyscallObj.Lib.Focus

/-!
# Taking a node out and hanging a node in

`splice y x` takes the node `y` out of the tree: its only child `x` (possibly the sentinel, whose
parent field is then written as well) moves up.  `attach x g s` hangs the new red node `x` below
`g` on the side `s`, or makes it the root when there is no `g`.
-/

namespace PTree
variable {P : Type} [DecidableEq P] {L : Links P} {ctx : List (Frame P)}

namespace Links

def splice (L : Links P) (y x : P) : Links P :=
  let L₁ := L.setParent x (L.parent y)
  L₁.relink .left (L₁.parent y) y x

/-- the fields of a new red node below `g` -/
def fresh (L : Links P) (x g : P) : Links P :=
  (((L.setParent x g).setChild x .left L.nil).setChild x .right L.nil).setColor x .red

def attach (L : Links P) (x g : P) (s : Dir) : Links P :=
  if g ≠ L.null then (L.fresh x g).setChild g s x else (L.fresh x g).setRoot x

section
variable (L : Links P) (y x g : P) (s : Dir)

@[simp] lemma splice_nil : (L.splice y x).nil = L.nil := by simp [splice]
@[simp] lemma splice_null : (L.splice y x).null = L.null := by simp [splice]
@[simp] lemma splice_color : (L.splice y x).color = L.color := by simp [splice]

lemma splice_parent (q : P) :
    (L.splice y x).parent q = if q = x then L.parent y else L.parent q := by
  simp only [splice, relink_parent, setParent_parent]

lemma splice_root (hxy : y ≠ x) :
    (L.splice y x).root = if L.parent y = L.null then x else L.root := by
  simp only [splice, relink_root, setParent_parent, if_neg hxy]
  rfl

lemma splice_child_root (hxy : y ≠ x) (hg : L.parent y = L.null) (q : P) (e : Dir) :
    (L.splice y x).child q e = L.child q e := by
  simp only [splice, setParent_parent, if_neg hxy, hg]
  exact relink_child_root (L.setParent x L.null) _ _ _ _ _ _ rfl

lemma splice_child (hxy : y ≠ x) (hg : L.parent y ≠ L.null) (hs : L.child (L.parent y) s = y)
    (hs' : L.child (L.parent y) s.flip ≠ y) (q : P) (e : Dir) :
    (L.splice y x).child q e = if q = L.parent y ∧ e = s then x else L.child q e := by
  simp only [splice, setParent_parent, if_neg hxy]
  exact relink_child (L.setParent x (L.parent y)) _ _ _ _ s hg hs hs' q e

@[simp] lemma attach_nil : (L.attach x g s).nil = L.nil := by unfold attach; split <;> rfl
@[simp] lemma attach_null : (L.attach x g s).null = L.null := by unfold attach; split <;> rfl

lemma attach_parent (q : P) : (L.attach x g s).parent q = if q = x then g else L.parent q := by
  unfold attach; split <;> rfl

lemma attach_color (q : P) : (L.attach x g s).color q = if q = x then .red else L.color q := by
  unfold attach; split <;> rfl

lemma fresh_child (q : P) (e : Dir) :
    (L.fresh x g).child q e = if q = x then L.nil else L.child q e := by
  show (if q = x ∧ e = .right then L.nil else if q = x ∧ e = .left then L.nil else L.child q e) = _
  by_cases h : q = x
  · cases e <;> simp [h]
  · simp [h]

lemma attach_child (hg : g ≠ L.null) (q : P) (e : Dir) : (L.attach x g s).child q e =
    if q = g ∧ e = s then x else if q = x then L.nil else L.child q e := by
  unfold attach
  rw [if_pos hg, setChild_child, fresh_child]

lemma attach_child_root (hg : g = L.null) (q : P) (e : Dir) :
    (L.attach x g s).child q e = if q = x then L.nil else L.child q e := by
  unfold attach
  rw [if_neg (fun k => k hg), setRoot_child, fresh_child]

lemma attach_root : (L.attach x g s).root = if g = L.null then x else L.root := by
  unfold attach
  by_cases hg : g = L.null
  · rw [if_neg (fun k => k hg), if_pos hg, setRoot_root]
  · rw [if_pos hg, if_neg hg]; rfl

end
end Links

/-- **Taking out a node with a leaf below it**: the other child moves up. -/
theorem At.splice {d : Dir} {c : Color} {y : P} {x : CTree P}
    (h : At L ctx (CTree.mk d c .leaf y x)) : At (L.splice y (L.rootOf x)) ctx x := by
  obtain ⟨hcy, -, hrx⟩ := Links.rep_mk.mp h.sub
  have hyin : y ∈ (CTree.mk d c .leaf y x).ptrs := CTree.mem_ptrs_mk.mpr (.inr (.inl rfl))
  have hxin : ∀ q ∈ x.ptrs, q ∈ (CTree.mk d c .leaf y x).ptrs :=
    fun q hq => CTree.mem_ptrs_mk.mpr (.inr (.inr hq))
  obtain ⟨-, hyx, -, hdx, -⟩ := CTree.nodup_mk.mp (nodup_of_plug h.nodup)
  have hyn := h.proper_sub hyin
  have hyr : y ≠ L.rootOf x := Links.ne_rootOf hyx hyn.1
  -- the nodes left are those of before, without `y`
  have hsub : ∀ q ∈ (plug ctx x).ptrs, q ∈ (plug ctx (CTree.mk d c .leaf y x)).ptrs := by
    intro q hq
    rcases mem_plug.mp hq with h1 | h1
    · exact mem_plug.mpr (.inl (hxin q h1))
    · exact mem_plug.mpr (.inr h1)
  have hnodup : (plug ctx x).ptrs.Nodup := by
    have hd := h.nodup
    have hsl : x.ptrs.Sublist (CTree.mk d c .leaf y x).ptrs := by
      cases d <;> simp [CTree.mk, CTree.ptrs]
    rw [plug_ptrs] at hd ⊢
    exact hd.sublist (((List.Sublist.refl _).append hsl).append (List.Sublist.refl _))
  have hproper : ∀ p ∈ (plug ctx x).ptrs, p ≠ (L.splice y (L.rootOf x)).nil ∧
      p ≠ (L.splice y (L.rootOf x)).null := by
    rw [Links.splice_nil, Links.splice_null]
    exact fun p hp => h.proper p (hsub p hp)
  have hpar := Links.splice_parent L y (L.rootOf x)
  have hrep : (∀ q ∈ x.ptrs, ∀ s, (L.splice y (L.rootOf x)).child q s = L.child q s) →
      (L.splice y (L.rootOf x)).Rep (L.top ctx) x := by
    intro hch
    refine hrx.reparent (Links.splice_nil ..) hdx (fun q hq hqr => ⟨?_, ?_, hch q hq⟩)
      (fun hx => ⟨?_, ?_, hch _ (Links.rootOf_mem hx)⟩)
    · rw [hpar, if_neg hqr]
    · rw [Links.splice_color]
    · rw [hpar, if_pos rfl]; exact hcy.1
    · rw [Links.splice_color]
  cases ctx with
  | nil =>
    have hch := Links.splice_child_root L y (L.rootOf x) hyr hcy.1
    refine ⟨trivial, ?_, hnodup, ?_, hproper, ?_, fun s => ?_⟩
    · rw [Links.top_congr (Links.splice_null ..)]
      exact hrep (fun q _ => hch q)
    · rw [Links.splice_root L _ _ hyr, Links.rootOf_congr (Links.splice_nil ..)]
      exact if_pos hcy.1
    · rw [Links.splice_color, Links.splice_nil]; exact h.nilColor
    · rw [hch, Links.splice_nil]; exact h.nilChild s
  | cons f fs =>
    have hf := h.frame
    rw [Links.rootOf_mk] at hf
    have hnd := h.frame_nodup
    have hfn := h.proper_frame
    have hsib : L.child f.ptr f.side.flip ≠ y := by
      have := h.root_ne_sib CTree.mk_ne_leaf
      rw [Links.rootOf_mk] at this
      rw [hf.2.2.2]
      exact this.symm
    have hpy : L.parent y = f.ptr := hcy.1
    have hch := Links.splice_child L y (L.rootOf x) f.side hyr (hpy ▸ hfn.2) (hpy ▸ hf.2.2.1)
      (hpy ▸ hsib)
    rw [hpy] at hch
    have hxctx : ∀ q ∈ before (f :: fs) ++ after (f :: fs), q ≠ L.rootOf x := by
      intro q hq
      exact Links.ne_rootOf (fun hm => not_mem_ctx h.nodup (hxin q hm) hq) (h.proper_ctx hq).1
    have hfin : f.ptr ∈ before (f :: fs) ++ after (f :: fs) := mem_ctx_cons.mpr (.inl rfl)
    refine ⟨?_, ?_, hnodup, ?_, hproper, ?_, fun s => ?_⟩
    · rw [Links.rootOf_congr (Links.splice_nil ..)]
      refine h.around.rehole (Links.splice_nil ..) (Links.splice_null ..) ?_ hnd.2 ?_ ?_ ?_ ?_
      · intro q hq hqf
        refine ⟨?_, by rw [Links.splice_color], fun s => ?_⟩
        · rw [hpar, if_neg (hxctx q hq)]
        · rw [hch, if_neg (fun k => hqf k.1)]
      · rw [hpar, if_neg (hxctx _ hfin)]
      · rw [Links.splice_color]
      · rw [hch, if_pos ⟨rfl, rfl⟩]
      · rw [hch, if_neg (fun k => f.side.flip_ne k.2)]
    · refine hrep (fun q hq s => ?_)
      rw [hch, if_neg (fun k : q = f.ptr ∧ _ => hnd.1 (k.1 ▸ hxin q hq))]
    · rw [Links.splice_root L _ _ hyr, hpy, if_neg hfn.2, h.root,
        Links.rootOf_congr (Links.splice_nil ..)]
      exact root_plug_cons L f fs _ _
    · rw [Links.splice_color, Links.splice_nil]; exact h.nilColor
    · rw [Links.splice_nil, hch, if_neg (fun k : L.nil = f.ptr ∧ _ => hfn.1 k.1.symm)]
      exact h.nilChild s

/-- **A new red node in the place of a leaf.** -/
theorem At.attach {x : P} {s : Dir} (h : At L ctx .leaf) (hx : x ∉ (plug ctx .leaf).ptrs)
    (hxn : x ≠ L.nil) (hxu : x ≠ L.null) (hs : ∀ f fs, ctx = f :: fs → s = f.side) :
    At (L.attach x (L.top ctx) s) ctx (.node .red .leaf x .leaf) := by
  have hptrs : ∀ p, p ∈ (plug ctx (.node .red .leaf x .leaf)).ptrs ↔
      p = x ∨ p ∈ (plug ctx .leaf).ptrs := by
    intro p
    rw [mem_plug, mem_plug]
    simp [CTree.ptrs]
  have hnodup : (plug ctx (.node .red .leaf x .leaf)).ptrs.Nodup := by
    have hd := h.nodup
    rw [plug_ptrs] at hd hx ⊢
    simp only [List.append_assoc] at hd hx ⊢
    exact List.nodup_middle.mpr (List.nodup_cons.mpr ⟨hx, hd⟩)
  have hproper : ∀ p ∈ (plug ctx (.node .red .leaf x .leaf)).ptrs,
      p ≠ (L.attach x (L.top ctx) s).nil ∧ p ≠ (L.attach x (L.top ctx) s).null := by
    intro p hp
    rw [Links.attach_nil, Links.attach_null]
    rcases (hptrs p).mp hp with rfl | hp'
    · exact ⟨hxn, hxu⟩
    · exact h.proper p hp'
  have hpar := Links.attach_parent L x (L.top ctx) s
  have hcol := Links.attach_color L x (L.top ctx) s
  have hnx : ¬ (L.nil = x) := fun k => hxn k.symm
  cases ctx with
  | nil =>
    have hch := Links.attach_child_root L x (L.top []) s rfl
    refine ⟨trivial, ⟨⟨?_, ?_, ?_, ?_⟩, trivial, trivial⟩, hnodup, ?_, hproper, ?_, fun e => ?_⟩
    · rw [hpar, if_pos rfl, Links.top_congr (Links.attach_null ..)]
    · rw [hcol, if_pos rfl]
    · rw [hch, if_pos rfl, Links.rootOf, Links.attach_nil]
    · rw [hch, if_pos rfl, Links.rootOf, Links.attach_nil]
    · rw [Links.attach_root]; exact if_pos rfl
    · rw [hcol, Links.attach_nil, if_neg hnx]; exact h.nilColor
    · rw [hch, Links.attach_nil, if_neg hnx]; exact h.nilChild e
  | cons f fs =>
    have hsf : s = f.side := hs f fs rfl
    subst hsf
    have hfn := h.proper_frame
    have hnd := h.frame_nodup
    have hfx : f.ptr ≠ x := fun k => hx (k ▸ mem_plug.mpr (.inr (mem_ctx_cons.mpr (.inl rfl))))
    have hch := Links.attach_child L x (L.top (f :: fs)) f.side hfn.2
    have hxctx : ∀ q ∈ before (f :: fs) ++ after (f :: fs), q ≠ x :=
      fun q hq k => hx (k ▸ mem_plug.mpr (.inr hq))
    have hfch : ∀ q e, q ≠ f.ptr → q ≠ x →
        (L.attach x (L.top (f :: fs)) f.side).child q e = L.child q e := by
      intro q e hqf hqx
      rw [hch, if_neg (fun k => hqf k.1), if_neg hqx]
    have hxch : ∀ e, (L.attach x (L.top (f :: fs)) f.side).child x e = L.nil := by
      intro e
      rw [hch, if_neg (fun k => hfx k.1.symm), if_pos rfl]
    refine ⟨?_, ⟨⟨?_, ?_, ?_, ?_⟩, trivial, trivial⟩, hnodup, ?_, hproper, ?_, fun e => ?_⟩
    · refine h.around.rehole (Links.attach_nil ..) (Links.attach_null ..) ?_ hnd.2 ?_ ?_ ?_ ?_
      · intro q hq hqf
        refine ⟨?_, ?_, fun e => hfch q e hqf (hxctx q hq)⟩
        · rw [hpar, if_neg (hxctx q hq)]
        · rw [hcol, if_neg (hxctx q hq)]
      · rw [hpar, if_neg hfx]
      · rw [hcol, if_neg hfx]
      · rw [hch, if_pos ⟨rfl, rfl⟩]; rfl
      · rw [hch, if_neg (fun k => f.side.flip_ne k.2), if_neg hfx]
    · rw [hpar, if_pos rfl, Links.top_congr (Links.attach_null ..)]
    · rw [hcol, if_pos rfl]
    · rw [hxch, Links.rootOf, Links.attach_nil]
    · rw [hxch, Links.rootOf, Links.attach_nil]
    · rw [Links.attach_root, if_neg h.top_ne_null, h.root, Links.rootOf_congr (Links.attach_nil ..)]
      exact root_plug_cons L f fs _ _
    · rw [hcol, Links.attach_nil, if_neg hnx]; exact h.nilColor
    · rw [Links.attach_nil, hfch _ _ (fun k => hfn.1 k.symm) hnx]; exact h.nilChild e

lemma At.splice_parent_root {d : Dir} {c : Color} {y : P} {x : CTree P}
    (h : At L ctx (CTree.mk d c .leaf y x)) :
    (L.splice y (L.rootOf x)).parent (L.rootOf x) = L.top ctx := by
  rw [Links.splice_parent, if_pos rfl]
  exact h.cell.1

end PTree
