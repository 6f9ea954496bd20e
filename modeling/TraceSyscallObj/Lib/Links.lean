import TraceSyscallObj.Lib.Tree

/-!
# Trees in memory: child, parent and colour fields around a shared sentinel

`Links P` is the pointer part of a linked binary tree: a root variable and, for every node, its
two child fields, its parent field and its colour.  `nil` is the one shared leaf, `null` the
parent of the root.  Fields of a name that is not in the tree may hold anything.

`At L ctx t` says that the links hold exactly the tree `plug ctx t`, seen from its subtree `t`.
Every pointer algorithm is then a sequence of

* `At.up`, `At.down`: move the focus along one edge (nothing is written);
* `At.paint`: recolour the root of the focus;
* `At.rotate`: rotate at the root of the focus;
* `At.splice`: take the root of the focus out, when one of its children is a leaf;
* `At.attach`: hang a new red node in the place of a leaf.
-/

namespace PTree

structure Links (P : Type) where
  nil : P
  null : P
  root : P
  child : P → Dir → P
  parent : P → P
  color : P → Color

namespace Links
variable {P : Type}

section fields
variable [DecidableEq P]

def setChild (L : Links P) (p : P) (d : Dir) (v : P) : Links P :=
  { L with child := fun q e => if q = p ∧ e = d then v else L.child q e }

def setParent (L : Links P) (p v : P) : Links P :=
  { L with parent := fun q => if q = p then v else L.parent q }

def setColor (L : Links P) (p : P) (c : Color) : Links P :=
  { L with color := fun q => if q = p then c else L.color q }

variable (L : Links P) (p v : P) (d : Dir) (c : Color)

@[simp] lemma setChild_nil : (L.setChild p d v).nil = L.nil := rfl
@[simp] lemma setChild_null : (L.setChild p d v).null = L.null := rfl
@[simp] lemma setChild_root : (L.setChild p d v).root = L.root := rfl
@[simp] lemma setChild_parent : (L.setChild p d v).parent = L.parent := rfl
@[simp] lemma setChild_color : (L.setChild p d v).color = L.color := rfl
@[simp] lemma setChild_child (q : P) (e : Dir) :
    (L.setChild p d v).child q e = if q = p ∧ e = d then v else L.child q e := rfl

@[simp] lemma setParent_nil : (L.setParent p v).nil = L.nil := rfl
@[simp] lemma setParent_null : (L.setParent p v).null = L.null := rfl
@[simp] lemma setParent_color : (L.setParent p v).color = L.color := rfl
@[simp] lemma setParent_parent (q : P) :
    (L.setParent p v).parent q = if q = p then v else L.parent q := rfl

@[simp] lemma setColor_color (q : P) :
    (L.setColor p c).color q = if q = p then c else L.color q := rfl

end fields

def setRoot (L : Links P) (v : P) : Links P := { L with root := v }

@[simp] lemma setRoot_root (L : Links P) (v : P) : (L.setRoot v).root = v := rfl
@[simp] lemma setRoot_child (L : Links P) (v : P) : (L.setRoot v).child = L.child := rfl

/-! ## the tree held by the links -/

def rootOf (L : Links P) : CTree P → P
  | .leaf => L.nil
  | .node _ _ p _ => p

/-- the name of the nearest parent -/
def top (L : Links P) : List (Frame P) → P
  | [] => L.null
  | f :: _ => f.ptr

/-- the fields of `p`: parent, colour, child on the side `d`, child on the other side -/
def Cell (L : Links P) (p par : P) (c : Color) (d : Dir) (a b : P) : Prop :=
  L.parent p = par ∧ L.color p = c ∧ L.child p d = a ∧ L.child p d.flip = b

/-- the links below `par` hold the tree `t` -/
def Rep (L : Links P) (par : P) : CTree P → Prop
  | .leaf => True
  | .node c l p r => L.Cell p par c .left (L.rootOf l) (L.rootOf r) ∧ L.Rep p l ∧ L.Rep p r

/-- the links around a subtree with root `hole` hold the frames of the path -/
def RepCtx (L : Links P) : List (Frame P) → P → Prop
  | [], _ => True
  | f :: fs, hole => L.Cell f.ptr (L.top fs) f.color f.side hole (L.rootOf f.sib) ∧
      L.Rep f.ptr f.sib ∧ L.RepCtx fs f.ptr

def Same (L L' : Links P) (p : P) : Prop :=
  L'.parent p = L.parent p ∧ L'.color p = L.color p ∧ ∀ d, L'.child p d = L.child p d

variable {L L' : Links P}

@[simp] lemma rootOf_mk (d : Dir) (c : Color) (a : CTree P) (p : P) (b : CTree P) :
    L.rootOf (CTree.mk d c a p b) = p := by cases d <;> rfl

lemma rootOf_congr (h : L'.nil = L.nil) (t : CTree P) : L'.rootOf t = L.rootOf t := by
  cases t with
  | leaf => exact h
  | node c l p r => rfl

lemma top_congr (h : L'.null = L.null) (fs : List (Frame P)) : L'.top fs = L.top fs := by
  cases fs with
  | nil => exact h
  | cons f fs => rfl

lemma rootOf_mem {t : CTree P} (h : t ≠ .leaf) : L.rootOf t ∈ t.ptrs := by
  cases t with
  | leaf => exact absurd rfl h
  | node c l p r => simp [rootOf, CTree.ptrs]

lemma ne_rootOf {t : CTree P} {x : P} (hx : x ∉ t.ptrs) (hn : x ≠ L.nil) : x ≠ L.rootOf t := by
  intro e
  by_cases ht : t = .leaf
  · rw [ht] at e; exact hn e
  · exact hx (e ▸ rootOf_mem ht)

lemma rep_mk {d : Dir} {c : Color} {a : CTree P} {p par : P} {b : CTree P} :
    L.Rep par (CTree.mk d c a p b) ↔
      L.Cell p par c d (L.rootOf a) (L.rootOf b) ∧ L.Rep p a ∧ L.Rep p b := by
  cases d with
  | left => exact Iff.rfl
  | right => simp only [CTree.mk, Rep, Cell]; tauto

lemma Same.cell {p par : P} {c : Color} {d : Dir} {a b : P} (h : L.Same L' p)
    (hc : L.Cell p par c d a b) : L'.Cell p par c d a b := by
  obtain ⟨h1, h2, h3⟩ := h
  exact ⟨h1 ▸ hc.1, h2 ▸ hc.2.1, (h3 d) ▸ hc.2.2.1, (h3 d.flip) ▸ hc.2.2.2⟩

lemma Rep.congr {par : P} {t : CTree P} (hr : L.Rep par t) (hn : L'.nil = L.nil)
    (h : ∀ p ∈ t.ptrs, L.Same L' p) : L'.Rep par t := by
  induction t generalizing par with
  | leaf => trivial
  | node c l p r ihl ihr =>
    obtain ⟨hc, hl, hr⟩ := hr
    refine ⟨?_, ihl hl (fun q hq => h q ?_), ihr hr (fun q hq => h q ?_)⟩
    · rw [rootOf_congr hn, rootOf_congr hn]
      exact (h p (by simp [CTree.ptrs])).cell hc
    · simp [CTree.ptrs, hq]
    · simp [CTree.ptrs, hq]

lemma Rep.unique {par : P} {t t' : CTree P} (h : L.Rep par t) (h' : L.Rep par t')
    (hr : L.rootOf t = L.rootOf t') (hn : ∀ p ∈ t.ptrs, p ≠ L.nil)
    (hn' : ∀ p ∈ t'.ptrs, p ≠ L.nil) : t = t' := by
  induction t generalizing par t' with
  | leaf =>
    by_contra hne
    exact hn' _ (rootOf_mem (fun e => hne e.symm)) hr.symm
  | node c l p r ihl ihr =>
    cases t' with
    | leaf => exact absurd hr (hn p (by simp [CTree.ptrs]))
    | node c' l' p' r' =>
      have hp : p = p' := hr
      subst hp
      obtain ⟨⟨-, hc, hl, hrt⟩, h1, h2⟩ := h
      obtain ⟨⟨-, hc', hl', hrt'⟩, h1', h2'⟩ := h'
      have e1 := ihl h1 h1' (hl.symm.trans hl') (fun q hq => hn q (by simp [CTree.ptrs, hq]))
        (fun q hq => hn' q (by simp [CTree.ptrs, hq]))
      have e2 := ihr h2 h2' (hrt.symm.trans hrt') (fun q hq => hn q (by simp [CTree.ptrs, hq]))
        (fun q hq => hn' q (by simp [CTree.ptrs, hq]))
      rw [e1, e2, ← hc, ← hc']

lemma Rep.reparent {par par' : P} {t : CTree P} (hr : L.Rep par t) (hn : L'.nil = L.nil)
    (hd : t.ptrs.Nodup) (h : ∀ p ∈ t.ptrs, p ≠ L.rootOf t → L.Same L' p)
    (hroot : t ≠ .leaf → L'.parent (L.rootOf t) = par' ∧
      L'.color (L.rootOf t) = L.color (L.rootOf t) ∧
      ∀ d, L'.child (L.rootOf t) d = L.child (L.rootOf t) d) : L'.Rep par' t := by
  cases t with
  | leaf => trivial
  | node c l p r =>
    obtain ⟨hc, hl, hr⟩ := hr
    obtain ⟨h1, h2, h3⟩ := hroot (by simp)
    have hnd := (CTree.nodup_mk (d := .left) (c := c)).mp hd
    refine ⟨⟨h1, ?_, ?_, ?_⟩, hl.congr hn (fun q hq => h q ?_ ?_), hr.congr hn (fun q hq => h q ?_ ?_)⟩
    · exact h2.trans hc.2.1
    · rw [rootOf_congr hn]; exact (h3 .left).trans hc.2.2.1
    · rw [rootOf_congr hn]; exact (h3 _).trans hc.2.2.2
    · simp [CTree.ptrs, hq]
    · rintro rfl; exact hnd.1 hq
    · simp [CTree.ptrs, hq]
    · rintro rfl; exact hnd.2.1 hq

lemma RepCtx.congr {fs : List (Frame P)} {hole : P} (hr : L.RepCtx fs hole)
    (hn : L'.nil = L.nil) (hu : L'.null = L.null) (h : ∀ p ∈ before fs ++ after fs, L.Same L' p) :
    L'.RepCtx fs hole := by
  induction fs generalizing hole with
  | nil => trivial
  | cons f fs ih =>
    obtain ⟨hc, hs, hr⟩ := hr
    refine ⟨?_, hs.congr hn (fun q hq => h q ?_), ih hr (fun q hq => h q ?_)⟩
    · rw [rootOf_congr hn, top_congr hu]
      exact (h f.ptr (mem_ctx_cons.mpr (.inl rfl))).cell hc
    · exact mem_ctx_cons.mpr (.inr (.inl hq))
    · exact mem_ctx_cons.mpr (.inr (.inr hq))

/-- a new subtree in the hole: the nearest parent names it, the rest of the path is untouched -/
lemma RepCtx.rehole {f : Frame P} {fs : List (Frame P)} {hole hole' : P}
    (hr : L.RepCtx (f :: fs) hole) (hn : L'.nil = L.nil) (hu : L'.null = L.null)
    (h : ∀ p ∈ before (f :: fs) ++ after (f :: fs), p ≠ f.ptr → L.Same L' p)
    (hd : f.ptr ∉ f.sib.ptrs ∧ f.ptr ∉ before fs ++ after fs)
    (hp : L'.parent f.ptr = L.parent f.ptr) (hcol : L'.color f.ptr = L.color f.ptr)
    (hch : L'.child f.ptr f.side = hole')
    (hch' : L'.child f.ptr f.side.flip = L.child f.ptr f.side.flip) : L'.RepCtx (f :: fs) hole' := by
  obtain ⟨hc, hs, hr⟩ := hr
  refine ⟨⟨?_, hcol.trans hc.2.1, hch, ?_⟩, hs.congr hn (fun q hq => h q ?_ ?_),
    hr.congr hn hu (fun q hq => h q ?_ ?_)⟩
  · rw [top_congr hu]; exact hp.trans hc.1
  · rw [rootOf_congr hn]; exact hch'.trans hc.2.2.2
  · exact mem_ctx_cons.mpr (.inr (.inl hq))
  · rintro rfl; exact hd.1 hq
  · exact mem_ctx_cons.mpr (.inr (.inr hq))
  · rintro rfl; exact hd.2 hq

end Links

/-- **The links hold the tree `plug ctx t`**, seen from its subtree `t`. -/
structure At {P : Type} (L : Links P) (ctx : List (Frame P)) (t : CTree P) : Prop where
  around : L.RepCtx ctx (L.rootOf t)
  sub : L.Rep (L.top ctx) t
  nodup : (plug ctx t).ptrs.Nodup
  root : L.root = L.rootOf (plug ctx t)
  proper : ∀ p ∈ (plug ctx t).ptrs, p ≠ L.nil ∧ p ≠ L.null
  nilColor : L.color L.nil = .black
  nilChild : ∀ d, L.child L.nil d = L.nil

end PTree
