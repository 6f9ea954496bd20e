import Mathlib.Data.List.Nodup

/-!
# Coloured binary trees seen from a focus

A tree is labelled with the names of its nodes (`P`), nothing else: the data of a node is looked
up elsewhere.  Everything is stated for a side `d`, so that a mirrored algorithm is treated once:

* `CTree.mk d c a p b`: the node `p` with `a` on the side `d` and `b` on the other side;
* `Frame`, `plug`: the path from a focus up to the root (nearest parent first);
* `BlackH t n`: every path of `t` down to a leaf crosses `n` black nodes;
* `NoRR t`: no red node of `t` has a red child;
* `CtxH`, `CtxNR`: the same two facts for the surroundings of a focus.
-/

namespace PTree

inductive Color where
  | black
  | red
  deriving DecidableEq, Repr

inductive Dir where
  | left
  | right
  deriving DecidableEq, Repr

def Dir.flip : Dir → Dir
  | .left => .right
  | .right => .left

@[simp] lemma Dir.flip_flip (d : Dir) : d.flip.flip = d := by cases d <;> rfl
@[simp] lemma Dir.flip_ne (d : Dir) : d.flip ≠ d := by cases d <;> decide
@[simp] lemma Dir.ne_flip (d : Dir) : d ≠ d.flip := by cases d <;> decide

variable {d : Dir}

lemma Dir.eq_flip_of_ne {e : Dir} (h : e ≠ d) : e = d.flip := by
  cases d <;> cases e <;> first | rfl | exact absurd rfl h

variable {c : Color}

lemma Color.black_ne_red : Color.black ≠ .red := by decide
lemma Color.ne_red : c ≠ .red ↔ c = .black := by cases c <;> decide
lemma Color.ne_black : c ≠ .black ↔ c = .red := by cases c <;> decide

inductive CTree (P : Type) where
  | leaf
  | node (c : Color) (l : CTree P) (p : P) (r : CTree P)

variable {P : Type} {a b t : CTree P} {p : P}

namespace CTree

def mk (d : Dir) (c : Color) (a : CTree P) (p : P) (b : CTree P) : CTree P :=
  match d with
  | .left => .node c a p b
  | .right => .node c b p a

/-- leaves are black -/
def color : CTree P → Color
  | .leaf => .black
  | .node c _ _ _ => c

def paint (c : Color) : CTree P → CTree P
  | .leaf => .leaf
  | .node _ l p r => .node c l p r

/-- the nodes from left to right -/
def ptrs : CTree P → List P
  | .leaf => []
  | .node _ l p r => l.ptrs ++ p :: r.ptrs

lemma mk_flip (d : Dir) (c : Color) (a : CTree P) (p : P) (b : CTree P) :
    mk d.flip c a p b = mk d c b p a := by cases d <;> rfl

lemma exists_mk (d : Dir) (c : Color) (l : CTree P) (p : P) (r : CTree P) :
    ∃ a b, CTree.node c l p r = mk d c a p b := by
  cases d with
  | left => exact ⟨l, r, rfl⟩
  | right => exact ⟨r, l, rfl⟩

lemma mk_ne_leaf :
    mk d c a p b ≠ .leaf := by cases d <;> simp [mk]

@[simp] lemma color_mk (d : Dir) (c : Color) (a : CTree P) (p : P) (b : CTree P) :
    (mk d c a p b).color = c := by cases d <;> rfl

@[simp] lemma paint_mk (c' : Color) (d : Dir) (c : Color) (a : CTree P) (p : P) (b : CTree P) :
    (mk d c a p b).paint c' = mk d c' a p b := by cases d <;> rfl

@[simp] lemma paint_color (t : CTree P) : t.paint t.color = t := by cases t <;> rfl

lemma paint_of_color (h : t.color = c) : t.paint c = t := by
  rw [← h, paint_color]

@[simp] lemma ptrs_paint (c : Color) (t : CTree P) : (t.paint c).ptrs = t.ptrs := by
  cases t <;> rfl

lemma exists_of_red (d : Dir) (h : t.color = .red) : ∃ a p b, t = mk d .red a p b := by
  cases t with
  | leaf => exact absurd h (by simp [color])
  | node c l p r =>
    obtain ⟨a, b, hab⟩ := exists_mk d c l p r
    have hc : c = .red := h
    exact ⟨a, p, b, by rw [hab, hc]⟩

lemma mem_ptrs_mk {q : P} : q ∈ (mk d c a p b).ptrs ↔ q ∈ a.ptrs ∨ q = p ∨ q ∈ b.ptrs := by
  cases d with
  | left => simp [mk, ptrs]
  | right => simp [mk, ptrs]; tauto

lemma nodup_mk :
    (mk d c a p b).ptrs.Nodup ↔
      p ∉ a.ptrs ∧ p ∉ b.ptrs ∧ a.ptrs.Nodup ∧ b.ptrs.Nodup ∧ ∀ q ∈ a.ptrs, q ∉ b.ptrs := by
  cases d with
  | left | right => simp only [mk, ptrs]; grind

lemma ptrs_rotate (d : Dir) (c₁ c₂ c₃ c₄ : Color) (a : CTree P) (x : P) (b : CTree P) (y : P)
    (e : CTree P) : (mk d c₁ (mk d c₂ a x b) y e).ptrs = (mk d c₃ a x (mk d c₄ b y e)).ptrs := by
  cases d <;> simp [mk, ptrs]

lemma ptrs_mk_color (d : Dir) (c c' : Color) (a : CTree P) (p : P) (b : CTree P) :
    (mk d c a p b).ptrs = (mk d c' a p b).ptrs := by cases d <;> rfl

lemma ptrs_mk_congr {c' : Color} {a' : CTree P} {b' : CTree P} (ha : a.ptrs = a'.ptrs)
    (hb : b.ptrs = b'.ptrs) : (mk d c a p b).ptrs = (mk d c' a' p b').ptrs := by
  cases d <;> simp [mk, ptrs, ha, hb]

end CTree

/-! ## the surroundings of a focus -/

/-- a parent of the focus: the focus hangs on the side `side`, `sib` on the other side -/
structure Frame (P : Type) where
  side : Dir
  color : Color
  ptr : P
  sib : CTree P

def Frame.fill (f : Frame P) (t : CTree P) : CTree P := CTree.mk f.side f.color t f.ptr f.sib

def plug : List (Frame P) → CTree P → CTree P
  | [], t => t
  | f :: fs, t => plug fs (f.fill t)

def before : List (Frame P) → List P
  | [] => []
  | f :: fs => before fs ++ (match f.side with
    | .left => []
    | .right => f.sib.ptrs ++ [f.ptr])

def after : List (Frame P) → List P
  | [] => []
  | f :: fs => (match f.side with
    | .left => f.ptr :: f.sib.ptrs
    | .right => []) ++ after fs

lemma plug_ptrs (fs : List (Frame P)) (t : CTree P) :
    (plug fs t).ptrs = before fs ++ t.ptrs ++ after fs := by
  induction fs generalizing t with
  | nil => simp [plug, before, after]
  | cons f fs ih =>
    obtain ⟨side, color, ptr, sib⟩ := f
    cases side <;> simp [plug, before, after, ih, Frame.fill, CTree.mk, CTree.ptrs]

lemma before_append (fs gs : List (Frame P)) : before (fs ++ gs) = before gs ++ before fs := by
  induction fs with
  | nil => simp [before]
  | cons f fs ih => rw [List.cons_append, before, ih, before, List.append_assoc]

lemma after_append (fs gs : List (Frame P)) : after (fs ++ gs) = after fs ++ after gs := by
  induction fs with
  | nil => simp [after]
  | cons f fs ih => rw [List.cons_append, after, ih, after, List.append_assoc]

lemma plug_append (fs gs : List (Frame P)) (t : CTree P) :
    plug (fs ++ gs) t = plug gs (plug fs t) := by
  induction fs generalizing t with
  | nil => rfl
  | cons f fs ih => exact ih (f.fill t)

variable {fs : List (Frame P)}

lemma plug_ne_leaf (h : t ≠ .leaf) : plug fs t ≠ .leaf := by
  induction fs generalizing t with
  | nil => exact h
  | cons f fs ih => exact ih CTree.mk_ne_leaf

lemma exists_focus (h : p ∈ t.ptrs) : ∃ fs c l r, t = plug fs (.node c l p r) := by
  induction t with
  | leaf => simp [CTree.ptrs] at h
  | node c l q r ihl ihr =>
    simp only [CTree.ptrs, List.mem_append, List.mem_cons] at h
    rcases h with h | rfl | h
    · obtain ⟨fs, c', l', r', rfl⟩ := ihl h
      exact ⟨fs ++ [⟨.left, c, q, r⟩], c', l', r', by rw [plug_append]; rfl⟩
    · exact ⟨[], c, l, r, rfl⟩
    · obtain ⟨fs, c', l', r', rfl⟩ := ihr h
      exact ⟨fs ++ [⟨.right, c, q, l⟩], c', l', r', by rw [plug_append]; rfl⟩

lemma exists_splice_ptrs (fs : List (Frame P)) (d : Dir) (c : Color) (y : P) (x : CTree P) :
    ∃ A B, (plug fs (CTree.mk d c .leaf y x)).ptrs = A ++ y :: B ∧ (plug fs x).ptrs = A ++ B := by
  cases d with
  | left => exact ⟨before fs, x.ptrs ++ after fs, by simp [plug_ptrs, CTree.mk, CTree.ptrs],
      by simp [plug_ptrs]⟩
  | right => exact ⟨before fs ++ x.ptrs, after fs, by simp [plug_ptrs, CTree.mk, CTree.ptrs],
      by simp [plug_ptrs]⟩

lemma length_le_plug (fs : List (Frame P)) (t : CTree P) :
    fs.length + t.ptrs.length ≤ (plug fs t).ptrs.length := by
  induction fs generalizing t with
  | nil => simp [plug]
  | cons f fs ih =>
    have h := ih (f.fill t)
    have hf : t.ptrs.length + 1 ≤ (f.fill t).ptrs.length := by
      obtain ⟨side, color, ptr, sib⟩ := f
      cases side <;> simp [Frame.fill, CTree.mk, CTree.ptrs]
    rw [plug, List.length_cons]
    omega

lemma plug_ptrs_congr (fs : List (Frame P)) {t' : CTree P} (h : t.ptrs = t'.ptrs) :
    (plug fs t).ptrs = (plug fs t').ptrs := by rw [plug_ptrs, plug_ptrs, h]

lemma nodup_of_plug (h : (plug fs t).ptrs.Nodup) : t.ptrs.Nodup := by
  rw [plug_ptrs] at h
  exact (List.nodup_append.mp (List.nodup_append.mp h).1).2.1

lemma mem_plug : p ∈ (plug fs t).ptrs ↔ p ∈ t.ptrs ∨ p ∈ before fs ++ after fs := by
  rw [plug_ptrs]
  simp only [List.mem_append]
  tauto

lemma not_mem_ctx (h : (plug fs t).ptrs.Nodup) (hp : p ∈ t.ptrs) : p ∉ before fs ++ after fs := by
  rw [plug_ptrs] at h
  grind

lemma mem_ctx_cons {f : Frame P} :
    p ∈ before (f :: fs) ++ after (f :: fs) ↔
      p = f.ptr ∨ p ∈ f.sib.ptrs ∨ p ∈ before fs ++ after fs := by
  obtain ⟨side, color, ptr, sib⟩ := f
  cases side <;> simp only [before, after] <;> grind

/-- the colour of the root of the whole tree -/
def ctxColor : List (Frame P) → Color → Color
  | [], c => c
  | f :: fs, _ => ctxColor fs f.color

lemma color_plug (fs : List (Frame P)) (t : CTree P) : (plug fs t).color = ctxColor fs t.color := by
  induction fs generalizing t with
  | nil => rfl
  | cons f fs ih => rw [plug, ih, Frame.fill, CTree.color_mk, ctxColor]

/-! ## black heights -/

def BlackH : CTree P → Nat → Prop
  | .leaf, n => n = 0
  | .node .red l _ r, n => BlackH l n ∧ BlackH r n
  | .node .black l _ r, n => ∃ m, n = m + 1 ∧ BlackH l m ∧ BlackH r m

def NoRR : CTree P → Prop
  | .leaf => True
  | .node c l _ r => (c = .red → l.color = .black ∧ r.color = .black) ∧ NoRR l ∧ NoRR r

/-- what a node of colour `c` adds to the black height -/
def Color.h : Color → Nat
  | .black => 1
  | .red => 0

variable {n : Nat}

lemma blackH_mk : BlackH (CTree.mk d c a p b) n ↔ ∃ m, n = m + c.h ∧ BlackH a m ∧ BlackH b m := by
  cases d <;> cases c <;> (simp [CTree.mk, BlackH, Color.h]; try tauto)

lemma noRR_mk :
    NoRR (CTree.mk d c a p b) ↔
      (c = .red → a.color = .black ∧ b.color = .black) ∧ NoRR a ∧ NoRR b := by
  cases d with
  | left => exact Iff.rfl
  | right => simp only [CTree.mk, NoRR]; tauto

lemma NoRR.paint (h : NoRR t) : NoRR (t.paint .black) := by
  cases t with
  | leaf => exact h
  | node c l p r => exact ⟨fun e => absurd e Color.black_ne_red, h.2⟩

lemma BlackH.paint_black (h : BlackH t n) (hc : t.color = .red) :
    BlackH (t.paint .black) (n + 1) := by
  obtain ⟨a, p, b, rfl⟩ := CTree.exists_of_red .left hc
  rw [blackH_mk] at h
  obtain ⟨m, hm, h1, h2⟩ := h
  exact ⟨m, by simp [Color.h] at hm ⊢; omega, h1, h2⟩

/-- the surroundings of a focus of black height `n` are balanced -/
def CtxH : List (Frame P) → Nat → Prop
  | [], _ => True
  | f :: fs, n => BlackH f.sib n ∧ CtxH fs (n + f.color.h)

/-- the surroundings of a focus of colour `c` have no red node with a red child -/
def CtxNR : List (Frame P) → Color → Prop
  | [], _ => True
  | f :: fs, c => (f.color = .red → c = .black ∧ f.sib.color = .black) ∧ NoRR f.sib ∧
      CtxNR fs f.color

lemma CtxNR.black (h : CtxNR fs c) : CtxNR fs .black := by
  cases fs with
  | nil => trivial
  | cons f fs => exact ⟨fun e => ⟨rfl, (h.1 e).2⟩, h.2⟩

lemma noRR_plug : NoRR (plug fs t) ↔ NoRR t ∧ CtxNR fs t.color := by
  induction fs generalizing t with
  | nil => simp [plug, CtxNR]
  | cons f fs ih =>
    rw [plug, ih, Frame.fill, noRR_mk, CTree.color_mk, CtxNR]
    tauto

lemma blackH_plug (h : BlackH t n) (hc : CtxH fs n) : ∃ m, BlackH (plug fs t) m := by
  induction fs generalizing t n with
  | nil => exact ⟨n, h⟩
  | cons f fs ih => exact ih (blackH_mk.mpr ⟨n, rfl, h, hc.1⟩) hc.2

lemma blackH_of_plug {m : Nat} (h : BlackH (plug fs t) m) : ∃ n, BlackH t n ∧ CtxH fs n := by
  induction fs generalizing t with
  | nil => exact ⟨m, h, trivial⟩
  | cons f fs ih =>
    obtain ⟨k, hk, hc⟩ := ih h
    obtain ⟨n, rfl, h1, h2⟩ := blackH_mk.mp hk
    exact ⟨n, h1, h2, hc⟩

end PTree
