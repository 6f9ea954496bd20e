import TraceSyscallObj.Lib.Tree

/-!
# Repairing a red-black tree from a focus

The two loops of the textbook algorithm keep an invariant about the focus, and the whole tree is
balanced again when they stop:

* `RedFocus ctx t`: `t` is red, perhaps below a red parent; everything else is in order;
* `ShortFocus ctx t`: `t` lacks one black node; everything else is in order.

Each theorem below is one case of a loop body, on trees.
-/

namespace PTree
variable {P : Type} {ctx fs : List (Frame P)} {t : CTree P}

structure Balanced (t : CTree P) : Prop where
  root : t.color = .black
  noRR : NoRR t
  height : ∃ n, BlackH t n

structure RedFocus (ctx : List (Frame P)) (t : CTree P) : Prop where
  red : t.color = .red
  noRR : NoRR t
  around : CtxNR ctx .black
  height : ∃ n, BlackH t n ∧ CtxH ctx n
  root : ctxColor ctx .black = .black

structure ShortFocus (ctx : List (Frame P)) (t : CTree P) : Prop where
  noRR : NoRR (t.paint .black)
  around : CtxNR ctx .black
  height : ∃ n, BlackH t n ∧ CtxH ctx (n + 1)
  root : ctxColor ctx .black = .black

lemma Balanced.focus (h : Balanced (plug ctx t)) :
    NoRR t ∧ CtxNR ctx t.color ∧ ctxColor ctx t.color = .black ∧
      ∃ n, BlackH t n ∧ CtxH ctx n := by
  obtain ⟨n, hn⟩ := h.height
  obtain ⟨h1, h2⟩ := noRR_plug.mp h.noRR
  exact ⟨h1, h2, (color_plug ctx t) ▸ h.root, blackH_of_plug hn⟩

/-! ## insertion -/

lemma RedFocus.new (h : Balanced (plug ctx (.leaf : CTree P))) (x : P) :
    RedFocus ctx (.node .red .leaf x .leaf) := by
  obtain ⟨-, h2, h3, n, h4, h5⟩ := h.focus
  refine ⟨rfl, ⟨fun _ => ⟨rfl, rfl⟩, trivial, trivial⟩, h2, ⟨n, ⟨h4, h4⟩, h5⟩, h3⟩

variable {f : Frame P}

lemma RedFocus.parent_root_black (h : RedFocus [f] t) : f.color = .black := h.root

variable {g : Frame P}

section
variable (h : RedFocus (f :: g :: fs) t) (hf : f.color = .red)
include h hf

lemma RedFocus.grandparent_black : g.color = .black := by
  by_contra hg
  have h1 := h.around.2.2.1 (Color.ne_black.mp hg)
  rw [hf] at h1
  exact Color.black_ne_red h1.1.symm

lemma RedFocus.redUncle (hu : g.sib.color = .red) :
    RedFocus fs (CTree.mk g.side .red (CTree.mk f.side .black t f.ptr f.sib) g.ptr
      (g.sib.paint .black)) := by
  have hg := h.grandparent_black hf
  obtain ⟨n, h1, h2, h3, h4⟩ := h.height
  rw [hf] at h3
  rw [hf, hg] at h4
  have hroot : ctxColor (g :: fs) f.color = .black := h.root
  obtain ⟨-, hs, hgn, hgs, hfs⟩ := h.around
  rw [hg] at hfs
  refine ⟨CTree.color_mk .., noRR_mk.mpr ⟨fun _ => ⟨CTree.color_mk .., ?_⟩, ?_, hgs.paint⟩, hfs, ?_, ?_⟩
  · obtain ⟨a, p, b, e⟩ := CTree.exists_of_red .left hu
    rw [e, CTree.paint_mk, CTree.color_mk]
  · exact noRR_mk.mpr ⟨fun e => absurd e Color.black_ne_red, h.noRR, hs⟩
  · refine ⟨n + 1, ?_, h4⟩
    exact blackH_mk.mpr ⟨n + 1, rfl, blackH_mk.mpr ⟨n, rfl, h1, h2⟩, h3.paint_black hu⟩
  · cases fs with
    | nil => rfl
    | cons k ks => exact hroot

end

variable {d : Dir} {p : P} {a b : CTree P}

lemma RedFocus.inner {x : P} {s : CTree P}
    (h : RedFocus (⟨d.flip, .red, p, s⟩ :: g :: fs) (CTree.mk d .red a x b)) :
    RedFocus (⟨d, .red, x, b⟩ :: g :: fs) (CTree.mk d .red s p a) := by
  obtain ⟨n, h1, h2, h3⟩ := h.height
  obtain ⟨m, hm, ha, hb⟩ := blackH_mk.mp h1
  have hmn : n = m := hm
  subst hmn
  obtain ⟨hc, hna, hnb⟩ := noRR_mk.mp h.noRR
  obtain ⟨hs, hns, hg⟩ := h.around
  refine ⟨CTree.color_mk .., noRR_mk.mpr ⟨fun _ => ⟨(hs rfl).2, (hc rfl).1⟩, hns, hna⟩,
    ⟨fun _ => ⟨rfl, (hc rfl).2⟩, hnb, hg⟩, ⟨n, ?_, hb, h3⟩, h.root⟩
  exact blackH_mk.mpr ⟨n, rfl, h2, ha⟩

variable {c : Color}

lemma RedFocus.outer {q : P} {s u : CTree P}
    (h : RedFocus (⟨d, .red, p, s⟩ :: ⟨d, c, q, u⟩ :: fs) t) (hu : u.color = .black) :
    RedFocus (⟨d, .black, p, CTree.mk d .red s q u⟩ :: fs) t := by
  have hc : c = .black := h.grandparent_black rfl
  subst hc
  obtain ⟨n, h1, h2, h3, h4⟩ := h.height
  obtain ⟨hs, hns, -, hnu, hfs⟩ := h.around
  refine ⟨h.red, h.noRR, ⟨fun e => absurd e Color.black_ne_red, ?_, hfs⟩, ⟨n, h1, ?_, h4⟩, h.root⟩
  · exact noRR_mk.mpr ⟨fun _ => ⟨(hs rfl).2, hu⟩, hns, hnu⟩
  · exact blackH_mk.mpr ⟨n, rfl, h2, h3⟩

lemma RedFocus.done (h : RedFocus (f :: fs) t) (hf : f.color = .black) :
    Balanced (plug (f :: fs) t) := by
  obtain ⟨n, h1, h2⟩ := h.height
  refine ⟨?_, noRR_plug.mpr ⟨h.noRR, ?_, h.around.2⟩, blackH_plug h1 h2⟩
  · rw [color_plug]; exact h.root
  · intro e
    rw [hf] at e
    exact absurd e Color.black_ne_red

lemma RedFocus.done_root (h : RedFocus [] t) : Balanced (t.paint .black) := by
  obtain ⟨a, p, b, rfl⟩ := CTree.exists_of_red .left h.red
  obtain ⟨n, h1, -⟩ := h.height
  refine ⟨by simp, h.noRR.paint, n + 1, ?_⟩
  exact h1.paint_black (CTree.color_mk ..)

/-! ## deletion -/

lemma Balanced.splice_red {y : P} (h : Balanced (plug ctx (CTree.mk d .red .leaf y t))) :
    Balanced (plug ctx t) := by
  obtain ⟨h1, h2, h3, n, h4, h5⟩ := h.focus
  obtain ⟨hc, -, hn⟩ := noRR_mk.mp h1
  obtain ⟨m, hm, -, ht⟩ := blackH_mk.mp h4
  have hmn : n = m := hm
  subst hmn
  refine ⟨?_, noRR_plug.mpr ⟨hn, ?_⟩, blackH_plug ht h5⟩
  · rw [color_plug, (hc rfl).2]
    cases ctx with
    | nil => rfl
    | cons f fs => exact h3
  · rw [(hc rfl).2]
    exact h2.black

lemma Balanced.splice_black {y : P}
    (h : Balanced (plug ctx (CTree.mk d .black .leaf y t))) : ShortFocus ctx t := by
  obtain ⟨h1, h2, h3, n, h4, h5⟩ := h.focus
  obtain ⟨-, -, hn⟩ := noRR_mk.mp h1
  obtain ⟨m, hm, -, ht⟩ := blackH_mk.mp h4
  rw [CTree.color_mk] at h2 h3
  refine ⟨hn.paint, h2, ⟨m, ht, ?_⟩, h3⟩
  have hmn : n = m + 1 := hm
  exact hmn ▸ h5

lemma Balanced.short (h : Balanced t) : ShortFocus [] t := by
  obtain ⟨n, hn⟩ := h.height
  exact ⟨h.noRR.paint, trivial, ⟨n, hn, trivial⟩, rfl⟩

lemma ShortFocus.noRR_of_black (h : ShortFocus ctx t) (ht : t.color = .black) : NoRR t := by
  have hn := h.noRR
  rwa [CTree.paint_of_color ht] at hn

lemma ShortFocus.sibling (d : Dir) (h : ShortFocus (f :: fs) t) :
    ∃ c a w b, f.sib = CTree.mk d c a w b := by
  obtain ⟨n, -, h2, -⟩ := h.height
  cases hs : f.sib with
  | leaf =>
    rw [hs] at h2
    exact absurd h2 (Nat.succ_ne_zero n)
  | node c l p r =>
    obtain ⟨a, b, e⟩ := CTree.exists_mk d c l p r
    exact ⟨c, a, p, b, e⟩

variable {w : P}

/-- case 1: the sibling is red -/
lemma ShortFocus.redSibling (h : ShortFocus (⟨d, c, p, CTree.mk d .red a w b⟩ :: fs) t) :
    ShortFocus (⟨d, .red, p, a⟩ :: ⟨d, .black, w, b⟩ :: fs) t ∧ a.color = .black := by
  obtain ⟨hc, hs, hfs⟩ := h.around
  obtain ⟨hab, hna, hnb⟩ := noRR_mk.mp hs
  have hcb : c = .black := by
    by_contra k
    have hw := (hc (Color.ne_black.mp k)).2
    rw [CTree.color_mk] at hw
    exact Color.black_ne_red hw.symm
  subst hcb
  obtain ⟨n, h1, h2, h3⟩ := h.height
  obtain ⟨m, hm, ha, hb⟩ := blackH_mk.mp h2
  have hmn : n + 1 = m := hm
  subst hmn
  refine ⟨⟨h.noRR, ⟨fun _ => ⟨rfl, (hab rfl).1⟩, hna, ?_, hnb, hfs⟩,
    ⟨n, h1, ha, hb, h3⟩, h.root⟩, (hab rfl).1⟩
  exact fun e => absurd e Color.black_ne_red

/-- case 2: both nephews are black -/
lemma ShortFocus.blackNephews (h : ShortFocus (⟨d, c, p, CTree.mk d .black a w b⟩ :: fs) t)
    (ht : t.color = .black) (ha : a.color = .black) (hb : b.color = .black) :
    ShortFocus fs (CTree.mk d c t p (CTree.mk d .red a w b)) := by
  obtain ⟨-, hs, hfs⟩ := h.around
  obtain ⟨-, hna, hnb⟩ := noRR_mk.mp hs
  obtain ⟨n, h1, h2, h3⟩ := h.height
  obtain ⟨m, hm, h4, h5⟩ := blackH_mk.mp h2
  have hmn : n = m := by simpa [Color.h] using hm
  subst hmn
  have hroot : ctxColor fs c = .black := h.root
  refine ⟨?_, hfs.black, ⟨n + c.h, ?_, ?_⟩, ?_⟩
  · rw [CTree.paint_mk]
    refine noRR_mk.mpr ⟨fun e => absurd e Color.black_ne_red, h.noRR_of_black ht, ?_⟩
    exact noRR_mk.mpr ⟨fun _ => ⟨ha, hb⟩, hna, hnb⟩
  · exact blackH_mk.mpr ⟨n, rfl, h1, blackH_mk.mpr ⟨n, rfl, h4, h5⟩⟩
  · have e : n + 1 + c.h = n + c.h + 1 := by omega
    exact e ▸ h3
  · cases fs with
    | nil => rfl
    | cons k ks => exact hroot

/-- case 3: the near nephew is red, the far one black -/
lemma ShortFocus.nearNephew {v : P} {a₁ b₁ : CTree P}
    (h : ShortFocus (⟨d, c, p, CTree.mk d .black (CTree.mk d .red a₁ v b₁) w b⟩ :: fs) t)
    (hb : b.color = .black) :
    ShortFocus (⟨d, c, p, CTree.mk d .black a₁ v (CTree.mk d .red b₁ w b)⟩ :: fs) t := by
  obtain ⟨hc, hs, hfs⟩ := h.around
  obtain ⟨-, hna, hnb⟩ := noRR_mk.mp hs
  obtain ⟨hab, hn1, hn2⟩ := noRR_mk.mp hna
  obtain ⟨n, h1, h2, h3⟩ := h.height
  obtain ⟨m, hm, h4, h5⟩ := blackH_mk.mp h2
  obtain ⟨k, hk, h6, h7⟩ := blackH_mk.mp h4
  have hmk : m = k := hk
  subst hmk
  refine ⟨h.noRR, ⟨fun e => ⟨rfl, CTree.color_mk ..⟩, ?_, hfs⟩, ⟨n, h1, ?_, h3⟩, h.root⟩
  · refine noRR_mk.mpr ⟨fun e => absurd e Color.black_ne_red, hn1, ?_⟩
    exact noRR_mk.mpr ⟨fun _ => ⟨(hab rfl).2, hb⟩, hn2, hnb⟩
  · exact blackH_mk.mpr ⟨m, hm, h6, blackH_mk.mpr ⟨m, rfl, h7, h5⟩⟩

/-- case 4: the far nephew is red -/
lemma ShortFocus.farNephew (h : ShortFocus (⟨d, c, p, CTree.mk d .black a w b⟩ :: fs) t)
    (ht : t.color = .black) (hb : b.color = .red) :
    Balanced (plug fs (CTree.mk d c (CTree.mk d .black t p a) w (b.paint .black))) := by
  obtain ⟨-, hs, hfs⟩ := h.around
  obtain ⟨-, hna, hnb⟩ := noRR_mk.mp hs
  obtain ⟨n, h1, h2, h3⟩ := h.height
  obtain ⟨m, hm, h4, h5⟩ := blackH_mk.mp h2
  have hmn : n = m := by simpa [Color.h] using hm
  subst hmn
  have hbc : (b.paint .black).color = .black := by
    obtain ⟨b₁, q, b₂, e⟩ := CTree.exists_of_red .left hb
    rw [e, CTree.paint_mk, CTree.color_mk]
  refine ⟨?_, noRR_plug.mpr ⟨noRR_mk.mpr ⟨fun _ => ⟨CTree.color_mk .., hbc⟩, ?_, hnb.paint⟩, ?_⟩, ?_⟩
  · rw [color_plug, CTree.color_mk]
    exact h.root
  · exact noRR_mk.mpr ⟨fun e => absurd e Color.black_ne_red, h.noRR_of_black ht, hna⟩
  · rw [CTree.color_mk]
    exact hfs
  · refine blackH_plug (n := n + 1 + c.h) ?_ h3
    refine blackH_mk.mpr ⟨n + 1, rfl, blackH_mk.mpr ⟨n, rfl, h1, h4⟩, h5.paint_black hb⟩

lemma ShortFocus.done (h : ShortFocus ctx t) (hd : t.color = .red ∨ ctx = []) :
    Balanced (plug ctx (t.paint .black)) := by
  obtain ⟨n, h1, h2⟩ := h.height
  have hcol : (t.paint .black).color = .black := by cases t <;> rfl
  refine ⟨?_, noRR_plug.mpr ⟨h.noRR, ?_⟩, ?_⟩
  · rw [color_plug, hcol]; exact h.root
  · rw [hcol]; exact h.around
  by_cases hr : t.color = .red
  · exact blackH_plug (h1.paint_black hr) h2
  · have hb : t.color = .black := Color.ne_red.mp hr
    obtain rfl : ctx = [] := hd.resolve_left hr
    rw [CTree.paint_of_color hb]
    exact ⟨n, h1⟩

end PTree
