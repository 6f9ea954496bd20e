import TraceSyscallObj.Lib.Balance
import TraceSyscallObj.RevSem.RbRotate

/-!
# `insertFixup` and `deleteFixup` restore the balance

Both loops run without a fault and within the bound, whatever the tree:

* `insertFixup_does`: from a red focus (`RedFocus`) to a balanced tree;
* `deleteFixup_does`: from a focus that lacks a black node (`ShortFocus`) to a balanced tree.

The nodes and their order do not change.  In the second loop the focus may be the sentinel; its
parent field is then the only way up, so `Hangs` keeps track of it.
-/

namespace RevSem
open PTree

section
variable {live : List Nat} {L : Links Ptr} {ctx fs : List (Frame Ptr)} {t : CTree Ptr}

/-! ## reading around the focus -/

section
variable (h : Holds live L ctx t)
include h

lemma Holds.readRoot : Does live getRoot L (L.rootOf (plug ctx t)) L := getRoot_does h.root

lemma Holds.readColor : Does live (colorOf (L.rootOf t)) L t.color L :=
  colorOf_does h.valid_root h.color_root

lemma Holds.readParent (ht : t ≠ .leaf) : Does live (parentOf (L.rootOf t)) L (L.top ctx) L :=
  parentOf_does h.valid_root (h.parent_root ht)

end

variable {f : Frame Ptr}

section
variable (h : Holds live L (f :: fs) t)
include h

lemma Holds.readFrameColor :
    Does live (colorOf f.ptr) L f.color L := colorOf_does h.valid_frame h.frame.2.1

lemma Holds.readFrameParent :
    Does live (parentOf f.ptr) L (L.top fs) L := parentOf_does h.valid_frame h.frame.1

lemma Holds.readFocus : Does live (childOf f.ptr f.side) L (L.rootOf t) L :=
  childOf_does h.valid_frame _ h.frame.2.2.1

lemma Holds.readSib : Does live (childOf f.ptr f.side.flip) L (L.rootOf f.sib) L :=
  childOf_does h.valid_frame _ h.frame.2.2.2

lemma Holds.root_ne : L.rootOf t ≠ L.rootOf (plug (f :: fs) t) := by
  rw [root_plug_cons L f fs t .leaf]
  have hmem : L.rootOf (plug (f :: fs) .leaf) ∈ before (f :: fs) ++ after (f :: fs) := by
    have hne : plug fs (f.fill .leaf) ≠ .leaf := plug_ne_leaf CTree.mk_ne_leaf
    have hroot : L.rootOf (plug (f :: fs) .leaf) ∈ (plug (f :: fs) .leaf).ptrs :=
      Links.rootOf_mem hne
    rcases mem_plug.mp hroot with hm | hm
    · simp [CTree.ptrs] at hm
    · exact hm
  intro e
  by_cases ht : t = .leaf
  · rw [ht] at e
    exact (h.proper_ctx hmem).1 e.symm
  · exact not_mem_ctx h.nodup (Links.rootOf_mem ht) (e ▸ hmem)

lemma Holds.sideOf_does (hne : L.rootOf t ≠ L.rootOf f.sib) :
    Does live (sideOf f.ptr (L.rootOf t)) L f.side L := by
  cases hs : f.side with
  | left =>
    apply (childOf_does h.valid_frame .left (hs ▸ h.frame.2.2.1)).bind
    rw [if_pos rfl]
    exact Does.pure _
  | right =>
    have hl : L.child f.ptr .left = L.rootOf f.sib := by
      have := h.frame.2.2.2
      rwa [hs] at this
    apply (childOf_does h.valid_frame .left hl).bind
    rw [if_neg hne]
    exact Does.pure _

end

/-! ## insertion -/

lemma ne_leaf_of_red (h : t.color = .red) : t ≠ .leaf := by
  intro e
  rw [e] at h
  exact Color.black_ne_red h

variable {g : Frame Ptr}

lemma insertFixupSide_redUncle (h : Holds live L (f :: g :: fs) t) (ht : t.color = .red)
    (hu : g.sib.color = .red) :
    ∃ L', Does live (insertFixupSide g.side (L.rootOf t)) L g.ptr L' ∧
      Holds live L' fs (CTree.mk g.side .red (CTree.mk f.side .black t f.ptr f.sib) g.ptr
        (g.sib.paint .black)) := by
  have htl := ne_leaf_of_red ht
  have h1 := h.setColor_frame .black
  have h2 := h1.setColor_uncle (ne_leaf_of_red hu) .black
  have h3 := h2.setColor_frame₂ .red
  refine ⟨_, ?_, h3.up.up⟩
  refine (h.readParent htl).bind (h.readFrameParent.bind (h.up.readSib.bind ?_))
  refine h.up.across.readColor.bind (Does.ite_pos hu ?_)
  refine (h.readParent htl).bind ((setColor_does h.valid_frame).bind ?_)
  apply (setColor_does h1.up.across.valid_root).bind
  refine (h2.readParent htl).bind (h2.readFrameParent.bind ((setColor_does h2.up.valid_frame).bind ?_))
  exact (h3.readParent htl).bind h3.readFrameParent

section
variable (h : Holds live L (f :: g :: fs) t) (hr : RedFocus (f :: g :: fs) t) (hf : f.color = .red)
include h hr hf

lemma makeOuter_does :
    ∃ L' t' p s, Does live (makeOuter g.side (L.rootOf t)) L (L'.rootOf t') L' ∧
      Holds live L' (⟨g.side, .red, p, s⟩ :: g :: fs) t' ∧
      RedFocus (⟨g.side, .red, p, s⟩ :: g :: fs) t' ∧
      (CTree.mk g.side .red t' p s).ptrs = (f.fill t).ptrs := by
  have htl := ne_leaf_of_red hr.red
  obtain ⟨fd, fc, fp, fsib⟩ := f
  have hfc : fc = .red := hf
  subst hfc
  by_cases hd : fd = g.side
  · subst hd
    refine ⟨L, t, fp, fsib, ?_, h, hr, rfl⟩
    refine (h.readParent htl).bind (h.readSib.bind (Does.ite_neg (h.root_ne_sib htl) ?_))
    exact Does.pure _
  · have hd' := Dir.eq_flip_of_ne hd
    subst hd'
    obtain ⟨a, x, b, rfl⟩ := CTree.exists_of_red g.side hr.red
    have hu := h.up
    rw [CTree.mk_flip] at hu
    have hrot := hu.rotate
    refine ⟨_, CTree.mk g.side .red fsib fp a, x, b, ?_, hrot.down, hr.inner, ?_⟩
    · unfold makeOuter
      refine (h.readParent htl).bind (h.readFocus.bind (Does.ite_pos rfl ?_))
      refine (h.readParent htl).bind (hu.rotate_does.bind ?_)
      rw [Links.rootOf_mk]
      exact Does.pure _
    · rw [Frame.fill, CTree.mk_flip]
      exact CTree.ptrs_rotate ..

lemma insertFixupSide_blackUncle (hu : g.sib.color = .black) :
    ∃ L' t' k, Does live (insertFixupSide g.side (L.rootOf t)) L (L'.rootOf t') L' ∧
      Holds live L' (k :: fs) t' ∧ RedFocus (k :: fs) t' ∧ k.color = .black ∧
      (k.fill t').ptrs = (g.fill (f.fill t)).ptrs := by
  have htl := ne_leaf_of_red hr.red
  obtain ⟨L₁, t', p, s, hdo, h1, hr1, hp⟩ := makeOuter_does h hr hf
  obtain ⟨gd, gc, gp, u⟩ := g
  have htl' := ne_leaf_of_red hr1.red
  have h2 := h1.setColor_frame .black
  have h3 := h2.setColor_frame₂ .red
  have h4 := h3.up.up
  refine ⟨_, t', _, ?_, h4.rotate_flip.down, hr1.outer hu, rfl, ?_⟩
  · unfold insertFixupSide
    refine (h.readParent htl).bind (h.readFrameParent.bind (h.up.readSib.bind ?_))
    refine h.up.across.readColor.bind (Does.ite_neg ?_ (hdo.bind ?_))
    · rw [hu]
      exact Color.black_ne_red
    refine (h1.readParent htl').bind ((setColor_does h1.valid_frame).bind ?_)
    refine (h2.readParent htl').bind (h2.readFrameParent.bind ?_)
    apply (setColor_does h2.up.valid_frame).bind
    refine (h3.readParent htl').bind (h3.readFrameParent.bind (h4.flip.rotate_does.bind ?_))
    rw [Links.rootOf_congr (Links.rotate_nil ..)]
    exact Does.pure _
  · show (CTree.mk gd .black t' p (CTree.mk gd .red s gp u)).ptrs = (CTree.mk gd gc (f.fill t) gp u).ptrs
    rw [← CTree.ptrs_rotate gd gc .red]
    exact CTree.ptrs_mk_congr hp rfl

end

lemma blackenRoot_does (h : Holds live L [] t) (ht : t ≠ .leaf) :
    ∃ L', Does live blackenRoot L () L' ∧ Holds live L' [] (t.paint .black) := by
  refine ⟨_, ?_, h.setColor ht .black⟩
  exact h.readRoot.bind (setColor_does h.valid_root)

/-- **`insertFixup` restores the balance.**  One iteration for every two levels of the path, and
one for the rotations. -/
theorem insertFixup_does (fuel : Nat) (h : Holds live L ctx t) (hr : RedFocus ctx t)
    (hf : ctx.length < fuel) :
    ∃ L' t', Does live (insertFixup fuel (L.rootOf t)) L () L' ∧ Holds live L' [] t' ∧
      Balanced t' ∧ t'.ptrs = (plug ctx t).ptrs := by
  induction fuel generalizing L ctx t with
  | zero => omega
  | succ fuel ih =>
    have htl := ne_leaf_of_red hr.red
    cases ctx with
    | nil =>
      obtain ⟨L', hdo, h'⟩ := blackenRoot_does h htl
      refine ⟨L', _, ?_, h', hr.done_root, CTree.ptrs_paint ..⟩
      exact h.readRoot.bind (Does.ite_neg (fun k => k rfl) hdo)
    | cons f fs =>
      by_cases hc : f.color = .red
      · cases fs with
        | nil =>
          rw [hr.parent_root_black] at hc
          exact absurd hc Color.black_ne_red
        | cons g fs =>
          have hhead : ∀ {x L' L₁}, Does live (insertFixupSide g.side (L.rootOf t)) L x L₁ →
              Does live (insertFixup fuel x) L₁ () L' →
              Does live (insertFixup (fuel + 1) (L.rootOf t)) L () L' := by
            intro x L' L₁ h1 h2
            refine h.readRoot.bind (Does.ite_pos h.root_ne ?_)
            refine (h.readParent htl).bind (h.readFrameColor.bind (Does.ite_pos hc ?_))
            refine (h.readParent htl).bind (h.readFrameParent.bind ((h.readParent htl).bind ?_))
            have hside := h.up.sideOf_does (h.up.root_ne_sib CTree.mk_ne_leaf)
            rw [Links.rootOf_mk] at hside
            exact hside.bind (h1.bind h2)
          by_cases hu : g.sib.color = .red
          · obtain ⟨L₁, h1, h2⟩ := insertFixupSide_redUncle h hr.red hu
            obtain ⟨L', t', h3, h4, h5, h6⟩ := ih h2 (hr.redUncle hc hu) (by simp at hf; omega)
            rw [Links.rootOf_mk] at h3
            refine ⟨L', t', hhead h1 h3, h4, h5, h6.trans (plug_ptrs_congr fs ?_)⟩
            exact CTree.ptrs_mk_congr (CTree.ptrs_mk_color ..) (CTree.ptrs_paint ..)
          · obtain ⟨L₁, t₁, k, h1, h2, h3, h4, h5⟩ :=
              insertFixupSide_blackUncle h hr hc (Color.ne_red.mp hu)
            obtain ⟨L', t', h6, h7, h8, h9⟩ := ih h2 h3 (by simp at hf ⊢; omega)
            exact ⟨L', t', hhead h1 h6, h7, h8, h9.trans (plug_ptrs_congr fs h5)⟩
      · have hb := hr.done (Color.ne_red.mp hc)
        obtain ⟨L', hdo, h'⟩ := blackenRoot_does h.whole (plug_ne_leaf htl)
        rw [CTree.paint_of_color hb.root] at h'
        refine ⟨L', _, ?_, h', hb, rfl⟩
        refine h.readRoot.bind (Does.ite_pos h.root_ne ?_)
        exact (h.readParent htl).bind (h.readFrameColor.bind (Does.ite_neg hc hdo))

/-! ## deletion -/

/-- the focus knows its parent, also when it is the sentinel -/
structure Hangs (live : List Nat) (L : Links Ptr) (ctx : List (Frame Ptr)) (t : CTree Ptr) : Prop
    extends Holds live L ctx t where
  hangs : L.parent (L.rootOf t) = L.top ctx

lemma Holds.toHangs (h : Holds live L ctx t) (ht : t ≠ .leaf) : Hangs live L ctx t :=
  ⟨h, h.parent_root ht⟩

lemma Hangs.keep {L' : Links Ptr} {f' : Frame Ptr} {fs' : List (Frame Ptr)}
    (h : Hangs live L (f :: fs) t) (h' : Holds live L' (f' :: fs') t)
    (hp : L'.parent .sentinel = L.parent .sentinel) (hf : f'.ptr = f.ptr) :
    Hangs live L' (f' :: fs') t := by
  by_cases ht : t = .leaf
  · subst ht
    refine ⟨h', ?_⟩
    have hu : L.parent L.nil = f.ptr := h.hangs
    show L'.parent L'.nil = f'.ptr
    rw [h'.nil_eq, hp, hf, ← hu, h.nil_eq]
  · exact h'.toHangs ht

variable {d : Dir} {c : Color} {a b : CTree Ptr}

lemma Holds.rotate_parent {c' : Color} {x : Ptr} {y : Ptr} {e : CTree Ptr}
    (h : Holds live L ctx (CTree.mk d c a x (CTree.mk d c' b y e))) :
    (L.rotate d x).parent .sentinel = L.parent .sentinel := by
  rw [← h.nil_eq]
  exact h.toAt.rotate_parent_nil

lemma Hangs.readUp (h : Hangs live L ctx t) : Does live (parentOf (L.rootOf t)) L (L.top ctx) L :=
  parentOf_does h.valid_root h.hangs

/-- case 1 of the loop body: the sibling is black afterwards -/
lemma redSibling_does (h : Hangs live L (f :: fs) t) (hs : ShortFocus (f :: fs) t) :
    ∃ L' k ks, Does live (redSibling f.side (L.rootOf t) (L.rootOf f.sib)) L (L'.rootOf k.sib) L' ∧
      Hangs live L' (k :: ks) t ∧ ShortFocus (k :: ks) t ∧ k.side = f.side ∧
      k.sib.color = .black ∧ (k.color = .red ∨ ks = fs) ∧
      (plug (k :: ks) t).ptrs = (plug (f :: fs) t).ptrs := by
  obtain ⟨d, c, p, s⟩ := f
  by_cases hr : s.color = .red
  · obtain ⟨a, w, b, rfl⟩ := CTree.exists_of_red d hr
    have h1 := h.setColor_sib CTree.mk_ne_leaf .black
    rw [Links.rootOf_mk, CTree.paint_mk] at h1
    have h2 := h1.setColor_frame .red
    have h3 := h2.up.rotate
    obtain ⟨hs', ha⟩ := hs.redSibling
    have h4 := h.keep h3.down.down h2.up.rotate_parent rfl
    refine ⟨_, _, _, ?_, h4, hs', rfl, ha, .inl rfl, ?_⟩
    · unfold redSibling
      rw [Links.rootOf_mk]
      have hw := h.across.readColor
      have hwv := h.across.valid_root
      rw [Links.rootOf_mk] at hw hwv
      refine hw.bind (Does.ite_pos hr ((setColor_does hwv).bind ?_))
      refine (h.keep h1 rfl rfl).readUp.bind ((setColor_does h1.valid_frame).bind ?_)
      refine (h.keep h2 rfl rfl).readUp.bind (h2.up.rotate_does.bind ?_)
      have e : L.rootOf t = ((((L.setColor w .black).setColor p .red).rotate d p)).rootOf t := by
        rw [Links.rootOf_congr (Links.rotate_nil ..)]
        rfl
      rw [e]
      exact h4.readUp.bind h4.readSib
    · exact plug_ptrs_congr fs (CTree.ptrs_rotate ..)
  · refine ⟨L, _, _, ?_, h, hs, rfl, Color.ne_red.mp hr, .inr rfl, rfl⟩
    exact h.across.readColor.bind (Does.ite_neg hr (Does.pure _))

variable {w : Ptr}

lemma blackChildren_does
    (h : Holds live L ctx (CTree.mk d c a w b)) : Does live (blackChildren d w) L
      (decide (a.color = .black) && decide (b.color = .black)) L := by
  have hd := h.down
  refine hd.readFocus.bind (hd.readColor.bind ?_)
  by_cases ha : a.color = .black
  · rw [if_pos ha, decide_eq_true ha]
    exact hd.readSib.bind (h.down_flip.readColor.bind (Does.pure _))
  · rw [if_neg ha, decide_eq_false ha]
    exact Does.pure _

section
variable (h : Hangs live L (⟨d, c, p, CTree.mk d .black a w b⟩ :: fs) t)
  (hs : ShortFocus (⟨d, c, p, CTree.mk d .black a w b⟩ :: fs) t)
include h hs

/-- case 3: the far nephew is red afterwards -/
lemma redFarNephew_does (hn : ¬ (a.color = .black ∧ b.color = .black)) :
    ∃ L' a' w' b', Does live (redFarNephew d (L.rootOf t) w) L w' L' ∧
      Hangs live L' (⟨d, c, p, CTree.mk d .black a' w' b'⟩ :: fs) t ∧
      ShortFocus (⟨d, c, p, CTree.mk d .black a' w' b'⟩ :: fs) t ∧ b'.color = .red ∧
      (CTree.mk d .black a' w' b').ptrs = (CTree.mk d .black a w b).ptrs := by
  have hx := h.across
  have hwv := hx.valid_root
  rw [Links.rootOf_mk] at hwv
  by_cases hb : b.color = .black
  · have ha : a.color = .red := Color.ne_black.mp (fun k => hn ⟨k, hb⟩)
    obtain ⟨a₁, v, b₁, rfl⟩ := CTree.exists_of_red d ha
    have h1 := hx.down.setColor_mk .black
    have h2 := h1.setColor_frame .red
    have h3 := h2.up
    have h5 := h3.rotate_flip.across
    simp only [Dir.flip_flip] at h5
    have h6 := h.keep h5 h3.flip.rotate_parent rfl
    refine ⟨_, a₁, v, _, ?_, h6, hs.nearNephew hb, CTree.color_mk .., ?_⟩
    · unfold redFarNephew
      refine hx.down.readSib.bind (hx.down_flip.readColor.bind (Does.ite_pos hb ?_))
      have hvv := hx.down.valid_root
      have hv := hx.down.readFocus
      rw [Links.rootOf_mk] at hvv hv
      refine hv.bind ((setColor_does hvv).bind ((setColor_does hwv).bind ?_))
      apply h3.flip.rotate_does.bind
      have e : L.rootOf t = ((((L.setColor v .black).setColor w .red).rotate d.flip w)).rootOf t := by
        rw [Links.rootOf_congr (Links.rotate_nil ..)]
        rfl
      rw [e]
      apply h6.readUp.bind
      have hr := h6.readSib
      rwa [Links.rootOf_mk] at hr
    · exact (CTree.ptrs_rotate ..).symm
  · refine ⟨L, a, w, b, ?_, h, hs, Color.ne_black.mp hb, rfl⟩
    exact hx.down.readSib.bind (hx.down_flip.readColor.bind (Does.ite_neg hb (Does.pure _)))

/-- case 4: the loop ends at the root of a balanced tree -/
lemma raiseSibling_does (ht : t.color = .black) (hb : b.color = .red) :
    ∃ L' t', Does live (raiseSibling d (L.rootOf t) w) L (L'.rootOf t') L' ∧
      Holds live L' [] t' ∧ Balanced t' ∧
      t'.ptrs = (plug fs (CTree.mk d c t p (CTree.mk d .black a w b))).ptrs := by
  have hx := h.across
  have hwv := hx.valid_root
  rw [Links.rootOf_mk] at hwv
  have h1 := (hx.setColor_mk c).across
  have h2 := h1.setColor_frame .black
  have h3 := (h2.across.down_flip.setColor (ne_leaf_of_red hb) .black).up.across
  simp only [Dir.flip_flip, CTree.mk_flip] at h3
  have h4 := h3.up.rotate
  refine ⟨_, _, ?_, h4.whole, hs.farNephew ht hb, plug_ptrs_congr fs ?_⟩
  · unfold raiseSibling
    refine h.readUp.bind (h.readFrameColor.bind ((setColor_does hwv).bind ?_))
    refine (h.keep h1 rfl rfl).readUp.bind ((setColor_does h1.valid_frame).bind ?_)
    refine h2.across.down.readSib.bind ((setColor_does h2.across.down_flip.valid_root).bind ?_)
    refine (h.keep h3 rfl rfl).readUp.bind (h3.up.rotate_does.bind ?_)
    exact h4.readRoot
  · rw [CTree.ptrs_rotate d c .black c .black]
    exact CTree.ptrs_mk_congr rfl (CTree.ptrs_mk_congr rfl (CTree.ptrs_paint ..))

end

lemma deleteFixupSide_does (h : Hangs live L (f :: fs) t) (hs : ShortFocus (f :: fs) t)
    (ht : t.color = .black) :
    ∃ L' ctx' t', Does live (deleteFixupSide f.side (L.rootOf t)) L (L'.rootOf t') L' ∧
      Holds live L' ctx' t' ∧ t' ≠ .leaf ∧ ShortFocus ctx' t' ∧
      (t'.color = .red ∨ ctx'.length ≤ fs.length) ∧
      (plug ctx' t').ptrs = (plug (f :: fs) t).ptrs := by
  obtain ⟨L₁, k, ks, h1, h2, h3, hd, hk, hks, hp⟩ := redSibling_does h hs
  obtain ⟨d, c, p, s⟩ := k
  have hd' : f.side = d := hd.symm
  obtain ⟨c', a, w, b, rfl⟩ : ∃ c' a w b, s = CTree.mk d c' a w b := h3.sibling d
  have hc' : c' = .black := (CTree.color_mk ..).symm.trans hk
  subst hc'
  rw [Links.rootOf_mk] at h1
  have hr : L.rootOf t = L₁.rootOf t := by
    apply Links.rootOf_congr
    rw [h.nil_eq, h2.nil_eq]
  have hx := h2.across
  have hwv := hx.valid_root
  rw [Links.rootOf_mk] at hwv
  have hread : Does live (childOf f.ptr f.side.flip) L (L.rootOf f.sib) L := h.readSib
  by_cases hn : a.color = .black ∧ b.color = .black
  · -- both nephews are black
    have h4 := (hx.setColor_mk .red).across
    simp only [Dir.flip_flip] at h4
    refine ⟨_, ks, _, ?_, h4.up, CTree.mk_ne_leaf, h3.blackNephews ht hn.1 hn.2, ?_, ?_⟩
    · refine h.readUp.bind (hread.bind (h1.bind ?_))
      rw [hd']
      refine (blackChildren_does hx).bind (Does.ite_pos (by simp [hn.1, hn.2]) ?_)
      apply (setColor_does hwv).bind
      rw [hr, Links.rootOf_mk]
      exact (h2.keep h4 rfl rfl).readUp
    · rw [CTree.color_mk]
      rcases hks with hred | rfl
      · exact .inl hred
      · exact .inr (Nat.le_refl _)
    · rw [← hp]
      exact plug_ptrs_congr ks (CTree.ptrs_mk_congr rfl (CTree.ptrs_mk_color ..))
  · obtain ⟨L₂, a', w', b', h4, h5, h6, h7, hp'⟩ := redFarNephew_does h2 h3 hn
    obtain ⟨L₃, t', h8, h9, h10, h11⟩ := raiseSibling_does h5 h6 ht h7
    have hr' : L₁.rootOf t = L₂.rootOf t := by
      apply Links.rootOf_congr
      rw [h2.nil_eq, h5.nil_eq]
    refine ⟨L₃, [], t', ?_, h9, ?_, h10.short, .inr (Nat.zero_le _), ?_⟩
    · refine h.readUp.bind (hread.bind (h1.bind ?_))
      rw [hd']
      have hf : ¬ ((decide (a.color = .black) && decide (b.color = .black)) = true) := by
        simpa using hn
      refine (blackChildren_does hx).bind (Does.ite_neg hf ?_)
      rw [hr]
      apply h4.bind
      rw [hr']
      exact h8
    · intro e
      rw [e] at h11
      have hm : p ∈ (plug ks (CTree.mk d c t p (CTree.mk d .black a' w' b'))).ptrs :=
        mem_plug.mpr (.inl (CTree.mem_ptrs_mk.mpr (.inr (.inl rfl))))
      rw [← h11] at hm
      simp [CTree.ptrs] at hm
    · rw [← hp]
      exact h11.trans (plug_ptrs_congr ks (CTree.ptrs_mk_congr rfl hp'))

/-- the last statement of `deleteFixup`; painting the sentinel black changes nothing -/
lemma Holds.blacken (h : Holds live L ctx t) :
    Holds live (L.setColor (L.rootOf t) .black) ctx (t.paint .black) := by
  by_cases ht : t = .leaf
  · subst ht
    have e : L.setColor L.nil .black = L := by
      have hcol : (fun q => if q = L.nil then Color.black else L.color q) = L.color := by
        funext q
        by_cases hq : q = L.nil
        · rw [if_pos hq, hq, h.nilColor]
        · rw [if_neg hq]
      show { L with color := fun q => if q = L.nil then Color.black else L.color q } = L
      rw [hcol]
    show Holds live (L.setColor L.nil .black) ctx .leaf
    rw [e]
    exact h
  · exact h.setColor ht .black

/-- **`deleteFixup` restores the balance.**  Each iteration moves the focus up, or is the last
but one. -/
theorem deleteFixup_does (fuel : Nat) (h : Hangs live L ctx t) (hs : ShortFocus ctx t)
    (hf : 0 < fuel ∧ (t.color = .red ∨ ctx.length < fuel)) :
    ∃ L' t', Does live (deleteFixup fuel (L.rootOf t)) L () L' ∧ Holds live L' [] t' ∧
      Balanced t' ∧ t'.ptrs = (plug ctx t).ptrs := by
  induction fuel generalizing L ctx t with
  | zero => omega
  | succ fuel ih =>
    by_cases hdone : t.color = .red ∨ ctx = []
    · have hplug := plug_ptrs_congr ctx (CTree.ptrs_paint .black t)
      refine ⟨_, _, ?_, h.blacken.whole, hs.done hdone, hplug⟩
      apply h.readRoot.bind
      by_cases hroot : L.rootOf t = L.rootOf (plug ctx t)
      · exact Does.ite_neg (fun k => k hroot) (setColor_does h.valid_root)
      · refine Does.ite_pos hroot (h.readColor.bind (Does.ite_neg ?_ (setColor_does h.valid_root)))
        rcases hdone with hr | rfl
        · rw [hr]
          exact fun k => Color.black_ne_red k.symm
        · exact absurd rfl hroot
    · have hb : t.color = .black := Color.ne_red.mp (fun k => hdone (.inl k))
      cases ctx with
      | nil => exact absurd (.inr rfl) hdone
      | cons f fs =>
        obtain ⟨L₁, ctx', t', h1, h2, h3, h4, h5, h6⟩ := deleteFixupSide_does h hs hb
        have hlen : fs.length + 1 < fuel + 1 := by
          rcases hf.2 with hr | hl
          · rw [hb] at hr
            exact absurd hr Color.black_ne_red
          · exact hl
        have hf' : 0 < fuel ∧ (t'.color = .red ∨ ctx'.length < fuel) := by
          refine ⟨by omega, ?_⟩
          rcases h5 with h5 | h5
          · exact .inl h5
          · exact .inr (by omega)
        obtain ⟨L', t'', h7, h8, h9, h10⟩ := ih (h2.toHangs h3) h4 hf'
        refine ⟨L', t'', ?_, h8, h9, h10.trans h6⟩
        refine h.readRoot.bind (Does.ite_pos h.root_ne (h.readColor.bind (Does.ite_pos hb ?_)))
        obtain ⟨c', a, w, b, hsib⟩ := hs.sibling .left
        have hne : L.rootOf t ≠ L.rootOf f.sib := by
          have hx := h.across.root_ne_sib (by rw [hsib]; exact CTree.mk_ne_leaf)
          exact fun e => hx e.symm
        exact h.readUp.bind ((h.sideOf_does hne).bind (h1.bind h7))

end
end RevSem
