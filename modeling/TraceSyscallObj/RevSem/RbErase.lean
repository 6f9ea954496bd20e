import TraceSyscallObj.RevSem.RbInsert

/-!
# `rbtErase`

A node with two children is not taken out itself: its successor is, after its key, size, type and
creation address (not its name) have moved up.  `rbtErase_spec` therefore gives the records that
are left in two forms.
-/

namespace RevSem
open PTree Run

section
variable {live : List Nat} {L : Links Ptr} {s : TreeState} {t : CTree Ptr}
  {ctx fs : List (Frame Ptr)}

/-! ## the node that is taken out -/

lemma leftmost_does (fuel : Nat) (h : Holds live L ctx t) (ht : t ≠ .leaf)
    (hf : t.ptrs.length ≤ fuel) :
    ∃ fs c y b, t = plug fs (.node c .leaf y b) ∧ before fs = [] ∧
      Does live (leftmost fuel (L.rootOf t)) L y L := by
  induction t generalizing ctx fuel with
  | leaf => exact absurd rfl ht
  | node c l p r ihl _ =>
    have hm : Holds live L ctx (CTree.mk .left c l p r) := h
    have hlen : l.ptrs.length + (r.ptrs.length + 1) ≤ fuel := by simpa [CTree.ptrs] using hf
    obtain ⟨fuel, rfl⟩ : ∃ m, fuel = m + 1 := ⟨fuel - 1, by omega⟩
    have hread : Does live (childOf p .left) L (L.rootOf l) L := hm.down.readFocus
    by_cases hl : l = .leaf
    · subst hl
      refine ⟨[], c, p, r, rfl, rfl, ?_⟩
      refine hread.bind (Does.ite_neg ?_ (Does.pure p))
      exact fun k => k hm.down.nil_eq
    · obtain ⟨fs, c', y, b, e, hb, hdo⟩ := ihl fuel hm.down hl (by omega)
      refine ⟨fs ++ [⟨.left, c, p, r⟩], c', y, b, ?_, ?_, ?_⟩
      · rw [plug_append, ← e]
        rfl
      · rw [before_append, hb]
        rfl
      · show Does live (leftmost (fuel + 1) p) L y L
        refine hread.bind (Does.ite_pos ?_ (hread.bind hdo))
        exact (hm.down.node_ne (Links.rootOf_mem hl)).1

/-- what `rbtErase` needs to know about the node it takes out when `z` is erased -/
structure IsVictim (t : CTree Ptr) (z y : Ptr) (fs : List (Frame Ptr)) (d : Dir) (c : Color)
    (x : CTree Ptr) : Prop where
  plug_eq : plug fs (CTree.mk d c .leaf y x) = t
  succ : y = z ∨ y ≠ z ∧ ∃ A B, t.ptrs = A ++ z :: y :: B ∧ (plug fs x).ptrs = A ++ z :: B

variable {z : Ptr} {c : Color}

lemma victim_does (H : Host) {l r : CTree Ptr} (h : Holds live L ctx (.node c l z r))
    (hf : (plug ctx (.node c l z r)).ptrs.length < H.fuel) :
    ∃ y fs d c' x, IsVictim (plug ctx (.node c l z r)) z y fs d c' x ∧
      (y = z ↔ L.child z .left = .sentinel ∨ L.child z .right = .sentinel) ∧
      Does live (victim H z) L y L := by
  have hm : Holds live L ctx (CTree.mk .left c l z r) := h
  have hleft : Does live (childOf z .left) L (L.rootOf l) L := hm.down.readFocus
  have hright : Does live (childOf z .right) L (L.rootOf r) L := hm.down_flip.readFocus
  have hnil : ∀ {a : CTree Ptr} {gs}, Holds live L gs a → (L.rootOf a = .sentinel ↔ a = .leaf) := by
    intro a gs ha
    constructor
    · intro e
      by_contra hne
      exact (ha.node_ne (Links.rootOf_mem hne)).1 e
    · rintro rfl
      exact ha.nil_eq
  have hcl : L.child z .left = L.rootOf l := hm.cell.2.2.1
  have hcr : L.child z .right = L.rootOf r := hm.cell.2.2.2
  rw [hcl, hcr, hnil hm.down, hnil hm.down_flip]
  by_cases hl : l = .leaf
  · subst hl
    refine ⟨z, ctx, .left, c, r, ⟨rfl, .inl rfl⟩, ⟨fun _ => .inl rfl, fun _ => rfl⟩, ?_⟩
    exact hleft.bind (Does.ite_pos hm.nil_eq (Does.pure z))
  have hl' : L.rootOf l ≠ .sentinel := fun e => hl ((hnil hm.down).mp e)
  by_cases hr : r = .leaf
  · subst hr
    refine ⟨z, ctx, .right, c, l, ⟨rfl, .inl rfl⟩, ⟨fun _ => .inr rfl, fun _ => rfl⟩, ?_⟩
    refine hleft.bind (Does.ite_neg hl' (hright.bind (Does.ite_pos hm.nil_eq (Does.pure z))))
  have hr' : L.rootOf r ≠ .sentinel := fun e => hr ((hnil hm.down_flip).mp e)
  have hlen : r.ptrs.length ≤ H.fuel := by
    have h1 := length_le_plug ctx (.node c l z r)
    simp only [CTree.ptrs, List.length_append, List.length_cons] at h1
    omega
  obtain ⟨fs, c', y, b, e, hb, hdo⟩ := leftmost_does H.fuel hm.down_flip hr hlen
  have hyz : y ≠ z := by
    rintro rfl
    have hd := (CTree.nodup_mk (d := .left) (c := c)).mp (nodup_of_plug h.nodup)
    apply hd.2.1
    rw [e]
    exact mem_plug.mpr (.inl (by simp [CTree.ptrs]))
  refine ⟨y, fs ++ ⟨.right, c, z, l⟩ :: ctx, .left, c', b, ⟨?_, .inr ⟨hyz, ?_⟩⟩,
    ⟨fun k => absurd k hyz, fun k => absurd k (not_or.mpr ⟨hl, hr⟩)⟩, ?_⟩
  · rw [plug_append]
    show plug ctx (.node c l z (plug fs (.node c' .leaf y b))) = _
    rw [← e]
  · refine ⟨before ctx ++ l.ptrs, b.ptrs ++ after fs ++ after ctx, ?_, ?_⟩
    · rw [plug_ptrs, CTree.ptrs, e, plug_ptrs, hb]
      simp [CTree.ptrs]
    · rw [plug_ptrs, before_append, after_append, hb]
      simp [before, after]
  · exact hleft.bind (Does.ite_neg hl' (hright.bind (Does.ite_neg hr' (hright.bind hdo))))

variable {d : Dir} {y : Ptr} {x : CTree Ptr}

lemma onlyChild_does
    (h : Holds live L ctx (CTree.mk d c .leaf y x)) : Does live (onlyChild y) L (L.rootOf x) L := by
  cases d with
  | left =>
    have h1 : Does live (childOf y .left) L (L.rootOf .leaf) L := h.down.readFocus
    refine h1.bind (Does.ite_neg (fun k => k h.nil_eq) ?_)
    exact h.down.readSib
  | right =>
    have h1 : Does live (childOf y .left) L (L.rootOf x) L := h.down.readSib
    have h2 : Does live (childOf y .right) L (L.rootOf .leaf) L := h.down.readFocus
    by_cases hx : L.rootOf x = .sentinel
    · refine h1.bind (Does.ite_neg (fun k => k hx) ?_)
      have e : L.rootOf x = L.rootOf .leaf := hx.trans h.nil_eq.symm
      rw [e]
      exact h2
    · exact h1.bind (Does.ite_pos hx h1)

/-! ## taking it out -/

section
variable (h : Holds live L ctx (CTree.mk d c .leaf y x))
include h

lemma Holds.splice : Hangs live (L.splice y (L.rootOf x)) ctx x := by
  have hp := h.toAt.splice_parent_root
  refine ⟨⟨h.toAt.splice, ?_, ?_, fun p hp => ?_⟩, ?_⟩
  · rw [Links.splice_nil]
    exact h.nil_eq
  · rw [Links.splice_null]
    exact h.null_eq
  · obtain ⟨A, B, h1, h2⟩ := exists_splice_ptrs ctx d c y x
    apply h.valid
    rw [h1]
    rw [h2, List.mem_append] at hp
    rcases hp with hp | hp
    · exact List.mem_append_left _ hp
    · exact List.mem_append_right _ (List.mem_cons_of_mem _ hp)
  · rw [Links.rootOf_congr (Links.splice_nil ..), Links.top_congr (Links.splice_null ..)]
    exact hp

lemma unlink_does : Does live (unlink y (L.rootOf x)) L () (L.splice y (L.rootOf x)) := by
  have hy : y.validIn live := by simpa using h.valid_root
  have hyx : y ≠ L.rootOf x := by
    have hd := CTree.nodup_mk.mp (nodup_of_plug h.nodup)
    exact Links.ne_rootOf hd.2.1 (h.proper_sub (CTree.mem_ptrs_mk.mpr (.inr (.inl rfl)))).1
  have hpar : L.parent y = L.top ctx := h.cell.1
  have hpar' : (L.setParent (L.rootOf x) (L.top ctx)).parent y = L.top ctx := by
    rw [Links.setParent_parent, if_neg hyx, hpar]
  unfold unlink Links.splice
  dsimp only
  rw [hpar, hpar']
  refine (parentOf_does hy hpar).bind ((setParent_does h.down_flip.valid_root).bind ?_)
  exact (parentOf_does hy hpar').bind (relink_does h.valid_top h.null_eq)

end

/-- the record of `z` after `copyRecord z y` -/
def movedRecord (y z : Record) : Record := { y with objName := z.objName }

lemma copyRecord_ok (hy : y.validIn s.live) (hz : z.validIn s.live) :
    ∃ s', copyRecord z y s = .ok () s' ∧ s'.links = s.links ∧ s'.live = s.live ∧
      ∀ q, s'.record q = if q = z then movedRecord (s.record y) (s.record z) else s.record q := by
  unfold copyRecord
  by_cases h : y = z
  · subst h
    rw [if_neg (fun k => k rfl)]
    refine ⟨s, rfl, rfl, rfl, fun q => ?_⟩
    by_cases hq : q = y
    · rw [if_pos hq, hq]
      rfl
    · rw [if_neg hq]
  · rw [if_pos h, bind_ok (load_ok hy), store_ok hz]
    refine ⟨_, rfl, store_links s z fun _ => ⟨rfl, rfl, rfl, rfl⟩, rfl, fun q => ?_⟩
    rw [store_record]
    by_cases hq : q = z
    · rw [if_pos hq, if_pos hq, hq]
      rfl
    · rw [if_neg hq, if_neg hq]

lemma rebalance_does (H : Host) (h : Hangs live L ctx x) (hy : y.validIn live)
    (hc : L.color y = c) (hb : Balanced (plug ctx (CTree.mk d c .leaf y x)))
    (hf : ctx.length < H.fuel) :
    ∃ L' t', Does live (rebalance H y (L.rootOf x)) L () L' ∧ Holds live L' [] t' ∧
      Balanced t' ∧ t'.ptrs = (plug ctx x).ptrs := by
  cases c with
  | black =>
    obtain ⟨L', t', h1, h2⟩ := deleteFixup_does H.fuel h hb.splice_black ⟨by omega, .inr hf⟩
    exact ⟨L', t', (colorOf_does hy hc).bind (Does.ite_pos rfl h1), h2⟩
  | red =>
    refine ⟨L, _, ?_, h.whole, hb.splice_red, rfl⟩
    exact (colorOf_does hy hc).bind (Does.ite_neg (fun k => Color.black_ne_red k.symm) (Does.pure _))

lemma freeNode_ok (h : y.validIn s.live) (hy : y ≠ .sentinel) :
    ∃ s', freeNode y s = .ok () s' ∧ s'.links = s.links ∧
      s'.record = s.record ∧ ∀ q, q ≠ y → q.validIn s.live → q.validIn s'.live := by
  cases y with
  | null => exact absurd h (fun k => k)
  | sentinel => exact absurd rfl hy
  | cell n =>
    have hn : n ∈ s.live := h
    refine ⟨{ s with live := s.live.filter (· ≠ n) }, ?_, rfl, rfl, fun q hq hv => ?_⟩
    · show (if n ∈ s.live then _ else _) = _
      rw [if_pos hn]
    cases q with
    | null | sentinel => exact hv
    | cell m =>
      refine List.mem_filter.mpr ⟨hv, ?_⟩
      have hmn : m ≠ n := fun e => hq (by rw [e])
      simpa using hmn

/-- what is left after `r` is erased from between `A` and `B`: the next record moves up, without
its name, when the node of `r` stays in use -/
def Erased (A : List Record) (r : Record) (B left : List Record) : Prop :=
  left = A ++ B ∨ ∃ r' B', B = r' :: B' ∧ left = A ++ movedRecord r' r :: B'

lemma Erased.entries {A B left : List Record} {r : Record} (h : Erased A r B left) :
    left.map Record.toEntry = (A ++ B).map Record.toEntry := by
  rcases h with rfl | ⟨r', B', rfl, rfl⟩
  · rfl
  · simp [movedRecord]

lemma ordered_iff (s : TreeState) (t : CTree Ptr) :
    Ordered s.keyOf t ↔ (((s.records t).map Record.toEntry).map Entry.key).Pairwise (· < ·) := by
  rw [TreeState.records, List.map_map, List.map_map]
  exact Iff.rfl

lemma Erased.ordered {A B : List Record} {r : Record} {s' : TreeState} {t' : CTree Ptr}
    (h : Erased A r B (s'.records t')) (hr : s.records t = A ++ r :: B) (ho : Ordered s.keyOf t) :
    Ordered s'.keyOf t' := by
  rw [ordered_iff, hr] at ho
  rw [ordered_iff, h.entries]
  refine ho.sublist ((List.Sublist.map _ ?_).map _)
  exact (List.Sublist.refl A).append (List.sublist_cons_self r B)

/-- what is left, and which of the two it is: the node of `z` goes if it has a free side, otherwise
it takes over what its successor stored -/
inductive ErasedAt (s : TreeState) (t : CTree Ptr) (z : Ptr) (left : List Record) : Prop
  | out (A B : List Ptr) (hp : t.ptrs = A ++ z :: B)
      (hz : (s.mem z).left = .sentinel ∨ (s.mem z).right = .sentinel)
      (hl : left = (A ++ B).map s.record)
  | moved (A : List Ptr) (y : Ptr) (B : List Ptr) (hp : t.ptrs = A ++ z :: y :: B)
      (hz : ¬ ((s.mem z).left = .sentinel ∨ (s.mem z).right = .sentinel))
      (hl : left = A.map s.record ++ movedRecord (s.record y) (s.record z) :: B.map s.record)

lemma ErasedAt.erased {left : List Record} (h : ErasedAt s t z left) :
    ∃ A B, s.records t = A ++ s.record z :: B ∧ Erased A (s.record z) B left := by
  unfold TreeState.records
  cases h with
  | out A B hp _ hl =>
    refine ⟨A.map s.record, B.map s.record, ?_, .inl ?_⟩
    · rw [hp, List.map_append, List.map_cons]
    · rw [hl, List.map_append]
  | moved A y B hp _ hl =>
    refine ⟨A.map s.record, (y :: B).map s.record, ?_, .inr ⟨s.record y, B.map s.record, ?_, hl⟩⟩
    · rw [hp, List.map_append, List.map_cons]
    · rw [List.map_cons]

lemma erased_records {s' : TreeState} {t' : CTree Ptr} (hn : t.ptrs.Nodup)
    (hv : IsVictim t z y fs d c x)
    (hyz : y = z ↔ (s.mem z).left = .sentinel ∨ (s.mem z).right = .sentinel)
    (hp : t'.ptrs = (plug fs x).ptrs)
    (hr : ∀ q, s'.record q = if q = z then movedRecord (s.record y) (s.record z)
      else s.record q) : ErasedAt s t z (s'.records t') := by
  unfold TreeState.records
  rw [hp]
  rcases hv.succ with rfl | ⟨hne, A, B, h1, h2⟩
  · obtain ⟨A, B, h1, h2⟩ := exists_splice_ptrs fs d c y x
    rw [hv.plug_eq] at h1
    have hrec : s'.record = s.record := by
      funext q
      rw [hr]
      by_cases hq : q = y
      · rw [if_pos hq, hq]
        rfl
      · rw [if_neg hq]
    refine .out A B h1 (hyz.mp rfl) ?_
    rw [h2, hrec]
  · rw [h1] at hn
    have hzA : z ∉ A := fun hm => (List.nodup_append.mp hn).2.2 z hm z (List.mem_cons_self ..) rfl
    have hzB : z ∉ B := fun hm =>
      (List.nodup_cons.mp (List.nodup_append.mp hn).2.1).1 (List.mem_cons_of_mem _ hm)
    have hkeep : ∀ C : List Ptr, z ∉ C → C.map s'.record = C.map s.record := by
      intro C hC
      refine List.map_congr_left (fun q hq => ?_)
      have hqz : ¬ q = z := fun e => hC (e ▸ hq)
      rw [hr, if_neg hqz]
    refine .moved A y B h1 (fun k => hne (hyz.mpr k)) ?_
    rw [h2, List.map_append, List.map_cons, hkeep A hzA, hkeep B hzB, hr, if_pos rfl]

section
variable (H : Host) (h : IsRbTree s t) (hz : z ∈ t.ptrs) (hf : t.ptrs.length < H.fuel)
include H h hz hf

lemma rbtErase_at :
    ∃ s' t', rbtErase H z s = .ok .ok s' ∧ IsRbTree s' t' ∧
      ErasedAt s t z (s'.records t') := by
  have hzv := (h.holds.node_ne hz).2.2
  obtain ⟨ctx, c₀, l, r, e⟩ := exists_focus hz
  have h0 := h.holds
  rw [e] at h0 hf
  obtain ⟨y, fs, d, c, x, hv, hyz, hvd⟩ := victim_does H (h0.focus ctx) hf
  rw [← e] at hv hf
  have hy : Holds s.live s.links fs (CTree.mk d c .leaf y x) := by
    apply Holds.focus fs
    rw [hv.plug_eq]
    exact h.holds
  have hyin := hy.node_ne (p := y) (CTree.mem_ptrs_mk.mpr (.inr (.inl rfl)))
  have hbal : Balanced (plug fs (CTree.mk d c .leaf y x)) := by
    rw [hv.plug_eq]
    exact h.balanced
  have hlen : fs.length < H.fuel := by
    have h1 := length_le_plug fs (CTree.mk d c .leaf y x)
    rw [hv.plug_eq] at h1
    omega
  -- the pointers
  obtain ⟨s₁, r1, l1, q1⟩ := hvd s rfl rfl
  obtain ⟨s₂, r2, l2, q2⟩ := onlyChild_does hy s₁ (rest_live q1) l1
  have q2' := q2.trans q1
  obtain ⟨s₃, r3, l3, q3⟩ := unlink_does hy s₂ (rest_live q2') l2
  have q3' := q3.trans q2'
  -- the record of `z`
  have hyv₃ : y.validIn s₃.live := by rw [rest_live q3']; exact hyin.2.2
  have hzv₃ : z.validIn s₃.live := by rw [rest_live q3']; exact hzv
  obtain ⟨s₄, r4, l4, v4, p4⟩ := copyRecord_ok hyv₃ hzv₃
  -- the balance
  have hlive₄ : s₄.live = s.live := v4.trans (rest_live q3')
  have hcol : (s.links.splice y (s.links.rootOf x)).color y = c := by
    rw [Links.splice_color]
    exact hy.cell.2.1
  obtain ⟨L', t', b1, b2, b3, b4⟩ := rebalance_does H hy.splice hyin.2.2 hcol hbal hlen
  rw [Links.rootOf_congr (Links.splice_nil ..)] at b1
  obtain ⟨s₅, r5, l5, q5⟩ := b1 s₄ hlive₄ (l4.trans l3)
  have hyv₅ : y.validIn s₅.live := by rw [rest_live q5, hlive₄]; exact hyin.2.2
  obtain ⟨s₆, r6, l6, p6, v6⟩ := freeNode_ok hyv₅ hyin.1
  have hrec : ∀ q, s₆.record q = if q = z then movedRecord (s.record y) (s.record z)
      else s.record q := by
    intro q
    rw [p6, rest_record q5, p4, rest_record q3']
  have hat := erased_records h.holds.nodup hv hyz b4 hrec
  obtain ⟨A, B, hA, hB⟩ := hat.erased
  refine ⟨s₆, t', ?_, ⟨?_, b3, hB.ordered hA h.ordered⟩, hat⟩
  · rw [rbtErase, bind_ok r1, bind_ok r2, bind_ok r3, bind_ok r4, bind_ok r5, bind_ok r6]
    rfl
  · refine ⟨?_, rfl, rfl, fun p hp => ?_⟩
    · rw [l6, l5]
      exact b2.toAt
    obtain ⟨A', B', e1, e2⟩ := exists_splice_ptrs fs d c y x
    have hp' : p ∈ A' ++ B' := by
      rw [← e2, ← b4]
      exact hp
    have hn := hy.nodup
    rw [e1] at hn
    have hpy : p ≠ y := by
      intro k
      rw [k] at hp'
      exact (List.nodup_cons.mp (List.nodup_middle.mp hn)).1 hp'
    apply v6 p hpy
    rw [rest_live q5, hlive₄]
    exact b2.valid p hp

/-- **Erasing a node**: its record goes, and the next one may move into its place. -/
theorem rbtErase_spec : ∃ s' t' A B, rbtErase H z s = .ok .ok s' ∧ IsRbTree s' t' ∧
      s.records t = A ++ s.record z :: B ∧ Erased A (s.record z) B (s'.records t') := by
  obtain ⟨s', t', h1, h2, h3⟩ := rbtErase_at H h hz hf
  obtain ⟨A, B, hA, hB⟩ := h3.erased
  exact ⟨s', t', A, B, h1, h2, hA, hB⟩

end

end
end RevSem
