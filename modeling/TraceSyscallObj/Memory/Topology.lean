import TraceSyscallObj.Memory.Region

/-!
# Flat views against the reference lookup

The walk over the regions is a list of visits: the terminating regions in the order in which they
are reached, each with the part of the address space it is visible through.  Rendering fills the
gaps of the view with one visit after the other, so a point belongs to the first visit that covers
it, and that is the region the lookup from the root finds.

The loop steps over a range of the view with `int128_get64`, which does not take a range of 2^64
bytes.

* `lookup`: the reference: descend from the root;
* `visits`: the terminating regions with their clips;
* `renderInto_fill`: one visit fills the gaps;
* `render_visits`: the walk renders the visits in order;
* `find_visit`: the first visit that covers a point is the one the lookup finds;
* `topology_correct_iff`: the view is right unless a visit of the whole space is rendered over a
  range that is the whole space.
-/

namespace Memory
open List
variable {h : Heap}

/-! ## one visit -/

/-- the range from `b` to `t` of a region that begins at `origin` -/
def piece (fr : FlatRange) (origin b t : Int) : FlatRange :=
  { fr with offsetInRegion := BitVec.ofInt 64 (b - origin), addr := { start := b, size := t - b } }

lemma piece_bounds (fr : FlatRange) (origin b t : Int) :
    Span.lo (piece fr origin b t) = b ∧ Span.hi (piece fr origin b t) = t :=
  ⟨rfl, show b + (t - b) = t by omega⟩

/-- the view lies in the address space -/
structure Good (view : FlatView) : Prop where
  ordered : Span.Ordered view
  bounds : ∀ r ∈ view, 0 ≤ r.addr.start ∧ addrrangeEnd r.addr ≤ int128_2_64

/-- the offset in the region is the distance from its origin -/
def Cursor.At (c : Cursor) (origin : Int) : Prop :=
  c.offsetInRegion = BitVec.ofInt 64 (c.base - origin)

variable {a : Int}

lemma get64_ok (h0 : 0 ≤ a) (h1 : a < int128_2_64) :
    int128Get64 a = .ok (BitVec.ofInt 64 a) := if_pos ⟨h0, h1⟩

lemma make64_ofInt (h0 : 0 ≤ a) (h1 : a < int128_2_64) : int128Make64 (BitVec.ofInt 64 a) = a := by
  have hlt : a < ((2 ^ 64 : Nat) : Int) := h1
  unfold int128Make64
  rw [BitVec.toNat_ofInt, Int.emod_eq_of_lt h0 hlt, Int.toNat_of_nonneg h0]

variable {c : Cursor} {origin : Int}

lemma advance_ok {now : Int} (hat : c.At origin) (h0 : 0 ≤ now)
    (h1 : now < int128_2_64) : ∃ c', c.advance now = .ok c' ∧ c'.i = c.i ∧ c'.base = c.base + now ∧
      c'.remain = c.remain - now ∧ c'.At origin := by
  refine ⟨{ c with base := c.base + now, remain := c.remain - now,
                   offsetInRegion := c.offsetInRegion + BitVec.ofInt 64 now }, ?_, rfl, rfl, rfl, ?_⟩
  · unfold Cursor.advance
    rw [get64_ok h0 h1]
    rfl
  · show c.offsetInRegion + BitVec.ofInt 64 now = BitVec.ofInt 64 (c.base + now - origin)
    rw [show c.offsetInRegion = BitVec.ofInt 64 (c.base - origin) from hat, ← BitVec.ofInt_add]
    congr 1
    omega

lemma range_eq_piece (hat : c.At origin) (fr : FlatRange) {size t : Int}
    (ht : c.base + size = t) : c.range fr size = piece fr origin c.base t := by
  unfold Cursor.range piece
  congr 2
  omega

lemma insert_at_length (pre suf : FlatView) (fr : FlatRange) :
    flatviewInsert (pre ++ suf) pre.length fr = pre ++ fr :: suf := by
  induction pre with
  | nil => rfl
  | cons r pre ih => exact congrArg (r :: ·) ih

/-- what is left after the loop goes behind the ranges that were passed -/
def settle (fr : FlatRange) (x : FlatView × Cursor) : FlatView :=
  if x.2.remain ≠ 0 then flatviewInsert x.1 x.2.i (x.2.range fr x.2.remain) else x.1

lemma getElem?_at_length (pre suf : FlatView) : (pre ++ suf)[pre.length]? = suf.head? := by
  rw [List.getElem?_append_right (Nat.le_refl _), Nat.sub_self, List.head?_eq_getElem?]

variable {r : FlatRange} {view : FlatView}

lemma Good.tail (h : Good (r :: view)) : Good view :=
  ⟨h.ordered.tail, fun r' hr => h.bounds r' (mem_cons_of_mem r hr)⟩

lemma step_over (hat : c.At origin) (hremain : 0 ≤ c.remain) (hbase : c.base < addrrangeEnd r.addr)
    (hnow : min (c.base + c.remain) (addrrangeEnd r.addr) - c.base < int128_2_64) :
    ∃ c', c.advance (min (c.base + c.remain) (addrrangeEnd r.addr) - c.base) = .ok c' ∧
      c'.i = c.i ∧ c'.base = min (c.base + c.remain) (addrrangeEnd r.addr) ∧
      c'.base + c'.remain = c.base + c.remain ∧ 0 ≤ c'.remain ∧ c'.At origin := by
  obtain ⟨c', h1, h2, h3, h4, h5⟩ := advance_ok hat (show 0 ≤ min (c.base + c.remain)
    (addrrangeEnd r.addr) - c.base by omega) hnow
  exact ⟨c', h1, h2, by omega, by omega, by omega, h5⟩

lemma renderLoop_fill (fr : FlatRange) (origin : Int) (suf : FlatView) :
    ∀ (pre : FlatView) (fuel : Nat) (c : Cursor), c.i = pre.length → suf.length < fuel → Good suf →
      0 ≤ c.remain → 0 ≤ c.base → c.base + c.remain ≤ int128_2_64 → c.At origin →
      ¬ (c.remain = int128_2_64 ∧ ∃ r ∈ suf, r.addr = wholeSpace) →
      ∃ x, renderLoop fr fuel (pre ++ suf) c = .ok x ∧
        settle fr x = pre ++ Span.fill (piece fr origin) suf c.base (c.base + c.remain) := by
  induction suf with
  | nil =>
    intro pre fuel c hi hfuel _ hremain _ _ hat _
    obtain ⟨fuel, rfl⟩ := Nat.exists_eq_succ_of_ne_zero (Nat.ne_of_gt (Nat.zero_lt_of_lt hfuel))
    refine ⟨(pre ++ [], c), ?_, ?_⟩
    · rw [renderLoop, hi, getElem?_at_length]
      rfl
    · unfold settle Span.fill
      by_cases h : c.remain = 0
      · rw [if_neg (not_not_intro h), if_neg (by omega)]
      · rw [if_pos h, if_pos (by omega), hi, insert_at_length, range_eq_piece hat fr rfl]
  | cons r suf ih =>
    intro pre fuel c hi hfuel hgood hremain hbase htop hat hwhole
    obtain ⟨fuel, rfl⟩ := Nat.exists_eq_succ_of_ne_zero (Nat.ne_of_gt (Nat.zero_lt_of_lt hfuel))
    have hfuel' : suf.length < fuel := Nat.lt_of_succ_lt_succ hfuel
    obtain ⟨hr0, hr1⟩ := hgood.bounds r mem_cons_self
    have hlo : r.addr.start < addrrangeEnd r.addr := hgood.ordered.head.1
    have hget : (pre ++ r :: suf)[c.i]? = some r := by rw [hi, getElem?_at_length]; rfl
    have hwhole' : ¬ (c.remain = int128_2_64 ∧ ∃ r ∈ suf, r.addr = wholeSpace) :=
      fun h => hwhole ⟨h.1, h.2.elim fun x hx => ⟨x, mem_cons_of_mem r hx.1, hx.2⟩⟩
    rw [renderLoop, hget]
    simp only
    by_cases hzero : c.remain = 0
    · rw [if_pos hzero]
      refine ⟨_, rfl, ?_⟩
      unfold settle Span.fill
      rw [if_neg (not_not_intro hzero), if_neg (by omega)]
    rw [if_neg hzero]
    have hlt : c.base < c.base + c.remain := by omega
    by_cases hpast : c.base ≥ addrrangeEnd r.addr
    · rw [if_pos hpast]
      obtain ⟨x, hx1, hx2⟩ := ih (pre ++ [r]) fuel { c with i := c.i + 1 }
        (by rw [length_append, ← hi]; rfl) hfuel' hgood.tail hremain hbase htop hat hwhole'
      rw [append_assoc] at hx1
      refine ⟨x, hx1, ?_⟩
      rw [hx2, Span.fill, if_pos hlt, if_pos (show Span.hi r ≤ c.base from hpast), append_assoc]
      rfl
    rw [if_neg hpast]
    -- the rest of the loop, from the cursor behind `r`
    have hnext : ∀ (pre' : FlatView) (c' : Cursor), c'.i = pre'.length →
        c'.base = min (c.base + c.remain) (addrrangeEnd r.addr) →
        c'.base + c'.remain = c.base + c.remain → 0 ≤ c'.remain → c'.At origin →
        ∃ x, renderLoop fr fuel ((pre' ++ [r]) ++ suf) { c' with i := c'.i + 1 } = .ok x ∧
          settle fr x = (pre' ++ [r]) ++ Span.fill (piece fr origin) suf
            (min (c.base + c.remain) (Span.hi r)) (c.base + c.remain) := by
      intro pre' c' hi' hb hsum hrem hat'
      obtain ⟨x, hx1, hx2⟩ := ih (pre' ++ [r]) fuel { c' with i := c'.i + 1 }
        (by rw [length_append, ← hi']; rfl) hfuel' hgood.tail hrem
        (by show 0 ≤ c'.base; omega) (by show c'.base + c'.remain ≤ _; omega) hat'
        (fun hw => hwhole' ⟨by have h1 : c'.remain = int128_2_64 := hw.1; omega, hw.2⟩)
      refine ⟨x, hx1, hx2.trans ?_⟩
      rw [hsum, hb]
      rfl
    by_cases hgap : c.base < r.addr.start
    · rw [if_pos hgap]
      obtain ⟨c₁, a1, a2, a3, a4, a5⟩ := advance_ok (c := { c with i := c.i + 1 }) hat
        (show 0 ≤ min c.remain (r.addr.start - c.base) by omega)
        (show min c.remain (r.addr.start - c.base) < int128_2_64 by omega)
      have hrem₁ : c₁.remain = c.remain - min c.remain (r.addr.start - c.base) := a4
      have hbase₁ : c₁.base = c.base + min c.remain (r.addr.start - c.base) := a3
      obtain ⟨c₂, b1, b2, b3, b4, b5, b6⟩ := step_over (r := r) a5 (by omega) (by omega) (by omega)
      have htop₁ : c₁.base + c₁.remain = c.base + c.remain := by omega
      obtain ⟨x, hx1, hx2⟩ := hnext (pre ++ [c.range fr (min c.remain (r.addr.start - c.base))]) c₂
        (by rw [b2, a2, length_append, ← hi]; rfl) (by rw [b3, htop₁]) (by omega) b5 b6
      refine ⟨x, ?_, ?_⟩
      · show Except.bind (Cursor.advance _ _) _ = _
        rw [a1]
        show Except.bind (Cursor.advance _ _) _ = _
        rw [b1]
        show renderLoop fr fuel (flatviewInsert (pre ++ r :: suf) c.i _) { c₂ with i := c₂.i + 1 } = _
        rw [hi, insert_at_length, ← hx1]
        simp only [append_assoc, cons_append, nil_append]
      · rw [hx2, Span.fill, if_pos hlt, if_neg (show ¬ Span.hi r ≤ c.base by exact hpast),
          if_pos (show c.base < Span.lo r from hgap), range_eq_piece hat fr
            (show c.base + min c.remain (r.addr.start - c.base) =
              min (c.base + c.remain) (Span.lo r) by show _ = min _ r.addr.start; omega)]
        simp only [append_assoc, cons_append, nil_append]
    · rw [if_neg hgap]
      have hnow : min (c.base + c.remain) (addrrangeEnd r.addr) - c.base < int128_2_64 := by
        by_contra hcon
        refine hwhole ⟨by omega, r, mem_cons_self, ?_⟩
        have e1 : r.addr.start = 0 := by omega
        have e2 : r.addr.size = int128_2_64 := by unfold addrrangeEnd at *; omega
        show r.addr = { start := 0, size := int128_2_64 }
        rw [← e1, ← e2]
      obtain ⟨c₂, b1, b2, b3, b4, b5, b6⟩ := step_over hat hremain (by omega) hnow
      obtain ⟨x, hx1, hx2⟩ := hnext pre c₂ (by rw [b2, hi]) b3 b4 b5 b6
      refine ⟨x, ?_, ?_⟩
      · show Except.bind (Cursor.advance _ _) _ = _
        rw [b1]
        rw [← hx1, append_assoc]
        rfl
      · rw [hx2, Span.fill, if_pos hlt, if_neg (show ¬ Span.hi r ≤ c.base by exact hpast),
          if_neg (show ¬ c.base < Span.lo r by exact hgap), append_assoc]
        rfl

/-! ## visits -/

/-- a terminating region that begins at `origin` and is visible through `clip` -/
structure Visit where
  mr : RegionId
  origin : Int
  clip : AddrRange
  readonly : Bool

/-- the clip lies in the address space and behind the origin -/
structure Visit.Inside (v : Visit) : Prop where
  start_nonneg : 0 ≤ v.clip.start
  size_nonneg : 0 ≤ v.clip.size
  end_le : addrrangeEnd v.clip ≤ int128_2_64
  origin_le : v.origin ≤ v.clip.start
  offset_lt : v.clip.start - v.origin < int128_2_64

def Visit.range (h : Heap) (v : Visit) : FlatRange :=
  { mr := v.mr, offsetInRegion := BitVec.ofInt 64 (v.clip.start - v.origin), addr := v.clip,
    dirtyLogMask := (h v.mr).dirtyLogMask, romdMode := (h v.mr).romdMode, readonly := v.readonly }

def Visit.render (h : Heap) (view : FlatView) (v : Visit) : Except Fault FlatView :=
  renderInto h view v.mr v.origin v.clip v.readonly

/-- the visit is rendered over a range that is the whole address space -/
def Collides (view : FlatView) (v : Visit) : Prop :=
  v.clip = wholeSpace ∧ ∃ r ∈ view, r.addr = wholeSpace

variable {v : Visit}

lemma render_eq (hv : v.Inside) : v.render h view = (renderLoop (v.range h) (view.length + 1) view
      { i := 0, base := v.clip.start, remain := v.clip.size,
        offsetInRegion := BitVec.ofInt 64 (v.clip.start - v.origin) }).map (settle (v.range h)) := by
  unfold Visit.render renderInto
  rw [get64_ok (by have := hv.origin_le; omega) hv.offset_lt]
  show Except.bind (renderLoop (v.range h) _ _ _) _ = _
  generalize renderLoop (v.range h) (view.length + 1) view _ = r
  rcases r with e | ⟨view', c⟩
  · rfl
  · show (if c.remain ≠ 0 then _ else _) = Except.ok (settle (v.range h) (view', c))
    unfold settle
    split <;> rfl

lemma renderInto_fill (hv : v.Inside) (hview : Good view)
    (hc : ¬ Collides view v) : v.render h view =
      .ok (Span.fill (piece (v.range h) v.origin) view v.clip.start (addrrangeEnd v.clip)) := by
  have hend := hv.end_le
  unfold addrrangeEnd at hend
  obtain ⟨x, hx1, hx2⟩ := renderLoop_fill (v.range h) v.origin view [] (view.length + 1)
    { i := 0, base := v.clip.start, remain := v.clip.size,
      offsetInRegion := BitVec.ofInt 64 (v.clip.start - v.origin) } rfl (Nat.lt_succ_self _) hview
    hv.size_nonneg hv.start_nonneg hend rfl (fun hw => hc ⟨by
      have hsize : v.clip.size = int128_2_64 := hw.1
      have hstart : v.clip.start = 0 := by have := hv.start_nonneg; omega
      show v.clip = { start := 0, size := int128_2_64 }
      rw [← hsize, ← hstart], hw.2⟩)
  rw [render_eq hv]
  show Except.map _ (renderLoop _ _ ([] ++ view) _) = _
  rw [hx1]
  exact congrArg Except.ok hx2

lemma Good.eq_singleton (hview : Good view) (hr : r ∈ view)
    (hwhole : r.addr = wholeSpace) : view = [r] := by
  have hlo : Span.lo r = 0 := congrArg AddrRange.start hwhole
  have hhi : Span.hi r = int128_2_64 := by
    show addrrangeEnd r.addr = _
    rw [hwhole]
    rfl
  cases view with
  | nil => cases hr
  | cons r₀ rest =>
    obtain ⟨hlt, hrest⟩ := hview.ordered.head
    rcases List.mem_cons.mp hr with rfl | hr
    · cases rest with
      | nil => rfl
      | cons r₁ rest =>
        have h1 := hrest r₁ mem_cons_self
        have h2 := hview.ordered.tail.head.1
        have h3 : Span.hi r₁ ≤ int128_2_64 :=
          (hview.bounds r₁ (mem_cons_of_mem _ mem_cons_self)).2
        omega
    · have h1 := hrest r hr
      have h2 : 0 ≤ Span.lo r₀ := (hview.bounds r₀ mem_cons_self).1
      omega

lemma render_collides (hv : v.Inside) (hview : Good view)
    (hc : Collides view v) : v.render h view = .error .assertion := by
  obtain ⟨hclip, r, hr, hwhole⟩ := hc
  obtain rfl := hview.eq_singleton hr hwhole
  rw [render_eq hv, hclip, renderLoop]
  simp only [List.getElem?_cons_zero, hwhole]
  rfl

def mapped (fr : FlatRange) (a : Int) : RegionId × Hwaddr × Bool :=
  (fr.mr, fr.offsetInRegion + BitVec.ofInt 64 (a - fr.addr.start), fr.readonly)

def Visit.value (v : Visit) (a : Int) : RegionId × Hwaddr × Bool :=
  (v.mr, BitVec.ofInt 64 (a - v.origin), v.readonly)

lemma mapped_piece (h : Heap) (v : Visit) (b t a : Int) :
    mapped (piece (v.range h) v.origin b t) a = v.value a := by
  have he : BitVec.ofInt 64 (b - v.origin) + BitVec.ofInt 64 (a - b) =
      BitVec.ofInt 64 (a - v.origin) := by
    rw [← BitVec.ofInt_add]
    congr 1
    omega
  show (v.mr, BitVec.ofInt 64 (b - v.origin) + BitVec.ofInt 64 (a - b), v.readonly) = _
  rw [he]
  rfl

lemma Good.fill (hview : Good view) (h : Heap) (hv : v.Inside) :
    Good (Span.fill (piece (v.range h) v.origin) view v.clip.start (addrrangeEnd v.clip)) := by
  have hmake := piece_bounds (v.range h) v.origin
  refine ⟨Span.ordered_fill hmake hview.ordered, fun r hr => ?_⟩
  rcases Span.mem_fill hr with hr | ⟨b, t, rfl, h1, h2, h3⟩
  · exact hview.bounds r hr
  · have hstart := hv.start_nonneg
    have hend := hv.end_le
    have hb := hmake b t
    exact ⟨show 0 ≤ b by omega, show Span.hi (piece (v.range h) v.origin b t) ≤ _ by omega⟩

/-- **one visit**: the addresses it covers get its value unless they have one -/
theorem render_visit (hv : v.Inside) (hview : Good view)
    (hc : ¬ Collides view v) : ∃ view', v.render h view = .ok view' ∧ Good view' ∧
      view' = Span.fill (piece (v.range h) v.origin) view v.clip.start (addrrangeEnd v.clip) ∧
      ∀ a, Span.look mapped view' a = (Span.look mapped view a).or
        (if addrrangeContains v.clip a then some (v.value a) else none) := by
  exact ⟨_, renderInto_fill hv hview hc, hview.fill h hv, rfl,
    Span.look_fill (piece_bounds (v.range h) v.origin) (mapped_piece h v) hview.ordered⟩

/-! ## runs of visits -/

def firstVisit (vs : List Visit) (a : Int) : Option (RegionId × Hwaddr × Bool) :=
  (vs.find? fun v => decide (addrrangeContains v.clip a)).map fun v => v.value a

lemma firstVisit_cons (v : Visit) (vs : List Visit) (a : Int) : firstVisit (v :: vs) a =
    (if addrrangeContains v.clip a then some (v.value a) else none).or (firstVisit vs a) := by
  unfold firstVisit
  by_cases hv : addrrangeContains v.clip a
  · simp only [List.find?_cons, hv, decide_true, Option.map_some, if_true, Option.some_or]
  · simp only [List.find?_cons, hv, decide_false, if_false, Option.none_or]

variable {vs : List Visit}

lemma render_run {K : FlatView → Prop} (hin : ∀ v ∈ vs, v.Inside)
    (hK : ∀ view, ∀ v ∈ vs, Good view → K view → ¬ Collides view v ∧
      K (Span.fill (piece (v.range h) v.origin) view v.clip.start (addrrangeEnd v.clip))) :
    ∀ view, Good view → K view → ∃ view', vs.foldlM (Visit.render h) view = .ok view' ∧
      Good view' ∧ ∀ a, Span.look mapped view' a = (Span.look mapped view a).or (firstVisit vs a) := by
  induction vs with
  | nil =>
    intro view hview _
    exact ⟨view, rfl, hview, fun a => (Option.or_none).symm⟩
  | cons v vs ih =>
    intro view hview hk
    obtain ⟨hc, hk'⟩ := hK view v mem_cons_self hview hk
    obtain ⟨view₁, h1, h2, h3, h4⟩ := render_visit (h := h) (hin v mem_cons_self) hview hc
    obtain ⟨view', g1, g2, g3⟩ := ih (fun v hv => hin v (mem_cons_of_mem _ hv))
      (fun view v hv => hK view v (mem_cons_of_mem _ hv)) view₁ h2 (h3 ▸ hk')
    refine ⟨view', ?_, g2, fun a => ?_⟩
    · rw [foldlM_cons, h1]
      exact g1
    · rw [g3 a, h4 a, firstVisit_cons, Option.or_assoc]

/-- some range, and none that is the whole space: this stays so -/
def Split (view : FlatView) : Prop := view ≠ [] ∧ ∀ r ∈ view, r.addr ≠ wholeSpace

lemma Split.fill (hview : Good view) (hs : Split view) (hv : v.Inside) :
    Split (Span.fill (piece (v.range h) v.origin) view v.clip.start (addrrangeEnd v.clip)) := by
  obtain ⟨r₀, hr₀⟩ := exists_mem_of_ne_nil view hs.1
  have hkept : r₀ ∈ Span.fill (piece (v.range h) v.origin) view v.clip.start
      (addrrangeEnd v.clip) := Span.mem_fill_of_mem _ _ hr₀
  refine ⟨ne_nil_of_mem hkept, fun r hr hwhole => ?_⟩
  -- `r` would be the only range, so it would be the old range `r₀`
  rw [(hview.fill h hv).eq_singleton hr hwhole] at hkept
  exact hs.2 r₀ hr₀ (List.mem_singleton.mp hkept ▸ hwhole)

/-- one range that is the whole space: visits of less change nothing -/
def Full (view : FlatView) : Prop := ∃ r, view = [r] ∧ r.addr = wholeSpace

lemma Full.fill (hf : Full view) (hv : v.Inside) :
    Full (Span.fill (piece (v.range h) v.origin) view v.clip.start (addrrangeEnd v.clip)) := by
  obtain ⟨r, rfl, hwhole⟩ := hf
  have hhi : Span.hi r = int128_2_64 := by
    show addrrangeEnd r.addr = _
    rw [hwhole]
    rfl
  have hlo : Span.lo r = 0 := congrArg AddrRange.start hwhole
  have hend := hv.end_le
  have hstart := hv.start_nonneg
  refine ⟨r, ?_, hwhole⟩
  unfold Span.fill
  split
  next hlt =>
    rw [if_neg (by omega), if_neg (by omega)]
    unfold Span.fill
    rw [if_neg (by omega)]
  next => rfl

/-- the first visit that is not empty is the whole address space, and so is a later one -/
def CoversTwice : List Visit → Prop
  | [] => False
  | v :: vs =>
    if v.clip.size = 0 then CoversTwice vs
    else v.clip = wholeSpace ∧ ∃ w ∈ vs, w.clip = wholeSpace

instance CoversTwice.decidable : (vs : List Visit) → Decidable (CoversTwice vs)
  | [] => isFalse id
  | v :: vs =>
    have := CoversTwice.decidable vs
    inferInstanceAs (Decidable (if v.clip.size = 0 then CoversTwice vs
      else v.clip = wholeSpace ∧ ∃ w ∈ vs, w.clip = wholeSpace))

lemma full_fails (hin : ∀ v ∈ vs, v.Inside) :
    ∀ {view}, Good view → Full view → (∃ w ∈ vs, w.clip = wholeSpace) →
      vs.foldlM (Visit.render h) view = .error .assertion := by
  induction vs with
  | nil =>
    intro view _ _ hw
    obtain ⟨w, hw, -⟩ := hw
    cases hw
  | cons v vs ih =>
    intro view hview hfull hw
    have hv := hin v mem_cons_self
    rw [foldlM_cons]
    by_cases hwhole : v.clip = wholeSpace
    · obtain ⟨r, rfl, hr⟩ := hfull
      rw [render_collides hv hview ⟨hwhole, r, List.mem_singleton.mpr rfl, hr⟩]
      rfl
    rw [renderInto_fill hv hview (fun hc => hwhole hc.1)]
    obtain ⟨w, hmem, hclip⟩ := hw
    rcases List.mem_cons.mp hmem with rfl | hmem
    · exact absurd hclip hwhole
    · exact ih (fun v hv => hin v (mem_cons_of_mem _ hv)) (hview.fill h hv) (hfull.fill hv)
        ⟨w, hmem, hclip⟩

/-- **the visits are rendered unless they cover the address space twice** -/
theorem render_from_empty (hin : ∀ v ∈ vs, v.Inside) :
    (¬ CoversTwice vs → ∃ view, vs.foldlM (Visit.render h) [] = .ok view ∧ Good view ∧
      ∀ a, Span.look mapped view a = firstVisit vs a) ∧
    (CoversTwice vs → vs.foldlM (Visit.render h) [] = .error .assertion) := by
  have hempty : Good [] := ⟨.nil, fun r hr => absurd hr not_mem_nil⟩
  induction vs with
  | nil => exact ⟨fun _ => ⟨[], rfl, hempty, fun a => rfl⟩, fun h => h.elim⟩
  | cons v vs ih =>
    obtain ⟨hv, hvs⟩ := List.forall_mem_cons.mp hin
    obtain ⟨view₁, h1, h2, h3, h4⟩ := render_visit (h := h) hv hempty
      (fun hc => hc.2.elim fun r hr => absurd hr.1 not_mem_nil)
    have hhead : ∀ a, Span.look mapped view₁ a =
        if addrrangeContains v.clip a then some (v.value a) else none := fun a =>
      (h4 a).trans (Option.none_or)
    -- the view after `v` and a run from it
    have hcons : (∃ view, vs.foldlM (Visit.render h) view₁ = .ok view ∧ Good view ∧
        ∀ a, Span.look mapped view a = (Span.look mapped view₁ a).or (firstVisit vs a)) →
        ∃ view, (v :: vs).foldlM (Visit.render h) [] = .ok view ∧ Good view ∧
          ∀ a, Span.look mapped view a = firstVisit (v :: vs) a := by
      rintro ⟨view, g1, g2, g3⟩
      refine ⟨view, ?_, g2, fun a => ?_⟩
      · rw [foldlM_cons, h1]
        exact g1
      · rw [g3 a, hhead a, firstVisit_cons]
    have hfold : (v :: vs).foldlM (Visit.render h) [] = vs.foldlM (Visit.render h) view₁ := by
      rw [foldlM_cons, h1]
      rfl
    unfold CoversTwice
    by_cases hzero : v.clip.size = 0
    · have hnil : view₁ = [] := by
        rw [h3]
        unfold Span.fill addrrangeEnd
        rw [if_neg (by omega)]
      rw [if_pos hzero]
      refine ⟨fun hn => hcons ?_, fun ht => ?_⟩
      · obtain ⟨view, g1, g2, g3⟩ := (ih hvs).1 hn
        rw [hnil]
        exact ⟨view, g1, g2, fun a => (g3 a).trans (Option.none_or).symm⟩
      · rw [hfold, hnil]
        exact (ih hvs).2 ht
    · have hsize := hv.size_nonneg
      have hone : view₁ = [piece (v.range h) v.origin v.clip.start (addrrangeEnd v.clip)] := by
        rw [h3]
        exact if_pos (show v.clip.start < v.clip.start + v.clip.size by omega)
      have haddr : (piece (v.range h) v.origin v.clip.start (addrrangeEnd v.clip)).addr = v.clip := by
        show AddrRange.mk v.clip.start (v.clip.start + v.clip.size - v.clip.start) = v.clip
        rw [show v.clip.start + v.clip.size - v.clip.start = v.clip.size by omega]
      rw [if_neg hzero]
      by_cases hwhole : v.clip = wholeSpace
      · have hfull : Full view₁ := ⟨_, hone, haddr.trans hwhole⟩
        refine ⟨fun hn => hcons (render_run hvs (fun view w hw hview hf =>
          ⟨fun hc => hn ⟨hwhole, w, hw, hc.1⟩, hf.fill (hvs w hw)⟩) view₁ h2 hfull), fun ht => ?_⟩
        rw [hfold]
        exact full_fails hvs h2 hfull ht.2
      · have hsplit : Split view₁ := by
          rw [hone]
          refine ⟨cons_ne_nil _ _, fun r hr => ?_⟩
          rw [List.mem_singleton.mp hr, haddr]
          exact hwhole
        exact ⟨fun _ => hcons (render_run hvs (fun view w hw hview hs =>
          ⟨fun hc => hc.2.elim fun r hr => hs.2 r hr.1 hr.2, hs.fill hview (hvs w hw)⟩) view₁ h2
            hsplit), fun ht => absurd ht.1 hwhole⟩

/-! ## the walk -/

/-- `rank` falls along subregions and aliases -/
def Acyclic (h : Heap) (rank : RegionId → Nat) : Prop :=
  ∀ mr, (∀ s ∈ (h mr).subregions, rank s < rank mr) ∧ ∀ t, (h mr).aliasOf = some t → rank t < rank mr

/-- the terminating regions in the order in which they are reached -/
def visits (h : Heap) : Nat → RegionId → Int → AddrRange → Bool → List Visit
  | 0, _, _, _, _ => []
  | fuel + 1, mr, base, clip, readonly =>
    if !(h mr).enabled then []
    else
      let base := base + int128Make64 (h mr).addr
      let readonly := readonly || (h mr).readonly
      let tmp : AddrRange := { start := base, size := (h mr).size }
      if ¬ addrrangeIntersects tmp clip then []
      else
        let clip := addrrangeIntersection tmp clip
        match (h mr).aliasOf with
        | some target =>
          visits h fuel target (base - int128Make64 (h target).addr - int128Make64 (h mr).aliasOffset)
            clip readonly
        | none =>
          (h mr).subregions.flatMap (fun subregion => visits h fuel subregion base clip readonly) ++
            if (h mr).terminates then [{ mr := mr, origin := base, clip := clip, readonly := readonly }]
            else []

/-- the reference: descend through enabled regions that contain `a` to the first terminating one -/
def lookup (h : Heap) : Nat → RegionId → Int → Int → Bool → Option (RegionId × Hwaddr × Bool)
  | 0, _, _, _, _ => none
  | fuel + 1, mr, base, a, readonly =>
    if !(h mr).enabled then none
    else
      let base := base + int128Make64 (h mr).addr
      let readonly := readonly || (h mr).readonly
      if ¬ (base ≤ a ∧ a < base + (h mr).size) then none
      else
        match (h mr).aliasOf with
        | some target =>
          lookup h fuel target (base - int128Make64 (h target).addr - int128Make64 (h mr).aliasOffset)
            a readonly
        | none =>
          ((h mr).subregions.findSome? fun subregion => lookup h fuel subregion base a readonly).or
            (if (h mr).terminates then some (mr, BitVec.ofInt 64 (a - base), readonly) else none)

variable {rank : RegionId → Nat}

lemma foldlM_flatMap (subregions : List RegionId) {f : FlatView → RegionId → Except Fault FlatView}
    {g : RegionId → List Visit}
    (hfg : ∀ s ∈ subregions, ∀ view, f view s = (g s).foldlM (Visit.render h) view) :
    ∀ view, subregions.foldlM f view = (subregions.flatMap g).foldlM (Visit.render h) view := by
  induction subregions with
  | nil =>
    intro view
    rfl
  | cons s subregions ih =>
    intro view
    obtain ⟨hs, hrest⟩ := List.forall_mem_cons.mp hfg
    rw [foldlM_cons, flatMap_cons, foldlM_append, hs view]
    congr 1
    funext view'
    exact ih hrest view'

lemma render_visits (hacyclic : Acyclic h rank) (fuel : Nat) :
    ∀ (view : FlatView) (mr : RegionId) (base : Int) (clip : AddrRange) (readonly : Bool),
      rank mr < fuel → renderMemoryRegion h fuel view mr base clip readonly =
        (visits h fuel mr base clip readonly).foldlM (Visit.render h) view := by
  induction fuel with
  | zero =>
    intro view mr base clip readonly hr
    omega
  | succ fuel ih =>
    intro view mr base clip readonly hr
    obtain ⟨hsub, halias⟩ := hacyclic mr
    unfold renderMemoryRegion visits
    split
    next => rfl
    next =>
      dsimp only
      split
      next => rfl
      next =>
        cases hal : (h mr).aliasOf with
        | some target =>
          have := halias target hal
          exact ih _ _ _ _ _ (by omega)
        | none =>
          dsimp only
          rw [foldlM_append, foldlM_flatMap (h := h) (h mr).subregions
            (fun s hs view => ih view s _ _ _ (by have := hsub s hs; omega))]
          congr 1
          funext view'
          cases (h mr).terminates with
          | false => rfl
          | true =>
            show renderInto h view' mr _ _ _ = Except.bind (renderInto h view' mr _ _ _) _
            generalize renderInto h view' mr _ _ _ = r
            cases r <;> rfl

lemma clip_bounds {tmp clip : AddrRange} (hi : addrrangeIntersects tmp clip)
    (htmp : 0 ≤ tmp.size) (hclip : 0 ≤ clip.size) :
    0 ≤ (addrrangeIntersection tmp clip).size ∧ clip.start ≤ (addrrangeIntersection tmp clip).start ∧
      addrrangeEnd (addrrangeIntersection tmp clip) ≤ addrrangeEnd clip ∧
      tmp.start ≤ (addrrangeIntersection tmp clip).start ∧
      ((addrrangeIntersection tmp clip).start = tmp.start ∨
        (addrrangeIntersection tmp clip).start < addrrangeEnd tmp) := by
  unfold addrrangeIntersects addrrangeContains at hi
  unfold addrrangeIntersection
  unfold addrrangeEnd at *
  dsimp only
  omega

lemma contains_intersection (tmp clip : AddrRange) (a : Int) :
    addrrangeContains (addrrangeIntersection tmp clip) a ↔
      addrrangeContains tmp a ∧ addrrangeContains clip a := by
  unfold addrrangeContains addrrangeIntersection
  unfold addrrangeEnd
  dsimp only
  omega

lemma intersects_of_contains {tmp clip : AddrRange} (h1 : addrrangeContains tmp a)
    (h2 : addrrangeContains clip a) : addrrangeIntersects tmp clip := by
  unfold addrrangeIntersects
  unfold addrrangeContains addrrangeEnd at *
  omega

section
variable {fuel : Nat} {mr : RegionId} {base : Int} {clip : AddrRange} {readonly : Bool}

lemma visits_inv (hv : v ∈ visits h (fuel + 1) mr base clip readonly) :
    let tmp : AddrRange := { start := base + int128Make64 (h mr).addr, size := (h mr).size }
    addrrangeIntersects tmp clip ∧
      ((∃ mr' base' readonly',
          v ∈ visits h fuel mr' base' (addrrangeIntersection tmp clip) readonly') ∨
        ∃ readonly', v = ⟨mr, tmp.start, addrrangeIntersection tmp clip, readonly'⟩) := by
  unfold visits at hv
  split at hv
  · cases hv
  dsimp only at hv
  split at hv
  · cases hv
  next hmeet =>
    refine ⟨Decidable.not_not.mp hmeet, ?_⟩
    cases hal : (h mr).aliasOf with
    | some target =>
      rw [hal] at hv
      exact .inl ⟨_, _, _, hv⟩
    | none =>
      rw [hal] at hv
      rcases List.mem_append.mp hv with hv | hv
      · obtain ⟨s, -, hv⟩ := List.mem_flatMap.mp hv
        exact .inl ⟨_, _, _, hv⟩
      split at hv
      · exact .inr ⟨_, List.mem_singleton.mp hv⟩
      · cases hv

lemma visits_inside (h0 : 0 ≤ clip.start) (hsize : 0 ≤ clip.size)
    (hend : addrrangeEnd clip ≤ int128_2_64) (hv : v ∈ visits h fuel mr base clip readonly) :
    v.Inside := by
  induction fuel generalizing mr base clip readonly with
  | zero => cases hv
  | succ fuel ih =>
    obtain ⟨hmeet, hv⟩ := visits_inv hv
    obtain ⟨c1, c2, c3, c4, c5⟩ := clip_bounds hmeet (h mr).size_nonneg hsize
    rcases hv with ⟨mr', base', readonly', hv⟩ | ⟨readonly', rfl⟩
    · exact ih (by omega) c1 (by omega) hv
    · have hs := (h mr).size_le
      have hpos : 0 < int128_2_64 := by decide
      unfold addrrangeEnd at c5
      dsimp only at c4 c5
      exact ⟨by dsimp only; omega, c1, by dsimp only; omega, c4, by dsimp only; omega⟩

lemma visits_clip {a : Int} (hv : v ∈ visits h fuel mr base clip readonly)
    (ha : addrrangeContains v.clip a) :
    addrrangeContains clip a ∧ base + int128Make64 (h mr).addr ≤ a ∧
      a < base + int128Make64 (h mr).addr + (h mr).size := by
  induction fuel generalizing mr base clip readonly with
  | zero => cases hv
  | succ fuel ih =>
    obtain ⟨-, hv⟩ := visits_inv hv
    have hin : addrrangeContains (addrrangeIntersection
        { start := base + int128Make64 (h mr).addr, size := (h mr).size } clip) a := by
      rcases hv with ⟨mr', base', readonly', hv⟩ | ⟨readonly', rfl⟩
      · exact (ih hv).1
      · exact ha
    obtain ⟨hin, hclip⟩ := (contains_intersection _ _ a).mp hin
    exact ⟨hclip, hin.1, hin.2⟩
end

lemma firstVisit_none (hn : ∀ v ∈ vs, ¬ addrrangeContains v.clip a) : firstVisit vs a = none := by
  unfold firstVisit
  rw [List.find?_eq_none.mpr (fun v hv => by rw [decide_eq_true_iff]; exact hn v hv)]
  rfl

lemma firstVisit_append (vs ws : List Visit) (a : Int) :
    firstVisit (vs ++ ws) a = (firstVisit vs a).or (firstVisit ws a) := by
  unfold firstVisit
  rw [List.find?_append]
  cases vs.find? _ <;> rfl

lemma firstVisit_flatMap (xs : List RegionId) (f : RegionId → List Visit) (a : Int) :
    firstVisit (xs.flatMap f) a = xs.findSome? fun x => firstVisit (f x) a := by
  induction xs with
  | nil => rfl
  | cons x xs ih =>
    rw [flatMap_cons, firstVisit_append, ih, List.findSome?_cons]
    cases firstVisit (f x) a <;> rfl

/-- **the first visit that covers an address is the region that the lookup finds** -/
theorem find_visit (fuel : Nat) : ∀ (mr : RegionId) (base : Int) (clip : AddrRange) (readonly : Bool)
    (a : Int), addrrangeContains clip a →
      firstVisit (visits h fuel mr base clip readonly) a = lookup h fuel mr base a readonly := by
  induction fuel with
  | zero =>
    intro mr base clip readonly a _
    rfl
  | succ fuel ih =>
    intro mr base clip readonly a ha
    unfold lookup
    by_cases hen : (!(h mr).enabled) = true
    · rw [if_pos hen]
      unfold visits
      rw [if_pos hen]
      rfl
    rw [if_neg hen]
    by_cases hin : base + int128Make64 (h mr).addr ≤ a ∧
        a < base + int128Make64 (h mr).addr + (h mr).size
    · have hmeet : addrrangeIntersects
          { start := base + int128Make64 (h mr).addr, size := (h mr).size } clip :=
        intersects_of_contains hin ha
      have hclip := (contains_intersection
        { start := base + int128Make64 (h mr).addr, size := (h mr).size } clip a).mpr ⟨hin, ha⟩
      rw [if_neg (not_not_intro hin)]
      unfold visits
      rw [if_neg hen]
      rw [if_neg (not_not_intro hmeet)]
      cases hal : (h mr).aliasOf with
      | some target => exact ih _ _ _ _ a hclip
      | none =>
        rw [firstVisit_append, firstVisit_flatMap]
        congr 1
        · congr 1
          funext s
          exact ih _ _ _ _ a hclip
        · cases (h mr).terminates with
          | false => rfl
          | true =>
            rw [if_pos rfl, firstVisit_cons, if_pos hclip]
            rfl
    · rw [if_pos hin]
      exact firstVisit_none fun v hv hc => hin (visits_clip hv hc).2

/-! ## the view -/

lemma canMerge_spec (r r' : FlatRange) (hc : canMerge r r' = true) :
    Span.hi r = Span.lo r' ∧ ∀ a, mapped r' a = mapped r a := by
  unfold canMerge at hc
  simp only [Bool.and_eq_true, beq_iff_eq] at hc
  obtain ⟨⟨⟨⟨⟨h1, h2⟩, h3⟩, -⟩, -⟩, h4⟩ := hc
  refine ⟨h1, fun a => ?_⟩
  have hoff : r'.offsetInRegion = r.offsetInRegion + BitVec.ofInt 64 r.addr.size := by
    have e1 : BitVec.ofInt 64 (int128Make64 r.offsetInRegion) = r.offsetInRegion := by
      unfold int128Make64
      rw [BitVec.ofInt_natCast, BitVec.ofNat_toNat, BitVec.setWidth_eq]
    have e2 : BitVec.ofInt 64 (int128Make64 r'.offsetInRegion) = r'.offsetInRegion := by
      unfold int128Make64
      rw [BitVec.ofInt_natCast, BitVec.ofNat_toNat, BitVec.setWidth_eq]
    rw [← e2, ← h3, BitVec.ofInt_add, e1]
  unfold mapped
  rw [hoff, BitVec.add_assoc, ← BitVec.ofInt_add, ← h1, h2, h4]
  unfold addrrangeEnd
  congr 4
  omega

lemma extend_spec (r r' : FlatRange) : Span.lo (extend r r') = Span.lo r ∧
    Span.hi (extend r r') = Span.hi r + (Span.hi r' - Span.lo r') ∧
      ∀ a, mapped (extend r r') a = mapped r a := by
  refine ⟨rfl, ?_, fun a => rfl⟩
  show r.addr.start + (r.addr.size + r'.addr.size) =
    r.addr.start + r.addr.size + (r'.addr.start + r'.addr.size - r'.addr.start)
  omega

lemma simplify_spec (hview : Span.Ordered view) :
    Span.Ordered (flatviewSimplify view) ∧
      ∀ a, Span.look mapped (flatviewSimplify view) a = Span.look mapped view a := by
  have hm := Span.merge_spec canMerge_spec extend_spec view.length view (Nat.le_refl _) hview
  exact ⟨hm.1, hm.2.1⟩

lemma Good.simplify (h : Good view) : Good (flatviewSimplify view) := by
  obtain ⟨hord, hlook⟩ := simplify_spec h.ordered
  refine ⟨hord, fun r hr => ?_⟩
  -- an address of the merged range is in a range of the unmerged view
  have hin : ∀ a, Span.Mem r a → 0 ≤ a ∧ a < int128_2_64 := by
    intro a ha
    have hsome : (Span.look mapped (flatviewSimplify view) a).isSome = true :=
      Span.look_isSome.mpr ⟨r, hr, ha⟩
    rw [hlook] at hsome
    obtain ⟨r', hr', hlo, hhi⟩ := Span.look_isSome.mp hsome
    obtain ⟨hb0, hb1⟩ := h.bounds r' hr'
    exact ⟨Int.le_trans hb0 hlo, Int.lt_of_lt_of_le hhi hb1⟩
  have hlt : r.addr.start < addrrangeEnd r.addr := hord.nonempty r hr
  have h1 := hin r.addr.start ⟨Int.le_refl _, hlt⟩
  have h2 := hin (addrrangeEnd r.addr - 1) ⟨show r.addr.start ≤ _ by omega,
    show _ < addrrangeEnd r.addr by omega⟩
  exact ⟨h1.1, by omega⟩

/-- the ranges are not empty, sorted and disjoint, and map every address as the lookup does -/
def RightView (h : Heap) (fuel : Nat) (mr : RegionId) (view : FlatView) : Prop :=
  Span.Ordered view ∧ ∀ a, 0 ≤ a → a < int128_2_64 →
    Span.look mapped view a = lookup h fuel mr 0 a false

lemma render_spec (hacyclic : Acyclic h rank) {mr : RegionId} {fuel : Nat}
    (hfuel : rank mr < fuel) :
    (¬ CoversTwice (visits h fuel mr 0 wholeSpace false) →
      ∃ view, renderMemoryRegion h fuel [] mr 0 wholeSpace false = .ok view ∧ Good view ∧
        ∀ a, Span.look mapped view a = firstVisit (visits h fuel mr 0 wholeSpace false) a) ∧
    (CoversTwice (visits h fuel mr 0 wholeSpace false) →
      renderMemoryRegion h fuel [] mr 0 wholeSpace false = .error .assertion) := by
  rw [render_visits hacyclic fuel [] mr 0 wholeSpace false hfuel]
  exact render_from_empty
    (fun v hv => visits_inside (by decide) (by decide) (by decide) hv)

lemma topology_good (hacyclic : Acyclic h rank) {mr : RegionId} {fuel : Nat}
    (hfuel : rank mr < fuel) (hview : generateMemoryTopology h fuel (some mr) = .ok view) :
    Good view ∧ RightView h fuel mr view := by
  obtain ⟨hok, herr⟩ := render_spec hacyclic hfuel
  unfold generateMemoryTopology at hview
  by_cases ht : CoversTwice (visits h fuel mr 0 wholeSpace false)
  · simp only [herr ht] at hview
    cases hview
  · obtain ⟨raw, h1, h2, h3⟩ := hok ht
    simp only [h1] at hview
    cases hview
    obtain ⟨g1, g2⟩ := simplify_spec h2.ordered
    refine ⟨h2.simplify, g1, fun a ha0 ha1 => ?_⟩
    rw [g2 a, h3 a]
    exact find_visit fuel mr 0 wholeSpace false a ⟨ha0, show a < 0 + int128_2_64 by omega⟩

/-- **the view is right, unless the address space is covered twice** -/
theorem topology_correct_iff (h : Heap) (rank : RegionId → Nat) (hacyclic : Acyclic h rank)
    (mr : RegionId) (fuel : Nat) (hfuel : rank mr < fuel) :
    (∃ view, generateMemoryTopology h fuel (some mr) = .ok view ∧ RightView h fuel mr view) ↔
      ¬ CoversTwice (visits h fuel mr 0 wholeSpace false) := by
  obtain ⟨hok, herr⟩ := render_spec hacyclic hfuel
  unfold generateMemoryTopology
  constructor
  · rintro ⟨view, hview, -⟩ ht
    simp only [herr ht] at hview
    cases hview
  intro hn
  obtain ⟨view, h1, h2, h3⟩ := hok hn
  obtain ⟨g1, g2⟩ := simplify_spec h2.ordered
  refine ⟨flatviewSimplify view, by simp only [h1]; rfl, g1, fun a ha0 ha1 => ?_⟩
  have ha : addrrangeContains wholeSpace a := ⟨ha0, show a < 0 + int128_2_64 by omega⟩
  rw [g2 a, h3 a, find_visit fuel mr 0 wholeSpace false a ha]

/-- a container with a region at 0x1000 and an alias of its second half at 0x2800 -/
def aliasHeap : Heap
  | 0 => { memoryRegionInit (BitVec.allOnes 64) with subregions := [1, 2] }
  | 1 => { memoryRegionInit 0x2000 with parent := some 0, addr := 0x1000, terminates := true }
  | 2 => { memoryRegionInit 0x1000 with parent := some 0, addr := 0x2800, readonly := true,
                                        aliasOf := some 1, aliasOffset := 0x1000 }
  | _ => memoryRegionInit 0

lemma aliasHeap_acyclic : Acyclic aliasHeap fun | 0 => 2 | 2 => 1 | _ => 0
  | 0 => ⟨by decide, fun _ h => nomatch h⟩
  | 1 => ⟨by decide, fun _ h => nomatch h⟩
  | 2 => ⟨by decide, fun _ h => by cases h; decide⟩
  | _ + 3 => ⟨fun _ h => (nomatch h), fun _ h => nomatch h⟩

theorem topology_correct_alias :
    ∃ view, generateMemoryTopology aliasHeap 3 (some 0) = .ok view ∧ RightView aliasHeap 3 0 view := by
  exact (topology_correct_iff aliasHeap _ aliasHeap_acyclic 0 3 (by decide)).mpr (by decide +kernel)

/-- two terminating regions of 2^64 bytes in one container -/
def fullHeap : Heap
  | 0 => { memoryRegionInit (BitVec.allOnes 64) with subregions := [1, 2] }
  | 1 => { memoryRegionInit (BitVec.allOnes 64) with parent := some 0, terminates := true }
  | 2 => { memoryRegionInit (BitVec.allOnes 64) with parent := some 0, terminates := true }
  | _ => memoryRegionInit 0

/-- the second region is rendered over the first one, which is the whole address space -/
theorem full_regions_abort : generateMemoryTopology fullHeap 2 (some 0) = .error .assertion ∧
    lookup fullHeap 2 0 0 0 false = some (1, 0, false) := by decide +kernel

/-- **every number that is made a 64-bit one fits, unless the address space is covered twice** -/
theorem render_converts_iff (h : Heap) (rank : RegionId → Nat) (hacyclic : Acyclic h rank)
    (mr : RegionId) (fuel : Nat) (hfuel : rank mr < fuel) :
    (∃ view, renderMemoryRegion h fuel [] mr 0 wholeSpace false = .ok view) ↔
      ¬ CoversTwice (visits h fuel mr 0 wholeSpace false) := by
  obtain ⟨hok, herr⟩ := render_spec hacyclic hfuel
  constructor
  · rintro ⟨view, hview⟩ ht
    rw [herr ht] at hview
    cases hview
  · intro hn
    obtain ⟨view, h1, -⟩ := hok hn
    exact ⟨view, h1⟩

theorem render_converts_alias :
    ∃ view, renderMemoryRegion aliasHeap 3 [] 0 0 wholeSpace false = .ok view :=
  (render_converts_iff aliasHeap _ aliasHeap_acyclic 0 3 (by decide)).mpr (by decide +kernel)

/-- a region of 2^64 bytes inside another one; both terminate -/
def nestedHeap : Heap
  | 0 => { memoryRegionInit (BitVec.allOnes 64) with subregions := [1], terminates := true }
  | 1 => { memoryRegionInit (BitVec.allOnes 64) with parent := some 0, terminates := true }
  | _ => memoryRegionInit 0

/-- the step over the inner region is 2^64 -/
theorem nested_regions_abort :
    renderMemoryRegion nestedHeap 2 [] 0 0 wholeSpace false = .error .assertion := by
  decide +kernel

end Memory
