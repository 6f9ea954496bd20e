import Mathlib
import TraceSyscallObj.Lib.Checked
import TraceSyscallObj.Memory.Topology

/-!
# References of a view

A view holds a reference to the owner of the region of each of its ranges: `flatview_insert` takes
it and `flatview_destroy` gives it back.  `flatview_simplify` drops ranges in between.

* `generateMemoryTopologyRef`: a new view with the references it takes;
* `insertRefs_eq`: the counts are those of what the view holds;
* `Tagged`: every range of the rendered view is a whole run of one visit;
* `OwnedSeam`: two visits of one owned region that continue each other;
* `destroy_restores_iff`: the counts are restored unless there is such a seam.
-/

namespace Memory
open Function List
variable {vs : List Visit} {v : Visit}

abbrev ObjId := Nat

/-- `obj->ref` of every object -/
abbrev Refs := ObjId → Nat

structure CountedView where
  view : FlatView
  refs : Refs

section
variable (owner : RegionId → Option ObjId)

def memoryRegionRef (mr : RegionId) (refs : Refs) : Refs :=
  match owner mr with
  | some obj => update refs obj (refs obj + 1)
  | none => refs

/-- an object whose last reference is given back is finalized, which no count shows -/
def memoryRegionUnref (mr : RegionId) (refs : Refs) : Except Fault Refs :=
  match owner mr with
  | some obj =>
    if refs obj > 0 then .ok (update refs obj (refs obj - 1)) else .error .assertion
  | none => .ok refs

def insertRefs (view : FlatView) (refs : Refs) : Refs :=
  view.foldr (fun fr refs => memoryRegionRef owner fr.mr refs) refs

def flatviewDestroy (view : FlatView) (refs : Refs) : Except Fault Refs :=
  view.foldlM (fun refs fr => memoryRegionUnref owner fr.mr refs) refs

/-- rendering only inserts ranges, each with a reference; `flatview_simplify` does not touch the
counts -/
def generateMemoryTopologyRef (h : Heap) (fuel : Nat) (mr : Option RegionId) (refs : Refs) :
    Except Fault CountedView := do
  let view ← match mr with
    | some mr => renderMemoryRegion h fuel [] mr 0 wholeSpace false
    | none => pure []
  return { view := flatviewSimplify view, refs := insertRefs owner view refs }

/-! ## what a view holds -/

def held (view : FlatView) (obj : ObjId) : Nat :=
  view.countP fun r => decide (owner r.mr = some obj)

def counted (base : Refs) (view : FlatView) : CountedView :=
  { view := view, refs := fun obj => base obj + held owner view obj }

variable {owner} {base : Refs}

lemma ref_held (r : FlatRange) (view : FlatView) :
    memoryRegionRef owner r.mr (counted owner base view).refs =
      (counted owner base (r :: view)).refs := by
  funext obj
  unfold memoryRegionRef counted held
  simp only [countP_cons]
  cases ho : owner r.mr with
  | none => simp
  | some o =>
    by_cases heq : obj = o
    · subst heq
      simp [Nat.add_assoc]
    · simp [update_of_ne heq, Ne.symm heq]

lemma insertRefs_eq (view : FlatView) :
    insertRefs owner view base = (counted owner base view).refs := by
  induction view with
  | nil => rfl
  | cons r view ih =>
    unfold insertRefs at ih ⊢
    rw [foldr_cons, ih, ref_held]

lemma destroy_counted (view : FlatView) :
    flatviewDestroy owner view (counted owner base view).refs = .ok base := by
  unfold flatviewDestroy
  induction view with
  | nil => rfl
  | cons r view ih =>
    rw [foldlM_cons, ← ref_held]
    have hunref : memoryRegionUnref owner r.mr
        (memoryRegionRef owner r.mr (counted owner base view).refs) =
          .ok (counted owner base view).refs := by
      unfold memoryRegionUnref memoryRegionRef
      cases owner r.mr with
      | none => rfl
      | some o => simp
    rw [hunref]
    exact ih

end

/-! ## the ranges of the rendered view -/

/-- which visit an address belongs to -/
def firstIdx (vs : List Visit) (a : Int) : Option Nat :=
  vs.findIdx? fun v => decide (addrrangeContains v.clip a)

lemma firstIdx_append (vs : List Visit) (v : Visit) (a : Int) : firstIdx (vs ++ [v]) a =
    (firstIdx vs a).or (if addrrangeContains v.clip a then some vs.length else none) := by
  unfold firstIdx
  by_cases hv : addrrangeContains v.clip a
  · simp [hv]
  · simp [hv]

variable {a : Int} {k : Nat}

lemma firstIdx_spec (h : firstIdx vs a = some k) :
    ∃ v, vs[k]? = some v ∧ addrrangeContains v.clip a := by
  obtain ⟨hk, hv, -⟩ := List.findIdx?_eq_some_iff_getElem.mp h
  exact ⟨vs[k], List.getElem?_eq_getElem hk, of_decide_eq_true hv⟩

lemma firstIdx_lt (h : firstIdx vs a = some k) : k < vs.length := by
  obtain ⟨v, hv, -⟩ := firstIdx_spec h
  exact (List.getElem?_eq_some_iff.mp hv).1

/-- the range is a part of the visit `k`, and its addresses belong to that visit -/
structure RunOf (h : Heap) (vs : List Visit) (k : Nat) (v : Visit) (r : FlatRange) : Prop where
  visit : vs[k]? = some v
  range : r = piece (v.range h) v.origin r.addr.start (addrrangeEnd r.addr)
  first : ∀ a, Span.Mem r a → firstIdx vs a = some k

/-- every range is a run of addresses of one visit, and it is a whole one -/
structure Tagged (h : Heap) (vs : List Visit) (view : FlatView) : Prop where
  good : Good view
  run : ∀ r ∈ view, ∃ k v, RunOf h vs k v r
  covers : ∀ a k, firstIdx vs a = some k → ∃ r ∈ view, Span.Mem r a
  whole : ∀ r ∈ view, ∀ r' ∈ view, addrrangeEnd r.addr = r'.addr.start →
    ∀ k, firstIdx vs r.addr.start = some k → firstIdx vs r'.addr.start ≠ some k

lemma Tagged.nil (h : Heap) : Tagged h [] [] where
  good := ⟨.nil, fun r hr => absurd hr not_mem_nil⟩
  run r hr := absurd hr not_mem_nil
  covers a k hk := by cases hk
  whole r hr := absurd hr not_mem_nil

variable {r : FlatRange}

section
variable {h : Heap} {view : FlatView}

section
variable (ht : Tagged h vs view)
include ht

lemma Tagged.old (hr : r ∈ view) (ha : Span.Mem r a) : ∃ k, firstIdx vs a = some k := by
  obtain ⟨k, w, hw⟩ := ht.run r hr
  exact ⟨k, hw.first a ha⟩

lemma Tagged.fill_cases
    (hr : r ∈ Span.fill (piece (v.range h) v.origin) view v.clip.start (addrrangeEnd v.clip)) :
    r ∈ view ∨ ((∀ a, Span.Mem r a → firstIdx vs a = none ∧ addrrangeContains v.clip a) ∧
      r = piece (v.range h) v.origin r.addr.start (addrrangeEnd r.addr) ∧
      (addrrangeEnd r.addr = addrrangeEnd v.clip ∨
        ∃ s ∈ view, s.addr.start = addrrangeEnd r.addr)) := by
  have hmake := piece_bounds (v.range h) v.origin
  by_cases hold : r ∈ view
  · exact .inl hold
  right
  obtain ⟨b, t, hpiece, hb, hbt, htop⟩ := (Span.mem_fill hr).resolve_left hold
  obtain ⟨b', t', hpiece', hend⟩ := (Span.fill_end hr).resolve_left hold
  have hlo : r.addr.start = b := by rw [hpiece]; exact (hmake b t).1
  have hhi : addrrangeEnd r.addr = t := by rw [hpiece]; exact (hmake b t).2
  have hhi' : addrrangeEnd r.addr = t' := by rw [hpiece']; exact (hmake b' t').2
  refine ⟨fun a ha => ⟨?_, ?_⟩, by rw [hlo, hhi]; exact hpiece, by rw [hhi']; exact hend⟩
  · -- an address of an earlier visit is in an old range, which shares none with `r`
    cases hfirst : firstIdx vs a with
    | none => rfl
    | some k =>
      obtain ⟨s, hs, hsa⟩ := ht.covers a k hfirst
      have hfill : Span.Ordered (Span.fill (piece (v.range h) v.origin) view v.clip.start
          (addrrangeEnd v.clip)) := Span.ordered_fill hmake ht.good.ordered
      have heq := hfill.eq_of_mem (Span.mem_fill_of_mem _ _ hs) hr hsa ha
      exact absurd (heq ▸ hs) hold
  · have h1 : r.addr.start ≤ a := ha.1
    have h2 : a < addrrangeEnd r.addr := ha.2
    exact ⟨by omega, by omega⟩

/-- **one more visit** -/
theorem Tagged.fill (hv : v.Inside) : Tagged h (vs ++ [v])
    (Span.fill (piece (v.range h) v.origin) view v.clip.start (addrrangeEnd v.clip)) := by
  have hmake := piece_bounds (v.range h) v.origin
  have hgood := ht.good.fill h hv
  have hnew : ∀ {a}, firstIdx vs a = none → addrrangeContains v.clip a →
      firstIdx (vs ++ [v]) a = some vs.length := by
    intro a h1 h2
    rw [firstIdx_append, h1, if_pos h2]
    rfl
  have hkeep : ∀ {a k}, firstIdx vs a = some k → firstIdx (vs ++ [v]) a = some k := by
    intro a k h1
    rw [firstIdx_append, h1]
    rfl
  have hstart : ∀ r ∈ Span.fill (piece (v.range h) v.origin) view v.clip.start
      (addrrangeEnd v.clip), Span.Mem r r.addr.start := fun r hr =>
    ⟨Int.le_refl _, hgood.ordered.nonempty r hr⟩
  refine ⟨hgood, fun r hr => ?_, fun a k hk => ?_, fun r hr r' hr' htouch k hk hk' => ?_⟩
  · rcases ht.fill_cases hr with hold | ⟨hmem, hpiece, -⟩
    · obtain ⟨k, w, hw⟩ := ht.run r hold
      refine ⟨k, w, ?_, hw.range, fun a ha => hkeep (hw.first a ha)⟩
      rw [List.getElem?_append_left (List.getElem?_eq_some_iff.mp hw.visit).1]
      exact hw.visit
    · refine ⟨vs.length, v, List.getElem?_concat_length, hpiece, fun a ha => ?_⟩
      exact hnew (hmem a ha).1 (hmem a ha).2
  · have hsome : (Span.look mapped (Span.fill (piece (v.range h) v.origin) view v.clip.start
        (addrrangeEnd v.clip)) a).isSome = true := by
      rw [Span.look_fill hmake (mapped_piece h v) ht.good.ordered]
      rw [firstIdx_append] at hk
      cases hfirst : firstIdx vs a with
      | some k' =>
        have hlook : (Span.look mapped view a).isSome = true :=
          Span.look_isSome.mpr (ht.covers a k' hfirst)
        rw [Option.isSome_or, hlook]
        rfl
      | none =>
        rw [hfirst] at hk
        split at hk
        next hc =>
          rw [if_pos (show v.clip.start ≤ a ∧ a < addrrangeEnd v.clip from hc)]
          simp
        next => cases hk
    exact Span.look_isSome.mp hsome
  · -- two pieces of `v` do not touch: an old range begins where the first one ends
    have hlen : ∀ {r}, r ∈ view → ∀ {k}, firstIdx (vs ++ [v]) r.addr.start = some k →
        firstIdx vs r.addr.start = some k ∧ k < vs.length := by
      intro r hold k hk
      obtain ⟨k', hk'⟩ := ht.old hold ⟨Int.le_refl _, ht.good.ordered.nonempty r hold⟩
      have heq : some k = some k' := hk.symm.trans (hkeep hk')
      cases heq
      exact ⟨hk', firstIdx_lt hk'⟩
    rcases ht.fill_cases hr with hold | ⟨hmem, -, hend⟩
    · obtain ⟨h1, hlt⟩ := hlen hold hk
      rcases ht.fill_cases hr' with hold' | ⟨hmem', -, -⟩
      · exact ht.whole r hold r' hold' htouch k h1 (hlen hold' hk').1
      · have h2 := hmem' _ (hstart r' hr')
        rw [hnew h2.1 h2.2] at hk'
        cases hk'
        omega
    · have h1 := hmem _ (hstart r hr)
      rw [hnew h1.1 h1.2] at hk
      cases hk
      rcases ht.fill_cases hr' with hold' | ⟨hmem', -, -⟩
      · have := (hlen hold' hk').2
        omega
      have h2 := hmem' _ (hstart r' hr')
      rcases hend with hend | ⟨s, hs, hstop⟩
      · have h3 : r'.addr.start < addrrangeEnd v.clip := h2.2.2
        omega
      · obtain ⟨k', hk''⟩ := ht.old hs ⟨Int.le_refl _, ht.good.ordered.nonempty s hs⟩
        have h3 : Span.lo s = r'.addr.start := hstop.trans htouch
        rw [h3, h2.1] at hk''
        cases hk''

end

lemma tagged_of_render (hin : ∀ v ∈ vs, v.Inside)
    (hr : vs.foldlM (Visit.render h) [] = .ok view) : Tagged h vs view := by
  induction vs using List.reverseRecOn generalizing view with
  | nil =>
    cases hr
    exact .nil h
  | append_singleton vs v ih =>
    rw [foldlM_append] at hr
    obtain ⟨view₀, h0, hr⟩ := Checked.bind_ok_inv hr
    have ht := ih (fun w hw => hin w (mem_append_left _ hw)) h0
    have hv := hin v (mem_append_right _ (List.mem_singleton.mpr rfl))
    obtain ⟨view₁, h1, hr⟩ := Checked.bind_ok_inv hr
    cases hr
    by_cases hc : Collides view₀ v
    · rw [render_collides hv ht.good hc] at h1
      cases h1
    · rw [renderInto_fill hv ht.good hc] at h1
      cases h1
      exact ht.fill hv

end

/-! ## seams -/

lemma visits_end {h : Heap} {fuel : Nat} {mr : RegionId} {base : Int} {clip : AddrRange}
    {readonly : Bool} (hv : v ∈ visits h fuel mr base clip readonly) :
    addrrangeEnd v.clip ≤ v.origin + int128_2_64 := by
  induction fuel generalizing mr base clip readonly with
  | zero => cases hv
  | succ fuel ih =>
    obtain ⟨-, ⟨mr', base', readonly', hv⟩ | ⟨readonly', rfl⟩⟩ := visits_inv hv
    · exact ih hv
    · have hs := (h mr).size_le
      unfold addrrangeIntersection addrrangeEnd
      dsimp only
      omega

/-- the address before `b` and the address `b` belong to two visits of one region, at the same
place and both writable or both not -/
structure SeamAt (vs : List Visit) (b : Int) (i j : Nat) (v w : Visit) : Prop where
  before : firstIdx vs (b - 1) = some i
  behind : firstIdx vs b = some j
  other : i ≠ j
  left : vs[i]? = some v
  right : vs[j]? = some w
  mr : v.mr = w.mr
  origin : v.origin = w.origin
  readonly : v.readonly = w.readonly

/-- such a place in a region that has an owner -/
def OwnedSeam (owner : RegionId → Option ObjId) (vs : List Visit) : Prop :=
  ∃ b i j v w, SeamAt vs b i j v w ∧ (owner v.mr).isSome = true

section
variable {h : Heap} {view : FlatView}

lemma RunOf.offset (hr : RunOf h vs k v r) (hv : v.Inside)
    (hend : addrrangeEnd v.clip ≤ v.origin + int128_2_64)
    (hne : r.addr.start < addrrangeEnd r.addr) :
    int128Make64 r.offsetInRegion = r.addr.start - v.origin := by
  obtain ⟨w, hw, hclip⟩ := firstIdx_spec (hr.first r.addr.start ⟨Int.le_refl _, hne⟩)
  have heq : some w = some v := hw.symm.trans hr.visit
  cases heq
  have h1 := hclip.1
  have h2 := hclip.2
  have h3 := hv.origin_le
  have hoff : r.offsetInRegion = BitVec.ofInt 64 (r.addr.start - v.origin) :=
    congrArg FlatRange.offsetInRegion hr.range
  rw [hoff]
  exact make64_ofInt (by omega) (by omega)

lemma canMerge_iff {i j : Nat} {w : Visit} {r' : FlatRange} (hr : RunOf h vs i v r)
    (hr' : RunOf h vs j w r') (hv : v.Inside) (hw : w.Inside)
    (hvend : addrrangeEnd v.clip ≤ v.origin + int128_2_64)
    (hwend : addrrangeEnd w.clip ≤ w.origin + int128_2_64)
    (hne : r.addr.start < addrrangeEnd r.addr) (hne' : r'.addr.start < addrrangeEnd r'.addr) :
    canMerge r r' = true ↔ addrrangeEnd r.addr = r'.addr.start ∧ v.mr = w.mr ∧
      v.origin = w.origin ∧ v.readonly = w.readonly := by
  have ho := hr.offset hv hvend hne
  have ho' := hr'.offset hw hwend hne'
  have hmr : r.mr = v.mr := congrArg FlatRange.mr hr.range
  have hmr' : r'.mr = w.mr := congrArg FlatRange.mr hr'.range
  have hro : r.readonly = v.readonly := congrArg FlatRange.readonly hr.range
  have hro' : r'.readonly = w.readonly := congrArg FlatRange.readonly hr'.range
  have hmask : r.dirtyLogMask = (h v.mr).dirtyLogMask := congrArg FlatRange.dirtyLogMask hr.range
  have hmask' : r'.dirtyLogMask = (h w.mr).dirtyLogMask :=
    congrArg FlatRange.dirtyLogMask hr'.range
  have hromd : r.romdMode = (h v.mr).romdMode := congrArg FlatRange.romdMode hr.range
  have hromd' : r'.romdMode = (h w.mr).romdMode := congrArg FlatRange.romdMode hr'.range
  unfold canMerge
  simp only [Bool.and_eq_true, beq_iff_eq, hmr, hmr', hro, hro', hmask, hmask', hromd,
    hromd']
  unfold addrrangeEnd
  constructor
  · rintro ⟨⟨⟨⟨⟨h1, h2⟩, h3⟩, -⟩, -⟩, h4⟩
    exact ⟨h1, h2, by omega, h4⟩
  · rintro ⟨h1, h2, h3, h4⟩
    exact ⟨⟨⟨⟨⟨h1, h2⟩, by omega⟩, by rw [h2]⟩, by rw [h2]⟩, h4⟩

/-- **the ranges that are merged are those at the seams** -/
theorem Tagged.mergeable_iff (ht : Tagged h vs view) (hin : ∀ v ∈ vs, v.Inside)
    (hend : ∀ v ∈ vs, addrrangeEnd v.clip ≤ v.origin + int128_2_64)
    (owner : RegionId → Option ObjId) :
    (∃ r ∈ view, ∃ r' ∈ view, canMerge r r' = true ∧ (owner r'.mr).isSome = true) ↔
      OwnedSeam owner vs := by
  have hne : ∀ r ∈ view, r.addr.start < addrrangeEnd r.addr := ht.good.ordered.nonempty
  have hmem : ∀ {k v}, vs[k]? = some v → v ∈ vs := fun hk => mem_of_getElem? hk
  constructor
  · rintro ⟨r, hr, r', hr', hcan, hown⟩
    obtain ⟨i, v, hv⟩ := ht.run r hr
    obtain ⟨j, w, hw⟩ := ht.run r' hr'
    have hstart := hv.first r.addr.start ⟨Int.le_refl _, hne r hr⟩
    have hstart' := hw.first r'.addr.start ⟨Int.le_refl _, hne r' hr'⟩
    obtain ⟨htouch, hmr, horigin, hro⟩ := (canMerge_iff hv hw (hin v (hmem hv.visit))
      (hin w (hmem hw.visit)) (hend v (hmem hv.visit)) (hend w (hmem hw.visit)) (hne r hr)
      (hne r' hr')).mp hcan
    have hlast : Span.Mem r (r'.addr.start - 1) := by
      have := hne r hr
      exact ⟨show r.addr.start ≤ _ by omega, show _ < addrrangeEnd r.addr by omega⟩
    refine ⟨r'.addr.start, i, j, v, w, ⟨hv.first _ hlast, hstart', ?_, hv.visit, hw.visit, hmr,
      horigin, hro⟩, ?_⟩
    · rintro rfl
      exact ht.whole r hr r' hr' htouch i hstart hstart'
    · rw [hmr, ← show r'.mr = w.mr from congrArg FlatRange.mr hw.range]
      exact hown
  · rintro ⟨b, i, j, v, w, hs, hown⟩
    obtain ⟨r, hr, hrb⟩ := ht.covers _ _ hs.before
    obtain ⟨r', hr', hrb'⟩ := ht.covers _ _ hs.behind
    obtain ⟨i', v', hv⟩ := ht.run r hr
    obtain ⟨j', w', hw⟩ := ht.run r' hr'
    have hi : some i' = some i := (hv.first _ hrb).symm.trans hs.before
    have hj : some j' = some j := (hw.first _ hrb').symm.trans hs.behind
    cases hi
    cases hj
    have hv' : some v' = some v := hv.visit.symm.trans hs.left
    have hw' : some w' = some w := hw.visit.symm.trans hs.right
    cases hv'
    cases hw'
    -- `b` is not in `r` and the address before it is not in `r'`
    have hout : ¬ Span.Mem r b := fun hb =>
      hs.other (Option.some.inj ((hv.first b hb).symm.trans hs.behind))
    have hout' : ¬ Span.Mem r' (b - 1) := fun hb =>
      hs.other (Option.some.inj (hs.before.symm.trans (hw.first _ hb)))
    have htouch : addrrangeEnd r.addr = r'.addr.start := by
      change r.addr.start ≤ b - 1 ∧ b - 1 < addrrangeEnd r.addr at hrb
      change r'.addr.start ≤ b ∧ b < addrrangeEnd r'.addr at hrb'
      change ¬ (r.addr.start ≤ b ∧ b < addrrangeEnd r.addr) at hout
      change ¬ (r'.addr.start ≤ b - 1 ∧ b - 1 < addrrangeEnd r'.addr) at hout'
      omega
    refine ⟨r, hr, r', hr', ?_, ?_⟩
    · exact (canMerge_iff hv hw (hin v (hmem hv.visit)) (hin w (hmem hw.visit))
        (hend v (hmem hv.visit)) (hend w (hmem hw.visit)) (hne r hr) (hne r' hr')).mpr
          ⟨htouch, hs.mr, hs.origin, hs.readonly⟩
    · rw [show r'.mr = w.mr from congrArg FlatRange.mr hw.range, ← hs.mr]
      exact hown

end

/-! ## creating and destroying -/

section
variable (owner : RegionId → Option ObjId) (view : FlatView)

/-- the references to `obj` that merging loses -/
def lost (obj : ObjId) : Nat :=
  Span.seams canMerge (fun r => decide (owner r.mr = some obj)) view

lemma held_simplify (obj : ObjId) :
    held owner (flatviewSimplify view) obj + lost owner view obj = held owner view obj := by
  have hextend : ∀ r r' : FlatRange, decide (owner (extend r r').mr = some obj) =
      decide (owner r.mr = some obj) := fun r r' => rfl
  exact Span.countP_merge hextend view.length view (Nat.le_refl _)

variable {owner view}

lemma destroy_simplified (refs : Refs) :
    flatviewDestroy owner (flatviewSimplify view) (counted owner refs view).refs =
      .ok fun obj => refs obj + lost owner view obj := by
  have hrefs : (counted owner refs view).refs =
      (counted owner (fun obj => refs obj + lost owner view obj) (flatviewSimplify view)).refs := by
    funext obj
    have := held_simplify owner view obj
    show refs obj + held owner view obj =
      refs obj + lost owner view obj + held owner (flatviewSimplify view) obj
    omega
  rw [hrefs, destroy_counted]

lemma lost_iff (hview : Span.Ordered view) : (∃ obj, lost owner view obj ≠ 0) ↔
    ∃ r ∈ view, ∃ r' ∈ view, canMerge r r' = true ∧ (owner r'.mr).isSome = true := by
  have hcan : ∀ r r' : FlatRange, canMerge r r' = true → Span.hi r = Span.lo r' :=
    fun r r' hc => (canMerge_spec r r' hc).1
  constructor
  · rintro ⟨obj, hobj⟩
    obtain ⟨r, hr, r', hr', hc, hp⟩ := (Span.seams_ne_zero hcan hview).mp hobj
    exact ⟨r, hr, r', hr', hc, by rw [of_decide_eq_true hp]; rfl⟩
  · rintro ⟨r, hr, r', hr', hc, hown⟩
    obtain ⟨obj, hobj⟩ := Option.isSome_iff_exists.mp hown
    exact ⟨obj, (Span.seams_ne_zero hcan hview).mpr ⟨r, hr, r', hr', hc, decide_eq_true hobj⟩⟩

end

/-- **creating and destroying a view restores the counts unless there is a seam** -/
theorem destroy_restores_iff (owner : RegionId → Option ObjId) (h : Heap) (rank : RegionId → Nat)
    (hacyclic : Acyclic h rank) (mr : RegionId) (fuel : Nat) (hfuel : rank mr < fuel)
    (refs : Refs) :
    (∃ cv, generateMemoryTopologyRef owner h fuel (some mr) refs = .ok cv ∧
        flatviewDestroy owner cv.view cv.refs = .ok refs) ↔
      ¬ CoversTwice (visits h fuel mr 0 wholeSpace false) ∧
        ¬ OwnedSeam owner (visits h fuel mr 0 wholeSpace false) := by
  have hin : ∀ v ∈ visits h fuel mr 0 wholeSpace false, v.Inside :=
    fun v hv => visits_inside (by decide) (by decide) (by decide) hv
  have hend : ∀ v ∈ visits h fuel mr 0 wholeSpace false,
      addrrangeEnd v.clip ≤ v.origin + int128_2_64 :=
    fun v hv => visits_end hv
  obtain ⟨hok, herr⟩ := render_spec hacyclic hfuel
  unfold generateMemoryTopologyRef
  simp only [insertRefs_eq]
  by_cases hc : CoversTwice (visits h fuel mr 0 wholeSpace false)
  · rw [herr hc]
    constructor
    · rintro ⟨cv, hcv, -⟩
      cases hcv
    · exact fun hn => absurd hc hn.1
  · obtain ⟨view, hview, hgood, -⟩ := hok hc
    have ht : Tagged h (visits h fuel mr 0 wholeSpace false) view := by
      rw [render_visits hacyclic fuel [] mr 0 wholeSpace false hfuel] at hview
      exact tagged_of_render hin hview
    rw [← ht.mergeable_iff hin hend owner, ← lost_iff hgood.ordered, hview]
    constructor
    · rintro ⟨cv, hcv, hdestroy⟩
      cases hcv
      have heq := (destroy_simplified refs).symm.trans hdestroy
      refine ⟨hc, fun ⟨obj, hobj⟩ => hobj ?_⟩
      have hobj : refs obj + lost owner view obj = refs obj := congrFun (Except.ok.inj heq) obj
      omega
    · rintro ⟨-, hlost⟩
      refine ⟨_, rfl, (destroy_simplified refs).trans (congrArg Except.ok (funext fun obj => ?_))⟩
      have hzero : lost owner view obj = 0 := by
        by_contra hne
        exact hlost ⟨obj, hne⟩
      show refs obj + lost owner view obj = refs obj
      rw [hzero, Nat.add_zero]

lemma not_ownedSeam_of_nodup {owner : RegionId → Option ObjId}
    (hnodup : (vs.map fun v => (v.mr, v.origin)).Nodup) : ¬ OwnedSeam owner vs := by
  rintro ⟨b, i, j, v, w, hs, -⟩
  have hi : i < (vs.map fun v => (v.mr, v.origin)).length := by
    rw [length_map]
    exact (List.getElem?_eq_some_iff.mp hs.left).1
  refine hs.other ((List.getElem?_inj hi hnodup).mp ?_)
  rw [List.getElem?_map, List.getElem?_map, hs.left, hs.right]
  show some (v.mr, v.origin) = some (w.mr, w.origin)
  rw [hs.mr, hs.origin]

theorem destroy_restores_alias :
    ∃ cv, generateMemoryTopologyRef (fun _ => some 0) aliasHeap 3 (some 0) (fun _ => 1) = .ok cv ∧
      flatviewDestroy (fun _ => some 0) cv.view cv.refs = .ok (fun _ => 1) :=
  (destroy_restores_iff _ aliasHeap _ aliasHeap_acyclic 0 3 (by decide) _).mpr
    ⟨by decide +kernel, not_ownedSeam_of_nodup (by decide +kernel)⟩

/-- the two halves of the region 3, each shown by an alias, the second one right behind the first -/
def halvesHeap : Heap
  | 0 => { memoryRegionInit (BitVec.allOnes 64) with subregions := [1, 2] }
  | 1 => { memoryRegionInit 0x1000 with parent := some 0, aliasOf := some 3 }
  | 2 => { memoryRegionInit 0x1000 with parent := some 0, addr := 0x1000, aliasOf := some 3,
                                        aliasOffset := 0x1000 }
  | 3 => { memoryRegionInit 0x2000 with terminates := true }
  | _ => memoryRegionInit 0

/-- two references are taken and one is given back -/
theorem halves_leak :
    (do
      let cv ← generateMemoryTopologyRef (fun _ => some 0) halvesHeap 3 (some 0) fun _ => 1
      let refs ← flatviewDestroy (fun _ => some 0) cv.view cv.refs
      return (cv.view.length, refs 0)) = Except.ok (1, 2) := by
  decide +kernel

end Memory
