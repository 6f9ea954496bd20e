import TraceSyscallObj.Lib.Bsearch
import TraceSyscallObj.Memory.Mirror
import TraceSyscallObj.Memory.Refs

/-!
# Looking up an interval

`memory_region_find` goes up to the root of a region, takes a reference to the map of the address
space and looks for the first range of the map that meets the interval: a binary search for one
that does, and then back to the first one.

* `memoryRegionFind`: the model, with the reference count of every map;
* `firstMeeting_some`: the search finds the first range that meets the interval;
* `FirstPart`, `RightFind`: the answer that is asked for;
* `find_right_iff`: the answer and the count are right exactly if something in the interval is
  mapped.
-/

namespace Memory
open Function
variable {fr : FlatRange}

/-- the address spaces, `ref` of their maps and `ref` of the objects -/
structure MapState where
  spaces : List AddressSpace
  viewRef : SpaceId → BitVec 32
  refs : Refs

/-- `addr` and the region at the top of the tree -/
def rootOf (h : Heap) : Nat → RegionId → Hwaddr → Except Fault (RegionId × Hwaddr)
  | 0, _, _ => .error .fuel
  | fuel + 1, mr, addr =>
    match (h mr).parent with
    | none => .ok (mr, addr)
    | some parent => rootOf h fuel parent (addr + (h parent).addr)

/-- for a region without a parent; `abort()` if it is the root of no address space -/
def memoryRegionToAddressSpace (s : MapState) (mr : RegionId) : Except Fault AddressSpace :=
  match s.spaces.find? fun as => decide (as.root = some mr) with
  | some as => .ok as
  | none => .error .assertion

def flatviewRef (as : AddressSpace) (s : MapState) : MapState :=
  { s with viewRef := update s.viewRef as.id (s.viewRef as.id + 1) }

def flatviewUnref (owner : RegionId → Option ObjId) (as : AddressSpace) (s : MapState) :
    Except Fault MapState := do
  let ref := s.viewRef as.id
  let s := { s with viewRef := update s.viewRef as.id (ref - 1) }
  if ref = 1 then
    let refs ← flatviewDestroy owner as.currentMap s.refs
    return { s with refs := refs }
  else return s

def cmpFlatrangeAddr (addr : AddrRange) (fr : FlatRange) : Int :=
  if addrrangeEnd addr ≤ fr.addr.start then -1
  else if addr.start ≥ addrrangeEnd fr.addr then 1
  else 0

def flatviewLookup (view : FlatView) (addr : AddrRange) : Option Nat :=
  Bsearch.bsearch (cmpFlatrangeAddr addr) view view.length 0 view.length

/-- `while (fr > view->ranges && addrrange_intersects(fr[-1].addr, range)) --fr;` -/
def walkBack (view : FlatView) (range : AddrRange) : Nat → Nat
  | 0 => 0
  | i + 1 =>
    match view[i]? with
    | some fr => if addrrangeIntersects fr.addr range then walkBack view range i else i + 1
    | none => i + 1

/-- `flatview_lookup` and the walk back, which does not leave the array -/
def firstMeeting (view : FlatView) (range : AddrRange) : Option FlatRange :=
  (flatviewLookup view range).bind fun i => view[walkBack view range i]?

/-- the section for the part of the interval that lies in the range `fr` -/
def foundSection (as : SpaceId) (range : AddrRange) (fr : FlatRange) :
    Except Fault MemoryRegionSection := do
  let range := addrrangeIntersection range fr.addr
  let delta ← int128Get64 (range.start - fr.addr.start)
  let offset ← int128Get64 range.start
  return { mr := fr.mr, addressSpace := as, offsetWithinRegion := fr.offsetInRegion + delta,
           size := range.size, offsetWithinAddressSpace := offset, readonly := fr.readonly }

/-- the result is `none` for a section without a region -/
def memoryRegionFind (owner : RegionId → Option ObjId) (h : Heap) (fuel : Nat) (mr : RegionId)
    (addr size : Hwaddr) (s : MapState) :
    Except Fault (Option MemoryRegionSection × MapState) := do
  let (root, addr) ← rootOf h fuel mr (addr + (h mr).addr)
  let as ← memoryRegionToAddressSpace s root
  let range : AddrRange := { start := int128Make64 addr, size := int128Make64 size }
  let s := flatviewRef as s
  match firstMeeting as.currentMap range with
  | none => return (none, s)
  | some fr =>
    let ret ← foundSection as.id range fr
    let s := { s with refs := memoryRegionRef owner fr.mr s.refs }
    let s ← flatviewUnref owner as s
    return (some ret, s)

/-! ## the search -/

section
variable {view : FlatView} {range : AddrRange}

lemma cmp_descends (hview : Span.Ordered view) :
    view.Pairwise fun r r' => cmpFlatrangeAddr range r' ≤ cmpFlatrangeAddr range r := by
  refine hview.apart.imp_of_mem ?_
  intro r r' hr hr' hle
  have h1 : addrrangeEnd r.addr ≤ r'.addr.start := hle
  have h2 : r.addr.start < addrrangeEnd r.addr := hview.nonempty r hr
  have h3 : r'.addr.start < addrrangeEnd r'.addr := hview.nonempty r' hr'
  unfold cmpFlatrangeAddr
  split
  · split
    · exact le_refl _
    · omega
  split
  · split
    · omega
    · omega
  · split
    · omega
    · split
      · omega
      · exact le_refl _

lemma walkBack_spec (i : Nat) : ∀ fr, view[i]? = some fr → addrrangeIntersects fr.addr range →
    ∃ fr', view[walkBack view range i]? = some fr' ∧ addrrangeIntersects fr'.addr range ∧
      ∀ j fr'', walkBack view range i = j + 1 → view[j]? = some fr'' →
        ¬ addrrangeIntersects fr''.addr range := by
  induction i with
  | zero =>
    intro fr hfr hmeet
    exact ⟨fr, hfr, hmeet, fun j fr'' hj => by cases hj⟩
  | succ i ih =>
    intro fr hfr hmeet
    have hlt := (List.getElem?_eq_some_iff.mp hfr).1
    unfold walkBack
    rw [List.getElem?_eq_getElem (show i < view.length by omega)]
    dsimp only
    split
    next hprev => exact ih _ (List.getElem?_eq_getElem _) hprev
    next hprev =>
      refine ⟨fr, hfr, hmeet, fun j fr'' hj hfr'' => ?_⟩
      cases hj
      rw [List.getElem?_eq_getElem (show i < view.length by omega)] at hfr''
      cases hfr''
      exact hprev

lemma cmp_zero :
    cmpFlatrangeAddr range fr = 0 ↔
      fr.addr.start < addrrangeEnd range ∧ range.start < addrrangeEnd fr.addr := by
  unfold cmpFlatrangeAddr
  split
  · omega
  · split
    · omega
    · omega

lemma intersects_iff (hfr : fr.addr.start < addrrangeEnd fr.addr)
    (hrange : range.start < addrrangeEnd range) : addrrangeIntersects fr.addr range ↔
      fr.addr.start < addrrangeEnd range ∧ range.start < addrrangeEnd fr.addr := by
  unfold addrrangeIntersects addrrangeContains
  omega

/-- **the search finds the first range that meets the interval** -/
theorem firstMeeting_some (hview : Span.Ordered view) (hrange : range.start < addrrangeEnd range)
    {r : FlatRange} (hr : r ∈ view) (hmeet : addrrangeIntersects r.addr range) :
    ∃ fr ∈ view, firstMeeting view range = some fr ∧ addrrangeIntersects fr.addr range ∧
      ∀ r' ∈ view, addrrangeIntersects r'.addr range → fr.addr.start ≤ r'.addr.start := by
  have hne : ∀ r ∈ view, r.addr.start < addrrangeEnd r.addr := hview.nonempty
  obtain ⟨k, hk, hkr⟩ := List.mem_iff_getElem.mp hr
  have hzero : cmpFlatrangeAddr range r = 0 :=
    cmp_zero.mpr ((intersects_iff (hne r hr) hrange).mp hmeet)
  obtain ⟨i, hi⟩ := Bsearch.bsearch_complete (cmp_descends hview) view.length (Nat.le_refl _)
    (Nat.sub_le _ _) (Nat.zero_le k) hk (List.getElem?_eq_some_iff.mpr ⟨hk, hkr⟩) hzero
  obtain ⟨x, hx, hx0⟩ := Bsearch.bsearch_some _ hi
  have hxmem := List.mem_of_getElem? hx
  obtain ⟨fr, hfr, hfrmeet, hprev⟩ := walkBack_spec i x hx
    ((intersects_iff (hne x hxmem) hrange).mpr (cmp_zero.mp hx0))
  have hfrmem := List.mem_of_getElem? hfr
  refine ⟨fr, hfrmem, ?_, hfrmeet, fun r' hr' hmeet' => ?_⟩
  · unfold firstMeeting flatviewLookup
    rw [hi]
    exact hfr
  -- a range before `fr` ends before the interval, since the one just before it does
  by_contra hlt
  obtain ⟨j, hj, hjr⟩ := List.mem_iff_getElem.mp hr'
  obtain ⟨hm, hmfr⟩ := List.getElem?_eq_some_iff.mp hfr
  have horder : ∀ {i j : Nat} (hi : i < view.length) (hj : j < view.length), i < j →
      addrrangeEnd view[i].addr ≤ view[j].addr.start := fun hi hj hij =>
    List.pairwise_iff_getElem.mp hview.apart _ _ hi hj hij
  have hjm : j < walkBack view range i := by
    by_contra hge
    rcases Nat.lt_or_eq_of_le (Nat.le_of_not_lt hge) with hgt | heq
    · have h1 := horder hm hj hgt
      rw [hmfr, hjr] at h1
      have h2 := hne fr hfrmem
      omega
    · subst heq
      rw [hmfr] at hjr
      rw [hjr] at hlt
      omega
  obtain ⟨m, hm'⟩ := Nat.exists_eq_succ_of_ne_zero (Nat.ne_of_gt (Nat.zero_lt_of_lt hjm))
  have hmlt : m < view.length := by omega
  have hout := hprev m view[m] hm' (List.getElem?_eq_getElem hmlt)
  have hbefore := horder hmlt hm (by omega)
  rw [hmfr] at hbefore
  rw [intersects_iff (hne _ (List.getElem_mem hmlt)) hrange] at hout
  have hfr1 := ((intersects_iff (hne fr hfrmem) hrange).mp hfrmeet).1
  have hmne := hne _ (List.getElem_mem hmlt)
  have hend : addrrangeEnd view[m].addr ≤ range.start := by omega
  have hr1 := ((intersects_iff (hne r' hr') hrange).mp hmeet').2
  rcases Nat.lt_or_eq_of_le (show j ≤ m by omega) with hlt' | heq
  · have h1 := horder hj hmlt hlt'
    rw [hjr] at h1
    omega
  · subst heq
    rw [hjr] at hend
    omega

end

/-! ## the answer -/

def MappedIn (view : FlatView) (lo hi : Int) : Prop :=
  ∃ a, lo ≤ a ∧ a < hi ∧ ∃ r ∈ view, addrrangeContains r.addr a

/-- the section is the part of the interval in the range `fr` -/
structure PartOf (fr : FlatRange) (lo hi : Int) (sec : MemoryRegionSection) : Prop where
  mr : sec.mr = fr.mr
  readonly : sec.readonly = fr.readonly
  offset : sec.offsetWithinRegion = fr.offsetInRegion +
    BitVec.ofInt 64 (int128Make64 sec.offsetWithinAddressSpace - fr.addr.start)
  addresses : ∀ a, sec.has a ↔ addrrangeContains fr.addr a ∧ lo ≤ a ∧ a < hi

/-- the lowest part of the interval that is mapped -/
structure FirstPart (view : FlatView) (as : SpaceId) (lo hi : Int) (sec : MemoryRegionSection) :
    Prop where
  addressSpace : sec.addressSpace = as
  nonempty : 0 < sec.size
  part : ∃ fr ∈ view, PartOf fr lo hi sec
  lowest : ∀ a, lo ≤ a → a < int128Make64 sec.offsetWithinAddressSpace →
    ∀ r ∈ view, ¬ addrrangeContains r.addr a

def RightFind (view : FlatView) (as : SpaceId) (lo hi : Int) : Option MemoryRegionSection → Prop
  | none => ¬ MappedIn view lo hi
  | some sec => FirstPart view as lo hi sec

lemma FirstPart.mappedIn {view : FlatView} {as : SpaceId} {lo hi : Int}
    {sec : MemoryRegionSection} (h : FirstPart view as lo hi sec) : MappedIn view lo hi := by
  obtain ⟨fr, hfr, hpart⟩ := h.part
  have hhas : sec.has (int128Make64 sec.offsetWithinAddressSpace) :=
    ⟨Int.le_refl _, by have := h.nonempty; omega⟩
  obtain ⟨h1, h2, h3⟩ := (hpart.addresses _).mp hhas
  exact ⟨_, h2, h3, fr, hfr, h1⟩

lemma foundSection_spec {view : FlatView} (hview : Good view) {range : AddrRange} (as : SpaceId)
    (hfr : fr ∈ view) (hrange : range.start < addrrangeEnd range)
    (hmeet : addrrangeIntersects fr.addr range)
    (hfirst : ∀ r' ∈ view, addrrangeIntersects r'.addr range → fr.addr.start ≤ r'.addr.start) :
    ∃ sec, foundSection as range fr = .ok sec ∧
      FirstPart view as range.start (addrrangeEnd range) sec := by
  have hne : fr.addr.start < addrrangeEnd fr.addr := hview.ordered.nonempty fr hfr
  obtain ⟨hb0, hb1⟩ := hview.bounds fr hfr
  obtain ⟨hm1, hm2⟩ := (intersects_iff hne hrange).mp hmeet
  have hstart : 0 ≤ max range.start fr.addr.start ∧
      max range.start fr.addr.start < int128_2_64 := by omega
  have hdelta : int128Get64 (max range.start fr.addr.start - fr.addr.start) =
      .ok (BitVec.ofInt 64 (max range.start fr.addr.start - fr.addr.start)) :=
    get64_ok (by omega) (by omega)
  refine ⟨{ mr := fr.mr, addressSpace := as,
            offsetWithinRegion := fr.offsetInRegion +
              BitVec.ofInt 64 (max range.start fr.addr.start - fr.addr.start),
            size := (addrrangeIntersection range fr.addr).size,
            offsetWithinAddressSpace := BitVec.ofInt 64 (max range.start fr.addr.start),
            readonly := fr.readonly }, ?_, ?_⟩
  · show Except.bind (int128Get64 (max range.start fr.addr.start - fr.addr.start)) _ = _
    rw [hdelta]
    show Except.bind (int128Get64 (max range.start fr.addr.start)) _ = _
    rw [get64_ok hstart.1 hstart.2]
    rfl
  · have hoff := make64_ofInt hstart.1 hstart.2
    refine ⟨rfl, ?_, ⟨fr, hfr, rfl, rfl, ?_, fun a => ?_⟩, fun a ha0 ha1 r hr hc => ?_⟩
    · show 0 < min (addrrangeEnd range) (addrrangeEnd fr.addr) - max range.start fr.addr.start
      omega
    · dsimp only
      rw [hoff]
    · unfold MemoryRegionSection.has addrrangeContains addrrangeIntersection
      dsimp only
      omega
    · dsimp only at ha1
      have hc0 : r.addr.start ≤ a := hc.1
      have hmeet' : addrrangeIntersects r.addr range :=
        intersects_of_contains hc ⟨ha0, by omega⟩
      have := hfirst r hr hmeet'
      omega

lemma unref_ref {owner : RegionId → Option ObjId} {as : AddressSpace} {s : MapState}
    (href : s.viewRef as.id ≠ 0) (refs : Refs) :
    flatviewUnref owner as { flatviewRef as s with refs := refs } =
      .ok { s with refs := refs } := by
  have hone : (flatviewRef as s).viewRef as.id = s.viewRef as.id + 1 := update_self _ _ _
  have hne : s.viewRef as.id + 1 ≠ 1 := by
    intro h
    exact href (by simpa using h)
  unfold flatviewUnref
  rw [hone, if_neg hne]
  unfold flatviewRef
  rw [update_idem, BitVec.add_sub_cancel, update_eq_self]
  rfl

/-- **the answer is right and the map keeps its count exactly if the interval meets the map** -/
theorem find_right_iff (owner : RegionId → Option ObjId) (h : Heap) (fuel : Nat) (mr : RegionId)
    (addr size : Hwaddr) (s : MapState) (root : RegionId) (start : Hwaddr) (as : AddressSpace)
    (hroot : rootOf h fuel mr (addr + (h mr).addr) = .ok (root, start))
    (has : memoryRegionToAddressSpace s root = .ok as) (hview : Good as.currentMap)
    (href : s.viewRef as.id ≠ 0) :
    (∃ ret s', memoryRegionFind owner h fuel mr addr size s = .ok (ret, s') ∧
        RightFind as.currentMap as.id (int128Make64 start)
          (int128Make64 start + int128Make64 size) ret ∧
        s'.viewRef = s.viewRef) ↔
      MappedIn as.currentMap (int128Make64 start) (int128Make64 start + int128Make64 size) := by
  have hfind : memoryRegionFind owner h fuel mr addr size s =
      (match firstMeeting as.currentMap ⟨int128Make64 start, int128Make64 size⟩ with
        | none => .ok (none, flatviewRef as s)
        | some fr => do
          let ret ← foundSection as.id ⟨int128Make64 start, int128Make64 size⟩ fr
          let s' ← flatviewUnref owner as
            { flatviewRef as s with refs := memoryRegionRef owner fr.mr (flatviewRef as s).refs }
          return (some ret, s')) := by
    unfold memoryRegionFind
    rw [hroot]
    show Except.bind (memoryRegionToAddressSpace s root) _ = _
    rw [has]
    rfl
  rw [hfind]
  constructor
  · rintro ⟨ret, s', hok, hright, hcount⟩
    cases ret with
    | some sec => exact FirstPart.mappedIn hright
    | none =>
      -- the map keeps the reference that was taken
      exfalso
      cases hmeet : firstMeeting as.currentMap ⟨int128Make64 start, int128Make64 size⟩ with
      | none =>
        rw [hmeet] at hok
        cases hok
        have hone := congrFun hcount as.id
        rw [show (flatviewRef as s).viewRef as.id = s.viewRef as.id + 1 from
          update_self _ _ _] at hone
        simp at hone
      | some fr =>
        rw [hmeet] at hok
        obtain ⟨sec, -, hok⟩ := Checked.bind_ok_inv hok
        obtain ⟨s₁, -, hok⟩ := Checked.bind_ok_inv hok
        cases hok
  · rintro ⟨a, ha0, ha1, r, hr, hra⟩
    have hrange : (⟨int128Make64 start, int128Make64 size⟩ : AddrRange).start <
        addrrangeEnd ⟨int128Make64 start, int128Make64 size⟩ := by
      unfold addrrangeEnd
      dsimp only
      omega
    obtain ⟨fr, hfr, hfirst, hmeet, hleast⟩ := firstMeeting_some hview.ordered hrange hr
      (intersects_of_contains hra ⟨ha0, ha1⟩)
    obtain ⟨sec, hsec, hpart⟩ := foundSection_spec hview as.id hfr hrange hmeet hleast
    rw [hfirst]
    refine ⟨some sec, { s with refs := memoryRegionRef owner fr.mr s.refs }, ?_, hpart, rfl⟩
    show Except.bind (foundSection as.id _ fr) _ = _
    rw [hsec]
    rw [unref_ref href]
    rfl

def threeRanges : FlatView :=
  [⟨1, 0, ⟨0x1000, 0x1000⟩, 0, true, false⟩, ⟨2, 0, ⟨0x3000, 0x1000⟩, 0, true, false⟩,
    ⟨3, 0, ⟨0x5000, 0x1000⟩, 0, true, false⟩]

def threeState : MapState := ⟨[⟨0, some 0, threeRanges⟩], fun _ => 1, fun _ => 1⟩

lemma threeRanges_good : Good threeRanges :=
  ⟨.cons (by decide) (by decide) (.cons (by decide) (by decide) (.cons (by decide) (by decide) .nil)),
    by decide⟩

/-- the interval meets all ranges; the search comes to the middle one first and goes back -/
theorem find_right_three : ∃ ret s',
    memoryRegionFind (fun _ => none) aliasHeap 1 0 0x800 0x5000 threeState = .ok (ret, s') ∧
      RightFind threeRanges 0 (int128Make64 0x800) (int128Make64 0x800 + int128Make64 0x5000) ret ∧
      s'.viewRef = threeState.viewRef :=
  (find_right_iff (fun _ => none) aliasHeap 1 0 0x800 0x5000 threeState 0 0x800
    ⟨0, some 0, threeRanges⟩ (by rfl) (by rfl) threeRanges_good (by decide)).mpr
    ⟨0x1000, by decide, by decide, _, List.mem_cons_self, by decide⟩

/-- nothing is mapped between two ranges, and the map is left with a reference too many -/
theorem find_unmapped_leaks :
    (memoryRegionFind (fun _ => none) aliasHeap 1 0 0x4000 0x1000 threeState).map
      (fun x => (x.1, x.2.viewRef 0)) = .ok (none, threeState.viewRef 0 + 1) := by
  decide +kernel

end Memory
