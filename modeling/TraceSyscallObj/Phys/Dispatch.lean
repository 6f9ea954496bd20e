import TraceSyscallObj.Memory.Api
import TraceSyscallObj.Phys.PageMap

/-!
# Sections and pages

Model of `mem_add` and `address_space_lookup_region` of `exec.c`.  A section of a map is cut into a
piece up to the first page boundary, whole pages, and the rest.  Whole pages go into the tree; the
other pieces go into the table of their page, a subpage.

* `memAdd`, `addressSpaceLookupRegion`: the code;
* `MapsAs`: the sections and pages map the addresses as a function says;
* `registerSubpage_maps`, `registerMultipage_maps`, `memAdd_maps`: what one piece and one section
  add to it;
* `memAddAll_right`: after the sections of a map have been added, every address below the end of
  the tree is looked up right;
* `lookup_mod`, `dispatch_correct`: behind it the addresses begin again.
-/

namespace Phys

open Memory (Hwaddr RegionId MemoryRegionSection)

/-- `TARGET_PAGE_SIZE` -/
def pageSize : Nat := 4096

/-- the region of a section: one of the map, one of `exec.c`, or a subpage with its table -/
inductive PhysRegion
  | region (mr : RegionId)
  | unassigned
  | notdirty
  | rom
  | watch
  | subpage (n : Nat)
  deriving DecidableEq

structure PhysSection where
  mr : PhysRegion
  offsetWithinAddressSpace : Hwaddr
  offsetWithinRegion : Hwaddr
  size : Int
  readonly : Bool
  deriving DecidableEq

/-- `next_map` with the subpages and the `phys_map` of a dispatch -/
structure PhysState where
  map : NodeMap
  sections : List PhysSection
  /-- `sub_section` of every subpage -/
  subpages : List (Nat → Nat)
  root : PhysPageEntry

def physSectionAdd (sec : PhysSection) (s : PhysState) : Except Fault (Nat × PhysState) :=
  if s.sections.length < pageSize then
    .ok (s.sections.length, { s with sections := s.sections ++ [sec] })
  else .error .sectionsFull

def dummySection (mr : PhysRegion) : PhysSection :=
  { mr := mr, offsetWithinAddressSpace := 0, offsetWithinRegion := 0, size := Memory.int128_2_64,
    readonly := false }

/-- after `core_begin` and `mem_begin` -/
def coreBegin : PhysState where
  map := { nodesNb := 0, nodesNbAlloc := 0, nodes := fun _ _ => ⟨false, 0⟩ }
  sections := [dummySection .unassigned, dummySection .notdirty, dummySection .rom,
    dummySection .watch]
  subpages := []
  root := ⟨false, nodeNil⟩

def memBegin (s : PhysState) : PhysState := { s with root := ⟨false, nodeNil⟩ }

section
variable (levels : Nat)

/-- `phys_page_find` -/
def PhysState.find (s : PhysState) (index : Nat) : Nat :=
  physPageFind s.map.nodes levels s.root index

def setPages (index nb leaf : Nat) (s : PhysState) : Except Fault PhysState := do
  let (root, map) ← physPageSet levels s.root index nb leaf s.map
  return { s with root := root, map := map }

/-- `start` and `last` have 32 bits; the function returns -1 without effect if one is no index -/
def subpageRegister (start last leaf : Nat) (table : Nat → Nat) : Nat → Nat :=
  if start ≥ pageSize ∨ last ≥ pageSize then table
  else fun idx => if start ≤ idx ∧ idx ≤ last then leaf else table idx

/-- the table of the subpage `n` gets the section -/
def enterSubpage (n : Nat) (sec : PhysSection) (s : PhysState) : Except Fault PhysState := do
  let start := sec.offsetWithinAddressSpace.toNat % pageSize
  let size ← match Memory.int128Get64 sec.size with
    | .ok size => .ok size
    | .error _ => .error .assertion
  let last := (BitVec.ofNat 64 start + size - 1).toNat % 2 ^ 32
  let (leaf, s) ← physSectionAdd sec s
  match s.subpages[n]? with
  | none => .error .wild
  | some table =>
    return { s with subpages := s.subpages.set n (subpageRegister start last leaf table) }

def registerSubpage (sec : PhysSection) (s : PhysState) : Except Fault PhysState :=
  let index := sec.offsetWithinAddressSpace.toNat / pageSize
  match s.sections[s.find levels index]? with
  | none => .error .wild
  | some existing =>
    match existing.mr with
    | .subpage n => enterSubpage n sec s
    | .unassigned => do
      let n := s.subpages.length
      let s := { s with subpages := s.subpages ++ [fun _ => sectionUnassigned] }
      let (leaf, s) ← physSectionAdd
        { mr := .subpage n, offsetWithinAddressSpace := BitVec.ofNat 64 (index * pageSize),
          offsetWithinRegion := 0, size := pageSize, readonly := false } s
      let s ← setPages levels index 1 leaf s
      enterSubpage n sec s
    | _ => .error .assertion

def registerMultipage (sec : PhysSection) (s : PhysState) : Except Fault PhysState := do
  let (leaf, s) ← physSectionAdd sec s
  let numPages ← match Memory.int128Get64 (sec.size / pageSize) with
    | .ok numPages => .ok numPages
    | .error _ => .error .assertion
  if numPages = 0 then .error .assertion
  else setPages levels (sec.offsetWithinAddressSpace.toNat / pageSize) numPages.toNat leaf s

def leftInPage (addr : Hwaddr) : Nat := pageSize - addr.toNat % pageSize

/-- the first `now` bytes are done -/
def PhysSection.skip (remain : PhysSection) (now : Int) (done : Hwaddr) : PhysSection :=
  { remain with
    size := remain.size - now
    offsetWithinAddressSpace := remain.offsetWithinAddressSpace + done
    offsetWithinRegion := remain.offsetWithinRegion + done }

def memAddLoop : Nat → PhysSection → Int → PhysState → Except Fault PhysState
  | 0, _, _, _ => .error .fuel
  | fuel + 1, remain, now, s =>
    if remain.size = now then .ok s
    else do
      let done ← match Memory.int128Get64 now with
        | .ok done => .ok done
        | .error _ => .error .assertion
      let remain := remain.skip now done
      if remain.size < (pageSize : Int) then do
        let s ← registerSubpage levels remain s
        memAddLoop fuel remain remain.size s
      else if remain.offsetWithinAddressSpace.toNat % pageSize ≠ 0 then do
        let s ← registerSubpage levels { remain with size := pageSize } s
        memAddLoop fuel remain pageSize s
      else do
        let now := remain.size / pageSize * pageSize
        let s ← registerMultipage levels { remain with size := now } s
        memAddLoop fuel remain now s

def memAdd (sec : PhysSection) (s : PhysState) : Except Fault PhysState :=
  if sec.offsetWithinAddressSpace.toNat % pageSize ≠ 0 then do
    let now := min (leftInPage sec.offsetWithinAddressSpace : Int) sec.size
    let s ← registerSubpage levels { sec with size := now } s
    memAddLoop levels 3 sec now s
  else memAddLoop levels 3 sec 0 s

def addressSpaceLookupRegion (s : PhysState) (addr : Nat) : Option PhysSection :=
  match s.sections[s.find levels (addr / pageSize)]? with
  | none => none
  | some sec =>
    match sec.mr with
    | .subpage n => (s.subpages[n]?).bind fun table => s.sections[table (addr % pageSize)]?
    | _ => some sec

end

/-! ## maps of addresses -/

/-- the region, the offset in it and whether it is read-only, for every address -/
abbrev AddrMap := Nat → Option (RegionId × Hwaddr × Bool)

def PhysSection.value (sec : PhysSection) (a : Nat) : Option (RegionId × Hwaddr × Bool) :=
  match sec.mr with
  | .region mr =>
    some (mr, sec.offsetWithinRegion + (BitVec.ofNat 64 a - sec.offsetWithinAddressSpace),
      sec.readonly)
  | _ => none

def PhysSection.Has (sec : PhysSection) (a : Nat) : Prop :=
  (sec.offsetWithinAddressSpace.toNat : Int) ≤ a ∧
    (a : Int) < sec.offsetWithinAddressSpace.toNat + sec.size

instance (sec : PhysSection) (a : Nat) : Decidable (sec.Has a) :=
  inferInstanceAs (Decidable (_ ∧ _))

def overlay (sec : PhysSection) (m : AddrMap) : AddrMap :=
  fun a => if sec.Has a then sec.value a else m a

def EntryMaps (s : PhysState) (m : AddrMap) (a i : Nat) : Prop :=
  (i = sectionUnassigned ∧ m a = none) ∨
    ∃ sec mr, s.sections[i]? = some sec ∧ sec.mr = .region mr ∧ m a = sec.value a

/-- the page `j` has the section `i`: none, one for the whole page, or a subpage that is in use -/
inductive PageMaps (s : PhysState) (m : AddrMap) (j i : Nat) : Prop
  | free : i = sectionUnassigned → (∀ o < pageSize, m (j * pageSize + o) = none) → PageMaps s m j i
  | whole {sec : PhysSection} {mr : RegionId} : s.sections[i]? = some sec → sec.mr = .region mr →
      (∀ o < pageSize, m (j * pageSize + o) = sec.value (j * pageSize + o)) → PageMaps s m j i
  | sub {sec : PhysSection} {n : Nat} {table : Nat → Nat} : s.sections[i]? = some sec →
      sec.mr = .subpage n → s.subpages[n]? = some table →
      (∀ o < pageSize, EntryMaps s m (j * pageSize + o) (table o)) →
      (∃ o < pageSize, m (j * pageSize + o) ≠ none) → PageMaps s m j i

def HasSubpage (levels : Nat) (s : PhysState) (j n : Nat) : Prop :=
  ∃ sec, s.sections[s.find levels j]? = some sec ∧ sec.mr = .subpage n

/-- the tree and the arrays are well formed -/
structure Sound (levels : Nat) (s : PhysState) : Prop where
  own : ∃ fp, Own s.map.nodes levels s.root fp ∧ ∀ n ∈ fp, n < s.map.nodesNb
  nodes : s.map.nodesNb ≤ 7 * s.sections.length
  count : s.sections.length ≤ pageSize
  zero : ∃ sec, s.sections[sectionUnassigned]? = some sec ∧ sec.mr = .unassigned
  apart : ∀ j < pageCount levels, ∀ j' < pageCount levels, ∀ n, HasSubpage levels s j n →
    HasSubpage levels s j' n → j = j'

/-- **the sections and pages map the addresses as `m` says** -/
structure MapsAs (levels : Nat) (s : PhysState) (m : AddrMap) : Prop where
  sound : Sound levels s
  page : ∀ j < pageCount levels, PageMaps s m j (s.find levels j)

section
variable {levels : Nat} {s : PhysState} {m : AddrMap}

/-- the addresses are mapped as `m` says, by at most `l` sections, unless these are too many -/
def MapsOrFull (levels l : Nat) (r : Except Fault PhysState) (m : AddrMap) : Prop :=
  (r = .error .sectionsFull ∧ pageSize < l) ∨
    ∃ s', r = .ok s' ∧ MapsAs levels s' m ∧ s'.sections.length ≤ l

lemma MapsOrFull.bind {r : Except Fault PhysState} {f : PhysState → Except Fault PhysState}
    {m' : AddrMap} {l l' : Nat} (h : MapsOrFull levels l r m) (hl : l ≤ l')
    (hf : ∀ s', MapsAs levels s' m → s'.sections.length ≤ l → MapsOrFull levels l' (f s') m') :
    MapsOrFull levels l' (r >>= f) m' := by
  rcases h with ⟨rfl, hfull⟩ | ⟨s', rfl, hmaps, hlen⟩
  · exact .inl ⟨rfl, Nat.lt_of_lt_of_le hfull hl⟩
  · exact hf s' hmaps hlen

lemma page_of (a : Nat) : a / pageSize * pageSize + a % pageSize = a :=
  Nat.div_add_mod' a pageSize

lemma value_region {sec : PhysSection} {mr : RegionId} (h : sec.mr = .region mr) (a : Nat) :
    sec.value a ≠ none := by
  unfold PhysSection.value
  rw [h]
  exact Option.some_ne_none _

lemma EntryMaps.entry (hs : Sound levels s) {a i : Nat} (h : EntryMaps s m a i) :
    ∃ sec, s.sections[i]? = some sec ∧ (∀ n, sec.mr ≠ .subpage n) ∧ sec.value a = m a ∧
      (m a = none → sec.mr = .unassigned) := by
  rcases h with ⟨rfl, hnone⟩ | ⟨sec, mr, hsec, hmr, hval⟩
  · obtain ⟨sec, hsec, hmr⟩ := hs.zero
    refine ⟨sec, hsec, fun n hn => ?_, ?_, fun _ => hmr⟩
    · rw [hmr] at hn
      cases hn
    · unfold PhysSection.value
      rw [hmr, hnone]
  · refine ⟨sec, hsec, fun n hn => ?_, hval.symm, fun hnone => ?_⟩
    · rw [hmr] at hn
      cases hn
    · exact absurd (hval.symm.trans hnone) (value_region hmr a)

/-- **the lookup gives the section of the address** -/
theorem MapsAs.lookup (h : MapsAs levels s m) {a : Nat} (ha : a < pageCount levels * pageSize) :
    ∃ sec, addressSpaceLookupRegion levels s a = some sec ∧ sec.value a = m a ∧
      (m a = none → sec.mr = .unassigned) := by
  have hj : a / pageSize < pageCount levels := Nat.div_lt_of_lt_mul (by rw [Nat.mul_comm]; exact ha)
  have ho : a % pageSize < pageSize := Nat.mod_lt _ (by decide)
  have hdirect : EntryMaps s m a (s.find levels (a / pageSize)) →
      ∃ sec, addressSpaceLookupRegion levels s a = some sec ∧ sec.value a = m a ∧
        (m a = none → sec.mr = .unassigned) := by
    intro hentry
    obtain ⟨sec, hsec, hmr, hright⟩ := hentry.entry h.sound
    refine ⟨sec, ?_, hright⟩
    unfold addressSpaceLookupRegion
    rw [hsec]
    dsimp only
    split
    next n hn => exact absurd hn (hmr n)
    next => rfl
  rcases h.page _ hj with ⟨hi, hm⟩ | ⟨hsec, hmr, hm⟩ | ⟨hsec, hmr, htable, hm, -⟩
  · have hnone := hm _ ho
    rw [page_of] at hnone
    exact hdirect (.inl ⟨hi, hnone⟩)
  · have hval := hm _ ho
    rw [page_of] at hval
    exact hdirect (.inr ⟨_, _, hsec, hmr, hval⟩)
  · have hentry := hm _ ho
    rw [page_of] at hentry
    obtain ⟨sec, hsec', -, hright⟩ := hentry.entry h.sound
    refine ⟨sec, ?_, hright⟩
    unfold addressSpaceLookupRegion
    rw [hsec]
    dsimp only
    rw [hmr]
    dsimp only
    rw [htable, Option.bind_some, hsec']

end

/-! ## one piece -/

variable {n l : Nat} {sec : PhysSection}

section
variable {levels : Nat} {s s' : PhysState} {m m' : AddrMap} {i : Nat}

lemma EntryMaps.mono {a : Nat} (h : EntryMaps s m a i)
    (hsec : ∀ (i : Nat) sec, s.sections[i]? = some sec → s'.sections[i]? = some sec)
    (hm : m' a = m a) : EntryMaps s' m' a i := by
  rcases h with ⟨h1, h2⟩ | ⟨sec, mr, h1, h2, h3⟩
  · exact .inl ⟨h1, hm.trans h2⟩
  · exact .inr ⟨sec, mr, hsec i sec h1, h2, hm.trans h3⟩

variable {j : Nat}

lemma PageMaps.mono (h : PageMaps s m j i)
    (hsec : ∀ (i : Nat) sec, s.sections[i]? = some sec → s'.sections[i]? = some sec)
    (hsub : ∀ n sec, s.sections[i]? = some sec → sec.mr = .subpage n →
      ∀ table, s.subpages[n]? = some table → s'.subpages[n]? = some table)
    (hm : ∀ o < pageSize, m' (j * pageSize + o) = m (j * pageSize + o)) : PageMaps s' m' j i := by
  rcases h with ⟨hi, hnone⟩ | ⟨hsec₀, hmr, hval⟩ | ⟨hsec₀, hmr, htable, hval, o, ho, hused⟩
  · exact .free hi fun o ho => (hm o ho).trans (hnone o ho)
  · exact .whole (hsec _ _ hsec₀) hmr fun o ho => (hm o ho).trans (hval o ho)
  · exact .sub (hsec _ _ hsec₀) hmr (hsub _ _ hsec₀ hmr _ htable)
      (fun o ho => (hval o ho).mono hsec (hm o ho)) ⟨o, ho, by rw [hm o ho]; exact hused⟩

/-- a section of the map, or a part of one, that can be added to `m` -/
structure Piece (levels : Nat) (sec : PhysSection) (m : AddrMap) : Prop where
  mr : ∃ mr, sec.mr = .region mr
  pos : 0 < sec.size
  le : sec.offsetWithinAddressSpace.toNat + sec.size ≤ ((pageCount levels * pageSize : Nat) : Int)
  free : ∀ a, sec.Has a → m a = none

lemma Sound.length_pos (h : Sound levels s) : 0 < s.sections.length := by
  obtain ⟨sec, hsec, -⟩ := h.zero
  exact Nat.lt_of_le_of_lt (Nat.zero_le _) (List.getElem?_eq_some_iff.mp hsec).1

lemma getElem?_append_some {α : Type} {xs ys : List α} {x : α} (h : xs[i]? = some x) :
    (xs ++ ys)[i]? = some x := by
  rw [List.getElem?_append_left (List.getElem?_eq_some_iff.mp h).1]
  exact h

lemma pageCount_le (hle : levels ≤ 4) : pageCount levels ≤ 1099511627776 :=
  Nat.pow_le_pow_right (by decide) hle

lemma MapsAs.free_page (h : MapsAs levels s m) (hj : j < pageCount levels)
    (hfree : ∀ o < pageSize, m (j * pageSize + o) = none) :
    s.find levels j = sectionUnassigned := by
  rcases h.page j hj with ⟨hi, -⟩ | ⟨-, hmr, hval⟩ | ⟨-, -, -, -, o, ho, hused⟩
  · exact hi
  · have hpos : 0 < pageSize := by decide
    exact absurd ((hval 0 hpos).symm.trans (hfree 0 hpos)) (value_region hmr _)
  · exact absurd (hfree o ho) hused

lemma physSectionAdd_cases (sec : PhysSection) (s : PhysState) :
    (pageSize ≤ s.sections.length ∧ physSectionAdd sec s = .error .sectionsFull) ∨
      (s.sections.length < pageSize ∧ physSectionAdd sec s =
        .ok (s.sections.length, { s with sections := s.sections ++ [sec] })) := by
  unfold physSectionAdd
  split
  next h => exact .inr ⟨h, rfl⟩
  next h => exact .inl ⟨Nat.le_of_not_lt h, rfl⟩

lemma PageMaps.valid (h : PageMaps s m j i) (hs : Sound levels s) :
    ∃ sec, s.sections[i]? = some sec := by
  rcases h with ⟨rfl, -⟩ | ⟨hsec, -, -⟩ | ⟨hsec, -, -, -, -⟩
  · obtain ⟨sec, hsec, -⟩ := hs.zero
    exact ⟨sec, hsec⟩
  · exact ⟨_, hsec⟩
  · exact ⟨_, hsec⟩

lemma MapsAs.subpage_lt (h : MapsAs levels s m) (hj : j < pageCount levels)
    (hsub : HasSubpage levels s j n) : n < s.subpages.length := by
  obtain ⟨sec, hsec, hmr⟩ := hsub
  rcases h.page j hj with ⟨hi, -⟩ | ⟨hsec', hmr', -⟩ | ⟨hsec', hmr', htable, -, -⟩
  · obtain ⟨sec₀, hsec₀, hmr₀⟩ := h.sound.zero
    rw [hi, hsec₀] at hsec
    cases hsec
    rw [hmr₀] at hmr
    cases hmr
  · rw [hsec'] at hsec
    cases hsec
    rw [hmr'] at hmr
    cases hmr
  · rw [hsec'] at hsec
    cases hsec
    rw [hmr'] at hmr
    cases hmr
    exact (List.getElem?_eq_some_iff.mp htable).1

section
variable (hsections : s'.sections = s.sections ++ [sec])
include hsections

lemma sections_new : s'.sections[s.sections.length]? = some sec := by
  rw [hsections, List.getElem?_concat_length]

lemma sections_length : s'.sections.length = s.sections.length + 1 := by
  rw [hsections, List.length_append, List.length_singleton]

lemma sections_mono (i : Nat) (sec₀ : PhysSection) (hi : s.sections[i]? = some sec₀) :
    s'.sections[i]? = some sec₀ := by
  rw [hsections]
  exact getElem?_append_some hi

lemma Sound.append (h : Sound levels s) (hlt : s.sections.length < pageSize)
    (hown : ∃ fp, Own s'.map.nodes levels s'.root fp ∧ ∀ n ∈ fp, n < s'.map.nodesNb)
    (hnodes : s'.map.nodesNb ≤ s.map.nodesNb + 7)
    (hapart : ∀ j < pageCount levels, ∀ j' < pageCount levels, ∀ n, HasSubpage levels s' j n →
      HasSubpage levels s' j' n → j = j') : Sound levels s' := by
  obtain ⟨sec₀, hsec₀, hmr₀⟩ := h.zero
  have hbound := h.nodes
  have hlen := sections_length hsections
  exact ⟨hown, by omega, by omega, ⟨sec₀, sections_mono hsections _ _ hsec₀, hmr₀⟩, hapart⟩

lemma subpage_of_append (hvalid : ∃ sec, s.sections[s.find levels j]? = some sec)
    (hfind : s'.find levels j = s.find levels j) (hsub : HasSubpage levels s' j n) :
    HasSubpage levels s j n := by
  obtain ⟨sec₀, hsec₀⟩ := hvalid
  obtain ⟨sec', hsec', hmr'⟩ := hsub
  rw [hfind, sections_mono hsections _ _ hsec₀] at hsec'
  cases hsec'
  exact ⟨_, hsec₀, hmr'⟩
end

lemma addPages_spec (hlevels : 0 < levels) (hle : levels ≤ 4) (h : Sound levels s)
    (hlt : s.sections.length < pageSize) (sec : PhysSection) (subpages : List (Nat → Nat))
    {index nb : Nat} (hnb : 0 < nb) (hrange : index + nb ≤ pageCount levels)
    (hfree : ∀ j, index ≤ j → j < index + nb → s.find levels j = sectionUnassigned) :
    ∃ s', setPages levels index nb s.sections.length { s with
        sections := s.sections ++ [sec]
        subpages := subpages } = .ok s' ∧ s'.sections = s.sections ++ [sec] ∧
      s'.subpages = subpages ∧
      (∃ fp, Own s'.map.nodes levels s'.root fp ∧ ∀ n ∈ fp, n < s'.map.nodesNb) ∧
      s'.map.nodesNb ≤ s.map.nodesNb + 7 ∧
      ∀ j < pageCount levels, s'.find levels j =
        if index ≤ j ∧ j < index + nb then s.sections.length else s.find levels j := by
  obtain ⟨fp, hown, hfp⟩ := h.own
  have hnodes := h.nodes
  unfold pageSize at hlt
  obtain ⟨root', map', hok, hown', hle1, hle2, hfind⟩ := physPageSet_spec hlevels hown hfp hnb
    hrange (show s.sections.length ≠ sectionUnassigned from Nat.ne_of_gt h.length_pos) hfree
    (by unfold nodeNil; omega)
  refine ⟨⟨map', s.sections ++ [sec], subpages, root'⟩, ?_, rfl, rfl,
    ⟨_, hown', fun n hn => ?_⟩, ?_, hfind⟩
  · unfold setPages
    rw [hok]
    rfl
  · rcases hn with hn | hn
    · exact Nat.lt_of_lt_of_le (hfp n hn) hle1
    · exact hn.2
  · show map'.nodesNb ≤ _
    omega

lemma get64_natCast (h : n < 2 ^ 64) : Memory.int128Get64 (n : Int) = .ok (BitVec.ofNat 64 n) := by
  unfold Memory.int128Get64 Memory.int128_2_64
  rw [if_pos ⟨by omega, by omega⟩, BitVec.ofInt_natCast]

/-- **whole pages** -/
theorem registerMultipage_maps (hlevels : 0 < levels) (hle : levels ≤ 4) (h : MapsAs levels s m)
    (hp : Piece levels sec m) (hl : s.sections.length + 1 ≤ l)
    (haligned : sec.offsetWithinAddressSpace.toNat % pageSize = 0)
    (hsize : sec.size % (pageSize : Int) = 0) :
    MapsOrFull levels l (registerMultipage levels sec s) (overlay sec m) := by
  unfold registerMultipage
  rcases physSectionAdd_cases sec s with ⟨hge, hfull⟩ | ⟨hlt, hadd⟩
  · left
    rw [hfull]
    exact ⟨rfl, by omega⟩
  right
  obtain ⟨mr, hmr⟩ := hp.mr
  have hpos := hp.pos
  have htop := hp.le
  have hpages := pageCount_le hle
  obtain ⟨np, hnp⟩ : ∃ np : Nat, sec.size = 4096 * (np : Int) :=
    ⟨(sec.size / 4096).toNat, by unfold pageSize at hsize; omega⟩
  obtain ⟨first, hfirst⟩ : ∃ first, sec.offsetWithinAddressSpace.toNat = 4096 * first :=
    ⟨sec.offsetWithinAddressSpace.toNat / 4096, by unfold pageSize at haligned; omega⟩
  have hindex : sec.offsetWithinAddressSpace.toNat / pageSize = first := by
    unfold pageSize
    omega
  have hrange : first + np ≤ pageCount levels := by
    unfold pageSize at htop
    omega
  have hin : ∀ j o, o < pageSize → (sec.Has (j * pageSize + o) ↔ first ≤ j ∧ j < first + np) := by
    intro j o ho
    unfold PhysSection.Has
    unfold pageSize at ho ⊢
    omega
  have hquot : sec.size / (pageSize : Int) = (np : Int) := by
    unfold pageSize
    omega
  have hget := get64_natCast (show np < 2 ^ 64 by omega)
  have hnat : (BitVec.ofNat 64 np).toNat = np := by
    rw [BitVec.toNat_ofNat]
    omega
  have hne : BitVec.ofNat 64 np ≠ 0 := by
    intro hz
    have := congrArg BitVec.toNat hz
    rw [hnat] at this
    have : np = 0 := this
    omega
  rw [hadd, hquot, hget]
  obtain ⟨s', hok, hsections, hsubpages, hown, hnodes, hfind⟩ := addPages_spec
    hlevels hle h.sound hlt sec s.subpages (show 0 < np by omega) hrange fun j h1 h2 =>
      h.free_page (by omega) fun o ho => hp.free _ ((hin j o ho).mpr ⟨h1, h2⟩)
  have hnew := sections_new hsections
  have hkeep : ∀ j < pageCount levels, ¬ (first ≤ j ∧ j < first + np) →
      s'.find levels j = s.find levels j := by
    intro j hj hout
    rw [hfind j hj, if_neg hout]
  have hold : ∀ j < pageCount levels, ∀ n, HasSubpage levels s' j n → HasSubpage levels s j n := by
    intro j hj n hsub
    by_cases hr : first ≤ j ∧ j < first + np
    · obtain ⟨sec', hsec', hmr'⟩ := hsub
      rw [hfind j hj, if_pos hr, hnew] at hsec'
      cases hsec'
      rw [hmr] at hmr'
      cases hmr'
    · exact subpage_of_append hsections ((h.page j hj).valid h.sound) (hkeep j hj hr) hsub
  refine ⟨s', ?_, ⟨h.sound.append hsections hlt hown hnodes fun j hj j' hj' n h1 h2 =>
    h.sound.apart j hj j' hj' n (hold j hj n h1) (hold j' hj' n h2), fun j hj => ?_⟩,
    (sections_length hsections).trans_le hl⟩
  · show (if BitVec.ofNat 64 np = 0 then _ else setPages levels _ (BitVec.ofNat 64 np).toNat
      s.sections.length _) = _
    rw [if_neg hne, hindex, hnat]
    exact hok
  · by_cases hr : first ≤ j ∧ j < first + np
    · rw [hfind j hj, if_pos hr]
      refine .whole hnew hmr fun o ho => ?_
      exact if_pos ((hin j o ho).mpr hr)
    · rw [hkeep j hj hr]
      refine (h.page j hj).mono (sections_mono hsections)
        (fun n sec _ _ table ht => by rw [hsubpages]; exact ht) fun o ho => ?_
      exact if_neg fun hh => hr ((hin j o ho).mp hh)

/-- as `MapsAs`, but the subpage `n` of the page `j` may be unused -/
structure Entering (levels : Nat) (s : PhysState) (m : AddrMap) (j n : Nat) (table : Nat → Nat) :
    Prop where
  sound : Sound levels s
  page : ∀ j' < pageCount levels, j' ≠ j → PageMaps s m j' (s.find levels j')
  this : HasSubpage levels s j n
  read : s.subpages[n]? = some table
  entries : ∀ o < pageSize, EntryMaps s m (j * pageSize + o) (table o)

variable {table : Nat → Nat}

section
variable (h : Entering levels s m j n table)
include h

lemma Entering.other (hj : j < pageCount levels) {j' n' : Nat} (hj' : j' < pageCount levels)
    (hne : j' ≠ j) (hsub : HasSubpage levels s j' n') : n' ≠ n := by
  rintro rfl
  exact hne (h.sound.apart j' hj' j hj n' hsub h.this)

lemma Entering.valid {j' : Nat} (hj' : j' < pageCount levels) :
    ∃ sec, s.sections[s.find levels j']? = some sec := by
  by_cases hne : j' = j
  · obtain ⟨sec, hsec, -⟩ := h.this
    exact ⟨sec, by rw [hne]; exact hsec⟩
  · exact (h.page j' hj' hne).valid h.sound

/-- **a piece of a page that has a subpage** -/
theorem enterSubpage_maps (hj : j < pageCount levels) (hp : Piece levels sec m)
    (hl : s.sections.length + 1 ≤ l) (hpage : sec.offsetWithinAddressSpace.toNat / pageSize = j)
    (hfit : ((sec.offsetWithinAddressSpace.toNat % pageSize : Nat) : Int) + sec.size ≤ pageSize) :
    MapsOrFull levels l (enterSubpage n sec s) (overlay sec m) := by
  obtain ⟨mr, hmr⟩ := hp.mr
  have hpos := hp.pos
  obtain ⟨z, hz⟩ : ∃ z : Nat, sec.size = z := Int.eq_ofNat_of_zero_le (Int.le_of_lt hpos)
  obtain ⟨start, hstart⟩ : ∃ start, sec.offsetWithinAddressSpace.toNat % pageSize = start :=
    ⟨_, rfl⟩
  have hbyte : sec.offsetWithinAddressSpace.toNat = j * 4096 + start := by
    unfold pageSize at hpage hstart
    omega
  rw [hstart] at hfit
  unfold pageSize at hfit
  have hget := get64_natCast (show z < 2 ^ 64 by omega)
  have hlast : (BitVec.ofNat 64 start + BitVec.ofNat 64 z - 1).toNat % 2 ^ 32 = start + z - 1 := by
    rw [BitVec.toNat_sub, BitVec.toNat_add, BitVec.toNat_ofNat, BitVec.toNat_ofNat]
    show (2 ^ 64 - 1 + _) % 2 ^ 64 % 2 ^ 32 = _
    omega
  unfold enterSubpage
  rw [hz, hget]
  rcases physSectionAdd_cases sec s with ⟨hge, hfull⟩ | ⟨hlt, hadd⟩
  · left
    rw [hfull]
    exact ⟨rfl, by omega⟩
  right
  have hin : ∀ j' o, o < pageSize → (sec.Has (j' * pageSize + o) ↔
      j' = j ∧ start ≤ o ∧ o ≤ start + z - 1) := by
    intro j' o ho
    unfold PhysSection.Has
    unfold pageSize at ho ⊢
    omega
  have hreg : subpageRegister start (start + z - 1) s.sections.length table =
      fun idx => if start ≤ idx ∧ idx ≤ start + z - 1 then s.sections.length else table idx := by
    unfold subpageRegister
    rw [if_neg (by unfold pageSize; omega)]
  obtain ⟨s', hs'⟩ : ∃ s' : PhysState, s' = { s with
      sections := s.sections ++ [sec]
      subpages := s.subpages.set n (subpageRegister start (start + z - 1) s.sections.length
        table) } := ⟨_, rfl⟩
  have hsections : s'.sections = s.sections ++ [sec] := by rw [hs']
  have hmono := sections_mono hsections
  have hfind : ∀ j, s'.find levels j = s.find levels j := fun j => by rw [hs']; rfl
  have hold : ∀ j' < pageCount levels, ∀ n', HasSubpage levels s' j' n' →
      HasSubpage levels s j' n' :=
    fun j' hj' n' hsub => subpage_of_append hsections (h.valid hj') (hfind j') hsub
  have hnlt : n < s.subpages.length := (List.getElem?_eq_some_iff.mp h.read).1
  have hnodes : s'.map.nodesNb = s.map.nodesNb := by rw [hs']
  refine ⟨s', ?_, ⟨h.sound.append hsections hlt (by rw [hs']; exact h.sound.own) (by omega)
    fun j₁ hj₁ j₂ hj₂ n' h1 h2 => h.sound.apart j₁ hj₁ j₂ hj₂ n' (hold j₁ hj₁ n' h1)
      (hold j₂ hj₂ n' h2), fun j' hj' => ?_⟩, (sections_length hsections).trans_le hl⟩
  · show Except.bind (physSectionAdd sec s) _ = _
    rw [hadd]
    show (match s.subpages[n]? with | none => _ | some table => _) = _
    rw [h.read, hs', hstart]
    rw [hlast]
    rfl
  · rw [hfind]
    by_cases hne : j' = j
    · subst hne
      obtain ⟨sec₀, hsec₀, hmr₀⟩ := h.this
      refine .sub (hmono _ _ hsec₀) hmr₀ (show s'.subpages[n]? = some _ by
        rw [hs']; exact List.getElem?_set_self hnlt) (fun o ho => ?_) ⟨start, ?_, ?_⟩
      · rw [hreg]
        dsimp only
        by_cases hr : start ≤ o ∧ o ≤ start + z - 1
        · rw [if_pos hr]
          exact .inr ⟨sec, mr, sections_new hsections, hmr, if_pos ((hin j' o ho).mpr ⟨rfl, hr⟩)⟩
        · rw [if_neg hr]
          exact (h.entries o ho).mono hmono (if_neg fun hh => hr ((hin j' o ho).mp hh).2)
      · unfold pageSize
        omega
      · have hstart' : start < pageSize := by unfold pageSize; omega
        rw [overlay, if_pos ((hin j' start hstart').mpr ⟨rfl, Nat.le_refl _, by omega⟩)]
        exact value_region hmr _
    · refine (h.page j' hj' hne).mono hmono (fun n' sec₀ hsec₀ hmr₀ table' ht => ?_) ?_
      · have hnn := h.other hj hj' hne ⟨sec₀, hsec₀, hmr₀⟩
        rw [hs']
        rw [List.getElem?_set_ne (Ne.symm hnn)]
        exact ht
      · intro o ho
        exact if_neg fun hh => hne ((hin j' o ho).mp hh).1

end

section
variable (hlevels : 0 < levels) (hle : levels ≤ 4) (h : MapsAs levels s m)
include hlevels hle h

lemma newSubpage_entering (hj : j < pageCount levels) (hfree : s.find levels j = sectionUnassigned)
    (hnone : ∀ o < pageSize, m (j * pageSize + o) = none) (hlt : s.sections.length < pageSize)
    (sub : PhysSection) (hsub : sub.mr = .subpage s.subpages.length) :
    ∃ s', setPages levels j 1 s.sections.length { s with
        sections := s.sections ++ [sub]
        subpages := s.subpages ++ [fun _ => sectionUnassigned] } = .ok s' ∧
      s'.sections.length = s.sections.length + 1 ∧
      Entering levels s' m j s.subpages.length (fun _ => sectionUnassigned) := by
  obtain ⟨s', hok, hsections, hsubpages, hown, hnodes, hfind⟩ := addPages_spec
    hlevels hle h.sound hlt sub (s.subpages ++ [fun _ => sectionUnassigned]) Nat.one_pos
    (show j + 1 ≤ pageCount levels from hj) fun j' h1 h2 => by
      rw [show j' = j by omega]
      exact hfree
  have hnew := sections_new hsections
  have hthis : s'.find levels j = s.sections.length := by
    rw [hfind j hj, if_pos ⟨Nat.le_refl _, Nat.lt_succ_self _⟩]
  have hkeep : ∀ j' < pageCount levels, j' ≠ j → s'.find levels j' = s.find levels j' := by
    intro j' hj' hne
    rw [hfind j' hj', if_neg (by omega)]
  -- the subpages of the other pages are old ones
  have hold : ∀ j' < pageCount levels, j' ≠ j → ∀ n, HasSubpage levels s' j' n →
      HasSubpage levels s j' n ∧ n < s.subpages.length := by
    intro j' hj' hne n hn
    have hs := subpage_of_append hsections ((h.page j' hj').valid h.sound) (hkeep j' hj' hne) hn
    exact ⟨hs, h.subpage_lt hj' hs⟩
  have hown' : ∀ n, HasSubpage levels s' j n → n = s.subpages.length := by
    rintro n ⟨sec, hsec, hmr⟩
    rw [hthis, hnew] at hsec
    cases hsec
    rw [hsub] at hmr
    cases hmr
    rfl
  refine ⟨s', hok, sections_length hsections,
    h.sound.append hsections hlt hown hnodes fun j₁ hj₁ j₂ hj₂ n h1 h2 => ?_,
    fun j' hj' hne => ?_, ⟨sub, by rw [hthis]; exact hnew, hsub⟩, ?_,
    fun o ho => .inl ⟨rfl, hnone o ho⟩⟩
  · by_cases e₁ : j₁ = j
    · by_cases e₂ : j₂ = j
      · rw [e₁, e₂]
      · rw [e₁] at h1
        have := hown' n h1
        have := (hold j₂ hj₂ e₂ n h2).2
        omega
    · by_cases e₂ : j₂ = j
      · rw [e₂] at h2
        have := hown' n h2
        have := (hold j₁ hj₁ e₁ n h1).2
        omega
      · exact h.sound.apart j₁ hj₁ j₂ hj₂ n (hold j₁ hj₁ e₁ n h1).1 (hold j₂ hj₂ e₂ n h2).1
  · rw [hkeep j' hj' hne]
    refine (h.page j' hj').mono (sections_mono hsections) (fun n sec _ _ table ht => ?_)
      fun o ho => rfl
    rw [hsubpages]
    exact getElem?_append_some ht
  · rw [hsubpages, List.getElem?_concat_length]

/-- **a piece of a page** -/
theorem registerSubpage_maps (hp : Piece levels sec m) (hl : s.sections.length + 2 ≤ l)
    (hfit : ((sec.offsetWithinAddressSpace.toNat % pageSize : Nat) : Int) + sec.size ≤ pageSize) :
    MapsOrFull levels l (registerSubpage levels sec s) (overlay sec m) := by
  have hpos := hp.pos
  have htop := hp.le
  have hj : sec.offsetWithinAddressSpace.toNat / pageSize < pageCount levels := by
    unfold pageSize at htop ⊢
    omega
  have hfirst : m (sec.offsetWithinAddressSpace.toNat / pageSize * pageSize +
      sec.offsetWithinAddressSpace.toNat % pageSize) = none := by
    rw [page_of]
    refine hp.free _ ⟨Int.le_refl _, ?_⟩
    omega
  have ho : sec.offsetWithinAddressSpace.toNat % pageSize < pageSize := Nat.mod_lt _ (by decide)
  unfold registerSubpage
  dsimp only
  rcases h.page _ hj with ⟨hi, hnone⟩ | ⟨-, hmr, hval⟩ | ⟨hsec, hmr, htable, hval, -⟩
  · obtain ⟨sec₀, hsec₀, hmr₀⟩ := h.sound.zero
    rw [hi, hsec₀]
    dsimp only
    rw [hmr₀]
    unfold physSectionAdd
    by_cases hlt : s.sections.length < pageSize
    · rw [if_pos hlt]
      obtain ⟨s', hok, hlen, hent⟩ := newSubpage_entering hlevels hle h hj hi hnone hlt
        { mr := .subpage s.subpages.length,
          offsetWithinAddressSpace := BitVec.ofNat 64
            (sec.offsetWithinAddressSpace.toNat / pageSize * pageSize),
          offsetWithinRegion := 0, size := pageSize, readonly := false } rfl
      show MapsOrFull levels l (Except.bind (setPages levels _ 1 s.sections.length _) _) _
      rw [hok]
      exact enterSubpage_maps hent hj hp (by omega) rfl hfit
    · left
      rw [if_neg hlt]
      exact ⟨rfl, by omega⟩
  · exact absurd ((hval _ ho).symm.trans hfirst) (value_region hmr _)
  · rw [hsec]
    dsimp only
    rw [hmr]
    exact enterSubpage_maps ⟨h.sound, fun j' hj' _ => h.page j' hj', ⟨_, hsec, hmr⟩, htable, hval⟩
      hj hp (by omega) rfl hfit

end

end

/-! ## one section -/

/-- `z` bytes of the section, `d` bytes behind its beginning -/
def PhysSection.part (sec : PhysSection) (d : Nat) (z : Int) : PhysSection :=
  { sec with
    offsetWithinAddressSpace := sec.offsetWithinAddressSpace + BitVec.ofNat 64 d
    offsetWithinRegion := sec.offsetWithinRegion + BitVec.ofNat 64 d
    size := z }

section
variable {levels : Nat} {s : PhysState} {m : AddrMap}

lemma part_zero (sec : PhysSection) (z : Int) : sec.part 0 z = { sec with size := z } := by
  unfold PhysSection.part
  rw [BitVec.add_zero, BitVec.add_zero]

lemma part_value (sec : PhysSection) (d : Nat) (z : Int) (a : Nat) :
    (sec.part d z).value a = sec.value a := by
  unfold PhysSection.value PhysSection.part
  cases sec.mr with
  | region mr =>
    have hoff : sec.offsetWithinRegion + BitVec.ofNat 64 d +
        (BitVec.ofNat 64 a - (sec.offsetWithinAddressSpace + BitVec.ofNat 64 d)) =
          sec.offsetWithinRegion + (BitVec.ofNat 64 a - sec.offsetWithinAddressSpace) := by
      bv_omega
    rw [hoff]
  | _ => rfl

variable {d : Nat}

section
variable (hp : Piece levels sec m) (hle : levels ≤ 4)
include hp hle

lemma part_toNat (hd : d ≤ sec.size) : (sec.offsetWithinAddressSpace + BitVec.ofNat 64 d).toNat =
      sec.offsetWithinAddressSpace.toNat + d := by
  have htop := hp.le
  have hpages := pageCount_le hle
  rw [BitVec.toNat_add, BitVec.toNat_ofNat]
  unfold pageSize at htop
  omega

lemma part_has {z : Int} (hd : d ≤ sec.size) (a : Nat) : (sec.part d z).Has a ↔
      (sec.offsetWithinAddressSpace.toNat : Int) + d ≤ a ∧
        (a : Int) < sec.offsetWithinAddressSpace.toNat + d + z := by
  unfold PhysSection.Has PhysSection.part
  rw [part_toNat hp hle hd]
  push_cast
  rfl

lemma Piece.part {z : Int} (hz : 0 < z) (hd : d + z ≤ sec.size) :
    Piece levels (sec.part d z) (overlay (sec.part 0 d) m) := by
  refine ⟨hp.mr, hz, ?_, fun a ha => ?_⟩
  · show ((sec.offsetWithinAddressSpace + BitVec.ofNat 64 d).toNat : Int) + z ≤ _
    rw [part_toNat hp hle (by omega)]
    have := hp.le
    omega
  · rw [part_has hp hle (by omega)] at ha
    rw [overlay, if_neg (by rw [part_has hp hle (by omega)]; omega)]
    refine hp.free a ?_
    unfold PhysSection.Has
    omega

lemma overlay_part (hd : ((d + n : Nat) : Int) ≤ sec.size) :
    overlay (sec.part d n) (overlay (sec.part 0 d) m) =
      overlay (sec.part 0 ((d + n : Nat) : Int)) m := by
  funext a
  unfold overlay
  simp only [part_value, part_has hp hle (show ((d : Nat) : Int) ≤ sec.size by omega),
    part_has hp hle (show ((0 : Nat) : Int) ≤ sec.size by omega)]
  split
  next h => rw [if_pos (by push_cast; omega)]
  next h =>
    split
    next h' => rw [if_pos (by push_cast; omega)]
    next h' => rw [if_neg (by push_cast; omega)]

end

lemma skip_part (sec : PhysSection) (d n : Nat) (z : Int) :
    (sec.part d z).skip n (BitVec.ofNat 64 n) = sec.part (d + n) (z - n) := by
  unfold PhysSection.part PhysSection.skip
  rw [BitVec.ofNat_add, BitVec.add_assoc, BitVec.add_assoc]

lemma memAddLoop_round (hp : Piece levels sec m) (hle : levels ≤ 4) (fuel : Nat)
    (hn : ((d + n : Nat) : Int) < sec.size) (s : PhysState) :
    memAddLoop levels (fuel + 1) (sec.part d (sec.size - d)) n s =
      (let remain := sec.part (d + n) (sec.size - (d + n : Nat))
      if remain.size < (pageSize : Int) then do
        let s ← registerSubpage levels remain s
        memAddLoop levels fuel remain remain.size s
      else if remain.offsetWithinAddressSpace.toNat % pageSize ≠ 0 then do
        let s ← registerSubpage levels { remain with size := pageSize } s
        memAddLoop levels fuel remain pageSize s
      else do
        let now := remain.size / pageSize * pageSize
        let s ← registerMultipage levels { remain with size := now } s
        memAddLoop levels fuel remain now s) := by
  have htop := hp.le
  have hpages := pageCount_le hle
  have hget := get64_natCast (show n < 2 ^ 64 by unfold pageSize at htop; omega)
  rw [memAddLoop, if_neg (show ¬ (sec.part d (sec.size - d)).size = n by
    show ¬ sec.size - d = n
    omega), hget]
  have hsize : sec.size - (d : Int) - n = sec.size - ((d + n : Nat) : Int) := by
    push_cast
    omega
  rw [← hsize, ← skip_part]
  rfl

lemma memAddLoop_done (fuel : Nat) (remain : PhysSection) (s : PhysState) :
    memAddLoop levels (fuel + 1) remain remain.size s = .ok s := by
  rw [memAddLoop, if_pos rfl]

lemma overlay_all (hd : (d : Int) = sec.size) : overlay (sec.part 0 d) m = overlay sec m := by
  rw [part_zero, hd]

section
variable (hlevels : 0 < levels) (hle : levels ≤ 4)
include hlevels hle

lemma memAddLoop_end (hp : Piece levels sec m) (fuel : Nat)
    (hn : ((d + n : Nat) : Int) ≤ sec.size) (hrest : sec.size - ((d + n : Nat) : Int) < pageSize)
    (haligned : (sec.offsetWithinAddressSpace.toNat + (d + n)) % pageSize = 0 ∨
      ((d + n : Nat) : Int) = sec.size)
    (h : MapsAs levels s (overlay (sec.part 0 ((d + n : Nat) : Int)) m))
    (hl : s.sections.length + 2 ≤ l) :
    MapsOrFull levels l (memAddLoop levels (fuel + 2) (sec.part d (sec.size - d)) n s)
      (overlay sec m) := by
  by_cases hdone : ((d + n : Nat) : Int) = sec.size
  · right
    rw [overlay_all hdone] at h
    refine ⟨s, ?_, h, by omega⟩
    have hsize : (n : Int) = (sec.part d (sec.size - d)).size := by
      show (n : Int) = sec.size - d
      omega
    rw [hsize]
    exact memAddLoop_done _ _ _
  · have hoff := part_toNat hp hle hn
    obtain ⟨k, hk⟩ : ∃ k : Nat, sec.size - ((d + n : Nat) : Int) = k :=
      Int.eq_ofNat_of_zero_le (by omega)
    rw [memAddLoop_round hp hle (fuel + 1) (by omega)]
    rw [if_pos (show (sec.part (d + n) (sec.size - ((d + n : Nat) : Int))).size < _ from hrest), hk]
    have hpiece := hp.part hle (d := d + n) (z := k) (by omega) (by omega)
    have hfit : (((sec.part (d + n) k).offsetWithinAddressSpace.toNat % pageSize : Nat) : Int) +
        (sec.part (d + n) k).size ≤ pageSize := by
      show (((sec.offsetWithinAddressSpace + BitVec.ofNat 64 (d + n)).toNat % pageSize : Nat) :
        Int) + k ≤ _
      rw [hoff]
      omega
    refine (registerSubpage_maps hlevels hle h hpiece hl hfit).bind (Nat.le_refl _)
      fun s' hmaps hlen => .inr ⟨s', ?_, ?_, hlen⟩
    · exact memAddLoop_done fuel (sec.part (d + n) k) s'
    · rwa [overlay_part hp hle (by push_cast at *; omega),
        overlay_all (by push_cast at *; omega)] at hmaps

lemma memAddLoop_maps (hp : Piece levels sec m) (hn : (n : Int) ≤ sec.size)
    (haligned : (sec.offsetWithinAddressSpace.toNat + n) % pageSize = 0 ∨ (n : Int) = sec.size)
    (h : MapsAs levels s (overlay (sec.part 0 n) m)) (hl : s.sections.length + 3 ≤ l) :
    MapsOrFull levels l (memAddLoop levels 3 sec n s) (overlay sec m) := by
  have hsec : sec = sec.part 0 (sec.size - (0 : Nat)) := by
    rw [part_zero, Int.natCast_zero, Int.sub_zero]
  have hzero : 0 + n = n := Nat.zero_add n
  by_cases hrest : sec.size - (n : Int) < pageSize
  · have hend := memAddLoop_end (d := 0) (n := n) hlevels hle hp 1 (by rw [hzero]; exact hn)
      (by rw [hzero]; exact hrest) (by rw [hzero]; exact haligned) (by rw [hzero]; exact h)
      (show s.sections.length + 2 ≤ l by omega)
    rw [← hsec] at hend
    exact hend
  · -- whole pages, and then the rest
    have hlt : ((0 + n : Nat) : Int) < sec.size := by
      unfold pageSize at hrest
      omega
    have hoff := part_toNat hp hle hn
    have hal := haligned.resolve_right (by rw [hzero] at hlt; omega)
    have hround := memAddLoop_round hp hle 2 (d := 0) hlt s
    rw [← hsec, hzero] at hround
    rw [hround]
    rw [if_neg (show ¬ (sec.part n (sec.size - n)).size < _ from hrest),
      if_neg (show ¬ (sec.part n (sec.size - n)).offsetWithinAddressSpace.toNat % pageSize ≠ 0 by
        show ¬ (sec.offsetWithinAddressSpace + BitVec.ofNat 64 n).toNat % pageSize ≠ 0
        rw [hoff, hal]
        exact not_not_intro rfl)]
    obtain ⟨k, hk⟩ : ∃ k : Nat, (sec.size - (n : Int)) / (pageSize : Int) = k :=
      Int.eq_ofNat_of_zero_le (Int.ediv_nonneg (by unfold pageSize at hrest; omega) (by decide))
    have hnow : (sec.part n (sec.size - n)).size / (pageSize : Int) * (pageSize : Int) =
        ((4096 * k : Nat) : Int) := by
      show (sec.size - (n : Int)) / (pageSize : Int) * (pageSize : Int) = _
      rw [hk]
      unfold pageSize
      push_cast
      omega
    have hk' : (sec.size - (n : Int)) / 4096 = k := hk
    rw [hnow]
    have hpos : 0 < k := by unfold pageSize at hrest; omega
    have hpiece := hp.part hle (d := n) (z := ((4096 * k : Nat) : Int)) (by omega) (by omega)
    have hpages : MapsOrFull levels (s.sections.length + 1) (registerMultipage levels
        (sec.part n (4096 * k : Nat)) s)
        (overlay (sec.part n (4096 * k : Nat)) (overlay (sec.part 0 n) m)) := by
      refine registerMultipage_maps hlevels hle h hpiece (Nat.le_refl _) ?_ ?_
      · show (sec.offsetWithinAddressSpace + BitVec.ofNat 64 n).toNat % pageSize = 0
        rw [hoff, hal]
      · show ((4096 * k : Nat) : Int) % (pageSize : Int) = 0
        unfold pageSize
        omega
    rw [overlay_part hp hle (by push_cast; omega)] at hpages
    exact hpages.bind (by omega) fun s' hmaps hlen => memAddLoop_end hlevels hle hp 0
      (by push_cast; omega) (by unfold pageSize; push_cast; omega)
      (.inl (by unfold pageSize at hal ⊢; omega)) hmaps (by omega)

/-- **one section** -/
theorem memAdd_maps (h : MapsAs levels s m) (hp : Piece levels sec m)
    (hl : s.sections.length + 5 ≤ l) :
    MapsOrFull levels l (memAdd levels sec s) (overlay sec m) := by
  have hpos := hp.pos
  have hnone : overlay (sec.part 0 0) m = m := by
    funext a
    refine if_neg fun ha => ?_
    have := (part_has hp hle (show ((0 : Nat) : Int) ≤ sec.size by omega) a).mp ha
    omega
  unfold memAdd
  split
  next hun =>
    obtain ⟨n, hn⟩ : ∃ n : Nat, min (leftInPage sec.offsetWithinAddressSpace : Int) sec.size = n :=
      Int.eq_ofNat_of_zero_le (by omega)
    unfold leftInPage pageSize at hn
    have hpiece := hp.part hle (d := 0) (z := n) (by omega) (by omega)
    have hpart := part_zero sec (n : Int)
    rw [show overlay (sec.part 0 ((0 : Nat) : Int)) m = m from hnone] at hpiece
    have hnow : min (leftInPage sec.offsetWithinAddressSpace : Int) sec.size = n := hn
    dsimp only
    rw [hnow]
    have hfirst := registerSubpage_maps hlevels hle h hpiece (Nat.le_refl _) (by
      rw [hpart]
      dsimp only
      unfold pageSize
      omega)
    rw [← hpart]
    exact hfirst.bind (by omega) fun s' hmaps hlen =>
      memAddLoop_maps hlevels hle hp (by omega) (by unfold pageSize; omega) hmaps (by omega)
  next hal =>
    refine memAddLoop_maps (n := 0) hlevels hle hp (by omega) (.inl ?_) ?_ (by omega)
    · rw [Nat.add_zero]
      exact Decidable.not_not.mp hal
    · rw [show overlay (sec.part 0 ((0 : Nat) : Int)) m = m from hnone]
      exact h

end

end

/-! ## the sections of a map -/

/-- the section that the listener is called with -/
def PhysSection.of (sec : MemoryRegionSection) : PhysSection where
  mr := .region sec.mr
  offsetWithinAddressSpace := sec.offsetWithinAddressSpace
  offsetWithinRegion := sec.offsetWithinRegion
  size := sec.size
  readonly := sec.readonly

def memAddAll (levels : Nat) (secs : List MemoryRegionSection) (s : PhysState) :
    Except Fault PhysState := secs.foldlM (fun s sec => memAdd levels (.of sec) s) s

/-- after `mem_begin`, also when other address spaces have filled the arrays before -/
structure Fresh (s : PhysState) : Prop where
  root : s.root = ⟨false, nodeNil⟩
  nodes : s.map.nodesNb ≤ 7 * s.sections.length
  count : s.sections.length ≤ pageSize
  zero : ∃ sec, s.sections[sectionUnassigned]? = some sec ∧ sec.mr = .unassigned

lemma coreBegin_fresh : Fresh coreBegin :=
  ⟨rfl, by decide, by decide, _, rfl, rfl⟩

lemma MapsAs.fresh {levels : Nat} {s : PhysState} {m : AddrMap} (h : MapsAs levels s m) :
    Fresh (memBegin s) := ⟨rfl, h.sound.nodes, h.sound.count, h.sound.zero⟩

lemma Fresh.maps {levels : Nat} (hlevels : 0 < levels) {s : PhysState} (h : Fresh s) :
    MapsAs levels s fun _ => none := by
  obtain ⟨k, rfl⟩ := Nat.exists_eq_succ_of_ne_zero (Nat.ne_of_gt hlevels)
  have hfind : ∀ j, s.find (k + 1) j = sectionUnassigned := by
    intro j
    unfold PhysState.find
    rw [h.root]
    exact find_nil rfl rfl j
  refine ⟨⟨⟨∅, ?_, fun n hn => absurd hn (Set.notMem_empty n)⟩, h.nodes, h.count, h.zero, ?_⟩,
    fun j _ => .free (hfind j) fun _ _ => rfl⟩
  · rw [h.root]
    exact .inr (.inl ⟨rfl, rfl⟩)
  rintro j _ j' _ n ⟨sec, hsec, hmr⟩ -
  obtain ⟨sec₀, hsec₀, hmr₀⟩ := h.zero
  rw [hfind, hsec₀] at hsec
  cases hsec
  rw [hmr₀] at hmr
  cases hmr

/-- where the addresses of the tree end -/
def treeSize (levels : Nat) : Nat := pageCount levels * pageSize

lemma treeSize_pos (levels : Nat) : 0 < treeSize levels :=
  Nat.mul_pos (Nat.pow_pos (by decide)) (by decide)

/-- the sections are not empty, lie below `top` and share no address -/
structure Mappable (top : Nat) (secs : List MemoryRegionSection) : Prop where
  pos : ∀ sec ∈ secs, 0 < sec.size
  le : ∀ sec ∈ secs, sec.offsetWithinAddressSpace.toNat + sec.size ≤ (top : Int)
  apart : secs.Pairwise fun sec sec' =>
    ∀ a, ¬ ((PhysSection.of sec).Has a ∧ (PhysSection.of sec').Has a)

section
variable {levels : Nat} {s : PhysState} {m : AddrMap} {secs : List MemoryRegionSection}

/-- **all sections**: the addresses of each get its value -/
theorem memAddAll_maps (hlevels : 0 < levels) (hle : levels ≤ 4)
    (hsecs : Mappable (treeSize levels) secs)
    (hfree : ∀ sec ∈ secs, ∀ a, (PhysSection.of sec).Has a → m a = none) (h : MapsAs levels s m) :
    (memAddAll levels secs s = .error .sectionsFull ∧
      pageSize < s.sections.length + 5 * secs.length) ∨
      ∃ s' m', memAddAll levels secs s = .ok s' ∧ MapsAs levels s' m' ∧
        (∀ sec ∈ secs, ∀ a, (PhysSection.of sec).Has a → m' a = (PhysSection.of sec).value a) ∧
        ∀ a, (∀ sec ∈ secs, ¬ (PhysSection.of sec).Has a) → m' a = m a := by
  induction secs generalizing s m with
  | nil =>
    exact .inr ⟨s, m, rfl, h, fun sec hsec => absurd hsec List.not_mem_nil, fun _ _ => rfl⟩
  | cons sec secs ih =>
    obtain ⟨hpos, hpos'⟩ := List.forall_mem_cons.mp hsecs.pos
    obtain ⟨htop, htop'⟩ := List.forall_mem_cons.mp hsecs.le
    obtain ⟨hapart, hapart'⟩ := List.pairwise_cons.mp hsecs.apart
    obtain ⟨hfree₀, hfree'⟩ := List.forall_mem_cons.mp hfree
    unfold memAddAll
    rw [List.foldlM_cons]
    rw [List.length_cons]
    rcases memAdd_maps hlevels hle h ⟨⟨sec.mr, rfl⟩, hpos, htop, hfree₀⟩ (Nat.le_refl _) with
      ⟨hfull, hlen⟩ | ⟨s₁, hok, hmaps, hlen⟩
    · left
      rw [hfull]
      exact ⟨rfl, by omega⟩
    rw [hok]
    have hfree₁ : ∀ sec' ∈ secs, ∀ a, (PhysSection.of sec').Has a →
        overlay (.of sec) m a = none := by
      intro sec' hsec' a ha
      rw [overlay, if_neg fun ha' => hapart sec' hsec' a ⟨ha', ha⟩]
      exact hfree' sec' hsec' a ha
    rcases ih ⟨hpos', htop', hapart'⟩ hfree₁ hmaps with
      ⟨hfull, hlen'⟩ | ⟨s', m', hok', hmaps', hin, hout⟩
    · left
      exact ⟨hfull, by omega⟩
    right
    refine ⟨s', m', hok', hmaps', fun sec' hsec' a ha => ?_, fun a ha => ?_⟩
    · rcases List.mem_cons.mp hsec' with rfl | hsec'
      · rw [hout a fun sec' hsec' ha' => hapart sec' hsec' a ⟨ha, ha'⟩, overlay, if_pos ha]
      · exact hin sec' hsec' a ha
    · obtain ⟨ha₀, ha'⟩ := List.forall_mem_cons.mp ha
      rw [hout a ha', overlay, if_neg ha₀]

end

/-- the section has the region and the offset of the section of the map that contains the address,
or it is the unassigned one if there is none -/
structure RightSection (secs : List MemoryRegionSection) (addr : Nat) (sec : PhysSection) :
    Prop where
  assigned : ∀ v ∈ secs, (PhysSection.of v).Has addr → sec.mr = .region v.mr ∧
    sec.offsetWithinRegion + (BitVec.ofNat 64 addr - sec.offsetWithinAddressSpace) =
      v.offsetWithinRegion + (BitVec.ofNat 64 addr - v.offsetWithinAddressSpace) ∧
    sec.readonly = v.readonly
  unassigned : (∀ v ∈ secs, ¬ (PhysSection.of v).Has addr) → sec.mr = .unassigned

/-- no assertion fails, and the addresses below `top` are looked up as in the map -/
def Dispatches (levels : Nat) (secs : List MemoryRegionSection) (top : Nat) (s : PhysState) : Prop :=
  ∃ s', memAddAll levels secs s = .ok s' ∧ ∀ addr < top,
    ∃ sec, addressSpaceLookupRegion levels s' addr = some sec ∧ RightSection secs addr sec

/-- the sections end where the tree ends, and no address below `top` comes around to one -/
def InTree (levels : Nat) (secs : List MemoryRegionSection) (top : Nat) : Prop :=
  ∀ v ∈ secs, ∀ a, (PhysSection.of v).Has a → a < treeSize levels ∧ top ≤ a + treeSize levels

section
variable {levels top : Nat} (hlevels : 0 < levels) (hle : levels ≤ 4) {s : PhysState}
  {secs : List MemoryRegionSection}

include hlevels hle in
lemma memAddAll_right (hs : Fresh s) (hsecs : Mappable (treeSize levels) secs)
    (hcount : s.sections.length + 5 * secs.length ≤ pageSize) :
    Dispatches levels secs (treeSize levels) s := by
  rcases memAddAll_maps hlevels hle hsecs (fun _ _ _ _ => rfl) (hs.maps hlevels) with
    ⟨-, hfull⟩ | ⟨s', m', hok, hmaps, hin, hout⟩
  · omega
  refine ⟨s', hok, fun addr haddr => ?_⟩
  obtain ⟨sec, hlook, hval, hnone⟩ := hmaps.lookup haddr
  refine ⟨sec, hlook, fun v hv ha => ?_, fun ha => hnone (hout addr ha)⟩
  have hv' := hval.trans (hin v hv addr ha)
  unfold PhysSection.value at hv'
  cases hmr : sec.mr with
  | region mr =>
    rw [hmr] at hv'
    obtain ⟨h1, h2, h3⟩ : mr = v.mr ∧ _ ∧ _ := by
      simpa only [PhysSection.of, Option.some.injEq, Prod.mk.injEq] using hv'
    exact ⟨congrArg _ h1, h2, h3⟩
  | _ =>
    rw [hmr] at hv'
    cases hv'

/-- **the lookup does not see the bits above the tree** -/
theorem lookup_mod (levels : Nat) (s : PhysState) (addr : Nat) :
    addressSpaceLookupRegion levels s (addr % treeSize levels) =
      addressSpaceLookupRegion levels s addr := by
  have hpage : addr % treeSize levels / pageSize = addr / pageSize % pageCount levels :=
    Nat.mod_mul_left_div_self _ _ _
  have hbyte : addr % treeSize levels % pageSize = addr % pageSize :=
    Nat.mod_mod_of_dvd _ (Nat.dvd_mul_left _ _)
  unfold addressSpaceLookupRegion PhysState.find pageCount at *
  rw [hpage, hbyte, find_mod (Nat.le_refl levels)]

include hle in
lemma treeSize_dvd : treeSize levels ∣ 2 ^ 64 := by
  refine (Nat.mul_dvd_mul_right (pow_dvd_pow l2Size hle) pageSize).trans ?_
  decide +kernel

/-- no region is larger than the tree -/
def RegionsFit (levels : Nat) (secs : List MemoryRegionSection) : Prop :=
  ∀ v ∈ secs, v.offsetWithinRegion.toNat + v.size ≤ (treeSize levels : Int)

lemma offset_lt (hfit : RegionsFit levels secs) {v : MemoryRegionSection} (hv : v ∈ secs) {a : Nat}
    (ha : (PhysSection.of v).Has a) (ha64 : a < 2 ^ 64) :
    (v.offsetWithinRegion + (BitVec.ofNat 64 a - v.offsetWithinAddressSpace)).toNat <
      treeSize levels := by
  obtain ⟨h1, h2⟩ : (v.offsetWithinAddressSpace.toNat : Int) ≤ a ∧
    (a : Int) < v.offsetWithinAddressSpace.toNat + v.size := ha
  have h3 := hfit v hv
  have hsub : (BitVec.ofNat 64 a - v.offsetWithinAddressSpace).toNat =
      a - v.offsetWithinAddressSpace.toNat := by
    rw [BitVec.toNat_sub_of_le (by rw [BitVec.le_def, BitVec.toNat_ofNat]; omega),
      BitVec.toNat_ofNat, Nat.mod_eq_of_lt ha64]
  rw [BitVec.toNat_add, hsub]
  have := Nat.mod_le (v.offsetWithinRegion.toNat + (a - v.offsetWithinAddressSpace.toNat)) (2 ^ 64)
  omega

include hle in
lemma right_once (hfit : RegionsFit levels secs) {v : MemoryRegionSection} (hv : v ∈ secs)
    {a b : Nat} (ha : (PhysSection.of v).Has a) (ha64 : a < 2 ^ 64) (hb64 : b < 2 ^ 64)
    (hmod : b % treeSize levels = a % treeSize levels) {sec : PhysSection}
    (hright : RightSection secs a sec) (hright' : RightSection secs b sec) : b = a := by
  obtain ⟨hmr, hoff, -⟩ := hright.assigned v hv ha
  by_cases hnone : ∀ w ∈ secs, ¬ (PhysSection.of w).Has b
  · have := hright'.unassigned hnone
    rw [hmr] at this
    cases this
  push Not at hnone
  obtain ⟨w, hw, hb⟩ := hnone
  obtain ⟨-, hoff', -⟩ := hright'.assigned w hw hb
  have hlt := offset_lt hfit hv ha ha64
  have hlt' := offset_lt hfit hw hb hb64
  generalize v.offsetWithinRegion + (BitVec.ofNat 64 a - v.offsetWithinAddressSpace) = o at *
  generalize w.offsetWithinRegion + (BitVec.ofNat 64 b - w.offsetWithinAddressSpace) = o' at *
  -- the offsets differ by as much as the addresses, and are equal modulo the size of the tree
  have hsum : o' + BitVec.ofNat 64 a = o + BitVec.ofNat 64 b := by
    rw [← hoff, ← hoff']
    bv_omega
  have hnat : (o'.toNat + a) % 2 ^ 64 = (o.toNat + b) % 2 ^ 64 := by
    have := congrArg BitVec.toNat hsum
    simpa only [BitVec.toNat_add, BitVec.toNat_ofNat, Nat.add_mod_mod] using this
  have hsame : o'.toNat ≡ o.toNat [MOD treeSize levels] := by
    have h1 : o'.toNat + a ≡ o.toNat + b [MOD treeSize levels] :=
      Nat.ModEq.of_dvd (treeSize_dvd hle) hnat
    exact Nat.ModEq.add_right_cancel' a (h1.trans (Nat.ModEq.add_left _ hmod))
  have ho : o'.toNat = o.toNat := Nat.ModEq.eq_of_lt_of_lt hsame hlt' hlt
  rw [ho] at hnat
  omega

include hlevels hle in
lemma InTree.dispatches (hcond : InTree levels secs top) (hs : Fresh s) (hsecs : Mappable top secs)
    (hcount : s.sections.length + 5 * secs.length ≤ pageSize) : Dispatches levels secs top s := by
  have hmap : Mappable (treeSize levels) secs := by
    refine ⟨hsecs.pos, fun v hv => ?_, hsecs.apart⟩
    have hpos := hsecs.pos v hv
    obtain ⟨z, hz⟩ : ∃ z : Nat, v.size = z := Int.eq_ofNat_of_zero_le (Int.le_of_lt hpos)
    have hlast := (hcond v hv (v.offsetWithinAddressSpace.toNat + z - 1)
      ⟨by show (v.offsetWithinAddressSpace.toNat : Int) ≤ _; omega,
        by show _ < (v.offsetWithinAddressSpace.toNat : Int) + v.size; omega⟩).1
    omega
  obtain ⟨s', hok, hright⟩ := memAddAll_right hlevels hle hs hmap hcount
  refine ⟨s', hok, fun addr haddr => ?_⟩
  by_cases hlow : addr < treeSize levels
  · exact hright addr hlow
  · obtain ⟨sec, hlook, hsec⟩ := hright (addr % treeSize levels) (Nat.mod_lt _ (treeSize_pos _))
    rw [lookup_mod] at hlook
    refine ⟨sec, hlook, fun v hv ha => absurd (hcond v hv addr ha).1 hlow, fun _ => ?_⟩
    refine hsec.unassigned fun v hv ha => ?_
    have hround := (hcond v hv _ ha).2
    have := Nat.mod_add_div addr (treeSize levels)
    have hdiv : 1 ≤ addr / treeSize levels := Nat.div_pos (Nat.le_of_not_lt hlow) (treeSize_pos _)
    have := Nat.mul_le_mul_left (treeSize levels) hdiv
    omega

include hle in
lemma Dispatches.inTree (h : Dispatches levels secs top s) (htop : top ≤ 2 ^ 64)
    (hsecs : Mappable top secs) (hfit : RegionsFit levels secs) : InTree levels secs top := by
  intro v hv a ha
  obtain ⟨s', -, hright⟩ := h
  have hle' := hsecs.le v hv
  have h2 : (a : Int) < v.offsetWithinAddressSpace.toNat + v.size := ha.2
  obtain ⟨sec, hlook, hsec⟩ := hright a (by omega)
  have honce : ∀ b < top, b % treeSize levels = a % treeSize levels → b = a := by
    intro b hb hmod
    obtain ⟨sec', hlook', hsec'⟩ := hright b hb
    rw [← lookup_mod, hmod, lookup_mod, hlook] at hlook'
    cases hlook'
    exact right_once hle hfit hv ha (by omega) (by omega) hmod hsec hsec'
  have hlow : a < treeSize levels := by
    have := Nat.mod_lt a (treeSize_pos levels)
    have := Nat.mod_le a (treeSize levels)
    have := honce (a % treeSize levels) (by omega) (Nat.mod_mod _ _)
    omega
  refine ⟨hlow, Nat.le_of_not_lt fun hlt => ?_⟩
  have := honce _ hlt (Nat.add_mod_right _ _)
  omega

end

/-- **the dispatch is right if the sections are inside of the tree, and only then**, unless a region
is larger than the tree -/
theorem dispatch_correct (levels : Nat) (hlevels : 0 < levels) (hle : levels ≤ 4)
    (s : PhysState) (hs : Fresh s) (secs : List MemoryRegionSection) (top : Nat)
    (htop : top ≤ 2 ^ 64) (hsecs : Mappable top secs)
    (hcount : s.sections.length + 5 * secs.length ≤ pageSize) :
    (InTree levels secs top → Dispatches levels secs top s) ∧
    (RegionsFit levels secs → Dispatches levels secs top s → InTree levels secs top) :=
  ⟨fun h => h.dispatches hlevels hle hs hsecs hcount, fun hfit h => h.inTree hle htop hsecs hfit⟩

/-- 0x1800 bytes of RAM at 0x800, and a device behind them -/
def twoSections : List MemoryRegionSection :=
  [⟨1, 0, 0, 0x1800, 0x800, false⟩, ⟨2, 0, 0x10, 0x20, 0x2000, false⟩]

theorem dispatch_correct_two : Dispatches 4 twoSections (2 ^ 52) coreBegin := by
  refine (dispatch_correct 4 (by decide) (by decide) coreBegin coreBegin_fresh twoSections _
    (by decide) ⟨by decide, by decide, List.pairwise_pair.mpr fun a h => ?_⟩ (by decide)).1
    fun v hv a ha => ?_
  · have h1 : (a : Int) < 0x800 + 0x1800 := h.1.2
    have h2 : (0x2000 : Int) ≤ a := h.2.1
    omega
  · have hend : ∀ v ∈ twoSections, (v.offsetWithinAddressSpace.toNat : Int) + v.size ≤ 0x2020 := by
      decide
    have h1 := hend v hv
    have h2 : (a : Int) < v.offsetWithinAddressSpace.toNat + v.size := ha.2
    have h3 : treeSize 4 = 2 ^ 52 := by decide +kernel
    omega

/-- a page of RAM, and a device of `size` bytes -/
def ramAndDevice (at_ : Hwaddr) (size : Int) : List MemoryRegionSection :=
  [⟨1, 0, 0, 0x1000, 0x1000, false⟩, ⟨2, 0, 0, size, at_, false⟩]

/-- behind the end of the tree the addresses begin again: a device there fails an assertion or
takes the place of the RAM, and without it the RAM is found there -/
theorem lookup_wraps :
    (memAddAll 4 (ramAndDevice (2 ^ 52 + 0x1800) 0x10) coreBegin).map (fun _ => ()) =
      .error .assertion ∧
    (memAddAll 4 (ramAndDevice (2 ^ 52 + 0x1000) 0x1000) coreBegin).map (fun s =>
      (addressSpaceLookupRegion 4 s 0x1000).map (·.mr)) = .ok (some (.region 2)) ∧
    (memAddAll 4 (ramAndDevice 0x8000 0x1000) coreBegin).map (fun s =>
      (addressSpaceLookupRegion 4 s (2 ^ 52 + 0x1000)).map (·.mr)) = .ok (some (.region 1)) := by
  decide +kernel

end Phys
