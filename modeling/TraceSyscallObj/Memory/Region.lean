import TraceSyscallObj.Lib.Spans

/-!
# Memory regions and flat views

Model of the regions of `memory.c` and of `generate_memory_topology`.  A region is named by its
address, and the heap gives its fields.  `Int128` is `Int`: every value that is compared or added is
between -2^66 and 2^66, because a region that does not meet the clip is left at once.  The array of
a view is a list; the loop of `render_memory_region` walks it by index while it inserts.

* `renderLoop`, `renderInto`: the region itself goes into the gaps of the view;
* `renderMemoryRegion`: the walk over aliases and subregions, with the depth as fuel;
* `flatviewSimplify`: neighbours that can be merged are merged;
* `generateMemoryTopology`.
-/

namespace Memory

inductive Fault
  /-- an `assert` fails, such as `assert(!a.hi)` in `int128_get64` -/
  | assertion
  /-- an element is linked into a queue twice or taken out of one it is not in -/
  | corruption
  | fuel
  deriving DecidableEq

/-! ## integers and ranges -/

abbrev Hwaddr := BitVec 64

def int128_2_64 : Int := 18446744073709551616

def int128Make64 (a : Hwaddr) : Int := a.toNat

def int128Get64 (a : Int) : Except Fault Hwaddr :=
  if 0 ≤ a ∧ a < int128_2_64 then .ok (BitVec.ofInt 64 a) else .error .assertion

structure AddrRange where
  start : Int
  size : Int
  deriving DecidableEq

def addrrangeEnd (r : AddrRange) : Int := r.start + r.size

def addrrangeContains (range : AddrRange) (addr : Int) : Prop :=
  addr ≥ range.start ∧ addr < addrrangeEnd range

instance (range : AddrRange) (addr : Int) : Decidable (addrrangeContains range addr) :=
  inferInstanceAs (Decidable (_ ∧ _))

def addrrangeIntersects (r1 r2 : AddrRange) : Prop :=
  addrrangeContains r1 r2.start ∨ addrrangeContains r2 r1.start

instance (r1 r2 : AddrRange) : Decidable (addrrangeIntersects r1 r2) :=
  inferInstanceAs (Decidable (_ ∨ _))

def addrrangeIntersection (r1 r2 : AddrRange) : AddrRange :=
  let start := max r1.start r2.start
  let finish := min (addrrangeEnd r1) (addrrangeEnd r2)
  { start := start, size := finish - start }

/-! ## regions -/

abbrev RegionId := Nat

/-- what the memory API reads and writes of a region -/
structure MemoryRegion where
  parent : Option RegionId
  addr : Hwaddr
  size : Int
  size_nonneg : 0 ≤ size
  size_le : size ≤ int128_2_64
  enabled : Bool
  terminates : Bool
  romdMode : Bool
  readonly : Bool
  mayOverlap : Bool
  priority : BitVec 32
  dirtyLogMask : BitVec 8
  /-- the field `alias` -/
  aliasOf : Option RegionId
  aliasOffset : Hwaddr
  /-- in priority order -/
  subregions : List RegionId

def memoryRegionInit (size : Hwaddr) : MemoryRegion where
  parent := none
  addr := 0
  size := if size = BitVec.allOnes 64 then int128_2_64 else int128Make64 size
  size_nonneg := by
    split
    · decide
    · exact Int.natCast_nonneg _
  size_le := by
    split
    · exact Int.le_refl _
    · exact Int.le_of_lt (Int.ofNat_lt.mpr size.isLt)
  enabled := true
  terminates := false
  romdMode := true
  readonly := false
  mayOverlap := false
  priority := 0
  dirtyLogMask := 0
  aliasOf := none
  aliasOffset := 0
  subregions := []

abbrev Heap := RegionId → MemoryRegion

structure FlatRange where
  mr : RegionId
  offsetInRegion : Hwaddr
  addr : AddrRange
  dirtyLogMask : BitVec 8
  romdMode : Bool
  readonly : Bool
  deriving DecidableEq

abbrev FlatView := List FlatRange

instance : Span FlatRange where
  lo fr := fr.addr.start
  hi fr := addrrangeEnd fr.addr

def flatviewInsert (view : FlatView) (pos : Nat) (range : FlatRange) : FlatView :=
  view.insertIdx pos range

/-! ## rendering -/

/-- the variables of the loop in `render_memory_region` -/
structure Cursor where
  i : Nat
  base : Int
  remain : Int
  offsetInRegion : Hwaddr

def Cursor.advance (c : Cursor) (now : Int) : Except Fault Cursor := do
  let step ← int128Get64 now
  return { c with base := c.base + now, remain := c.remain - now,
                  offsetInRegion := c.offsetInRegion + step }

def Cursor.range (c : Cursor) (fr : FlatRange) (size : Int) : FlatRange :=
  { fr with offsetInRegion := c.offsetInRegion, addr := { start := c.base, size := size } }

def renderLoop (fr : FlatRange) : Nat → FlatView → Cursor → Except Fault (FlatView × Cursor)
  | 0, _, _ => .error .fuel
  | fuel + 1, view, c =>
    match view[c.i]? with
    | none => .ok (view, c)
    | some r =>
      if c.remain = 0 then .ok (view, c)
      else if c.base ≥ addrrangeEnd r.addr then renderLoop fr fuel view { c with i := c.i + 1 }
      else if c.base < r.addr.start then do
        let now := min c.remain (r.addr.start - c.base)
        let view := flatviewInsert view c.i (c.range fr now)
        let c ← { c with i := c.i + 1 }.advance now
        -- `view->ranges[i]` is the range `r` again
        let now := min (c.base + c.remain) (addrrangeEnd r.addr) - c.base
        let c ← c.advance now
        renderLoop fr fuel view { c with i := c.i + 1 }
      else do
        let now := min (c.base + c.remain) (addrrangeEnd r.addr) - c.base
        let c ← c.advance now
        renderLoop fr fuel view { c with i := c.i + 1 }

/-- the end of `render_memory_region`: the region itself, visible through `clip` -/
def renderInto (h : Heap) (view : FlatView) (mr : RegionId) (base : Int) (clip : AddrRange)
    (readonly : Bool) : Except Fault FlatView := do
  let offset ← int128Get64 (clip.start - base)
  let fr : FlatRange :=
    { mr := mr, offsetInRegion := offset, addr := clip, dirtyLogMask := (h mr).dirtyLogMask,
      romdMode := (h mr).romdMode, readonly := readonly }
  let (view, c) ← renderLoop fr (view.length + 1) view
    { i := 0, base := clip.start, remain := clip.size, offsetInRegion := offset }
  if c.remain ≠ 0 then return flatviewInsert view c.i (c.range fr c.remain)
  else return view

def renderMemoryRegion (h : Heap) :
    Nat → FlatView → RegionId → Int → AddrRange → Bool → Except Fault FlatView
  | 0, _, _, _, _, _ => .error .fuel
  | fuel + 1, view, mr, base, clip, readonly =>
    if !(h mr).enabled then .ok view
    else
      let base := base + int128Make64 (h mr).addr
      let readonly := readonly || (h mr).readonly
      let tmp : AddrRange := { start := base, size := (h mr).size }
      if ¬ addrrangeIntersects tmp clip then .ok view
      else
        let clip := addrrangeIntersection tmp clip
        match (h mr).aliasOf with
        | some target =>
          renderMemoryRegion h fuel view target
            (base - int128Make64 (h target).addr - int128Make64 (h mr).aliasOffset) clip readonly
        | none => do
          let view ← (h mr).subregions.foldlM
            (fun view subregion => renderMemoryRegion h fuel view subregion base clip readonly) view
          if !(h mr).terminates then return view
          else renderInto h view mr base clip readonly

/-! ## the view -/

def canMerge (r1 r2 : FlatRange) : Bool :=
  addrrangeEnd r1.addr == r2.addr.start && r1.mr == r2.mr
    && int128Make64 r1.offsetInRegion + r1.addr.size == int128Make64 r2.offsetInRegion
    && r1.dirtyLogMask == r2.dirtyLogMask && r1.romdMode == r2.romdMode
    && r1.readonly == r2.readonly

def extend (r1 r2 : FlatRange) : FlatRange :=
  { r1 with addr := { r1.addr with size := r1.addr.size + r2.addr.size } }

/-- every range is extended by the run of ranges after it that can be merged, each with the one
before it -/
def flatviewSimplify (view : FlatView) : FlatView := Span.merge canMerge extend view.length view

def wholeSpace : AddrRange := { start := 0, size := int128_2_64 }

def generateMemoryTopology (h : Heap) (fuel : Nat) (mr : Option RegionId) :
    Except Fault FlatView := do
  let view ← match mr with
    | some mr => renderMemoryRegion h fuel [] mr 0 wholeSpace false
    | none => pure []
  return flatviewSimplify view

end Memory
