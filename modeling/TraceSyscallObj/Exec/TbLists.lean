import TraceSyscallObj.Lib.Threads
import TraceSyscallObj.X86.Mmu

/-!
# Translation blocks and the lists they are on

Model of the bookkeeping of translation blocks in `translate-all.c`, for system emulation and with
no block being executed.  Every block is on one list of the physical hash table, on the list of
every page it has bytes of, and at the head of a circular list of the jumps into it.  The pointers
are kept in cells: `HashCell`, `PageCell` and, for the jumps, the tagged pointer itself names the
cell that it leads to.

* `tbGenCode`, `tbLinkPage`, `tbAllocPage`: a new block is put on its lists;
* `tbAddJump`: one block is chained to another;
* `tbPhysInvalidate`: one block is taken off all lists;
* `setBits`, `buildPageBitmap`: the bytes of a page that are code;
* `tbInvalidatePhysPageRange`, `tbInvalidatePhysPageFast`.
-/

namespace Tb
open Function
open X86 (Target TargetUlong TARGET_PAGE_MASK)
open Threads (Fault unlink)

def TARGET_PAGE_SIZE : Nat := 4096
def L2_SIZE : Nat := 1024
def CODE_GEN_PHYS_HASH_SIZE : Nat := 32768
def SMC_BITMAP_USE_THRESHOLD : BitVec 32 := 10

/-- a block, with the index into its `page_next` in the low bits -/
abbrev PagePtr := Nat × Fin 2

/-- a block, with 0 or 1 for one of its `jmp_next` and 2 for its `jmp_first` -/
abbrev JmpPtr := Nat × Fin 3

inductive HashCell
  | tbPhysHash (h : Nat)
  | physHashNext (tb : Nat)
  deriving DecidableEq

inductive PageCell
  | firstTb (index : Nat)
  | pageNext (p : PagePtr)
  deriving DecidableEq

-- one proof each for all the modules of this namespace, so that a literal list number is the same
-- term in all of them
scoped instance neZeroPageSlots : NeZero (2 : Nat) := ⟨by decide⟩
scoped instance neZeroJmpSlots : NeZero (3 : Nat) := ⟨by decide⟩

/-- the fields that are no list pointers; `none` is the page address `-1` -/
structure TranslationBlock (t : Target) where
  pc : TargetUlong t
  size : Nat
  pageAddr0 : Nat
  pageAddr1 : Option Nat
  size_pos : 0 < size
  size_le : size ≤ TARGET_PAGE_SIZE

abbrev Bitmap := Nat → BitVec 8

/-- A block is named by its index in `tbs`, a page descriptor by the number of its page: RAM lies
below the bound that `l1_map` is made for, so no two pages share a descriptor.  `l1Map` tells which
tables of `L2_SIZE` descriptors are there; the descriptors of the others are zero, as `g_malloc0`
leaves them. -/
structure State (t : Target) where
  tb : Nat → TranslationBlock t
  tbPhysHash : HashCell → Option Nat
  pageList : PageCell → Option PagePtr
  jmpList : JmpPtr → Option JmpPtr
  l1Map : Nat → Bool
  codeBitmap : Nat → Option Bitmap
  codeWriteCount : Nat → BitVec 32

section
variable {t : Target}

/-! ## Blocks -/

/-- `tb->pc & ~TARGET_PAGE_MASK` -/
def TranslationBlock.pcOffset (b : TranslationBlock t) : Nat := b.pc.toNat % TARGET_PAGE_SIZE

/-- `(tb->pc + tb->size) & ~TARGET_PAGE_MASK` -/
def TranslationBlock.endOffset (b : TranslationBlock t) : Nat :=
  (b.pc + BitVec.ofNat t.bits b.size).toNat % TARGET_PAGE_SIZE

def TranslationBlock.pageAddr (b : TranslationBlock t) (n : Fin 2) : Option Nat :=
  if n = 0 then some b.pageAddr0 else b.pageAddr1

/-- `tb_start` and `tb_end` of the part of the block that is on the list as `n` -/
def TranslationBlock.span (b : TranslationBlock t) (n : Fin 2) : Nat × Nat :=
  if n = 0 then
    -- the end may be after the end of the page
    (b.pageAddr0 + b.pcOffset, b.pageAddr0 + b.pcOffset + b.size)
  else (b.pageAddr1.getD 0, b.pageAddr1.getD 0 + b.endOffset)

/-- `!(tb_end <= start || tb_start >= end)` -/
def TranslationBlock.hit (b : TranslationBlock t) (n : Fin 2) (start stop : Nat) : Bool :=
  start < (b.span n).2 && (b.span n).1 < stop

def tbPhysHashFunc (pc : Nat) : Nat := (pc / 4) % CODE_GEN_PHYS_HASH_SIZE

/-! ## Page descriptors -/

def pageFind (s : State t) (index : Nat) : Option Nat :=
  if s.l1Map (index / L2_SIZE) then some index else none

/-- `page_find_alloc (index, 1)` -/
def pageFindAlloc (s : State t) (index : Nat) : State t :=
  { s with l1Map := update s.l1Map (index / L2_SIZE) true }

def invalidatePageBitmap (s : State t) (p : Nat) : State t :=
  { s with
    codeBitmap := update s.codeBitmap p none
    codeWriteCount := update s.codeWriteCount p 0 }

/-! ## Linking -/

def setPageAddr (s : State t) (tb : Nat) (n : Fin 2) (pageAddr : Option Nat) : State t :=
  { s with
    tb := update s.tb tb
      (if n = 0 then { s.tb tb with pageAddr0 := pageAddr.getD 0 }
        else { s.tb tb with pageAddr1 := pageAddr }) }

def tbAllocPage (s : State t) (tb : Nat) (n : Fin 2) (pageAddr : Nat) : State t :=
  let s := setPageAddr s tb n (some pageAddr)
  let p := pageAddr / TARGET_PAGE_SIZE
  let s := pageFindAlloc s p
  let next := update s.pageList (.pageNext (tb, n)) (s.pageList (.firstTb p))
  invalidatePageBitmap { s with pageList := update next (.firstTb p) (some (tb, n)) } p

def tbLinkPage (s : State t) (tb : Nat) (physPc : Nat) (physPage2 : Option Nat) : State t :=
  let h := tbPhysHashFunc physPc
  let next := update s.tbPhysHash (.physHashNext tb) (s.tbPhysHash (.tbPhysHash h))
  let s := { s with tbPhysHash := update next (.tbPhysHash h) (some tb) }
  let s := tbAllocPage s tb 0 (physPc / TARGET_PAGE_SIZE * TARGET_PAGE_SIZE)
  let s := match physPage2 with
    | some page => tbAllocPage s tb 1 page
    | none => setPageAddr s tb 1 none
  let jmp := update s.jmpList (tb, 2) (some (tb, 2))
  { s with jmpList := update (update jmp (tb, 0) none) (tb, 1) none }

/-- the physical address of a guest address; `frame` gives the RAM page behind a guest page -/
def getPageAddrCode (frame : TargetUlong t → Nat) (addr : TargetUlong t) : Nat :=
  frame (addr &&& TARGET_PAGE_MASK t.bits) * TARGET_PAGE_SIZE + addr.toNat % TARGET_PAGE_SIZE

structure Code (t : Target) where
  pc : TargetUlong t
  size : Nat
  size_pos : 0 < size
  size_le : size ≤ TARGET_PAGE_SIZE

/-- the block `tb` is made for the code and linked -/
def tbGenCode (s : State t) (tb : Nat) (code : Code t) (frame : TargetUlong t → Nat) : State t :=
  let physPc := getPageAddrCode frame code.pc
  let s := { s with
    tb := update s.tb tb
      { s.tb tb with
        pc := code.pc, size := code.size, size_pos := code.size_pos, size_le := code.size_le } }
  let virtPage2 := (code.pc + BitVec.ofNat t.bits code.size - 1) &&& TARGET_PAGE_MASK t.bits
  let physPage2 :=
    if code.pc &&& TARGET_PAGE_MASK t.bits ≠ virtPage2 then some (getPageAddrCode frame virtPage2)
    else none
  tbLinkPage s tb physPc physPage2

def tbAddJump (s : State t) (tb : Nat) (n : Fin 2) (tbNext : Nat) : State t :=
  match s.jmpList (tb, n.castSucc) with
  | some _ => s
  | none =>
    let next := update s.jmpList (tb, n.castSucc) (s.jmpList (tbNext, 2))
    { s with jmpList := update next (tbNext, 2) (some (tb, n.castSucc)) }

/-! ## Invalidation of one block -/

def tbHashRemove (fuel : Nat) (s : State t) (h tb : Nat) : Except Fault (State t) := do
  let m ← unlink HashCell.physHashNext (fun tb1 => tb1 = tb) fuel (.tbPhysHash h) s.tbPhysHash
  pure { s with tbPhysHash := m }

def tbPageRemove (fuel : Nat) (s : State t) (p tb : Nat) : Except Fault (State t) := do
  let m ← unlink PageCell.pageNext (fun tb1 => tb1.1 = tb) fuel (.firstTb p) s.pageList
  pure { s with pageList := m }

def tbJmpRemove (fuel : Nat) (s : State t) (tb : Nat) (n : Fin 2) : Except Fault (State t) :=
  match s.jmpList (tb, n.castSucc) with
  | none => .ok s
  | some _ => do
    let m ← unlink (id : JmpPtr → JmpPtr) (fun tb1 => tb1 = (tb, n.castSucc)) fuel
      (tb, n.castSucc) s.jmpList
    pure { s with jmpList := update m (tb, n.castSucc) none }

/-- one of the two blocks on the removal from the page lists -/
def removeFromPage (fuel : Nat) (s : State t) (tb : Nat) (n : Fin 2) (pageAddr : Option Nat) :
    Except Fault (State t) :=
  match (s.tb tb).pageAddr n with
  | none => .ok s
  | some a =>
    if some a = pageAddr then .ok s
    else
      match pageFind s (a / TARGET_PAGE_SIZE) with
      | none => .error .null
      | some p => do
        let s ← tbPageRemove fuel s p tb
        pure (invalidatePageBitmap s p)

/-- the jumps to the block are suppressed, from `tb1` on -/
def resetJumps : Nat → Option JmpPtr → (JmpPtr → Option JmpPtr) →
    Except Fault (JmpPtr → Option JmpPtr)
  | 0, _, _ => .error .hang
  | fuel + 1, tb1, m =>
    match tb1 with
    | none => .error .null
    | some tb1 =>
      if tb1.2 = 2 then .ok m
      else resetJumps fuel (m tb1) (update m tb1 none)

def suppressJumps (fuel : Nat) (s : State t) (tb : Nat) : Except Fault (State t) := do
  let m ← resetJumps fuel (s.jmpList (tb, 2)) s.jmpList
  pure { s with jmpList := update m (tb, 2) (some (tb, 2)) }

/-- `none` for the page address `-1` -/
def tbPhysInvalidate (fuel : Nat) (s : State t) (tb : Nat) (pageAddr : Option Nat) :
    Except Fault (State t) := do
  let physPc := (s.tb tb).pageAddr0 + (s.tb tb).pcOffset
  let s ← tbHashRemove fuel s (tbPhysHashFunc physPc) tb
  let s ← removeFromPage fuel s tb 0 pageAddr
  let s ← removeFromPage fuel s tb 1 pageAddr
  let s ← tbJmpRemove fuel s tb 0
  let s ← tbJmpRemove fuel s tb 1
  suppressJumps fuel s tb

/-! ## The bitmap of a page -/

/-- `*tab |= mask` -/
def orByte (tab : Bitmap) (i : Nat) (mask : BitVec 32) : Bitmap :=
  update tab i (tab i ||| mask.setWidth 8)

/-- `while (start < end1) { *tab++ = 0xff; start += 8; }`; `tab` is at the byte of `start` -/
def fillBytes (tab : Bitmap) (start end1 : Nat) : Bitmap :=
  if start < end1 then fillBytes (update tab (start / 8) 0xff) (start + 8) end1 else tab
termination_by end1 - start

def setBits (tab : Bitmap) (start len : Nat) : Bitmap :=
  let stop := start + len
  let mask := (0xff : BitVec 32) <<< (start % 8)
  if start / 8 * 8 = stop / 8 * 8 then
    if start < stop then orByte tab (start / 8) (mask &&& ~~~((0xff : BitVec 32) <<< (stop % 8)))
    else tab
  else
    let tab := orByte tab (start / 8) mask
    let end1 := stop / 8 * 8
    let tab := fillBytes tab ((start + 8) / 8 * 8) end1
    if end1 < stop then orByte tab (end1 / 8) (~~~((0xff : BitVec 32) <<< (stop % 8))) else tab

/-- `tb_start` and `tb_end` within the page -/
def TranslationBlock.pageSpan (b : TranslationBlock t) (n : Fin 2) : Nat × Nat :=
  if n = 0 then (b.pcOffset, min (b.pcOffset + b.size) TARGET_PAGE_SIZE) else (0, b.endOffset)

def bitmapLoop (s : State t) : Nat → Option PagePtr → Bitmap → Except Fault Bitmap
  | 0, _, _ => .error .hang
  | fuel + 1, tb, tab =>
    match tb with
    | none => .ok tab
    | some (tb, n) =>
      let span := (s.tb tb).pageSpan n
      bitmapLoop s fuel (s.pageList (.pageNext (tb, n))) (setBits tab span.1 (span.2 - span.1))

def buildPageBitmap (fuel : Nat) (s : State t) (p : Nat) : Except Fault (State t) := do
  let tab ← bitmapLoop s fuel (s.pageList (.firstTb p)) (fun _ => 0)
  pure { s with codeBitmap := update s.codeBitmap p (some tab) }

/-! ## Invalidation of a range -/

/-- the write is counted, and the bitmap made for a page that is written often -/
def countWrite (fuel : Nat) (s : State t) (p : Nat) (isCpuWriteAccess : Bool) :
    Except Fault (State t) :=
  match s.codeBitmap p with
  | some _ => .ok s
  | none =>
    let count := s.codeWriteCount p + 1
    let s := { s with codeWriteCount := update s.codeWriteCount p count }
    if SMC_BITMAP_USE_THRESHOLD ≤ count && isCpuWriteAccess then buildPageBitmap fuel s p else .ok s

/-- the loop over the page list; the next block is read before this one is invalidated -/
def invalidateLoop (fuel start stop : Nat) : Nat → Option PagePtr → State t → Except Fault (State t)
  | 0, _, _ => .error .hang
  | n + 1, tb, s =>
    match tb with
    | none => .ok s
    | some (tb, i) =>
      let tbNext := s.pageList (.pageNext (tb, i))
      if (s.tb tb).hit i start stop then do
        let s ← tbPhysInvalidate fuel s tb none
        invalidateLoop fuel start stop n tbNext s
      else invalidateLoop fuel start stop n tbNext s

/-- the end of `tb_invalidate_phys_page_range`: no code is left on the page -/
def dropEmptyPage (s : State t) (p : Nat) : State t :=
  match s.pageList (.firstTb p) with
  | none => invalidatePageBitmap s p
  | some _ => s

def tbInvalidatePhysPageRange (fuel : Nat) (s : State t) (start stop : Nat)
    (isCpuWriteAccess : Bool) : Except Fault (State t) :=
  match pageFind s (start / TARGET_PAGE_SIZE) with
  | none => .ok s
  | some p => do
    let s ← countWrite fuel s p isCpuWriteAccess
    let s ← invalidateLoop fuel start stop fuel (s.pageList (.firstTb p)) s
    pure (dropEmptyPage s p)

/-- `b & ((1 << len) - 1)`, for the byte of the bitmap that `start` is in -/
def Bitmap.bits (tab : Bitmap) (start len : Nat) : BitVec 32 :=
  let offset := start % TARGET_PAGE_SIZE
  let b : BitVec 32 := (tab (offset / 8)).setWidth 32 >>> (offset % 8)
  b &&& (((1 : BitVec 32) <<< len) - 1)

def tbInvalidatePhysPageFast (fuel : Nat) (s : State t) (start len : Nat) :
    Except Fault (State t) :=
  match pageFind s (start / TARGET_PAGE_SIZE) with
  | none => .ok s
  | some p =>
    match s.codeBitmap p with
    | some tab =>
      if tab.bits start len ≠ 0 then tbInvalidatePhysPageRange fuel s start (start + len) true
      else .ok s
    | none => tbInvalidatePhysPageRange fuel s start (start + len) true

/-! ## Runs -/

/-- no list, no descriptor; the memory of the blocks is arbitrary -/
def init (tb : Nat → TranslationBlock t) (hash : Nat → Option Nat) (page : PagePtr → Option PagePtr)
    (jmp : JmpPtr → Option JmpPtr) : State t where
  tb := tb
  tbPhysHash := fun
    | .tbPhysHash _ => none
    | .physHashNext tb => hash tb
  pageList := fun
    | .firstTb _ => none
    | .pageNext p => page p
  jmpList := jmp
  l1Map := fun _ => false
  codeBitmap := fun _ => none
  codeWriteCount := fun _ => 0

end
end Tb
