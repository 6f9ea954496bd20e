import TraceSyscallObj.Lib.Bits

/-!
# The hierarchical bitmap

Model of `util/hbitmap.c` and of the inline functions of `hbitmap.h` on a host with 64-bit longs:
`BITS_PER_LEVEL` is 6, `HBITMAP_LOG_MAX_SIZE` is 41 and there are 7 levels.  A level is a function
from the word index to the word; `start >> 6` and `start & 63` are written as quotient and
remainder.

* `hbitmapAlloc`, `hbitmapGet`, `hbitmapSet`, `hbitmapReset`: the bitmap;
* `hbitmapIterInit`, `hbitmapIterNext`, `hbitmapIterNextWord`: the iterator;
* `bit ws n`: bit `n` of a level;
* `Consistent hb`: the levels agree with each other and with the count.
-/

namespace Hierarchical
open Function Bits

abbrev Word := BitVec 64
abbrev Words := Nat → Word
abbrev Levels := Nat → Words

inductive Fault
  | assertion
  /-- an access outside an array -/
  | bounds
  | fuel
  deriving DecidableEq

structure HBitmap where
  /-- number of bits in the bottom level -/
  size : Nat
  /-- number of set bits in the bottom level -/
  count : BitVec 64
  granularity : Nat
  levels : Levels

/-- the iterator; the bitmap it points to is an argument of its functions -/
structure HBitmapIter where
  granularity : Nat
  pos : Nat
  cur : Words

/-! ## the iterator -/

/-- the search for a word with bits left, upwards from level `i` -/
def skipUp (cur : Words) : Nat → Nat → Except Fault (Nat × Nat)
  | 0, _ => .error .bounds
  | i + 1, pos => if cur i = 0#64 then skipUp cur i (pos / 64) else .ok (i, pos / 64)

/-- the way down to the last level, which is `n` levels below -/
def skipDown (levels : Levels) : Nat → Nat → Word → Words → Except Fault (Nat × Word × Words)
  | 0, pos, cur, curs => if cur = 0#64 then .error .assertion else .ok (pos, cur, curs)
  | n + 1, pos, cur, curs =>
    if cur = 0#64 then .error .assertion
    else
      let pos := pos * 64 + lowest cur
      skipDown levels n pos (levels (6 - n) pos) (update curs (5 - n) (clearLowest cur))

def hbitmapIterSkipWords (hb : HBitmap) (hbi : HBitmapIter) : Except Fault (Word × HBitmapIter) :=
  do
  let (i, pos) ← skipUp hbi.cur 6 hbi.pos
  -- only the sentinel is left
  if i = 0 ∧ hbi.cur i = 1#64 <<< 63 then
    return (0#64, hbi)
  let (pos, cur, curs) ← skipDown hb.levels (6 - i) pos (hbi.cur i) hbi.cur
  return (cur, { hbi with pos := pos, cur := curs })

/-- the word of level `i` with bit `pos`, without the bits before `pos`; the bit itself stays on
the last level only -/
def initWord (levels : Levels) (i pos : Nat) : Word :=
  let bit := pos % 64
  let cur := levels i (pos / 64) &&& ~~~(1#64 <<< bit - 1#64)
  if i = 6 then cur else cur &&& ~~~(1#64 <<< bit)

/-- the loop of `hbitmap_iter_init` over the levels below `i`, from the last one up -/
def initCur (levels : Levels) : Nat → Nat → Words → Words
  | 0, _, curs => curs
  | i + 1, pos, curs =>
    initCur levels i (pos / 64) (update curs i (initWord levels i pos))

def hbitmapIterInit (hb : HBitmap) (first : Nat) : Except Fault HBitmapIter :=
  let pos := first >>> hb.granularity
  if pos < hb.size then
    .ok { granularity := hb.granularity, pos := pos / 64,
          cur := initCur hb.levels 7 pos fun _ => 0#64 }
  else .error .assertion

/-- the current word of the last level, or else the next one -/
def curWord (hb : HBitmap) (hbi : HBitmapIter) : Except Fault (Word × HBitmapIter) :=
  if hbi.cur 6 = 0#64 then hbitmapIterSkipWords hb hbi else .ok (hbi.cur 6, hbi)

def hbitmapIterNext (hb : HBitmap) (hbi : HBitmapIter) : Except Fault (Int × HBitmapIter) := do
  let (cur, hbi) ← curWord hb hbi
  if cur = 0#64 then
    return (-1, hbi)
  let item := BitVec.ofNat 64 (hbi.pos * 64 + lowest cur)
  return ((item <<< hbi.granularity).toInt,
    { hbi with cur := update hbi.cur 6 (clearLowest cur) })

/-- the index of the word, or `(size_t)-1` -/
def hbitmapIterNextWord (hb : HBitmap) (hbi : HBitmapIter) :
    Except Fault (Nat × Word × HBitmapIter) := do
  let (cur, hbi) ← curWord hb hbi
  if cur = 0#64 then
    return (2 ^ 64 - 1, 0#64, hbi)
  return (hbi.pos, cur, { hbi with cur := update hbi.cur 6 0#64 })

/-! ## counting, setting and resetting -/

def countLoop (hb : HBitmap) (endWord : Nat) :
    Nat → HBitmapIter → Nat → Except Fault (Nat × Word × Nat)
  | 0, _, _ => .error .fuel
  | fuel + 1, hbi, count => do
    let (pos, cur, hbi) ← hbitmapIterNextWord hb hbi
    if endWord ≤ pos then
      return (pos, cur, count)
    countLoop hb endWord fuel hbi (count + popcount cur)

def hbCountBetween (hb : HBitmap) (start last : Nat) : Except Fault Nat := do
  let «end» := (last + 1) % 2 ^ 64
  let hbi ← hbitmapIterInit hb ((start <<< hb.granularity) % 2 ^ 64)
  let (pos, cur, count) ← countLoop hb («end» / 64) («end» / 64 + 1) hbi 0
  if pos = «end» / 64 then
    return count + popcount (cur &&& (1#64 <<< («end» % 64) - 1#64))
  return count

/-- the mask of the bits from `start` to `last` -/
def elemMask (start last : Nat) : Word := 2#64 <<< (last % 64) - 1#64 <<< (start % 64)

def hbSetElem (elem : Word) (start last : Nat) : Except Fault (Word × Bool) :=
  if last / 64 = start / 64 ∧ start ≤ last then
    .ok (elem ||| elemMask start last, elem == 0#64)
  else .error .assertion

def hbResetElem (elem : Word) (start last : Nat) : Except Fault (Word × Bool) :=
  if last / 64 = start / 64 ∧ start ≤ last then
    .ok (elem &&& ~~~elemMask start last,
      elem != 0#64 && (elem &&& ~~~elemMask start last) == 0#64)
  else .error .assertion

/-- the loop over the words between the first and the last one: the words, `i` and `start` after
it, and whether a word was changed -/
def fillWords (fill : Word) (hit : Word → Bool) (lastpos : Nat) :
    Nat → Words → Nat → Nat → Bool → Except Fault (Words × Nat × Nat × Bool)
  | 0, _, _, _, _ => .error .fuel
  | fuel + 1, ws, i, next, changed =>
    if i + 1 = lastpos then .ok (ws, i + 1, next, changed)
    else
      fillWords fill hit lastpos fuel (update ws (i + 1) fill) (i + 1) (next + 64)
        (changed || hit (ws (i + 1)))

/-- what `hb_set_between` does on its own level -/
def setLevel (ws : Words) (start last : Nat) : Except Fault (Words × Bool) :=
  let pos := start / 64
  let lastpos := last / 64
  if pos < lastpos then do
    let next := (start ||| 63) + 1
    let (elem, changed) ← hbSetElem (ws pos) start (next - 1)
    let ws := update ws pos elem
    let (ws, i, start, changed) ←
      fillWords (~~~0#64) (· == 0#64) lastpos (lastpos - pos) ws pos next changed
    let (elem, c) ← hbSetElem (ws i) start last
    return (update ws i elem, changed || c)
  else do
    let (elem, changed) ← hbSetElem (ws pos) start last
    return (update ws pos elem, changed)

def hbSetBetween : Nat → Levels → Nat → Nat → Except Fault Levels
  | 0, levels, start, last => do
    let (ws, _) ← setLevel (levels 0) start last
    return update levels 0 ws
  | level + 1, levels, start, last => do
    let (ws, changed) ← setLevel (levels (level + 1)) start last
    let levels := update levels (level + 1) ws
    if changed then hbSetBetween level levels (start / 64) (last / 64) else return levels

/-- what `hb_reset_between` does on its own level: the words, the range for the level above, and
whether a word became zero.  When `lastpos` is 0 and its word keeps a bit, the C code wraps
`lastpos` around; then nothing is passed on. -/
def resetLevel (ws : Words) (start last : Nat) : Except Fault (Words × Nat × Nat × Bool) :=
  let pos := start / 64
  let lastpos := last / 64
  if pos < lastpos then do
    let next := (start ||| 63) + 1
    let (elem, blanked) ← hbResetElem (ws pos) start (next - 1)
    let ws := update ws pos elem
    let (ws, i, start, changed) ←
      fillWords 0#64 (· != 0#64) lastpos (lastpos - pos) ws pos next blanked
    let (elem, blanked') ← hbResetElem (ws i) start last
    return (update ws i elem, if blanked then pos else pos + 1,
      if blanked' then lastpos else lastpos - 1, changed || blanked')
  else do
    let (elem, blanked) ← hbResetElem (ws pos) start last
    return (update ws pos elem, pos, if blanked then lastpos else lastpos - 1, blanked)

def hbResetBetween : Nat → Levels → Nat → Nat → Except Fault Levels
  | 0, levels, start, last => do
    let (ws, _) ← resetLevel (levels 0) start last
    return update levels 0 ws
  | level + 1, levels, start, last => do
    let (ws, pos, lastpos, changed) ← resetLevel (levels (level + 1)) start last
    let levels := update levels (level + 1) ws
    if changed then hbResetBetween level levels pos lastpos else return levels

/-- `start + count - 1` on 64 bits -/
def lastItem (start count : Nat) : Nat := (start + count + (2 ^ 64 - 1)) % 2 ^ 64

def hbitmapSet (hb : HBitmap) (start count : Nat) : Except Fault HBitmap := do
  let last := lastItem start count >>> hb.granularity
  let start := start >>> hb.granularity
  let count := BitVec.ofNat 64 last - BitVec.ofNat 64 start + 1#64
  let between ← hbCountBetween hb start last
  let levels ← hbSetBetween 6 hb.levels start last
  return { hb with count := hb.count + (count - BitVec.ofNat 64 between), levels := levels }

def hbitmapReset (hb : HBitmap) (start count : Nat) : Except Fault HBitmap := do
  let last := lastItem start count >>> hb.granularity
  let start := start >>> hb.granularity
  let between ← hbCountBetween hb start last
  let levels ← hbResetBetween 6 hb.levels start last
  return { hb with count := hb.count - BitVec.ofNat 64 between, levels := levels }

def hbitmapGet (hb : HBitmap) (item : Nat) : Bool :=
  let pos := item >>> hb.granularity
  (hb.levels 6 (pos / 64) &&& 1#64 <<< (pos % 64)) != 0#64

/-- number of words of the level above a level with `size` words -/
def levelSize (size : Nat) : Nat := max ((size + 63) / 64) 1

/-- all words are zero but for the sentinel, the most significant bit of level 0 -/
def emptyLevels : Levels
  | 0, 0 => 1#64 <<< 63
  | _, _ => 0#64

def hbitmapAlloc (size : Nat) (granularity : Int) : Except Fault HBitmap :=
  if 0 ≤ granularity ∧ granularity < 64 then
    let g := granularity.toNat
    let size := ((size + 2 ^ g - 1) % 2 ^ 64) >>> g
    if size ≤ 2 ^ 41 ∧ levelSize^[7] size = 1 then
      .ok { size := size, count := 0#64, granularity := g, levels := emptyLevels }
    else .error .assertion
  else .error .assertion

/-! ## the invariant -/

def bit (ws : Words) (n : Nat) : Bool := (ws (n / 64)).getLsbD (n % 64)

/-- a bit of level `i`, the sentinel apart, is set iff its word of the next level is not zero -/
def Linked (levels : Levels) (i : Nat) : Prop :=
  ∀ n, ¬ (i = 0 ∧ n = 63) → (bit (levels i) n = true ↔ levels (i + 1) n ≠ 0#64)

def setBits (hb : HBitmap) : Nat := Nat.count (fun n => bit (hb.levels 6) n = true) hb.size

structure Consistent (hb : HBitmap) : Prop where
  size_le : hb.size ≤ 2 ^ 41
  granularity_lt : hb.granularity < 64
  linked : ∀ i < 6, Linked hb.levels i
  sentinel : bit (hb.levels 0) 63 = true
  inside : ∀ n, bit (hb.levels 6) n = true → n < hb.size
  count : hb.count = BitVec.ofNat 64 (setBits hb)

end Hierarchical
