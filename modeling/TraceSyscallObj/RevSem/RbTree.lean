import TraceSyscallObj.RevSem.Heap

/-!
# The object tree (`rb_tree.c`)

The functions of the file, statement by statement.  Rotations and the two branches of each fixup
loop are mirror images in the source; they are written once for a side `d` (`left` gives the
branch that comes first in the source).

* `rotateLeft`, `rotateRight`, `insertFixup`, `rbtInsert`, `rbtInsert2`;
* `deleteFixup`, `rbtErase`;
* `dsCodeRbtFind2`, `dsCodeEraseAll`, `dsCodeAllDeleteRb`, `dsCodeAllInsertRb`.
-/

namespace RevSem
open PTree

/-! ## rotations -/

/-- `if (b != SENTINEL) b->parent = v` -/
def adopt (b v : Ptr) : TreeM Unit := if b ≠ .sentinel then setParent b v else pure ()

/-- `y` takes the place of `x` below `g`, or as the root -/
def relink (d : Dir) (g x y : Ptr) : TreeM Unit :=
  if g ≠ .null then do
    if x = (← childOf g d) then setChild g d y else setChild g d.flip y
  else setRoot y

/-- the common text of `rotateLeft` and `rotateRight` -/
def rotate (d : Dir) (x : Ptr) : TreeM Unit := do
  let y ← childOf x d.flip
  -- establish x->right link
  setChild x d.flip (← childOf y d)
  adopt (← childOf y d) x
  -- establish y->parent link
  adopt y (← parentOf x)
  relink d (← parentOf x) x y
  -- link x and y
  setChild y d x
  adopt x y

def rotateLeft (x : Ptr) : TreeM Unit := rotate .left x
def rotateRight (x : Ptr) : TreeM Unit := rotate .right x

/-! ## insertion -/

/-- an inner grandchild is turned into an outer one -/
def makeOuter (d : Dir) (x : Ptr) : TreeM Ptr := do
  if x = (← childOf (← parentOf x) d.flip) then
    let x ← parentOf x
    rotate d x
    return x
  else return x

/-- the body of the loop of `insertFixup` when `x->parent` hangs on the side `d` -/
def insertFixupSide (d : Dir) (x : Ptr) : TreeM Ptr := do
  let y ← childOf (← parentOf (← parentOf x)) d.flip
  if (← colorOf y) = .red then
    -- uncle is RED
    setColor (← parentOf x) .black
    setColor y .black
    setColor (← parentOf (← parentOf x)) .red
    parentOf (← parentOf x)
  else
    -- uncle is BLACK
    let x ← makeOuter d x
    setColor (← parentOf x) .black
    setColor (← parentOf (← parentOf x)) .red
    rotate d.flip (← parentOf (← parentOf x))
    return x

/-- the side on which the test `p == g->left` puts `p` -/
def sideOf (g p : Ptr) : TreeM Dir := do
  return if p = (← childOf g .left) then .left else .right

def blackenRoot : TreeM Unit := do setColor (← getRoot) .black

def insertFixup : Nat → Ptr → TreeM Unit
  | 0, _ => throw .diverge
  | fuel + 1, x => do
    if x ≠ (← getRoot) then
      if (← colorOf (← parentOf x)) = .red then
        -- we have a violation
        let d ← sideOf (← parentOf (← parentOf x)) (← parentOf x)
        insertFixup fuel (← insertFixupSide d x)
      else blackenRoot
    else blackenRoot

/-- the search for the future parent; a node with the same key ends it with a status -/
def findParent (key size : KeyType) : Nat → Ptr → Ptr → TreeM (Except RbtStatus Ptr)
  | 0, _, _ => throw .diverge
  | fuel + 1, current, parent => do
    if current ≠ .sentinel then
      let n ← load current
      if key = n.key then
        if size = n.size then return .error .duplicateKey
        else if size ≤ n.size then return .error .reallocSmall
        else return .error .reallocLarge
      else findParent key size fuel (n.child (if key < n.key then .left else .right)) current
    else return .ok parent

def linkNode (x parent : Ptr) : TreeM Unit := do
  setParent x parent
  setChild x .left .sentinel
  setChild x .right .sentinel
  setColor x .red

/-- the record of the new node: key and size are given, the rest comes from `p` -/
def fillNode (x : Ptr) (key size : KeyType) (p : Record) : TreeM Unit :=
  store x fun n =>
    { n with key := key, size := size, type := p.type, pc := p.pc, objName := p.objName }

def newNode (H : Host) (key size : KeyType) (p : Record) (parent : Ptr) : TreeM Ptr := do
  let x ← mallocNode H
  linkNode x parent
  fillNode x key size p
  return x

def hang (key : KeyType) (parent x : Ptr) : TreeM Unit := do
  if parent ≠ .null then
    if key ≤ (← load parent).key then setChild parent .left x else setChild parent .right x
  else setRoot x

def rbtInsert (H : Host) (key size : KeyType) (p : Record) : TreeM RbtStatus := do
  match ← findParent key size H.fuel (← getRoot) .null with
  | .error status => return status
  | .ok parent =>
    let x ← newNode H key size p parent
    hang key parent x
    insertFixup H.fuel x
    return .ok

/-! ## deletion -/

/-- case 1: a red sibling is rotated away -/
def redSibling (d : Dir) (x w : Ptr) : TreeM Ptr := do
  if (← colorOf w) = .red then
    setColor w .black
    setColor (← parentOf x) .red
    rotate d (← parentOf x)
    childOf (← parentOf x) d.flip
  else return w

/-- `w->left->color == BLACK && w->right->color == BLACK` -/
def blackChildren (d : Dir) (w : Ptr) : TreeM Bool := do
  if (← colorOf (← childOf w d)) = .black then
    return (← colorOf (← childOf w d.flip)) = .black
  else return false

/-- case 3: the far child of the sibling is made red -/
def redFarNephew (d : Dir) (x w : Ptr) : TreeM Ptr := do
  if (← colorOf (← childOf w d.flip)) = .black then
    setColor (← childOf w d) .black
    setColor w .red
    rotate d.flip w
    childOf (← parentOf x) d.flip
  else return w

/-- case 4: the sibling takes the place of the parent -/
def raiseSibling (d : Dir) (x w : Ptr) : TreeM Ptr := do
  setColor w (← colorOf (← parentOf x))
  setColor (← parentOf x) .black
  setColor (← childOf w d.flip) .black
  rotate d (← parentOf x)
  getRoot

/-- the body of the loop of `deleteFixup` when `x` hangs on the side `d` -/
def deleteFixupSide (d : Dir) (x : Ptr) : TreeM Ptr := do
  let w ← redSibling d x (← childOf (← parentOf x) d.flip)
  if (← blackChildren d w) then
    setColor w .red
    parentOf x
  else raiseSibling d x (← redFarNephew d x w)

def deleteFixup : Nat → Ptr → TreeM Unit
  | 0, _ => throw .diverge
  | fuel + 1, x => do
    if x ≠ (← getRoot) then
      if (← colorOf x) = .black then
        let d ← sideOf (← parentOf x) x
        deleteFixup fuel (← deleteFixupSide d x)
      else setColor x .black
    else setColor x .black

/-- `while (y->left != SENTINEL) y = y->left` -/
def leftmost : Nat → Ptr → TreeM Ptr
  | 0, _ => throw .diverge
  | fuel + 1, y => do
    if (← childOf y .left) ≠ .sentinel then leftmost fuel (← childOf y .left) else return y

/-- the node that is taken out of the parent chain when `z` is erased -/
def victim (H : Host) (z : Ptr) : TreeM Ptr := do
  if (← childOf z .left) = .sentinel then return z
  else if (← childOf z .right) = .sentinel then return z
  else leftmost H.fuel (← childOf z .right)

def onlyChild (y : Ptr) : TreeM Ptr := do
  if (← childOf y .left) ≠ .sentinel then childOf y .left else childOf y .right

def unlink (y x : Ptr) : TreeM Unit := do
  setParent x (← parentOf y)
  relink .left (← parentOf y) y x

/-- `z` takes over what the victim `y` stored; the object name is not among it -/
def copyRecord (z y : Ptr) : TreeM Unit := do
  if y ≠ z then
    let n ← load y
    store z fun m => { m with key := n.key, size := n.size, type := n.type, pc := n.pc }
  else pure ()

/-- `if (y->color == BLACK) deleteFixup (x)` -/
def rebalance (H : Host) (y x : Ptr) : TreeM Unit := do
  if (← colorOf y) = .black then deleteFixup H.fuel x else pure ()

def rbtErase (H : Host) (z : Ptr) : TreeM RbtStatus := do
  let y ← victim H z
  let x ← onlyChild y
  unlink y x
  copyRecord z y
  rebalance H y x
  freeNode y
  return .ok

/-! ## the interface -/

/-- find key, also check the size: `key` lies in `[current->key, current->key + current->size)`,
the sum taken modulo `2^32` -/
def find2Loop (key : KeyType) : Nat → Ptr → TreeM Ptr
  | 0, _ => throw .diverge
  | fuel + 1, current => do
    if current ≠ .sentinel then
      let n ← load current
      if n.key ≤ key ∧ key < n.key + n.size then return current
      else find2Loop key fuel (n.child (if key ≤ n.key then .left else .right))
    else return .null

def dsCodeRbtFind2 (H : Host) (key : KeyType) : TreeM Ptr := do
  find2Loop key H.fuel (← getRoot)

/-- erase the nodes that are found at `key` until there is none -/
def eraseLoop (H : Host) (key : KeyType) : Nat → TreeM Unit
  | 0 => throw .diverge
  | fuel + 1 => do
    let dup ← dsCodeRbtFind2 H key
    if dup = .null then pure ()
    else
      let _ ← rbtErase H dup
      eraseLoop H key fuel

def rbtInsert2 (H : Host) (key size : KeyType) (p : Record) : TreeM RbtStatus := do
  eraseLoop H key H.fuel
  rbtInsert H key size p

/-- the size is not used -/
def dsCodeEraseAll (H : Host) (key _size : KeyType) : TreeM Unit := eraseLoop H key H.fuel

/-- a read through a pointer that may have been freed: the cell holds its last contents -/
def peek (p : Ptr) : TreeM NodeType := fun s => .ok (s.mem p) s

def dsCodeAllDeleteRb (H : Host) (startAddr : KeyType) : TreeM Unit := do
  let p ← dsCodeRbtFind2 H startAddr
  if p ≠ .null then
    let _ ← rbtErase H p
    dsCodeEraseAll H startAddr (← peek p).size
  else pure ()

/-- the first object of a type enters the database (`lib_map.cpp`) -/
def setCreateSys (obj : BitVec 64) (data : DataIntem) : TreeM Unit := fun s =>
  .ok () (match s.database obj with
    | some _ => s
    | none => { s with database := fun t => if t = obj then some data else s.database t })

def dsCodeAllInsertRb (H : Host) (startAddr size : KeyType) (p : Record) : TreeM Unit := do
  setCreateSys p.type ⟨p.pc, size, p.objName.val⟩
  let code ← rbtInsert2 H startAddr size p
  if code ≠ .ok then throw .insertAssert else pure ()

/-- the static initialisers: an empty tree; cells that were never allocated hold anything -/
def TreeState.init (garbage : Ptr → NodeType) : TreeState where
  root := .sentinel
  mem p := if p = .sentinel then
      { left := .sentinel, right := .sentinel, parent := .null, color := .black,
        key := 0, size := 0, type := 0, pc := 0, objName := emptyName }
    else garbage p
  live := []
  mallocs := 0
  database _ := none

end RevSem
