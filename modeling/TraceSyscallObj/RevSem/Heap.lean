import TraceSyscallObj.Lib.Graft
import TraceSyscallObj.Lib.Run

/-!
# The node memory of the object tree (`heap_shadow.h`)

`NodeType` cells are addressed by `Ptr`: the null pointer, the static `sentinel` and the cells
that `malloc` hands out.  Reading or writing through a null or freed pointer is a fault.  The
host supplies `malloc` (any cell that is not in use) and a bound on the iterations of a loop; a
run that exceeds the bound ends in the fault `diverge`, so that termination has to be proved.

`TreeState.links` is the pointer part of the memory, `TreeState.rest` everything else; every
primitive write changes only one of the two.
-/

namespace RevSem
open PTree Run

inductive Ptr where
  | null
  | sentinel
  | cell (n : Nat)
  deriving DecidableEq, Repr

/-- `KeyType`: guest addresses and sizes wrap at 32 bits -/
abbrev KeyType := BitVec 32

inductive RbtStatus where
  | ok
  | memExhausted
  | duplicateKey
  | reallocSmall
  | reallocLarge
  | keyNotFound
  deriving DecidableEq, Repr

/-- what a node stores about its object, apart from the name -/
structure Entry where
  key : KeyType
  size : KeyType
  type : BitVec 64
  pc : BitVec 32
  deriving DecidableEq, Repr

/-- `char obj_name[30]` with a string in it, one character for a byte -/
abbrev ObjName := { s : String // s.length < 30 }

def emptyName : ObjName := ⟨"", by decide⟩

structure Record extends Entry where
  objName : ObjName
  deriving DecidableEq, Repr

structure NodeType extends Record where
  left : Ptr
  right : Ptr
  parent : Ptr
  color : Color
  deriving DecidableEq, Repr

def NodeType.child (n : NodeType) : Dir → Ptr
  | .left => n.left
  | .right => n.right

def NodeType.setChild (n : NodeType) (v : Ptr) : Dir → NodeType
  | .left => { n with left := v }
  | .right => { n with right := v }

/-- what the program takes from its host: `malloc` (never a cell in use), the hash of the
standard library and the loop bound of the model -/
structure Host where
  fuel : Nat
  malloc : Nat → List Nat → Nat
  malloc_fresh : ∀ k l, malloc k l ∉ l
  hash : String → BitVec 64

/-- a host that hands out the cells in order -/
def Host.bump (fuel : Nat) : Host where
  fuel := fuel
  malloc _ l := l.foldr max 0 + 1
  malloc_fresh := by
    intro _ l h
    have hle : ∀ (l : List Nat) (n : Nat), n ∈ l → n ≤ l.foldr max 0 := by
      intro l n hn
      induction l with
      | nil => cases hn
      | cons m l ih =>
        rw [List.foldr_cons]
        rcases List.mem_cons.mp hn with rfl | hn
        · exact Nat.le_max_left ..
        · exact Nat.le_trans (ih hn) (Nat.le_max_right ..)
    have := hle l _ h
    omega
  hash s := BitVec.ofNat 64 s.length

inductive Fault where
  | segv
  | diverge
  | insertAssert
  | readAssert
  | writeAssert
  /-- a string is copied past the end of its buffer -/
  | overflow
  /-- a walk over the frames of the guest that does not end -/
  | hang
  deriving DecidableEq, Repr

/-- `struct DataIntem`: what the database keeps about the first object of a type -/
structure DataIntem where
  pc : BitVec 32
  size : KeyType
  name : String
  deriving DecidableEq, Repr

structure TreeState where
  root : Ptr
  mem : Ptr → NodeType
  live : List Nat
  mallocs : Nat
  database : BitVec 64 → Option DataIntem

abbrev TreeM := EStateM Fault TreeState

def Ptr.validIn (live : List Nat) : Ptr → Prop
  | .null => False
  | .sentinel => True
  | .cell n => n ∈ live

instance (live : List Nat) : (p : Ptr) → Decidable (p.validIn live)
  | .null => inferInstanceAs (Decidable False)
  | .sentinel => inferInstanceAs (Decidable True)
  | .cell n => inferInstanceAs (Decidable (n ∈ live))

namespace TreeState

def store (s : TreeState) (p : Ptr) (f : NodeType → NodeType) : TreeState :=
  { s with mem := fun q => if q = p then f (s.mem q) else s.mem q }

def links (s : TreeState) : Links Ptr where
  nil := .sentinel
  null := .null
  root := s.root
  child p d := (s.mem p).child d
  parent p := (s.mem p).parent
  color p := (s.mem p).color

def record (s : TreeState) (p : Ptr) : Record := (s.mem p).toRecord

/-- everything but the pointers and colours -/
def rest (s : TreeState) : List Nat × Nat × (BitVec 64 → Option DataIntem) × (Ptr → Record) :=
  (s.live, s.mallocs, s.database, s.record)

end TreeState

/-! ## reading and writing through a pointer -/

/-- `*p` -/
def load (p : Ptr) : TreeM NodeType := fun s =>
  if p.validIn s.live then .ok (s.mem p) s else .error .segv s

def store (p : Ptr) (f : NodeType → NodeType) : TreeM Unit := fun s =>
  if p.validIn s.live then .ok () (s.store p f) else .error .segv s

/-- `p->left` or `p->right` -/
def childOf (p : Ptr) (d : Dir) : TreeM Ptr := do return (← load p).child d
def parentOf (p : Ptr) : TreeM Ptr := do return (← load p).parent
def colorOf (p : Ptr) : TreeM Color := do return (← load p).color
def setChild (p : Ptr) (d : Dir) (v : Ptr) : TreeM Unit := store p fun n => n.setChild v d
def setParent (p v : Ptr) : TreeM Unit := store p fun n => { n with parent := v }
def setColor (p : Ptr) (c : Color) : TreeM Unit := store p fun n => { n with color := c }
def getRoot : TreeM Ptr := fun s => .ok s.root s
def setRoot (v : Ptr) : TreeM Unit := fun s => .ok () { s with root := v }

/-- `malloc` of one node; the new cell holds what was there before -/
def mallocNode (H : Host) : TreeM Ptr := fun s =>
  let n := H.malloc s.mallocs s.live
  .ok (.cell n) { s with live := n :: s.live, mallocs := s.mallocs + 1 }

/-- `free(p)`: the contents stay where they are -/
def freeNode (p : Ptr) : TreeM Unit := fun s =>
  match p with
  | .cell n => if n ∈ s.live then .ok () { s with live := s.live.filter (· ≠ n) }
      else .error .segv s
  | _ => .error .segv s

/-! ## programs that only move pointers -/

/-- **From links `L` the program `m` returns `a` and leaves the links `L'`**, in every state with
the cells `live`; nothing but pointers and colours changes. -/
def Does (live : List Nat) {α : Type} (m : TreeM α) (L : Links Ptr) (a : α) (L' : Links Ptr) : Prop :=
  ∀ s : TreeState, s.live = live → s.links = L →
    ∃ s', m s = .ok a s' ∧ s'.links = L' ∧ s'.rest = s.rest

section
variable {live : List Nat} {L L₁ L₂ : Links Ptr} {α β : Type}

lemma Does.pure (a : α) : Does live (Pure.pure a) L a L := by
  intro s _ hL
  exact ⟨s, rfl, hL, rfl⟩

lemma Does.bind {m : TreeM α} {f : α → TreeM β} {a : α} {b : β} (h : Does live m L a L₁)
    (k : Does live (f a) L₁ b L₂) : Does live (m >>= f) L b L₂ := by
  intro s hs hL
  obtain ⟨s₁, h1, h2, h3⟩ := h s hs hL
  have hs₁ : s₁.live = live := (congrArg Prod.fst h3).trans hs
  obtain ⟨s₂, k1, k2, k3⟩ := k s₁ hs₁ h2
  exact ⟨s₂, (bind_ok h1).trans k1, k2, k3.trans h3⟩

lemma load_ok {p : Ptr} {s : TreeState} (h : p.validIn s.live) : load p s = .ok (s.mem p) s :=
  if_pos h

lemma store_ok {p : Ptr} {f : NodeType → NodeType} {s : TreeState} (h : p.validIn s.live) :
    store p f s = .ok () (s.store p f) := if_pos h

variable {p v : Ptr}

lemma childOf_does (hp : p.validIn live) (d : Dir) (h : L.child p d = v) :
    Does live (childOf p d) L v L := by
  intro s hs hL
  refine ⟨s, ?_, hL, rfl⟩
  have hv : (s.mem p).child d = v := by rw [← h, ← hL]; rfl
  rw [childOf, bind_ok (load_ok (hs ▸ hp)), hv]
  rfl

lemma parentOf_does (hp : p.validIn live) (h : L.parent p = v) : Does live (parentOf p) L v L := by
  intro s hs hL
  refine ⟨s, ?_, hL, rfl⟩
  have hv : (s.mem p).parent = v := by rw [← h, ← hL]; rfl
  rw [parentOf, bind_ok (load_ok (hs ▸ hp)), hv]
  rfl

lemma colorOf_does (hp : p.validIn live) {c : Color} (h : L.color p = c) :
    Does live (colorOf p) L c L := by
  intro s hs hL
  refine ⟨s, ?_, hL, rfl⟩
  have hv : (s.mem p).color = c := by rw [← h, ← hL]; rfl
  rw [colorOf, bind_ok (load_ok (hs ▸ hp)), hv]
  rfl

lemma getRoot_does (h : L.root = v) : Does live getRoot L v L := by
  intro s _ hL
  refine ⟨s, ?_, hL, rfl⟩
  have hv : s.root = v := by rw [← h, ← hL]; rfl
  rw [getRoot, hv]

lemma setRoot_does : Does live (setRoot v) L () (L.setRoot v) := by
  intro s _ hL
  refine ⟨_, rfl, ?_, rfl⟩
  rw [← hL]
  rfl

lemma store_rest {f : NodeType → NodeType} (hf : ∀ n, (f n).toRecord = n.toRecord)
    (s : TreeState) (p : Ptr) : (s.store p f).rest = s.rest := by
  have h : (s.store p f).record = s.record := by
    funext q
    show (if q = p then f (s.mem q) else s.mem q).toRecord = (s.mem q).toRecord
    split
    · exact hf _
    · rfl
  show (s.live, s.mallocs, s.database, (s.store p f).record) = _
  rw [h]
  rfl

lemma setChild_does (hp : p.validIn live) (d : Dir) :
    Does live (setChild p d v) L () (L.setChild p d v) := by
  intro s hs hL
  refine ⟨_, store_ok (hs ▸ hp), ?_, store_rest (fun n => by cases d <;> rfl) s p⟩
  rw [← hL]
  simp only [TreeState.links, TreeState.store, Links.setChild, Links.mk.injEq, true_and]
  refine ⟨?_, ?_, ?_⟩
  · funext q e
    by_cases h : q = p
    · cases d <;> cases e <;> simp [h, NodeType.child, NodeType.setChild]
    · simp [h]
  · funext q
    by_cases h : q = p
    · cases d <;> simp [h, NodeType.setChild]
    · simp [h]
  · funext q
    by_cases h : q = p
    · cases d <;> simp [h, NodeType.setChild]
    · simp [h]

lemma setParent_does (hp : p.validIn live) : Does live (setParent p v) L () (L.setParent p v) := by
  intro s hs hL
  refine ⟨_, store_ok (hs ▸ hp), ?_, by apply store_rest; intro n; rfl⟩
  rw [← hL]
  simp only [TreeState.links, TreeState.store, Links.setParent, Links.mk.injEq, true_and]
  refine ⟨?_, ?_, ?_⟩
  · funext q e
    by_cases h : q = p <;> simp [h, NodeType.child]
  · funext q
    by_cases h : q = p <;> simp [h]
  · funext q
    by_cases h : q = p <;> simp [h]

lemma setColor_does (hp : p.validIn live) {c : Color} :
    Does live (setColor p c) L () (L.setColor p c) := by
  intro s hs hL
  refine ⟨_, store_ok (hs ▸ hp), ?_, by apply store_rest; intro n; rfl⟩
  rw [← hL]
  simp only [TreeState.links, TreeState.store, Links.setColor, Links.mk.injEq, true_and]
  refine ⟨?_, ?_, ?_⟩
  · funext q e
    by_cases h : q = p <;> simp [h, NodeType.child]
  · funext q
    by_cases h : q = p <;> simp [h]
  · funext q
    by_cases h : q = p <;> simp [h]

lemma Does.ite_pos {b : Prop} [Decidable b] {m m' : TreeM α} {a : α} (hb : b)
    (h : Does live m L a L₁) : Does live (if b then m else m') L a L₁ := by
  rw [if_pos hb]; exact h

lemma Does.ite_neg {b : Prop} [Decidable b] {m m' : TreeM α} {a : α} (hb : ¬ b)
    (h : Does live m' L a L₁) : Does live (if b then m else m') L a L₁ := by
  rw [if_neg hb]; exact h

end

end RevSem
