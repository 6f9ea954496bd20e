import Mathlib
import TraceSyscallObj.Lib.Digits
import TraceSyscallObj.RevSem.Flags
import TraceSyscallObj.RevSem.Lookup

/-!
# Point-to and traverse edges (`helper_store1`, `helper_load1`)

A 4-byte store is to record which object points to which, a 4-byte load which object is reached
through which.  Both hooks look two words up in the object tree.

* `helperStore1`, `helperLoad1`: the hooks; the store looks up the word that lay at its address, not
  the address;
* `genOpStV1`, `genOpLdV1`: the calls that the translator emits;
* `PointsRight`, `TraversesRight`: what should be recorded;
* `pointsRight_iff`, `traversesRight_iff`: when it is.
-/

namespace RevSem
open Function PTree Run

/-- the globals of the two hooks; a map without an entry holds the empty set -/
structure Edges where
  tree : TreeState
  gPc : BitVec 32
  gPointTo : BitVec 32 → Finset String
  gTraverse : BitVec 64 → Finset String

abbrev EdgesM := EStateM Fault Edges

def edgeLine (head : Nat) (src : BitVec 64) (off1 : BitVec 32) (dst : BitVec 64)
    (off2 : BitVec 32) : String :=
  hex head ++ " " ++ hex src.toNat ++ ":" ++ hex off1.toNat ++ "->" ++ hex dst.toNat ++ ":" ++
    hex off2.toNat

def addPointTo (pc : BitVec 32) (src : BitVec 64) (off1 : BitVec 32) (dst : BitVec 64)
    (off2 : BitVec 32) (σ : Edges) : Edges :=
  let line := edgeLine pc.toNat src off1 dst off2
  { σ with gPointTo := update σ.gPointTo pc (insert line (σ.gPointTo pc)) }

/-- the edge goes to the others of its call stack -/
def Edges.traversed (σ : Edges) (callstack : BitVec 64) (line : String) : Edges :=
  { σ with gTraverse := update σ.gTraverse callstack (insert line (σ.gTraverse callstack)) }

def addTraverse (H : Host) (cpu : Cpu) (pc : BitVec 32) (src : BitVec 64) (off1 : BitVec 32)
    (dst : BitVec 64) (off2 : BitVec 32) : EdgesM Unit := do
  let callstack ← hashCallstack H cpu pc
  modify (·.traversed callstack (edgeLine callstack.toNat src off1 dst off2))

/-- `(s = ds_code_rbtFind2(a)) && (d = ds_code_rbtFind2(b))`, with the nodes -/
def lookupBoth (H : Host) (a b : Addr) : TreeM (Option (NodeType × NodeType)) := do
  let s ← dsCodeRbtFind2 H a
  if s = .null then pure none
  else
    let d ← dsCodeRbtFind2 H b
    if d = .null then pure none
    else
      let sn ← load s
      let dn ← load d
      pure (some (sn, dn))

def onBoth (H : Host) (a b : Addr) (act : NodeType → NodeType → EdgesM Unit) : EdgesM Unit :=
  fun σ =>
  match lookupBoth H a b σ.tree with
  | .ok (some (s, d)) t => act s d { σ with tree := t }
  | .ok none t => .ok () { σ with tree := t }
  | .error e t => .error e { σ with tree := t }

/-- `cpu.readMem` is what `PEMU_read_mem` leaves in the local variable -/
def helperLoad1 (H : Host) (src size : BitVec 32) (cpu : Cpu) : EdgesM Unit :=
  if src < 0xc0000000 ∨ size ≠ 4 then pure ()
  else
    let dst := cpu.readMem src
    onBoth H src dst fun s d => do
      addTraverse H cpu (← get).gPc s.type (src - s.key) d.type (dst - d.key)

/-- `src` is the value that will be stored at `addr` -/
def helperStore1 (H : Host) (src addr size : BitVec 32) (cpu : Cpu) : EdgesM Unit :=
  if src < 0xc0000000 ∨ size ≠ 4 then pure ()
  else
    let dst := cpu.readMem addr
    onBoth H src dst fun s d =>
      modify fun σ => addPointTo σ.gPc d.type (dst - d.key) s.type (src - s.key) σ

/-- the second hook of `gen_op_ld_v` and `gen_op_lds_T0_A0` -/
def genOpLdV1 (H : Host) (disasPc idx a0 : BitVec 32) (cpu : Cpu) : EdgesM Unit :=
  if disasPc < KERNEL_ADDR_MIN then pure () else helperLoad1 H a0 (accessSize idx) cpu

/-- the second hook of `gen_op_st_v` -/
def genOpStV1 (H : Host) (disasPc idx t0 a0 : BitVec 32) (cpu : Cpu) : EdgesM Unit :=
  if disasPc < KERNEL_ADDR_MIN then pure () else helperStore1 H t0 a0 (accessSize idx) cpu

/-! ## texts -/

section text
variable {h h' : Nat} {s s' d d' : BitVec 64} {o o' q q' : BitVec 32}

lemma edgeLine_toList : (edgeLine h s o d q).toList =
    Nat.toDigits 16 h ++ ' ' :: (Nat.toDigits 16 s.toNat ++ ':' :: (Nat.toDigits 16 o.toNat ++
      '-' :: '>' :: (Nat.toDigits 16 d.toNat ++ ':' :: Nat.toDigits 16 q.toNat))) := by
  simp [edgeLine, hex]

lemma edgeLine_inj (heq : edgeLine h s o d q = edgeLine h' s' o' d' q') :
    s = s' ∧ o = o' ∧ d = d' ∧ q = q' := by
  have hl := congrArg String.toList heq
  rw [edgeLine_toList, edgeLine_toList] at hl
  obtain ⟨-, hl⟩ := Digits.append_sep_inj (by decide) hl
  obtain ⟨hs, hl⟩ := Digits.append_sep_inj (by decide) hl
  obtain ⟨ho, hl⟩ := Digits.append_sep_inj (by decide) hl
  obtain ⟨hd, hl⟩ := Digits.append_sep_inj (by decide) (List.cons.inj hl).2
  exact ⟨BitVec.eq_of_toNat_eq hs, BitVec.eq_of_toNat_eq ho, BitVec.eq_of_toNat_eq hd,
    BitVec.eq_of_toNat_eq (Digits.toDigits_inj hl)⟩

end text

/-! ## what a lookup finds -/

/-- the node that `ds_code_rbtFind2` returns -/
def foundAt (H : Host) (s : TreeState) (a : Addr) : Ptr :=
  (valueOf (dsCodeRbtFind2 H a s)).getD .null

/-- the text for `x` in the object `p` and `y` in the object `q` -/
def lineOf (s : TreeState) (head : Nat) (p : Ptr) (x : Addr) (q : Ptr) (y : Addr) : String :=
  edgeLine head (s.entryOf p).type (x - (s.entryOf p).key) (s.entryOf q).type
    (y - (s.entryOf q).key)

/-- the same offset in objects of the same type -/
def SamePlace (s : TreeState) (p : Ptr) (x : Addr) (q : Ptr) (y : Addr) : Prop :=
  (s.entryOf p).type = (s.entryOf q).type ∧ x - (s.entryOf p).key = y - (s.entryOf q).key

section found
variable {H : Host} {s : TreeState} {t : CTree Ptr} {a b : Addr} {σ : Edges}
  {act : NodeType → NodeType → EdgesM Unit}

lemma lineOf_eq_iff {head : Nat} {p p' q : Ptr} {x x' y : Addr} :
    lineOf s head p x q y = lineOf s head p' x' q y ↔ SamePlace s p x p' x' := by
  constructor
  · intro h
    obtain ⟨h1, h2, -⟩ := edgeLine_inj h
    exact ⟨h1, h2⟩
  · rintro ⟨h1, h2⟩
    unfold lineOf
    rw [h1, h2]

lemma IsSearchTree.foundAt_eq (h : IsSearchTree s t) (hf : t.ptrs.length < H.fuel)
    (a : KeyType) : foundAt H s a = searchIn s a t := by
  unfold foundAt
  rw [h.holds.find2_search hf]
  rfl

lemma IsSearchTree.find2_found (h : IsSearchTree s t) (hf : t.ptrs.length < H.fuel) (a : Addr) :
    dsCodeRbtFind2 H a s = .ok (foundAt H s a) s ∧
      (foundAt H s a ≠ .null → foundAt H s a ∈ t.ptrs ∧ (s.entryOf (foundAt H s a)).covers a) := by
  rw [h.foundAt_eq hf]
  refine ⟨h.holds.find2_search hf a, fun hne => ?_⟩
  obtain hp | ⟨hp, -⟩ := searchIn_spec (a := a) h.ordered
  · exact hp
  · exact absurd hp hne

lemma IsSearchTree.found_has (h : IsSearchTree s t) (hf : t.ptrs.length < H.fuel)
    (hne : foundAt H s a ≠ .null) : foundAt H s a ∈ t.ptrs ∧ (s.entryOf (foundAt H s a)).has a := by
  obtain ⟨hmem, hcov⟩ := (h.find2_found hf a).2 hne
  refine ⟨hmem, ?_⟩
  unfold Entry.covers at hcov
  unfold Entry.has Entry.stop
  bv_omega

lemma RangesDisjoint.eq_of_has (ha : RangesDisjoint s t) {p q : Ptr} (hp : p ∈ t.ptrs)
    (hq : q ∈ t.ptrs) (hpa : (s.entryOf p).has a) (hqa : (s.entryOf q).has a) : p = q := by
  by_contra hne
  exact ha p hp q hq hne a ⟨hpa, hqa⟩

lemma lookupBoth_eq (h : IsSearchTree s t) (hf : t.ptrs.length < H.fuel) :
    lookupBoth H a b s = .ok (if foundAt H s a = .null ∨ foundAt H s b = .null then none
      else some (s.mem (foundAt H s a), s.mem (foundAt H s b))) s := by
  obtain ⟨hra, hpa⟩ := h.find2_found hf a
  obtain ⟨hrb, hpb⟩ := h.find2_found hf b
  unfold lookupBoth
  rw [bind_ok hra]
  by_cases h1 : foundAt H s a = .null
  · rw [if_pos h1, if_pos (.inl h1)]
    rfl
  rw [if_neg h1, bind_ok hrb]
  by_cases h2 : foundAt H s b = .null
  · rw [if_pos h2, if_pos (.inr h2)]
    rfl
  rw [if_neg h2, bind_ok (load_ok (h.holds.node_ne (hpa h1).1).2.2),
    bind_ok (load_ok (h.holds.node_ne (hpb h2).1).2.2), if_neg (by tauto)]
  rfl

lemma onBoth_eq (h : IsSearchTree σ.tree t) (hf : t.ptrs.length < H.fuel) :
    onBoth H a b act σ =
      if foundAt H σ.tree a = .null ∨ foundAt H σ.tree b = .null then .ok () σ
      else act (σ.tree.mem (foundAt H σ.tree a)) (σ.tree.mem (foundAt H σ.tree b)) σ := by
  unfold onBoth
  rw [lookupBoth_eq h hf]
  by_cases h1 : foundAt H σ.tree a = .null ∨ foundAt H σ.tree b = .null
  · rw [if_pos h1, if_pos h1]
  · rw [if_neg h1, if_neg h1]

end found

/-! ## stores -/

section store
variable (H : Host) (t : CTree Ptr) (cpu : Cpu) (v a : BitVec 32) (σ : Edges)

/-- **The edge from the place at `a` to the place at `v` is added, and no other one.** -/
def PointsRight (run : EStateM.Result Fault Edges Unit) : Prop :=
  ∃ σ', run = .ok () σ' ∧ ∀ pc line, line ∈ σ'.gPointTo pc ↔ line ∈ σ.gPointTo pc ∨
    pc = σ.gPc ∧ ∃ o1 ∈ t.ptrs, ∃ o2 ∈ t.ptrs,
      (σ.tree.entryOf o1).has a ∧ (σ.tree.entryOf o2).has v ∧
        line = lineOf σ.tree σ.gPc.toNat o1 a o2 v

/-- what makes the two agree, on the state before the store and the word that lies at `a` -/
structure StoreFits : Prop where
  /-- an edge that is due is known, or the old word lies at a place like that of `a` -/
  gained : ∀ o1 ∈ t.ptrs, ∀ o2 ∈ t.ptrs,
    (σ.tree.entryOf o1).has a → (σ.tree.entryOf o2).has v →
    lineOf σ.tree σ.gPc.toNat o1 a o2 v ∈ σ.gPointTo σ.gPc ∨
      ¬ v < 0xc0000000 ∧ foundAt H σ.tree v = o2 ∧ foundAt H σ.tree (cpu.readMem a) ≠ .null ∧
        SamePlace σ.tree o1 a (foundAt H σ.tree (cpu.readMem a)) (cpu.readMem a)
  /-- if the old word lies in an object, the edge is known, or `a` lies at such a place -/
  only : ¬ v < 0xc0000000 → foundAt H σ.tree v ≠ .null →
    foundAt H σ.tree (cpu.readMem a) ≠ .null →
    lineOf σ.tree σ.gPc.toNat (foundAt H σ.tree (cpu.readMem a)) (cpu.readMem a)
        (foundAt H σ.tree v) v ∈ σ.gPointTo σ.gPc ∨
      ∃ o1 ∈ t.ptrs, (σ.tree.entryOf o1).has a ∧
        SamePlace σ.tree o1 a (foundAt H σ.tree (cpu.readMem a)) (cpu.readMem a)

variable {H t cpu v a σ}

lemma helperStore1_eq (cpu : Cpu) (v a : BitVec 32) (h : IsSearchTree σ.tree t)
    (hf : t.ptrs.length < H.fuel) :
    ∃ σ', helperStore1 H v a 4 cpu σ = .ok () σ' ∧ ∀ pc line, line ∈ σ'.gPointTo pc ↔
      line ∈ σ.gPointTo pc ∨ pc = σ.gPc ∧ ¬ v < 0xc0000000 ∧ foundAt H σ.tree v ≠ .null ∧
        foundAt H σ.tree (cpu.readMem a) ≠ .null ∧
        line = lineOf σ.tree σ.gPc.toNat (foundAt H σ.tree (cpu.readMem a)) (cpu.readMem a)
          (foundAt H σ.tree v) v := by
  unfold helperStore1
  by_cases hv : v < 0xc0000000
  · rw [if_pos (.inl hv)]
    refine ⟨σ, rfl, fun pc line => ⟨.inl, fun hm => ?_⟩⟩
    obtain hm | ⟨-, hn, -⟩ := hm
    · exact hm
    · exact absurd hv hn
  rw [if_neg (by tauto), onBoth_eq h hf]
  by_cases hn : foundAt H σ.tree v = .null ∨ foundAt H σ.tree (cpu.readMem a) = .null
  · rw [if_pos hn]
    refine ⟨σ, rfl, fun pc line => ⟨.inl, fun hm => ?_⟩⟩
    obtain hm | ⟨-, -, h1, h2, -⟩ := hm
    · exact hm
    · exact absurd hn (not_or.2 ⟨h1, h2⟩)
  · rw [if_neg hn]
    rw [not_or] at hn
    refine ⟨_, rfl, fun pc line => ?_⟩
    show line ∈ update σ.gPointTo σ.gPc _ pc ↔ _
    by_cases hpc : pc = σ.gPc
    · subst hpc
      rw [update_self, Finset.mem_insert]
      constructor
      · rintro (rfl | hm)
        · exact .inr ⟨rfl, hv, hn.1, hn.2, rfl⟩
        · exact .inl hm
      · rintro (hm | ⟨-, -, -, -, rfl⟩)
        · exact .inr hm
        · exact .inl rfl
    · rw [update_of_ne hpc]
      exact ⟨.inl, fun hm => hm.resolve_right fun hh => hpc hh.1⟩

/-- **A 4-byte kernel store records the right edge exactly when the word that lay at its address
is in a place like that of the address.** -/
theorem pointsRight_iff {m : MmuIdx} {pc : BitVec 32} (h : IsSearchTree σ.tree t)
    (ha : RangesDisjoint σ.tree t) (hf : t.ptrs.length < H.fuel) (hm : m ≠ .user)
    (hpc : ¬ pc < KERNEL_ADDR_MIN) :
    PointsRight t v a σ (genOpStV1 H pc (Ot.long.code + memIndex m) v a cpu σ) ↔
      StoreFits H t cpu v a σ := by
  obtain ⟨σ', hrun, hmem⟩ := helperStore1_eq cpu v a h hf
  have hgen : genOpStV1 H pc (Ot.long.code + memIndex m) v a cpu σ = .ok () σ' := by
    unfold genOpStV1
    rw [if_neg hpc, accessSize_kernel .long hm, hrun]
  constructor
  · rintro ⟨σ₁, hrun₁, hright⟩
    rw [hgen] at hrun₁
    cases hrun₁
    refine ⟨fun o1 ho1 o2 ho2 h1 h2 => ?_, fun hv hfv hfo => ?_⟩
    · have hin := (hright σ.gPc _).2 (.inr ⟨rfl, o1, ho1, o2, ho2, h1, h2, rfl⟩)
      obtain hin | ⟨-, hv, hfv, hfo, heq⟩ := (hmem _ _).1 hin
      · exact .inl hin
      · obtain ⟨hmem2, hhas2⟩ := h.found_has hf hfv
        have ho : foundAt H σ.tree v = o2 := ha.eq_of_has hmem2 ho2 hhas2 h2
        rw [ho] at heq
        exact .inr ⟨hv, ho, hfo, lineOf_eq_iff.1 heq⟩
    · have hin := (hmem σ.gPc _).2 (.inr ⟨rfl, hv, hfv, hfo, rfl⟩)
      obtain hin | ⟨-, o1, ho1, o2, ho2, h1, h2, heq⟩ := (hright _ _).1 hin
      · exact .inl hin
      · obtain ⟨hmem2, hhas2⟩ := h.found_has hf hfv
        have ho : foundAt H σ.tree v = o2 := ha.eq_of_has hmem2 ho2 hhas2 h2
        rw [ho] at heq
        exact .inr ⟨o1, ho1, h1, lineOf_eq_iff.1 heq.symm⟩
  · rintro ⟨hgained, honly⟩
    refine ⟨σ', hgen, fun g line => ?_⟩
    rw [hmem]
    constructor
    · rintro (hin | ⟨rfl, hv, hfv, hfo, rfl⟩)
      · exact .inl hin
      · obtain hin | ⟨o1, ho1, h1, hsame⟩ := honly hv hfv hfo
        · exact .inl hin
        · obtain ⟨hmem2, hhas2⟩ := h.found_has hf hfv
          exact .inr ⟨rfl, o1, ho1, _, hmem2, h1, hhas2, (lineOf_eq_iff.2 hsame).symm⟩
    · rintro (hin | ⟨rfl, o1, ho1, o2, ho2, h1, h2, rfl⟩)
      · exact .inl hin
      obtain hin | ⟨hv, ho, hfo, hsame⟩ := hgained o1 ho1 o2 ho2 h1 h2
      · exact .inl hin
      have hne : foundAt H σ.tree v ≠ .null := by
        rw [ho]
        exact (h.holds.node_ne ho2).2.1
      refine .inr ⟨rfl, hv, hne, hfo, ?_⟩
      rw [ho]
      exact lineOf_eq_iff.2 hsame

end store

/-! ## loads -/

section load
variable (H : Host) (t : CTree Ptr) (cpu : Cpu) (m : MmuIdx) (ot : Ot) (a : BitVec 32) (σ : Edges)

/-- a 4-byte load from an object of a word that lies in an object -/
def EdgeDue : Prop :=
  ot = .long ∧ (∃ o1 ∈ t.ptrs, (σ.tree.entryOf o1).has a) ∧
    ∃ o2 ∈ t.ptrs, (σ.tree.entryOf o2).has (cpu.readMem a)

/-- the texts of the edges from an object at `a` to one at the word there -/
def IsEdge (callstack : BitVec 64) (line : String) : Prop :=
  ∃ o1 ∈ t.ptrs, ∃ o2 ∈ t.ptrs,
    (σ.tree.entryOf o1).has a ∧ (σ.tree.entryOf o2).has (cpu.readMem a) ∧
      line = lineOf σ.tree callstack.toNat o1 a o2 (cpu.readMem a)

/-- **An edge that is due is recorded under the call stack of the load; nothing else is.** -/
def TraversesRight (run : EStateM.Result Fault Edges Unit) : Prop :=
  (EdgeDue t cpu ot a σ → ∃ cs line, cpu.callstackEbp σ.gPc = some cs ∧
    IsEdge t cpu a σ (H.hash cs) line ∧ run = .ok () (σ.traversed (H.hash cs) line)) ∧
  (¬ EdgeDue t cpu ot a σ → run = .ok () σ)

/-- the load is made in kernel mode at a kernel address, and both lookups find something -/
def LoadSeen : Prop :=
  m ≠ .user ∧ ¬ a < 0xc0000000 ∧ foundAt H σ.tree a ≠ .null ∧
    foundAt H σ.tree (cpu.readMem a) ≠ .null

structure LoadFits : Prop where
  /-- if an edge is due, the walk over the frames returns, and the load is seen or an edge known -/
  gained : EdgeDue t cpu ot a σ → ∃ cs, cpu.callstackEbp σ.gPc = some cs ∧
    (LoadSeen H cpu m a σ ∨
      ∃ line, IsEdge t cpu a σ (H.hash cs) line ∧ line ∈ σ.gTraverse (H.hash cs))
  /-- a load of another width is not seen, or the edge is known -/
  only : ot ≠ .long → LoadSeen H cpu m a σ → ∃ cs, cpu.callstackEbp σ.gPc = some cs ∧
    lineOf σ.tree (H.hash cs).toNat (foundAt H σ.tree a) a
      (foundAt H σ.tree (cpu.readMem a)) (cpu.readMem a) ∈ σ.gTraverse (H.hash cs)

variable {H t cpu m ot a σ}

lemma accessSize_user (ot : Ot) : accessSize (ot.code + memIndex .user) ≠ 4 := by
  cases ot <;> decide

lemma traversed_eq_iff {callstack : BitVec 64} {line : String} :
    σ.traversed callstack line = σ ↔ line ∈ σ.gTraverse callstack := by
  constructor
  · intro h
    rw [← h]
    show line ∈ update σ.gTraverse callstack _ callstack
    rw [update_self]
    exact Finset.mem_insert_self ..
  · intro h
    unfold Edges.traversed
    rw [Finset.insert_eq_of_mem h, update_eq_self]

section
variable {pc : BitVec 32} (h : IsSearchTree σ.tree t) (hf : t.ptrs.length < H.fuel)
  (hpc : ¬ pc < KERNEL_ADDR_MIN)
include h hf

lemma LoadSeen.isEdge (hseen : LoadSeen H cpu m a σ) (callstack : BitVec 64) :
    IsEdge t cpu a σ callstack (lineOf σ.tree callstack.toNat (foundAt H σ.tree a) a
      (foundAt H σ.tree (cpu.readMem a)) (cpu.readMem a)) := by
  obtain ⟨h1, h2⟩ := h.found_has hf hseen.2.2.1
  obtain ⟨h3, h4⟩ := h.found_has hf hseen.2.2.2
  exact ⟨_, h1, _, h3, h2, h4, rfl⟩

include hpc

lemma genOpLdV1_unseen (ot : Ot) (hseen : ¬ LoadSeen H cpu m a σ) :
    genOpLdV1 H pc (ot.code + memIndex m) a cpu σ = .ok () σ := by
  unfold genOpLdV1 helperLoad1
  rw [if_neg hpc]
  by_cases hskipped : a < 0xc0000000 ∨ accessSize (ot.code + memIndex m) ≠ 4
  · rw [if_pos hskipped]
    rfl
  rw [if_neg hskipped]
  rw [not_or, not_not] at hskipped
  have hm : m ≠ .user := by
    rintro rfl
    exact accessSize_user ot hskipped.2
  refine (onBoth_eq h hf).trans (if_pos ?_)
  by_contra hn
  exact hseen ⟨hm, hskipped.1, not_or.1 hn⟩

lemma genOpLdV1_seen (ot : Ot) (hseen : LoadSeen H cpu m a σ) :
    genOpLdV1 H pc (ot.code + memIndex m) a cpu σ =
      match cpu.callstackEbp σ.gPc with
      | some cs => .ok () (σ.traversed (H.hash cs) (lineOf σ.tree (H.hash cs).toNat
          (foundAt H σ.tree a) a (foundAt H σ.tree (cpu.readMem a)) (cpu.readMem a)))
      | none => .error .hang σ := by
  obtain ⟨hm, ha, hfound⟩ := hseen
  unfold genOpLdV1 helperLoad1
  rw [if_neg hpc, accessSize_kernel ot hm, if_neg (by tauto)]
  refine (onBoth_eq h hf).trans ?_
  rw [if_neg (not_or.2 hfound)]
  show EStateM.bind (EStateM.bind (readCallstack cpu σ.gPc) _) _ σ = _
  unfold EStateM.bind readCallstack
  cases cpu.callstackEbp σ.gPc with
  | none => rfl
  | some cs => rfl

/-- **A load in kernel code is recorded rightly exactly when it is 4 bytes wide and seen, with a
call stack that can be read, or there is nothing to record and nothing to see.** -/
theorem traversesRight_iff :
    TraversesRight H t cpu ot a σ (genOpLdV1 H pc (ot.code + memIndex m) a cpu σ) ↔
      LoadFits H t cpu m ot a σ := by
  by_cases hseen : LoadSeen H cpu m a σ
  · have hrun := genOpLdV1_seen h hf hpc ot hseen
    have hedge := hseen.isEdge h hf
    have hdue : ot = .long → EdgeDue t cpu ot a σ := by
      intro hot
      obtain ⟨o1, h1, o2, h2, h3, h4, -⟩ := hedge 0
      exact ⟨hot, ⟨o1, h1, h3⟩, o2, h2, h4⟩
    constructor
    · rintro ⟨hright, hquiet⟩
      refine ⟨fun hd => ?_, fun hot _ => ?_⟩
      · obtain ⟨cs, -, hcs, -⟩ := hright hd
        exact ⟨cs, hcs, .inl hseen⟩
      · have hnone := hquiet fun hd => hot hd.1
        rw [hrun] at hnone
        cases hcs : cpu.callstackEbp σ.gPc with
        | none =>
          rw [hcs] at hnone
          cases hnone
        | some cs =>
          rw [hcs] at hnone
          injection hnone with _ hnone
          exact ⟨cs, rfl, traversed_eq_iff.1 hnone⟩
    · rintro ⟨hgained, honly⟩
      refine ⟨fun hd => ?_, fun hd => ?_⟩
      · obtain ⟨cs, hcs, -⟩ := hgained hd
        refine ⟨cs, _, hcs, hedge _, ?_⟩
        rw [hrun, hcs]
      · obtain ⟨cs, hcs, hknown⟩ := honly (fun hot => hd (hdue hot)) hseen
        rw [hrun, hcs]
        exact congrArg _ (traversed_eq_iff.2 hknown)
  · have hrun := genOpLdV1_unseen h hf hpc ot hseen
    rw [hrun]
    constructor
    · rintro ⟨hright, -⟩
      refine ⟨fun hd => ?_, fun _ hs => absurd hs hseen⟩
      obtain ⟨cs, line, hcs, hline, heq⟩ := hright hd
      injection heq with _ heq
      exact ⟨cs, hcs, .inr ⟨line, hline, traversed_eq_iff.1 heq.symm⟩⟩
    · rintro ⟨hgained, -⟩
      refine ⟨fun hd => ?_, fun _ => rfl⟩
      obtain ⟨cs, hcs, hs | ⟨line, hline, hknown⟩⟩ := hgained hd
      · exact absurd hs hseen
      · exact ⟨cs, line, hcs, hline, congrArg _ (traversed_eq_iff.2 hknown).symm⟩

end

end load

/-! ## two objects of 16 bytes -/

/-- the objects at `0xc0200000` and `0xc0100000`, and no edges yet -/
def twoPlaces : Edges where
  tree := stateOf (runOps (.bump 4) (twoObjects 0xc0200000 16 0xc0100000 16) (.init blank))
  gPc := 0xc1000000
  gPointTo _ := ∅
  gTraverse _ := ∅

/-- a guest whose memory holds `word` everywhere -/
def cpuWith (word : BitVec 32) : Cpu where
  eax := 0
  edx := 0
  esp := 0
  readMem _ := word
  readStr _ := ""
  callstackEbp _ := some ""
  stale := ⟨"", 0⟩

lemma twoPlaces_search : IsSearchTree twoPlaces.tree twoNodes := by
  refine isSearchTree_twoNodes (by decide) (by decide) ?_ ?_ ?_ (by decide)
  · unfold Links.Cell
    decide
  · unfold Links.Cell
    decide
  · refine ⟨by decide, fun d => ?_⟩
    cases d <;> decide

lemma twoPlaces_apart : RangesApart twoPlaces.tree twoNodes := by
  refine rangesApart_twoNodes (.inr ?_) ?_ ?_
  · unfold Entry.stop
    decide
  · unfold Entry.stop
    decide
  · unfold Entry.stop
    decide

/-- the word at the address already points to the address itself -/
theorem pointsRight_self :
    PointsRight twoNodes 0xc0200004 0xc0100008 twoPlaces
      (genOpStV1 (.bump 4) 0xc1000000 (Ot.long.code + memIndex .kernel) 0xc0200004 0xc0100008
        (cpuWith 0xc0100008) twoPlaces) := by
  have hv : foundAt (.bump 4) twoPlaces.tree 0xc0200004 = .cell 1 := by decide
  have h1 : (twoPlaces.tree.entryOf (.cell 1)).has 0xc0200004 := by
    unfold Entry.has Entry.stop
    decide
  have h2 : (twoPlaces.tree.entryOf (.cell 2)).has 0xc0100008 := by
    unfold Entry.has Entry.stop
    decide
  have hc1 : .cell 1 ∈ twoNodes.ptrs := by decide
  have hc2 : .cell 2 ∈ twoNodes.ptrs := by decide
  refine (pointsRight_iff twoPlaces_search twoPlaces_apart.disjoint (by decide) (by decide)
    (by decide)).2 ⟨fun o1 ho1 o2 ho2 hh1 hh2 => .inr ⟨by decide, ?_, ?_, ?_⟩,
      fun _ _ _ => .inr ⟨.cell 2, hc2, h2, ?_⟩⟩
  · rw [hv]
    exact twoPlaces_apart.disjoint.eq_of_has hc1 ho2 h1 hh2
  · show foundAt _ _ 0xc0100008 ≠ _
    decide
  · show SamePlace _ o1 _ (foundAt _ _ 0xc0100008) 0xc0100008
    rw [twoPlaces_apart.disjoint.eq_of_has ho1 hc2 hh1 h2]
    exact ⟨rfl, rfl⟩
  · show SamePlace _ _ _ (foundAt _ _ 0xc0100008) 0xc0100008
    exact ⟨rfl, rfl⟩

/-- A pointer to one object is stored into the other one, where 0 lies: nothing is recorded. -/
theorem store_unrecorded : IsSearchTree twoPlaces.tree twoNodes ∧
    RangesApart twoPlaces.tree twoNodes ∧
    ¬ PointsRight twoNodes 0xc0200004 0xc0100008 twoPlaces
      (genOpStV1 (.bump 4) 0xc1000000 (Ot.long.code + memIndex .kernel) 0xc0200004 0xc0100008
        (cpuWith 0) twoPlaces) := by
  refine ⟨twoPlaces_search, twoPlaces_apart, ?_⟩
  rintro ⟨σ', hrun, hright⟩
  cases hrun
  have hin := (hright twoPlaces.gPc _).2 (.inr ⟨rfl, .cell 2, by decide, .cell 1, by decide,
    by unfold Entry.has Entry.stop; decide, by unfold Entry.has Entry.stop; decide, rfl⟩)
  exact absurd hin (Finset.notMem_empty _)

/-- a 4-byte load of a pointer to the second object from the first one -/
theorem traversesRight_long :
    TraversesRight (.bump 4) twoNodes (cpuWith 0xc0200004) .long 0xc0100008 twoPlaces
      (genOpLdV1 (.bump 4) 0xc1000000 (Ot.long.code + memIndex .kernel) 0xc0100008
        (cpuWith 0xc0200004) twoPlaces) :=
  (traversesRight_iff twoPlaces_search (by decide) (by decide)).2
    ⟨fun _ => ⟨"", rfl, .inl ⟨by decide, by decide, by decide, by decide⟩⟩,
      fun hot => absurd rfl hot⟩

/-- A byte load at such a place records an edge. -/
theorem byte_load_recorded : IsSearchTree twoPlaces.tree twoNodes ∧
    ¬ TraversesRight (.bump 4) twoNodes (cpuWith 0xc0200004) .byte 0xc0100008 twoPlaces
      (genOpLdV1 (.bump 4) 0xc1000000 (Ot.byte.code + memIndex .kernel) 0xc0100008
        (cpuWith 0xc0200004) twoPlaces) := by
  refine ⟨twoPlaces_search, fun ⟨_, hquiet⟩ => ?_⟩
  have hrun := hquiet fun hd => nomatch hd.1
  injection hrun with _ hrun
  exact absurd (traversed_eq_iff.1 hrun) (Finset.notMem_empty _)

end RevSem
