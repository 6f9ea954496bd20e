import TraceSyscallObj.Lib.Checked
import TraceSyscallObj.X86.MmuRights

/-!
# The software TLB

Model of `tlb_flush`, `tlb_flush_page`, `tlb_add_large_page` and `tlb_set_page` in `cputlb.c`.  The
TLB holds small pages only; the area of the large pages it was filled from is remembered as one
address and one mask, and a flush of a page in this area flushes everything.  What the physical side
of `tlb_set_page` finds out about the section is part of the call.

* `tlbSetPage`, `tlbFlushPage`, `tlbFlush`;
* `installed`: the call that a slot was last filled by;
* `Inv`: every entry is in the slot of its page, and the area covers every large page that an entry
  comes from;
* `flush_page_complete`, `hit_granted`.
-/

namespace Tlb
open BitVec
open X86 (Target TargetUlong Access MmuIdx Prot TARGET_PAGE_MASK)
open Checked Run
variable {k : Nat} {i : BitVec 8}

section
variable (t : Target)
def TARGET_PAGE_SIZE : TargetUlong t := BitVec.twoPow _ 12
def TLB_INVALID_MASK : TargetUlong t := BitVec.twoPow _ 3
def TLB_NOTDIRTY : TargetUlong t := BitVec.twoPow _ 4
def TLB_MMIO : TargetUlong t := BitVec.twoPow _ 5

/-- `CPUTLBEntry`, without the addend -/
structure Entry where
  addrRead : TargetUlong t
  addrWrite : TargetUlong t
  addrCode : TargetUlong t
  deriving DecidableEq

def sCputlbEmptyEntry : Entry t where
  addrRead := -1
  addrWrite := -1
  addrCode := -1

/-- `CPU_TLB_BITS` is 8 -/
structure State where
  tlbTable : MmuIdx → BitVec 8 → Entry t
  tlbFlushAddr : TargetUlong t
  tlbFlushMask : TargetUlong t

inductive Hang
  | hang
  deriving DecidableEq

/-- what is known about the memory behind the page -/
structure Section where
  /-- neither RAM nor ROM device -/
  io : Bool
  /-- read-only RAM or ROM device -/
  rom : Bool
  /-- RAM that is not dirty -/
  notDirty : Bool
  /-- a watchpoint on the page -/
  watch : Bool

/-- the arguments of `tlb_set_page`; `vaddr` is the address of a small page in a guest page whose
size is a power of two -/
structure SetPage where
  vaddr : TargetUlong t
  sectn : Section
  prot : Prot
  mmuIdx : MmuIdx
  size : TargetUlong t
  aligned : vaddr &&& TARGET_PAGE_MASK t.bits = vaddr
  pow : ∃ k, 12 ≤ k ∧ k < t.bits ∧ size = BitVec.twoPow t.bits k

inductive Call
  | setPage (c : SetPage t)
  | flushPage (addr : TargetUlong t)
  | flush
end

section
variable {t : Target}

def index (addr : TargetUlong t) : BitVec 8 := (addr >>> 12).setWidth 8

def tlbFlush : State t where
  tlbTable := fun _ _ => sCputlbEmptyEntry t
  tlbFlushAddr := -1
  tlbFlushMask := 0

def tlbFlushEntry (e : Entry t) (addr : TargetUlong t) : Entry t :=
  let mask := TARGET_PAGE_MASK t.bits ||| TLB_INVALID_MASK t
  if addr = e.addrRead &&& mask ∨ addr = e.addrWrite &&& mask ∨ addr = e.addrCode &&& mask then
    sCputlbEmptyEntry t
  else e

def tlbFlushPage (s : State t) (addr : TargetUlong t) : State t :=
  if addr &&& s.tlbFlushMask = s.tlbFlushAddr then tlbFlush
  else
    let addr := addr &&& TARGET_PAGE_MASK t.bits
    { s with
      tlbTable := fun mmuIdx i =>
        if i = index addr then tlbFlushEntry (s.tlbTable mmuIdx i) addr else s.tlbTable mmuIdx i }

/-- `while ((x & mask) != 0) mask <<= 1` -/
def growMask {w : Nat} (x : BitVec w) : Nat → BitVec w → Except Hang (BitVec w)
  | fuel, mask =>
    if x &&& mask = 0 then .ok mask
    else
      match fuel with
      | 0 => .error .hang
      | fuel + 1 => growMask x fuel (mask <<< 1)

def tlbAddLargePage (s : State t) (vaddr size : TargetUlong t) : Except Hang (State t) := do
  let mask := ~~~(size - 1)
  if s.tlbFlushAddr = -1 then
    return { s with tlbFlushAddr := vaddr &&& mask, tlbFlushMask := mask }
  else
    let mask ← growMask (s.tlbFlushAddr ^^^ vaddr) t.bits (mask &&& s.tlbFlushMask)
    return { s with tlbFlushAddr := s.tlbFlushAddr &&& mask, tlbFlushMask := mask }

def newEntry (c : SetPage t) : Entry t :=
  let address := c.vaddr ||| if c.sectn.io then TLB_MMIO t else 0
  let codeAddress := address
  let address := address ||| if c.sectn.watch then TLB_MMIO t else 0
  { addrRead := if c.prot.read then address else -1
    addrCode := if c.prot.exec then codeAddress else -1
    addrWrite :=
      if c.prot.write then
        if c.sectn.rom then address ||| TLB_MMIO t
        else if c.sectn.notDirty then address ||| TLB_NOTDIRTY t
        else address
      else -1 }

/-- `if (size != TARGET_PAGE_SIZE) tlb_add_large_page(...)` -/
def noteSize (s : State t) (c : SetPage t) : Except Hang (State t) :=
  if c.size ≠ TARGET_PAGE_SIZE t then tlbAddLargePage s c.vaddr c.size else .ok s

def putEntry (s : State t) (c : SetPage t) : State t :=
  { s with
    tlbTable := fun mmuIdx i =>
      if mmuIdx = c.mmuIdx ∧ i = index c.vaddr then newEntry c else s.tlbTable mmuIdx i }

def tlbSetPage (s : State t) (c : SetPage t) : Except Hang (State t) := do
  let s ← noteSize s c
  return putEntry s c

def step (s : State t) : Call t → Except Hang (State t)
  | .setPage c => tlbSetPage s c
  | .flushPage addr => .ok (tlbFlushPage s addr)
  | .flush => .ok tlbFlush

/-- from the TLB of a CPU after a reset -/
def run (calls : List (Call t)) : Except Hang (State t) := calls.foldlM step tlbFlush

/-! ## the calls of the fault handler -/

open X86 in
lemma and_pageMask_of_mod (x : TargetUlong t) (h : x.toNat % 2 ^ 12 = 0) :
    x &&& TARGET_PAGE_MASK t.bits = x := by
  have hlow : (0xfff : TargetUlong t) = BitVec.ofNat t.bits (2 ^ 12 - 1) := rfl
  refine eq_of_getLsbD_eq fun i hi => ?_
  unfold TARGET_PAGE_MASK
  rw [getLsbD_and, BitVec.getLsbD_not, hlow, getLsbD_ofNat,
    Nat.testBit_two_pow_sub_one, decide_eq_true hi]
  by_cases h12 : i < 12
  · have hbit : x.getLsbD i = false := by
      have hmod := Nat.testBit_mod_two_pow x.toNat 12 i
      rw [h, decide_eq_true h12, Nat.zero_testBit, Bool.true_and] at hmod
      exact hmod.symm
    rw [hbit, Bool.false_and]
  · simp [h12]

open X86 in
lemma doMapping_page {env : Env t} {addr virtAddr : TargetUlong t} {pte : BitVec 64} {prot : Prot}
    {size : Nat} (hvirt : virtAddr.toNat % 2 ^ 12 = 0) (hsize : size = 2 ^ k) (hk : 12 ≤ k)
    (hlt : k < t.bits) :
    let mapping := doMapping env addr pte virtAddr prot size
    mapping.vaddr &&& TARGET_PAGE_MASK t.bits = mapping.vaddr ∧
      ∃ k, 12 ≤ k ∧ k < t.bits ∧ mapping.pageSize = 2 ^ k := by
  have hbits : 12 ≤ t.bits := by omega
  have hpage : (TARGET_PAGE_MASK t.bits).toNat % 2 ^ 12 = 0 := by cases t <;> decide
  refine ⟨and_pageMask_of_mod _ ?_, k, hk, hlt, hsize⟩
  refine mod_add hbits hvirt (mod_setWidth hbits (mod_setWidth (by decide) ?_))
  exact mod_and (mod_mask hpage addr) _

open X86 in
/-- **the fault handler maps small pages, in guest pages whose size is a power of two** -/
theorem mapping_page {env : Env t} {addr : TargetUlong t} {access : Access} {mmuIdx : MmuIdx}
    {m m' : ByteMem.Mem} {mapping : Mapping t}
    (h : handleMmuFault env addr access mmuIdx m = .ok mapping m') :
    mapping.vaddr &&& TARGET_PAGE_MASK t.bits = mapping.vaddr ∧
      ∃ k, 12 ≤ k ∧ k < t.bits ∧ mapping.pageSize = 2 ^ k := by
  have h : X86.translate env addr access mmuIdx m = .ok mapping m' := by
    unfold handleMmuFault at h
    cases hrun : X86.translate env addr access mmuIdx m with
    | ok r m₁ => rw [hrun] at h; exact h
    | error e m₁ => rw [hrun] at h; cases h
  unfold X86.translate at h
  split at h
  · injection h with hmapping
    rw [← hmapping]
    exact doMapping_page (mod_mask (by cases t <;> decide) addr) (show 4096 = 2 ^ 12 by decide)
      (by decide) (by cases t <;> decide)
  obtain ⟨leaf, m₁, _, h⟩ := bind_inv h
  unfold useLeaf at h
  split at h
  · cases h
  dsimp only at h
  obtain ⟨_, m₂, _, h⟩ := bind_inv h
  obtain ⟨entry, m₃, _, h⟩ := bind_inv h
  injection h with hmapping
  rw [← hmapping]
  unfold largeSize
  cases leaf.large with
  | false =>
    simp only [Bool.false_eq_true, if_false]
    exact doMapping_page (mod_mask (by cases t <;> decide) addr) (show 4096 = 2 ^ 12 by decide)
      (by decide) (by cases t <;> decide)
  | true =>
    cases pae env with
    | true =>
      exact doMapping_page (mod_mask (by cases t <;> decide) addr)
        (show 2048 * 1024 = 2 ^ 21 by decide) (by decide) (by cases t <;> decide)
    | false =>
      exact doMapping_page (mod_mask (by cases t <;> decide) addr)
        (show 4096 * 1024 = 2 ^ 22 by decide) (by decide) (by cases t <;> decide)

open X86 in
/-- a guest page of 4 MiB -/
theorem mapping_page_large : ∃ env m mapping m',
    handleMmuFault (t := .i386) env 0x1234 .read .user m = .ok mapping m' ∧
      mapping.vaddr &&& TARGET_PAGE_MASK Target.i386.bits = mapping.vaddr :=
  have h : handleMmuFault (t := .i386) ⟨CR0_PG_MASK _, 0, CR4_PSE_MASK _, 0, 0, true⟩ 0x1234 .read
    .user (fun a => if a = 0 then 0xe7 else 0) = .ok _ _ := rfl
  ⟨_, _, _, _, h, (mapping_page h).1⟩

/-! ## where entries come from -/

/-- an entry that grants some access -/
def Entry.present (e : Entry t) : Prop := e ≠ sCputlbEmptyEntry t

def SetPage.contains (c : SetPage t) (addr : TargetUlong t) : Prop :=
  addr &&& ~~~(c.size - 1) = c.vaddr &&& ~~~(c.size - 1)

abbrev Origin (t : Target) := MmuIdx → BitVec 8 → Option (SetPage t)

def noteCall (o : Origin t) : Call t → Origin t
  | .setPage c => fun mmuIdx i =>
    if mmuIdx = c.mmuIdx ∧ i = index c.vaddr then some c else o mmuIdx i
  | _ => o

/-- the last call that filled a slot -/
def installed (calls : List (Call t)) : Origin t := calls.foldl noteCall fun _ _ => none
end

/-! ## masks -/

section
variable {w : Nat}

/-- ones from bit `k` on -/
def highMask (w k : Nat) : BitVec w := BitVec.allOnes w <<< k

lemma getLsbD_highMask (k i : Nat) :
    (highMask w k).getLsbD i = (decide (i < w) && decide (k ≤ i)) := by
  unfold highMask
  by_cases hi : i < w <;> by_cases hk : k ≤ i
  · have : i - k < w := by omega
    simp [hk, this]
  · simp [hk]
  · simp [hi]
  · simp [hi]

lemma sizeMask (hk : k < w) : ~~~(BitVec.twoPow w k - 1) = highMask w k := by
  have hnat : (BitVec.twoPow w k - 1).toNat = 2 ^ k - 1 := by
    have hlt := Nat.pow_lt_pow_right (show 1 < 2 by decide) hk
    have hpos := Nat.two_pow_pos k
    have hone : (1 : BitVec w).toNat = 1 := by
      show 1 % 2 ^ w = 1
      exact Nat.mod_eq_of_lt (by omega)
    rw [toNat_sub_of_le]
    · rw [toNat_twoPow, Nat.mod_eq_of_lt hlt, hone]
    · rw [le_def, toNat_twoPow, Nat.mod_eq_of_lt hlt]
      omega
  refine eq_of_getLsbD_eq fun i hi => ?_
  rw [BitVec.getLsbD_not, getLsbD_highMask, BitVec.getLsbD, hnat]
  by_cases h : k ≤ i
  · simp [h]
  · simp [Nat.lt_of_not_le h]

lemma highMask_and_of_le {j : Nat} (h : j ≤ k) : highMask w k &&& highMask w j = highMask w k := by
  refine eq_of_getLsbD_eq fun i hi => ?_
  rw [getLsbD_and, getLsbD_highMask, getLsbD_highMask]
  by_cases hk : k ≤ i
  · simp [hk, Nat.le_trans h hk]
  · simp [hk]

lemma highMask_and (j k : Nat) : highMask w j &&& highMask w k = highMask w (max j k) := by
  rcases Nat.le_total j k with h | h
  · rw [BitVec.and_comm, highMask_and_of_le h, Nat.max_eq_right h]
  · rw [highMask_and_of_le h, Nat.max_eq_left h]

lemma highMask_shiftLeft (k : Nat) : highMask w k <<< 1 = highMask w (k + 1) := by
  unfold highMask
  rw [shiftLeft_add]

lemma highMask_eq_zero (h : w ≤ k) : highMask w k = 0 := by
  refine eq_of_getLsbD_eq fun i hi => ?_
  rw [getLsbD_highMask, decide_eq_false (show ¬ k ≤ i by omega), Bool.and_false]
  exact BitVec.getLsbD_zero.symm

/-- **the loop ends, with a mask that is not finer** -/
theorem growMask_spec (x : BitVec w) {fuel : Nat} (h : w ≤ k + fuel) :
    ∃ k', k ≤ k' ∧ growMask x fuel (highMask w k) = .ok (highMask w k') ∧ x &&& highMask w k' = 0 := by
  induction fuel generalizing k with
  | zero =>
    have hzero : x &&& highMask w k = 0 := by
      rw [highMask_eq_zero (by omega)]
      exact and_zero
    refine ⟨k, Nat.le_refl k, ?_, hzero⟩
    unfold growMask
    rw [if_pos hzero]
  | succ fuel ih =>
    unfold growMask
    by_cases hx : x &&& highMask w k = 0
    · rw [if_pos hx]
      exact ⟨k, Nat.le_refl k, rfl, hx⟩
    · obtain ⟨k', hk', hrun, hzero⟩ := ih (show w ≤ k + 1 + fuel by omega)
      rw [if_neg hx]
      rw [highMask_shiftLeft]
      exact ⟨k', by omega, hrun, hzero⟩
end

/-! ## the invariant -/

section
variable {t : Target}

def SetPage.mask (c : SetPage t) : TargetUlong t := ~~~(c.size - 1)

def SetPage.large (c : SetPage t) : Prop := c.size ≠ TARGET_PAGE_SIZE t

/-- an address in an entry, compared under the mask of `tlb_flush_entry` -/
def FieldOk (c : SetPage t) (f : TargetUlong t) : Prop :=
  f = -1 ∨ f &&& (TARGET_PAGE_MASK t.bits ||| TLB_INVALID_MASK t) = c.vaddr

/-- the area is empty or a block whose size is a power of two -/
def AreaOk (s : State t) : Prop :=
  s.tlbFlushAddr = -1 ∨ ∃ k, s.tlbFlushMask = highMask t.bits k

/-- the guest page lies in the area -/
structure Covers (s : State t) (c : SetPage t) : Prop where
  used : s.tlbFlushAddr ≠ -1
  mask : s.tlbFlushMask &&& c.mask = s.tlbFlushMask
  addr : c.vaddr &&& s.tlbFlushMask = s.tlbFlushAddr

structure EntryOk (s : State t) (c : SetPage t) (i : BitVec 8) (e : Entry t) : Prop where
  slot : i = index c.vaddr
  same : e = newEntry c
  covered : c.large → Covers s c

structure Inv (s : State t) (o : Origin t) : Prop where
  area : AreaOk s
  entries : ∀ mmuIdx i, (s.tlbTable mmuIdx i).present →
    ∃ c, o mmuIdx i = some c ∧ EntryOk s c i (s.tlbTable mmuIdx i)

variable {s s' : State t} {o : Origin t} {c : SetPage t}

lemma inv_flush (o : Origin t) : Inv tlbFlush o :=
  ⟨.inl rfl, fun _ _ h => absurd rfl h⟩

lemma SetPage.mask_eq (c : SetPage t) : ∃ k, 12 ≤ k ∧ k < t.bits ∧ c.mask = highMask t.bits k := by
  obtain ⟨k, hk, hlt, hsize⟩ := c.pow
  refine ⟨k, hk, hlt, ?_⟩
  unfold SetPage.mask
  rw [hsize]
  exact sizeMask hlt

lemma neg_one_bit {w : Nat} (hw : 0 < w) : (-1 : BitVec w).getLsbD 0 = true := by
  rw [show (-1 : BitVec w) = -1#w from rfl, neg_one_eq_allOnes, getLsbD_allOnes,
    decide_eq_true hw]

lemma ne_neg_one_of_masked {w : Nat} (hw : 0 < w) (hk : 0 < k) (x : BitVec w) :
    x &&& highMask w k ≠ -1 := by
  intro h
  have hbit := congrArg (fun y => y.getLsbD 0) h
  rw [getLsbD_and, getLsbD_highMask, neg_one_bit hw] at hbit
  simp [Nat.not_le_of_lt hk] at hbit

lemma bits_pos : 0 < t.bits := by cases t <;> decide

lemma Covers.hit (h : Covers s c) {a : TargetUlong t} (ha : c.contains a) :
    a &&& s.tlbFlushMask = s.tlbFlushAddr := by
  have ha : a &&& c.mask = c.vaddr &&& c.mask := ha
  calc a &&& s.tlbFlushMask
      = a &&& c.mask &&& s.tlbFlushMask := by rw [BitVec.and_assoc, BitVec.and_comm c.mask, h.mask]
    _ = c.vaddr &&& c.mask &&& s.tlbFlushMask := by rw [ha]
    _ = c.vaddr &&& s.tlbFlushMask := by rw [BitVec.and_assoc, BitVec.and_comm c.mask, h.mask]
    _ = s.tlbFlushAddr := h.addr

lemma addLargePage_spec (harea : AreaOk s) (c : SetPage t) :
    ∃ s', tlbAddLargePage s c.vaddr c.size = .ok s' ∧ s'.tlbTable = s.tlbTable ∧ AreaOk s' ∧
      Covers s' c ∧ ∀ c', Covers s c' → Covers s' c' := by
  obtain ⟨k, hk, _, hmask⟩ := c.mask_eq
  have hmask' : ~~~(c.size - 1) = highMask t.bits k := hmask
  unfold tlbAddLargePage
  rw [hmask']
  by_cases hempty : s.tlbFlushAddr = -1
  · rw [if_pos hempty]
    refine ⟨_, rfl, rfl, .inr ⟨k, rfl⟩, ⟨?_, ?_, rfl⟩, fun c' h => absurd hempty h.used⟩
    · exact ne_neg_one_of_masked bits_pos (by omega) _
    · rw [hmask]
      exact BitVec.and_self
  · obtain ⟨j, hj⟩ := harea.resolve_left hempty
    obtain ⟨k', hk', hrun, hzero⟩ := growMask_spec (s.tlbFlushAddr ^^^ c.vaddr)
      (show t.bits ≤ max k j + t.bits by omega)
    have hsame : c.vaddr &&& highMask t.bits k' = s.tlbFlushAddr &&& highMask t.bits k' := by
      have hxor : (s.tlbFlushAddr ^^^ c.vaddr) &&& highMask t.bits k' =
          (s.tlbFlushAddr &&& highMask t.bits k') ^^^ (c.vaddr &&& highMask t.bits k') := by
        refine eq_of_getLsbD_eq fun i _ => ?_
        simp only [getLsbD_and, getLsbD_xor, Bool.and_xor_distrib_right]
      rw [hxor] at hzero
      exact (BitVec.xor_eq_zero_iff.mp hzero).symm
    have hgrown : s.tlbFlushMask &&& highMask t.bits k' = highMask t.bits k' := by
      rw [hj, BitVec.and_comm]
      exact highMask_and_of_le (by omega)
    rw [if_neg hempty, hj, highMask_and, hrun]
    refine ⟨_, rfl, rfl, .inr ⟨k', rfl⟩, ⟨?_, ?_, hsame⟩, fun c' h => ⟨?_, ?_, ?_⟩⟩
    · exact ne_neg_one_of_masked bits_pos (by omega) _
    · rw [hmask]
      exact highMask_and_of_le (by omega)
    · exact ne_neg_one_of_masked bits_pos (by omega) _
    · calc highMask t.bits k' &&& c'.mask
          = highMask t.bits k' &&& (s.tlbFlushMask &&& c'.mask) := by
            rw [← BitVec.and_assoc, BitVec.and_comm _ s.tlbFlushMask, hgrown]
        _ = highMask t.bits k' := by rw [h.mask, BitVec.and_comm, hgrown]
    · show c'.vaddr &&& highMask t.bits k' = s.tlbFlushAddr &&& highMask t.bits k'
      rw [← h.addr, BitVec.and_assoc, hgrown]

variable {e : Entry t}

lemma EntryOk.keep (h : EntryOk s c i e)
    (hc : ∀ c', Covers s c' → Covers s' c') : EntryOk s' c i e :=
  ⟨h.slot, h.same, fun hl => hc c (h.covered hl)⟩

lemma noteSize_spec (harea : AreaOk s) (c : SetPage t) :
    ∃ s', noteSize s c = .ok s' ∧ s'.tlbTable = s.tlbTable ∧ AreaOk s' ∧
      (c.large → Covers s' c) ∧ ∀ c', Covers s c' → Covers s' c' := by
  unfold noteSize
  by_cases hl : c.size ≠ TARGET_PAGE_SIZE t
  · rw [if_pos hl]
    obtain ⟨s', hrun, htable, harea', hnew, hold⟩ := addLargePage_spec harea c
    exact ⟨s', hrun, htable, harea', fun _ => hnew, hold⟩
  · rw [if_neg hl]
    exact ⟨s, rfl, rfl, harea, fun h => absurd h hl, fun _ h => h⟩

lemma fieldOk_or (c : SetPage t) {flags : TargetUlong t}
    (hflags : flags &&& (TARGET_PAGE_MASK t.bits ||| TLB_INVALID_MASK t) = 0) :
    (c.vaddr ||| flags) &&& (TARGET_PAGE_MASK t.bits ||| TLB_INVALID_MASK t) = c.vaddr := by
  have hmask : TARGET_PAGE_MASK t.bits &&& (TARGET_PAGE_MASK t.bits ||| TLB_INVALID_MASK t) =
      TARGET_PAGE_MASK t.bits := by cases t <;> decide
  rw [and_or_distrib_right, hflags]
  show _ ||| 0#_ = _
  rw [or_zero]
  calc c.vaddr &&& (TARGET_PAGE_MASK t.bits ||| TLB_INVALID_MASK t)
      = c.vaddr &&& TARGET_PAGE_MASK t.bits &&&
          (TARGET_PAGE_MASK t.bits ||| TLB_INVALID_MASK t) := by rw [c.aligned]
    _ = c.vaddr := by rw [BitVec.and_assoc, hmask, c.aligned]

lemma newEntry_ok (c : SetPage t) :
    FieldOk c (newEntry c).addrRead ∧ FieldOk c (newEntry c).addrWrite ∧
      FieldOk c (newEntry c).addrCode := by
  unfold newEntry
  dsimp only
  refine ⟨?_, ?_, ?_⟩
  · split
    · rw [BitVec.or_assoc]
      refine .inr (fieldOk_or c ?_)
      cases c.sectn.io <;> cases c.sectn.watch <;> cases t <;> decide
    · exact .inl rfl
  · split
    · split
      · rw [BitVec.or_assoc, BitVec.or_assoc]
        refine .inr (fieldOk_or c ?_)
        cases c.sectn.io <;> cases c.sectn.watch <;> cases t <;> decide
      split
      · rw [BitVec.or_assoc, BitVec.or_assoc]
        refine .inr (fieldOk_or c ?_)
        cases c.sectn.io <;> cases c.sectn.watch <;> cases t <;> decide
      · rw [BitVec.or_assoc]
        refine .inr (fieldOk_or c ?_)
        cases c.sectn.io <;> cases c.sectn.watch <;> cases t <;> decide
    · exact .inl rfl
  · split
    · refine .inr (fieldOk_or c ?_)
      cases c.sectn.io <;> cases t <;> decide
    · exact .inl rfl

lemma inv_setPage (h : Inv s o) (c : SetPage t) :
    ∃ s', tlbSetPage s c = .ok s' ∧ Inv s' (noteCall o (.setPage c)) := by
  obtain ⟨s₁, hrun, htable, harea, hnew, hold⟩ := noteSize_spec h.area c
  unfold tlbSetPage
  rw [hrun]
  refine ⟨putEntry s₁ c, rfl, harea, fun mmuIdx i hp => ?_⟩
  unfold putEntry noteCall at *
  dsimp only at *
  by_cases hslot : mmuIdx = c.mmuIdx ∧ i = index c.vaddr
  · rw [if_pos hslot, if_pos hslot]
    exact ⟨c, rfl, hslot.2, rfl, fun hl => ⟨(hnew hl).used, (hnew hl).mask, (hnew hl).addr⟩⟩
  · rw [if_neg hslot] at hp ⊢
    rw [if_neg hslot]
    rw [htable] at hp ⊢
    obtain ⟨c', ho, hok⟩ := h.entries mmuIdx i hp
    exact ⟨c', ho, hok.keep fun c'' hc => ⟨(hold c'' hc).used, (hold c'' hc).mask,
      (hold c'' hc).addr⟩⟩

lemma flushEntry_present {addr : TargetUlong t}
    (h : (tlbFlushEntry e addr).present) : tlbFlushEntry e addr = e := by
  unfold tlbFlushEntry at *
  dsimp only at *
  split
  · next hc =>
    rw [if_pos hc] at h
    exact absurd rfl h
  · rfl

lemma inv_flushPage (h : Inv s o) (addr : TargetUlong t) : Inv (tlbFlushPage s addr) o := by
  unfold tlbFlushPage
  split
  · exact inv_flush o
  refine ⟨h.area, fun mmuIdx i hp => ?_⟩
  have hsame : (if i = index (addr &&& TARGET_PAGE_MASK t.bits) then
      tlbFlushEntry (s.tlbTable mmuIdx i) (addr &&& TARGET_PAGE_MASK t.bits)
      else s.tlbTable mmuIdx i) = s.tlbTable mmuIdx i := by
    dsimp only at hp
    split
    · next hi =>
      rw [if_pos hi] at hp
      exact flushEntry_present hp
    · rfl
  dsimp only at hp ⊢
  rw [hsame] at hp ⊢
  obtain ⟨c, ho, hok⟩ := h.entries mmuIdx i hp
  exact ⟨c, ho, hok.keep fun _ hc => ⟨hc.used, hc.mask, hc.addr⟩⟩

lemma inv_step (h : Inv s o) (call : Call t) :
    ∃ s', step s call = .ok s' ∧ Inv s' (noteCall o call) := by
  cases call with
  | setPage c => exact inv_setPage h c
  | flushPage addr => exact ⟨_, rfl, inv_flushPage h addr⟩
  | flush => exact ⟨_, rfl, inv_flush o⟩

/-- **no call hangs, and the invariant holds after every sequence of calls** -/
theorem inv_run (calls : List (Call t)) (h : Inv s o) :
    ∃ s', calls.foldlM step s = .ok s' ∧ Inv s' (calls.foldl noteCall o) := by
  induction calls generalizing s o with
  | nil => exact ⟨s, rfl, h⟩
  | cons call calls ih =>
    obtain ⟨s₁, hstep, hinv⟩ := inv_step h call
    obtain ⟨s', hrun, hinv'⟩ := ih hinv
    exact ⟨s', by rw [foldlM_cons_ok hstep, hrun], hinv'⟩

/-! ## a page is flushed -/

lemma EntryOk.flushed {addr : TargetUlong t} (h : EntryOk s c i e)
    (hsmall : ¬ c.large) (hp : e.present) (ha : c.contains addr) :
    i = index (addr &&& TARGET_PAGE_MASK t.bits) ∧
      tlbFlushEntry e (addr &&& TARGET_PAGE_MASK t.bits) = sCputlbEmptyEntry t := by
  have hsize : c.size = TARGET_PAGE_SIZE t := not_not.mp hsmall
  have hmask : ~~~(TARGET_PAGE_SIZE t - 1) = TARGET_PAGE_MASK t.bits := by cases t <;> decide
  have haddr : addr &&& TARGET_PAGE_MASK t.bits = c.vaddr := by
    unfold SetPage.contains at ha
    rw [hsize, hmask, c.aligned] at ha
    exact ha
  refine ⟨by rw [haddr]; exact h.slot, ?_⟩
  rw [haddr]
  refine if_pos ?_
  by_contra hno
  obtain ⟨hr, hno⟩ := not_or.mp hno
  obtain ⟨hw, hc⟩ := not_or.mp hno
  refine hp ?_
  obtain ⟨hread, hwrite, hcode⟩ := h.same ▸ newEntry_ok c
  obtain ⟨er, ew, ec⟩ := e
  have h1 : er = -1 := hread.resolve_right fun h => hr h.symm
  have h2 : ew = -1 := hwrite.resolve_right fun h => hw h.symm
  have h3 : ec = -1 := hcode.resolve_right fun h => hc h.symm
  rw [h1, h2, h3]
  rfl

lemma flushPage_gone (h : Inv s o) (addr : TargetUlong t) {mmuIdx : MmuIdx}
    (hp : ((tlbFlushPage s addr).tlbTable mmuIdx i).present) :
    ∃ c, o mmuIdx i = some c ∧ ¬ c.contains addr := by
  obtain ⟨c, ho, hok⟩ := (inv_flushPage h addr).entries mmuIdx i hp
  refine ⟨c, ho, fun ha => ?_⟩
  unfold tlbFlushPage at hp hok
  split at hp
  · exact hp rfl
  next hmiss =>
  rw [if_neg hmiss] at hok
  by_cases hl : c.large
  · have hcov := hok.covered hl
    exact hmiss (Covers.hit (s := s) ⟨hcov.used, hcov.mask, hcov.addr⟩ ha)
  · dsimp only at hp hok
    obtain ⟨hi, hflush⟩ := hok.flushed hl hp ha
    rw [if_pos hi] at hp hflush
    rw [flushEntry_present hp] at hflush
    exact hp hflush

/-- **after `tlb_flush_page` no entry is left that comes from a guest page with the address** -/
theorem flush_page_complete (calls : List (Call t)) (addr : TargetUlong t) :
    ∃ s, run (calls ++ [.flushPage addr]) = .ok s ∧ ∀ mmuIdx i, (s.tlbTable mmuIdx i).present →
      ∃ c, installed calls mmuIdx i = some c ∧ ¬ c.contains addr := by
  obtain ⟨s, hrun, hinv⟩ := inv_run calls (inv_flush fun _ _ => none)
  refine ⟨tlbFlushPage s addr, ?_, fun mmuIdx i hp => flushPage_gone hinv addr hp⟩
  unfold run
  rw [List.foldlM_append, hrun]
  rfl

/-! ## an access that hits -/

def Entry.tlbAddr (e : Entry t) : Access → TargetUlong t
  | .read => e.addrRead
  | .write => e.addrWrite
  | .exec => e.addrCode

/-- the test of `helper_ld` and `helper_st` in `softmmu_template.h` -/
def Hit (s : State t) (mmuIdx : MmuIdx) (access : Access) (addr : TargetUlong t) : Prop :=
  addr &&& TARGET_PAGE_MASK t.bits = (s.tlbTable mmuIdx (index addr)).tlbAddr access &&&
    (TARGET_PAGE_MASK t.bits ||| TLB_INVALID_MASK t)

lemma masked_ne_empty (addr : TargetUlong t) : addr &&& TARGET_PAGE_MASK t.bits ≠
    -1 &&& (TARGET_PAGE_MASK t.bits ||| TLB_INVALID_MASK t) := by
  intro h
  have hbit : (addr &&& TARGET_PAGE_MASK t.bits).getLsbD 3 = true := by
    rw [h]
    cases t <;> decide
  rw [getLsbD_and, Bool.and_eq_true] at hbit
  exact absurd hbit.2 (by cases t <;> decide)

/-- **an access hits only if the last fill of its slot was for its page and gave this right** -/
theorem hit_granted (calls : List (Call t)) : ∃ s, run calls = .ok s ∧
    ∀ mmuIdx access addr, Hit s mmuIdx access addr →
      ∃ c, installed calls mmuIdx (index addr) = some c ∧
        c.vaddr = addr &&& TARGET_PAGE_MASK t.bits ∧ c.prot.grants access = true := by
  obtain ⟨s, hrun, hinv⟩ := inv_run calls (inv_flush fun _ _ => none)
  refine ⟨s, hrun, fun mmuIdx access addr hhit => ?_⟩
  unfold Hit at hhit
  have hp : (s.tlbTable mmuIdx (index addr)).present := fun he =>
    masked_ne_empty addr (by rw [he] at hhit; cases access <;> exact hhit)
  obtain ⟨c, ho, hok⟩ := hinv.entries _ _ hp
  obtain ⟨hread, hwrite, hcode⟩ := newEntry_ok c
  rw [hok.same] at hhit
  have hne : (newEntry c).tlbAddr access ≠ -1 := fun h => masked_ne_empty addr (h ▸ hhit)
  refine ⟨c, ho, ?_, by_contra fun hno => hne ?_⟩
  · rw [hhit]
    cases access
    · exact (hread.resolve_left hne).symm
    · exact (hwrite.resolve_left hne).symm
    · exact (hcode.resolve_left hne).symm
  · cases access <;> exact if_neg hno
end

end Tlb
