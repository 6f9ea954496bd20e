import TraceSyscallObj.Exec.TbLists

/-!
# The jump cache

Model of `tb_flush_jmp_cache` in `translate-all.c` and of the two hash functions in `exec-all.h`.
`TARGET_PAGE_BITS` is 12, `TB_JMP_CACHE_BITS` 12 and `TB_JMP_PAGE_BITS` 6.

* `tbJmpCacheHashPage_congr`: one window of slots for all addresses of a page;
* `tbJmpCacheHashFunc_window`: the slot of an address is in the window of its page;
* `flush_jmp_cache`.
-/

namespace Tb
open BitVec
open X86 (Target TargetUlong)

def TB_JMP_PAGE_SIZE : Nat := 64
def TB_JMP_ADDR_MASK (t : Target) : TargetUlong t := 0x3f
def TB_JMP_PAGE_MASK (t : Target) : TargetUlong t := 0xfc0

/-- the array `tb_jmp_cache`, of 4096 slots -/
abbrev JmpCache (t : Target) := Nat → Option (TranslationBlock t)

section
variable {t : Target}

def tbJmpCacheHashPage (pc : TargetUlong t) : Nat :=
  let tmp := pc ^^^ (pc >>> 6)
  ((tmp >>> 6) &&& TB_JMP_PAGE_MASK t).toNat

def tbJmpCacheHashFunc (pc : TargetUlong t) : Nat :=
  let tmp := pc ^^^ (pc >>> 6)
  (((tmp >>> 6) &&& TB_JMP_PAGE_MASK t) ||| (tmp &&& TB_JMP_ADDR_MASK t)).toNat

/-- the `memset` from slot `i` on -/
def clearSlots (cache : JmpCache t) (i : Nat) : JmpCache t :=
  fun j => if i ≤ j ∧ j < i + TB_JMP_PAGE_SIZE then none else cache j

def tbFlushJmpCache (cache : JmpCache t) (addr : TargetUlong t) : JmpCache t :=
  let cache := clearSlots cache (tbJmpCacheHashPage (addr - BitVec.ofNat _ TARGET_PAGE_SIZE))
  clearSlots cache (tbJmpCacheHashPage addr)

def pageOf (addr : TargetUlong t) : Nat := addr.toNat / TARGET_PAGE_SIZE

/-- `pc` is in the page of `addr` or in the page before -/
def Near (addr pc : TargetUlong t) : Prop :=
  pageOf pc = pageOf addr ∨ pageOf pc = pageOf (addr - BitVec.ofNat _ TARGET_PAGE_SIZE)

lemma tbJmpCacheHashPage_congr {pc addr : TargetUlong t} (h : pageOf pc = pageOf addr) :
    tbJmpCacheHashPage pc = tbJmpCacheHashPage addr := by
  have hbit : ∀ i, pc.getLsbD (i + 12) = addr.getLsbD (i + 12) := by
    intro i
    have hi := congrArg (Nat.testBit · i) h
    change Nat.testBit (_ / 2 ^ 12) i = Nat.testBit (_ / 2 ^ 12) i at hi
    rwa [Nat.testBit_div_two_pow, Nat.testBit_div_two_pow] at hi
  have hlow : ∀ i, i < 6 → (TB_JMP_PAGE_MASK t).getLsbD i = false := by
    cases t
    · decide
    · decide
  unfold tbJmpCacheHashPage
  dsimp only
  congr 1
  apply eq_of_getLsbD_eq
  intro i _
  simp only [getLsbD_and, getLsbD_ushiftRight, getLsbD_xor]
  rcases Nat.lt_or_ge i 6 with hi | hi
  · rw [hlow i hi, Bool.and_false, Bool.and_false]
  · obtain ⟨j, rfl⟩ := Nat.exists_eq_add_of_le hi
    rw [show 6 + (6 + j) = j + 12 by omega, show 6 + (j + 12) = j + 6 + 12 by omega, hbit, hbit]

lemma tbJmpCacheHashFunc_window (pc : TargetUlong t) :
    tbJmpCacheHashPage pc ≤ tbJmpCacheHashFunc pc ∧
      tbJmpCacheHashFunc pc < tbJmpCacheHashPage pc + TB_JMP_PAGE_SIZE := by
  have hmasks : (TB_JMP_ADDR_MASK t).toNat = 63 ∧ (TB_JMP_PAGE_MASK t).toNat % 2 ^ 6 = 0 := by
    cases t
    · decide
    · decide
  have hlow : ((pc ^^^ (pc >>> 6)) &&& TB_JMP_ADDR_MASK t).toNat < 2 ^ 6 := by
    rw [toNat_and, hmasks.1]
    exact Nat.lt_succ_of_le Nat.and_le_right
  have hhigh : tbJmpCacheHashPage pc % 2 ^ 6 = 0 := by
    unfold tbJmpCacheHashPage
    rw [toNat_and, Nat.and_mod_two_pow, hmasks.2, Nat.and_zero]
  obtain ⟨q, hq⟩ := Nat.dvd_of_mod_eq_zero hhigh
  have hsum : tbJmpCacheHashFunc pc = tbJmpCacheHashPage pc + _ :=
    (toNat_or ..).trans (hq ▸ (Nat.two_pow_add_eq_or_of_lt hlow q).symm)
  unfold TB_JMP_PAGE_SIZE
  omega

lemma clearSlots_hash (cache : JmpCache t) {pc addr : TargetUlong t} (h : pageOf pc = pageOf addr) :
    clearSlots cache (tbJmpCacheHashPage addr) (tbJmpCacheHashFunc pc) = none := by
  rw [← tbJmpCacheHashPage_congr h]
  exact if_pos (tbJmpCacheHashFunc_window pc)

lemma clearSlots_none {cache : JmpCache t} {j : Nat} (h : cache j = none) (i : Nat) :
    clearSlots cache i j = none := by
  unfold clearSlots
  split
  · rfl
  · exact h

lemma TranslationBlock.start_page (b : TranslationBlock t) {i : Nat} (hi : i < b.size)
    {addr : TargetUlong t} (h : pageOf (b.pc + BitVec.ofNat _ i) = pageOf addr) :
    Near addr b.pc := by
  have hlt : i < 4096 := Nat.lt_of_lt_of_le hi b.size_le
  have hpc := b.pc.isLt
  have haddr := addr.isLt
  unfold Near pageOf TARGET_PAGE_SIZE at *
  rw [toNat_add, toNat_ofNat] at h
  rw [toNat_sub, toNat_ofNat]
  obtain hw | hw : 2 ^ t.bits = 2 ^ 32 ∨ 2 ^ t.bits = 2 ^ 64 := by
    cases t
    · exact .inl rfl
    · exact .inr rfl
  · rw [hw] at h hpc haddr ⊢
    omega
  · rw [hw] at h hpc haddr ⊢
    omega

/-- **`tb_flush_jmp_cache` empties the slots of both pages**, so that a block with a byte in the
flushed page is not found in the slot of its address -/
theorem flush_jmp_cache (cache : JmpCache t) (addr : TargetUlong t) :
    (∀ pc, Near addr pc → tbFlushJmpCache cache addr (tbJmpCacheHashFunc pc) = none) ∧
    ∀ (b : TranslationBlock t) (i : Nat), i < b.size →
      pageOf (b.pc + BitVec.ofNat _ i) = pageOf addr →
      tbFlushJmpCache cache addr (tbJmpCacheHashFunc b.pc) = none := by
  have hnear : ∀ pc, Near addr pc →
      tbFlushJmpCache cache addr (tbJmpCacheHashFunc pc) = none := by
    rintro pc (h | h)
    · exact clearSlots_hash _ h
    · exact clearSlots_none (clearSlots_hash _ h) _
  exact ⟨hnear, fun b i hi h => hnear b.pc (b.start_page hi h)⟩

end
end Tb
