import TraceSyscallObj.X86.MmuRights

/-!
# The debugger sees what the guest sees

The walk of the debugger keeps the address bits 12 to 51 of an entry, the fault handler keeps 12 to
39 (to 35 on i386).  With PAE the debugger does not mask the page with A20, without PAE it does.

* `path`: the entries that the debugger has to read, with PAE;
* `debugPte_reached`: the debugger finds the entry that the fault handler found, if the entries
  above it have no bits that only one of the two keeps;
* `debug_agrees_iff`.
-/

namespace X86
open ByteMem List
variable {leaf : Leaf}

/-! ## the entries on the way -/

/-- address bits that only the debugger keeps -/
def highBits (t : Target) : BitVec 64 := debugMask &&& ~~~PHYS_ADDR_MASK t

structure Path where
  /-- entries that point to a table -/
  tables : List (BitVec 64)
  leaf : BitVec 64
  large : Bool

section
variable {t : Target} (env : Env t) (addr : TargetUlong t) (m : Mem)

/-- the way to a page with PAE -/
def path : Path :=
  let (top, pdpe) := pdpePath env addr m
  let pde := load true m (tableOf env addr pdpe 21)
  if pde &&& PG_PSE_MASK ≠ 0 then { tables := top, leaf := pde, large := true }
  else { tables := top ++ [pde], leaf := load true m (tableOf env addr pde 12), large := false }

def pagingPae : Prop := env.cr0 &&& CR0_PG_MASK t ≠ 0 ∧ pae env = true

/-- addresses of tables are cut to 32 bits on i386 -/
def PlainTables : Prop :=
  t = .x86_64 → pagingPae env → ∀ e ∈ (path env addr m).tables, e &&& highBits t = 0

def PlainLeaf : Prop :=
  pagingPae env → (path env addr m).leaf &&& highBits t = 0 ∧
    ((path env addr m).large = true ∨ env.a20State = true ∨
      (path env addr m).leaf &&& BitVec.twoPow 64 20 = 0)
end

/-! ## tables that differ in accessed and dirty bits -/

section
variable {t : Target} {env : Env t} {addr : TargetUlong t} {m m' : Mem} {e e' : BitVec 64}

section
variable (env addr)

lemma aligned_tableOf (e : BitVec 64) (shift : Nat) : Aligned true (tableOf env addr e shift) :=
  aligned_table env addr e shift

/-- what does not depend on accessed and dirty bits -/
def Unmarked (P : BitVec 64 → Prop) : Prop := ∀ {e e'}, Alike e e' → P e → P e'

lemma pdpePath_same {P : BitVec 64 → Prop} (hP : Unmarked P) (h : Same true m m') :
    ((∀ e ∈ (pdpePath env addr m).1, P e) → ∀ e ∈ (pdpePath env addr m').1, P e) ∧
      Alike (pdpePath env addr m).2 (pdpePath env addr m').2 := by
  unfold pdpePath
  by_cases hlong : longMode env = true
  · rw [if_pos hlong, if_pos hlong]
    have h4 := h _ (aligned_pml4e env (addr.setWidth 64))
    have h3 := h _ (aligned_tableOf env addr
      (load true m' (pml4eAddr env (addr.setWidth 64))) 30)
    dsimp only
    rw [h4.tableOf]
    refine ⟨fun hall => ?_, h3⟩
    rw [forall_mem_cons, forall_mem_singleton] at *
    exact ⟨hP h4 hall.1, hP h3 hall.2⟩
  · rw [if_neg hlong, if_neg hlong]
    have h3 := h _ (aligned_pdpeLegacy env addr)
    refine ⟨fun hall => ?_, h3⟩
    rw [forall_mem_singleton] at *
    exact hP h3 hall

lemma path_same {P : BitVec 64 → Prop} (hP : Unmarked P) (h : Same true m m') :
    ((∀ e ∈ (path env addr m).tables, P e) → ∀ e ∈ (path env addr m').tables, P e) ∧
      Alike (path env addr m).leaf (path env addr m').leaf ∧
      (path env addr m).large = (path env addr m').large := by
  obtain ⟨htop, hpdpe⟩ := pdpePath_same env addr hP h
  have h2 := h _ (aligned_tableOf env addr (pdpePath env addr m').2 21)
  have hpse : load true m (tableOf env addr (pdpePath env addr m').2 21) &&& PG_PSE_MASK =
      load true m' (tableOf env addr (pdpePath env addr m').2 21) &&& PG_PSE_MASK :=
    h2.mask (by decide) (by decide)
  unfold path
  dsimp only
  rw [hpdpe.tableOf, hpse]
  split
  · exact ⟨htop, h2, rfl⟩
  refine ⟨fun hall => ?_, ?_, rfl⟩
  · rw [forall_mem_append, forall_mem_singleton] at *
    exact ⟨htop hall.1, hP h2 hall.2⟩
  · dsimp only
    rw [h2.tableOf]
    exact h _ (aligned_tableOf env addr _ 12)

end

lemma highBits_unmarked : Unmarked fun e => e &&& highBits t = 0 := by
  intro e e' h he
  have hmask : e &&& highBits t = e' &&& highBits t :=
    h.mask (by cases t <;> decide) (by cases t <;> decide)
  rw [← hmask]
  exact he

lemma PlainTables.same (h : PlainTables env addr m) (hm : Same (pae env) m m') :
    PlainTables env addr m' := by
  intro ht hp
  rw [hp.2] at hm
  exact (path_same env addr highBits_unmarked hm).1 (h ht hp)

/-! ## the debugger finds the entry -/

lemma tableAddr_debug (env : Env t) (addr : TargetUlong t) (h : t = .x86_64 → e &&& highBits t = 0)
    (shift : Nat) :
    (tableAddr env (e &&& debugMask) shift addr).setWidth 64 = tableOf env addr e shift := by
  congr 1
  cases t with
  | x86_64 =>
    have hmask : e &&& debugMask = e &&& PHYS_ADDR_MASK .x86_64 := by
      have hor : debugMask = PHYS_ADDR_MASK .x86_64 ||| highBits .x86_64 := by decide
      rw [hor, BitVec.and_or_distrib_left, h rfl]
      exact BitVec.or_zero
    rw [hmask]
  | i386 =>
    have hcut : (e &&& debugMask).setWidth 32 = (e &&& PHYS_ADDR_MASK .i386).setWidth 32 := by
      rw [BitVec.setWidth_and, BitVec.setWidth_and]
      congr 1
    show BitVec.setWidth 32 _ = BitVec.setWidth 32 _
    rw [BitVec.setWidth_and, BitVec.setWidth_and, BitVec.setWidth_add _ _ (by decide),
      BitVec.setWidth_add _ _ (by decide), hcut]

section
variable {marked : Prop} {pdpe ptep : BitVec 64} (h : TopReached marked env addr m pdpe ptep)
include h

lemma TopReached.present : Present pdpe := by
  unfold TopReached at h
  by_cases hlong : longMode env = true
  · rw [if_pos hlong] at h
    obtain ⟨_, _, _, _, h3, _⟩ := h
    exact h3.present
  · rw [if_neg hlong] at h
    exact h.1.present

lemma TopReached.debug
    (hplain : t = .x86_64 → ∀ e ∈ (pdpePath env addr m).1, e &&& highBits t = 0) :
    ∃ a, debugPdpeAddr env m addr = some a ∧ ldq m a = (pdpePath env addr m).2 := by
  unfold TopReached at h
  unfold debugPdpeAddr
  unfold pdpePath at *
  by_cases hlong : longMode env = true
  · rw [if_pos hlong] at h hplain ⊢
    rw [if_pos hlong]
    obtain ⟨hsext, pml4e, h4, _⟩ := h
    have hp4 : ¬ ldq m (pml4eAddr env (addr.setWidth 64)) &&& PG_PRESENT_MASK = 0 := h4.present_load
    have haddr := tableAddr_debug env addr
      (e := ldq m (pml4eAddr env (addr.setWidth 64)))
      (fun ht => hplain ht _ mem_cons_self) 30
    rw [if_neg (by simpa using hsext)]
    rw [if_neg hp4, haddr]
    exact ⟨_, rfl, rfl⟩
  · rw [if_neg hlong, if_neg hlong]
    exact ⟨_, rfl, rfl⟩
end

variable {marked : Prop}

/-- `pte` and `page_size` of the debugger for the entry of a page -/
def debugLeaf (leaf : BitVec 64) (large : Bool) : BitVec 64 × Nat :=
  if large then
    (leaf &&& ~~~(BitVec.ofNat 64 (2048 * 1024 - 1) &&& ~~~(0xfff : BitVec 64)) &&&
      ~~~(PG_NX_MASK ||| PG_HI_USER_MASK), 2048 * 1024)
  else (leaf &&& ~~~(PG_NX_MASK ||| PG_HI_USER_MASK), 4096)

lemma PaeReached.path (h : PaeReached marked env addr m leaf) :
    load true m leaf.addr = (path env addr m).leaf ∧ leaf.large = (path env addr m).large := by
  obtain ⟨pdpe, ptep, htop, hleaf, _, rest⟩ := h
  unfold X86.path
  dsimp only
  rw [htop.alike.tableOf]
  by_cases hlarge : leaf.large = true
  · rw [if_pos hlarge] at rest
    obtain ⟨hla, hpse, _⟩ := rest
    rw [← hla, hleaf.pse, if_pos hpse]
    exact ⟨rfl, hlarge⟩
  · rw [if_neg hlarge] at rest
    obtain ⟨pde, h2, _, hpse, hla, _⟩ := rest
    rw [h2.pse, if_neg (not_not.mpr hpse), h2.alike.tableOf, hla]
    exact ⟨rfl, by simpa using hlarge⟩

lemma debugLeaf_present (leaf : BitVec 64) (large : Bool) :
    (debugLeaf leaf large).1 &&& PG_PRESENT_MASK = leaf &&& PG_PRESENT_MASK := by
  cases large
  · show leaf &&& _ &&& _ = _
    rw [BitVec.and_assoc]
    congr 1
  · show leaf &&& _ &&& _ &&& _ = _
    rw [BitVec.and_assoc, BitVec.and_assoc]
    congr 1

lemma pdpePath_mem : (pdpePath env addr m).2 ∈ (pdpePath env addr m).1 := by
  unfold pdpePath
  split
  · exact mem_cons_of_mem _ mem_cons_self
  · exact mem_cons_self

lemma PaeReached.debug (h : PaeReached marked env addr m leaf)
    (hplain : t = .x86_64 → ∀ e ∈ (X86.path env addr m).tables, e &&& highBits t = 0) :
    debugPae env m addr =
      some (debugLeaf (X86.path env addr m).leaf (X86.path env addr m).large) := by
  obtain ⟨pdpe, ptep, htop, hleaf, _, rest⟩ := h
  have htables : t = .x86_64 → ∀ e ∈ (pdpePath env addr m).1, e &&& highBits t = 0 := by
    intro ht e he
    refine hplain ht e ?_
    unfold X86.path
    dsimp only
    split
    · exact he
    · exact mem_append_left _ he
  obtain ⟨a, haddr, hload⟩ := htop.debug htables
  have haddr2 := tableAddr_debug env addr (fun ht => htables ht _ pdpePath_mem) 21
  unfold debugPae
  rw [haddr]
  dsimp only
  rw [hload, if_neg (htop.alike.symm.present htop.present), haddr2]
  unfold X86.path at hplain ⊢
  dsimp only at hplain ⊢
  rw [htop.alike.tableOf] at *
  have hpde : ∀ a, ldq m a = load true m a := fun _ => rfl
  rw [hpde]
  by_cases hlarge : leaf.large = true
  · rw [if_pos hlarge] at rest
    obtain ⟨hla, hpse, _⟩ := rest
    rw [hla] at hleaf
    rw [if_neg hleaf.present_load, hleaf.pse, if_pos hpse, if_pos hpse]
    show (if (debugLeaf _ true).1 &&& PG_PRESENT_MASK = 0 then none else some (debugLeaf _ true)) = _
    rw [debugLeaf_present, if_neg hleaf.present_load]
  · rw [if_neg hlarge] at rest
    obtain ⟨pde, h2, _, hpse, hla, _⟩ := rest
    rw [hla] at hleaf
    have hpse' : ¬ pde &&& PG_PSE_MASK ≠ 0 := not_not.mpr hpse
    rw [h2.pse, if_neg hpse'] at hplain
    have haddr1 := tableAddr_debug env addr
      (e := load true m (tableOf env addr pdpe 21))
      (fun ht => hplain ht _ (mem_append_right _ mem_cons_self)) 12
    rw [if_neg h2.present_load, h2.pse, if_neg hpse', if_neg hpse', haddr1, h2.alike.tableOf, hpde]
    show (if (debugLeaf _ false).1 &&& PG_PRESENT_MASK = 0 then none else some (debugLeaf _ false)) = _
    rw [debugLeaf_present, if_neg hleaf.present_load]

/-! ## the same page -/

lemma Reached32.debug (h : Reached32 marked env addr m leaf) :
    debug32 env m addr =
      if leaf.large then
        some (load false m leaf.addr &&& ~~~(0x003ff000 : BitVec 64) &&& env.a20Mask 64, 4096 * 1024)
      else some (load false m leaf.addr &&& env.a20Mask 64, 4096) := by
  obtain ⟨hleaf, rest⟩ := h
  have hload : ∀ a, (ldl m a).setWidth 64 = load false m a := fun _ => rfl
  unfold debug32
  dsimp only
  rw [hload, hload]
  by_cases hlarge : leaf.large = true
  · rw [if_pos hlarge] at *
    obtain ⟨hla, hpse, hcr4, _⟩ := rest
    rw [hla] at hleaf
    rw [if_neg hleaf.present_load, hleaf.pse, if_pos ⟨hpse, hcr4⟩, hla]
  · rw [if_neg hlarge] at *
    obtain ⟨pde, h2, hpse, hla, _⟩ := rest
    rw [hla] at hleaf
    rw [if_neg h2.present_load, h2.pse, if_neg hpse, h2.alike.pte32, if_neg hleaf.present_load, hla]

lemma and_eq_and_iff (e : BitVec 64) {narrow wide : BitVec 64} (rest : BitVec 64)
    (hor : wide = narrow ||| rest) (hdisj : narrow &&& rest = 0) :
    e &&& narrow = e &&& wide ↔ e &&& rest = 0 := by
  have hbits : ∀ i, (narrow.getLsbD i && rest.getLsbD i) = false := fun i => by
    rw [← BitVec.getLsbD_and, hdisj]
    exact BitVec.getLsbD_zero
  constructor
  · intro h
    refine BitVec.eq_of_getLsbD_eq fun i hi => ?_
    have hi := congrArg (fun x => x.getLsbD i) h
    have hb := hbits i
    simp only [BitVec.getLsbD_and] at hi ⊢
    cases he : e.getLsbD i <;> cases hn : narrow.getLsbD i <;> cases hr : rest.getLsbD i <;>
      simp_all
  · intro h
    rw [hor, BitVec.and_or_distrib_left, h]
    exact BitVec.or_zero.symm

/-- what the fault handler keeps of the entry of a page, with PAE -/
def pageMask (env : Env t) (large : Bool) : BitVec 64 :=
  (if large then
    (PHYS_ADDR_MASK t &&& ~~~BitVec.ofNat 64 (2048 * 1024 - 1)) ||| (0xfff : BitVec 64)
  else PHYS_ADDR_MASK t ||| (0xfff : BitVec 64)) &&& env.a20Mask 64 &&& TARGET_PAGE_MASK 64

/-- what the debugger keeps of it -/
def debugPageMask (large : Bool) : BitVec 64 :=
  (if large then
    ~~~(BitVec.ofNat 64 (2048 * 1024 - 1) &&& ~~~(0xfff : BitVec 64)) &&&
      ~~~(PG_NX_MASK ||| PG_HI_USER_MASK)
  else ~~~(PG_NX_MASK ||| PG_HI_USER_MASK)) &&& TARGET_PAGE_MASK 64

lemma pteBits_pae (hpae : pae env = true) (leaf : Leaf) (e : BitVec 64) :
    pteBits env leaf e &&& env.a20Mask 64 &&& TARGET_PAGE_MASK 64 =
      e &&& pageMask env leaf.large := by
  unfold pteBits pageMask largeSize
  rw [hpae]
  cases leaf.large <;> simp only [Bool.false_eq_true, if_true, if_false, BitVec.and_assoc]

lemma debugLeaf_page (leaf : BitVec 64) (large : Bool) :
    (debugLeaf leaf large).1 &&& TARGET_PAGE_MASK 64 = leaf &&& debugPageMask large := by
  unfold debugLeaf debugPageMask
  cases large <;> simp only [Bool.false_eq_true, if_true, if_false, BitVec.and_assoc]

lemma a20Mask_eq (env : Env t) :
    env.a20Mask 64 = if env.a20State then -1 else ~~~BitVec.twoPow 64 20 := by
  unfold Env.a20Mask
  cases env.a20State <;> decide

lemma pageMask_bit (env : Env t) (large : Bool) {i : Nat} (hi : i < 12) :
    (pageMask env large).getLsbD i = false := by
  unfold pageMask TARGET_PAGE_MASK
  have hlow : (0xfff : BitVec 64) = BitVec.ofNat 64 (2 ^ 12 - 1) := rfl
  rw [BitVec.getLsbD_and, BitVec.getLsbD_not, hlow, BitVec.getLsbD_ofNat,
    Nat.testBit_two_pow_sub_one]
  simp [hi]

lemma pageMask_eq_iff (env : Env t) (large : Bool) (e : BitVec 64) :
    e &&& pageMask env large = e &&& debugPageMask large ↔
      e &&& highBits t = 0 ∧
        (large = true ∨ env.a20State = true ∨ e &&& BitVec.twoPow 64 20 = 0) := by
  unfold pageMask
  rw [a20Mask_eq]
  by_cases hkeep : large = true ∨ env.a20State = true
  · rw [and_eq_and_iff e (highBits t)]
    · exact ⟨fun h => ⟨h, hkeep.elim .inl (fun h => .inr (.inl h))⟩, fun h => h.1⟩
    all_goals
      rcases hkeep with rfl | ha
      · cases env.a20State <;> cases t <;> decide
      · rw [ha]
        cases large <;> cases t <;> decide
  · obtain ⟨hlarge, ha⟩ := not_or.mp hkeep
    rw [Bool.not_eq_true] at hlarge ha
    subst hlarge
    rw [ha, and_eq_and_iff e (highBits t ||| BitVec.twoPow 64 20), BitVec.and_or_distrib_left]
    · simp
    all_goals cases t <;> decide

section
variable {entry : BitVec 64}

lemma debug_page_iff (hpg : env.cr0 &&& CR0_PG_MASK t ≠ 0) (h : Reached False env addr m leaf)
    (hplain : PlainTables env addr m) (hentry : Alike entry (load (pae env) m leaf.addr)) :
    x86CpuGetPhysPageDebug env m addr = leafPaddr env addr leaf entry ↔ PlainLeaf env addr m := by
  unfold x86CpuGetPhysPageDebug debugPte leafPaddr
  rw [if_neg hpg]
  unfold Reached at h
  by_cases hpae : pae env = true
  · rw [if_pos hpae] at *
    have hdebug := h.debug (fun ht => hplain ht ⟨hpg, hpae⟩)
    obtain ⟨hload, hlarge⟩ := h.path
    rw [hpae, hload] at hentry
    have hsize : (if leaf.large then largeSize env else 4096) =
        (debugLeaf (path env addr m).leaf (path env addr m).large).2 := by
      unfold largeSize debugLeaf
      rw [hpae, hlarge]
      cases (path env addr m).large <;> rfl
    have hmask : entry &&& pageMask env leaf.large =
        (path env addr m).leaf &&& pageMask env leaf.large :=
      hentry.mask (pageMask_bit env leaf.large (by decide)) (pageMask_bit env leaf.large (by decide))
    rw [hdebug]
    rw [hsize, BitVec.add_left_inj, pteBits_pae hpae, hmask, debugLeaf_page, hlarge, eq_comm,
      pageMask_eq_iff]
    exact ⟨fun h _ => h, fun h => h ⟨hpg, hpae⟩⟩
  · rw [if_neg hpae] at *
    rw [Bool.not_eq_true] at hpae
    rw [hpae] at hentry
    refine iff_of_true ?_ (fun hp => absurd (hpae.symm.trans hp.2) (by decide))
    have hoff : ∀ mask : BitVec 64, entry &&& (mask &&& TARGET_PAGE_MASK 64) =
        load false m leaf.addr &&& (mask &&& TARGET_PAGE_MASK 64) := fun mask =>
      hentry.mask (by rw [BitVec.getLsbD_and]; exact Bool.and_false _)
        (by rw [BitVec.getLsbD_and]; exact Bool.and_false _)
    rw [h.debug]
    unfold pteBits largeSize
    rw [hpae]
    cases leaf.large with
    | false =>
      simp only [Bool.false_eq_true, if_false, BitVec.and_assoc]
      rw [hoff]
    | true =>
      have hmask : ~~~(BitVec.ofNat 64 (4096 * 1024 - 1) &&& ~~~(0xfff : BitVec 64)) =
          ~~~(0x003ff000 : BitVec 64) := by decide
      simp only [Bool.false_eq_true, if_true, if_false]
      rw [hmask, BitVec.and_assoc, BitVec.and_assoc, BitVec.and_assoc entry, BitVec.and_assoc entry,
        ← BitVec.and_assoc _ (env.a20Mask 64), hoff]
end

lemma PlainLeaf.same (hm : Same (pae env) m m') (h : PlainLeaf env addr m) :
    PlainLeaf env addr m' := by
  intro hp
  rw [hp.2] at hm
  have hun : Unmarked fun e => e &&& highBits t = 0 := highBits_unmarked
  obtain ⟨_, hleaf, hlarge⟩ := path_same env addr hun hm
  obtain ⟨hhigh, hbit⟩ := h hp
  have h20 : (path env addr m).leaf &&& BitVec.twoPow 64 20 =
      (path env addr m').leaf &&& BitVec.twoPow 64 20 := hleaf.mask (by decide) (by decide)
  rw [← hlarge, ← h20]
  exact ⟨highBits_unmarked hleaf hhigh, hbit⟩

section
variable {access : Access} {mmuIdx : MmuIdx} {mapping : Mapping t}

/-- **before and after the walk the debugger finds the page of the guest, if the entry of the page
has no high bits and A20 does not matter for it** -/
theorem debug_agrees_iff (h : handleMmuFault env addr access mmuIdx m = .ok mapping m')
    (hplain : PlainTables env addr m) :
    x86CpuGetPhysPageDebug env m addr = mapping.paddr ∧
        x86CpuGetPhysPageDebug env m' addr = mapping.paddr ↔ PlainLeaf env addr m := by
  rw [handleMmuFault_ok] at h
  by_cases hpg : env.cr0 &&& CR0_PG_MASK t = 0
  · have hdebug : ∀ m, x86CpuGetPhysPageDebug env m addr = mapping.paddr := by
      intro m₂
      unfold translate at h
      rw [if_pos hpg] at h
      injection h with hmapping
      unfold x86CpuGetPhysPageDebug debugPte
      rw [if_pos hpg, ← hmapping]
      rfl
    exact iff_of_true ⟨hdebug m, hdebug m'⟩ (fun hp => absurd hpg hp.1)
  obtain ⟨leaf, hmarks, hreached, _, _, _, hpaddr⟩ := translate_inv hpg h
  have hsame := hmarks.same
  have ha := hreached.aligned
  have hbefore := debug_page_iff hpg (hreached.same hsame.symm) hplain (hsame.symm _ ha)
  have hafter := debug_page_iff hpg (hreached.same (Marks.refl m').same) (hplain.same hsame)
    (Alike.refl (load (pae env) m' leaf.addr))
  rw [hpaddr, hbefore, hafter]
  exact ⟨fun h => h.1, fun h => ⟨h, h.same hsame⟩⟩
end

/-- tables of PAE at the addresses 0x1000 to 0x3000, and one page -/
def paeTables (leaf : BitVec 64) : Mem := fun a =>
  if a = 0x1000 then 0x01 else if a = 0x1001 then 0x20
  else if a = 0x2000 then 0x27 else if a = 0x2001 then 0x30
  else if a - 0x3000 < 8 then (leaf >>> (8 * (a - 0x3000).toNat)).setWidth 8
  else 0

def paeEnv (t : Target) (a20State : Bool) : Env t where
  cr0 := CR0_PG_MASK t
  cr3 := 0x1000
  cr4 := CR4_PAE_MASK t
  hflags := 0
  efer := 0
  a20State := a20State

def pageAt (t : Target) (paddr : BitVec 64) : Mapping t where
  vaddr := 0
  paddr := paddr
  prot := { read := true, write := true, exec := true }
  pageSize := 4096

/-- two tables, below 2^40 both -/
theorem debug_agrees_plain :
    (path (paeEnv .x86_64 true) 0 (paeTables 0x105067)).tables = [0x2001, 0x3027] ∧
    handleMmuFault (paeEnv .x86_64 true) 0 .read .kernel (paeTables 0x105067) =
        .ok (pageAt .x86_64 0x105000) (paeTables 0x105067) ∧
      (x86CpuGetPhysPageDebug (paeEnv .x86_64 true) (paeTables 0x105067) 0 = 0x105000 ∧
        x86CpuGetPhysPageDebug (paeEnv .x86_64 true) (paeTables 0x105067) 0 = 0x105000 ↔
          PlainLeaf (paeEnv .x86_64 true) 0 (paeTables 0x105067)) := by
  have hrun : handleMmuFault (paeEnv .x86_64 true) 0 .read .kernel (paeTables 0x105067) =
      .ok (pageAt .x86_64 0x105000) (paeTables 0x105067) := by rfl
  have htables : (path (paeEnv .x86_64 true) 0 (paeTables 0x105067)).tables = [0x2001, 0x3027] := by
    decide +kernel
  have hplain : PlainTables (paeEnv .x86_64 true) 0 (paeTables 0x105067) := by
    intro _ _
    rw [htables, forall_mem_cons, forall_mem_singleton]
    exact ⟨by decide, by decide⟩
  exact ⟨htables, hrun, debug_agrees_iff hrun hplain⟩

/-- with A20 off, or with bit 36 of the entry set, the debugger looks at another page -/
theorem debug_other_page :
    (handleMmuFault (paeEnv .i386 false) 0 .read .kernel (paeTables 0x105067) =
        .ok (pageAt .i386 0x5000) (paeTables 0x105067) ∧
      x86CpuGetPhysPageDebug (paeEnv .i386 false) (paeTables 0x105067) 0 = 0x105000) ∧
    (handleMmuFault (paeEnv .i386 true) 0 .read .kernel (paeTables 0x1000105067) =
        .ok (pageAt .i386 0x105000) (paeTables 0x1000105067) ∧
      x86CpuGetPhysPageDebug (paeEnv .i386 true) (paeTables 0x1000105067) 0 = 0x1000105000) :=
  ⟨⟨by rfl, by rfl⟩, ⟨by rfl, by rfl⟩⟩
end

end X86
