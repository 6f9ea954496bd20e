import TraceSyscallObj.X86.MmuTables

/-!
# Rights in the TLB

The fault handler checks the access that faulted and then computes the rights of the TLB entry from
the entries of the walk.  The rights know about dirty bits, NX and CR0.WP, and nothing about SMEP
and SMAP: these are checked for the access that faulted only.

* `rightsPath`: the entries that carry rights, read without a walk;
* `Fresh`: a fresh walk permits the access and sets no bit;
* `Leaks`: an access of another kind is granted although SMEP or SMAP forbids it;
* `rights_fresh_iff`.
-/

namespace X86
open ByteMem Run

/-! ## the checks of one access -/

section
variable {t : Target} (env : Env t) (ptep : BitVec 64) (access : Access)

/-- `case MMU_KSMAP_IDX` -/
def DeniedKsmap : Prop :=
  (access = .exec ∧ env.cr4 &&& CR4_SMEP_MASK t ≠ 0 ∧ ptep &&& PG_USER_MASK ≠ 0) ∨
    (env.cr0 &&& CR0_WP_MASK t ≠ 0 ∧ access = .write ∧ ptep &&& PG_RW_MASK = 0)

def Denied : MmuIdx → Prop
  | .user => ptep &&& PG_USER_MASK = 0 ∨ (access = .write ∧ ptep &&& PG_RW_MASK = 0)
  | .kernel =>
    (access ≠ .exec ∧ env.cr4 &&& CR4_SMAP_MASK t ≠ 0 ∧ ptep &&& PG_USER_MASK ≠ 0) ∨
      DeniedKsmap env ptep access
  | .ksmap => DeniedKsmap env ptep access

variable {α : Type} (k : Unit → Walk α) (m : Mem)

lemma ksmap_run : checkProtection.ksmap env ptep access m = .ok () m ∧
      ¬ DeniedKsmap env ptep access ∨
    checkProtection.ksmap env ptep access m = .error (.page PG_ERROR_P_MASK) m ∧
      DeniedKsmap env ptep access := by
  unfold checkProtection.ksmap DeniedKsmap
  by_cases h1 : access = .exec ∧ env.cr4 &&& CR4_SMEP_MASK t ≠ 0 ∧ ptep &&& PG_USER_MASK ≠ 0
  · rw [if_pos h1]
    exact .inr ⟨rfl, .inl h1⟩
  rw [if_neg h1]
  by_cases h2 : env.cr0 &&& CR0_WP_MASK t ≠ 0 ∧ access = .write ∧ ptep &&& PG_RW_MASK = 0
  · rw [if_pos h2]
    exact .inr ⟨rfl, .inr h2⟩
  · rw [if_neg h2]
    exact .inl ⟨rfl, fun h => h.elim h1 h2⟩

lemma checkProtection_run (mmuIdx : MmuIdx) :
    checkProtection env ptep access mmuIdx m = .ok () m ∧ ¬ Denied env ptep access mmuIdx ∨
      checkProtection env ptep access mmuIdx m = .error (.page PG_ERROR_P_MASK) m ∧
        Denied env ptep access mmuIdx := by
  unfold checkProtection
  cases mmuIdx with
  | user =>
    by_cases h1 : ptep &&& PG_USER_MASK = 0
    · rw [if_pos h1]
      exact .inr ⟨rfl, .inl h1⟩
    rw [if_neg h1]
    by_cases h2 : access = .write ∧ ptep &&& PG_RW_MASK = 0
    · rw [if_pos h2]
      exact .inr ⟨rfl, .inr h2⟩
    · rw [if_neg h2]
      exact .inl ⟨rfl, fun h => h.elim h1 h2⟩
  | kernel =>
    by_cases h1 : access ≠ .exec ∧ env.cr4 &&& CR4_SMAP_MASK t ≠ 0 ∧ ptep &&& PG_USER_MASK ≠ 0
    · rw [if_pos h1]
      exact .inr ⟨rfl, .inl h1⟩
    · rw [if_neg h1]
      rcases ksmap_run env ptep access m with ⟨hrun, hd⟩ | ⟨hrun, hd⟩
      · exact .inl ⟨hrun, fun h => h.elim h1 hd⟩
      · exact .inr ⟨hrun, .inr hd⟩
  | ksmap => exact ksmap_run env ptep access m

lemma checkProtection_ok {mmuIdx : MmuIdx} (h : ¬ Denied env ptep access mmuIdx) :
    (checkProtection env ptep access mmuIdx >>= k) m = k () m := by
  rcases checkProtection_run env ptep access m mmuIdx with ⟨hrun, _⟩ | ⟨_, hd⟩
  · exact bind_ok hrun
  · exact absurd hd h

lemma checkProtection_denied {mmuIdx : MmuIdx} (h : Denied env ptep access mmuIdx) :
    (checkProtection env ptep access mmuIdx >>= k) m = .error (.page PG_ERROR_P_MASK) m := by
  rcases checkProtection_run env ptep access m mmuIdx with ⟨_, hd⟩ | ⟨hrun, _⟩
  · exact absurd h hd
  · exact bind_error hrun
end

/-! ## the last entry -/

def Dirty (e : BitVec 64) : Prop := e &&& PG_DIRTY_MASK ≠ 0

section
variable {t : Target} {env : Env t} {pae' : Bool} {a e : BitVec 64} {m m' : Mem} {access : Access}

lemma dirty_bits (i : Nat) (h6 : i ≠ 6) : PG_DIRTY_MASK.getLsbD i = false := by
  unfold PG_DIRTY_MASK
  rw [BitVec.getLsbD_twoPow, decide_eq_false (show ¬ 6 = i from fun h => h6 h.symm), Bool.and_false]

lemma Marks.dirty (h : Marks pae' m m') (ha : Aligned pae' a) (hm : Dirty (load pae' m a)) :
    Dirty (load pae' m' a) := by
  unfold Dirty PG_DIRTY_MASK at *
  rw [test_ne_zero (by decide)] at *
  exact (h a ha).2 6 hm

lemma dirty_or (e : BitVec 64) : Dirty (e ||| PG_DIRTY_MASK) := by
  unfold Dirty PG_DIRTY_MASK
  rw [test_ne_zero (by decide)]
  simp

lemma store_run (ha : Aligned pae' a) {x : BitVec 64} (hx : x.toNat < 2 ^ 32)
    (hbits : ∀ i, i ≠ 5 → i ≠ 6 → x.getLsbD i = false) :
    ∃ m', (do stlPhysNotdirty a (load pae' m a ||| x); return load pae' m a ||| x : Walk _) m =
        .ok (load pae' m' a) m' ∧ Marks pae' m m' ∧ load pae' m' a = load pae' m a ||| x := by
  refine ⟨stl m a ((load pae' m a ||| x).setWidth 32), ?_, marks_stl ha hx hbits,
    load_stl_same ha hx⟩
  rw [load_stl_same ha hx]
  rfl

lemma setAccessedDirty_run (access : Access) (m : Mem) (ha : Aligned pae' a) :
    ∃ m', setAccessedDirty access a (load pae' m a) m = .ok (load pae' m' a) m' ∧
      Marks pae' m m' ∧ Accessed (load pae' m' a) ∧ (access = .write → Dirty (load pae' m' a)) := by
  unfold setAccessedDirty
  by_cases hd : access = .write ∧ load pae' m a &&& PG_DIRTY_MASK = 0
  · obtain ⟨m', hrun, hmarks, hload⟩ := store_run (m := m) ha
      (show (PG_ACCESSED_MASK ||| PG_DIRTY_MASK).toNat < 2 ^ 32 by decide) fun i h5 h6 => by
        rw [BitVec.getLsbD_or, accessed_bits i h5, dirty_bits i h6]
        rfl
    rw [← BitVec.or_assoc] at hrun hload
    rw [if_pos (.inr hd), if_pos hd]
    refine ⟨m', hrun, hmarks, ?_, fun _ => ?_⟩
    · rw [hload, BitVec.or_assoc, BitVec.or_comm PG_ACCESSED_MASK, ← BitVec.or_assoc]
      exact accessed_or _
    · rw [hload]
      exact dirty_or _
  · have hwrite : access = .write → Dirty (load pae' m a) := fun hw h0 => hd ⟨hw, h0⟩
    by_cases hacc : load pae' m a &&& PG_ACCESSED_MASK = 0
    · obtain ⟨m', hrun, hmarks, hload⟩ := store_run (m := m) ha
        (show PG_ACCESSED_MASK.toNat < 2 ^ 32 by decide) fun i h5 _ => accessed_bits i h5
      rw [if_pos (.inl hacc), if_neg hd]
      refine ⟨m', hrun, hmarks, ?_, fun hw => hmarks.dirty ha (hwrite hw)⟩
      rw [hload]
      exact accessed_or _
    · rw [if_neg (fun h => h.elim hacc hd)]
      exact ⟨m, rfl, Marks.refl m, hacc, hwrite⟩

lemma setAccessedDirty_again (hacc : Accessed e) (hdirty : access = .write → Dirty e) :
    setAccessedDirty access a e m = .ok e m := by
  have hnot : ¬ (e &&& PG_ACCESSED_MASK = 0 ∨ access = .write ∧ e &&& PG_DIRTY_MASK = 0) := by
    rintro (h | ⟨hw, h⟩)
    · exact hacc h
    · exact hdirty hw h
  unfold setAccessedDirty
  rw [if_neg hnot]
  rfl
end

/-! ## using the last entry -/

section
variable {t : Target} {env : Env t} {addr : TargetUlong t} {access : Access} {mmuIdx : MmuIdx}
  {leaf : Leaf} {m m' : Mem} {mapping : Mapping t}

def Refused (env : Env t) (ptep : BitVec 64) (access : Access) (mmuIdx : MmuIdx) : Prop :=
  (pae env = true ∧ ptep &&& PG_NX_MASK ≠ 0 ∧ access = .exec) ∨ Denied env ptep access mmuIdx

/-- the rights, from the entry as it is in memory in the end -/
def leafRights (env : Env t) (mmuIdx : MmuIdx) (leaf : Leaf) (entry : BitVec 64) : Prot :=
  let pte := pteBits env leaf entry
  rights env pte (if ¬ pae env ∧ leaf.large then pte else leaf.ptep) mmuIdx

def leafPaddr (env : Env t) (addr : TargetUlong t) (leaf : Leaf) (entry : BitVec 64) : BitVec 64 :=
  (pteBits env leaf entry &&& env.a20Mask 64 &&& TARGET_PAGE_MASK 64) +
    (pageOffset addr (if leaf.large then largeSize env else 4096)).setWidth 64

lemma useLeaf_refused (h : Refused env leaf.ptep access mmuIdx) :
    useLeaf env addr access mmuIdx leaf m = .error (.page PG_ERROR_P_MASK) m := by
  unfold useLeaf
  by_cases hnx : pae env = true ∧ leaf.ptep &&& PG_NX_MASK ≠ 0 ∧ access = .exec
  · rw [if_pos hnx]
    rfl
  · rw [if_neg hnx]
    exact checkProtection_denied env leaf.ptep access _ m (h.resolve_left hnx)

lemma useLeaf_run (hleaf : leaf.entry = load (pae env) m leaf.addr)
    (ha : Aligned (pae env) leaf.addr) (h : ¬ Refused env leaf.ptep access mmuIdx) :
    ∃ m' mapping, useLeaf env addr access mmuIdx leaf m = .ok mapping m' ∧ Marks (pae env) m m' ∧
      Accessed (load (pae env) m' leaf.addr) ∧
      (access = .write → Dirty (load (pae env) m' leaf.addr)) ∧
      mapping.prot = leafRights env mmuIdx leaf (load (pae env) m' leaf.addr) ∧
      mapping.paddr = leafPaddr env addr leaf (load (pae env) m' leaf.addr) := by
  obtain ⟨hnx, hd⟩ := not_or.mp h
  obtain ⟨m', hrun, hmarks, hacc, hdirty⟩ := setAccessedDirty_run access m ha
  unfold useLeaf
  rw [if_neg hnx]
  dsimp only
  rw [checkProtection_ok env leaf.ptep access _ m hd, hleaf, bind_ok hrun]
  exact ⟨m', _, rfl, hmarks, hacc, hdirty, rfl, rfl⟩

lemma useLeaf_again (hacc : Accessed leaf.entry) (hdirty : access = .write → Dirty leaf.entry)
    (h : ¬ Refused env leaf.ptep access mmuIdx) :
    ∃ mapping, useLeaf env addr access mmuIdx leaf m = .ok mapping m := by
  obtain ⟨hnx, hd⟩ := not_or.mp h
  unfold useLeaf
  rw [if_neg hnx]
  dsimp only
  rw [checkProtection_ok env leaf.ptep access _ m hd,
    bind_ok (setAccessedDirty_again hacc hdirty)]
  exact ⟨_, rfl⟩
end

/-! ## rights of a page -/

section
variable {t : Target} (env : Env t) (addr : TargetUlong t) (m : Mem)

/-- the entries above `pde`, and `pdpe` -/
def pdpePath : List (BitVec 64) × BitVec 64 :=
  if longMode env then
    let pml4e := load true m (pml4eAddr env (addr.setWidth 64))
    let pdpe := load true m (tableOf env addr pml4e 30)
    ([pml4e, pdpe], pdpe)
  else
    let pdpe := load true m ((pdpeAddrLegacy env addr).setWidth 64)
    ([pdpe], pdpe)

/-- those of them that carry rights -/
def topRights : List (BitVec 64) := if longMode env then (pdpePath env addr m).1 else []

/-- the entries that carry rights, read without a walk -/
def rightsPath : List (BitVec 64) :=
  if pae env then
    let pde := load true m (tableOf env addr (pdpePath env addr m).2 21)
    if pde &&& PG_PSE_MASK ≠ 0 then topRights env addr m ++ [pde]
    else topRights env addr m ++ [pde, load true m (tableOf env addr pde 12)]
  else
    let pde := load false m (pdeAddr32 env addr)
    if pde &&& PG_PSE_MASK ≠ 0 ∧ env.cr4 &&& CR4_PSE_MASK t ≠ 0 then [pde]
    else [pde, load false m (pteAddr32 env pde addr)]

def UserPage : Prop := ∀ e ∈ rightsPath env addr m, e &&& PG_USER_MASK ≠ 0

def ExecPage : Prop := ∀ e ∈ rightsPath env addr m, e &&& PG_NX_MASK = 0

/-- paging is on, and an access of another kind than the one that faulted is granted although SMAP
or SMEP forbids it -/
def Leaks (access : Access) (mmuIdx : MmuIdx) : Prop :=
  env.cr0 &&& CR0_PG_MASK t ≠ 0 ∧ mmuIdx ≠ .user ∧ UserPage env addr m ∧
    ((access = .exec ∧ mmuIdx = .kernel ∧ env.cr4 &&& CR4_SMAP_MASK t ≠ 0) ∨
      (access ≠ .exec ∧ env.cr4 &&& CR4_SMEP_MASK t ≠ 0 ∧ ExecPage env addr m))
end

section
variable {t : Target} {env : Env t} {addr : TargetUlong t} {m : Mem} {leaf : Leaf}

/-- bit `i` of an entry permits the access, for the user bit and for NX -/
def permits (i : Nat) (e : BitVec 64) : Bool := (e ^^^ PG_NX_MASK).getLsbD i

/-- the rights in `ptep` are those of all entries on the path -/
def Combines (env : Env t) (addr : TargetUlong t) (m : Mem) (ptep : BitVec 64) : Prop :=
  ∀ i, i = 2 ∨ i = 63 →
    (permits i ptep = true ↔ ∀ e ∈ rightsPath env addr m, permits i e = true)

lemma permits_two (e : BitVec 64) : permits 2 e = e.getLsbD 2 := by
  rw [permits, BitVec.getLsbD_xor, show PG_NX_MASK.getLsbD 2 = false by decide, Bool.xor_false]

lemma permits_user (e : BitVec 64) : permits 2 e = true ↔ e &&& PG_USER_MASK ≠ 0 := by
  rw [permits_two]
  exact (test_ne_zero (by decide) e).symm

lemma permits_nx (e : BitVec 64) : permits 63 e = true ↔ e &&& PG_NX_MASK = 0 := by
  rw [permits, BitVec.getLsbD_xor, show PG_NX_MASK.getLsbD 63 = true by decide, Bool.xor_true,
    Bool.not_eq_true']
  exact (test_eq_zero (by decide) e).symm

variable {ptep : BitVec 64}

lemma Combines.user (h : Combines env addr m ptep) :
    ptep &&& PG_USER_MASK ≠ 0 ↔ UserPage env addr m := by
  unfold UserPage
  simp only [← permits_user]
  exact h 2 (.inl rfl)

lemma Combines.exec (h : Combines env addr m ptep) :
    ptep &&& PG_NX_MASK = 0 ↔ ExecPage env addr m := by
  unfold ExecPage
  simp only [← permits_nx]
  exact h 63 (.inr rfl)

lemma Alike.permits {e e' : BitVec 64} (h : Alike e e') {i : Nat} (hi : i = 2 ∨ i = 63) :
    permits i e = permits i e' := by
  unfold X86.permits
  rw [BitVec.getLsbD_xor, BitVec.getLsbD_xor, h i (by omega) (by omega)]

lemma permits_and_xor (i : Nat) (a b : BitVec 64) :
    permits i ((a &&& (b ^^^ PG_NX_MASK)) ^^^ PG_NX_MASK) = (a.getLsbD i && permits i b) := by
  unfold permits
  rw [BitVec.xor_assoc, BitVec.xor_self, BitVec.xor_zero, BitVec.getLsbD_and]

variable {marked : Prop}

section
variable {pdpe : BitVec 64} (h : TopReached marked env addr m pdpe ptep)
include h

lemma TopReached.alike : Alike (pdpePath env addr m).2 pdpe := by
  unfold TopReached at h
  unfold pdpePath
  by_cases hlong : longMode env = true
  · rw [if_pos hlong] at *
    obtain ⟨_, pml4e, h4, _, h3, _⟩ := h
    dsimp only
    rw [h4.alike.tableOf]
    exact h3.alike
  · rw [if_neg hlong] at *
    exact h.1.alike

lemma TopReached.bits {i : Nat} (hi : i = 2 ∨ i = 63) :
    ptep.getLsbD i = true ↔ ∀ e ∈ topRights env addr m, permits i e = true := by
  unfold TopReached at h
  unfold topRights
  by_cases hlong : longMode env = true
  · rw [if_pos hlong] at *
    obtain ⟨_, pml4e, h4, _, h3, _, hptep⟩ := h
    rw [hptep i (by omega) (by omega), BitVec.getLsbD_and]
    show (permits i pml4e && permits i pdpe) = true ↔ _
    unfold pdpePath
    rw [if_pos hlong]
    dsimp only
    rw [h4.alike.tableOf, ← h4.alike.permits hi, ← h3.alike.permits hi]
    simp
  · rw [if_neg hlong] at *
    rw [h.2]
    refine iff_of_true ?_ fun e he => absurd he (List.not_mem_nil)
    rcases hi with rfl | rfl
    · decide
    · decide

end

lemma PaeReached.bits (hpae : pae env = true) (h : PaeReached marked env addr m leaf) :
    Combines env addr m leaf.ptep := by
  obtain ⟨pdpe, ptep, htop, hleaf, _, rest⟩ := h
  intro i hi
  have hbits := htop.bits hi
  unfold rightsPath
  rw [if_pos hpae]
  dsimp only
  rw [htop.alike.tableOf]
  by_cases hlarge : leaf.large = true
  · rw [if_pos hlarge] at rest
    obtain ⟨hla, hpse, hlp⟩ := rest
    rw [← hla, hleaf.pse, if_pos hpse, hlp.permits hi, permits_and_xor, Bool.and_eq_true, hbits,
      ← hleaf.alike.permits hi]
    simp [or_imp, forall_and]
  · rw [if_neg hlarge] at rest
    obtain ⟨pde, h2, _, hpse, hla, hlp⟩ := rest
    rw [h2.pse, if_neg (not_not.mpr hpse), h2.alike.tableOf, ← hla, hlp.permits hi, permits_and_xor,
      BitVec.getLsbD_and]
    show ((ptep.getLsbD i && permits i pde) && permits i leaf.entry) = true ↔ _
    rw [Bool.and_eq_true, Bool.and_eq_true, hbits, ← hleaf.alike.permits hi,
      ← h2.alike.permits hi]
    simp [or_imp, forall_and, and_assoc]

lemma permits32 (a : BitVec 64) : permits 63 (load false m a) = true := by
  rw [permits_nx]
  refine (test_eq_zero (by decide) _).mpr ?_
  show ((ldl m a).setWidth 64).getLsbD 63 = false
  rw [BitVec.getLsbD_setWidth, BitVec.getLsbD_of_ge _ _ (by decide), Bool.and_false]

lemma Reached32.bits (hpae : pae env = false) (h : Reached32 marked env addr m leaf) :
    Combines env addr m leaf.ptep := by
  obtain ⟨hleaf, rest⟩ := h
  intro i hi
  unfold rightsPath
  rw [hpae, if_neg (by decide)]
  dsimp only
  by_cases hlarge : leaf.large = true
  · rw [if_pos hlarge] at rest
    obtain ⟨hla, hpse, hcr4, hlp⟩ := rest
    rw [← hla, hleaf.pse, if_pos ⟨hpse, hcr4⟩, hlp.permits hi, ← hleaf.alike.permits hi]
    simp
  · rw [if_neg hlarge] at rest
    obtain ⟨pde, h2, hpse, hla, hlp⟩ := rest
    rw [h2.pse, if_neg hpse, h2.alike.pte32, ← hla, hlp.permits hi]
    rcases hi with rfl | rfl
    · rw [permits_two, BitVec.getLsbD_and, ← permits_two, ← permits_two,
        ← hleaf.alike.permits (.inl rfl), ← h2.alike.permits (.inl rfl)]
      simp [and_comm]
    · have hpde : pde &&& PG_NX_MASK = 0 := by
        rw [← permits_nx, ← h2.alike.permits (.inr rfl)]
        exact permits32 _
      rw [permits_nx, BitVec.and_assoc, hpde]
      simp [permits32]

lemma Reached.bits (h : Reached marked env addr m leaf) : Combines env addr m leaf.ptep := by
  unfold Reached at h
  by_cases hpae : pae env = true
  · rw [if_pos hpae] at h
    exact h.bits hpae
  · rw [if_neg hpae] at h
    exact h.bits (by simpa using hpae)

lemma Reached.aligned (h : Reached marked env addr m leaf) : Aligned (pae env) leaf.addr := by
  unfold Reached at h
  by_cases hpae : pae env = true
  · rw [if_pos hpae] at h
    rw [hpae]
    obtain ⟨_, _, _, hleaf, _⟩ := h
    exact hleaf.aligned
  · rw [if_neg hpae] at h
    rw [Bool.not_eq_true] at hpae
    rw [hpae]
    exact h.1.aligned
end

/-! ## granted and permitted -/

def Prot.grants (prot : Prot) : Access → Bool
  | .read => prot.read
  | .write => prot.write
  | .exec => prot.exec

section
variable {t : Target} {env : Env t} {addr : TargetUlong t} {access : Access} {mmuIdx : MmuIdx}
  {leaf : Leaf} {m m' : Mem} {mapping : Mapping t}

/-- a fresh walk permits the access and sets no bit, in particular no dirty bit -/
def Fresh (env : Env t) (addr : TargetUlong t) (mmuIdx : MmuIdx) (m : Mem) (access : Access) :
    Prop :=
  ∃ mapping, handleMmuFault env addr access mmuIdx m = .ok mapping m

lemma handleMmuFault_ok :
    handleMmuFault env addr access mmuIdx m = .ok mapping m' ↔
      translate env addr access mmuIdx m = .ok mapping m' := by
  unfold handleMmuFault
  cases translate env addr access mmuIdx m with
  | ok r m₁ => exact Iff.rfl
  | error e m₁ => exact ⟨fun h => (nomatch h), fun h => (nomatch h)⟩

lemma translate_paging (hpg : env.cr0 &&& CR0_PG_MASK t ≠ 0) :
    translate env addr access mmuIdx m = (findLeaf env addr >>= useLeaf env addr access mmuIdx) m := by
  unfold translate
  rw [if_neg hpg]

lemma translate_off (hpg : env.cr0 &&& CR0_PG_MASK t = 0) :
    ∃ mapping, translate env addr access mmuIdx m = .ok mapping m := by
  unfold translate
  rw [if_pos hpg]
  exact ⟨_, rfl⟩

lemma Alike.refused {ptep ptep' : BitVec 64} (h : Alike ptep ptep') :
    Refused env ptep access mmuIdx ↔ Refused env ptep' access mmuIdx := by
  have huser : ptep &&& PG_USER_MASK = ptep' &&& PG_USER_MASK := h.mask (by decide) (by decide)
  have hrw : ptep &&& PG_RW_MASK = ptep' &&& PG_RW_MASK := h.mask (by decide) (by decide)
  have hnx : ptep &&& PG_NX_MASK = ptep' &&& PG_NX_MASK := h.mask (by decide) (by decide)
  unfold Refused Denied DeniedKsmap
  rw [huser, hrw, hnx]

lemma pteBits_and (leaf : Leaf) (e : BitVec 64) {mask : BitVec 64}
    (hmask : mask = PG_RW_MASK ∨ mask = PG_DIRTY_MASK) :
    pteBits env leaf e &&& mask = e &&& mask := by
  unfold pteBits largeSize
  cases hpae : pae env <;> cases hlarge : leaf.large
  · rfl
  all_goals
    simp only [Bool.false_eq_true, if_true, if_false]
    rw [BitVec.and_assoc]
    congr 1
    rcases hmask with rfl | rfl <;> cases t <;> decide

lemma pteBits_nx (hpae : pae env = false) (leaf : Leaf) (e : BitVec 64) :
    pteBits env leaf e &&& PG_NX_MASK = e &&& PG_NX_MASK := by
  unfold pteBits largeSize
  rw [hpae]
  cases hlarge : leaf.large
  · rfl
  · simp only [Bool.false_eq_true, if_true, if_false]
    rw [BitVec.and_assoc]
    congr 1

lemma leafRights_eq (leaf : Leaf) (e : BitVec 64)
    (h : pae env = false → leaf.large = true → Alike leaf.ptep e) :
    leafRights env mmuIdx leaf e = rights env e leaf.ptep mmuIdx := by
  unfold leafRights rights
  dsimp only
  rw [pteBits_and leaf e (.inr rfl)]
  by_cases hbig : ¬ pae env = true ∧ leaf.large = true
  · have hpae : pae env = false := by simpa using hbig.1
    have halike := h hpae hbig.2
    have hrw : leaf.ptep &&& PG_RW_MASK = e &&& PG_RW_MASK := halike.mask (by decide) (by decide)
    have hnx : leaf.ptep &&& PG_NX_MASK = e &&& PG_NX_MASK := halike.mask (by decide) (by decide)
    rw [if_pos hbig, pteBits_and leaf e (.inl rfl), pteBits_nx hpae, hrw, hnx]
  · rw [if_neg hbig]

lemma translate_inv (hpg : env.cr0 &&& CR0_PG_MASK t ≠ 0)
    (h : translate env addr access mmuIdx m = .ok mapping m') :
    ∃ leaf, Marks (pae env) m m' ∧ Reached True env addr m' leaf ∧
      ¬ Refused env leaf.ptep access mmuIdx ∧ Accessed (load (pae env) m' leaf.addr) ∧
      mapping.prot = rights env (load (pae env) m' leaf.addr) leaf.ptep mmuIdx ∧
      mapping.paddr = leafPaddr env addr leaf (load (pae env) m' leaf.addr) := by
  rw [translate_paging hpg] at h
  obtain ⟨leaf, m₁, hfind, huse⟩ := bind_inv h
  obtain ⟨hmarks, hreached, hentry⟩ := findLeaf_inv hfind
  have ha := hreached.aligned
  by_cases hre : Refused env leaf.ptep access mmuIdx
  · rw [useLeaf_refused hre] at huse
    cases huse
  obtain ⟨m₂, mapping₂, hrun, hmarks₂, hacc, _, hprot, hpaddr⟩ := useLeaf_run hentry ha hre
  rw [hrun] at huse
  injection huse with hmapping hstate
  subst hmapping hstate
  refine ⟨leaf, hmarks.trans hmarks₂, hreached.mono hmarks₂, hre, hacc, ?_, hpaddr⟩
  rw [hprot]
  refine leafRights_eq leaf _ fun hpae hlarge => ?_
  have halike := hreached
  unfold Reached at halike
  rw [if_neg (by simp [hpae])] at halike
  obtain ⟨hup, rest⟩ := halike
  rw [if_pos hlarge] at rest
  have hup := hup.alike.symm.trans ((hpae ▸ hmarks₂) leaf.addr (hpae ▸ ha)).1
  rw [hpae]
  exact rest.2.2.2.trans hup

lemma fresh_of_reached (hpg : env.cr0 &&& CR0_PG_MASK t ≠ 0) (h : Reached True env addr m leaf)
    (hacc : Accessed (load (pae env) m leaf.addr)) :
    (Refused env leaf.ptep access mmuIdx → ¬ Fresh env addr mmuIdx m access) ∧
      (¬ Refused env leaf.ptep access mmuIdx →
        (access = .write → Dirty (load (pae env) m leaf.addr)) → Fresh env addr mmuIdx m access) := by
  obtain ⟨ptep, hfind, hptep⟩ := findLeaf_again h
  have hrun : translate env addr access mmuIdx m = _ :=
    (translate_paging hpg).trans (bind_ok hfind)
  constructor
  · rintro hre ⟨mapping, hok⟩
    rw [handleMmuFault_ok, hrun, useLeaf_refused (hptep.refused.mpr hre)] at hok
    cases hok
  · intro hre hdirty
    obtain ⟨mapping, huse⟩ : ∃ mapping, useLeaf env addr access mmuIdx
        { leaf with entry := load (pae env) m leaf.addr, ptep := ptep } m = .ok mapping m :=
      useLeaf_again hacc hdirty (fun hr => hre (hptep.refused.mp hr))
    exact ⟨mapping, handleMmuFault_ok.mpr (hrun.trans huse)⟩

lemma denied_of_ksmap {ptep : BitVec 64} (hidx : mmuIdx ≠ .user)
    (h : DeniedKsmap env ptep access) : Denied env ptep access mmuIdx := by
  cases mmuIdx with
  | user => exact absurd rfl hidx
  | kernel => exact .inr h
  | ksmap => exact h

section
variable {ptep : BitVec 64} {access' : Access} (hpg : env.cr0 &&& CR0_PG_MASK t ≠ 0)
  (hbits : Combines env addr m ptep) (hd : ¬ Denied env ptep access mmuIdx)
  (hgrant : (rights env pte ptep mmuIdx).grants access' = true)
include hpg hbits hd hgrant

lemma leaks_of_deniedKsmap (hidx : mmuIdx ≠ .user) (hd' : DeniedKsmap env ptep access') :
    Leaks env addr m access mmuIdx := by
  rcases hd' with ⟨rfl, hsmep, hu⟩ | ⟨hwp, rfl, hrw⟩
  · have hne : access ≠ .exec := by
      rintro rfl
      exact hd (denied_of_ksmap hidx (.inl ⟨rfl, hsmep, hu⟩))
    exact ⟨hpg, hidx, hbits.user.mp hu, .inr ⟨hne, hsmep, hbits.exec.mp (of_decide_eq_true hgrant)⟩⟩
  · have hgrant := (of_decide_eq_true hgrant).2
    rw [if_neg hidx] at hgrant
    exact absurd hgrant (fun h => h.elim hwp (fun h => h hrw))

lemma leaks_of_granted (hre' : Refused env ptep access' mmuIdx) :
    Leaks env addr m access mmuIdx := by
  rcases hre' with ⟨_, hnx', rfl⟩ | hd'
  · exact absurd (of_decide_eq_true hgrant) hnx'
  cases mmuIdx with
  | user =>
    rcases hd' with hu | ⟨rfl, hrw⟩
    · exact absurd (.inl hu) hd
    · exact absurd hrw (of_decide_eq_true hgrant).2
  | kernel =>
    rcases hd' with ⟨-, hsmap, hu⟩ | hd'
    · by_cases hx : access = .exec
      · exact ⟨hpg, by decide, hbits.user.mp hu, .inl ⟨hx, rfl, hsmap⟩⟩
      · exact absurd (.inl ⟨hx, hsmap, hu⟩) hd
    · exact leaks_of_deniedKsmap hpg hbits hd hgrant (by decide) hd'
  | ksmap => exact leaks_of_deniedKsmap hpg hbits hd hgrant (by decide) hd'
end

/-- **the TLB grants what a fresh walk permits, unless SMEP or SMAP was not asked** -/
theorem rights_fresh_iff (h : handleMmuFault env addr access mmuIdx m = .ok mapping m') :
    (∀ access', mapping.prot.grants access' = true → Fresh env addr mmuIdx m' access') ↔
      ¬ Leaks env addr m access mmuIdx := by
  rw [handleMmuFault_ok] at h
  by_cases hpg : env.cr0 &&& CR0_PG_MASK t = 0
  · refine iff_of_true (fun access' _ => ?_) (fun hl => hl.1 hpg)
    obtain ⟨mapping', hrun⟩ : ∃ mapping', translate env addr access' mmuIdx m' = .ok mapping' m' :=
      translate_off hpg
    exact ⟨mapping', handleMmuFault_ok.mpr hrun⟩
  obtain ⟨leaf, hmarks, hreached, hre, hacc, hprot, -⟩ := translate_inv hpg h
  have hbits := (hreached.same hmarks.same.symm).bits
  constructor
  · rintro hgrants ⟨-, hidx, hpage, hleak⟩
    rw [← hbits.user] at hpage
    rcases hleak with ⟨-, rfl, hsmap⟩ | ⟨-, hsmep, hx⟩
    · have hd : Denied env leaf.ptep .read .kernel := .inl ⟨by decide, hsmap, hpage⟩
      refine (fresh_of_reached hpg hreached hacc).1 (.inr hd) (hgrants .read ?_)
      rw [hprot]
      rfl
    · refine (fresh_of_reached hpg hreached hacc).1 (.inr ?_) (hgrants .exec ?_)
      · exact denied_of_ksmap hidx (.inl ⟨rfl, hsmep, hpage⟩)
      · rw [hprot]
        exact decide_eq_true (hbits.exec.mpr hx)
  · intro hleaks access' hgrant
    rw [hprot] at hgrant
    refine (fresh_of_reached hpg hreached hacc).2 (fun hre' => hleaks ?_) fun hw => ?_
    · exact leaks_of_granted hpg hbits (not_or.mp hre).2 hgrant hre'
    · subst hw
      exact (of_decide_eq_true hgrant).1

/-- one page of 4 MB at address 0 for user and kernel, accessed and dirty -/
def oneUserPage : Mem := fun a => if a = 0 then 0xe7 else 0

/-- paging with large pages, and `cr4` as given -/
def pagingEnv (cr4 : TargetUlong .i386) : Env .i386 where
  cr0 := CR0_PG_MASK .i386
  cr3 := 0
  cr4 := CR4_PSE_MASK .i386 ||| cr4
  hflags := 0
  efer := 0
  a20State := true

def userMapping : Mapping .i386 where
  vaddr := 0
  paddr := 0
  prot := { read := true, write := true, exec := true }
  pageSize := 4096 * 1024

theorem rights_fresh_user :
    handleMmuFault (pagingEnv (CR4_SMEP_MASK .i386)) 0 .read .user oneUserPage =
        .ok userMapping oneUserPage ∧
      ((∀ access', userMapping.prot.grants access' = true →
        Fresh (pagingEnv (CR4_SMEP_MASK .i386)) 0 .user oneUserPage access') ↔
          ¬ Leaks (pagingEnv (CR4_SMEP_MASK .i386)) 0 oneUserPage .read .user) := by
  have h : handleMmuFault (pagingEnv (CR4_SMEP_MASK .i386)) 0 .read .user oneUserPage =
      .ok userMapping oneUserPage := by rfl
  exact ⟨h, rights_fresh_iff h⟩

/-- a read in the kernel grants execution that SMEP forbids, and an execution grants the read that
SMAP forbids -/
theorem tlb_forgets_smep_smap :
    (handleMmuFault (pagingEnv (CR4_SMEP_MASK .i386)) 0 .read .kernel oneUserPage =
        .ok userMapping oneUserPage ∧ userMapping.prot.grants .exec = true ∧
      handleMmuFault (pagingEnv (CR4_SMEP_MASK .i386)) 0 .exec .kernel oneUserPage =
        .error (.page (PG_ERROR_P_MASK ||| PG_ERROR_I_D_MASK)) oneUserPage) ∧
    (handleMmuFault (pagingEnv (CR4_SMAP_MASK .i386)) 0 .exec .kernel oneUserPage =
        .ok userMapping oneUserPage ∧ userMapping.prot.grants .read = true ∧
      handleMmuFault (pagingEnv (CR4_SMAP_MASK .i386)) 0 .read .kernel oneUserPage =
        .error (.page PG_ERROR_P_MASK) oneUserPage) :=
  ⟨⟨by rfl, by rfl, by rfl⟩, ⟨by rfl, by rfl, by rfl⟩⟩
end

end X86
