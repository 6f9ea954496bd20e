import TraceSyscallObj.Lib.Run
import TraceSyscallObj.X86.Mmu

/-!
# What a walk reads and what it changes

A walk changes page tables only by setting accessed and dirty bits, and nothing else in an entry
depends on these bits.  A second walk over the tables that the first one left goes the same way and
finds nothing to set before the last entry.

* `Alike`: entries that differ in accessed and dirty bits only;
* `Marks`: tables in which accessed and dirty bits were set;
* `Reached`: the entries on the way to a page, in the tables of a memory;
* `findLeaf_inv`, `findLeaf_again`.
-/

namespace X86
open BitVec ByteMem Run

/-! ## bits of entries -/

variable {w : Nat} {α : Type}

lemma test_eq_zero {i : Nat} (hi : i < w) (e : BitVec w) :
    e &&& BitVec.twoPow w i = 0 ↔ e.getLsbD i = false := by
  rw [and_twoPow]
  constructor
  · intro h
    by_contra hbit
    rw [if_pos (by simpa using hbit)] at h
    have := congrArg (fun x => x.getLsbD i) h
    simp [hi] at this
  · intro h
    rw [if_neg (by simp [h])]
    rfl

lemma test_ne_zero {i : Nat} (hi : i < w) (e : BitVec w) :
    e &&& BitVec.twoPow w i ≠ 0 ↔ e.getLsbD i = true := by
  rw [ne_eq, test_eq_zero hi, Bool.not_eq_false]

/-- the same up to the accessed and the dirty bit -/
def Alike (e e' : BitVec 64) : Prop := ∀ i, i ≠ 5 → i ≠ 6 → e.getLsbD i = e'.getLsbD i

variable {x : BitVec 64}

section
variable {e e' e'' f f' : BitVec 64}

lemma Alike.refl (e : BitVec 64) : Alike e e := fun _ _ _ => rfl

section
variable (h : Alike e e')
include h

lemma Alike.symm : Alike e' e := fun i h5 h6 => (h i h5 h6).symm

lemma Alike.trans (h' : Alike e' e'') : Alike e e'' := fun i h5 h6 =>
  (h i h5 h6).trans (h' i h5 h6)

lemma Alike.and (h' : Alike f f') : Alike (e &&& f) (e' &&& f') := by
  intro i h5 h6
  rw [getLsbD_and, getLsbD_and, h i h5 h6, h' i h5 h6]

lemma Alike.xor (mask : BitVec 64) : Alike (e ^^^ mask) (e' ^^^ mask) := by
  intro i h5 h6
  rw [getLsbD_xor, getLsbD_xor, h i h5 h6]

lemma Alike.mask {mask : BitVec 64} (h5 : mask.getLsbD 5 = false) (h6 : mask.getLsbD 6 = false) :
    e &&& mask = e' &&& mask := by
  refine eq_of_getLsbD_eq fun i hi => ?_
  rw [getLsbD_and, getLsbD_and]
  by_cases hi5 : i = 5
  · rw [hi5, h5, Bool.and_false, Bool.and_false]
  by_cases hi6 : i = 6
  · rw [hi6, h6, Bool.and_false, Bool.and_false]
  rw [h i hi5 hi6]

end

lemma alike_or (hx : ∀ i, i ≠ 5 → i ≠ 6 → x.getLsbD i = false) : Alike e (e ||| x) := by
  intro i h5 h6
  rw [getLsbD_or, hx i h5 h6, Bool.or_false]
end

/-! ## tables in memory -/

/-- entries have 8 bytes with PAE and 4 without -/
def load (pae : Bool) (m : Mem) (a : BitVec 64) : BitVec 64 :=
  if pae then ldq m a else (ldl m a).setWidth 64

def Aligned (pae : Bool) (a : BitVec 64) : Prop := a.toNat % (if pae then 8 else 4) = 0

/-- accessed and dirty bits were set in the tables -/
def Marks (pae : Bool) (m m' : Mem) : Prop :=
  ∀ a, Aligned pae a → Alike (load pae m a) (load pae m' a) ∧
    ∀ i, (load pae m a).getLsbD i = true → (load pae m' a).getLsbD i = true

/-- tables that differ in accessed and dirty bits only -/
def Same (pae : Bool) (m m' : Mem) : Prop :=
  ∀ a, Aligned pae a → Alike (load pae m a) (load pae m' a)

section
variable {pae : Bool} {m m' m'' : Mem} {a : BitVec 64}

lemma Marks.refl (m : Mem) : Marks pae m m := fun _ _ => ⟨Alike.refl _, fun _ h => h⟩

lemma Marks.trans (h : Marks pae m m') (h' : Marks pae m' m'') : Marks pae m m'' := fun a ha =>
  ⟨(h a ha).1.trans (h' a ha).1, fun i hi => (h' a ha).2 i ((h a ha).2 i hi)⟩

lemma Marks.same (h : Marks pae m m') : Same pae m m' := fun a ha => (h a ha).1

lemma Same.symm (h : Same pae m m') : Same pae m' m := fun a ha => (h a ha).symm

lemma load_stl_same (ha : Aligned pae a) (hx : x.toNat < 2 ^ 32) :
    load pae (stl m a ((load pae m a ||| x).setWidth 32)) a = load pae m a ||| x := by
  have hhigh : ∀ i, 32 ≤ i → x.getLsbD i = false := fun i hi => by
    rw [BitVec.getLsbD, Nat.testBit_lt_two_pow]
    exact Nat.lt_of_lt_of_le hx (Nat.pow_le_pow_right (by decide) hi)
  cases pae with
  | true =>
    show ldq (stl m a ((ldq m a ||| x).setWidth 32)) a = ldq m a ||| x
    rw [ldq_stl_same ha]
    refine eq_of_getLsbD_eq fun i hi => ?_
    rw [getLsbD_append]
    by_cases h32 : i < 32
    · simp [h32]
    · rw [if_neg h32, getLsbD_or, hhigh i (by omega), Bool.or_false]
      unfold ldq
      rw [getLsbD_append, if_neg h32]
  | false =>
    show (ldl (stl m a (((ldl m a).setWidth 64 ||| x).setWidth 32)) a).setWidth 64 =
      (ldl m a).setWidth 64 ||| x
    rw [ldl_stl_same]
    refine eq_of_getLsbD_eq fun i hi => ?_
    rw [getLsbD_setWidth, getLsbD_setWidth]
    by_cases h32 : i < 32
    · simp [h32, hi]
    · rw [getLsbD_or, hhigh i (by omega), getLsbD_setWidth,
        getLsbD_of_ge _ _ (by omega)]
      simp [h32]

lemma load_stl_ne (ha : Aligned pae a) {b : BitVec 64} (hb : Aligned pae b) (hne : a ≠ b)
    (v : BitVec 32) : load pae (stl m a v) b = load pae m b := by
  cases pae with
  | true => exact ldq_stl_ne ha hb hne
  | false => exact congrArg (BitVec.setWidth 64) (ldl_stl_ne ha hb hne)

lemma marks_stl (ha : Aligned pae a) (hx : x.toNat < 2 ^ 32)
    (hbits : ∀ i, i ≠ 5 → i ≠ 6 → x.getLsbD i = false) :
    Marks pae m (stl m a ((load pae m a ||| x).setWidth 32)) := by
  intro b hb
  by_cases hne : a = b
  · subst hne
    rw [load_stl_same ha hx]
    refine ⟨alike_or hbits, fun i hi => ?_⟩
    rw [getLsbD_or, hi, Bool.true_or]
  · rw [load_stl_ne ha hb hne]
    exact ⟨Alike.refl _, fun _ h => h⟩
end

/-! ## addresses of entries -/

section
variable {n k : Nat}

lemma mod_and {x : BitVec n} (hx : x.toNat % 2 ^ k = 0) (y : BitVec n) :
    (x &&& y).toNat % 2 ^ k = 0 := by
  rw [toNat_and, Nat.and_mod_two_pow, hx, Nat.zero_and]

lemma mod_add (hk : k ≤ n) {x y : BitVec n} (hx : x.toNat % 2 ^ k = 0)
    (hy : y.toNat % 2 ^ k = 0) : (x + y).toNat % 2 ^ k = 0 := by
  rw [toNat_add, Nat.mod_mod_of_dvd _ (Nat.pow_dvd_pow 2 hk), Nat.add_mod, hx, hy]
  rfl

lemma mod_setWidth (hk : k ≤ w) {x : BitVec n} (hx : x.toNat % 2 ^ k = 0) :
    (x.setWidth w).toNat % 2 ^ k = 0 := by
  rw [toNat_setWidth, Nat.mod_mod_of_dvd _ (Nat.pow_dvd_pow 2 hk), hx]

lemma mod_shiftLeft (hk : k ≤ n) (x : BitVec n) : (x <<< k).toNat % 2 ^ k = 0 := by
  rw [toNat_shiftLeft, Nat.mod_mod_of_dvd _ (Nat.pow_dvd_pow 2 hk), Nat.shiftLeft_eq,
    Nat.mul_mod_left]

lemma mod_mask {mask : BitVec n} (hmask : mask.toNat % 2 ^ k = 0) (x : BitVec n) :
    (x &&& mask).toNat % 2 ^ k = 0 := by
  rw [BitVec.and_comm]
  exact mod_and hmask x
end

section
variable {t : Target} (env : Env t) (addr : TargetUlong t)

lemma three_le_bits : 3 ≤ t.bits := by cases t <;> decide

lemma aligned_pml4e (a : BitVec 64) : Aligned true (pml4eAddr env a) :=
  mod_and (k := 3) (mod_add (by decide) (mod_mask (by decide) _) (mod_shiftLeft (by decide) _)) _

lemma aligned_table (e : BitVec 64) (shift : Nat) :
    Aligned true ((tableAddr env (e &&& PHYS_ADDR_MASK t) shift addr).setWidth 64) := by
  refine mod_setWidth (k := 3) (by decide) (mod_setWidth three_le_bits (mod_and (mod_add (by decide)
    (mod_mask ?_ _) (mod_setWidth (by decide) (mod_shiftLeft three_le_bits _))) _))
  cases t <;> decide

lemma aligned_pdpeLegacy : Aligned true ((pdpeAddrLegacy env addr).setWidth 64) := by
  refine mod_setWidth (k := 3) (by decide) (mod_and (mod_add three_le_bits (mod_mask ?_ _)
    (mod_mask ?_ _)) _)
  all_goals cases t <;> decide

lemma aligned_pde32 : Aligned false (pdeAddr32 env addr) := by
  have hbits : 2 ≤ t.bits := Nat.le_trans (by decide) three_le_bits
  refine mod_setWidth (k := 2) (by decide) (mod_and (mod_add hbits (mod_mask ?_ _)
    (mod_mask ?_ _)) _)
  all_goals cases t <;> decide

lemma aligned_pte32 (e : BitVec 64) : Aligned false (pteAddr32 env e addr) := by
  have hbits : 2 ≤ t.bits := Nat.le_trans (by decide) three_le_bits
  refine mod_setWidth (k := 2) (by decide) (mod_and (mod_add hbits
    (mod_setWidth hbits (mod_mask (by decide) _)) (mod_mask ?_ _)) _)
  cases t <;> decide

variable {env addr} {e e' : BitVec 64}

lemma Alike.table (h : Alike e e') (shift : Nat) :
    tableAddr env (e &&& PHYS_ADDR_MASK t) shift addr =
      tableAddr env (e' &&& PHYS_ADDR_MASK t) shift addr := by
  have hmask : e &&& PHYS_ADDR_MASK t = e' &&& PHYS_ADDR_MASK t :=
    h.mask (by cases t <;> decide) (by cases t <;> decide)
  rw [hmask]

lemma Alike.pte32 (h : Alike e e') : pteAddr32 env e addr = pteAddr32 env e' addr := by
  unfold pteAddr32
  rw [h.mask (by decide) (by decide)]
end

/-! ## single steps -/

def Present (e : BitVec 64) : Prop := e &&& PG_PRESENT_MASK ≠ 0

def Accessed (e : BitVec 64) : Prop := e &&& PG_ACCESSED_MASK ≠ 0

section
variable {t : Target} (env : Env t)

/-- the NX bit is reserved unless `EFER.NXE` is set -/
def NxOk (e : BitVec 64) : Prop := ¬ (env.efer &&& MSR_EFER_NXE = 0 ∧ e &&& PG_NX_MASK ≠ 0)

variable {e e' : BitVec 64}

lemma Alike.present (h : Alike e e') (he : Present e) : Present e' := by
  unfold Present PG_PRESENT_MASK at *
  rw [test_ne_zero (by decide)] at *
  rw [← h 0 (by decide) (by decide), he]

lemma Alike.nxOk (h : Alike e e') (he : NxOk env e) : NxOk env e' := by
  have hmask : e &&& PG_NX_MASK = e' &&& PG_NX_MASK := h.mask (by decide) (by decide)
  unfold NxOk
  rw [← hmask]
  exact he

section
variable (a : BitVec 64) (k : BitVec 64 → Walk α) (m : Mem)
include a k m

lemma ldqPhys_bind : (ldqPhys a >>= k) m = k (load true m a) m := rfl

lemma ldlPhys_bind : (ldlPhys a >>= k) m = k (load false m a) m := rfl

end

lemma checkPresent_bind (k : Unit → Walk α) (m : Mem) (e : BitVec 64) :
    (checkPresent e >>= k) m = if e &&& PG_PRESENT_MASK = 0 then .error (.page 0) m else k () m := by
  unfold checkPresent
  split <;> rfl

lemma checkNx_bind (k : Unit → Walk α) (m : Mem) (e : BitVec 64) :
    (checkNx env e >>= k) m =
      if env.efer &&& MSR_EFER_NXE = 0 ∧ e &&& PG_NX_MASK ≠ 0 then
        .error (.page PG_ERROR_RSVD_MASK) m
      else k () m := by
  unfold checkNx
  split <;> rfl

def markAccessed (pae : Bool) (m : Mem) (a : BitVec 64) : Mem :=
  if load pae m a &&& PG_ACCESSED_MASK = 0 then
    stl m a ((load pae m a ||| PG_ACCESSED_MASK).setWidth 32)
  else m

lemma or_accessed (h : Accessed e) : e ||| PG_ACCESSED_MASK = e := by
  unfold Accessed PG_ACCESSED_MASK at *
  rw [test_ne_zero (by decide)] at h
  refine eq_of_getLsbD_eq fun i hi => ?_
  rw [getLsbD_or, getLsbD_twoPow]
  by_cases h5 : i = 5
  · rw [h5, h, Bool.true_or]
  · rw [decide_eq_false (show ¬ 5 = i from fun h => h5 h.symm), Bool.and_false, Bool.or_false]

lemma setAccessed_bind (pae : Bool) (a : BitVec 64) (k : BitVec 64 → Walk α) (m : Mem) :
    (setAccessed a (load pae m a) >>= k) m =
      k (load pae m a ||| PG_ACCESSED_MASK) (markAccessed pae m a) := by
  unfold setAccessed markAccessed
  split
  · rfl
  · next h =>
    rw [or_accessed h]
    rfl

lemma accessed_bits (i : Nat) (h5 : i ≠ 5) : PG_ACCESSED_MASK.getLsbD i = false := by
  unfold PG_ACCESSED_MASK
  rw [getLsbD_twoPow, decide_eq_false (show ¬ 5 = i from fun h => h5 h.symm), Bool.and_false]

variable {pae : Bool} {a : BitVec 64} {m m' : Mem}

lemma marks_markAccessed (ha : Aligned pae a) : Marks pae m (markAccessed pae m a) := by
  unfold markAccessed
  split
  · exact marks_stl ha (by decide) fun i h5 _ => accessed_bits i h5
  · exact Marks.refl m

lemma load_markAccessed (ha : Aligned pae a) :
    load pae (markAccessed pae m a) a = load pae m a ||| PG_ACCESSED_MASK := by
  unfold markAccessed
  split
  · exact load_stl_same ha (by decide)
  · next h => exact (or_accessed h).symm

lemma accessed_or (e : BitVec 64) : Accessed (e ||| PG_ACCESSED_MASK) := by
  unfold Accessed PG_ACCESSED_MASK
  rw [test_ne_zero (by decide)]
  simp

lemma markAccessed_of_accessed (h : Accessed (load pae m a)) : markAccessed pae m a = m :=
  if_neg h

lemma Marks.accessed (h : Marks pae m m') (ha : Aligned pae a) (hm : Accessed (load pae m a)) :
    Accessed (load pae m' a) := by
  unfold Accessed PG_ACCESSED_MASK at *
  rw [test_ne_zero (by decide)] at *
  exact (h a ha).2 5 hm
end

/-! ## the way to a page -/

/-- an entry on the way; `marked` says that its accessed bit is set -/
structure Upper (marked : Prop) (pae : Bool) (m : Mem) (a e : BitVec 64) : Prop where
  aligned : Aligned pae a
  alike : Alike (load pae m a) e
  present : Present e
  accessed : marked → Accessed (load pae m a)

section
variable {marked : Prop} {pae : Bool} {m m' : Mem} {a e : BitVec 64}

lemma Upper.mono (h : Upper marked pae m a e) (hm : Marks pae m m') : Upper marked pae m' a e :=
  ⟨h.aligned, (hm a h.aligned).1.symm.trans h.alike, h.present,
    fun hmk => hm.accessed h.aligned (h.accessed hmk)⟩

lemma Upper.same (h : Upper marked pae m a e) (hm : Same pae m m') : Upper False pae m' a e :=
  ⟨h.aligned, (hm a h.aligned).symm.trans h.alike, h.present, False.elim⟩

lemma Upper.present_load (h : Upper marked pae m a e) : Present (load pae m a) :=
  h.alike.symm.present h.present

lemma Upper.pse (h : Upper marked pae m a e) : load pae m a &&& PG_PSE_MASK = e &&& PG_PSE_MASK :=
  h.alike.mask (by decide) (by decide)

lemma upper_markAccessed (ha : Aligned pae a) (hp : Present (load pae m a)) :
    Upper True pae (markAccessed pae m a) a (load pae m a ||| PG_ACCESSED_MASK) := by
  refine ⟨ha, ?_, ?_, fun _ => ?_⟩
  · rw [load_markAccessed ha]
    exact Alike.refl _
  · exact (alike_or fun i h5 _ => accessed_bits i h5).present hp
  · rw [load_markAccessed ha]
    exact accessed_or _
end

section
variable {t : Target} (marked : Prop) (env : Env t) (addr : TargetUlong t) (m : Mem)

def tableOf (e : BitVec 64) (shift : Nat) : BitVec 64 :=
  (tableAddr env (e &&& PHYS_ADDR_MASK t) shift addr).setWidth 64

/-- down to `pdpe` -/
def TopReached (pdpe ptep : BitVec 64) : Prop :=
  if longMode env then
    sextOk (addr.setWidth 64) = true ∧ ∃ pml4e,
      Upper marked true m (pml4eAddr env (addr.setWidth 64)) pml4e ∧ NxOk env pml4e ∧
      Upper marked true m (tableOf env addr pml4e 30) pdpe ∧ NxOk env pdpe ∧
      Alike ptep ((pml4e ^^^ PG_NX_MASK) &&& (pdpe ^^^ PG_NX_MASK))
  else
    Upper False true m ((pdpeAddrLegacy env addr).setWidth 64) pdpe ∧
      ptep = PG_NX_MASK ||| PG_USER_MASK ||| PG_RW_MASK

def PaeReached (leaf : Leaf) : Prop :=
  ∃ pdpe ptep, TopReached marked env addr m pdpe ptep ∧
    Upper False true m leaf.addr leaf.entry ∧ NxOk env leaf.entry ∧
    if leaf.large then
      leaf.addr = tableOf env addr pdpe 21 ∧ leaf.entry &&& PG_PSE_MASK ≠ 0 ∧
        Alike leaf.ptep ((ptep &&& (leaf.entry ^^^ PG_NX_MASK)) ^^^ PG_NX_MASK)
    else
      ∃ pde, Upper marked true m (tableOf env addr pdpe 21) pde ∧ NxOk env pde ∧
        pde &&& PG_PSE_MASK = 0 ∧ leaf.addr = tableOf env addr pde 12 ∧
        Alike leaf.ptep
          ((ptep &&& (pde ^^^ PG_NX_MASK) &&& (leaf.entry ^^^ PG_NX_MASK)) ^^^ PG_NX_MASK)

def Reached32 (leaf : Leaf) : Prop :=
  Upper False false m leaf.addr leaf.entry ∧
    if leaf.large then
      leaf.addr = pdeAddr32 env addr ∧ leaf.entry &&& PG_PSE_MASK ≠ 0 ∧
        env.cr4 &&& CR4_PSE_MASK t ≠ 0 ∧ Alike leaf.ptep leaf.entry
    else
      ∃ pde, Upper marked false m (pdeAddr32 env addr) pde ∧
        ¬ (pde &&& PG_PSE_MASK ≠ 0 ∧ env.cr4 &&& CR4_PSE_MASK t ≠ 0) ∧
        leaf.addr = pteAddr32 env pde addr ∧ Alike leaf.ptep (leaf.entry &&& pde)

/-- the entries on the way to a page, in the tables of `m` -/
def Reached (leaf : Leaf) : Prop :=
  if pae env then PaeReached marked env addr m leaf else Reached32 marked env addr m leaf
end

section
variable {t : Target} {marked marked' : Prop} {env : Env t} {addr : TargetUlong t} {m m' : Mem}

lemma Alike.tableOf {e e' : BitVec 64} (h : Alike e e') (shift : Nat) :
    tableOf env addr e shift = X86.tableOf env addr e' shift :=
  congrArg (BitVec.setWidth 64) (h.table shift)

variable {pdpe ptep : BitVec 64}

lemma TopReached.map (h : TopReached marked env addr m pdpe ptep)
    (f : ∀ {a e}, Upper marked true m a e → Upper marked' true m' a e)
    (f' : ∀ {a e}, Upper False true m a e → Upper False true m' a e) :
    TopReached marked' env addr m' pdpe ptep := by
  unfold TopReached at *
  by_cases hlong : longMode env = true
  · rw [if_pos hlong] at *
    obtain ⟨hsext, pml4e, h4, hnx4, h3, rest⟩ := h
    exact ⟨hsext, pml4e, f h4, hnx4, f h3, rest⟩
  · rw [if_neg hlong] at *
    exact ⟨f' h.1, h.2⟩

variable {leaf : Leaf}

section
variable (h : Reached marked env addr m leaf)
include h

lemma Reached.map (f : ∀ {a e}, Upper marked (pae env) m a e → Upper marked' (pae env) m' a e)
    (f' : ∀ {a e}, Upper False (pae env) m a e → Upper False (pae env) m' a e) :
    Reached marked' env addr m' leaf := by
  unfold Reached at *
  by_cases hpae : pae env = true
  · rw [if_pos hpae] at *
    rw [hpae] at f f'
    obtain ⟨pdpe, ptep, htop, hleaf, hnx, rest⟩ := h
    refine ⟨pdpe, ptep, htop.map f f', f' hleaf, hnx, ?_⟩
    by_cases hlarge : leaf.large = true
    · rw [if_pos hlarge] at *
      exact rest
    · rw [if_neg hlarge] at *
      obtain ⟨pde, hpde, rest⟩ := rest
      exact ⟨pde, f hpde, rest⟩
  · rw [if_neg hpae] at *
    rw [Bool.not_eq_true] at hpae
    rw [hpae] at f f'
    obtain ⟨hleaf, rest⟩ := h
    refine ⟨f' hleaf, ?_⟩
    by_cases hlarge : leaf.large = true
    · rw [if_pos hlarge] at *
      exact rest
    · rw [if_neg hlarge] at *
      obtain ⟨pde, hpde, rest⟩ := rest
      exact ⟨pde, f hpde, rest⟩

lemma Reached.mono (hm : Marks (pae env) m m') : Reached marked env addr m' leaf :=
  h.map (fun hu => hu.mono hm) (fun hu => hu.mono hm)

lemma Reached.same (hm : Same (pae env) m m') : Reached False env addr m' leaf :=
  h.map (fun hu => hu.same hm) (fun hu => hu.same hm)

end

variable {k : BitVec 64 → Walk α} {a : BitVec 64} {r : α}

lemma ldq_inv
    (h : (do let e ← ldqPhys a; checkPresent e; checkNx env e; k e : Walk α) m = .ok r m') :
    Present (load true m a) ∧ NxOk env (load true m a) ∧ k (load true m a) m = .ok r m' := by
  rw [ldqPhys_bind, checkPresent_bind] at h
  split at h
  · cases h
  next hp =>
  rw [checkNx_bind] at h
  split at h
  · cases h
  next hnx => exact ⟨hp, hnx, h⟩

lemma ldl_inv (h : (do let e ← ldlPhys a; checkPresent e; k e : Walk α) m = .ok r m') :
    Present (load false m a) ∧ k (load false m a) m = .ok r m' := by
  rw [ldlPhys_bind, checkPresent_bind] at h
  split at h
  · cases h
  next hp => exact ⟨hp, h⟩

lemma setAccessed_inv {p : Bool} (ha : Aligned p a) (hp : Present (load p m a))
    (h : (setAccessed a (load p m a) >>= k) m = .ok r m') :
    ∃ e m₁, Alike (load p m a) e ∧ Upper True p m₁ a e ∧ Marks p m m₁ ∧ k e m₁ = .ok r m' := by
  rw [X86.setAccessed_bind] at h
  exact ⟨_, _, alike_or fun i h5 _ => accessed_bits i h5, upper_markAccessed ha hp,
    marks_markAccessed ha, h⟩

lemma pdpeLong_inv (hlong : longMode env = true) (h : pdpeLong env addr m = .ok (pdpe, ptep) m') :
    Marks true m m' ∧ TopReached True env addr m' pdpe ptep := by
  unfold pdpeLong at h
  split at h
  · cases h
  next hsext =>
  have hsext : sextOk (addr.setWidth 64) = true := by simpa using hsext
  obtain ⟨hp4, hnx4, h⟩ := ldq_inv h
  obtain ⟨e4, m4, hal4, h4, hm4, h⟩ := setAccessed_inv (aligned_pml4e env _) hp4 h
  obtain ⟨hp3, hnx3, h⟩ := ldq_inv h
  obtain ⟨e3, m3, hal3, h3, hm3, h⟩ := setAccessed_inv (aligned_table env addr e4 30) hp3 h
  injection h with hret hstate
  injection hret with hpdpe hptep
  rw [← hpdpe, ← hptep, ← hstate]
  refine ⟨hm4.trans hm3, ?_⟩
  unfold TopReached
  rw [if_pos hlong]
  refine ⟨hsext, e4, h4.mono hm3, hal4.nxOk env hnx4, h3, hal3.nxOk env hnx3, ?_⟩
  exact Alike.and (Alike.refl _) (hal3.xor _)

lemma pdpeLegacy_inv (hlong : longMode env = false)
    (h : pdpeLegacy env addr m = .ok (pdpe, ptep) m') :
    Marks true m m' ∧ TopReached True env addr m' pdpe ptep := by
  unfold pdpeLegacy at h
  rw [ldqPhys_bind, checkPresent_bind] at h
  split at h
  · cases h
  next hp =>
  injection h with hret hstate
  injection hret with hpdpe hptep
  rw [← hpdpe, ← hptep, ← hstate]
  refine ⟨Marks.refl m, ?_⟩
  unfold TopReached
  rw [hlong]
  exact ⟨⟨aligned_pdpeLegacy env addr, Alike.refl _, hp, False.elim⟩, rfl⟩

lemma top_inv {x : BitVec 64 × BitVec 64} (h : pdpeStage env addr m = .ok x m') :
    Marks true m m' ∧ TopReached True env addr m' x.1 x.2 := by
  unfold pdpeStage at h
  split at h
  · next hlong => exact pdpeLong_inv hlong h
  · next hlong => exact pdpeLegacy_inv (by simpa using hlong) h

lemma paeLeaf_inv (h : paeLeaf env addr m = .ok leaf m') :
    Marks true m m' ∧ PaeReached True env addr m' leaf ∧ leaf.entry = load true m' leaf.addr := by
  obtain ⟨⟨pdpe, ptep⟩, m₁, htop, h⟩ := bind_inv h
  obtain ⟨hm₁, htop⟩ := top_inv htop
  have ha2 := aligned_table env addr pdpe 21
  obtain ⟨hp2, hnx2, h⟩ := ldq_inv h
  split at h
  · next hpse =>
    injection h with hleaf hstate
    rw [← hleaf, ← hstate]
    exact ⟨hm₁, ⟨pdpe, ptep, htop, ⟨ha2, Alike.refl _, hp2, False.elim⟩, hnx2, rfl, hpse,
      Alike.refl _⟩, rfl⟩
  · next hpse =>
    obtain ⟨e2, m₂, hal2, h2, hm2, h⟩ := setAccessed_inv ha2 hp2 h
    obtain ⟨hp1, hnx1, h⟩ := ldq_inv h
    injection h with hleaf hstate
    rw [← hleaf, ← hstate]
    refine ⟨hm₁.trans hm2, ⟨pdpe, ptep, htop.map (fun hu => hu.mono hm2) (fun hu => hu.mono hm2),
      ⟨aligned_table env addr e2 12, Alike.refl _, hp1, False.elim⟩, hnx1, e2, h2,
      hal2.nxOk env hnx2, ?_, rfl, ?_⟩, rfl⟩
    · rw [← hal2.mask (by decide) (by decide)]
      simpa using hpse
    · exact (Alike.and (Alike.and (Alike.refl _) (hal2.xor _)) (Alike.refl _)).xor _

lemma leaf32_inv (h : leaf32 env addr m = .ok leaf m') :
    Marks false m m' ∧ Reached32 True env addr m' leaf ∧ leaf.entry = load false m' leaf.addr := by
  have ha2 := aligned_pde32 env addr
  obtain ⟨hp2, h⟩ := ldl_inv h
  split at h
  · next hpse =>
    injection h with hleaf hstate
    rw [← hleaf, ← hstate]
    exact ⟨Marks.refl m, ⟨⟨ha2, Alike.refl _, hp2, False.elim⟩, rfl, hpse.1, hpse.2, Alike.refl _⟩,
      rfl⟩
  · next hpse =>
    obtain ⟨e2, m₂, hal2, h2, hm2, h⟩ := setAccessed_inv ha2 hp2 h
    obtain ⟨hp1, h⟩ := ldl_inv h
    injection h with hleaf hstate
    rw [← hleaf, ← hstate]
    refine ⟨hm2, ⟨⟨aligned_pte32 env addr e2, Alike.refl _, hp1, False.elim⟩, e2, h2, ?_, rfl,
      Alike.refl _⟩, rfl⟩
    rw [← hal2.mask (by decide) (by decide)]
    exact hpse

/-- **a walk that finds a page leaves its way in the tables, marked as accessed** -/
theorem findLeaf_inv (h : findLeaf env addr m = .ok leaf m') :
    Marks (pae env) m m' ∧ Reached True env addr m' leaf ∧
      leaf.entry = load (pae env) m' leaf.addr := by
  unfold findLeaf at h
  unfold Reached
  by_cases hpae : pae env = true
  · rw [if_pos hpae] at *
    rw [hpae]
    exact paeLeaf_inv h
  · rw [if_neg hpae] at *
    rw [Bool.not_eq_true] at hpae
    rw [hpae]
    exact leaf32_inv h

/-! ## the same way again -/

lemma Upper.setAccessed_bind {p : Bool} {a e : BitVec 64} (h : Upper True p m a e)
    (k : BitVec 64 → Walk α) : (setAccessed a (load p m a) >>= k) m = k (load p m a) m := by
  rw [X86.setAccessed_bind, or_accessed (h.accessed trivial),
    markAccessed_of_accessed (h.accessed trivial)]

lemma Upper.ldq_bind {a e : BitVec 64} (h : Upper marked true m a e)
    (hnx : NxOk env e) (k : BitVec 64 → Walk α) :
    (do let e ← ldqPhys a; checkPresent e; checkNx env e; k e : Walk α) m =
      k (load true m a) m := by
  rw [ldqPhys_bind, checkPresent_bind, if_neg h.present_load, checkNx_bind,
    if_neg (h.alike.symm.nxOk env hnx)]

lemma Upper.ldl_bind {a e : BitVec 64} (h : Upper marked false m a e) (k : BitVec 64 → Walk α) :
    (do let e ← ldlPhys a; checkPresent e; k e : Walk α) m = k (load false m a) m := by
  rw [ldlPhys_bind, checkPresent_bind, if_neg h.present_load]

lemma pdpeStage_again (h : TopReached True env addr m pdpe ptep) :
    ∃ pdpe' ptep', pdpeStage env addr m = .ok (pdpe', ptep') m ∧ Alike pdpe' pdpe ∧
      Alike ptep' ptep := by
  unfold TopReached at h
  unfold pdpeStage
  by_cases hlong : longMode env = true
  · rw [if_pos hlong] at *
    obtain ⟨hsext, pml4e, h4, hnx4, h3, hnx3, hptep⟩ := h
    unfold tableOf at h3
    unfold pdpeLong
    rw [if_neg (by simpa using hsext)]
    dsimp only
    rw [h4.ldq_bind hnx4, h4.setAccessed_bind, h4.alike.table,
      h3.ldq_bind hnx3, h3.setAccessed_bind]
    exact ⟨_, _, rfl, h3.alike, (Alike.and (h4.alike.xor _) (h3.alike.xor _)).trans hptep.symm⟩
  · rw [if_neg hlong] at *
    unfold pdpeLegacy
    rw [ldqPhys_bind, checkPresent_bind, if_neg h.1.present_load]
    exact ⟨_, _, rfl, h.1.alike, by rw [h.2]; exact Alike.refl _⟩

lemma paeLeaf_again (h : PaeReached True env addr m leaf) :
    ∃ ptep, paeLeaf env addr m =
      .ok { leaf with entry := load true m leaf.addr, ptep := ptep } m ∧ Alike ptep leaf.ptep := by
  obtain ⟨pdpe, ptep, htop, hleaf, hnx, rest⟩ := h
  obtain ⟨pdpe', ptep', hrun, hpdpe, hptep⟩ := pdpeStage_again htop
  have hstep : paeLeaf env addr m = pdeStage env addr pdpe' ptep' m := by
    show EStateM.bind (pdpeStage env addr) _ m = _
    rw [EStateM.bind, hrun]
  rw [hstep]
  unfold pdeStage
  unfold tableOf at rest
  rw [hpdpe.table]
  obtain ⟨la, le, lp, large⟩ := leaf
  cases large with
  | true =>
    obtain ⟨rfl, hpse, hlp⟩ := rest
    rw [hleaf.ldq_bind hnx, hleaf.pse, if_pos hpse]
    exact ⟨_, rfl, ((Alike.and hptep (hleaf.alike.xor _)).xor _).trans hlp.symm⟩
  | false =>
    obtain ⟨pde, h2, hnx2, hpse, rfl, hlp⟩ := rest
    rw [h2.ldq_bind hnx2, h2.pse, if_neg (not_not.mpr hpse), h2.setAccessed_bind, h2.alike.table,
      hleaf.ldq_bind hnx]
    exact ⟨_, rfl, ((Alike.and (Alike.and hptep (h2.alike.xor _)) (hleaf.alike.xor _)).xor _).trans
      hlp.symm⟩

lemma leaf32_again (h : Reached32 True env addr m leaf) :
    ∃ ptep, leaf32 env addr m =
      .ok { leaf with entry := load false m leaf.addr, ptep := ptep } m ∧ Alike ptep leaf.ptep := by
  obtain ⟨hleaf, rest⟩ := h
  unfold leaf32
  obtain ⟨la, le, lp, large⟩ := leaf
  cases large with
  | true =>
    obtain ⟨rfl, hpse, hcr4, hlp⟩ := rest
    rw [hleaf.ldl_bind, hleaf.pse, if_pos ⟨hpse, hcr4⟩]
    exact ⟨_, rfl, hleaf.alike.trans hlp.symm⟩
  | false =>
    obtain ⟨pde, h2, hpse, rfl, hlp⟩ := rest
    rw [h2.ldl_bind, h2.pse, if_neg hpse, h2.setAccessed_bind, h2.alike.pte32, hleaf.ldl_bind]
    exact ⟨_, rfl, (Alike.and hleaf.alike h2.alike).trans hlp.symm⟩

/-- **a second walk goes the same way and changes nothing** -/
theorem findLeaf_again (h : Reached True env addr m leaf) :
    ∃ ptep, findLeaf env addr m =
      .ok { leaf with entry := load (pae env) m leaf.addr, ptep := ptep } m ∧
        Alike ptep leaf.ptep := by
  unfold Reached at h
  unfold findLeaf
  by_cases hpae : pae env = true
  · rw [if_pos hpae] at *
    rw [hpae]
    exact paeLeaf_again h
  · rw [if_neg hpae] at *
    rw [Bool.not_eq_true] at hpae
    rw [hpae]
    exact leaf32_again h
end

end X86
