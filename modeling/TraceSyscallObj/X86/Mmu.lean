import TraceSyscallObj.Lib.ByteMem
import TraceSyscallObj.X86.CcHelper

/-!
# Page table walks

Model of `cpu_x86_handle_mmu_fault` and of `x86_cpu_get_phys_page_debug` in `helper.c`.  The page
tables lie in memory, and the walk sets accessed and dirty bits there, also when it ends in a fault.
An entry of 32 bits is kept in 64 bits.  The permission checks of the four page sizes and the stores
of accessed and dirty bits are written once.

* `paeLeaf`, `leaf32`: down to the entry that maps the page;
* `handleMmuFault`: what `tlb_set_page` is called with;
* `x86CpuGetPhysPageDebug`: the walk of the debugger.
-/

namespace X86
open ByteMem

/-! ## registers and masks -/

structure Env (t : Target) where
  cr0 : TargetUlong t
  cr3 : TargetUlong t
  cr4 : TargetUlong t
  hflags : BitVec 32
  efer : BitVec 64
  a20State : Bool

/-- `~(1 << 20) | (a20_state << 20)`, an `int32_t` that is used in wider expressions -/
def Env.a20Mask {t : Target} (env : Env t) (w : Nat) : BitVec w :=
  (~~~((1 : BitVec 32) <<< 20) |||
    (if env.a20State then (1 : BitVec 32) <<< 20 else 0)).signExtend w

section
variable (t : Target)
def CR0_WP_MASK : TargetUlong t := BitVec.twoPow _ 16
def CR0_PG_MASK : TargetUlong t := BitVec.twoPow _ 31
def CR4_PSE_MASK : TargetUlong t := BitVec.twoPow _ 4
def CR4_PAE_MASK : TargetUlong t := BitVec.twoPow _ 5
def CR4_SMEP_MASK : TargetUlong t := BitVec.twoPow _ 20
def CR4_SMAP_MASK : TargetUlong t := BitVec.twoPow _ 21

def PHYS_ADDR_MASK : BitVec 64 :=
  match t with
  | .i386 => 0xffffff000
  | .x86_64 => 0xfffffff000
end

def HF_LMA_MASK : BitVec 32 := BitVec.twoPow _ 14
def MSR_EFER_NXE : BitVec 64 := BitVec.twoPow _ 11

def PG_PRESENT_MASK : BitVec 64 := BitVec.twoPow _ 0
def PG_RW_MASK : BitVec 64 := BitVec.twoPow _ 1
def PG_USER_MASK : BitVec 64 := BitVec.twoPow _ 2
def PG_ACCESSED_MASK : BitVec 64 := BitVec.twoPow _ 5
def PG_DIRTY_MASK : BitVec 64 := BitVec.twoPow _ 6
def PG_PSE_MASK : BitVec 64 := BitVec.twoPow _ 7
def PG_HI_USER_MASK : BitVec 64 := 0x7ff0000000000000
def PG_NX_MASK : BitVec 64 := BitVec.twoPow _ 63

def PG_ERROR_P_MASK : BitVec 32 := 0x01
def PG_ERROR_W_MASK : BitVec 32 := 0x02
def PG_ERROR_U_MASK : BitVec 32 := 0x04
def PG_ERROR_RSVD_MASK : BitVec 32 := 0x08
def PG_ERROR_I_D_MASK : BitVec 32 := 0x10

def TARGET_PAGE_MASK (w : Nat) : BitVec w := ~~~(0xfff : BitVec w)

/-- `is_write1` -/
inductive Access
  | read
  | write
  | exec
  deriving DecidableEq

inductive MmuIdx
  | kernel
  | user
  | ksmap
  deriving DecidableEq

inductive Fault
  /-- `EXCP0D_GPF` with error code 0 -/
  | gpf
  /-- `EXCP0E_PAGE` -/
  | page (errorCode : BitVec 32)
  deriving DecidableEq

structure Prot where
  read : Bool
  write : Bool
  exec : Bool
  deriving DecidableEq

/-! ## steps of the walk -/

abbrev Walk := EStateM Fault Mem

def ldqPhys (a : BitVec 64) : Walk (BitVec 64) := fun m => .ok (ldq m a) m

def ldlPhys (a : BitVec 64) : Walk (BitVec 64) := fun m => .ok ((ldl m a).setWidth 64) m

def stlPhysNotdirty (a e : BitVec 64) : Walk Unit := fun m => .ok () (stl m a (e.setWidth 32))

def doFaultProtect {α : Type} : Walk α := throw (.page PG_ERROR_P_MASK)

def checkPresent (e : BitVec 64) : Walk Unit := do
  if e &&& PG_PRESENT_MASK = 0 then throw (.page 0)

section
variable {t : Target} (env : Env t)

def checkNx (e : BitVec 64) : Walk Unit := do
  if env.efer &&& MSR_EFER_NXE = 0 ∧ e &&& PG_NX_MASK ≠ 0 then throw (.page PG_ERROR_RSVD_MASK)

def setAccessed (a e : BitVec 64) : Walk (BitVec 64) := do
  if e &&& PG_ACCESSED_MASK = 0 then
    let e := e ||| PG_ACCESSED_MASK
    stlPhysNotdirty a e
    return e
  else return e

def setAccessedDirty (access : Access) (a e : BitVec 64) : Walk (BitVec 64) := do
  let isDirty := access = .write ∧ e &&& PG_DIRTY_MASK = 0
  if e &&& PG_ACCESSED_MASK = 0 ∨ isDirty then
    let e := e ||| PG_ACCESSED_MASK
    let e := if isDirty then e ||| PG_DIRTY_MASK else e
    stlPhysNotdirty a e
    return e
  else return e

/-- `switch (mmu_idx)` -/
def checkProtection (ptep : BitVec 64) (access : Access) (mmuIdx : MmuIdx) : Walk Unit := do
  match mmuIdx with
  | .user =>
    if ptep &&& PG_USER_MASK = 0 then doFaultProtect
    if access = .write ∧ ptep &&& PG_RW_MASK = 0 then doFaultProtect
  | .kernel =>
    if access ≠ .exec ∧ env.cr4 &&& CR4_SMAP_MASK t ≠ 0 ∧ ptep &&& PG_USER_MASK ≠ 0 then
      doFaultProtect
    ksmap
  | .ksmap => ksmap
where
  ksmap : Walk Unit := do
    if access = .exec ∧ env.cr4 &&& CR4_SMEP_MASK t ≠ 0 ∧ ptep &&& PG_USER_MASK ≠ 0 then
      doFaultProtect
    if env.cr0 &&& CR0_WP_MASK t ≠ 0 ∧ access = .write ∧ ptep &&& PG_RW_MASK = 0 then
      doFaultProtect

/-! ## the tables -/

/-- the entry that maps the page, with the rights of the whole walk -/
structure Leaf where
  addr : BitVec 64
  entry : BitVec 64
  ptep : BitVec 64
  large : Bool
  deriving DecidableEq

def sextOk (addr : BitVec 64) : Bool :=
  let sext : BitVec 32 := (addr.sshiftRight 47).setWidth 32
  sext = 0 ∨ sext = -1

def pml4eAddr (addr : BitVec 64) : BitVec 64 :=
  ((env.cr3.setWidth 64 &&& ~~~(0xfff : BitVec 64)) +
    (((addr >>> 39) &&& (0x1ff : BitVec 64)) <<< 3)) &&& env.a20Mask 64

/-- `base` is what is left of the entry of the level above; the result is a `target_ulong` -/
def tableAddr (base : BitVec 64) (shift : Nat) (addr : TargetUlong t) : TargetUlong t :=
  ((base + ((((addr >>> shift) &&& (0x1ff : TargetUlong t)) <<< 3).setWidth 64)) &&&
    env.a20Mask 64).setWidth t.bits

def pdpeAddrLegacy (addr : TargetUlong t) : TargetUlong t :=
  ((env.cr3 &&& ~~~(0x1f : TargetUlong t)) + ((addr >>> 27) &&& (0x18 : TargetUlong t))) &&&
    env.a20Mask t.bits

/-- `#ifdef TARGET_X86_64` -/
def longMode : Bool := t = .x86_64 ∧ env.hflags &&& HF_LMA_MASK ≠ 0

/-- `pdpe` and `ptep` -/
def pdpeLong (addr : TargetUlong t) : Walk (BitVec 64 × BitVec 64) := do
  if ¬ sextOk (addr.setWidth 64) then throw .gpf
  let pml4eAddr := pml4eAddr env (addr.setWidth 64)
  let pml4e ← ldqPhys pml4eAddr
  checkPresent pml4e
  checkNx env pml4e
  let pml4e ← setAccessed pml4eAddr pml4e
  let ptep := pml4e ^^^ PG_NX_MASK
  let pdpeAddr := (tableAddr env (pml4e &&& PHYS_ADDR_MASK t) 30 addr).setWidth 64
  let pdpe ← ldqPhys pdpeAddr
  checkPresent pdpe
  checkNx env pdpe
  let ptep := ptep &&& (pdpe ^^^ PG_NX_MASK)
  let pdpe ← setAccessed pdpeAddr pdpe
  return (pdpe, ptep)

def pdpeLegacy (addr : TargetUlong t) : Walk (BitVec 64 × BitVec 64) := do
  let pdpe ← ldqPhys ((pdpeAddrLegacy env addr).setWidth 64)
  checkPresent pdpe
  return (pdpe, PG_NX_MASK ||| PG_USER_MASK ||| PG_RW_MASK)

def pdpeStage (addr : TargetUlong t) : Walk (BitVec 64 × BitVec 64) :=
  if longMode env then pdpeLong env addr else pdpeLegacy env addr

def pdeStage (addr : TargetUlong t) (pdpe ptep : BitVec 64) : Walk Leaf := do
  let pdeAddr := (tableAddr env (pdpe &&& PHYS_ADDR_MASK t) 21 addr).setWidth 64
  let pde ← ldqPhys pdeAddr
  checkPresent pde
  checkNx env pde
  let ptep := ptep &&& (pde ^^^ PG_NX_MASK)
  if pde &&& PG_PSE_MASK ≠ 0 then
    return { addr := pdeAddr, entry := pde, ptep := ptep ^^^ PG_NX_MASK, large := true }
  else
    let pde ← setAccessed pdeAddr pde
    let pteAddr := (tableAddr env (pde &&& PHYS_ADDR_MASK t) 12 addr).setWidth 64
    let pte ← ldqPhys pteAddr
    checkPresent pte
    checkNx env pte
    let ptep := ptep &&& (pte ^^^ PG_NX_MASK)
    return { addr := pteAddr, entry := pte, ptep := ptep ^^^ PG_NX_MASK, large := false }

def paeLeaf (addr : TargetUlong t) : Walk Leaf := do
  let (pdpe, ptep) ← pdpeStage env addr
  pdeStage env addr pdpe ptep

def pdeAddr32 (addr : TargetUlong t) : BitVec 64 :=
  (((env.cr3 &&& ~~~(0xfff : TargetUlong t)) + ((addr >>> 20) &&& (0xffc : TargetUlong t))) &&&
    env.a20Mask t.bits).setWidth 64

def pteAddr32 (pde : BitVec 64) (addr : TargetUlong t) : BitVec 64 :=
  (((pde &&& ~~~(0xfff : BitVec 64)).setWidth t.bits +
    ((addr >>> 10) &&& (0xffc : TargetUlong t))) &&& env.a20Mask t.bits).setWidth 64

def leaf32 (addr : TargetUlong t) : Walk Leaf := do
  let pdeAddr := pdeAddr32 env addr
  let pde ← ldlPhys pdeAddr
  checkPresent pde
  if pde &&& PG_PSE_MASK ≠ 0 ∧ env.cr4 &&& CR4_PSE_MASK t ≠ 0 then
    return { addr := pdeAddr, entry := pde, ptep := pde, large := true }
  else
    let pde ← setAccessed pdeAddr pde
    let pteAddr := pteAddr32 env pde addr
    let pte ← ldlPhys pteAddr
    checkPresent pte
    return { addr := pteAddr, entry := pte, ptep := pte &&& pde, large := false }

/-! ## the fault handler -/

/-- the arguments of `tlb_set_page` -/
structure Mapping (t : Target) where
  vaddr : TargetUlong t
  paddr : BitVec 64
  prot : Prot
  pageSize : Nat
  deriving DecidableEq

def pageOffset (addr : TargetUlong t) (pageSize : Nat) : BitVec 32 :=
  ((addr &&& TARGET_PAGE_MASK t.bits) &&& BitVec.ofNat t.bits (pageSize - 1)).setWidth 32

def doMapping (addr : TargetUlong t) (pte : BitVec 64) (virtAddr : TargetUlong t) (prot : Prot)
    (pageSize : Nat) : Mapping t :=
  let pte := pte &&& env.a20Mask 64
  let pageOffset := pageOffset addr pageSize
  { vaddr := virtAddr + pageOffset.setWidth t.bits
    paddr := (pte &&& TARGET_PAGE_MASK 64) + pageOffset.setWidth 64
    prot := prot
    pageSize := pageSize }

/-- what can be put in the TLB -/
def rights (pte ptep : BitVec 64) (mmuIdx : MmuIdx) : Prot where
  read := true
  exec := ptep &&& PG_NX_MASK = 0
  write := pte &&& PG_DIRTY_MASK ≠ 0 ∧
    if mmuIdx = .user then ptep &&& PG_RW_MASK ≠ 0
    else env.cr0 &&& CR0_WP_MASK t = 0 ∨ ptep &&& PG_RW_MASK ≠ 0

def pae : Bool := env.cr4 &&& CR4_PAE_MASK t ≠ 0

def largeSize : Nat := if pae env then 2048 * 1024 else 4096 * 1024

/-- the address bits of the entry, with its low bits -/
def pteBits (leaf : Leaf) (entry : BitVec 64) : BitVec 64 :=
  let offsetMask := BitVec.ofNat 64 (largeSize env - 1)
  if pae env then
    if leaf.large then entry &&& ((PHYS_ADDR_MASK t &&& ~~~offsetMask) ||| (0xfff : BitVec 64))
    else entry &&& (PHYS_ADDR_MASK t ||| (0xfff : BitVec 64))
  else if leaf.large then entry &&& ~~~(offsetMask &&& ~~~(0xfff : BitVec 64))
  else entry

def findLeaf (addr : TargetUlong t) : Walk Leaf :=
  if pae env then paeLeaf env addr else leaf32 env addr

def useLeaf (addr : TargetUlong t) (access : Access) (mmuIdx : MmuIdx) (leaf : Leaf) :
    Walk (Mapping t) := do
  if pae env ∧ leaf.ptep &&& PG_NX_MASK ≠ 0 ∧ access = .exec then doFaultProtect
  checkProtection env leaf.ptep access mmuIdx
  let entry ← setAccessedDirty access leaf.addr leaf.entry
  let pageSize := if leaf.large then largeSize env else 4096
  let pte := pteBits env leaf entry
  -- the rights of a large page without PAE are those of the entry with its bits set
  let ptep := if ¬ pae env ∧ leaf.large then pte else leaf.ptep
  return doMapping env addr pte (addr &&& ~~~BitVec.ofNat t.bits (pageSize - 1))
    (rights env pte ptep mmuIdx) pageSize

def translate (addr : TargetUlong t) (access : Access) (mmuIdx : MmuIdx) : Walk (Mapping t) := do
  if env.cr0 &&& CR0_PG_MASK t = 0 then
    return doMapping env addr (addr.setWidth 64) (addr &&& TARGET_PAGE_MASK t.bits)
      { read := true, write := true, exec := true } 4096
  useLeaf env addr access mmuIdx (← findLeaf env addr)

/-- `do_fault`: bits of the access are added to the error code -/
def faultCode (access : Access) (mmuIdx : MmuIdx) : Fault → Fault
  | .gpf => .gpf
  | .page errorCode =>
    let errorCode := errorCode ||| if access = .write then PG_ERROR_W_MASK else 0
    let errorCode := if mmuIdx = .user then errorCode ||| PG_ERROR_U_MASK else errorCode
    let errorCode := if access = .exec ∧ ((env.efer &&& MSR_EFER_NXE ≠ 0 ∧ pae env) ∨
        env.cr4 &&& CR4_SMEP_MASK t ≠ 0) then errorCode ||| PG_ERROR_I_D_MASK else errorCode
    .page errorCode

def handleMmuFault (addr : TargetUlong t) (access : Access) (mmuIdx : MmuIdx) :
    Walk (Mapping t) := fun m =>
  match translate env addr access mmuIdx m with
  | .ok mapping m' => .ok mapping m'
  | .error e m' => .error (faultCode env access mmuIdx e) m'

/-! ## the debugger -/

/-- `~0xfff & ~(PG_NX_MASK | PG_HI_USER_MASK)` -/
def debugMask : BitVec 64 := ~~~(0xfff : BitVec 64) &&& ~~~(PG_NX_MASK ||| PG_HI_USER_MASK)

/-- nothing for a return of -1 -/
def debugPdpeAddr (m : Mem) (addr : TargetUlong t) : Option (BitVec 64) :=
  if longMode env then
    if ¬ sextOk (addr.setWidth 64) then none
    else
      let pml4e := ldq m (pml4eAddr env (addr.setWidth 64))
      if pml4e &&& PG_PRESENT_MASK = 0 then none
      else some ((tableAddr env (pml4e &&& debugMask) 30 addr).setWidth 64)
  else some ((pdpeAddrLegacy env addr).setWidth 64)

/-- `pte` and `page_size` with PAE -/
def debugPae (m : Mem) (addr : TargetUlong t) : Option (BitVec 64 × Nat) :=
  match debugPdpeAddr env m addr with
  | none => none
  | some pdpeAddr =>
    let pdpe := ldq m pdpeAddr
    if pdpe &&& PG_PRESENT_MASK = 0 then none
    else
      let pde := ldq m ((tableAddr env (pdpe &&& debugMask) 21 addr).setWidth 64)
      if pde &&& PG_PRESENT_MASK = 0 then none
      else
        let (pte, pageSize) :=
          if pde &&& PG_PSE_MASK ≠ 0 then
            (pde &&& ~~~(BitVec.ofNat 64 (2048 * 1024 - 1) &&& ~~~(0xfff : BitVec 64)), 2048 * 1024)
          else (ldq m ((tableAddr env (pde &&& debugMask) 12 addr).setWidth 64), 4096)
        let pte := pte &&& ~~~(PG_NX_MASK ||| PG_HI_USER_MASK)
        if pte &&& PG_PRESENT_MASK = 0 then none else some (pte, pageSize)

def debug32 (m : Mem) (addr : TargetUlong t) : Option (BitVec 64 × Nat) :=
  let pde := (ldl m (pdeAddr32 env addr)).setWidth 64
  if pde &&& PG_PRESENT_MASK = 0 then none
  else if pde &&& PG_PSE_MASK ≠ 0 ∧ env.cr4 &&& CR4_PSE_MASK t ≠ 0 then
    some (pde &&& ~~~(0x003ff000 : BitVec 64) &&& env.a20Mask 64, 4096 * 1024)
  else
    let pte := (ldl m (pteAddr32 env pde addr)).setWidth 64
    if pte &&& PG_PRESENT_MASK = 0 then none else some (pte &&& env.a20Mask 64, 4096)

def debugPte (m : Mem) (addr : TargetUlong t) : Option (BitVec 64 × Nat) :=
  if env.cr0 &&& CR0_PG_MASK t = 0 then some (addr.setWidth 64 &&& env.a20Mask 64, 4096)
  else if pae env then debugPae env m addr
  else debug32 env m addr

def x86CpuGetPhysPageDebug (m : Mem) (addr : TargetUlong t) : BitVec 64 :=
  match debugPte env m addr with
  | none => -1
  | some (pte, pageSize) =>
    (pte &&& TARGET_PAGE_MASK 64) + (pageOffset addr pageSize).setWidth 64
end

end X86
