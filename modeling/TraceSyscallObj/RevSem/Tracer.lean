import TraceSyscallObj.RevSem.ObjTree
import TraceSyscallObj.RevSem.Shadow

/-!
# The hooks of the tracer (`main.c`, `lib_map.cpp`)

`helperHook` runs before every instruction of the guest, `helperLoad` and `helperStore` at every
access to memory.  Allocations wait in `gObj` under their return address until that address is
executed; the object then enters the tree, gets an empty access record in `gInstances`, and its
shadow bytes are cleared.

What the hooks read from the guest at an event is a `Cpu`.  The constants are those of
`LINUX_2_6_32_8_NO_TRACE`.
-/

namespace RevSem
open Function

def KERNEL_ADDR_MIN : BitVec 32 := 0xc0000000
def KMEM_CACHE_ALLOC : BitVec 32 := 0xc10acb31
def KMEM_CACHE_ALLOC_TRACE : BitVec 32 := 0x0
def KMALLOC : BitVec 32 := 0xc10ad425
def KMALLOC_TRACK_CALLER : BitVec 32 := 0xc10ad341
def VMALLOC_NODE_FLAGS : BitVec 32 := 0xc10a25de
def KMEM_CACHE_FREE : BitVec 32 := 0xc10ac7b2
def KFREE : BitVec 32 := 0xc10ac856
def VFREE : BitVec 32 := 0xc10a1e5e

/-- `struct Elem1`: a pending allocation; the name is a `std::string` -/
structure Elem1 where
  name : String
  size : BitVec 32
  deriving DecidableEq, Repr

/-- the guest at an event: registers, memory as words and as C strings, the string that
`get_callstack_ebp` makes for a `pc`, `none` if its walk over the frames does not return, and what
uninitialised locals happen to hold -/
structure Cpu where
  eax : BitVec 32
  edx : BitVec 32
  esp : BitVec 32
  readMem : Addr → BitVec 32
  readStr : Addr → String
  callstackEbp : BitVec 32 → Option String
  stale : Elem1

/-- `struct Instance`; the set may be a null pointer -/
structure Instance where
  type : BitVec 64
  pset : Option (List String)
  deriving DecidableEq, Repr

/-- the globals of the tracer; `inserted` is a history variable, the objects that
`ds_code_all_insert_rb` has put into the tree so far -/
structure Tracer where
  tree : TreeState
  shadow : ShadowMem
  gObj : BitVec 32 → Option Elem1
  gInstances : Addr → Option Instance
  gAccessCallstack : BitVec 64 → Option String
  gDeleteCallstack : BitVec 64 → Option String
  gPc : BitVec 32
  outputFile1 : List (BitVec 64 × List String)
  outputFile2 : List (BitVec 64 × String)
  outputFile3 : List (BitVec 64 × String)
  outputFile4 : List (BitVec 64 × String)
  inserted : List (Addr × Elem1)

def Tracer.init (garbage : Ptr → NodeType) (pages : Nat → SecMap) : Tracer where
  tree := .init garbage
  shadow := taintInit2 pages
  gObj _ := none
  gInstances _ := none
  gAccessCallstack _ := none
  gDeleteCallstack _ := none
  gPc := 0
  outputFile1 := []
  outputFile2 := []
  outputFile3 := []
  outputFile4 := []
  inserted := []

abbrev TracerM := EStateM Fault Tracer

/-- a program on the tree, run on the tree of the tracer -/
def onTree {α : Type} (m : TreeM α) : TracerM α := fun σ =>
  match m σ.tree with
  | .ok a s => .ok a { σ with tree := s }
  | .error e s => .error e { σ with tree := s }

/-! ## `lib_map.cpp` -/

def insertObj (pc : BitVec 32) (e : Elem1) : TracerM Unit :=
  modify fun σ => { σ with gObj := update σ.gObj pc (some e) }

def getObj (pc : BitVec 32) : TracerM (Option Elem1) := do return (← get).gObj pc

def deleteObj (pc : BitVec 32) : TracerM Unit :=
  modify fun σ => { σ with gObj := update σ.gObj pc none }

def readCallstack {σ : Type} (cpu : Cpu) (pc : BitVec 32) : EStateM Fault σ String := fun s =>
  match cpu.callstackEbp pc with
  | some cs => .ok cs s
  | none => .error .hang s

def hashCallstack {σ : Type} (H : Host) (cpu : Cpu) (pc : BitVec 32) :
    EStateM Fault σ (BitVec 64) := do
  return H.hash (← readCallstack cpu pc)

/-- an older record at the address is replaced -/
def addInstance (type : BitVec 64) (addr : Addr) : TracerM Unit :=
  modify fun σ => { σ with gInstances := update σ.gInstances addr (some ⟨type, some []⟩) }

/-- `g_instances[addr]`: a missing key is inserted, with a null set -/
def instanceAt (addr : Addr) : TracerM Instance := do
  match (← get).gInstances addr with
  | some i => return i
  | none =>
    modify fun σ => { σ with gInstances := update σ.gInstances addr (some ⟨0, none⟩) }
    return ⟨0, none⟩

/-- the end of `delete_instance`: a call stack that frees for the first time is logged -/
def noteDelete (H : Host) (cs : String) (σ : Tracer) : Tracer :=
  let known := (σ.gDeleteCallstack (H.hash cs)).isSome
  { σ with
    gDeleteCallstack := if known then σ.gDeleteCallstack
      else update σ.gDeleteCallstack (H.hash cs) (some cs)
    outputFile4 := if known then σ.outputFile4 else σ.outputFile4 ++ [(H.hash cs, cs)] }

/-- the record of the object goes to `output_file1` -/
def deleteInstance (H : Host) (cpu : Cpu) (addr : Addr) : TracerM Unit := do
  let i ← instanceAt addr
  match i.pset with
  | none => throw .segv
  | some set =>
    modify fun σ => { σ with
      outputFile1 := σ.outputFile1 ++ [(i.type, set)]
      gInstances := update σ.gInstances addr none }
    let cs ← readCallstack cpu (← get).gPc
    modify (noteDelete H cs)

def hex (n : Nat) : String := String.ofList (Nat.toDigits 16 n)

/-- the line that an access adds to the record of its object -/
def accessLine (hash : BitVec 64) (flag func off : BitVec 32) : String :=
  hex hash.toNat ++ ":" ++ hex flag.toNat ++ ":" ++ hex func.toNat ++ ":" ++ hex off.toNat

/-- a call stack that accesses an object for the first time is logged, reads in `output_file2`
and writes in `output_file3` -/
def noteAccess (H : Host) (cs : String) (write : Bool) (σ : Tracer) : Tracer :=
  let known := (σ.gAccessCallstack (H.hash cs)).isSome
  { σ with
    gAccessCallstack := if known then σ.gAccessCallstack
      else update σ.gAccessCallstack (H.hash cs) (some cs)
    outputFile2 := if known || write then σ.outputFile2 else σ.outputFile2 ++ [(H.hash cs, cs)]
    outputFile3 := if known || !write then σ.outputFile3 else σ.outputFile3 ++ [(H.hash cs, cs)] }

/-- `g_instances[addr].pset->insert(s)` -/
def insertAccess (addr : Addr) (s : String) : TracerM Unit := do
  let i ← instanceAt addr
  match i.pset with
  | none => throw .segv
  | some set => modify fun σ => { σ with
      gInstances := update σ.gInstances addr
        (some { i with pset := some (set.insert s) }) }

/-- `set_mem_taint_bysize2` -/
def setTaint (H : Host) (a : Addr) (v size : BitVec 32) : TracerM Unit :=
  modify fun σ => { σ with shadow := setMemTaintBysize2 H σ.shadow a v size }

def addReadAction (H : Host) (cpu : Cpu) (addr _size off func _action : BitVec 32) :
    TracerM Unit := do
  if ((← get).gInstances addr).isNone then throw .readAssert
  else
    let cs ← readCallstack cpu (← get).gPc
    modify (noteAccess H cs false)
    let s := accessLine (H.hash cs) (getMemTaint2 (← get).shadow (addr + off)) func off
    insertAccess addr s

def addWriteAction (H : Host) (cpu : Cpu) (addr size off func _action : BitVec 32) :
    TracerM Unit := do
  if ((← get).gInstances addr).isNone then throw .writeAssert
  else
    let cs ← readCallstack cpu (← get).gPc
    modify (noteAccess H cs true)
    let s := accessLine (H.hash cs) (getMemTaint2 (← get).shadow (addr + off)) func off
    setTaint H (addr + off) 1 size
    insertAccess addr s

/-! ## `main.c` -/

/-- `ds_code_all_insert_rb`, with the history variable -/
def insertRb (H : Host) (addr : Addr) (e : Elem1) (p : Record) : TracerM Unit := do
  onTree (dsCodeAllInsertRb H addr e.size p)
  modify fun σ => { σ with inserted := σ.inserted ++ [(addr, e)] }

/-- `strcpy(hp.obj_name, name)`, which is checked at run time (`_FORTIFY_SOURCE`) -/
def copyName (name : String) : TracerM ObjName := fun σ =>
  if h : name.length < 30 then .ok ⟨name, h⟩ σ else .error .overflow σ

def addObj (H : Host) (cpu : Cpu) (addr : Addr) (e : Elem1) (callPc : BitVec 32) :
    TracerM Unit := do
  let type ← hashCallstack H cpu callPc
  let name ← copyName e.name
  deleteObj callPc
  insertRb H addr e ⟨⟨addr, e.size, type, callPc⟩, name⟩
  addInstance type addr
  setTaint H addr 0 e.size

/-- the arguments of the allocators (`linux.c`) -/
def getKmemCacheAllocArgs (cpu : Cpu) : Elem1 :=
  ⟨cpu.readStr (cpu.readMem (cpu.eax + 0x54)), cpu.readMem (cpu.eax + 0x4)⟩
def getKmemCacheAllocTraceArgs (cpu : Cpu) : Elem1 := cpu.stale
def getKmallocArgs (cpu : Cpu) : BitVec 32 := cpu.eax
def getVmallocArgs (cpu : Cpu) : BitVec 32 := cpu.eax
def getKmemCacheFreeArgs (cpu : Cpu) : Addr := cpu.edx

/-- the first half of `object_hook`: a pending allocation returns here; `get_name` copies into
`char name[50]` -/
def returnHook (H : Host) (pc : BitVec 32) (cpu : Cpu) : TracerM Unit := do
  match ← getObj pc with
  | some e => if 50 ≤ e.name.length then throw .overflow else addObj H cpu cpu.eax e pc
  | none => pure ()

/-- the second half: a hooked function is entered -/
def entryHook (H : Host) (pc : BitVec 32) (cpu : Cpu) : TracerM Unit :=
  if pc = KMEM_CACHE_ALLOC then insertObj (cpu.readMem cpu.esp) (getKmemCacheAllocArgs cpu)
  else if pc = KMEM_CACHE_ALLOC_TRACE then
    insertObj (cpu.readMem cpu.esp) (getKmemCacheAllocTraceArgs cpu)
  else if pc = KMALLOC ∨ pc = KMALLOC_TRACK_CALLER then
    insertObj (cpu.readMem cpu.esp) ⟨"kmalloc-XX", getKmallocArgs cpu⟩
  else if pc = VMALLOC_NODE_FLAGS then
    insertObj (cpu.readMem cpu.esp) ⟨"vmalloc-XX", getVmallocArgs cpu⟩
  else if pc = KMEM_CACHE_FREE then onTree (dsCodeAllDeleteRb H (getKmemCacheFreeArgs cpu))
  else if pc = KFREE ∨ pc = VFREE then onTree (dsCodeAllDeleteRb H cpu.eax)
  else pure ()

def objectHook (H : Host) (pc : BitVec 32) (cpu : Cpu) : TracerM Unit := do
  returnHook H pc cpu
  entryHook H pc cpu

/-- the two branches of `trace_delete`, at the address that is freed -/
def retire (H : Host) (cpu : Cpu) (addr : Addr) : TracerM Unit := do
  let p ← onTree (dsCodeRbtFind2 H addr)
  if p ≠ .null then deleteInstance H cpu addr else pure ()
  onTree (dsCodeAllDeleteRb H addr)

def traceDelete (H : Host) (pc : BitVec 32) (cpu : Cpu) : TracerM Unit :=
  if pc = KMEM_CACHE_FREE then retire H cpu (getKmemCacheFreeArgs cpu)
  else if pc = KFREE then retire H cpu cpu.eax
  else pure ()

def helperHook (H : Host) (pc : BitVec 32) (cpu : Cpu) : TracerM Unit :=
  if pc < KERNEL_ADDR_MIN then pure ()
  else do
    modify fun σ => { σ with gPc := pc }
    traceDelete H pc cpu
    objectHook H pc cpu

/-- the common body of `helper_store` and `helper_load`: `action` gets the key of the object that
is found at `addr`, the offset in it and the current `pc` -/
def onObject (H : Host) (addr : Addr) (action : Addr → BitVec 32 → BitVec 32 → TracerM Unit) :
    TracerM Unit :=
  if addr < KERNEL_ADDR_MIN then pure ()
  else do
    let tmp ← onTree (dsCodeRbtFind2 H addr)
    if tmp ≠ .null then
      let key := (← onTree (load tmp)).key
      action key (addr - key) (← get).gPc
    else pure ()

def helperStore (H : Host) (_value addr size : BitVec 32) (cpu : Cpu) : TracerM Unit :=
  onObject H addr fun key off pc => addWriteAction H cpu key size off pc 2

def helperLoad (H : Host) (addr size : BitVec 32) (cpu : Cpu) : TracerM Unit :=
  onObject H addr fun key off pc => addReadAction H cpu key size off pc 1

inductive Event where
  | hook (pc : BitVec 32) (cpu : Cpu)
  | load (addr size : BitVec 32) (cpu : Cpu)
  | store (value addr size : BitVec 32) (cpu : Cpu)

def Event.exec (H : Host) : Event → TracerM Unit
  | .hook pc cpu => helperHook H pc cpu
  | .load addr size cpu => helperLoad H addr size cpu
  | .store value addr size cpu => helperStore H value addr size cpu

end RevSem
