import TraceSyscallObj.Lib.Run
import TraceSyscallObj.Memory.Region

/-!
# The memory API

Model of the part of `memory.c` that changes the regions and keeps the maps of the address spaces up
to date.  A listener carries the calls it has received since it was registered.  Of its callbacks
the model knows which are set; what a device does in them is not part of it.

* `addressSpaceUpdateTopologyPass`: the difference of two maps, told to the listeners;
* `memoryRegionTransactionCommit`: the last one updates all maps if an update is pending;
* `memoryRegionAddSubregion`, ...: the operations on regions;
* `addressSpaceInit`, `addressSpaceDestroy`, `memoryListenerRegister`;
* `Call.exec`: one call of the API.
-/

namespace Memory

/-! ## listeners -/

abbrev SpaceId := Nat

structure MemoryRegionSection where
  mr : RegionId
  addressSpace : SpaceId
  offsetWithinRegion : Hwaddr
  size : Int
  offsetWithinAddressSpace : Hwaddr
  readonly : Bool
  deriving DecidableEq

inductive Callback
  | begin
  | commit
  | regionAdd
  | regionDel
  | regionNop
  | logStart
  | logStop
  deriving DecidableEq

inductive ListenerId
  /-- `as->dispatch_listener` -/
  | dispatch (as : SpaceId)
  | device (n : Nat)
  deriving DecidableEq

structure MemoryListener where
  id : ListenerId
  /-- the callbacks that are not `NULL` -/
  callbacks : Callback → Bool
  priority : BitVec 32
  addressSpaceFilter : Option SpaceId
  /-- the calls since it was registered; `begin` and `commit` have no section -/
  received : List (Callback × Option MemoryRegionSection)

def memoryListenerMatch (listener : MemoryListener) (as : SpaceId) : Bool :=
  match listener.addressSpaceFilter with
  | none => true
  | some filter => filter == as

def MemoryListener.call (listener : MemoryListener) (callback : Callback)
    (sec : Option MemoryRegionSection) : MemoryListener :=
  { listener with received := listener.received ++ [(callback, sec)] }

def memoryListenerCallGlobal (callback : Callback) (listeners : List MemoryListener) :
    List MemoryListener :=
  listeners.map fun l => if l.callbacks callback then l.call callback none else l

def sectionOf (as : SpaceId) (fr : FlatRange) : Except Fault MemoryRegionSection := do
  let offset ← int128Get64 fr.addr.start
  return { mr := fr.mr, addressSpace := as, offsetWithinRegion := fr.offsetInRegion,
           size := fr.addr.size, offsetWithinAddressSpace := offset, readonly := fr.readonly }

/-- `MEMORY_LISTENER_UPDATE_REGION`; the macro makes the section anew for every callback.  The
direction is the order among the listeners, which none of them can see -/
def memoryListenerUpdateRegion (as : SpaceId) (callback : Callback) (fr : FlatRange)
    (listeners : List MemoryListener) : Except Fault (List MemoryListener) :=
  listeners.mapM fun l =>
    if l.callbacks callback then do
      let sec ← sectionOf as fr
      return if memoryListenerMatch l as then l.call callback (some sec) else l
    else return l

/-! ## maps -/

structure AddressSpace where
  id : SpaceId
  root : Option RegionId
  currentMap : FlatView

def flatrangeEqual (a b : FlatRange) : Bool :=
  a.mr == b.mr && a.addr == b.addr && a.offsetInRegion == b.offsetInRegion
    && a.romdMode == b.romdMode && a.readonly == b.readonly

def passCalls (adding : Bool) : Nat → FlatView → FlatView → List (Callback × FlatRange)
  | 0, _, _ => []
  | fuel + 1, old, new =>
    match old, new with
    | [], [] => []
    | frold :: old, [] => kill frold ++ passCalls adding fuel old []
    | [], frnew :: new => add frnew ++ passCalls adding fuel [] new
    | frold :: old, frnew :: new =>
      if frold.addr.start < frnew.addr.start
          ∨ (frold.addr.start = frnew.addr.start ∧ !flatrangeEqual frold frnew) then
        kill frold ++ passCalls adding fuel old (frnew :: new)
      else if flatrangeEqual frold frnew then
        keep frold frnew ++ passCalls adding fuel old new
      else add frnew ++ passCalls adding fuel (frold :: old) new
where
  /-- in the old map but not in the new one, or in both with other attributes -/
  kill (frold : FlatRange) : List (Callback × FlatRange) :=
    if adding then [] else [(.regionDel, frold)]
  /-- in both and unchanged, except that logging may have changed -/
  keep (frold frnew : FlatRange) : List (Callback × FlatRange) :=
    if !adding then []
    else if frold.dirtyLogMask ≠ 0 ∧ frnew.dirtyLogMask = 0 then
      [(.regionNop, frnew), (.logStop, frnew)]
    else if frnew.dirtyLogMask ≠ 0 ∧ frold.dirtyLogMask = 0 then
      [(.regionNop, frnew), (.logStart, frnew)]
    else [(.regionNop, frnew)]
  /-- in the new map -/
  add (frnew : FlatRange) : List (Callback × FlatRange) :=
    if adding then [(.regionAdd, frnew)] else []

def addressSpaceUpdateTopologyPass (as : SpaceId) (oldView newView : FlatView) (adding : Bool)
    (listeners : List MemoryListener) : Except Fault (List MemoryListener) :=
  (passCalls adding (oldView.length + newView.length) oldView newView).foldlM
    (fun listeners call => memoryListenerUpdateRegion as call.1 call.2 listeners) listeners

def addressSpaceUpdateTopology (h : Heap) (fuel : Nat) (as : AddressSpace)
    (listeners : List MemoryListener) : Except Fault (AddressSpace × List MemoryListener) := do
  let newView ← generateMemoryTopology h fuel as.root
  let listeners ← addressSpaceUpdateTopologyPass as.id as.currentMap newView false listeners
  let listeners ← addressSpaceUpdateTopologyPass as.id as.currentMap newView true listeners
  return ({ as with currentMap := newView }, listeners)

/-- `QTAILQ_FOREACH(as, &address_spaces, address_spaces_link)` -/
def updateSpaces (h : Heap) (fuel : Nat) :
    List AddressSpace → List MemoryListener → Except Fault (List AddressSpace × List MemoryListener)
  | [], listeners => .ok ([], listeners)
  | as :: rest, listeners => do
    let (as, listeners) ← addressSpaceUpdateTopology h fuel as listeners
    let (rest, listeners) ← updateSpaces h fuel rest listeners
    return (as :: rest, listeners)

/-! ## transactions -/

structure State where
  heap : Heap
  transactionDepth : BitVec 32
  updatePending : Bool
  listeners : List MemoryListener
  addressSpaces : List AddressSpace

def memoryRegionTransactionBegin (s : State) : State :=
  { s with transactionDepth := s.transactionDepth + 1 }

def memoryRegionTransactionCommit (fuel : Nat) (s : State) : Except Fault State :=
  if s.transactionDepth = 0 then .error .assertion
  else
    let depth := s.transactionDepth - 1
    if depth = 0 ∧ s.updatePending then do
      let listeners := memoryListenerCallGlobal .begin s.listeners
      let (spaces, listeners) ← updateSpaces s.heap fuel s.addressSpaces listeners
      return { s with transactionDepth := depth, updatePending := false, addressSpaces := spaces,
                      listeners := memoryListenerCallGlobal .commit listeners }
    else return { s with transactionDepth := depth }

/-! ## operations on regions -/

def Heap.modify (h : Heap) (mr : RegionId) (f : MemoryRegion → MemoryRegion) : Heap :=
  fun r => if r = mr then f (h r) else h r

/-- new regions and `memory_region_update_pending |= changed` -/
def State.set (s : State) (h : Heap) (changed : Bool) : State :=
  { s with heap := h, updatePending := s.updatePending || changed }

/-- one assignment to a region in a transaction of its own -/
def assign (fuel : Nat) (mr : RegionId) (f : MemoryRegion → MemoryRegion) (s : State) :
    Except Fault State :=
  let s := memoryRegionTransactionBegin s
  memoryRegionTransactionCommit fuel (s.set (s.heap.modify mr f) (s.heap mr).enabled)

def memoryRegionSetLog (fuel : Nat) (mr : RegionId) (log : Bool) (client : Nat) (s : State) :
    Except Fault State :=
  let mask : BitVec 8 := BitVec.ofNat 8 (1 <<< client)
  assign fuel mr (fun r => { r with
    dirtyLogMask := (r.dirtyLogMask &&& ~~~mask) ||| (if log then mask else 0) }) s

def memoryRegionSetReadonly (fuel : Nat) (mr : RegionId) (readonly : Bool) (s : State) :
    Except Fault State :=
  if (s.heap mr).readonly ≠ readonly then assign fuel mr (fun r => { r with readonly := readonly }) s
  else .ok s

def memoryRegionRomDeviceSetRomd (fuel : Nat) (mr : RegionId) (romdMode : Bool) (s : State) :
    Except Fault State :=
  if (s.heap mr).romdMode ≠ romdMode then assign fuel mr (fun r => { r with romdMode := romdMode }) s
  else .ok s

def memoryRegionSetAliasOffset (fuel : Nat) (mr : RegionId) (offset : Hwaddr) (s : State) :
    Except Fault State :=
  if (s.heap mr).aliasOf = none then .error .assertion
  else if offset = (s.heap mr).aliasOffset then .ok s
  else assign fuel mr (fun r => { r with aliasOffset := offset }) s

def memoryRegionSetEnabled (fuel : Nat) (mr : RegionId) (enabled : Bool) (s : State) :
    Except Fault State :=
  if enabled = (s.heap mr).enabled then .ok s
  else
    let s := memoryRegionTransactionBegin s
    memoryRegionTransactionCommit fuel
      (s.set (s.heap.modify mr fun r => { r with enabled := enabled }) true)

/-- before the first subregion of the same or a lower priority -/
def insertSubregion (h : Heap) (subregion : RegionId) : List RegionId → List RegionId
  | [] => [subregion]
  | other :: rest =>
    if (h subregion).priority ≥ (h other).priority then subregion :: other :: rest
    else other :: insertSubregion h subregion rest

def memoryRegionAddSubregionCommon (fuel : Nat) (mr : RegionId) (offset : Hwaddr)
    (subregion : RegionId) (s : State) : Except Fault State :=
  let s := memoryRegionTransactionBegin s
  if (s.heap subregion).parent ≠ none then .error .assertion
  else
    let h := s.heap.modify subregion fun r => { r with parent := some mr, addr := offset }
    let h := h.modify mr fun r => { r with subregions := insertSubregion h subregion r.subregions }
    memoryRegionTransactionCommit fuel (s.set h ((h mr).enabled && (h subregion).enabled))

def memoryRegionAddSubregion (fuel : Nat) (mr : RegionId) (offset : Hwaddr) (subregion : RegionId)
    (s : State) : Except Fault State :=
  memoryRegionAddSubregionCommon fuel mr offset subregion
    { s with heap := s.heap.modify subregion fun r => { r with mayOverlap := false, priority := 0 } }

def memoryRegionAddSubregionOverlap (fuel : Nat) (mr : RegionId) (offset : Hwaddr)
    (subregion : RegionId) (priority : BitVec 32) (s : State) : Except Fault State :=
  memoryRegionAddSubregionCommon fuel mr offset subregion
    { s with heap := s.heap.modify subregion fun r =>
        { r with mayOverlap := true, priority := priority } }

def memoryRegionDelSubregion (fuel : Nat) (mr subregion : RegionId) (s : State) :
    Except Fault State :=
  let s := memoryRegionTransactionBegin s
  if (s.heap subregion).parent ≠ some mr then .error .assertion
  else
    let h := s.heap.modify subregion fun r => { r with parent := none }
    let h := h.modify mr fun r => { r with subregions := r.subregions.erase subregion }
    memoryRegionTransactionCommit fuel (s.set h ((h mr).enabled && (h subregion).enabled))

def memoryRegionSetAddress (fuel : Nat) (mr : RegionId) (addr : Hwaddr) (s : State) :
    Except Fault State :=
  let place := { s with heap := s.heap.modify mr fun r => { r with addr := addr } }
  match (s.heap mr).parent with
  | none => .ok place
  | some parent =>
    if addr = (s.heap mr).addr then .ok place
    else do
      let s' := memoryRegionTransactionBegin s
      let s' ← memoryRegionDelSubregion fuel parent mr s'
      let s' ←
        if (s.heap mr).mayOverlap then
          memoryRegionAddSubregionOverlap fuel parent addr mr (s.heap mr).priority s'
        else memoryRegionAddSubregion fuel parent addr mr s'
      memoryRegionTransactionCommit fuel s'

/-! ## listeners and address spaces -/

/-- the new listener is told the map of an address space -/
def listenerAddAddressSpace (as : AddressSpace) (listener : MemoryListener) :
    Except Fault MemoryListener :=
  if memoryListenerMatch listener as.id then
    as.currentMap.foldlM (fun l fr => do
      let sec ← sectionOf as.id fr
      return if l.callbacks .regionAdd then l.call .regionAdd (some sec) else l) listener
  else .ok listener

/-- before the first listener of a higher priority -/
def insertBefore (listener : MemoryListener) : List MemoryListener → List MemoryListener
  | [] => [listener]
  | other :: rest =>
    if listener.priority < other.priority then listener :: other :: rest
    else other :: insertBefore listener rest

def insertListener (listener : MemoryListener) (listeners : List MemoryListener) :
    List MemoryListener :=
  match listeners.getLast? with
  | none => [listener]
  | some last =>
    if listener.priority ≥ last.priority then listeners ++ [listener]
    else insertBefore listener listeners

def memoryListenerRegister (id : ListenerId) (callbacks : Callback → Bool) (priority : BitVec 32)
    (filter : Option SpaceId) (s : State) : Except Fault State :=
  if ∃ l ∈ s.listeners, l.id = id then .error .corruption
  else do
    let listener ← s.addressSpaces.foldlM (fun l as => listenerAddAddressSpace as l)
      { id := id, callbacks := callbacks, priority := priority, addressSpaceFilter := filter,
        received := [] }
    return { s with listeners := insertListener listener s.listeners }

def memoryListenerUnregister (id : ListenerId) (s : State) : Except Fault State :=
  if ∃ l ∈ s.listeners, l.id = id then
    .ok { s with listeners := s.listeners.eraseP fun l => l.id == id }
  else .error .corruption

/-- `mem_begin`, `mem_commit` and `mem_add` twice -/
def dispatchCallbacks : Callback → Bool
  | .begin | .commit | .regionAdd | .regionNop => true
  | _ => false

def addressSpaceInitDispatch (as : SpaceId) (s : State) : Except Fault State :=
  memoryListenerRegister (.dispatch as) dispatchCallbacks 0 (some as) s

def addressSpaceDestroyDispatch (as : SpaceId) (s : State) : Except Fault State :=
  memoryListenerUnregister (.dispatch as) s

def addressSpaceInit (fuel : Nat) (as : SpaceId) (root : RegionId) (s : State) :
    Except Fault State :=
  if ∃ a ∈ s.addressSpaces, a.id = as then .error .corruption
  else do
    let s := memoryRegionTransactionBegin s
    let s ← addressSpaceInitDispatch as
      { s with addressSpaces := s.addressSpaces ++ [{ id := as, root := some root, currentMap := [] }] }
    memoryRegionTransactionCommit fuel (s.set s.heap (s.heap root).enabled)

def addressSpaceDestroy (fuel : Nat) (as : SpaceId) (s : State) : Except Fault State :=
  if ∃ a ∈ s.addressSpaces, a.id = as then do
    let s := memoryRegionTransactionBegin s
    let s ← memoryRegionTransactionCommit fuel
      { s with addressSpaces := s.addressSpaces.map fun a =>
          if a.id = as then { a with root := none } else a }
    addressSpaceDestroyDispatch as
      { s with addressSpaces := s.addressSpaces.eraseP fun a => a.id == as }
  else .error .corruption

/-! ## calls -/

inductive Call
  | transactionBegin
  | transactionCommit
  | addSubregion (mr : RegionId) (offset : Hwaddr) (subregion : RegionId)
  | addSubregionOverlap (mr : RegionId) (offset : Hwaddr) (subregion : RegionId)
      (priority : BitVec 32)
  | delSubregion (mr subregion : RegionId)
  | setEnabled (mr : RegionId) (enabled : Bool)
  | setAddress (mr : RegionId) (addr : Hwaddr)
  | setAliasOffset (mr : RegionId) (offset : Hwaddr)
  | setReadonly (mr : RegionId) (readonly : Bool)
  | setRomd (mr : RegionId) (romdMode : Bool)
  | setLog (mr : RegionId) (log : Bool) (client : Nat)
  | spaceInit (as : SpaceId) (root : RegionId)
  | spaceDestroy (as : SpaceId)
  | listenerRegister (n : Nat) (callbacks : Callback → Bool) (priority : BitVec 32)
      (filter : Option SpaceId)
  | listenerUnregister (n : Nat)

def Call.apply (fuel : Nat) : Call → State → Except Fault State
  | .transactionBegin, s => .ok (memoryRegionTransactionBegin s)
  | .transactionCommit, s => memoryRegionTransactionCommit fuel s
  | .addSubregion mr offset subregion, s => memoryRegionAddSubregion fuel mr offset subregion s
  | .addSubregionOverlap mr offset subregion priority, s =>
    memoryRegionAddSubregionOverlap fuel mr offset subregion priority s
  | .delSubregion mr subregion, s => memoryRegionDelSubregion fuel mr subregion s
  | .setEnabled mr enabled, s => memoryRegionSetEnabled fuel mr enabled s
  | .setAddress mr addr, s => memoryRegionSetAddress fuel mr addr s
  | .setAliasOffset mr offset, s => memoryRegionSetAliasOffset fuel mr offset s
  | .setReadonly mr readonly, s => memoryRegionSetReadonly fuel mr readonly s
  | .setRomd mr romdMode, s => memoryRegionRomDeviceSetRomd fuel mr romdMode s
  | .setLog mr log client, s => memoryRegionSetLog fuel mr log client s
  | .spaceInit as root, s => addressSpaceInit fuel as root s
  | .spaceDestroy as, s => addressSpaceDestroy fuel as s
  | .listenerRegister n callbacks priority filter, s =>
    memoryListenerRegister (.device n) callbacks priority filter s
  | .listenerUnregister n, s => memoryListenerUnregister (.device n) s

def Call.exec (fuel : Nat) (call : Call) : EStateM Fault State Unit := Run.lift (call.apply fuel)

/-- no region has been put into another one -/
structure Fresh (h : Heap) : Prop where
  parent : ∀ mr, (h mr).parent = none
  subregions : ∀ mr, (h mr).subregions = []

def State.init (h : Heap) : State where
  heap := h
  transactionDepth := 0
  updatePending := false
  listeners := []
  addressSpaces := []

end Memory
