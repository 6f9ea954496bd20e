import Mathlib

/-!
# INTx interrupts of PCI devices (`hw/pci/pci.c`)

A device asserts up to four pins.  Each pin is routed through the buses above the device to an
input of the interrupt controller, which is raised while its counter `irq_count` is not zero.

* `Platform`: what does not change: the buses, the routing, the masks of the configuration space,
  the regions and the capabilities of the devices;
* `pciChangeIrqLevel`, `pciSetIrq`, `pciUpdateIrqDisabled`, `pciDefaultWriteConfig`,
  `pciDeviceReset`: the functions that move the counters;
* `Op`, `Op.exec`: one call from outside.
-/

namespace Pci
open Function

def PCI_COMMAND : Nat := 0x04
def PCI_COMMAND_INTX_DISABLE : BitVec 16 := 0x400
def PCI_STATUS : Nat := 0x06
def PCI_STATUS_INTERRUPT : BitVec 8 := 0x08
def PCI_CACHE_LINE_SIZE : Nat := 0x0c
def PCI_HEADER_TYPE : Nat := 0x0e
def PCI_BASE_ADDRESS_0 : Nat := 0x10
def PCI_ROM_ADDRESS : Nat := 0x30
def PCI_ROM_ADDRESS1 : Nat := 0x38
def PCI_INTERRUPT_LINE : Nat := 0x3c
def PCI_CONFIG_HEADER_SIZE : Nat := 0x40
def PCI_ROM_SLOT : Nat := 6
def PCI_NUM_REGIONS : Nat := 7

/-! ## configuration space -/

abbrev Config := Nat → BitVec 8

def pciGetWord (c : Config) (a : Nat) : BitVec 16 := c (a + 1) ++ c a

def pciSetWord (c : Config) (a : Nat) (v : BitVec 16) : Config :=
  update (update c a (v.setWidth 8)) (a + 1) ((v >>> 8).setWidth 8)

def pciSetLong (c : Config) (a : Nat) (v : BitVec 32) : Config :=
  pciSetWord (pciSetWord c a (v.setWidth 16)) (a + 2) ((v >>> 16).setWidth 16)

def pciSetQuad (c : Config) (a : Nat) (v : BitVec 64) : Config :=
  pciSetLong (pciSetLong c a (v.setWidth 32)) (a + 4) ((v >>> 32).setWidth 32)

def pciWordTestAndClearMask (c : Config) (a : Nat) (mask : BitVec 16) : Config :=
  pciSetWord c a (pciGetWord c a &&& ~~~mask)

structure PCIIORegion where
  size : Nat
  type : BitVec 8

/-! ## the platform -/

structure Platform (Bus : Type) (n : Nat) where
  bus : Fin n → Bus
  mapIrq : Bus → Fin n → Nat → Nat
  /-- `bus->set_irq` is there: the counters are kept on this bus -/
  hasSetIrq : Bus → Bool
  parentDev : Bus → Fin n
  /-- the distance to a bus with `set_irq` -/
  depth : Bus → Nat
  depth_lt : ∀ b, hasSetIrq b = false → depth (bus (parentDev b)) < depth b
  wmask : Fin n → Config
  w1cmask : Fin n → Config
  /-- the assertion of `pci_default_write_config` -/
  masks_apart : ∀ d a, wmask d a &&& w1cmask d a = 0
  ioRegions : Fin n → Nat → PCIIORegion
  msiCap : Fin n → Option Nat
  msixCap : Fin n → Option Nat
  msi_ge : ∀ d c, msiCap d = some c → PCI_CONFIG_HEADER_SIZE ≤ c
  msix_ge : ∀ d c, msixCap d = some c → PCI_CONFIG_HEADER_SIZE ≤ c

structure PCIDevice where
  config : Config
  irqState : BitVec 8

/-- `line` is the level that `set_irq` was last given -/
structure State (Bus : Type) (n : Nat) where
  dev : Fin n → PCIDevice
  irqCount : Bus → Nat → Int
  line : Bus → Nat → Bool

variable {Bus : Type} [DecidableEq Bus] {n : Nat}

def State.setDev (s : State Bus n) (d : Fin n) (D : PCIDevice) : State Bus n :=
  { s with dev := update s.dev d D }

/-! ## counters -/

def pciIrqState (D : PCIDevice) (irqNum : Nat) : Int := ((D.irqState >>> irqNum) &&& 1).toNat

def pciSetIrqState (D : PCIDevice) (irqNum : Nat) (level : Bool) : PCIDevice :=
  { D with irqState := (D.irqState &&& ~~~((1 : BitVec 8) <<< irqNum)) |||
      ((if level then (1 : BitVec 8) else 0) <<< irqNum) }

/-- the loop of `pci_change_irq_level` -/
def routeLoop (P : Platform Bus n) : Nat → Fin n → Nat → Option (Bus × Nat)
  | 0, _, _ => none
  | fuel + 1, d, irqNum =>
    let b := P.bus d
    let irqNum := P.mapIrq b d irqNum
    if P.hasSetIrq b then some (b, irqNum) else routeLoop P fuel (P.parentDev b) irqNum

/-- the bus and the input that a pin is routed to -/
def route (P : Platform Bus n) (d : Fin n) (irqNum : Nat) : Option (Bus × Nat) :=
  routeLoop P (P.depth (P.bus d) + 1) d irqNum

def pciChangeIrqLevel (P : Platform Bus n) (s : State Bus n) (d : Fin n) (irqNum : Nat)
    (change : Int) : State Bus n :=
  match route P d irqNum with
  | none => s
  | some (b, k) =>
    let count := s.irqCount b k + change
    { s with
      irqCount := fun b' k' => if b' = b ∧ k' = k then count else s.irqCount b' k'
      line := fun b' k' => if b' = b ∧ k' = k then decide (count ≠ 0) else s.line b' k' }

def pciUpdateIrqStatus (D : PCIDevice) : PCIDevice :=
  let status := D.config PCI_STATUS
  { D with config := update D.config PCI_STATUS <|
      if D.irqState ≠ 0 then status ||| PCI_STATUS_INTERRUPT
      else status &&& ~~~PCI_STATUS_INTERRUPT }

def pciIrqDisabled (D : PCIDevice) : Bool :=
  decide (pciGetWord D.config PCI_COMMAND &&& PCI_COMMAND_INTX_DISABLE ≠ 0)

def pciSetIrq (P : Platform Bus n) (s : State Bus n) (d : Fin n) (irqNum : Nat) (level : Bool) :
    State Bus n :=
  let change := (if level then 1 else 0) - pciIrqState (s.dev d) irqNum
  if change = 0 then s
  else
    let D := pciUpdateIrqStatus (pciSetIrqState (s.dev d) irqNum level)
    let s := s.setDev d D
    if pciIrqDisabled D then s else pciChangeIrqLevel P s d irqNum change

def setIrqs (P : Platform Bus n) (s : State Bus n) (calls : List (Fin n × Fin 4 × Bool)) :
    State Bus n :=
  calls.foldl (fun s c => pciSetIrq P s c.1 c.2.1 c.2.2) s

def pciDeviceDeassertIntx (P : Platform Bus n) (s : State Bus n) (d : Fin n) : State Bus n :=
  setIrqs P s ((List.finRange 4).map fun i => (d, i, false))

/-! ## writes to configuration space -/

def pciUpdateIrqDisabled (P : Platform Bus n) (s : State Bus n) (d : Fin n)
    (wasIrqDisabled : Bool) : State Bus n :=
  let disabled := pciIrqDisabled (s.dev d)
  if disabled = wasIrqDisabled then s
  else
    (List.finRange 4).foldl (fun s' (i : Fin 4) =>
      let state := pciIrqState (s.dev d) i
      pciChangeIrqLevel P s' d i (if disabled then -state else state)) s

/-- the loop over the bytes; bits of `w1cmask` are cleared by writing a one -/
def writeBytes (wmask w1cmask : Config) : Nat → Nat → BitVec 32 → Config → Config
  | 0, _, _, c => c
  | l + 1, a, val, c =>
    let v := val.setWidth 8
    let x := (c a &&& ~~~(wmask a)) ||| (v &&& wmask a)
    writeBytes wmask w1cmask l (a + 1) (val >>> 8)
      (update c a (x &&& ~~~(v &&& w1cmask a)))

def rangeCoversByte (offset len byte : Nat) : Bool :=
  decide (offset ≤ byte ∧ byte ≤ offset + len - 1)

def rangesOverlap (first1 len1 first2 len2 : Nat) : Bool :=
  !(decide (first2 + len2 - 1 < first1) || decide (first1 + len1 - 1 < first2))

def PCI_MSI_FLAGS : Nat := 2
def PCI_MSI_FLAGS_64BIT : BitVec 16 := 0x80
def PCI_MSI_FLAGS_QSIZE : BitVec 16 := 0x70
def PCI_MSI_FLAGS_QMASK : BitVec 16 := 0x0e
def PCI_MSI_FLAGS_ENABLE : BitVec 16 := 0x01
def PCI_MSI_FLAGS_MASKBIT : BitVec 16 := 0x100

def msiCapSizeof (flags : BitVec 16) : Nat :=
  if flags &&& PCI_MSI_FLAGS_MASKBIT ≠ 0 then
    if flags &&& PCI_MSI_FLAGS_64BIT ≠ 0 then 0x18 else 0x14
  else if flags &&& PCI_MSI_FLAGS_64BIT ≠ 0 then 0x0e else 0x0a

/-- `nr_vectors` might be set bigger than capable -/
def msiClamp (c : Config) (cap : Nat) : Config :=
  let flags := pciGetWord c (cap + PCI_MSI_FLAGS)
  let logNumVecs := (flags &&& PCI_MSI_FLAGS_QSIZE) >>> 4
  let logMaxVecs := (flags &&& PCI_MSI_FLAGS_QMASK) >>> 1
  if logNumVecs > logMaxVecs then
    pciSetWord c (cap + PCI_MSI_FLAGS) ((flags &&& ~~~PCI_MSI_FLAGS_QSIZE) ||| logMaxVecs <<< 4)
  else c

/-- MSI is enabled after a write to its capability: INTx interrupts are cleared -/
def msiWriteConfig (P : Platform Bus n) (s : State Bus n) (d : Fin n) (addr len : Nat) :
    State Bus n :=
  match P.msiCap d with
  | none => s
  | some cap =>
    let flags := pciGetWord (s.dev d).config (cap + PCI_MSI_FLAGS)
    if rangesOverlap addr len cap (msiCapSizeof flags) ∧ flags &&& PCI_MSI_FLAGS_ENABLE ≠ 0 then
      let s := pciDeviceDeassertIntx P s d
      s.setDev d { s.dev d with config := msiClamp (s.dev d).config cap }
    else s

/-- the byte with the enable bit of MSI-X -/
def MSIX_CONTROL_OFFSET : Nat := 3
def MSIX_ENABLE_MASK : BitVec 8 := 0x80

def msixWriteConfig (P : Platform Bus n) (s : State Bus n) (d : Fin n) (addr len : Nat) :
    State Bus n :=
  match P.msixCap d with
  | none => s
  | some cap =>
    if rangeCoversByte addr len (cap + MSIX_CONTROL_OFFSET) ∧
        (s.dev d).config (cap + MSIX_CONTROL_OFFSET) &&& MSIX_ENABLE_MASK ≠ 0 then
      pciDeviceDeassertIntx P s d
    else s

def pciDefaultWriteConfig (P : Platform Bus n) (s : State Bus n) (d : Fin n) (addr : Nat)
    (val : BitVec 32) (l : Nat) : State Bus n :=
  let wasIrqDisabled := pciIrqDisabled (s.dev d)
  let s := s.setDev d { s.dev d with
    config := writeBytes (P.wmask d) (P.w1cmask d) l addr val (s.dev d).config }
  let s := if rangeCoversByte addr l PCI_COMMAND then pciUpdateIrqDisabled P s d wasIrqDisabled
    else s
  msixWriteConfig P (msiWriteConfig P s d addr l) d addr l

/-! ## reset -/

def pciBar (c : Config) (reg : Nat) : Nat :=
  if reg ≠ PCI_ROM_SLOT then PCI_BASE_ADDRESS_0 + reg * 4
  else if c PCI_HEADER_TYPE &&& ~~~0x80 = 1 then PCI_ROM_ADDRESS1 else PCI_ROM_ADDRESS

def resetBar (r : PCIIORegion) (reg : Nat) (c : Config) : Config :=
  if r.size = 0 then c
  else if r.type &&& 0x01 = 0 ∧ r.type &&& 0x04 ≠ 0 then
    pciSetQuad c (pciBar c reg) (r.type.setWidth 64)
  else pciSetLong c (pciBar c reg) (r.type.setWidth 32)

def msiReset (c : Config) (cap : Nat) : Config :=
  let flags := pciGetWord c (cap + PCI_MSI_FLAGS) &&&
    ~~~(PCI_MSI_FLAGS_QSIZE ||| PCI_MSI_FLAGS_ENABLE)
  let wide := flags &&& PCI_MSI_FLAGS_64BIT ≠ 0
  let c := pciSetWord c (cap + PCI_MSI_FLAGS) flags
  let c := pciSetLong c (cap + 4) 0
  let c := if wide then pciSetLong c (cap + 8) 0 else c
  let c := pciSetWord c (cap + if wide then 12 else 8) 0
  if flags &&& PCI_MSI_FLAGS_MASKBIT ≠ 0 then
    pciSetLong (pciSetLong c (cap + if wide then 16 else 12) 0)
      (cap + if wide then 0x14 else 0x10) 0
  else c

/-- what a reset leaves in the configuration space -/
def resetConfig (P : Platform Bus n) (d : Fin n) (c : Config) : Config :=
  let c := pciWordTestAndClearMask c PCI_COMMAND
    (pciGetWord (P.wmask d) PCI_COMMAND ||| pciGetWord (P.w1cmask d) PCI_COMMAND)
  let c := pciWordTestAndClearMask c PCI_STATUS
    (pciGetWord (P.wmask d) PCI_STATUS ||| pciGetWord (P.w1cmask d) PCI_STATUS)
  let c := update c PCI_CACHE_LINE_SIZE 0
  let c := update c PCI_INTERRUPT_LINE 0
  let c := (List.range PCI_NUM_REGIONS).foldl (fun c r => resetBar (P.ioRegions d r) r c) c
  let c := match P.msiCap d with
    | none => c
    | some cap => msiReset c cap
  match P.msixCap d with
  | none => c
  | some cap => update c (cap + MSIX_CONTROL_OFFSET)
      (c (cap + MSIX_CONTROL_OFFSET) &&& ~~~(P.wmask d (cap + MSIX_CONTROL_OFFSET)))

/-- `handler` are the calls of `pci_set_irq` that the device's own reset function makes from
`qdev_reset_all` -/
def pciDeviceReset (P : Platform Bus n) (s : State Bus n) (d : Fin n)
    (handler : List (Fin n × Fin 4 × Bool)) : State Bus n :=
  let s := setIrqs P s handler
  let s := s.setDev d (pciUpdateIrqStatus { s.dev d with irqState := 0 })
  let s := pciDeviceDeassertIntx P s d
  s.setDev d { s.dev d with config := resetConfig P d (s.dev d).config }

/-! ## calls -/

inductive Op (n : Nat) where
  | setIrq (d : Fin n) (pin : Fin 4) (level : Bool)
  | writeConfig (d : Fin n) (addr : Nat) (val : BitVec 32) (len : Nat)
      (hlen : len = 1 ∨ len = 2 ∨ len = 4)
  | reset (d : Fin n) (handler : List (Fin n × Fin 4 × Bool))

def Op.exec (P : Platform Bus n) : Op n → State Bus n → State Bus n
  | .setIrq d pin level, s => pciSetIrq P s d pin level
  | .writeConfig d addr val len _, s => pciDefaultWriteConfig P s d addr val len
  | .reset d handler, s => pciDeviceReset P s d handler

/-- registered devices, no pin asserted -/
def State.init (config : Fin n → Config) : State Bus n where
  dev d := ⟨config d, 0⟩
  irqCount _ _ := 0
  line _ _ := false

end Pci
