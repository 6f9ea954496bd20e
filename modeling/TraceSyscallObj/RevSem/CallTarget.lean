import TraceSyscallObj.RevSem.Vcpu

/-!
# The target of a near call (`disas.c`, `parse_operand.c`)

Three functions compute where a near `CALL` goes, each with its own routine for the effective
address.  They differ in the segment base that they add.

* `Decoded`: what the decoder reports about an instruction;
* `instrumentCALLNEAR`: adds the base of the operand's segment register;
* `disasGetTarget`: adds no base;
* `getCallDest`: adds the base of an override only;
* `callTargets_agree_iff`: when the three agree.

A target that is read from memory is left in an uninitialised local if the read fails; what such a
local holds is the parameter `stale`.
-/

namespace RevSem

/-- a memory operand; `none` is `XED_REG_INVALID`.  Without an override the segment is that of the
data or of the stack. -/
structure MemOperand where
  baseReg : Option Gpr
  indexReg : Option Gpr
  scale : BitVec 64
  displacement : BitVec 64
  segReg : Option SegReg
  defaultSegment : Bool
  segReg_default : defaultSegment = true → segReg = none ∨ segReg = some .ds ∨ segReg = some .ss

/-- `xed_operand_enum_t` -/
inductive OpName where
  | agen
  | mem0
  | mem1
  | reg (n : Fin 16)
  | ptr
  | relbr
  | other (n : Nat)
  deriving DecidableEq, Repr

/-- `PEMU_xedd_g` after `xed_decode`; `opName` is that of operand 0 -/
structure Decoded where
  callNear : Bool
  opName : OpName
  reg : Gpr
  branchDisplacement : BitVec 32
  length : BitVec 32
  mem : Fin 2 → MemOperand

/-- `mem_idx`, where the operand is in memory -/
def OpName.memIdx : OpName → Option (Fin 2)
  | .agen | .mem0 => some 0
  | .mem1 => some 1
  | _ => none

def OpName.isReg : OpName → Bool
  | .reg _ => true
  | _ => false

def OpName.isRelbr : OpName → Bool
  | .ptr | .relbr => true
  | _ => false

/-- `PEMU_get_reg` -/
def Vcpu.getReg (g : Vcpu) : Option Gpr → BitVec 32
  | none => 0
  | some r => g.regs r

/-- `PEMU_get_seg` -/
def Vcpu.getSeg (g : Vcpu) : Option SegReg → BitVec 32
  | none => 0
  | some s => g.segBase s

/-- `index * scale`: only the first memory operand has an index, and the scale of operand 0 decides
whether there is one -/
def indexScale (g : Vcpu) (d : Decoded) (idx : Fin 2) : BitVec 64 :=
  if idx = 0 ∧ (d.mem idx).indexReg ≠ none then
    (g.getReg (d.mem idx).indexReg).setWidth 64 *
      (if (d.mem 0).scale ≠ 0 then (d.mem idx).scale else 0)
  else 0

/-- `segbase + base + index * scale + displacement`, in an `unsigned long` -/
def memAddr (g : Vcpu) (d : Decoded) (idx : Fin 2) (segbase : BitVec 32) : Addr :=
  (segbase.setWidth 64 + (g.getReg (d.mem idx).baseReg).setWidth 64 + indexScale g d idx +
    (d.mem idx).displacement).setWidth 32

/-- `operand_is_mem4` of `disas.c` -/
def operandIsMem4 (g : Vcpu) (d : Decoded) (idx : Fin 2) : Addr := memAddr g d idx 0

/-- the static `operand_is_mem` of `disas.c` -/
def operandIsMemDisas (g : Vcpu) (d : Decoded) (idx : Fin 2) : Addr :=
  memAddr g d idx (g.getSeg (d.mem idx).segReg)

/-- `operand_is_mem` of `parse_operand.c` -/
def operandIsMem (g : Vcpu) (d : Decoded) (idx : Fin 2) : Addr :=
  memAddr g d idx (if (d.mem idx).defaultSegment then 0 else g.getSeg (d.mem idx).segReg)

def instrumentCALLNEAR (g : Vcpu) (d : Decoded) (pc stale : BitVec 32) : BitVec 32 :=
  match d.opName.memIdx with
  | some idx => (pemuReadMem g.mem (operandIsMemDisas g d idx) stale).2
  | none =>
    if d.opName.isReg then g.regs d.reg else d.branchDisplacement + pc + d.length

def disasGetTarget (g : Vcpu) (d : Decoded) (pc stale : BitVec 32) : BitVec 32 :=
  if d.callNear = false then 0
  else if d.opName.isRelbr then d.branchDisplacement + (pc + d.length)
  else if d.opName.isReg then g.regs d.reg
  else
    match d.opName.memIdx with
    | some idx => (pemuReadMem g.mem (operandIsMem4 g d idx) stale).2
    | none => stale

def getCallDest (g : Vcpu) (d : Decoded) (pc stale : BitVec 32) : BitVec 32 :=
  match d.opName.memIdx with
  | some idx => (pemuReadMem g.mem (operandIsMem g d idx) stale).2
  | none =>
    if d.opName.isReg then g.regs d.reg
    else if d.opName.isRelbr then d.branchDisplacement + (pc + d.length)
    else 0

/-- the operand of a near call: relative, a register or memory -/
structure NearCall (d : Decoded) : Prop where
  iclass : d.callNear = true
  operand : d.opName = .relbr ∨ (∃ n, d.opName = .reg n) ∨ d.opName = .mem0

/-- the segments of data and stack start at 0 -/
structure Vcpu.ZeroBased (g : Vcpu) : Prop where
  ds : g.segBase .ds = 0
  ss : g.segBase .ss = 0

/-- the three targets are one, whatever the uninitialised locals hold -/
def CallTargetsAgree (g : Vcpu) (d : Decoded) (pc : BitVec 32) : Prop :=
  ∀ s₁ s₂ s₃, instrumentCALLNEAR g d pc s₁ = disasGetTarget g d pc s₂ ∧
    disasGetTarget g d pc s₂ = getCallDest g d pc s₃

/-- the word that a memory operand names is there with and without the segment base, and the same -/
def SegmentHarmless (g : Vcpu) (d : Decoded) : Prop :=
  d.opName = .mem0 → ∃ w, g.mem.word (memAddr g d 0 0) = some w ∧
    g.mem.word (memAddr g d 0 (g.getSeg (d.mem 0).segReg)) = some w

section
variable {g : Vcpu} {d : Decoded} {m : Pages} {a b : Addr}

lemma reads_agree_iff : (∀ s t, (pemuReadMem m a s).2 = (pemuReadMem m b t).2) ↔
    ∃ w, m.word a = some w ∧ m.word b = some w := by
  constructor
  · intro h
    cases ha : m.word a with
    | none =>
      -- the highest byte of `s` shows in the result
      have h0 := (pemuReadMem_none ha 0).2
      have h1 := (pemuReadMem_none ha 0xff000000).2
      rw [h 0 0] at h0
      rw [h 0xff000000 0, h0] at h1
      exact absurd h1 (by decide)
    | some w =>
      cases hb : m.word b with
      | none =>
        have h0 := (pemuReadMem_none hb 0).2
        have h1 := (pemuReadMem_none hb 0xff000000).2
        rw [← h 0 0] at h0
        rw [← h 0 0xff000000, h0] at h1
        exact absurd h1 (by decide)
      | some v =>
        have hwv := h 0 0
        rw [pemuReadMem_some ha, pemuReadMem_some hb] at hwv
        exact ⟨w, rfl, congrArg some hwv.symm⟩
  · rintro ⟨w, ha, hb⟩ s t
    rw [pemuReadMem_some ha, pemuReadMem_some hb]

lemma operandIsMem_eq (hz : g.ZeroBased) (idx : Fin 2) :
    operandIsMem g d idx = operandIsMemDisas g d idx := by
  unfold operandIsMem operandIsMemDisas
  by_cases hdef : (d.mem idx).defaultSegment = true
  · have hbase : g.getSeg (d.mem idx).segReg = 0 := by
      rcases (d.mem idx).segReg_default hdef with h | h | h
      · rw [h]
        rfl
      · rw [h]
        exact hz.ds
      · rw [h]
        exact hz.ss
    rw [if_pos hdef, hbase]
  · rw [if_neg hdef]

end

/-- **the three targets of a near call agree exactly if a memory operand names the same readable
word with and without the base of its segment** -/
theorem callTargets_agree_iff (g : Vcpu) (d : Decoded) (pc : BitVec 32) (hz : g.ZeroBased)
    (hcall : NearCall d) : CallTargetsAgree g d pc ↔ SegmentHarmless g d := by
  unfold CallTargetsAgree SegmentHarmless
  rcases hcall.operand with hop | ⟨n, hop⟩ | hop
  · have hsum : d.branchDisplacement + pc + d.length = d.branchDisplacement + (pc + d.length) :=
      BitVec.add_assoc _ _ _
    simp [instrumentCALLNEAR, disasGetTarget, getCallDest, hop, hcall.iclass, OpName.memIdx,
      OpName.isReg, OpName.isRelbr, hsum]
  · simp [instrumentCALLNEAR, disasGetTarget, getCallDest, hop, hcall.iclass, OpName.memIdx,
      OpName.isReg, OpName.isRelbr]
  · have h₁ : ∀ s, instrumentCALLNEAR g d pc s =
        (pemuReadMem g.mem (operandIsMemDisas g d 0) s).2 := by
      intro s
      simp [instrumentCALLNEAR, hop, OpName.memIdx]
    have h₂ : ∀ s, disasGetTarget g d pc s = (pemuReadMem g.mem (operandIsMem4 g d 0) s).2 := by
      intro s
      simp [disasGetTarget, hop, hcall.iclass, OpName.memIdx, OpName.isReg, OpName.isRelbr]
    have h₃ : ∀ s, getCallDest g d pc s = (pemuReadMem g.mem (operandIsMemDisas g d 0) s).2 := by
      intro s
      simp [getCallDest, hop, OpName.memIdx, operandIsMem_eq hz]
    rw [forall_prop_of_true hop]
    rw [← reads_agree_iff]
    constructor
    · intro h s t
      have := (h 0 s t).2
      rwa [h₂, h₃] at this
    · intro h s₁ s₂ s₃
      rw [h₁, h₂, h₃]
      exact ⟨(h s₂ s₁).symm, h s₂ s₃⟩

/-- `call *%fs:0x10`, and `call *0x10` -/
def callThrough (seg : SegReg) (dflt : Bool) (h : dflt = true → seg = .ds) : Decoded where
  callNear := true
  opName := .mem0
  reg := .eax
  branchDisplacement := 0
  length := 7
  mem _ := ⟨none, none, 0, 0x10, some seg, dflt, fun hd => .inr (.inl (congrArg some (h hd)))⟩

/-- the segment `fs` starts at `0x1000`; the words at `0x10` and `0x1010` differ -/
def fsGuest : Vcpu where
  regs _ := 0
  segBase s := if s = .fs then 0x1000 else 0
  mem n := if n = 0 then some fun _ => 0x11 else if n = 1 then some fun _ => 0x22 else none

theorem callTargets_agree_ds : CallTargetsAgree fsGuest (callThrough .ds true fun _ => rfl) 0 :=
  (callTargets_agree_iff fsGuest (callThrough .ds true fun _ => rfl) 0 ⟨by decide, by decide⟩
    ⟨rfl, .inr (.inr rfl)⟩).mpr fun _ => ⟨0x11111111, by decide +kernel, by decide +kernel⟩

/-- through an override the targets differ -/
theorem callTargets_differ : fsGuest.ZeroBased ∧
    NearCall (callThrough .fs false fun h => by cases h) ∧
    instrumentCALLNEAR fsGuest (callThrough .fs false fun h => by cases h) 0 0 = 0x22222222 ∧
    disasGetTarget fsGuest (callThrough .fs false fun h => by cases h) 0 0 = 0x11111111 ∧
    getCallDest fsGuest (callThrough .fs false fun h => by cases h) 0 0 = 0x22222222 :=
  ⟨⟨by decide, by decide⟩, ⟨rfl, .inr (.inr rfl)⟩, by decide +kernel, by decide +kernel,
    by decide +kernel⟩

end RevSem
