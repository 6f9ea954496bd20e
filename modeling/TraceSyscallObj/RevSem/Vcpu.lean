import Mathlib
import TraceSyscallObj.RevSem.Shadow

/-!
# The guest as the plugin reads it (`qemu-pemu.c`)

Registers, segment bases and memory of the first CPU.  A read of memory may fail half way: what was
copied until then stays in the buffer.

* `cpuMemoryRwDebug`: the copy, up to the first page that is not mapped;
* `pemuReadMem`: four bytes read into a variable that holds `buf`;
* `pemuReadMem_some`, `pemuReadMem_none`: its result for a word that is there, and otherwise.
-/

namespace RevSem

abbrev Byte := BitVec 8

/-- guest memory: a page is mapped or not -/
abbrev Pages := BitVec 20 → Option (BitVec 12 → Byte)

def Pages.byte (m : Pages) (a : Addr) : Option Byte :=
  (m (a.extractLsb' 12 20)).map fun page => page (a.extractLsb' 0 12)

/-- `cpu_memory_rw_debug(first_cpu, addr, buf, len, 0)`; the first component is whether it returns
0.  The code copies page by page: the bytes before the first unmapped page are copied. -/
def cpuMemoryRwDebug (m : Pages) : Addr → List Byte → Bool × List Byte
  | _, [] => (true, [])
  | addr, b :: buf =>
    match m.byte addr with
    | none => (false, b :: buf)
    | some c => ((cpuMemoryRwDebug m (addr + 1) buf).1, c :: (cpuMemoryRwDebug m (addr + 1) buf).2)

/-- the bytes of a variable, the lowest first -/
def bytesOf (w : BitVec 32) : List Byte :=
  [w.extractLsb' 0 8, w.extractLsb' 8 8, w.extractLsb' 16 8, w.extractLsb' 24 8]

def ofBytes : List Byte → BitVec 32
  | [b0, b1, b2, b3] => b3 ++ b2 ++ b1 ++ b0
  | _ => 0

/-- `PEMU_read_mem(vaddr, 4, &buf)` -/
def pemuReadMem (m : Pages) (vaddr : Addr) (buf : BitVec 32) : Bool × BitVec 32 :=
  let r := cpuMemoryRwDebug m vaddr (bytesOf buf)
  (r.1, ofBytes r.2)

/-- the word at an address, if all of it is mapped -/
def Pages.word (m : Pages) (a : Addr) : Option (BitVec 32) := do
  let b0 ← m.byte a
  let b1 ← m.byte (a + 1)
  let b2 ← m.byte (a + 1 + 1)
  let b3 ← m.byte (a + 1 + 1 + 1)
  pure (b3 ++ b2 ++ b1 ++ b0)

inductive Gpr where
  | eax | ecx | edx | ebx | esp | ebp | esi | edi
  deriving DecidableEq, Repr

inductive SegReg where
  | es | cs | ss | ds | fs | gs
  deriving DecidableEq, Repr

/-- `first_cpu->env_ptr` -/
structure Vcpu where
  regs : Gpr → BitVec 32
  segBase : SegReg → BitVec 32
  mem : Pages

variable {m : Pages} {a : Addr} {buf w : BitVec 32}

lemma pemuReadMem_some (h : m.word a = some w) : pemuReadMem m a buf = (true, w) := by
  obtain ⟨b0, h0, h⟩ := Option.bind_eq_some_iff.mp h
  obtain ⟨b1, h1, h⟩ := Option.bind_eq_some_iff.mp h
  obtain ⟨b2, h2, h⟩ := Option.bind_eq_some_iff.mp h
  obtain ⟨b3, h3, h⟩ := Option.bind_eq_some_iff.mp h
  injection h with h
  simp only [pemuReadMem, bytesOf, cpuMemoryRwDebug, h0, h1, h2, h3, ofBytes, h]

lemma ofBytes_high (b0 b1 b2 b3 : Byte) : (ofBytes [b0, b1, b2, b3]).extractLsb' 24 8 = b3 := by
  refine BitVec.eq_of_getLsbD_eq fun i hi => ?_
  simp only [ofBytes, BitVec.getLsbD_extractLsb', BitVec.getLsbD_append, hi, decide_true,
    Bool.true_and]
  have h0 : ¬ 24 + i < 8 := by omega
  have h1 : ¬ 24 + i - 8 < 8 := by omega
  have h2 : ¬ 24 + i - 8 - 8 < 8 := by omega
  have h3 : 24 + i - 8 - 8 - 8 = i := by omega
  rw [if_neg h0, if_neg h1, if_neg h2, h3]

lemma pemuReadMem_none (h : m.word a = none) (buf : BitVec 32) :
    (pemuReadMem m a buf).1 = false ∧
      (pemuReadMem m a buf).2.extractLsb' 24 8 = buf.extractLsb' 24 8 := by
  unfold pemuReadMem bytesOf
  unfold Pages.word at h
  cases h0 : m.byte a with
  | none =>
    simp only [cpuMemoryRwDebug, h0, true_and]
    exact ofBytes_high _ _ _ _
  | some b0 =>
    cases h1 : m.byte (a + 1) with
    | none =>
      simp only [cpuMemoryRwDebug, h0, h1, true_and]
      exact ofBytes_high _ _ _ _
    | some b1 =>
      cases h2 : m.byte (a + 1 + 1) with
      | none =>
        simp only [cpuMemoryRwDebug, h0, h1, h2, true_and]
        exact ofBytes_high _ _ _ _
      | some b2 =>
        cases h3 : m.byte (a + 1 + 1 + 1) with
        | none =>
          simp only [cpuMemoryRwDebug, h0, h1, h2, h3, true_and]
          exact ofBytes_high _ _ _ _
        | some b3 =>
          rw [h0, h1, h2, h3] at h
          cases h

end RevSem
