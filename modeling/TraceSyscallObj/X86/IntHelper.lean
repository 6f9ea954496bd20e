import TraceSyscallObj.X86.CcHelper
import Mathlib.Logic.Function.Iterate

/-!
# Division

Model of the division helpers of `int_helper.c`.  Registers are `target_ulong`.  A C division whose
result its type cannot hold, or by zero, is `undefined`; everything else wraps.

* `helperDivbAL`, ..., `helperIdivlEAX`: by host divisions;
* `div64`, `idiv64`: 128 bits by 64 bits;
* `DivOp.run`: the helpers together.
-/

namespace X86

inductive DivFault
  /-- `raise_exception(env, EXCP00_DIVZ)` -/
  | divz
  /-- the program has no meaning in C -/
  | undefined
  deriving DecidableEq

/-- `R_EAX` and `R_EDX` -/
structure Regs (t : Target) where
  eax : TargetUlong t
  edx : TargetUlong t
  deriving DecidableEq

/-! ## divisions of C -/

section
variable {w : Nat} (a b : BitVec w)

def udiv : Except DivFault (BitVec w) := if b = 0 then .error .undefined else .ok (a / b)
def umod : Except DivFault (BitVec w) := if b = 0 then .error .undefined else .ok (a % b)

/-- the quotient does not fit if the least number is divided by -1, and the remainder is defined
only when the quotient is -/
def sdiv : Except DivFault (BitVec w) :=
  if b = 0 ∨ (a = BitVec.intMin w ∧ b = -1) then .error .undefined else .ok (a.sdiv b)
def smod : Except DivFault (BitVec w) :=
  if b = 0 ∨ (a = BitVec.intMin w ∧ b = -1) then .error .undefined else .ok (a.srem b)
end

/-! ## 8, 16 and 32 bits -/

section
variable {t : Target} (env : Regs t) (t0 : TargetUlong t)

/-- the low 16 bits are `r` and `q` -/
def storeByte (q r : BitVec 32) : Regs t :=
  { env with
    eax := (env.eax &&& ~~~(0xffff : TargetUlong t)) ||| (r <<< 8).setWidth t.bits |||
      q.setWidth t.bits }

def storeWord (q r : BitVec 32) : Regs t where
  eax := (env.eax &&& ~~~(0xffff : TargetUlong t)) ||| q.setWidth t.bits
  edx := (env.edx &&& ~~~(0xffff : TargetUlong t)) ||| r.setWidth t.bits

def helperDivbAL : Except DivFault (Regs t) := do
  let num : BitVec 32 := env.eax.setWidth 32 &&& 0xffff
  let den : BitVec 32 := t0.setWidth 32 &&& 0xff
  if den = 0 then .error .divz
  let q ← udiv num den
  if q > 0xff then .error .divz
  let q := q &&& 0xff
  let r := (← umod num den) &&& 0xff
  return storeByte env q r

def helperIdivbAL : Except DivFault (Regs t) := do
  let num : BitVec 32 := (env.eax.setWidth 16).signExtend 32
  let den : BitVec 32 := (t0.setWidth 8).signExtend 32
  if den = 0 then .error .divz
  let q ← sdiv num den
  if q ≠ (q.setWidth 8).signExtend 32 then .error .divz
  let q := q &&& 0xff
  let r := (← smod num den) &&& 0xff
  return storeByte env q r

def helperDivwAX : Except DivFault (Regs t) := do
  let num : BitVec 32 :=
    ((env.eax &&& (0xffff : TargetUlong t)) ||| (env.edx &&& (0xffff : TargetUlong t)) <<< 16).setWidth 32
  let den : BitVec 32 := t0.setWidth 32 &&& 0xffff
  if den = 0 then .error .divz
  let q ← udiv num den
  if q > 0xffff then .error .divz
  let q := q &&& 0xffff
  let r := (← umod num den) &&& 0xffff
  return storeWord env q r

def helperIdivwAX : Except DivFault (Regs t) := do
  let num : BitVec 32 :=
    ((env.eax &&& (0xffff : TargetUlong t)) ||| (env.edx &&& (0xffff : TargetUlong t)) <<< 16).setWidth 32
  let den : BitVec 32 := (t0.setWidth 16).signExtend 32
  if den = 0 then .error .divz
  let q ← sdiv num den
  if q ≠ (q.setWidth 16).signExtend 32 then .error .divz
  let q := q &&& 0xffff
  let r := (← smod num den) &&& 0xffff
  return storeWord env q r

def helperDivlEAX : Except DivFault (Regs t) := do
  let num : BitVec 64 :=
    (env.eax.setWidth 32).setWidth 64 ||| (env.edx.setWidth 32).setWidth 64 <<< 32
  let den : BitVec 32 := t0.setWidth 32
  if den = 0 then .error .divz
  let q ← udiv num (den.setWidth 64)
  let r : BitVec 32 := (← umod num (den.setWidth 64)).setWidth 32
  if q > 0xffffffff then .error .divz
  return { eax := (q.setWidth 32).setWidth t.bits, edx := r.setWidth t.bits }

def helperIdivlEAX : Except DivFault (Regs t) := do
  let num : BitVec 64 :=
    (env.eax.setWidth 32).setWidth 64 ||| (env.edx.setWidth 32).setWidth 64 <<< 32
  let den : BitVec 32 := t0.setWidth 32
  if den = 0 then .error .divz
  let q ← sdiv num (den.signExtend 64)
  let r : BitVec 32 := (← smod num (den.signExtend 64)).setWidth 32
  if q ≠ (q.setWidth 32).signExtend 64 then .error .divz
  return { eax := (q.setWidth 32).setWidth t.bits, edx := r.setWidth t.bits }
end

/-! ## 64 bits -/

structure Pair where
  low : BitVec 64
  high : BitVec 64
  deriving DecidableEq

def add128 (p : Pair) (a b : BitVec 64) : Pair :=
  let low := p.low + a
  let high := if low < a then p.high + 1 else p.high
  { low := low, high := high + b }

def neg128 (p : Pair) : Pair := add128 { low := ~~~p.low, high := ~~~p.high } 1 0

/-- one turn of the loop in `div64`; `low` is `a0` and `high` is `a1` -/
def div64Step (b : BitVec 64) (p : Pair) : Pair :=
  let ab := p.high >>> 63
  let a1 := p.high <<< 1 ||| p.low >>> 63
  if ab ≠ 0 ∨ a1 ≥ b then { low := p.low <<< 1 ||| 1, high := a1 - b }
  else { low := p.low <<< 1 ||| 0, high := a1 }

/-- `none` for overflow -/
def div64 (p : Pair) (b : BitVec 64) : Except DivFault (Option Pair) :=
  if p.high = 0 then do
    let q ← udiv p.low b
    let r ← umod p.low b
    return some { low := q, high := r }
  else if p.high ≥ b then return none
  else return some ((div64Step b)^[64] p)

def idiv64 (p : Pair) (b : BitVec 64) : Except DivFault (Option Pair) := do
  let sa := p.high.slt 0
  let p := if sa then neg128 p else p
  let sb := b.slt 0
  let b := if sb then -b else b
  match ← div64 p b with
  | none => return none
  | some p =>
    if sa ^^ sb then
      if p.low > (1 : BitVec 64) <<< 63 then return none
      return some { low := -p.low, high := if sa then -p.high else p.high }
    else
      if p.low ≥ (1 : BitVec 64) <<< 63 then return none
      return some { low := p.low, high := if sa then -p.high else p.high }

section
variable (env : Regs .x86_64) (t0 : BitVec 64)

def storePair (p : Option Pair) : Except DivFault (Regs .x86_64) :=
  match p with
  | none => .error .divz
  | some p => .ok { eax := p.low, edx := p.high }

def helperDivqEAX : Except DivFault (Regs .x86_64) := do
  if t0 = 0 then .error .divz
  storePair (← div64 { low := env.eax, high := env.edx } t0)

def helperIdivqEAX : Except DivFault (Regs .x86_64) := do
  if t0 = 0 then .error .divz
  storePair (← idiv64 { low := env.eax, high := env.edx } t0)
end

/-! ## the helpers -/

inductive DivOp : Target → Type
  | divb {t : Target} : DivOp t
  | idivb {t : Target} : DivOp t
  | divw {t : Target} : DivOp t
  | idivw {t : Target} : DivOp t
  | divl {t : Target} : DivOp t
  | idivl {t : Target} : DivOp t
  | divq : DivOp .x86_64
  | idivq : DivOp .x86_64

def DivOp.run {t : Target} : DivOp t → Regs t → TargetUlong t → Except DivFault (Regs t)
  | .divb, env, t0 => helperDivbAL env t0
  | .idivb, env, t0 => helperIdivbAL env t0
  | .divw, env, t0 => helperDivwAX env t0
  | .idivw, env, t0 => helperIdivwAX env t0
  | .divl, env, t0 => helperDivlEAX env t0
  | .idivl, env, t0 => helperIdivlEAX env t0
  | .divq, env, t0 => helperDivqEAX env t0
  | .idivq, env, t0 => helperIdivqEAX env t0

end X86
