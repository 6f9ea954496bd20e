import Mathlib.Algebra.Group.Int.Defs
import Mathlib.Algebra.Group.Nat.Defs
import Mathlib.Tactic.Common

/-!
# Condition codes

Model of `cc_helper.c` and of `cc_helper_template.h` for the targets i386 and x86_64.  The template
is instantiated for operands of `w` bits; an `int` is a `BitVec 32`, a `target_ulong` is as wide as
the target.  An argument of type `target_ulong` is cut to `DATA_TYPE` by the call.

* `computeAllAdd`, ...: `compute_all_add` and the other functions of the template;
* `helperCcComputeAll`: all flags of a stored operation;
* `helperCcComputeC`: the carry alone.
-/

namespace X86

inductive Target
  | i386
  | x86_64
  deriving DecidableEq

def Target.bits : Target → Nat
  | .i386 => 32
  | .x86_64 => 64

abbrev TargetUlong (t : Target) := BitVec t.bits

def CC_C : BitVec 32 := 0x0001
def CC_P : BitVec 32 := 0x0004
def CC_A : BitVec 32 := 0x0010
def CC_Z : BitVec 32 := 0x0040
def CC_S : BitVec 32 := 0x0080
def CC_O : BitVec 32 := 0x0800

/-- the entries are `CC_P` and 0 -/
def parityTable : List (BitVec 32) := [
    4, 0, 0, 4, 0, 4, 4, 0,
    0, 4, 4, 0, 4, 0, 0, 4,
    0, 4, 4, 0, 4, 0, 0, 4,
    4, 0, 0, 4, 0, 4, 4, 0,
    0, 4, 4, 0, 4, 0, 0, 4,
    4, 0, 0, 4, 0, 4, 4, 0,
    4, 0, 0, 4, 0, 4, 4, 0,
    0, 4, 4, 0, 4, 0, 0, 4,
    0, 4, 4, 0, 4, 0, 0, 4,
    4, 0, 0, 4, 0, 4, 4, 0,
    4, 0, 0, 4, 0, 4, 4, 0,
    0, 4, 4, 0, 4, 0, 0, 4,
    4, 0, 0, 4, 0, 4, 4, 0,
    0, 4, 4, 0, 4, 0, 0, 4,
    0, 4, 4, 0, 4, 0, 0, 4,
    4, 0, 0, 4, 0, 4, 4, 0,
    0, 4, 4, 0, 4, 0, 0, 4,
    4, 0, 0, 4, 0, 4, 4, 0,
    4, 0, 0, 4, 0, 4, 4, 0,
    0, 4, 4, 0, 4, 0, 0, 4,
    4, 0, 0, 4, 0, 4, 4, 0,
    0, 4, 4, 0, 4, 0, 0, 4,
    0, 4, 4, 0, 4, 0, 0, 4,
    4, 0, 0, 4, 0, 4, 4, 0,
    4, 0, 0, 4, 0, 4, 4, 0,
    0, 4, 4, 0, 4, 0, 0, 4,
    0, 4, 4, 0, 4, 0, 0, 4,
    4, 0, 0, 4, 0, 4, 4, 0,
    0, 4, 4, 0, 4, 0, 0, 4,
    4, 0, 0, 4, 0, 4, 4, 0,
    4, 0, 0, 4, 0, 4, 4, 0,
    0, 4, 4, 0, 4, 0, 0, 4]

def lshift (t : Target) (x : TargetUlong t) (n : Int) : TargetUlong t :=
  if n ≥ 0 then x <<< n.toNat else x.sshiftRight (-n).toNat

/-- a comparison as an `int` -/
def int (b : Bool) : BitVec 32 := if b then 1 else 0

section
variable {w : Nat}

/-- `parity_table[(uint8_t)dst]` -/
def pfOf (dst : BitVec w) : BitVec 32 := parityTable.getD (dst.toNat % 256) 0

/-- `(dst == 0) * CC_Z`, also written as `(dst == 0) << 6` -/
def zfOf (dst : BitVec w) : BitVec 32 := int (dst == 0) * CC_Z

/-- `lshift(dst, 8 - DATA_BITS) & CC_S` -/
def sfOf (t : Target) (dst : BitVec w) : BitVec 32 :=
  (lshift t (dst.setWidth t.bits) (8 - w)).setWidth 32 &&& CC_S

/-- `lshift(x, 12 - DATA_BITS) & CC_O` -/
def ofOf (t : Target) (x : BitVec w) : BitVec 32 :=
  (lshift t (x.setWidth t.bits) (12 - w)).setWidth 32 &&& CC_O

/-- `(dst ^ src1 ^ src2) & CC_A` -/
def afOf (dst src1 src2 : BitVec w) : BitVec 32 := (dst ^^^ src1 ^^^ src2).setWidth 32 &&& CC_A

def signMask : BitVec w := (1 : BitVec w) <<< (w - 1)

/-! ## the template -/

variable (t : Target)

def computeAllAdd (dst src1 : BitVec w) : BitVec 32 :=
  let src2 := dst - src1
  let cf := int (dst < src1)
  cf ||| pfOf dst ||| afOf dst src1 src2 ||| zfOf dst ||| sfOf t dst |||
    ofOf t ((src1 ^^^ src2 ^^^ -1) &&& (src1 ^^^ dst))

def computeCAdd (dst src1 : BitVec w) : BitVec 32 := int (dst < src1)

def computeAllAdc (dst src1 src3 : BitVec w) : BitVec 32 :=
  let src2 := dst - src1 - src3
  let cf := int (if src3 ≠ 0 then dst ≤ src1 else dst < src1)
  cf ||| pfOf dst ||| afOf dst src1 src2 ||| zfOf dst ||| sfOf t dst |||
    ofOf t ((src1 ^^^ src2 ^^^ -1) &&& (src1 ^^^ dst))

def computeCAdc (dst src1 src3 : BitVec w) : BitVec 32 :=
  int (if src3 ≠ 0 then dst ≤ src1 else dst < src1)

def computeAllSub (dst src2 : BitVec w) : BitVec 32 :=
  let src1 := dst + src2
  let cf := int (src1 < src2)
  cf ||| pfOf dst ||| afOf dst src1 src2 ||| zfOf dst ||| sfOf t dst |||
    ofOf t ((src1 ^^^ src2) &&& (src1 ^^^ dst))

def computeCSub (dst src2 : BitVec w) : BitVec 32 :=
  let src1 := dst + src2
  int (src1 < src2)

def computeAllSbb (dst src2 src3 : BitVec w) : BitVec 32 :=
  let src1 := dst + src2 + src3
  let cf := int (if src3 ≠ 0 then src1 ≤ src2 else src1 < src2)
  cf ||| pfOf dst ||| afOf dst src1 src2 ||| zfOf dst ||| sfOf t dst |||
    ofOf t ((src1 ^^^ src2) &&& (src1 ^^^ dst))

def computeCSbb (dst src2 src3 : BitVec w) : BitVec 32 :=
  let src1 := dst + src2 + src3
  int (if src3 ≠ 0 then src1 ≤ src2 else src1 < src2)

def computeAllLogic (dst : BitVec w) : BitVec 32 := pfOf dst ||| zfOf dst ||| sfOf t dst

def computeAllInc (dst src1 : BitVec w) : BitVec 32 :=
  let cf := src1.setWidth 32
  let src1 := dst - 1
  let src2 := 1
  cf ||| pfOf dst ||| afOf dst src1 src2 ||| zfOf dst ||| sfOf t dst |||
    int (dst == signMask) * CC_O

def computeAllDec (dst src1 : BitVec w) : BitVec 32 :=
  let cf := src1.setWidth 32
  let src1 := dst + 1
  let src2 := 1
  cf ||| pfOf dst ||| afOf dst src1 src2 ||| zfOf dst ||| sfOf t dst |||
    int (dst == signMask - 1) * CC_O

def computeCShl (src1 : BitVec w) : BitVec 32 := (src1 >>> (w - 1)).setWidth 32 &&& CC_C

def computeAllShl (dst src1 : BitVec w) : BitVec 32 :=
  computeCShl src1 ||| pfOf dst ||| zfOf dst ||| sfOf t dst ||| ofOf t (src1 ^^^ dst)

def computeAllSar (dst src1 : BitVec w) : BitVec 32 :=
  src1.setWidth 32 &&& 1 ||| pfOf dst ||| zfOf dst ||| sfOf t dst ||| ofOf t (src1 ^^^ dst)

/-- `src1` is not cut to `DATA_TYPE` -/
def computeAllMul (dst : BitVec w) (src1 : TargetUlong t) : BitVec 32 :=
  let cf := int (src1 != 0)
  cf ||| pfOf dst ||| zfOf dst ||| sfOf t dst ||| cf * CC_O

def computeAllBmilg (dst src1 : BitVec w) : BitVec 32 :=
  int (src1 == 0) ||| zfOf dst ||| sfOf t dst

def computeCBmilg (src1 : BitVec w) : BitVec 32 := int (src1 == 0)
end

/-! ## dispatch -/

/-- the suffixes of the operations; `q` is for x86_64 -/
inductive OpSize
  | b
  | w
  | l
  | q
  deriving DecidableEq

def OpSize.bits : OpSize → Nat
  | .b => 8
  | .w => 16
  | .l => 32
  | .q => 64

inductive CCOp
  | dynamic
  | eflags
  | mul (s : OpSize)
  | add (s : OpSize)
  | adc (s : OpSize)
  | sub (s : OpSize)
  | sbb (s : OpSize)
  | logic (s : OpSize)
  | inc (s : OpSize)
  | dec (s : OpSize)
  | shl (s : OpSize)
  | sar (s : OpSize)
  | bmilg (s : OpSize)
  | adcx
  | adox
  | adcox
  | clr
  deriving DecidableEq

section
variable (t : Target) (dst src1 src2 : TargetUlong t)

def computeAllAdcx : TargetUlong t :=
  (src1 &&& ~~~CC_C.setWidth t.bits) ||| dst * CC_C.setWidth t.bits

def computeAllAdox : TargetUlong t :=
  (src1 &&& ~~~CC_O.setWidth t.bits) ||| src2 * CC_O.setWidth t.bits

def computeAllAdcox : TargetUlong t :=
  (src1 &&& ~~~(CC_C ||| CC_O).setWidth t.bits) ||| dst * CC_C.setWidth t.bits |||
    src2 * CC_O.setWidth t.bits

/-- the cases of the operations with suffix `Q` are there on x86_64 only -/
def sized (s : OpSize) (f : Nat → BitVec 32) : TargetUlong t :=
  if s = .q ∧ t = .i386 then 0 else (f s.bits).signExtend t.bits

def helperCcComputeAll (op : CCOp) : TargetUlong t :=
  match op with
  | .dynamic => 0
  | .eflags => src1
  | .clr => CC_Z.setWidth t.bits
  | .mul s => sized t s fun w => computeAllMul t (dst.setWidth w) src1
  | .add s => sized t s fun w => computeAllAdd t (dst.setWidth w) (src1.setWidth w)
  | .adc s => sized t s fun w =>
      computeAllAdc t (dst.setWidth w) (src1.setWidth w) (src2.setWidth w)
  | .sub s => sized t s fun w => computeAllSub t (dst.setWidth w) (src1.setWidth w)
  | .sbb s => sized t s fun w =>
      computeAllSbb t (dst.setWidth w) (src1.setWidth w) (src2.setWidth w)
  | .logic s => sized t s fun w => computeAllLogic t (dst.setWidth w)
  | .inc s => sized t s fun w => computeAllInc t (dst.setWidth w) (src1.setWidth w)
  | .dec s => sized t s fun w => computeAllDec t (dst.setWidth w) (src1.setWidth w)
  | .shl s => sized t s fun w => computeAllShl t (dst.setWidth w) (src1.setWidth w)
  | .sar s => sized t s fun w => computeAllSar t (dst.setWidth w) (src1.setWidth w)
  | .bmilg s => sized t s fun w => computeAllBmilg t (dst.setWidth w) (src1.setWidth w)
  | .adcx => computeAllAdcx t dst src1
  | .adox => computeAllAdox t src1 src2
  | .adcox => computeAllAdcox t dst src1 src2

def helperCcComputeC (op : CCOp) : TargetUlong t :=
  match op with
  | .dynamic | .logic _ | .clr => 0
  | .eflags | .sar _ | .adox => src1 &&& 1
  | .inc _ | .dec _ => src1
  | .mul _ => (int (src1 != 0)).signExtend t.bits
  | .adcx | .adcox => dst
  | .add s => sized t s fun w => computeCAdd (dst.setWidth w) (src1.setWidth w)
  | .adc s => sized t s fun w =>
      computeCAdc (dst.setWidth w) (src1.setWidth w) (src2.setWidth w)
  | .sub s => sized t s fun w => computeCSub (dst.setWidth w) (src1.setWidth w)
  | .sbb s => sized t s fun w =>
      computeCSbb (dst.setWidth w) (src1.setWidth w) (src2.setWidth w)
  | .shl s => sized t s fun w => computeCShl (src1.setWidth w)
  | .bmilg s => sized t s fun w => computeCBmilg (src1.setWidth w)
end

end X86
