import TraceSyscallObj.Lib.Digits
import TraceSyscallObj.Lib.Halt
import TraceSyscallObj.RevSem.Interrupt
import TraceSyscallObj.RevSem.Tracer
import TraceSyscallObj.RevSem.Vcpu

/-!
# The walk over the frames of the kernel stack (`get_callstack_ebp`)

The walk follows the saved frame pointers in guest memory while they lie in the window of the
current kernel stack.  Nothing makes the pointers ascend.

* `walkFrames`: the loop;
* `nextFrame`: the frame that a frame in memory names as its caller's;
* `getCallstackEbp_returns_iff`: the walk returns exactly if the chain of frames has no circle;
* `Cpu.Walks.ne_none_iff`: so the hooks of the tracer can read it then;
* `not_circles_of_ascending`: it has none if every saved frame pointer is above its frame;
* `callstack_determines`: the string can be read back.
-/

namespace RevSem
open Halt

def STACK_SIZE : BitVec 32 := 0x2000
def TIME_INTERRUPT : BitVec 32 := 0xc1003bf5
def COMMON_INTERRUPT : BitVec 32 := 0xc10038b0
def COMMON_EXCEPTION : BitVec 32 := 0xc1269ecb

/-- `HARD_CODE_SCHED1` of `pc` and `HARD_CODE_SCHED2` of `ret_addr` -/
abbrev HardCodeSched (a : BitVec 32) : Prop := 0xc1268a66 ≤ a ∧ a ≤ 0xc1268a88

abbrev InterruptReturn (a : BitVec 32) : Prop :=
  a = TIME_INTERRUPT ∨ a = COMMON_INTERRUPT ∨ a = COMMON_EXCEPTION

/-- the two variables that a round of the walk reads and writes; `retAddr` keeps its old bytes when
a read fails -/
structure StackFrame where
  ebp : BitVec 32
  retAddr : BitVec 32
  deriving DecidableEq, Repr

instance : Finite StackFrame :=
  Finite.of_injective (fun f : StackFrame => (f.ebp, f.retAddr)) fun f g h => by
    cases f
    cases g
    injection h with h₁ h₂
    subst h₁
    subst h₂
    rfl

/-- `[kernel_esp, esp_max)` -/
structure Window where
  kernelEsp : BitVec 32
  espMax : BitVec 32
  deriving DecidableEq, Repr

/-- `ebp < kernel_esp || ebp+4 >= esp_max` -/
abbrev Window.Outside (w : Window) (ebp : BitVec 32) : Prop :=
  ebp < w.kernelEsp ∨ w.espMax ≤ ebp + 4

def intToString (a : BitVec 32) : String := hex a.toNat

/-- `ret_addr` after its read in the round of `f` -/
def StackFrame.ret (m : Pages) (f : StackFrame) : BitVec 32 :=
  (pemuReadMem m (f.ebp + 4) f.retAddr).2

/-- the `while(1)`; `none`: out of fuel -/
def walkFrames (m : Pages) (w : Window) : Nat → StackFrame → String → Option String
  | 0, _, _ => none
  | fuel + 1, f, str =>
    if w.Outside f.ebp then some str
    -- the scheduler keeps the frame pointer elsewhere; this read is not checked
    else if HardCodeSched (f.ret m) then
      walkFrames m w fuel ⟨(pemuReadMem m (f.ebp + 8) f.ebp).2, f.ret m⟩
        (intToString (f.ret m) ++ "->" ++ str)
    else if (pemuReadMem m f.ebp f.ebp).1 = false ∨ InterruptReturn (f.ret m) then
      some (intToString (f.ret m) ++ "->" ++ str)
    else
      walkFrames m w fuel ⟨(pemuReadMem m f.ebp f.ebp).2, f.ret m⟩
        (intToString (f.ret m) ++ "->" ++ str)

/-- `esp_max` and `int_num`: those of the interrupt on this stack, if there is one -/
def stackLimit (ints : InterruptMap) (kernelEsp : BitVec 32) : BitVec 32 × BitVec 32 :=
  let info := getInterruptNew ints kernelEsp
  if info.maxEsp ≠ 0 then (info.maxEsp, info.intNum) else (kernelEsp + STACK_SIZE, -1)

def Vcpu.window (g : Vcpu) (ints : InterruptMap) : Window :=
  ⟨stackBase (g.regs .esp), (stackLimit ints (stackBase (g.regs .esp))).1⟩

/-- the variables before the loop; `stale` is what they hold uninitialised -/
def Vcpu.firstFrame (g : Vcpu) (stale : StackFrame) (pc : BitVec 32) : StackFrame :=
  ⟨if HardCodeSched pc then (pemuReadMem g.mem (g.regs .esp) stale.ebp).2 else g.regs .ebp,
    stale.retAddr⟩

def getCallstackEbp (g : Vcpu) (ints : InterruptMap) (stale : StackFrame) (pc : BitVec 32)
    (fuel : Nat) : Option String :=
  let intNum := (stackLimit ints (stackBase (g.regs .esp))).2
  (walkFrames g.mem (g.window ints) fuel (g.firstFrame stale pc) (intToString pc)).map fun str =>
    if intNum ≠ -1 then "I-" ++ toString intNum.toNat ++ ":" ++ str else str

/-- the frame after `f`; `none` where the walk ends -/
def nextFrame (m : Pages) (w : Window) (f : StackFrame) : Option StackFrame :=
  if w.Outside f.ebp then none
  else if HardCodeSched (f.ret m) then some ⟨(pemuReadMem m (f.ebp + 8) f.ebp).2, f.ret m⟩
  else if (pemuReadMem m f.ebp f.ebp).1 = false ∨ InterruptReturn (f.ret m) then none
  else some ⟨(pemuReadMem m f.ebp f.ebp).2, f.ret m⟩

variable {m : Pages} {w : Window} {f f' : StackFrame}

lemma walkFrames_last (h : nextFrame m w f = none) (fuel : Nat) (str : String) :
    ∃ s, walkFrames m w (fuel + 1) f str = some s := by
  unfold nextFrame at h
  unfold walkFrames
  split at h
  · next hout => exact ⟨_, if_pos hout⟩
  next hout =>
  split at h
  · cases h
  next hsched =>
  split at h
  · next hend =>
    rw [if_neg hout, if_neg hsched, if_pos hend]
    exact ⟨_, rfl⟩
  · cases h

lemma walkFrames_next (h : nextFrame m w f = some f') (fuel : Nat) (str : String) :
    ∃ str', walkFrames m w (fuel + 1) f str = walkFrames m w fuel f' str' := by
  unfold nextFrame at h
  rw [walkFrames]
  split at h
  · cases h
  next hout =>
  rw [if_neg hout]
  split at h
  · next hsched =>
    injection h with h
    rw [if_pos hsched, h]
    exact ⟨_, rfl⟩
  · next hsched =>
    split at h
    · cases h
    · next hend =>
      injection h with h
      rw [if_neg hsched, if_neg hend, h]
      exact ⟨_, rfl⟩

lemma walkFrames_isSome_iff (fuel : Nat) (f : StackFrame) (str : String) :
    (∃ s, walkFrames m w fuel f str = some s) ↔ after (nextFrame m w) fuel f = none := by
  induction fuel generalizing f str with
  | zero => simp [walkFrames, after]
  | succ fuel ih =>
    rw [after_succ']
    cases hn : nextFrame m w f with
    | none =>
      obtain ⟨s, hs⟩ := walkFrames_last hn fuel str
      exact ⟨fun _ => rfl, fun _ => ⟨s, hs⟩⟩
    | some f' =>
      obtain ⟨str', hstr⟩ := walkFrames_next hn fuel str
      rw [hstr]
      exact ih f' str'

section
variable {g : Vcpu} {ints : InterruptMap} {stale : StackFrame} {pc : BitVec 32}

lemma getCallstackEbp_isSome_iff (fuel : Nat) :
    (∃ str, getCallstackEbp g ints stale pc fuel = some str) ↔
      after (nextFrame g.mem (g.window ints)) fuel (g.firstFrame stale pc) = none := by
  rw [← walkFrames_isSome_iff fuel _ (intToString pc)]
  unfold getCallstackEbp
  cases walkFrames g.mem (g.window ints) fuel (g.firstFrame stale pc) (intToString pc) <;> simp

/-- what the hooks of an event read is what the walk returns -/
def Cpu.Walks (cpu : Cpu) (g : Vcpu) (ints : InterruptMap) (stale : StackFrame) : Prop :=
  ∀ pc str, cpu.callstackEbp pc = some str ↔
    ∃ fuel, getCallstackEbp g ints stale pc fuel = some str

lemma Cpu.Walks.ne_none_iff {cpu : Cpu} (h : cpu.Walks g ints stale) :
    cpu.callstackEbp pc ≠ none ↔
      ¬ Circles (nextFrame g.mem (g.window ints)) (g.firstFrame stale pc) := by
  rw [← ends_iff, Option.ne_none_iff_exists']
  simp only [h pc]
  rw [exists_comm]
  exact exists_congr getCallstackEbp_isSome_iff

end

/-- **`get_callstack_ebp` returns exactly if the chain of frames in memory does not circle** -/
theorem getCallstackEbp_returns_iff (g : Vcpu) (ints : InterruptMap) (stale : StackFrame)
    (pc : BitVec 32) :
    (∃ fuel str, getCallstackEbp g ints stale pc fuel = some str) ↔
      ¬ Circles (nextFrame g.mem (g.window ints)) (g.firstFrame stale pc) := by
  rw [← ends_iff]
  exact exists_congr getCallstackEbp_isSome_iff

/-- a page whose word `0x10` is its own address -/
def selfFrame : Vcpu where
  regs r := match r with
    | .esp => 0xc1400000
    | .ebp => 0xc1400010
    | _ => 0
  segBase _ := 0
  mem n := if n = 0xc1400 then some fun i =>
      if i = 0x10 then 0x10 else if i = 0x12 then 0x40 else if i = 0x13 then 0xc1 else 0
    else none

lemma selfFrame_next : nextFrame selfFrame.mem (selfFrame.window fun _ => none)
    ⟨0xc1400010, 0⟩ = some ⟨0xc1400010, 0⟩ := by
  decide +kernel

/-- a frame whose saved frame pointer is the frame itself: the walk never returns -/
theorem selfFrame_never_returns : ¬ ∃ fuel str,
    getCallstackEbp selfFrame (fun _ => none) ⟨0, 0⟩ 0xc1000000 fuel = some str := by
  have hwalk : ∀ fuel str, walkFrames selfFrame.mem (selfFrame.window fun _ => none) fuel
      ⟨0xc1400010, 0⟩ str = none := by
    intro fuel
    induction fuel with
    | zero =>
      intro str
      rfl
    | succ fuel ih =>
      intro str
      obtain ⟨str', h⟩ := walkFrames_next selfFrame_next fuel str
      rw [h]
      exact ih str'
  have hfirst : selfFrame.firstFrame ⟨0, 0⟩ 0xc1000000 = ⟨0xc1400010, 0⟩ := by decide +kernel
  rintro ⟨fuel, str, h⟩
  unfold getCallstackEbp at h
  rw [hfirst, hwalk] at h
  cases h

lemma not_circles_of_ascending (g : Vcpu) (ints : InterruptMap) (stale : StackFrame)
    (pc : BitVec 32) (hup : ∀ f f', nextFrame g.mem (g.window ints) f = some f' → f.ebp < f'.ebp) :
    ¬ Circles (nextFrame g.mem (g.window ints)) (g.firstFrame stale pc) := by
  rintro ⟨f, _, hcirc⟩
  have hlt : ∀ f', Relation.TransGen (Leads (nextFrame g.mem (g.window ints))) f f' →
      f.ebp < f'.ebp := by
    intro f' h
    induction h with
    | single h => exact hup _ _ h
    | tail _ h ih => exact BitVec.lt_trans ih (hup _ _ h)
  exact BitVec.lt_irrefl _ (hlt f hcirc)

/-! ## the string and its context -/

/-- what a call stack is built from; the return addresses in the order of the walk -/
structure CallContext where
  intNum : Option (BitVec 32)
  rets : List (BitVec 32)
  pc : BitVec 32

def CallContext.frames (c : CallContext) : String :=
  c.rets.foldl (fun str ret => intToString ret ++ "->" ++ str) (intToString c.pc)

def CallContext.render (c : CallContext) : String :=
  match c.intNum with
  | none => c.frames
  | some n => "I-" ++ toString n.toNat ++ ":" ++ c.frames

/-- the return addresses that the walk reads; `none`: out of fuel -/
def walkRets (m : Pages) (w : Window) : Nat → StackFrame → Option (List (BitVec 32))
  | 0, _ => none
  | fuel + 1, f =>
    if w.Outside f.ebp then some []
    else match nextFrame m w f with
      | none => some [f.ret m]
      | some f' => (walkRets m w fuel f').map (f.ret m :: ·)

def callContext (g : Vcpu) (ints : InterruptMap) (stale : StackFrame) (pc : BitVec 32)
    (fuel : Nat) : Option CallContext :=
  let intNum := (stackLimit ints (stackBase (g.regs .esp))).2
  (walkRets g.mem (g.window ints) fuel (g.firstFrame stale pc)).map fun rets =>
    ⟨if intNum ≠ -1 then some intNum else none, rets, pc⟩

lemma walkFrames_eq (fuel : Nat) (f : StackFrame) (str : String) :
    walkFrames m w fuel f str = (walkRets m w fuel f).map fun rets =>
      rets.foldl (fun str ret => intToString ret ++ "->" ++ str) str := by
  induction fuel generalizing f str with
  | zero => rfl
  | succ fuel ih =>
    unfold walkFrames walkRets nextFrame
    split
    · rfl
    split
    · rw [ih, Option.map_map]
      rfl
    split
    · rfl
    · rw [ih, Option.map_map]
      rfl

/-- the frames as characters, the last return address first -/
def frameChars (rets : List (BitVec 32)) (pc : BitVec 32) : List Char :=
  rets.foldr (fun ret cs => Nat.toDigits 16 ret.toNat ++ '-' :: '>' :: cs) (Nat.toDigits 16 pc.toNat)

lemma CallContext.frames_toList (c : CallContext) :
    c.frames.toList = frameChars c.rets.reverse c.pc := by
  have hfold : ∀ (rets : List (BitVec 32)) (str : String),
      (rets.foldl (fun str ret => intToString ret ++ "->" ++ str) str).toList =
        rets.foldl (fun cs ret => Nat.toDigits 16 ret.toNat ++ '-' :: '>' :: cs) str.toList := by
    intro rets
    induction rets with
    | nil => exact fun str => rfl
    | cons ret rets ih => exact fun str => (ih _).trans (by simp [intToString, hex])
  unfold frames frameChars
  rw [hfold]
  simp [intToString, hex]

variable {rets rets' : List (BitVec 32)} {pc pc' : BitVec 32}

lemma frameChars_nil_ne {ret : BitVec 32} : frameChars [] pc ≠ frameChars (ret :: rets) pc' := by
  intro h
  refine Digits.not_mem_toDigits (c := '-') (n := pc.toNat) (by decide) ?_
  rw [show Nat.toDigits 16 pc.toNat = _ from h]
  exact List.mem_append_right _ (.head _)

lemma frameChars_inj (h : frameChars rets pc = frameChars rets' pc') : rets = rets' ∧ pc = pc' := by
  induction rets generalizing rets' with
  | nil =>
    cases rets' with
    | nil => exact ⟨rfl, BitVec.eq_of_toNat_eq (Digits.toDigits_inj h)⟩
    | cons ret rets' => exact absurd h frameChars_nil_ne
  | cons ret rets ih =>
    cases rets' with
    | nil => exact absurd h.symm frameChars_nil_ne
    | cons ret' rets' =>
      obtain ⟨hret, hrest⟩ := Digits.append_sep_inj (by decide) h
      obtain ⟨hrets, hpc⟩ := ih (List.cons.inj hrest).2
      exact ⟨by rw [BitVec.eq_of_toNat_eq hret, hrets], hpc⟩

lemma frameChars_head {cs : List Char} : frameChars rets pc ≠ 'I' :: cs := by
  have hdigits : ∀ (n : Nat) (t : List Char), Nat.toDigits 16 n ++ t ≠ 'I' :: cs := by
    intro n t h
    cases hn : Nat.toDigits 16 n with
    | nil => exact Nat.toDigits_ne_nil hn
    | cons c l =>
      rw [hn] at h
      refine Digits.not_mem_toDigits (c := 'I') (n := n) (by decide) ?_
      rw [hn, (List.cons.inj h).1]
      exact .head _
  cases rets with
  | nil => exact fun h => hdigits pc.toNat [] (by rw [List.append_nil]; exact h)
  | cons ret rets => exact hdigits _ _

lemma CallContext.render_toList (c : CallContext) : c.render.toList =
    c.intNum.elim (frameChars c.rets.reverse c.pc) fun n =>
      'I' :: '-' :: (Nat.toDigits 10 n.toNat ++ ':' :: frameChars c.rets.reverse c.pc) := by
  unfold render
  cases c.intNum with
  | none => exact c.frames_toList
  | some n => simp [c.frames_toList]

lemma CallContext.render_inj (c c' : CallContext) (h : c.render = c'.render) : c = c' := by
  have hl := congrArg String.toList h
  rw [render_toList, render_toList] at hl
  obtain ⟨n, rets, pc⟩ := c
  obtain ⟨n', rets', pc'⟩ := c'
  have hcolon : ∀ n : BitVec 32, ':' ∉ Nat.toDigits 10 n.toNat := fun n hm =>
    absurd (Nat.isDigit_of_mem_toDigits (by decide) (by decide) hm) (by decide)
  have hframes (h : frameChars rets.reverse pc = frameChars rets'.reverse pc') :
      rets = rets' ∧ pc = pc' :=
    (frameChars_inj h).imp_left fun h => List.reverse_injective h
  cases n with
  | none =>
    cases n' with
    | none =>
      obtain ⟨rfl, rfl⟩ := hframes hl
      rfl
    | some n' => exact absurd hl frameChars_head
  | some n =>
    cases n' with
    | none => exact absurd hl.symm frameChars_head
    | some n' =>
      obtain ⟨hn, hl⟩ := Digits.split_unique (hcolon n) (hcolon n')
        (List.cons.inj (List.cons.inj hl).2).2
      obtain ⟨rfl, rfl⟩ := hframes hl
      have hnum := congrArg (Nat.ofDigitChars 10 · 0) hn
      simp only [Nat.ofDigitChars_ten_toDigits] at hnum
      rw [BitVec.eq_of_toNat_eq hnum]

/-- **a call stack determines its context**: the string is rendered from the interrupt, the return
addresses and the program counter, and no two contexts give the same string -/
theorem callstack_determines :
    (∀ g ints stale pc fuel, getCallstackEbp g ints stale pc fuel =
      (callContext g ints stale pc fuel).map CallContext.render) ∧
      Function.Injective CallContext.render := by
  refine ⟨fun g ints stale pc fuel => ?_, CallContext.render_inj⟩
  unfold getCallstackEbp callContext
  rw [walkFrames_eq, Option.map_map, Option.map_map]
  refine congrFun (congrArg Option.map (funext fun rets => ?_)) _
  split
  · rfl
  · rfl

end RevSem
