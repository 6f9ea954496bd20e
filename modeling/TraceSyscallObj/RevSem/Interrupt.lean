import Mathlib.Data.List.Induction
import TraceSyscallObj.Lib.Nested

/-!
# The interrupt stacks (`seg_helper.c`, `lib_map.cpp`)

Every interrupt except vector `0x80` pushes an entry on the stack of the current kernel stack, and
every `iret` pops one.

* `nested_drop`: a nested sequence drops one entry for each `0x80` in it;
* `nested_restores_iff`: it restores the stack, and each `iret` removes what its own interrupt
  pushed, exactly if `0x80` only comes when the stack is empty.
-/

namespace RevSem
open Bracket List

/-- `struct ESP` -/
structure ESP where
  maxEsp : BitVec 32
  intNum : BitVec 32
  deriving DecidableEq, Repr

/-- `g_interrupt_esp`; the top of a stack comes first -/
abbrev InterruptMap := BitVec 32 → Option (List ESP)

def addInterruptEsp (m : InterruptMap) (espKey maxEsp intNum : BitVec 32) : InterruptMap :=
  fun k => if k = espKey then some (⟨maxEsp, intNum⟩ :: (m espKey).getD []) else m k

def getInterruptNew (m : InterruptMap) (espKey : BitVec 32) : ESP :=
  match m espKey with
  | some (e :: _) => e
  | _ => ⟨0, 0⟩

def deleteInterruptEsp (m : InterruptMap) (espKey : BitVec 32) : InterruptMap :=
  match m espKey with
  | some (_ :: es) => fun k => if k = espKey then (if es = [] then none else some es) else m k
  | some [] => m
  | none => m

/-- `esp & 0xffffe000`: the base of the kernel stack -/
def stackBase (esp : BitVec 32) : BitVec 32 := esp &&& 0xffffe000

/-- what `do_interrupt_all` and `helper_iret_protected` do to the map; `esp` is what
`get_kernel_esp` reads -/
inductive IntEvent where
  | interrupt (esp intno : BitVec 32)
  | iret (esp : BitVec 32)
  deriving DecidableEq, Repr

def doInterruptAll (m : InterruptMap) (esp intno : BitVec 32) : InterruptMap :=
  if intno ≠ 0x80 then addInterruptEsp m (stackBase esp) esp intno else m

def helperIretProtected (m : InterruptMap) (esp : BitVec 32) : InterruptMap :=
  deleteInterruptEsp m (stackBase esp)

def IntEvent.step (m : InterruptMap) : IntEvent → InterruptMap
  | .interrupt esp intno => doInterruptAll m esp intno
  | .iret esp => helperIretProtected m esp

def runInts (m : InterruptMap) (w : List IntEvent) : InterruptMap := w.foldl IntEvent.step m

/-- the interrupt stack of a kernel stack; a missing key is an empty stack -/
def stackOf (m : InterruptMap) (key : BitVec 32) : List ESP := (m key).getD []

def Opens (key : BitVec 32) : IntEvent → Prop
  | .interrupt esp _ => stackBase esp = key
  | .iret _ => False

def Closes (key : BitVec 32) : IntEvent → Prop
  | .interrupt _ _ => False
  | .iret esp => stackBase esp = key

instance (key : BitVec 32) : (e : IntEvent) → Decidable (Opens key e)
  | .interrupt esp _ => inferInstanceAs (Decidable (stackBase esp = key))
  | .iret _ => inferInstanceAs (Decidable False)

instance (key : BitVec 32) : (e : IntEvent) → Decidable (Closes key e)
  | .interrupt _ _ => inferInstanceAs (Decidable False)
  | .iret esp => inferInstanceAs (Decidable (stackBase esp = key))

/-- a properly nested sequence of events on one kernel stack -/
abbrev NestedOn (key : BitVec 32) (w : List IntEvent) : Prop := Nested (Opens key) (Closes key) w

section
variable {m : InterruptMap} {key esp intno : BitVec 32} {w : List IntEvent}

lemma runInts_append (m : InterruptMap) (u v : List IntEvent) :
    runInts m (u ++ v) = runInts (runInts m u) v := foldl_append ..

lemma opens_not_closes (e : IntEvent) (h : Opens key e) : ¬ Closes key e := by
  cases e with
  | interrupt esp intno => exact fun k => k
  | iret esp => exact absurd h (fun k => k)

/-! ## one event -/

lemma stackOf_interrupt (h : stackBase esp = key) (hn : intno ≠ 0x80) :
    stackOf (doInterruptAll m esp intno) key = ⟨esp, intno⟩ :: stackOf m key := by
  rw [doInterruptAll, if_pos hn, h]
  show (if key = key then _ else m key).getD [] = _
  rw [if_pos rfl]
  rfl

lemma stackOf_syscall : stackOf (doInterruptAll m esp 0x80) key = stackOf m key := by
  rw [doInterruptAll, if_neg (fun k => k rfl)]

lemma stackOf_iret (h : stackBase esp = key) :
    stackOf (helperIretProtected m esp) key = (stackOf m key).tail := by
  rw [helperIretProtected, h]
  unfold deleteInterruptEsp stackOf
  cases hk : m key with
  | none =>
    show (m key).getD [] = []
    rw [hk]
    rfl
  | some es =>
    cases es with
    | nil =>
      show (m key).getD [] = []
      rw [hk]
      rfl
    | cons e es =>
      show ((if key = key then (if es = [] then none else some es) else m key).getD [] : List ESP)
        = es
      rw [if_pos rfl]
      by_cases he : es = []
      · rw [he]
        rfl
      · rw [if_neg he]
        rfl

/-! ## nested sequences -/

/-- the number of system calls in a sequence -/
def syscalls : List IntEvent → Nat
  | [] => 0
  | .interrupt _ intno :: w => (if intno = 0x80 then 1 else 0) + syscalls w
  | .iret _ :: w => syscalls w

lemma syscalls_append (u v : List IntEvent) : syscalls (u ++ v) = syscalls u + syscalls v := by
  induction u with
  | nil => simp [syscalls]
  | cons e u ih =>
    cases e with
    | interrupt esp intno =>
      show _ + syscalls (u ++ v) = _ + syscalls u + syscalls v
      omega
    | iret esp => exact ih

lemma pair_eq {a b : IntEvent} (ha : Opens key a) (hb : Closes key b) :
    ∃ esp intno esp', a = .interrupt esp intno ∧ b = .iret esp' := by
  cases a with
  | iret esp => exact absurd ha (fun k => k)
  | interrupt esp intno =>
    cases b with
    | interrupt esp' intno' => exact absurd hb (fun k => k)
    | iret esp' => exact ⟨esp, intno, esp', rfl, rfl⟩

lemma runInts_pair (m : InterruptMap) (a b : IntEvent) (body rest : List IntEvent) :
    runInts m (a :: body ++ b :: rest) = runInts (runInts m (a :: body ++ [b])) rest := by
  rw [← runInts_append, append_assoc, singleton_append]

lemma stackOf_pair {esp intno esp' : BitVec 32} (hb : Closes key (.iret esp')) (m : InterruptMap)
    (body : List IntEvent) :
    stackOf (runInts m (.interrupt esp intno :: body ++ [.iret esp'])) key =
      (stackOf (runInts (doInterruptAll m esp intno) body) key).tail := by
  show stackOf (runInts (doInterruptAll m esp intno) (body ++ [.iret esp'])) key = _
  rw [runInts_append]
  exact stackOf_iret hb

/-- **A nested sequence drops one entry for each system call in it.** -/
theorem nested_drop (h : NestedOn key w) (m : InterruptMap) :
    stackOf (runInts m w) key = (stackOf m key).drop (syscalls w) := by
  induction h generalizing m with
  | nil => rfl
  | wrap a b body rest ha hb hbody hrest ihb ihr =>
    obtain ⟨esp, intno, esp', rfl, rfl⟩ := pair_eq ha hb
    rw [runInts_pair, ihr, stackOf_pair hb, ihb]
    show ((stackOf (doInterruptAll m esp intno) key).drop (syscalls body)).tail.drop _ =
      (stackOf m key).drop ((if intno = 0x80 then 1 else 0) +
        syscalls (body ++ .iret esp' :: rest))
    rw [syscalls_append, ← drop_one, drop_drop, drop_drop]
    by_cases hn : intno = 0x80
    · rw [hn]
      congr 1
      show _ = 1 + (syscalls body + syscalls rest)
      omega
    · rw [if_neg hn, stackOf_interrupt ha hn]
      have e : syscalls body + (1 + syscalls rest)
          = (0 + (syscalls body + syscalls (.iret esp' :: rest))) + 1 := by
        show _ = 0 + (syscalls body + syscalls rest) + 1
        omega
      rw [e, drop_succ_cons]

/-- the stack is the same after the sequence, and after each `iret` it is what it was before the
interrupt that the `iret` closes -/
def Restores (key : BitVec 32) (m : InterruptMap) (w : List IntEvent) : Prop :=
  stackOf (runInts m w) key = stackOf m key ∧
    ∀ pre a body b post, w = pre ++ (a :: body ++ b :: post) → Opens key a → Closes key b →
      NestedOn key body →
      stackOf (runInts m (pre ++ (a :: body ++ [b]))) key = stackOf (runInts m pre) key

/-- every system call comes when the stack is empty -/
def SyscallsOnEmpty (key : BitVec 32) (m : InterruptMap) (w : List IntEvent) : Prop :=
  ∀ pre esp post, w = pre ++ .interrupt esp 0x80 :: post → stackOf (runInts m pre) key = []

lemma SyscallsOnEmpty.mid {pre u : List IntEvent} (post : List IntEvent)
    (h : SyscallsOnEmpty key m (pre ++ (u ++ post))) : SyscallsOnEmpty key (runInts m pre) u := by
  intro p esp q e
  rw [← runInts_append]
  apply h (pre ++ p) esp (q ++ post)
  rw [e]
  simp

lemma stack_restored (h : NestedOn key w) (m : InterruptMap) (hs : SyscallsOnEmpty key m w) :
    stackOf (runInts m w) key = stackOf m key := by
  induction h generalizing m with
  | nil => rfl
  | wrap a b body rest ha hb hbody hrest ihb ihr =>
    obtain ⟨esp, intno, esp', rfl, rfl⟩ := pair_eq ha hb
    have hsb : SyscallsOnEmpty key (runInts m [.interrupt esp intno]) body := by
      apply SyscallsOnEmpty.mid (.iret esp' :: rest)
      exact hs
    have hsr : SyscallsOnEmpty key
        (runInts m (.interrupt esp intno :: body ++ [.iret esp'])) rest := by
      apply SyscallsOnEmpty.mid []
      rw [append_nil, append_assoc]
      exact hs
    rw [runInts_pair, ihr _ hsr, stackOf_pair hb]
    refine (congrArg List.tail (ihb _ hsb)).trans ?_
    show (stackOf (doInterruptAll m esp intno) key).tail = _
    by_cases hn : intno = 0x80
    · subst hn
      have hempty : stackOf m key = [] := hs [] esp _ rfl
      rw [stackOf_syscall, hempty]
      rfl
    · rw [stackOf_interrupt ha hn]
      rfl

/-- **Exactly when the interrupt stack is kept**: each `iret` removes the entry of its own
interrupt if and only if no system call comes while the stack holds an entry. -/
theorem nested_restores_iff (h : NestedOn key w) (m : InterruptMap) :
    Restores key m w ↔ SyscallsOnEmpty key m w := by
  constructor
  · intro ⟨_, hr⟩ pre esp post e
    have hesp : Opens key (.interrupt esp 0x80) := by
      rcases h.mem (e ▸ mem_append_right pre (mem_cons_self ..)) with k | k
      · exact k
      · exact absurd k (fun k => k)
    obtain ⟨body, b, rest, h1, h2, h3⟩ := h.matching e hesp opens_not_closes
    have hw : w = pre ++ (.interrupt esp 0x80 :: body ++ b :: rest) := by
      rw [e, h1]
      rfl
    have hback := hr pre _ body b rest hw hesp h2 h3
    rw [runInts_append, nested_drop (Nested.pair hesp h2 h3)] at hback
    have hlen := congrArg List.length hback
    have hpos : 0 < syscalls (.interrupt esp 0x80 :: body ++ [b]) := by
      show 0 < (if (0x80 : BitVec 32) = 0x80 then 1 else 0) + syscalls (body ++ [b])
      rw [if_pos rfl]
      omega
    rw [length_drop] at hlen
    apply eq_nil_of_length_eq_zero
    omega
  · intro hs
    refine ⟨stack_restored h m hs, fun pre a body b post e ha hb hbody => ?_⟩
    rw [runInts_append]
    apply stack_restored (Nested.pair ha hb hbody)
    apply SyscallsOnEmpty.mid post
    rw [e] at hs
    simpa using hs

/-- a page fault while a system call is handled -/
def faultInSyscall : List IntEvent :=
  [.interrupt 0xc1231f80 0x80, .interrupt 0xc1231e00 14, .iret 0xc1231e00, .iret 0xc1231f80]

theorem nested_restores_fault : Restores 0xc1230000 (fun _ => none) faultInSyscall := by
  have hn : NestedOn 0xc1230000 [.interrupt 0xc1231e00 14, .iret 0xc1231e00] :=
    Nested.pair (by decide) (by decide) .nil
  refine (nested_restores_iff (Nested.pair (by decide) (by decide) hn) _).mpr ?_
  intro pre esp post e
  -- the only system call is the first event
  match pre with
  | [] => rfl
  | [_] => simp at e
  | [_, _] => simp at e
  | [_, _, _] => simp at e
  | _ :: _ :: _ :: _ :: pre => simp at e

/-- a system call made while a page fault is handled on the same kernel stack -/
def syscallInFault : List IntEvent :=
  [.interrupt 0xc1231f80 14, .interrupt 0xc1231e00 0x80, .iret 0xc1231e00, .iret 0xc1231f80]

/-- its `iret` removes the entry of the page fault -/
theorem syscall_pops_fault : NestedOn 0xc1230000 syscallInFault ∧
    ¬ Restores 0xc1230000 (fun _ => none) syscallInFault := by
  have hn : NestedOn 0xc1230000 [.interrupt 0xc1231e00 0x80, .iret 0xc1231e00] :=
    Nested.pair (by decide) (by decide) .nil
  refine ⟨Nested.pair (by decide) (by decide) hn, fun h => ?_⟩
  have hback := h.2 [.interrupt 0xc1231f80 14] _ [] _ [.iret 0xc1231f80] rfl (by decide)
    (by decide) .nil
  revert hback
  decide

end
end RevSem
