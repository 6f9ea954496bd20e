import Mathlib.Algebra.Group.Nat.Defs
import Mathlib.Data.List.Induction
import TraceSyscallObj.Lib.Paged
import TraceSyscallObj.RevSem.Heap

/-!
# The shadow memory (`shadow_mem.c`)

Two levels: `iiPrimaryMap` has one slot for each 64 KiB page of the guest; a slot holds
`&distinguished_secondary_map` until the first write to its page, then a page from `malloc`.

* `setMemTaintBysize2_spec`: one call of `set_mem_taint_bysize2` on the flat map;
* `shadow_refines_flat`: after any sequence of calls, an address holds the value of the last call
  that covered it.
-/

namespace RevSem
open Paged

abbrev Addr := BitVec 32

def UNTAINTED : BitVec 32 := 0

/-- the low and the high half of an address: `a & 0xFFFF` and `a >> 16` -/
def pageOff (a : Addr) : BitVec 16 := a.setWidth 16
def pageNum (a : Addr) : BitVec 16 := (a >>> 16).setWidth 16

/-- what a slot of the primary map points to -/
inductive SecPtr where
  | distinguished
  | own (n : Nat)
  deriving DecidableEq, Repr

abbrev SecMap := BitVec 16 → BitVec 32

structure ShadowMem where
  distinguishedSecondaryMap : SecMap
  iiPrimaryMap : BitVec 16 → SecPtr
  heap : Nat → SecMap
  live : List Nat
  mallocs : Nat

/-- `taintInit2`: the cells of the heap that were never allocated hold anything -/
def taintInit2 (garbage : Nat → SecMap) : ShadowMem where
  distinguishedSecondaryMap _ := UNTAINTED
  iiPrimaryMap _ := .distinguished
  heap := garbage
  live := []
  mallocs := 0

namespace ShadowMem

def deref (m : ShadowMem) : SecPtr → SecMap
  | .distinguished => m.distinguishedSecondaryMap
  | .own n => m.heap n

/-- `sm->byte[off] = v` through a pointer -/
def poke (m : ShadowMem) (p : SecPtr) (off : BitVec 16) (v : BitVec 32) : ShadowMem :=
  let write (page : SecMap) : SecMap := fun o => if o = off then v else page o
  match p with
  | .distinguished => { m with distinguishedSecondaryMap := write m.distinguishedSecondaryMap }
  | .own n => { m with heap := fun k => if k = n then write (m.heap n) else m.heap k }

/-- a new page, all of it `UNTAINTED` -/
def allocSecondaryMap (H : Host) (m : ShadowMem) : SecPtr × ShadowMem :=
  let n := H.malloc m.mallocs m.live
  (.own n, { m with
    heap := fun k => if k = n then (fun _ => UNTAINTED) else m.heap k
    live := n :: m.live
    mallocs := m.mallocs + 1 })

def setSlot (m : ShadowMem) (i : BitVec 16) (p : SecPtr) : ShadowMem :=
  { m with iiPrimaryMap := fun j => if j = i then p else m.iiPrimaryMap j }

/-- `ENSURE_MAPPABLE_BYTE_GRANUITY` -/
def ensureMappable (H : Host) (m : ShadowMem) (a : Addr) : ShadowMem :=
  if m.iiPrimaryMap (pageNum a) = .distinguished then
    let (p, m') := m.allocSecondaryMap H
    m'.setSlot (pageNum a) p
  else m

end ShadowMem

def getMemTaint2 (m : ShadowMem) (a : Addr) : BitVec 32 :=
  m.deref (m.iiPrimaryMap (pageNum a)) (pageOff a)

def setMemTaint2 (H : Host) (m : ShadowMem) (a : Addr) (bytes : BitVec 32) : ShadowMem :=
  let m := m.ensureMappable H a
  m.poke (m.iiPrimaryMap (pageNum a)) (pageOff a) bytes

/-- the loop of `set_mem_taint_bysize2` from index `i` on, `left` iterations to go -/
def setMemTaintLoop (H : Host) (a : Addr) (bytes : BitVec 32) :
    Nat → Nat → ShadowMem → ShadowMem
  | _, 0, m => m
  | i, left + 1, m =>
    setMemTaintLoop H a bytes (i + 1) left (setMemTaint2 H m (a + BitVec.ofNat 32 i) bytes)

def setMemTaintBysize2 (H : Host) (m : ShadowMem) (a : Addr) (bytes size : BitVec 32) : ShadowMem :=
  setMemTaintLoop H a bytes 0 size.toNat m

/-! ## the flat map -/

/-- the pages as the library sees them -/
def ShadowMem.paged (m : ShadowMem) : Mem (BitVec 16) (BitVec 16) (BitVec 32) where
  shared := m.distinguishedSecondaryMap
  slot i := match m.iiPrimaryMap i with
    | .distinguished => none
    | .own n => some n
  page := m.heap

/-- what every call preserves: the shared page is untouched, private pages are not shared, and
they are allocated -/
structure ShadowMem.Ok (m : ShadowMem) : Prop where
  shared : m.distinguishedSecondaryMap = fun _ => UNTAINTED
  sound : m.paged.Sound
  alloc : ∀ i n, m.iiPrimaryMap i = .own n → n ∈ m.live

variable {m : ShadowMem}

lemma slot_eq_some {i : BitVec 16} {n : Nat} :
    m.paged.slot i = some n ↔ m.iiPrimaryMap i = .own n := by
  show (match m.iiPrimaryMap i with
    | .distinguished => none
    | .own n => some n) = some n ↔ _
  cases m.iiPrimaryMap i with
  | distinguished | own k => simp

lemma getMemTaint2_eq (m : ShadowMem) (a : Addr) :
    getMemTaint2 m a = m.paged.look (pageNum a) (pageOff a) := by
  unfold getMemTaint2 Mem.look ShadowMem.paged
  dsimp only
  cases m.iiPrimaryMap (pageNum a) with
  | distinguished | own n => rfl

lemma addr_ext {a b : Addr} (h1 : pageNum a = pageNum b) (h2 : pageOff a = pageOff b) : a = b := by
  unfold pageNum at h1
  unfold pageOff at h2
  bv_omega

section
variable (H : Host) (h : m.Ok)
include H h

lemma paged_alloc (i : BitVec 16) :
    ((m.allocSecondaryMap H).2.setSlot i (m.allocSecondaryMap H).1).paged
      = m.paged.claim i (H.malloc m.mallocs m.live) m.paged.shared := by
  have hslot : (fun j => match (if j = i then SecPtr.own (H.malloc m.mallocs m.live)
      else m.iiPrimaryMap j) with
    | .distinguished => none
    | .own n => some n) = fun j => if j = i then some (H.malloc m.mallocs m.live)
      else m.paged.slot j := by
    funext j
    by_cases hj : j = i
    · rw [if_pos hj, if_pos hj]
    · rw [if_neg hj, if_neg hj]
      rfl
  have hpage : (fun k => if k = H.malloc m.mallocs m.live then (fun _ => UNTAINTED) else m.heap k)
      = fun k => if k = H.malloc m.mallocs m.live then m.paged.shared else m.paged.page k := by
    have hs : m.paged.shared = fun _ => UNTAINTED := h.shared
    rw [hs]
    rfl
  exact congrArg₂ (Mem.mk m.distinguishedSecondaryMap) hslot hpage

lemma malloc_slot (j : BitVec 16) : m.paged.slot j ≠ some (H.malloc m.mallocs m.live) := by
  intro e
  exact H.malloc_fresh _ _ (h.alloc j _ (slot_eq_some.mp e))

lemma ensureMappable_spec (a : Addr) :
    (m.ensureMappable H a).Ok ∧ (∃ n, (m.ensureMappable H a).iiPrimaryMap (pageNum a) = .own n) ∧
      ∀ x, getMemTaint2 (m.ensureMappable H a) x = getMemTaint2 m x := by
  unfold ShadowMem.ensureMappable
  by_cases hd : m.iiPrimaryMap (pageNum a) = .distinguished
  · rw [if_pos hd]
    have hp := paged_alloc H h (pageNum a)
    have hnone : m.paged.slot (pageNum a) = none := by
      show (match m.iiPrimaryMap (pageNum a) with
        | .distinguished => none
        | .own n => some n) = none
      rw [hd]
    refine ⟨⟨h.shared, ?_, ?_⟩, ⟨H.malloc m.mallocs m.live, ?_⟩, fun x => ?_⟩
    · show ((m.allocSecondaryMap H).2.setSlot (pageNum a) (m.allocSecondaryMap H).1).paged.Sound
      rw [hp]
      exact h.sound.claim (malloc_slot H h) _
    · intro i n hi
      have hi' : (if i = pageNum a then SecPtr.own (H.malloc m.mallocs m.live)
        else m.iiPrimaryMap i) = .own n := hi
      show n ∈ H.malloc m.mallocs m.live :: m.live
      by_cases hia : i = pageNum a
      · rw [if_pos hia] at hi'
        injection hi' with hi'
        rw [hi']
        exact List.mem_cons_self ..
      · rw [if_neg hia] at hi'
        exact List.mem_cons_of_mem _ (h.alloc i n hi')
    · show (if pageNum a = pageNum a then _ else _) = _
      rw [if_pos rfl]
    · rw [getMemTaint2_eq, getMemTaint2_eq]
      rw [hp, Mem.look_claim hnone (malloc_slot H h)]
  · rw [if_neg hd]
    refine ⟨h, ?_, fun _ => rfl⟩
    cases hs : m.iiPrimaryMap (pageNum a) with
    | distinguished => exact absurd hs hd
    | own n => exact ⟨n, rfl⟩

lemma setMemTaint2_spec (a : Addr) (v : BitVec 32) : (setMemTaint2 H m a v).Ok ∧
      ∀ x, getMemTaint2 (setMemTaint2 H m a v) x = if x = a then v else getMemTaint2 m x := by
  obtain ⟨h1, ⟨n, hn⟩, h2⟩ := ensureMappable_spec H h a
  unfold setMemTaint2
  dsimp only
  generalize m.ensureMappable H a = m' at h1 hn h2
  rw [hn]
  have hp : (m'.poke (.own n) (pageOff a) v).paged = m'.paged.write n (pageOff a) v := rfl
  refine ⟨⟨h1.shared, ?_, h1.alloc⟩, fun x => ?_⟩
  · rw [hp]
    exact h1.sound.write _ _
  · rw [getMemTaint2_eq, hp, Mem.look_write h1.sound (slot_eq_some.mpr hn), ← getMemTaint2_eq, h2]
    by_cases hx : x = a
    · rw [if_pos hx, if_pos ⟨by rw [hx], by rw [hx]⟩]
    · rw [if_neg hx, if_neg (fun k => hx (addr_ext k.1 k.2))]

end

lemma eq_add_iff (x a : Addr) {i : Nat} (hi : i < 2 ^ 32) :
    x = a + BitVec.ofNat 32 i ↔ (x - a).toNat = i := by
  constructor
  · intro e
    bv_omega
  · intro e
    bv_omega

variable (H : Host)

lemma setMemTaintLoop_spec (a : Addr) (v : BitVec 32) (i left : Nat) (h : m.Ok)
    (hb : i + left ≤ 2 ^ 32) : (setMemTaintLoop H a v i left m).Ok ∧
      ∀ x, getMemTaint2 (setMemTaintLoop H a v i left m) x =
        if i ≤ (x - a).toNat ∧ (x - a).toNat < i + left then v else getMemTaint2 m x := by
  induction left generalizing i m with
  | zero =>
    refine ⟨h, fun x => ?_⟩
    rw [if_neg (by omega)]
    rfl
  | succ left ih =>
    obtain ⟨h1, h2⟩ := setMemTaint2_spec H h (a + BitVec.ofNat 32 i) v
    obtain ⟨h3, h4⟩ := ih (i + 1) h1 (by omega)
    refine ⟨h3, fun x => ?_⟩
    show getMemTaint2 (setMemTaintLoop H a v (i + 1) left _) x = _
    rw [h4, h2]
    have hx := eq_add_iff x a (i := i) (by omega)
    by_cases e : (x - a).toNat = i
    · rw [if_neg (by omega), if_pos (hx.mpr e), if_pos (by omega)]
    · rw [if_neg (fun k => e (hx.mp k))]
      by_cases hr : i + 1 ≤ (x - a).toNat ∧ (x - a).toNat < i + 1 + left
      · rw [if_pos hr, if_pos (by omega)]
      · rw [if_neg hr, if_neg (by omega)]

/-- **One call of `set_mem_taint_bysize2`** sets the `size` bytes from `a` on, modulo `2^32`. -/
theorem setMemTaintBysize2_spec (h : m.Ok) (a v size : BitVec 32) :
    (setMemTaintBysize2 H m a v size).Ok ∧
      ∀ x, getMemTaint2 (setMemTaintBysize2 H m a v size) x =
        if x - a < size then v else getMemTaint2 m x := by
  obtain ⟨h1, h2⟩ := setMemTaintLoop_spec H a v 0 size.toNat h (by omega)
  refine ⟨h1, fun x => ?_⟩
  rw [setMemTaintBysize2, h2]
  have hiff : (0 ≤ (x - a).toNat ∧ (x - a).toNat < 0 + size.toNat) ↔ x - a < size := by
    rw [BitVec.lt_def]
    omega
  by_cases hx : x - a < size
  · rw [if_pos hx, if_pos (hiff.mpr hx)]
  · rw [if_neg hx, if_neg (fun k => hx (hiff.mp k))]

/-! ## sequences of calls -/

structure TaintCall where
  addr : Addr
  bytes : BitVec 32
  size : BitVec 32

def TaintCall.hits (c : TaintCall) (x : Addr) : Prop :=
  ∃ i, i < c.size.toNat ∧ x = c.addr + BitVec.ofNat 32 i

def runTaint (H : Host) (m : ShadowMem) (calls : List TaintCall) : ShadowMem :=
  calls.foldl (fun m c => setMemTaintBysize2 H m c.addr c.bytes c.size) m

/-- the value that the last call with `x` in its range wrote -/
inductive LastTaint (x : Addr) : List TaintCall → BitVec 32 → Prop where
  | none (calls : List TaintCall) (h : ∀ c ∈ calls, ¬ c.hits x) : LastTaint x calls UNTAINTED
  | last (pre : List TaintCall) (c : TaintCall) (post : List TaintCall) (hc : c.hits x)
      (h : ∀ c' ∈ post, ¬ c'.hits x) : LastTaint x (pre ++ c :: post) c.bytes

lemma TaintCall.hits_iff (c : TaintCall) (x : Addr) : c.hits x ↔ x - c.addr < c.size := by
  constructor
  · intro ⟨i, hi, e⟩
    rw [eq_add_iff x c.addr (by omega)] at e
    rw [BitVec.lt_def]
    omega
  · intro h
    exact ⟨(x - c.addr).toNat, h, (eq_add_iff x c.addr (by omega)).mpr rfl⟩

variable (garbage : Nat → SecMap)

lemma taintInit2_ok : (taintInit2 garbage).Ok := by
  refine ⟨rfl, ?_, ?_⟩
  · intro i j n hi
    cases slot_eq_some.mp hi
  · intro i n hi
    cases hi

variable {calls : List TaintCall} {c : TaintCall}

lemma LastTaint.hit {x : Addr} (hc : c.hits x) : LastTaint x (calls ++ [c]) c.bytes := by
  refine .last calls c [] hc ?_
  intro c' hc'
  cases hc'

lemma LastTaint.miss {x : Addr} {v : BitVec 32}
    (h : LastTaint x calls v) (hc : ¬ c.hits x) : LastTaint x (calls ++ [c]) v := by
  have hc : ∀ c' ∈ [c], ¬ c'.hits x := List.forall_mem_singleton.mpr hc
  cases h with
  | none _ h => exact .none _ (List.forall_mem_append.mpr ⟨h, hc⟩)
  | last pre c₀ post h₀ h =>
    rw [List.append_assoc]
    exact .last pre c₀ (post ++ [c]) h₀ (List.forall_mem_append.mpr ⟨h, hc⟩)

lemma runTaint_append (m : ShadowMem) (calls : List TaintCall) (c : TaintCall) :
    runTaint H m (calls ++ [c])
      = setMemTaintBysize2 H (runTaint H m calls) c.addr c.bytes c.size := by
  rw [runTaint, List.foldl_append]
  rfl

lemma runTaint_spec (calls : List TaintCall) :
    (runTaint H (taintInit2 garbage) calls).Ok ∧
      ∀ x, LastTaint x calls (getMemTaint2 (runTaint H (taintInit2 garbage) calls) x) := by
  induction calls using List.reverseRecOn with
  | nil => exact ⟨taintInit2_ok garbage, fun x => .none _ (fun c hc => by cases hc)⟩
  | append_singleton calls c ih =>
    obtain ⟨h1, h2⟩ := setMemTaintBysize2_spec H ih.1 c.addr c.bytes c.size
    rw [runTaint_append]
    refine ⟨h1, fun x => ?_⟩
    rw [h2]
    by_cases hx : x - c.addr < c.size
    · rw [if_pos hx]
      exact .hit ((c.hits_iff x).mpr hx)
    · rw [if_neg hx]
      exact (ih.2 x).miss (fun k => hx ((c.hits_iff x).mp k))

/-- **The shadow memory is a flat map**: an address holds what the last call that covered it
wrote.  The distinguished page is never written, and no two slots share a private page. -/
theorem shadow_refines_flat (H : Host) (garbage : Nat → SecMap) (calls : List TaintCall) :
    (∀ x, LastTaint x calls (getMemTaint2 (runTaint H (taintInit2 garbage) calls) x)) ∧
      (runTaint H (taintInit2 garbage) calls).distinguishedSecondaryMap = (fun _ => UNTAINTED) ∧
      ∀ i j n, (runTaint H (taintInit2 garbage) calls).iiPrimaryMap i = .own n →
        (runTaint H (taintInit2 garbage) calls).iiPrimaryMap j = .own n → i = j := by
  obtain ⟨h1, h2⟩ := runTaint_spec H garbage calls
  refine ⟨h2, h1.shared, fun i j n hi hj => ?_⟩
  exact h1.sound i j n (slot_eq_some.mpr hi) (slot_eq_some.mpr hj)

/-- a call that wraps around the top of the address space -/
example : getMemTaint2 (setMemTaintBysize2 (.bump 0) (taintInit2 fun _ _ => 7)
    0xfffffffe#32 1 4) 1 = 1 := by decide

end RevSem
