import TraceSyscallObj.RevSem.Instances

/-!
# The initialisation flags

`add_obj` clears the shadow bytes of a new object, a store sets those of the bytes it writes, and
every access reports the flag of its first byte.  The width of the store comes from the translator
(`gen_op_st_v` in `translate.c`), which passes `idx & 3 + 1`.  Stores of 8 bytes, and the 4-byte ones
of `pextrd` and `extractps`, are emitted without the hook.

* `written k x hist`: the specification: some store since the creation of the object at `k` wrote
  the byte `x`;
* `accessSize_kernel`: the width that arrives is 4, whatever the operand size;
* `byte_store`: a byte store flags its neighbours, an 8-byte store flags nothing;
* `flags_right`: the flags are right if all stores to objects have the hook, are 4 bytes wide and
  start in an object, and no object is created over another one.
-/

namespace RevSem
open Run

/-! ## the calls that the translator emits -/

/-- operand sizes; `OT_QUAD` never comes here on a 32-bit target -/
inductive Ot where
  | byte
  | word
  | long
  deriving DecidableEq, Repr

def Ot.code : Ot → BitVec 32
  | .byte => 0
  | .word => 1
  | .long => 2

def Ot.width : Ot → BitVec 32
  | .byte => 1
  | .word => 2
  | .long => 4

inductive MmuIdx where
  | kernel
  | user
  | ksmap
  deriving DecidableEq, Repr

def MmuIdx.val : MmuIdx → BitVec 32
  | .kernel => 0
  | .user => 1
  | .ksmap => 2

/-- `dc->mem_index` -/
def memIndex (m : MmuIdx) : BitVec 32 := (m.val + 1) <<< 2

/-- the size argument; the sum binds tighter than the conjunction, as in C -/
def accessSize (idx : BitVec 32) : BitVec 32 := idx &&& 3 + 1

/-- the hook of `gen_op_ld_v` and `gen_op_lds_T0_A0` -/
def genOpLdV (H : Host) (disasPc idx a0 : BitVec 32) (cpu : Cpu) : TracerM Unit :=
  if disasPc < KERNEL_ADDR_MIN then pure () else helperLoad H a0 (accessSize idx) cpu

/-- the hook of `gen_op_st_v` -/
def genOpStV (H : Host) (disasPc idx t0 a0 : BitVec 32) (cpu : Cpu) : TracerM Unit :=
  if disasPc < KERNEL_ADDR_MIN then pure () else helperStore H t0 a0 (accessSize idx) cpu

lemma accessSize_kernel (ot : Ot) {m : MmuIdx} (hm : m ≠ .user) :
    accessSize (ot.code + memIndex m) = 4 := by
  cases m with
  | user => exact absurd rfl hm
  | kernel | ksmap => cases ot <;> decide

/-! ## creations and accesses -/

inductive FlagEvent where
  | create (addr : Addr) (e : Elem1) (callPc : BitVec 32) (cpu : Cpu)
  | load (m : MmuIdx) (ot : Ot) (pc addr : BitVec 32) (cpu : Cpu)
  | store (m : MmuIdx) (ot : Ot) (pc value addr : BitVec 32) (cpu : Cpu)
  /-- a store that is emitted without the hook, or made in a helper -/
  | direct (width addr : BitVec 32)

def FlagEvent.call (H : Host) : FlagEvent → TracerM Unit
  | .create addr e callPc cpu => addObj H cpu addr e callPc
  | .load m ot pc addr cpu => genOpLdV H pc (ot.code + memIndex m) addr cpu
  | .store m ot pc value addr cpu => genOpStV H pc (ot.code + memIndex m) value addr cpu
  | .direct _ _ => pure ()

/-- the tracer, and what has happened so far, the latest event first -/
structure Traced where
  tracer : Tracer
  hist : List FlagEvent

def FlagEvent.exec (H : Host) (ev : FlagEvent) : EStateM Fault Traced Unit := fun s =>
  match ev.call H s.tracer with
  | .ok _ σ => .ok () ⟨σ, ev :: s.hist⟩
  | .error f σ => .error f ⟨σ, s.hist⟩

def Traced.init (garbage : Ptr → NodeType) (pages : Nat → SecMap) : Traced :=
  ⟨.init garbage pages, []⟩

/-- since the last creation at `k`, some store wrote the byte `x` -/
def written (k x : Addr) : List FlagEvent → Bool
  | [] => false
  | .create a _ _ _ :: hist => if a = k then false else written k x hist
  | .load _ _ _ _ _ :: hist => written k x hist
  | .store _ ot _ _ a _ :: hist => decide (x - a < ot.width) || written k x hist
  | .direct width a :: hist => decide (x - a < width) || written k x hist

/-- **The flag of every byte of a tracked object says whether it was written.** -/
def FlagsRight (H : Host) (s : Traced) : Prop :=
  ∀ a p, dsCodeRbtFind2 H a s.tracer.tree = .ok p s.tracer.tree → p ≠ .null →
    (getMemTaint2 s.tracer.shadow a = 1 ↔ written (s.tracer.tree.mem p).key a s.hist = true)

/-- an access to the byte `a`: if an object is found there, its record gains a line whose flag says
whether the byte was written before -/
def ReportsRight (H : Host) (pc a : BitVec 32) (cpu : Cpu) (s s' : Traced) : Prop :=
  ∀ p, ¬ pc < KERNEL_ADDR_MIN → ¬ a < KERNEL_ADDR_MIN →
    dsCodeRbtFind2 H a s.tracer.tree = .ok p s.tracer.tree → p ≠ .null →
    ∃ flag type set, s'.tracer.gInstances (s.tracer.tree.mem p).key = some ⟨type, some set⟩ ∧
      accessLine (H.hash (cpu.callstack s.tracer.gPc)) flag s.tracer.gPc
        (a - (s.tracer.tree.mem p).key) ∈ set ∧
      (flag = 1 ↔ written (s.tracer.tree.mem p).key a s.hist = true)

def FlagEvent.Reports (H : Host) (ev : FlagEvent) (s s' : Traced) : Prop :=
  match ev with
  | .create _ _ _ _ | .direct _ _ => True
  | .load _ _ pc a cpu => ReportsRight H pc a cpu s s'
  | .store _ _ pc _ a cpu => ReportsRight H pc a cpu s s'

/-- the condition on one event: a new object lies over no other one; a store is made in kernel
mode and 4 bytes wide, and if it touches a tracked object it starts in one; a store without the
hook touches none -/
def FlagEvent.Plain (H : Host) : FlagEvent → Traced → Prop
  | .create a e _ _, s => ClearAt H a e.size s.tracer.tree
  | .load _ _ _ _ _, _ => True
  | .store m ot pc _ a _, s => m ≠ .user ∧ ot = .long ∧ ¬ pc < KERNEL_ADDR_MIN ∧
      ∀ es, Stores s.tracer.tree es → ∀ x ∈ es, ∀ b, x.covers b → b - a < ot.width →
        ¬ a < KERNEL_ADDR_MIN ∧ ∃ p, dsCodeRbtFind2 H a s.tracer.tree = .ok p s.tracer.tree ∧
          p ≠ .null
  | .direct width a, s =>
      ∀ es, Stores s.tracer.tree es → ∀ x ∈ es, ∀ b, x.covers b → ¬ b - a < width

section
variable {H : Host} {cpu : Cpu} {σ σ' : Tracer} {es : List Entry} {hist : List FlagEvent}
  {a size : BitVec 32}

/-- the flags, on the entries of the tree -/
structure Flags (es : List Entry) (σ : Tracer) (hist : List FlagEvent) : Prop where
  shadow : σ.shadow.Ok
  flag : ∀ e ∈ es, ∀ x, e.covers x →
    (getMemTaint2 σ.shadow x = 1 ↔ written e.key x hist = true)

/-! ## one event -/

variable {pc : BitVec 32}

lemma Flags.create {e : Elem1} {s : TreeState} {A B : List Entry} (h : Flags es σ hist)
    (hs : Stores σ.tree es) (hf : es.length < H.fuel) (hev : Evicts H σ.tree a es (A ++ B))
    (hs' : Stores s (A ++ objEntry H cpu a e pc :: B)) (hc : ClearAt H a e.size σ.tree) :
    Flags (A ++ objEntry H cpu a e pc :: B) { σ.added H cpu a e pc with tree := s }
      (.create a e pc cpu :: hist) := by
  obtain ⟨hok, hget⟩ := setMemTaintBysize2_spec H h.shadow a 0 e.size
  refine ⟨hok, fun x hx b hb => ?_⟩
  show getMemTaint2 (setMemTaintBysize2 H σ.shadow a 0 e.size) b = 1 ↔
    (if a = x.key then false else written x.key b hist) = true
  rw [hget]
  rcases mem_middle.mp hx with rfl | hx
  · have hr : b - a < e.size := hb.range
    have hk : a = (objEntry H cpu a e pc).key := rfl
    rw [if_pos hr, if_pos hk]
    decide
  · have hk : a ≠ x.key := (key_ne_middle hs'.keys hx).symm
    have hr : ¬ b - a < e.size := by
      intro hr
      obtain ⟨q, hfind, hne, hq⟩ :=
        (clearAt_iff H hs hf).mp hc x (hev.sub.subset hx) b hr hb.range
      exact hev.first q hfind hne (hq ▸ hx)
    rw [if_neg hr, if_neg hk]
    exact h.flag x (hev.sub.subset hx) b hb

variable {ev : FlagEvent}

lemma Flags.load (h : Flags es σ hist) (hs : σ'.shadow = σ.shadow)
    (hw : ∀ k x, written k x (ev :: hist) = written k x hist) : Flags es σ' (ev :: hist) := by
  refine ⟨hs ▸ h.shadow, fun e he x hx => ?_⟩
  rw [hs, hw]
  exact h.flag e he x hx

lemma Accessed.shadow_eq (h : Accessed H cpu false a size σ es σ') : σ'.shadow = σ.shadow := by
  cases h with
  | user _ | miss _ _ | hit _ _ _ _ _ _ => rfl

lemma Flags.unseen {width : BitVec 32} (h : Flags es σ hist)
    (hw : ∀ k x, written k x (ev :: hist) = (decide (x - a < width) || written k x hist))
    (hn : ∀ x ∈ es, ∀ b, x.covers b → ¬ b - a < width) : Flags es σ (ev :: hist) := by
  refine ⟨h.shadow, fun x hx b hb => ?_⟩
  rw [hw, decide_eq_false (hn x hx b hb)]
  exact h.flag x hx b hb

lemma Flags.store {m : MmuIdx} {ot : Ot} {value : BitVec 32} (h : Flags es σ hist)
    (hacc : Accessed H cpu true a 4 σ es σ') (hot : ot = .long)
    (hc : ∀ x ∈ es, ∀ b, x.covers b → b - a < ot.width → ¬ a < KERNEL_ADDR_MIN ∧
      ∃ p, dsCodeRbtFind2 H a σ.tree = .ok p σ.tree ∧ p ≠ .null) :
    Flags es σ' (.store m ot pc value a cpu :: hist) := by
  subst hot
  cases hacc with
  | user hu => exact h.unseen (fun _ _ => rfl) fun x hx b hb hlt => (hc x hx b hb hlt).1 hu
  | miss hmiss _ =>
    refine h.unseen (fun _ _ => rfl) fun x hx b hb hlt => ?_
    obtain ⟨-, p, hfind, hne⟩ := hc x hx b hb hlt
    rw [hmiss] at hfind
    injection hfind with hfind
    exact hne hfind.symm
  | hit _ _ _ _ _ _ =>
    obtain ⟨hok, hget⟩ := setMemTaintBysize2_spec H h.shadow a 1 4
    refine ⟨hok, fun x hx b hb => ?_⟩
    show getMemTaint2 (setMemTaintBysize2 H σ.shadow a 1 4) b = 1 ↔
      (decide (b - a < 4) || written x.key b hist) = true
    rw [hget]
    by_cases hlt : b - a < 4
    · rw [if_pos hlt, decide_eq_true hlt]
      simp
    · rw [if_neg hlt, decide_eq_false hlt]
      exact h.flag x hx b hb

/-! ## runs -/

/-- the invariant, with `n` more events to come -/
def Traced.Flagged (H : Host) (n : Nat) (s : Traced) : Prop :=
  ∃ es, Stores s.tracer.tree es ∧ es.length + n < H.fuel ∧ Recorded es s.tracer ∧
    Flags es s.tracer s.hist

variable {s : Traced}

lemma exec_call_inv {s' : Traced} (h : ev.exec H s = .ok () s') :
    ∃ σ, ev.call H s.tracer = .ok () σ ∧ s' = ⟨σ, ev :: s.hist⟩ := by
  unfold FlagEvent.exec at h
  cases hcall : ev.call H s.tracer with
  | ok u σ =>
    rw [hcall] at h
    injection h with _ h
    exact ⟨σ, rfl, h.symm⟩
  | error f σ =>
    rw [hcall] at h
    cases h

lemma access_inv {r : EStateM.Result Fault Tracer Unit} {write : Bool} (hr : Recorded es σ)
    (hcase : (∃ σ₁, r = .ok () σ₁ ∧ Accessed H cpu write a size σ es σ₁) ∨
      StackHangs cpu σ r ∨ Unrecorded es a σ)
    (hrun : r = .ok () σ') : Accessed H cpu write a size σ es σ' := by
  rcases hcase with ⟨σ₁, h1, h2⟩ | ⟨h1, -⟩ | h1
  · rw [h1] at hrun
    injection hrun with _ hrun
    exact hrun ▸ h2
  · rw [h1] at hrun
    cases hrun
  · exact absurd h1 hr.not_unrecorded

variable {n : Nat}

lemma Traced.Flagged.right (h : s.Flagged H n) : FlagsRight H s := by
  obtain ⟨es, hs, hf, -, hfl⟩ := h
  intro a p hfind hne
  obtain ⟨hmem, hcov⟩ := hs.of_find2 (by omega) hfind hne
  exact hfl.flag _ hmem a hcov

lemma init_flagged (H : Host) (garbage : Ptr → NodeType) (pages : Nat → SecMap)
    (hf : n < H.fuel) : (Traced.init garbage pages).Flagged H n := by
  refine ⟨[], init_stores garbage, by simpa using hf, fun x hx => ?_, taintInit2_ok pages,
    fun x hx => ?_⟩
  · cases hx
  · cases hx

lemma Accessed.reports {write : Bool} (h : Accessed H cpu write a size s.tracer es σ')
    (hr : FlagsRight H s) : ReportsRight H pc a cpu s ⟨σ', ev :: s.hist⟩ := by
  intro p _ ha hfind hne
  cases h with
  | user hu => exact absurd hu ha
  | miss hmiss _ =>
    rw [hmiss] at hfind
    injection hfind with hfind
    exact absurd hfind.symm hne
  | @hit q type set _ hq _ _ _ _ =>
    rw [hfind] at hq
    injection hq with hq
    subst hq
    refine ⟨getMemTaint2 s.tracer.shadow a, type, set.insert _, Function.update_self ..,
      List.mem_insert_self, hr a p hfind hne⟩

/-- **One event**: the invariant holds again, and the flag that is reported is right. -/
theorem Traced.Flagged.exec_ok {s' : Traced} (h : s.Flagged H (n + 1)) (hc : ev.Plain H s)
    (hrun : ev.exec H s = .ok () s') : s'.Flagged H n ∧ ev.Reports H s s' := by
  have hright := h.right
  obtain ⟨es, hs, hf, hr, hfl⟩ := h
  obtain ⟨σ', hcall, rfl⟩ := exec_call_inv hrun
  cases ev with
  | create a e pc cpu =>
    rcases addObj_cases H cpu hs (by omega) a e pc with ⟨t, A, B, h1, h2, h3⟩ | ⟨f, σ₁, h1, -⟩
    · have e' := (show addObj H cpu a e pc s.tracer = _ from hcall).symm.trans h1
      injection e' with _ e'
      subst e'
      have hlen := h2.sub.length_le
      refine ⟨⟨_, h3, ?_, hr.added h2.sub, hfl.create hs (by omega) h2 h3 hc⟩, trivial⟩
      simp only [List.length_append, List.length_cons] at hlen ⊢
      omega
    · have e' := (show addObj H cpu a e pc s.tracer = _ from hcall).symm.trans h1
      cases e'
  | load m ot pc a cpu =>
    have hcall' : genOpLdV H pc (ot.code + memIndex m) a cpu s.tracer = .ok () σ' := hcall
    by_cases hpc : pc < KERNEL_ADDR_MIN
    · rw [genOpLdV, if_pos hpc] at hcall'
      injection hcall' with _ e
      subst e
      exact ⟨⟨es, hs, by omega, hr, hfl.load rfl (fun _ _ => rfl)⟩, fun p hn => absurd hpc hn⟩
    · rw [genOpLdV, if_neg hpc] at hcall'
      have hacc := access_inv hr (helperLoad_cases H cpu hs (by omega) a _) hcall'
      exact ⟨⟨es, hacc.tree_eq ▸ hs, by omega, hacc.recorded hr,
        hfl.load hacc.shadow_eq (fun _ _ => rfl)⟩, hacc.reports hright⟩
  | store m ot pc value a cpu =>
    obtain ⟨hm, hot, hpc, hseen⟩ := hc
    have hcall' : genOpStV H pc (ot.code + memIndex m) value a cpu s.tracer = .ok () σ' := hcall
    rw [genOpStV, if_neg hpc, accessSize_kernel ot hm] at hcall'
    have hacc := access_inv hr (helperStore_cases H cpu hs (by omega) value a 4) hcall'
    exact ⟨⟨es, hacc.tree_eq ▸ hs, by omega, hacc.recorded hr, hfl.store hacc hot (hseen es hs)⟩,
      hacc.reports hright⟩
  | direct width a =>
    injection hcall with _ e
    subst e
    exact ⟨⟨es, hs, by omega, hr, hfl.unseen (fun _ _ => rfl) (hc es hs)⟩, trivial⟩

/-- **The flag that an access reports is 1 exactly if a store has written the byte since its
object was created**, and the flags of all bytes of tracked objects are right in every state, in
every run of creations and kernel accesses in which all stores to objects have the hook, are 4 bytes
wide and start in an object, and no object is created over another one. -/
theorem flags_right (H : Host) (garbage : Ptr → NodeType) (pages : Nat → SecMap)
    (evs : List FlagEvent) (hf : evs.length < H.fuel)
    (hc : Meets (FlagEvent.exec H) (FlagEvent.Plain H) (.init garbage pages) evs) :
    Visits (FlagEvent.exec H) (FlagsRight H) (.init garbage pages) evs ∧
    Meets (FlagEvent.exec H) (fun ev s => ∀ s', ev.exec H s = .ok () s' → ev.Reports H s s')
      (.init garbage pages) evs := by
  have hinit := init_flagged H garbage pages hf
  constructor
  · exact visits_of_meets (fun n ev s s' h hc hrun => (h.exec_ok hc hrun).1) (fun n s h => h.right)
      hinit hc
  · exact meets_of_meets (fun n ev s s' h hc hrun => (h.exec_ok hc hrun).1)
      (fun n ev s h hc s' hrun => (h.exec_ok hc hrun).2) hinit hc

/-- an object of eight bytes, then a store to its first byte -/
def stores (ot : Ot) : List FlagEvent :=
  [.create 0xc0100000 ⟨"kmalloc-XX", 8⟩ 0xc1000100 (plainCpu 0),
    .store .kernel ot 0xc1000200 7 0xc0100000 (plainCpu 0)]

/-- the same object, and `movq` of an MMX register to it -/
def quadStore : List FlagEvent :=
  [.create 0xc0100000 ⟨"kmalloc-XX", 8⟩ 0xc1000100 (plainCpu 0), .direct 8 0xc0100000]

theorem flags_right_long :
    Visits (FlagEvent.exec (.bump 8)) (FlagsRight (.bump 8)) (.init blank cleanPages)
      (stores .long) := by
  refine (flags_right (.bump 8) blank cleanPages _ (by decide) ?_).1
  refine .cons (clearAt_init (.bump 8) blank _ _ (by decide)) (eq_ok (by decide))
    ⟨⟨by decide, rfl, by decide, fun es _ x _ b _ _ => ⟨by decide, .cell 1, rfl, by decide⟩⟩,
      fun _ _ => trivial⟩

/-- a byte store flags the byte after it, an 8-byte store does not flag its own bytes -/
theorem byte_store : ∃ s s',
    runAll (FlagEvent.exec (.bump 8)) (stores .byte) (.init blank cleanPages) = .ok () s ∧
    valueOf (dsCodeRbtFind2 (.bump 8) 0xc0100001 s.tracer.tree) = some (.cell 1) ∧
    (s.tracer.tree.mem (.cell 1)).key = 0xc0100000 ∧
    getMemTaint2 s.tracer.shadow 0xc0100001 = 1 ∧ written 0xc0100000 0xc0100001 s.hist = false ∧
    runAll (FlagEvent.exec (.bump 8)) quadStore (.init blank cleanPages) = .ok () s' ∧
    valueOf (dsCodeRbtFind2 (.bump 8) 0xc0100004 s'.tracer.tree) = some (.cell 1) ∧
    (s'.tracer.tree.mem (.cell 1)).key = 0xc0100000 ∧
    getMemTaint2 s'.tracer.shadow 0xc0100004 = 0 ∧
    written 0xc0100000 0xc0100004 s'.hist = true :=
  ⟨stateOf (runAll (FlagEvent.exec (.bump 8)) (stores .byte) (.init blank cleanPages)),
    stateOf (runAll (FlagEvent.exec (.bump 8)) quadStore (.init blank cleanPages)),
    eq_ok (by decide +kernel), by decide +kernel, by decide +kernel, by decide +kernel,
    by decide +kernel, eq_ok (by decide +kernel), by decide +kernel, by decide +kernel,
    by decide +kernel, by decide +kernel⟩

end
end RevSem
