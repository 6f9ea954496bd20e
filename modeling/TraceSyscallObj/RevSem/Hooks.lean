import TraceSyscallObj.RevSem.Tracer

/-!
# What a hook does to the tracer

The state is described by the entries of its tree (`Stores σ.tree es`).  A call of `helper_hook`
has three phases, each with the changes it may make:

* `Retired`: `trace_delete`, at the address `tracedAddr`;
* `Returned`: the first half of `object_hook`, for a pending allocation;
* `Entered`: the second half, for the entry of a hooked function.

`helperHook_cases` says that a call goes through them or ends in a fault (`RetireFault`,
`AddFault`), and when; `helperLoad_cases` and `helperStore_cases` do the same for the accesses.
-/

namespace RevSem
open Function Run

/-- the address that `trace_delete` retires -/
def tracedAddr (pc : BitVec 32) (cpu : Cpu) : Option Addr :=
  if pc = KMEM_CACHE_FREE then some cpu.edx
  else if pc = KFREE then some cpu.eax
  else none

/-- the address that `object_hook` deletes -/
def freedAddr (pc : BitVec 32) (cpu : Cpu) : Option Addr :=
  if pc = KMEM_CACHE_FREE then some cpu.edx
  else if pc = KFREE ∨ pc = VFREE then some cpu.eax
  else none

/-- the allocation that `object_hook` files, if `pc` is the entry of an allocator -/
def request (pc : BitVec 32) (cpu : Cpu) : Option Elem1 :=
  if pc = KMEM_CACHE_ALLOC then some (getKmemCacheAllocArgs cpu)
  else if pc = KMEM_CACHE_ALLOC_TRACE then some (getKmemCacheAllocTraceArgs cpu)
  else if pc = KMALLOC ∨ pc = KMALLOC_TRACK_CALLER then some ⟨"kmalloc-XX", getKmallocArgs cpu⟩
  else if pc = VMALLOC_NODE_FLAGS then some ⟨"vmalloc-XX", getVmallocArgs cpu⟩
  else none

lemma traceDelete_eq (H : Host) (pc : BitVec 32) (cpu : Cpu) :
    traceDelete H pc cpu = match tracedAddr pc cpu with
      | some a => retire H cpu a
      | none => pure () := by
  unfold traceDelete tracedAddr
  split
  · rfl
  · split
    · rfl
    · rfl

lemma entryHook_eq (H : Host) (pc : BitVec 32) (cpu : Cpu) :
    entryHook H pc cpu = match request pc cpu with
      | some e => insertObj (cpu.readMem cpu.esp) e
      | none => match freedAddr pc cpu with
        | some a => onTree (dsCodeAllDeleteRb H a)
        | none => pure () := by
  unfold entryHook request freedAddr
  by_cases h1 : pc = KMEM_CACHE_ALLOC
  · rw [if_pos h1, if_pos h1]
  by_cases h2 : pc = KMEM_CACHE_ALLOC_TRACE
  · rw [if_neg h1, if_neg h1, if_pos h2, if_pos h2]
  by_cases h3 : pc = KMALLOC ∨ pc = KMALLOC_TRACK_CALLER
  · rw [if_neg h1, if_neg h1, if_neg h2, if_neg h2, if_pos h3, if_pos h3]
  by_cases h4 : pc = VMALLOC_NODE_FLAGS
  · rw [if_neg h1, if_neg h1, if_neg h2, if_neg h2, if_neg h3, if_neg h3, if_pos h4, if_pos h4]
  rw [if_neg h1, if_neg h1, if_neg h2, if_neg h2, if_neg h3, if_neg h3, if_neg h4, if_neg h4]
  by_cases h5 : pc = KMEM_CACHE_FREE
  · rw [if_pos h5, if_pos h5]
    rfl
  rw [if_neg h5, if_neg h5]
  by_cases h6 : pc = KFREE ∨ pc = VFREE
  · rw [if_pos h6, if_pos h6]
  · rw [if_neg h6, if_neg h6]

lemma freedAddr_of_traced {pc : BitVec 32} {cpu : Cpu} {a : Addr} (h : tracedAddr pc cpu = some a) :
    freedAddr pc cpu = some a ∧ request pc cpu = none := by
  unfold tracedAddr at h
  split at h
  next h1 =>
    subst h1
    exact ⟨h, rfl⟩
  next h1 =>
    split at h
    next h2 =>
      subst h2
      exact ⟨h, rfl⟩
    next h2 => cases h

lemma vfree_of_freed {pc : BitVec 32} {cpu : Cpu} {a : Addr} (h : freedAddr pc cpu = some a)
    (ht : tracedAddr pc cpu = none) : pc = VFREE ∧ a = cpu.eax := by
  unfold tracedAddr at ht
  unfold freedAddr at h
  by_cases h1 : pc = KMEM_CACHE_FREE
  · rw [if_pos h1] at ht
    cases ht
  rw [if_neg h1] at h ht
  by_cases h2 : pc = KFREE
  · rw [if_pos h2] at ht
    cases ht
  by_cases h3 : pc = VFREE
  · rw [if_pos (.inr h3)] at h
    injection h with h
    exact ⟨h3, h.symm⟩
  · rw [if_neg (fun k => k.elim h2 h3)] at h
    cases h

/-- the call stack, where the walk over the frames returns -/
def Cpu.callstack (cpu : Cpu) (pc : BitVec 32) : String := (cpu.callstackEbp pc).getD ""

def Tracer.atPc (σ : Tracer) (pc : BitVec 32) : Tracer := { σ with gPc := pc }

/-- the record of the instance at `a` is written out -/
def Tracer.wrote (σ : Tracer) (H : Host) (cpu : Cpu) (a : Addr) (type : BitVec 64)
    (set : List String) : Tracer :=
  noteDelete H (cpu.callstack σ.gPc) { σ with
    outputFile1 := σ.outputFile1 ++ [(type, set)]
    gInstances := update σ.gInstances a none }

/-- a new object, apart from the tree -/
def Tracer.added (σ : Tracer) (H : Host) (cpu : Cpu) (a : Addr) (e : Elem1) (pc : BitVec 32) :
    Tracer :=
  { σ with
    gObj := update σ.gObj pc none
    inserted := σ.inserted ++ [(a, e)]
    gInstances := update σ.gInstances a (some ⟨H.hash (cpu.callstack pc), some []⟩)
    shadow := setMemTaintBysize2 H σ.shadow a 0 e.size }

def objEntry (H : Host) (cpu : Cpu) (a : Addr) (e : Elem1) (pc : BitVec 32) : Entry :=
  ⟨a, e.size, H.hash (cpu.callstack pc), pc⟩

section
variable {H : Host} {cpu : Cpu} {σ σ' : Tracer} {es es' : List Entry} {a : Addr} {pc : BitVec 32}
  {e : Elem1} {s : TreeState}

lemma onTree_ok {α : Type} {m : TreeM α} {x : α} (h : m σ.tree = .ok x s) :
    onTree m σ = .ok x { σ with tree := s } := by
  rw [onTree, h]

lemma onTree_error {α : Type} {m : TreeM α} {f : Fault}
    (h : m σ.tree = .error f s) : onTree m σ = .error f { σ with tree := s } := by
  rw [onTree, h]

/-! ## the phases -/

inductive Retired (H : Host) (cpu : Cpu) (σ : Tracer) (es : List Entry) :
    Option Addr → Tracer → List Entry → Prop where
  | skip : Retired H cpu σ es none σ es
  | miss {a : Addr} : dsCodeRbtFind2 H a σ.tree = .ok .null σ.tree →
      Retired H cpu σ es (some a) σ es
  | drop {a : Addr} {p : Ptr} {type : BitVec 64} {set : List String} {s : TreeState}
      {es' : List Entry} : dsCodeRbtFind2 H a σ.tree = .ok p σ.tree → p ≠ .null →
      σ.gInstances a = some ⟨type, some set⟩ → Evicts H σ.tree a es es' → Stores s es' →
      Retired H cpu σ es (some a) { σ.wrote H cpu a type set with tree := s } es'

inductive Returned (H : Host) (cpu : Cpu) (pc : BitVec 32) (σ : Tracer) (es : List Entry) :
    Tracer → List Entry → Prop where
  | skip : σ.gObj pc = none → Returned H cpu pc σ es σ es
  | add {e : Elem1} {s : TreeState} {A B : List Entry} : σ.gObj pc = some e →
      Evicts H σ.tree cpu.eax es (A ++ B) → Stores s (A ++ objEntry H cpu cpu.eax e pc :: B) →
      Returned H cpu pc σ es { σ.added H cpu cpu.eax e pc with tree := s }
        (A ++ objEntry H cpu cpu.eax e pc :: B)

inductive Entered (H : Host) (cpu : Cpu) (pc : BitVec 32) (σ : Tracer) (es : List Entry) :
    Tracer → List Entry → Prop where
  | skip : request pc cpu = none → freedAddr pc cpu = none → Entered H cpu pc σ es σ es
  | pend {e : Elem1} : request pc cpu = some e → Entered H cpu pc σ es
      { σ with gObj := update σ.gObj (cpu.readMem cpu.esp) (some e) } es
  | free {a : Addr} {s : TreeState} {es' : List Entry} : request pc cpu = none →
      freedAddr pc cpu = some a → Evicts H σ.tree a es es' → Stores s es' →
      Entered H cpu pc σ es { σ with tree := s } es'

variable {o : Option Addr}

lemma Retired.sub (h : Retired H cpu σ es o σ' es') : es'.Sublist es := by
  cases h with
  | skip | miss _ => exact List.Sublist.refl _
  | drop _ _ _ hev _ => exact hev.sub

lemma Returned.length_le (h : Returned H cpu pc σ es σ' es') : es'.length ≤ es.length + 1 := by
  cases h with
  | skip _ => omega
  | add _ hev _ =>
    have := hev.sub.length_le
    simp only [List.length_append, List.length_cons] at this ⊢
    omega

lemma Entered.sub (h : Entered H cpu pc σ es σ' es') : es'.Sublist es := by
  cases h with
  | skip _ _ | pend _ => exact List.Sublist.refl _
  | free _ _ hev _ => exact hev.sub

lemma Retired.gObj_eq (h : Retired H cpu σ es o σ' es') : σ'.gObj = σ.gObj := by
  cases h with
  | skip | miss _ | drop _ _ _ _ _ => rfl

lemma Retired.inserted_eq (h : Retired H cpu σ es o σ' es') : σ'.inserted = σ.inserted := by
  cases h with
  | skip | miss _ | drop _ _ _ _ _ => rfl

lemma Entered.inserted_eq (h : Entered H cpu pc σ es σ' es') : σ'.inserted = σ.inserted := by
  cases h with
  | skip _ _ | pend _ | free _ _ _ _ => rfl

lemma Retired.stores (h : Retired H cpu σ es o σ' es') (hs : Stores σ.tree es) :
    Stores σ'.tree es' := by
  cases h with
  | skip | miss _ => exact hs
  | drop _ _ _ _ hs' => exact hs'

lemma Returned.stores (h : Returned H cpu pc σ es σ' es') (hs : Stores σ.tree es) :
    Stores σ'.tree es' := by
  cases h with
  | skip _ => exact hs
  | add _ _ hs' => exact hs'

lemma Entered.stores (h : Entered H cpu pc σ es σ' es') (hs : Stores σ.tree es) :
    Stores σ'.tree es' := by
  cases h with
  | skip _ _ | pend _ => exact hs
  | free _ _ _ hs' => exact hs'

/-! ## retiring an address -/

lemma readCallstack_ok (h : cpu.callstackEbp pc ≠ none) :
    readCallstack cpu pc σ = .ok (cpu.callstack pc) σ := by
  obtain ⟨cs, hcs⟩ := Option.ne_none_iff_exists'.mp h
  rw [readCallstack, Cpu.callstack, hcs]
  rfl

lemma readCallstack_hang (h : cpu.callstackEbp pc = none) :
    readCallstack cpu pc σ = .error .hang σ := by
  rw [readCallstack, h]

lemma instanceAt_ok {i : Instance} (h : σ.gInstances a = some i) : instanceAt a σ = .ok i σ := by
  have hget : (get : TracerM Tracer) σ = .ok σ σ := rfl
  rw [instanceAt, bind_ok hget, h]
  rfl

lemma instanceAt_none (h : ∀ type set, σ.gInstances a ≠ some ⟨type, some set⟩) :
    ∃ i σ', instanceAt a σ = .ok i σ' ∧ i.pset = none := by
  cases hi : σ.gInstances a with
  | some i =>
    refine ⟨i, σ, instanceAt_ok hi, ?_⟩
    obtain ⟨type, set⟩ := i
    cases set with
    | none => rfl
    | some set => exact absurd hi (h type set)
  | none =>
    refine ⟨⟨0, none⟩, { σ with gInstances := update σ.gInstances a (some ⟨0, none⟩) },
      ?_, rfl⟩
    have hget : (get : TracerM Tracer) σ = .ok σ σ := rfl
    rw [instanceAt, bind_ok hget, hi]
    rfl

variable {type : BitVec 64} {set : List String}

lemma deleteInstance_eq (h : σ.gInstances a = some ⟨type, some set⟩) :
    deleteInstance H cpu a σ = (do
      let cs ← readCallstack cpu σ.gPc
      modify (noteDelete H cs) : TracerM Unit) { σ with
        outputFile1 := σ.outputFile1 ++ [(type, set)]
        gInstances := update σ.gInstances a none } := by
  rw [deleteInstance, bind_ok (instanceAt_ok h)]
  rfl

lemma deleteInstance_ok (h : σ.gInstances a = some ⟨type, some set⟩)
    (hcs : cpu.callstackEbp σ.gPc ≠ none) :
    deleteInstance H cpu a σ = .ok () (σ.wrote H cpu a type set) := by
  rw [deleteInstance_eq h, bind_ok (readCallstack_ok hcs)]
  rfl

lemma deleteInstance_segv (H : Host) (cpu : Cpu)
    (h : ∀ type set, σ.gInstances a ≠ some ⟨type, some set⟩) :
    ∃ σ', deleteInstance H cpu a σ = .error .segv σ' := by
  obtain ⟨⟨type, set⟩, σ', h1, h2⟩ := instanceAt_none h
  subst h2
  refine ⟨σ', ?_⟩
  rw [deleteInstance, bind_ok h1]
  rfl

/-- the freed address lies in an object, but there is no record for it -/
def Dangling (H : Host) (a : Addr) (σ : Tracer) : Prop :=
  ∃ p, dsCodeRbtFind2 H a σ.tree = .ok p σ.tree ∧ p ≠ .null ∧
    ∀ type set, σ.gInstances a ≠ some ⟨type, some set⟩

/-- how `trace_delete` can fail at the address `a` -/
inductive RetireFault (H : Host) (cpu : Cpu) (pc : BitVec 32) (a : Addr) (σ : Tracer) :
    Fault → Prop where
  | segv : Dangling H a σ → RetireFault H cpu pc a σ .segv
  | hang : cpu.callstackEbp pc = none → RetireFault H cpu pc a σ .hang

/-- `trace_delete` at an address: the record is looked up at the address itself, the object by its
range -/
lemma retire_cases (H : Host) (cpu : Cpu) (hs : Stores σ.tree es)
    (hf : es.length < H.fuel) (a : Addr) :
    (∃ σ' es', retire H cpu a σ = .ok () σ' ∧ Retired H cpu σ es (some a) σ' es') ∨
      ∃ f σ', retire H cpu a σ = .error f σ' ∧ RetireFault H cpu σ.gPc a σ f := by
  obtain ⟨p, hfind, hp⟩ := hs.find2 H hf a
  have hfind' : onTree (dsCodeRbtFind2 H a) σ = .ok p σ := onTree_ok hfind
  rcases hp with ⟨hne, -⟩ | ⟨rfl, -⟩
  · by_cases hi : ∃ type set, σ.gInstances a = some ⟨type, some set⟩
    · obtain ⟨type, set, hi⟩ := hi
      by_cases hcs : cpu.callstackEbp σ.gPc = none
      · obtain ⟨σ', hdel⟩ : ∃ σ', deleteInstance H cpu a σ = .error .hang σ' :=
          ⟨_, (deleteInstance_eq hi).trans (bind_error (readCallstack_hang hcs))⟩
        refine .inr ⟨.hang, σ', ?_, .hang hcs⟩
        rw [retire, bind_ok hfind', if_pos hne, bind_error hdel]
      obtain ⟨s, es', h1, h2, h3⟩ := dsCodeAllDeleteRb_spec H a hs hf
      refine .inl ⟨_, es', ?_, .drop hfind hne hi h3 h2⟩
      rw [retire, bind_ok hfind', if_pos hne, bind_ok (deleteInstance_ok hi hcs)]
      exact onTree_ok h1
    · have hi' : ∀ type set, σ.gInstances a ≠ some ⟨type, some set⟩ :=
        fun type set k => hi ⟨type, set, k⟩
      obtain ⟨σ', h1⟩ := deleteInstance_segv H cpu hi'
      refine .inr ⟨.segv, σ', ?_, .segv ⟨p, hfind, hne, hi'⟩⟩
      rw [retire, bind_ok hfind', if_pos hne, bind_error h1]
  · refine .inl ⟨σ, es, ?_, .miss hfind⟩
    rw [retire, bind_ok hfind']
    exact onTree_ok (dsCodeAllDeleteRb_null H hfind)

/-! ## creating an object -/

lemma insertRb_ok {p : Record} (h : dsCodeAllInsertRb H a e.size p σ.tree = .ok () s) :
    insertRb H a e p σ = .ok () { σ with tree := s, inserted := σ.inserted ++ [(a, e)] } := by
  rw [insertRb, bind_ok (onTree_ok h)]
  rfl

lemma insertRb_error {p : Record} {f : Fault}
    (h : dsCodeAllInsertRb H a e.size p σ.tree = .error f s) :
    insertRb H a e p σ = .error f { σ with tree := s } := by
  rw [insertRb, bind_error (onTree_error h)]

/-- how adding the object `e` can fail: an object that no lookup finds starts at its address, its
name is too long, or the call stack cannot be read -/
inductive AddFault (cpu : Cpu) (a : Addr) (pc : BitVec 32) (e : Elem1) (es : List Entry) :
    Fault → Prop where
  | insertAssert {x : Entry} : x ∈ es → x.key = a → ¬ x.covers a →
      AddFault cpu a pc e es .insertAssert
  | overflow : 30 ≤ e.name.length → AddFault cpu a pc e es .overflow
  | hang : cpu.callstackEbp pc = none → AddFault cpu a pc e es .hang

lemma AddFault.sub {f : Fault} (h : AddFault cpu a pc e es' f) (hsub : es'.Sublist es) :
    AddFault cpu a pc e es f := by
  cases h with
  | insertAssert hx hk hn => exact .insertAssert (hsub.subset hx) hk hn
  | overflow h => exact .overflow h
  | hang h => exact .hang h

section
variable (H) (cpu) (hs : Stores σ.tree es) (hf : es.length < H.fuel)
include hs hf

lemma addObj_cases (a : Addr) (e : Elem1) (pc : BitVec 32) :
    (∃ s A B, addObj H cpu a e pc σ = .ok () { σ.added H cpu a e pc with tree := s } ∧
      Evicts H σ.tree a es (A ++ B) ∧ Stores s (A ++ objEntry H cpu a e pc :: B)) ∨
      ∃ f σ', addObj H cpu a e pc σ = .error f σ' ∧ AddFault cpu a pc e es f := by
  by_cases hcs : cpu.callstackEbp pc = none
  · refine .inr ⟨.hang, σ, ?_, .hang hcs⟩
    rw [addObj, hashCallstack, bind_error (bind_error (readCallstack_hang hcs))]
  have htype : hashCallstack H cpu pc σ = .ok (H.hash (cpu.callstack pc)) σ := by
    rw [hashCallstack, bind_ok (readCallstack_ok hcs)]
    rfl
  rw [addObj, bind_ok htype]
  by_cases hn : e.name.length < 30
  swap
  · exact .inr ⟨.overflow, σ, bind_error (dif_neg hn), .overflow (Nat.not_lt.mp hn)⟩
  have hname : copyName e.name σ = .ok ⟨e.name, hn⟩ σ := dif_pos hn
  obtain ⟨s, es', hev, hcase⟩ := dsCodeAllInsertRb_spec H a e.size
    ⟨⟨a, e.size, H.hash (cpu.callstack pc), pc⟩, ⟨e.name, hn⟩⟩ hs hf
  have hdel : deleteObj pc σ = .ok () { σ with gObj := update σ.gObj pc none } := rfl
  rw [bind_ok hname, bind_ok hdel]
  rcases hcase with ⟨x, hx, hk, hrun, -⟩ | ⟨A, B, hrun, rfl, hs'⟩
  · have hnc : ¬ x.covers a := hk ▸ Missed.not_covers (hk.symm ▸ hev.missed) hx
    exact .inr ⟨_, _, bind_error (insertRb_error hrun),
      .insertAssert (hev.sub.subset hx) hk hnc⟩
  · refine .inl ⟨s, A, B, ?_, hev, hs'⟩
    rw [bind_ok (insertRb_ok (σ := { σ with gObj := update σ.gObj pc none }) hrun)]
    rfl

lemma returnHook_cases (pc : BitVec 32) :
    (∃ σ' es', returnHook H pc cpu σ = .ok () σ' ∧ Returned H cpu pc σ es σ' es') ∨
      ∃ e f σ', σ.gObj pc = some e ∧ returnHook H pc cpu σ = .error f σ' ∧
        AddFault cpu cpu.eax pc e es f := by
  have hget : getObj pc σ = .ok (σ.gObj pc) σ := rfl
  rw [returnHook, bind_ok hget]
  cases he : σ.gObj pc with
  | none => exact .inl ⟨σ, es, rfl, .skip he⟩
  | some e =>
    by_cases hlen : 50 ≤ e.name.length
    · refine .inr ⟨e, .overflow, σ, rfl, ?_, .overflow (by omega)⟩
      simp only [if_pos hlen]
      rfl
    simp only [if_neg hlen]
    rcases addObj_cases H cpu hs hf cpu.eax e pc with ⟨s, A, B, h1, h2, h3⟩ | ⟨f, σ', h1, h2⟩
    · exact .inl ⟨_, _, h1, .add he h2 h3⟩
    · exact .inr ⟨e, f, σ', rfl, h1, h2⟩

lemma entryHook_cases (pc : BitVec 32) :
    ∃ σ' es', entryHook H pc cpu σ = .ok () σ' ∧ Entered H cpu pc σ es σ' es' := by
  rw [entryHook_eq]
  cases hr : request pc cpu with
  | some e => exact ⟨_, _, rfl, .pend hr⟩
  | none =>
    cases hd : freedAddr pc cpu with
    | none => exact ⟨σ, es, rfl, .skip hr hd⟩
    | some a =>
      obtain ⟨s, es', h1, h2, h3⟩ := dsCodeAllDeleteRb_spec H a hs hf
      exact ⟨_, es', onTree_ok h1, .free hr hd h3 h2⟩

end

/-! ## the three phases of `helper_hook` -/

/-- **What a call of `helper_hook` does**, on an instruction of the kernel. -/
inductive Hooked (H : Host) (pc : BitVec 32) (cpu : Cpu) (σ : Tracer) (es : List Entry) :
    Tracer → List Entry → Prop where
  | user : pc < KERNEL_ADDR_MIN → Hooked H pc cpu σ es σ es
  | kernel {σ₁ σ₂ σ₃ : Tracer} {es₁ es₂ es₃ : List Entry} : ¬ pc < KERNEL_ADDR_MIN →
      Retired H cpu (σ.atPc pc) es (tracedAddr pc cpu) σ₁ es₁ →
      Returned H cpu pc σ₁ es₁ σ₂ es₂ → Entered H cpu pc σ₂ es₂ σ₃ es₃ →
      Hooked H pc cpu σ es σ₃ es₃

lemma traceDelete_cases (H : Host) (cpu : Cpu) (hs : Stores σ.tree es)
    (hf : es.length < H.fuel) (pc : BitVec 32) :
    (∃ σ' es', traceDelete H pc cpu σ = .ok () σ' ∧
      Retired H cpu σ es (tracedAddr pc cpu) σ' es') ∨
      ∃ a f σ', tracedAddr pc cpu = some a ∧ traceDelete H pc cpu σ = .error f σ' ∧
        RetireFault H cpu σ.gPc a σ f := by
  rw [traceDelete_eq]
  cases ha : tracedAddr pc cpu with
  | none => exact .inl ⟨σ, es, rfl, .skip⟩
  | some a =>
    rcases retire_cases H cpu hs hf a with ⟨σ', es', h1, h2⟩ | ⟨f, σ', h1, h2⟩
    · exact .inl ⟨σ', es', h1, h2⟩
    · exact .inr ⟨a, f, σ', rfl, h1, h2⟩

inductive HookFault (H : Host) (pc : BitVec 32) (cpu : Cpu) (σ : Tracer) (es : List Entry)
    (f : Fault) : Prop where
  | retire {a : Addr} : tracedAddr pc cpu = some a → RetireFault H cpu pc a σ f →
      HookFault H pc cpu σ es f
  | add {e : Elem1} : σ.gObj pc = some e → AddFault cpu cpu.eax pc e es f →
      HookFault H pc cpu σ es f

/-- **A call of `helper_hook` goes through its phases, or ends in a fault**, of `trace_delete` or
of `add_obj`. -/
theorem helperHook_cases (H : Host) (hs : Stores σ.tree es) (hf : es.length + 1 < H.fuel)
    (pc : BitVec 32) (cpu : Cpu) :
    (∃ σ' es', helperHook H pc cpu σ = .ok () σ' ∧ Hooked H pc cpu σ es σ' es') ∨
      ∃ f σ', helperHook H pc cpu σ = .error f σ' ∧ HookFault H pc cpu σ es f := by
  by_cases hpc : pc < KERNEL_ADDR_MIN
  · refine .inl ⟨σ, es, ?_, .user hpc⟩
    rw [helperHook, if_pos hpc]
    rfl
  have hset : (modify fun σ => { σ with gPc := pc } : TracerM Unit) σ = .ok () (σ.atPc pc) := rfl
  rw [helperHook, if_neg hpc, bind_ok hset]
  have hs₀ : Stores (σ.atPc pc).tree es := hs
  rcases traceDelete_cases H cpu hs₀ (by omega) pc with ⟨σ₁, es₁, h1, h2⟩ | ⟨a, f, σ', ha, h1, h2⟩
  · have hlen := h2.sub.length_le
    have hs₁ := h2.stores hs₀
    rw [bind_ok h1, objectHook]
    rcases returnHook_cases H cpu hs₁ (by omega) pc with h3 | ⟨e, f, σ', he, h3, h4⟩
    · obtain ⟨σ₂, es₂, h3, h4⟩ := h3
      have hlen' := h4.length_le
      obtain ⟨σ₃, es₃, h5, h6⟩ := entryHook_cases H cpu (h4.stores hs₁) (by omega) pc
      refine .inl ⟨σ₃, es₃, ?_, .kernel hpc h2 h4 h6⟩
      rw [bind_ok h3]
      exact h5
    · rw [h2.gObj_eq] at he
      exact .inr ⟨f, σ', bind_error h3, .add he (h4.sub h2.sub)⟩
  · refine .inr ⟨f, σ', bind_error h1, .retire ha ?_⟩
    cases h2 with
    | segv hd => exact .segv hd
    | hang hcs => exact .hang hcs

section
variable (h : Hooked H pc cpu σ es σ' es')
include h

lemma Hooked.stores (hs : Stores σ.tree es) : Stores σ'.tree es' := by
  cases h with
  | user _ => exact hs
  | kernel _ h1 h2 h3 => exact h3.stores (h2.stores (h1.stores hs))

lemma Hooked.length_le : es'.length ≤ es.length + 1 := by
  cases h with
  | user _ => omega
  | kernel _ h1 h2 h3 =>
    have := h1.sub.length_le
    have := h2.length_le
    have := h3.sub.length_le
    omega

lemma Hooked.inserted_eq (hpc : ¬ pc < KERNEL_ADDR_MIN) :
    σ'.inserted = σ.inserted ++ ((σ.gObj pc).map (cpu.eax, ·)).toList := by
  cases h with
  | user hu => exact absurd hu hpc
  | @kernel σ₁ σ₂ _ es₁ es₂ _ _ h1 h2 h3 =>
    have e1 : σ₁.inserted = σ.inserted := h1.inserted_eq
    have hg : σ₁.gObj pc = σ.gObj pc := congrFun h1.gObj_eq pc
    rw [h3.inserted_eq, ← e1, ← hg]
    cases h2 with
    | skip hn =>
      rw [hn]
      simp
    | add he _ _ =>
      rw [he]
      rfl

lemma Hooked.gObj_eq (hpc : ¬ pc < KERNEL_ADDR_MIN) : σ'.gObj = match request pc cpu with
      | some e => update (update σ.gObj pc none) (cpu.readMem cpu.esp) (some e)
      | none => update σ.gObj pc none := by
  cases h with
  | user hu => exact absurd hu hpc
  | @kernel σ₁ σ₂ _ es₁ es₂ _ _ h1 h2 h3 =>
    have hg : σ₁.gObj = σ.gObj := h1.gObj_eq
    have e2 : σ₂.gObj = update σ.gObj pc none := by
      cases h2 with
      | skip hn =>
        rw [hg] at hn ⊢
        rw [← hn, update_eq_self]
      | add _ _ _ =>
        show update σ₁.gObj pc none = _
        rw [hg]
    rw [← e2]
    cases h3 with
    | skip hr _ | pend hr | free hr _ _ _ => rw [hr]

lemma Hooked.mem {x : Entry} (hx : x ∈ es') : x ∈ es ∨ x.key = cpu.eax := by
  cases h with
  | user _ => exact .inl hx
  | kernel _ h1 h2 h3 =>
    have hx₂ := h3.sub.subset hx
    cases h2 with
    | skip _ => exact .inl (h1.sub.subset hx₂)
    | @add e s A B he hev hs =>
      rcases mem_middle.mp hx₂ with rfl | hAB
      · exact .inr rfl
      · exact .inl (h1.sub.subset (hev.sub.subset hAB))

end

/-! ## accesses -/

/-- an access to the byte `a` of the object at `k`, whose record is `type` and `set` -/
def Tracer.touched (σ : Tracer) (H : Host) (cpu : Cpu) (write : Bool) (k a size : BitVec 32)
    (type : BitVec 64) (set : List String) : Tracer :=
  let cs := cpu.callstack σ.gPc
  let line := accessLine (H.hash cs) (getMemTaint2 σ.shadow a) σ.gPc (a - k)
  { noteAccess H cs write σ with
    shadow := if write then setMemTaintBysize2 H σ.shadow a 1 size else σ.shadow
    gInstances := update σ.gInstances k (some ⟨type, some (set.insert line)⟩) }

inductive Accessed (H : Host) (cpu : Cpu) (write : Bool) (a size : BitVec 32) (σ : Tracer)
    (es : List Entry) : Tracer → Prop where
  | user : a < KERNEL_ADDR_MIN → Accessed H cpu write a size σ es σ
  | miss : dsCodeRbtFind2 H a σ.tree = .ok .null σ.tree → Missed es a →
      Accessed H cpu write a size σ es σ
  | hit {p : Ptr} {type : BitVec 64} {set : List String} : ¬ a < KERNEL_ADDR_MIN →
      dsCodeRbtFind2 H a σ.tree = .ok p σ.tree → p ≠ .null → σ.tree.entryOf p ∈ es →
      (σ.tree.entryOf p).covers a → σ.gInstances (σ.tree.entryOf p).key = some ⟨type, some set⟩ →
      Accessed H cpu write a size σ es
        (σ.touched H cpu write (σ.tree.entryOf p).key a size type set)

/-- an object is found at `a` that has no record -/
def Unrecorded (es : List Entry) (a : Addr) (σ : Tracer) : Prop :=
  ∃ x ∈ es, x.covers a ∧ ∀ type set, σ.gInstances x.key ≠ some ⟨type, some set⟩

lemma insertAccess_ok (line : String) (h : σ.gInstances a = some ⟨type, some set⟩) :
    insertAccess a line σ = .ok () { σ with
      gInstances := update σ.gInstances a (some ⟨type, some (set.insert line)⟩) } := by
  rw [insertAccess, bind_ok (instanceAt_ok h)]
  rfl

/-- the outcome of an access to the object at `k` -/
def Acts (H : Host) (cpu : Cpu) (write : Bool) (k a size : BitVec 32) (type : BitVec 64)
    (set : List String) (σ : Tracer) (r : EStateM.Result Fault Tracer Unit) : Prop :=
  if cpu.callstackEbp σ.gPc = none then r = .error .hang σ
  else r = .ok () (σ.touched H cpu write k a size type set)

lemma addReadAction_acts {k : Addr} (size action : BitVec 32)
    (h : σ.gInstances k = some ⟨type, some set⟩) :
    Acts H cpu false k a size type set σ (addReadAction H cpu k size (a - k) σ.gPc action σ) := by
  have hg : (get : TracerM Tracer) σ = .ok σ σ := rfl
  have ha : k + (a - k) = a := by bv_omega
  rw [addReadAction, bind_ok hg, h]
  unfold Acts
  split
  next hcs => exact (bind_ok hg).trans (bind_error (readCallstack_hang hcs))
  next hcs =>
  refine ((bind_ok hg).trans (bind_ok (readCallstack_ok hcs))).trans
    ((insertAccess_ok (σ := noteAccess H (cpu.callstack σ.gPc) false σ) _ h).trans ?_)
  rw [ha]
  rfl

lemma addWriteAction_acts {k : Addr} (size action : BitVec 32)
    (h : σ.gInstances k = some ⟨type, some set⟩) :
    Acts H cpu true k a size type set σ (addWriteAction H cpu k size (a - k) σ.gPc action σ) := by
  have hg : (get : TracerM Tracer) σ = .ok σ σ := rfl
  have ha : k + (a - k) = a := by bv_omega
  rw [addWriteAction, bind_ok hg, h]
  unfold Acts
  split
  next hcs => exact (bind_ok hg).trans (bind_error (readCallstack_hang hcs))
  next hcs =>
  refine ((bind_ok hg).trans (bind_ok (readCallstack_ok hcs))).trans
    ((insertAccess_ok (σ := { noteAccess H (cpu.callstack σ.gPc) true σ with
      shadow := setMemTaintBysize2 H σ.shadow (k + (a - k)) 1 size }) _ h).trans ?_)
  rw [ha]
  rfl

/-- the object is found, but the call stack of the access cannot be read -/
def StackHangs (cpu : Cpu) (σ : Tracer) (r : EStateM.Result Fault Tracer Unit) : Prop :=
  r = .error .hang σ ∧ cpu.callstackEbp σ.gPc = none

lemma onObject_cases (H : Host) (cpu : Cpu) (write : Bool) (hs : Stores σ.tree es)
    (hf : es.length < H.fuel) (a size : BitVec 32)
    {action : Addr → BitVec 32 → BitVec 32 → TracerM Unit}
    (hact : ∀ k type set, σ.gInstances k = some ⟨type, some set⟩ →
      Acts H cpu write k a size type set σ (action k (a - k) σ.gPc σ)) :
    (∃ σ', onObject H a action σ = .ok () σ' ∧ Accessed H cpu write a size σ es σ') ∨
      StackHangs cpu σ (onObject H a action σ) ∨ Unrecorded es a σ := by
  by_cases ha : a < KERNEL_ADDR_MIN
  · refine .inl ⟨σ, ?_, .user ha⟩
    rw [onObject, if_pos ha]
    rfl
  obtain ⟨p, hfind, hp⟩ := hs.find2 H hf a
  have hfind' : onTree (dsCodeRbtFind2 H a) σ = .ok p σ := onTree_ok hfind
  rw [onObject, if_neg ha, bind_ok hfind']
  rcases hp with ⟨hne, hv, hmem, hc⟩ | ⟨rfl, hm⟩
  · by_cases hi : ∃ type set, σ.gInstances (σ.tree.entryOf p).key = some ⟨type, some set⟩
    · obtain ⟨type, set, hi⟩ := hi
      have hload : onTree (load p) σ = .ok (σ.tree.mem p) σ := onTree_ok (load_ok hv)
      have hrun := hact _ type set hi
      unfold Acts at hrun
      rw [if_pos hne, bind_ok hload]
      split at hrun
      next hcs => exact .inr (.inl ⟨hrun, hcs⟩)
      next hcs => exact .inl ⟨_, hrun, .hit ha hfind hne hmem hc hi⟩
    · exact .inr (.inr ⟨_, hmem, hc, fun type set k => hi ⟨type, set, k⟩⟩)
  · refine .inl ⟨σ, ?_, .miss hfind hm⟩
    rfl

section
variable (H) (cpu) (hs : Stores σ.tree es) (hf : es.length < H.fuel)
include hs hf

lemma helperLoad_cases (a size : BitVec 32) :
    (∃ σ', helperLoad H a size cpu σ = .ok () σ' ∧ Accessed H cpu false a size σ es σ') ∨
      StackHangs cpu σ (helperLoad H a size cpu σ) ∨ Unrecorded es a σ :=
  onObject_cases H cpu false hs hf a size (fun _ _ _ h => addReadAction_acts size 1 h)

lemma helperStore_cases (value a size : BitVec 32) :
    (∃ σ', helperStore H value a size cpu σ = .ok () σ' ∧ Accessed H cpu true a size σ es σ') ∨
      StackHangs cpu σ (helperStore H value a size cpu σ) ∨ Unrecorded es a σ :=
  onObject_cases H cpu true hs hf a size (fun _ _ _ h => addWriteAction_acts size 2 h)

end

end
end RevSem
