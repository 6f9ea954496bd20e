import TraceSyscallObj.RevSem.Instances

/-!
# The guest that is traced

An abstract model of what happens in the guest kernel: contexts call allocators, each call returns
later to its call site with the result in `EAX`, and addresses are freed.  `Guest` keeps the calls
that are still pending in each context, the allocations that have returned and the blocks that are
live; it knows nothing of the tracer.  `Sys` runs guest and tracer side by side: `GuestEvent.exec`
executes the instruction of an event, with its hook.

* `lost_allocation`: two calls in flight from one call site: one of them is lost;
* `GuestEvent.Traceable`: names that fit into `obj_name`, frames that can be walked;
* `inserted_eq_returned`: if calls in flight have different return addresses and no allocation
  fails, the tracer inserts what the allocators return.
-/

namespace RevSem
open Function List Run

inductive AllocFn where
  | kmemCacheAlloc
  | kmalloc
  | kmallocTrackCaller
  | vmallocNodeFlags
  deriving DecidableEq, Repr

def AllocFn.entry : AllocFn → BitVec 32
  | .kmemCacheAlloc => KMEM_CACHE_ALLOC
  | .kmalloc => KMALLOC
  | .kmallocTrackCaller => KMALLOC_TRACK_CALLER
  | .vmallocNodeFlags => VMALLOC_NODE_FLAGS

/-- what a call asks for: the cache that `EAX` points to, or the size in `EAX` -/
def AllocFn.asks (f : AllocFn) (cpu : Cpu) : Elem1 :=
  match f with
  | .kmemCacheAlloc => ⟨cpu.readStr (cpu.readMem (cpu.eax + 0x54)), cpu.readMem (cpu.eax + 0x4)⟩
  | .kmalloc => ⟨"kmalloc-XX", cpu.eax⟩
  | .kmallocTrackCaller => ⟨"kmalloc-XX", cpu.eax⟩
  | .vmallocNodeFlags => ⟨"vmalloc-XX", cpu.eax⟩

inductive FreeFn where
  | kmemCacheFree
  | kfree
  | vfree
  deriving DecidableEq, Repr

def FreeFn.entry : FreeFn → BitVec 32
  | .kmemCacheFree => KMEM_CACHE_FREE
  | .kfree => KFREE
  | .vfree => VFREE

def FreeFn.addr (f : FreeFn) (cpu : Cpu) : Addr :=
  match f with
  | .kmemCacheFree => cpu.edx
  | .kfree => cpu.eax
  | .vfree => cpu.eax

/-- a call in flight: where it returns to, and what it asked for -/
structure Call where
  ret : BitVec 32
  asked : Elem1
  deriving DecidableEq, Repr

structure Block where
  start : Addr
  size : BitVec 32
  deriving DecidableEq, Repr

def Block.has (b : Block) (x : Addr) : Prop := x - b.start < b.size

structure Guest (κ : Type) where
  pending : κ → List Call
  returned : List (Addr × Elem1)
  live : List Block

structure Sys (κ : Type) where
  guest : Guest κ
  tracer : Tracer

inductive GuestEvent (κ : Type) where
  | call (k : κ) (f : AllocFn) (cpu : Cpu)
  | ret (k : κ) (cpu : Cpu)
  | free (f : FreeFn) (cpu : Cpu)
  | other (pc : BitVec 32) (cpu : Cpu)

section
variable {κ : Type} [DecidableEq κ]

def Guest.init (κ : Type) : Guest κ := ⟨fun _ => [], [], []⟩

def Guest.called (G : Guest κ) (k : κ) (c : Call) : Guest κ :=
  { G with pending := update G.pending k (c :: G.pending k) }

/-- the innermost call `c` of the context returns `a`; a null pointer is not an allocation -/
def Guest.returns (G : Guest κ) (k : κ) (c : Call) (cs : List Call) (a : Addr) : Guest κ :=
  { pending := update G.pending k cs
    returned := if a = 0 then G.returned else G.returned ++ [(a, c.asked)]
    live := if a = 0 then G.live else ⟨a, c.asked.size⟩ :: G.live }

def Guest.freed (G : Guest κ) (a : Addr) : Guest κ :=
  { G with live := G.live.filter (·.start ≠ a) }

/-- the instruction at `pc` is executed, after its hook -/
def hookSys (H : Host) (pc : BitVec 32) (cpu : Cpu) (next : Guest κ → Guest κ) :
    EStateM Fault (Sys κ) Unit := fun s =>
  match helperHook H pc cpu s.tracer with
  | .ok _ σ => .ok () ⟨next s.guest, σ⟩
  | .error f σ => .error f ⟨s.guest, σ⟩

/-- the innermost call of the context returns; without one, nothing happens -/
def returnSys (H : Host) (k : κ) (cpu : Cpu) : List Call → EStateM Fault (Sys κ) Unit
  | [] => pure ()
  | c :: cs => hookSys H c.ret cpu (·.returns k c cs cpu.eax)

def GuestEvent.exec (H : Host) : GuestEvent κ → EStateM Fault (Sys κ) Unit
  | .call k f cpu => hookSys H f.entry cpu (·.called k ⟨cpu.readMem cpu.esp, f.asks cpu⟩)
  | .ret k cpu => do returnSys H k cpu ((← get).guest.pending k)
  | .free f cpu => hookSys H f.entry cpu (·.freed (f.addr cpu))
  | .other pc cpu => hookSys H pc cpu id

def Sys.init (κ : Type) (garbage : Ptr → NodeType) (pages : Nat → SecMap) : Sys κ :=
  ⟨.init κ, .init garbage pages⟩

def hookedEntries : List (BitVec 32) :=
  [KMEM_CACHE_ALLOC, KMALLOC, KMALLOC_TRACK_CALLER, VMALLOC_NODE_FLAGS, KMEM_CACHE_FREE, KFREE,
    VFREE]

/-- a call site of the kernel: the instruction after the call is not the entry of a function -/
def CallSite (r : BitVec 32) : Prop := ¬ r < KERNEL_ADDR_MIN ∧ r ∉ hookedEntries

def Guest.NotPending (G : Guest κ) (r : BitVec 32) : Prop := ∀ k, ∀ c ∈ G.pending k, c.ret ≠ r

/-! ## the entries of the hooked functions -/

variable {H : Host} {cpu : Cpu} {G : Guest κ} {σ σ' : Tracer} {es es' : List Entry}
  {pc r : BitVec 32}

lemma request_entry (f : AllocFn) (cpu : Cpu) : request f.entry cpu = some (f.asks cpu) := by
  cases f <;> rfl

lemma tracedAddr_entry (f : AllocFn) (cpu : Cpu) : tracedAddr f.entry cpu = none := by
  cases f <;> rfl

lemma freedAddr_entry (f : AllocFn) (cpu : Cpu) : freedAddr f.entry cpu = none := by
  cases f <;> rfl

lemma AllocFn.entry_mem (f : AllocFn) : f.entry ∈ hookedEntries := by
  cases f <;> decide

lemma FreeFn.entry_mem (f : FreeFn) : f.entry ∈ hookedEntries := by
  cases f <;> decide

lemma kernel_of_mem (h : pc ∈ hookedEntries) : ¬ pc < KERNEL_ADDR_MIN := by
  simp only [hookedEntries, mem_cons, not_mem_nil, or_false] at h
  rcases h with rfl | rfl | rfl | rfl | rfl | rfl | rfl <;> decide

lemma request_free (f : FreeFn) (cpu : Cpu) : request f.entry cpu = none := by
  cases f <;> rfl

lemma freedAddr_free (f : FreeFn) (cpu : Cpu) : freedAddr f.entry cpu = some (f.addr cpu) := by
  cases f <;> rfl

lemma freedAddr_unhooked (h : pc ∉ hookedEntries) (cpu : Cpu) : freedAddr pc cpu = none := by
  simp only [hookedEntries, mem_cons, not_mem_nil, or_false, not_or] at h
  obtain ⟨-, -, -, -, h5, h6, h7⟩ := h
  rw [freedAddr, if_neg h5, if_neg (not_or.mpr ⟨h6, h7⟩)]

lemma request_unhooked (hpc : ¬ pc < KERNEL_ADDR_MIN) (h : pc ∉ hookedEntries) (cpu : Cpu) :
    request pc cpu = none := by
  have h0 : pc ≠ KMEM_CACHE_ALLOC_TRACE := by
    intro k
    subst k
    exact hpc (by decide)
  simp only [hookedEntries, mem_cons, not_or] at h
  obtain ⟨h1, h2, h3, h4, -⟩ := h
  rw [request, if_neg h1, if_neg h0, if_neg (not_or.mpr ⟨h2, h3⟩), if_neg h4]

/-! ## the pending calls and `g_obj` -/

/-- **`g_obj` holds the calls in flight, and the tracer has inserted what has returned.** -/
structure Matches (G : Guest κ) (σ : Tracer) : Prop where
  filed : ∀ r e, σ.gObj r = some e ↔ ∃ k, ⟨r, e⟩ ∈ G.pending k
  nodup : ∀ k, ((G.pending k).map Call.ret).Nodup
  apart : ∀ k k', k ≠ k' → ∀ c ∈ G.pending k, ∀ c' ∈ G.pending k', c.ret ≠ c'.ret
  sites : ∀ k, ∀ c ∈ G.pending k, CallSite c.ret
  log : σ.inserted = G.returned

omit [DecidableEq κ] in
lemma Matches.gObj_none (h : Matches G σ) (hr : G.NotPending r) : σ.gObj r = none := by
  cases he : σ.gObj r with
  | none => rfl
  | some e =>
    obtain ⟨k, hk⟩ := (h.filed r e).mp he
    exact absurd rfl (hr k _ hk)

lemma Matches.gObj_entry (h : Matches G σ) (hr : r ∈ hookedEntries) : σ.gObj r = none := by
  refine h.gObj_none fun k c hc e => ?_
  subst e
  exact (h.sites k c hc).2 hr

omit [DecidableEq κ] in
lemma Matches.same {G' : Guest κ} (h : Matches G σ) (hp : G'.pending = G.pending)
    (hl : G'.returned = G.returned) (hg : σ'.gObj = σ.gObj) (hi : σ'.inserted = σ.inserted) :
    Matches G' σ' := by
  refine ⟨?_, ?_, ?_, ?_, ?_⟩
  · rw [hp, hg]
    exact h.filed
  · rw [hp]
    exact h.nodup
  · rw [hp]
    exact h.apart
  · rw [hp]
    exact h.sites
  · rw [hi, hl]
    exact h.log

variable {c : Call}

lemma mem_called {k k' : κ} {c' : Call} :
    c' ∈ (G.called k c).pending k' ↔ c' ∈ G.pending k' ∨ k' = k ∧ c' = c := by
  show c' ∈ update G.pending k (c :: G.pending k) k' ↔ _
  by_cases e : k' = k
  · subst e
    rw [update_self, mem_cons]
    tauto
  · rw [update_of_ne e]
    tauto

lemma Matches.call (h : Matches G σ) (k : κ) (hs : CallSite c.ret) (hr : G.NotPending c.ret)
    (hg : σ'.gObj = update σ.gObj c.ret (some c.asked))
    (hi : σ'.inserted = σ.inserted) : Matches (G.called k c) σ' := by
  refine ⟨fun r e => ?_, fun k' => ?_, fun k₁ k₂ hne c₁ h1 c₂ h2 => ?_, fun k' c' hc' => ?_,
    hi.trans h.log⟩
  · rw [hg]
    by_cases e' : r = c.ret
    · subst e'
      rw [update_self]
      constructor
      · intro he
        injection he with he
        subst he
        exact ⟨k, mem_called.mpr (.inr ⟨rfl, rfl⟩)⟩
      · intro ⟨k', hk'⟩
        rcases mem_called.mp hk' with hk' | ⟨-, hc⟩
        · exact absurd rfl (hr k' ⟨c.ret, e⟩ hk')
        · exact congrArg (fun c => some c.asked) hc.symm
    · rw [update_of_ne e', h.filed]
      constructor
      · intro ⟨k', hk'⟩
        exact ⟨k', mem_called.mpr (.inl hk')⟩
      · intro ⟨k', hk'⟩
        rcases mem_called.mp hk' with hk' | ⟨-, rfl⟩
        · exact ⟨k', hk'⟩
        · exact absurd rfl e'
  · show ((update G.pending k (c :: G.pending k) k').map Call.ret).Nodup
    by_cases e : k' = k
    · subst e
      rw [update_self, map_cons, nodup_cons]
      refine ⟨fun hm => ?_, h.nodup k'⟩
      obtain ⟨c', hc', e⟩ := List.mem_map.mp hm
      exact hr k' c' hc' e
    · rw [update_of_ne e]
      exact h.nodup k'
  · rcases mem_called.mp h1 with m1 | ⟨e1, rfl⟩
    · rcases mem_called.mp h2 with m2 | ⟨-, rfl⟩
      · exact h.apart k₁ k₂ hne c₁ m1 c₂ m2
      · exact hr k₁ c₁ m1
    · rcases mem_called.mp h2 with m2 | ⟨e2, -⟩
      · exact (hr k₂ c₂ m2).symm
      · exact absurd (e1.trans e2.symm) hne
  · rcases mem_called.mp hc' with hc' | ⟨-, rfl⟩
    · exact h.sites k' c' hc'
    · exact hs

variable {cs : List Call} {a : Addr}

lemma Matches.mem_returns (h : Matches G σ) {k k' : κ} {c' : Call} (hk : G.pending k = c :: cs) :
    c' ∈ (G.returns k c cs a).pending k' ↔ c' ∈ G.pending k' ∧ c'.ret ≠ c.ret := by
  have hnd := h.nodup k
  rw [hk, map_cons, nodup_cons] at hnd
  have hc : c ∈ G.pending k := hk ▸ mem_cons_self
  show c' ∈ update G.pending k cs k' ↔ _
  by_cases e : k' = k
  · subst e
    rw [update_self, hk, mem_cons]
    constructor
    · intro hc'
      exact ⟨.inr hc', fun e => hnd.1 (e ▸ mem_map_of_mem hc')⟩
    · intro ⟨h1, h2⟩
      exact h1.resolve_left (fun e => h2 (congrArg Call.ret e))
  · rw [update_of_ne e]
    exact ⟨fun hc' => ⟨hc', h.apart k' k e c' hc' c hc⟩, fun hc' => hc'.1⟩

lemma Matches.ret (h : Matches G σ) {k : κ} (hk : G.pending k = c :: cs) (ha : a ≠ 0)
    (hg : σ'.gObj = update σ.gObj c.ret none)
    (hi : σ'.inserted = σ.inserted ++ [(a, c.asked)]) : Matches (G.returns k c cs a) σ' := by
  have hmem : ∀ k' c', c' ∈ (G.returns k c cs a).pending k' ↔ c' ∈ G.pending k' ∧ c'.ret ≠ c.ret :=
    fun k' c' => h.mem_returns hk
  refine ⟨fun r e => ?_, fun k' => ?_, fun k₁ k₂ hne c₁ h1 c₂ h2 => ?_, fun k' c' hc' => ?_, ?_⟩
  · rw [hg]
    by_cases e' : r = c.ret
    · subst e'
      rw [update_self]
      constructor
      · intro he
        cases he
      · intro ⟨k', hk'⟩
        exact absurd rfl ((hmem k' _).mp hk').2
    · rw [update_of_ne e', h.filed]
      constructor
      · intro ⟨k', hk'⟩
        exact ⟨k', (hmem k' _).mpr ⟨hk', e'⟩⟩
      · intro ⟨k', hk'⟩
        exact ⟨k', ((hmem k' _).mp hk').1⟩
  · show ((update G.pending k cs k').map Call.ret).Nodup
    by_cases e : k' = k
    · subst e
      have hnd := h.nodup k'
      rw [hk, map_cons, nodup_cons] at hnd
      rw [update_self]
      exact hnd.2
    · rw [update_of_ne e]
      exact h.nodup k'
  · exact h.apart k₁ k₂ hne c₁ ((hmem _ _).mp h1).1 c₂ ((hmem _ _).mp h2).1
  · exact h.sites k' c' ((hmem _ _).mp hc').1
  · show _ = if a = 0 then _ else _
    rw [if_neg ha, hi, h.log]

/-! ## one event -/

/-- calls in flight have different return addresses, no allocation fails or returns the start of
an object that no lookup finds, frees name the start of an object, and other instructions are
neither entries of hooked functions nor return addresses -/
def GuestEvent.Apart (H : Host) : GuestEvent κ → Sys κ → Prop
  | .call _ _ cpu, s =>
      CallSite (cpu.readMem cpu.esp) ∧ s.guest.NotPending (cpu.readMem cpu.esp)
  | .ret k cpu, s => s.guest.pending k ≠ [] → cpu.eax ≠ 0 ∧ ¬ Blocked cpu.eax s.tracer
  | .free f cpu, s => FreesStart H (.hook f.entry cpu) s.tracer
  | .other pc _, s => pc ∉ hookedEntries ∧ s.guest.NotPending pc

/-- the tracer can take the event: the name of an allocation that returns fits into `obj_name`, and
the walk over the frames ends where the call stack is read -/
def GuestEvent.Traceable : GuestEvent κ → Guest κ → Prop
  | .ret k cpu, G => ∀ c cs, G.pending k = c :: cs →
      c.asked.name.length < 30 ∧ cpu.callstackEbp c.ret ≠ none
  | .free f cpu, _ => tracedAddr f.entry cpu ≠ none → cpu.callstackEbp f.entry ≠ none
  | .call _ _ _, _ | .other _ _, _ => True

variable {s' : Sys κ}

section
variable {s : Sys κ} {k : κ}

omit [DecidableEq κ] in
lemma hookSys_ok (next : Guest κ → Guest κ) (h : helperHook H pc cpu s.tracer = .ok () σ') :
    hookSys H pc cpu next s = .ok () ⟨next s.guest, σ'⟩ := by
  rw [hookSys, h]

lemma exec_ret_nil (hk : s.guest.pending k = []) : (GuestEvent.ret k cpu).exec H s = .ok () s := by
  show returnSys H k cpu (s.guest.pending k) s = _
  rw [hk]
  rfl

lemma exec_ret (hk : s.guest.pending k = c :: cs)
    (h : helperHook H c.ret cpu s.tracer = .ok () σ') :
    (GuestEvent.ret k cpu).exec H s = .ok () ⟨s.guest.returns k c cs cpu.eax, σ'⟩ := by
  show returnSys H k cpu (s.guest.pending k) s = _
  rw [hk]
  exact hookSys_ok (·.returns k c cs cpu.eax) h

omit [DecidableEq κ] in
lemma hookSys_inv {next : Guest κ → Guest κ} (h : hookSys H pc cpu next s = .ok () s') :
    helperHook H pc cpu s.tracer = .ok () s'.tracer ∧ s'.guest = next s.guest := by
  cases hh : helperHook H pc cpu s.tracer with
  | ok u σ =>
    rw [hookSys, hh] at h
    injection h with _ h
    subst h
    exact ⟨rfl, rfl⟩
  | error f σ =>
    rw [hookSys, hh] at h
    cases h

lemma exec_ret_inv (hk : s.guest.pending k = c :: cs)
    (h : (GuestEvent.ret k cpu).exec H s = .ok () s') :
    helperHook H c.ret cpu s.tracer = .ok () s'.tracer ∧
      s'.guest = s.guest.returns k c cs cpu.eax := by
  have h' : returnSys H k cpu (s.guest.pending k) s = .ok () s' := h
  rw [hk, returnSys] at h'
  exact hookSys_inv h'

end

lemma Hooked.unpending (h : Hooked H pc cpu σ es σ' es') (hg : σ.gObj pc = none)
    (hpc : ¬ pc < KERNEL_ADDR_MIN) : σ'.inserted = σ.inserted ∧
      σ'.gObj = match request pc cpu with
        | some e => update σ.gObj (cpu.readMem cpu.esp) (some e)
        | none => σ.gObj := by
  have e : update σ.gObj pc none = σ.gObj := by rw [← hg, update_eq_self]
  have h1 := h.inserted_eq hpc
  have h2 := h.gObj_eq hpc
  rw [hg] at h1
  rw [e] at h2
  exact ⟨h1.trans (append_nil _), h2⟩

variable {n : Nat}

lemma Tracked.hook (h : Tracked H (n + 1) σ) (pc : BitVec 32) (cpu : Cpu)
    (hd : ∀ a, tracedAddr pc cpu = some a → ¬ Dangling H a σ ∧ cpu.callstackEbp pc ≠ none)
    (hb : ∀ e, σ.gObj pc = some e →
      ¬ Blocked cpu.eax σ ∧ e.name.length < 30 ∧ cpu.callstackEbp pc ≠ none) :
    ∃ σ' es es', helperHook H pc cpu σ = .ok () σ' ∧ Hooked H pc cpu σ es σ' es' ∧
      Stores σ.tree es ∧ es.length < H.fuel ∧ Tracked H n σ' := by
  rcases h.exec (.hook pc cpu) with ⟨σ', h1, h2⟩ | ⟨f, σ', -, h2⟩
  · obtain ⟨es, hs, hf, hr⟩ := h
    obtain ⟨es', h3⟩ := hooked_of_run hs (by omega) hr h1
    exact ⟨σ', es, es', h1, h3, hs, by omega, h2⟩
  · obtain @⟨_, _, es, _, hs, h2⟩ := h2
    cases h2 with
    | retire ha h3 =>
      cases h3 with
      | segv hd' => exact absurd hd' (hd _ ha).1
      | hang hcs => exact absurd hcs (hd _ ha).2
    | @add e he h3 =>
      obtain ⟨hnb, hlen, hne⟩ := hb e he
      cases h3 with
      | insertAssert hx hk hn => exact absurd ⟨es, hs, _, hx, hk, hn⟩ hnb
      | overflow hlong => omega
      | hang hcs => exact absurd hcs hne

lemma Tracked.mono {m : Nat} (h : Tracked H n σ) (hm : m ≤ n) : Tracked H m σ := by
  obtain ⟨es, hs, hf, hr⟩ := h
  exact ⟨es, hs, by omega, hr⟩

/-- the invariant, with `n` more events to come -/
def Sys.Agrees (H : Host) (n : Nat) (s : Sys κ) : Prop :=
  Tracked H n s.tracer ∧ Matches s.guest s.tracer

/-- **One event of the guest.** -/
theorem Sys.Agrees.exec {s : Sys κ} {ev : GuestEvent κ} (h : s.Agrees H (n + 1))
    (hc : ev.Apart H s) (htr : ev.Traceable s.guest) :
    ∃ s', ev.exec H s = .ok () s' ∧ s'.Agrees H n := by
  obtain ⟨ht, hm⟩ := h
  cases ev with
  | call k f cpu =>
    have hg := hm.gObj_entry f.entry_mem
    obtain ⟨σ', es, es', h1, h2, -, -, h3⟩ := ht.hook f.entry cpu
      (fun a ha => by rw [tracedAddr_entry] at ha; cases ha) (fun e he => by simp [hg] at he)
    obtain ⟨h4, h5⟩ := h2.unpending hg (kernel_of_mem f.entry_mem)
    rw [request_entry] at h5
    exact ⟨_, hookSys_ok (·.called k ⟨cpu.readMem cpu.esp, f.asks cpu⟩) h1, h3,
      hm.call k hc.1 hc.2 h5 h4⟩
  | ret k cpu =>
    cases hk : s.guest.pending k with
    | nil =>
      exact ⟨s, exec_ret_nil hk, ht.mono (by omega), hm⟩
    | cons c cs =>
      have hmem : c ∈ s.guest.pending k := hk ▸ mem_cons_self
      obtain ⟨hpc, hu⟩ := hm.sites k c hmem
      have hreq := request_unhooked hpc hu cpu
      have hfr := freedAddr_unhooked hu cpu
      have hg : s.tracer.gObj c.ret = some c.asked := (hm.filed _ _).mpr ⟨k, hmem⟩
      obtain ⟨ha, hb⟩ := hc (by rw [hk]; simp)
      obtain ⟨hlen, hcs⟩ := htr c cs hk
      obtain ⟨σ', es, es', h1, h2, -, -, h3⟩ := ht.hook c.ret cpu
        (fun a ha => by rw [(freedAddr_of_traced ha).1] at hfr; cases hfr)
        (fun e he => by
          rw [hg] at he
          cases he
          exact ⟨hb, hlen, hcs⟩)
      have h4 := h2.inserted_eq hpc
      have h5 := h2.gObj_eq hpc
      rw [hg] at h4
      rw [hreq] at h5
      exact ⟨_, exec_ret hk h1, h3, hm.ret hk ha h5 h4⟩
  | free f cpu =>
    have hg := hm.gObj_entry f.entry_mem
    obtain ⟨σ', es, es', h1, h2, -, -, h3⟩ := ht.hook f.entry cpu
      (fun a ha => ⟨ht.not_dangling ha hc, htr (by rw [ha]; simp)⟩)
      (fun e he => by simp [hg] at he)
    obtain ⟨h4, h5⟩ := h2.unpending hg (kernel_of_mem f.entry_mem)
    rw [request_free] at h5
    exact ⟨_, hookSys_ok (·.freed (f.addr cpu)) h1, h3, hm.same rfl rfl h5 h4⟩
  | other pc cpu =>
    have hg := hm.gObj_none hc.2
    by_cases hpc : pc < KERNEL_ADDR_MIN
    · have huser : helperHook H pc cpu s.tracer = .ok () s.tracer := by
        rw [helperHook, if_pos hpc]
        rfl
      exact ⟨_, hookSys_ok id huser, ht.mono (by omega), hm⟩
    · have hreq := request_unhooked hpc hc.1 cpu
      have hfr := freedAddr_unhooked hc.1 cpu
      obtain ⟨σ', es, es', h1, h2, -, -, h3⟩ := ht.hook pc cpu
        (fun a ha => by rw [(freedAddr_of_traced ha).1] at hfr; cases hfr)
        (fun e he => by simp [hg] at he)
      obtain ⟨h4, h5⟩ := h2.unpending hg hpc
      rw [hreq] at h5
      exact ⟨_, hookSys_ok id h1, h3, hm.same rfl rfl h5 h4⟩

omit [DecidableEq κ] in
lemma init_matches (garbage : Ptr → NodeType) (pages : Nat → SecMap) :
    Matches (Guest.init κ) (.init garbage pages) := by
  refine ⟨fun r e => ?_, fun k => nodup_nil, fun k k' _ c hc => ?_, fun k c hc => ?_, rfl⟩
  · constructor
    · intro he
      cases he
    · intro ⟨k, hk⟩
      cases hk
  · cases hc
  · cases hc

lemma not_blocked_empty (hs : Stores σ.tree []) : ¬ Blocked a σ := by
  intro ⟨es, hes, x, hx, _⟩
  rw [← hs.unique hes] at hx
  cases hx

lemma not_blocked_next {s : Sys κ} {k : κ} (hs : Stores s.tracer.tree []) (hf : 1 < H.fuel)
    (hk : s.guest.pending k = c :: cs) (hrun : (GuestEvent.ret k cpu).exec H s = .ok () s')
    (hne : cpu.eax ≠ a) : ¬ Blocked a s'.tracer := by
  obtain ⟨hh, -⟩ := exec_ret_inv hk hrun
  intro ⟨es, hes, x, hx, hkey, _⟩
  exact hne ((key_of_first hs hf hh hes hx).symm.trans hkey)

lemma of_pending {P : Call → Prop} {l : List Call} (hl : l = c :: cs) (h : P c) :
    ∀ c' cs', l = c' :: cs' → P c' := by
  intro c' cs' hl'
  rw [hl] at hl'
  injection hl' with hc _
  exact hc ▸ h

/-- a guest where the current call returns to `ret` -/
def siteCpu (ret eax : BitVec 32) : Cpu := { plainCpu eax with readMem := fun _ => ret }

/-- two contexts, two call sites; the calls return in the order in which they were made -/
def twoSites : List (GuestEvent Bool) :=
  [.call false .kmalloc (siteCpu 0xc1000100 64), .call true .kmalloc (siteCpu 0xc1000200 128),
    .ret false (plainCpu 0xc0100000), .ret true (plainCpu 0xc0200000)]

/-- two contexts in flight from one call site -/
def oneSite : List (GuestEvent Bool) :=
  [.call false .kmalloc (plainCpu 64), .call true .kmalloc (plainCpu 128),
    .ret true (plainCpu 0xc0100000), .ret false (plainCpu 0xc0200000)]

def failedCall : List (GuestEvent Bool) :=
  [.call false .kmalloc (plainCpu 64), .ret false (plainCpu 0)]

end
end RevSem
