import TraceSyscallObj.RevSem.Guest
import TraceSyscallObj.RevSem.Records

/-!
# The object tree refines the live allocations

For a guest whose allocator works (`GuestEvent.Proper`: blocks that are live together are disjoint,
not empty, and end below `2^32`; what is freed is the start of a live block), the entries of the
object tree are the live blocks at every time, and a lookup finds the block that contains the
address, as long as the tracer can take the events.

* `Live bs es`: the entries `es` are the blocks `bs`;
* `Live.ret`, `Live.free`: one event;
* `tree_refines_live`: a whole trace;
* `long_name_overflows`: a trace that the tracer does not survive.
-/

namespace RevSem
open Run

/-- not null, not empty, and `start + size` does not wrap -/
def Block.Proper (b : Block) : Prop := b.start ≠ 0 ∧ b.start < b.start + b.size

def Block.Apart (b b' : Block) : Prop := ∀ x, ¬ (b.has x ∧ b'.has x)

def Entry.block (e : Entry) : Block := ⟨e.key, e.size⟩

/-- the guest keeps to the rules of its allocator -/
def GuestEvent.Proper {κ : Type} : GuestEvent κ → Guest κ → Prop
  | .call _ _ cpu, G => CallSite (cpu.readMem cpu.esp) ∧ G.NotPending (cpu.readMem cpu.esp)
  | .ret k cpu, G => ∀ c cs, G.pending k = c :: cs →
      (Block.mk cpu.eax c.asked.size).Proper ∧
        ∀ b ∈ G.live, (Block.mk cpu.eax c.asked.size).Apart b
  | .free f cpu, G => ∃ b ∈ G.live, b.start = f.addr cpu
  | .other pc _, G => pc ∉ hookedEntries ∧ G.NotPending pc

/-- **The entries `es` are the live blocks `bs`.** -/
structure Live (bs : List Block) (es : List Entry) : Prop where
  mem : ∀ b, b ∈ bs ↔ ∃ e ∈ es, e.block = b
  proper : ∀ b ∈ bs, b.Proper
  apart : ∀ b ∈ bs, ∀ b' ∈ bs, b ≠ b' → b.Apart b'
  nodup : bs.Nodup

section
variable {κ : Type} [DecidableEq κ] {H : Host} {cpu : Cpu} {G : Guest κ} {σ σ' : Tracer}
  {es es' : List Entry} {bs : List Block} {pc : BitVec 32} {a : Addr}

/-! ## blocks and entries -/

variable {b : Block}

lemma Block.Proper.has_start (h : b.Proper) : b.has b.start := by
  have h2 := h.2
  unfold Block.has
  bv_omega

lemma Block.Apart.symm {b' : Block} (h : b.Apart b') : b'.Apart b :=
  fun x hx => h x hx.symm

variable {e : Entry}

lemma covers_iff (h : e.block.Proper) : e.covers a ↔ e.block.has a := by
  have h2 : e.key < e.key + e.size := h.2
  show e.key ≤ a ∧ a < e.key + e.size ↔ a - e.key < e.size
  constructor
  · intro ⟨h3, h4⟩
    bv_omega
  · intro h3
    constructor
    · bv_omega
    · bv_omega

section
variable (h : Live bs es)
include h

lemma Live.of_mem (he : e ∈ es) : e.block ∈ bs :=
  (h.mem _).mpr ⟨e, he, rfl⟩

lemma Live.covers_iff (he : e ∈ es) :
    e.covers a ↔ e.block.has a := RevSem.covers_iff (h.proper _ (h.of_mem he))

lemma Live.eq_of_has {b' : Block} (hb : b ∈ bs) (hb' : b' ∈ bs) (h1 : b.has a) (h2 : b'.has a) :
    b = b' := by
  by_contra hne
  exact h.apart b hb b' hb' hne a ⟨h1, h2⟩

lemma Live.not_covers_of_missed (hm : Missed es a) : ∀ e ∈ es, ¬ e.covers a := by
  intro e he hc
  obtain ⟨e', he', h1, h2, h3⟩ := hm e he hc
  have hp := h.proper _ (h.of_mem he')
  have hin : e.block.has e'.key := by
    rw [← h.covers_iff he]
    constructor
    · bv_omega
    · have := hc.2
      bv_omega
  have heq := h.eq_of_has (h.of_mem he) (h.of_mem he') hin hp.has_start
  have hkey : e.key = e'.key := congrArg Block.start heq
  bv_omega

end

variable {x : Entry}

lemma Live.start_of_covers (h : Live bs es) (hb : b ∈ bs) (hx : x ∈ es)
    (hc : x.covers b.start) : x.key = b.start := by
  have heq := h.eq_of_has (h.of_mem hx) hb ((h.covers_iff hx).mp hc) (h.proper b hb).has_start
  exact congrArg Block.start heq

/-! ## one event -/

lemma Live.nil : Live [] [] := by
  refine ⟨fun b => ?_, fun b hb => ?_, fun b hb => ?_, List.nodup_nil⟩
  · constructor
    · intro hb
      cases hb
    · intro ⟨e, he, _⟩
      cases he
  · cases hb
  · cases hb

lemma Live.ret {new : Entry} (h : Live bs es) (hp : new.block.Proper)
    (ha : ∀ b ∈ bs, new.block.Apart b) (hmem : ∀ x, x ∈ es' ↔ x = new ∨ x ∈ es) :
    Live (new.block :: bs) es' := by
  have hnew : new.block ∉ bs := fun hb => ha _ hb new.key ⟨hp.has_start, hp.has_start⟩
  refine ⟨fun b => ?_, fun b hb => ?_, fun b hb b' hb' hne => ?_, h.nodup.cons hnew⟩
  · rw [List.mem_cons, h.mem]
    constructor
    · intro hb
      rcases hb with rfl | ⟨e, he, rfl⟩
      · exact ⟨new, (hmem _).mpr (.inl rfl), rfl⟩
      · exact ⟨e, (hmem _).mpr (.inr he), rfl⟩
    · intro ⟨e, he, hb⟩
      rcases (hmem e).mp he with rfl | he
      · exact .inl hb.symm
      · exact .inr ⟨e, he, hb⟩
  · rcases List.mem_cons.mp hb with rfl | hb
    · exact hp
    · exact h.proper b hb
  · rcases List.mem_cons.mp hb with rfl | hb
    · rcases List.mem_cons.mp hb' with rfl | hb'
      · exact absurd rfl hne
      · exact ha b' hb'
    · rcases List.mem_cons.mp hb' with rfl | hb'
      · exact (ha b hb).symm
      · exact h.apart b hb b' hb' hne

lemma Live.free (h : Live bs es) (hmem : ∀ x, x ∈ es' ↔ x ∈ es ∧ x.key ≠ a) :
    Live (bs.filter (·.start ≠ a)) es' := by
  have hsub : ∀ b ∈ bs.filter (·.start ≠ a), b ∈ bs := fun b hb => (List.mem_filter.mp hb).1
  refine ⟨fun b => ?_, fun b hb => h.proper b (hsub b hb),
    fun b hb b' hb' => h.apart b (hsub b hb) b' (hsub b' hb'), h.nodup.filter _⟩
  rw [List.mem_filter, h.mem]
  constructor
  · intro ⟨⟨e, he, hb⟩, hne⟩
    subst hb
    exact ⟨e, (hmem e).mpr ⟨he, of_decide_eq_true hne⟩, rfl⟩
  · intro ⟨e, he, hb⟩
    subst hb
    obtain ⟨he, hne⟩ := (hmem e).mp he
    exact ⟨⟨e, he, rfl⟩, decide_eq_true hne⟩

/-! ## the hooks -/

lemma tracedAddr_of_freed (h : freedAddr pc cpu = none) : tracedAddr pc cpu = none := by
  cases ht : tracedAddr pc cpu with
  | none => rfl
  | some a =>
    rw [(freedAddr_of_traced ht).1] at h
    cases h

lemma Hooked.quiet (h : Hooked H pc cpu σ es σ' es') (hg : σ.gObj pc = none)
    (hd : freedAddr pc cpu = none) : es' = es := by
  cases h with
  | user _ => rfl
  | kernel _ h1 h2 h3 =>
    rw [tracedAddr_of_freed hd] at h1
    cases h1
    have hg' : (σ.atPc pc).gObj pc = none := hg
    cases h2 with
    | add he _ _ =>
      rw [hg'] at he
      cases he
    | skip _ =>
      cases h3 with
      | skip _ _ | pend _ => rfl
      | free _ ha _ _ =>
        rw [hd] at ha
        cases ha

lemma Hooked.add {e : Elem1} (h : Hooked H pc cpu σ es σ' es') (hg : σ.gObj pc = some e)
    (hpc : ¬ pc < KERNEL_ADDR_MIN) (hd : freedAddr pc cpu = none) :
    ∃ A B, Evicts H σ.tree cpu.eax es (A ++ B) ∧ es' = A ++ objEntry H cpu cpu.eax e pc :: B := by
  cases h with
  | user hu => exact absurd hu hpc
  | kernel _ h1 h2 h3 =>
    rw [tracedAddr_of_freed hd] at h1
    cases h1
    have hg' : (σ.atPc pc).gObj pc = some e := hg
    cases h2 with
    | skip hn =>
      rw [hg'] at hn
      cases hn
    | @add e' s A B he hev hs =>
      rw [hg'] at he
      injection he with he
      subst he
      cases h3 with
      | skip _ _ | pend _ => exact ⟨A, B, hev, rfl⟩
      | free _ ha _ _ =>
        rw [hd] at ha
        cases ha

variable {s : TreeState}

lemma find_start (hs : Stores s es) (hf : es.length < H.fuel) (hx : x ∈ es) (hk : x.key = a)
    (hc : x.covers a) : ∃ p, dsCodeRbtFind2 H a s = .ok p s ∧ p ≠ .null := by
  obtain ⟨p, hfind, ⟨hne, -⟩ | ⟨-, hm⟩⟩ := hs.find2 H hf a
  · exact ⟨p, hfind, hne⟩
  · subst hk
    exact absurd hc (hm.not_covers hx)

lemma Hooked.free (h : Hooked H pc cpu σ es σ' es') (hs : Stores σ.tree es)
    (hf : es.length < H.fuel) (hg : σ.gObj pc = none) (hpc : ¬ pc < KERNEL_ADDR_MIN)
    (hr : request pc cpu = none) (hd : freedAddr pc cpu = some a)
    (hc : ∀ x ∈ es, x.covers a → x.key = a) (hx : x ∈ es) (hxc : x.covers a)
    (y : Entry) : y ∈ es' ↔ y ∈ es ∧ y.key ≠ a := by
  obtain ⟨p, hfind, hne⟩ := find_start hs hf hx (hc x hx hxc) hxc
  cases h with
  | user hu => exact absurd hu hpc
  | @kernel σ₁ σ₂ _ es₁ es₂ _ _ h1 h2 h3 =>
    have hg₁ : σ₁.gObj pc = none := (congrFun h1.gObj_eq pc).trans hg
    cases h2 with
    | add he _ _ =>
      rw [hg₁] at he
      cases he
    | skip _ =>
      cases ht : tracedAddr pc cpu with
      | none =>
        rw [ht] at h1
        cases h1
        cases h3 with
        | skip _ hn =>
          rw [hd] at hn
          cases hn
        | pend hr' =>
          rw [hr] at hr'
          cases hr'
        | free _ ha hev _ =>
          rw [hd] at ha
          injection ha with ha
          subst ha
          exact hev.mem_iff_of_start hs hf hfind hne hc y
      | some b =>
        have hb := (freedAddr_of_traced ht).1
        rw [hd] at hb
        injection hb with hb
        subst hb
        rw [ht] at h1
        cases h1 with
        | miss hmiss =>
          rw [show dsCodeRbtFind2 H a σ.tree = _ from hmiss] at hfind
          injection hfind with hfind
          exact absurd hfind.symm hne
        | drop hfind' hne' _ hev _ =>
          have hmem := hev.mem_iff_of_start hs hf hfind' hne' hc
          refine (h3.mem_iff (fun b hb => .inr fun z hz hzc => ?_) y).trans (hmem y)
          rw [hd] at hb
          injection hb with hb
          subst hb
          exact ((hmem z).mp hz).2 (hc z ((hmem z).mp hz).1 hzc)

/-! ## traces -/

/-- the invariant, with `n` more events to come -/
def Sys.Refines (H : Host) (n : Nat) (s : Sys κ) : Prop :=
  s.Agrees H n ∧ ∃ es, Stores s.tracer.tree es ∧ Live s.guest.live es

omit [DecidableEq κ] in
lemma Live.apart_of_proper {s : Sys κ} {ev : GuestEvent κ} (h : Live s.guest.live es)
    (hs : Stores s.tracer.tree es) (hf : es.length < H.fuel) (hc : ev.Proper s.guest) :
    ev.Apart H s := by
  cases ev with
  | call k f cpu => exact hc
  | ret k cpu =>
    intro hne
    obtain ⟨c, cs, hk⟩ := List.exists_cons_of_ne_nil hne
    obtain ⟨hp, ha⟩ := hc c cs hk
    refine ⟨hp.1, fun ⟨es', hes', x, hx, hkey, _⟩ => ?_⟩
    rw [← hs.unique hes'] at hx
    have hb := h.of_mem hx
    refine ha _ hb cpu.eax ⟨hp.has_start, ?_⟩
    have hstart := (h.proper _ hb).has_start
    rw [← hkey]
    exact hstart
  | free f cpu =>
    obtain ⟨b, hb, hstart⟩ := hc
    intro a p ha hfind hne
    have hfa := (freedAddr_of_traced ha).1
    rw [freedAddr_free] at hfa
    injection hfa with hfa
    obtain ⟨hmem, hcov⟩ := hs.of_find2 hf hfind hne
    have hab : b.start = a := hstart.trans hfa
    rw [← hab] at hcov ⊢
    exact h.start_of_covers hb hmem hcov
  | other pc cpu => exact hc

lemma Live.find_new (h : Live bs es) (hs : Stores s es) (hf : es.length < H.fuel) (hp : b.Proper)
    (ha : ∀ b' ∈ bs, b.Apart b') : dsCodeRbtFind2 H b.start s = .ok .null s := by
  obtain ⟨p, hfind, ⟨-, -, hmem, hcov⟩ | ⟨rfl, -⟩⟩ := hs.find2 H hf b.start
  · exact absurd ⟨hp.has_start, (h.covers_iff hmem).mp hcov⟩ (ha _ (h.of_mem hmem) b.start)
  · exact hfind

section
variable (h : Live bs es) (hs : Stores σ.tree es) (hf : es.length < H.fuel)
include h hs hf

lemma Live.hookRet {c : Call} (hk : Hooked H c.ret cpu σ es σ' es')
    (hg : σ.gObj c.ret = some c.asked) (hsite : CallSite c.ret)
    (hp : (Block.mk cpu.eax c.asked.size).Proper)
    (ha : ∀ b ∈ bs, (Block.mk cpu.eax c.asked.size).Apart b) :
    Live (⟨cpu.eax, c.asked.size⟩ :: bs) es' := by
  obtain ⟨A, B, hev, rfl⟩ := hk.add hg hsite.1 (freedAddr_unhooked hsite.2 cpu)
  have hAB : A ++ B = es := hev.none (h.find_new hs hf hp ha)
  have hmem : ∀ x, x ∈ A ++ objEntry H cpu cpu.eax c.asked c.ret :: B ↔
      x = objEntry H cpu cpu.eax c.asked c.ret ∨ x ∈ es := fun x => hAB ▸ mem_middle
  have hp' : (objEntry H cpu cpu.eax c.asked c.ret).block.Proper := hp
  exact Live.ret h hp' ha hmem

lemma Live.hookFree {f : FreeFn} (hk : Hooked H f.entry cpu σ es σ' es')
    (hg : σ.gObj f.entry = none) (hb : b ∈ bs) (hstart : b.start = f.addr cpu) :
    Live (bs.filter (·.start ≠ f.addr cpu)) es' := by
  obtain ⟨x, hx, hxb⟩ := (h.mem b).mp hb
  have hcov : x.covers (f.addr cpu) := by
    rw [h.covers_iff hx, hxb, ← hstart]
    exact (h.proper b hb).has_start
  refine h.free (hk.free hs hf hg (kernel_of_mem f.entry_mem) (request_free f cpu)
    (freedAddr_free f cpu) (fun y hy hyc => ?_) hx hcov)
  rw [← hstart] at hyc ⊢
  exact h.start_of_covers hb hy hyc

end

/-- **One event.** -/
theorem Sys.Refines.exec {n : Nat} {s : Sys κ} {ev : GuestEvent κ} (h : s.Refines H (n + 1))
    (hc : ev.Proper s.guest) (htr : ev.Traceable s.guest) :
    ∃ s', ev.exec H s = .ok () s' ∧ s'.Refines H n := by
  obtain ⟨hag, es, hs, hl⟩ := h
  have hm := hag.2
  obtain ⟨es₀, hs₀, hf, hr⟩ := hag.1
  have e := hs.unique hs₀
  subst e
  obtain ⟨s', hrun, hag'⟩ := hag.exec (hl.apart_of_proper hs (by omega) hc) htr
  refine ⟨s', hrun, hag', ?_⟩
  have hf' : es.length + 1 < H.fuel := by omega
  cases ev with
  | call k f cpu =>
    rw [GuestEvent.exec] at hrun
    obtain ⟨hh, hguest⟩ := hookSys_inv hrun
    obtain ⟨es', h1⟩ := hooked_of_run hs hf' hr hh
    have e := h1.quiet (hm.gObj_entry f.entry_mem) (freedAddr_entry f cpu)
    subst e
    exact ⟨es', h1.stores hs, hguest ▸ hl⟩
  | ret k cpu =>
    cases hk : s.guest.pending k with
    | nil =>
      rw [exec_ret_nil hk] at hrun
      injection hrun with _ hrun
      subst hrun
      exact ⟨es, hs, hl⟩
    | cons c cs =>
      obtain ⟨hh, hguest⟩ := exec_ret_inv hk hrun
      obtain ⟨es', h1⟩ := hooked_of_run hs hf' hr hh
      obtain ⟨hp, ha⟩ := hc c cs hk
      have hmem : c ∈ s.guest.pending k := hk ▸ List.mem_cons_self
      have hlive : s'.guest.live = ⟨cpu.eax, c.asked.size⟩ :: s.guest.live := by
        rw [hguest]
        exact if_neg hp.1
      refine ⟨es', h1.stores hs, hlive ▸ ?_⟩
      exact hl.hookRet hs (by omega) h1 ((hm.filed _ _).mpr ⟨k, hmem⟩) (hm.sites k c hmem) hp ha
  | free f cpu =>
    rw [GuestEvent.exec] at hrun
    obtain ⟨hh, hguest⟩ := hookSys_inv hrun
    obtain ⟨es', h1⟩ := hooked_of_run hs hf' hr hh
    obtain ⟨b, hb, hstart⟩ := hc
    refine ⟨es', h1.stores hs, hguest ▸ ?_⟩
    exact hl.hookFree hs (by omega) h1 (hm.gObj_entry f.entry_mem) hb hstart
  | other pc cpu =>
    obtain ⟨hh, hguest⟩ := hookSys_inv hrun
    obtain ⟨es', h1⟩ := hooked_of_run hs hf' hr hh
    have e := h1.quiet (hm.gObj_none hc.2) (freedAddr_unhooked hc.1 cpu)
    subst e
    exact ⟨es', h1.stores hs, hguest ▸ hl⟩

lemma Live.perm (h : Live bs es) (hk : (es.map Entry.key).Pairwise (· < ·)) :
    (es.map Entry.block).Perm bs := by
  have hnd : (es.map Entry.block).Nodup := by
    refine List.Nodup.of_map Block.start ?_
    rw [List.map_map]
    exact hk.imp (fun hlt e => by bv_omega)
  rw [List.perm_ext_iff_of_nodup hnd h.nodup]
  intro b
  rw [List.mem_map, h.mem]

lemma Live.find2 (h : Live bs es) (hs : Stores s es) (hf : es.length < H.fuel)
    (a : Addr) : ∃ p, dsCodeRbtFind2 H a s = .ok p s ∧
      (p ≠ .null ∧ (∃ b ∈ bs, b.has a ∧ (s.entryOf p).block = b) ∨
        p = .null ∧ ∀ b ∈ bs, ¬ b.has a) := by
  obtain ⟨p, hfind, ⟨hne, -, hmem, hcov⟩ | ⟨rfl, hm⟩⟩ := hs.find2 H hf a
  · exact ⟨p, hfind, .inl ⟨hne, _, h.of_mem hmem, (h.covers_iff hmem).mp hcov, rfl⟩⟩
  · refine ⟨.null, hfind, .inr ⟨rfl, fun b hb hb' => ?_⟩⟩
    obtain ⟨e, he, rfl⟩ := (h.mem b).mp hb
    exact h.not_covers_of_missed hm e he ((h.covers_iff he).mpr hb')

/-- **After every trace of a guest that keeps to the rules, with names that fit and frames that can
be walked, the object tree holds exactly the live blocks**, and a lookup returns the block that
contains the address, or null if there is none. -/
theorem tree_refines_live (H : Host) (garbage : Ptr → NodeType) (pages : Nat → SecMap)
    (evs : List (GuestEvent κ)) (hf : evs.length < H.fuel)
    (hc : Meets (GuestEvent.exec H) (fun ev s => ev.Proper s.guest ∧ ev.Traceable s.guest)
      (.init κ garbage pages) evs) :
    ∃ s, runAll (GuestEvent.exec H) evs (.init κ garbage pages) = .ok () s ∧
      (∃ es, Stores s.tracer.tree es ∧ (es.map Entry.block).Perm s.guest.live) ∧
      ∀ a, ∃ p, dsCodeRbtFind2 H a s.tracer.tree = .ok p s.tracer.tree ∧
        (p ≠ .null ∧ (∃ b ∈ s.guest.live, b.has a ∧ (s.tracer.tree.entryOf p).block = b) ∨
          p = .null ∧ ∀ b ∈ s.guest.live, ¬ b.has a) := by
  have hinit : (Sys.init κ garbage pages).Refines H evs.length :=
    ⟨⟨init_tracked H garbage pages hf, init_matches garbage pages⟩, [], init_stores garbage, .nil⟩
  obtain ⟨s, hrun, ⟨⟨es₀, hs₀, hf₀, -⟩, -⟩, es, hs, hl⟩ :=
    runAll_ok (fun n ev s h hc => h.exec hc.1 hc.2) hinit hc
  have e := hs.unique hs₀
  subst e
  exact ⟨s, hrun, ⟨es, hs, hl.perm hs.keys⟩, fun a => hl.find2 hs (by omega) a⟩

/-- a block is allocated, another one next to it, and the first one is freed -/
def neighbours : List (GuestEvent Unit) :=
  [.call () .kmalloc (plainCpu 8), .ret () (plainCpu 0xc0100000),
    .call () .vmallocNodeFlags (plainCpu 16), .ret () (plainCpu 0xc0100008),
    .free .kfree (plainCpu 0xc0100000)]

theorem tree_refines_live_neighbours : ∃ s,
    runAll (GuestEvent.exec (.bump 8)) neighbours (.init Unit blank cleanPages) = .ok () s ∧
      ∃ es, Stores s.tracer.tree es ∧ (es.map Entry.block).Perm s.guest.live := by
  obtain ⟨s, h1, h2, -⟩ := tree_refines_live (.bump 8) blank cleanPages neighbours (by decide) (by
    refine .cons ⟨⟨⟨by decide, by decide⟩, fun k c hc => by cases hc⟩, trivial⟩
      (eq_ok (by decide)) ?_
    refine .cons ⟨of_pending rfl ⟨⟨by decide, by decide⟩, fun b hb => by cases hb⟩,
      of_pending rfl ⟨by decide, by decide⟩⟩ (eq_ok (by decide)) ?_
    refine .cons ⟨⟨⟨by decide, by decide⟩, fun k c hc => by cases hc⟩, trivial⟩
      (eq_ok (by decide)) ?_
    refine .cons ⟨of_pending rfl ⟨⟨by decide, by decide⟩, fun b hb => ?_⟩,
      of_pending rfl ⟨by decide, by decide⟩⟩ (eq_ok (by decide))
      ⟨⟨⟨⟨0xc0100000, 8⟩, ?_, rfl⟩, fun _ => by decide⟩, fun _ _ => trivial⟩
    · have hb' : b ∈ [Block.mk 0xc0100000 8] := hb
      rw [List.mem_singleton] at hb'
      subst hb'
      intro x ⟨h1, h2⟩
      have h1' : x - 0xc0100008 < 16 := h1
      have h2' : x - 0xc0100000 < 8 := h2
      bv_omega
    · decide)
  exact ⟨s, h1, h2⟩

/-- the current call returns to `0xc1000100`; it is for 64 bytes from the cache at `0xc0300000`,
whose name has 30 characters -/
def longNameCpu (eax : BitVec 32) : Cpu :=
  { plainCpu eax with
    readMem := fun a => if a = 0xc0300004 then 64 else 0xc1000100
    readStr := fun _ => "nf_conntrack_expect_cache_0123" }

def longName : List (GuestEvent Unit) :=
  [.call () .kmemCacheAlloc (longNameCpu 0xc0300000), .ret () (longNameCpu 0xc0100000)]

/-- a proper trace: one allocation returns, and the copy of its name leaves `obj_name` -/
theorem long_name_overflows :
    Meets (GuestEvent.exec (.bump 8)) (fun ev s => ev.Proper s.guest)
      (.init Unit blank cleanPages) longName ∧
    ∃ s, runAll (GuestEvent.exec (.bump 8)) longName (.init Unit blank cleanPages) =
      .error .overflow s := by
  refine ⟨?_, _, eq_error (by decide)⟩
  refine .cons ⟨⟨by decide, by decide⟩, fun k c hc => by cases hc⟩ (eq_ok (by decide))
    ⟨of_pending rfl ⟨⟨by decide, by decide⟩, fun b hb => by cases hb⟩, fun _ _ => trivial⟩

end
end RevSem
