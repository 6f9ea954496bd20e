import TraceSyscallObj.RevSem.Instances

/-!
# When an object leaves the tree

`trace_delete` writes the record of a freed object to `output_file1`.  Objects also leave the tree
without it: `vfree` is not handled by `trace_delete`, an insertion evicts what it finds at the new
address, and a free evicts every object that it finds.

* `stale_record`: the record of an evicted object stays behind, and is lost;
* `records_follow`: in a run where objects leave by `kfree` and `kmem_cache_free` of their start
  only, every record belongs to an object of the tree and is written out when the object leaves.
-/

namespace RevSem
open Function Run

def Owned (es : List Entry) (σ : Tracer) : Prop :=
  ∀ k, (σ.gInstances k).isSome → ∃ x ∈ es, x.key = k

/-- the record at `k` stays, and may grow -/
def RecordKept (k : Addr) (σ σ' : Tracer) : Prop :=
  ∀ type set, σ.gInstances k = some ⟨type, some set⟩ →
    ∃ set', σ'.gInstances k = some ⟨type, some set'⟩ ∧ set ⊆ set'

/-- the record at `k` is written out and removed -/
def RecordWritten (k : Addr) (σ σ' : Tracer) : Prop :=
  ∃ type set, σ.gInstances k = some ⟨type, some set⟩ ∧ σ'.gInstances k = none ∧
    σ'.outputFile1 = σ.outputFile1 ++ [(type, set)]

/-- an object stays with its record, or leaves and its record is written out -/
def Settles (σ σ' : Tracer) : Prop :=
  ∀ es es', Stores σ.tree es → Stores σ'.tree es' → ∀ x ∈ es,
    (x ∈ es' ∧ RecordKept x.key σ σ') ∨
      ((∀ y ∈ es', y.key ≠ x.key) ∧ RecordWritten x.key σ σ')

/-- objects leave by `kfree` and `kmem_cache_free` of their start only: a pending allocation
returns an address outside the tracked objects and not at the entry of a free, `vfree` frees
nothing that is tracked, and an object that contains a freed address starts there -/
def LeavesByFree (H : Host) : Event → Tracer → Prop
  | .hook pc cpu, σ => ¬ pc < KERNEL_ADDR_MIN →
      (σ.gObj pc ≠ none → freedAddr pc cpu = none ∧
        dsCodeRbtFind2 H cpu.eax σ.tree = .ok .null σ.tree) ∧
      (pc = VFREE → dsCodeRbtFind2 H cpu.eax σ.tree = .ok .null σ.tree) ∧
      ∀ a, tracedAddr pc cpu = some a →
        ∀ es, Stores σ.tree es → ∀ x ∈ es, x.covers a → x.key = a
  | _, _ => True

section
variable {H : Host} {cpu : Cpu} {σ σ' : Tracer} {es es' : List Entry} {a size : BitVec 32}
  {pc : BitVec 32} {write : Bool}

/-! ## one event -/

/-- the three ways in which tree and records change together -/
inductive Settled (es : List Entry) (σ : Tracer) (es' : List Entry) (σ' : Tracer) : Prop where
  | quiet (hmem : ∀ x, x ∈ es' ↔ x ∈ es) (hi : σ'.gInstances = σ.gInstances)
  | created (new : Entry) (i : Instance) (hmem : ∀ x, x ∈ es' ↔ x = new ∨ x ∈ es)
      (hnew : ∀ x ∈ es, x.key ≠ new.key)
      (hi : σ'.gInstances = update σ.gInstances new.key (some i))
  | retired (a : Addr) (type : BitVec 64) (set : List String)
      (hmem : ∀ x, x ∈ es' ↔ x ∈ es ∧ x.key ≠ a) (ha : σ.gInstances a = some ⟨type, some set⟩)
      (hi : σ'.gInstances = update σ.gInstances a none)
      (hout : σ'.outputFile1 = σ.outputFile1 ++ [(type, set)])

lemma Evicts.mem_iff_of_uncovered {s : TreeState} (h : Evicts H s a es es')
    (hn : ∀ x ∈ es, ¬ x.covers a) (x : Entry) : x ∈ es' ↔ x ∈ es :=
  ⟨fun hx => h.sub.subset hx, fun hx => (h.covered x hx).resolve_right (hn x hx)⟩

lemma Evicts.mem_iff_of_start {s : TreeState} {p : Ptr} (h : Evicts H s a es es')
    (hs : Stores s es) (hf : es.length < H.fuel) (hfind : dsCodeRbtFind2 H a s = .ok p s)
    (hne : p ≠ .null) (hc : ∀ x ∈ es, x.covers a → x.key = a) (x : Entry) :
    x ∈ es' ↔ x ∈ es ∧ x.key ≠ a := by
  obtain ⟨hmem, hcov⟩ := hs.of_find2 hf hfind hne
  constructor
  · intro hx
    refine ⟨h.sub.subset hx, fun hk => ?_⟩
    have e := eq_of_key hs.keys (h.sub.subset hx) hmem (hk.trans (hc _ hmem hcov).symm)
    exact h.first p hfind hne (e ▸ hx)
  · intro hx
    exact (h.covered x hx.1).resolve_right (fun k => hx.2 (hc x hx.1 k))

lemma Returned.settled (h : Returned H cpu pc σ es σ' es') (hs : Stores σ.tree es)
    (hc : σ.gObj pc ≠ none → dsCodeRbtFind2 H cpu.eax σ.tree = .ok .null σ.tree) :
    Settled es σ es' σ' := by
  have hkeys := (h.stores hs).keys
  cases h with
  | skip _ => exact .quiet (fun _ => Iff.rfl) rfl
  | @add e s A B he hev hs' =>
    have hAB : A ++ B = es := hev.none (hc (by rw [he]; simp))
    refine .created (objEntry H cpu cpu.eax e pc) _ (fun x => ?_) (fun x hx => ?_) rfl
    · rw [← hAB]
      exact mem_middle
    · exact key_ne_middle hkeys (hAB ▸ hx)

lemma Entered.mem_iff (h : Entered H cpu pc σ es σ' es') (hc : ∀ a, freedAddr pc cpu = some a →
      dsCodeRbtFind2 H a σ.tree = .ok .null σ.tree ∨ ∀ x ∈ es, ¬ x.covers a) (x : Entry) :
    x ∈ es' ↔ x ∈ es := by
  cases h with
  | skip _ _ | pend _ => exact Iff.rfl
  | @free a s _ _ ha hev hs =>
    rcases hc a ha with hn | hn
    · rw [hev.none hn]
    · exact hev.mem_iff_of_uncovered hn x

lemma Entered.outputFile1_eq (h : Entered H cpu pc σ es σ' es') :
    σ'.outputFile1 = σ.outputFile1 := by
  cases h with
  | skip _ _ | pend _ | free _ _ _ _ => rfl

lemma Settled.trans_quiet {es₁ : List Entry} {σ₁ : Tracer} (h : Settled es σ es₁ σ₁)
    (hmem : ∀ x, x ∈ es' ↔ x ∈ es₁) (hi : σ'.gInstances = σ₁.gInstances)
    (hout : σ'.outputFile1 = σ₁.outputFile1) : Settled es σ es' σ' := by
  cases h with
  | quiet h1 h2 => exact .quiet (fun x => (hmem x).trans (h1 x)) (hi.trans h2)
  | created new i h1 h2 h3 =>
    exact .created new i (fun x => (hmem x).trans (h1 x)) h2 (hi.trans h3)
  | retired a type set h1 h2 h3 h4 =>
    exact .retired a type set (fun x => (hmem x).trans (h1 x)) h2 (hi.trans h3) (hout.trans h4)

lemma Settled.atPc (h : Settled es (σ.atPc pc) es' σ') : Settled es σ es' σ' := by
  cases h with
  | quiet h1 h2 => exact .quiet h1 h2
  | created new i h1 h2 h3 => exact .created new i h1 h2 h3
  | retired a type set h1 h2 h3 h4 => exact .retired a type set h1 h2 h3 h4

lemma Retired.settled (h : Retired H cpu σ es (some a) σ' es') (hs : Stores σ.tree es)
    (hf : es.length < H.fuel) (hc : ∀ x ∈ es, x.covers a → x.key = a) :
    Settled es σ es' σ' ∧
      (dsCodeRbtFind2 H a σ'.tree = .ok .null σ'.tree ∨ ∀ x ∈ es', ¬ x.covers a) := by
  cases h with
  | miss hfind => exact ⟨.quiet (fun _ => Iff.rfl) rfl, .inl hfind⟩
  | @drop _ p type set s _ hfind hne hi hev hs' =>
    have hmem := hev.mem_iff_of_start hs hf hfind hne hc
    refine ⟨.retired a type set hmem hi rfl rfl, .inr fun x hx hcov => ?_⟩
    exact ((hmem x).mp hx).2 (hc x ((hmem x).mp hx).1 hcov)

/-- **One call of `helper_hook`** under the condition. -/
theorem Hooked.settled (h : Hooked H pc cpu σ es σ' es') (hs : Stores σ.tree es)
    (hf : es.length < H.fuel) (hc : LeavesByFree H (.hook pc cpu) σ) : Settled es σ es' σ' := by
  cases h with
  | user _ => exact .quiet (fun _ => Iff.rfl) rfl
  | @kernel σ₁ σ₂ _ es₁ es₂ _ hpc h1 h2 h3 =>
    obtain ⟨hpend, hvfree, htraced⟩ := hc hpc
    cases ht : tracedAddr pc cpu with
    | none =>
      -- nothing is retired: a pending allocation returns, or `vfree` frees what is not tracked
      rw [ht] at h1
      cases h1
      have hset : Settled es (σ.atPc pc) es₂ σ₂ := h2.settled hs (fun hp => (hpend hp).2)
      refine (hset.trans_quiet (h3.mem_iff fun a ha => ?_) h3.gInstances_eq h3.outputFile1_eq).atPc
      obtain ⟨hv, rfl⟩ := vfree_of_freed ha ht
      cases h2 with
      | skip _ => exact .inl (hvfree hv)
      | @add e _ _ _ he _ _ =>
        have he' : σ.gObj pc = some e := he
        have hn := (hpend (by rw [he']; simp)).1
        rw [hn] at ha
        cases ha
    | some a =>
      -- `object_hook` deletes at the same address once more, and finds nothing
      obtain ⟨hfreed, -⟩ := freedAddr_of_traced ht
      rw [ht] at h1
      have hg : σ₁.gObj pc = σ.gObj pc := congrFun h1.gObj_eq pc
      obtain ⟨hset, hrest⟩ := h1.settled hs hf (htraced a ht es hs)
      cases h2 with
      | skip _ =>
        refine (hset.trans_quiet (h3.mem_iff fun b hb => ?_) h3.gInstances_eq
          h3.outputFile1_eq).atPc
        rw [hfreed] at hb
        injection hb with hb
        exact hb ▸ hrest
      | add he _ _ =>
        rw [he] at hg
        have hn := (hpend (by rw [← hg]; simp)).1
        rw [hn] at hfreed
        cases hfreed

lemma Settled.owned (h : Settled es σ es' σ') (ho : Owned es σ) : Owned es' σ' := by
  intro k hk
  cases h with
  | quiet hmem hi =>
    rw [hi] at hk
    obtain ⟨x, hx, e⟩ := ho k hk
    exact ⟨x, (hmem x).mpr hx, e⟩
  | created new i hmem hnew hi =>
    by_cases e : k = new.key
    · exact ⟨new, (hmem new).mpr (.inl rfl), e.symm⟩
    · rw [hi, update_of_ne e] at hk
      obtain ⟨x, hx, e⟩ := ho k hk
      exact ⟨x, (hmem x).mpr (.inr hx), e⟩
  | retired a type set hmem ha hi hout =>
    by_cases e : k = a
    · rw [hi, e, update_self] at hk
      cases hk
    · rw [hi, update_of_ne e] at hk
      obtain ⟨x, hx, hxk⟩ := ho k hk
      exact ⟨x, (hmem x).mpr ⟨hx, hxk.trans_ne e⟩, hxk⟩

lemma RecordKept.of_eq {k : Addr} (h : σ'.gInstances k = σ.gInstances k) : RecordKept k σ σ' := by
  intro type set hi
  exact ⟨set, h.trans hi, List.Subset.refl set⟩

lemma Settled.settles (h : Settled es σ es' σ') {x : Entry} (hx : x ∈ es) :
    (x ∈ es' ∧ RecordKept x.key σ σ') ∨
      ((∀ y ∈ es', y.key ≠ x.key) ∧ RecordWritten x.key σ σ') := by
  cases h with
  | quiet hmem hi => exact .inl ⟨(hmem x).mpr hx, .of_eq (congrFun hi _)⟩
  | created new i hmem hnew hi =>
    refine .inl ⟨(hmem x).mpr (.inr hx), .of_eq ?_⟩
    rw [hi, update_of_ne (hnew x hx)]
  | retired a type set hmem ha hi hout =>
    by_cases e : x.key = a
    · refine .inr ⟨fun y hy => e ▸ ((hmem y).mp hy).2, type, set, e ▸ ha, ?_, hout⟩
      rw [hi, e, update_self]
    · refine .inl ⟨(hmem x).mpr ⟨hx, e⟩, .of_eq ?_⟩
      rw [hi, update_of_ne e]

lemma Accessed.kept (h : Accessed H cpu write a size σ es σ') (k : Addr) : RecordKept k σ σ' := by
  cases h with
  | user _ | miss _ _ => exact .of_eq rfl
  | @hit p type set _ _ _ _ _ hi =>
    by_cases e : k = (σ.tree.entryOf p).key
    · subst e
      intro type' set' hi'
      rw [hi] at hi'
      injection hi' with hi'
      injection hi' with ht hset
      injection hset with hset
      subst ht hset
      refine ⟨_, update_self .., fun line hline => ?_⟩
      exact List.mem_insert_of_mem hline
    · refine .of_eq ?_
      exact update_of_ne e ..

lemma Accessed.owned (h : Accessed H cpu write a size σ es σ') (ho : Owned es σ) : Owned es σ' := by
  intro k hk
  cases h with
  | user _ | miss _ _ => exact ho k hk
  | @hit p type set _ _ _ hmem _ hi =>
    by_cases e : k = (σ.tree.entryOf p).key
    · exact ⟨_, hmem, e.symm⟩
    · have hk' : (update σ.gInstances (σ.tree.entryOf p).key _ k).isSome := hk
      rw [update_of_ne e] at hk'
      exact ho k hk'

/-! ## runs -/

/-- the invariant, with `n` more events to come -/
def Followed (H : Host) (n : Nat) (σ : Tracer) : Prop :=
  ∃ es, Stores σ.tree es ∧ es.length + n < H.fuel ∧ Recorded es σ ∧ Owned es σ

lemma Followed.exec_ok {n : Nat} {ev : Event} (h : Followed H (n + 1) σ)
    (hc : LeavesByFree H ev σ) (hrun : ev.exec H σ = .ok () σ') :
    Followed H n σ' ∧ Settles σ σ' := by
  obtain ⟨es, hs, hf, hr, ho⟩ := h
  obtain ⟨es', h1⟩ := exec_inv hs (by omega) hr hrun
  have hlen := h1.length_le
  have hs' := h1.stores hs
  have hgoal : Owned es' σ' ∧ ∀ x ∈ es, (x ∈ es' ∧ RecordKept x.key σ σ') ∨
      ((∀ y ∈ es', y.key ≠ x.key) ∧ RecordWritten x.key σ σ') := by
    cases h1 with
    | hook h =>
      have hset := h.settled hs (by omega) hc
      exact ⟨hset.owned ho, fun x hx => hset.settles hx⟩
    | load h | store h => exact ⟨h.owned ho, fun x hx => .inl ⟨hx, h.kept x.key⟩⟩
  refine ⟨⟨es', hs', by omega, h1.recorded hr, hgoal.1⟩, ?_⟩
  intro es₁ es₂ h2 h3
  rw [← hs.unique h2, ← hs'.unique h3]
  exact hgoal.2

/-- **If objects leave by `kfree` and `kmem_cache_free` of their start only, then every record
belongs to an object of the tree**, in every state of the run, and at every step an object stays
with its record or leaves and its record is written to `output_file1`. -/
theorem records_follow (H : Host) (garbage : Ptr → NodeType) (pages : Nat → SecMap)
    (evs : List Event) (hf : evs.length < H.fuel)
    (hc : Meets (Event.exec H) (LeavesByFree H) (.init garbage pages) evs) :
    Visits (Event.exec H) (fun σ => ∃ t, IsRbTree σ.tree t ∧
      ∀ k, (σ.gInstances k).isSome → ∃ p ∈ t.ptrs, (σ.tree.mem p).key = k)
      (.init garbage pages) evs ∧
    Meets (Event.exec H) (fun ev σ => ∀ σ', ev.exec H σ = .ok () σ' → Settles σ σ')
      (.init garbage pages) evs := by
  have hinit : Followed H evs.length (.init garbage pages) := by
    refine ⟨[], init_stores garbage, by simpa using hf, fun x hx => ?_, fun k hk => ?_⟩
    · cases hx
    · cases hk
  constructor
  · refine visits_of_meets (fun n ev σ σ' h hc hrun => (h.exec_ok hc hrun).1) ?_ hinit hc
    intro n σ ⟨es, hs, _, _, ho⟩
    obtain ⟨t, ht, rfl⟩ := hs
    refine ⟨t, ht, fun k hk => ?_⟩
    obtain ⟨x, hx, e⟩ := ho k hk
    obtain ⟨p, hp, rfl⟩ := mem_entries.mp hx
    exact ⟨p, hp, e⟩
  · exact meets_of_meets (fun n ev σ σ' h hc hrun => (h.exec_ok hc hrun).1)
      (fun n ev σ h hc σ' hrun => (h.exec_ok hc hrun).2) hinit hc

lemma leavesByFree_of_none (hg : σ.gObj pc = none) (hd : freedAddr pc cpu = none) :
    LeavesByFree H (.hook pc cpu) σ := by
  refine fun _ => ⟨fun k => absurd hg k, fun hv => ?_, fun a ha => ?_⟩
  · subst hv
    cases hd
  · rw [(freedAddr_of_traced ha).1] at hd
    cases hd

lemma leavesByFree_first {ev : Event} (hs : Stores σ.tree []) (hf : 1 < H.fuel)
    (hrun : (Event.hook pc cpu).exec H σ = .ok () σ') (hev : ev = .hook KFREE (plainCpu cpu.eax))
    (hg : σ'.gObj KFREE = none) : LeavesByFree H ev σ' := by
  subst hev
  refine fun _ => ⟨fun k => absurd hg k, fun hv => absurd hv (by decide), ?_⟩
  intro a ha es hes x hx _
  have hk : cpu.eax = a := Option.some.inj ha
  exact (key_of_first hs hf hrun hes hx).trans hk

theorem records_follow_kfree :
    Visits (Event.exec (.bump 8)) (fun σ => ∃ t, IsRbTree σ.tree t ∧
      ∀ k, (σ.gInstances k).isSome → ∃ p ∈ t.ptrs, (σ.tree.mem p).key = k)
      (.init blank cleanPages) (kmallocs 0xc0100000 8 ++ [.hook KFREE (plainCpu 0xc0100000)]) := by
  refine (records_follow (.bump 8) blank cleanPages _ (by decide) ?_).1
  refine .cons (leavesByFree_of_none rfl rfl) (eq_ok (by decide)) ?_
  refine .cons ?_ (eq_ok (by decide)) ⟨?_, fun _ _ => trivial⟩
  · exact fun _ => ⟨fun _ => ⟨rfl, rfl⟩, fun hv => absurd hv (by decide), fun a ha => by cases ha⟩
  · exact leavesByFree_first (init_stores blank) (by decide) (eq_ok (by decide)) rfl rfl

/-- `vfree` removes the object but not its record -/
def vfreed : List Event := kmallocs 0xc0100000 8 ++ [.hook VFREE (plainCpu 0xc0100000)]

/-- the second allocation evicts the first one -/
def evicted : List Event := kmallocs 0xc0100000 8 ++ kmallocs 0xc0100004 8

/-- records without an object: the tree is empty, or holds the second object only -/
theorem stale_record : ∃ σ σ',
    runAll (Event.exec (.bump 8)) vfreed (.init blank cleanPages) = .ok () σ ∧
    (σ.gInstances 0xc0100000).isSome ∧ σ.tree.root = .sentinel ∧ σ.outputFile1 = [] ∧
    runAll (Event.exec (.bump 8)) evicted (.init blank cleanPages) = .ok () σ' ∧
    (σ'.gInstances 0xc0100000).isSome ∧ (σ'.tree.mem σ'.tree.root).key = 0xc0100004 ∧
    (σ'.tree.mem σ'.tree.root).left = .sentinel ∧
    (σ'.tree.mem σ'.tree.root).right = .sentinel ∧ σ'.outputFile1 = [] :=
  ⟨stateOf (runAll (Event.exec (.bump 8)) vfreed (.init blank cleanPages)),
    stateOf (runAll (Event.exec (.bump 8)) evicted (.init blank cleanPages)),
    eq_ok (by decide +kernel), by decide +kernel, by decide +kernel, by decide +kernel,
    eq_ok (by decide +kernel), by decide +kernel, by decide +kernel, by decide +kernel,
    by decide +kernel, by decide +kernel⟩

end
end RevSem
