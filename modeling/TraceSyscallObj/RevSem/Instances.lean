import TraceSyscallObj.RevSem.Hooks
import TraceSyscallObj.RevSem.TreeRun

/-!
# The object tree and the access records

The tree and `g_instances` are updated by different code.  In every run

* `found_has_record`: an object that a lookup finds has a record, so the assertions of
  `add_read_action` and `add_write_action` hold;
* `deletes_have_record`: `delete_instance` finds a record, if only starts of objects are freed;
* `interior_free`: a free inside an object reads a null pointer.
-/

namespace RevSem
open Function Run

/-- the objects that can be found have a record -/
def Recorded (es : List Entry) (σ : Tracer) : Prop :=
  ∀ x ∈ es, x.covers x.key → ∃ type set, σ.gInstances x.key = some ⟨type, some set⟩

section
variable {H : Host} {cpu : Cpu} {σ σ' : Tracer} {es es' : List Entry} {a size : BitVec 32}
  {pc : BitVec 32} {o : Option Addr} {write : Bool}

lemma Entry.covers.start {x : Entry} (h : x.covers a) : x.covers x.key := by
  obtain ⟨h1, h2⟩ := h
  constructor
  · bv_omega
  · bv_omega

lemma Recorded.not_unrecorded (h : Recorded es σ) : ¬ Unrecorded es a σ := by
  intro ⟨x, hx, hc, hn⟩
  obtain ⟨type, set, hi⟩ := h x hx hc.start
  exact hn type set hi

lemma Recorded.sub (h : Recorded es σ) (hs : es'.Sublist es)
    (hi : σ'.gInstances = σ.gInstances) : Recorded es' σ' := by
  intro x hx hc
  rw [hi]
  exact h x (hs.subset hx) hc

/-! ## one event -/

lemma Retired.recorded (h : Retired H cpu σ es o σ' es') (hr : Recorded es σ) :
    Recorded es' σ' := by
  cases h with
  | skip | miss _ => exact hr
  | @drop a p type set s _ hfind hne hi hev hs =>
    intro x hx hc
    have hne : x.key ≠ a := by
      intro k
      subst k
      exact hev.missed.not_covers hx hc
    obtain ⟨type', set', hi'⟩ := hr x (hev.sub.subset hx) hc
    refine ⟨type', set', ?_⟩
    show update σ.gInstances a none x.key = _
    rw [update_of_ne hne, hi']

lemma Recorded.added {e : Elem1} {s : TreeState} {A B : List Entry} (hr : Recorded es σ)
    (hsub : (A ++ B).Sublist es) : Recorded (A ++ objEntry H cpu a e pc :: B)
      { σ.added H cpu a e pc with tree := s } := by
  intro x hx hc
  show ∃ type set, update σ.gInstances a _ x.key = some ⟨type, some set⟩
  by_cases hk : x.key = a
  · rw [hk, update_self]
    exact ⟨_, _, rfl⟩
  · have hx' : x ∈ A ++ B := (mem_middle.mp hx).resolve_left (fun k => hk (by rw [k]; rfl))
    rw [update_of_ne hk]
    exact hr x (hsub.subset hx') hc

lemma Returned.recorded (h : Returned H cpu pc σ es σ' es') (hr : Recorded es σ) :
    Recorded es' σ' := by
  cases h with
  | skip _ => exact hr
  | add _ hev _ => exact hr.added hev.sub

lemma Entered.gInstances_eq (h : Entered H cpu pc σ es σ' es') : σ'.gInstances = σ.gInstances := by
  cases h with
  | skip _ _ | pend _ | free _ _ _ _ => rfl

lemma Hooked.recorded (h : Hooked H pc cpu σ es σ' es') (hr : Recorded es σ) : Recorded es' σ' := by
  cases h with
  | user _ => exact hr
  | kernel _ h1 h2 h3 =>
    have hr₀ : Recorded es (σ.atPc pc) := hr
    exact (h2.recorded (h1.recorded hr₀)).sub h3.sub h3.gInstances_eq

lemma Accessed.recorded (h : Accessed H cpu write a size σ es σ') (hr : Recorded es σ) :
    Recorded es σ' := by
  cases h with
  | user _ | miss _ _ => exact hr
  | @hit p type set _ hfind hne hmem hc hi =>
    intro x hx hxc
    show ∃ type set, update σ.gInstances _ _ x.key = some ⟨type, some set⟩
    by_cases hk : x.key = (σ.tree.entryOf p).key
    · rw [hk, update_self]
      exact ⟨_, _, rfl⟩
    · rw [update_of_ne hk]
      exact hr x hx hxc

lemma Accessed.tree_eq (h : Accessed H cpu write a size σ es σ') : σ'.tree = σ.tree := by
  cases h with
  | user _ | miss _ _ | hit _ _ _ _ _ _ => rfl

/-! ## runs -/

/-- the invariant, with `n` more events to come -/
def Tracked (H : Host) (n : Nat) (σ : Tracer) : Prop :=
  ∃ es, Stores σ.tree es ∧ es.length + n < H.fuel ∧ Recorded es σ

variable {n : Nat}

lemma init_tracked (H : Host) (garbage : Ptr → NodeType) (pages : Nat → SecMap)
    (hf : n < H.fuel) : Tracked H n (.init garbage pages) := by
  refine ⟨[], init_stores garbage, by simpa using hf, ?_⟩
  intro x hx
  cases hx

/-- an object that no lookup finds starts at `a` -/
def Blocked (a : Addr) (σ : Tracer) : Prop :=
  ∃ es, Stores σ.tree es ∧ ∃ x ∈ es, x.key = a ∧ ¬ x.covers a

/-- the faults that are left: those of a hook, or an access whose call stack cannot be read -/
inductive FaultsAt (H : Host) (σ : Tracer) : Event → Fault → Prop where
  | hook {pc : BitVec 32} {cpu : Cpu} {es : List Entry} {f : Fault} : Stores σ.tree es →
      HookFault H pc cpu σ es f → FaultsAt H σ (.hook pc cpu) f
  | load {a size : BitVec 32} {cpu : Cpu} : cpu.callstackEbp σ.gPc = none →
      FaultsAt H σ (.load a size cpu) .hang
  | store {value a size : BitVec 32} {cpu : Cpu} : cpu.callstackEbp σ.gPc = none →
      FaultsAt H σ (.store value a size cpu) .hang

inductive Executed (H : Host) (σ : Tracer) (es : List Entry) (σ' : Tracer) :
    Event → List Entry → Prop where
  | hook {pc : BitVec 32} {cpu : Cpu} {es' : List Entry} : Hooked H pc cpu σ es σ' es' →
      Executed H σ es σ' (.hook pc cpu) es'
  | load {a size : BitVec 32} {cpu : Cpu} : Accessed H cpu false a size σ es σ' →
      Executed H σ es σ' (.load a size cpu) es
  | store {value a size : BitVec 32} {cpu : Cpu} : Accessed H cpu true a size σ es σ' →
      Executed H σ es σ' (.store value a size cpu) es

variable {ev : Event}

lemma Executed.stores (h : Executed H σ es σ' ev es') (hs : Stores σ.tree es) :
    Stores σ'.tree es' := by
  cases h with
  | hook h => exact h.stores hs
  | load h | store h => exact h.tree_eq ▸ hs

lemma Executed.length_le (h : Executed H σ es σ' ev es') : es'.length ≤ es.length + 1 := by
  cases h with
  | hook h => exact h.length_le
  | load h | store h => omega

lemma Executed.recorded (h : Executed H σ es σ' ev es') (hr : Recorded es σ) : Recorded es' σ' := by
  cases h with
  | hook h | load h | store h => exact h.recorded hr

lemma exec_cases (H : Host) (ev : Event) (hs : Stores σ.tree es) (hf : es.length + 1 < H.fuel)
    (hr : Recorded es σ) :
    (∃ σ' es', ev.exec H σ = .ok () σ' ∧ Executed H σ es σ' ev es') ∨
      ∃ f σ', ev.exec H σ = .error f σ' ∧ FaultsAt H σ ev f := by
  cases ev with
  | hook pc cpu =>
    rcases helperHook_cases H hs hf pc cpu with ⟨σ', es', h1, h2⟩ | ⟨f, σ', h1, h2⟩
    · exact .inl ⟨σ', es', h1, .hook h2⟩
    · exact .inr ⟨f, σ', h1, .hook hs h2⟩
  | load a size cpu =>
    rcases helperLoad_cases H cpu hs (by omega) a size with ⟨σ', h1, h2⟩ | ⟨h1, hcs⟩ | h1
    · exact .inl ⟨σ', es, h1, .load h2⟩
    · exact .inr ⟨.hang, σ, h1, .load hcs⟩
    · exact absurd h1 hr.not_unrecorded
  | store value a size cpu =>
    rcases helperStore_cases H cpu hs (by omega) value a size with ⟨σ', h1, h2⟩ | ⟨h1, hcs⟩ | h1
    · exact .inl ⟨σ', es, h1, .store h2⟩
    · exact .inr ⟨.hang, σ, h1, .store hcs⟩
    · exact absurd h1 hr.not_unrecorded

section
variable (hs : Stores σ.tree es) (hf : es.length + 1 < H.fuel) (hr : Recorded es σ)
include hs hf hr

lemma exec_inv (hrun : ev.exec H σ = .ok () σ') : ∃ es', Executed H σ es σ' ev es' := by
  rcases exec_cases H ev hs hf hr with ⟨σ₁, es', h1, h2⟩ | ⟨f, σ₁, h1, -⟩
  · rw [h1] at hrun
    injection hrun with _ hrun
    exact ⟨es', hrun ▸ h2⟩
  · rw [h1] at hrun
    cases hrun

lemma hooked_of_run (hrun : helperHook H pc cpu σ = .ok () σ') :
    ∃ es', Hooked H pc cpu σ es σ' es' := by
  have hev : (Event.hook pc cpu).exec H σ = .ok () σ' := hrun
  obtain ⟨es', h1⟩ := exec_inv hs hf hr hev
  cases h1 with
  | hook h1 => exact ⟨es', h1⟩

end

lemma key_of_first {x : Entry} (hs : Stores σ.tree []) (hf : 1 < H.fuel)
    (hrun : helperHook H pc cpu σ = .ok () σ') (hes : Stores σ'.tree es) (hx : x ∈ es) :
    x.key = cpu.eax := by
  obtain ⟨es', h⟩ := hooked_of_run hs hf (fun x hx => by cases hx) hrun
  rw [← (h.stores hs).unique hes] at hx
  rcases h.mem hx with hx | hx
  · cases hx
  · exact hx

/-- **One event**: the invariant holds again, or the run ends in one of these faults. -/
theorem Tracked.exec (h : Tracked H (n + 1) σ) (ev : Event) :
    (∃ σ', ev.exec H σ = .ok () σ' ∧ Tracked H n σ') ∨
      ∃ f σ', ev.exec H σ = .error f σ' ∧ FaultsAt H σ ev f := by
  obtain ⟨es, hs, hf, hr⟩ := h
  rcases exec_cases H ev hs (by omega) hr with ⟨σ', es', h1, h2⟩ | h1
  · have hlen := h2.length_le
    exact .inl ⟨σ', h1, es', h2.stores hs, by omega, h2.recorded hr⟩
  · exact .inr h1

lemma Tracked.exec_ok (h : Tracked H (n + 1) σ)
    (hrun : ev.exec H σ = .ok () σ') : Tracked H n σ' := by
  obtain ⟨es, hs, hf, hr⟩ := h
  obtain ⟨es', h1⟩ := exec_inv hs (by omega) hr hrun
  have hlen := h1.length_le
  exact ⟨es', h1.stores hs, by omega, h1.recorded hr⟩

lemma Tracked.lookup (h : Tracked H n σ) (a : Addr) :
    ∃ p, dsCodeRbtFind2 H a σ.tree = .ok p σ.tree ∧
      (p ≠ .null → (σ.gInstances (σ.tree.mem p).key).isSome) := by
  obtain ⟨es, hs, hf, hr⟩ := h
  obtain ⟨p, hfind, ⟨hne, -, hmem, hc⟩ | ⟨rfl, -⟩⟩ := hs.find2 H (by omega) a
  · refine ⟨p, hfind, fun _ => ?_⟩
    obtain ⟨type, set, hi⟩ := hr _ hmem hc.start
    have hi' : σ.gInstances (σ.tree.mem p).key = some ⟨type, some set⟩ := hi
    rw [hi']
    rfl
  · exact ⟨.null, hfind, fun k => absurd rfl k⟩

lemma Tracked.faults (h : Tracked H (n + 1) σ) (ev : Event) :
    (∃ σ', ev.exec H σ = .ok () σ' ∧ Tracked H n σ') ∨
      ∃ f σ', ev.exec H σ = .error f σ' ∧
        f ≠ .readAssert ∧ f ≠ .writeAssert ∧ f ≠ .diverge := by
  rcases h.exec ev with h1 | ⟨f, σ', h1, h2⟩
  · exact .inl h1
  · refine .inr ⟨f, σ', h1, ?_⟩
    cases h2 with
    | load _ | store _ => decide
    | hook _ h2 =>
      cases h2 with
      | retire _ h3 => cases h3 <;> decide
      | add _ h3 => cases h3 <;> decide

/-- **Every object that a lookup finds has a record**, in every state of every run; so no run
ends in the assertion of `add_read_action` or `add_write_action`. -/
theorem found_has_record (H : Host) (garbage : Ptr → NodeType) (pages : Nat → SecMap)
    (evs : List Event) (hf : evs.length < H.fuel) :
    Visits (Event.exec H) (fun σ => ∀ a, ∃ p, dsCodeRbtFind2 H a σ.tree = .ok p σ.tree ∧
      (p ≠ .null → (σ.gInstances (σ.tree.mem p).key).isSome)) (.init garbage pages) evs ∧
    ∀ f σ, runAll (Event.exec H) evs (.init garbage pages) = .error f σ →
      f ≠ .readAssert ∧ f ≠ .writeAssert ∧ f ≠ .diverge := by
  have hinit := init_tracked H garbage pages hf
  constructor
  · exact visits_of_meets (fun n ev σ σ' h _ => h.exec_ok) (fun n σ h a => h.lookup a) hinit
      (meets_true _ evs)
  · intro f σ hrun
    have hfault := runAll_error (fun n ev σ h _ => h.faults ev) hinit (meets_true _ evs) hrun
    exact hfault

/-- a guest where every call returns to `0xc1000100` -/
def plainCpu (eax : BitVec 32) : Cpu where
  eax := eax
  edx := 0
  esp := 0
  readMem _ := 0xc1000100
  readStr _ := ""
  callstackEbp _ := some ""
  stale := ⟨"", 0⟩

/-- `kmalloc(size)` returns `a` -/
def kmallocs (a : Addr) (size : BitVec 32) : List Event :=
  [.hook KMALLOC (plainCpu size), .hook 0xc1000100 (plainCpu a)]

def cleanPages (_ : Nat) : SecMap := fun _ => UNTAINTED

theorem found_has_record_kmalloc :
    Visits (Event.exec (.bump 8)) (fun σ => ∀ a, ∃ p,
      dsCodeRbtFind2 (.bump 8) a σ.tree = .ok p σ.tree ∧
        (p ≠ .null → (σ.gInstances (σ.tree.mem p).key).isSome)) (.init blank cleanPages)
      (kmallocs 0xc0100000 8 ++
        [.store 7 0xc0100004 4 (plainCpu 0), .hook KFREE (plainCpu 0xc0100000)]) :=
  (found_has_record (.bump 8) blank cleanPages _ (by decide)).1

/-! ## `delete_instance` -/

/-- an address that `trace_delete` retires is the start of the object that is found there -/
def FreesStart (H : Host) : Event → Tracer → Prop
  | .hook pc cpu, σ => ∀ a p, tracedAddr pc cpu = some a →
      dsCodeRbtFind2 H a σ.tree = .ok p σ.tree → p ≠ .null → (σ.tree.mem p).key = a
  | _, _ => True

/-- if `trace_delete` calls `delete_instance`, there is an entry for the address -/
def DeletesRecord (H : Host) : Event → Tracer → Prop
  | .hook pc cpu, σ => ∀ a p, tracedAddr pc cpu = some a →
      dsCodeRbtFind2 H a σ.tree = .ok p σ.tree → p ≠ .null → (σ.gInstances a).isSome
  | _, _ => True

lemma Tracked.deletesRecord (h : Tracked H n σ) (hc : FreesStart H ev σ) :
    DeletesRecord H ev σ := by
  cases ev with
  | load _ _ _ | store _ _ _ _ => trivial
  | hook pc cpu =>
    intro a p ha hfind hne
    obtain ⟨q, hq, hi⟩ := h.lookup a
    rw [hfind] at hq
    injection hq with hq
    subst hq
    rw [← hc a p ha hfind hne]
    exact hi hne

lemma Tracked.not_dangling (h : Tracked H n σ) (ha : tracedAddr pc cpu = some a)
    (hc : FreesStart H (.hook pc cpu) σ) : ¬ Dangling H a σ := by
  intro ⟨p, hfind, hne, hn⟩
  obtain ⟨es, hs, hf, hr⟩ := h
  obtain ⟨hmem, hcov⟩ := hs.of_find2 (by omega) hfind hne
  obtain ⟨type, set, hi⟩ := hr _ hmem hcov.start
  have hk : (σ.tree.entryOf p).key = a := hc a p ha hfind hne
  rw [hk] at hi
  exact hn type set hi

lemma Tracked.exec_frees (h : Tracked H (n + 1) σ) (ev : Event) (hc : FreesStart H ev σ) :
    (∃ σ', ev.exec H σ = .ok () σ' ∧ Tracked H n σ') ∨
      ∃ f σ', ev.exec H σ = .error f σ' ∧ f ≠ .segv := by
  rcases h.exec ev with h1 | ⟨f, σ', h1, h2⟩
  · exact .inl h1
  · refine .inr ⟨f, σ', h1, ?_⟩
    cases h2 with
    | load _ | store _ => decide
    | hook _ h2 =>
      cases h2 with
      | add _ h3 => cases h3 <;> decide
      | retire ha h3 =>
        cases h3 with
        | segv hd => exact absurd hd (h.not_dangling ha hc)
        | hang _ => decide

/-- **If every address that `trace_delete` retires is the start of the object found there,
`delete_instance` finds its entry at every step of the run**, and no run reads a null set. -/
theorem deletes_have_record (H : Host) (garbage : Ptr → NodeType) (pages : Nat → SecMap)
    (evs : List Event) (hf : evs.length < H.fuel)
    (hc : Meets (Event.exec H) (FreesStart H) (.init garbage pages) evs) :
    Meets (Event.exec H) (DeletesRecord H) (.init garbage pages) evs ∧
    ∀ f σ, runAll (Event.exec H) evs (.init garbage pages) = .error f σ → f ≠ .segv := by
  have hinit := init_tracked H garbage pages hf
  constructor
  · exact meets_of_meets (fun n ev σ σ' h _ => h.exec_ok) (fun n ev σ h hc => h.deletesRecord hc)
      hinit hc
  · intro f σ hrun
    have hfault := runAll_error (fun n ev σ h hc => h.exec_frees ev hc) hinit hc hrun
    exact hfault

lemma freesStart_of_none (h : tracedAddr pc cpu = none) : FreesStart H (.hook pc cpu) σ := by
  intro a p ha
  rw [h] at ha
  cases ha

lemma freesStart_of_find {p : Ptr} (ha : tracedAddr pc cpu = some a)
    (hfind : dsCodeRbtFind2 H a σ.tree = .ok p σ.tree) (hk : (σ.tree.mem p).key = a) :
    FreesStart H (.hook pc cpu) σ := by
  intro b q hb hq _
  rw [ha] at hb
  injection hb with hb
  subst hb
  rw [hfind] at hq
  injection hq with hq
  exact hq ▸ hk

theorem deletes_have_record_kfree :
    Meets (Event.exec (.bump 8)) (DeletesRecord (.bump 8)) (.init blank cleanPages)
      (kmallocs 0xc0100000 8 ++ [.hook KFREE (plainCpu 0xc0100000)]) := by
  refine (deletes_have_record (.bump 8) blank cleanPages _ (by decide) ?_).1
  refine .cons (freesStart_of_none rfl) (eq_ok (by decide)) ?_
  refine .cons (freesStart_of_none rfl) (eq_ok (by decide)) ?_
  refine ⟨freesStart_of_find (a := 0xc0100000) (p := .cell 1) rfl rfl rfl, fun _ _ => trivial⟩

/-- eight bytes at `0xc0100000`, then `kfree(0xc0100004)` -/
theorem interior_free : ∃ σ σ',
    runAll (Event.exec (.bump 8)) (kmallocs 0xc0100000 8) (.init blank cleanPages) = .ok () σ ∧
    σ.gInstances 0xc0100004 = none ∧
    Event.exec (.bump 8) (.hook KFREE (plainCpu 0xc0100004)) σ = .error .segv σ' :=
  ⟨_, _, eq_ok (by decide), by decide, eq_error (by decide)⟩

end
end RevSem
