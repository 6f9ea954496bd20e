import Mathlib
import TraceSyscallObj.Memory.Notices
import TraceSyscallObj.Memory.Topology

/-!
# What listeners hear about a new map

`address_space_update_topology` walks the old and the new map twice: the first time it takes back
the ranges that are gone, the second time it tells the ranges that have come.

* `SortedView`: a map: its ranges ascend and share no address;
* `Passes`: the walk, with what is known of the ranges at each step;
* `Passes.del`, `Passes.add_calls`: the calls of the two walks;
* `mirror`: the sections that a listener holds which follows the calls;
* `update_mirrors`: every listener hears of each range once and never holds two that overlap.
-/

namespace Memory
open List

/-- the ranges begin in the address space, in ascending order, and share no address -/
structure SortedView (view : FlatView) : Prop where
  sorted : view.Pairwise fun r r' => r.addr.start < r'.addr.start
  disjoint : view.Pairwise fun r r' =>
    ∀ a, ¬ (addrrangeContains r.addr a ∧ addrrangeContains r'.addr a)
  starts : ∀ r ∈ view, 0 ≤ r.addr.start ∧ r.addr.start < int128_2_64

/-- the calls of the deleting walk: the ranges of the old map that the new one does not have -/
def delCalls (old new : FlatView) : List (Callback × FlatRange) :=
  (old.filter fun r => !new.any (flatrangeEqual r)).map fun r => (.regionDel, r)

/-- the calls of the adding walk for one range of the new map -/
def addCall (old : FlatView) (r : FlatRange) : List (Callback × FlatRange) :=
  match old.find? (flatrangeEqual · r) with
  | none => [(.regionAdd, r)]
  | some frold => passCalls.keep true frold r

def addCalls (old new : FlatView) : List (Callback × FlatRange) := new.flatMap (addCall old)

/-- the calls that reach a listener, with their sections -/
def MemoryListener.heard (l : MemoryListener) (as : SpaceId) (calls : List (Callback × FlatRange)) :
    List (Callback × Option MemoryRegionSection) :=
  if memoryListenerMatch l as then
    (calls.filter fun call => l.callbacks call.1).map fun call =>
      (call.1, some (.ofRange as call.2))
  else []

/-- what a listener holds that adds and removes sections as it is told -/
def mirrorStep (held : List MemoryRegionSection) :
    Callback × Option MemoryRegionSection → List MemoryRegionSection
  | (.regionAdd, some sec) => sec :: held
  | (.regionDel, some sec) => held.erase sec
  | _ => held

def mirror (held : List MemoryRegionSection) (log : List (Callback × Option MemoryRegionSection)) :
    List MemoryRegionSection := log.foldl mirrorStep held

def MemoryRegionSection.has (sec : MemoryRegionSection) (a : Int) : Prop :=
  int128Make64 sec.offsetWithinAddressSpace ≤ a ∧
    a < int128Make64 sec.offsetWithinAddressSpace + sec.size

def Apart (s s' : MemoryRegionSection) : Prop := ∀ a, ¬ (s.has a ∧ s'.has a)

/-! ## the walk -/

variable {r : FlatRange} {view : FlatView}

section
variable {a b : FlatRange}

lemma start_of_equal (h : flatrangeEqual a b = true) : a.addr.start = b.addr.start := by
  unfold flatrangeEqual at h
  simp only [Bool.and_eq_true, beq_iff_eq] at h
  rw [h.1.1.1.2]

inductive Passes (adding : Bool) : FlatView → FlatView → List (Callback × FlatRange) → Prop
  | nil : Passes adding [] [] []
  | kill {frold : FlatRange} {old new : FlatView} {calls : List (Callback × FlatRange)} :
      (∀ r ∈ new, flatrangeEqual frold r = false) → Passes adding old new calls →
      Passes adding (frold :: old) new (passCalls.kill adding frold ++ calls)
  | keep {frold frnew : FlatRange} {old new : FlatView} {calls : List (Callback × FlatRange)} :
      flatrangeEqual frold frnew = true → (∀ r ∈ new, flatrangeEqual frold r = false) →
      (∀ r ∈ old, flatrangeEqual r frnew = false) → Passes adding old new calls →
      Passes adding (frold :: old) (frnew :: new) (passCalls.keep adding frold frnew ++ calls)
  | add {frnew : FlatRange} {old new : FlatView} {calls : List (Callback × FlatRange)} :
      (∀ r ∈ old, flatrangeEqual r frnew = false) → Passes adding old new calls →
      Passes adding old (frnew :: new) (passCalls.add adding frnew ++ calls)

lemma not_equal_of_start (h : ∀ r' ∈ view, r.addr.start ≠ r'.addr.start) (r' : FlatRange)
    (hr : r' ∈ view) :
    flatrangeEqual r r' = false :=
  Bool.eq_false_iff.mpr fun heq => h r' hr (start_of_equal heq)

lemma not_equal_of_start' (h : ∀ r' ∈ view, r'.addr.start ≠ r.addr.start) (r' : FlatRange)
    (hr : r' ∈ view) :
    flatrangeEqual r' r = false :=
  Bool.eq_false_iff.mpr fun heq => h r' hr (start_of_equal heq)

lemma passes_sorted (adding : Bool) (fuel : Nat) : ∀ old new : FlatView,
    old.length + new.length ≤ fuel → old.Pairwise (fun r r' => r.addr.start < r'.addr.start) →
    new.Pairwise (fun r r' => r.addr.start < r'.addr.start) →
    Passes adding old new (passCalls adding fuel old new) := by
  induction fuel with
  | zero =>
    intro old new hlen _ _
    have hold : old = [] := List.length_eq_zero_iff.mp (by omega)
    have hnew : new = [] := List.length_eq_zero_iff.mp (by omega)
    rw [hold, hnew]
    exact .nil
  | succ fuel ih =>
    intro old new hlen hold hnew
    match old, new with
    | [], [] => exact .nil
    | frold :: old, [] =>
      have hrest := (List.pairwise_cons.mp hold).2
      exact .kill (fun r hr => absurd hr not_mem_nil)
        (ih old [] (by simp only [length_cons] at hlen; omega) hrest .nil)
    | [], frnew :: new =>
      have hrest := (List.pairwise_cons.mp hnew).2
      exact .add (fun r hr => absurd hr not_mem_nil)
        (ih [] new (by simp only [length_cons] at hlen; omega) .nil hrest)
    | frold :: old, frnew :: new =>
      obtain ⟨ho, hold'⟩ := List.pairwise_cons.mp hold
      obtain ⟨hn, hnew'⟩ := List.pairwise_cons.mp hnew
      simp only [length_cons] at hlen
      show Passes adding (frold :: old) (frnew :: new) (if _ then _ else if _ then _ else _)
      by_cases hkill : frold.addr.start < frnew.addr.start
          ∨ (frold.addr.start = frnew.addr.start ∧ (!flatrangeEqual frold frnew) = true)
      · rw [if_pos hkill]
        refine .kill ?_ (ih old (frnew :: new) (by simp only [length_cons]; omega) hold' hnew)
        intro r hr
        rcases List.mem_cons.mp hr with rfl | hr
        · rcases hkill with hlt | ⟨-, hne⟩
          · exact Bool.eq_false_iff.mpr fun heq => by have := start_of_equal heq; omega
          · simpa using hne
        · refine Bool.eq_false_iff.mpr fun heq => ?_
          have h1 := start_of_equal heq
          have h2 := hn r hr
          omega
      · rw [if_neg hkill]
        by_cases heq : flatrangeEqual frold frnew = true
        · have hstart := start_of_equal heq
          rw [if_pos heq]
          refine .keep heq (not_equal_of_start fun r hr => ?_) (not_equal_of_start' fun r hr => ?_)
            (ih old new (by omega) hold' hnew')
          · have := hn r hr
            omega
          · have := ho r hr
            omega
        · have hlt : frnew.addr.start < frold.addr.start := by
            rw [not_or, not_and] at hkill
            have h2 := hkill.2
            by_contra hge
            exact h2 (by omega) (by simpa using heq)
          rw [if_neg heq]
          refine .add (not_equal_of_start' fun r hr => ?_)
            (ih (frold :: old) new (by simp only [length_cons]; omega) hold hnew')
          rcases List.mem_cons.mp hr with rfl | hr
          · omega
          · have := ho r hr
            omega

end

section
variable {old new : FlatView} {calls : List (Callback × FlatRange)}

lemma any_none {l : FlatView} {p : FlatRange → Bool} (h : ∀ r ∈ l, p r = false) :
    l.any p = false := by
  rw [any_eq_false]
  intro r hr
  rw [h r hr]
  exact Bool.false_ne_true

lemma any_rest {l l' : FlatView} {x : FlatRange} {p : FlatRange → FlatRange → Bool}
    (h : ∀ r ∈ l, p r x = false) : ∀ r ∈ l, (x :: l').any (p r) = l'.any (p r) := by
  intro r hr
  rw [any_cons, h r hr, Bool.false_or]

/-- **the deleting walk** -/
theorem Passes.del (h : Passes false old new calls) : calls = delCalls old new := by
  induction h with
  | nil => rfl
  | @kill frold old new calls hne _ ih =>
    rw [ih]
    simp [delCalls, any_none hne, passCalls.kill]
  | @keep frold frnew old new calls heq hne hne' _ ih =>
    rw [ih]
    unfold delCalls
    rw [filter_cons, any_cons, heq, filter_congr fun r hr => congrArg not (any_rest hne' r hr)]
    rfl
  | @add frnew old new calls hne _ ih =>
    rw [ih]
    unfold delCalls
    rw [filter_congr fun r hr => congrArg not (any_rest hne r hr)]
    rfl

/-- **the adding walk** -/
theorem Passes.add_calls (h : Passes true old new calls) : calls = addCalls old new := by
  induction h with
  | nil => rfl
  | @kill frold old new calls hne _ ih =>
    rw [ih]
    refine flatMap_congr fun r hr => ?_
    unfold addCall
    rw [List.find?_cons, hne r hr]
  | @keep frold frnew old new calls heq hne _ _ ih =>
    rw [ih]
    have hhead : addCall (frold :: old) frnew = passCalls.keep true frold frnew := by
      unfold addCall
      rw [List.find?_cons, heq]
    have hrest : addCalls old new = new.flatMap (addCall (frold :: old)) := by
      refine flatMap_congr fun r hr => ?_
      unfold addCall
      rw [List.find?_cons, hne r hr]
    rw [hrest, ← hhead]
    rfl
  | @add frnew old new calls hne _ ih =>
    rw [ih]
    have hhead : addCall old frnew = [(.regionAdd, frnew)] := by
      have hnone : old.find? (flatrangeEqual · frnew) = none := by
        rw [List.find?_eq_none]
        intro r hr
        rw [hne r hr]
        exact Bool.false_ne_true
      unfold addCall
      rw [hnone]
    show [(Callback.regionAdd, frnew)] ++ addCalls old new = _
    rw [← hhead]
    rfl

lemma Passes.kept {adding : Bool} (h : Passes adding old new calls) (as : SpaceId) :
    (old.filter fun r => new.any (flatrangeEqual r)).map (.ofRange as) =
      ((new.filter fun r => old.any (flatrangeEqual · r)).map (.ofRange as) :
        List MemoryRegionSection) := by
  induction h with
  | nil => rfl
  | @kill frold old new calls hne _ ih =>
    rw [filter_cons, any_none hne, filter_congr (any_rest (p := fun r x => flatrangeEqual x r) hne)]
    exact ih
  | @keep frold frnew old new calls heq hne hne' _ ih =>
    rw [filter_cons, filter_cons, any_cons, any_cons, heq, Bool.true_or,
      Bool.true_or, if_pos rfl, if_pos rfl, map_cons, map_cons, filter_congr (any_rest hne'),
      filter_congr (any_rest (p := fun r x => flatrangeEqual x r) hne), ih, ofRange_of_equal heq]
  | @add frnew old new calls hne _ ih =>
    rw [filter_cons, any_none hne, filter_congr (any_rest hne)]
    exact ih

end

/-! ## listeners -/

section
variable {as : SpaceId} {l : MemoryListener} {calls : List (Callback × FlatRange)}

lemma foldl_hear_received :
    (calls.foldl (·.hear as) l).received = l.received ++ l.heard as calls := by
  induction calls generalizing l with
  | nil =>
    unfold MemoryListener.heard
    split <;> exact (append_nil _).symm
  | cons call calls ih =>
    have hmatch : memoryListenerMatch (l.hear as call) = memoryListenerMatch l :=
      hear_match as l call
    rw [foldl_cons, ih]
    unfold MemoryListener.heard
    rw [hmatch]
    unfold MemoryListener.hear
    cases hm : memoryListenerMatch l as with
    | false => simp
    | true =>
      cases hc : l.callbacks call.1 with
      | false => simp [hc]
      | true => simp [hc, MemoryListener.call]

lemma updateRegion_ok (as : SpaceId) (callback : Callback) {fr : FlatRange}
    (hfr : 0 ≤ fr.addr.start ∧ fr.addr.start < int128_2_64) (ls : List MemoryListener) :
    ∃ ls', memoryListenerUpdateRegion as callback fr ls = .ok ls' := by
  unfold memoryListenerUpdateRegion
  induction ls with
  | nil => exact ⟨[], rfl⟩
  | cons l ls ih =>
    obtain ⟨ls', hls⟩ := ih
    have hsec : sectionOf as fr = .ok (.ofRange as fr) := by
      unfold sectionOf
      rw [get64_ok hfr.1 hfr.2]
      rfl
    rw [mapM_cons, hls, hsec]
    split
    · exact ⟨_, rfl⟩
    · exact ⟨_, rfl⟩

lemma foldlM_update_ok (hcalls : ∀ call ∈ calls, 0 ≤ call.2.addr.start ∧
    call.2.addr.start < int128_2_64) (ls : List MemoryListener) :
    ∃ ls', calls.foldlM (fun ls call => memoryListenerUpdateRegion as call.1 call.2 ls) ls =
      .ok ls' := by
  induction calls generalizing ls with
  | nil => exact ⟨ls, rfl⟩
  | cons call calls ih =>
    obtain ⟨hcall, hrest⟩ := List.forall_mem_cons.mp hcalls
    obtain ⟨ls₁, h₁⟩ := updateRegion_ok as call.1 hcall ls
    obtain ⟨ls', h'⟩ := ih hrest ls₁
    refine ⟨ls', ?_⟩
    rw [foldlM_cons, h₁]
    exact h'

end

/-! ## mirrors -/

variable {call : Callback × FlatRange}

section
variable {held : List MemoryRegionSection}
  {log : List (Callback × Option MemoryRegionSection)} {as : SpaceId} {old new view : FlatView}

def addedBy (log : List (Callback × Option MemoryRegionSection)) : List MemoryRegionSection :=
  log.filterMap fun | (.regionAdd, some sec) => some sec | _ => none

lemma mirror_append (log' : List (Callback × Option MemoryRegionSection)) :
    mirror held (log ++ log') = mirror (mirror held log) log' := foldl_append

lemma mirror_adds (h : ∀ e ∈ log, e.1 ≠ .regionDel) :
    mirror held log = (addedBy log).reverse ++ held := by
  induction log generalizing held with
  | nil => rfl
  | cons e log ih =>
    obtain ⟨he, hrest⟩ := List.forall_mem_cons.mp h
    show mirror (mirrorStep held e) log = _
    rw [ih hrest]
    match e, he with
    | (.regionAdd, some sec), _ | (.regionAdd, none), _ => simp [mirrorStep, addedBy]
    | (.regionDel, _), he => exact absurd rfl he
    | (.regionNop, _), _ => simp [mirrorStep, addedBy]
    | (.logStart, _), _ => simp [mirrorStep, addedBy]
    | (.logStop, _), _ | (.begin, _), _ | (.commit, _), _ => simp [mirrorStep, addedBy]

lemma mirror_dels_sublist (h : ∀ e ∈ log, e.1 = .regionDel) : (mirror held log).Sublist held := by
  induction log generalizing held with
  | nil => exact List.Sublist.refl _
  | cons e log ih =>
    obtain ⟨he, hrest⟩ := List.forall_mem_cons.mp h
    refine (ih hrest).trans ?_
    match e, he with
    | (.regionDel, some sec), _ => exact erase_sublist
    | (.regionDel, none), _ => exact List.Sublist.refl _

lemma mirror_dels (secs : List MemoryRegionSection) :
    mirror held (secs.map fun sec => (.regionDel, some sec)) = held.diff secs := by
  induction secs generalizing held with
  | nil => rfl
  | cons sec secs ih =>
    rw [diff_cons, ← ih]
    rfl

lemma SortedView.apart (h : SortedView view) :
    (view.map (MemoryRegionSection.ofRange as)).Pairwise Apart := by
  have hhas : ∀ r ∈ view, ∀ a, (MemoryRegionSection.ofRange as r).has a →
      addrrangeContains r.addr a := by
    intro r hr a ha
    obtain ⟨h0, h1⟩ := h.starts r hr
    have ha' : int128Make64 (BitVec.ofInt 64 r.addr.start) ≤ a ∧
        a < int128Make64 (BitVec.ofInt 64 r.addr.start) + r.addr.size := ha
    rw [make64_ofInt h0 h1] at ha'
    exact ha'
  rw [pairwise_map]
  refine h.disjoint.imp_of_mem ?_
  intro r r' hr hr' hd a ha
  exact hd a ⟨hhas r hr a ha.1, hhas r' hr' a ha.2⟩

lemma Apart.symm {s s' : MemoryRegionSection} (h : Apart s s') : Apart s' s :=
  fun a ha => h a ⟨ha.2, ha.1⟩

lemma diff_of_perm {secs rest : List MemoryRegionSection} (h : held.Perm (secs ++ rest)) :
    (held.diff secs).Perm rest := by
  rw [← Multiset.coe_eq_coe, ← Multiset.coe_sub, Multiset.coe_eq_coe.mpr h, ← Multiset.coe_add,
    add_tsub_cancel_left]

variable {l : MemoryListener}

lemma heard_del (hdel : l.callbacks .regionDel = true) (hm : memoryListenerMatch l as = true) :
    l.heard as (delCalls old new) = ((old.filter fun r => !new.any (flatrangeEqual r)).map
      (.ofRange as)).map fun sec => (.regionDel, some sec) := by
  have hall : ∀ call ∈ delCalls old new, l.callbacks call.1 = true := by
    intro call hcall
    obtain ⟨r, -, rfl⟩ := List.mem_map.mp hcall
    exact hdel
  unfold MemoryListener.heard
  rw [if_pos hm, List.filter_eq_self.mpr hall]
  unfold delCalls
  rw [map_map, map_map]
  rfl

lemma keep_callback {frold frnew : FlatRange} (h : call ∈ passCalls.keep true frold frnew) :
    call.1 ≠ .regionDel ∧ call.1 ≠ .regionAdd := by
  have hcb : call.1 = .regionNop ∨ call.1 = .logStop ∨ call.1 = .logStart := by
    unfold passCalls.keep at h
    simp only [Bool.not_true, Bool.false_eq_true, if_false] at h
    split at h
    · rcases List.mem_pair.mp h with rfl | rfl
      · exact .inl rfl
      · exact .inr (.inl rfl)
    split at h
    · rcases List.mem_pair.mp h with rfl | rfl
      · exact .inl rfl
      · exact .inr (.inr rfl)
    · rw [List.mem_singleton.mp h]
      exact .inl rfl
  rcases hcb with h | h | h <;> rw [h] <;> exact ⟨by decide, by decide⟩

lemma heard_add_not_del : ∀ e ∈ l.heard as (addCalls old new), e.1 ≠ .regionDel := by
  intro e he
  unfold MemoryListener.heard at he
  split at he
  · obtain ⟨call, hcall, rfl⟩ := List.mem_map.mp he
    obtain ⟨r, -, hr⟩ := List.mem_flatMap.mp (List.mem_filter.mp hcall).1
    unfold addCall at hr
    split at hr
    · rw [List.mem_singleton.mp hr]
      exact Callback.noConfusion
    · exact (keep_callback hr).1
  · cases he

lemma heard_append (calls calls' : List (Callback × FlatRange)) :
    l.heard as (calls ++ calls') = l.heard as calls ++ l.heard as calls' := by
  unfold MemoryListener.heard
  split
  · rw [filter_append, map_append]
  · rfl

lemma addedBy_append (log' : List (Callback × Option MemoryRegionSection)) :
    addedBy (log ++ log') = addedBy log ++ addedBy log' := filterMap_append

lemma addedBy_heard_add (hadd : l.callbacks .regionAdd = true)
    (hm : memoryListenerMatch l as = true) : addedBy (l.heard as (addCalls old new)) =
      (new.filter fun r => !old.any (flatrangeEqual · r)).map (.ofRange as) := by
  induction new with
  | nil =>
    unfold MemoryListener.heard
    rw [if_pos hm]
    rfl
  | cons r new ih =>
    show addedBy (l.heard as (addCall old r ++ addCalls old new)) = _
    rw [heard_append, addedBy_append, ih, filter_cons]
    unfold addCall
    cases hfind : old.find? (flatrangeEqual · r) with
    | none =>
      have hany : old.any (flatrangeEqual · r) = false := by
        rw [any_eq_false]
        exact List.find?_eq_none.mp hfind
      simp [hany, MemoryListener.heard, hm, hadd, addedBy]
    | some frold =>
      have hany : old.any (flatrangeEqual · r) = true :=
        List.any_eq_true.mpr ⟨frold, mem_of_find?_eq_some hfind,
          List.find?_some (p := (flatrangeEqual · r)) hfind⟩
      have hnone : addedBy (l.heard as (passCalls.keep true frold r)) = [] := by
        unfold addedBy
        rw [filterMap_eq_nil_iff]
        intro e he
        unfold MemoryListener.heard at he
        rw [if_pos hm] at he
        obtain ⟨call, hcall, rfl⟩ := List.mem_map.mp he
        have hne := (keep_callback (List.mem_filter.mp hcall).1).2
        obtain ⟨callback, fr⟩ := call
        cases callback <;> first | rfl | exact absurd rfl hne
      simp only [hany, Bool.not_true, Bool.false_eq_true, if_false]
      rw [hnone, nil_append]

/-- **a mirror of the old map becomes one of the new map and never holds two that overlap** -/
theorem mirror_update (hold : SortedView old) (hnew : SortedView new)
    (hadd : l.callbacks .regionAdd = true) (hdel : l.callbacks .regionDel = true)
    (hm : memoryListenerMatch l as = true) (hheld : held.Perm (old.map (.ofRange as))) :
    (mirror held (l.heard as (delCalls old new) ++ l.heard as (addCalls old new))).Perm
        (new.map (.ofRange as)) ∧
      ∀ p, p <+: l.heard as (delCalls old new) ++ l.heard as (addCalls old new) →
        (mirror held p).Pairwise Apart := by
  have hpass := passes_sorted true (old.length + new.length) old new (le_refl _) hold.sorted
    hnew.sorted
  have hheld' : held.Pairwise Apart :=
    (hheld.pairwise_iff fun h => Apart.symm h).mpr hold.apart
  -- after the deletions the ranges that both maps have are left
  have hleft : (mirror held (l.heard as (delCalls old new))).Perm
      ((new.filter fun r => old.any (flatrangeEqual · r)).map (.ofRange as)) := by
    rw [heard_del hdel hm, mirror_dels, ← hpass.kept as]
    refine diff_of_perm (hheld.trans ?_)
    rw [← map_append]
    refine (List.Perm.map _ ?_).symm
    have h := filter_append_perm (fun r => !new.any (flatrangeEqual r)) old
    simpa only [Bool.not_not] using h
  have hparts : ((new.filter fun r => !old.any (flatrangeEqual · r)) ++
      new.filter fun r => old.any (flatrangeEqual · r)).Perm new := by
    have h := filter_append_perm (fun r => !old.any (flatrangeEqual · r)) new
    simpa only [Bool.not_not] using h
  have hadds : ∀ p, p <+: l.heard as (addCalls old new) →
      mirror (mirror held (l.heard as (delCalls old new))) p =
        (addedBy p).reverse ++ mirror held (l.heard as (delCalls old new)) := by
    intro p hp
    exact mirror_adds fun e he => heard_add_not_del e (hp.subset he)
  refine ⟨?_, fun p hp => ?_⟩
  · rw [mirror_append, hadds _ (prefix_refl _), addedBy_heard_add hadd hm]
    refine ((reverse_perm _).append hleft).trans ?_
    rw [← map_append]
    exact hparts.map _
  · obtain ⟨rest, hrest⟩ := hp
    rcases List.append_eq_append_iff.mp hrest with ⟨d, hd, -⟩ | ⟨q, rfl, ha⟩
    · have hp : p <+: l.heard as (delCalls old new) := ⟨d, hd.symm⟩
      refine hheld'.sublist (mirror_dels_sublist fun e he => ?_)
      have hmem := hp.subset he
      rw [heard_del hdel hm] at hmem
      obtain ⟨sec, -, rfl⟩ := List.mem_map.mp hmem
      rfl
    · have hq : q <+: l.heard as (addCalls old new) := ⟨rest, ha.symm⟩
      rw [mirror_append, hadds q hq]
      have hperm : ((addedBy q).reverse ++ mirror held (l.heard as (delCalls old new))).Perm
          (addedBy q ++ (new.filter fun r => old.any (flatrangeEqual · r)).map (.ofRange as)) :=
        (reverse_perm _).append hleft
      refine (hperm.pairwise_iff fun h => Apart.symm h).mpr ?_
      have hall : ((new.filter fun r => !old.any (flatrangeEqual · r)).map
          (MemoryRegionSection.ofRange as) ++
          (new.filter fun r => old.any (flatrangeEqual · r)).map
            (MemoryRegionSection.ofRange as)).Pairwise Apart := by
        rw [← map_append]
        exact ((hparts.map _).pairwise_iff fun h => Apart.symm h).mpr hnew.apart
      refine hall.sublist (List.Sublist.append ?_ (List.Sublist.refl _))
      rw [← addedBy_heard_add hadd hm]
      exact (hq.filterMap _).sublist

end

/-! ## the two walks -/

/-- what the two walks do for the listener `l` -/
structure Notified (as : SpaceId) (old new : FlatView) (l l₁ l₂ : MemoryListener) : Prop where
  /-- `region_del`, once, for each range of the old map that the new one does not have -/
  deleted : l₁.received = l.received ++ l.heard as (delCalls old new)
  /-- `region_add`, once, for each range of the new map that the old one does not have, and
  `region_nop` for the others -/
  added : l₂.received = l₁.received ++ l.heard as (addCalls old new)
  mirrors : l.callbacks .regionAdd = true → l.callbacks .regionDel = true →
    memoryListenerMatch l as = true → ∀ held : List MemoryRegionSection,
      held.Perm (old.map (.ofRange as)) → ∃ log, l₂.received = l.received ++ log ∧
        (mirror held log).Perm (new.map (.ofRange as)) ∧
        ∀ p, p <+: log → (mirror held p).Pairwise Apart

section
variable {as : SpaceId} {old new : FlatView}

lemma mem_delCalls (h : call ∈ delCalls old new) : call.2 ∈ old := by
  obtain ⟨r, hr, rfl⟩ := List.mem_map.mp h
  exact (List.mem_filter.mp hr).1

lemma mem_addCalls (h : call ∈ addCalls old new) : call.2 ∈ new := by
  obtain ⟨r, hr, hcall⟩ := List.mem_flatMap.mp h
  have heq : call.2 = r := by
    unfold addCall at hcall
    split at hcall
    · rw [List.mem_singleton.mp hcall]
    unfold passCalls.keep at hcall
    simp only [Bool.not_true, Bool.false_eq_true, if_false] at hcall
    split at hcall
    · rcases List.mem_pair.mp hcall with rfl | rfl <;> rfl
    · split at hcall
      · rcases List.mem_pair.mp hcall with rfl | rfl <;> rfl
      · rw [List.mem_singleton.mp hcall]
  rw [heq]
  exact hr

/-- **every listener hears of each range once, and a mirror of the old map becomes one of the new
map without ever holding two ranges that overlap** -/
theorem update_mirrors (as : SpaceId) (hold : SortedView old) (hnew : SortedView new)
    (ls : List MemoryListener) :
    ∃ ls₁ ls₂, addressSpaceUpdateTopologyPass as old new false ls = .ok ls₁ ∧
      addressSpaceUpdateTopologyPass as old new true ls₁ = .ok ls₂ ∧
      ∀ (i : Nat) (l : MemoryListener), ls[i]? = some l →
        ∃ l₁ l₂, ls₁[i]? = some l₁ ∧ ls₂[i]? = some l₂ ∧ Notified as old new l l₁ l₂ := by
  have hpass := fun adding => passes_sorted adding (old.length + new.length) old new (le_refl _)
    hold.sorted hnew.sorted
  have hdels := (hpass false).del
  have hadds := (hpass true).add_calls
  obtain ⟨ls₁, h₁⟩ : ∃ ls₁, addressSpaceUpdateTopologyPass as old new false ls = .ok ls₁ := by
    unfold addressSpaceUpdateTopologyPass
    rw [hdels]
    exact foldlM_update_ok (fun call hcall => hold.starts _ (mem_delCalls hcall)) ls
  obtain ⟨ls₂, h₂⟩ : ∃ ls₂, addressSpaceUpdateTopologyPass as old new true ls₁ = .ok ls₂ := by
    unfold addressSpaceUpdateTopologyPass
    rw [hadds]
    exact foldlM_update_ok (fun call hcall => hnew.starts _ (mem_addCalls hcall)) ls₁
  refine ⟨ls₁, ls₂, h₁, h₂, fun i l hl => ?_⟩
  have e₁ := pass_spec h₁
  have e₂ := pass_spec h₂
  rw [hdels] at e₁
  rw [hadds] at e₂
  have hl₁ : ls₁[i]? = some ((delCalls old new).foldl (·.hear as) l) := by
    rw [e₁, List.getElem?_map, hl]
    rfl
  have hdeleted : ((delCalls old new).foldl (·.hear as) l).received =
      l.received ++ l.heard as (delCalls old new) := foldl_hear_received
  have hadded : ((addCalls old new).foldl (·.hear as)
      ((delCalls old new).foldl (·.hear as) l)).received =
        ((delCalls old new).foldl (·.hear as) l).received ++ l.heard as (addCalls old new) := by
    rw [foldl_hear_received]
    unfold MemoryListener.heard
    rw [foldl_hear_callbacks, foldl_hear_match]
  refine ⟨_, _, hl₁, by rw [e₂, List.getElem?_map, hl₁]; rfl, hdeleted, hadded, ?_⟩
  intro hadd hdel hm held hheld
  obtain ⟨hmirror, happart⟩ := mirror_update hold hnew hadd hdel hm hheld
  refine ⟨_, ?_, hmirror, happart⟩
  rw [hadded, hdeleted, append_assoc]

end

lemma Good.sortedView (h : Good view) : SortedView view := by
  have hlt : ∀ r ∈ view, r.addr.start < addrrangeEnd r.addr := h.ordered.nonempty
  refine ⟨?_, ?_, fun r hr => ?_⟩
  · refine h.ordered.apart.imp_of_mem ?_
    intro r r' hr _ hle
    exact lt_of_lt_of_le (hlt r hr) hle
  · refine h.ordered.apart.imp ?_
    rintro r r' hle a ⟨⟨-, h1⟩, ⟨h2, -⟩⟩
    have hle' : addrrangeEnd r.addr ≤ r'.addr.start := hle
    omega
  · obtain ⟨h0, h1⟩ := h.bounds r hr
    exact ⟨h0, lt_of_lt_of_le (hlt r hr) h1⟩

lemma SortedView.pair {r' : FlatRange} (h0 : 0 ≤ r.addr.start)
    (h1 : addrrangeEnd r.addr ≤ r'.addr.start) (h2 : r.addr.start < r'.addr.start)
    (h3 : r'.addr.start < int128_2_64) : SortedView [r, r'] := by
  refine ⟨List.pairwise_pair.mpr h2, List.pairwise_pair.mpr ?_, ?_⟩
  · rintro a ⟨⟨-, ha⟩, ⟨hb, -⟩⟩
    omega
  · intro x hx
    rcases List.mem_pair.mp hx with rfl | rfl
    · exact ⟨h0, lt_trans h2 h3⟩
    · exact ⟨le_trans h0 (le_of_lt h2), h3⟩

/-- a listener with `region_add` and `region_del` hears that a region has moved up -/
theorem update_mirrors_moved :
    let old : FlatView := [⟨1, 0, ⟨0x1000, 0x1000⟩, 0, true, false⟩,
      ⟨2, 0, ⟨0x2000, 0x1000⟩, 0, true, true⟩]
    let new : FlatView := [⟨2, 0, ⟨0x2000, 0x1000⟩, 0, true, true⟩,
      ⟨1, 0, ⟨0x3000, 0x1000⟩, 0, true, false⟩]
    let l : MemoryListener := ⟨.device 0, fun c => c == .regionAdd || c == .regionDel, 0, none, []⟩
    ∃ ls₁ ls₂, addressSpaceUpdateTopologyPass 0 old new false [l] = .ok ls₁ ∧
      addressSpaceUpdateTopologyPass 0 old new true ls₁ = .ok ls₂ ∧
      ∀ (i : Nat) (l' : MemoryListener), [l][i]? = some l' →
        ∃ l₁ l₂, ls₁[i]? = some l₁ ∧ ls₂[i]? = some l₂ ∧ Notified 0 old new l' l₁ l₂ := by
  intro old new l
  exact update_mirrors 0 (SortedView.pair (by decide) (by decide) (by decide) (by decide))
    (SortedView.pair (by decide) (by decide) (by decide) (by decide)) [l]

end Memory
