import TraceSyscallObj.Lib.Checked
import TraceSyscallObj.Memory.Api

/-!
# What the listeners are told

An update makes two passes over the old and the new map.  The ranges it deletes are those of the old
map without the ranges it keeps, and those it adds are the rest of the new map; so a listener that
was told the old map is told the new one.

* `MemoryListener.Told l secs`: for every section, additions minus deletions is its number in
  `secs`;
* `passCalls_count`: the two passes together;
* `updateSpaces_spec`: every address space has the map of its root, and it was told.
-/

namespace Memory
open Checked List
variable {l : MemoryListener} {as : SpaceId}

/-! ## calls to a listener -/

def MemoryListener.times (l : MemoryListener) (callback : Callback) (sec : MemoryRegionSection) :
    Nat :=
  l.received.count (callback, some sec)

/-- a listener with both callbacks: the sections that it was told and that were not taken back -/
def MemoryListener.Told (l : MemoryListener) (secs : List MemoryRegionSection) : Prop :=
  l.callbacks .regionAdd = true → l.callbacks .regionDel = true → ∀ sec,
    l.times .regionAdd sec = l.times .regionDel sec +
      if memoryListenerMatch l sec.addressSpace then secs.count sec else 0

def MemoryRegionSection.ofRange (as : SpaceId) (fr : FlatRange) : MemoryRegionSection :=
  { mr := fr.mr, addressSpace := as, offsetWithinRegion := fr.offsetInRegion, size := fr.addr.size,
    offsetWithinAddressSpace := BitVec.ofInt 64 fr.addr.start, readonly := fr.readonly }

lemma sectionOf_ok {fr : FlatRange} {sec : MemoryRegionSection}
    (h : sectionOf as fr = .ok sec) : sec = .ofRange as fr := by
  obtain ⟨offset, h1, h2⟩ := bind_ok_inv h
  unfold int128Get64 at h1
  split at h1
  · cases h1
    cases h2
    rfl
  · cases h1

def sections (spaces : List AddressSpace) : List MemoryRegionSection :=
  spaces.flatMap fun as => as.currentMap.map (.ofRange as.id)

/-- a listener gets a call about a range, if it has the callback and its filter lets it through -/
def MemoryListener.hear (as : SpaceId) (l : MemoryListener) (call : Callback × FlatRange) :
    MemoryListener :=
  if l.callbacks call.1 && memoryListenerMatch l as then
    l.call call.1 (some (.ofRange as call.2))
  else l

lemma hear_callbacks (as : SpaceId) (l : MemoryListener) (call : Callback × FlatRange) :
    (l.hear as call).callbacks = l.callbacks := by
  unfold MemoryListener.hear
  split <;> rfl

lemma hear_match (as : SpaceId) (l : MemoryListener) (call : Callback × FlatRange) :
    memoryListenerMatch (l.hear as call) = memoryListenerMatch l := by
  unfold MemoryListener.hear
  split <;> rfl

lemma call_times (l : MemoryListener) (called callback : Callback)
    (told sec : MemoryRegionSection) :
    (l.call called (some told)).times callback sec = l.times callback sec +
      if (called, told) = (callback, sec) then 1 else 0 := by
  show (l.received ++ [(called, some told)]).count (callback, some sec) = _
  rw [count_append, count_singleton]
  congr 1
  simp only [beq_iff_eq, Prod.mk.injEq, Option.some.injEq]

variable {callback : Callback}

lemma hear_times (as : SpaceId) (l : MemoryListener) (call : Callback × FlatRange)
    (hcb : l.callbacks callback = true) (sec : MemoryRegionSection) :
    (l.hear as call).times callback sec = l.times callback sec +
      if memoryListenerMatch l sec.addressSpace
          ∧ (call.1, MemoryRegionSection.ofRange as call.2) = (callback, sec) then 1 else 0 := by
  unfold MemoryListener.hear
  by_cases heq : (call.1, MemoryRegionSection.ofRange as call.2) = (callback, sec)
  · have hcall : l.callbacks call.1 = true := (congrArg Prod.fst heq : call.1 = callback) ▸ hcb
    have hspace : as = sec.addressSpace :=
      congrArg (fun x => x.2.addressSpace) heq
    rw [hcall, Bool.true_and, hspace]
    cases hm : memoryListenerMatch l sec.addressSpace with
    | true =>
      rw [if_pos rfl, if_pos ⟨rfl, hspace ▸ heq⟩, call_times, if_pos (hspace ▸ heq)]
    | false =>
      rfl
  · by_cases hheard : (l.callbacks call.1 && memoryListenerMatch l as) = true
    · rw [if_pos hheard, if_neg fun hc => heq hc.2, call_times, if_neg heq]
    · rw [if_neg hheard, if_neg fun hc => heq hc.2]
      rfl

def named (as : SpaceId) (calls : List (Callback × FlatRange)) :
    List (Callback × MemoryRegionSection) :=
  calls.map fun call => (call.1, .ofRange as call.2)

def tally (as : SpaceId) (sec : MemoryRegionSection) (callback : Callback)
    (calls : List (Callback × FlatRange)) : Nat :=
  (named as calls).count (callback, sec)

section
variable (as : SpaceId) (calls : List (Callback × FlatRange)) (l : MemoryListener)

lemma foldl_hear_callbacks : (calls.foldl (·.hear as) l).callbacks = l.callbacks := by
  induction calls generalizing l with
  | nil => rfl
  | cons call calls ih => rw [foldl_cons, ih, hear_callbacks]

lemma foldl_hear_match :
    memoryListenerMatch (calls.foldl (·.hear as) l) = memoryListenerMatch l := by
  induction calls generalizing l with
  | nil => rfl
  | cons call calls ih => rw [foldl_cons, ih, hear_match]

lemma foldl_hear_times (hcb : l.callbacks callback = true) (sec : MemoryRegionSection) :
    (calls.foldl (·.hear as) l).times callback sec = l.times callback sec +
      if memoryListenerMatch l sec.addressSpace then tally as sec callback calls else 0 := by
  unfold tally
  induction calls generalizing l with
  | nil => exact (ite_self 0).symm ▸ rfl
  | cons call calls ih =>
    have hcount : (named as (call :: calls)).count (callback, sec) =
        (named as calls).count (callback, sec) +
          if (call.1, MemoryRegionSection.ofRange as call.2) = (callback, sec) then 1 else 0 := by
      simp only [named, map_cons, count_cons, beq_iff_eq]
    rw [foldl_cons, ih _ (by rw [hear_callbacks]; exact hcb), hear_match,
      hear_times as l call hcb]
    cases memoryListenerMatch l sec.addressSpace with
    | true =>
      simp only [true_and, if_true]
      omega
    | false => simp
end

/-! ## one address space -/

variable {ls ls' : List MemoryListener}

lemma updateRegion_spec {fr : FlatRange}
    (h : memoryListenerUpdateRegion as callback fr ls = .ok ls') :
    ls' = ls.map (·.hear as (callback, fr)) := by
  unfold memoryListenerUpdateRegion at h
  induction ls generalizing ls' with
  | nil =>
    cases h
    rfl
  | cons l ls ih =>
    rw [mapM_cons] at h
    obtain ⟨l', h1, h2⟩ := bind_ok_inv h
    obtain ⟨rest, h3, h4⟩ := bind_ok_inv h2
    cases h4
    rw [map_cons, ← ih h3]
    refine congrArg (· :: rest) ?_
    unfold MemoryListener.hear
    cases hcb : l.callbacks callback with
    | true =>
      rw [if_pos hcb] at h1
      obtain ⟨sec, h5, h6⟩ := bind_ok_inv h1
      rw [← sectionOf_ok h5]
      exact (Except.ok.inj h6).symm
    | false =>
      rw [if_neg (by rw [hcb]; exact Bool.false_ne_true)] at h1
      exact (Except.ok.inj h1).symm

lemma pass_spec {old new : FlatView} {adding : Bool}
    (h : addressSpaceUpdateTopologyPass as old new adding ls = .ok ls') :
    ls' = ls.map fun l =>
      (passCalls adding (old.length + new.length) old new).foldl (·.hear as) l := by
  unfold addressSpaceUpdateTopologyPass at h
  generalize passCalls adding (old.length + new.length) old new = calls at h ⊢
  induction calls generalizing ls with
  | nil =>
    cases h
    exact (map_id _).symm
  | cons call calls ih =>
    obtain ⟨ls₁, h1, h2⟩ := foldlM_cons_inv h
    rw [ih h2, updateRegion_spec h1, map_map]
    rfl

lemma ofRange_of_equal {a b : FlatRange} (h : flatrangeEqual a b = true) :
    MemoryRegionSection.ofRange as a = .ofRange as b := by
  unfold flatrangeEqual at h
  simp only [Bool.and_eq_true, beq_iff_eq] at h
  obtain ⟨⟨⟨⟨h1, h2⟩, h3⟩, -⟩, h5⟩ := h
  unfold MemoryRegionSection.ofRange
  rw [h1, h2, h3, h5]

section
variable (as : SpaceId) (sec : MemoryRegionSection)

lemma tally_append (callback : Callback) (calls calls' : List (Callback × FlatRange)) :
    tally as sec callback (calls ++ calls') =
      tally as sec callback calls + tally as sec callback calls' := by
  unfold tally named
  rw [map_append, count_append]

lemma tally_cons (callback called : Callback) (fr : FlatRange)
    (calls : List (Callback × FlatRange)) :
    tally as sec callback ((called, fr) :: calls) = tally as sec callback calls +
      if called = callback then [MemoryRegionSection.ofRange as fr].count sec else 0 := by
  unfold tally named
  rw [map_cons, count_cons, count_singleton]
  congr 1
  by_cases hc : called = callback <;> simp [hc]

lemma count_map_cons (fr : FlatRange) (view : FlatView) :
    ((fr :: view).map (.ofRange as)).count sec =
      (view.map (.ofRange as)).count sec + [MemoryRegionSection.ofRange as fr].count sec := by
  rw [map_cons, count_cons, count_singleton]

/-- the ranges added and those of the old map are the ranges deleted and those of the new map; the
first pass makes the calls `dels`, the second one `adds` -/
def Exchanges (dels adds : List (Callback × FlatRange)) (old new : FlatView) : Prop :=
  tally as sec .regionAdd adds + (old.map (.ofRange as)).count sec =
    tally as sec .regionDel dels + (new.map (.ofRange as)).count sec ∧
  tally as sec .regionDel adds = 0 ∧ tally as sec .regionAdd dels = 0

variable {as sec} {dels adds : List (Callback × FlatRange)} {old new : FlatView}

lemma Exchanges.kill (h : Exchanges as sec dels adds old new) (fr : FlatRange) :
    Exchanges as sec (passCalls.kill false fr ++ dels) (passCalls.kill true fr ++ adds)
      (fr :: old) new := by
  obtain ⟨h1, h2, h3⟩ := h
  refine ⟨?_, h2, ?_⟩
  · show tally as sec .regionAdd adds + _ = tally as sec .regionDel ((.regionDel, fr) :: dels) + _
    rw [tally_cons, if_pos rfl, count_map_cons]
    omega
  · show tally as sec .regionAdd ((.regionDel, fr) :: dels) = 0
    rw [tally_cons, h3]
    rfl

lemma Exchanges.add (h : Exchanges as sec dels adds old new) (fr : FlatRange) :
    Exchanges as sec (passCalls.add false fr ++ dels) (passCalls.add true fr ++ adds)
      old (fr :: new) := by
  obtain ⟨h1, h2, h3⟩ := h
  refine ⟨?_, ?_, h3⟩
  · show tally as sec .regionAdd ((.regionAdd, fr) :: adds) + _ = tally as sec .regionDel dels + _
    rw [tally_cons, if_pos rfl, count_map_cons]
    omega
  · show tally as sec .regionDel ((.regionAdd, fr) :: adds) = 0
    rw [tally_cons, h2]
    rfl

lemma tally_keep (callback : Callback) (frold frnew : FlatRange)
    (hcb : callback = .regionAdd ∨ callback = .regionDel) :
    tally as sec callback (passCalls.keep true frold frnew) = 0 := by
  unfold passCalls.keep
  rw [if_neg (by decide)]
  split
  · rcases hcb with rfl | rfl <;> rw [tally_cons] <;> rfl
  · split
    · rcases hcb with rfl | rfl <;> rw [tally_cons] <;> rfl
    · rcases hcb with rfl | rfl <;> rw [tally_cons] <;> rfl

lemma Exchanges.keep (h : Exchanges as sec dels adds old new) {frold frnew : FlatRange}
    (heq : flatrangeEqual frold frnew = true) :
    Exchanges as sec (passCalls.keep false frold frnew ++ dels)
      (passCalls.keep true frold frnew ++ adds) (frold :: old) (frnew :: new) := by
  obtain ⟨h1, h2, h3⟩ := h
  refine ⟨?_, ?_, h3⟩
  · rw [tally_append, tally_keep .regionAdd _ _ (.inl rfl), count_map_cons, count_map_cons,
      ofRange_of_equal heq]
    show _ = tally as sec .regionDel dels + _
    omega
  · rw [tally_append, tally_keep .regionDel _ _ (.inr rfl), h2]

lemma passCalls_exchanges (as : SpaceId) (sec : MemoryRegionSection) :
    ∀ fuel (old new : FlatView), old.length + new.length ≤ fuel →
    Exchanges as sec (passCalls false fuel old new) (passCalls true fuel old new) old new := by
  intro fuel
  induction fuel with
  | zero =>
    intro old new hlen
    rw [eq_nil_of_length_eq_zero (by omega : old.length = 0),
      eq_nil_of_length_eq_zero (by omega : new.length = 0)]
    exact ⟨rfl, rfl, rfl⟩
  | succ fuel ih =>
    intro old new hlen
    cases old with
    | nil =>
      cases new with
      | nil => exact ⟨rfl, rfl, rfl⟩
      | cons frnew new =>
        rw [length_cons] at hlen
        exact (ih [] new (by omega)).add frnew
    | cons frold old =>
      rw [length_cons] at hlen
      cases new with
      | nil => exact (ih old [] (by omega)).kill frold
      | cons frnew new =>
        rw [length_cons] at hlen
        rw [passCalls, passCalls]
        split
        · exact (ih old (frnew :: new) (by rw [length_cons]; omega)).kill frold
        · split
          next heq => exact (ih old new (by omega)).keep heq
          next => exact (ih (frold :: old) new (by rw [length_cons]; omega)).add frnew
end

def MemoryListener.hearUpdate (as : SpaceId) (old new : FlatView) (l : MemoryListener) :
    MemoryListener :=
  (passCalls true (old.length + new.length) old new).foldl (·.hear as)
    ((passCalls false (old.length + new.length) old new).foldl (·.hear as) l)

lemma hearUpdate_times {old new : FlatView}
    (hcb : l.callbacks callback = true) (sec : MemoryRegionSection) :
    (l.hearUpdate as old new).times callback sec = l.times callback sec +
      if memoryListenerMatch l sec.addressSpace then
        tally as sec callback (passCalls false (old.length + new.length) old new) +
          tally as sec callback (passCalls true (old.length + new.length) old new)
      else 0 := by
  unfold MemoryListener.hearUpdate
  generalize passCalls false (old.length + new.length) old new = dels
  have hcb' : (dels.foldl (·.hear as) l).callbacks callback = true := by
    rw [foldl_hear_callbacks]
    exact hcb
  rw [foldl_hear_times as _ _ hcb', foldl_hear_times as _ _ hcb, foldl_hear_match, Nat.add_assoc]
  split <;> rfl

lemma MemoryListener.Told.update {before after : List MemoryRegionSection}
    (h : l.Told before) (as : SpaceId) (old new : FlatView)
    (hcount : ∀ sec, after.count sec + (old.map (.ofRange as)).count sec =
      before.count sec + (new.map (.ofRange as)).count sec) :
    (l.hearUpdate as old new).Told after := by
  intro hadd hdel sec
  have hcb : (l.hearUpdate as old new).callbacks = l.callbacks :=
    (foldl_hear_callbacks as _ _).trans (foldl_hear_callbacks as _ _)
  have hmatch : memoryListenerMatch (l.hearUpdate as old new) = memoryListenerMatch l :=
    (foldl_hear_match as _ _).trans (foldl_hear_match as _ _)
  rw [hcb] at hadd hdel
  obtain ⟨h1, h2, h3⟩ := passCalls_exchanges as sec _ old new (Nat.le_refl _)
  have hl := h hadd hdel sec
  have hsec := hcount sec
  rw [hearUpdate_times hadd, hearUpdate_times hdel, hmatch, hl]
  cases memoryListenerMatch l sec.addressSpace with
  | true =>
    simp only [if_true]
    omega
  | false => rfl

lemma updateTopology_spec {h : Heap} {fuel : Nat} {as as' : AddressSpace}
    (hrun : addressSpaceUpdateTopology h fuel as ls = .ok (as', ls')) :
    ∃ view, generateMemoryTopology h fuel as.root = .ok view ∧ as' = { as with currentMap := view } ∧
      ls' = ls.map (·.hearUpdate as.id as.currentMap view) := by
  obtain ⟨view, h1, h2⟩ := bind_ok_inv hrun
  obtain ⟨ls₁, h3, h4⟩ := bind_ok_inv h2
  obtain ⟨ls₂, h5, h6⟩ := bind_ok_inv h4
  cases h6
  refine ⟨view, h1, rfl, ?_⟩
  rw [pass_spec h5, pass_spec h3, map_map]
  rfl

/-! ## all address spaces -/

def Updated (h : Heap) (fuel : Nat) (as as' : AddressSpace) : Prop :=
  as'.id = as.id ∧ as'.root = as.root ∧ generateMemoryTopology h fuel as.root = .ok as'.currentMap

lemma updateSpaces_spec {h : Heap} {fuel : Nat} {spaces spaces' : List AddressSpace}
    (hrun : updateSpaces h fuel spaces ls = .ok (spaces', ls')) :
    (∀ as' ∈ spaces', ∃ as ∈ spaces, Updated h fuel as as') ∧
      ∀ rest, (∀ l ∈ ls, l.Told (rest ++ sections spaces)) →
        ∀ l' ∈ ls', l'.Told (rest ++ sections spaces') := by
  induction spaces generalizing ls spaces' with
  | nil =>
    cases hrun
    exact ⟨fun as' h => (nomatch h), fun rest h => h⟩
  | cons as spaces ih =>
    obtain ⟨⟨as₁, ls₁⟩, h1, h2⟩ := bind_ok_inv hrun
    obtain ⟨⟨spaces₁, ls₂⟩, h3, h4⟩ := bind_ok_inv h2
    cases h4
    obtain ⟨view, hview, rfl, rfl⟩ := updateTopology_spec h1
    obtain ⟨hupdated, htold⟩ := ih h3
    constructor
    · intro as' has'
      rcases List.mem_cons.mp has' with rfl | has'
      · exact ⟨as, mem_cons_self, rfl, rfl, hview⟩
      · obtain ⟨a, ha, hu⟩ := hupdated as' has'
        exact ⟨a, mem_cons_of_mem as ha, hu⟩
    · intro rest hrest l' hl'
      have hnext := htold (rest ++ view.map (.ofRange as.id)) ?_ l' hl'
      · rw [append_assoc] at hnext
        exact hnext
      intro l₁ hl₁
      obtain ⟨l, hl, rfl⟩ := List.mem_map.mp hl₁
      refine (hrest l hl).update as.id as.currentMap view fun sec => ?_
      have hsections : sections (as :: spaces) =
          as.currentMap.map (MemoryRegionSection.ofRange as.id) ++ sections spaces := rfl
      rw [hsections]
      simp only [count_append]
      omega

variable {secs : List MemoryRegionSection}

lemma Told.global (h : l.Told secs) (callback : Callback) :
    (if l.callbacks callback then l.call callback none else l).Told secs := by
  split
  · intro hadd hdel sec
    have hl := h hadd hdel sec
    simp only [MemoryListener.times, MemoryListener.call, count_append, count_singleton,
      beq_iff_eq, Prod.mk.injEq, reduceCtorEq, and_false] at hl ⊢
    exact hl
  · exact h

lemma told_global (h : ∀ l ∈ ls, l.Told secs) (callback : Callback) :
    ∀ l ∈ memoryListenerCallGlobal callback ls, l.Told secs := by
  intro l' hl'
  obtain ⟨l, hl, rfl⟩ := List.mem_map.mp hl'
  exact Told.global (h l hl) callback

/-! ## a new listener -/

lemma foldl_hear_unmatched
    (hm : memoryListenerMatch l as = false) (calls : List (Callback × FlatRange)) :
    calls.foldl (·.hear as) l = l := by
  induction calls with
  | nil => rfl
  | cons call calls ih =>
    have hl : l.hear as call = l := by
      unfold MemoryListener.hear
      rw [hm, Bool.and_false, if_neg Bool.false_ne_true]
    rw [foldl_cons, hl, ih]

lemma listenerAdd_spec {as : AddressSpace} {l' : MemoryListener}
    (hrun : listenerAddAddressSpace as l = .ok l') :
    l' = (as.currentMap.map fun fr => (.regionAdd, fr)).foldl (·.hear as.id) l := by
  unfold listenerAddAddressSpace at hrun
  split at hrun
  next hm =>
    generalize as.currentMap = view at hrun ⊢
    induction view generalizing l with
    | nil => exact foldlM_nil_inv hrun
    | cons fr view ih =>
      obtain ⟨l₁, h1, h2⟩ := foldlM_cons_inv hrun
      obtain ⟨sec, h3, h4⟩ := bind_ok_inv h1
      have hl₁ : l₁ = l.hear as.id (.regionAdd, fr) := by
        unfold MemoryListener.hear
        rw [hm, Bool.and_true, ← sectionOf_ok h3]
        exact (Except.ok.inj h4).symm
      subst hl₁
      exact ih ((congrFun (hear_match as.id l _) as.id).trans hm) h2
  next hm =>
    cases hrun
    exact (foldl_hear_unmatched (Bool.eq_false_iff.mpr hm) _).symm

lemma tally_adds (as : SpaceId) (sec : MemoryRegionSection) (view : FlatView) :
    tally as sec .regionAdd (view.map fun fr => (.regionAdd, fr)) =
        (view.map (.ofRange as)).count sec ∧
      tally as sec .regionDel (view.map fun fr => (.regionAdd, fr)) = 0 := by
  induction view with
  | nil => exact ⟨rfl, rfl⟩
  | cons fr view ih =>
    rw [map_cons, tally_cons, tally_cons, count_map_cons,
      ih.1, ih.2]
    exact ⟨rfl, rfl⟩

lemma register_told {spaces : List AddressSpace} {l' : MemoryListener}
    (hrun : spaces.foldlM (fun l as => listenerAddAddressSpace as l) l = .ok l')
    (h : l.Told secs) : l'.Told (secs ++ sections spaces) := by
  induction spaces generalizing l secs with
  | nil =>
    rw [foldlM_nil_inv hrun]
    exact (append_nil secs).symm ▸ h
  | cons as spaces ih =>
    obtain ⟨l₁, h1, h2⟩ := foldlM_cons_inv hrun
    have hl₁ : l₁.Told (secs ++ as.currentMap.map (.ofRange as.id)) := by
      rw [listenerAdd_spec h1]
      intro hadd hdel sec
      rw [foldl_hear_callbacks] at hadd hdel
      obtain ⟨t1, t2⟩ := tally_adds as.id sec as.currentMap
      rw [foldl_hear_times _ _ _ hadd, foldl_hear_times _ _ _ hdel, foldl_hear_match,
        h hadd hdel sec, count_append]
      cases memoryListenerMatch l sec.addressSpace with
      | true =>
        simp only [if_true]
        omega
      | false => rfl
    have hnext := ih h2 hl₁
    rw [append_assoc] at hnext
    exact hnext

end Memory
