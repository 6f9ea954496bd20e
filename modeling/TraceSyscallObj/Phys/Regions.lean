import TraceSyscallObj.Memory.Mirror
import TraceSyscallObj.Phys.Dispatch

/-!
# From the tree of regions to the dispatch

`generate_memory_topology` flattens a tree of regions and `mem_add` enters the ranges of the flat
view into the dispatch.  Together they look an address up as the descent from the root does.
-/

namespace Phys
open Memory

variable (levels : Nat) (as : SpaceId) {view : FlatView} {r : FlatRange}

lemma ofRange_has (hview : Good view) (hr : r ∈ view) (a : Nat) :
    (PhysSection.of (.ofRange as r)).Has a ↔ Span.Mem r a := by
  obtain ⟨h0, h1⟩ := hview.sortedView.starts r hr
  show int128Make64 (BitVec.ofInt 64 r.addr.start) ≤ a ∧
    (a : Int) < int128Make64 (BitVec.ofInt 64 r.addr.start) + r.addr.size ↔ _
  rw [make64_ofInt h0 h1]
  rfl

lemma ofRange_value (r : FlatRange) (a : Nat) :
    (PhysSection.of (.ofRange as r)).value a = some (mapped r a) := by
  have hsum : BitVec.ofInt 64 (a - r.addr.start) + BitVec.ofInt 64 r.addr.start =
      BitVec.ofNat 64 a := by
    rw [← BitVec.ofInt_add, Int.sub_add_cancel, BitVec.ofInt_natCast]
  unfold mapped
  rw [BitVec.eq_sub_iff_add_eq.mpr hsum]
  rfl

lemma view_mappable (hview : Good view)
    (hend : ∀ r ∈ view, addrrangeEnd r.addr ≤ (pageCount levels * pageSize : Nat)) :
    Mappable (treeSize levels) (view.map (.ofRange as)) := by
  refine ⟨List.forall_mem_map.mpr fun r hr => ?_, List.forall_mem_map.mpr fun r hr => ?_,
    hview.sortedView.apart.imp fun hapart (a : Nat) ha => hapart a ha⟩
  · have hlt : r.addr.start < r.addr.start + r.addr.size := hview.ordered.nonempty r hr
    show 0 < r.addr.size
    omega
  · obtain ⟨h0, h1⟩ := hview.sortedView.starts r hr
    show int128Make64 (BitVec.ofInt 64 r.addr.start) + r.addr.size ≤ _
    rw [make64_ofInt h0 h1]
    exact hend r hr

/-- **every address below the end of the radix tree is dispatched to the region that the descent
from the root finds**, unless the array of the sections has
no room for five sections for each range -/
theorem tree_dispatch (hlevels : 0 < levels) (hle : levels ≤ 4) {s : PhysState} (hs : Fresh s)
    {h : Heap} {rank : RegionId → Nat} (hacyclic : Acyclic h rank) {mr : RegionId} {fuel : Nat}
    (hfuel : rank mr < fuel) (hview : generateMemoryTopology h fuel (some mr) = .ok view)
    (hend : ∀ r ∈ view, addrrangeEnd r.addr ≤ (pageCount levels * pageSize : Nat)) :
    (memAddAll levels (view.map (.ofRange as)) s = .error .sectionsFull ∧
      pageSize < s.sections.length + 5 * view.length) ∨
      ∃ s', memAddAll levels (view.map (.ofRange as)) s = .ok s' ∧
        ∀ addr < pageCount levels * pageSize, ∃ sec,
          addressSpaceLookupRegion levels s' addr = some sec ∧
          sec.value addr = lookup h fuel mr 0 addr false ∧
          (lookup h fuel mr 0 addr false = none → sec.mr = .unassigned) := by
  obtain ⟨hgood, -, hlook⟩ := topology_good hacyclic hfuel hview
  rcases memAddAll_maps hlevels hle (view_mappable levels as hgood hend) (fun _ _ _ _ => rfl)
    (hs.maps hlevels) with hfull | ⟨s', m', hok, hmaps, hin, hout⟩
  · rw [List.length_map] at hfull
    exact .inl hfull
  refine .inr ⟨s', hok, fun addr haddr => ?_⟩
  have hm : m' addr = lookup h fuel mr 0 addr false := by
    have hpages := pageCount_le hle
    have htop : (addr : Int) < int128_2_64 := by
      unfold pageSize at haddr
      unfold int128_2_64
      omega
    rw [← hlook addr (Int.natCast_nonneg addr) htop]
    unfold Span.look
    cases hf : view.find? fun r => decide (Span.Mem r (addr : Int)) with
    | none =>
      refine hout addr (List.forall_mem_map.mpr fun r hr hhas => ?_)
      exact List.find?_eq_none.mp hf r hr (decide_eq_true ((ofRange_has as hgood hr addr).mp hhas))
    | some r =>
      have hr := List.mem_of_find?_eq_some hf
      have hhas : (PhysSection.of (.ofRange as r)).Has addr :=
        (ofRange_has as hgood hr addr).mpr (by simpa using List.find?_some hf)
      exact (hin _ (List.mem_map_of_mem hr) addr hhas).trans (ofRange_value as r addr)
  obtain ⟨sec, hfind, hval, hnone⟩ := hmaps.lookup haddr
  exact ⟨sec, hfind, hval.trans hm, fun hno => hnone (hm.trans hno)⟩

/-- an address behind the region is dispatched through its alias -/
theorem tree_dispatch_alias : ∃ view s' sec,
    generateMemoryTopology aliasHeap 3 (some 0) = .ok view ∧
    memAddAll 4 (view.map (.ofRange 0)) coreBegin = .ok s' ∧
    addressSpaceLookupRegion 4 s' 0x3004 = some sec ∧ sec.value 0x3004 = some (1, 0x1804, true) := by
  have hview : generateMemoryTopology aliasHeap 3 (some 0) = .ok [⟨1, 0, ⟨0x1000, 0x2000⟩, 0, true,
    false⟩, ⟨1, 0x1800, ⟨0x3000, 0x800⟩, 0, true, true⟩] := by decide +kernel
  rcases tree_dispatch 4 0 (by decide) (by decide) coreBegin_fresh aliasHeap_acyclic (by decide)
    hview (by decide) with ⟨-, hfull⟩ | ⟨s', hok, hright⟩
  · exact absurd hfull (by decide)
  · obtain ⟨sec, hfind, hval, -⟩ := hright 0x3004 (by decide)
    exact ⟨_, s', sec, hview, hok, hfind, hval.trans (by decide +kernel)⟩

end Phys
