import TraceSyscallObj.Lib.Tree

/-!
# Search trees

`Ordered k t`: the keys `k` of the nodes increase strictly from left to right.
-/

namespace PTree
open List
variable {P K : Type} [LT K] {k : P → K} {fs : List (Frame P)}

def Ordered (k : P → K) (t : CTree P) : Prop := (t.ptrs.map k).Pairwise (· < ·)

lemma Ordered.congr {t : CTree P} {k' : P → K} (h : Ordered k t) (hk : ∀ p ∈ t.ptrs, k' p = k p) :
    Ordered k' t := by
  unfold Ordered
  rw [map_congr_left hk]
  exact h

lemma Ordered.ptrs {t t' : CTree P} (h : Ordered k t) (hp : t'.ptrs = t.ptrs) : Ordered k t' := by
  unfold Ordered
  rw [hp]
  exact h

lemma Ordered.node {c : Color} {l : CTree P} {p : P} {r : CTree P}
    (h : Ordered k (plug fs (.node c l p r))) :
    (∀ q ∈ l.ptrs, k q < k p) ∧ ∀ q ∈ r.ptrs, k p < k q := by
  unfold Ordered at h
  rw [plug_ptrs, map_append, map_append] at h
  have hn := (List.pairwise_append.mp (List.pairwise_append.mp h).1).2.1
  rw [CTree.ptrs, map_append] at hn
  obtain ⟨-, hr, hl⟩ := List.pairwise_append.mp hn
  refine ⟨fun q hq => ?_, fun q hq => ?_⟩
  · exact hl (k q) (mem_map_of_mem hq) (k p) (mem_cons_self ..)
  · exact (List.pairwise_cons.mp hr).1 (k q) (mem_map_of_mem hq)

lemma Ordered.subtrees {c : Color} {l : CTree P} {p : P} {r : CTree P}
    (h : Ordered k (.node c l p r)) : Ordered k l ∧ Ordered k r := by
  unfold Ordered at h
  rw [CTree.ptrs, map_append] at h
  obtain ⟨hl, hr, -⟩ := List.pairwise_append.mp h
  exact ⟨hl, (List.pairwise_cons.mp hr).2⟩

lemma Ordered.attach {x : P} (h : Ordered k (plug fs .leaf)) (k' : P → K)
    (hk : ∀ p ∈ (plug fs .leaf).ptrs, k' p = k p) (hb : ∀ p ∈ before fs, k p < k' x)
    (ha : ∀ p ∈ after fs, k' x < k p) : Ordered k' (plug fs (.node .red .leaf x .leaf)) := by
  have h' := h.congr hk
  have hkb : ∀ p ∈ before fs, k' p = k p := fun p hp => hk p (mem_plug.mpr (.inr (by simp [hp])))
  have hka : ∀ p ∈ after fs, k' p = k p := fun p hp => hk p (mem_plug.mpr (.inr (by simp [hp])))
  unfold Ordered at h' ⊢
  rw [plug_ptrs, CTree.ptrs, append_nil, map_append] at h'
  rw [plug_ptrs, append_assoc, map_append]
  obtain ⟨h1, h2, h3⟩ := List.pairwise_append.mp h'
  refine List.pairwise_append.mpr ⟨h1, List.pairwise_cons.mpr ⟨?_, h2⟩, ?_⟩
  · intro b hb
    obtain ⟨p, hp, rfl⟩ := List.mem_map.mp hb
    rw [hka p hp]
    exact ha p hp
  · intro a hma b hmb
    obtain ⟨p, hp, rfl⟩ := List.mem_map.mp hma
    rcases List.mem_cons.mp hmb with rfl | hmb
    · rw [hkb p hp]
      exact hb p hp
    · exact h3 _ hma b hmb

end PTree
