import Mathlib

/-!
# Lists threaded through memory cells

The memory `m` holds one pointer in every cell; `cell h` is the cell with the successor of the node
`h`.  `Leads cell m p xs z` says that the pointer `p` leads through the nodes `xs` to the pointer
`z`: to `none` in a list that ends, to its own head in a circular one.

* `unlink`: the loop with a pointer to a pointer: find a node, write over what leads to it;
* `Leads.cut`: a node is taken out;
* `Leads.rotate`: a circular list seen from one of its nodes;
* `Family`: lists that share no node: `Family.cut`, `Family.unlink`, `Family.push` say what becomes
  of all of them when one of them is changed.
-/

namespace Threads
open Function List
variable {C H I : Type} (cell : H → C)

inductive Fault
  /-- the null pointer was followed -/
  | null
  /-- a loop did not end within the fuel -/
  | hang
  deriving DecidableEq

def Leads (m : C → Option H) : Option H → List H → Option H → Prop
  | p, [], z => p = z
  | p, h :: t, z => p = some h ∧ Leads m (m (cell h)) t z

/-- the cell that is read last when the list `xs` is walked from the cell `c` -/
def lastCell : C → List H → C
  | c, [] => c
  | _, h :: t => lastCell (cell h) t

def unlink [DecidableEq C] (stop : H → Bool) : Nat → C → (C → Option H) → Except Fault (C → Option H)
  | 0, _, _ => .error .hang
  | fuel + 1, c, m =>
    match m c with
    | none => .error .null
    | some h =>
      if stop h then .ok (update m c (m (cell h)))
      else unlink stop fuel (cell h) m

section
variable {cell} {m m' : C → Option H} {p z z' : Option H} {c : C} {h k : H} {xs ys pre post : List H}

lemma leads_append :
    Leads cell m p (xs ++ h :: ys) z ↔ Leads cell m p xs (some h) ∧ Leads cell m (m (cell h)) ys z := by
  induction xs generalizing p with
  | nil => exact Iff.rfl
  | cons x xs ih =>
    rw [cons_append, Leads, Leads, ih, and_assoc]

lemma Leads.congr (hl : Leads cell m p xs z) (he : ∀ x ∈ xs, m' (cell x) = m (cell x)) :
    Leads cell m' p xs z := by
  induction xs generalizing p with
  | nil => exact hl
  | cons x xs ih =>
    refine ⟨hl.1, ?_⟩
    rw [he x mem_cons_self]
    exact ih hl.2 fun y hy => he y (mem_cons_of_mem x hy)

lemma Leads.unique {E : Option H → Prop} (hl : Leads cell m p xs z) (hl' : Leads cell m p ys z')
    (hz : E z) (hz' : E z') (hx : ∀ x ∈ xs, ¬ E (some x)) (hy : ∀ y ∈ ys, ¬ E (some y)) :
    xs = ys ∧ z = z' := by
  induction xs generalizing p ys with
  | nil =>
    cases ys with
    | nil => exact ⟨rfl, hl.symm.trans hl'⟩
    | cons y ys =>
      have : z = some y := hl.symm.trans hl'.1
      exact absurd (this ▸ hz) (hy y mem_cons_self)
  | cons x xs ih =>
    cases ys with
    | nil =>
      have : z' = some x := hl'.symm.trans hl.1
      exact absurd (this ▸ hz') (hx x mem_cons_self)
    | cons y ys =>
      have e : x = y := Option.some.inj (hl.1.symm.trans hl'.1)
      subst e
      obtain ⟨e1, e2⟩ := ih hl.2 hl'.2 (fun w hw => hx w (mem_cons_of_mem x hw))
        fun w hw => hy w (mem_cons_of_mem x hw)
      exact ⟨by rw [e1], e2⟩

lemma lastCell_mem : lastCell cell c xs ∈ c :: xs.map cell := by
  induction xs generalizing c with
  | nil => exact mem_cons_self
  | cons x xs ih => exact mem_cons_of_mem c ih

lemma lastCell_append : lastCell cell c (xs ++ h :: ys) = lastCell cell (cell h) ys := by
  induction xs generalizing c with
  | nil => rfl
  | cons x xs ih => exact ih

variable [DecidableEq C]

lemma Leads.redirect (hl : Leads cell m (m c) xs z) (hnd : (c :: xs.map cell).Nodup)
    (v : Option H) :
    Leads cell (update m (lastCell cell c xs) v) (update m (lastCell cell c xs) v c) xs v := by
  induction xs generalizing c with
  | nil => exact update_self c v m
  | cons x xs ih =>
    have hc : c ≠ lastCell cell (cell x) xs := fun e =>
      (List.nodup_cons.mp hnd).1 (e ▸ lastCell_mem)
    refine ⟨?_, ih hl.2 (List.nodup_cons.mp hnd).2⟩
    rw [show lastCell cell c (x :: xs) = lastCell cell (cell x) xs from rfl,
      update_of_ne hc]
    exact hl.1

lemma Leads.cut (hl : Leads cell m (m c) (pre ++ h :: post) z)
    (hnd : (c :: (pre ++ h :: post).map cell).Nodup) :
    Leads cell (update m (lastCell cell c pre) (m (cell h)))
      (update m (lastCell cell c pre) (m (cell h)) c) (pre ++ post) z := by
  obtain ⟨h1, h2⟩ := leads_append.mp hl
  rw [map_append, ← cons_append] at hnd
  obtain ⟨hpre, hpost, hdis⟩ := List.nodup_append.mp hnd
  have hr := h1.redirect hpre (m (cell h))
  cases post with
  | nil =>
    rw [append_nil]
    exact (show m (cell h) = z from h2) ▸ hr
  | cons k post =>
    rw [leads_append]
    obtain ⟨e, h3⟩ := h2
    have hne : ∀ x ∈ k :: post, cell x ≠ lastCell cell c pre := fun x hx e =>
      hdis _ lastCell_mem _ (mem_cons_of_mem _ (mem_map_of_mem hx)) e.symm
    refine ⟨e ▸ hr, ?_⟩
    rw [update_of_ne (hne k mem_cons_self)]
    exact h3.congr fun x hx => update_of_ne (hne x (mem_cons_of_mem k hx)) _ _

lemma Leads.rotate (hl : Leads cell m (m (cell k)) (pre ++ h :: post) (some k)) :
    Leads cell m (m (cell h)) (post ++ k :: pre) (some h) := by
  obtain ⟨h1, h2⟩ := leads_append.mp hl
  exact leads_append.mpr ⟨h2, h1⟩

variable {stop : H → Bool} {fuel : Nat}

lemma unlink_pass (hl : Leads cell m (m c) xs z) (hxs : ∀ x ∈ xs, stop x = false)
    (hf : xs.length < fuel) : m (lastCell cell c xs) = z ∧ ∃ rest,
      unlink cell stop fuel c m = unlink cell stop (rest + 1) (lastCell cell c xs) m := by
  induction xs generalizing c fuel with
  | nil => exact ⟨hl, fuel - 1, by rw [Nat.sub_add_cancel (Nat.zero_lt_of_lt hf)]; rfl⟩
  | cons x xs ih =>
    obtain ⟨fuel, rfl⟩ : ∃ k, fuel = k + 1 := ⟨fuel - 1, by rw [length_cons] at hf; omega⟩
    rw [unlink, hl.1]
    simp only [hxs x mem_cons_self]
    exact ih hl.2 (fun y hy => hxs y (mem_cons_of_mem x hy)) (Nat.lt_of_succ_lt_succ hf)

lemma unlink_ok (hl : Leads cell m (m c) pre (some h)) (hpre : ∀ x ∈ pre, stop x = false)
    (hh : stop h = true) (hf : pre.length < fuel) :
    unlink cell stop fuel c m = .ok (update m (lastCell cell c pre) (m (cell h))) := by
  obtain ⟨hlast, rest, hrun⟩ := unlink_pass hl hpre hf
  rw [hrun, unlink, hlast]
  exact if_pos hh

lemma unlink_null (hl : Leads cell m (m c) xs none) (hxs : ∀ x ∈ xs, stop x = false)
    (hf : xs.length < fuel) : unlink cell stop fuel c m = .error .null := by
  obtain ⟨hlast, rest, hrun⟩ := unlink_pass hl hxs hf
  rw [hrun, unlink, hlast]

end

/-! ## Several lists in one memory -/

/-- the lists `F i` for the `i` of `S`; the list `i` starts in the cell `head i` and ends in the
pointer `z i` -/
structure Family (head : I → C) (z : I → Option H) (S : Set I) (m : C → Option H)
    (F : I → List H) : Prop where
  leads : ∀ i ∈ S, Leads cell m (m (head i)) (F i) (z i)
  nodup : ∀ i ∈ S, (F i).Nodup
  disjoint : ∀ i ∈ S, ∀ j ∈ S, ∀ h, h ∈ F i → h ∈ F j → i = j
  apart : ∀ i ∈ S, ∀ j ∈ S, ∀ h ∈ F i, cell h ≠ head j

namespace Family
variable {cell} {head : I → C} {z : I → Option H} {S : Set I} {m m' : C → Option H}
  {F : I → List H} {i : I} {h : H} {pre post : List H}

lemma nodup_cells (hF : Family cell head z S m F) (hcell : Injective cell) (hi : i ∈ S) :
    (head i :: (F i).map cell).Nodup := by
  refine List.nodup_cons.mpr ⟨fun hm => ?_, (hF.nodup i hi).map hcell⟩
  obtain ⟨x, hx, e⟩ := List.mem_map.mp hm
  exact hF.apart i hi i hi x hx e

section
variable (hF : Family cell head z S m F)
include hF

lemma congr {T : Set I} (hT : T ⊆ S)
    (he : ∀ i ∈ T, m' (head i) = m (head i) ∧ ∀ x ∈ F i, m' (cell x) = m (cell x)) :
    Family cell head z T m' F where
  leads := fun i hi => by
    rw [(he i hi).1]
    exact (hF.leads i (hT hi)).congr (he i hi).2
  nodup := fun i hi => hF.nodup i (hT hi)
  disjoint := fun i hi j hj => hF.disjoint i (hT hi) j (hT hj)
  apart := fun i hi j hj => hF.apart i (hT hi) j (hT hj)

variable [DecidableEq C] [DecidableEq I]

section
variable (hcell : Injective cell) (hhead : Injective head) (hi : i ∈ S)
include hcell hhead hi

omit [DecidableEq C] [DecidableEq I] in
lemma cell_ne {j : I} (hj : j ∈ S) (hij : j ≠ i) {e : C} (he : e ∈ head i :: (F i).map cell) :
    e ≠ head j ∧ ∀ x ∈ F j, e ≠ cell x := by
  rcases List.mem_cons.mp he with rfl | he
  · exact ⟨fun e => hij (hhead e).symm, fun x hx e => hF.apart j hj i hi x hx e.symm⟩
  · obtain ⟨y, hy, rfl⟩ := List.mem_map.mp he
    refine ⟨hF.apart i hi j hj y hy, fun x hx e => ?_⟩
    exact hij (hF.disjoint j hj i hi x hx (hcell e ▸ hy))

lemma cut (hx : F i = pre ++ h :: post) :
    Family cell head z S (update m (lastCell cell (head i) pre) (m (cell h)))
      (update F i (pre ++ post)) := by
  have hmem : lastCell cell (head i) pre ∈ head i :: (F i).map cell := by
    rw [hx, map_append]
    exact mem_append_left _ lastCell_mem
  have hsub : ∀ j x, x ∈ update F i (pre ++ post) j → x ∈ F j := by
    intro j x hxj
    by_cases hj : j = i
    · subst hj
      rw [update_self] at hxj
      rw [hx]
      rcases List.mem_append.mp hxj with h1 | h1
      · exact mem_append_left _ h1
      · exact mem_append_right _ (mem_cons_of_mem _ h1)
    · rwa [update_of_ne hj] at hxj
  refine ⟨fun j hj => ?_, fun j hj => ?_, fun j hj k hk x h1 h2 => ?_, fun j hj k hk x h1 => ?_⟩
  · by_cases hji : j = i
    · subst hji
      rw [show update F j (pre ++ post) j = pre ++ post from update_self _ _ _]
      exact Leads.cut (hx ▸ hF.leads j hj) (hx ▸ hF.nodup_cells hcell hj)
    · obtain ⟨h1, h2⟩ := hF.cell_ne hcell hhead hi hj hji hmem
      rw [update_of_ne hji, update_of_ne h1.symm]
      exact (hF.leads j hj).congr fun x hxj => update_of_ne (h2 x hxj).symm _ _
  · by_cases hji : j = i
    · subst hji
      rw [update_self]
      have := hx ▸ hF.nodup j hj
      exact this.sublist (List.Sublist.append_left (sublist_cons_self h post) pre)
    · rw [update_of_ne hji]
      exact hF.nodup j hj
  · exact hF.disjoint j hj k hk x (hsub j x h1) (hsub k x h2)
  · exact hF.apart j hj k hk x (hsub j x h1)

end

/-- **The first node that stops the loop is taken out of its list, and its own cell is kept.** -/
theorem unlink (stop : H → Bool) (hcell : Injective cell) (hhead : Injective head)
    (hi : i ∈ S) (hs : ∃ x ∈ F i, stop x = true) :
    ∃ m', (∀ fuel, (F i).length < fuel → Threads.unlink cell stop fuel (head i) m = .ok m') ∧
      Family cell head z S m' (update F i ((F i).eraseP stop)) ∧
      ∀ x, stop x = true → (∀ j ∈ S, cell x ≠ head j) → m' (cell x) = m (cell x) := by
  obtain ⟨x, hx, hsx⟩ := hs
  obtain ⟨h, pre, post, hpre, hh, e, e'⟩ := exists_of_eraseP hx hsx
  have hpre' : ∀ y ∈ pre, stop y = false := fun y hy => by simpa using hpre y hy
  have hl := hF.leads i hi
  rw [e, leads_append] at hl
  refine ⟨_, fun fuel hf => unlink_ok hl.1 hpre' hh ?_, ?_, fun y hy hyh => ?_⟩
  · rw [e, length_append] at hf
    omega
  · rw [e']
    exact hF.cut hcell hhead hi e
  · refine update_of_ne (fun ey => ?_) _ _
    rcases List.mem_cons.mp (ey ▸ lastCell_mem) with h1 | h1
    · exact hyh i hi h1
    · obtain ⟨w, hw, ew⟩ := List.mem_map.mp h1
      rw [hpre' y (hcell ew ▸ hw)] at hy
      cases hy

lemma push (hcell : Injective cell) (hhead : Injective head) (hi : i ∈ S)
    (hnew : ∀ j ∈ S, h ∉ F j) (hapart : ∀ j ∈ S, cell h ≠ head j) : Family cell head z S
      (update (update m (cell h) (m (head i))) (head i) (some h)) (update F i (h :: F i)) := by
  have hold : ∀ j ∈ S, ∀ x ∈ F j, update (update m (cell h) (m (head i)))
      (head i) (some h) (cell x) = m (cell x) := by
    intro j hj x hx
    rw [update_of_ne (hF.apart j hj i hi x hx), update_of_ne]
    exact fun e => hnew j hj (hcell e ▸ hx)
  have hsub : ∀ j x, x ∈ update F i (h :: F i) j → (x = h ∧ j = i) ∨ x ∈ F j := by
    intro j x hx
    by_cases hj : j = i
    · subst hj
      rw [update_self] at hx
      rcases List.mem_cons.mp hx with rfl | hx
      · exact .inl ⟨rfl, rfl⟩
      · exact .inr hx
    · rw [update_of_ne hj] at hx
      exact .inr hx
  refine ⟨fun j hj => ?_, fun j hj => ?_, fun j hj k hk x h1 h2 => ?_, fun j hj k hk x h1 => ?_⟩
  · by_cases hji : j = i
    · subst hji
      rw [update_self, update_self]
      refine ⟨rfl, ?_⟩
      rw [update_of_ne (hapart j hj), update_self]
      exact (hF.leads j hj).congr (hold j hj)
    · rw [update_of_ne hji, update_of_ne fun e => hji (hhead e),
        update_of_ne (hapart j hj).symm]
      exact (hF.leads j hj).congr (hold j hj)
  · by_cases hji : j = i
    · subst hji
      rw [update_self]
      exact List.nodup_cons.mpr ⟨hnew j hj, hF.nodup j hj⟩
    · rw [update_of_ne hji]
      exact hF.nodup j hj
  · rcases hsub j x h1, hsub k x h2 with ⟨⟨e1, e2⟩ | o1, ⟨e3, e4⟩ | o2⟩
    · rw [e2, e4]
    · exact absurd (e1 ▸ o2) (hnew k hk)
    · exact absurd (e3 ▸ o1) (hnew j hj)
    · exact hF.disjoint j hj k hk x o1 o2
  · rcases hsub j x h1 with ⟨rfl, rfl⟩ | h1
    · exact hapart k hk
    · exact hF.apart j hj k hk x h1

end

end Family
end Threads
