import Mathlib.Data.List.Pairwise
import Mathlib.Tactic.Common

/-!
# Ordered lists of spans

A span covers the integers from `lo` up to, not including, `hi`.  In an ordered list the spans are
not empty and each one ends before the next one begins, so a point is in at most one of them.
`look` reads the list as a map: the value of a point is `val` of the span it is in.

* `fill`: puts new spans into the gaps of a list, between two points;
* `mergeRun`, `merge`: joins runs of neighbours;
* `look_fill`, `merge_spec`: what these do to the map;
* `seams`, `countP_merge`: what joining takes away.
-/

class Span (ρ : Type) where
  lo : ρ → Int
  hi : ρ → Int

namespace Span
open List
variable {ρ β : Type} [Span ρ]

def Mem (r : ρ) (a : Int) : Prop := lo r ≤ a ∧ a < hi r

instance (r : ρ) (a : Int) : Decidable (Mem r a) := inferInstanceAs (Decidable (_ ∧ _))

structure Ordered (rs : List ρ) : Prop where
  apart : rs.Pairwise fun r r' => hi r ≤ lo r'
  nonempty : ∀ r ∈ rs, lo r < hi r

lemma Ordered.nil : Ordered ([] : List ρ) := ⟨.nil, fun _ h => absurd h not_mem_nil⟩

variable {r : ρ} {rs : List ρ}

lemma Ordered.tail (h : Ordered (r :: rs)) : Ordered rs :=
  ⟨(List.pairwise_cons.mp h.apart).2, fun r' hr => h.nonempty r' (mem_cons_of_mem r hr)⟩

lemma Ordered.head (h : Ordered (r :: rs)) :
    lo r < hi r ∧ ∀ r' ∈ rs, hi r ≤ lo r' :=
  ⟨h.nonempty r mem_cons_self, (List.pairwise_cons.mp h.apart).1⟩

lemma Ordered.cons (hr : lo r < hi r) (h : ∀ r' ∈ rs, hi r ≤ lo r')
    (hrs : Ordered rs) : Ordered (r :: rs) :=
  ⟨List.pairwise_cons.mpr ⟨h, hrs.apart⟩, List.forall_mem_cons.mpr ⟨hr, hrs.nonempty⟩⟩

variable {a : Int}

lemma Ordered.eq_of_mem (h : Ordered rs) {r' : ρ} (hr : r ∈ rs) (hr' : r' ∈ rs) (ha : Mem r a)
    (ha' : Mem r' a) : r = r' := by
  by_contra hne
  have hsep : rs.Pairwise fun r r' => hi r ≤ lo r' ∨ hi r' ≤ lo r := h.apart.imp Or.inl
  have hsymm : Std.Symm fun r r' : ρ => hi r ≤ lo r' ∨ hi r' ≤ lo r := ⟨fun _ _ => Or.symm⟩
  have := hsep.forall hr hr' hne
  unfold Mem at ha ha'
  omega

def look (val : ρ → Int → β) (rs : List ρ) (a : Int) : Option β :=
  (rs.find? fun r => decide (Mem r a)).map fun r => val r a

section
variable {val : ρ → Int → β}

lemma look_cons_pos (h : Mem r a) : look val (r :: rs) a = some (val r a) := by
  simp only [look, List.find?_cons, h, decide_true, Option.map_some]

lemma look_cons_neg (h : ¬ Mem r a) : look val (r :: rs) a = look val rs a := by
  simp only [look, List.find?_cons, h, decide_false]

lemma look_below (h : ∀ r ∈ rs, a < lo r) : look val rs a = none := by
  induction rs with
  | nil => rfl
  | cons r rs ih =>
    obtain ⟨hr, hrs⟩ := List.forall_mem_cons.mp h
    rw [look_cons_neg (fun hm => absurd hm.1 (Int.not_le.mpr hr)), ih hrs]

lemma look_isSome : (look val rs a).isSome = true ↔ ∃ r ∈ rs, Mem r a := by
  simp only [look, Option.isSome_map, List.find?_isSome, decide_eq_true_eq]

end

/-! ## filling the gaps -/

section
variable (make : Int → Int → ρ)

/-- new spans wherever `rs` has a gap between `base` and `top` -/
def fill : List ρ → Int → Int → List ρ
  | [], base, top => if base < top then [make base top] else []
  | r :: rs, base, top =>
    if base < top then
      if hi r ≤ base then r :: fill rs base top
      else if base < lo r then make base (min top (lo r)) :: r :: fill rs (min top (hi r)) top
      else r :: fill rs (min top (hi r)) top
    else r :: rs

variable {make}

lemma mem_fill : ∀ {base top : Int}, r ∈ fill make rs base top →
    r ∈ rs ∨ ∃ b t, r = make b t ∧ base ≤ b ∧ b < t ∧ t ≤ top := by
  induction rs with
  | nil =>
    intro base top hr
    unfold fill at hr
    split at hr
    next hlt => exact .inr ⟨base, top, List.mem_singleton.mp hr, Int.le_refl _, hlt, Int.le_refl _⟩
    next => exact .inl hr
  | cons s rs ih =>
    intro base top hr
    have hrest : ∀ {base'}, base ≤ base' → r ∈ s :: fill make rs base' top →
        r ∈ s :: rs ∨ ∃ b t, r = make b t ∧ base ≤ b ∧ b < t ∧ t ≤ top := by
      intro base' hb hr
      rcases List.mem_cons.mp hr with rfl | hr
      · exact .inl mem_cons_self
      · rcases ih hr with h | ⟨b, t, h1, h2, h3⟩
        · exact .inl (mem_cons_of_mem s h)
        · exact .inr ⟨b, t, h1, Int.le_trans hb h2, h3⟩
    unfold fill at hr
    split at hr
    next hlt =>
      split at hr
      next => exact hrest (Int.le_refl _) hr
      next hpast =>
        split at hr
        next hgap =>
          rcases List.mem_cons.mp hr with rfl | hr
          · exact .inr ⟨base, min top (lo s), rfl, Int.le_refl _, by omega, by omega⟩
          · exact hrest (by omega) hr
        next => exact hrest (by omega) hr
    next => exact .inl hr

lemma fill_end : ∀ {base top : Int}, r ∈ fill make rs base top →
    r ∈ rs ∨ ∃ b t, r = make b t ∧ (t = top ∨ ∃ s ∈ rs, lo s = t) := by
  induction rs with
  | nil =>
    intro base top hr
    unfold fill at hr
    split at hr
    next => exact .inr ⟨base, top, List.mem_singleton.mp hr, .inl rfl⟩
    next => exact .inl hr
  | cons s rs ih =>
    intro base top hr
    have hrest : ∀ {base'}, r ∈ s :: fill make rs base' top →
        r ∈ s :: rs ∨ ∃ b t, r = make b t ∧ (t = top ∨ ∃ s' ∈ s :: rs, lo s' = t) := by
      intro base' hr
      rcases List.mem_cons.mp hr with rfl | hr
      · exact .inl mem_cons_self
      · rcases ih hr with h | ⟨b, t, h1, h2⟩
        · exact .inl (mem_cons_of_mem s h)
        · exact .inr ⟨b, t, h1, h2.imp_right fun hs =>
            hs.elim fun s' hs' => ⟨s', mem_cons_of_mem s hs'.1, hs'.2⟩⟩
    unfold fill at hr
    split at hr
    next =>
      split at hr
      next => exact hrest hr
      next =>
        split at hr
        next =>
          rcases List.mem_cons.mp hr with rfl | hr
          · refine .inr ⟨base, min top (lo s), rfl, ?_⟩
            rcases Int.le_total top (lo s) with hle | hle
            · exact .inl (Int.min_eq_left hle)
            · exact .inr ⟨s, mem_cons_self, (Int.min_eq_right hle).symm⟩
          · exact hrest hr
        next => exact hrest hr
    next => exact .inl hr

lemma mem_fill_of_mem (base top : Int) (hr : r ∈ rs) : r ∈ fill make rs base top := by
  induction rs generalizing base with
  | nil => cases hr
  | cons s rs ih =>
    have hrest : ∀ base', r ∈ s :: fill make rs base' top := by
      intro base'
      rcases List.mem_cons.mp hr with rfl | hr
      · exact mem_cons_self
      · exact mem_cons_of_mem s (ih base' hr)
    unfold fill
    split
    · split
      · exact hrest base
      · split
        · exact mem_cons_of_mem _ (hrest _)
        · exact hrest _
    · exact hr

variable (hmake : ∀ b t, lo (make b t) = b ∧ hi (make b t) = t)
include hmake

lemma ordered_fill : ∀ {base top : Int}, Ordered rs →
    Ordered (fill make rs base top) := by
  induction rs with
  | nil =>
    intro base top _
    unfold fill
    split
    next hlt =>
      refine Ordered.cons ?_ (fun r hr => absurd hr not_mem_nil) .nil
      rw [(hmake base top).1, (hmake base top).2]
      exact hlt
    next => exact .nil
  | cons s rs ih =>
    intro base top ho
    obtain ⟨hlo, hrs⟩ := ho.head
    -- behind `s` the filling starts at its end, or there is nothing left to fill
    have hbehind : ∀ base', (base' < top → hi s ≤ base') → ∀ r ∈ fill make rs base' top,
        hi s ≤ lo r := by
      intro base' hb r hr
      rcases mem_fill hr with hr | ⟨b, t, rfl, h1, h2, h3⟩
      · exact hrs r hr
      · rw [(hmake b t).1]
        omega
    unfold fill
    split
    next hlt =>
      split
      next hbase => exact .cons hlo (hbehind base (fun _ => hbase)) (ih ho.tail)
      next hbase =>
        have hrest : Ordered (s :: fill make rs (min top (hi s)) top) :=
          .cons hlo (hbehind _ (by omega)) (ih ho.tail)
        split
        next hgap =>
          refine .cons ?_ ?_ hrest
          · rw [(hmake base _).1, (hmake base _).2]
            omega
          rw [(hmake base _).2]
          have hle : ∀ r ∈ s :: fill make rs (min top (hi s)) top, lo s ≤ lo r :=
            List.forall_mem_cons.mpr ⟨Int.le_refl _, fun r hr =>
              Int.le_trans (Int.le_of_lt hlo) (hrest.head.2 r hr)⟩
          intro r hr
          have := hle r hr
          omega
        next => exact hrest
    next => exact ho

lemma look_fill {val : ρ → Int → β} {g : Int → β}
    (hval : ∀ b t a, val (make b t) a = g a) :
    ∀ {base top : Int}, Ordered rs → ∀ a, look val (fill make rs base top) a =
      (look val rs a).or (if base ≤ a ∧ a < top then some (g a) else none) := by
  have hmem : ∀ b t a, Mem (make b t) a ↔ b ≤ a ∧ a < t := by
    intro b t a
    unfold Mem
    rw [(hmake b t).1, (hmake b t).2]
  induction rs with
  | nil =>
    intro base top _ a
    unfold fill
    split
    next hlt =>
      by_cases ha : base ≤ a ∧ a < top
      · rw [look_cons_pos ((hmem base top a).mpr ha), hval, if_pos ha]
        rfl
      · rw [look_cons_neg (fun h => ha ((hmem base top a).mp h)), if_neg ha]
        rfl
    next hlt =>
      rw [if_neg (by omega)]
      rfl
  | cons s rs ih =>
    intro base top ho a
    obtain ⟨hlo, hrs⟩ := ho.head
    unfold fill
    split
    next hlt =>
      split
      next hbase =>
        by_cases hs : Mem s a
        · rw [look_cons_pos hs, look_cons_pos hs]
          rfl
        · rw [look_cons_neg hs, look_cons_neg hs, ih ho.tail]
      next hbase =>
        have hrest : look val (s :: fill make rs (min top (hi s)) top) a =
            (look val (s :: rs) a).or
              (if min top (hi s) ≤ a ∧ a < top then some (g a) else none) := by
          by_cases hs : Mem s a
          · rw [look_cons_pos hs, look_cons_pos hs]
            rfl
          · rw [look_cons_neg hs, look_cons_neg hs, ih ho.tail]
        -- a point from `base` on is in the gap, in `s`, or behind it
        have hbelow : a < lo s → look val (s :: rs) a = none := fun ha =>
          look_below (List.forall_mem_cons.mpr ⟨ha, fun r hr =>
            Int.lt_of_lt_of_le (Int.lt_trans ha hlo) (hrs r hr)⟩)
        have hin : lo s ≤ a → a < hi s → look val (s :: rs) a = some (val s a) := fun h1 h2 =>
          look_cons_pos ⟨h1, h2⟩
        split
        next hgap =>
          by_cases ha : base ≤ a ∧ a < min top (lo s)
          · rw [look_cons_pos ((hmem _ _ a).mpr ha), hval, hbelow (by omega), if_pos (by omega)]
            rfl
          rw [look_cons_neg (fun h => ha ((hmem _ _ a).mp h)), hrest]
          by_cases h1 : lo s ≤ a ∧ a < hi s
          · rw [hin h1.1 h1.2]
            rfl
          · congr 2
            exact propext ⟨by omega, by omega⟩
        next hgap =>
          rw [hrest]
          by_cases h1 : lo s ≤ a ∧ a < hi s
          · rw [hin h1.1 h1.2]
            rfl
          · congr 2
            exact propext ⟨by omega, by omega⟩
    next hlt =>
      rw [if_neg (by omega), Option.or_none]

end

/-! ## joining neighbours -/

section
variable (can : ρ → ρ → Bool) (join : ρ → ρ → ρ)

/-- joins to `acc` what follows it, as long as each span can be joined to the one before it -/
def mergeRun : ρ → ρ → List ρ → ρ × List ρ
  | acc, _, [] => (acc, [])
  | acc, prev, r :: rs => if can prev r then mergeRun (join acc r) r rs else (acc, r :: rs)

def merge : Nat → List ρ → List ρ
  | 0, rs => rs
  | _ + 1, [] => []
  | n + 1, r :: rs => (mergeRun can join r r rs).1 :: merge n (mergeRun can join r r rs).2

variable {can join} {val : ρ → Int → β}
  (hcan : ∀ r r', can r r' = true → hi r = lo r' ∧ ∀ a, val r' a = val r a)
  (hjoin : ∀ r r', lo (join r r') = lo r ∧ hi (join r r') = hi r + (hi r' - lo r') ∧
    ∀ a, val (join r r') a = val r a)
include hcan hjoin

lemma mergeRun_spec (rs : List ρ) : ∀ (acc prev : ρ), Ordered (acc :: rs) → hi acc = hi prev →
    (∀ a, val acc a = val prev a) →
    Ordered ((mergeRun can join acc prev rs).1 :: (mergeRun can join acc prev rs).2) ∧
      (mergeRun can join acc prev rs).2.length ≤ rs.length ∧
      lo (mergeRun can join acc prev rs).1 = lo acc ∧
      ∀ a, look val ((mergeRun can join acc prev rs).1 :: (mergeRun can join acc prev rs).2) a =
        look val (acc :: rs) a := by
  induction rs with
  | nil =>
    intro acc prev ho _ _
    exact ⟨ho, Nat.le_refl _, rfl, fun a => rfl⟩
  | cons r rs ih =>
    intro acc prev ho hhi hval
    unfold mergeRun
    split
    next hc =>
      obtain ⟨h1, h2⟩ := hcan prev r hc
      obtain ⟨j1, j2, j3⟩ := hjoin acc r
      obtain ⟨hlo, hrs⟩ := ho.head
      obtain ⟨hlo', hrs'⟩ := ho.tail.head
      have hend : hi (join acc r) = hi r := by omega
      have ho' : Ordered (join acc r :: rs) := by
        refine .cons (by omega) ?_ ho.tail.tail
        rw [hend]
        exact hrs'
      obtain ⟨g1, g2, g3, g4⟩ := ih (join acc r) r ho' hend fun a => by
        rw [j3, hval, h2]
      refine ⟨g1, Nat.le_succ_of_le g2, g3.trans j1, fun a => ?_⟩
      rw [g4 a]
      -- the joined span is the two neighbours
      by_cases ha : Mem acc a
      · have hm : Mem (join acc r) a := ⟨by rw [j1]; exact ha.1, by have := ha.2; omega⟩
        rw [look_cons_pos ha, look_cons_pos hm, j3]
      rw [look_cons_neg ha]
      by_cases hr : Mem r a
      · have hm : Mem (join acc r) a := ⟨by rw [j1]; have := hr.1; omega, by have := hr.2; omega⟩
        rw [look_cons_pos hr, look_cons_pos hm, j3, hval, h2]
      · have hm : ¬ Mem (join acc r) a := by
          unfold Mem at ha hr ⊢
          omega
        rw [look_cons_neg hr, look_cons_neg hm]
    next => exact ⟨ho, Nat.le_refl _, rfl, fun a => rfl⟩

lemma merge_spec (n : Nat) : ∀ rs : List ρ, rs.length ≤ n → Ordered rs →
    Ordered (merge can join n rs) ∧ (∀ a, look val (merge can join n rs) a = look val rs a) ∧
      ∀ m, (∀ r ∈ rs, m ≤ lo r) → ∀ r ∈ merge can join n rs, m ≤ lo r := by
  induction n with
  | zero =>
    intro rs _ ho
    exact ⟨ho, fun a => rfl, fun m h => h⟩
  | succ n ih =>
    intro rs hlen ho
    cases rs with
    | nil => exact ⟨ho, fun a => rfl, fun m h => h⟩
    | cons r rs =>
      unfold merge
      obtain ⟨g1, g2, g3, g4⟩ := mergeRun_spec hcan hjoin rs r r ho rfl (fun a => rfl)
      generalize mergeRun can join r r rs = run at g1 g2 g3 g4
      obtain ⟨k1, k2, k3⟩ := ih run.2 (Nat.le_trans g2 (Nat.le_of_succ_le_succ hlen)) g1.tail
      refine ⟨.cons g1.head.1 (k3 _ g1.head.2) k1, fun a => ?_, fun m hm r' hr => ?_⟩
      · rw [← g4 a]
        by_cases ha : Mem run.1 a
        · rw [look_cons_pos ha, look_cons_pos ha]
        · rw [look_cons_neg ha, look_cons_neg ha, k2]
      · obtain ⟨hr0, -⟩ := List.forall_mem_cons.mp hm
        have hrun : m ≤ lo run.1 := by omega
        rcases List.mem_cons.mp hr with rfl | hr
        · exact hrun
        · refine k3 m (fun s hs => ?_) r' hr
          have h1 := g1.head.1
          have h2 := g1.head.2 s hs
          omega

end

/-! ## what joining takes away -/

section
variable (can : ρ → ρ → Bool) (join : ρ → ρ → ρ) (p : ρ → Bool)

/-- the number of spans with `p` that can be joined to the one before them -/
def seams : List ρ → Nat
  | r :: r' :: rs => (if can r r' && p r' then 1 else 0) + seams (r' :: rs)
  | _ => 0

omit [Span ρ] in
lemma seams_cons (r r' : ρ) (rs : List ρ) : seams can p (r :: r' :: rs) =
    (if can r r' && p r' then 1 else 0) + seams can p (r' :: rs) := rfl

omit [Span ρ] in
lemma countP_mergeRun (rs : List ρ) : ∀ acc prev : ρ,
    (mergeRun can join acc prev rs).2.countP p + seams can p (prev :: rs) =
      rs.countP p + seams can p (mergeRun can join acc prev rs).2 := by
  induction rs with
  | nil =>
    intro acc prev
    rfl
  | cons r rs ih =>
    intro acc prev
    rw [mergeRun, seams_cons]
    cases hc : can prev r with
    | false => simp
    | true =>
      have hrun := ih (join acc r) r
      simp only [if_true, Bool.true_and, countP_cons]
      omega

omit [Span ρ] in
lemma mergeRun_fst (hjoin : ∀ r r', p (join r r') = p r) (rs : List ρ) : ∀ acc prev : ρ,
    p (mergeRun can join acc prev rs).1 = p acc ∧
      (mergeRun can join acc prev rs).2.length ≤ rs.length := by
  induction rs with
  | nil =>
    intro acc prev
    exact ⟨rfl, Nat.le_refl _⟩
  | cons r rs ih =>
    intro acc prev
    unfold mergeRun
    split
    next =>
      obtain ⟨h1, h2⟩ := ih (join acc r) r
      exact ⟨h1.trans (hjoin acc r), Nat.le_succ_of_le h2⟩
    next => exact ⟨rfl, Nat.le_refl _⟩

variable {can join p}

omit [Span ρ] in
lemma countP_merge (hjoin : ∀ r r', p (join r r') = p r) (n : Nat) : ∀ rs : List ρ,
    rs.length ≤ n → (merge can join n rs).countP p + seams can p rs = rs.countP p := by
  induction n with
  | zero =>
    intro rs hlen
    rw [List.length_eq_zero_iff.mp (Nat.le_zero.mp hlen)]
    rfl
  | succ n ih =>
    intro rs hlen
    cases rs with
    | nil => rfl
    | cons r rs =>
      obtain ⟨h1, h2⟩ := mergeRun_fst can join p hjoin rs r r
      have hrun := countP_mergeRun can join p rs r r
      have hrest := ih (mergeRun can join r r rs).2 (Nat.le_trans h2 (Nat.le_of_succ_le_succ hlen))
      unfold merge
      rw [countP_cons, countP_cons, h1]
      omega

lemma seams_ne_zero (hcan : ∀ r r', can r r' = true → hi r = lo r')
    (ho : Ordered rs) : seams can p rs ≠ 0 ↔
      ∃ r ∈ rs, ∃ r' ∈ rs, can r r' = true ∧ p r' = true := by
  induction rs with
  | nil => simp [seams]
  | cons r₀ rs ih =>
    obtain ⟨hlo, hrs⟩ := ho.head
    cases rs with
    | nil =>
      simp only [seams, ne_eq, not_true_eq_false, mem_singleton, exists_eq_left, false_iff]
      rintro ⟨hc, -⟩
      have := hcan r₀ r₀ hc
      omega
    | cons r₁ rs =>
      obtain ⟨hlo₁, hrs₁⟩ := ho.tail.head
      have hih := ih ho.tail
      rw [seams_cons]
      constructor
      · intro hne
        by_cases hc : (can r₀ r₁ && p r₁) = true
        · rw [Bool.and_eq_true] at hc
          exact ⟨r₀, mem_cons_self, r₁, mem_cons_of_mem _ mem_cons_self, hc⟩
        · rw [if_neg hc, Nat.zero_add] at hne
          obtain ⟨r, hr, r', hr', h⟩ := hih.mp hne
          exact ⟨r, mem_cons_of_mem _ hr, r', mem_cons_of_mem _ hr', h⟩
      · rintro ⟨r, hr, r', hr', hc, hp⟩
        have htouch := hcan r r' hc
        rcases List.mem_cons.mp hr' with rfl | htail'
        · -- nothing ends where the first one begins
          rcases List.mem_cons.mp hr with rfl | htail
          · omega
          · have h1 := hrs r htail
            have h2 := ho.nonempty r hr
            omega
        · rcases List.mem_cons.mp hr with rfl | htail
          · rcases List.mem_cons.mp htail' with rfl | hfar
            · rw [hc, hp]
              exact Nat.ne_of_gt (Nat.add_pos_left Nat.one_pos _)
            · have h1 := hrs r₁ mem_cons_self
              have h2 := hrs₁ r' hfar
              omega
          · have := hih.mpr ⟨r, htail, r', htail', hc, hp⟩
            omega

end

end Span
