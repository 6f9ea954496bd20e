import TraceSyscallObj.HBitmap.Refine

/-!
# An iteration while the bitmap changes

Calls of `hbitmap_iter_next` interleaved with sets anywhere and with resets before the iterator's
position.  The position is kept in groups: the group of `first` at the start, then the group after
the one returned last, and the size of the bitmap once the iteration has ended.

* `ne_zero_iff_leaf`: a word of any level is not zero iff some bit below it is set;
* `IterOk.of_keep`: a change of the bitmap that keeps the bits from `p` on;
* `WalkOk`: the invariant, for a set `T` of groups that stay set;
* `walk_visits`: the whole iteration.
-/

namespace Hierarchical
open Bits List Run

lemma ne_zero_iff_leaf {hb : HBitmap} (hc : Consistent hb) {k : Nat} (h1 : 1 ≤ k) (h6 : k ≤ 6)
    (x : Nat) : hb.levels k x ≠ 0#64 ↔
      ∃ m, up k (m / 64) = x ∧ bit (hb.levels 6) m = true := by
  obtain ⟨d, hd⟩ : ∃ d, d = 6 - k := ⟨_, rfl⟩
  induction d generalizing k x with
  | zero =>
    have hk : k = 6 := by omega
    subst hk
    rw [ne_zero_iff]
    simp only [up_last]
  | succ d ih =>
    rw [ne_zero_iff]
    constructor
    · rintro ⟨n, hn, hb'⟩
      rw [hc.linked k (by omega) n (by omega), ih (by omega) (by omega) n (by omega)] at hb'
      obtain ⟨m, hm1, hm2⟩ := hb'
      refine ⟨m, ?_, hm2⟩
      rw [up_succ (by omega), hm1, hn]
    · rintro ⟨m, hm1, hm2⟩
      refine ⟨up k m, ?_, bit_up hc hm2 h6⟩
      rw [← up_word, hm1]

section
variable {hb hb' : HBitmap} {hbi : HBitmapIter} {p p' : Nat}

lemma IterOk.of_ended (h : IterOk hb hbi p) (he : Ended hbi)
    (hg : hb'.granularity = hb.granularity) : IterOk hb' hbi p' := by
  refine ⟨h.granularity.trans hg.symm, h.pos_lt, fun j hj => ?_, fun k hk j hj => ?_, h.sentinel,
    .inl he⟩
  · rw [he.1 6 (by omega) (by omega), BitVec.getLsbD_zero] at hj
    cases hj
  · rcases Nat.eq_zero_or_pos k with rfl | hpos
    · rw [he.2, getLsbD_one_shift (by decide), decide_eq_true_eq] at hj
      exact .inl ⟨rfl, hj⟩
    · rw [he.1 k hpos (by omega), BitVec.getLsbD_zero] at hj
      cases hj

lemma IterOk.of_keep (hc : Consistent hb) (hc' : Consistent hb')
    (hg : hb'.granularity = hb.granularity) (h : IterOk hb hbi p)
    (hkeep : ∀ m, p ≤ m → bit (hb.levels 6) m = true → bit (hb'.levels 6) m = true) :
    IterOk hb' hbi p := by
  rcases h.here with he | hp
  · exact h.of_ended he hg
  refine ⟨h.granularity.trans hg.symm, h.pos_lt, fun j hj => ?_, fun k hk j hj => ?_, h.sentinel,
    .inr hp⟩
  · obtain ⟨h1, h2⟩ := h.low j hj
    exact ⟨h1, hkeep _ h1 h2⟩
  rcases h.high k hk j hj with hs | ⟨h1, h2⟩
  · exact .inl hs
  -- the bits below a stored node lie in words after the current one
  refine .inr ⟨h1, ?_⟩
  rw [ne_zero_iff_leaf hc (by omega) (by omega)] at h2
  rw [ne_zero_iff_leaf hc' (by omega) (by omega)]
  obtain ⟨m, hm1, hm2⟩ := h2
  rw [← hm1] at h1
  have hlt := lt_of_up_lt h1
  exact ⟨m, hm1, hkeep m (by omega) hm2⟩

end

lemma item_toInt {n g : Nat} (h : n * 2 ^ g < 2 ^ 63) :
    (BitVec.ofNat 64 n <<< g).toInt = ((n * 2 ^ g : Nat) : Int) := by
  have hnat : (BitVec.ofNat 64 n <<< g).toNat = n * 2 ^ g := by
    rw [BitVec.toNat_shiftLeft, BitVec.toNat_ofNat, Nat.shiftLeft_eq, Nat.mod_mul_mod,
      Nat.mod_eq_of_lt (by omega)]
  rw [BitVec.toInt_eq_toNat_of_lt (by omega), hnat]

lemma hbitmapIterNext_spec {hb : HBitmap} {hbi : HBitmapIter} {p : Nat} (hc : Consistent hb)
    (h : IterOk hb hbi p) (hsize : hb.size * 2 ^ hb.granularity ≤ 2 ^ 63) :
    (hbitmapIterNext hb hbi = .ok (-1, hbi) ∧ Ended hbi) ∨
    ∃ n hbi', hbitmapIterNext hb hbi = .ok (((n * 2 ^ hb.granularity : Nat) : Int), hbi') ∧
      ¬ Ended hbi ∧ p ≤ n ∧ n < hb.size ∧ bit (hb.levels 6) n = true ∧ IterOk hb hbi' (n + 1) ∧
      ∀ m, bit (hb.levels 6) m = true → Pending hbi m → m = n ∨ Pending hbi' m := by
  rcases curWord_spec hc h with ⟨h1, hend⟩ | ⟨w, hbi', h1, hw, h2, hend, h3⟩
  · left
    refine ⟨?_, hend⟩
    simp only [hbitmapIterNext, bind, Except.bind, pure, Except.pure, h1, if_true]
  right
  have hlow := lowest_lt hw
  obtain ⟨hp, hbit⟩ := h2.low (lowest w) (by rw [load_cur_last]; exact getLsbD_lowest hw)
  have hp' : p ≤ 64 * hbi'.pos + lowest w := hp
  have hbit' : bit (hb.levels 6) (64 * hbi'.pos + lowest w) = true := hbit
  have hin := hc.inside _ hbit'
  have hfit : (64 * hbi'.pos + lowest w) * 2 ^ hb.granularity < 2 ^ 63 :=
    Nat.lt_of_lt_of_le (Nat.mul_lt_mul_of_pos_right hin (Nat.two_pow_pos _)) hsize
  have hgran : hbi'.granularity = hb.granularity := h2.granularity
  refine ⟨64 * hbi'.pos + lowest w, load hbi' (clearLowest w), ?_, hend, hp', hin, hbit', ?_,
    fun m hm hpend => ?_⟩
  · simp only [hbitmapIterNext, bind, Except.bind, pure, Except.pure, h1, if_neg hw, hgran]
    rw [Nat.mul_comm hbi'.pos 64, item_toInt hfit, load, hgran]
  · refine h2.advance (fun j hj => ?_) (by omega)
    rw [getLsbD_clearLowest hw, Bool.and_eq_true, decide_eq_true_eq] at hj
    have := lowest_le hj.1
    exact ⟨hj.1, by omega⟩
  · by_cases hmn : m = 64 * hbi'.pos + lowest w
    · exact .inl hmn
    · refine .inr ((h3 m hm hpend).advance fun hpos hbitm => ?_)
      rw [getLsbD_clearLowest hw, hbitm, Bool.true_and, decide_eq_true_eq]
      omega

/-! ## the machine -/

structure Walk where
  hb : HBitmap
  hbi : HBitmapIter
  /-- the first group the iterator has not passed -/
  pos : Nat
  /-- the results of `hbitmap_iter_next` -/
  out : List Int

inductive Act
  | next
  | call (c : Call)
  deriving DecidableEq

def Act.apply (s : Walk) : Act → Except Fault Walk
  | .next => do
    let (item, hbi) ← hbitmapIterNext s.hb s.hbi
    return { s with
      hbi := hbi
      pos := if item = -1 then s.hb.size else item.toNat >>> s.hb.granularity + 1
      out := s.out ++ [item] }
  | .call c => do
    let hb ← c.apply s.hb
    return { s with hb := hb }

def walkStep (a : Act) : EStateM Fault Walk Unit := lift fun s => a.apply s

lemma walkStep_ok {a : Act} {s s' : Walk} (h : a.apply s = .ok s') :
    walkStep a s = .ok () s' := lift_ok (f := fun s => a.apply s) h

/-- sets are inside the bitmap; resets are also of items before the iterator's position -/
def Allowed : Act → Walk → Prop
  | .next, _ => True
  | .call (.set start count), s => Inside s.hb start count
  | .call (.reset start count), s =>
    Inside s.hb start count ∧ start + count ≤ s.pos * 2 ^ s.hb.granularity

/-- an action that resets no group of `T` -/
def Keeps (g : Nat) (T : Nat → Prop) : Act → Prop
  | .call (.reset start count) => ∀ n, T n → ¬ Covers g start count n
  | _ => True

/-- the items `groups`, then `-1` for every call after the end -/
structure Log (g first : Nat) (s : Walk) (groups : List Nat) (ends : Nat) : Prop where
  out : s.out = groups.map (fun n => ((n * 2 ^ g : Nat) : Int)) ++ List.replicate ends (-1)
  increasing : groups.Pairwise (· < ·)
  range : ∀ n ∈ groups, first ≤ n ∧ n < s.pos
  ended : 0 < ends → Ended s.hbi

structure WalkOk (size g first : Nat) (T : Nat → Prop) (s : Walk) : Prop where
  consistent : Consistent s.hb
  size_eq : s.hb.size = size
  granularity_eq : s.hb.granularity = g
  iter : IterOk s.hb s.hbi s.pos
  first_le : first ≤ s.pos
  pos_le : s.pos ≤ size
  log : ∃ groups ends, Log g first s groups ends ∧
    ∀ n, T n → bit (s.hb.levels 6) n = true ∧ (n ∈ groups ∨ Pending s.hbi n)

section
variable {size g first : Nat} {T : Nat → Prop} {s : Walk}

lemma WalkOk.next (h : WalkOk size g first T s) (hsize : size * 2 ^ g ≤ 2 ^ 63) :
    ∃ s', walkStep .next s = .ok () s' ∧ WalkOk size g first T s' := by
  obtain ⟨groups, ends, hl, hT⟩ := h.log
  have hfit : s.hb.size * 2 ^ s.hb.granularity ≤ 2 ^ 63 := by
    rw [h.size_eq, h.granularity_eq]
    exact hsize
  rcases hbitmapIterNext_spec h.consistent h.iter hfit with
    ⟨h1, hend⟩ | ⟨n, hbi', h1, hend, hp, hn, hbit, h2, h3⟩
  · refine ⟨{ s with pos := s.hb.size, out := s.out ++ [-1] }, walkStep_ok ?_, h.consistent, h.size_eq,
      h.granularity_eq, h.iter.of_ended hend rfl, ?_, ?_, groups, ends + 1, ⟨?_, hl.increasing,
      fun m hm => ?_, fun _ => hend⟩, fun m hm => ⟨(hT m hm).1, ?_⟩⟩
    · simp only [Act.apply, bind, Except.bind, pure, Except.pure, h1, if_true]
    · have h1 := h.first_le
      have h2 := h.pos_le
      have h3 := h.size_eq
      show first ≤ s.hb.size
      omega
    · exact Nat.le_of_eq h.size_eq
    · show s.out ++ [-1] = _
      rw [hl.out, append_assoc, replicate_succ']
    · have h1 := hl.range m hm
      have h2 := h.pos_le
      have h3 := h.size_eq
      show first ≤ m ∧ m < s.hb.size
      omega
    · exact .inl ((hT m hm).2.resolve_right
        (not_pending_of_ended h.consistent hend (hT m hm).1))
  · -- an item, so there was no `-1` before
    have hends : ends = 0 := by
      by_contra hne
      exact hend (hl.ended (by omega))
    subst hends
    have hpos : ((n * 2 ^ s.hb.granularity : Nat) : Int).toNat >>> s.hb.granularity = n := by
      rw [Int.toNat_natCast, Nat.shiftRight_eq_div_pow, Nat.mul_div_cancel _ (Nat.two_pow_pos _)]
    have hne : ¬ ((n * 2 ^ s.hb.granularity : Nat) : Int) = -1 := by omega
    refine ⟨{ s with
        hbi := hbi'
        pos := n + 1
        out := s.out ++ [((n * 2 ^ s.hb.granularity : Nat) : Int)] }, walkStep_ok ?_, h.consistent,
      h.size_eq, h.granularity_eq, h2, ?_, ?_, groups ++ [n], 0, ⟨?_, ?_, fun m hm => ?_,
      fun h0 => absurd h0 (by omega)⟩, fun m hm => ⟨(hT m hm).1, ?_⟩⟩
    · simp only [Act.apply, bind, Except.bind, pure, Except.pure, h1, if_neg hne, hpos]
    · have := h.first_le
      show first ≤ n + 1
      omega
    · have := h.size_eq
      show n + 1 ≤ size
      omega
    · show s.out ++ [((n * 2 ^ s.hb.granularity : Nat) : Int)] = _
      rw [hl.out, map_append, replicate_zero, append_nil, append_nil,
        h.granularity_eq]
      rfl
    · rw [pairwise_append]
      refine ⟨hl.increasing, pairwise_singleton _ _, fun a ha b hb => ?_⟩
      have := (hl.range a ha).2
      rw [List.mem_singleton.mp hb]
      omega
    · show first ≤ m ∧ m < n + 1
      have h4 := h.first_le
      rcases List.mem_append.mp hm with hm | hm
      · have := hl.range m hm
        omega
      · have := List.mem_singleton.mp hm
        omega
    · rw [mem_append, mem_singleton]
      rcases (hT m hm).2 with hm' | hm'
      · exact .inl (.inl hm')
      · rcases h3 m (hT m hm).1 hm' with hm'' | hm''
        · exact .inl (.inr hm'')
        · exact .inr hm''

lemma WalkOk.call (h : WalkOk size g first T s) {c : Call} (ha : Allowed (.call c) s)
    (hk : Keeps g T (.call c)) :
    ∃ s', walkStep (.call c) s = .ok () s' ∧ WalkOk size g first T s' := by
  obtain ⟨groups, ends, hl, hT⟩ := h.log
  have hin : c.Inside s.hb := by
    cases c with
    | set start count => exact ha
    | reset start count => exact ha.1
  obtain ⟨hb', h1, h2, h3, h4, h5⟩ := apply_spec h.consistent hin
  -- no bit from the position on is lost
  have hkeep : ∀ m, s.pos ≤ m → bit (s.hb.levels 6) m = true → bit (hb'.levels 6) m = true := by
    intro m hm hbit
    rw [h5]
    cases c with
    | set start count => rw [mark, hbit, Bool.true_or]
    | reset start count =>
      have hout : ¬ Covers s.hb.granularity start count m := by
        rintro ⟨-, hlast⟩
        obtain ⟨⟨hcount, -, -⟩, hbefore⟩ := ha
        rw [Nat.shiftRight_eq_div_pow, Nat.le_div_iff_mul_le (Nat.two_pow_pos _)] at hlast
        have := Nat.mul_le_mul_right (2 ^ s.hb.granularity) hm
        omega
      rw [mark, hbit, decide_eq_false hout]
      rfl
  have hkept : ∀ n, T n → bit (hb'.levels 6) n = true := by
    intro n hn
    rw [h5]
    cases c with
    | set start count => rw [mark, (hT n hn).1, Bool.true_or]
    | reset start count =>
      rw [mark, (hT n hn).1, h.granularity_eq, decide_eq_false (hk n hn)]
      rfl
  refine ⟨{ s with hb := hb' }, walkStep_ok ?_, h2, h3.trans h.size_eq, h4.trans h.granularity_eq,
    h.iter.of_keep h.consistent h2 h4 hkeep, h.first_le, h.pos_le, groups, ends,
    ⟨hl.out, hl.increasing, hl.range, hl.ended⟩, fun n hn => ⟨hkept n hn, (hT n hn).2⟩⟩
  simp only [Act.apply, bind, Except.bind, pure, Except.pure, h1]

lemma WalkOk.step (hsize : size * 2 ^ g ≤ 2 ^ 63) (a : Act) (h : WalkOk size g first T s)
    (ha : Allowed a s ∧ Keeps g T a) : ∃ s', walkStep a s = .ok () s' ∧ WalkOk size g first T s' := by
  cases a with
  | next => exact h.next hsize
  | call c => exact h.call ha.1 ha.2

/-- the next call would return a group that is set now -/
def ReturnsSet (s : Walk) : Prop :=
  ∀ item hbi, hbitmapIterNext s.hb s.hbi = .ok (item, hbi) → item ≠ -1 →
    0 ≤ item ∧ 2 ^ s.hb.granularity ∣ item.toNat ∧ hbitmapGet s.hb item.toNat = true

lemma WalkOk.returnsSet (hsize : size * 2 ^ g ≤ 2 ^ 63) (h : WalkOk size g first T s) :
    ReturnsSet s := by
  intro item hbi hrun hitem
  have hfit : s.hb.size * 2 ^ s.hb.granularity ≤ 2 ^ 63 := by
    rw [h.size_eq, h.granularity_eq]
    exact hsize
  rcases hbitmapIterNext_spec h.consistent h.iter hfit with
    ⟨h1, -⟩ | ⟨n, hbi', h1, -, -, -, hbit, -, -⟩
  · rw [h1] at hrun
    cases hrun
    exact absurd rfl hitem
  · rw [h1] at hrun
    injection hrun with hrun
    injection hrun with hitem' _
    subst hitem'
    rw [Int.toNat_natCast]
    refine ⟨Int.natCast_nonneg _, Nat.dvd_mul_left _ _, ?_⟩
    rw [hbitmapGet_eq, Nat.shiftRight_eq_div_pow, Nat.mul_div_cancel _ (Nat.two_pow_pos _)]
    exact hbit

end

lemma walkStep_length {a : Act} {s s' : Walk} (h : walkStep a s = .ok () s') :
    s'.out.length = s.out.length + [a].count .next := by
  have happly : a.apply s = .ok s' := lift_ok_inv h
  cases a with
  | next =>
    cases hn : hbitmapIterNext s.hb s.hbi with
    | ok r =>
      simp only [Act.apply, hn] at happly
      injection happly with happly
      rw [← happly]
      exact length_append
    | error e =>
      simp only [Act.apply, hn] at happly
      cases happly
  | call c =>
    cases hc : c.apply s.hb with
    | ok hb =>
      simp only [Act.apply, hc] at happly
      injection happly with happly
      rw [← happly]
      rfl
    | error e =>
      simp only [Act.apply, hc] at happly
      cases happly

lemma walk_length (acts : List Act) : ∀ {s s' : Walk}, runAll walkStep acts s = .ok () s' →
    s'.out.length = s.out.length + acts.count .next := by
  induction acts with
  | nil =>
    intro s s' h
    cases h
    rfl
  | cons a acts ih =>
    intro s s' h
    obtain ⟨s₁, h1, h2⟩ := runAll_cons_inv h
    have hcount : ([a] ++ acts).count .next = [a].count .next + acts.count .next :=
      count_append
    rw [singleton_append] at hcount
    rw [ih h2, walkStep_length h1, hcount, Nat.add_assoc]

lemma length_le_of_increasing {l : List Nat} {n : Nat} (h : l.Pairwise (· < ·))
    (hn : ∀ m ∈ l, m < n) : l.length ≤ n := by
  have hnodup : l.Nodup := h.imp fun hlt => Nat.ne_of_lt hlt
  have hsub : l ⊆ List.range n := fun m hm => List.mem_range.mpr (hn m hm)
  have := (hnodup.subperm hsub).length_le
  rwa [length_range] at this

/-- **An iteration while the bitmap changes.**  No assertion fails, every item returned is the
start of a group that is set, the groups increase, a group that was set from the start and never
reset has been returned when the iteration ends, and it ends. -/
theorem walk_visits {hb : HBitmap} (hc : Consistent hb) {first : Nat}
    (hf : first >>> hb.granularity < hb.size) (hsize : hb.size * 2 ^ hb.granularity ≤ 2 ^ 63) :
    ∃ hbi, hbitmapIterInit hb first = .ok hbi ∧
      ∀ acts, Meets walkStep Allowed ⟨hb, hbi, first >>> hb.granularity, []⟩ acts →
        Visits walkStep ReturnsSet ⟨hb, hbi, first >>> hb.granularity, []⟩ acts ∧
        ∃ (s : Walk) (groups : List Nat) (ends : Nat),
          runAll walkStep acts ⟨hb, hbi, first >>> hb.granularity, []⟩ = .ok () s ∧
          s.out = groups.map (fun n => ((n * 2 ^ hb.granularity : Nat) : Int)) ++
            List.replicate ends (-1) ∧
          groups.Pairwise (· < ·) ∧
          (∀ n ∈ groups, first >>> hb.granularity ≤ n ∧ n < hb.size) ∧
          (0 < ends → ∀ n, first >>> hb.granularity ≤ n → bit (hb.levels 6) n = true →
            (∀ start count, .call (.reset start count) ∈ acts →
              ¬ Covers hb.granularity start count n) → n ∈ groups) ∧
          (hb.size < acts.count .next → 0 < ends) := by
  obtain ⟨hbi, hinit, hiter, hall⟩ := hbitmapIterInit_spec hc hf
  refine ⟨hbi, hinit, fun acts hmeets => ?_⟩
  generalize hp : first >>> hb.granularity = p at *
  -- the groups that stay set through the whole run
  obtain ⟨T, hT⟩ : ∃ T : Nat → Prop, ∀ n, T n ↔ p ≤ n ∧ bit (hb.levels 6) n = true ∧
      ∀ start count, .call (.reset start count) ∈ acts → ¬ Covers hb.granularity start count n :=
    ⟨_, fun n => Iff.rfl⟩
  have hkeeps : ∀ a ∈ acts, Keeps hb.granularity T a := by
    intro a ha
    cases a with
    | next => trivial
    | call c =>
      cases c with
      | set start count => trivial
      | reset start count => exact fun n hn => ((hT n).mp hn).2.2 start count ha
  have hstart : WalkOk hb.size hb.granularity p T ⟨hb, hbi, p, []⟩ := by
    refine ⟨hc, rfl, rfl, hiter, Nat.le_refl _, Nat.le_of_lt hf, [], 0,
      ⟨rfl, List.Pairwise.nil, fun n hn => absurd hn not_mem_nil, fun h => absurd h (by omega)⟩,
      fun n hn => ?_⟩
    obtain ⟨h1, h2, -⟩ := (hT n).mp hn
    exact ⟨h2, .inr (hall n h1 h2)⟩
  have hmeets' := hmeets.and_mem hkeeps
  have hstep : ∀ (k : Nat) (a : Act) (s : Walk), WalkOk hb.size hb.granularity p T s →
      Allowed a s ∧ Keeps hb.granularity T a →
      ∃ s', walkStep a s = .ok () s' ∧ WalkOk hb.size hb.granularity p T s' :=
    fun _ a s h ha => h.step hsize a ha
  refine ⟨visits_of_ok (P := fun _ => WalkOk hb.size hb.granularity p T) hstep
    (fun _ s h => h.returnsSet hsize) hstart hmeets', ?_⟩
  obtain ⟨s, hrun, hs⟩ := runAll_ok (P := fun _ => WalkOk hb.size hb.granularity p T) hstep hstart
    hmeets'
  obtain ⟨groups, ends, hl, hin⟩ := hs.log
  have hrange : ∀ n ∈ groups, p ≤ n ∧ n < hb.size := by
    intro n hn
    have h1 := hl.range n hn
    have h2 := hs.pos_le
    omega
  refine ⟨s, groups, ends, hrun, hl.out, hl.increasing, hrange, fun hends n h1 h2 h3 => ?_,
    fun hcount => ?_⟩
  · obtain ⟨h4, h5⟩ := hin n ((hT n).mpr ⟨h1, h2, h3⟩)
    exact h5.resolve_right (not_pending_of_ended hs.consistent (hl.ended hends) h4)
  · have hlen := walk_length acts hrun
    have hle := length_le_of_increasing hl.increasing fun n hn => (hrange n hn).2
    rw [hl.out, length_append, length_map, length_replicate] at hlen
    omega

/-- groups 2 and 3 of eight are set; the iteration starts at item 4 -/
theorem walk_visits_sixteen : ∃ hb hbi, hbitmapSet sixteen 4 3 = .ok hb ∧
    hbitmapIterInit hb 4 = .ok hbi ∧
    ∃ (s : Walk) (groups : List Nat) (ends : Nat),
      runAll walkStep [.call (.reset 0 2), .next, .next]
        ⟨hb, hbi, 4 >>> hb.granularity, []⟩ = .ok () s ∧
      s.out = groups.map (fun n => ((n * 2 ^ hb.granularity : Nat) : Int)) ++
        List.replicate ends (-1) := by
  have hc : Consistent sixteen := consistent_empty (by decide) (by decide)
  have hin : Inside sixteen 4 3 := by decide
  obtain ⟨hb, h1, h2, h3, h4, -⟩ := hbitmapSet_spec hc hin
  have hg : hb.granularity = 1 := h4
  have hs : hb.size = 8 := h3
  have hfirst : 4 >>> hb.granularity < hb.size := by
    rw [hs, hg]
    decide
  obtain ⟨hbi, hi, hall⟩ := walk_visits h2 hfirst (by rw [hs, hg]; decide)
  have hreset : Allowed (.call (.reset 0 2)) ⟨hb, hbi, 4 >>> hb.granularity, []⟩ := by
    show Inside hb 0 2 ∧ 0 + 2 ≤ 4 >>> hb.granularity * 2 ^ hb.granularity
    unfold Inside
    rw [hs, hg]
    decide
  obtain ⟨-, s, groups, ends, hrun, hout, -⟩ := hall [.call (.reset 0 2), .next, .next]
    ⟨hreset, fun _ _ => ⟨trivial, fun _ _ => ⟨trivial, fun _ _ => trivial⟩⟩⟩
  exact ⟨hb, hbi, h1, hi, s, groups, ends, hrun, hout⟩

/-- A group that starts at `2 ^ 63` comes back as a negative number; and a reset of item 4, before
`first`, clears the group of `first`, which is returned all the same. -/
theorem item_negative :
    (do
      let hb ← hbitmapAlloc (3 * 2 ^ 62) 62
      let hb ← hbitmapSet hb (2 ^ 63) 1
      let hbi ← hbitmapIterInit hb 0
      let (item, _) ← hbitmapIterNext hb hbi
      return (hbitmapGet hb (2 ^ 63), item)) = .ok (true, -2 ^ 63) ∧
    (do
      let hb ← hbitmapAlloc 16 2
      let hb ← hbitmapSet hb 4 1
      let hbi ← hbitmapIterInit hb 5
      let hb ← hbitmapReset hb 4 1
      let (item, _) ← hbitmapIterNext hb hbi
      return (hbitmapGet hb 4, item)) = .ok (false, 4) := by
  constructor
  · decide +kernel
  · decide +kernel

end Hierarchical
