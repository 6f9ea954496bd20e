import Mathlib.Tactic.Common

/-!
# Paged memory with one shared page

Every slot of the primary map names a private page, or stands for the one page that all
untouched slots share (`none`).  `Sound` says that no two slots name the same private page; then
the memory behaves like a flat map (`look`):

* `Sound.claim`, `look_claim`: a slot gets a page of its own, with the contents of the shared one;
* `Sound.write`, `look_write`: one cell of a private page is written.
-/

namespace Paged
variable {I O V : Type}

structure Mem (I O V : Type) where
  shared : O → V
  slot : I → Option Nat
  page : Nat → O → V

def Mem.look (m : Mem I O V) (i : I) (o : O) : V :=
  match m.slot i with
  | none => m.shared o
  | some n => m.page n o

def Mem.Sound (m : Mem I O V) : Prop :=
  ∀ i j n, m.slot i = some n → m.slot j = some n → i = j

/-- slot `i` gets the page `n`, filled with `c` -/
def Mem.claim [DecidableEq I] (m : Mem I O V) (i : I) (n : Nat) (c : O → V) : Mem I O V :=
  { m with
    slot := fun j => if j = i then some n else m.slot j
    page := fun k => if k = n then c else m.page k }

def Mem.write [DecidableEq O] (m : Mem I O V) (n : Nat) (o : O) (v : V) : Mem I O V :=
  { m with page := fun k => if k = n then (fun p => if p = o then v else m.page n p) else m.page k }

variable {m : Mem I O V} {i : I} {n : Nat} [DecidableEq I]

lemma Mem.Sound.claim (h : m.Sound) (hn : ∀ j, m.slot j ≠ some n) (c : O → V) :
    (m.claim i n c).Sound := by
  intro j k p hj hk
  have hj' : (if j = i then some n else m.slot j) = some p := hj
  have hk' : (if k = i then some n else m.slot k) = some p := hk
  by_cases h1 : j = i
  · rw [if_pos h1] at hj'
    by_cases h2 : k = i
    · rw [h1, h2]
    · rw [if_neg h2] at hk'
      exact absurd (hk'.trans hj'.symm) (hn k)
  · rw [if_neg h1] at hj'
    by_cases h2 : k = i
    · rw [if_pos h2] at hk'
      exact absurd (hj'.trans hk'.symm) (hn j)
    · rw [if_neg h2] at hk'
      exact h j k p hj' hk'

lemma Mem.look_claim (hi : m.slot i = none) (hn : ∀ j, m.slot j ≠ some n) (j : I) (o : O) :
    (m.claim i n m.shared).look j o = m.look j o := by
  unfold Mem.look
  show (match (if j = i then some n else m.slot j) with
    | none => m.shared o
    | some k => (if k = n then m.shared else m.page k) o) = _
  by_cases h : j = i
  · rw [if_pos h, h, hi]
    show (if n = n then m.shared else m.page n) o = m.shared o
    rw [if_pos rfl]
  rw [if_neg h]
  cases hs : m.slot j with
  | none => rfl
  | some k =>
    show (if k = n then m.shared else m.page k) o = m.page k o
    have hk : k ≠ n := by
      intro e
      rw [e] at hs
      exact hn j hs
    rw [if_neg hk]

omit [DecidableEq I] in
lemma Mem.Sound.write [DecidableEq O] (h : m.Sound) (o : O) (v : V) : (m.write n o v).Sound := h

lemma Mem.look_write [DecidableEq O] (h : m.Sound) (hi : m.slot i = some n) (o : O) (v : V) (j : I) (p : O) :
    (m.write n o v).look j p = if j = i ∧ p = o then v else m.look j p := by
  unfold Mem.look
  show (match m.slot j with
    | none => m.shared p
    | some k => (if k = n then (fun q => if q = o then v else m.page n q) else m.page k) p) = _
  cases hs : m.slot j with
  | none =>
    have hji : j ≠ i := by
      intro e
      rw [e, hi] at hs
      cases hs
    rw [if_neg (fun k => hji k.1)]
  | some k =>
    show (if k = n then (fun q => if q = o then v else m.page n q) else m.page k) p = _
    by_cases hk : k = n
    · subst hk
      have hji : j = i := h j i k hs hi
      rw [if_pos rfl]
      simp only [hji, true_and]
    · have hji : j ≠ i := by
        intro e
        rw [e, hi] at hs
        exact hk (Option.some.inj hs).symm
      rw [if_neg hk, if_neg (fun e => hji e.1)]

end Paged
