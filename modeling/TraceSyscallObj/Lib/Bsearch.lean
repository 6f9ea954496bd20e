import Mathlib.Tactic.Common

/-!
# Binary search

`bsearch` of the C library over a list.  `cmp x` is negative if the key lies before `x`, positive
if it lies behind it, and 0 if `x` is one of the elements that match; several may.

* `bsearch_some`: what is found matches;
* `bsearch_complete`: in a list that `cmp` descends, something is found if something matches.
-/

namespace Bsearch
variable {α : Type} (cmp : α → Int) (xs : List α)

def bsearch : Nat → Nat → Nat → Option Nat
  | 0, _, _ => none
  | fuel + 1, l, u =>
    if l < u then
      match xs[(l + u) / 2]? with
      | none => none
      | some x =>
        if cmp x < 0 then bsearch fuel l ((l + u) / 2)
        else if cmp x > 0 then bsearch fuel ((l + u) / 2 + 1) u
        else some ((l + u) / 2)
    else none

variable {cmp xs}

lemma bsearch_some (fuel : Nat) : ∀ {l u i : Nat}, bsearch cmp xs fuel l u = some i →
    ∃ x, xs[i]? = some x ∧ cmp x = 0 := by
  induction fuel with
  | zero =>
    intro l u i h
    cases h
  | succ fuel ih =>
    intro l u i h
    unfold bsearch at h
    split at h
    · split at h
      · cases h
      next x hx =>
        split at h
        · exact ih h
        · split at h
          · exact ih h
          · cases h
            exact ⟨x, hx, by omega⟩
    · cases h

lemma bsearch_complete (hsorted : xs.Pairwise fun x y => cmp y ≤ cmp x) (fuel : Nat) :
    ∀ {l u k : Nat} {x : α}, u ≤ xs.length → u - l ≤ fuel → l ≤ k → k < u → xs[k]? = some x →
      cmp x = 0 → ∃ i, bsearch cmp xs fuel l u = some i := by
  have hmono : ∀ {i j : Nat} {x y : α}, i ≤ j → xs[i]? = some x → xs[j]? = some y →
      cmp y ≤ cmp x := by
    intro i j x y hij hi hj
    obtain ⟨hilt, rfl⟩ := List.getElem?_eq_some_iff.mp hi
    obtain ⟨hjlt, rfl⟩ := List.getElem?_eq_some_iff.mp hj
    rcases Nat.lt_or_eq_of_le hij with hlt | rfl
    · exact List.pairwise_iff_getElem.mp hsorted i j hilt hjlt hlt
    · exact Int.le_refl _
  induction fuel with
  | zero =>
    intro l u k x _ hfuel hl hu
    omega
  | succ fuel ih =>
    intro l u k x hlen hfuel hl hu hk hx
    have hmid : (l + u) / 2 < xs.length := by omega
    unfold bsearch
    rw [if_pos (by omega), List.getElem?_eq_getElem hmid]
    dsimp only
    split
    next hneg =>
      -- what matches lies before the middle
      have hlt : k < (l + u) / 2 := by
        by_contra hge
        have := hmono (Nat.le_of_not_lt hge) (List.getElem?_eq_getElem hmid) hk
        omega
      exact ih (by omega) (by omega) hl hlt hk hx
    next =>
      split
      next hpos =>
        have hgt : (l + u) / 2 < k := by
          by_contra hge
          have := hmono (Nat.le_of_not_lt hge) hk (List.getElem?_eq_getElem hmid)
          omega
        exact ih hlen (by omega) (by omega) hu hk hx
      next => exact ⟨_, rfl⟩

end Bsearch
