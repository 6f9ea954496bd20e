import Mathlib

/-!
# When a loop over a finite state ends

A loop is a partial function `step`: `none` is the exit.  `after step n a` is the state after `n`
rounds from `a`.

* `Leads step a b`: one round takes `a` to `b`;
* `Circles step a`: some state that the loop comes to from `a` leads back to itself;
* `ends_iff`: over finitely many states the loop ends exactly if it does not circle.
-/

namespace Halt
variable {α : Type*} (step : α → Option α)

def after : Nat → α → Option α
  | 0, a => some a
  | n + 1, a => (after n a).bind step

def Leads (a b : α) : Prop := step a = some b

def Circles (a : α) : Prop :=
  ∃ b, Relation.ReflTransGen (Leads step) a b ∧ Relation.TransGen (Leads step) b b

variable {step} {a b c : α} {m n : Nat}

lemma after_add (m n : Nat) (a : α) :
    after step (m + n) a = (after step m a).bind (after step n) := by
  induction n with
  | zero =>
    cases after step m a <;> rfl
  | succ n ih =>
    show (after step (m + n) a).bind step = _
    rw [ih]
    cases after step m a <;> rfl

lemma after_succ' (n : Nat) (a : α) : after step (n + 1) a = (step a).bind (after step n) := by
  rw [Nat.add_comm, after_add]
  rfl

lemma leads_of_after (h : after step n a = some b) : Relation.ReflTransGen (Leads step) a b := by
  induction n generalizing b with
  | zero =>
    injection h with h
    rw [h]
  | succ n ih =>
    obtain ⟨c, hc, hcb⟩ := Option.bind_eq_some_iff.mp h
    exact (ih hc).tail hcb

lemma leads_of_after_succ (h : after step (n + 1) a = some b) :
    Relation.TransGen (Leads step) a b := by
  obtain ⟨c, hc, hcb⟩ := Option.bind_eq_some_iff.mp h
  exact Relation.TransGen.tail' (leads_of_after hc) hcb

lemma after_of_leads (h : Relation.ReflTransGen (Leads step) a b) :
    ∃ n, after step n a = some b := by
  induction h with
  | refl => exact ⟨0, rfl⟩
  | tail _ hbc ih =>
    obtain ⟨n, hn⟩ := ih
    refine ⟨n + 1, ?_⟩
    show (after step n a).bind step = _
    rw [hn]
    exact hbc

lemma after_none_of_le (hmn : m ≤ n) (h : after step m a = none) : after step n a = none := by
  obtain ⟨k, rfl⟩ := Nat.exists_eq_add_of_le hmn
  rw [after_add, h]
  rfl

lemma after_ne_none_of_circle (h : Relation.TransGen (Leads step) b b) (n : Nat) :
    after step n b ≠ none := by
  -- along a circle through `b`, every state that comes from `b` leads on to `b`
  have hon : ∀ n, ∃ c, after step n b = some c ∧ Relation.TransGen (Leads step) c b := by
    intro n
    induction n with
    | zero => exact ⟨b, rfl, h⟩
    | succ n ih =>
      obtain ⟨c, hc, hcb⟩ := ih
      obtain ⟨d, hcd, hdb⟩ := Relation.TransGen.head'_iff.mp hcb
      refine ⟨d, ?_, ?_⟩
      · show (after step n b).bind step = _
        rw [hc]
        exact hcd
      · rcases Relation.reflTransGen_iff_eq_or_transGen.mp hdb with heq | ht
        · rw [← heq]
          exact h
        · exact ht
  obtain ⟨c, hc, _⟩ := hon n
  rw [hc]
  exact Option.some_ne_none c

lemma not_circles_of_ends (h : after step n a = none) : ¬ Circles step a := by
  rintro ⟨b, hab, hbb⟩
  obtain ⟨m, hm⟩ := after_of_leads hab
  apply after_ne_none_of_circle hbb n
  have hmn : after step (m + n) a = none := after_none_of_le (Nat.le_add_left n m) h
  rw [after_add, hm] at hmn
  exact hmn

/-- **over finitely many states a loop ends exactly if it does not circle** -/
theorem ends_iff [Finite α] : (∃ n, after step n a = none) ↔ ¬ Circles step a := by
  constructor
  · rintro ⟨n, h⟩
    exact not_circles_of_ends h
  intro hno
  by_contra hends
  have hall : ∀ n, ∃ b, after step n a = some b := by
    intro n
    exact Option.ne_none_iff_exists'.mp fun h => hends ⟨n, h⟩
  choose f hf using hall
  obtain ⟨i, j, hij, heq⟩ := Finite.exists_ne_map_eq_of_infinite f
  wlog hlt : i < j generalizing i j
  · exact this j i hij.symm heq.symm (by omega)
  -- the state met at `i` is met again at `j`
  obtain ⟨k, rfl⟩ := Nat.exists_eq_add_of_lt hlt
  refine hno ⟨f i, leads_of_after (hf i), leads_of_after_succ (n := k) ?_⟩
  have hj := hf (i + k + 1)
  rw [← heq, Nat.add_assoc, after_add, hf i] at hj
  exact hj

end Halt
