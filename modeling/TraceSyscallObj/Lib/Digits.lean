import Mathlib.Data.List.Basic

/-!
# Hexadecimal digits

`Nat.toDigits 16` determines the number, and its characters are digits, so numbers written with
separators between them can be read back.

* `toDigits_inj`
* `mem_toDigits`: every character is the digit of a number below the base;
* `append_sep_inj`: a number before a separator.
-/

namespace Digits
variable {c : Char} {n : Nat}

lemma digitChar_inj : ∀ i < 16, ∀ j < 16, Nat.digitChar i = Nat.digitChar j → i = j := by
  decide

lemma mem_toDigits (h : c ∈ Nat.toDigits 16 n) : ∃ d < 16, c = Nat.digitChar d := by
  induction n using Nat.strongRecOn with
  | ind n ih =>
    rw [Nat.toDigits_eq_if (by decide)] at h
    split at h
    · rename_i hn
      exact ⟨n, hn, List.mem_singleton.1 h⟩
    · obtain h | h := List.mem_append.1 h
      · exact ih (n / 16) (by omega) h
      · exact ⟨n % 16, Nat.mod_lt _ (by decide), List.mem_singleton.1 h⟩

lemma toDigits_inj {m : Nat} (h : Nat.toDigits 16 m = Nat.toDigits 16 n) : m = n := by
  induction m using Nat.strongRecOn generalizing n with
  | ind m ih =>
    rw [Nat.toDigits_eq_if (by decide), Nat.toDigits_eq_if (n := n) (by decide)] at h
    split at h
    · rename_i hm
      split at h
      · rename_i hn
        exact digitChar_inj m hm n hn (List.singleton_inj.1 h)
      · -- one digit against at least two
        have hlen := congrArg List.length h
        have := List.length_pos_of_ne_nil (Nat.toDigits_ne_nil (n := n / 16) (b := 16))
        simp only [List.length_append, List.length_singleton] at hlen
        omega
    · rename_i hm
      split at h
      · have hlen := congrArg List.length h
        have := List.length_pos_of_ne_nil (Nat.toDigits_ne_nil (n := m / 16) (b := 16))
        simp only [List.length_append, List.length_singleton] at hlen
        omega
      · obtain ⟨h1, h2⟩ := List.append_inj' h rfl
        have hdiv := ih (m / 16) (by omega) h1
        have hmod := digitChar_inj _ (Nat.mod_lt m (by decide)) _ (Nat.mod_lt n (by decide))
          (List.singleton_inj.1 h2)
        omega

lemma not_mem_toDigits (hc : ∀ d < 16, c ≠ Nat.digitChar d) : c ∉ Nat.toDigits 16 n := by
  intro h
  obtain ⟨d, hd, heq⟩ := mem_toDigits h
  exact hc d hd heq

lemma split_unique {a b s t : List Char} (ha : c ∉ a) (hb : c ∉ b)
    (h : a ++ c :: s = b ++ c :: t) : a = b ∧ s = t := by
  induction a generalizing b with
  | nil =>
    cases b with
    | nil => exact ⟨rfl, (List.cons.inj h).2⟩
    | cons y b => exact absurd (List.mem_cons.2 (.inl (List.cons.inj h).1)) hb
  | cons x a ih =>
    cases b with
    | nil => exact absurd (List.mem_cons.2 (.inl (List.cons.inj h).1.symm)) ha
    | cons y b =>
      obtain ⟨hxy, h⟩ := List.cons.inj h
      obtain ⟨hab, hst⟩ := ih (fun hm => ha (List.mem_cons_of_mem _ hm))
        (fun hm => hb (List.mem_cons_of_mem _ hm)) h
      exact ⟨by rw [hxy, hab], hst⟩

lemma append_sep_inj {m : Nat} {s t : List Char} (hc : ∀ d < 16, c ≠ Nat.digitChar d)
    (h : Nat.toDigits 16 m ++ c :: s = Nat.toDigits 16 n ++ c :: t) : m = n ∧ s = t := by
  obtain ⟨h1, h2⟩ := split_unique (not_mem_toDigits hc) (not_mem_toDigits hc) h
  exact ⟨toDigits_inj h1, h2⟩

end Digits
