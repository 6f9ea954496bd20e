import Mathlib.Tactic.Common

/-!
# Properly nested sequences

Events of two kinds, those that open and those that close; `Nested opens closes w` says that they
match like brackets in the word `w`.  `Nested.matching` finds the event that closes a given one.
-/

namespace Bracket
variable {E : Type} {opens closes : E → Prop}

inductive Nested (opens closes : E → Prop) : List E → Prop where
  | nil : Nested opens closes []
  | wrap (a b : E) (body rest : List E) (ha : opens a) (hb : closes b)
      (hbody : Nested opens closes body) (hrest : Nested opens closes rest) :
      Nested opens closes (a :: body ++ b :: rest)

lemma Nested.pair {a b : E} {body : List E} (ha : opens a) (hb : closes b)
    (h : Nested opens closes body) : Nested opens closes (a :: body ++ [b]) :=
  .wrap a b body [] ha hb h .nil

lemma Nested.mem {w : List E} (h : Nested opens closes w) {e : E} (he : e ∈ w) :
    opens e ∨ closes e := by
  induction h with
  | nil => cases he
  | wrap a b body rest ha hb _ _ ihb ihr =>
    simp only [List.cons_append, List.mem_cons, List.mem_append] at he
    rcases he with rfl | he | rfl | he
    · exact .inl ha
    · exact ihb he
    · exact .inr hb
    · exact ihr he

lemma Nested.matching {w pre post : List E} {a : E} (h : Nested opens closes w)
    (hw : w = pre ++ a :: post) (ha : opens a) (hne : ∀ e, opens e → ¬ closes e) :
    ∃ body b rest, post = body ++ b :: rest ∧ closes b ∧ Nested opens closes body := by
  induction h generalizing pre post with
  | nil => simp at hw
  | wrap a₀ b₀ body₀ rest₀ ha₀ hb₀ hbody hrest ihb ihr =>
    cases pre with
    | nil =>
      simp only [List.nil_append, List.cons_append, List.cons.injEq] at hw
      exact ⟨body₀, b₀, rest₀, hw.2.symm, hb₀, hbody⟩
    | cons p pre =>
      simp only [List.cons_append, List.cons.injEq] at hw
      -- the event stands in the body, in the rest, or is `b₀` itself
      rcases List.append_eq_append_iff.mp hw.2 with ⟨mid, h1, h2⟩ | ⟨mid, h1, h2⟩
      · cases mid with
        | nil =>
          simp only [List.nil_append, List.cons.injEq] at h2
          exact absurd hb₀ (hne b₀ (h2.1 ▸ ha))
        | cons m mid =>
          simp only [List.cons_append, List.cons.injEq] at h2
          exact ihr h2.2
      · cases mid with
        | nil =>
          simp only [List.nil_append, List.cons.injEq] at h2
          exact absurd hb₀ (hne b₀ (h2.1 ▸ ha))
        | cons m mid =>
          simp only [List.cons_append, List.cons.injEq] at h2
          have hmid : body₀ = pre ++ a :: mid := by rw [h1, h2.1]
          obtain ⟨body, b, rest, h3, h4, h5⟩ := ihb hmid
          exact ⟨body, b, rest ++ b₀ :: rest₀, by rw [h2.2, h3]; simp, h4, h5⟩

end Bracket
