import Mathlib.Tactic.Common

/-!
# Machines with output

`run step s is` feeds the inputs `is` to a machine and collects what every step puts out.

* `run_append`: feeding in two parts;
* `run_hom`: a map of states, inputs and outputs that commutes with one step commutes with runs;
* `run_rel`: two machines whose steps keep a relation and put out the same up to `g`;
* `run_comp`: two machines, the second fed with what the first puts out;
* `Meets`: every step of a run meets a condition on the state and the input;
* `run_out`: then a property of all that is put out, from an invariant.
-/

namespace Transduce
variable {σ σ' ι ι' ο ο' : Type}

def run (step : σ → ι → σ × List ο) : σ → List ι → σ × List ο
  | s, [] => (s, [])
  | s, i :: is => ((run step (step s i).1 is).1, (step s i).2 ++ (run step (step s i).1 is).2)

variable {step : σ → ι → σ × List ο} (s : σ)

lemma run_nil : run step s [] = (s, []) := rfl

lemma run_cons (i : ι) (is : List ι) : run step s (i :: is) =
    ((run step (step s i).1 is).1, (step s i).2 ++ (run step (step s i).1 is).2) := rfl

lemma run_singleton (i : ι) : run step s [i] = step s i := by
  rw [run_cons, run_nil, List.append_nil]

lemma run_append (is js : List ι) : run step s (is ++ js) =
    ((run step (run step s is).1 js).1, (run step s is).2 ++ (run step (run step s is).1 js).2) := by
  induction is generalizing s with
  | nil => rfl
  | cons i is ih => rw [List.cons_append, run_cons, ih, run_cons, List.append_assoc]

lemma run_hom {step' : σ' → ι' → σ' × List ο'} {f : σ → σ'} {e : ι → ι'} {g : ο → ο'}
    (h : ∀ s i, (f (step s i).1, (step s i).2.map g) = step' (f s) (e i)) (s : σ) (is : List ι) :
    (f (run step s is).1, (run step s is).2.map g) = run step' (f s) (is.map e) := by
  induction is generalizing s with
  | nil => rfl
  | cons i is ih =>
    rw [run_cons, List.map_cons, run_cons, ← h s i, ← ih, List.map_append]

variable {step' : σ' → ι → σ' × List ο}

lemma run_map {f : σ → σ'}
    (h : ∀ s i, step' (f s) i = (f (step s i).1, (step s i).2)) (s : σ) (is : List ι) :
    run step' (f s) is = (f (run step s is).1, (run step s is).2) := by
  induction is generalizing s with
  | nil => rfl
  | cons i is ih => rw [run_cons, h, ih, run_cons]

lemma run_rel {R : σ → σ' → Prop} {g : ο → ο'}
    (h : ∀ s s' i, R s s' → R (step s i).1 (step' s' i).1 ∧
      (step s i).2.map g = (step' s' i).2.map g) {s : σ} {s' : σ'} (hR : R s s') (is : List ι) :
    R (run step s is).1 (run step' s' is).1 ∧
      (run step s is).2.map g = (run step' s' is).2.map g := by
  induction is generalizing s s' with
  | nil => exact ⟨hR, rfl⟩
  | cons i is ih =>
    obtain ⟨h1, h2⟩ := h s s' i hR
    obtain ⟨h3, h4⟩ := ih h1
    refine ⟨h3, ?_⟩
    rw [run_cons, run_cons, List.map_append, List.map_append, h2, h4]

/-! ## composition -/

section
variable {τ μ : Type} {f : σ → ι → σ × List μ} {g : τ → μ → τ × List ο}

/-- a step of `f`, and the steps of `g` on what it puts out -/
def comp (f : σ → ι → σ × List μ) (g : τ → μ → τ × List ο) (s : σ × τ) (i : ι) :
    (σ × τ) × List ο :=
  (((f s.1 i).1, (run g s.2 (f s.1 i).2).1), (run g s.2 (f s.1 i).2).2)

lemma run_comp (t : τ) (is : List ι) : run (comp f g) (s, t) is =
    (((run f s is).1, (run g t (run f s is).2).1), (run g t (run f s is).2).2) := by
  induction is generalizing s t with
  | nil => rfl
  | cons i is ih =>
    rw [run_cons, run_cons]
    rw [ih, run_append]
    rfl

end

/-! ## runs whose steps meet a condition -/

def Meets (step : σ → ι → σ × List ο) (P : σ → ι → Prop) : σ → List ι → Prop
  | _, [] => True
  | s, i :: is => P s i ∧ Meets step P (step s i).1 is

instance Meets.decidable (P : σ → ι → Prop) [∀ s i, Decidable (P s i)] :
    (s : σ) → (is : List ι) → Decidable (Meets step P s is)
  | _, [] => inferInstanceAs (Decidable True)
  | s, i :: is =>
    have := Meets.decidable P (step s i).1 is
    inferInstanceAs (Decidable (P s i ∧ Meets step P (step s i).1 is))

lemma run_out {C : σ → ι → Prop} {P : σ → Prop} {Q : ο → Prop}
    (h : ∀ s i, P s → C s i → P (step s i).1 ∧ ∀ o ∈ (step s i).2, Q o) {s : σ} (hs : P s)
    {is : List ι} (hC : Meets step C s is) :
    P (run step s is).1 ∧ ∀ o ∈ (run step s is).2, Q o := by
  induction is generalizing s with
  | nil => exact ⟨hs, fun o ho => absurd ho List.not_mem_nil⟩
  | cons i is ih =>
    obtain ⟨h1, h2⟩ := h s i hs hC.1
    obtain ⟨h3, h4⟩ := ih h1 hC.2
    exact ⟨h3, List.forall_mem_append.mpr ⟨h2, h4⟩⟩

end Transduce
