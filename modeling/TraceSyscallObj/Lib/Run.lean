import Mathlib.Tactic.Common

/-!
# Runs of a fallible state machine

A machine is a function `step` that takes an event to a program on the states `σ`, which may stop
with a fault.  `runAll step is` runs the events in order and stops at the first fault.

* `Visits step P s is`: `P` holds in every state of the run from `s`;
* `Meets step Q s is`: `Q i s` holds before every step `i` of the run;
* `runAll_total`: the rule for an invariant that also bounds the rest of the run.
-/

namespace Run
variable {ε σ ι : Type} (step : ι → EStateM ε σ Unit)

def runAll : List ι → EStateM ε σ Unit
  | [] => pure ()
  | i :: is => do
    step i
    runAll is

def Visits (P : σ → Prop) : σ → List ι → Prop
  | s, [] => P s
  | s, i :: is => P s ∧ ∀ s', step i s = .ok () s' → Visits P s' is

def Meets (Q : ι → σ → Prop) : σ → List ι → Prop
  | _, [] => True
  | s, i :: is => Q i s ∧ ∀ s', step i s = .ok () s' → Meets Q s' is

def lift (f : σ → Except ε σ) : EStateM ε σ Unit := fun s =>
  match f s with
  | .ok s' => .ok () s'
  | .error e => .error e s

lemma lift_ok {f : σ → Except ε σ} {s s' : σ} (h : f s = .ok s') : lift f s = .ok () s' := by
  unfold lift
  rw [h]

lemma lift_ok_inv {f : σ → Except ε σ} {s s' : σ} (h : lift f s = .ok () s') : f s = .ok s' := by
  unfold lift at h
  cases hf : f s with
  | ok s₁ =>
    rw [hf] at h
    injection h with _ h
    rw [h]
  | error e =>
    rw [hf] at h
    cases h

section
variable {α β : Type} {m : EStateM ε σ α} {f : α → EStateM ε σ β} {s s' s'' : σ} {a : α} {b : β} {e : ε}

lemma bind_ok (h : m s = .ok a s') : (m >>= f) s = f a s' := by
  show EStateM.bind m f s = f a s'
  rw [EStateM.bind, h]

lemma bind_error (h : m s = .error e s') : (m >>= f) s = .error e s' := by
  show EStateM.bind m f s = .error e s'
  rw [EStateM.bind, h]

lemma bind_inv (h : (m >>= f) s = .ok b s'') : ∃ a s', m s = .ok a s' ∧ f a s' = .ok b s'' := by
  cases hm : m s with
  | ok a s' =>
    rw [bind_ok hm] at h
    exact ⟨a, s', rfl, h⟩
  | error e s' =>
    rw [bind_error hm] at h
    cases h

lemma bind_error_inv (h : (m >>= f) s = .error e s'') :
    m s = .error e s'' ∨ ∃ a s', m s = .ok a s' ∧ f a s' = .error e s'' := by
  cases hm : m s with
  | ok a s' =>
    rw [bind_ok hm] at h
    exact .inr ⟨a, s', rfl, h⟩
  | error e s' =>
    rw [bind_error hm] at h
    cases h
    exact .inl rfl

end

variable {step} {P : σ → Prop} {Q : ι → σ → Prop} {s s' : σ} {i : ι} {is : List ι} {e : ε}

lemma runAll_cons_ok (h : step i s = .ok () s') : runAll step (i :: is) s = runAll step is s' := by
  show EStateM.bind (step i) (fun _ => runAll step is) s = _
  rw [EStateM.bind, h]

lemma runAll_cons_error (h : step i s = .error e s') : runAll step (i :: is) s = .error e s' := by
  show EStateM.bind (step i) (fun _ => runAll step is) s = _
  rw [EStateM.bind, h]

lemma runAll_cons_inv {s'' : σ} (h : runAll step (i :: is) s = .ok () s'') :
    ∃ s', step i s = .ok () s' ∧ runAll step is s' = .ok () s'' := by
  cases hs : step i s with
  | ok u s' =>
    rw [runAll_cons_ok hs] at h
    exact ⟨s', rfl, h⟩
  | error e s' =>
    rw [runAll_cons_error hs] at h
    cases h

lemma Visits.head (h : Visits step P s is) : P s := by
  cases is with
  | nil => exact h
  | cons i is => exact h.1

/-- **The invariant rule.**  `P n` is the invariant when `n` more events may come. -/
theorem runAll_total {P : Nat → σ → Prop} {F : ε → σ → Prop} (hstep : ∀ n i s, P (n + 1) s → Q i s →
      (∃ s', step i s = .ok () s' ∧ P n s') ∨ ∃ e s', step i s = .error e s' ∧ F e s')
    (hP : P is.length s) (hQ : Meets step Q s is) :
    (∃ s', runAll step is s = .ok () s' ∧ P 0 s') ∨
      ∃ e s', runAll step is s = .error e s' ∧ F e s' := by
  induction is generalizing s with
  | nil => exact .inl ⟨s, rfl, hP⟩
  | cons i is ih =>
    rcases hstep is.length i s hP hQ.1 with ⟨s', h1, h2⟩ | ⟨e, s', h1, h2⟩
    · rw [runAll_cons_ok h1]
      exact ih h2 (hQ.2 s' h1)
    · exact .inr ⟨e, s', runAll_cons_error h1, h2⟩

lemma runAll_error {P : Nat → σ → Prop} {F : ε → Prop} (hstep : ∀ n i s, P (n + 1) s → Q i s →
      (∃ s', step i s = .ok () s' ∧ P n s') ∨ ∃ e s', step i s = .error e s' ∧ F e)
    (hP : P is.length s) (hQ : Meets step Q s is) (h : runAll step is s = .error e s') : F e := by
  rcases runAll_total hstep hP hQ with ⟨s₁, h1, -⟩ | ⟨e₁, s₁, h1, h2⟩
  · rw [h1] at h
    cases h
  · rw [h1] at h
    injection h with he _
    exact he ▸ h2

lemma visits_of_meets {P : Nat → σ → Prop} {R : σ → Prop}
    (hstep : ∀ n i s s', P (n + 1) s → Q i s → step i s = .ok () s' → P n s')
    (hR : ∀ n s, P n s → R s) (hP : P is.length s) (hQ : Meets step Q s is) :
    Visits step R s is := by
  induction is generalizing s with
  | nil => exact hR _ s hP
  | cons i is ih =>
    refine ⟨hR _ s hP, fun s' hs => ?_⟩
    exact ih (hstep is.length i s s' hP hQ.1 hs) (hQ.2 s' hs)

lemma runAll_ok {P : Nat → σ → Prop}
    (hstep : ∀ n i s, P (n + 1) s → Q i s → ∃ s', step i s = .ok () s' ∧ P n s')
    (hP : P is.length s) (hQ : Meets step Q s is) :
    ∃ s', runAll step is s = .ok () s' ∧ P 0 s' := by
  rcases runAll_total (F := fun _ _ => False) (fun n i s h hq => .inl (hstep n i s h hq)) hP hQ with
    h | ⟨e, s', -, hF⟩
  · exact h
  · exact hF.elim

lemma visits_of_ok {P : Nat → σ → Prop} {R : σ → Prop}
    (hstep : ∀ n i s, P (n + 1) s → Q i s → ∃ s', step i s = .ok () s' ∧ P n s')
    (hR : ∀ n s, P n s → R s) (hP : P is.length s) (hQ : Meets step Q s is) :
    Visits step R s is := by
  refine visits_of_meets (fun n i s s' h hq hrun => ?_) hR hP hQ
  obtain ⟨s₁, h1, h2⟩ := hstep n i s h hq
  rw [h1] at hrun
  injection hrun with _ hrun
  exact hrun ▸ h2

lemma meets_of_meets {P : Nat → σ → Prop} {Q' : ι → σ → Prop}
    (hstep : ∀ n i s s', P (n + 1) s → Q i s → step i s = .ok () s' → P n s')
    (hQ' : ∀ n i s, P (n + 1) s → Q i s → Q' i s) (hP : P is.length s) (hQ : Meets step Q s is) :
    Meets step Q' s is := by
  induction is generalizing s with
  | nil => trivial
  | cons i is ih =>
    refine ⟨hQ' is.length i s hP hQ.1, fun s' hs => ?_⟩
    exact ih (hstep is.length i s s' hP hQ.1 hs) (hQ.2 s' hs)

lemma meets_true (s : σ) (is : List ι) : Meets step (fun _ _ => True) s is := by
  induction is generalizing s with
  | nil => trivial
  | cons i is ih => exact ⟨trivial, fun s' _ => ih s'⟩

lemma Meets.and_mem {R : ι → Prop} (h : Meets step Q s is) (hR : ∀ i ∈ is, R i) :
    Meets step (fun i s => Q i s ∧ R i) s is := by
  induction is generalizing s with
  | nil => trivial
  | cons i is ih =>
    refine ⟨⟨h.1, hR i List.mem_cons_self⟩, fun s' hs => ?_⟩
    exact ih (h.2 s' hs) fun i' hi' => hR i' (List.mem_cons_of_mem _ hi')

/-! ## runs on concrete inputs -/

lemma Meets.cons (hQ : Q i s) (h : step i s = .ok () s') (hm : Meets step Q s' is) :
    Meets step Q s (i :: is) := by
  refine ⟨hQ, fun s₁ h₁ => ?_⟩
  rw [h] at h₁
  injection h₁ with _ h₁
  exact h₁ ▸ hm

/-- a condition that can be tested is tested along a run -/
instance decidableMeets [∀ i s, Decidable (Q i s)] :
    (s : σ) → (is : List ι) → Decidable (Meets step Q s is)
  | _, [] => isTrue trivial
  | s, i :: is =>
    match h : step i s with
    | .ok () s' =>
      have := decidableMeets s' is
      decidable_of_iff (Q i s ∧ Meets step Q s' is)
        ⟨fun hm => .cons hm.1 h hm.2, fun hm => ⟨hm.1, hm.2 s' h⟩⟩
    | .error e s' =>
      decidable_of_iff (Q i s) ⟨fun hq => ⟨hq, fun s'' h' => by rw [h] at h'; cases h'⟩, And.left⟩

/-- `P` holds at the end, but for the faults of the kind `F` -/
def Ends {α : Type} (P : σ → Prop) (F : ε → Prop) : EStateM.Result ε σ α → Prop
  | .ok _ s => P s
  | .error e s => P s ↔ ¬ F e

/-- `P` is kept, and given up exactly in the faults of the kind `F` -/
def Guards {α : Type} (P : σ → Prop) (F : ε → Prop) (x : EStateM ε σ α) : Prop :=
  ∀ s, P s → Ends P F (x s)

section guards
variable {α β : Type} {P : σ → Prop} {F : ε → Prop} {x y : EStateM ε σ α} {f : α → EStateM ε σ β}

lemma Guards.bind (hx : Guards P F x) (hf : ∀ a, Guards P F (f a)) : Guards P F (x >>= f) := by
  intro s hs
  have h := hx s hs
  cases hr : x s with
  | ok a s' =>
    rw [hr] at h
    rw [bind_ok hr]
    exact hf a s' h
  | error e s' =>
    rw [bind_error hr]
    rw [hr] at h
    exact h

lemma Guards.ite {c : Prop} [Decidable c] (hx : Guards P F x) (hy : Guards P F y) :
    Guards P F (if c then x else y) := by
  split
  · exact hx
  · exact hy

lemma Guards.runAll {step : ι → EStateM ε σ Unit} (h : ∀ i, Guards P F (step i)) (is : List ι) :
    Guards P F (runAll step is) := by
  induction is with
  | nil => exact fun s hs => hs
  | cons i is ih => exact (h i).bind fun _ => ih

end guards

def faultOf : EStateM.Result ε σ Unit → Option ε
  | .ok _ _ => none
  | .error e _ => some e

def valueOf {α : Type} : EStateM.Result ε σ α → Option α
  | .ok a _ => some a
  | .error _ _ => none

def stateOf {α : Type} : EStateM.Result ε σ α → σ
  | .ok _ s => s
  | .error _ s => s

lemma eq_ok {r : EStateM.Result ε σ Unit} (h : faultOf r = none) : r = .ok () (stateOf r) := by
  cases r with
  | ok _ _ => rfl
  | error _ _ => cases h

lemma eq_error {r : EStateM.Result ε σ Unit} (h : faultOf r = some e) :
    r = .error e (stateOf r) := by
  cases r with
  | ok _ _ => cases h
  | error _ _ =>
    cases h
    rfl

end Run
