import TraceSyscallObj.Qjson.Parser
import Mathlib.Algebra.Order.Ring.Int

/-!
# The parser does not run off the end of a complete message

The parser demands a token only at the start or inside an object or array it has opened.  So if it
runs off the end of a list, the list has no more closing than opening braces and brackets, and more
opening ones in all.  The streamer hands such a list on only because of its limits.

* `Outcome`: what a parsing function does with the tokens, by the braces and brackets;
* `parseValue_outcome`: for the whole grammar, by induction on the depth;
* `parse_complete`: a list that closes all it opens, or too much, is parsed without running off;
* `parser_stays_inside`: so is every list handed on in a run that passes no limit.
-/

namespace Qjson
open List
variable {n : Nat}

def braces (ts : List Token) : Int := (ts.map brace).sum
def brackets (ts : List Token) : Int := (ts.map bracket).sum

lemma braces_cons (t : Token) (ts : List Token) : braces (t :: ts) = brace t + braces ts := rfl
lemma brackets_cons (t : Token) (ts : List Token) :
    brackets (t :: ts) = bracket t + brackets ts := rfl

lemma braces_append (ts ts' : List Token) : braces (ts ++ ts') = braces ts + braces ts' := by
  unfold braces
  rw [map_append, sum_append]

lemma brackets_append (ts ts' : List Token) :
    brackets (ts ++ ts') = brackets ts + brackets ts' := by
  unfold brackets
  rw [map_append, sum_append]

/-! ## what a token counts -/

variable {t : Token}

lemma operator_head {op : Byte} (h : tokenIsOperator t op = true) (h0 : op ≠ 0) :
    t.type = .terminal .operator ∧ t.text.head? = some op := by
  unfold tokenIsOperator at h
  rw [Bool.and_eq_true, Bool.and_eq_true, beq_iff_eq, beq_iff_eq] at h
  refine ⟨h.1.1, ?_⟩
  have h1 := h.1.2
  cases ht : t.text with
  | nil =>
    rw [ht] at h1
    exact absurd h1.symm h0
  | cons c cs =>
    rw [ht] at h1
    exact congrArg some h1

lemma count_operator {op : Byte} (h : tokenIsOperator t op = true) (h0 : op ≠ 0) :
    brace t = (if op = 0x7B then 1 else if op = 0x7D then -1 else 0) ∧
      bracket t = (if op = 0x5B then 1 else if op = 0x5D then -1 else 0) := by
  obtain ⟨h1, h2⟩ := operator_head h h0
  unfold brace bracket
  simp only [if_pos h1, h2, Option.some.injEq]
  exact ⟨trivial, trivial⟩

lemma count_other (h : t.type ≠ .terminal .operator) : brace t = 0 ∧ bracket t = 0 :=
  ⟨if_neg h, if_neg h⟩

/-! ## outcomes -/

variable {ts : List Token}

section
variable {α β : Type}

/-- With a value, the tokens read count `b` braces and `k` brackets; when the function runs off the
end, the tokens close no more than they open, and open at least `s` if there are any; it does not
run out of fuel on fewer than `n` tokens. -/
def Outcome (s b k : Int) (n : Nat) (ts : List Token) : Except Fault (Option α × Ctx) → Prop
  | .ok (some _, c) => ∃ pre, ts = pre ++ c.tokens ∧ pre ≠ [] ∧ braces pre = b ∧ brackets pre = k
  | .ok (none, _) => True
  | .error .assertion =>
    0 ≤ braces ts ∧ 0 ≤ brackets ts ∧ (ts ≠ [] → s ≤ braces ts + brackets ts)
  | .error .fuel => n ≤ ts.length

variable {s b k : Int}

lemma Outcome.nil :
    Outcome s b k n [] (.error .assertion : Except Fault (Option α × Ctx)) :=
  ⟨Int.le_refl 0, Int.le_refl 0, fun h => absurd rfl h⟩

variable {r : Except Fault (Option α × Ctx)}

lemma Outcome.weaken (h : Outcome 1 b k n ts r) : Outcome 0 b k n ts r := by
  rcases r with f | ⟨v, c⟩
  · cases f with
    | assertion => exact ⟨h.1, h.2.1, fun _ => Int.add_nonneg h.1 h.2.1⟩
    | fuel => exact h
  · cases v with
    | none => trivial
    | some v => exact h

lemma Outcome.cons {b₁ k₁ : Int} {m : Nat} (hb : 0 ≤ brace t) (hk : 0 ≤ bracket t)
    (hs : s ≤ brace t + bracket t) (hm : m ≤ n + 1) (eb : brace t + b₁ = b)
    (ek : bracket t + k₁ = k) (h : Outcome 0 b₁ k₁ n ts r) : Outcome s b k m (t :: ts) r := by
  rcases r with f | ⟨v, c⟩
  · cases f with
    | assertion =>
      obtain ⟨h1, h2, -⟩ := h
      refine ⟨?_, ?_, fun _ => ?_⟩
      · rw [braces_cons]
        omega
      · rw [brackets_cons]
        omega
      · rw [braces_cons, brackets_cons]
        omega
    | fuel =>
      have h1 : n ≤ ts.length := h
      show m ≤ ts.length + 1
      omega
  · cases v with
    | none => trivial
    | some v =>
      obtain ⟨pre, h1, h2, h3, h4⟩ := h
      refine ⟨t :: pre, by rw [h1]; rfl, cons_ne_nil _ _, ?_, ?_⟩
      · rw [braces_cons, h3, eb]
      · rw [brackets_cons, h4, ek]

lemma Outcome.cons_zero (hb : brace t = 0) (hk : bracket t = 0)
    (h : Outcome 0 b k n ts r) : Outcome 0 b k n (t :: ts) r :=
  h.cons (Int.le_of_eq hb.symm) (Int.le_of_eq hk.symm) (by rw [hb, hk]; exact Int.le_refl 0)
    (Nat.le_succ n) (by rw [hb, Int.zero_add]) (by rw [hk, Int.zero_add])

variable {c : Ctx}

lemma Outcome.one {v : α} (hb : brace t = b)
    (hk : bracket t = k) : Outcome s b k n (t :: c.tokens) (.ok (some v, c)) :=
  ⟨[t], rfl, cons_ne_nil _ _, by rw [braces_cons, hb]; exact Int.add_zero b,
    by rw [brackets_cons, hk]; exact Int.add_zero k⟩

variable {f : Option α × Ctx → Except Fault (Option β × Ctx)}

lemma Outcome.seq (h : Outcome 0 0 0 n ts r) (hnone : ∀ c, ∃ c', f (none, c) = .ok (none, c'))
    (hsome : ∀ v c, c.tokens.length < ts.length → Outcome 0 b k n c.tokens (f (some v, c))) :
    Outcome 0 b k n ts (r.bind f) := by
  rcases r with e | ⟨v, c⟩
  · cases e with
    | assertion | fuel => exact h
  cases v with
  | none =>
    obtain ⟨c', hc⟩ := hnone c
    show Outcome 0 b k n ts (f (none, c))
    rw [hc]
    trivial
  | some v =>
    obtain ⟨pre, h1, h2, h3, h4⟩ := h
    have hlen : c.tokens.length < ts.length := by
      rw [h1, length_append]
      have := List.length_pos_iff.mpr h2
      omega
    have hf := hsome v c hlen
    show Outcome 0 b k n ts (f (some v, c))
    generalize f (some v, c) = r at hf
    rcases r with e | ⟨w, c'⟩
    · cases e with
      | assertion =>
        obtain ⟨g1, g2, -⟩ := hf
        have e1 : braces ts = braces c.tokens := by rw [h1, braces_append, h3, Int.zero_add]
        have e2 : brackets ts = brackets c.tokens := by rw [h1, brackets_append, h4, Int.zero_add]
        refine ⟨by rw [e1]; exact g1, by rw [e2]; exact g2, fun _ => ?_⟩
        rw [e1, e2]
        exact Int.add_nonneg g1 g2
      | fuel =>
        have g1 : n ≤ c.tokens.length := hf
        show n ≤ ts.length
        omega
    · cases w with
      | none => trivial
      | some w =>
        obtain ⟨pre', g1, g2, g3, g4⟩ := hf
        refine ⟨pre ++ pre', ?_, ?_, ?_, ?_⟩
        · rw [h1, g1, append_assoc]
        · exact fun he => h2 (List.append_eq_nil_iff.mp he).1
        · rw [braces_append, h3, g3, Int.zero_add]
        · rw [brackets_append, h4, g4, Int.zero_add]

lemma Outcome.last (h : Outcome s b k n ts r) (hnone : ∀ c, ∃ c', f (none, c) = .ok (none, c'))
    (hsome : ∀ v c, ∃ w, f (some v, c) = .ok (some w, c)) : Outcome s b k n ts (r.bind f) := by
  rcases r with e | ⟨v, c⟩
  · cases e with
    | assertion | fuel => exact h
  show Outcome s b k n ts (f (v, c))
  cases v with
  | none =>
    obtain ⟨c', hc⟩ := hnone c
    rw [hc]
    trivial
  | some v =>
    obtain ⟨w, hc⟩ := hsome v c
    rw [hc]
    exact h

lemma Outcome.pop {f : Token × Ctx → Except Fault (Option α × Ctx)}
    (h : ∀ t ts, c.tokens = t :: ts → Outcome s b k n (t :: ts) (f (t, { c with tokens := ts }))) :
    Outcome s b k n c.tokens ((parserContextPopToken c).bind f) := by
  unfold parserContextPopToken
  cases htok : c.tokens with
  | nil => exact Outcome.nil
  | cons t ts => exact h t ts htok

lemma Outcome.peek {f : Token → Except Fault (Option α × Ctx)}
    (h : ∀ t ts, c.tokens = t :: ts → Outcome s b k n c.tokens (f t)) :
    Outcome s b k n c.tokens ((parserContextPeekToken c).bind f) := by
  unfold parserContextPeekToken
  cases htok : c.tokens with
  | nil => exact Outcome.nil
  | cons t ts =>
    have h1 := h t ts htok
    rw [htok] at h1
    exact h1

/-- without a value the tokens are put back -/
def Restores (ts : List Token) (r : Except Fault (Option α × Ctx)) : Prop :=
  ∀ c, r = .ok (none, c) → c.tokens = ts

lemma Restores.bind {γ : Type} {r : Except Fault γ} {f : γ → Except Fault (Option α × Ctx)}
    (h : ∀ x, Restores ts (f x)) : Restores ts (r.bind f) := by
  intro c hc
  cases r with
  | error e => cases hc
  | ok x => exact h x c hc

lemma Restores.some (v : α) (c : Ctx) : Restores ts (.ok (Option.some v, c)) := by
  intro c' h
  cases h

lemma Restores.none (hc : c.tokens = ts) : Restores ts (.ok ((Option.none : Option α), c)) := by
  intro c' h
  cases h
  exact hc

lemma Outcome.or (h : Outcome s b k n ts r) (hr : Restores ts r)
    {f : Option α × Ctx → Except Fault (Option α × Ctx)}
    (hsome : ∀ v c, f (some v, c) = .ok (some v, c))
    (hnone : ∀ c, c.tokens = ts → Outcome s b k n ts (f (none, c))) :
    Outcome s b k n ts (r.bind f) := by
  rcases r with e | ⟨v, c⟩
  · cases e with
    | assertion | fuel => exact h
  show Outcome s b k n ts (f (v, c))
  cases v with
  | none => exact hnone c (hr c rfl)
  | some v =>
    rw [hsome]
    exact h

end

/-! ## the grammar -/

section
variable {n : Nat} {parseValue : Ctx → Except Fault (Option QObject × Ctx)}
  (hpv : ∀ c : Ctx, Outcome 1 0 0 n c.tokens (parseValue c))
include hpv

lemma parsePair_outcome (dict : Entries) (c : Ctx) :
    Outcome 0 0 0 n c.tokens (parsePair parseValue dict c) := by
  apply Outcome.peek
  intro t ts htok
  apply (hpv c).weaken.seq
  · intro c'
    exact ⟨_, rfl⟩
  intro key c' _
  cases key with
  | string key =>
    apply Outcome.pop
    intro t ts htok
    dsimp only
    by_cases hcolon : tokenIsOperator t 0x3A = true
    · obtain ⟨hb, hk⟩ := count_operator hcolon (by decide)
      rw [if_pos hcolon]
      apply Outcome.cons_zero hb hk
      apply (hpv { c' with tokens := ts }).weaken.last
      · intro c''
        exact ⟨_, rfl⟩
      · intro v c''
        exact ⟨_, rfl⟩
    · rw [if_neg hcolon]
      trivial
  | _ => trivial

lemma pairLoop_outcome (fuel : Nat) : ∀ (t : Token) (dict : Entries) (c : Ctx),
    c.tokens.length < fuel →
      Outcome 0 (-1) 0 n (t :: c.tokens) (pairLoop parseValue fuel t dict c) := by
  induction fuel with
  | zero =>
    intro t dict c hf
    omega
  | succ fuel ih =>
    intro t dict c hf
    unfold pairLoop
    by_cases hend : tokenIsOperator t 0x7D = true
    · obtain ⟨hb, hk⟩ := count_operator hend (by decide)
      rw [if_pos hend]
      exact Outcome.one hb hk
    rw [if_neg hend]
    by_cases hcomma : tokenIsOperator t 0x2C = true
    · obtain ⟨hb, hk⟩ := count_operator hcomma (by decide)
      rw [if_pos hcomma]
      apply Outcome.cons_zero hb hk
      apply (parsePair_outcome hpv dict c).seq
      · intro c'
        exact ⟨_, rfl⟩
      intro dict' c' hlen
      apply Outcome.pop
      intro t' ts htok
      apply ih t' dict' { c' with tokens := ts }
      rw [htok, length_cons] at hlen
      show ts.length < fuel
      omega
    · rw [if_neg hcomma]
      trivial

lemma parseObject_outcome (c : Ctx) :
    Outcome 1 0 0 (n + 1) c.tokens (parseObject parseValue c) := by
  apply Outcome.pop
  intro t ts htok
  dsimp only
  by_cases hopen : tokenIsOperator t 0x7B = true
  · obtain ⟨hb, hk⟩ := count_operator hopen (by decide)
    rw [if_pos hopen]
    have hbody : ∀ r : Except Fault (Option QObject × Ctx), Outcome 0 (-1) 0 n ts r →
        Outcome 1 0 0 (n + 1) (t :: ts) r := fun r h =>
      h.cons (by rw [hb]; decide) (by rw [hk]; decide) (by rw [hb, hk]; decide) (Nat.le_refl _)
        (by rw [hb]; rfl) (by rw [hk]; rfl)
    apply hbody
    apply Outcome.peek (c := { c with tokens := ts })
    intro t' ts' htok'
    by_cases hclose : tokenIsOperator t' 0x7D = true
    · obtain ⟨hb', hk'⟩ := count_operator hclose (by decide)
      rw [if_pos hclose]
      apply Outcome.pop
      intro t'' ts'' htok''
      obtain ⟨rfl, rfl⟩ : t' = t'' ∧ ts' = ts'' := List.cons.inj (htok'.symm.trans htok'')
      exact Outcome.one (c := { c with tokens := ts' }) hb' hk'
    · rw [if_neg hclose]
      apply (parsePair_outcome hpv [] { c with tokens := ts }).seq
      · intro c'
        exact ⟨_, rfl⟩
      intro dict c' _
      apply Outcome.pop
      intro t'' ts'' _
      apply (pairLoop_outcome hpv _ t'' dict { c' with tokens := ts'' } (Nat.lt_succ_self _)).last
      · intro c''
        exact ⟨_, rfl⟩
      · intro v c''
        exact ⟨_, rfl⟩
  · rw [if_neg hopen]
    trivial

lemma itemLoop_outcome (fuel : Nat) : ∀ (t : Token) (list : List QObject) (c : Ctx),
    c.tokens.length < fuel →
      Outcome 0 0 (-1) n (t :: c.tokens) (itemLoop parseValue fuel t list c) := by
  induction fuel with
  | zero =>
    intro t list c hf
    omega
  | succ fuel ih =>
    intro t list c hf
    unfold itemLoop
    by_cases hend : tokenIsOperator t 0x5D = true
    · obtain ⟨hb, hk⟩ := count_operator hend (by decide)
      rw [if_pos hend]
      exact Outcome.one hb hk
    rw [if_neg hend]
    by_cases hcomma : tokenIsOperator t 0x2C = true
    · obtain ⟨hb, hk⟩ := count_operator hcomma (by decide)
      rw [if_pos hcomma]
      apply Outcome.cons_zero hb hk
      apply (hpv c).weaken.seq
      · intro c'
        exact ⟨_, rfl⟩
      intro obj c' hlen
      apply Outcome.pop
      intro t' ts htok
      apply ih t' (list ++ [obj]) { c' with tokens := ts }
      rw [htok, length_cons] at hlen
      show ts.length < fuel
      omega
    · rw [if_neg hcomma]
      trivial

lemma parseArray_outcome (c : Ctx) : Outcome 1 0 0 (n + 1) c.tokens (parseArray parseValue c) := by
  apply Outcome.pop
  intro t ts htok
  dsimp only
  by_cases hopen : tokenIsOperator t 0x5B = true
  · obtain ⟨hb, hk⟩ := count_operator hopen (by decide)
    rw [if_pos hopen]
    have hbody : ∀ r : Except Fault (Option QObject × Ctx), Outcome 0 0 (-1) n ts r →
        Outcome 1 0 0 (n + 1) (t :: ts) r := fun r h =>
      h.cons (by rw [hb]; decide) (by rw [hk]; decide) (by rw [hb, hk]; decide) (Nat.le_refl _)
        (by rw [hb]; rfl) (by rw [hk]; rfl)
    apply hbody
    apply Outcome.peek (c := { c with tokens := ts })
    intro t' ts' htok'
    by_cases hclose : tokenIsOperator t' 0x5D = true
    · obtain ⟨hb', hk'⟩ := count_operator hclose (by decide)
      rw [if_pos hclose]
      apply Outcome.pop
      intro t'' ts'' htok''
      obtain ⟨rfl, rfl⟩ : t' = t'' ∧ ts' = ts'' := List.cons.inj (htok'.symm.trans htok'')
      exact Outcome.one (c := { c with tokens := ts' }) hb' hk'
    · rw [if_neg hclose]
      apply (hpv { c with tokens := ts }).weaken.seq
      · intro c'
        exact ⟨_, rfl⟩
      intro obj c' _
      apply Outcome.pop
      intro t'' ts'' _
      apply (itemLoop_outcome hpv _ t'' [obj] { c' with tokens := ts'' }
        (Nat.lt_succ_self _)).last
      · intro c''
        exact ⟨_, rfl⟩
      · intro v c''
        exact ⟨_, rfl⟩
  · rw [if_neg hopen]
    trivial

end

section
variable (parseValue : Ctx → Except Fault (Option QObject × Ctx))

lemma parseObject_restores (c : Ctx) : Restores c.tokens (parseObject parseValue c) := by
  apply Restores.bind
  rintro ⟨t, c₁⟩
  dsimp only
  split
  · apply Restores.bind
    intro peek
    split
    · apply Restores.bind
      intro x
      exact Restores.some _ _
    apply Restores.bind
    rintro ⟨pair, c₂⟩
    cases pair with
    | none => exact Restores.none rfl
    | some dict =>
      apply Restores.bind
      rintro ⟨t', c₃⟩
      apply Restores.bind
      rintro ⟨dict', c₄⟩
      cases dict' with
      | none => exact Restores.none rfl
      | some dict' => exact Restores.some _ _
  · exact Restores.none rfl

lemma parseArray_restores (c : Ctx) : Restores c.tokens (parseArray parseValue c) := by
  apply Restores.bind
  rintro ⟨t, c₁⟩
  dsimp only
  split
  · apply Restores.bind
    intro peek
    split
    · apply Restores.bind
      intro x
      exact Restores.some _ _
    apply Restores.bind
    rintro ⟨obj, c₂⟩
    cases obj with
    | none => exact Restores.none rfl
    | some obj =>
      apply Restores.bind
      rintro ⟨t', c₃⟩
      apply Restores.bind
      rintro ⟨list, c₄⟩
      cases list with
      | none => exact Restores.none rfl
      | some list => exact Restores.some _ _
  · exact Restores.none rfl

end

/-- no pointer passed for `%p` is null -/
def NoNull (ap : Option (Nat → Arg)) : Prop :=
  ∀ args, ap = some args → ∀ i, (args i).pointer ≠ none

lemma escapeObject_type {token : Token} {arg : Arg} {obj : Option QObject}
    (h : escapeObject token arg = some obj) : token.type = .terminal .escape := by
  by_contra hne
  have hno : ∀ value, tokenIsEscape token value = false := by
    intro value
    unfold tokenIsEscape
    rw [beq_false_of_ne hne, Bool.false_and]
  unfold escapeObject at h
  simp only [hno, Bool.false_or, if_false, reduceCtorEq] at h

variable {ap : Option (Nat → Arg)}

lemma parseEscape_outcome (c : Ctx) : Outcome 1 0 0 n c.tokens (parseEscape ap c) := by
  cases ap with
  | none => trivial
  | some args =>
    apply Outcome.pop
    intro t ts htok
    dsimp only
    cases hobj : escapeObject t (args c.taken) with
    | none => trivial
    | some obj =>
      obtain ⟨hb, hk⟩ := count_other (t := t) (by rw [escapeObject_type hobj]; decide)
      cases obj with
      | none => trivial
      | some obj =>
        exact Outcome.one (c := { c with tokens := ts, taken := c.taken + 1 }) hb hk

lemma escapeObject_ne_null {token : Token} {arg : Arg} (h : arg.pointer ≠ none) :
    escapeObject token arg ≠ some none := by
  unfold escapeObject
  intro he
  split at he
  · exact h (Option.some.inj he)
  · repeat' (split at he)
    all_goals cases he

lemma parseEscape_restores (hap : NoNull ap) (c : Ctx) : Restores c.tokens (parseEscape ap c) := by
  cases ap with
  | none => exact Restores.none rfl
  | some args =>
    apply Restores.bind
    rintro ⟨t, c₁⟩
    dsimp only
    cases hobj : escapeObject t (args c₁.taken) with
    | none => exact Restores.none rfl
    | some obj =>
      cases obj with
      | none => exact absurd hobj (escapeObject_ne_null (hap args rfl c₁.taken))
      | some obj => exact Restores.some _ _

lemma parseKeyword_outcome (c : Ctx) : Outcome 1 0 0 n c.tokens (parseKeyword c) := by
  apply Outcome.pop
  intro t ts htok
  dsimp only
  by_cases htype : t.type = .terminal .keyword
  · obtain ⟨hb, hk⟩ := count_other (t := t) (by rw [htype]; decide)
    rw [if_pos htype]
    split
    · exact Outcome.one (c := { c with tokens := ts }) hb hk
    · split
      · exact Outcome.one (c := { c with tokens := ts }) hb hk
      · trivial
  · rw [if_neg htype]
    trivial

lemma parseKeyword_restores (c : Ctx) : Restores c.tokens (parseKeyword c) := by
  apply Restores.bind
  rintro ⟨t, c₁⟩
  dsimp only
  split
  · split
    · exact Restores.some _ _
    · split
      · exact Restores.some _ _
      · exact Restores.none rfl
  · exact Restores.none rfl

lemma parseLiteral_outcome (c : Ctx) : Outcome 1 0 0 n c.tokens (parseLiteral c) := by
  apply Outcome.pop
  intro t ts htok
  dsimp only
  have hother : t.type ≠ .terminal .operator → ∀ v : QObject,
      Outcome 1 0 0 n (t :: ts) (.ok (some v, { c with tokens := ts })) := fun h v =>
    Outcome.one (c := { c with tokens := ts }) (count_other h).1 (count_other h).2
  split
  next htype =>
    split
    · exact hother (by rw [htype]; decide) _
    · trivial
  next htype =>
    split
    · exact hother (by rw [htype]; decide) _
    · exact hother (by rw [htype]; decide) _
  next htype => exact hother (by rw [htype]; decide) _
  next => trivial

lemma parseAlternatives_outcome (hap : NoNull ap)
    {parseValue : Ctx → Except Fault (Option QObject × Ctx)}
    (hpv : ∀ c : Ctx, Outcome 1 0 0 n c.tokens (parseValue c)) (c : Ctx) :
    Outcome 1 0 0 (n + 1) c.tokens (parseAlternatives ap parseValue c) := by
  refine (parseObject_outcome hpv c).or (parseObject_restores parseValue c) (fun _ _ => rfl) ?_
  intro c₁ h1
  rw [← h1]
  refine (parseArray_outcome hpv c₁).or (parseArray_restores parseValue c₁) (fun _ _ => rfl) ?_
  intro c₂ h2
  rw [← h2]
  refine (parseEscape_outcome c₂).or (parseEscape_restores hap c₂) (fun _ _ => rfl) ?_
  intro c₃ h3
  rw [← h3]
  refine (parseKeyword_outcome c₃).or (parseKeyword_restores c₃) (fun _ _ => rfl) ?_
  intro c₄ h4
  rw [← h4]
  exact parseLiteral_outcome c₄

/-- **the whole grammar, by induction on the depth** -/
theorem parseValue_outcome (hap : NoNull ap) (depth : Nat) :
    ∀ c : Ctx, Outcome 1 0 0 depth c.tokens (parseValue ap depth c) := by
  induction depth with
  | zero =>
    intro c
    exact Nat.zero_le _
  | succ depth ih =>
    intro c
    exact parseAlternatives_outcome hap ih c

/-- the message closes something it has not opened, or closes all it has opened -/
def Complete (ts : List Token) : Prop :=
  braces ts < 0 ∨ brackets ts < 0 ∨ (braces ts = 0 ∧ brackets ts = 0)

lemma parse_complete (hap : NoNull ap)
    (h : Complete ts) : ∃ obj, jsonParserParse (some ts) ap = .ok obj := by
  cases ts with
  | nil => exact ⟨none, rfl⟩
  | cons t ts =>
    have hv := parseValue_outcome hap (ts.length + 2) { tokens := t :: ts, taken := 0, err := none }
    show ∃ obj, Except.bind (Except.bind (parseValue ap (ts.length + 2) _) _) _ = .ok obj
    generalize parseValue ap (ts.length + 2) { tokens := t :: ts, taken := 0, err := none } = r at *
    rcases r with e | ⟨v, c⟩
    · cases e with
      | assertion =>
        obtain ⟨h1, h2, h3⟩ := hv
        have h4 := h3 (cons_ne_nil t ts)
        unfold Complete at h
        dsimp only at h1 h2 h4
        omega
      | fuel =>
        have h1 : ts.length + 2 ≤ ts.length + 1 := hv
        omega
    · exact ⟨v, rfl⟩

/-! ## the streamer -/

/-- the streamer counts the braces and brackets of the tokens it holds -/
def Streamer.Counts (parser : Streamer) : Prop :=
  parser.braceCount = braces parser.tokens ∧ parser.bracketCount = brackets parser.tokens

/-- the token does not complete the message, and one of the streamer's limits is passed -/
def LimitPassed (parser : Streamer) (token : Token) : Prop :=
  token.type ≠ .error ∧
    ¬ (parser.braceCount + brace token < 0 ∨ parser.bracketCount + bracket token < 0 ∨
      (parser.braceCount + brace token = 0 ∧ parser.bracketCount + bracket token = 0)) ∧
    (parser.tokenSize + token.text.length > maxTokenSize ∨
      parser.bracketCount + bracket token > maxNesting ∨
      parser.braceCount + brace token > maxNesting)

instance (parser : Streamer) (token : Token) : Decidable (LimitPassed parser token) :=
  inferInstanceAs (Decidable (_ ∧ _ ∧ _))

lemma processToken_step (parser : Streamer) (token : Token) (h : parser.Counts)
    (hl : ¬ LimitPassed parser token) : (processToken parser token).1.Counts ∧
      ∀ e ∈ (processToken parser token).2, ∀ ts, e.tokens = some ts → Complete ts := by
  obtain ⟨h1, h2⟩ := h
  have e1 : braces (parser.tokens ++ [token]) = parser.braceCount + brace token := by
    rw [braces_append, h1]
    exact congrArg _ (Int.add_zero _)
  have e2 : brackets (parser.tokens ++ [token]) = parser.bracketCount + bracket token := by
    rw [brackets_append, h2]
    exact congrArg _ (Int.add_zero _)
  unfold processToken
  by_cases herr : token.type = .error
  · rw [if_pos herr]
    refine ⟨⟨rfl, rfl⟩, fun e he ts hts => ?_⟩
    rw [List.mem_singleton.mp he] at hts
    cases hts
  · rw [if_neg herr]
    split
    next hc =>
      refine ⟨⟨rfl, rfl⟩, fun e he ts hts => ?_⟩
      rw [List.mem_singleton.mp he] at hts
      obtain rfl := Option.some.inj hts
      unfold Complete
      rw [e1, e2]
      exact hc
    next hc =>
      rw [if_neg fun hlim => hl ⟨herr, hc, hlim⟩]
      exact ⟨⟨e1.symm, e2.symm⟩, fun e he => absurd he not_mem_nil⟩

/-- **No list handed on in a run that passes no limit makes the parser run off its end.** -/
theorem parser_stays_inside (inputs : List Input) (ap : Option (Nat → Arg)) (hap : NoNull ap)
    (hlimit : Transduce.Meets processToken (fun parser token => ¬ LimitPassed parser token) .init
      (lexAll inputs)) :
    ∀ e ∈ (feedAll jsonMessageParserInit inputs).2, ∃ obj, jsonParserParse e.tokens ap = .ok obj := by
  intro e he
  rw [feedAll_eq] at he
  have h := (Transduce.run_out processToken_step (show Streamer.init.Counts from ⟨rfl, rfl⟩)
    hlimit).2 e he
  cases ht : e.tokens with
  | none => exact ⟨none, rfl⟩
  | some ts => exact parse_complete hap (h ts ht)

/-- the message `[1]` in two chunks -/
theorem parser_stays_inside_list :
    (feedAll jsonMessageParserInit [.feed [0x5B, 0x31], .feed [0x5D], .flush]).2.length = 1 ∧
      ∀ e ∈ (feedAll jsonMessageParserInit [.feed [0x5B, 0x31], .feed [0x5D], .flush]).2,
        ∃ obj, jsonParserParse e.tokens none = .ok obj :=
  ⟨by decide +kernel, parser_stays_inside _ none (fun _ h => nomatch h) (by decide +kernel)⟩

/-! ## opening brackets only -/

def IsOpen (t : Token) : Prop := t.type = .terminal .operator ∧ t.text = [0x5B]

lemma IsOpen.operator (h : IsOpen t) (op : Byte) :
    tokenIsOperator t op = ((0x5B : Byte) == op) := by
  unfold tokenIsOperator
  rw [h.1, h.2]
  exact Bool.and_true _

lemma IsOpen.count (h : IsOpen t) : brace t = 0 ∧ bracket t = 1 := by
  have hop : tokenIsOperator t 0x5B = true := (h.operator 0x5B).trans rfl
  exact count_operator hop (by decide)

lemma parseValue_open (depth : Nat) : ∀ c : Ctx, (∀ t ∈ c.tokens, IsOpen t) →
    c.tokens.length < depth → parseValue none depth c = .error .assertion := by
  induction depth with
  | zero =>
    intro c _ hd
    omega
  | succ depth ih =>
    intro c hopen hd
    show Except.bind (parseObject (parseValue none depth) c) _ = _
    cases htok : c.tokens with
    | nil =>
      have hp : parserContextPopToken c = .error .assertion := by
        unfold parserContextPopToken
        rw [htok]
      unfold parseObject
      rw [hp]
      rfl
    | cons t ts =>
      rw [htok] at hopen hd
      have ht := (hopen t mem_cons_self).operator
      have hobj : parseObject (parseValue none depth) c = .ok (none, c) :=
        parseObject_pass htok (ht 0x7B)
      have harr : parseArray (parseValue none depth) c = .error .assertion := by
        unfold parseArray parserContextPopToken
        rw [htok]
        show (if tokenIsOperator t 0x5B then Except.bind (parserContextPeekToken _) _ else _) = _
        rw [ht]
        cases ts with
        | nil => rfl
        | cons t' ts =>
          show (if tokenIsOperator t' 0x5D then _ else Except.bind (parseValue none depth _) _) = _
          rw [(hopen t' (mem_cons_of_mem t mem_cons_self)).operator,
            ih { c with tokens := t' :: ts } (fun x hx => hopen x (mem_cons_of_mem t hx))
              (Nat.lt_of_succ_lt_succ hd)]
          rfl
      rw [hobj]
      show Except.bind (parseArray (parseValue none depth) c) _ = _
      rw [harr]
      rfl

lemma jsonParserParse_open (hne : ts ≠ []) (h : ∀ t ∈ ts, IsOpen t) :
    jsonParserParse (some ts) none = .error .assertion := by
  cases ts with
  | nil => exact absurd rfl hne
  | cons t ts =>
    show Except.bind (Except.bind (parseValue none (ts.length + 2) _) _) _ = _
    rw [parseValue_open (ts.length + 2) { tokens := t :: ts, taken := 0, err := none } h
      (Nat.lt_succ_self _)]
    rfl

/-- `k` opening brackets have been fed -/
structure Opened (k : Nat) (parser : MessageParser) : Prop where
  state : parser.lexer.state = .inStart
  token : parser.lexer.token = []
  braceCount : parser.streamer.braceCount = 0
  bracketCount : parser.streamer.bracketCount = k
  tokenSize : parser.streamer.tokenSize = k
  tokens : ∀ t ∈ parser.streamer.tokens, IsOpen t

lemma lex_open {l : Lexer} (hs : l.state = .inStart) (ht : l.token = []) :
    ∃ l' t, jsonLexerFeedChar l 0x5B false = (l', [t]) ∧ l'.state = .inStart ∧ l'.token = [] ∧
      IsOpen t := by
  have hs' : (l.advance 0x5B).state = .inStart := hs
  have hnext : jsonLexer (l.advance 0x5B).state 0x5B = .terminal .operator := by
    rw [hs']
    rfl
  have hlook : terminalNeededLookahead (l.advance 0x5B).state (.terminal .operator) = false := by
    rw [hs']
    rfl
  have hpush : ((l.advance 0x5B).push 0x5B).token = [0x5B] := by
    show l.token ++ [0x5B] = [0x5B]
    rw [ht]
    rfl
  refine ⟨(l.advance 0x5B).reset, ((l.advance 0x5B).push 0x5B).emit (.terminal .operator), ?_, rfl,
    rfl, rfl, hpush⟩
  unfold jsonLexerFeedChar
  rw [feedLoop_accept hnext hlook]
  rfl

variable {parser : MessageParser}

lemma processToken_open {k : Nat} (h : Opened k parser)
    (ht : IsOpen t) : processToken parser.streamer t =
      if (k : Int) + 1 > maxNesting ∨ k + 1 > maxTokenSize then
        (.init, [{ tokens := some (parser.streamer.tokens ++ [t]), limit := true }])
      else ({ braceCount := 0, bracketCount := k + 1, tokens := parser.streamer.tokens ++ [t],
              tokenSize := k + 1 }, []) := by
  have hne : t.type ≠ .error := by
    rw [ht.1]
    decide
  unfold processToken
  simp only [h.braceCount, h.bracketCount, h.tokenSize, ht.count.1, ht.count.2, ht.2, if_neg hne]
  rw [if_neg (by omega)]
  by_cases hl : (k : Int) + 1 > maxNesting ∨ k + 1 > maxTokenSize
  · rw [if_pos hl, if_pos (hl.elim (fun h1 => .inr (.inl h1)) .inl)]
  rw [if_neg hl, if_neg]
  · rfl
  · rintro (h1 | h1 | h1)
    · exact hl (.inr h1)
    · exact hl (.inl h1)
    · cases h1

lemma feedChar_open {k : Nat} (h : Opened k parser) (hk : k < 1024) :
    ∃ parser', feedChar parser 0x5B false = (parser', []) ∧ Opened (k + 1) parser' := by
  obtain ⟨l, t, hlex, hs, htok, ht⟩ := lex_open h.state h.token
  have hstep := processToken_open h ht
  rw [if_neg (by unfold maxNesting maxTokenSize; omega)] at hstep
  refine ⟨⟨l, ⟨0, k + 1, parser.streamer.tokens ++ [t], k + 1⟩⟩, ?_, ⟨hs, htok, rfl, rfl, rfl, ?_⟩⟩
  · unfold feedChar
    rw [hlex]
    dsimp only
    rw [Transduce.run_singleton, hstep]
  · exact forall_mem_append.mpr ⟨h.tokens, forall_mem_singleton.mpr ht⟩

lemma feedChar_open_last (h : Opened 1024 parser) :
    ∃ parser' ts, feedChar parser 0x5B false = (parser', [{ tokens := some ts, limit := true }]) ∧
      ts ≠ [] ∧ ∀ t ∈ ts, IsOpen t := by
  obtain ⟨l, t, hlex, hs, htok, ht⟩ := lex_open h.state h.token
  have hstep := processToken_open h ht
  rw [if_pos (.inl (by decide))] at hstep
  refine ⟨{ lexer := l, streamer := .init }, parser.streamer.tokens ++ [t], ?_,
    concat_ne_nil t _, ?_⟩
  · unfold feedChar
    rw [hlex]
    dsimp only
    rw [Transduce.run_singleton, hstep]
  · exact forall_mem_append.mpr ⟨h.tokens, forall_mem_singleton.mpr ht⟩

lemma feed_open (k : Nat) (hk : k ≤ 1024) :
    Opened k (jsonMessageParserFeed jsonMessageParserInit (List.replicate k 0x5B)).1 := by
  induction k with
  | zero => exact ⟨rfl, rfl, rfl, rfl, rfl, fun t ht => absurd ht not_mem_nil⟩
  | succ k ih =>
    obtain ⟨parser', h1, h2⟩ := feedChar_open (ih (by omega)) (by omega)
    unfold jsonMessageParserFeed at h1 ⊢
    rw [replicate_succ', Transduce.run_append, Transduce.run_singleton, h1]
    exact h2

/-- the list handed on after 1025 opening brackets -/
theorem open_brackets_run_off :
    ∃ e ∈ (feedAll jsonMessageParserInit [.feed (List.replicate 1025 0x5B)]).2,
      jsonParserParse e.tokens none = .error .assertion := by
  obtain ⟨parser', ts, h1, hne, hopen⟩ := feedChar_open_last (feed_open 1024 (Nat.le_refl _))
  refine ⟨{ tokens := some ts, limit := true }, ?_, jsonParserParse_open hne hopen⟩
  show _ ∈ (Transduce.run Input.apply jsonMessageParserInit [.feed (List.replicate 1025 0x5B)]).2
  rw [Transduce.run_singleton]
  show _ ∈ (Transduce.run (feedChar · · false) jsonMessageParserInit (List.replicate (1024 + 1) 0x5B)).2
  unfold jsonMessageParserFeed at h1
  rw [replicate_succ', Transduce.run_append, Transduce.run_singleton, h1]
  exact mem_append_right _ (List.mem_singleton.mpr rfl)

end Qjson
