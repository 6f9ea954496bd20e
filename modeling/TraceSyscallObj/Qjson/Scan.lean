import TraceSyscallObj.Qjson.Text

/-!
# The lexer on printed text

Between two tokens the lexer is at the start, in white space, or holds a number or a keyword that
the next character ends.  `Rest` says which, with what is still to be put out.

* `walk`: the states along a text in which no token ends;
* `items`: type and text of the tokens that an object is printed as;
* `scan_value`: the lexer makes these tokens of the printed object.
-/

namespace Qjson
open List

abbrev Item := TokenType × List Byte

def Token.item (t : Token) : Item := (t.type, t.text)

abbrev lexRun (l : Lexer) (cs : List Byte) : Lexer × List Token :=
  Transduce.run (jsonLexerFeedChar · · false) l cs

/-! ## inside a token -/

def walk : State → List Byte → Option State
  | s, [] => some s
  | s, c :: cs =>
    match jsonLexer s c with
    | .state s' => if s' = .inError then none else walk s' cs
    | .terminal _ => none

variable {s s' : State} {c : Byte} {cs : List Byte}

lemma walk_cons (h : jsonLexer s c = .state s')
    (hs : s' ≠ .inError) : walk s (c :: cs) = walk s' cs := by
  rw [walk, h]
  exact if_neg hs

lemma walk_cons_some (h : walk s (c :: cs) = some s') :
    ∃ s₁, jsonLexer s c = .state s₁ ∧ s₁ ≠ .inError ∧ walk s₁ cs = some s' := by
  rw [walk] at h
  cases hn : jsonLexer s c with
  | terminal t =>
    rw [hn] at h
    cases h
  | state s₁ =>
    rw [hn] at h
    have h1 : (if s₁ = .inError then none else walk s₁ cs) = some s' := h
    by_cases he : s₁ = .inError
    · rw [if_pos he] at h1
      cases h1
    · rw [if_neg he] at h1
      exact ⟨s₁, rfl, he, h1⟩

variable {ds : List Byte}

lemma walk_append {s₁ s₂ : State} (h1 : walk s cs = some s₁)
    (h2 : walk s₁ ds = some s₂) : walk s (cs ++ ds) = some s₂ := by
  induction cs generalizing s with
  | nil =>
    obtain rfl := Option.some.inj h1
    exact h2
  | cons c cs ih =>
    obtain ⟨s', hn, he, hw⟩ := walk_cons_some h1
    rw [cons_append, walk_cons hn he]
    exact ih hw

variable {l : Lexer}

lemma advance_state (l : Lexer) (c : Byte) : (l.advance c).state = l.state := by
  unfold Lexer.advance
  split <;> rfl

lemma advance_token (l : Lexer) (c : Byte) : (l.advance c).token = l.token := by
  unfold Lexer.advance
  split <;> rfl

lemma feedChar_step (h : jsonLexer l.state c = .state s) (hs : s ≠ .inError) :
    jsonLexerFeedChar l c false = limitToken ({ (l.advance c).push c with state := s }, [], false) := by
  unfold jsonLexerFeedChar
  rw [feedLoop_goto ((advance_state l c).symm ▸ h) hs]

lemma length_push_advance (l : Lexer) (c : Byte) :
    ((l.advance c).push c).token.length = l.token.length + 1 := by
  show ((l.advance c).token ++ [c]).length = _
  rw [advance_token, length_append]
  rfl

lemma feedChar_goto (h : jsonLexer l.state c = .state s) (hs : s ≠ .inError)
    (hlen : l.token.length + 1 ≤ maxTokenSize) :
    jsonLexerFeedChar l c false = ({ (l.advance c).push c with state := s }, []) := by
  rw [feedChar_step h hs, limitToken, if_neg Bool.false_ne_true, if_neg]
  exact Nat.not_lt_of_le ((length_push_advance l c).symm ▸ hlen)

lemma lexRun_walk (cs : List Byte) : ∀ {l : Lexer}, walk l.state cs = some s →
    l.token.length + cs.length ≤ maxTokenSize →
    ∃ l', lexRun l cs = (l', []) ∧ l'.state = s ∧ l'.token = l.token ++ cs := by
  induction cs with
  | nil =>
    intro l hw _
    exact ⟨l, rfl, Option.some.inj hw, (append_nil _).symm⟩
  | cons c cs ih =>
    intro l hw hlen
    rw [length_cons] at hlen
    obtain ⟨s', hn, he, hw⟩ := walk_cons_some hw
    have hstep := feedChar_goto hn he (by omega)
    have hlen' := length_push_advance l c
    obtain ⟨l', h1, h2, h3⟩ := ih (l := { (l.advance c).push c with state := s' }) hw
      (by show ((l.advance c).push c).token.length + cs.length ≤ maxTokenSize; omega)
    refine ⟨l', ?_, h2, ?_⟩
    · rw [lexRun, Transduce.run_cons, hstep]
      exact h1
    · rw [h3]
      show (l.advance c).token ++ [c] ++ cs = _
      rw [advance_token, append_assoc]
      rfl

lemma walk_ucode (n : Nat) : walk .inDqString (ucodeEscape n) = some .inDqString := by
  have hdigit : ∀ m, ∀ s, ucode s (hexDigit (m % 16)).toNat = .state s := fun m s =>
    if_pos (hexDigit_digit (m % 16) (Nat.mod_lt m (by decide))).1
  have h0 : ∀ m, jsonLexer .inDqUcode0 (hexDigit (m % 16)) = .state .inDqUcode1 := fun m => hdigit m _
  have h1 : ∀ m, jsonLexer .inDqUcode1 (hexDigit (m % 16)) = .state .inDqUcode2 := fun m => hdigit m _
  have h2 : ∀ m, jsonLexer .inDqUcode2 (hexDigit (m % 16)) = .state .inDqUcode3 := fun m => hdigit m _
  have h3 : ∀ m, jsonLexer .inDqUcode3 (hexDigit (m % 16)) = .state .inDqString := fun m => hdigit m _
  unfold ucodeEscape
  rw [walk_cons (show jsonLexer .inDqString 0x5C = .state .inDqStringEscape from rfl) (by decide),
    walk_cons (show jsonLexer .inDqStringEscape 0x75 = .state .inDqUcode0 from rfl) (by decide),
    walk_cons (h0 _) (by decide), walk_cons (h1 _) (by decide), walk_cons (h2 _) (by decide),
    walk_cons (h3 _) (by decide)]
  rfl

lemma walk_escapeCp {cp : Nat} (h : cp ≤ 0xFFFF) :
    walk .inDqString (escapeCp (some cp)) = some .inDqString := by
  unfold escapeCp
  simp only [Option.getD_some]
  repeat
    split
    · rfl
  rw [if_neg (by omega)]
  split
  · exact walk_ucode cp
  next hquote hback _ _ _ _ _ hasc =>
    have hn : (BitVec.ofNat 8 cp).toNat = cp := toNat_byte (by omega)
    have hnext : jsonLexer .inDqString (BitVec.ofNat 8 cp) = .state .inDqString := by
      show stringChar .inDqString .inDqStringEscape 0x22 (BitVec.ofNat 8 cp).toNat = _
      unfold stringChar
      rw [hn, if_neg hquote, if_neg hback, if_pos (by omega)]
    rw [walk_cons hnext (by decide)]
    rfl

lemma walk_escaped (cps : List Nat) (h : ∀ cp ∈ cps, PlainCp cp) :
    walk .inDqString (escaped cps) = some .inDqString := by
  induction cps with
  | nil => rfl
  | cons cp cps ih =>
    obtain ⟨hcp, hcps⟩ := List.forall_mem_cons.mp h
    exact walk_append (walk_escapeCp hcp.2.1) (ih hcps)

lemma walk_digits (cs : List Byte) (h : ∀ c ∈ cs, Digit c.toNat) :
    walk .inNonzeroNumber cs = some .inNonzeroNumber := by
  induction cs with
  | nil => rfl
  | cons c cs ih =>
    obtain ⟨hc, hcs⟩ := List.forall_mem_cons.mp h
    have hnext : jsonLexer .inNonzeroNumber c = .state .inNonzeroNumber := if_pos hc
    rw [walk_cons hnext (by decide)]
    exact ih hcs

/-! ## between tokens -/

/-- states in which the next character ends a token -/
inductive Holds : State → Terminal → Prop
  | zero : Holds .inZero .integer
  | nonzero : Holds .inNonzeroNumber .integer
  | keyword : Holds .inKeyword .keyword

/-- Between two tokens: the last list is what is still to be put out; `w` bounds the white space
the lexer holds. -/
inductive Rest : Lexer → Nat → List Item → Prop
  | start {l : Lexer} {w : Nat} (hs : l.state = .inStart) (ht : l.token = []) : Rest l w []
  | white {l : Lexer} {w : Nat} (hs : l.state = .inWhitespace) (ht : l.token.length ≤ w) : Rest l w []
  | value {l : Lexer} {w : Nat} {t : Terminal} (hs : Holds l.state t) :
    Rest l w [(.terminal t, l.token)]

/-- the characters after a number or a keyword in printed text -/
abbrev Delimiter (n : Nat) : Prop :=
  n = 0x2C ∨ n = 0x3A ∨ n = 0x5B ∨ n = 0x5D ∨ n = 0x7B ∨ n = 0x7D ∨ White n

lemma Holds.next {t : Terminal} (h : Holds s t) (hc : Delimiter c.toNat) :
    jsonLexer s c = .terminal t ∧ terminalNeededLookahead s (.terminal t) = true ∧ t ≠ .skip := by
  cases h with
  | zero =>
    refine ⟨?_, rfl, by decide⟩
    show (if _ then _ else if _ then _ else if _ then _ else _) = _
    rw [if_neg (by omega), if_neg (by omega), if_pos (by omega)]
  | nonzero =>
    refine ⟨?_, rfl, by decide⟩
    show (if _ then _ else if _ then _ else if _ then _ else if _ then _ else _) = _
    rw [if_neg (by omega), if_neg (by omega), if_neg (by omega), if_pos (by omega)]
  | keyword =>
    refine ⟨?_, rfl, by decide⟩
    show (if _ then _ else if _ then _ else _) = _
    rw [if_neg (by omega), if_pos (by omega)]

variable {w : Nat} {pend : List Item}

lemma Rest.break (h : Rest l w pend) (hc : Ascii c.toNat) (hd : pend ≠ [] → Delimiter c.toNat)
    (hw : White c.toNat → l.state ≠ .inWhitespace) :
    ∃ l₀ toks, l₀.state = .inStart ∧ l₀.token = [] ∧ toks.map Token.item = pend ∧
      feedLoop c false 2 (l.advance c) = ((feedLoop c false 1 l₀).1,
        toks ++ (feedLoop c false 1 l₀).2.1, (feedLoop c false 1 l₀).2.2) := by
  cases h with
  | start hs ht =>
    have hs' : (l.advance c).state = .inStart := (advance_state l c).trans hs
    exact ⟨l.advance c, [], hs', (advance_token l c).trans ht, rfl, feedLoop_start c false 1 hs'⟩
  | white hs ht =>
    have hs' : (l.advance c).state = .inWhitespace := (advance_state l c).trans hs
    have hnext : jsonLexer (l.advance c).state c = .terminal .skip := by
      rw [hs']
      show (if _ then _ else if _ then _ else _) = _
      rw [if_neg (fun h => hw h hs), if_pos hc]
    have hlook : terminalNeededLookahead (l.advance c).state (.terminal .skip) = true := by
      rw [hs']
      rfl
    exact ⟨(l.advance c).reset, [], rfl, rfl, rfl, feedLoop_lookahead hnext hlook⟩
  | @value t hs =>
    obtain ⟨hnext, hlook, hskip⟩ := hs.next (hd (cons_ne_nil _ _))
    rw [← advance_state l c] at hnext hlook
    refine ⟨(l.advance c).reset, (l.advance c).accept t, rfl, rfl, ?_, feedLoop_lookahead hnext hlook⟩
    unfold Lexer.accept
    rw [if_neg hskip]
    show [(TokenType.terminal t, (l.advance c).token)] = _
    rw [advance_token]

abbrev Operator (n : Nat) : Prop :=
  n = 0x2C ∨ n = 0x3A ∨ n = 0x5B ∨ n = 0x5D ∨ n = 0x7B ∨ n = 0x7D

lemma jsonLexer_operator (h : Operator c.toNat) : jsonLexer .inStart c = .terminal .operator := by
  unfold jsonLexer
  dsimp only
  rw [if_neg (by omega), if_neg (by omega), if_neg (by omega), if_neg (by omega), if_neg (by omega),
    if_pos (by omega)]

lemma jsonLexer_white (h : White c.toNat) : jsonLexer .inStart c = .state .inWhitespace := by
  unfold jsonLexer
  dsimp only
  rw [if_neg (by omega), if_neg (by omega), if_neg (by omega), if_neg (by omega), if_neg (by omega),
    if_neg (by omega), if_neg (by omega), if_neg (by omega), if_pos h]

lemma feed_operator (h : Rest l w pend)
    (hc : Operator c.toNat) : ∃ l' toks, jsonLexerFeedChar l c false = (l', toks) ∧
      toks.map Token.item = pend ++ [(.terminal .operator, [c])] ∧ Rest l' 0 [] := by
  have hd : pend ≠ [] → Delimiter c.toNat := fun _ => by
    omega
  obtain ⟨l₀, toks, hs, ht, hitem, hloop⟩ := h.break (c := c) (by omega) hd (by omega)
  have hnext : jsonLexer l₀.state c = .terminal .operator := hs ▸ jsonLexer_operator hc
  have hlook : terminalNeededLookahead l₀.state (.terminal .operator) = false := hs ▸ rfl
  rw [feedLoop_accept hnext hlook] at hloop
  refine ⟨l₀.reset, toks ++ (l₀.push c).accept .operator, ?_, ?_, .start rfl rfl⟩
  · unfold jsonLexerFeedChar
    rw [hloop]
    rfl
  · rw [map_append, hitem]
    show pend ++ [(TokenType.terminal .operator, l₀.token ++ [c])] = _
    rw [ht]
    rfl

lemma feed_first (h : Rest l w pend) (hnext : jsonLexer .inStart c = .state s) (hs : s ≠ .inError)
    (hc : Ascii c.toNat) (hd : pend ≠ [] → Delimiter c.toNat)
    (hw : White c.toNat → l.state ≠ .inWhitespace) :
    ∃ l' toks, jsonLexerFeedChar l c false = (l', toks) ∧ toks.map Token.item = pend ∧
      l'.state = s ∧ l'.token = [c] := by
  obtain ⟨l₀, toks, hs₀, ht, hitem, hloop⟩ := h.break hc hd hw
  have hpush : (l₀.push c).token = [c] := by
    show l₀.token ++ [c] = [c]
    rw [ht]
    rfl
  have hone : feedLoop c false 1 l₀ = _ := feedLoop_goto (hs₀.symm ▸ hnext) hs
  rw [hone] at hloop
  refine ⟨{ l₀.push c with state := s }, toks ++ [], ?_, ?_, rfl, hpush⟩
  · unfold jsonLexerFeedChar
    rw [hloop]
    unfold limitToken
    rw [if_neg Bool.false_ne_true, if_neg]
    rw [hpush]
    show ¬ 1 > maxTokenSize
    decide
  · rw [append_nil, hitem]

lemma feed_white (h : Rest l w pend) (hc : White c.toNat) (hlen : w + 1 ≤ maxTokenSize) :
    ∃ l' toks, jsonLexerFeedChar l c false = (l', toks) ∧ toks.map Token.item = pend ∧
      Rest l' (w + 1) [] := by
  by_cases hs : l.state = .inWhitespace
  · cases h with
    | start hs' ht | value hs' => rw [hs] at hs'; cases hs'
    | white _ ht =>
      have hnext : jsonLexer l.state c = .state .inWhitespace := by
        rw [hs]
        exact if_pos hc
      refine ⟨_, [], feedChar_goto hnext (by decide) (by omega), rfl, .white rfl ?_⟩
      show ((l.advance c).token ++ [c]).length ≤ w + 1
      rw [advance_token, length_append]
      exact Nat.succ_le_succ ht
  · obtain ⟨l', toks, h1, h2, h3, h4⟩ := feed_first h (jsonLexer_white hc) (by decide) (by omega)
      (fun _ => by unfold Delimiter; omega) (fun _ => hs)
    refine ⟨l', toks, h1, h2, .white h3 ?_⟩
    rw [h4]
    exact Nat.succ_le_succ (Nat.zero_le w)

/-! ## pieces of printed text -/

/-- from `l` the text `cs` gives the items `out`, and then `pend` is still to be put out -/
def Scans (l : Lexer) (cs : List Byte) (out : List Item) (w : Nat) (pend : List Item) : Prop :=
  ∃ l' toks, lexRun l cs = (l', toks) ∧ toks.map Token.item = out ∧ Rest l' w pend

variable {out : List Item} {w' : Nat}

lemma Scans.append {out' pend' : List Item} (h1 : Scans l cs out w pend)
    (h2 : ∀ l', Rest l' w pend → Scans l' ds out' w' pend') :
    Scans l (cs ++ ds) (out ++ out') w' pend' := by
  obtain ⟨l₁, toks₁, g1, g2, g3⟩ := h1
  obtain ⟨l₂, toks₂, k1, k2, k3⟩ := h2 l₁ g3
  refine ⟨l₂, toks₁ ++ toks₂, ?_, ?_, k3⟩
  · rw [lexRun, Transduce.run_append]
    rw [lexRun] at g1 k1
    rw [g1, k1]
  · rw [map_append, g2, k2]

lemma Scans.nil (h : Rest l w pend) :
    Scans l [] [] w pend := ⟨l, [], rfl, rfl, h⟩

lemma Rest.mono (h : Rest l w pend) (hw : w ≤ w') : Rest l w' pend := by
  cases h with
  | start hs ht => exact .start hs ht
  | white hs ht => exact .white hs (Nat.le_trans ht hw)
  | value hs => exact .value hs

lemma Scans.mono (h : Scans l cs out w pend) (hw : w ≤ w') : Scans l cs out w' pend := by
  obtain ⟨l', toks, h1, h2, h3⟩ := h
  exact ⟨l', toks, h1, h2, h3.mono hw⟩

lemma scan_operator (h : Rest l w pend)
    (hc : Operator c.toNat) : Scans l [c] (pend ++ [(.terminal .operator, [c])]) 0 [] := by
  obtain ⟨l', toks, h1, h2, h3⟩ := feed_operator h hc
  exact ⟨l', toks, (Transduce.run_singleton _ _).trans h1, h2, h3⟩

lemma scan_white (ws : List Byte) : ∀ {l : Lexer} {w : Nat} {pend : List Item}, Rest l w pend →
    (∀ c ∈ ws, White c.toNat) → ws ≠ [] → w + ws.length ≤ maxTokenSize →
      Scans l ws pend (w + ws.length) [] := by
  induction ws with
  | nil =>
    intro l w pend _ _ hne
    exact absurd rfl hne
  | cons c ws ih =>
    intro l w pend h hws _ hlen
    rw [length_cons] at hlen ⊢
    obtain ⟨hc, hws⟩ := List.forall_mem_cons.mp hws
    obtain ⟨l', toks, h1, h2, h3⟩ := feed_white h hc (by omega)
    have hfirst : Scans l [c] pend (w + 1) [] :=
      ⟨l', toks, (Transduce.run_singleton _ _).trans h1, h2, h3⟩
    cases ws with
    | nil => exact hfirst
    | cons d ws =>
      have h := hfirst.append fun l' hl => ih hl hws (cons_ne_nil d ws) (by omega)
      rw [append_nil] at h
      rw [show w + ((d :: ws).length + 1) = w + 1 + (d :: ws).length by omega]
      exact h

section
variable (h : Rest l w []) (hnext : jsonLexer .inStart c = .state s) (hs : s ≠ .inError)
  (hc : Ascii c.toNat)
include h hnext hs hc

section
variable (hnw : ¬ White c.toNat) (hw : walk s cs = some s') (hlen : cs.length + 1 ≤ maxTokenSize)
include hnw hw hlen

lemma scan_walk : ∃ l', lexRun l (c :: cs) = (l', []) ∧ l'.state = s' ∧ l'.token = c :: cs := by
  obtain ⟨l₁, toks, h1, h2, h3, h4⟩ := feed_first h hnext hs hc (fun hne => absurd rfl hne)
    (fun hw => absurd hw hnw)
  obtain rfl := List.map_eq_nil_iff.mp h2
  obtain ⟨l', g1, g2, g3⟩ := lexRun_walk cs (h3.symm ▸ hw)
    (by rw [h4]; show 1 + cs.length ≤ maxTokenSize; omega)
  refine ⟨l', ?_, g2, ?_⟩
  · rw [lexRun, Transduce.run_cons, h1]
    exact g1
  · rw [g3, h4]
    rfl

lemma scan_held {t : Terminal} (hold : Holds s' t) :
    Scans l (c :: cs) [] 0 [(.terminal t, c :: cs)] := by
  obtain ⟨l', h1, h2, h3⟩ := scan_walk h hnext hs hc hnw hw hlen
  refine ⟨l', [], h1, rfl, ?_⟩
  rw [← h3]
  exact .value (h2 ▸ hold)

end

end

lemma scan_bool (h : Rest l w []) (b : Bool) :
    Scans l (if b then bytes "true" else bytes "false") [] 0
      [(.terminal .keyword, if b then bytes "true" else bytes "false")] := by
  cases b with
  | true =>
    exact scan_held h (s := .inKeyword) rfl (by decide) (by decide) (by decide) rfl (by decide)
      .keyword
  | false =>
    exact scan_held h (s := .inKeyword) rfl (by decide) (by decide) (by decide) rfl (by decide)
      .keyword

lemma jsonLexer_digit (h : 0x31 ≤ c.toNat ∧ c.toNat ≤ 0x39) :
    jsonLexer .inStart c = .state .inNonzeroNumber := by
  unfold jsonLexer
  dsimp only
  rw [if_neg (by omega), if_neg (by omega), if_neg (by omega), if_pos (by omega)]

lemma scan_int (h : Rest l w []) (value : BitVec 64) :
    Scans l (decimal value) [] 0 [(.terminal .integer, decimal value)] := by
  have h1 : value.toInt < 9223372036854775808 := value.toInt_lt
  have h2 : -9223372036854775808 ≤ value.toInt := value.le_toInt
  have hbound : value.toInt.natAbs < 10 ^ 19 := by
    omega
  have hlen := length_decimalLoop 19 value.toInt.natAbs
  have hdigit := decimalLoop_digit 19 value.toInt.natAbs
  unfold decimal
  by_cases hneg : value.toInt < 0
  · obtain ⟨c, cs, he, hc⟩ := decimalLoop_head 19 value.toInt.natAbs (by omega) hbound
    rw [if_pos hneg, he]
    rw [he] at hlen hdigit
    rw [length_cons] at hlen
    have hnext : jsonLexer .inNegNonzeroNumber c = .state .inNonzeroNumber := by
      show (if _ then _ else if _ then _ else _) = _
      rw [if_neg (by omega), if_pos (by omega)]
    have hw : walk .inNegNonzeroNumber (c :: cs) = some .inNonzeroNumber := by
      rw [walk_cons hnext (by decide)]
      exact walk_digits cs (fun x hx => hdigit x (mem_cons_of_mem c hx))
    refine scan_held h (s := .inNegNonzeroNumber) rfl (by decide) (by decide) (by decide) hw ?_ .nonzero
    rw [length_cons]
    unfold maxTokenSize
    omega
  · rw [if_neg hneg]
    by_cases hzero : value.toInt = 0
    · rw [hzero]
      exact scan_held h (s := .inZero) rfl (by decide) (by decide) (by decide) rfl (by decide) .zero
    obtain ⟨c, cs, he, hc⟩ := decimalLoop_head 19 value.toInt.natAbs (by omega) hbound
    rw [he] at hlen hdigit ⊢
    rw [length_cons] at hlen
    refine scan_held h (jsonLexer_digit hc) (by decide) (by omega) (by omega)
      (walk_digits cs (fun x hx => hdigit x (mem_cons_of_mem c hx))) ?_ .nonzero
    unfold maxTokenSize
    omega

lemma lexRun_close {l₁ : Lexer} (h : lexRun l cs = (l₁, []))
    (hnext : jsonLexer l₁.state c = .terminal .string)
    (hlook : terminalNeededLookahead l₁.state (.terminal .string) = false) :
    lexRun l (cs ++ [c])
      = ((l₁.advance c).reset, [((l₁.advance c).push c).emit (.terminal .string)]) := by
  rw [← advance_state l₁ c] at hnext hlook
  rw [lexRun] at h ⊢
  rw [Transduce.run_append, h, Transduce.run_singleton]
  unfold jsonLexerFeedChar
  rw [feedLoop_accept hnext hlook]
  rfl

lemma scan_string (h : Rest l w []) {cps : List Nat} (hcps : ∀ cp ∈ cps, PlainCp cp)
    (hlen : (quoted (cps.flatMap utf8)).length ≤ maxTokenSize + 1) :
    Scans l (quoted (cps.flatMap utf8)) [(.terminal .string, quoted (cps.flatMap utf8))] 0 [] := by
  rw [quoted_utf8 hcps] at hlen ⊢
  rw [length_append, length_append] at hlen
  obtain ⟨l₁, h1, h2, h3⟩ := scan_walk h (c := 0x22) (s := .inDqString) rfl (by decide) (by decide)
    (by decide) (walk_escaped cps hcps) (by
      have h1 : [(0x22 : Byte)].length = 1 := rfl
      omega)
  refine ⟨_, _, lexRun_close h1 (by rw [h2]; rfl) (by rw [h2]; rfl), ?_, .start rfl rfl⟩
  show [(TokenType.terminal .string, (l₁.advance 0x22).token ++ [0x22])] = _
  rw [advance_token, h3]
  rfl

/-! ## objects -/

/-- a string of code points for which printing and parsing agree -/
def Text (str : List Byte) : Prop :=
  ∃ cps : List Nat, (∀ cp ∈ cps, PlainCp cp) ∧ str = cps.flatMap utf8

/-- an object of integers, booleans, such strings, lists and dictionaries, nested at most `depth`
deep; the keys of a dictionary are distinct -/
inductive Built : Nat → QObject → Prop
  | int {depth : Nat} (value : BitVec 64) : Built depth (.int value)
  | bool {depth : Nat} (value : Bool) : Built depth (.bool value)
  | string {depth : Nat} {str : List Byte} (h : Text str) : Built depth (.string str)
  | list {depth : Nat} {items : List QObject} (h : ∀ x ∈ items, Built depth x) :
    Built (depth + 1) (.list items)
  | dict {depth : Nat} {entries : Entries} (hnodup : (entries.map Prod.fst).Nodup)
    (hkey : ∀ e ∈ entries, Text e.1) (h : ∀ e ∈ entries, Built depth e.2) :
    Built (depth + 1) (.dict entries)

def operator (c : Byte) : Item := (.terminal .operator, [c])

def commaItem (count : Nat) : List Item := if count ≠ 0 then [operator 0x2C] else []

section
variable (snprintfF : Double → List Byte)

mutual

/-- type and text of the tokens of an object -/
def items : QObject → List Item
  | .int value => [(.terminal .integer, decimal value)]
  | .string str => [(.terminal .string, quoted str)]
  | .dict entries => [operator 0x7B] ++ dictItems entries 0 ++ [operator 0x7D]
  | .list list => [operator 0x5B] ++ listItems list 0 ++ [operator 0x5D]
  | .float value => [(.terminal .float, trimZeros (snprintfF value))]
  | .bool value => [(.terminal .keyword, if value then bytes "true" else bytes "false")]

def dictItems : List (List Byte × QObject) → Nat → List Item
  | [], _ => []
  | (key, obj) :: entries, count =>
    commaItem count ++ [(.terminal .string, quoted key), operator 0x3A] ++ items obj ++
      dictItems entries (count + 1)

def listItems : List QObject → Nat → List Item
  | [], _ => []
  | obj :: list, count => commaItem count ++ items obj ++ listItems list (count + 1)

end

end

lemma newline_white (pretty : Bool) (indent : Nat) :
    ∀ c ∈ newline pretty indent, White c.toNat := by
  intro c hc
  unfold newline at hc
  split at hc
  · rcases List.mem_cons.mp hc with rfl | hc
    · decide
    · rw [eq_of_mem_replicate hc]
      decide
  · cases hc

lemma length_newline (pretty : Bool) (indent : Nat) :
    (newline pretty indent).length ≤ 4 * indent + 1 := by
  unfold newline
  split
  · rw [length_cons, length_replicate]
  · exact Nat.zero_le _

lemma scan_newline (h : Rest l w []) (pretty : Bool) (indent : Nat)
    (hlen : w + (4 * indent + 1) ≤ maxTokenSize) :
    Scans l (newline pretty indent) [] (w + (4 * indent + 1)) [] := by
  have hl := length_newline pretty indent
  by_cases hne : newline pretty indent = []
  · rw [hne]
    exact .nil (h.mono (Nat.le_add_right _ _))
  · exact (scan_white _ h (newline_white pretty indent) hne (by omega)).mono (by omega)

lemma scan_separator (h : Rest l 0 pend) (pretty : Bool) (indent count : Nat)
    (h0 : count = 0 → pend = []) (hlen : 4 * indent + 2 ≤ maxTokenSize) :
    Scans l (comma count ++ newline pretty indent) (pend ++ commaItem count) (4 * indent + 2) [] := by
  unfold comma commaItem
  by_cases hc : count = 0
  · obtain rfl := h0 hc
    rw [if_neg (not_not_intro hc), if_neg (not_not_intro hc)]
    exact (scan_newline h pretty indent (by omega)).mono (by omega)
  rw [if_pos hc, if_pos hc]
  have hcomma := (scan_operator h (c := 0x2C) (by decide)).append fun l' hl =>
    scan_white [0x20] hl (by decide) (by decide) (by decide)
  have h1 := hcomma.append fun l' hl => scan_newline hl pretty indent (show 1 + _ ≤ _ by omega)
  rw [append_nil, append_nil] at h1
  exact h1.mono (show 1 + (4 * indent + 1) ≤ _ by omega)

/-- from between two tokens `cs` gives `its`, the last of them perhaps not yet put out -/
def Reads (l : Lexer) (cs : List Byte) (its : List Item) : Prop :=
  ∃ out pend, Scans l cs out 0 pend ∧ out ++ pend = its

lemma Scans.reads {its : List Item} (h1 : Scans l cs out w pend)
    (h2 : ∀ l', Rest l' w pend → Reads l' ds its) : Reads l (cs ++ ds) (out ++ its) := by
  obtain ⟨l₁, toks₁, r1, r2, r3⟩ := h1
  obtain ⟨out', pend', ⟨l₂, toks₂, s1, s2, s3⟩, k2⟩ := h2 l₁ r3
  refine ⟨out ++ out', pend', ⟨l₂, toks₁ ++ toks₂, ?_, ?_, s3⟩, ?_⟩
  · rw [lexRun, Transduce.run_append]
    rw [lexRun] at r1 s1
    rw [r1, s1]
  · rw [map_append, r2, s2]
  · rw [append_assoc, k2]

lemma Reads.append {its its' : List Item} (h1 : Reads l cs its)
    (h2 : ∀ l' pend, Rest l' 0 pend → Reads l' ds (pend ++ its')) :
    Reads l (cs ++ ds) (its ++ its') := by
  obtain ⟨out, pend, g1, g2⟩ := h1
  rw [← g2, append_assoc]
  exact g1.reads fun l' => h2 l' pend

lemma reads_close (h : Rest l 0 pend) (pretty : Bool) (indent : Nat) (hc : Operator c.toNat)
    (hlen : 4 * indent + 1 ≤ maxTokenSize) :
    Reads l (newline pretty indent ++ [c]) (pend ++ [operator c]) := by
  refine ⟨_, [], ?_, append_nil _⟩
  have hl := length_newline pretty indent
  by_cases hne : newline pretty indent = []
  · rw [hne]
    exact scan_operator h hc
  · exact (scan_white _ h (newline_white pretty indent) hne (by omega)).append fun l' hl =>
      scan_operator hl hc

section
variable (snprintfF : Double → List Byte) (pretty : Bool) {indent : Nat}

lemma scan_list (hlen : 4 * indent + 2 ≤ maxTokenSize) (list : List QObject)
    (h : ∀ x ∈ list, ∀ l w, Rest l w [] →
      Reads l (toJson snprintfF pretty x indent) (items snprintfF x)) :
    ∀ (count : Nat) {l : Lexer} {pend : List Item}, Rest l 0 pend → (count = 0 → pend = []) →
      Reads l (toJsonListIter snprintfF pretty list indent count)
        (pend ++ listItems snprintfF list count) := by
  induction list with
  | nil =>
    intro count l pend hr _
    rw [listItems, append_nil]
    exact ⟨[], pend, .nil hr, rfl⟩
  | cons x list ih =>
    intro count l pend hr h0
    obtain ⟨hx, hlist⟩ := List.forall_mem_cons.mp h
    rw [toJsonListIter, listItems]
    have hsep := (scan_separator hr pretty indent count h0 hlen).reads fun l' hl => hx l' _ hl
    have hall := hsep.append fun l' pend' hl => ih hlist (count + 1) hl
      (fun h => absurd h (Nat.succ_ne_zero count))
    simp only [append_assoc] at hall ⊢
    exact hall

lemma scan_dict (hlen : 4 * indent + 2 ≤ maxTokenSize) (entries : Entries)
    (hkey : ∀ e ∈ entries, Text e.1 ∧ (quoted e.1).length ≤ maxTokenSize + 1)
    (h : ∀ e ∈ entries, ∀ l w, Rest l w [] →
      Reads l (toJson snprintfF pretty e.2 indent) (items snprintfF e.2)) :
    ∀ (count : Nat) {l : Lexer} {pend : List Item}, Rest l 0 pend → (count = 0 → pend = []) →
      Reads l (toJsonDictIter snprintfF pretty entries indent count)
        (pend ++ dictItems snprintfF entries count) := by
  induction entries with
  | nil =>
    intro count l pend hr _
    rw [dictItems, append_nil]
    exact ⟨[], pend, .nil hr, rfl⟩
  | cons e entries ih =>
    intro count l pend hr h0
    obtain ⟨key, obj⟩ := e
    obtain ⟨he, hentries⟩ := List.forall_mem_cons.mp h
    obtain ⟨⟨⟨cps, hcps, rfl⟩, hsize⟩, hkeys⟩ := List.forall_mem_cons.mp hkey
    rw [toJsonDictIter, dictItems]
    have hsep := (scan_separator hr pretty indent count h0 hlen).append fun l' hl =>
      scan_string hl hcps hsize
    have hcolon := (hsep.append fun l' hl => scan_operator hl (c := 0x3A) (by decide)).append
      fun l' hl => scan_white [0x20] hl (by decide) (by decide) (by decide)
    have hvalue := hcolon.reads fun l' hl => he l' _ hl
    have hall := hvalue.append fun l' pend' hl => ih hkeys hentries (count + 1) hl
      (fun h => absurd h (Nat.succ_ne_zero count))
    simp only [append_assoc, cons_append] at hall ⊢
    exact hall

variable {snprintfF pretty}

lemma mem_listItems {x : QObject} {list : List QObject} (hx : x ∈ list) {it : Item}
    (hit : it ∈ items snprintfF x) (count : Nat) : it ∈ listItems snprintfF list count := by
  induction list generalizing count with
  | nil => cases hx
  | cons y list ih =>
    rcases List.mem_cons.mp hx with rfl | hx
    · exact mem_append_left _ (mem_append_right _ hit)
    · exact mem_append_right _ (ih hx (count + 1))

lemma mem_dictItems {e : List Byte × QObject} {entries : Entries} (he : e ∈ entries) {it : Item}
    (hit : it = (.terminal .string, quoted e.1) ∨ it ∈ items snprintfF e.2) (count : Nat) :
    it ∈ dictItems snprintfF entries count := by
  induction entries generalizing count with
  | nil => cases he
  | cons e' entries ih =>
    rcases List.mem_cons.mp he with rfl | he
    · apply mem_append_left
      rcases hit with rfl | hit
      · exact mem_append_left _ (mem_append_right _ mem_cons_self)
      · exact mem_append_right _ hit
    · exact mem_append_right _ (ih he (count + 1))

/-- **the lexer makes the tokens `items` of a printed object** -/
theorem scan_value {depth : Nat} {obj : QObject} (h : Built depth obj) : ∀ {indent : Nat},
    indent + depth ≤ 1000 → (∀ it ∈ items snprintfF obj, it.2.length ≤ maxTokenSize + 1) →
    ∀ l w, Rest l w [] → Reads l (toJson snprintfF pretty obj indent) (items snprintfF obj) := by
  induction h with
  | int value =>
    intro indent _ _ l w hr
    exact ⟨[], _, scan_int hr value, rfl⟩
  | bool value =>
    intro indent _ _ l w hr
    exact ⟨[], _, scan_bool hr value, rfl⟩
  | string htext =>
    intro indent _ hsize l w hr
    obtain ⟨cps, hcps, rfl⟩ := htext
    exact ⟨_, [], scan_string hr hcps (hsize _ mem_cons_self), rfl⟩
  | @list depth list _ ih =>
    intro indent hd hsize l w hr
    rw [toJson]
    have hmax : 4 * (indent + 1) + 2 ≤ maxTokenSize := by
      unfold maxTokenSize
      omega
    have hlist := scan_list snprintfF pretty hmax list
      (fun x hx => ih x hx (by omega) (fun it hit => hsize it (mem_append_left _
        (mem_append_right _ (mem_listItems hx hit 0)))))
    have hopen := (scan_operator hr (c := 0x5B) (by decide)).reads fun l' hl => hlist 0 hl (fun _ => rfl)
    have hall := hopen.append fun l' pend hl =>
      reads_close (c := 0x5D) hl pretty indent (by decide) (by omega)
    simp only [append_assoc] at hall ⊢
    exact hall
  | @dict depth entries _ hkey _ ih =>
    intro indent hd hsize l w hr
    rw [toJson]
    have hmax : 4 * (indent + 1) + 2 ≤ maxTokenSize := by
      unfold maxTokenSize
      omega
    have hmem : ∀ it ∈ dictItems snprintfF entries 0, it.2.length ≤ maxTokenSize + 1 := fun it hit =>
      hsize it (mem_append_left _ (mem_append_right _ hit))
    have hdict := scan_dict snprintfF pretty hmax entries
      (fun e he => ⟨hkey e he, hmem _ (mem_dictItems he (.inl rfl) 0)⟩)
      (fun e he => ih e he (by omega) (fun it hit => hmem it (mem_dictItems he (.inr hit) 0)))
    have hopen := (scan_operator hr (c := 0x7B) (by decide)).reads fun l' hl => hdict 0 hl (fun _ => rfl)
    have hall := hopen.append fun l' pend hl =>
      reads_close (c := 0x7D) hl pretty indent (by decide) (by omega)
    simp only [append_assoc] at hall ⊢
    exact hall

end

end Qjson
