import TraceSyscallObj.Qjson.Scan

/-!
# The two ways to quote a string

* `walk_body`: the states of the lexer inside either form;
* `unescape_form`: what a form denotes;
* `single_quotes_iff`: the single-quoted form is read as the double-quoted one exactly when its body
  has neither of the escapes that the table sends to the other form, and is short enough for a
  token.
-/

namespace Qjson
open List

/-- the characters that may follow a backslash, apart from `u` -/
def escapes : List Byte := [0x22, 0x27, 0x5C, 0x2F, 0x62, 0x66, 0x6E, 0x72, 0x74]

/-- a piece of the body of a string -/
inductive Piece
  | char (c : Byte)
  | escape (e : Byte)
  | ucode (h3 h2 h1 h0 : Byte)
  deriving DecidableEq

namespace Piece

/-- neither a quote nor a backslash, one of `escapes`, or four hexadecimal digits -/
def Legal : Piece → Prop
  | char c => 1 ≤ c.toNat ∧ c.toNat ≤ 0x7F ∧ c.toNat ≠ 0x22 ∧ c.toNat ≠ 0x27 ∧ c.toNat ≠ 0x5C
  | escape e => e ∈ escapes
  | ucode h3 h2 h1 h0 =>
    HexDigit h3.toNat ∧ HexDigit h2.toNat ∧ HexDigit h1.toNat ∧ HexDigit h0.toNat

def text : Piece → List Byte
  | char c => [c]
  | escape e => [0x5C, e]
  | ucode h3 h2 h1 h0 => [0x5C, 0x75, h3, h2, h1, h0]

/-- the two escapes that leave the single-quoted form -/
def slash (p : Piece) : Bool := p = escape 0x2F ∨ p = escape 0x5C

def value : Piece → List Byte
  | char c => [c]
  | escape e => [BitVec.ofNat 8 ((simpleEscape e.toNat).getD 0)]
  | ucode h3 h2 h1 h0 => (wcharToUtf8 (hex2decimal h3 <<< 12 ||| hex2decimal h2 <<< 8 |||
      hex2decimal h1 <<< 4 ||| hex2decimal h0)).takeWhile (· ≠ 0)

end Piece

/-- the body between two quotes -/
def form (quote : Byte) (body : List Piece) : List Byte :=
  quote :: body.flatMap Piece.text ++ [quote]

/-! ## the lexer -/

variable {p : Piece} {body : List Piece} {quote : Byte} {l : Lexer} {s : State}

lemma walk_piece (h : p.Legal) : walk .inDqString p.text = some .inDqString ∧
    walk .inSqString p.text = some (if p.slash then .inDqString else .inSqString) := by
  cases p with
  | char c =>
    obtain ⟨h1, h2, h3, h4, h5⟩ := h
    have hin : (1 ≤ c.toNat ∧ c.toNat ≤ 0xBF) ∨ (0xC2 ≤ c.toNat ∧ c.toNat ≤ 0xF4) := by omega
    simp [Piece.text, Piece.slash, walk, jsonLexer, stringChar, h3, h4, h5, hin]
  | escape e =>
    have hall : ∀ e ∈ escapes, walk .inDqString [0x5C, e] = some .inDqString ∧
        walk .inSqString [0x5C, e]
          = some (if (Piece.escape e).slash then .inDqString else .inSqString) := by decide
    exact hall e h
  | ucode h3 h2 h1 h0 =>
    obtain ⟨a3, a2, a1, a0⟩ := h
    simp only [Piece.text, walk, jsonLexer, stringEscape, ucode, if_pos a3,
      if_pos a2, if_pos a1, if_pos a0]
    exact ⟨rfl, rfl⟩

lemma walk_body (h : ∀ p ∈ body, p.Legal) :
    walk .inDqString (body.flatMap Piece.text) = some .inDqString ∧
    walk .inSqString (body.flatMap Piece.text)
      = some (if body.any Piece.slash then .inDqString else .inSqString) := by
  induction body with
  | nil => exact ⟨rfl, rfl⟩
  | cons p body ih =>
    obtain ⟨hp, hbody⟩ := List.forall_mem_cons.mp h
    obtain ⟨hdq, hsq⟩ := walk_piece hp
    obtain ⟨ihdq, ihsq⟩ := ih hbody
    rw [any_cons]
    refine ⟨walk_append hdq ihdq, ?_⟩
    cases hs : p.slash with
    | true =>
      rw [hs] at hsq
      exact walk_append hsq ihdq
    | false =>
      rw [hs] at hsq
      exact walk_append hsq ihsq

lemma lexRun_oversized (cs : List Byte) : ∀ {l : Lexer}, walk l.state cs = some s →
    l.token.length ≤ maxTokenSize → maxTokenSize < l.token.length + cs.length →
    ∃ tok out s', (lexRun l cs).2 = tok :: out ∧ tok.type = .state s' := by
  induction cs with
  | nil =>
    intro l _ h1 h2
    exact absurd h2 (Nat.not_lt_of_le h1)
  | cons c cs ih =>
    intro l hw h1 h2
    obtain ⟨s', hn, he, hw⟩ := walk_cons_some hw
    have hlen := length_push_advance l c
    rw [length_cons] at h2
    rw [lexRun, Transduce.run_cons]
    rcases Nat.lt_or_eq_of_le h1 with h1 | h1
    · rw [feedChar_goto hn he h1]
      exact ih (l := { (l.advance c).push c with state := s' }) hw
        (show ((l.advance c).push c).token.length ≤ _ by omega)
        (show _ < ((l.advance c).push c).token.length + cs.length by omega)
    · rw [feedChar_step hn he, limitToken,
        if_pos (show ((l.advance c).push c).token.length > _ by omega)]
      exact ⟨_, _, s', rfl, rfl⟩

/-- the form is one string token that ends at its closing quote -/
def LexesAsString (text : List Byte) : Prop :=
  ∃ l tok, lexRun jsonLexerInit text = (l, [tok]) ∧ tok.item = (.terminal .string, text) ∧
    l.state = .inStart ∧ l.token = []

lemma lexes_form (hq : jsonLexer .inStart quote = .state s) (hs : s ≠ .inError)
    (hw : walk s (body.flatMap Piece.text) = some s) (hnext : jsonLexer s quote = .terminal .string)
    (hlook : terminalNeededLookahead s (.terminal .string) = false)
    (hlen : (body.flatMap Piece.text).length < maxTokenSize) : LexesAsString (form quote body) := by
  obtain ⟨l, h1, h2, h3⟩ := lexRun_walk (l := jsonLexerInit) (quote :: body.flatMap Piece.text)
    ((walk_cons hq hs).trans hw) (by rw [length_cons]; show 0 + _ ≤ _; omega)
  refine ⟨_, _, lexRun_close h1 (h2 ▸ hnext) (h2 ▸ hlook), ?_, rfl, rfl⟩
  show (TokenType.terminal .string, (l.advance quote).token ++ [quote]) = _
  rw [advance_token, h3]
  rfl

lemma not_lexes {text rest : List Byte} (hw : walk .inStart text = some s)
    (h : rest = [] ∨ maxTokenSize < text.length) : ¬ LexesAsString (text ++ rest) := by
  rintro ⟨l, tok, hrun, htok, -, -⟩
  have hout : (lexRun jsonLexerInit (text ++ rest)).2 = [tok] := congrArg Prod.snd hrun
  by_cases hlen : maxTokenSize < text.length
  · obtain ⟨tok', out, s', h1, h2⟩ := lexRun_oversized (l := jsonLexerInit) text hw (Nat.zero_le _)
      (by show _ < 0 + _; omega)
    rw [lexRun] at h1 hout
    rw [Transduce.run_append, h1] at hout
    have htype : tok.type = .terminal .string := congrArg Prod.fst htok
    rw [(List.cons.inj hout).1, htype] at h2
    cases h2
  · obtain ⟨l', h1, -, -⟩ := lexRun_walk (l := jsonLexerInit) text hw (by show 0 + _ ≤ _; omega)
    rw [h.resolve_right hlen, append_nil, h1] at hout
    cases hout

/-! ## the parser -/

section
variable (hq : quote.toNat = 0x22 ∨ quote.toNat = 0x27)
include hq

lemma unescapeLoop_piece (h : p.Legal) (ptr str : List Byte) :
    unescapeLoop quote.toNat (p.text ++ ptr) str =
      unescapeLoop quote.toNat ptr (str ++ p.value) := by
  cases p with
  | char c =>
    obtain ⟨h1, h2, h3, h4, h5⟩ := h
    show unescapeLoop _ (c :: ptr) str = _
    rw [unescapeLoop.eq_def]
    dsimp only
    rw [if_neg (by omega), if_neg h5]
    rfl
  | escape e =>
    have hall : ∀ e ∈ escapes, (simpleEscape e.toNat).isSome := by decide
    obtain ⟨n, hn⟩ := Option.isSome_iff_exists.mp (hall e h)
    show unescapeLoop _ (0x5C :: e :: ptr) str = _
    rw [unescapeLoop.eq_def]
    dsimp only
    rw [if_neg (by show ¬ (0x5C = 0 ∨ 0x5C = quote.toNat); omega), if_pos (by decide)]
    simp only [hn, Piece.value, Option.getD_some]
  | ucode h3 h2 h1 h0 =>
    show unescapeLoop _ (0x5C :: 0x75 :: h3 :: h2 :: h1 :: h0 :: ptr) str = _
    rw [unescapeLoop, if_neg (by show ¬ (0x5C = 0 ∨ 0x5C = quote.toNat); omega)]
    exact if_pos h

lemma unescape_form (h : ∀ p ∈ body, p.Legal) :
    unescape (form quote body) = .ok (body.flatMap Piece.value) := by
  have hloop : ∀ str, unescapeLoop quote.toNat (body.flatMap Piece.text ++ [quote]) str
      = .ok (str ++ body.flatMap Piece.value) := by
    induction body with
    | nil =>
      intro str
      rw [flatMap_nil, flatMap_nil, append_nil]
      exact if_pos (.inr rfl)
    | cons p body ih =>
      intro str
      obtain ⟨hp, hbody⟩ := List.forall_mem_cons.mp h
      rw [flatMap_cons, flatMap_cons, append_assoc, unescapeLoop_piece hq hp,
        ih hbody, append_assoc]
  have hquote : (if quote.toNat = 0x22 then 0x22 else 0x27) = quote.toNat := by
    split
    · exact Eq.symm ‹_›
    · omega
  show unescapeLoop (if quote.toNat = 0x22 then 0x22 else 0x27) _ [] = _
  rw [hquote]
  exact hloop []

end

/-- **the single-quoted form is one string token that denotes what the double-quoted one does,
exactly when its body has no escaped slash or backslash and fits into a token** -/
theorem single_quotes_iff (body : List Piece) (h : ∀ p ∈ body, p.Legal) :
    (LexesAsString (form 0x27 body) ∧ LexesAsString (form 0x22 body) ∧
      ∃ str, unescape (form 0x27 body) = .ok str ∧ unescape (form 0x22 body) = .ok str) ↔
    body.any Piece.slash = false ∧ (body.flatMap Piece.text).length < maxTokenSize := by
  obtain ⟨hdq, hsq⟩ := walk_body h
  constructor
  · rintro ⟨hlex, -⟩
    have hw : walk .inStart (0x27 :: body.flatMap Piece.text) = _ := hsq
    refine ⟨?_, Nat.lt_of_not_le fun hlen => not_lexes hw (.inr ?_) hlex⟩
    · by_contra hslash
      rw [Bool.not_eq_false] at hslash
      rw [hslash] at hw
      have hend : walk .inStart (form 0x27 body) = some .inDqString := walk_append hw rfl
      exact not_lexes hend (.inl rfl) ((append_nil _).symm ▸ hlex)
    · rw [length_cons]
      omega
  · rintro ⟨hslash, hlen⟩
    rw [hslash] at hsq
    exact ⟨lexes_form (s := .inSqString) rfl (by decide) hsq rfl rfl hlen,
      lexes_form (s := .inDqString) rfl (by decide) hdq rfl rfl hlen, _,
      unescape_form (.inr rfl) h, unescape_form (.inl rfl) h⟩

theorem single_quotes_newline : LexesAsString (form 0x27 [.escape 0x6E]) ∧
    LexesAsString (form 0x22 [.escape 0x6E]) ∧ ∃ str,
      unescape (form 0x27 [.escape 0x6E]) = .ok str ∧ unescape (form 0x22 [.escape 0x6E]) = .ok str :=
  (single_quotes_iff [.escape 0x6E] (by simp [Piece.Legal, escapes])).mpr (by decide)

theorem single_quotes_slash : (lexRun jsonLexerInit (form 0x27 [.escape 0x2F])).2 = [] ∧
    (lexRun jsonLexerInit (form 0x27 [.escape 0x2F])).1.state = .inDqString := by decide

end Qjson
