import TraceSyscallObj.Qjson.Scan
import Mathlib.Algebra.Order.Ring.Int

/-!
# Printing and parsing an object

The lexer makes the tokens `items` of a printed object, the streamer hands them on as one message,
and the parser builds an equal object from them.  Two dictionaries are equal if they have the same
entries in any order: the order depends on when the keys of a bucket were inserted.

* `Equal`: equality of objects;
* `parse_value`: the parser on the tokens of an object;
* `stream_inside`: the streamer keeps the tokens of a nested object;
* `json_roundtrip`: parsing the printed object gives an equal one.
-/

namespace Qjson
open List

mutual

inductive Equal : QObject → QObject → Prop
  | int (value : BitVec 64) : Equal (.int value) (.int value)
  | float (value : Double) : Equal (.float value) (.float value)
  | bool (value : Bool) : Equal (.bool value) (.bool value)
  | string (str : List Byte) : Equal (.string str) (.string str)
  | list {xs ys : List QObject} : EqualList xs ys → Equal (.list xs) (.list ys)
  | dict {es es₁ es₂ : List (List Byte × QObject)} : EqualEntries es es₁ → es₂.Perm es₁ →
    Equal (.dict es) (.dict es₂)

inductive EqualList : List QObject → List QObject → Prop
  | nil : EqualList [] []
  | cons {x y : QObject} {xs ys : List QObject} : Equal x y → EqualList xs ys →
    EqualList (x :: xs) (y :: ys)

inductive EqualEntries : List (List Byte × QObject) → List (List Byte × QObject) → Prop
  | nil : EqualEntries [] []
  | cons {k : List Byte} {x y : QObject} {es es' : List (List Byte × QObject)} : Equal x y →
    EqualEntries es es' → EqualEntries ((k, x) :: es) ((k, y) :: es')

end

/-! ## which tokens are read -/

section
variable {toks : List Token} {it it' : Item} {its its₁ its₂ : List Item} {obj : QObject}

lemma scalar_of_items {it : Item} (h : toks.map Token.item = [it]) :
    ∃ t, toks = [t] ∧ t.item = it := by
  obtain ⟨t, ts, rfl, ht, hts⟩ := List.map_eq_cons_iff.mp h
  obtain rfl := List.map_eq_nil_iff.mp hts
  exact ⟨t, rfl, ht⟩

lemma ends_of_items {c c' : Byte} (h : toks.map Token.item = [operator c] ++ its ++ [operator c']) :
    ∃ t body t', toks = t :: (body ++ [t']) ∧ t.item = operator c ∧ body.map Token.item = its ∧
      t'.item = operator c' := by
  obtain ⟨t, toks₁, rfl, ht, htoks₁⟩ := List.map_eq_cons_iff.mp h
  obtain ⟨body, toks₃, rfl, hbody, htoks₃⟩ := List.map_eq_append_iff.mp htoks₁
  obtain ⟨t', toks₄, rfl, ht', htoks₄⟩ := List.map_eq_cons_iff.mp htoks₃
  obtain rfl := List.map_eq_nil_iff.mp htoks₄
  exact ⟨t, body, t', rfl, ht, hbody, ht'⟩

lemma entry_of_items (h : toks.map Token.item = its ++ [it, it'] ++ its₁ ++ its₂) :
    ∃ toks₀ t t' toks₁ toks₂, toks = toks₀ ++ t :: t' :: (toks₁ ++ toks₂) ∧
      toks₀.map Token.item = its ∧ t.item = it ∧ t'.item = it' ∧ toks₁.map Token.item = its₁ ∧
      toks₂.map Token.item = its₂ := by
  simp only [append_assoc, cons_append, nil_append] at h
  obtain ⟨toks₀, toks₃, rfl, h₀, h₃⟩ := List.map_eq_append_iff.mp h
  obtain ⟨t, toks₄, rfl, ht, h₄⟩ := List.map_eq_cons_iff.mp h₃
  obtain ⟨t', toks₅, rfl, ht', h₅⟩ := List.map_eq_cons_iff.mp h₄
  obtain ⟨toks₁, toks₂, rfl, h₁, h₂⟩ := List.map_eq_append_iff.mp h₅
  exact ⟨toks₀, t, t', toks₁, toks₂, rfl, h₀, ht, ht', h₁, h₂⟩

end

lemma next_token (toks : List Token) (close : Token) (rest : List Token) :
    ∃ t ts, toks ++ close :: rest = t :: ts :=
  exists_cons_of_ne_nil
    (append_ne_nil_of_right_ne_nil toks (cons_ne_nil close rest))

/-! ## the parser -/

variable {t : Token}

lemma item_operator {c : Byte} (h : t.item = operator c) (op : Byte) :
    tokenIsOperator t op = (c == op) := by
  have h1 : t.type = .terminal .operator := congrArg Prod.fst h
  have h2 : t.text = [c] := congrArg Prod.snd h
  unfold tokenIsOperator
  rw [h1, h2]
  exact Bool.and_true _

lemma item_other (h : t.type ≠ .terminal .operator) (op : Byte) : tokenIsOperator t op = false := by
  unfold tokenIsOperator
  rw [beq_false_of_ne h, Bool.false_and, Bool.false_and]

variable {c : Ctx} {ts : List Token} {fuel : Nat}

section
variable (hc : c.tokens = t :: ts)
include hc

lemma parseValue_scalar (ht : t.type ≠ .terminal .operator) (hf : fuel ≠ 0) :
    parseValue none fuel c = (parseKeyword c).bind fun x =>
      if x.1.isSome then .ok x else parseLiteral x.2 := by
  obtain ⟨n, rfl⟩ := Nat.exists_eq_succ_of_ne_zero hf
  show parseAlternatives none (parseValue none n) c = _
  unfold parseAlternatives
  rw [parseObject_pass hc (item_other ht _)]
  show Except.bind (parseArray (parseValue none n) c) _ = _
  rw [parseArray_pass hc (item_other ht _)]
  rfl

lemma parseValue_literal (ht : t.type ≠ .terminal .operator) (hk : t.type ≠ .terminal .keyword)
    (hf : fuel ≠ 0) : parseValue none fuel c = parseLiteral c := by
  rw [parseValue_scalar hc ht hf, parseKeyword_pass hc hk]
  rfl

lemma parse_string {str : List Byte} (hstr : Text str)
    (ht : t.item = (.terminal .string, quoted str)) (hf : fuel ≠ 0) :
    parseValue none fuel c = .ok (some (.string str), { c with tokens := ts }) := by
  have h1 : t.type = .terminal .string := congrArg Prod.fst ht
  have h2 : t.text = quoted str := congrArg Prod.snd ht
  obtain ⟨cps, hcps, rfl⟩ := hstr
  rw [parseValue_literal hc (by rw [h1]; decide) (by rw [h1]; decide) hf]
  unfold parseLiteral
  rw [popToken_cons hc]
  simp only [bind, Except.bind, h1, h2, unescape_quoted hcps]
  rfl

lemma parse_int {value : BitVec 64} (ht : t.item = (.terminal .integer, decimal value))
    (hf : fuel ≠ 0) :
    parseValue none fuel c = .ok (some (.int value), { c with tokens := ts }) := by
  have h1 : t.type = .terminal .integer := congrArg Prod.fst ht
  have h2 : t.text = decimal value := congrArg Prod.snd ht
  rw [parseValue_literal hc (by rw [h1]; decide) (by rw [h1]; decide) hf]
  unfold parseLiteral
  rw [popToken_cons hc]
  simp only [bind, Except.bind, h1, h2, strtoll_decimal, BitVec.ofInt_toInt]
  rfl

lemma parse_bool {value : Bool}
    (ht : t.item = (.terminal .keyword, if value then bytes "true" else bytes "false"))
    (hf : fuel ≠ 0) :
    parseValue none fuel c = .ok (some (.bool value), { c with tokens := ts }) := by
  have h1 : t.type = .terminal .keyword := congrArg Prod.fst ht
  have h2 : t.text = if value then bytes "true" else bytes "false" := congrArg Prod.snd ht
  have hkey : parseKeyword c = .ok (some (.bool value), { c with tokens := ts }) := by
    unfold parseKeyword tokenIsKeyword
    rw [popToken_cons hc]
    simp only [bind, Except.bind, h1, h2]
    cases value <;> rfl
  rw [parseValue_scalar hc (by rw [h1]; decide) hf, hkey]
  rfl

end

/-- `pv` reads the tokens of `obj`, if they are fewer than `n` -/
def Parses (snprintfF : Double → List Byte) (pv : Ctx → Except Fault (Option QObject × Ctx))
    (n : Nat) (obj : QObject) : Prop :=
  ∀ (c : Ctx) (toks rest : List Token), c.tokens = toks ++ rest →
    toks.map Token.item = items snprintfF obj → toks.length < n →
      ∃ obj', pv c = .ok (some obj', { c with tokens := rest }) ∧ Equal obj obj'

variable {depth : Nat} {toks : List Token} (list : List QObject) {ts₂ : List Token} {t₁ t₂ : Token}

section
variable {snprintfF : Double → List Byte} {pv : Ctx → Except Fault (Option QObject × Ctx)} {n : Nat}

lemma parse_itemLoop (h : ∀ x ∈ list, Parses snprintfF pv n x) :
    ∀ (fuel count : Nat) (t : Token) (acc : List QObject) (c : Ctx) (toks rest : List Token)
      (close : Token), t :: c.tokens = toks ++ close :: rest →
      toks.map Token.item = listItems snprintfF list (count + 1) → close.item = operator 0x5D →
      c.tokens.length < fuel → toks.length ≤ n →
      ∃ list', itemLoop pv fuel t acc c = .ok (some (acc ++ list'), { c with tokens := rest }) ∧
        EqualList list list' := by
  induction list with
  | nil =>
    intro fuel count t acc c toks rest close hts htoks hclose hfuel _
    obtain rfl := List.map_eq_nil_iff.mp htoks
    obtain ⟨rfl, rfl⟩ := List.cons.inj hts
    obtain ⟨fuel, rfl⟩ := Nat.exists_eq_add_one.mpr (Nat.zero_lt_of_lt hfuel)
    refine ⟨[], ?_, .nil⟩
    rw [itemLoop, item_operator hclose, append_nil]
    rfl
  | cons x list ih =>
    intro fuel count t acc c toks rest close hts htoks hclose hfuel hn
    obtain ⟨hx, hlist⟩ := List.forall_mem_cons.mp h
    obtain ⟨fuel, rfl⟩ := Nat.exists_eq_add_one.mpr (Nat.zero_lt_of_lt hfuel)
    obtain ⟨tc, toks₁, rfl, hcomma, htoks₁⟩ := List.map_eq_cons_iff.mp htoks
    obtain ⟨toks₂, toks₃, rfl, htoks₂, htoks₃⟩ := List.map_eq_append_iff.mp htoks₁
    rw [cons_append, append_assoc] at hts
    obtain ⟨rfl, hc⟩ := List.cons.inj hts
    rw [length_cons, length_append] at hn
    obtain ⟨x', hx1, hx2⟩ := hx c toks₂ (toks₃ ++ close :: rest) hc htoks₂ (by omega)
    -- the token after the item
    obtain ⟨t', ts', ht'⟩ := next_token toks₃ close rest
    have hlen : ts'.length < fuel := by
      rw [hc, length_append, ht', length_cons] at hfuel
      omega
    obtain ⟨list', h1, h2⟩ := ih hlist fuel (count + 1) t' (acc ++ [x']) { c with tokens := ts' } toks₃
      rest close ht'.symm htoks₃ hclose hlen (by omega)
    refine ⟨x' :: list', ?_, .cons hx2 h2⟩
    rw [itemLoop, item_operator hcomma, item_operator hcomma]
    rw [hx1]
    show Except.bind (parserContextPopToken { c with tokens := toks₃ ++ close :: rest }) _ = _
    rw [popToken_cons ht']
    show itemLoop pv fuel t' (acc ++ [x']) { c with tokens := ts' } = _
    rw [h1, append_assoc]
    rfl

lemma items_head (h : Built depth obj) (htoks : toks.map Token.item = items snprintfF obj) :
    ∃ t ts, toks = t :: ts ∧ tokenIsOperator t 0x5D = false := by
  have hother : ∀ {it : Item} {its : List Item}, toks.map Token.item = it :: its →
      it.1 ≠ .terminal .operator → ∃ t ts, toks = t :: ts ∧ tokenIsOperator t 0x5D = false := by
    intro it its h hne
    obtain ⟨t, ts, rfl, ht, -⟩ := List.map_eq_cons_iff.mp h
    exact ⟨t, ts, rfl, item_other (fun ht' => hne (ht ▸ ht')) _⟩
  have hop : ∀ {c : Byte} {its : List Item}, toks.map Token.item = operator c :: its →
      (c == 0x5D) = false → ∃ t ts, toks = t :: ts ∧ tokenIsOperator t 0x5D = false := by
    intro c its h hne
    obtain ⟨t, ts, rfl, ht, -⟩ := List.map_eq_cons_iff.mp h
    exact ⟨t, ts, rfl, (item_operator ht _).trans hne⟩
  cases h with
  | int _ | bool _ | string _ =>
    exact hother htoks (fun h => by cases h)
  | list _ | dict _ _ _ =>
    exact hop htoks rfl

variable {rest : List Token} {close : Token}

lemma parseArray_nil (hc : c.tokens = t :: close :: rest)
    (ht : tokenIsOperator t 0x5B = true) (hclose : tokenIsOperator close 0x5D = true) :
    parseArray pv c = .ok (some (.list []), { c with tokens := rest }) := by
  unfold parseArray
  rw [popToken_cons hc]
  show (if tokenIsOperator t 0x5B then (if tokenIsOperator close 0x5D then _ else _) else _) = _
  rw [ht, hclose]
  rfl

lemma parseArray_cons {c₁ c₂ : Ctx} {x : QObject}
    {list : List QObject} (hc : c.tokens = t :: t₁ :: ts) (ht : tokenIsOperator t 0x5B = true)
    (ht₁ : tokenIsOperator t₁ 0x5D = false)
    (hx : pv { c with tokens := t₁ :: ts } = .ok (some x, c₁)) (hc₁ : c₁.tokens = t₂ :: ts₂)
    (hloop : itemLoop pv (ts₂.length + 1) t₂ [x] { c₁ with tokens := ts₂ } = .ok (some list, c₂)) :
    parseArray pv c = .ok (some (.list list), c₂) := by
  unfold parseArray
  rw [popToken_cons hc]
  show (if tokenIsOperator t 0x5B then (if tokenIsOperator t₁ 0x5D then _ else
    Except.bind (pv { c with tokens := t₁ :: ts }) _) else _) = _
  rw [ht, ht₁, hx]
  show Except.bind (parserContextPopToken c₁) _ = _
  rw [popToken_cons hc₁]
  show Except.bind (itemLoop pv (ts₂.length + 1) t₂ [x] { c₁ with tokens := ts₂ }) _ = _
  rw [hloop]
  rfl

lemma parse_array {list : List QObject} (hb : ∀ x ∈ list, Built depth x)
    (h : ∀ x ∈ list, Parses snprintfF pv n x) (hc : c.tokens = toks ++ rest)
    (htoks : toks.map Token.item = items snprintfF (.list list)) (hn : toks.length ≤ n + 1) :
    ∃ list', parseArray pv c = .ok (some (.list list'), { c with tokens := rest }) ∧
      EqualList list list' := by
  obtain ⟨topen, toks₂, close, rfl, hopen, htoks₂, hclose⟩ := ends_of_items htoks
  rw [cons_append, append_assoc] at hc
  rw [length_cons, length_append, length_singleton] at hn
  have ht : tokenIsOperator topen 0x5B = true := (item_operator hopen _).trans rfl
  have ht' : tokenIsOperator close 0x5D = true := (item_operator hclose _).trans rfl
  cases list with
  | nil =>
    obtain rfl := List.map_eq_nil_iff.mp htoks₂
    exact ⟨[], parseArray_nil hc ht ht', .nil⟩
  | cons x list =>
    obtain ⟨hx, hlist⟩ := List.forall_mem_cons.mp h
    obtain ⟨toksx, toks₅, rfl, htoksx, htoks₅⟩ := List.map_eq_append_iff.mp htoks₂
    rw [append_assoc] at hc
    rw [length_append] at hn
    obtain ⟨x', hx1, hx2⟩ := hx { c with tokens := toksx ++ (toks₅ ++ close :: rest) } toksx
      (toks₅ ++ close :: rest) rfl htoksx (by omega)
    obtain ⟨t₂, ts₂, ht₂⟩ := next_token toks₅ close rest
    obtain ⟨list', h1, h2⟩ := parse_itemLoop list hlist (ts₂.length + 1) 0 t₂ [x']
      { c with tokens := ts₂ } toks₅ rest close ht₂.symm htoks₅ hclose (Nat.lt_succ_self _) (by omega)
    obtain ⟨t₁, ts₁, rfl, ht₁⟩ := items_head (hb x mem_cons_self) htoksx
    exact ⟨x' :: list', parseArray_cons hc ht ht₁ hx1 ht₂ h1, .cons hx2 h2⟩

/-! ### dictionaries -/

lemma insertEntry_perm (key : List Byte) (value : QObject) (es : Entries) :
    (insertEntry key value es).Perm ((key, value) :: es) := by
  induction es with
  | nil => exact .refl _
  | cons e es ih =>
    unfold insertEntry
    split
    · exact .refl _
    · exact (ih.cons e).trans (.swap _ _ _)

lemma qdictPutObj_perm {key : List Byte} {es : Entries} (h : key ∉ es.map Prod.fst)
    (value : QObject) : (qdictPutObj es key value).Perm ((key, value) :: es) := by
  unfold qdictPutObj
  rw [if_neg h]
  exact insertEntry_perm key value es

/-- `pv` reads strings -/
def ParsesStrings (pv : Ctx → Except Fault (Option QObject × Ctx)) : Prop :=
  ∀ (c : Ctx) (t : Token) (ts : List Token) (str : List Byte), c.tokens = t :: ts → Text str →
    t.item = (.terminal .string, quoted str) → pv c = .ok (some (.string str), { c with tokens := ts })

lemma parse_pair (hstr : ParsesStrings pv) {key : List Byte} (hkey : Text key)
    (hobj : Parses snprintfF pv n obj) (dict : Entries) {tk tc : Token}
    (hc : c.tokens = tk :: tc :: (toks ++ rest)) (htk : tk.item = (.terminal .string, quoted key))
    (htc : tc.item = operator 0x3A) (htoks : toks.map Token.item = items snprintfF obj)
    (hn : toks.length < n) :
    ∃ obj', parsePair pv dict c = .ok (some (qdictPutObj dict key obj'), { c with tokens := rest }) ∧
      Equal obj obj' := by
  obtain ⟨obj', h1, h2⟩ := hobj { c with tokens := toks ++ rest } toks rest rfl htoks hn
  refine ⟨obj', ?_, h2⟩
  unfold parsePair
  rw [peekToken_cons hc]
  rw [hstr c tk _ key hc hkey htk]
  show (if tokenIsOperator tc 0x3A then Except.bind (pv { c with tokens := toks ++ rest }) _ else _) = _
  rw [item_operator htc, h1]
  rfl

lemma parse_pairLoop (hstr : ParsesStrings pv) (es : Entries) (hkey : ∀ e ∈ es, Text e.1)
    (h : ∀ e ∈ es, Parses snprintfF pv n e.2) :
    ∀ (fuel count : Nat) (t : Token) (dict : Entries) (c : Ctx) (toks rest : List Token)
      (close : Token), t :: c.tokens = toks ++ close :: rest →
      toks.map Token.item = dictItems snprintfF es (count + 1) → close.item = operator 0x7D →
      c.tokens.length < fuel → toks.length ≤ n → (es.map Prod.fst ++ dict.map Prod.fst).Nodup →
      ∃ es' dict', pairLoop pv fuel t dict c = .ok (some dict', { c with tokens := rest }) ∧
        EqualEntries es es' ∧ dict'.Perm (es' ++ dict) := by
  induction es with
  | nil =>
    intro fuel count t dict c toks rest close hts htoks hclose hfuel _ _
    obtain rfl := List.map_eq_nil_iff.mp htoks
    obtain ⟨rfl, rfl⟩ := List.cons.inj hts
    obtain ⟨fuel, rfl⟩ := Nat.exists_eq_add_one.mpr (Nat.zero_lt_of_lt hfuel)
    refine ⟨[], dict, ?_, .nil, .refl _⟩
    rw [pairLoop, item_operator hclose]
    rfl
  | cons e es ih =>
    intro fuel count t dict c toks rest close hts htoks hclose hfuel hn hnodup
    obtain ⟨key, obj⟩ := e
    obtain ⟨hx, hes⟩ := List.forall_mem_cons.mp h
    obtain ⟨hk, hkeys⟩ := List.forall_mem_cons.mp hkey
    obtain ⟨fuel, rfl⟩ := Nat.exists_eq_add_one.mpr (Nat.zero_lt_of_lt hfuel)
    obtain ⟨toks₁, tk, tc, toks₃, toks₄, rfl, htoks₁, htk, htc, htoks₃, htoks₄⟩ :=
      entry_of_items htoks
    obtain ⟨tcomma, rfl, hcomma⟩ := scalar_of_items htoks₁
    simp only [append_assoc, cons_append] at hts
    simp only [length_append, length_cons] at hn
    obtain ⟨rfl, hc⟩ := List.cons.inj hts
    obtain ⟨obj', h1, h2⟩ := parse_pair hstr hk hx dict hc htk htc htoks₃ (by omega)
    obtain ⟨t', ts', ht'⟩ := next_token toks₄ close rest
    have hlen : ts'.length < fuel := by
      simp only [hc, length_append, length_cons] at hfuel
      have := congrArg List.length ht'
      simp only [length_append, length_cons] at this
      omega
    -- the new key is not in the dictionary yet
    obtain ⟨hnew, hnodup'⟩ := List.nodup_cons.mp hnodup
    have hput := qdictPutObj_perm (fun hm => hnew (mem_append_right _ hm)) obj'
    have hnodup₁ : (es.map Prod.fst ++ (qdictPutObj dict key obj').map Prod.fst).Nodup := by
      have hperm := (hput.map Prod.fst).append_left (es.map Prod.fst)
      rw [hperm.nodup_iff, map_cons, List.perm_middle.nodup_iff]
      exact hnodup
    obtain ⟨es', dict', g1, g2, g3⟩ := ih hkeys hes fuel (count + 1) t' (qdictPutObj dict key obj')
      { c with tokens := ts' } toks₄ rest close ht'.symm htoks₄ hclose hlen (by omega) hnodup₁
    refine ⟨(key, obj') :: es', dict', ?_, .cons h2 g2, ?_⟩
    · rw [pairLoop, item_operator hcomma, item_operator hcomma]
      rw [h1]
      show Except.bind (parserContextPopToken { c with tokens := toks₄ ++ close :: rest }) _ = _
      rw [popToken_cons ht']
      exact g1
    · exact g3.trans ((hput.append_left es').trans perm_middle)

lemma parseObject_nil (hc : c.tokens = t :: close :: rest)
    (ht : tokenIsOperator t 0x7B = true) (hclose : tokenIsOperator close 0x7D = true) :
    parseObject pv c = .ok (some (.dict []), { c with tokens := rest }) := by
  unfold parseObject
  rw [popToken_cons hc]
  show (if tokenIsOperator t 0x7B then (if tokenIsOperator close 0x7D then _ else _) else _) = _
  rw [ht, hclose]
  rfl

lemma parseObject_cons {c₁ c₂ : Ctx} {dict dict₁ : Entries}
    (hc : c.tokens = t :: t₁ :: ts) (ht : tokenIsOperator t 0x7B = true)
    (ht₁ : tokenIsOperator t₁ 0x7D = false)
    (hpair : parsePair pv [] { c with tokens := t₁ :: ts } = .ok (some dict₁, c₁))
    (hc₁ : c₁.tokens = t₂ :: ts₂)
    (hloop : pairLoop pv (ts₂.length + 1) t₂ dict₁ { c₁ with tokens := ts₂ } = .ok (some dict, c₂)) :
    parseObject pv c = .ok (some (.dict dict), c₂) := by
  unfold parseObject
  rw [popToken_cons hc]
  show (if tokenIsOperator t 0x7B then (if tokenIsOperator t₁ 0x7D then _ else
    Except.bind (parsePair pv [] { c with tokens := t₁ :: ts }) _) else _) = _
  rw [ht, ht₁, hpair]
  show Except.bind (parserContextPopToken c₁) _ = _
  rw [popToken_cons hc₁]
  show Except.bind (pairLoop pv (ts₂.length + 1) t₂ dict₁ { c₁ with tokens := ts₂ }) _ = _
  rw [hloop]
  rfl

lemma parse_object (hstr : ParsesStrings pv) {es : Entries} (hnodup : (es.map Prod.fst).Nodup)
    (hkey : ∀ e ∈ es, Text e.1) (h : ∀ e ∈ es, Parses snprintfF pv n e.2)
    (hc : c.tokens = toks ++ rest) (htoks : toks.map Token.item = items snprintfF (.dict es))
    (hn : toks.length ≤ n + 1) :
    ∃ dict, parseObject pv c = .ok (some (.dict dict), { c with tokens := rest }) ∧
      Equal (.dict es) (.dict dict) := by
  obtain ⟨topen, toks₂, close, rfl, hopen, htoks₂, hclose⟩ := ends_of_items htoks
  have ht : tokenIsOperator topen 0x7B = true := (item_operator hopen _).trans rfl
  have ht' : tokenIsOperator close 0x7D = true := (item_operator hclose _).trans rfl
  cases es with
  | nil =>
    obtain rfl := List.map_eq_nil_iff.mp htoks₂
    exact ⟨[], parseObject_nil hc ht ht', .dict .nil (.refl _)⟩
  | cons e es =>
    obtain ⟨key, obj⟩ := e
    obtain ⟨hx, hes⟩ := List.forall_mem_cons.mp h
    obtain ⟨hk, hkeys⟩ := List.forall_mem_cons.mp hkey
    obtain ⟨toks₅, tk, tc, toksx, toks₆, rfl, htoks₅, htk, htc, htoksx, htoks₆⟩ :=
      entry_of_items htoks₂
    obtain rfl := List.map_eq_nil_iff.mp htoks₅
    simp only [append_assoc, cons_append] at hc
    simp only [length_append, length_cons] at hn
    have htk' : tokenIsOperator tk 0x7D = false :=
      item_other (fun h => by cases (congrArg Prod.fst htk).symm.trans h) _
    obtain ⟨obj', h1, h2⟩ := parse_pair hstr hk hx [] rfl htk htc htoksx (by omega)
      (c := { c with tokens := tk :: tc :: (toksx ++ (toks₆ ++ close :: rest)) })
    obtain ⟨t₂, ts₂, ht₂⟩ := next_token toks₆ close rest
    have hnodup₁ : (es.map Prod.fst ++ ([(key, obj')] : Entries).map Prod.fst).Nodup := by
      rw [List.perm_append_comm.nodup_iff]
      exact hnodup
    obtain ⟨es', dict', g1, g2, g3⟩ := parse_pairLoop hstr es hkeys hes (ts₂.length + 1) 0 t₂
      (qdictPutObj [] key obj') { c with tokens := ts₂ } toks₆ rest close ht₂.symm htoks₆ hclose
      (Nat.lt_succ_self _) (by omega) hnodup₁
    exact ⟨dict', parseObject_cons hc ht htk' h1 ht₂ g1,
      .dict (.cons h2 g2) (g3.trans (perm_append_singleton (key, obj') es'))⟩

end

/-- **the parser builds an equal object from the tokens of an object** -/
theorem parse_value {snprintfF : Double → List Byte}
    (h : Built depth obj) : ∀ fuel, Parses snprintfF (parseValue none fuel) fuel obj := by
  induction h with
  | int value =>
    intro fuel c toks rest hc htoks hn
    obtain ⟨t, rfl, ht⟩ := scalar_of_items htoks
    exact ⟨_, parse_int hc ht (by omega), .int value⟩
  | bool value =>
    intro fuel c toks rest hc htoks hn
    obtain ⟨t, rfl, ht⟩ := scalar_of_items htoks
    exact ⟨_, parse_bool hc ht (by omega), .bool value⟩
  | string htext =>
    intro fuel c toks rest hc htoks hn
    obtain ⟨t, rfl, ht⟩ := scalar_of_items htoks
    exact ⟨_, parse_string hc htext ht (by omega), .string _⟩
  | @list depth list hb ih =>
    intro fuel c toks rest hc htoks hn
    obtain ⟨fuel, rfl⟩ := Nat.exists_eq_add_one.mpr (Nat.zero_lt_of_lt hn)
    obtain ⟨list', h1, h2⟩ := parse_array hb (fun x hx => ih x hx fuel) hc htoks (Nat.le_of_lt hn)
    obtain ⟨t, ts, rfl, ht, -⟩ := List.map_eq_cons_iff.mp htoks
    refine ⟨.list list', ?_, .list h2⟩
    show Except.bind (parseObject (parseValue none fuel) c) _ = _
    rw [parseObject_pass hc ((item_operator ht _).trans rfl)]
    show Except.bind (parseArray (parseValue none fuel) c) _ = _
    rw [h1]
    rfl
  | @dict depth entries hnodup hkey hb ih =>
    intro fuel c toks rest hc htoks hn
    obtain ⟨fuel, rfl⟩ := Nat.exists_eq_add_one.mpr (Nat.zero_lt_of_lt hn)
    have hfuel : fuel ≠ 0 := by
      have hlen := congrArg List.length htoks
      simp only [items, length_map, length_append, length_singleton] at hlen
      omega
    obtain ⟨dict, h1, h2⟩ := parse_object
      (fun c t ts str hc htext ht => parse_string hc htext ht hfuel) hnodup hkey
      (fun e he => ih e he fuel) hc htoks (Nat.le_of_lt hn)
    refine ⟨.dict dict, ?_, h2⟩
    show Except.bind (parseObject (parseValue none fuel) c) _ = _
    rw [h1]
    rfl

/-! ## the streamer -/

def size (toks : List Token) : Nat := (toks.map fun t => t.text.length).sum

lemma size_nil : size [] = 0 := rfl

lemma size_cons (t : Token) (toks : List Token) : size (t :: toks) = t.text.length + size toks := rfl

lemma size_append (toks toks' : List Token) : size (toks ++ toks') = size toks + size toks' := by
  unfold size
  rw [map_append, sum_append]

/-- a message is open and `depth` more levels are within the limit -/
def Inside (s : Streamer) (depth : Nat) : Prop :=
  0 ≤ s.braceCount ∧ 0 ≤ s.bracketCount ∧ 0 < s.braceCount + s.bracketCount ∧
    s.braceCount + depth ≤ maxNesting ∧ s.bracketCount + depth ≤ maxNesting

def Streamer.keep (s : Streamer) (toks : List Token) : Streamer :=
  { s with tokens := s.tokens ++ toks, tokenSize := s.tokenSize + size toks }

lemma Streamer.keep_keep (s : Streamer) (toks toks' : List Token) :
    (s.keep toks).keep toks' = s.keep (toks ++ toks') := by
  unfold Streamer.keep
  simp only [append_assoc, Nat.add_assoc, size_append]

lemma item_count {c : Byte} (h : t.item = operator c) :
    brace t = (if c = 0x7B then 1 else if c = 0x7D then -1 else 0) ∧
      bracket t = (if c = 0x5B then 1 else if c = 0x5D then -1 else 0) := by
  have h1 : t.type = .terminal .operator := congrArg Prod.fst h
  have h2 : t.text = [c] := congrArg Prod.snd h
  unfold brace bracket
  simp only [h1, h2, if_true, List.head?_cons, Option.some.injEq]
  exact ⟨trivial, trivial⟩

lemma operator_type {c : Byte} (h : t.item = operator c) : t.type ≠ .error :=
  fun he => by cases (congrArg Prod.fst h).symm.trans he

lemma processToken_inside {s : Streamer} {b k : Int} (herr : t.type ≠ .error)
    (hb : s.braceCount + brace t = b) (hk : s.bracketCount + bracket t = k) (hb0 : 0 ≤ b)
    (hk0 : 0 ≤ k) (hpos : 0 < b + k) (hb1 : b ≤ maxNesting) (hk1 : k ≤ maxNesting)
    (hsize : s.tokenSize + t.text.length ≤ maxTokenSize) :
    processToken s t = ({ s.keep [t] with braceCount := b, bracketCount := k }, []) := by
  unfold processToken
  simp only [hb, hk]
  rw [if_neg herr, if_neg (by omega), if_neg (by omega)]
  rfl

/-- inside a message the streamer keeps the tokens and hands nothing on -/
def Keeps (depth : Nat) (toks : List Token) : Prop :=
  ∀ s, Inside s depth → s.tokenSize + size toks ≤ maxTokenSize →
    Transduce.run processToken s toks = (s.keep toks, [])

lemma Keeps.nil (depth : Nat) : Keeps depth [] := by
  intro s _ _
  unfold Streamer.keep
  rw [append_nil]
  rfl

lemma Keeps.append {toks' : List Token} (h : Keeps depth toks)
    (h' : Keeps depth toks') : Keeps depth (toks ++ toks') := by
  intro s hs hsize
  rw [size_append] at hsize
  rw [Transduce.run_append, h s hs (by omega), h' (s.keep toks) hs
    (by show s.tokenSize + size toks + size toks' ≤ maxTokenSize; omega), Streamer.keep_keep]
  rfl

lemma Keeps.single (herr : t.type ≠ .error) (hb : brace t = 0)
    (hk : bracket t = 0) : Keeps depth [t] := by
  intro s hs hsize
  obtain ⟨h1, h2, h3, h4, h5⟩ := hs
  rw [Transduce.run_singleton, processToken_inside herr (by rw [hb, Int.add_zero])
    (by rw [hk, Int.add_zero]) h1 h2 h3 (by omega) (by omega) hsize]
  rfl

variable {t' : Token}

/-- `t` opens what `t'` closes -/
structure Paired (t t' : Token) : Prop where
  opens : t.type ≠ .error
  closes : t'.type ≠ .error
  brace : 0 ≤ brace t ∧ brace t ≤ 1
  bracket : 0 ≤ bracket t ∧ bracket t ≤ 1
  pos : 0 < Qjson.brace t + Qjson.bracket t
  brace' : Qjson.brace t' = - Qjson.brace t
  bracket' : Qjson.bracket t' = - Qjson.bracket t
  length : t'.text.length = 1

lemma Paired.of_items {c c' : Byte} (h : t.item = operator c) (h' : t'.item = operator c')
    (hc : c = 0x5B ∧ c' = 0x5D ∨ c = 0x7B ∧ c' = 0x7D) : Paired t t' := by
  obtain ⟨h1, h2⟩ := item_count h
  obtain ⟨h3, h4⟩ := item_count h'
  have h5 : t'.text = [c'] := congrArg Prod.snd h'
  obtain ⟨rfl, rfl⟩ | ⟨rfl, rfl⟩ := hc
  · exact ⟨operator_type h, operator_type h', by rw [h1]; decide, by rw [h2]; decide,
      by rw [h1, h2]; decide, by rw [h1, h3]; rfl, by rw [h2, h4]; rfl, by rw [h5]; rfl⟩
  · exact ⟨operator_type h, operator_type h', by rw [h1]; decide, by rw [h2]; decide,
      by rw [h1, h2]; decide, by rw [h1, h3]; rfl, by rw [h2, h4]; rfl, by rw [h5]; rfl⟩

lemma Keeps.wrap (h : Keeps depth toks) (p : Paired t t') :
    Keeps (depth + 1) (t :: (toks ++ [t'])) := by
  obtain ⟨herr, herr', hb, hk, -, hb', hk', -⟩ := p
  intro s hs hsize
  obtain ⟨h1, h2, h3, h4, h5⟩ := hs
  rw [size_cons, size_append] at hsize
  have hopen := processToken_inside (s := s) herr rfl rfl (by omega) (by omega) (by omega)
    (by omega) (by omega) (by omega)
  generalize hs₁ : ({ s.keep [t] with braceCount := s.braceCount + brace t,
                                      bracketCount := s.bracketCount + bracket t } : Streamer) = s₁
    at hopen
  have e1 : s₁.braceCount = s.braceCount + brace t := by rw [← hs₁]
  have e2 : s₁.bracketCount = s.bracketCount + bracket t := by rw [← hs₁]
  have e3 : s₁.tokenSize = s.tokenSize + t.text.length := by rw [← hs₁]; rfl
  have hbody := h s₁ (by unfold Inside; rw [e1]; omega) (by rw [e3]; omega)
  have hclose := processToken_inside (s := s₁.keep toks) (b := s.braceCount) (k := s.bracketCount)
    herr' (by show s₁.braceCount + brace t' = _; omega)
    (by show s₁.bracketCount + bracket t' = _; omega) h1 h2 h3 (by omega) (by omega)
    (by show s₁.tokenSize + size toks + t'.text.length ≤ _
        have : size [t'] = t'.text.length := rfl
        omega)
  rw [Transduce.run_cons, hopen, Transduce.run_append, hbody, Transduce.run_singleton, hclose,
    Streamer.keep_keep]
  rw [← hs₁]
  refine Prod.ext ?_ rfl
  unfold Streamer.keep
  simp only [append_assoc, Nat.add_assoc, size_cons, size_nil, Nat.zero_add,
    singleton_append]

/-- the streamer keeps tokens of these types and texts -/
def KeepsItems (depth : Nat) (its : List Item) : Prop :=
  ∀ toks : List Token, toks.map Token.item = its → Keeps depth toks

lemma KeepsItems.nil (depth : Nat) : KeepsItems depth [] := by
  intro toks htoks
  obtain rfl := List.map_eq_nil_iff.mp htoks
  exact .nil depth

lemma KeepsItems.append {its its' : List Item} (h : KeepsItems depth its)
    (h' : KeepsItems depth its') : KeepsItems depth (its ++ its') := by
  intro toks htoks
  obtain ⟨toks₁, toks₂, rfl, htoks₁, htoks₂⟩ := List.map_eq_append_iff.mp htoks
  exact (h toks₁ htoks₁).append (h' toks₂ htoks₂)

lemma KeepsItems.operator {c : Byte} (hc : c = 0x2C ∨ c = 0x3A) :
    KeepsItems depth [operator c] := by
  intro toks htoks
  obtain ⟨t, rfl, ht⟩ := scalar_of_items htoks
  obtain ⟨hb, hk⟩ := item_count ht
  obtain rfl | rfl := hc <;> exact .single (operator_type ht) hb hk

lemma scalar_counts {ty : Terminal} (hty : ty ≠ .operator) (ht : t.type = .terminal ty) :
    t.type ≠ .error ∧ brace t = 0 ∧ bracket t = 0 := by
  have hne : t.type ≠ .terminal .operator := fun h => hty (TokenType.terminal.inj (ht.symm.trans h))
  exact ⟨fun h => (by cases ht.symm.trans h), if_neg hne, if_neg hne⟩

lemma KeepsItems.scalar {ty : Terminal} (hty : ty ≠ .operator) (text : List Byte) :
    KeepsItems depth [(.terminal ty, text)] := by
  intro toks htoks
  obtain ⟨t, rfl, ht⟩ := scalar_of_items htoks
  obtain ⟨herr, hb, hk⟩ := scalar_counts hty (congrArg Prod.fst ht)
  exact .single herr hb hk

lemma comma_keeps (count : Nat) : KeepsItems depth (commaItem count) := by
  unfold commaItem
  split
  · exact .operator (.inl rfl)
  · exact .nil depth

section
variable {snprintfF : Double → List Byte}

lemma list_keeps (h : ∀ x ∈ list, KeepsItems depth (items snprintfF x))
    (count : Nat) : KeepsItems depth (listItems snprintfF list count) := by
  induction list generalizing count with
  | nil =>
    exact .nil depth
  | cons x list ih =>
    obtain ⟨hx, hlist⟩ := List.forall_mem_cons.mp h
    exact ((comma_keeps count).append hx).append (ih hlist (count + 1))

lemma dict_keeps (es : Entries) (h : ∀ e ∈ es, KeepsItems depth (items snprintfF e.2))
    (count : Nat) : KeepsItems depth (dictItems snprintfF es count) := by
  induction es generalizing count with
  | nil =>
    exact .nil depth
  | cons e es ih =>
    obtain ⟨key, obj⟩ := e
    obtain ⟨hx, hes⟩ := List.forall_mem_cons.mp h
    have hkey : KeepsItems depth [(.terminal .string, quoted key)] := .scalar (by decide) _
    have hentry := hkey.append (.operator (c := 0x3A) (.inr rfl))
    exact (((comma_keeps count).append hentry).append hx).append (ih hes (count + 1))

/-- **inside a message the streamer keeps the tokens of an object** -/
theorem stream_inside (h : Built depth obj) : KeepsItems depth (items snprintfF obj) := by
  induction h with
  | int _ | bool _ | string _ =>
    exact .scalar (by decide) _
  | @list depth list _ ih =>
    intro toks htoks
    obtain ⟨t, body, t', rfl, ht, hbody, ht'⟩ := ends_of_items htoks
    exact (list_keeps list ih 0 body hbody).wrap (.of_items ht ht' (.inl ⟨rfl, rfl⟩))
  | @dict depth entries _ _ _ ih =>
    intro toks htoks
    obtain ⟨t, body, t', rfl, ht, hbody, ht'⟩ := ends_of_items htoks
    exact (dict_keeps entries ih 0 body hbody).wrap (.of_items ht ht' (.inr ⟨rfl, rfl⟩))

lemma stream_scalar (herr : t.type ≠ .error) (hb : brace t = 0) (hk : bracket t = 0) :
    Transduce.run processToken .init [t] = (.init, [{ tokens := some [t], limit := false }]) := by
  rw [Transduce.run_singleton]
  unfold processToken
  simp only [hb, hk]
  rw [if_neg herr]
  rfl

lemma stream_wrap (h : Keeps depth toks) (hd : depth < 1024) (p : Paired t t')
    (hsize : size (t :: (toks ++ [t'])) ≤ maxTokenSize + 1) :
    Transduce.run processToken .init (t :: (toks ++ [t'])) =
      (.init, [{ tokens := some (t :: (toks ++ [t'])), limit := false }]) := by
  obtain ⟨herr, herr', hb, hk, hpos, hb', hk', hlast⟩ := p
  rw [size_cons, size_append, size_cons] at hsize
  have hmax : (1024 : Int) = maxNesting := rfl
  have e1 : Streamer.init.braceCount + brace t = brace t := Int.zero_add _
  have e2 : Streamer.init.bracketCount + bracket t = bracket t := Int.zero_add _
  have e3 : Streamer.init.tokenSize + t.text.length = t.text.length := Nat.zero_add _
  have hopen := processToken_inside herr e1 e2 hb.1 hk.1 hpos (by omega) (by omega) (by omega)
  have hbody := h { Streamer.init.keep [t] with braceCount := brace t, bracketCount := bracket t }
    ⟨hb.1, hk.1, hpos, by show brace t + depth ≤ _; omega, by show bracket t + depth ≤ _; omega⟩
    (by show 0 + (t.text.length + 0) + size toks ≤ _; omega)
  rw [Transduce.run_cons, hopen, Transduce.run_append, hbody, Transduce.run_singleton]
  have c1 : brace t + brace t' = 0 := by omega
  have c2 : bracket t + bracket t' = 0 := by omega
  unfold processToken
  rw [if_neg herr']
  simp only [Streamer.keep, c1, c2]
  rfl

lemma stream_message (h : Built depth obj) (hd : depth ≤ 1000)
    (htoks : toks.map Token.item = items snprintfF obj) (hsize : size toks ≤ maxTokenSize + 1) :
    Transduce.run processToken .init toks = (.init, [{ tokens := some toks, limit := false }]) := by
  cases h with
  | int _ | bool _ | string _ =>
    obtain ⟨t, rfl, ht⟩ := scalar_of_items htoks
    obtain ⟨herr, hb, hk⟩ := scalar_counts (by decide) (congrArg Prod.fst ht)
    exact stream_scalar herr hb hk
  | list hb =>
    obtain ⟨t, body, t', rfl, ht, hbody, ht'⟩ := ends_of_items htoks
    exact stream_wrap (list_keeps _ (fun x hx => stream_inside (hb x hx)) 0 body hbody) (by omega)
      (.of_items ht ht' (.inl ⟨rfl, rfl⟩)) hsize
  | dict hnodup hkey hb =>
    obtain ⟨t, body, t', rfl, ht, hbody, ht'⟩ := ends_of_items htoks
    exact stream_wrap (dict_keeps _ (fun e he => stream_inside (hb e he)) 0 body hbody) (by omega)
      (.of_items ht ht' (.inr ⟨rfl, rfl⟩)) hsize

end

/-! ## the whole way -/

lemma flush_rest {l : Lexer} {w : Nat} {pend : List Item} (h : Rest l w pend) :
    (Input.lex l .flush).2.map Token.item = pend := by
  have hflush : ∀ {t : Terminal}, l.state ≠ .inStart → jsonLexer l.state 0 = .terminal t →
      (Input.lex l .flush).2 = (l.advance 0).accept t := by
    intro t hne hnext
    rw [← advance_state l 0] at hnext
    have hlook : terminalNeededLookahead (l.advance 0).state (.terminal t) = true := by
      unfold terminalNeededLookahead
      rw [hnext]
      exact beq_self_eq_true _
    show (if l.state = .inStart then (l, []) else jsonLexerFeedChar l 0 true).2 = _
    rw [if_neg hne]
    unfold jsonLexerFeedChar
    rw [feedLoop_flush hnext hlook]
    rfl
  cases h with
  | start hs ht =>
    show (if l.state = .inStart then (l, []) else jsonLexerFeedChar l 0 true).2.map Token.item = []
    rw [if_pos hs]
    rfl
  | white hs ht =>
    rw [hflush (by rw [hs]; decide) (by rw [hs]; rfl)]
    rfl
  | @value t hs =>
    have hnext : l.state ≠ .inStart ∧ jsonLexer l.state 0 = .terminal t ∧ t ≠ .skip := by
      generalize l.state = s at hs
      cases hs <;> exact ⟨by decide, rfl, by decide⟩
    rw [hflush hnext.1 hnext.2.1]
    unfold Lexer.accept
    rw [if_neg hnext.2.2]
    show [(TokenType.terminal t, (l.advance 0).token)] = _
    rw [advance_token]

/-- bytes of the printed object, without white space between the tokens -/
def jsonSize (snprintfF : Double → List Byte) (obj : QObject) : Nat :=
  ((items snprintfF obj).map fun it => it.2.length).sum

section
variable {snprintfF : Double → List Byte} {obj : QObject}

lemma size_of_items (h : toks.map Token.item = items snprintfF obj) :
    size toks = jsonSize snprintfF obj := by
  unfold size jsonSize
  rw [← h, map_map]
  rfl

lemma length_le_jsonSize {it : Item} (h : it ∈ items snprintfF obj) :
    it.2.length ≤ jsonSize snprintfF obj := by
  obtain ⟨its, its', he⟩ := append_of_mem h
  unfold jsonSize
  rw [he, map_append, map_cons, sum_append, sum_cons]
  omega

lemma fromJson_eq (string : List Byte) : qobjectFromJson string =
    (feedAll jsonMessageParserInit [.feed string, .flush]).2.foldlM
      (fun _ e => jsonParserParse e.tokens none) none := by
  unfold qobjectFromJson feedAll
  rw [Transduce.run_cons, Transduce.run_singleton]
  rfl

lemma roundtrip (pretty : Bool) (h : Built 1000 obj)
    (hsize : jsonSize snprintfF obj ≤ maxTokenSize + 1) :
    ∃ obj', qobjectFromJson (toJson snprintfF pretty obj 0) = .ok (some obj') ∧ Equal obj obj' := by
  have hreads : Reads jsonLexerInit (toJson snprintfF pretty obj 0) (items snprintfF obj) :=
    scan_value h (Nat.le_refl _) (fun it hit => Nat.le_trans (length_le_jsonSize hit) hsize)
      jsonLexerInit 0 (.start rfl rfl)
  obtain ⟨out, pend, ⟨l, toks, hlex, hout, hrest⟩, hitems⟩ := hreads
  have hall : (lexAll [.feed (toJson snprintfF pretty obj 0), .flush]).map Token.item =
      items snprintfF obj := by
    unfold lexAll
    rw [Transduce.run_cons, Transduce.run_singleton]
    show ((lexRun jsonLexerInit _).2 ++ (Input.lex (lexRun jsonLexerInit _).1 .flush).2).map _ = _
    rw [hlex, map_append, hout, flush_rest hrest, hitems]
  generalize hts : lexAll [.feed (toJson snprintfF pretty obj 0), .flush] = ts at hall
  have hmsg := stream_message h (Nat.le_refl _) hall (by rw [size_of_items hall]; exact hsize)
  obtain ⟨obj', h1, h2⟩ := parse_value h (ts.length + 1) { tokens := ts, taken := 0, err := none } ts []
    (append_nil ts).symm hall (Nat.lt_succ_self _)
  refine ⟨obj', ?_, h2⟩
  rw [fromJson_eq, feedAll_eq, hts, hmsg]
  show Except.bind (jsonParserParse (some ts) none) _ = _
  have hparse : jsonParserParse (some ts) none = .ok (some obj') := by
    cases ts with
    | nil =>
      obtain ⟨t, ts', he, -⟩ := items_head h hall
      cases he
    | cons t ts =>
      show Except.bind (Except.bind (parseValue none (ts.length + 2) _) _) _ = _
      rw [show ts.length + 2 = (t :: ts).length + 1 from rfl, h1]
      rfl
  rw [hparse]
  rfl

end

/-- **Parsing what `qobject_to_json` or `qobject_to_json_pretty` writes gives an equal object.** -/
theorem json_roundtrip (snprintfF : Double → List Byte) (obj : QObject) (h : Built 1000 obj)
    (hsize : jsonSize snprintfF obj ≤ maxTokenSize + 1) :
    (∃ obj', qobjectFromJson (qobjectToJson snprintfF obj) = .ok (some obj') ∧ Equal obj obj') ∧
      ∃ obj', qobjectFromJson (qobjectToJsonPretty snprintfF obj) = .ok (some obj') ∧
        Equal obj obj' :=
  ⟨roundtrip false h hsize, roundtrip true h hsize⟩

/-- a list of a number, a string with an escaped and a two-byte character, and a dictionary -/
theorem json_roundtrip_list : ∃ obj', qobjectFromJson (qobjectToJson (fun _ => [])
    (.list [.int (-7), .string (utf8 0x0A ++ utf8 0xE9), .dict [(utf8 0x61, .bool true)]])) =
      .ok (some obj') ∧ Equal (.list [.int (-7), .string (utf8 0x0A ++ utf8 0xE9),
        .dict [(utf8 0x61, .bool true)]]) obj' := by
  have htext : Text (utf8 0x0A ++ utf8 0xE9) := ⟨[0x0A, 0xE9], by unfold PlainCp; decide, rfl⟩
  have hkey : Text (utf8 0x61) := ⟨[0x61], by unfold PlainCp; decide, rfl⟩
  have hdict : Built 999 (.dict [(utf8 0x61, .bool true)]) :=
    .dict (List.nodup_cons.mpr ⟨not_mem_nil, nodup_nil⟩) (fun e he => List.mem_singleton.mp he ▸ hkey)
      (fun e he => List.mem_singleton.mp he ▸ .bool true)
  have hbuilt : Built 1000 (.list [.int (-7), .string (utf8 0x0A ++ utf8 0xE9),
      .dict [(utf8 0x61, .bool true)]]) :=
    .list (List.forall_mem_cons.mpr ⟨.int _, List.forall_mem_cons.mpr ⟨.string htext,
      List.forall_mem_cons.mpr ⟨hdict, fun _ h => absurd h not_mem_nil⟩⟩⟩)
  exact (json_roundtrip (fun _ => []) _ hbuilt (by decide +kernel)).1

/-! ## a string that is too long for a token -/

lemma plain_letters {n cp : Nat} (h : cp ∈ replicate n 0x61) : PlainCp cp := by
  rw [eq_of_mem_replicate h]
  unfold PlainCp
  decide

lemma length_escaped_letters (n : Nat) : (escaped (replicate n 0x61)).length = n := by
  rw [escaped, length_flatMap, map_replicate, sum_replicate_nat]
  exact Nat.mul_one n

/-- the last letter makes the token too long, and the quote behind it begins another string -/
lemma lex_oversized : ∃ t t', lexAll [.feed ([0x22] ++ escaped (replicate maxTokenSize 0x61) ++ [0x22]),
    .flush] = [t, t'] ∧ t.type = .state .inDqString ∧ t'.type = .error := by
  obtain ⟨k, hk⟩ : ∃ k, maxTokenSize = k + 1 := ⟨64 * 1024 * 1024 - 1, by decide⟩
  obtain ⟨l, h1, h2, h3⟩ := lexRun_walk (l := jsonLexerInit) ([0x22] ++ escaped (replicate k 0x61))
    (walk_append rfl (walk_escaped _ fun _ => plain_letters)) (by
      rw [length_append, length_escaped_letters, hk]
      exact (Nat.zero_add _).trans_le (Nat.add_comm 1 k).le)
  have hlen : ((l.advance 0x61).push 0x61).token.length > maxTokenSize := by
    rw [length_push_advance, h3, hk, length_append, length_append, length_escaped_letters]
    exact Nat.lt_succ_of_le (Nat.add_comm 1 k ▸ Nat.le_add_left _ _)
  have hlast : jsonLexerFeedChar l 0x61 false = _ :=
    (feedChar_step (s := .inDqString) (by rw [h2]; rfl) (by decide)).trans (if_pos hlen)
  have hrun : lexRun jsonLexerInit ([0x22] ++ escaped (replicate (k + 1) 0x61) ++ [0x22]) =
      lexRun l [0x61, 0x22] := by
    have htext : escaped (replicate (k + 1) 0x61) = escaped (replicate k 0x61) ++ [0x61] := by
      rw [escaped, replicate_succ', flatMap_append]
      rfl
    unfold lexRun at h1 ⊢
    rw [htext, ← append_assoc, append_assoc, Transduce.run_append, h1]
    rfl
  unfold lexAll
  rw [Transduce.run_cons, Transduce.run_singleton, hk]
  show ∃ t t', (lexRun jsonLexerInit _).2 ++ (Input.lex (lexRun jsonLexerInit _).1 .flush).2 = [t, t'] ∧ _
  rw [hrun, lexRun, Transduce.run_cons, hlast]
  exact ⟨_, _, rfl, rfl, rfl⟩

lemma stream_oversized {t t' : Token} {s : State} (h : t.type = .state s) (h' : t'.type = .error) :
    (Transduce.run processToken .init [t, t']).2 = [⟨some [t], false⟩, ⟨none, false⟩] := by
  have hop : t.type ≠ .terminal .operator := by rw [h]; nofun
  rw [show [t, t'] = [t] ++ [t'] from rfl, Transduce.run_append,
    stream_scalar (by rw [h]; nofun) (if_neg hop) (if_neg hop), Transduce.run_singleton]
  exact congrArg _ (congrArg Prod.snd (if_pos h'))

lemma parse_state {t : Token} {s : State} (h : t.type = .state s) :
    jsonParserParse (some [t]) none = .ok none := by
  obtain ⟨_, text, x, y⟩ := t
  cases h
  rfl

lemma fromJson_oversized : qobjectFromJson (qobjectToJson (fun _ => [])
    (.string ((replicate maxTokenSize 0x61).flatMap utf8))) = .ok none := by
  obtain ⟨t, t', h, ht, ht'⟩ := lex_oversized
  show qobjectFromJson (quoted _) = _
  rw [quoted_utf8 fun _ => plain_letters, fromJson_eq, feedAll_eq, h, stream_oversized ht ht']
  show Except.bind (jsonParserParse (some [t]) none) _ = _
  rw [parse_state ht]
  rfl

/-- the noncharacter U+FFFE comes back as the replacement character, U+10000 as its two surrogates,
and a string of `maxTokenSize` letters not at all -/
theorem noncharacter_replaced :
    qobjectFromJson (qobjectToJson (fun _ => []) (.string (utf8 0xFFFE))) =
        .ok (some (.string (utf8 0xFFFD))) ∧
      ¬ Equal (.string (utf8 0xFFFE)) (.string (utf8 0xFFFD)) ∧
    qobjectFromJson (qobjectToJson (fun _ => []) (.string (utf8 0x10000))) =
        .ok (some (.string (utf8 0xD800 ++ utf8 0xDC00))) ∧
      ¬ Equal (.string (utf8 0x10000)) (.string (utf8 0xD800 ++ utf8 0xDC00)) ∧
    qobjectFromJson (qobjectToJson (fun _ => [])
      (.string ((replicate maxTokenSize 0x61).flatMap utf8))) = .ok none := by
  refine ⟨rfl, ?_, rfl, ?_, fromJson_oversized⟩
  · generalize h : utf8 0xFFFD = str
    intro he
    cases he
    exact absurd h (by decide)
  · generalize h : utf8 0xD800 ++ utf8 0xDC00 = str
    intro he
    cases he
    exact absurd h (by decide)

end Qjson
