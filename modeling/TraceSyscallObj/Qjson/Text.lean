import Mathlib.Data.List.TakeWhile
import TraceSyscallObj.Qjson.Unicode

/-!
# Strings and numbers, written and read back

The printer decodes the encoding of a code point, writes it as itself or escaped,
and the parser encodes it again.  The code points for which this is the identity are `PlainCp`: the
parser reads a surrogate pair as two code points, and `mod_utf8_codepoint` refuses noncharacters.

* `modUtf8Codepoint_utf8`: decoding;
* `wcharToUtf8_eq`: encoding;
* `unescape_quoted`: a string comes back;
* `strtoll_decimal`: a number comes back.
-/

namespace Qjson
open List

/-! ## UTF-8 -/

/-- not NUL, in the basic plane, no surrogate and no noncharacter -/
def PlainCp (cp : Nat) : Prop :=
  0 < cp ∧ cp ≤ 0xFFFF ∧ ¬ (0xD800 ≤ cp ∧ cp ≤ 0xDFFF) ∧ ¬ (0xFDD0 ≤ cp ∧ cp ≤ 0xFDEF) ∧
    cp ≠ 0xFFFE ∧ cp ≠ 0xFFFF

variable {n : Nat}

lemma lead_or : (∀ x < 32, 0xC0 ||| x = 0xC0 + x) ∧ (∀ x < 16, 0xE0 ||| x = 0xE0 + x) ∧
    ∀ x < 64, 0x80 ||| x = 0x80 + x := by decide

variable {cp : Nat}

lemma modUtf8Codepoint_utf8 (h : PlainCp cp) (rest : List Byte) :
    modUtf8Codepoint 6 (utf8 cp ++ rest) = (some cp, rest) := by
  obtain ⟨h0, h1, h2, h3, h4, h5⟩ := h
  have hutf8 : modUtf8 cp = utf8 cp := if_neg (Nat.ne_of_gt h0)
  refine modUtf8Codepoint_some_iff.mpr ⟨⟨by omega, h2, h3, by omega⟩, by rw [hutf8], ?_⟩
  rw [hutf8, utf8]
  split_ifs <;> simp

lemma wcharToUtf8_eq (h : cp ≤ 0xFFFF) : wcharToUtf8 cp = utf8 cp := by
  have e1 : cp &&& 0x7F = cp % 128 := Nat.and_two_pow_sub_one_eq_mod cp 7
  have e2 : (cp >>> 6) &&& 0x1F = cp / 64 % 32 := by
    rw [Nat.shiftRight_eq_div_pow]
    exact Nat.and_two_pow_sub_one_eq_mod _ 5
  have e3 : (cp >>> 12) &&& 0x0F = cp / 4096 % 16 := by
    rw [Nat.shiftRight_eq_div_pow]
    exact Nat.and_two_pow_sub_one_eq_mod _ 4
  have e4 : (cp >>> 6) &&& 0x3F = cp / 64 % 64 := by
    rw [Nat.shiftRight_eq_div_pow]
    exact and_low _
  unfold wcharToUtf8 utf8
  by_cases h1 : cp < 0x80
  · rw [if_pos (by omega), if_pos h1, e1, Nat.mod_eq_of_lt h1]
  rw [if_neg (by omega), if_neg h1]
  by_cases h2 : cp < 0x800
  · rw [if_pos (by omega), if_pos h2, e2, and_low, Nat.mod_eq_of_lt (show cp / 64 < 32 by omega),
      lead_or.1 _ (by omega), lead_or.2.2 _ (Nat.mod_lt _ (by decide))]
  · rw [if_neg (by omega), if_neg h2, if_pos (by omega), e3, e4, and_low,
      Nat.mod_eq_of_lt (show cp / 4096 < 16 by omega), lead_or.2.1 _ (by omega),
      lead_or.2.2 _ (Nat.mod_lt _ (by decide)), lead_or.2.2 _ (Nat.mod_lt _ (by decide))]

lemma utf8_ne_zero (h : PlainCp cp) : ∀ c ∈ utf8 cp, c ≠ 0 := by
  have hpos : 0 < cp := h.1
  have hcp : cp ≤ 0xFFFF := h.2.1
  have hne : ∀ n, 0 < n → n < 256 → BitVec.ofNat 8 n ≠ 0 := by
    intro n h0 h1 he
    have h2 := congrArg BitVec.toNat he
    rw [toNat_byte h1] at h2
    exact absurd h2 (by show n ≠ 0; omega)
  unfold utf8
  intro c hc
  split at hc
  · rw [List.mem_singleton.mp hc]
    exact hne _ (by omega) (by omega)
  split at hc
  · simp only [mem_cons, not_mem_nil, or_false] at hc
    rcases hc with rfl | rfl
    · exact hne _ (by omega) (by omega)
    · exact hne _ (by omega) (by omega)
  · rw [if_pos (by omega)] at hc
    simp only [mem_cons, not_mem_nil, or_false] at hc
    rcases hc with rfl | rfl | rfl
    · exact hne _ (by omega) (by omega)
    · exact hne _ (by omega) (by omega)
    · exact hne _ (by omega) (by omega)

/-! ## strings -/

/-- the text of the code points `cps`, as the printer writes it between the quotes -/
def escaped (cps : List Nat) : List Byte := cps.flatMap fun cp => escapeCp (some cp)

lemma utf8_head (h : PlainCp cp) (rest : List Byte) : ((utf8 cp ++ rest).getD 0 0).toNat ≠ 0 := by
  have hnz := utf8_ne_zero h
  cases hu : utf8 cp with
  | nil =>
    unfold utf8 at hu
    split at hu
    · cases hu
    · split at hu
      · cases hu
      · split at hu <;> cases hu
  | cons c cs =>
    intro h0
    rw [hu] at hnz
    exact hnz c mem_cons_self (BitVec.eq_of_toNat_eq h0)

lemma length_utf8_pos (h : PlainCp cp) : 0 < (utf8 cp).length := by
  cases hu : utf8 cp with
  | nil =>
    have h1 := utf8_head h []
    rw [hu] at h1
    exact absurd rfl h1
  | cons c cs => exact Nat.succ_pos _

lemma escapeLoop_utf8 (cps : List Nat) (h : ∀ cp ∈ cps, PlainCp cp) :
    ∀ fuel, cps.length ≤ fuel → escapeLoop fuel (cps.flatMap utf8) = escaped cps := by
  induction cps with
  | nil =>
    intro fuel _
    cases fuel with
    | zero | succ fuel => rfl
  | cons cp cps ih =>
    intro fuel hf
    obtain ⟨hcp, hcps⟩ := List.forall_mem_cons.mp h
    cases fuel with
    | zero => exact absurd hf (Nat.not_succ_le_zero _)
    | succ fuel =>
      rw [flatMap_cons]
      show (if _ then [] else _) = _
      rw [if_neg (utf8_head hcp _), modUtf8Codepoint_utf8 hcp, ih hcps fuel (Nat.le_of_succ_le_succ hf)]
      rfl

lemma length_flatMap_utf8 (cps : List Nat) (h : ∀ cp ∈ cps, PlainCp cp) :
    cps.length ≤ (cps.flatMap utf8).length := by
  induction cps with
  | nil => exact Nat.le_refl 0
  | cons cp cps ih =>
    obtain ⟨hcp, hcps⟩ := List.forall_mem_cons.mp h
    have h1 := length_utf8_pos hcp
    have h2 := ih hcps
    rw [flatMap_cons, length_append, length_cons]
    omega

lemma quoted_utf8 {cps : List Nat} (h : ∀ cp ∈ cps, PlainCp cp) :
    quoted (cps.flatMap utf8) = [0x22] ++ escaped cps ++ [0x22] := by
  unfold quoted
  rw [escapeLoop_utf8 cps h _ (length_flatMap_utf8 cps h)]

lemma hexDigit_digit : ∀ n < 16, HexDigit (hexDigit n).toNat ∧ hex2decimal (hexDigit n) = n := by
  decide

lemma or_nibbles {a b c d : Nat} (hb : b < 16) (hc : c < 16) (hd : d < 16) :
    a <<< 12 ||| b <<< 8 ||| c <<< 4 ||| d = a * 4096 + b * 256 + c * 16 + d := by
  have h1 : c <<< 4 ||| d = c * 16 + d := by
    rw [← Nat.shiftLeft_add_eq_or_of_lt hd, Nat.shiftLeft_eq]
  have h2 : b <<< 8 ||| (c * 16 + d) = b * 256 + (c * 16 + d) := by
    rw [← Nat.shiftLeft_add_eq_or_of_lt (show c * 16 + d < 256 by omega), Nat.shiftLeft_eq]
  have h3 : a <<< 12 ||| (b * 256 + (c * 16 + d)) = a * 4096 + (b * 256 + (c * 16 + d)) := by
    rw [← Nat.shiftLeft_add_eq_or_of_lt (show b * 256 + (c * 16 + d) < 4096 by omega),
      Nat.shiftLeft_eq]
  rw [Nat.or_assoc, Nat.or_assoc, ← Nat.or_assoc (b <<< 8), Nat.or_assoc (b <<< 8), h1, h2, h3]
  omega

lemma unescapeLoop_ucode (h : PlainCp cp) (ptr str : List Byte) :
    unescapeLoop 0x22 (ucodeEscape cp ++ ptr) str = unescapeLoop 0x22 ptr (str ++ utf8 cp) := by
  have hcp : cp ≤ 0xFFFF := h.2.1
  obtain ⟨a1, a2⟩ := hexDigit_digit (cp / 4096 % 16) (Nat.mod_lt _ (by decide))
  obtain ⟨b1, b2⟩ := hexDigit_digit (cp / 256 % 16) (Nat.mod_lt _ (by decide))
  obtain ⟨c1, c2⟩ := hexDigit_digit (cp / 16 % 16) (Nat.mod_lt _ (by decide))
  obtain ⟨d1, d2⟩ := hexDigit_digit (cp % 16) (Nat.mod_lt _ (by decide))
  have hvalue : hex2decimal (hexDigit (cp / 4096 % 16)) <<< 12 |||
      hex2decimal (hexDigit (cp / 256 % 16)) <<< 8 ||| hex2decimal (hexDigit (cp / 16 % 16)) <<< 4 |||
      hex2decimal (hexDigit (cp % 16)) = cp := by
    rw [b2, c2, d2, or_nibbles (Nat.mod_lt _ (by decide)) (Nat.mod_lt _ (by decide))
      (Nat.mod_lt _ (by decide))]
    omega
  have hall : (utf8 cp).takeWhile (· ≠ 0) = utf8 cp := by
    rw [takeWhile_eq_self_iff]
    exact fun c hc => decide_eq_true (utf8_ne_zero h c hc)
  show unescapeLoop 0x22 (0x5C :: 0x75 :: hexDigit (cp / 4096 % 16) :: hexDigit (cp / 256 % 16) ::
    hexDigit (cp / 16 % 16) :: hexDigit (cp % 16) :: ptr) str = _
  have hesc : simpleEscape (0x75 : Byte).toNat = none := by decide
  rw [unescapeLoop, if_neg (by decide), if_pos (by decide)]
  simp only [hesc]
  rw [if_pos (by decide), if_pos ⟨a1, b1, c1, d1⟩, hvalue, wcharToUtf8_eq hcp, hall]

lemma unescapeLoop_simple {e : Byte} (h : simpleEscape e.toNat = some n) (ptr str : List Byte) :
    unescapeLoop 0x22 (0x5C :: e :: ptr) str = unescapeLoop 0x22 ptr (str ++ [BitVec.ofNat 8 n]) := by
  rw [unescapeLoop.eq_def]
  dsimp only
  rw [if_neg (by decide), if_pos (by decide)]
  simp only [h]

lemma unescapeLoop_cp (h : PlainCp cp) (ptr str : List Byte) :
    unescapeLoop 0x22 (escapeCp (some cp) ++ ptr) str = unescapeLoop 0x22 ptr (str ++ utf8 cp) := by
  have hcp : cp ≤ 0xFFFF := h.2.1
  have hletter : ∀ {cp : Nat} {e : Byte}, simpleEscape e.toNat = some cp → cp < 0x80 →
      unescapeLoop 0x22 ([0x5C, e] ++ ptr) str = unescapeLoop 0x22 ptr (str ++ utf8 cp) := by
    intro cp e he hlt
    have hu : utf8 cp = [BitVec.ofNat 8 cp] := if_pos hlt
    rw [hu]
    exact unescapeLoop_simple he ptr str
  unfold escapeCp
  simp only [Option.getD_some]
  -- the quote, the backslash and the five letters
  iterate 7
    split
    next he =>
      subst he
      exact hletter (by decide) (by decide)
  rw [if_neg (by omega)]
  split
  · exact unescapeLoop_ucode h ptr str
  next hquote hback _ _ _ _ _ hasc =>
    have hu : utf8 cp = [BitVec.ofNat 8 cp] := if_pos (by omega)
    have hn : (BitVec.ofNat 8 cp).toNat = cp := toNat_byte (by omega)
    show unescapeLoop 0x22 (BitVec.ofNat 8 cp :: ptr) str = _
    rw [hu, unescapeLoop.eq_def]
    dsimp only
    rw [hn, if_neg (by omega), if_neg hback]

lemma unescapeLoop_escaped (cps : List Nat) (h : ∀ cp ∈ cps, PlainCp cp) : ∀ str,
    unescapeLoop 0x22 (escaped cps ++ [0x22]) str = .ok (str ++ cps.flatMap utf8) := by
  induction cps with
  | nil =>
    intro str
    rw [flatMap_nil, append_nil]
    rfl
  | cons cp cps ih =>
    intro str
    obtain ⟨hcp, hcps⟩ := List.forall_mem_cons.mp h
    show unescapeLoop 0x22 ((escapeCp (some cp) ++ escaped cps) ++ [0x22]) str = _
    rw [append_assoc, unescapeLoop_cp hcp, ih hcps, flatMap_cons, append_assoc]

/-- **a string comes back** -/
theorem unescape_quoted {cps : List Nat} (h : ∀ cp ∈ cps, PlainCp cp) :
    unescape (quoted (cps.flatMap utf8)) = .ok (cps.flatMap utf8) := by
  rw [quoted_utf8 h]
  exact unescapeLoop_escaped cps h []

/-! ## numbers -/

lemma digit_byte (h : n < 10) : (BitVec.ofNat 8 (0x30 + n)).toNat = 0x30 + n :=
  toNat_byte (by omega)

lemma decimalLoop_digit (fuel : Nat) : ∀ n, ∀ c ∈ decimalLoop fuel n, Digit c.toNat := by
  induction fuel with
  | zero =>
    intro n c hc
    cases hc
  | succ fuel ih =>
    intro n c hc
    unfold decimalLoop at hc
    have hlast : ∀ m, m < 10 → Digit (BitVec.ofNat 8 (0x30 + m)).toNat := by
      intro m hm
      rw [digit_byte hm]
      omega
    split at hc
    next hn =>
      rw [List.mem_singleton.mp hc]
      exact hlast n hn
    next hn =>
      rcases List.mem_append.mp hc with hc | hc
      · exact ih (n / 10) c hc
      · rw [List.mem_singleton.mp hc]
        exact hlast (n % 10) (Nat.mod_lt n (by decide))

lemma length_decimalLoop (fuel : Nat) : ∀ n, (decimalLoop fuel n).length ≤ fuel := by
  induction fuel with
  | zero =>
    intro n
    exact Nat.le_refl 0
  | succ fuel ih =>
    intro n
    unfold decimalLoop
    split
    · exact Nat.succ_le_succ (Nat.zero_le _)
    · rw [length_append]
      exact Nat.succ_le_succ (ih (n / 10))

lemma decimalLoop_head (fuel : Nat) : ∀ n, 0 < n → n < 10 ^ fuel →
    ∃ c cs, decimalLoop fuel n = c :: cs ∧ 0x31 ≤ c.toNat ∧ c.toNat ≤ 0x39 := by
  induction fuel with
  | zero =>
    intro n h0 h1
    omega
  | succ fuel ih =>
    intro n h0 h1
    unfold decimalLoop
    split
    next hn =>
      refine ⟨_, [], rfl, ?_⟩
      rw [digit_byte hn]
      omega
    next hn =>
      obtain ⟨c, cs, he, hc⟩ := ih (n / 10) (by omega) (by omega)
      rw [he]
      exact ⟨c, cs ++ [_], rfl, hc⟩

def foldDigits (text : List Byte) : Nat := text.foldl (fun v c => v * 10 + (c.toNat - 0x30)) 0

lemma foldDigits_decimalLoop (fuel : Nat) : ∀ n, n < 10 ^ fuel →
    foldDigits (decimalLoop fuel n) = n := by
  induction fuel with
  | zero =>
    intro n h
    show 0 = n
    omega
  | succ fuel ih =>
    intro n h
    unfold decimalLoop
    split
    next hn =>
      show 0 * 10 + ((BitVec.ofNat 8 (0x30 + n)).toNat - 0x30) = n
      rw [digit_byte hn]
      omega
    next hn =>
      have hfold : foldDigits (decimalLoop fuel (n / 10) ++ [BitVec.ofNat 8 (0x30 + n % 10)]) =
          foldDigits (decimalLoop fuel (n / 10)) * 10 +
            ((BitVec.ofNat 8 (0x30 + n % 10)).toNat - 0x30) := by
        unfold foldDigits
        rw [foldl_append]
        rfl
      rw [hfold, ih (n / 10) (by omega), digit_byte (Nat.mod_lt n (by decide))]
      omega

lemma digitsValue_decimalLoop (h : n < 10 ^ 19) : digitsValue (decimalLoop 19 n) = n := by
  have hall : (decimalLoop 19 n).takeWhile (fun c => decide (Digit c.toNat)) = decimalLoop 19 n := by
    rw [takeWhile_eq_self_iff]
    exact fun c hc => decide_eq_true (decimalLoop_digit 19 n c hc)
  unfold digitsValue
  rw [hall]
  exact foldDigits_decimalLoop 19 n h

/-- **a number comes back** -/
theorem strtoll_decimal (value : BitVec 64) : strtoll (decimal value) = some value.toInt := by
  have h1 : value.toInt < 9223372036854775808 := value.toInt_lt
  have h2 : -9223372036854775808 ≤ value.toInt := value.le_toInt
  have hbound : value.toInt.natAbs < 10 ^ 19 := by
    omega
  have hval := digitsValue_decimalLoop hbound
  unfold strtoll decimal
  by_cases hneg : value.toInt < 0
  · rw [if_pos hneg]
    have he : -(digitsValue (decimalLoop 19 value.toInt.natAbs) : Int) = value.toInt := by
      omega
    have hminus : (0x2D : Byte).toNat = 0x2D := rfl
    simp only [getD_cons_zero, tail_cons, if_pos hminus, he]
    rw [if_pos ⟨by omega, by omega⟩]
  · have hminus : ((decimalLoop 19 value.toInt.natAbs).getD 0 0).toNat ≠ 0x2D := by
      cases hd : decimalLoop 19 value.toInt.natAbs with
      | nil => exact by decide
      | cons c cs =>
        have hc := decimalLoop_digit 19 value.toInt.natAbs c (by rw [hd]; exact mem_cons_self)
        show c.toNat ≠ 0x2D
        omega
    have he : (digitsValue (decimalLoop 19 value.toInt.natAbs) : Int) = value.toInt := by
      omega
    rw [if_neg hneg]
    simp only [if_neg hminus, he]
    rw [if_pos ⟨by omega, by omega⟩]

end Qjson
