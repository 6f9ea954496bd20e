import Mathlib.Algebra.Group.Nat.Defs
import Mathlib.Data.List.Basic
import TraceSyscallObj.Qjson.Printer

/-!
# Decoding modified UTF-8 (`util/unicode.c`)

`utf8` is the shortest encoding of a code point and `modUtf8` the one with `C0 80` for U+0000.

* `continuationLoop_some_iff`, `multi_some_iff`: the two loops of `mod_utf8_codepoint`;
* `modUtf8Codepoint_some_iff`: what is decoded is what `modUtf8` encodes;
* `mod_utf8_exact`: with the end of every sequence.
-/

namespace Qjson
open List

/-- the UTF-8 encoding of a code point -/
def utf8 (cp : Nat) : List Byte :=
  if cp < 0x80 then [BitVec.ofNat 8 cp]
  else if cp < 0x800 then [BitVec.ofNat 8 (0xC0 + cp / 64), BitVec.ofNat 8 (0x80 + cp % 64)]
  else if cp < 0x10000 then
    [BitVec.ofNat 8 (0xE0 + cp / 4096), BitVec.ofNat 8 (0x80 + cp / 64 % 64),
     BitVec.ofNat 8 (0x80 + cp % 64)]
  else
    [BitVec.ofNat 8 (0xF0 + cp / 262144), BitVec.ofNat 8 (0x80 + cp / 4096 % 64),
     BitVec.ofNat 8 (0x80 + cp / 64 % 64), BitVec.ofNat 8 (0x80 + cp % 64)]

def modUtf8 (cp : Nat) : List Byte := if cp = 0 then [0xC0, 0x80] else utf8 cp

/-- in the range of Unicode, no surrogate and none of the 66 noncharacters -/
def ValidCp (cp : Nat) : Prop :=
  cp ≤ 0x10FFFF ∧ ¬ (0xD800 ≤ cp ∧ cp ≤ 0xDFFF) ∧ ¬ (0xFDD0 ≤ cp ∧ cp ≤ 0xFDEF) ∧
    cp % 0x10000 < 0xFFFE

variable {n b cp c k i : Nat} {p rest : List Byte}

lemma toNat_byte (h : n < 256) : (BitVec.ofNat 8 n).toNat = n := by
  exact Nat.mod_eq_of_lt h

lemma and_low (x : Nat) : x &&& 0x3F = x % 64 := Nat.and_two_pow_sub_one_eq_mod x 6

lemma tail_byte : ∀ b < 256, b &&& 0xC0 = 0x80 ↔ 0x80 ≤ b ∧ b < 0xC0 := by decide +kernel

/-- the continuation byte with these six bits -/
def tailByte (x : Nat) : Byte := BitVec.ofNat 8 (0x80 + x)

/-! ## the loops -/

lemma continuationLoop_some_iff : continuationLoop n k i cp p = (some c, rest) ↔
    ∃ xs : List Nat, xs.length = k ∧ (∀ x ∈ xs, x < 64) ∧ p = xs.map tailByte ++ rest ∧
      c = xs.foldl (fun cp x => cp * 64 + x) cp ∧ (k = 0 ∨ i + k ≤ n) := by
  induction k generalizing i cp p with
  | zero =>
    constructor
    · intro h
      cases h
      exact ⟨[], rfl, forall_mem_nil _, rfl, rfl, .inl rfl⟩
    · rintro ⟨xs, hlen, -, rfl, rfl, -⟩
      obtain rfl := eq_nil_of_length_eq_zero hlen
      rfl
  | succ k ih =>
    rw [continuationLoop]
    constructor
    · intro h
      by_cases hi : i < n
      · cases p with
        | nil => simp at h
        | cons b p =>
          have hb := b.isLt
          simp only [if_pos hi, getD_cons_zero, ne_eq,
            tail_byte _ hb] at h
          by_cases hr : 0x80 ≤ b.toNat ∧ b.toNat < 0xC0
          · rw [if_neg (not_not_intro hr), ih, and_low, ← Nat.shiftLeft_add_eq_or_of_lt
              (Nat.mod_lt _ (by decide)), Nat.shiftLeft_eq] at h
            obtain ⟨xs, hlen, hxs, rfl, rfl, hn⟩ := h
            refine ⟨b.toNat % 64 :: xs, by rw [length_cons, hlen],
              List.forall_mem_cons.mpr ⟨Nat.mod_lt _ (by decide), hxs⟩, ?_, rfl, .inr (by omega)⟩
            have hbyte : tailByte (b.toNat % 64) = b := by
              apply BitVec.eq_of_toNat_eq
              rw [tailByte, toNat_byte (by omega)]
              omega
            rw [map_cons, cons_append, hbyte]
          · rw [if_pos hr] at h
            cases h
      · rw [if_neg hi] at h
        simp at h
    · rintro ⟨xs, hlen, hxs, rfl, rfl, hn⟩
      cases xs with
      | nil => cases hlen
      | cons x xs =>
        obtain ⟨hx, hxs⟩ := List.forall_mem_cons.mp hxs
        have hbyte : (tailByte x).toNat = 0x80 + x := toNat_byte (by omega)
        simp only [map_cons, cons_append, getD_cons_zero, ne_eq, hbyte,
          if_pos (show i < n by omega), tail_byte _ (show 0x80 + x < 256 by omega)]
        rw [if_neg (by omega), ih, and_low, ← Nat.shiftLeft_add_eq_or_of_lt
          (Nat.mod_lt _ (by decide)), Nat.shiftLeft_eq, show (0x80 + x) % 64 = x by omega]
        exact ⟨xs, Nat.succ.inj hlen, hxs, rfl, rfl, by omega⟩

/-- the number of bytes that the first one announces -/
def seqLen (b : Nat) : Nat :=
  if b < 0xE0 then 2 else if b < 0xF0 then 3 else if b < 0xF8 then 4 else if b < 0xFC then 5 else 6

lemma two_le_seqLen (b : Nat) : 2 ≤ seqLen b := by
  unfold seqLen
  split_ifs <;> decide

lemma leadLoop_eq : ∀ b < 0xFE, 0xC0 ≤ b → b &&& 0x40 ≠ 0 ∧
    leadLoop b 8 0x80 0 = (2 ^ (7 - seqLen b), seqLen b) ∧
    b &&& (2 ^ (7 - seqLen b) - 1) = b % 2 ^ (7 - seqLen b) := by decide +kernel

lemma noncharacter_iff (cp : Nat) : cp &&& 0xFFFE = 0xFFFE ↔ 0xFFFE ≤ cp % 0x10000 := by
  have hhigh : (cp &&& 0xFFFE) / 2 = cp / 2 % 2 ^ 15 := by
    rw [Nat.and_div_two]
    exact Nat.and_two_pow_sub_one_eq_mod (cp / 2) 15
  have hlow := Nat.and_mod_two_eq_one (a := cp) (b := 0xFFFE)
  omega

lemma validCp_some_iff {len : Nat} :
    validCp len cp = some c ↔ c = cp ∧ ValidCp cp ∧ (minCp len ≤ cp ∨ cp = 0 ∧ len = 2) := by
  unfold validCp ValidCp
  simp only [noncharacter_iff]
  grind

lemma multi_some_iff (h1 : 0xC0 ≤ b) (h2 : b < 0xFE) :
    modUtf8Codepoint n (BitVec.ofNat 8 b :: p) = (some c, rest) ↔
    ∃ xs : List Nat, xs.length = seqLen b - 1 ∧ (∀ x ∈ xs, x < 64) ∧ p = xs.map tailByte ++ rest ∧
      seqLen b ≤ n ∧ c = xs.foldl (fun cp x => cp * 64 + x) (b % 2 ^ (7 - seqLen b)) ∧
      ValidCp c ∧ (minCp (seqLen b) ≤ c ∨ c = 0 ∧ seqLen b = 2) := by
  obtain ⟨h3, hlead, hbits⟩ := leadLoop_eq b h2 h1
  have hlen := two_le_seqLen b
  by_cases h0 : n = 0
  · subst h0
    constructor
    · intro h
      cases h
    · rintro ⟨xs, -, -, -, hn, -⟩
      omega
  have hrun : modUtf8Codepoint n (BitVec.ofNat 8 b :: p) =
      ((continuationLoop n (seqLen b - 1) 1 (b % 2 ^ (7 - seqLen b)) p).1.bind (validCp (seqLen b)),
        (continuationLoop n (seqLen b - 1) 1 (b % 2 ^ (7 - seqLen b)) p).2) := by
    simp only [modUtf8Codepoint, toNat_byte (show b < 256 by omega), hlead, hbits]
    rw [if_neg (by omega), if_neg (by omega), if_neg (by omega), if_neg h3]
    generalize continuationLoop n (seqLen b - 1) 1 (b % 2 ^ (7 - seqLen b)) p = r
    obtain ⟨_ | v, q⟩ := r
    · rfl
    · rfl
  rw [hrun, Prod.mk.injEq, Option.bind_eq_some_iff]
  constructor
  · rintro ⟨⟨v, hv, hc⟩, hq⟩
    obtain ⟨xs, hlen', hxs, hp, rfl, hn⟩ := continuationLoop_some_iff.mp (Prod.ext hv hq)
    obtain ⟨rfl, hvalid, hmin⟩ := validCp_some_iff.mp hc
    exact ⟨xs, hlen', hxs, hp, by omega, rfl, hvalid, hmin⟩
  · rintro ⟨xs, hlen', hxs, hp, hn, rfl, hvalid, hmin⟩
    have hcont : continuationLoop n (seqLen b - 1) 1 (b % 2 ^ (7 - seqLen b)) p = (some _, rest) :=
      continuationLoop_some_iff.mpr ⟨xs, hlen', hxs, hp, rfl, .inr (by omega)⟩
    rw [hcont]
    exact ⟨⟨_, rfl, validCp_some_iff.mpr ⟨rfl, hvalid, hmin⟩⟩, rfl⟩

/-! ## what is decoded -/

lemma modUtf8_multi {xs : List Nat} (h1 : 0xC0 ≤ b) (hlen : xs.length = seqLen b - 1)
    (hxs : ∀ x ∈ xs, x < 64) (hc : c = xs.foldl (fun cp x => cp * 64 + x) (b % 2 ^ (7 - seqLen b)))
    (htop : c ≤ 0x10FFFF) (hmin : minCp (seqLen b) ≤ c ∨ c = 0 ∧ seqLen b = 2) :
    modUtf8 c = BitVec.ofNat 8 b :: xs.map tailByte := by
  unfold seqLen at *
  unfold modUtf8 utf8
  split_ifs at hlen hc hmin with e2 e3 e4 e5
  · obtain ⟨y, rfl⟩ := List.length_eq_one_iff.mp hlen
    have hc : c = b % 32 * 64 + y := hc
    have hmin : 0x80 ≤ c ∨ c = 0 := hmin.imp_right And.left
    have hy := hxs y (by simp)
    split
    · rw [show b = 0xC0 by omega, show y = 0 by omega]
      rfl
    · rw [if_neg (by omega), if_pos (by omega), show 0xC0 + c / 64 = b by omega,
        show c % 64 = y by omega]
      rfl
  · obtain ⟨y, z, rfl⟩ := List.length_eq_two.mp hlen
    have hc : c = (b % 16 * 64 + y) * 64 + z := hc
    have hmin : 0x800 ≤ c := hmin.resolve_right (by simp)
    have hy := hxs y (by simp)
    have hz := hxs z (by simp)
    rw [if_neg (by omega), if_neg (by omega), if_neg (by omega), if_pos (by omega),
      show 0xE0 + c / 4096 = b by omega, show c / 64 % 64 = y by omega, show c % 64 = z by omega]
    rfl
  · obtain ⟨y, z, w, rfl⟩ := List.length_eq_three.mp hlen
    have hc : c = ((b % 8 * 64 + y) * 64 + z) * 64 + w := hc
    have hmin : 0x10000 ≤ c := hmin.resolve_right (by simp)
    have hy := hxs y (by simp)
    have hz := hxs z (by simp)
    have hw := hxs w (by simp)
    rw [if_neg (by omega), if_neg (by omega), if_neg (by omega), if_neg (by omega),
      show 0xF0 + c / 262144 = b by omega, show c / 4096 % 64 = y by omega,
      show c / 64 % 64 = z by omega, show c % 64 = w by omega]
    rfl
  -- five and six bytes begin beyond the range of Unicode
  · have hmin : 0x200000 ≤ c := hmin.resolve_right (by simp)
    omega
  · have hmin : 0x4000000 ≤ c := hmin.resolve_right (by simp)
    omega

lemma exists_multi (h : ¬ (0 < c ∧ c < 0x80)) (htop : c ≤ 0x10FFFF) :
    ∃ b, ∃ xs : List Nat, 0xC0 ≤ b ∧ b < 0xFE ∧ xs.length = seqLen b - 1 ∧ (∀ x ∈ xs, x < 64) ∧
      c = xs.foldl (fun cp x => cp * 64 + x) (b % 2 ^ (7 - seqLen b)) ∧
      (minCp (seqLen b) ≤ c ∨ c = 0 ∧ seqLen b = 2) := by
  by_cases h2 : c < 0x800
  · have hlen : seqLen (0xC0 + c / 64) = 2 := if_pos (by omega)
    refine ⟨0xC0 + c / 64, [c % 64], by omega, by omega, ?_⟩
    rw [hlen]
    refine ⟨rfl, by simp; omega, ?_, ?_⟩
    · show c = (0xC0 + c / 64) % 32 * 64 + c % 64
      omega
    · exact (show 0x80 ≤ c ∨ c = 0 by omega).imp_right (⟨·, rfl⟩)
  by_cases h3 : c < 0x10000
  · have hlen : seqLen (0xE0 + c / 4096) = 3 := (if_neg (by omega)).trans (if_pos (by omega))
    refine ⟨0xE0 + c / 4096, [c / 64 % 64, c % 64], by omega, by omega, ?_⟩
    rw [hlen]
    refine ⟨rfl, by simp; omega, ?_, .inl (Nat.le_of_not_lt h2)⟩
    show c = ((0xE0 + c / 4096) % 16 * 64 + c / 64 % 64) * 64 + c % 64
    omega
  · have hlen : seqLen (0xF0 + c / 262144) = 4 :=
      (if_neg (by omega)).trans ((if_neg (by omega)).trans (if_pos (by omega)))
    refine ⟨0xF0 + c / 262144, [c / 4096 % 64, c / 64 % 64, c % 64], by omega, by omega, ?_⟩
    rw [hlen]
    refine ⟨rfl, by simp; omega, ?_, .inl (Nat.le_of_not_lt h3)⟩
    show c = (((0xF0 + c / 262144) % 8 * 64 + c / 4096 % 64) * 64 + c / 64 % 64) * 64 + c % 64
    omega

lemma single_decoded (hb : b < 256) (hmulti : ¬ (0xC0 ≤ b ∧ b < 0xFE)) :
    modUtf8Codepoint n (BitVec.ofNat 8 b :: p) =
      if n = 0 ∨ b = 0 then (none, BitVec.ofNat 8 b :: p)
      else if b < 0x80 then (some b, p) else (none, p) := by
  have htail : ∀ b < 0xC0, 0x80 ≤ b → b &&& 0x40 = 0 := by decide +kernel
  simp only [modUtf8Codepoint, toNat_byte hb]
  split_ifs with h0 h1 h2 h3
  · rfl
  · rfl
  · rfl
  · rfl
  · exact absurd (htail b (by omega) (by omega)) h3

/-- **a code point is decoded exactly from its encoding** -/
theorem modUtf8Codepoint_some_iff {s : List Byte} : modUtf8Codepoint n s = (some c, rest) ↔
    ValidCp c ∧ s = modUtf8 c ++ rest ∧ (modUtf8 c).length ≤ n := by
  constructor
  · intro h
    cases s with
    | nil => cases h
    | cons b p =>
      obtain ⟨b, hb, rfl⟩ : ∃ m, m < 256 ∧ b = BitVec.ofNat 8 m :=
        ⟨b.toNat, b.isLt, (BitVec.ofNat_toNat 8 b).symm⟩
      by_cases hmulti : 0xC0 ≤ b ∧ b < 0xFE
      · obtain ⟨xs, hlen, hxs, rfl, hn, hc, hvalid, hmin⟩ :=
          (multi_some_iff hmulti.1 hmulti.2).mp h
        rw [modUtf8_multi hmulti.1 hlen hxs hc hvalid.1 hmin]
        refine ⟨hvalid, rfl, ?_⟩
        have htwo := two_le_seqLen b
        rw [length_cons, length_map]
        omega
      · rw [single_decoded hb hmulti] at h
        by_cases h0 : n = 0 ∨ b = 0
        · rw [if_pos h0] at h
          cases h
        rw [if_neg h0] at h
        by_cases h1 : b < 0x80
        · rw [if_pos h1] at h
          obtain ⟨rfl, rfl⟩ : b = c ∧ p = rest := by simpa using h
          unfold ValidCp modUtf8 utf8
          rw [if_neg (by omega), if_pos h1]
          exact ⟨by omega, rfl, Nat.pos_of_ne_zero fun e => h0 (.inl e)⟩
        · rw [if_neg h1] at h
          cases h
  · rintro ⟨hvalid, rfl, hn⟩
    by_cases h1 : 0 < c ∧ c < 0x80
    · unfold modUtf8 utf8 at hn ⊢
      rw [if_neg (by omega), if_pos h1.2] at hn ⊢
      refine (single_decoded (by omega) (by omega)).trans ((if_neg ?_).trans (if_pos h1.2))
      exact not_or_intro (Nat.ne_of_gt hn) (by omega)
    obtain ⟨b, xs, hb, hb', hlen, hxs, hc, hmin⟩ := exists_multi h1 hvalid.1
    rw [modUtf8_multi hb hlen hxs hc hvalid.1 hmin] at hn ⊢
    rw [length_cons, length_map] at hn
    exact (multi_some_iff hb hb').mpr ⟨xs, hlen, hxs, rfl, by omega, hc, hvalid, hmin⟩

/-! ## the end of a sequence -/

lemma continuationLoop_suffix (n k i cp : Nat) (p : List Byte) :
    (continuationLoop n k i cp p).2 <:+ p := by
  induction k generalizing i cp p with
  | zero => exact suffix_rfl
  | succ k ih =>
    rw [continuationLoop]
    by_cases hb : (if i < n then (p.getD 0 0).toNat else 0) &&& 0xC0 ≠ 0x80
    · exact Eq.subst (motive := fun r : Option Nat × List Byte => r.2 <:+ p) (if_pos hb).symm
        suffix_rfl
    · rw [if_neg hb]
      exact (ih _ _ _).trans (tail_suffix p)

lemma modUtf8Codepoint_suffix {b : Byte} (hn : n ≠ 0) (hb : b.toNat ≠ 0) :
    (modUtf8Codepoint n (b :: p)).2 <:+ p := by
  rw [modUtf8Codepoint, if_neg (not_or_intro hn hb)]
  split_ifs with h1 h2 h3
  · exact suffix_rfl
  · exact suffix_rfl
  · exact suffix_rfl
  · have h := continuationLoop_suffix n ((leadLoop b.toNat 8 0x80 0).2 - 1) 1
      (b.toNat &&& ((leadLoop b.toNat 8 0x80 0).1 - 1)) p
    dsimp only
    split
    next heq =>
      rw [heq] at h
      exact h
    next heq =>
      rw [heq] at h
      exact h

/-- **`mod_utf8_codepoint` accepts exactly the modified UTF-8 encodings**, within `n` bytes and with
the end just behind, and every other sequence that is not empty ends behind its first byte -/
theorem mod_utf8_exact (n : Nat) (s : List Byte) :
    (∀ c rest, modUtf8Codepoint n s = (some c, rest) ↔
      ValidCp c ∧ s = modUtf8 c ++ rest ∧ (modUtf8 c).length ≤ n) ∧
    (modUtf8Codepoint n s).2 <:+ s ∧
    (n ≠ 0 → (s.getD 0 0).toNat ≠ 0 → (modUtf8Codepoint n s).2.length < s.length) := by
  refine ⟨fun c rest => modUtf8Codepoint_some_iff, ?_⟩
  cases s with
  | nil => exact ⟨suffix_rfl, fun _ h => absurd rfl h⟩
  | cons b p =>
    by_cases h0 : n = 0 ∨ b.toNat = 0
    · rw [modUtf8Codepoint, if_pos h0]
      exact ⟨suffix_rfl, fun h1 h2 => absurd h0 (not_or_intro h1 h2)⟩
    · obtain ⟨h1, h2⟩ := not_or.mp h0
      have h := modUtf8Codepoint_suffix (p := p) h1 h2
      exact ⟨h.trans (suffix_cons b p), fun _ _ => Nat.lt_succ_of_le h.length_le⟩

end Qjson
