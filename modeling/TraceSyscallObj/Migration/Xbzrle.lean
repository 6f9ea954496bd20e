import Mathlib.Algebra.Group.Int.Defs
import TraceSyscallObj.Lib.Bytes

/-!
# XBZRLE (`xbzrle.c`, `cutils.c`)

A page is sent as the bytes that differ from an older copy of it: runs of equal bytes (`zrun`) and
of different bytes (`nzrun`) in turn, each with its length as a ULEB128 number of at most 14 bits,
the different bytes after theirs.

* `zrunEnd_spec`, `nzrunEnd_spec`: the word-wise scans stop where a byte-wise scan does;
* `encodeLoop_encoded`: one turn of the encoder is undone by one turn of the decoder, by induction
  over the turns;
* `xbzrle_roundtrip`: decoding what was encoded gives the new page.
-/

namespace Xbzrle
open Bytes
variable {n : Nat}

inductive Fault where
  | assertion
  | fuel
  deriving DecidableEq, Repr

/-- `*(buf + k) = v` -/
def poke (buf : Buf) (k : Nat) (v : Byte) : Buf := fun j => if j = k then v else buf j

/-- writes `n` at `out + d`, returns its length -/
def uleb128EncodeSmall (out : Buf) (d n : Nat) : Except Fault (Buf × Nat) :=
  if ¬ n ≤ 0x3fff then .error .assertion
  else if n < 0x80 then .ok (poke out d (BitVec.ofNat 8 n), 1)
  else .ok (poke (poke out d (BitVec.ofNat 8 (n &&& 0x7f ||| 0x80))) (d + 1)
    (BitVec.ofNat 8 (n >>> 7)), 2)

/-- the length of the number at `src + i`, and the number; `none` for -1 -/
def uleb128DecodeSmall (src : Buf) (i : Nat) : Option (Nat × Nat) :=
  if src i &&& 0x80 = 0 then some (1, (src i).toNat)
  else if src (i + 1) &&& 0x80 ≠ 0 then none
  else some (2, (src i &&& 0x7f).toNat ||| (src (i + 1)).toNat <<< 7)

/-! ## the scans of the encoder

`W` is `sizeof(long)`.  The loops count `i` up together with the length of the run, which is 0 when
the scan starts; the length is the distance that `i` has moved. -/

/-- `while (n && p(i)) { i++; n--; }` -/
def scan (p : Nat → Bool) : Nat → Nat → Nat
  | 0, i => i
  | n + 1, i => if p i then scan p n (i + 1) else i

section
variable (W : Nat) (old new : Buf) (slen : Nat)

/-- a word at a time while both are equal -/
def zrunWords : Nat → Nat → Nat
  | 0, i => i
  | n + 1, i =>
    if i < slen ∧ word old W i = word new W i then zrunWords n (i + W) else i

/-- the end of the run of equal bytes at `i` -/
def zrunEnd (i : Nat) : Nat :=
  let res := (slen - i) % W
  let i₁ := scan (fun k => old k == new k) res i
  if res - (i₁ - i) = 0 then
    let i₂ := zrunWords W old new slen (slen - i₁) i₁
    -- go over the rest
    scan (fun k => old k == new k) (slen - i₂) i₂
  else i₁

/-- `while (old_buf[i] != new_buf[i]) i++`, with no bound in the source -/
def untilEqual : Nat → Nat → Except Fault Nat
  | 0, _ => .error .fuel
  | n + 1, i => if old i ≠ new i then untilEqual n (i + 1) else .ok i

/-- a word at a time while no byte of the two is equal -/
def nzrunWords : Nat → Nat → Except Fault Nat
  | 0, _ => .error .fuel
  | n + 1, i =>
    if i < slen then
      if zeroBytes (word old W i ^^^ word new W i) ≠ 0 then untilEqual old new W i
      else nzrunWords n (i + W)
    else .ok i

/-- the end of the run of different bytes at `i` -/
def nzrunEnd (i : Nat) : Except Fault Nat :=
  let res := (slen - i) % W
  let i₁ := scan (fun k => old k != new k) res i
  if res - (i₁ - i) = 0 then nzrunWords W old new slen (slen + 1) i₁ else .ok i₁

end

/-! ## the two functions -/

/-- the loop of the encoder, one turn for a run of equal and a run of different bytes -/
def encodeLoop (W : Nat) (old new : Buf) (slen : Nat) (dlen : Int) :
    Nat → Nat → Buf → Nat → Except Fault (Int × Buf)
  | 0, _, _, _ => .error .fuel
  | fuel + 1, i, dst, d =>
    if ¬ i < slen then .ok (d, dst)
    else if (d : Int) + 2 > dlen then .ok (-1, dst)
    else
      let j := zrunEnd W old new slen i
      -- buffer unchanged
      if j - i = slen then .ok (0, dst)
      -- skip last zero run
      else if j = slen then .ok (d, dst)
      else match uleb128EncodeSmall dst d (j - i) with
        | .error e => .error e
        | .ok (dst₁, n₁) =>
          if ((d + n₁ : Nat) : Int) + 2 > dlen then .ok (-1, dst₁)
          else match nzrunEnd W old new slen j with
            | .error e => .error e
            | .ok k => match uleb128EncodeSmall dst₁ (d + n₁) (k - j) with
              | .error e => .error e
              | .ok (dst₂, n₂) =>
                -- an unsigned comparison
                if ((d + n₁ + n₂ + (k - j) : Nat) : Int) % 2 ^ 32 > dlen % 2 ^ 32 then
                  .ok (-1, dst₂)
                else encodeLoop W old new slen dlen fuel k
                  (memcpy dst₂ (d + n₁ + n₂) new j (k - j)) (d + n₁ + n₂ + (k - j))

def xbzrleEncodeBuffer (W : Nat) (old new : Buf) (slen : Nat) (dst : Buf) (dlen : Int) :
    Except Fault (Int × Buf) :=
  if slen % W ≠ 0 then .error .assertion
  else encodeLoop W old new slen dlen (slen + 1) 0 dst 0

def decodeLoop (src : Buf) (slen dlen : Nat) :
    Nat → Nat → Buf → Nat → Except Fault (Int × Buf)
  | 0, _, _, _ => .error .fuel
  | fuel + 1, i, dst, d =>
    if ¬ i < slen then .ok (d, dst)
    else if slen - i < 2 then .ok (-1, dst)
    else match uleb128DecodeSmall src i with
      | none => .ok (-1, dst)
      | some (ret, count) =>
        if i ≠ 0 ∧ count = 0 then .ok (-1, dst)
        else if d + count > dlen then .ok (-1, dst)
        else if slen - (i + ret) < 2 then .ok (-1, dst)
        else match uleb128DecodeSmall src (i + ret) with
          | none => .ok (-1, dst)
          | some (ret', count') =>
            if count' = 0 then .ok (-1, dst)
            else if d + count + count' > dlen ∨ i + ret + ret' + count' > slen then .ok (-1, dst)
            else decodeLoop src slen dlen fuel (i + ret + ret' + count')
              (memcpy dst (d + count) src (i + ret + ret') count') (d + count + count')

def xbzrleDecodeBuffer (src : Buf) (slen : Nat) (dst : Buf) (dlen : Nat) :
    Except Fault (Int × Buf) :=
  decodeLoop src slen dlen (slen + 1) 0 dst 0

/-! ## where the scans stop -/

/-- `p` holds from `i` up to `j` -/
structure Run (p : Nat → Prop) (i j : Nat) : Prop where
  le : i ≤ j
  all : ∀ k, i ≤ k → k < j → p k

section
variable {p : Nat → Prop} {i j k : Nat}

lemma Run.refl (p : Nat → Prop) (i : Nat) : Run p i i :=
  ⟨Nat.le_refl i, fun _ h1 h2 => absurd h2 (Nat.not_lt.mpr h1)⟩

lemma Run.trans (r : Run p i j) (s : Run p j k) : Run p i k := by
  refine ⟨Nat.le_trans r.le s.le, fun l h1 h2 => ?_⟩
  by_cases hl : l < j
  · exact r.all l h1 hl
  · exact s.all l (Nat.not_lt.mp hl) h2

lemma Run.of_add (h : ∀ k < n, p (i + k)) : Run p i (i + n) := by
  refine ⟨Nat.le_add_right i n, fun k h1 h2 => ?_⟩
  have hk := h (k - i) (by omega)
  rwa [Nat.add_sub_cancel' h1] at hk

lemma Run.one (h : p i) : Run p i (i + 1) :=
  .of_add fun k hk => by rwa [Nat.lt_one_iff.mp hk]

end

lemma scan_spec {p : Nat → Bool} {q : Nat → Prop} (hq : ∀ k, p k ↔ q k) (n i : Nat) :
    Run q i (scan p n i) ∧ scan p n i ≤ i + n ∧ (scan p n i = i + n ∨ ¬ q (scan p n i)) := by
  induction n generalizing i with
  | zero => exact ⟨.refl q i, Nat.le_refl i, .inl rfl⟩
  | succ n ih =>
    by_cases hp : p i
    · have e : scan p (n + 1) i = scan p n (i + 1) := if_pos hp
      obtain ⟨h1, h2, h3⟩ := ih (i + 1)
      rw [e]
      refine ⟨(Run.one ((hq i).mp hp)).trans h1, by omega, ?_⟩
      rcases h3 with h3 | h3
      · exact .inl (by omega)
      · exact .inr h3
    · have e : scan p (n + 1) i = i := if_neg hp
      rw [e]
      exact ⟨.refl q i, by omega, .inr (mt (hq i).mpr hp)⟩

section
variable {W : Nat} {old new : Buf} {slen i : Nat}

lemma sub_mod_of_dvd {a b : Nat} (h : a % W = 0) (hb : W ≤ a) (e : b = a - W) : b % W = 0 := by
  subst e
  rw [← h]
  exact (Nat.mod_eq_sub_mod hb).symm

lemma zrunWords_spec (old new : Buf) (n : Nat) (hi : i ≤ slen) (hd : (slen - i) % W = 0) :
    Run (fun k => old k = new k) i (zrunWords W old new slen n i) ∧
      zrunWords W old new slen n i ≤ slen := by
  induction n generalizing i with
  | zero => exact ⟨.refl _ i, hi⟩
  | succ n ih =>
    by_cases h : i < slen ∧ word old W i = word new W i
    · have e : zrunWords W old new slen (n + 1) i = zrunWords W old new slen n (i + W) := if_pos h
      rw [e]
      -- what is left is a positive multiple of the word
      have hle : W ≤ slen - i := Nat.le_of_dvd (by omega) (Nat.dvd_of_mod_eq_zero hd)
      obtain ⟨h1, h2⟩ := ih (i := i + W) (by omega) (sub_mod_of_dvd hd hle (by omega))
      exact ⟨(Run.of_add ((word_eq_iff old new W i).mp h.2)).trans h1, h2⟩
    · have e : zrunWords W old new slen (n + 1) i = i := if_neg h
      rw [e]
      exact ⟨.refl _ i, hi⟩

lemma head_cases {p : Nat → Bool} {q : Nat → Prop} (hq : ∀ k, p k ↔ q k) (hi : i ≤ slen) :
    let i₁ := scan p ((slen - i) % W) i
    Run q i i₁ ∧ i₁ ≤ slen ∧
      ((slen - i) % W - (i₁ - i) = 0 ∧ (slen - i₁) % W = 0 ∨
        ¬ (slen - i) % W - (i₁ - i) = 0 ∧ ¬ q i₁) := by
  obtain ⟨h1, h2, h3⟩ := scan_spec hq ((slen - i) % W) i
  have hr := Nat.mod_le (slen - i) W
  have hle := h1.le
  refine ⟨h1, by omega, ?_⟩
  by_cases h : (slen - i) % W - (scan p ((slen - i) % W) i - i) = 0
  · refine .inl ⟨h, ?_⟩
    have e : slen - scan p ((slen - i) % W) i = slen - i - (slen - i) % W := by omega
    rw [e]
    exact Nat.sub_mod_eq_zero_of_mod_eq (Nat.mod_mod _ _).symm
  · exact .inr ⟨h, h3.resolve_left (by omega)⟩

/-- **The run of equal bytes.** -/
theorem zrunEnd_spec (W : Nat) (old new : Buf) (hi : i ≤ slen) :
    Run (fun k => old k = new k) i (zrunEnd W old new slen i) ∧
      zrunEnd W old new slen i ≤ slen ∧
      (zrunEnd W old new slen i = slen ∨
        old (zrunEnd W old new slen i) ≠ new (zrunEnd W old new slen i)) := by
  have hq : ∀ k, (old k == new k) = true ↔ old k = new k := fun k => beq_iff_eq
  unfold zrunEnd
  obtain ⟨h1, h2, ⟨h3, h4⟩ | ⟨h3, h4⟩⟩ := head_cases (W := W) hq hi
  · rw [if_pos h3]
    generalize scan (fun k => old k == new k) ((slen - i) % W) i = i₁ at *
    obtain ⟨w1, w2⟩ := zrunWords_spec old new (slen - i₁) h2 h4
    generalize zrunWords W old new slen (slen - i₁) i₁ = i₂ at *
    obtain ⟨s1, s2, s3⟩ := scan_spec hq (slen - i₂) i₂
    rw [Nat.add_sub_cancel' w2] at s2 s3
    exact ⟨(h1.trans w1).trans s1, s2, s3⟩
  · rw [if_neg h3]
    exact ⟨h1, h2, .inr h4⟩

lemma untilEqual_spec {k : Nat} (hk : k < n) (he : old (i + k) = new (i + k)) :
    ∃ j, untilEqual old new n i = .ok j ∧ Run (fun k => old k ≠ new k) i j ∧ j ≤ i + k ∧
      old j = new j := by
  induction n generalizing i k with
  | zero => omega
  | succ n ih =>
    by_cases h : old i ≠ new i
    · have hk0 : k ≠ 0 := fun e => h (by rw [e] at he; exact he)
      have e : untilEqual old new (n + 1) i = untilEqual old new n (i + 1) := if_pos h
      have he' : old (i + 1 + (k - 1)) = new (i + 1 + (k - 1)) := by
        rw [show i + 1 + (k - 1) = i + k by omega]
        exact he
      obtain ⟨j, h1, h2, h3, h4⟩ := ih (i := i + 1) (by omega) he'
      exact ⟨j, e.trans h1, (Run.one h).trans h2, by omega, h4⟩
    · have e : untilEqual old new (n + 1) i = .ok i := if_neg h
      exact ⟨i, e, .refl _ i, by omega, not_not.mp h⟩

lemma nzrunWords_spec (old new : Buf) (hW : 0 < W) (n : Nat) (hn : slen < n + i) (hi : i ≤ slen)
    (hd : (slen - i) % W = 0) :
    ∃ j, nzrunWords W old new slen n i = .ok j ∧ Run (fun k => old k ≠ new k) i j ∧ j ≤ slen ∧
      (j = slen ∨ old j = new j) := by
  induction n generalizing i with
  | zero => omega
  | succ n ih =>
    by_cases his : i < slen
    · have e : nzrunWords W old new slen (n + 1) i =
          if zeroBytes (word old W i ^^^ word new W i) ≠ 0 then untilEqual old new W i
          else nzrunWords W old new slen n (i + W) := if_pos his
      have hle : W ≤ slen - i := Nat.le_of_dvd (by omega) (Nat.dvd_of_mod_eq_zero hd)
      by_cases hz : zeroBytes (word old W i ^^^ word new W i) ≠ 0
      · -- the end of the run lies within this word
        obtain ⟨k, hk, hkk⟩ := (zeroBytes_ne_zero old new W i).mp hz
        obtain ⟨j, h1, h2, h3, h4⟩ := untilEqual_spec hk hkk
        rw [e, if_pos hz]
        exact ⟨j, h1, h2, by omega, .inr h4⟩
      · have hne : ∀ k < W, old (i + k) ≠ new (i + k) := fun k hk he =>
          hz ((zeroBytes_ne_zero old new W i).mpr ⟨k, hk, he⟩)
        obtain ⟨j, h1, h2, h3, h4⟩ :=
          ih (i := i + W) (by omega) (by omega) (sub_mod_of_dvd hd hle (by omega))
        rw [e, if_neg hz]
        exact ⟨j, h1, (Run.of_add hne).trans h2, h3, h4⟩
    · have e : nzrunWords W old new slen (n + 1) i = .ok i := if_neg his
      exact ⟨i, e, .refl _ i, hi, .inl (by omega)⟩

/-- **The run of different bytes.** -/
theorem nzrunEnd_spec (hW : 0 < W) (hi : i < slen) (hne : old i ≠ new i) :
    ∃ j, nzrunEnd W old new slen i = .ok j ∧ i < j ∧ j ≤ slen ∧ (j = slen ∨ old j = new j) := by
  have hq : ∀ k, (old k != new k) = true ↔ old k ≠ new k := fun k => bne_iff_ne
  suffices h : ∃ j, nzrunEnd W old new slen i = .ok j ∧ i ≤ j ∧ j ≤ slen ∧
      (j = slen ∨ old j = new j) by
    obtain ⟨j, h1, h2, h3, h4⟩ := h
    have hj : j ≠ i := by
      intro e
      subst e
      rcases h4 with h4 | h4
      · omega
      · exact hne h4
    exact ⟨j, h1, by omega, h3, h4⟩
  unfold nzrunEnd
  obtain ⟨h1, h2, ⟨h3, h4⟩ | ⟨h3, h4⟩⟩ := head_cases (W := W) hq (Nat.le_of_lt hi)
  · rw [if_pos h3]
    obtain ⟨j, w1, w2, w3, w4⟩ := nzrunWords_spec old new hW (slen + 1) (by omega) h2 h4
    exact ⟨j, w1, (h1.trans w2).le, w3, w4⟩
  · rw [if_neg h3]
    exact ⟨_, rfl, h1.le, h2, .inr (not_not.mp h4)⟩

end

/-! ## numbers -/

lemma poke_same (buf : Buf) (k : Nat) (v : Byte) : poke buf k v k = v := if_pos rfl

lemma poke_ne (buf : Buf) {j k : Nat} (v : Byte) (h : j ≠ k) : poke buf k v j = buf j := if_neg h

lemma byte_small : ∀ b < 128, BitVec.ofNat 8 b &&& 0x80 = 0 ∧ (BitVec.ofNat 8 b).toNat = b := by
  decide

lemma uleb128_two (h1 : 0x80 ≤ n) (h2 : n ≤ 0x3fff) :
    BitVec.ofNat 8 (n &&& 0x7f ||| 0x80) &&& 0x80 ≠ 0 ∧ BitVec.ofNat 8 (n >>> 7) &&& 0x80 = 0 ∧
      (BitVec.ofNat 8 (n &&& 0x7f ||| 0x80) &&& 0x7f).toNat |||
        (BitVec.ofNat 8 (n >>> 7)).toNat <<< 7 = n := by
  have e1 : n &&& 0x7f = n % 128 := Nat.and_two_pow_sub_one_eq_mod n 7
  have e2 : n >>> 7 = n / 128 := Nat.shiftRight_eq_div_pow n 7
  have e3 : n % 128 ||| 0x80 = n % 128 + 128 := by
    rw [Nat.or_comm, ← Nat.two_pow_add_eq_or_of_lt (i := 7) (Nat.mod_lt n (by decide)) 1]
    omega
  have ha : ∀ a < 128, BitVec.ofNat 8 (a + 128) &&& 0x80 ≠ 0 ∧
      (BitVec.ofNat 8 (a + 128) &&& 0x7f).toNat = a := by decide
  obtain ⟨a1, a2⟩ := ha (n % 128) (Nat.mod_lt n (by decide))
  obtain ⟨b1, b2⟩ := byte_small (n / 128) (by omega)
  rw [e1, e2, e3]
  refine ⟨a1, b1, ?_⟩
  rw [a2, Nat.or_comm, ← Nat.shiftLeft_add_eq_or_of_lt (Nat.mod_lt n (by decide))]
  omega

lemma uleb128_roundtrip (out : Buf) (d : Nat) (h : n ≤ 0x3fff) :
    ∃ out' len, uleb128EncodeSmall out d n = .ok (out', len) ∧ 1 ≤ len ∧ len ≤ 2 ∧
      (∀ k < d, out' k = out k) ∧
      ∀ src : Buf, (∀ k < d + len, src k = out' k) → uleb128DecodeSmall src d = some (len, n) := by
  unfold uleb128EncodeSmall
  rw [if_neg (not_not.mpr h)]
  by_cases h1 : n < 0x80
  · rw [if_pos h1]
    refine ⟨_, _, rfl, by omega, by omega, fun k hk => poke_ne _ _ (by omega), fun src hsrc => ?_⟩
    obtain ⟨b1, b2⟩ := byte_small n h1
    have e : src d = BitVec.ofNat 8 n := (hsrc d (by omega)).trans (poke_same _ _ _)
    unfold uleb128DecodeSmall
    rw [e, if_pos b1, b2]
  · rw [if_neg h1]
    obtain ⟨b1, b2, b3⟩ := uleb128_two (by omega) h
    refine ⟨_, _, rfl, by omega, by omega, fun k hk => ?_, fun src hsrc => ?_⟩
    · rw [poke_ne _ _ (by omega), poke_ne _ _ (by omega)]
    have e1 : src d = BitVec.ofNat 8 (n &&& 0x7f ||| 0x80) := by
      rw [hsrc d (by omega), poke_ne _ _ (by omega), poke_same]
    have e2 : src (d + 1) = BitVec.ofNat 8 (n >>> 7) := by
      rw [hsrc (d + 1) (by omega), poke_same]
    unfold uleb128DecodeSmall
    rw [e1, e2, if_neg b1, if_neg (not_not.mpr b2), b3]

/-! ## the round trip -/

section
variable {W : Nat} {old new : Buf} {slen : Nat} {dlen : Int}

/-- the buffer of the decoder when it has reached `i`: the new page up to there -/
structure Patched (old new : Buf) (i : Nat) (buf : Buf) : Prop where
  done : ∀ k < i, buf k = new k
  todo : ∀ k, i ≤ k → buf k = old k

lemma Patched.skip {buf : Buf} {i j : Nat} (h : Patched old new i buf)
    (he : Run (fun k => old k = new k) i j) : Patched old new j buf := by
  refine ⟨fun k hk => ?_, fun k hk => h.todo k (Nat.le_trans he.le hk)⟩
  by_cases hki : k < i
  · exact h.done k hki
  · rw [h.todo k (by omega)]
    exact he.all k (by omega) hk

lemma Patched.copy {buf src : Buf} {i j k : Nat} (h : Patched old new j buf) (hjk : j ≤ k)
    (hsrc : ∀ l, j ≤ l → l < k → src (i + (l - j)) = new l) :
    Patched old new k (memcpy buf j src i (k - j)) := by
  refine ⟨fun l hl => ?_, fun l hl => ?_⟩
  · by_cases hlj : l < j
    · exact (if_neg (by omega)).trans (h.done l hlj)
    · exact (if_pos (by omega)).trans (hsrc l (by omega) hl)
  · exact (if_neg (by omega)).trans (h.todo l (by omega))

lemma decodeLoop_turn {src : Buf} {dlen d n₁ n₂ z r : Nat} (buf : Buf) (fuel i : Nat)
    (h1 : uleb128DecodeSmall src d = some (n₁, z))
    (h2 : uleb128DecodeSmall src (d + n₁) = some (n₂, r))
    (hn₁ : 1 ≤ n₁) (hn₂ : 1 ≤ n₂) (hz : d ≠ 0 → z ≠ 0) (hr : 0 < r) (hd : i + z + r ≤ dlen)
    (hn : d + n₁ + n₂ + r ≤ n) :
    decodeLoop src n dlen (fuel + 1) d buf i =
      decodeLoop src n dlen fuel (d + n₁ + n₂ + r) (memcpy buf (i + z) src (d + n₁ + n₂) r)
        (i + z + r) := by
  rw [decodeLoop, if_neg (by omega), if_neg (by omega), h1]
  dsimp only
  rw [if_neg (fun k => hz k.1 k.2), if_neg (by omega), if_neg (by omega), h2]
  dsimp only
  rw [if_neg (by omega), if_neg (by omega)]

/-- how a call of the encoder that goes on from `i` and `d` ends -/
inductive Encoded (old new : Buf) (slen i d : Nat) (dst : Buf) : Int → Buf → Prop where
  | full (out : Buf) : Encoded old new slen i d dst (-1) out
  | same (out : Buf) : 0 < slen → (∀ k < slen, old k = new k) → Encoded old new slen i d dst 0 out
  | done (n : Nat) (out : Buf) : d ≤ n → (i < slen → 0 < n) → (∀ k < d, out k = dst k) →
      (∀ buf fuel, Patched old new i buf → n < fuel + d →
        ∃ r buf', decodeLoop out n slen fuel d buf i = .ok (r, buf') ∧ 0 ≤ r ∧
          Patched old new slen buf') →
      Encoded old new slen i d dst n out

lemma Encoded.stop {i d : Nat} (dst : Buf) (hd : i < slen → 0 < d)
    (he : Run (fun k => old k = new k) i slen) : Encoded old new slen i d dst d dst := by
  refine .done d _ (Nat.le_refl d) hd (fun _ _ => rfl) (fun buf fuel hp hf => ?_)
  cases fuel with
  | zero => omega
  | succ fuel => exact ⟨_, _, if_pos (Nat.lt_irrefl d), by omega, hp.skip he⟩

lemma Encoded.turn {i j k d n₁ n₂ : Nat} {dst dst₁ dst₂ : Buf} {n : Int} {out : Buf}
    (heq : Run (fun l => old l = new l) i j) (hjk : j < k) (hk : k ≤ slen) (hn₁ : 1 ≤ n₁)
    (hn₂ : 1 ≤ n₂) (hz : d ≠ 0 → i < j)
    (h1 : ∀ l < d, dst₁ l = dst l) (h2 : ∀ l < d + n₁, dst₂ l = dst₁ l)
    (r1 : ∀ src : Buf, (∀ l < d + n₁, src l = dst₁ l) →
      uleb128DecodeSmall src d = some (n₁, j - i))
    (r2 : ∀ src : Buf, (∀ l < d + n₁ + n₂, src l = dst₂ l) →
      uleb128DecodeSmall src (d + n₁) = some (n₂, k - j))
    (h : Encoded old new slen k (d + n₁ + n₂ + (k - j))
      (memcpy dst₂ (d + n₁ + n₂) new j (k - j)) n out) : Encoded old new slen i d dst n out := by
  cases h with
  | full => exact .full _
  | same _ hs he => exact .same _ hs he
  | done n _ hle _ hkeep hdec =>
    have hij := heq.le
    have hold : ∀ l < d + n₁ + n₂, out l = dst₂ l := fun l hl =>
      (hkeep l (by omega)).trans (if_neg (by omega))
    have hnew : ∀ l, j ≤ l → l < k → out (d + n₁ + n₂ + (l - j)) = new l := by
      intro l hl hl'
      rw [hkeep _ (by omega)]
      refine (if_pos (by omega)).trans ?_
      rw [show j + (d + n₁ + n₂ + (l - j) - (d + n₁ + n₂)) = l by omega]
    have e1 := r1 out fun l hl => (hold l (by omega)).trans (h2 l hl)
    have e2 := r2 out hold
    refine .done n _ (by omega) (fun _ => by omega) (fun l hl => ?_) (fun buf fuel hp hf => ?_)
    · rw [hold l (by omega), h2 l (by omega), h1 l hl]
    cases fuel with
    | zero => omega
    | succ fuel =>
      have hturn := decodeLoop_turn buf fuel i e1 e2 hn₁ hn₂
        (fun hd => by have := hz hd; omega) (by omega) (by omega : i + (j - i) + (k - j) ≤ slen)
        hle
      rw [hturn, show i + (j - i) = j by omega, show j + (k - j) = k by omega]
      exact hdec _ fuel ((hp.skip heq).copy (by omega) hnew) (by omega)

/-- **The rounds of the encoder**, by induction over them. -/
theorem encodeLoop_encoded (old new : Buf) (dlen : Int) (hW : 0 < W) (hl : slen ≤ 0x3fff)
    (fuel i d : Nat) (dst : Buf) (hi : i ≤ slen) (hf : slen < fuel + i) (hd : d = 0 → i = 0)
    (he : d ≠ 0 → i < slen → old i = new i) :
    ∃ n out, encodeLoop W old new slen dlen fuel i dst d = .ok (n, out) ∧
      Encoded old new slen i d dst n out := by
  induction fuel generalizing i d dst with
  | zero => omega
  | succ fuel ih =>
    rw [encodeLoop]
    by_cases his : i < slen
    · rw [if_neg (not_not.mpr his)]
      by_cases h1 : (d : Int) + 2 > dlen
      · rw [if_pos h1]
        exact ⟨_, _, rfl, .full _⟩
      rw [if_neg h1]
      obtain ⟨z1, z2, z3⟩ := zrunEnd_spec W old new hi
      have z4 := z1.le
      generalize zrunEnd W old new slen i = j at *
      by_cases h2 : j - i = slen
      · rw [if_pos h2]
        exact ⟨_, _, rfl, .same _ (by omega) fun k hk => z1.all k (by omega) (by omega)⟩
      rw [if_neg h2]
      by_cases h3 : j = slen
      · rw [if_pos h3]
        exact ⟨_, _, rfl, .stop dst (fun _ => by omega) (h3 ▸ z1)⟩
      rw [if_neg h3]
      have hne : old j ≠ new j := z3.resolve_left h3
      obtain ⟨dst₁, n₁, u1, u2, u3, u4, u5⟩ :=
        uleb128_roundtrip dst d (n := j - i) (by omega)
      rw [u1]
      dsimp only
      by_cases h4 : ((d + n₁ : Nat) : Int) + 2 > dlen
      · rw [if_pos h4]
        exact ⟨_, _, rfl, .full _⟩
      rw [if_neg h4]
      obtain ⟨k, w1, w2, w3, w4⟩ := nzrunEnd_spec hW (by omega : j < slen) hne
      rw [w1]
      dsimp only
      obtain ⟨dst₂, n₂, v1, v2, v3, v4, v5⟩ :=
        uleb128_roundtrip dst₁ (d + n₁) (n := k - j) (by omega)
      rw [v1]
      dsimp only
      by_cases h5 : ((d + n₁ + n₂ + (k - j) : Nat) : Int) % 2 ^ 32 > dlen % 2 ^ 32
      · rw [if_pos h5]
        exact ⟨_, _, rfl, .full _⟩
      rw [if_neg h5]
      obtain ⟨n, out, e1, e2⟩ := ih k (d + n₁ + n₂ + (k - j))
        (memcpy dst₂ (d + n₁ + n₂) new j (k - j)) w3 (by omega) (by omega)
        (fun _ hk => w4.resolve_left (by omega))
      refine ⟨n, out, e1, e2.turn z1 w2 w3 u2 v2 (fun hd0 => ?_) u4 v4 u5 v5⟩
      have hj : j ≠ i := fun e => hne (e ▸ he hd0 his)
      omega
    · rw [if_pos his]
      have e : i = slen := by omega
      exact ⟨_, _, rfl, .stop dst (fun k => absurd k his) (e ▸ .refl _ i)⟩

lemma encodeLoop_same (W fuel : Nat) (dst : Buf) (hs : 0 < slen) (hd : 2 ≤ dlen)
    (he : ∀ k < slen, old k = new k) :
    encodeLoop W old new slen dlen (fuel + 1) 0 dst 0 = .ok (0, dst) := by
  obtain ⟨-, z1, z2⟩ := zrunEnd_spec W old new (Nat.zero_le slen)
  have hj : zrunEnd W old new slen 0 = slen := by
    rcases z2 with z2 | z2
    · exact z2
    · by_contra hne
      exact z2 (he _ (by omega))
  rw [encodeLoop, if_neg (by omega), if_neg (by omega)]
  rw [if_pos (by omega)]

lemma encodeLoop_short (W : Nat) (old new : Buf) (fuel : Nat) (dst : Buf) (hs : 0 < slen)
    (hd : dlen < 2) : encodeLoop W old new slen dlen (fuel + 1) 0 dst 0 = .ok (-1, dst) := by
  rw [encodeLoop, if_neg (by omega), if_pos (by show ((0 : Nat) : Int) + 2 > dlen; omega)]

/-- **Decoding what was encoded gives the new page**, and 0 is returned iff the two pages are equal
and the destination has room for one run. -/
theorem xbzrle_roundtrip (W : Nat) (hW : 0 < W) (old new : Buf) (slen : Nat) (hs : slen % W = 0)
    (hl : slen ≤ 0x3fff) (dst : Buf) (dlen : Int) :
    ∃ n out, xbzrleEncodeBuffer W old new slen dst dlen = .ok (n, out) ∧
      (0 < n → ∃ r buf, xbzrleDecodeBuffer out n.toNat old slen = .ok (r, buf) ∧ 0 ≤ r ∧
        (∀ k < slen, buf k = new k) ∧ ∀ k, slen ≤ k → buf k = old k) ∧
      (0 < slen → (n = 0 ↔ (∀ k < slen, old k = new k) ∧ 2 ≤ dlen)) := by
  obtain ⟨n, out, h1, h2⟩ := encodeLoop_encoded old new dlen hW hl (slen + 1) 0 0 dst
    (Nat.zero_le _) (by omega) (fun _ => rfl) (fun k => absurd rfl k)
  refine ⟨n, out, (if_neg (not_not.mpr hs)).trans h1, fun hn => ?_, fun hs0 => ?_⟩
  · cases h2 with
    | full | same => omega
    | done n _ hle hpos hkeep hdec =>
      obtain ⟨r, buf, d1, d2, d3⟩ :=
        hdec old (n + 1) ⟨fun k hk => by omega, fun _ _ => rfl⟩ (by omega)
      exact ⟨r, buf, d1, d2, d3.done, d3.todo⟩
  · constructor
    · intro hn
      constructor
      · cases h2 with
        | full => omega
        | same _ _ he => exact he
        | done n _ _ hpos _ _ => have := hpos hs0; omega
      · by_contra hd
        rw [encodeLoop_short W old new slen dst hs0 (by omega)] at h1
        injection h1 with h1
        injection h1 with h1 _
        omega
    · intro ⟨he, hd⟩
      rw [encodeLoop_same W slen dst hs0 hd he] at h1
      injection h1 with h1
      injection h1 with h1 _
      exact h1.symm

end

/-- a page of 16 bytes, and the same page with three of them changed -/
def page : Buf := fun k => BitVec.ofNat 8 k
def page' : Buf := poke (poke (poke page 3 0) 4 0) 12 0

theorem xbzrle_roundtrip_page : ∃ n out, xbzrleEncodeBuffer 8 page page' 16 page 64 = .ok (n, out) ∧
    (0 < n → ∃ r buf, xbzrleDecodeBuffer out n.toNat page 16 = .ok (r, buf) ∧ 0 ≤ r ∧
      (∀ k < 16, buf k = page' k) ∧ ∀ k, 16 ≤ k → buf k = page k) ∧
    (0 < 16 → (n = 0 ↔ (∀ k < 16, page k = page' k) ∧ (2 : Int) ≤ 64)) :=
  xbzrle_roundtrip 8 (by decide) page page' 16 (by decide) (by decide) page 64

/-- equal pages, and a destination of one byte: the result is not 0 but -1 -/
theorem equal_pages_no_room : ¬ ((∃ out, xbzrleEncodeBuffer 8 page page 16 page 1 = .ok (0, out)) ↔
    ∀ k < 16, page k = page k) := by
  intro h
  obtain ⟨out, h1⟩ := h.mpr fun _ _ => rfl
  injection h1 with h1
  injection h1 with h1 _
  cases h1

/-! ## any source -/

section
variable {src src' dst : Buf} {slen dlen fuel i d : Nat} (h : ∀ k < slen, src' k = src k)
include h

lemma decodeSmall_congr (hi : ¬ slen - i < 2) :
    uleb128DecodeSmall src' i = uleb128DecodeSmall src i := by
  unfold uleb128DecodeSmall
  rw [h i (by omega), h (i + 1) (by omega)]

lemma memcpy_congr {n : Nat} (hi : i + n ≤ slen) : memcpy dst d src' i n = memcpy dst d src i n := by
  funext k
  unfold memcpy
  split
  · exact h _ (by omega)
  · rfl

lemma decodeLoop_safe (hi : i ≤ slen) (hf : slen < i + fuel) (hd : d ≤ dlen) :
    ∃ r buf, decodeLoop src slen dlen fuel i dst d = .ok (r, buf) ∧
      decodeLoop src' slen dlen fuel i dst d = .ok (r, buf) ∧ -1 ≤ r ∧ r ≤ dlen ∧
      ∀ k, dlen ≤ k → buf k = dst k := by
  induction fuel generalizing i dst d with
  | zero => omega
  | succ fuel ih =>
    unfold decodeLoop
    split
    · exact ⟨d, dst, rfl, rfl, by omega, by omega, fun _ _ => rfl⟩
    split
    · exact ⟨-1, dst, rfl, rfl, by omega, by omega, fun _ _ => rfl⟩
    next hi =>
    rw [decodeSmall_congr h hi]
    iterate 4
      split
      · exact ⟨-1, dst, rfl, rfl, by omega, by omega, fun _ _ => rfl⟩
    next hi =>
    rw [decodeSmall_congr h hi]
    iterate 3
      split
      · exact ⟨-1, dst, rfl, rfl, by omega, by omega, fun _ _ => rfl⟩
    rw [memcpy_congr h (by omega)]
    refine (ih ?_ ?_ ?_).imp fun r ⟨buf, hrun, hrun', h0, h1, hout⟩ =>
      ⟨buf, hrun, hrun', h0, h1, fun k hk => (hout k hk).trans (if_neg (by omega))⟩
    · omega
    · omega
    · omega

end

/-- **whatever the source holds, the decoder returns -1 or a length; it reads the source below
`slen` and writes the destination below `dlen` only** -/
theorem decode_safe (src dst : Buf) (slen dlen : Nat) :
    ∃ r buf, xbzrleDecodeBuffer src slen dst dlen = .ok (r, buf) ∧ -1 ≤ r ∧ r ≤ dlen ∧
      (∀ k, dlen ≤ k → buf k = dst k) ∧ ∀ src', (∀ k < slen, src' k = src k) →
        xbzrleDecodeBuffer src' slen dst dlen = .ok (r, buf) := by
  have hsafe (src' : Buf) (h : ∀ k < slen, src' k = src k) :=
    @decodeLoop_safe src src' dst slen dlen (slen + 1) 0 0 h (by omega) (by omega) (by omega)
  obtain ⟨r, buf, hrun, -, h0, h1, hout⟩ := hsafe src fun _ _ => rfl
  refine ⟨r, buf, hrun, h0, h1, hout, fun src' h => ?_⟩
  obtain ⟨_, _, hrun', hsame, -⟩ := hsafe src' h
  exact hsame.trans (hrun'.symm.trans hrun)

end Xbzrle
