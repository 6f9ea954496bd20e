import Mathlib.Data.Nat.Bitwise

/-!
# The sector registers of an IDE drive

Model of `ide_get_sector` and `ide_set_sector` in `hw/ide/core.c`.  Sector numbers are not
negative, so they are natural numbers here; a register takes the low eight bits.

* `get_set_sector`: the registers hold every number that the mode can represent;
* `sector_moves_iff`: when the mode and drive bits of `select` survive.
-/

namespace Ide
open BitVec

structure IDEState where
  (select hcyl lcyl sector hobHcyl hobLcyl hobSector : BitVec 8)
  lba48 : Bool
  (heads sectors : Nat)
  heads_range : 1 ≤ heads ∧ heads ≤ 16
  sectors_range : 1 ≤ sectors ∧ sectors ≤ 255

/-- bit 6 of `select` -/
def IDEState.lba (s : IDEState) : Bool := s.select &&& 0x40 != 0

def ideGetSector (s : IDEState) : Int :=
  if s.lba then
    if !s.lba48 then
      ((s.select &&& 0x0f).toNat <<< 24 ||| s.hcyl.toNat <<< 16 ||| s.lcyl.toNat <<< 8 |||
        s.sector.toNat : Nat)
    else
      (s.hobHcyl.toNat <<< 40 ||| s.hobLcyl.toNat <<< 32 ||| s.hobSector.toNat <<< 24 |||
        s.hcyl.toNat <<< 16 ||| s.lcyl.toNat <<< 8 ||| s.sector.toNat : Nat)
  else
    (s.hcyl.toNat <<< 8 ||| s.lcyl.toNat : Nat) * s.heads * s.sectors +
      (s.select &&& 0x0f).toNat * s.sectors + (s.sector.toNat - 1)

def ideSetSector (s : IDEState) (sectorNum : Nat) : IDEState :=
  if s.lba then
    if !s.lba48 then
      { s with
        select := (s.select &&& 0xf0) ||| .ofNat 8 (sectorNum >>> 24)
        hcyl := .ofNat 8 (sectorNum >>> 16)
        lcyl := .ofNat 8 (sectorNum >>> 8)
        sector := .ofNat 8 sectorNum }
    else
      { s with
        sector := .ofNat 8 sectorNum
        lcyl := .ofNat 8 (sectorNum >>> 8)
        hcyl := .ofNat 8 (sectorNum >>> 16)
        hobSector := .ofNat 8 (sectorNum >>> 24)
        hobLcyl := .ofNat 8 (sectorNum >>> 32)
        hobHcyl := .ofNat 8 (sectorNum >>> 40) }
  else
    let cyl := sectorNum / (s.heads * s.sectors) % 4294967296
    let r := sectorNum % (s.heads * s.sectors)
    { s with
      hcyl := .ofNat 8 (cyl >>> 8)
      lcyl := .ofNat 8 cyl
      select := (s.select &&& 0xf0) ||| (.ofNat 8 (r / s.sectors) &&& 0x0f)
      sector := .ofNat 8 (r % s.sectors + 1) }

/-- how many sectors the mode can address -/
def IDEState.limit (s : IDEState) : Nat :=
  if s.lba then (if !s.lba48 then 268435456 else 281474976710656)
  else 65536 * (s.heads * s.sectors)

/-- the four high bits of `select`: the mode and the drive -/
def IDEState.high (s : IDEState) : BitVec 8 := s.select &&& 0xf0

/-- the number is held by the registers and the mode and drive bits are as before -/
def SectorMoves (s : IDEState) (n : Nat) : Prop :=
  (n < s.limit → ideGetSector (ideSetSector s n) = n) ∧ (ideSetSector s n).high = s.high

/-- a bit of `sectorNum >> 24` that reaches the high bits of `select` is set there already -/
def HighBitsFit (s : IDEState) (n : Nat) : Prop :=
  s.lba = true → s.lba48 = false →
    ∀ i < 8, 4 ≤ i → n.testBit (24 + i) = true → s.select.getLsbD i = true

/-! ## the registers -/

lemma bytes_join (n k : Nat) :
    (n >>> (k + 8)) <<< (k + 8) ||| (BitVec.ofNat 8 (n >>> k)).toNat <<< k = (n >>> k) <<< k := by
  apply Nat.eq_of_testBit_eq
  intro i
  rw [toNat_ofNat]
  simp only [Nat.testBit_or, Nat.testBit_shiftLeft, Nat.testBit_mod_two_pow]
  by_cases h : k + 8 ≤ i
  · simp [h, show k ≤ i by omega]
  · simp [h, show i - k < 8 by omega]

lemma bytes_last (n : Nat) : (n >>> 8) <<< 8 ||| (BitVec.ofNat 8 n).toNat = n := bytes_join n 0

lemma toNat_byte {n : Nat} (h : n < 256) : (BitVec.ofNat 8 n).toNat = n := by
  rw [toNat_ofNat, Nat.mod_eq_of_lt h]

variable (a b : BitVec 8)

lemma low_of_or : (a &&& 0xf0 ||| b) &&& 0x0f = b &&& 0x0f := by
  rw [BitVec.and_or_distrib_right, BitVec.and_assoc]
  simp

lemma getLsbD_f0 : ∀ i < 8, (0xf0 : BitVec 8).getLsbD i = decide (4 ≤ i) := by decide

lemma high_of_or : (a &&& 0xf0 ||| b) &&& 0xf0 = a &&& 0xf0 ||| b &&& 0xf0 := by
  rw [BitVec.and_or_distrib_right, BitVec.and_assoc, BitVec.and_self]

lemma toNat_low {n : Nat} (h : n < 16) : (BitVec.ofNat 8 n &&& 0x0f).toNat = n := by
  rw [toNat_and, toNat_byte (by omega)]
  exact (Nat.and_two_pow_sub_one_eq_mod n 4).trans (Nat.mod_eq_of_lt h)

lemma lba_of_high {s s' : IDEState} (h : s'.high = s.high) : s'.lba = s.lba := by
  have hbit : ∀ x : BitVec 8, x &&& 0x40 = (x &&& 0xf0) &&& 0x40 := fun x => by
    rw [BitVec.and_assoc]
    rfl
  unfold IDEState.lba
  rw [hbit, hbit s.select]
  unfold IDEState.high at h
  rw [h]

variable {s : IDEState} {n : Nat}

lemma shift_lt {k c : Nat} (h : n < 2 ^ k * c) : n >>> k < c := by
  rw [Nat.shiftRight_eq_div_pow]
  exact Nat.div_lt_of_lt_mul h

lemma get_set_sector (hn : n < s.limit) (hlba : (ideSetSector s n).lba = s.lba) :
    ideGetSector (ideSetSector s n) = n := by
  unfold IDEState.limit at hn
  unfold ideGetSector
  rw [hlba]
  unfold ideSetSector
  cases hm : s.lba
  · obtain ⟨h1, h2⟩ := s.heads_range
    obtain ⟨h3, h4⟩ := s.sectors_range
    simp only [hm, Bool.false_eq_true, if_false] at hn ⊢
    have hcyl : n / (s.heads * s.sectors) < 65536 := Nat.div_lt_of_lt_mul (by rwa [Nat.mul_comm])
    have hhead : n % (s.heads * s.sectors) / s.sectors < s.heads :=
      Nat.div_lt_of_lt_mul (by rw [Nat.mul_comm s.sectors]; exact Nat.mod_lt _ (Nat.mul_pos h1 h3))
    have hsector : n % (s.heads * s.sectors) % s.sectors < s.sectors := Nat.mod_lt _ h3
    rw [toNat_byte (n := _ + 1) (by omega), low_of_or, BitVec.and_assoc, BitVec.and_self,
      toNat_low (by omega), Nat.mod_eq_of_lt (by omega : _ < 4294967296),
      toNat_byte (shift_lt (c := 256) hcyl), bytes_last]
    have hall : n / (s.heads * s.sectors) * s.heads * s.sectors +
        n % (s.heads * s.sectors) / s.sectors * s.sectors +
          n % (s.heads * s.sectors) % s.sectors = n := by
      rw [Nat.mul_assoc, Nat.add_assoc, Nat.div_add_mod', Nat.div_add_mod']
    rw [Int.natCast_succ, Int.add_sub_cancel]
    exact_mod_cast hall
  · cases h48 : s.lba48
    · simp only [hm, h48, Bool.not_false, if_true] at hn ⊢
      rw [low_of_or, toNat_low (shift_lt hn), bytes_join n 16, bytes_join n 8, bytes_last]
    · simp only [hm, h48, Bool.not_true, if_true, Bool.false_eq_true, if_false] at hn ⊢
      rw [toNat_byte (shift_lt hn), bytes_join n 32, bytes_join n 24, bytes_join n 16,
        bytes_join n 8, bytes_last]

lemma high_set_iff : (ideSetSector s n).high = s.high ↔ HighBitsFit s n := by
  unfold HighBitsFit IDEState.high ideSetSector
  cases hm : s.lba
  · simp only [Bool.false_eq_true, if_false, high_of_or, BitVec.and_assoc]
    simp
  · cases h48 : s.lba48
    · simp only [Bool.not_false, if_true, high_of_or, forall_const]
      rw [BitVec.eq_of_getLsbD_eq_iff]
      refine forall₂_congr fun i hi => ?_
      rw [getLsbD_or, getLsbD_and, getLsbD_and, getLsbD_f0 i hi, getLsbD_ofNat,
        Nat.testBit_shiftRight]
      cases s.select.getLsbD i <;> cases n.testBit (24 + i) <;> simp [hi]
    · simp

/-- **the sector registers**: a number that the mode can represent is held, and the mode and drive
bits survive unless a bit of the number falls on a clear one of them -/
theorem sector_moves_iff (s : IDEState) (n : Nat) : SectorMoves s n ↔ HighBitsFit s n := by
  rw [← high_set_iff]
  exact ⟨fun h => h.2, fun h => ⟨fun hn => get_set_sector hn (lba_of_high h), h⟩⟩

/-- one step past the last sector of a 28 bit address selects the other drive -/
theorem sector_other_drive : ∃ s : IDEState, ideGetSector s = 268435455 ∧
    ¬ SectorMoves s (268435455 + 1) :=
  ⟨⟨0x4f, 0xff, 0xff, 0xff, 0, 0, 0, false, 16, 63, by decide, by decide⟩, by decide,
    fun h => absurd h.2 (by decide)⟩

end Ide
