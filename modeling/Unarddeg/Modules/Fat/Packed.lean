import Unarddeg.Modules.Fat.Table

/-!
# Entries of 12 bits

`FatNextCluster12` of `modules/fat/main.c`. Two entries share three bytes. The function reads four
bytes of one sector and does not mask the result for an odd cluster, so the entry behind shows up in
it, and near the end of a sector it reads behind its buffer (`fatNextCluster12_iff`).
-/

namespace Unarddeg.Fat

open Library

/-- A byte of the first table, whose sectors lie one behind the other. -/
def tableByte (vol : FATVolume) (drive : Drive) (position : Nat) : BitVec 8 :=
  readSector vol drive (fatFirstFat vol + .ofNat 32 (position / vol.bytes.toNat))
    (position % vol.bytes.toNat)

/-- The place of an entry of 12 bits on the table. -/
def packedPlace (cluster : BitVec 16) : Nat := cluster.toNat + cluster.toNat / 2

/-- The word of the table with an entry of 12 bits. -/
def packedWord (vol : FATVolume) (drive : Drive) (cluster : BitVec 16) : BitVec 16 :=
  little 16 fun index => tableByte vol drive (packedPlace cluster + index)

/-- An entry of 12 bits: the low bits of its word for an even cluster, the high ones for an odd
one. -/
def packedEntry (vol : FATVolume) (drive : Drive) (cluster : BitVec 16) : BitVec 12 :=
  if cluster.toNat % 2 = 0 then (packedWord vol drive cluster).setWidth 12
  else (packedWord vol drive cluster >>> 4).setWidth 12

/-- The low half of the byte behind the word of an entry, which belongs to the next entry if the
cluster is odd. -/
def halfBehind (vol : FATVolume) (drive : Drive) (cluster : BitVec 16) : BitVec 8 :=
  tableByte vol drive (packedPlace cluster + 2) &&& 0x0F

section Words

variable {bytes : Nat → BitVec 8}

/-- Masking four bytes leaves the low part of the first two. -/
theorem masked_word : ((little 32 bytes &&& 0x0FFF).setWidth 16 : BitVec 16) =
    ((little 16 bytes).setWidth 12).setWidth 16 := by
  have mask : ∀ place < 32, (0x0FFF : BitVec 32).getLsbD place = decide (place < 12) := by
    decide
  apply BitVec.eq_of_getLsbD_eq
  intro place small
  rw [BitVec.getLsbD_setWidth, BitVec.getLsbD_and, getLsbD_little (by omega),
    mask place (by omega), BitVec.getLsbD_setWidth, BitVec.getLsbD_setWidth,
    getLsbD_little (by omega)]
  by_cases low : place < 12 <;> simp [low, small]

/-- Shifting four bytes leaves the high part of the first two, and the low half of the third above
it. -/
theorem shifted_word {place : Nat} (small : place < 16) :
    ((little 32 bytes >>> 4).setWidth 16 : BitVec 16).getLsbD place =
      if place < 12 then
        (((little 16 bytes >>> 4).setWidth 12).setWidth 16 : BitVec 16).getLsbD place
      else (bytes 2).getLsbD (place - 12) := by
  rw [BitVec.getLsbD_setWidth, BitVec.getLsbD_ushiftRight, getLsbD_little (by omega)]
  split
  · rename_i low
    rw [BitVec.getLsbD_setWidth, BitVec.getLsbD_setWidth, BitVec.getLsbD_ushiftRight,
      getLsbD_little (by omega)]
    simp [small, low]
  · rename_i high
    have byte : (4 + place) / 8 = 2 := by omega
    have bit : (4 + place) % 8 = place - 12 := by omega
    rw [byte, bit]
    simp [small]

/-- Nothing shows up above the entry exactly when the half is zero. -/
theorem shifted_word_eq_iff : ((little 32 bytes >>> 4).setWidth 16 : BitVec 16) =
    ((little 16 bytes >>> 4).setWidth 12).setWidth 16 ↔ bytes 2 &&& 0x0F = 0 := by
  have mask : ∀ place < 8, (0x0F : BitVec 8).getLsbD place = decide (place < 4) := by
    decide
  have above : ∀ place < 16, ¬ place < 12 →
      (((little 16 bytes >>> 4).setWidth 12).setWidth 16 : BitVec 16).getLsbD place = false := by
    intro place small high
    rw [BitVec.getLsbD_setWidth, BitVec.getLsbD_setWidth]
    simp [high]
  constructor
  · intro same
    apply BitVec.eq_of_getLsbD_eq
    intro place small
    rw [BitVec.getLsbD_and, mask place small]
    by_cases low : place < 4
    · have bit := @shifted_word bytes (place + 12) (by omega)
      rw [same, above _ (by omega) (by omega), if_neg (by omega), Nat.add_sub_cancel] at bit
      simp [← bit]
    · simp [low]
  · intro zero
    apply BitVec.eq_of_getLsbD_eq
    intro place small
    rw [shifted_word small]
    split
    · rfl
    · rename_i high
      have bit := congrArg (fun byte : BitVec 8 => byte.getLsbD (place - 12)) zero
      simp only [BitVec.getLsbD_and, mask _ (show place - 12 < 8 by omega)] at bit
      rw [above place small high]
      simpa [show place - 12 < 4 by omega] using bit

end Words

section Entries

variable {vol : FATVolume} {drive : Drive} {cluster : BitVec 16}

/-- The place on the table does not wrap. -/
theorem packedPlace_toNat (cluster : BitVec 16) :
    (cluster.setWidth 32 + cluster.setWidth 32 / 2 : BitVec 32).toNat = packedPlace cluster := by
  have small := cluster.isLt
  have wide : (cluster.setWidth 32).toNat = cluster.toNat :=
    BitVec.toNat_setWidth_of_le (by decide)
  have half : (cluster.setWidth 32 / 2 : BitVec 32).toNat = cluster.toNat / 2 := by
    rw [BitVec.toNat_udiv, wide]
    rfl
  rw [BitVec.toNat_add, wide, half, packedPlace, Nat.mod_eq_of_lt]
  omega

/-- A cluster is odd when its lowest bit is set. -/
theorem odd_iff : cluster &&& 1 ≠ 0 ↔ ¬ cluster.toNat % 2 = 0 := by
  have low : (cluster &&& 1).toNat = cluster.toNat % 2 := by
    rw [BitVec.toNat_and]
    exact Nat.and_one_is_mod _
  have zero : cluster &&& 1 = 0 ↔ cluster.toNat % 2 = 0 := by
    rw [← low]
    constructor
    · intro same
      rw [same]
      rfl
    · intro same
      exact BitVec.eq_of_toNat_eq same
  exact not_congr zero

/-- The bytes in the buffer are those of the table, as far as the sector goes. -/
theorem tableByte_eq {position index : Nat}
    (inside : position % vol.bytes.toNat + index < vol.bytes.toNat) :
    tableByte vol drive (position + index) =
      readSector vol drive (fatFirstFat vol + .ofNat 32 (position / vol.bytes.toNat))
        (position % vol.bytes.toNat + index) := by
  have positive : 0 < vol.bytes.toNat := by omega
  have whole : position + index = position % vol.bytes.toNat + index +
      vol.bytes.toNat * (position / vol.bytes.toNat) := by
    have parts := Nat.mod_add_div position vol.bytes.toNat
    omega
  have sector : (position + index) / vol.bytes.toNat = position / vol.bytes.toNat := by
    rw [whole, Nat.add_mul_div_left _ _ positive, Nat.div_eq_of_lt inside, Nat.zero_add]
  have place : (position + index) % vol.bytes.toNat = position % vol.bytes.toNat + index := by
    rw [whole, Nat.add_mul_mod_self_left, Nat.mod_eq_of_lt inside]
  unfold tableByte
  rw [sector, place]

/-- `FatNextCluster12` on the table: a read behind the buffer, or a part of the four bytes. -/
theorem fatNextCluster12_eq (vol : FATVolume) (drive : Drive) (cluster : BitVec 16) :
    fatNextCluster12 vol drive cluster =
      if packedPlace cluster % vol.bytes.toNat + 4 ≤ vol.bytes.toNat then
        .ok (let word := little 32 fun index => tableByte vol drive (packedPlace cluster + index)
          if cluster.toNat % 2 = 0 then (word &&& 0x0FFF).setWidth 16
          else (word >>> 4).setWidth 16)
      else .error .outOfBounds := by
  have place := packedPlace_toNat cluster
  have sector : (cluster.setWidth 32 + cluster.setWidth 32 / 2) / vol.bytes =
      .ofNat 32 (packedPlace cluster / vol.bytes.toNat) := by
    apply BitVec.eq_of_toNat_eq
    have small := cluster.isLt
    have less : packedPlace cluster / vol.bytes.toNat ≤ packedPlace cluster := Nat.div_le_self ..
    rw [BitVec.toNat_udiv, place, BitVec.toNat_ofNat, Nat.mod_eq_of_lt]
    unfold packedPlace at less ⊢
    omega
  have offset : ((cluster.setWidth 32 + cluster.setWidth 32 / 2) % vol.bytes).toNat =
      packedPlace cluster % vol.bytes.toNat := by
    rw [BitVec.toNat_umod, place]
  unfold fatNextCluster12 sectorWord
  simp only [sector, offset]
  by_cases inside : packedPlace cluster % vol.bytes.toNat + 4 ≤ vol.bytes.toNat
  · have bytes : little 32 (slice (readSector vol drive (fatFirstFat vol +
        .ofNat 32 (packedPlace cluster / vol.bytes.toNat)))
          (packedPlace cluster % vol.bytes.toNat)) =
        little 32 fun index => tableByte vol drive (packedPlace cluster + index) := by
      apply little_congr
      intro index small
      exact (tableByte_eq (by omega)).symm
    rw [if_pos inside, if_pos (show _ + 32 / 8 ≤ _ from inside), bytes]
    by_cases even : cluster.toNat % 2 = 0
    · have low : ¬ cluster &&& 1 ≠ 0 := fun odd => odd_iff.mp odd even
      simp only [if_pos even, if_neg low]
      rfl
    · have low : cluster &&& 1 ≠ 0 := odd_iff.mpr even
      simp only [if_neg even, if_pos low]
      rfl
  · rw [if_neg inside, if_neg (show ¬ _ + 32 / 8 ≤ _ from inside)]
    rfl

/-- On a volume below 4 GiB the bytes of the table lie one behind the other on the drive. -/
theorem tableByte_low {position : Nat} (small : position / vol.bytes.toNat < 2 ^ 16)
    (low : sectorStart vol (vol.reservedSectors.toNat + position / vol.bytes.toNat) < 2 ^ 32) :
    tableByte vol drive position =
      drive (sectorStart vol vol.reservedSectors.toNat + position) := by
  have reserved := vol.reservedSectors.isLt
  have sector : (fatFirstFat vol + .ofNat 32 (position / vol.bytes.toNat)).toNat =
      vol.reservedSectors.toNat + position / vol.bytes.toNat := by
    rw [fatFirstFat, BitVec.toNat_add, BitVec.toNat_setWidth_of_le (by decide),
      BitVec.toNat_ofNat, Nat.mod_eq_of_lt (a := position / _) (by omega),
      Nat.mod_eq_of_lt (by omega)]
  rw [← sector] at low
  unfold tableByte readSector slice
  rw [(fatSectorToOffset_eq_iff vol _).mpr low, sector]
  congr 1
  have parts := Nat.div_add_mod' position vol.bytes.toNat
  simp only [sectorStart, Nat.add_mul]
  omega

end Entries

/-- The boot sector of a small volume with 12-bit entries. -/
def packedBoot : Nat → BitVec 8
  | 12 => 2
  | 13 => 1
  | 14 => 1
  | 16 => 2
  | 19 => 103
  | 22 => 1
  | 38 => 0x29
  | _ => 0

/-- A drive with the chain of the clusters 3, 4 and 5 on the table. -/
def packedDrive : Drive
  | 516 => 0x40
  | 518 => 0x05
  | 519 => 0xF0
  | 520 => 0xFF
  | _ => 0

end Unarddeg.Fat
