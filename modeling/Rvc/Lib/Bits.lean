import Mathlib.Data.Nat.Bitwise

/-!
# Bits in bytes

Lists of bits packed into bytes, the low bit of a byte first, and read back by position. A list of bits of any length
is told apart from its padding by a bit that is set after the last one (`delimited`).
-/

namespace Rvc.Lib.Bits

open List Nat UInt8

/-! ### One byte -/

def ofBits (bits : List Bool) : Nat := bits.foldr (fun bit rest => bit.toNat + 2 * rest) 0

theorem testBit_ofBits (bits : List Bool) (j : Nat) : (ofBits bits).testBit j = bits.getD j false := by
  induction bits generalizing j with
  | nil => simp [ofBits]
  | cons bit bits ih =>
    have hcons : ofBits (bit :: bits) = Nat.bit bit (ofBits bits) := by
      rw [Nat.bit_val, Nat.add_comm]
      rfl
    rw [hcons]
    cases j with
    | zero => rw [Nat.testBit_bit_zero]; rfl
    | succ j => rw [Nat.testBit_bit_succ, ih]; rfl

theorem ofBits_lt (bits : List Bool) : ofBits bits < 2 ^ bits.length := by
  induction bits with
  | nil => exact Nat.one_pos
  | cons bit bits ih =>
    have hbit : bit.toNat ≤ 1 := Bool.toNat_le bit
    have hcons : ofBits (bit :: bits) = bit.toNat + 2 * ofBits bits := rfl
    rw [hcons, length_cons, pow_succ]
    omega

theorem byte_ext {a b : UInt8} (h : ∀ j < 8, a.toNat.testBit j = b.toNat.testBit j) : a = b := by
  apply UInt8.toNat_inj.mp
  apply Nat.eq_of_testBit_eq
  intro j
  by_cases hj : j < 8
  · exact h j hj
  · have hlow : ∀ c : UInt8, c.toNat.testBit j = false := fun c =>
      Nat.testBit_lt_two_pow (Nat.lt_of_lt_of_le c.toNat_lt (Nat.pow_le_pow_right (by omega) (by omega)))
    rw [hlow, hlow]

/-! ### Bits by position -/

def bitAt (bytes : List UInt8) (n : Nat) : Bool := (bytes.getD (n / 8) 0).toNat.testBit (n % 8)

def byteAt (bits : List Bool) (i : Nat) : UInt8 := UInt8.ofNat (ofBits ((bits.drop (8 * i)).take 8))

def pack (bits : List Bool) : List UInt8 := (List.range ((bits.length + 7) / 8)).map (byteAt bits)

theorem testBit_byteAt (bits : List Bool) (i : Nat) {j : Nat} (hj : j < 8) :
    (byteAt bits i).toNat.testBit j = bits.getD (8 * i + j) false := by
  have hlt : ofBits ((bits.drop (8 * i)).take 8) < 2 ^ 8 :=
    Nat.lt_of_lt_of_le (ofBits_lt _) (Nat.pow_le_pow_right (by omega) (length_take_le _ _))
  rw [byteAt, toNat_ofNat', Nat.mod_eq_of_lt hlt, testBit_ofBits]
  simp only [getD_eq_getElem?_getD, getElem?_take, getElem?_drop, if_pos hj]

theorem byteAt_of_length_le {bits : List Bool} {i : Nat} (h : bits.length ≤ 8 * i) : byteAt bits i = 0 := by
  rw [byteAt, drop_of_length_le h]
  rfl

theorem length_pack (bits : List Bool) : (pack bits).length = (bits.length + 7) / 8 := by
  rw [pack, length_map, length_range]

theorem getD_pack (bits : List Bool) (i : Nat) : (pack bits).getD i 0 = byteAt bits i := by
  rw [getD_eq_getElem?_getD, pack, getElem?_map]
  by_cases hi : i < (bits.length + 7) / 8
  · rw [getElem?_range hi]
    rfl
  · rw [getElem?_eq_none (by rw [length_range]; omega), byteAt_of_length_le (by omega)]
    rfl

/-! ### Bits with a delimiter -/

def delimited (bits : List Bool) : List UInt8 := pack (bits ++ [true])

theorem length_delimited (bits : List Bool) : (delimited bits).length = bits.length / 8 + 1 := by
  rw [delimited, length_pack, length_append, length_singleton]
  omega

theorem bitAt_delimited (bits : List Bool) (n : Nat) : bitAt (delimited bits) n = (bits ++ [true]).getD n false := by
  rw [bitAt, delimited, getD_pack, testBit_byteAt _ _ (mod_lt _ (by omega)), div_add_mod]

def bitLength (bytes : List UInt8) : Nat := 8 * (bytes.length - 1) + Nat.log2 (bytes.getLastD 0).toNat

def undelimited (bytes : List UInt8) : List Bool := (List.range (bitLength bytes)).map (bitAt bytes)

theorem getLastD_eq (bytes : List UInt8) : bytes.getLastD 0 = bytes.getD (bytes.length - 1) 0 := by
  rw [getLastD_eq_getLast?, getLast?_eq_getElem?, getD_eq_getElem?_getD]

theorem length_undelimited (bytes : List UInt8) : (undelimited bytes).length = bitLength bytes := by
  rw [undelimited, length_map, length_range]

variable {bytes : List UInt8}

theorem getD_undelimited {n : Nat} (hn : n < bitLength bytes) : (undelimited bytes).getD n false = bitAt bytes n := by
  rw [getD_eq_getElem?_getD, undelimited, getElem?_map, getElem?_range hn]
  rfl

theorem bitAt_bitLength (hlast : bytes.getLastD 0 ≠ 0) :
    bitLength bytes < 8 * bytes.length ∧ bitAt bytes (bitLength bytes) = true ∧
      ∀ n, bitLength bytes < n → bitAt bytes n = false := by
  have hnonzero : (bytes.getLastD 0).toNat ≠ 0 := fun h => hlast (UInt8.toNat_inj.mp h)
  have hpos : bytes.length ≠ 0 := by
    intro h
    rw [eq_nil_of_length_eq_zero h] at hlast
    exact hlast rfl
  have hlog : Nat.log2 (bytes.getLastD 0).toNat < 8 := (Nat.log2_lt hnonzero).mpr (UInt8.toNat_lt _)
  have hdiv : bitLength bytes / 8 = bytes.length - 1 := by rw [bitLength]; omega
  have hmod : bitLength bytes % 8 = Nat.log2 (bytes.getLastD 0).toNat := by rw [bitLength]; omega
  refine ⟨by rw [bitLength]; omega, ?_, fun n hn => ?_⟩
  · rw [bitAt, hdiv, hmod, ← getLastD_eq]
    exact Nat.testBit_log2 hnonzero
  · by_cases hin : n / 8 = bytes.length - 1
    · -- in the last byte, above its highest bit
      rw [bitAt, hin, ← getLastD_eq]
      apply Nat.testBit_lt_two_pow
      refine Nat.lt_of_lt_of_le Nat.lt_log2_self (Nat.pow_le_pow_right (by omega) ?_)
      omega
    · rw [bitAt, getD_eq_getElem?_getD, getElem?_eq_none (by omega)]
      exact Nat.zero_testBit _

theorem bitLength_delimited (bits : List Bool) :
    (delimited bits).getLastD 0 ≠ 0 ∧ bitLength (delimited bits) = bits.length := by
  have hlen := length_delimited bits
  have hlastIndex : (delimited bits).length - 1 = bits.length / 8 := by omega
  have hbit : ∀ j < 8, ((delimited bits).getLastD 0).toNat.testBit j =
      (bits ++ [true]).getD (8 * (bits.length / 8) + j) false := by
    intro j hj
    rw [getLastD_eq, hlastIndex, delimited, getD_pack, testBit_byteAt _ _ hj]
  have hset : ((delimited bits).getLastD 0).toNat.testBit (bits.length % 8) = true := by
    rw [hbit _ (Nat.mod_lt _ (by omega)), Nat.div_add_mod, getD_append_right _ _ _ _ (Nat.le_refl _), Nat.sub_self]
    rfl
  have hnonzero : ((delimited bits).getLastD 0).toNat ≠ 0 := by
    intro h
    rw [h, Nat.zero_testBit] at hset
    cases hset
  have hlog : Nat.log2 ((delimited bits).getLastD 0).toNat = bits.length % 8 := by
    refine (Nat.log2_eq_iff hnonzero).mpr ⟨Nat.ge_two_pow_of_testBit hset, ?_⟩
    apply Nat.lt_pow_two_of_testBit
    intro j hj
    by_cases hj8 : j < 8
    · rw [hbit j hj8, getD_append_right _ _ _ _ (by omega), getD_eq_getElem?_getD,
        getElem?_eq_none (by rw [length_singleton]; omega)]
      rfl
    · exact Nat.testBit_lt_two_pow (Nat.lt_of_lt_of_le (toNat_lt _) (Nat.pow_le_pow_right (by omega) (by omega)))
  refine ⟨fun h => hnonzero (by rw [h]; rfl), ?_⟩
  rw [bitLength, hlog, hlastIndex, Nat.div_add_mod]

theorem delimited_eq_iff {bits : List Bool} :
    delimited bits = bytes ↔ bytes.getLastD 0 ≠ 0 ∧ bits = undelimited bytes := by
  constructor
  · rintro rfl
    obtain ⟨hlast, hlength⟩ := bitLength_delimited bits
    refine ⟨hlast, ext_getElem? fun n => ?_⟩
    rw [undelimited, hlength, getElem?_map]
    by_cases hn : n < bits.length
    · rw [getElem?_range hn, Option.map_some, bitAt_delimited, getD_append _ _ _ _ hn,
        getD_eq_getElem _ _ hn, getElem?_eq_getElem hn]
    · rw [getElem?_eq_none (by omega), getElem?_eq_none (by rw [length_range]; omega)]
      rfl
  · rintro ⟨hlast, rfl⟩
    obtain ⟨hlt, hset, hclear⟩ := bitAt_bitLength hlast
    have hlength : (delimited (undelimited bytes)).length = bytes.length := by
      rw [length_delimited, length_undelimited]
      have hlog : bitLength bytes = 8 * (bytes.length - 1) + Nat.log2 (bytes.getLastD 0).toNat := rfl
      omega
    -- byte by byte, and each byte bit by bit
    refine ext_getElem hlength fun i hi hi' => ?_
    apply byte_ext
    intro j hj
    have hpos : (8 * i + j) / 8 = i ∧ (8 * i + j) % 8 = j := by omega
    have hread : ∀ {l : List UInt8} (h : i < l.length), l[i].toNat.testBit j = bitAt l (8 * i + j) := by
      intro l h
      rw [bitAt, hpos.1, hpos.2, getD_eq_getElem _ _ h]
    rw [hread hi, hread hi', bitAt_delimited]
    rcases Nat.lt_trichotomy (8 * i + j) (bitLength bytes) with hn | hn | hn
    · rw [getD_append _ _ _ _ (by rw [length_undelimited]; exact hn), getD_undelimited hn]
    · rw [getD_append_right _ _ _ _ (by rw [length_undelimited]; omega), length_undelimited, hn, Nat.sub_self, hset]
      rfl
    · rw [hclear _ hn, getD_eq_getElem?_getD, getElem?_eq_none]
      · rfl
      · rw [length_append, length_undelimited, length_singleton]
        omega

end Rvc.Lib.Bits
