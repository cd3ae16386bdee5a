import Mathlib.Algebra.Ring.Nat
import Mathlib.Data.Nat.ModEq

/-!
# Slices of a list, and numbers in bytes

A slice is the part of a list between two positions. A list that was put together from parts of known lengths gives
them back as slices, and slices that meet make up the list; a format with offsets is read and written with these two
facts. Numbers stand in it in little-endian order, in a fixed number of bytes.
-/

namespace Rvc.Lib

open List Nat

variable {α : Type*}

/-! ### Slices -/

def slice (l : List α) (start stop : Nat) : List α := (l.take stop).drop start

variable {l a b c : List α} {i j k n : Nat}

theorem length_slice : (slice l i j).length = min j l.length - i := by
  rw [slice, length_drop, length_take]

theorem length_slice_of_le (h : j ≤ l.length) : (slice l i j).length = j - i := by
  rw [length_slice, min_eq_left h]

theorem slice_zero_of_length_le (h : l.length ≤ j) : slice l 0 j = l := by
  rw [slice, take_of_length_le h, drop_zero]

theorem slice_length : slice l i l.length = l.drop i := by
  rw [slice, take_length]

theorem slice_append_slice (hij : i ≤ j) (hjk : j ≤ k) : slice l i j ++ slice l j k = slice l i k := by
  have htake : l.take k = l.take j ++ (l.take k).drop j := by
    conv_lhs => rw [← take_append_drop j (l.take k), take_take, min_eq_left hjk]
  have hdrop : (l.take k).drop i = (l.take j).drop i ++ (l.take k).drop j := by
    by_cases hlen : i ≤ (l.take j).length
    · conv_lhs => rw [htake, drop_append_of_le_length hlen]
    · -- the list ends before `i`, and all three slices are empty
      have hshort : l.length ≤ i := by
        rw [length_take] at hlen
        omega
      rw [drop_of_length_le (by rw [length_take]; omega), drop_of_length_le (by rw [length_take]; omega),
        drop_of_length_le (by rw [length_take]; omega), append_nil]
  exact hdrop.symm

theorem slice_append_drop (hij : i ≤ j) : slice l i j ++ l.drop j = l.drop i := by
  by_cases hj : j ≤ l.length
  · rw [← slice_length, ← slice_length, slice_append_slice hij hj]
  · rw [drop_of_length_le (Nat.le_of_not_le hj), append_nil, slice, take_of_length_le (Nat.le_of_not_le hj)]

theorem slice_append_left (h : j ≤ a.length) : slice (a ++ b) i j = slice a i j := by
  rw [slice, take_append_of_le_length h, slice]

theorem slice_append_right (ha : a.length = n) (h : n ≤ i) : slice (a ++ b) i j = slice b (i - n) (j - n) := by
  rw [slice, slice, take_append, drop_append, ha]
  have hnil : (a.take j).drop i = [] := drop_of_length_le (by rw [length_take]; omega)
  have hmin : (a.take j).length = min j n := by rw [length_take, ha]
  rw [hnil, nil_append, hmin]
  by_cases hj : n ≤ j
  · rw [Nat.min_eq_right hj]
  · rw [Nat.sub_eq_zero_of_le (Nat.le_of_not_le hj), take_zero, drop_nil, drop_nil]

theorem slice_append_self (ha : a.length = n) : slice (a ++ b) 0 n = a := by
  rw [slice_append_left (le_of_eq ha.symm), slice_zero_of_length_le (le_of_eq ha)]

theorem slice_append_middle (ha : a.length = n) : slice (a ++ (b ++ c)) n (n + b.length) = b := by
  rw [slice_append_right ha (Nat.le_refl n), Nat.sub_self, Nat.add_sub_cancel_left, slice_append_self rfl]

theorem drop_append_append (ha : a.length = n) : (a ++ (b ++ c)).drop (n + b.length) = c := by
  rw [← append_assoc, drop_left' (by rw [length_append, ha])]

theorem slice_slice (h : i + k ≤ j) : slice (slice l i j) n k = slice (l.drop i) n k := by
  have htake : (slice l i j).take k = (l.drop i).take k := by
    rw [slice, drop_take, take_take, min_eq_left (by omega)]
  rw [slice, htake, slice]

theorem slice_slice_end : slice (slice l i j) n (slice l i j).length = slice l (i + n) j := by
  rw [slice_length, slice, slice, drop_drop]

/-! ### Tilings -/

/-- Intervals that follow each other from one position to another, without gap or overlap. -/
def Tiles : List (Nat × Nat) → Nat → Nat → Prop
  | [], start, stop => start = stop
  | part :: parts, start, stop => part.1 = start ∧ start ≤ part.2 ∧ Tiles parts part.2 stop

theorem Tiles.le {parts : List (Nat × Nat)} (h : Tiles parts i j) : i ≤ j := by
  induction parts generalizing i with
  | nil => exact le_of_eq h
  | cons part parts ih => exact le_trans h.2.1 (ih h.2.2)

theorem Tiles.flatten_slice {parts : List (Nat × Nat)} (h : Tiles parts i j) :
    (parts.map fun part => slice l part.1 part.2).flatten = slice l i j := by
  induction parts generalizing i with
  | nil =>
    obtain rfl : i = j := h
    rw [map_nil, flatten_nil, slice, drop_take, Nat.sub_self, take_zero]
  | cons part parts ih =>
    obtain ⟨rfl, hle, hrest⟩ := h
    rw [map_cons, flatten_cons, ih hrest, slice_append_slice hle hrest.le]

/-! ### Little-endian numbers -/

namespace LittleEndian

def toBytes : Nat → Nat → List UInt8
  | 0, _ => []
  | width + 1, n => UInt8.ofNat n :: toBytes width (n / 256)

def ofBytes (bytes : List UInt8) : Nat := bytes.foldr (fun byte rest => byte.toNat + 256 * rest) 0

@[simp] theorem length_toBytes (width n : Nat) : (toBytes width n).length = width := by
  induction width generalizing n with
  | zero => rfl
  | succ width ih => rw [toBytes, length_cons, ih]

theorem ofBytes_cons (byte : UInt8) (bytes : List UInt8) :
    ofBytes (byte :: bytes) = byte.toNat + 256 * ofBytes bytes := rfl

theorem ofBytes_toBytes (width n : Nat) : ofBytes (toBytes width n) = n % 256 ^ width := by
  induction width generalizing n with
  | zero => rw [pow_zero, mod_one]; rfl
  | succ width ih =>
    rw [toBytes, ofBytes_cons, ih, UInt8.toNat_ofNat', pow_succ' 256 width, mod_mul]

theorem ofBytes_toBytes_of_lt {width : Nat} (h : n < 256 ^ width) : ofBytes (toBytes width n) = n := by
  rw [ofBytes_toBytes, mod_eq_of_lt h]

theorem ofBytes_lt (bytes : List UInt8) : ofBytes bytes < 256 ^ bytes.length := by
  induction bytes with
  | nil => exact one_pos
  | cons byte bytes ih =>
    have hbyte : byte.toNat < 256 := byte.toNat_lt
    rw [ofBytes_cons, length_cons, pow_succ]
    omega

theorem toBytes_ofBytes {width : Nat} {bytes : List UInt8} (h : bytes.length = width) :
    toBytes width (ofBytes bytes) = bytes := by
  induction bytes generalizing width with
  | nil => rw [← h]; rfl
  | cons byte bytes ih =>
    have hbyte : byte.toNat < 256 := byte.toNat_lt
    have hlow : UInt8.ofNat (byte.toNat + 256 * ofBytes bytes) = byte := by
      apply UInt8.toNat_inj.mp
      rw [UInt8.toNat_ofNat']
      omega
    have hhigh : (byte.toNat + 256 * ofBytes bytes) / 256 = ofBytes bytes := by omega
    rw [← h, length_cons, toBytes, ofBytes_cons, hlow, hhigh, ih rfl]

end LittleEndian

end Rvc.Lib
