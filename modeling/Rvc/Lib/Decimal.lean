import Mathlib.Algebra.Ring.Nat
import Mathlib.Tactic.Common

/-!
# Decimal text of a `u64`

`parseU64` reads a text the way Rust's `str::parse::<u64>` does: one optional `+`, then at least one
ASCII digit and nothing else, and a value that fits. `u64::to_string` is `Nat.repr`, and reading back
what it wrote gives the number (`parseU64_repr`).
-/

namespace Rvc.Lib

open Nat

def stripPlus : List Char → List Char
  | '+' :: rest => rest
  | digits => digits

/-- The value of a non-empty digit text that fits in a `u64`. -/
def digitsValue (digits : List Char) : Option Nat :=
  if digits ≠ [] ∧ digits.all Char.isDigit ∧ Nat.ofDigitChars 10 digits 0 < 2 ^ 64 then
    some (Nat.ofDigitChars 10 digits 0)
  else
    none

def parseU64 (s : String) : Option Nat := digitsValue (stripPlus s.toList)

theorem parseU64_lt {s : String} {n : Nat} (h : parseU64 s = some n) : n < 2 ^ 64 := by
  unfold parseU64 digitsValue at h
  split at h
  · next hdigits => exact Option.some.inj h ▸ hdigits.2.2
  · cases h

theorem stripPlus_of_isDigit {cs : List Char} (h : ∀ c ∈ cs, c.isDigit) : stripPlus cs = cs := by
  unfold stripPlus
  split
  · exact absurd (h '+' (by simp)) (by decide)
  · rfl

theorem parseU64_repr {n : Nat} (h : n < 2 ^ 64) : parseU64 n.repr = some n := by
  have hdigit : ∀ c ∈ toDigits 10 n, c.isDigit := fun c hc =>
    isDigit_of_mem_toDigits (by decide) (by decide) hc
  have hvalue : ofDigitChars 10 (toDigits 10 n) 0 = n := ofDigitChars_ten_toDigits
  have hall : (toDigits 10 n).all Char.isDigit = true := List.all_eq_true.mpr hdigit
  rw [parseU64, toList_repr, stripPlus_of_isDigit hdigit, digitsValue, hvalue]
  exact if_pos ⟨toDigits_ne_nil, hall, h⟩

example : parseU64 "+18446744073709551615" = some (2 ^ 64 - 1) := by decide

example : parseU64 "18446744073709551616" = none := by decide

end Rvc.Lib
