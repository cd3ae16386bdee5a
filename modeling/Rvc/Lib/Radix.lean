import Mathlib.Data.Nat.Digits.Lemmas

/-!
# Numbers in bytes

The value of a list of bytes, the most significant one first, and the two passes of school arithmetic over it. A pass
changes every byte and hands something on to the next one: from the first byte to the last as in long division
(`passDown`), or from the last to the first as in multiplication (`passUp`). What a pass computes follows from what one
step of it does (`value_passDown`, `value_passUp`).
-/

namespace Rvc.Lib.Radix

open Nat

/-- The number with these bytes, the most significant one first. -/
def value (bytes : List UInt8) : ℕ := Nat.ofDigits 256 (bytes.reverse.map UInt8.toNat)

@[simp] theorem value_nil : value [] = 0 := rfl

theorem value_cons (byte : UInt8) (bytes : List UInt8) :
    value (byte :: bytes) = value bytes + 256 ^ bytes.length * byte.toNat := by
  simp [value, ofDigits_append]

theorem digits_lt (bytes : List UInt8) : ∀ digit ∈ bytes.map UInt8.toNat, digit < 256 := by
  intro digit hdigit
  obtain ⟨byte, _, rfl⟩ := List.mem_map.mp hdigit
  exact byte.toNat_lt

theorem value_lt (bytes : List UInt8) : value bytes < 256 ^ bytes.length := by
  have hlt := ofDigits_lt_base_pow_length (by decide : 1 < 256) (digits_lt bytes.reverse)
  simpa [value] using hlt

theorem value_inj {a b : List UInt8} (hlen : a.length = b.length) (h : value a = value b) : a = b := by
  have hmap : a.reverse.map UInt8.toNat = b.reverse.map UInt8.toNat :=
    ofDigits_inj_of_len_eq (by decide : 1 < 256) (by simpa using hlen) (digits_lt _) (digits_lt _) h
  have hinj : Function.Injective UInt8.toNat := fun _ _ => UInt8.toNat_inj.mp
  exact List.reverse_injective (hinj.list_map hmap)

theorem value_eq_zero_iff {bytes : List UInt8} : value bytes = 0 ↔ ∀ byte ∈ bytes, byte = 0 := by
  induction bytes with
  | nil => simp
  | cons byte bytes ih =>
    rw [value_cons, List.forall_mem_cons, ← ih, Nat.add_eq_zero_iff, Nat.mul_eq_zero, ← UInt8.toNat_inj]
    simp [and_comm]

/-! ### Passes -/

variable {γ : Type*}

def passDown (step : γ → UInt8 → UInt8 × γ) : γ → List UInt8 → List UInt8 × γ
  | carry, [] => ([], carry)
  | carry, byte :: bytes =>
    let here := step carry byte
    let rest := passDown step here.2 bytes
    (here.1 :: rest.1, rest.2)

def passUp (step : γ → UInt8 → UInt8 × γ) : γ → List UInt8 → List UInt8 × γ
  | carry, [] => ([], carry)
  | carry, byte :: bytes =>
    let rest := passUp step carry bytes
    let here := step rest.2 byte
    (here.1 :: rest.1, here.2)

variable {step : γ → UInt8 → UInt8 × γ} {weight : γ → ℕ} {good : γ → Prop} {d : ℕ}

@[simp] theorem length_passDown (carry : γ) (bytes : List UInt8) :
    (passDown step carry bytes).1.length = bytes.length := by
  induction bytes generalizing carry with
  | nil => rfl
  | cons byte bytes ih => exact congrArg succ (ih _)

@[simp] theorem length_passUp (carry : γ) (bytes : List UInt8) : (passUp step carry bytes).1.length = bytes.length := by
  induction bytes with
  | nil => rfl
  | cons byte bytes ih => exact congrArg succ ih

theorem value_passDown (hstep : ∀ carry byte, good carry → good (step carry byte).2 ∧
      d * (step carry byte).1.toNat + weight (step carry byte).2 = 256 * weight carry + byte.toNat)
    {carry : γ} (hcarry : good carry) (bytes : List UInt8) : good (passDown step carry bytes).2 ∧
      d * value (passDown step carry bytes).1 + weight (passDown step carry bytes).2 =
        256 ^ bytes.length * weight carry + value bytes := by
  induction bytes generalizing carry with
  | nil => exact ⟨hcarry, by simp [passDown]⟩
  | cons byte bytes ih =>
    obtain ⟨hhere, heq⟩ := hstep carry byte hcarry
    obtain ⟨hgood, hrest⟩ := ih hhere
    refine ⟨hgood, ?_⟩
    show d * value ((step carry byte).1 :: (passDown step (step carry byte).2 bytes).1) + _ = _
    rw [value_cons, value_cons, length_passDown, List.length_cons]
    calc d * (value (passDown step (step carry byte).2 bytes).1 + 256 ^ bytes.length * (step carry byte).1.toNat) +
          weight (passDown step (step carry byte).2 bytes).2
        = (d * value (passDown step (step carry byte).2 bytes).1 + weight (passDown step (step carry byte).2 bytes).2) +
            256 ^ bytes.length * (d * (step carry byte).1.toNat) := by ring
      _ = 256 ^ bytes.length * (d * (step carry byte).1.toNat + weight (step carry byte).2) + value bytes := by
          rw [hrest]; ring
      _ = 256 ^ (bytes.length + 1) * weight carry + (value bytes + 256 ^ bytes.length * byte.toNat) := by
          rw [heq]; ring

theorem value_passUp (hstep : ∀ carry byte, good carry → good (step carry byte).2 ∧
      (step carry byte).1.toNat + 256 * weight (step carry byte).2 = d * byte.toNat + weight carry)
    {carry : γ} (hcarry : good carry) (bytes : List UInt8) : good (passUp step carry bytes).2 ∧
      value (passUp step carry bytes).1 + 256 ^ bytes.length * weight (passUp step carry bytes).2 =
        d * value bytes + weight carry := by
  induction bytes with
  | nil => exact ⟨hcarry, by simp [passUp]⟩
  | cons byte bytes ih =>
    obtain ⟨hgood, hrest⟩ := ih
    obtain ⟨hhere, heq⟩ := hstep _ byte hgood
    refine ⟨hhere, ?_⟩
    show value ((step (passUp step carry bytes).2 byte).1 :: (passUp step carry bytes).1) +
      256 ^ (bytes.length + 1) * weight (step (passUp step carry bytes).2 byte).2 = _
    rw [value_cons, value_cons, length_passUp]
    calc value (passUp step carry bytes).1 + 256 ^ bytes.length * (step (passUp step carry bytes).2 byte).1.toNat +
          256 ^ (bytes.length + 1) * weight (step (passUp step carry bytes).2 byte).2
        = value (passUp step carry bytes).1 + 256 ^ bytes.length * ((step (passUp step carry bytes).2 byte).1.toNat +
            256 * weight (step (passUp step carry bytes).2 byte).2) := by ring
      _ = (value (passUp step carry bytes).1 + 256 ^ bytes.length * weight (passUp step carry bytes).2) +
            256 ^ bytes.length * (d * byte.toNat) := by rw [heq]; ring
      _ = d * (value bytes + 256 ^ bytes.length * byte.toNat) + weight carry := by rw [hrest]; ring

end Rvc.Lib.Radix
