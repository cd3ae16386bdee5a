import Mathlib.Data.Finset.Card
import Mathlib.Logic.Function.Basic

/-!
# Counters

A counter that goes up when a party starts and down when it ends counts the parties between the two.
-/

namespace Rvc.Lib

open Finset

variable {ι : Type*} [DecidableEq ι] {p : ι → Bool} {n n' : Nat} {i : ι}

def Counts (p : ι → Bool) (n : Nat) : Prop :=
  ∃ parties : Finset ι, (∀ i, i ∈ parties ↔ p i = true) ∧ parties.card = n

namespace Counts

omit [DecidableEq ι] in
theorem zero : Counts (fun _ : ι => false) 0 := ⟨∅, by simp, rfl⟩

omit [DecidableEq ι] in
theorem pos (h : Counts p n) (hi : p i = true) : 0 < n := by
  obtain ⟨parties, hmem, rfl⟩ := h
  exact card_pos.mpr ⟨i, (hmem i).mpr hi⟩

theorem update (h : Counts p n) {b : Bool} (hn : n' + (p i).toNat = n + b.toNat) :
    Counts (Function.update p i b) n' := by
  obtain ⟨parties, hmem, rfl⟩ := h
  have hother : ∀ j, j ≠ i → (Function.update p i b j = true ↔ j ∈ parties) := by
    intro j hj
    rw [Function.update_of_ne hj, hmem]
  cases b with
  | true =>
    refine ⟨insert i parties, fun j => ?_, ?_⟩
    · by_cases hj : j = i
      · simp [hj]
      · rw [mem_insert, hother j hj]
        simp [hj]
    · by_cases hi : p i = true
      · rw [insert_eq_self.mpr ((hmem i).mpr hi)]
        rw [hi] at hn
        omega
      · rw [card_insert_of_notMem fun h => hi ((hmem i).mp h)]
        rw [Bool.not_eq_true] at hi
        rw [hi] at hn
        simpa using hn.symm
  | false =>
    refine ⟨parties.erase i, fun j => ?_, ?_⟩
    · by_cases hj : j = i
      · simp [hj]
      · rw [mem_erase, hother j hj]
        simp [hj]
    · by_cases hi : p i = true
      · rw [card_erase_of_mem ((hmem i).mpr hi)]
        rw [hi] at hn
        simp only [Bool.toNat_true, Bool.toNat_false] at hn
        omega
      · rw [erase_eq_of_notMem fun h => hi ((hmem i).mp h)]
        rw [Bool.not_eq_true] at hi
        rw [hi] at hn
        simpa using hn.symm

end Counts

end Rvc.Lib
