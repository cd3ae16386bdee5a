import Mathlib.Data.Finset.Lattice.Fold
import Mathlib.Order.Bounds.Basic
import Mathlib.Order.Lattice.Nat
import Rvc.Slashing.Interchange.Export

/-!
# The least closed floor

What `attestation_synthetic_bounds` is for. A target `T` is a closed floor when it is not under the watermark and
no row above it has a source under `S(T)`, the largest source the floor stands for: then `(S(T), T)` can replace
the rows up to `T` without a conflict with those above. The loop starts at the watermark and raises the target
only to a row that every closed floor must take in, so it ends at the least one. What is closed depends on the
set of rows, not on their order or on repeats.
-/

namespace Rvc.Slashing

open List

/-! ### Closed floors -/

section

variable (rows : Finset (Nat × Nat)) (sourceWm target : Nat)

/-- `S(T)`: the source watermark, or the largest source of a row up to `T` if that is larger. -/
def floorSource : Nat :=
  max sourceWm ((rows.filter fun row => row.2 ≤ target).sup (·.1))

def ClosedFloor (targetWm target : Nat) : Prop :=
  targetWm ≤ target ∧ ∀ row ∈ rows, target < row.2 → floorSource rows sourceWm target ≤ row.1

/-- The bounds of a floor, as an error when no vote can have them. -/
def floorBounds : Except (Nat × Nat) (Nat × Nat) :=
  if target < floorSource rows sourceWm target then .error (floorSource rows sourceWm target, target)
  else .ok (floorSource rows sourceWm target, target)

end

theorem floorSource_mono (rows : Finset (Nat × Nat)) (sourceWm : Nat) {target target' : Nat}
    (h : target ≤ target') : floorSource rows sourceWm target ≤ floorSource rows sourceWm target' := by
  refine max_le_max le_rfl (Finset.sup_mono fun row hrow => ?_)
  rw [Finset.mem_filter] at hrow ⊢
  exact ⟨hrow.1, hrow.2.trans h⟩

/-! ### The loop ends at the least one -/

theorem sourceBound_eq (rows : List (Nat × Nat)) (sourceWm target : Nat) :
    sourceBound rows sourceWm target = floorSource rows.toFinset sourceWm target := by
  unfold sourceBound floorSource
  induction rows generalizing sourceWm with
  | nil => simp
  | cons row rows ih =>
    rw [foldl_cons, ih, toFinset_cons, Finset.filter_insert]
    split
    · rw [Finset.sup_insert, max_assoc]
    · rfl

section

variable {rows : List (Nat × Nat)} {sourceWm targetWm : Nat}

theorem ClosedFloor.raisedTarget_le {bound next target : Nat}
    (hclosed : ClosedFloor rows.toFinset sourceWm targetWm target) (hle : bound ≤ target)
    (hnext : raisedTarget rows (sourceBound rows sourceWm bound) bound = some next) : next ≤ target := by
  obtain ⟨row, hrow, rfl⟩ := mem_map.mp (max?_mem hnext)
  obtain ⟨hmem, hlow⟩ := mem_filter.mp hrow
  simp only [decide_eq_true_eq] at hlow
  by_contra habove
  have hsource := hclosed.2 row (mem_toFinset.mpr hmem) (Nat.not_le.mp habove)
  have hmono := floorSource_mono rows.toFinset sourceWm hle
  rw [sourceBound_eq] at hlow
  omega

theorem syntheticLoop_isLeast (rows : List (Nat × Nat)) (sourceWm targetWm : Nat) :
    IsLeast {target | ClosedFloor rows.toFinset sourceWm targetWm target} (syntheticLoop rows sourceWm targetWm).2 ∧
      (syntheticLoop rows sourceWm targetWm).1 =
        floorSource rows.toFinset sourceWm (syntheticLoop rows sourceWm targetWm).2 := by
  induction targetWm using syntheticLoop.induct rows sourceWm with
  | case1 bound next hnext ih =>
    have hloop : syntheticLoop rows sourceWm bound = syntheticLoop rows sourceWm next := by
      rw [syntheticLoop]
      split <;> simp_all
    obtain ⟨row, -, hlt, rfl⟩ := raisedTarget_some hnext
    obtain ⟨⟨hclosed, hleast⟩, hsource⟩ := ih
    rw [hloop]
    refine ⟨⟨⟨hlt.le.trans hclosed.1, hclosed.2⟩, fun target htarget => ?_⟩, hsource⟩
    exact hleast ⟨htarget.raisedTarget_le htarget.1 hnext, htarget.2⟩
  | case2 bound hnone =>
    have hloop : syntheticLoop rows sourceWm bound = (sourceBound rows sourceWm bound, bound) := by
      rw [syntheticLoop]
      split <;> simp_all
    rw [hloop]
    refine ⟨⟨⟨le_rfl, fun row hrow hlt => ?_⟩, fun target htarget => htarget.1⟩, sourceBound_eq ..⟩
    rw [← sourceBound_eq]
    exact raisedTarget_none hnone row (mem_toFinset.mp hrow) hlt

end

/-- **The synthetic bounds are the least closed floor.** The loop ends; what it returns is `(S(T), T)` for the
least closed `T`, an error exactly when `S(T)` is over `T`; and rows in another order or repeated give the same. -/
theorem attestationSyntheticBounds_least (rows : List (Nat × Nat)) (sourceWm targetWm : Nat) :
    (∃ target, IsLeast {target | ClosedFloor rows.toFinset sourceWm targetWm target} target ∧
        attestationSyntheticBounds rows sourceWm targetWm = floorBounds rows.toFinset sourceWm target) ∧
      ∀ rows' : List (Nat × Nat), (∀ row, row ∈ rows' ↔ row ∈ rows) →
        attestationSyntheticBounds rows' sourceWm targetWm =
          attestationSyntheticBounds rows sourceWm targetWm := by
  have hbounds : ∀ rows : List (Nat × Nat), attestationSyntheticBounds rows sourceWm targetWm =
      floorBounds rows.toFinset sourceWm (syntheticLoop rows sourceWm targetWm).2 := by
    intro rows
    have hsource := (syntheticLoop_isLeast rows sourceWm targetWm).2
    rw [attestationSyntheticBounds, floorBounds, ← hsource]
  have hleast := (syntheticLoop_isLeast rows sourceWm targetWm).1
  refine ⟨⟨_, hleast, hbounds rows⟩, fun rows' hsame => ?_⟩
  have hset : rows'.toFinset = rows.toFinset := by
    ext row
    simpa using hsame row
  have hleast' := (syntheticLoop_isLeast rows' sourceWm targetWm).1
  rw [hset] at hleast'
  rw [hbounds, hbounds, hset, hleast'.unique hleast]

/-- From the watermarks `(1, 4)` the row `(3, 8)` has to be taken in, whatever the order of the rows. -/
theorem attestationSyntheticBounds_least_reordered :
    attestationSyntheticBounds [(3, 8), (1, 2), (4, 5), (1, 2), (0, 5)] 1 4 = .ok (4, 8) := by
  obtain ⟨-, hsame⟩ := attestationSyntheticBounds_least [(1, 2), (0, 5), (4, 5), (3, 8)] 1 4
  have hbounds : attestationSyntheticBounds [(1, 2), (0, 5), (4, 5), (3, 8)] 1 4 = .ok (4, 8) := by
    decide +kernel
  rw [hsame _ (by simp only [mem_cons, not_mem_nil, or_false]; tauto), hbounds]

end Rvc.Slashing
