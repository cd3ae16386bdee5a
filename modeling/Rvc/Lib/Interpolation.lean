import Mathlib.LinearAlgebra.Lagrange

/-!
# The value at zero of an interpolated polynomial

A polynomial of degree below the number of points is known at zero from its values at the points. The coefficients of
that combination depend on the points only.
-/

namespace Rvc.Lib.Interpolation

open Polynomial Lagrange

section

variable {F ι : Type} [Field F] [DecidableEq ι] (s : Finset ι) (v : ι → F)

def coefficient (i : ι) : F := ∏ j ∈ s.erase i, v j * (v j - v i)⁻¹

variable {s v}

theorem eval_zero_basis (i : ι) : (Lagrange.basis s v i).eval 0 = coefficient s v i := by
  rw [Lagrange.basis, eval_prod, coefficient]
  refine Finset.prod_congr rfl fun j _ => ?_
  rw [Lagrange.basisDivisor, eval_mul, eval_C, eval_sub, eval_X, eval_C, zero_sub, mul_comm, ← neg_sub, inv_neg,
    neg_mul_neg]

theorem sum_coefficient_mul (hv : Set.InjOn v s) {f : F[X]} (hf : f.degree < s.card) :
    ∑ i ∈ s, coefficient s v i * f.eval (v i) = f.eval 0 := by
  have hinterpolate := congrArg (eval 0) (eq_interpolate hv hf)
  rw [interpolate_apply, eval_finsetSum] at hinterpolate
  rw [hinterpolate]
  refine Finset.sum_congr rfl fun i _ => ?_
  rw [eval_mul, eval_C, eval_zero_basis, mul_comm]

end

end Rvc.Lib.Interpolation
