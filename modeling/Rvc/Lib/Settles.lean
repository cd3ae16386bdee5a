import Mathlib.Tactic.Common

/-!
# Runs that end

A system with a choice of steps settles in `P` when every run of it ends, whatever is chosen, and ends where `P` holds.
It does if an invariant holds throughout, every step brings a measure down, and the invariant gives `P` where no step
is left (`Settles.of_measure`).
-/

namespace Rvc.Lib

variable {σ : Type*}

/-- Every run from the state ends, and ends where `P` holds. -/
inductive Settles (step : σ → σ → Prop) (P : σ → Prop) : σ → Prop
  | stop {s : σ} (hstop : ∀ t, ¬ step s t) (h : P s) : Settles step P s
  | go {s : σ} (hmove : ∃ t, step s t) (h : ∀ t, step s t → Settles step P t) : Settles step P s

theorem Settles.of_measure {step : σ → σ → Prop} {P : σ → Prop} (inv : σ → Prop) (todo : σ → ℕ)
    (hinv : ∀ {s t}, inv s → step s t → inv t) (htodo : ∀ {s t}, step s t → todo t < todo s)
    (hend : ∀ {s}, inv s → (∀ t, ¬ step s t) → P s) {s : σ} (hs : inv s) : Settles step P s := by
  induction hn : todo s using Nat.strongRecOn generalizing s with
  | ind n ih =>
    by_cases hmove : ∃ t, step s t
    · refine .go hmove fun t hstep => ?_
      exact ih (todo t) (hn ▸ htodo hstep) (hinv hs hstep) rfl
    · have hstop : ∀ t, ¬ step s t := fun t hstep => hmove ⟨t, hstep⟩
      exact .stop hstop (hend hs hstop)

end Rvc.Lib
