import Mathlib.Data.List.Forall2

/-!
# Peeling `Except` computations apart

A computation that ends in `ok` went through `ok` at every step.
-/

namespace Rvc.Lib

open List

variable {ε α β : Type} {f : α → Except ε β}

theorem bind_eq_ok {x : Except ε α} {b : β} : (x >>= f) = .ok b ↔ ∃ a, x = .ok a ∧ f a = .ok b := by
  cases x with
  | error e | ok a => simp [bind, Except.bind]

theorem exists_ok_of_toOption {g : α → β} {x : Except ε α} {b : β} (h : x.toOption.map g = some b) :
    ∃ a, x = .ok a ∧ g a = b := by
  cases x with
  | error e => cases h
  | ok a => exact ⟨a, rfl, Option.some.inj h⟩

theorem mapError_eq_ok {ε' : Type} {g : ε → ε'} {x : Except ε α} {a : α} : x.mapError g = .ok a ↔ x = .ok a := by
  cases x with
  | error e | ok b => simp [Except.mapError]

theorem map_eq_ok {x : Except ε α} {f : α → β} {b : β} : x.map f = .ok b ↔ ∃ a, x = .ok a ∧ f a = b := by
  cases x with
  | error e | ok a => simp [Except.map]

variable {xs : List α} {ys : List β}

theorem mapM_eq_ok : xs.mapM f = .ok ys ↔ List.Forall₂ (fun x y => f x = .ok y) xs ys := by
  induction xs generalizing ys with
  | nil => simp [pure, Except.pure, eq_comm]
  | cons x xs ih =>
    simp only [mapM_cons, bind_eq_ok, ih]
    constructor
    · rintro ⟨y, hy, ys', hys, h⟩
      cases h
      exact .cons hy hys
    · rintro (_ | ⟨hy, hys⟩)
      exact ⟨_, hy, _, hys, rfl⟩

section

variable (h : xs.mapM f = .ok ys)

include h

theorem mapM_append_ok {xs' : List α} {ys' : List β}
    (h' : xs'.mapM f = .ok ys') : (xs ++ xs').mapM f = .ok (ys ++ ys') := by
  rw [mapM_eq_ok] at h h' ⊢
  exact rel_append h h'

theorem exists_of_mem_mapM
    {y : β} (hy : y ∈ ys) : ∃ x ∈ xs, f x = .ok y := by
  rw [mapM_eq_ok] at h
  induction h with
  | nil => simp at hy
  | cons hxy _ ih =>
    rcases mem_cons.mp hy with rfl | hy
    · exact ⟨_, mem_cons_self, hxy⟩
    · obtain ⟨x, hx, hfx⟩ := ih hy
      exact ⟨x, mem_cons_of_mem _ hx, hfx⟩

theorem exists_result_of_mem
    {x : α} (hx : x ∈ xs) : ∃ y ∈ ys, f x = .ok y := by
  rw [mapM_eq_ok] at h
  induction h with
  | nil => simp at hx
  | cons hxy _ ih =>
    rcases mem_cons.mp hx with rfl | hx
    · exact ⟨_, mem_cons_self, hxy⟩
    · obtain ⟨y, hy, hfy⟩ := ih hx
      exact ⟨y, mem_cons_of_mem _ hy, hfy⟩

theorem map_eq_of_mapM {γ : Type} {g : α → γ} {k : β → γ}
    (hf : ∀ x y, f x = .ok y → g x = k y) : xs.map g = ys.map k := by
  rw [mapM_eq_ok] at h
  induction h with
  | nil => rfl
  | cons hxy _ ih => rw [map_cons, map_cons, hf _ _ hxy, ih]

end

theorem mapM_ok_of_forall (h : ∀ x ∈ xs, ∃ y, f x = .ok y) : ∃ ys, xs.mapM f = .ok ys := by
  induction xs with
  | nil => exact ⟨[], rfl⟩
  | cons x xs ih =>
    obtain ⟨y, hy⟩ := h x mem_cons_self
    obtain ⟨ys, hys⟩ := ih fun x hx => h x (mem_cons_of_mem _ hx)
    exact ⟨y :: ys, mapM_eq_ok.mpr (.cons hy (mapM_eq_ok.mp hys))⟩

/-! ### Loops -/

section

variable {σ : Type} {f : σ → α → Except ε σ}

theorem foldlM_invariant {P : σ → Prop} (hstep : ∀ s a s', P s → f s a = .ok s' → P s')
    {s s' : σ} (hs : P s) (h : xs.foldlM f s = .ok s') : P s' := by
  induction xs generalizing s with
  | nil =>
    cases h
    exact hs
  | cons x xs ih =>
    rw [foldlM_cons, bind_eq_ok] at h
    obtain ⟨t, ht, hrest⟩ := h
    exact ih (hstep s x t hs ht) hrest

end

end Rvc.Lib
