import Mathlib.Data.List.Find
import Mathlib.Data.List.Nodup

/-!
# Lists of rows with a key

`AppendsFresh key xs ys`: `ys` is `xs` with rows appended, each at a key that was free. It is how a table
grows under `INSERT … WHERE NOT EXISTS`.
-/

namespace Rvc.Lib

open List

variable {α κ : Type}

theorem filter_key_eq_singleton [DecidableEq κ] {key : α → κ} {xs : List α}
    (hnodup : (xs.map key).Nodup) {x : α} (hx : x ∈ xs) :
    (xs.filter fun y => key y = key x) = [x] := by
  induction xs with
  | nil => simp at hx
  | cons y ys ih =>
    rw [map_cons, nodup_cons] at hnodup
    rcases mem_cons.mp hx with rfl | hx
    · have hrest : (ys.filter fun y => key y = key x) = [] := by
        rw [filter_eq_nil_iff]
        intro z hz
        simpa using fun heq => hnodup.1 (mem_map.mpr ⟨z, hz, heq⟩)
      simp [hrest]
    · have hne : key y ≠ key x := fun heq => hnodup.1 (mem_map.mpr ⟨x, hx, heq.symm⟩)
      rw [filter_cons_of_neg (by simpa using hne)]
      exact ih hnodup.2 hx

theorem find?_eq_of_filter_eq {keep p : α → Bool} {xs ys : List α} (h : xs.filter keep = ys.filter keep)
    (hxs : ∀ x ∈ xs, p x = true → keep x = true) (hys : ∀ y ∈ ys, p y = true → keep y = true) :
    xs.find? p = ys.find? p := by
  have hfind : ∀ zs : List α, (∀ z ∈ zs, p z = true → keep z = true) →
      zs.find? p = (zs.filter keep).find? p := by
    intro zs hzs
    rw [List.find?_filter]
    apply List.find?_congr
    intro z hz
    by_cases hpz : p z = true
    · simp [hpz, hzs z hz hpz]
    · simp [hpz]
  rw [hfind xs hxs, hfind ys hys, h]

/-- `ys` is `xs` followed by rows at distinct keys that `xs` does not have. -/
def AppendsFresh (key : α → κ) (xs ys : List α) : Prop :=
  ∃ added, ys = xs ++ added ∧ (added.map key).Nodup ∧ ∀ a ∈ added, ∀ x ∈ xs, key a ≠ key x

namespace AppendsFresh

variable {key : α → κ} {xs ys zs : List α}

theorem refl (key : α → κ) (xs : List α) : AppendsFresh key xs xs := ⟨[], by simp⟩

theorem single {a : α} (h : ∀ x ∈ xs, key a ≠ key x) : AppendsFresh key xs (xs ++ [a]) :=
  ⟨[a], rfl, by simp, by simpa using h⟩

section

variable (h : AppendsFresh key xs ys)

include h

theorem subset : xs ⊆ ys := by
  obtain ⟨added, rfl, -⟩ := h
  exact subset_append_left _ _

theorem nodup (hxs : (xs.map key).Nodup) : (ys.map key).Nodup := by
  obtain ⟨added, rfl, hnodup, hfresh⟩ := h
  rw [map_append, nodup_append]
  refine ⟨hxs, hnodup, fun k hk k' hk' => ?_⟩
  obtain ⟨x, hx, rfl⟩ := mem_map.mp hk
  obtain ⟨a, ha, rfl⟩ := mem_map.mp hk'
  exact (hfresh a ha x hx).symm

theorem trans (h' : AppendsFresh key ys zs) : AppendsFresh key xs zs := by
  obtain ⟨added, rfl, hnodup, hfresh⟩ := h
  obtain ⟨added', rfl, hnodup', hfresh'⟩ := h'
  have hnew : AppendsFresh key added (added ++ added') :=
    ⟨added', rfl, hnodup', fun a' ha' a ha => hfresh' a' ha' a (mem_append_right _ ha)⟩
  refine ⟨added ++ added', by rw [append_assoc], hnew.nodup hnodup, ?_⟩
  intro a ha x hx
  rcases mem_append.mp ha with ha | ha
  · exact hfresh a ha x hx
  · exact hfresh' a ha x (mem_append_left _ hx)

theorem filter_eq {p : α → Bool} (hnew : ∀ y ∈ ys, y ∉ xs → p y = false) : ys.filter p = xs.filter p := by
  obtain ⟨added, rfl, -, hfresh⟩ := h
  have hnil : added.filter p = [] := filter_eq_nil_iff.mpr fun a ha =>
    Bool.not_eq_true _ ▸ hnew a (mem_append_right _ ha) fun hold => hfresh a ha a hold rfl
  rw [filter_append, hnil, append_nil]

end

end AppendsFresh

def KeyedBy (key : α → κ) (xs : List α) : Prop := ∀ x ∈ xs, ∀ y ∈ xs, key x = key y → x = y

theorem KeyedBy.mono {key : α → κ} {xs ys : List α} (h : KeyedBy key ys) (hsub : xs ⊆ ys) :
    KeyedBy key xs := fun x hx y hy => h x (hsub hx) y (hsub hy)

theorem AppendsFresh.keyedBy {key : α → κ} {xs ys : List α} (h : AppendsFresh key xs ys)
    (hxs : KeyedBy key xs) : KeyedBy key ys := by
  obtain ⟨added, rfl, hnodup, hfresh⟩ := h
  intro x hx y hy heq
  rcases mem_append.mp hx with hx | hx <;> rcases mem_append.mp hy with hy | hy
  · exact hxs x hx y hy heq
  · exact absurd heq.symm (hfresh y hy x hx)
  · exact absurd heq (hfresh x hx y hy)
  · exact inj_on_of_nodup_map hnodup hx hy heq

end Rvc.Lib
